/-!
# Log levels

A run reports what it does as log lines of five levels, shown under four severities.
-/

namespace Blueprint

/-- How important a line is. -/
inductive LogLevel where
  | error
  | warn
  | info
  | debug
  | trace
deriving DecidableEq, Repr

namespace LogLevel

/-- How much a level lets through: a level lets through itself and all more important
ones. -/
def verbosity : LogLevel → Nat
  | error => 1
  | warn => 2
  | info => 3
  | debug => 4
  | trace => 5

/-- The name of a level. -/
def text : LogLevel → String
  | error => "error"
  | warn => "warn"
  | info => "info"
  | debug => "debug"
  | trace => "trace"

/-- The severity under which lines of a level are shown. -/
def severity : LogLevel → String
  | error => "ERROR"
  | warn => "WARNING"
  | info => "INFO"
  | debug => "DEBUG"
  | trace => "DEBUG"

/-- All levels. -/
def all : List LogLevel := [error, warn, info, debug, trace]

end LogLevel

end Blueprint
