import Blueprint.Biome

/-!
# Switches and settings

A switch is on or off, a setting has a value. The command `compile` knows all settings and
most switches; in front of it only the switches of the program as a whole are known.
-/

namespace Blueprint.CommandLine

/-! ## Switches -/

/-- What can be switched on. -/
inductive Switch where
  /-- log what is done in detail -/
  | verbose
  /-- log warnings and errors only -/
  | quiet
  /-- put entities into the structures -/
  | includeEntities
  /-- show what the command line looks like -/
  | help
  /-- show the version -/
  | version
deriving DecidableEq, Repr

namespace Switch

/-- The name of a switch. -/
def name : Switch → String
  | verbose => "verbose"
  | quiet => "quiet"
  | includeEntities => "include-entities"
  | help => "help"
  | version => "version"

/-- The letter of a switch. -/
def letter? : Switch → Option Char
  | verbose => some 'v'
  | quiet => some 'q'
  | includeEntities => none
  | help => some 'h'
  | version => some 'V'

end Switch

/-- The two places for switches. -/
inductive Level where
  /-- in front of the command -/
  | program
  /-- after `compile` -/
  | compile
deriving DecidableEq, Repr

/-- The switches that a level knows. -/
def Level.switches : Level → List Switch
  | program => [.verbose, .quiet, .help, .version]
  | compile => [.verbose, .quiet, .includeEntities, .help]

/-! ## Settings -/

/-- What has a value. -/
inductive Setting where
  | plans
  | templates
  | allowlist
  | out
  | rotate
  | mirror
  | biome
  | jobs
deriving DecidableEq, Repr

namespace Setting

/-- The name of a setting. -/
def name : Setting → String
  | plans => "plans"
  | templates => "templates"
  | allowlist => "allowlist"
  | out => "out"
  | rotate => "rotate"
  | mirror => "mirror"
  | biome => "biome"
  | jobs => "jobs"

/-- All settings. -/
def all : List Setting := [plans, templates, allowlist, out, rotate, mirror, biome, jobs]

/-- The setting with a name. -/
def ofName? (name : String) : Option Setting := all.find? fun s => s.name == name

end Setting

/-! ## Refusals -/

/-- Why a command line is refused. -/
inductive UsageError where
  /-- there is no command -/
  | noCommand
  | unknownCommand (given : String)
  /-- an argument means nothing where it stands -/
  | unexpected (argument : String)
  /-- a switch has a value -/
  | switchValue (s : Switch)
  /-- a switch is given twice -/
  | switchTwice (s : Switch)
  /-- the log is to be longer and shorter -/
  | verboseQuiet
  /-- a setting has no value -/
  | noValue (s : Setting)
  | badValue (s : Setting) (given : String)
  /-- a setting is given twice -/
  | settingTwice (s : Setting)
  /-- a setting that must be given is not -/
  | required (s : Setting)
deriving DecidableEq, Repr

/-- Why the command line is refused. -/
def UsageError.message : UsageError → String
  | noCommand => "a command is required"
  | unknownCommand given => s!"unrecognized command '{given}'"
  | unexpected argument => s!"unexpected argument '{argument}'"
  | switchValue s => s!"--{s.name} takes no value"
  | switchTwice s => s!"--{s.name} is given more than once"
  | verboseQuiet => s!"--{Switch.verbose.name} and --{Switch.quiet.name} exclude each other"
  | noValue s => s!"--{s.name} needs a value"
  | badValue s given => s!"invalid value '{given}' for --{s.name}"
  | settingTwice s => s!"--{s.name} is given more than once"
  | required s => s!"--{s.name} is required"

/-- Why a command line does not lead to a run. -/
inductive Stop where
  /-- help was asked for -/
  | help
  /-- the version was asked for -/
  | version
  | refused (e : UsageError)
deriving DecidableEq, Repr

end Blueprint.CommandLine
