import Blueprint.Batch
import Blueprint.CommandLine
import Blueprint.Log.Line

/-!
# The program

The program reads its command line, runs the batch it asks for and ends with an exit
status: 0 if every structure was written, 1 if some failed, and 2 if the run as a whole
failed or the command line was refused.

On its way it writes log lines, each when it happens. The filter for them is the one that
the environment sets; if there is none, or it is wrong, the switches decide.
-/

namespace Blueprint

/-- How the program ends. -/
structure Ending where
  /-- the exit status -/
  status : Nat
  /-- what goes to standard output -/
  output : String
  /-- what goes to standard error, after all log lines -/
  errors : String
deriving DecidableEq, Repr

/-! ## Without a run -/

/-- The name and version of the program. -/
def versionText : String := "structgen 0.1.0\n"

/-- What the command line looks like. -/
def helpText : String :=
  "Compiles JSON structure plans into gzip NBT structure templates\n\n" ++
  "Usage: structgen [-v | -q] compile --out <DIR> [OPTIONS]\n\n" ++
  "      --plans <DIR>        directory of the plans (default: plans)\n" ++
  "      --templates <DIR>    directory of the templates (default: templates)\n" ++
  "      --allowlist <FILE>   allowlist (default: allowlist.json)\n" ++
  "      --out <DIR>          directory for the structures\n" ++
  "      --rotate <DEGREES>   clockwise turn: 0, 90, 180 or 270\n" ++
  "      --mirror <MIRROR>    none, left_right or front_back\n" ++
  "      --include-entities   keep entities\n" ++
  "      --biome <BIOME>      biome to build, repeatable (default: all)\n" ++
  "      --jobs <NUMBER>      plans compiled at the same time\n" ++
  "  -v, --verbose            log in detail\n" ++
  "  -q, --quiet              log warnings and errors only\n" ++
  "  -h, --help               show this text\n" ++
  "  -V, --version            show the version\n"

/-- The end of a program whose command line leads to no run. -/
def CommandLine.Stop.ending : CommandLine.Stop → Ending
  | help => ⟨0, helpText, ""⟩
  | version => ⟨0, versionText, ""⟩
  | refused e => ⟨2, "", s!"error: {e.message}\n\n{helpText}"⟩

/-! ## With a run -/

/-- The filter for log lines: that of the environment, or else the level of the command
line. -/
def logFilter (setting : Option String) (level : LogLevel) : LogFilter :=
  (setting.bind LogFilter.parse).getD (.ofLevel level)

/-- The log line of an event. -/
def Event.line (time : String) (e : Event) : String := LogLine.render e.level time e.text

/-- The end of a program after its run. -/
def Batch.Summary.ending (s : Batch.Summary) : Ending :=
  ⟨s.exitStatus, s.report, s.failureReport⟩

namespace Program

variable {m : Type → Type} [Monad m] [Disk m]

/-- Writes the log line of an event, if the filter lets it through. -/
def log (write : String → m Unit) (clock : m String) (filter : LogFilter) (e : Event) : m Unit := do
  if filter.allows e.target e.level then
    write (e.line (← clock))

/-- Runs a batch to its end. -/
def runBatch (note : Event → m Unit) (c : Batch.Config) : m Ending := do
  match ← (Batch.run note c).run with
  | .ok summary => return summary.ending
  | .error e =>
    note (.fatal e)
    return ⟨2, "", ""⟩

/-- Runs the program. Log lines go to `write`, with the time that `clock` shows. -/
def run (write : String → m Unit) (clock : m String) (setting : Option String)
    (arguments : List String) : m Ending :=
  match CommandLine.parse arguments with
  | .error stop => return stop.ending
  | .ok i => runBatch (log write clock (logFilter setting i.level)) i.config

end Program

end Blueprint
