import Blueprint.Batch.Config
import Blueprint.CommandLine.Option
import Blueprint.CommandLine.Token
import Blueprint.Log

/-!
# The command line

Arguments are read from left to right, and the first one that is wrong, or asks for help or
the version, decides. A switch or setting is given once at each level, apart from biomes,
which add up. What only the whole line can show is looked at last: switches that exclude
each other, and settings that are missing.
-/

namespace Blueprint

/-- A run as the command line asks for it. -/
structure Invocation where
  /-- how much is logged -/
  level : LogLevel
  /-- the directory of the plans -/
  plans : Path
  /-- the directory of the templates -/
  templates : Path
  /-- the file of the allowlist -/
  allowlist : Path
  /-- the directory for the structures -/
  out : Path
  /-- how plans are compiled -/
  options : CompileOptions
  /-- the biomes named -/
  biomes : List String
  /-- how many plans may be compiled at the same time, if that is given -/
  jobs : Option Nat
deriving DecidableEq, Repr

/-- The settings of the run. -/
def Invocation.config (i : Invocation) : Batch.Config where
  plans := i.plans
  templates := i.templates
  allowlist := i.allowlist
  out := i.out
  options := i.options
  biomes := i.biomes
  jobs := i.jobs.getD 1

namespace CommandLine

/-! ## Switches -/

/-- Switches one more thing on. -/
def turnOn (on : List Switch) (s : Switch) : Except Stop (List Switch) :=
  match s with
  | .help => throw .help
  | .version => throw .version
  | s => if on.contains s then throw (.refused (.switchTwice s)) else return s :: on

/-- Switches on what a letter stands for. -/
def turnOnLetter (level : Level) (on : List Switch) (letter : Char) : Except Stop (List Switch) :=
  match level.switches.find? fun s => s.letter? == some letter with
  | some s => turnOn on s
  | none => throw (.refused (.unexpected ("-" ++ letter.toString)))

/-- Switches on what a name stands for. -/
def turnOnName (level : Level) (on : List Switch) (name : String) (value : Option String) :
    Except Stop (List Switch) :=
  match level.switches.find? fun s => s.name == name with
  | some s => if value.isSome then throw (.refused (.switchValue s)) else turnOn on s
  | none => throw (.refused (.unexpected ("--" ++ name)))

/-- Switches that exclude each other are not given together. -/
def checkSwitches (on : List Switch) : Except Stop Unit :=
  if on.contains .verbose && on.contains .quiet then throw (.refused .verboseQuiet) else return ()

/-- How much is logged with these switches on. -/
def logLevel (on : List Switch) : LogLevel :=
  if on.contains .verbose then .debug else if on.contains .quiet then .warn else .info

/-! ## Settings -/

/-- What has been given after `compile`. -/
structure Given where
  /-- the switches that are on -/
  on : List Switch
  plans : Option Path
  templates : Option Path
  allowlist : Option Path
  out : Option Path
  rotation : Option Rotation
  mirror : Option Mirror
  /-- the biomes, in the order given -/
  biomes : List String
  jobs : Option Nat

/-- Nothing has been given. -/
def Given.nothing : Given := ⟨[], none, none, none, none, none, none, [], none⟩

/-- The value of a setting that has none yet. -/
def once {α : Type} (s : Setting) (text : String) (old : Option α) (value : Option α) :
    Except Stop (Option α) :=
  match old, value with
  | some _, _ => throw (.refused (.settingTwice s))
  | none, some v => return some v
  | none, none => throw (.refused (.badValue s text))

/-- A path as a value. -/
def path? (text : String) : Option Path := if text.isEmpty then none else some ⟨text⟩

/-- A number of jobs as a value. -/
def jobs? (text : String) : Option Nat := (Text.natural? UInt64.size text.toList).filter (0 < ·)

/-- Gives a setting its value. -/
def Given.set (g : Given) (s : Setting) (text : String) : Except Stop Given :=
  match s with
  | .plans => return { g with plans := ← once s text g.plans (path? text) }
  | .templates => return { g with templates := ← once s text g.templates (path? text) }
  | .allowlist => return { g with allowlist := ← once s text g.allowlist (path? text) }
  | .out => return { g with out := ← once s text g.out (path? text) }
  | .rotate => return { g with rotation := ← once s text g.rotation (Rotation.parse text).toOption }
  | .mirror => return { g with mirror := ← once s text g.mirror (Mirror.parse text).toOption }
  | .jobs => return { g with jobs := ← once s text g.jobs (jobs? text) }
  | .biome =>
    if Biome.supported.contains text then return { g with biomes := g.biomes ++ [text] }
    else throw (.refused (.badValue s text))

/-- Reads what follows `compile`. A setting without an equals sign takes the next argument,
which must be a plain word. -/
def readCompile (g : Given) : List String → Except Stop Given
  | [] => return g
  | argument :: rest =>
    match Token.ofText argument with
    | .plain text => throw (.refused (.unexpected text))
    | .separator =>
      match rest with
      | [] => return g
      | extra :: _ => throw (.refused (.unexpected extra))
    | .short letters => do
      let on ← letters.foldlM (turnOnLetter .compile) g.on
      readCompile { g with on := on } rest
    | .long name value =>
      match Setting.ofName? name with
      | none => do
        let on ← turnOnName .compile g.on name value
        readCompile { g with on := on } rest
      | some s =>
        match value with
        | some text => do
          let g ← g.set s text
          readCompile g rest
        | none =>
          match rest with
          | [] => throw (.refused (.noValue s))
          | next :: rest =>
            match Token.ofText next with
            | .plain text => do
              let g ← g.set s text
              readCompile g rest
            | _ => throw (.refused (.noValue s))

/-- The run asked for by what is given after `compile`, and by the switches in front of
it. -/
def Given.invocation (outer : List Switch) (g : Given) : Except Stop Invocation :=
  match g.out with
  | none => throw (.refused (.required .out))
  | some out => do
    checkSwitches g.on
    checkSwitches outer
    return {
      level := logLevel (outer ++ g.on)
      plans := g.plans.getD ⟨"plans"⟩
      templates := g.templates.getD ⟨"templates"⟩
      allowlist := g.allowlist.getD ⟨"allowlist.json"⟩
      out
      options := ⟨g.rotation.getD .deg0, g.mirror.getD .off, g.on.contains .includeEntities⟩
      biomes := g.biomes
      jobs := g.jobs }

/-! ## Whole command lines -/

/-- The commands. -/
def commands : List String := ["compile", "help"]

/-- What asking for help on commands leads to. -/
def readHelp : List String → Stop
  | [] => .help
  | [command] => if commands.contains command then .help else .refused (.unknownCommand command)
  | command :: extra :: _ =>
    .refused (.unknownCommand (if commands.contains command then extra else command))

/-- Reads a command line behind these switches. -/
def readProgram (on : List Switch) : List String → Except Stop Invocation
  | [] => throw (.refused .noCommand)
  | argument :: rest =>
    match Token.ofText argument with
    | .separator => throw (.refused (.unexpected argument))
    | .short letters => do
      let on ← letters.foldlM (turnOnLetter .program) on
      readProgram on rest
    | .long name value => do
      let on ← turnOnName .program on name value
      readProgram on rest
    | .plain command =>
      if command = "compile" then do
        let g ← readCompile .nothing rest
        g.invocation on
      else if command = "help" then throw (readHelp rest)
      else throw (.refused (.unknownCommand command))

/-- Reads a command line. -/
def parse (arguments : List String) : Except Stop Invocation := readProgram [] arguments

end CommandLine

end Blueprint
