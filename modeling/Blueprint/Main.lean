import Blueprint.Program
import Std.Time.Format

/-!
# The executable

The program on the real file system: plans, templates and structures are files, log lines
go to standard error as they happen, and the clock shows local time.
-/

namespace Blueprint.Main

/-- The number of an error of the system, which may come with a minus sign. -/
def errorNumber (code : UInt32) : UInt32 := min code (0 - code)

/-- What an error of the system means for a file. -/
def fileError (e : IO.Error) : FileError :=
  let byNumber (code : UInt32) : FileError :=
    match errorNumber code with
    | 20 => .notADirectory
    | 21 => .isADirectory
    | 36 => .nameTooLong
    | _ => .other (toString e)
  match e with
  | .noFileOrDirectory .. => .notFound
  | .alreadyExists .. => .alreadyExists
  | .inappropriateType _ code _ => byNumber code
  | .invalidArgument _ code _ => byNumber code
  | e => .other (toString e)

/-- Keeps an error of the system as a result. -/
def attempt {α : Type} (action : IO α) : IO (Except FileError α) := do
  try
    return .ok (← action)
  catch e =>
    return .error (fileError e)

/-- The entries of a directory. -/
def entriesOf (directory : String) : IO (List IO.FS.DirEntry) := do
  return (← (← IO.FS.realPath directory).readDir).toList

/-- Whether there is something of this kind at a path. -/
def isKind (kind : IO.FS.FileType) (p : Path) : IO Bool := do
  try
    return (← (← IO.FS.realPath p.text).metadata).type == kind
  catch _ =>
    return false

/-- The files below a directory, each as the names that lead to it. Links are not
followed. -/
partial def filesFrom (directory : String) : IO (List (List String)) := do
  let found ← (← entriesOf directory).mapM fun e => do
    match (← e.path.symlinkMetadata).type with
    | .file => return [[e.fileName]]
    | .dir => return (← filesFrom (directory ++ "/" ++ e.fileName)).map (e.fileName :: ·)
    | _ => return []
  return found.flatten

/-- Makes a directory and those above it. What a part `.` at the end stands for must be there
once its parent is made. -/
def makeDirs (p : Path) : IO Unit := do
  if p.endsInHere then
    if let some parent := p.parent? then
      unless parent.text.isEmpty do IO.FS.createDirAll parent.text
    let _ ← (← IO.FS.realPath p.text).metadata
  else unless p.text.isEmpty do IO.FS.createDirAll p.text

instance : Disk IO where
  readFile p := attempt do return (← IO.FS.readBinFile p.text).toList
  readDir p := attempt do return (← entriesOf p.text).map fun e => e.fileName
  filesBelow p := attempt (filesFrom p.text)
  pathExists p := do return (← isKind .file p) || (← isKind .dir p) || (← isKind .other p)
  isFile := isKind .file
  isDir := isKind .dir
  createDirAll p := attempt (makeDirs p)
  writeFile p bytes := attempt (IO.FS.writeBinFile p.text ⟨bytes.toArray⟩)
  rename p q := attempt (IO.FS.rename p.text q.text)
  removeFile p := attempt (IO.FS.removeFile p.text)

/-- The local time as log lines show it. -/
def now : IO String := do
  return (← Std.Time.DateTime.now).format "uuuu-MM-dd HH:mm:ss z"

/-- Writes a text to standard error at once. -/
def report (text : String) : IO Unit := do
  let stream ← IO.getStderr
  stream.putStr text
  stream.flush

end Blueprint.Main

/-- Runs the program with these arguments. -/
def main (arguments : List String) : IO UInt32 := do
  let setting ← IO.getEnv "RUST_LOG"
  let ending ← Blueprint.Program.run Blueprint.Main.report Blueprint.Main.now setting arguments
  IO.print ending.output
  Blueprint.Main.report ending.errors
  return UInt32.ofNat ending.status
