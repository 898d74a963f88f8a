import Blueprint.Batch.Event
import Blueprint.Disk

/-!
# Loading templates

The templates of a run are the files with one of two extensions that stand directly in the
directory of their kind; the file name without its extension is the name of the template.
The directory above them must be there, but a kind without a directory just has no
templates. No two files of a kind may have the same name.
-/

namespace Blueprint

open Nbt

/-- The extensions of template files. -/
def templateExtensions : List String := ["bin", "nbt"]

namespace TemplateLibrary

variable {m : Type → Type} [Monad m] [Disk m] (note : Event → m Unit)

/-- The error of a template path, if the operation on it fails. -/
def atPath {α : Type} (p : Path) (action : m (Except FileError α)) : ExceptT RunError m α :=
  ExceptT.mk do
    match ← action with
    | .ok a => return .ok a
    | .error e => return .error (.template p (.file e))

/-- The template files in a directory, in the order of their names. -/
def filesIn (directory : Path) : ExceptT RunError m (List Path) := do
  let names ← atPath directory (Disk.readDir directory)
  let paths := (names.mergeSort fun a b => a ≤ b).map directory.entry
  let candidates := paths.filter fun p => p.extension?.any fun e => templateExtensions.contains e
  candidates.filterM fun p => (Disk.isFile p : m Bool)

/-- Adds the template in a file. -/
def loadFile (kind : TemplateKind) (l : TemplateLibrary) (p : Path) :
    ExceptT RunError m TemplateLibrary := do
  let name := p.stem?.getD ""
  if (l.get? kind name).isSome then throw (.template p (.duplicate kind name))
  let bytes ← atPath p (Disk.readFile p)
  match Template.payload bytes with
  | .error e => throw (.template p (.content e))
  | .ok payload =>
    note (.templateLoaded kind name payload.length)
    return l.insert kind name payload

/-- Adds the templates of a kind. -/
def loadKind (root : Path) (l : TemplateLibrary) (kind : TemplateKind) :
    ExceptT RunError m TemplateLibrary := do
  let directory := root.entry kind.directory
  if ← (Disk.pathExists directory : m Bool) then
    let files ← filesIn directory
    files.foldlM (loadFile note kind) l
  else
    note (.noTemplates kind directory)
    return l

/-- Loads the templates below a directory. -/
def load (root : Path) : ExceptT RunError m TemplateLibrary := do
  let _ ← atPath root (Disk.readDir root)
  TemplateKind.all.foldlM (loadKind note root) empty

end TemplateLibrary

end Blueprint
