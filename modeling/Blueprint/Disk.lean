import Blueprint.FileError
import Blueprint.Path

/-!
# Access to files

`Disk m` says that computations in `m` can read and write files. A run is written over any
such `m`, so it can be carried out on the real file system as well as on a
`Blueprint.FileTree` held in memory.
-/

namespace Blueprint

/-- The operations on files that a run needs. -/
class Disk (m : Type → Type) where
  /-- the bytes of a file -/
  readFile : Path → m (Except FileError (List UInt8))
  /-- the names in a directory, in any order -/
  readDir : Path → m (Except FileError (List String))
  /-- the files below a directory, each as the names that lead to it, in any order -/
  filesBelow : Path → m (Except FileError (List (List String)))
  /-- whether there is a file or directory -/
  pathExists : Path → m Bool
  /-- whether there is a file -/
  isFile : Path → m Bool
  /-- whether there is a directory -/
  isDir : Path → m Bool
  /-- makes a directory and those above it, as far as they are missing -/
  createDirAll : Path → m (Except FileError Unit)
  /-- makes a file with this content, or gives it to the file that is there -/
  writeFile : Path → List UInt8 → m (Except FileError Unit)
  /-- moves a file, instead of the file that is there -/
  rename : Path → Path → m (Except FileError Unit)
  /-- removes a file -/
  removeFile : Path → m (Except FileError Unit)

/-- Keeping something in addition takes no operation away. -/
instance {m : Type → Type} {σ : Type} [Monad m] [Disk m] : Disk (StateT σ m) where
  readFile p := liftM (Disk.readFile p : m _)
  readDir p := liftM (Disk.readDir p : m _)
  filesBelow p := liftM (Disk.filesBelow p : m _)
  pathExists p := liftM (Disk.pathExists p : m _)
  isFile p := liftM (Disk.isFile p : m _)
  isDir p := liftM (Disk.isDir p : m _)
  createDirAll p := liftM (Disk.createDirAll p : m _)
  writeFile p bytes := liftM (Disk.writeFile p bytes : m _)
  rename p q := liftM (Disk.rename p q : m _)
  removeFile p := liftM (Disk.removeFile p : m _)

namespace Disk

variable {m : Type → Type} [Monad m] [Disk m]

/-- The text of a file. -/
def readText (p : Path) : m (Except FileError String) := do
  match ← readFile p with
  | .error e => return .error e
  | .ok bytes =>
    match String.fromUTF8? ⟨bytes.toArray⟩ with
    | some text => return .ok text
    | none => return .error .notUtf8

/-- The file that the new content of `p` is first written to. -/
def temporary (p : Path) : Path := ⟨p.text ++ ".tmp"⟩

/-- Makes the directory of a file. -/
def createParent (p : Path) : m (Except FileError Unit) :=
  match p.parent? with
  | some parent => createDirAll parent
  | none => return .ok ()

/-- Gives a file its content in one move: the content is written next to it and then
moved, so nobody finds half of it. If the move fails, what was written is removed. -/
def writeAtomic (p : Path) (bytes : List UInt8) : m (Except FileError Unit) := do
  match ← createParent p with
  | .error e => return .error e
  | .ok () =>
    match ← writeFile (temporary p) bytes with
    | .error e => return .error e
    | .ok () =>
      match ← rename (temporary p) p with
      | .ok () => return .ok ()
      | .error e =>
        let _ ← removeFile (temporary p)
        return .error e

end Disk

end Blueprint
