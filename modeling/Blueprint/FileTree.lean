import Blueprint.Disk
import Blueprint.SortedMap

/-!
# File trees in memory

A file tree holds files and directories by the names that lead to them from its root,
which is also the current directory. Operations fail only where a file stands in the place
of a directory, a directory in the place of a file, or nothing where something should be,
and for paths that no system takes.
-/

namespace Blueprint

/-- The names that lead from the root of a tree to an entry. -/
abbrev Location := List String

/-- What stands at a location. -/
inductive FileEntry where
  | file (content : List UInt8)
  | directory
deriving DecidableEq, Repr

/-- Files and directories by location; the root itself is not listed. -/
structure FileTree where
  /-- the entries -/
  entries : SortedMap Location FileEntry
deriving DecidableEq

namespace FileTree

/-- The tree with nothing but its root. -/
def empty : FileTree := ⟨.empty⟩

instance : Inhabited FileTree := ⟨empty⟩

/-- What stands at a location. -/
def entry? (t : FileTree) : Location → Option FileEntry
  | [] => some .directory
  | location => t.entries.get? location

/-- Puts an entry at a location. -/
def put (t : FileTree) (location : Location) (e : FileEntry) : FileTree :=
  ⟨t.entries.insert location e⟩

/-- Takes the entry at a location away. -/
def remove (t : FileTree) (location : Location) : FileTree := ⟨t.entries.erase location⟩

/-! ## Locations of paths -/

/-- A location is that of a directory. -/
def requireDir (t : FileTree) (location : Location) : Except FileError Unit :=
  match t.entry? location with
  | some .directory => .ok ()
  | some (.file _) => .error .notADirectory
  | none => .error .notFound

/-- The greatest length of a name in bytes. -/
def maxNameSize : Nat := 255

/-- The greatest length of a path in bytes. -/
def maxPathSize : Nat := 4095

/-- The text of a path can be one, whatever it leads to. -/
def requirePath (p : Path) : Except FileError Unit :=
  if p.holdsNul then .error .nulInName
  else if maxPathSize < p.text.utf8ByteSize then .error .nameTooLong
  else .ok ()

/-- A text can be the name of an entry. -/
def requireName (n : String) : Except FileError Unit :=
  if maxNameSize < n.utf8ByteSize then .error .nameTooLong else .ok ()

/-- Where parts lead from a location. Everything on the way must be a directory, what they
end at need not exist. Nothing is known above the root. -/
def follow (t : FileTree) : Location → List Path.Part → Except FileError Location
  | location, [] => .ok location
  | location, part :: rest => do
    match part with
    | .root => follow t [] rest
    | .here => follow t location rest
    | .up =>
      t.requireDir location
      if location.isEmpty then throw .notFound
      follow t location.dropLast rest
    | .name n =>
      t.requireDir location
      requireName n
      follow t (location ++ [n]) rest

/-- Where a path leads. The empty path leads nowhere, and a path that asks for a directory
does not lead to a file. -/
def locate (t : FileTree) (p : Path) : Except FileError Location := do
  requirePath p
  if p.parts.isEmpty then throw .notFound
  let location ← t.follow [] p.parts
  match t.entry? location with
  | some (.file _) => if p.asksForDir then throw .notADirectory else return location
  | _ => return location

/-- Where the file of a path is or would be. -/
def locateFile (t : FileTree) (p : Path) : Except FileError Location := do
  let location ← t.locate p
  if p.asksForDir then throw .isADirectory
  return location

/-- What a path leads to. -/
def find? (t : FileTree) (p : Path) : Option FileEntry :=
  match t.locate p with
  | .ok location => t.entry? location
  | .error _ => none

/-! ## Operations -/

/-- The content of a file. -/
def readFile (t : FileTree) (p : Path) : Except FileError (List UInt8) := do
  let location ← t.locate p
  match t.entry? location with
  | some (.file content) => return content
  | some .directory => throw .isADirectory
  | none => throw .notFound

/-- The locations below another one, without what leads to it, and their entries. -/
def below (t : FileTree) (location : Location) : List (Location × FileEntry) :=
  t.entries.entries.filterMap fun (l, e) =>
    if location.isPrefixOf l && l != location then some (l.drop location.length, e) else none

/-- The directory that a path leads to. -/
def locateDir (t : FileTree) (p : Path) : Except FileError Location := do
  let location ← t.locate p
  t.requireDir location
  return location

/-- The names in a directory. -/
def readDir (t : FileTree) (p : Path) : Except FileError (List String) := do
  let location ← t.locateDir p
  return (t.below location).filterMap fun (l, _) =>
    match l with
    | [n] => some n
    | _ => none

/-- The files below a directory. -/
def filesBelow (t : FileTree) (p : Path) : Except FileError (List (List String)) := do
  let location ← t.locateDir p
  return (t.below location).filterMap fun (l, e) =>
    match e with
    | .file _ => some l
    | .directory => none

/-- Makes the directories that parts lead to from a location. -/
def makeDirs (t : FileTree) : Location → List Path.Part → Except FileError FileTree
  | _, [] => .ok t
  | location, part :: rest =>
    match part with
    | .root => makeDirs t [] rest
    | .here => makeDirs t location rest
    | .up => if location.isEmpty then .error .notFound else makeDirs t location.dropLast rest
    | .name n => do
      requireName n
      let location := location ++ [n]
      match t.entry? location with
      | some .directory => makeDirs t location rest
      | some (.file _) => .error (if rest.isEmpty then .alreadyExists else .notADirectory)
      | none => makeDirs (t.put location .directory) location rest

/-- Makes a directory and those above it. A part `.` at the end stands for a directory that
is there already or is made on the way. -/
def createDirAll (t : FileTree) (p : Path) : Except FileError FileTree := do
  requirePath p
  if p.endsInHere then
    let t ← t.makeDirs [] p.parts.dropLast
    let _ ← t.locateDir p
    return t
  else t.makeDirs [] p.parts

/-- Makes a file, or gives it another content. -/
def writeFile (t : FileTree) (p : Path) (content : List UInt8) : Except FileError FileTree := do
  let location ← t.locateFile p
  match t.entry? location with
  | some .directory => throw .isADirectory
  | _ => return t.put location (.file content)

/-- Moves a file to where there is no directory. -/
def rename (t : FileTree) (p q : Path) : Except FileError FileTree := do
  let source ← t.locateFile p
  let target ← t.locateFile q
  match t.entry? source, t.entry? target with
  | none, _ => throw .notFound
  | some .directory, _ => throw .isADirectory
  | _, some .directory => throw .isADirectory
  | some e, _ => return (t.remove source).put target e

/-- Removes a file. -/
def removeFile (t : FileTree) (p : Path) : Except FileError FileTree := do
  let location ← t.locateFile p
  match t.entry? location with
  | some (.file _) => return t.remove location
  | some .directory => throw .isADirectory
  | none => throw .notFound

/-! ## As a disk -/

/-- An operation that changes the tree, or leaves it as it is if it fails. -/
def update (f : FileTree → Except FileError FileTree) :
    StateM FileTree (Except FileError Unit) := do
  match f (← get) with
  | .ok t =>
    set t
    return .ok ()
  | .error e => return .error e

instance : Disk (StateM FileTree) where
  readFile p := return (← get).readFile p
  readDir p := return (← get).readDir p
  filesBelow p := return (← get).filesBelow p
  pathExists p := return ((← get).find? p).isSome
  isFile p := return (← get).find? p matches some (.file _)
  isDir p := return (← get).find? p == some .directory
  createDirAll p := update fun t => t.createDirAll p
  writeFile p bytes := update fun t => t.writeFile p bytes
  rename p q := update fun t => t.rename p q
  removeFile p := update fun t => t.removeFile p

end FileTree

end Blueprint
