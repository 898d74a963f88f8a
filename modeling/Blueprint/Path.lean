import Blueprint.Text.Split

/-!
# Paths

A path is kept as the text it was given as, because reports show it that way. What it
*means* is its list of parts: separators in a row count as one, a separator at the end and
a part `.` mean nothing, except for a `.` at the very start. Paths are compared by their
parts, one after another. At the end of a path, a separator or a part `.` only says that
the path leads to a directory.
-/

namespace Blueprint

/-- A path as it was written. -/
structure Path where
  /-- the text -/
  text : String
deriving DecidableEq, Repr, Inhabited

namespace Path

/-! ## Parts -/

/-- One part of a path. -/
inductive Part where
  /-- the root, at the start of an absolute path -/
  | root
  /-- the directory itself, at the start only -/
  | here
  /-- the directory above -/
  | up
  /-- an entry of a directory -/
  | name (s : String)
deriving DecidableEq, Repr

namespace Part

/-- The place of the kind of a part in the order of parts. -/
def rank : Part → Nat
  | root => 0
  | here => 1
  | up => 2
  | name _ => 3

/-- The text of a name. -/
def label : Part → String
  | name s => s
  | _ => ""

/-- Parts are ordered by kind, and names by their texts. -/
instance : Ord Part := ⟨compareLex (compareOn rank) (compareOn label)⟩

instance : Std.TransOrd Part :=
  inferInstanceAs (Std.TransCmp (compareLex (compareOn rank) (compareOn label)))

instance : Std.LawfulEqOrd Part where
  compare_self := Std.ReflOrd.compare_self
  eq_of_compare {a b} h := by
    obtain ⟨hr, hl⟩ := compareLex_eq_eq.1 h
    have hr : a.rank = b.rank := Std.LawfulEqOrd.eq_of_compare hr
    have hl : a.label = b.label := Std.LawfulEqOrd.eq_of_compare hl
    cases a <;> cases b <;> simp_all [rank, label]

end Part

/-- The pieces between the separators. -/
def pieces (text : String) : List String :=
  (Text.splitAll '/' text.toList).map String.ofList

/-- The part that a piece stands for, if it stands for one. -/
def partOf? (piece : String) : Option Part :=
  if piece = "" ∨ piece = "." then none
  else if piece = ".." then some .up
  else some (.name piece)

/-- What a path means. -/
def parts (p : Path) : List Part :=
  match pieces p.text with
  | [""] => []
  | "" :: rest => .root :: rest.filterMap partOf?
  | "." :: rest => .here :: rest.filterMap partOf?
  | all => all.filterMap partOf?

/-- A separator or a part `.` at the end asks for a directory. -/
def asksForDir (p : Path) : Bool :=
  match (pieces p.text).reverse with
  | last :: _ :: _ => last = "" ∨ last = "."
  | _ => false

/-- The last piece is a part `.`, whatever separators follow it. -/
def endsInHere (p : Path) : Bool :=
  ((pieces p.text).reverse.dropWhile (· = "")).head? = some "."

/-- The character NUL, which no name may hold. -/
def holdsNul (p : Path) : Bool := p.text.toList.contains '\x00'

/-- Paths with the same parts are the same. -/
def same (p q : Path) : Bool := p.parts == q.parts

/-! ## Taking paths apart

A path is taken apart from its end, so these functions work on the characters of its text
in reverse. -/

/-- A reversed text from its last part on: separators and parts `.` at the end are
dropped. -/
def dropIdle : List Char → List Char
  | '/' :: rest => dropIdle rest
  | '.' :: '/' :: rest => dropIdle ('/' :: rest)
  | rest => rest

/-- The text up to the end of its last part, reversed. -/
def body (p : Path) : List Char := dropIdle p.text.toList.reverse

/-- The last piece of the body. -/
def lastPiece (p : Path) : String := String.ofList (p.body.takeWhile (· != '/')).reverse

/-- What stands in front of the last piece, reversed. -/
def beforeLast (p : Path) : List Char := p.body.dropWhile (· != '/')

/-- The name of the file or directory a path ends with, if it ends with a name. -/
def fileName? (p : Path) : Option String :=
  if p.lastPiece = "" ∨ p.lastPiece = "." ∨ p.lastPiece = ".." then none else some p.lastPiece

/-- The directory that holds what a path ends with; the root and the empty path have
none. -/
def parent? (p : Path) : Option Path :=
  if p.lastPiece = "" then none
  else
    match p.beforeLast, dropIdle p.beforeLast with
    | _ :: _, [] => some ⟨"/"⟩
    | _, rest => some ⟨String.ofList rest.reverse⟩

/-- A file name cut at its last point: what stands before it, and what after it. A point
at the very start is part of the name. -/
def splitName (name : String) : String × Option String :=
  let reversed := name.toList.reverse
  let suffix := reversed.takeWhile (· != '.')
  match reversed.dropWhile (· != '.') with
  | _ :: stem@(_ :: _) => (String.ofList stem.reverse, some (String.ofList suffix.reverse))
  | _ => (name, none)

/-- The file name without its extension. -/
def stem? (p : Path) : Option String := p.fileName?.map fun n => (splitName n).1

/-- The extension of the file name. -/
def extension? (p : Path) : Option String := p.fileName?.bind fun n => (splitName n).2

/-! ## Putting paths together -/

/-- The path starts at the root. -/
def isAbsolute (p : Path) : Bool := p.text.toList.head? == some '/'

/-- The path to `q` from `p`; an absolute `q` stands for itself. -/
def join (p q : Path) : Path :=
  if q.isAbsolute then q
  else if p.text = "" ∨ p.text.toList.getLast? = some '/' then ⟨p.text ++ q.text⟩
  else ⟨p.text ++ "/" ++ q.text⟩

/-- The path to an entry of a directory. -/
def entry (p : Path) (name : String) : Path := p.join ⟨name⟩

/-- The path to what these names lead to. -/
def ofNames (names : List String) : Path := ⟨"/".intercalate names⟩

/-- The path with another extension. What comes after the file name is dropped; a path
that ends with no name stays as it is. The old extension goes first, and since two points
are no name, `..json` at the very end becomes `..` and gets no other extension. -/
def withExtension (p : Path) (extension : String) : Path :=
  match p.fileName? with
  | none => p
  | some name =>
    let stem := (splitName name).1
    let front := String.ofList p.beforeLast.reverse
    if stem = "." ∧ p.body = p.text.toList.reverse then ⟨front ++ ".."⟩
    else ⟨front ++ stem ++ "." ++ extension⟩

/-- The path with another file name. A path that ends with no name gets it in addition. -/
def withFileName (p : Path) (name : String) : Path :=
  match p.fileName?, p.parent? with
  | some _, some parent => parent.entry name
  | _, _ => p.entry name

end Path

end Blueprint
