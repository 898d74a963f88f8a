import Blueprint.Json.Reader
import Blueprint.SortedMap

/-!
# Values of a given shape

A *shape* reads a value of some type off a tree, walking it in the order of the text and
stopping at the first problem. An array or object in the place of something else is
refused as soon as it opens; a scalar in the wrong place is refused only if it can be read
to its end, for otherwise the break comes first.
-/

namespace Blueprint.Json

/-- How a value differs from its shape. -/
inductive ShapeError where
  /-- another kind of value -/
  | invalidType
  /-- a number outside the range -/
  | invalidValue
  /-- too few items -/
  | invalidLength
  /-- none of the kinds of value that may stand here -/
  | noVariant
  | unknownField (name : String)
  | unknownVariant (name : String)
  | missingField (name : String)
  | duplicateField (name : String)
deriving DecidableEq, Repr

/-- What is wrong with the value. -/
def ShapeError.message : ShapeError → String
  | invalidType => "invalid type"
  | invalidValue => "invalid value"
  | invalidLength => "invalid length"
  | noVariant => "data did not match any variant"
  | unknownField name => "unknown field `" ++ name ++ "`"
  | unknownVariant name => "unknown variant `" ++ name ++ "`"
  | missingField name => "missing field `" ++ name ++ "`"
  | duplicateField name => "duplicate field `" ++ name ++ "`"

/-- Why a text is not read. -/
inductive Fault where
  /-- it is no JSON -/
  | malformed
  /-- it is JSON as far as it was read, of another shape -/
  | shape (e : ShapeError)
deriving DecidableEq, Repr

/-- Reads a value of some type. -/
abbrev Shape (α : Type) := Node → Except Fault α

namespace Shape

variable {α : Type}

/-- Refuses a value of another kind than the one that belongs here. -/
def mismatch : Node → Except Fault α
  | .broken => .error .malformed
  | _ => .error (.shape .invalidType)

/-! ## Scalars -/

/-- A string. -/
def string : Shape String
  | .string s => .ok s
  | n => mismatch n

/-- A whole number from `lo` to `hi`. -/
def integer (lo hi : Int) : Shape Int
  | .number (.int n) => if lo ≤ n ∧ n ≤ hi then .ok n else .error (.shape .invalidValue)
  | n => mismatch n

/-- A 32-bit word with a sign. -/
def word : Shape Int32 := fun n => Int32.ofInt <$> integer (-0x80000000) 0x7fffffff n

/-- A double-precision number; a whole number is one too. -/
def double : Shape Binary64
  | .number (.int n) => .ok (.ofFloat (Float.ofInt n))
  | .number (.real x) => .ok x
  | n => mismatch n

/-- A value that may also be `null`. -/
def optional (shape : Shape α) : Shape (Option α)
  | .null => .ok none
  | n => some <$> shape n

/-! ## Arrays and maps -/

/-- The items of an array in turn, and then its end. -/
def eachItem (shape : Shape α) : List Node → (isClosed : Bool) → Except Fault (List α)
  | [], true => .ok []
  | [], false => .error .malformed
  | n :: ns, isClosed => do
    let first ← shape n
    let rest ← eachItem shape ns isClosed
    return first :: rest

/-- An array of any length. -/
def list (shape : Shape α) : Shape (List α)
  | .array items isClosed => eachItem shape items isClosed
  | n => mismatch n

/-- Reads `count` items in turn, and then the end. An array with more items breaks the text. -/
def eachOf (shape : Shape α) : (count : Nat) → List Node → (isClosed : Bool) →
    Except Fault (List α)
  | 0, [], true => .ok []
  | 0, _, _ => .error .malformed
  | _ + 1, [], true => .error (.shape .invalidLength)
  | _ + 1, [], false => .error .malformed
  | count + 1, n :: ns, isClosed => do
    let first ← shape n
    let rest ← eachOf shape count ns isClosed
    return first :: rest

/-- Three coordinates. -/
def triple (shape : Shape α) : Shape (α × α × α)
  | .array items isClosed => do
    match ← eachOf shape 3 items isClosed with
    | [a, b, c] => return (a, b, c)
    | _ => throw .malformed
  | n => mismatch n

/-- The end of an object, after its members. -/
def ofEnd (a : α) (isClosed : Bool) : Except Fault α :=
  if isClosed then .ok a else .error .malformed

/-- The members of an object in turn, into a map. -/
def eachMember (shape : Shape α) : List (String × Node) → SortedMap String α →
    Except Fault (SortedMap String α)
  | [], read => .ok read
  | (key, n) :: ns, read => do
    let a ← shape n
    eachMember shape ns (read.insert key a)

/-- An object with any keys. Of members with the same key the last counts, but all must be
of the shape. -/
def map (shape : Shape α) : Shape (SortedMap String α)
  | .object members isClosed => do
    let read ← eachMember shape members .empty
    ofEnd read isClosed
  | n => mismatch n

/-! ## Records -/

/-- One field of a record: its name, whether it must be there, and how its value is put
into the record. -/
structure Field (ρ : Type) where
  /-- the name -/
  name : String
  /-- whether a record without it is refused -/
  isRequired : Bool
  /-- reads the value into a record -/
  read : Node → ρ → Except Fault ρ

/-- A field that may be left out. -/
def Field.optional {ρ : Type} (name : String) (shape : Shape α) (put : α → ρ → ρ) : Field ρ :=
  ⟨name, false, fun n r => (fun a => put a r) <$> shape n⟩

/-- A field that must be there. -/
def Field.required {ρ : Type} (name : String) (shape : Shape α) (put : α → ρ → ρ) : Field ρ :=
  ⟨name, true, fun n r => (fun a => put a r) <$> shape n⟩

/-- A record written as an array: the values of the fields in their order. Fields at the
end that may be left out may be missing. -/
def eachField {ρ : Type} : List (Field ρ) → List Node → (isClosed : Bool) → ρ → Except Fault ρ
  | [], [], true, r => .ok r
  | [], _, _, _ => .error .malformed
  | _ :: _, [], false, _ => .error .malformed
  | f :: fs, [], true, r =>
    if f.isRequired then .error (.shape .invalidLength) else eachField fs [] true r
  | f :: fs, n :: ns, isClosed, r => do
    let r ← f.read n r
    eachField fs ns isClosed r

/-- A record written as an object: a key is looked up before its value is read, and it may
not come twice. The keys of the record come back with it. -/
def eachKey {ρ : Type} (fields : List (Field ρ)) : List (String × Node) → (seen : List String) →
    ρ → Except Fault (ρ × List String)
  | [], seen, r => .ok (r, seen)
  | (key, n) :: ns, seen, r =>
    match fields.find? fun f => f.name == key with
    | none => .error (.shape (.unknownField key))
    | some f =>
      if seen.contains key then .error (.shape (.duplicateField key))
      else do
        let r ← f.read n r
        eachKey fields ns (key :: seen) r

/-- A record with the given fields, `initial` before any of them is read. It is an object
with these keys or an array of these values. -/
def record {ρ : Type} (fields : List (Field ρ)) (initial : ρ) : Shape ρ
  | .array items isClosed => eachField fields items isClosed initial
  | .object members isClosed => do
    let (r, seen) ← eachKey fields members [] initial
    ofEnd () isClosed
    match fields.find? fun f => f.isRequired && !seen.contains f.name with
    | some f => throw (.shape (.missingField f.name))
    | none => return r
  | n => mismatch n

/-! ## Variants -/

/-- One of some named values: its name, or an object with the name as its only key and
`null` as its value. -/
def variant (named : String → Option α) : Shape α
  | .string name =>
    match named name with
    | some a => .ok a
    | none => .error (.shape (.unknownVariant name))
  | .object ((name, n) :: more) isClosed =>
    match named name with
    | none => .error (.shape (.unknownVariant name))
    | some a =>
      match n with
      | .null => if more.isEmpty then ofEnd a isClosed else .error .malformed
      | n => mismatch n
  | _ => .error .malformed

/-! ## Whole texts -/

/-- Reads a text of the shape; nothing but blanks may follow. -/
def ofText (shape : Shape α) (text : String) : Except Fault α := do
  let scan := layOut text
  let a ← shape scan.value
  match scan.rest.map skipSpace with
  | some [] => return a
  | _ => throw .malformed

end Shape

end Blueprint.Json
