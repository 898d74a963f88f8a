import Blueprint.BigEndian
import Blueprint.Nbt.Tag

/-!
# Tags from bytes

A `Reader` takes what it needs from the front of the bytes and leaves the rest. It never
looks past what it takes, so a tag is delimited by its own bytes.

Two numbers keep reading total. `levels` counts how many lists and compounds may still be
opened inside each other, and running out of it is an error of the format. `fuel` bounds
the entries of a compound by the bytes of the document: every entry takes at least one, so
it never runs out before the bytes do.
-/

namespace Blueprint.Nbt

/-! ## Errors -/

/-- What a length says the number of. -/
inductive Counted where
  | byteArray
  | list
  | intArray
  | longArray
deriving DecidableEq, Repr

/-- The name of what is counted. -/
def Counted.text : Counted → String
  | byteArray => "byte array"
  | list => "list"
  | intArray => "int array"
  | longArray => "long array"

/-- Why bytes are no tag. -/
inductive DecodeError where
  /-- the bytes end too early -/
  | unexpectedEnd
  /-- a text is not UTF-8 -/
  | notUtf8
  /-- a length below zero -/
  | negativeLength (what : Counted) (length : Int32)
  /-- a list of terminators that is not empty -/
  | terminatorList
  /-- no type has this number -/
  | unknownType (id : UInt8)
  /-- too many lists and compounds inside each other -/
  | tooDeep
  /-- bytes after the root tag -/
  | trailingBytes
  /-- the compressed stream around the tag is broken -/
  | brokenStream
deriving DecidableEq, Repr

/-- The kinds of errors. -/
inductive DecodeError.Kind where
  /-- more bytes are needed -/
  | unexpectedEnd
  /-- the bytes break a rule of the format -/
  | invalidData
  /-- the compressed stream is broken -/
  | brokenStream
deriving DecidableEq, Repr

/-- The kind of an error. -/
def DecodeError.kind : DecodeError → DecodeError.Kind
  | unexpectedEnd => .unexpectedEnd
  | brokenStream => .brokenStream
  | _ => .invalidData

/-- What is wrong with the bytes. -/
def DecodeError.message : DecodeError → String
  | unexpectedEnd => "failed to fill whole buffer"
  | notUtf8 => "string is not valid UTF-8"
  | negativeLength what length => s!"negative {what.text} length: {toString length.toInt}"
  | terminatorList => "non-empty list of TAG_End"
  | unknownType id => s!"Invalid tag type: {id.toNat}"
  | tooDeep => "tag nesting too deep"
  | trailingBytes => "trailing bytes after root tag"
  | brokenStream => "broken gzip stream"

/-! ## Readers of single values -/

/-- Reads from the front of the bytes. -/
abbrev Reader := StateT (List UInt8) (Except DecodeError)

/-- The first `n` bytes and the rest, if there are that many. -/
def splitExact : (n : Nat) → List UInt8 → Option (List UInt8 × List UInt8)
  | 0, bytes => some ([], bytes)
  | _ + 1, [] => none
  | n + 1, b :: bytes => (splitExact n bytes).map fun (front, rest) => (b :: front, rest)

namespace Reader

/-- Exactly `n` bytes. -/
def bytes (n : Nat) : Reader (List UInt8) := fun input =>
  match splitExact n input with
  | some result => .ok result
  | none => .error .unexpectedEnd

/-- A word of `width` bytes. -/
def word (width : Nat) : Reader Nat := BigEndian.decode <$> bytes width

/-- One byte. -/
def byte : Reader UInt8 := UInt8.ofNat <$> word 1

/-- A text with its length in front. -/
def string : Reader String := do
  let length ← word 2
  let text ← bytes length
  match String.fromUTF8? ⟨text.toArray⟩ with
  | some s => return s
  | none => throw .notUtf8

/-- The length of an array or list. -/
def length (what : Counted) : Reader Nat := do
  let n := (UInt32.ofNat (← word 4)).toInt32
  if n < 0 then throw (.negativeLength what n)
  return n.toInt.toNat

/-- Reads `n` values, one after another. -/
def replicate {α : Type} (item : Reader α) : (n : Nat) → Reader (List α)
  | 0 => return []
  | n + 1 => do
    let first ← item
    let rest ← replicate item n
    return first :: rest

/-- An array of numbers of `width` bytes each. -/
def array {α : Type} (what : Counted) (width : Nat) (ofNat : Nat → α) : Reader (List α) := do
  let n ← length what
  replicate (ofNat <$> word width) n

end Reader

/-! ## Readers of tags -/

namespace Reader

/-- Entries up to the terminator, inserted after those read before: a key that comes again
replaces its first value. -/
def entries (payload : UInt8 → Reader Tag) : (fuel : Nat) → Compound → Reader Compound
  | 0, _ => throw .unexpectedEnd
  | fuel + 1, read => do
    let type ← byte
    if type = 0 then return read
    let key ← string
    let tag ← payload type
    entries payload fuel (Compound.insert key tag read)

/-- The payload of a tag of the given type. -/
def payload (fuel : Nat) : (levels : Nat) → (type : UInt8) → Reader Tag
  | 0, _ => throw .tooDeep
  | levels + 1, type =>
    match type.toNat with
    | 0 => return .terminator
    | 1 => (fun n => .byte (UInt8.ofNat n).toInt8) <$> word 1
    | 2 => (fun n => .short (UInt16.ofNat n).toInt16) <$> word 2
    | 3 => (fun n => .int (UInt32.ofNat n).toInt32) <$> word 4
    | 4 => (fun n => .long (UInt64.ofNat n).toInt64) <$> word 8
    | 5 => (fun n => .float ⟨UInt32.ofNat n⟩) <$> word 4
    | 6 => (fun n => .double ⟨UInt64.ofNat n⟩) <$> word 8
    | 7 => .byteArray <$> array .byteArray 1 fun n => (UInt8.ofNat n).toInt8
    | 8 => .string <$> string
    | 9 => do
      let itemType ← byte
      let n ← length .list
      if itemType = 0 ∧ 0 < n then throw .terminatorList
      .list itemType <$> replicate (payload fuel levels itemType) n
    | 10 => .compound <$> entries (payload fuel levels) fuel []
    | 11 => .intArray <$> array .intArray 4 fun n => (UInt32.ofNat n).toInt32
    | 12 => .longArray <$> array .longArray 8 fun n => (UInt64.ofNat n).toInt64
    | _ => throw (.unknownType type)

end Reader

/-- How many lists and compounds may stand inside each other below the root. -/
def maxDepth : Nat := 512

/-- A tag with its name; a terminator has the empty one. -/
def Tag.read : Reader (String × Tag) := do
  let fuel := (← get).length + 1
  let type ← Reader.byte
  if type = 0 then return ("", .terminator)
  let name ← Reader.string
  let tag ← Reader.payload fuel (maxDepth + 1) type
  return (name, tag)

end Blueprint.Nbt
