import Blueprint.BigEndian
import Blueprint.Nbt.Tag

/-!
# Tags as bytes

A tag is written as its type, its name and its payload. Numbers are written highest byte
first; a text is preceded by its length in bytes as a 16-bit word, an array or list by its
length as a 32-bit word. Items of a list have neither type nor name of their own: the list
says their type once. Entries of a compound are named tags up to a terminator.

Writing fails on what a reader could not tell apart or measure, and on nothing else.
-/

namespace Blueprint.Nbt

/-- Why a tag cannot be written. -/
inductive EncodeError where
  /-- a text of more bytes than a 16-bit length can say -/
  | longString (bytes : Nat)
  /-- an array or list longer than a signed 32-bit length can say -/
  | longList (length : Nat)
  /-- an item of another type than its list -/
  | mixedList (listType itemType : UInt8)
  /-- a terminator in the place of a value -/
  | terminatorEntry (key : String)
deriving DecidableEq, Repr

/-- What is wrong with the tag. -/
def EncodeError.message : EncodeError → String
  | longString bytes => s!"string of {bytes} bytes is too long"
  | longList length => s!"length {length} overflows"
  | mixedList listType itemType =>
    s!"list of type {listType.toNat} holds a tag of type {itemType.toNat}"
  | terminatorEntry key => s!"compound entry '{key}' is TAG_End"

namespace Encode

/-- The bytes of a text in UTF-8. -/
def utf8 (s : String) : List UInt8 := s.toUTF8.data.toList

/-- A text with its length in front. -/
def string (s : String) : Except EncodeError (List UInt8) :=
  let bytes := utf8 s
  if bytes.length < UInt16.size then .ok (BigEndian.encode 2 bytes.length ++ bytes)
  else .error (.longString bytes.length)

/-- The length of an array or list. -/
def length (n : Nat) : Except EncodeError (List UInt8) :=
  if n < 0x80000000 then .ok (BigEndian.encode 4 n) else .error (.longList n)

/-- An array of numbers, each given as `width` bytes. -/
def array {α : Type} (width : Nat) (toNat : α → Nat) (v : List α) :
    Except EncodeError (List UInt8) := do
  let header ← length v.length
  return header ++ v.flatMap fun x => BigEndian.encode width (toNat x)

mutual

/-- The payload of a tag. -/
def payload : Tag → Except EncodeError (List UInt8)
  | .terminator => .ok []
  | .byte v => .ok (BigEndian.encode 1 v.toUInt8.toNat)
  | .short v => .ok (BigEndian.encode 2 v.toUInt16.toNat)
  | .int v => .ok (BigEndian.encode 4 v.toUInt32.toNat)
  | .long v => .ok (BigEndian.encode 8 v.toUInt64.toNat)
  | .float v => .ok (BigEndian.encode 4 v.bits.toNat)
  | .double v => .ok (BigEndian.encode 8 v.bits.toNat)
  | .byteArray v => array 1 (fun x => x.toUInt8.toNat) v
  | .string v => string v
  | .list itemType items => do
    match items.find? fun item => item.typeId != itemType with
    | some item => throw (.mixedList itemType item.typeId)
    | none => pure ()
    let header ← length items.length
    let body ← payloads items
    return itemType :: (header ++ body)
  | .compound entries => do
    let body ← namedPayloads entries
    return body ++ [0]
  | .intArray v => array 4 (fun x => x.toUInt32.toNat) v
  | .longArray v => array 8 (fun x => x.toUInt64.toNat) v
termination_by structural t => t

/-- The payloads of the items of a list, one after another. -/
def payloads : List Tag → Except EncodeError (List UInt8)
  | [] => .ok []
  | item :: items => do
    let first ← payload item
    let rest ← payloads items
    return first ++ rest
termination_by structural l => l

/-- The entries of a compound, one after another. -/
def namedPayloads : List (String × Tag) → Except EncodeError (List UInt8)
  | [] => .ok []
  | (key, tag) :: entries => do
    if tag.typeId = 0 then throw (.terminatorEntry key)
    let name ← string key
    let value ← payload tag
    let rest ← namedPayloads entries
    return tag.typeId :: (name ++ value ++ rest)
termination_by structural l => l

end

end Encode

/-- A tag with its name; a terminator has none. -/
def Tag.encode (name : String) (tag : Tag) : Except EncodeError (List UInt8) := do
  let header ← if tag.typeId = 0 then .ok [] else Encode.string name
  let body ← Encode.payload tag
  return tag.typeId :: (header ++ body)

end Blueprint.Nbt
