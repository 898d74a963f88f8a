import Blueprint.Gzip
import Blueprint.Nbt.Decode
import Blueprint.Nbt.Encode

/-!
# Documents

A document is one named root tag. It is stored either as it is or inside a gzip stream,
and the first two bytes tell which: no tag has a type of that number.
-/

namespace Blueprint.Nbt

/-- A root tag with its name. -/
structure Document where
  /-- the name of the root -/
  name : String
  /-- the root -/
  root : Tag
deriving BEq, Repr, Inhabited

namespace Document

/-- The bytes of a document as it is. -/
def encode (d : Document) : Except EncodeError (List UInt8) := d.root.encode d.name

/-- The bytes of a document inside a gzip stream. -/
def encodeGzip (d : Document) : Except EncodeError (List UInt8) := Gzip.compress <$> d.encode

/-- The document at the front of the bytes, and the rest. -/
def read (bytes : List UInt8) : Except DecodeError (Document × List UInt8) := do
  let ((name, root), rest) ← Tag.read.run bytes
  return (⟨name, root⟩, rest)

/-- The document inside a gzip stream. The stream is read as far as the root tag needs,
so nothing after that is looked at; a root that needs more meets what the stream ends
with. -/
def ofGzip (stream : List UInt8) : Except DecodeError Document :=
  match Gzip.content? stream with
  | none => .error .brokenStream
  | some content =>
    match read content.bytes with
    | .ok (d, _) => .ok d
    | .error .unexpectedEnd => .error (if content.isWhole then .unexpectedEnd else .brokenStream)
    | .error e => .error e

/-- The document whose bytes these are, with a gzip stream around it or without. -/
def ofBytes (bytes : List UInt8) : Except DecodeError Document :=
  if Gzip.magic.isPrefixOf bytes then ofGzip bytes
  else
    match read bytes with
    | .ok (d, []) => .ok d
    | .ok (_, _ :: _) => .error .trailingBytes
    | .error e => .error e

/-- Reads documents one after another: each with the number of bytes up to its end, and the
first error if they do not come out even. `position` bytes have been read before. -/
def readAllFrom : (fuel position : Nat) → List UInt8 → List (Document × Nat) × Option DecodeError
  | 0, _, _ => ([], none)
  | _ + 1, _, [] => ([], none)
  | fuel + 1, position, bytes@(_ :: _) =>
    match read bytes with
    | .error e => ([], some e)
    | .ok (d, rest) =>
      let position := position + (bytes.length - rest.length)
      let (documents, fault) := readAllFrom fuel position rest
      ((d, position) :: documents, fault)

/-- Reads documents that stand one after another. -/
def readAll (bytes : List UInt8) : List (Document × Nat) × Option DecodeError :=
  readAllFrom bytes.length 0 bytes

end Document

end Blueprint.Nbt
