import Blueprint.BigEndian
import Blueprint.Gzip.Crc32
import Blueprint.Gzip.Inflate

/-!
# Gzip streams

A gzip stream is a header, compressed content, and a trailer with the checksum and the
length of the content, both lowest byte first.

Streams are written with an empty header, so equal contents give equal streams, and with
the content in stored blocks. They are read only as far as somebody needs the content:
`Content` says which bytes can be had and whether their end is a proper one.
-/

namespace Blueprint.Gzip

/-- The two bytes that every stream starts with. -/
def magic : List UInt8 := [0x1F, 0x8B]

/-! ## Writing -/

/-- The header without time, name or system: deflate as method, and the mark for an
unknown system. -/
def emptyHeader : List UInt8 := magic ++ [8, 0, 0, 0, 0, 0, 0, 0xFF]

/-- A number in four bytes, lowest first. -/
def trailerWord (n : Nat) : List UInt8 := (BigEndian.encode 4 n).reverse

/-- The trailer of a content. -/
def trailer (content : List UInt8) : List UInt8 :=
  trailerWord (Crc32.ofBytes content).toNat ++ trailerWord content.length

/-- A stored block of at most `65535` bytes. -/
def storedBlock (isLast : Bool) (bytes : List UInt8) : List UInt8 :=
  let size := (BigEndian.encode 2 bytes.length).reverse
  (if isLast then 1 else 0) :: (size ++ size.map (~~~ ·)) ++ bytes

/-- The content in stored blocks. -/
def storedBlocks (content : List UInt8) : List UInt8 :=
  if content.length ≤ 65535 then storedBlock true content
  else storedBlock false (content.take 65535) ++ storedBlocks (content.drop 65535)
termination_by content.length
decreasing_by simp; omega

/-- The stream with the given content. -/
def compress (content : List UInt8) : List UInt8 :=
  emptyHeader ++ storedBlocks content ++ trailer content

/-! ## Reading -/

/-- Drops a text that ends with a zero byte. -/
def skipText : List UInt8 → Option (List UInt8)
  | [] => none
  | b :: rest => if b = 0 then some rest else skipText rest

/-- Drops `n` bytes if they are there. -/
def skip (n : Nat) (bytes : List UInt8) : Option (List UInt8) :=
  if n ≤ bytes.length then some (bytes.drop n) else none

/-- Drops a field with its length in front. -/
def skipField : List UInt8 → Option (List UInt8)
  | low :: high :: rest => skip (low.toNat + 256 * high.toNat) rest
  | _ => none

/-- The bit of the flags at `index`. -/
def flag (flags : UInt8) (index : Nat) : Bool := flags.toNat.testBit index

/-- Checks and drops the checksum of a header: the lower half of the CRC-32 of all bytes
before it. -/
def skipHeaderChecksum (stream rest : List UInt8) : Option (List UInt8) :=
  match rest with
  | low :: high :: rest' =>
    let sum := (Crc32.ofBytes (stream.take (stream.length - rest.length))).toNat % UInt16.size
    if sum = low.toNat + 256 * high.toNat then some rest' else none
  | _ => none

/-- What follows the header of a stream; nothing if the header is broken. -/
def afterHeader (stream : List UInt8) : Option (List UInt8) :=
  match stream with
  | 0x1F :: 0x8B :: 8 :: flags :: _ :: _ :: _ :: _ :: _ :: _ :: rest => do
    if flag flags 5 || flag flags 6 || flag flags 7 then none
    let rest ← if flag flags 2 then skipField rest else some rest
    let rest ← if flag flags 3 then skipText rest else some rest
    let rest ← if flag flags 4 then skipText rest else some rest
    if flag flags 1 then skipHeaderChecksum stream rest else some rest
  | _ => none

/-- What a reader can have of a stream. -/
structure Content where
  /-- the bytes, from the start -/
  bytes : List UInt8
  /-- whether the stream ends after them with a trailer that fits -/
  isWhole : Bool
deriving DecidableEq, Repr

/-- The output is handed out in windows of this many bytes. -/
def window : Nat := 32768

/-- The stream arrives in parcels of this many bytes. -/
def parcel : Nat := 32768

/-- The end of the last window that is full when more output follows it. -/
def lastFull (size : Nat) : Nat := (size - 1) / window * window

/-- How much of its output a reader can have from a stream that breaks off. A full window
is handed out once more output follows it. The output after the last full window is handed
out as well, unless every byte had been read when that window was full. -/
def handedOut (body : List UInt8) : Nat :=
  let size := (inflate body).1.size
  let full := lastFull size
  if 0 < full ∧ (inflate body.dropLast).1.size ≤ full then full else size

/-- What of a body is in the parcels before the one with the last byte before `rest`. -/
def arrivedBefore (rest stream body : List UInt8) : List UInt8 :=
  let parcels := (stream.length - rest.length - 1) / parcel
  body.take (parcels * parcel - (stream.length - body.length))

/-- The content of a stream, or nothing if its header is broken. A fault spoils all output
that has not been handed out before it is met: that of full windows has been, and so has
what could be had of the parcels before the one with the fault. -/
def content? (stream : List UInt8) : Option Content := do
  let body ← afterHeader stream
  match inflate body with
  | (output, .complete rest) =>
    let bytes := output.toList
    return ⟨bytes, rest.take 8 == trailer bytes⟩
  | (output, .cutShort) => return ⟨(output.extract 0 (handedOut body)).toList, false⟩
  | (output, .corrupt rest) =>
    let size := max (lastFull output.size) (handedOut (arrivedBefore rest stream body))
    return ⟨(output.extract 0 size).toList, false⟩

end Blueprint.Gzip
