/-!
# The CRC-32 checksum

The checksum at the end of a gzip stream: the remainder of the bytes, as a polynomial over
two elements with the lowest bit first, by the polynomial `0xEDB88320`, with all bits
flipped before and after.
-/

namespace Blueprint.Gzip.Crc32

/-- Divides out `n` bits. -/
def shift : (n : Nat) → UInt32 → UInt32
  | 0, r => r
  | n + 1, r => shift n (if r &&& 1 = 1 then (r >>> 1) ^^^ 0xEDB88320 else r >>> 1)

/-- The remainder after one more byte. -/
def step (r : UInt32) (b : UInt8) : UInt32 := shift 8 (r ^^^ b.toUInt32)

/-- The checksum of the bytes. -/
def ofBytes (bytes : List UInt8) : UInt32 := bytes.foldl step 0xFFFFFFFF ^^^ 0xFFFFFFFF

end Blueprint.Gzip.Crc32
