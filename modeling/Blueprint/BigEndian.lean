/-!
# Words as bytes, highest byte first

Writing a number into a fixed count of bytes and reading it back.
-/

namespace Blueprint.BigEndian

/-- The lowest `count` bytes of `n`, highest first. -/
def encode : (count : Nat) → Nat → List UInt8
  | 0, _ => []
  | count + 1, n => UInt8.ofNat (n >>> (8 * count)) :: encode count n

/-- The number whose bytes these are. -/
def decode (bytes : List UInt8) : Nat := bytes.foldl (fun n b => 256 * n + b.toNat) 0

@[simp] theorem length_encode (count n : Nat) : (encode count n).length = count := by
  induction count with
  | zero => rfl
  | succ count ih => simp [encode, ih]

/-- Reading a written number after `start` shifts `start` by the bytes that were written. -/
theorem foldl_encode (count n start : Nat) :
    (encode count n).foldl (fun n b => 256 * n + b.toNat) start =
      (1 <<< (8 * count)) * start + n % (1 <<< (8 * count)) := by
  induction count generalizing start with
  | zero => simp [encode, Nat.mod_one]
  | succ count ih =>
    have hbyte : (UInt8.ofNat (n >>> (8 * count))).toNat = n / (1 <<< (8 * count)) % 256 := by
      simp [Nat.shiftRight_eq_div_pow, Nat.shiftLeft_eq]
    have hnext : 1 <<< (8 * (count + 1)) = (1 <<< (8 * count)) * 256 := by
      simp [Nat.shiftLeft_eq, Nat.mul_add, Nat.pow_add]
    rw [hnext, Nat.mod_mul]
    simp only [encode, List.foldl_cons, ih, hbyte]
    generalize 1 <<< (8 * count) = shift
    rw [Nat.mul_add, ← Nat.mul_assoc, Nat.add_assoc, Nat.add_comm (shift * (n / shift % 256))]

/-- A number that fits is read back. -/
theorem decode_encode {count n : Nat} (h : n < 1 <<< (8 * count)) :
    decode (encode count n) = n := by
  simp [decode, foldl_encode, Nat.mod_eq_of_lt h]

/-- Dropping as many bits as were read after `start` gives `start` again. -/
theorem foldl_shiftRight (bytes : List UInt8) (start : Nat) :
    bytes.foldl (fun n b => 256 * n + b.toNat) start >>> (8 * bytes.length) = start := by
  induction bytes generalizing start with
  | nil => rfl
  | cons b bytes ih =>
    have hb := b.toNat_lt
    rw [List.foldl_cons, List.length_cons, Nat.mul_add, Nat.shiftRight_add, ih,
      Nat.shiftRight_eq_div_pow]
    omega

/-- A number that was read fits the bytes that were read. -/
theorem decode_lt (bytes : List UInt8) : decode bytes < 1 <<< (8 * bytes.length) := by
  have hzero : decode bytes / 2 ^ (8 * bytes.length) = 0 := by
    rw [← Nat.shiftRight_eq_div_pow]
    exact foldl_shiftRight bytes 0
  rw [Nat.one_shiftLeft]
  exact (Nat.div_eq_zero_iff_lt (Nat.two_pow_pos _)).1 hzero

/-- The bytes that were read after `start` are the lowest ones of the number. -/
theorem encode_foldl (bytes : List UInt8) (start : Nat) :
    encode bytes.length (bytes.foldl (fun n b => 256 * n + b.toNat) start) = bytes := by
  induction bytes generalizing start with
  | nil => rfl
  | cons b bytes ih =>
    rw [List.foldl_cons, List.length_cons, encode, foldl_shiftRight, ih]
    simp

/-- A number that was read is written as the bytes it was read from. -/
theorem encode_decode (bytes : List UInt8) : encode bytes.length (decode bytes) = bytes :=
  encode_foldl bytes 0

end Blueprint.BigEndian
