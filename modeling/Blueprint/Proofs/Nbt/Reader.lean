import Blueprint.Nbt.Decode
import Blueprint.Proofs.Nbt.Writer

/-!
# Reading what was written

A reader is run on bytes and leaves the rest of them. The first part says how sequences of
readers run; the second runs the readers of single values on the bytes that the encoder
writes for such a value, with anything after them.
-/

namespace Blueprint.Nbt.Reader

variable {α β : Type}

/-! ## Sequences of readers -/

@[simp] theorem run_pure (a : α) (input : List UInt8) :
    (pure a : Reader α).run input = .ok (a, input) := rfl

/-- One reader goes on where the one before it stopped. -/
theorem run_bind_ok {r : Reader α} {f : α → Reader β} {input rest : List UInt8} {a : α}
    (h : r.run input = .ok (a, rest)) : (r >>= f).run input = (f a).run rest := by
  rw [StateT.run_bind, h]
  rfl

/-- It does not go on where the one before it has failed. -/
theorem run_bind_error {r : Reader α} {f : α → Reader β} {input : List UInt8} {e : DecodeError}
    (h : r.run input = .error e) : (r >>= f).run input = .error e := by
  rw [StateT.run_bind, h]
  rfl

/-- A reader whose value is changed takes the same bytes. -/
theorem run_map_ok {r : Reader α} (g : α → β) {input rest : List UInt8} {a : α}
    (h : r.run input = .ok (a, rest)) : (g <$> r).run input = .ok (g a, rest) := by
  rw [StateT.run_map, h]
  rfl

/-- And it fails as it did. -/
theorem run_map_error {r : Reader α} (g : α → β) {input : List UInt8} {e : DecodeError}
    (h : r.run input = .error e) : (g <$> r).run input = .error e := by
  rw [StateT.run_map, h]
  rfl

/-! ## Signed numbers by their words -/

/-- A byte is the number that it is written as. -/
theorem toInt8_ofNat_toNat (v : Int8) : (UInt8.ofNat v.toUInt8.toNat).toInt8 = v := by
  rw [UInt8.ofNat_toNat, Int8.toInt8_toUInt8]

/-- So is a short. -/
theorem toInt16_ofNat_toNat (v : Int16) : (UInt16.ofNat v.toUInt16.toNat).toInt16 = v := by
  rw [UInt16.ofNat_toNat, Int16.toInt16_toUInt16]

/-- So is a word. -/
theorem toInt32_ofNat_toNat (v : Int32) : (UInt32.ofNat v.toUInt32.toNat).toInt32 = v := by
  rw [UInt32.ofNat_toNat, Int32.toInt32_toUInt32]

/-- And so is a long one. -/
theorem toInt64_ofNat_toNat (v : Int64) : (UInt64.ofNat v.toUInt64.toNat).toInt64 = v := by
  rw [UInt64.ofNat_toNat, Int64.toInt64_toUInt64]

/-! ## Single values -/

/-- Some bytes are taken off the front by their number. -/
theorem splitExact_append (front rest : List UInt8) :
    splitExact front.length (front ++ rest) = some (front, rest) := by
  induction front with
  | nil => rfl
  | cons b front ih =>
    simp only [List.length_cons, List.cons_append, splitExact, ih, Option.map_some]

/-- They are read as they are. -/
theorem bytes_append (front rest : List UInt8) :
    (bytes front.length).run (front ++ rest) = .ok (front, rest) := by
  simp only [bytes, StateT.run, splitExact_append]

/-- A word that fits its bytes is read back. -/
theorem word_encode {width n : Nat} (h : n < 1 <<< (8 * width)) (rest : List UInt8) :
    (word width).run (BigEndian.encode width n ++ rest) = .ok (n, rest) := by
  have hbytes : (bytes width).run (BigEndian.encode width n ++ rest) =
      .ok (BigEndian.encode width n, rest) := by
    have happ := bytes_append (BigEndian.encode width n) rest
    rwa [BigEndian.length_encode] at happ
  rw [word, run_map_ok _ hbytes, BigEndian.decode_encode h]

/-- The value that a written word stands for. -/
theorem word_value {width n : Nat} {ofNat : Nat → α} {a : α} (hfits : n < 1 <<< (8 * width))
    (hvalue : ofNat n = a) (rest : List UInt8) :
    (ofNat <$> word width).run (BigEndian.encode width n ++ rest) = .ok (a, rest) := by
  rw [run_map_ok _ (word_encode hfits rest), hvalue]

/-- A byte is read off the front. -/
theorem byte_cons (b : UInt8) (rest : List UInt8) : byte.run (b :: rest) = .ok (b, rest) := by
  have hword : (word 1).run (b :: rest) = .ok (b.toNat, rest) := by
    have hbytes : (bytes 1).run (b :: rest) = .ok ([b], rest) := bytes_append [b] rest
    rw [word, run_map_ok _ hbytes]
    simp [BigEndian.decode]
  rw [byte, run_map_ok _ hword, UInt8.ofNat_toNat]

/-- The bytes of a text are a text again. -/
theorem fromUTF8?_utf8 (s : String) : String.fromUTF8? ⟨(Encode.utf8 s).toArray⟩ = some s := by
  rw [Encode.utf8, Array.toArray_toList, String.toUTF8_eq_toByteArray, String.fromUTF8?,
    dif_pos s.isValidUTF8]
  rfl

/-- A text is read back. -/
theorem string_encode {s : String} {written : List UInt8} (h : Encode.string s = .ok written)
    (rest : List UInt8) : string.run (written ++ rest) = .ok (s, rest) := by
  obtain ⟨hlt, rfl⟩ := Encode.string_eq_ok.1 h
  have hword := word_encode (show (Encode.utf8 s).length < 1 <<< (8 * 2) from hlt)
    (Encode.utf8 s ++ rest)
  rw [string, List.append_assoc, run_bind_ok hword, run_bind_ok (bytes_append _ _),
    fromUTF8?_utf8]
  rfl

/-- A length that can be written is read back. -/
theorem length_encode (what : Counted) {n : Nat} {written : List UInt8}
    (h : Encode.length n = .ok written) (rest : List UInt8) :
    (length what).run (written ++ rest) = .ok (n, rest) := by
  obtain ⟨hlt, rfl⟩ := Encode.length_eq_ok.1 h
  have hword := word_encode (show n < 1 <<< (8 * 4) by omega) rest
  have hvalue : (UInt32.ofNat n).toInt32.toInt = n := by
    rw [UInt32.toInt32_ofNat', Int32.toInt_ofNat_of_lt hlt]
  have hnonneg : ¬ (UInt32.ofNat n).toInt32 < 0 := by
    rw [Int32.lt_iff_toInt_lt, hvalue, Int32.toInt_zero]
    omega
  rw [length, run_bind_ok hword]
  simp only [if_neg hnonneg, hvalue, Int.toNat_natCast]
  rfl

/-- Values are read back one after another if each of them is. -/
theorem replicate_flatMap {item : Reader α} {encode : α → List UInt8} {values : List α}
    (h : ∀ a ∈ values, ∀ rest, item.run (encode a ++ rest) = .ok (a, rest))
    (rest : List UInt8) :
    (replicate item values.length).run (values.flatMap encode ++ rest) = .ok (values, rest) := by
  induction values with
  | nil => rfl
  | cons a values ih =>
    have hfirst := h a List.mem_cons_self (values.flatMap encode ++ rest)
    have hmore := ih fun b hb => h b (List.mem_cons_of_mem a hb)
    rw [List.flatMap_cons, List.append_assoc, List.length_cons, replicate, run_bind_ok hfirst,
      run_bind_ok hmore]
    rfl

/-- An array is read back if its numbers fit their bytes and stand for its values. -/
theorem array_encode (what : Counted) {width : Nat} {ofNat : Nat → α} {toNat : α → Nat}
    (hfits : ∀ a, toNat a < 1 <<< (8 * width)) (hvalue : ∀ a, ofNat (toNat a) = a)
    {values : List α} {written : List UInt8} (h : Encode.array width toNat values = .ok written)
    (rest : List UInt8) :
    (array what width ofNat).run (written ++ rest) = .ok (values, rest) := by
  obtain ⟨header, hheader, rfl⟩ := Encode.array_eq_ok.1 h
  rw [array, List.append_assoc, run_bind_ok (length_encode what hheader _)]
  exact replicate_flatMap (fun a _ => word_value (hfits a) (hvalue a)) rest

end Blueprint.Nbt.Reader
