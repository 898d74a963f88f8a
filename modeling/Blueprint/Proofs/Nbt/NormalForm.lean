import Blueprint.Proofs.Nbt.Rewritten

/-!
# The normal form of bytes

Different bytes may be read as the same tag: they give a key more than once, and only the last
value of it counts. What is written for the tag that was read is the normal form of all of
them. It is read as that tag again, so writing once more changes nothing, and it is shorter than
the bytes that were read or it is those bytes.

The bytes that were read spell one tag as they stand, with every entry that they give
(`read_spelled`, `encode_inj`). They are the normal form exactly if no compound of that tag has a
key twice.
-/

namespace Blueprint.Nbt.Tag

/-- A terminator has the empty name. -/
theorem name_of_read_terminator {input rest : List UInt8} {name : String}
    (h : read.run input = .ok ((name, terminator), rest)) : name = "" := by
  obtain ⟨spelled, front, hspelled, hmerged, rfl⟩ := read_spelled h
  obtain rfl : spelled = terminator := merged_eq_terminator_iff.1 hmerged
  rw [encode_terminator] at hspelled
  obtain rfl := Except.ok.inj hspelled
  -- one byte is all that such a tag has
  rw [List.singleton_append, read_terminator] at h
  simp only [Except.ok.injEq, Prod.mk.injEq] at h
  exact h.1.1.symm

/-- A tag that was read comes back from what is written for it, whatever follows. -/
theorem read_encode_of_read {input rest written : List UInt8} {name : String} {t : Tag}
    (h : read.run input = .ok ((name, t), rest)) (hw : t.encode name = .ok written)
    (other : List UInt8) : read.run (written ++ other) = .ok ((name, t), other) := by
  obtain ⟨hfits, hkeys⟩ := read_fits h
  have hname : t = terminator → name = "" := by
    rintro rfl
    exact name_of_read_terminator h
  apply (read_encode hkeys hname hw other).ok
  exact fits_succ_iff.1 hfits

/-- A tag and the same tag merged are written as the same bytes exactly if no key is repeated. -/
theorem encode_merged_eq_iff {t : Tag} {name : String} {written again : List UInt8}
    (hw : t.encode name = .ok written) (hagain : t.merged.encode name = .ok again) :
    again = written ↔ t.KeysDistinct := by
  rw [← merged_eq_self_iff]
  constructor
  · rintro rfl
    exact encode_inj hagain hw
  · intro hsame
    rw [hsame, hw] at hagain
    exact (Except.ok.inj hagain).symm

/-- **What was read is written in normal form.** Of the bytes that a tag was read from, those in
front of the rest spell one tag, and what was read is that tag merged. It can be written under its
name. What is written is read as the same tag again, up to its last byte and whatever follows; it
is no longer than the bytes that were taken, and it is those bytes exactly if they repeat no key
in a compound. -/
theorem normal_form {input rest : List UInt8} {name : String} {t : Tag}
    (h : read.run input = .ok ((name, t), rest)) :
    ∃ taken written : List UInt8, input = taken ++ rest ∧ t.encode name = .ok written ∧
      (∀ other, read.run (written ++ other) = .ok ((name, t), other)) ∧
      written.length ≤ taken.length ∧
      ∃ spelled : Tag, (∀ u : Tag, u.encode name = .ok taken ↔ u = spelled) ∧
        t = spelled.merged ∧ (written = taken ↔ spelled.KeysDistinct) := by
  obtain ⟨spelled, taken, hspelled, rfl, hinput⟩ := read_spelled h
  obtain ⟨written, hwritten, hle⟩ := encode_merged hspelled
  refine ⟨taken, written, hinput, hwritten, read_encode_of_read h hwritten, hle, spelled, ?_, rfl,
    encode_merged_eq_iff hspelled hwritten⟩
  intro u
  constructor
  · intro hu
    exact encode_inj hu hspelled
  · rintro rfl
    exact hspelled

/-- A compound in a list repeats a key that has another one in between. It is written with the
last value in the first place, in fewer bytes, and comes back from these. -/
theorem normal_form_repeated :
    let spelled : Tag := compound [("l", list 10 [compound
      [("a", .byte 1), ("b", .byte 2), ("a", .byte 3)]])]
    let t : Tag := compound [("l", list 10 [compound [("a", .byte 3), ("b", .byte 2)]])]
    let taken : List UInt8 := [10, 0, 0, 9, 0, 1, 108, 10, 0, 0, 0, 1, 1, 0, 1, 97, 1, 1, 0, 1,
      98, 2, 1, 0, 1, 97, 3, 0, 0]
    read.run (taken ++ [7]) = .ok (("", t), [7]) ∧
      ∃ written, t.encode "" = .ok written ∧ read.run written = .ok (("", t), []) ∧
        written.length ≤ taken.length ∧ (written = taken ↔ spelled.KeysDistinct) := by
  intro spelled t taken
  have hread : read.run (taken ++ [7]) = .ok (("", t), [7]) := by rfl
  have hspelled : spelled.encode "" = .ok taken := by
    simp only [spelled, taken]
    rfl
  -- the root has one spelling, so the one found is the one given
  obtain ⟨front, written, hfront, hwritten, hback, hle, u, hunique, -, hiff⟩ := normal_form hread
  obtain rfl := List.append_cancel_right hfront
  obtain rfl := (hunique spelled).1 hspelled
  have hback := hback []
  rw [List.append_nil] at hback
  exact ⟨hread, written, hwritten, hback, hle, hiff⟩

end Blueprint.Nbt.Tag
