import Blueprint.NamespacedId
import Blueprint.Proofs.Text.Blank

/-!
# Full identifiers are their own

The full identifier that a text stands for has a namespace and no blanks. So it stands for itself,
and completing identifiers once is enough.
-/

namespace Blueprint.NamespacedId

/-- No character of a path is a blank. -/
theorem isBlank_of_isPathChar {c : Char} (h : isPathChar c = true) : Text.isBlank c = false := by
  have hrange : '-' ≤ c ∧ c ≤ 'z' := by
    simp only [isPathChar, isSpaceChar, Bool.or_eq_true, Bool.and_eq_true, decide_eq_true_eq,
      beq_iff_eq] at h
    rcases h with ((((h | h) | rfl) | rfl) | rfl) | rfl
    · exact ⟨Char.le_trans (show '-' ≤ 'a' by decide) h.1, h.2⟩
    · exact ⟨Char.le_trans (show '-' ≤ '0' by decide) h.1,
        Char.le_trans h.2 (show '9' ≤ 'z' by decide)⟩
    all_goals decide
  exact Text.isBlank_of_mem_range hrange.1 hrange.2

/-- An identifier is two parts around its first colon. -/
theorem exists_parts_of_isWellFormed {cs : List Char} (h : isWellFormed cs = true) :
    ∃ space path, cs = space ++ ':' :: path ∧ (∀ c ∈ space, isSpaceChar c = true) ∧
      ∀ c ∈ path, isPathChar c = true := by
  unfold isWellFormed at h
  have hcs := List.takeWhile_append_dropWhile (p := isSpaceChar) (l := cs)
  split at h
  next path hpath =>
    rw [hpath] at hcs
    exact ⟨_, path, hcs.symm, List.all_eq_true.1 List.all_takeWhile,
      List.all_eq_true.1 (Bool.and_eq_true_iff.1 h).2⟩
  next => cases h

/-- A full identifier is completed to itself. -/
theorem complete?_of_isWellFormed {cs : List Char} (h : isWellFormed cs = true) :
    complete? (String.ofList cs) = some (String.ofList cs) := by
  obtain ⟨space, path, hcs, hspace, hpath⟩ := exists_parts_of_isWellFormed h
  have hblank : ∀ c ∈ cs, Text.isBlank c = false := by
    intro c hc
    rw [hcs, List.mem_append, List.mem_cons] at hc
    rcases hc with hc | rfl | hc
    · exact isBlank_of_isPathChar (Bool.or_eq_true_iff.2 (.inl (hspace c hc)))
    · decide
    · exact isBlank_of_isPathChar (hpath c hc)
  have hcolon : cs.contains ':' = true := by simp [hcs]
  rw [complete?, String.toList_ofList, (Text.isTrimmed_of_forall hblank).trim_eq]
  simp only [hcolon, if_true, h]

/-- An identifier in full is its own full form. -/
theorem complete?_complete? {text id : String} (h : complete? text = some id) :
    complete? id = some id := by
  simp only [complete?] at h
  generalize (if (Text.trim text.toList).contains ':' = true then _ else _ : List Char) = full at h
  split at h
  next hfull =>
    obtain rfl := Option.some.inj h
    exact complete?_of_isWellFormed hfull
  next => cases h

end Blueprint.NamespacedId
