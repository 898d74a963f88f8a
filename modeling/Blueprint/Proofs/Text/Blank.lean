import Blueprint.Text.Blank
import Mathlib.Data.List.DropRight

/-!
# Texts without blanks at their ends

Trimming takes characters from the ends of a text and no others, and it stops at characters that
are no blanks. So what is left has no blanks at its ends, and a text that has none is kept.
-/

namespace Blueprint.Text

/-- Neither the first nor the last character of a text is a blank. -/
structure IsTrimmed (cs : List Char) : Prop where
  /-- the first character is no blank -/
  head : ∀ c ∈ cs.head?, isBlank c = false
  /-- the last character is no blank -/
  last : ∀ c ∈ cs.getLast?, isBlank c = false

/-- A text has no blank at its ends exactly if the first and the last character are none. -/
theorem all_and_all_iff (cs : List Char) :
    (cs.head?.all (!isBlank ·) ∧ cs.getLast?.all (!isBlank ·)) ↔ IsTrimmed cs := by
  simp only [Option.all_eq_true, Bool.not_eq_true']
  exact ⟨fun ⟨head, last⟩ => ⟨head, last⟩, fun h => ⟨h.head, h.last⟩⟩

instance (cs : List Char) : Decidable (IsTrimmed cs) := decidable_of_iff _ (all_and_all_iff cs)

/-- No blank stands between the minus sign and the last small letter. -/
theorem isBlank_of_mem_range {c : Char} (hlow : '-' ≤ c) (hhigh : c ≤ 'z') : isBlank c = false := by
  have hlow : 45 ≤ c.toNat := hlow
  have hhigh : c.toNat ≤ 122 := hhigh
  simp only [isBlank, Bool.or_eq_false_iff, Bool.and_eq_false_imp, decide_eq_true_eq,
    decide_eq_false_iff_not, beq_eq_false_iff_ne, ne_eq]
  omega

/-- Blanks are taken away from the end. -/
theorem trimEnd_eq_rdropWhile (cs : List Char) : trimEnd cs = cs.rdropWhile isBlank := by
  induction cs with
  | nil => rfl
  | cons c cs ih =>
    rw [trimEnd, ih]
    simp only [List.rdropWhile, List.reverse_cons, List.dropWhile_append]
    cases hrest : cs.reverse.dropWhile isBlank with
    | nil => by_cases hc : isBlank c <;> simp [hc]
    | cons d ds =>
      obtain ⟨e, es, hes⟩ := List.exists_cons_of_ne_nil (show (d :: ds).reverse ≠ [] by simp)
      rw [hes]
      simp only [List.isEmpty_cons, Bool.false_eq_true, if_false, List.reverse_append, hes,
        List.reverse_singleton, List.singleton_append]

/-- What is left without blanks stands in the text as it is. -/
theorem trim_infix (cs : List Char) : trim cs <:+: cs := by
  rw [trim, trimEnd_eq_rdropWhile]
  exact (List.rdropWhile_prefix _ _).isInfix.trans (List.dropWhile_suffix _).isInfix

/-- No blank is left at the ends. -/
theorem isTrimmed_trim (cs : List Char) : IsTrimmed (trim cs) where
  head c hc := by
    have hfirst := List.head?_dropWhile_not isBlank cs
    rw [trim, trimEnd_eq_rdropWhile] at hc
    obtain ⟨tail, htail⟩ := List.rdropWhile_prefix isBlank (cs.dropWhile isBlank)
    rw [← htail, List.head?_append, Option.mem_def.1 hc] at hfirst
    exact hfirst
  last c hc := by
    rw [trim, trimEnd_eq_rdropWhile] at hc
    obtain ⟨hne, rfl⟩ := List.mem_getLast?_eq_getLast hc
    exact Bool.eq_false_iff.2 (List.rdropWhile_last_not isBlank _ hne)

/-- A text without blanks at its ends is kept. -/
theorem IsTrimmed.trim_eq {cs : List Char} (h : IsTrimmed cs) : trim cs = cs := by
  have hfront : cs.dropWhile isBlank = cs := by
    cases cs with
    | nil => rfl
    | cons c cs => exact List.dropWhile_cons_of_neg (by simp [h.head c rfl])
  rw [trim, hfront, trimEnd_eq_rdropWhile, List.rdropWhile_eq_self_iff]
  intro hne
  simp [h.last _ (List.getLast?_eq_some_getLast hne)]

/-- A text without blanks has none at its ends. -/
theorem isTrimmed_of_forall {cs : List Char} (h : ∀ c ∈ cs, isBlank c = false) : IsTrimmed cs :=
  ⟨fun c hc => h c (List.mem_of_mem_head? hc), fun c hc => h c (List.mem_of_mem_getLast? hc)⟩

/-- Two texts without blanks at their ends have none together. -/
theorem IsTrimmed.append {cs ds : List Char} (hcs : IsTrimmed cs) (hds : IsTrimmed ds) :
    IsTrimmed (cs ++ ds) where
  head c hc := by
    rw [List.head?_append, Option.mem_def, Option.or_eq_some_iff] at hc
    exact hc.elim (hcs.head c) fun hc => hds.head c hc.2
  last c hc := by
    rw [List.getLast?_append, Option.mem_def, Option.or_eq_some_iff] at hc
    exact hc.elim (hds.last c) fun hc => hcs.last c hc.2

/-- Around a character that is no blank, only the first end of what stands before it and the last
end of what stands after it count. -/
theorem isTrimmed_append_cons_iff {front back : List Char} {c : Char} (hc : isBlank c = false) :
    IsTrimmed (front ++ c :: back) ↔ IsTrimmed (front ++ [c]) ∧ IsTrimmed (c :: back) := by
  have hhead : (front ++ c :: back).head? = (front ++ [c]).head? := by cases front <;> rfl
  have hlast : (front ++ c :: back).getLast? = (c :: back).getLast? := by
    rw [List.getLast?_append_of_ne_nil _ (List.cons_ne_nil c back)]
  refine ⟨fun h => ⟨⟨hhead ▸ h.head, ?_⟩, ⟨?_, hlast ▸ h.last⟩⟩,
    fun ⟨hfront, hback⟩ => ⟨hhead ▸ hfront.head, hlast ▸ hback.last⟩⟩
  · simp [hc]
  · simp [hc]

end Blueprint.Text
