import Blueprint.Text.Numeral
import Blueprint.Text.Split

/-!
# Numbers are read back from their texts

A number that is written out has only digits, with a minus sign in front if it is negative.
The reader of numerals gives it again, and no cut at another character succeeds on it.
-/

namespace Blueprint.Text

/-! ## Digits -/

/-- Digits are read as the number that they stand for in base ten. -/
theorem digitsFrom_eq_ofDigitChars {cs : List Char} (h : ∀ c ∈ cs, c.isDigit = true)
    (value : Nat) : digitsFrom value cs = some (Nat.ofDigitChars 10 cs value) := by
  induction cs generalizing value with
  | nil => rw [digitsFrom, Nat.ofDigitChars_nil]
  | cons c cs ih =>
    obtain ⟨hc, hcs⟩ := List.forall_mem_cons.1 h
    rw [digitsFrom, digit?, if_pos hc, Nat.ofDigitChars_cons]
    exact ih hcs _

/-- A number is written in digits. -/
theorem isDigit_of_mem_repr {n : Nat} {c : Char} (h : c ∈ n.repr.toList) : c.isDigit = true := by
  rw [Nat.toList_repr] at h
  exact Nat.isDigit_of_mem_toDigits (by decide) (by decide) h

/-- What is written of a number is read as the number. -/
theorem digits?_repr (n : Nat) : digits? n.repr.toList = some n := by
  have hdigits := digitsFrom_eq_ofDigitChars (fun c hc => isDigit_of_mem_repr (n := n) hc) 0
  rw [Nat.toList_repr, Nat.ofDigitChars_ten_toDigits] at hdigits
  rw [Nat.toList_repr]
  cases hcs : Nat.toDigits 10 n with
  | nil => exact absurd hcs Nat.toDigits_ne_nil
  | cons c cs => rwa [hcs] at hdigits

/-! ## Integers -/

/-- The text of an integer is that of its absolute value, after a sign if it is negative. -/
theorem toList_toString_int (n : Int) :
    (toString n).toList = (if n < 0 then ['-'] else []) ++ n.natAbs.repr.toList := by
  cases n with
  | ofNat n => simp [toString, Int.repr]
  | negSucc n => simp [toString, Int.repr]

/-- No other characters stand in the text of an integer. -/
theorem isDigit_of_mem_toString {n : Int} {c : Char} (h : c ∈ (toString n).toList) :
    c.isDigit = true ∨ c = '-' := by
  rw [toList_toString_int, List.mem_append] at h
  rcases h with h | h
  · split at h
    · exact .inr (List.mem_singleton.1 h)
    · cases h
  · exact .inl (isDigit_of_mem_repr h)

/-- An integer in range is read back from its text. -/
theorem integer?_toString {bound : Nat} {n : Int} (hlow : -(bound : Int) ≤ n) (hhigh : n < bound) :
    integer? bound (toString n).toList = some n := by
  have hrange : (decide (-(bound : Int) ≤ n) && decide (n < bound)) = true := by
    rw [decide_eq_true hlow, decide_eq_true hhigh]
    rfl
  rw [toList_toString_int]
  unfold integer?
  -- the sign is written for a negative number only, so the text is read by its first character
  by_cases hneg : n < 0
  · have hvalue : -(n.natAbs : Int) = n := by omega
    rw [if_pos hneg, List.singleton_append]
    simp only [digits?_repr]
    change (some (-(n.natAbs : Int))).filter _ = some n
    rw [hvalue, Option.filter_some, if_pos hrange]
  · have hvalue : (n.natAbs : Int) = n := by omega
    rw [if_neg hneg, List.nil_append]
    have hdigits := digits?_repr n.natAbs
    have hchars : ∀ c ∈ n.natAbs.repr.toList, c.isDigit = true := fun c => isDigit_of_mem_repr
    cases hcs : n.natAbs.repr.toList with
    | nil =>
      rw [hcs] at hdigits
      cases hdigits
    -- a digit is neither sign
    | cons c cs =>
      rw [hcs] at hdigits hchars
      have hc := hchars c List.mem_cons_self
      have hminus : c ≠ '-' := by rintro rfl; cases hc
      have hplus : c ≠ '+' := by rintro rfl; cases hc
      simp [hminus, hplus, hdigits, hvalue, hrange]

/-- The text of an integer has no separator that is neither digit nor minus sign. -/
theorem splitFirst_toString {sep : Char} (hdigit : sep.isDigit = false) (hminus : sep ≠ '-')
    (n : Int) : splitFirst sep (toString n).toList = none := by
  cases h : splitFirst sep (toString n).toList with
  | none => rfl
  | some pieces =>
    have hmem : sep ∈ (toString n).toList := by
      rw [eq_of_splitFirst h]
      simp
    rcases isDigit_of_mem_toString hmem with hsep | hsep
    · rw [hdigit] at hsep
      cases hsep
    · exact absurd hsep hminus

end Blueprint.Text
