import Blueprint.Text.Split
import Mathlib.Data.List.Basic

/-!
# Cutting a text and joining the pieces

A text is cut at every separator, also at those that are put between pieces to join them. The
pieces of a text have no separator and no characters of their own.
-/

namespace Blueprint.Text

variable {sep : Char}

/-- There is always a piece. -/
theorem splitAll_ne_nil (cs : List Char) : splitAll sep cs ≠ [] := by
  cases cs with
  | nil => simp [splitAll]
  | cons c cs =>
    simp only [splitAll]
    split
    · simp
    · split <;> simp

/-- A text is split at every separator that is put into it. -/
theorem splitAll_append (before after : List Char) :
    splitAll sep (before ++ sep :: after) = splitAll sep before ++ splitAll sep after := by
  induction before with
  | nil => simp [splitAll]
  | cons c cs ih =>
    simp only [List.cons_append, splitAll, ih]
    split
    · rfl
    · cases hpieces : splitAll sep cs with
      | nil => exact absurd hpieces (splitAll_ne_nil cs)
      | cons piece pieces => rfl

/-- A text without the separator is one piece. -/
theorem splitAll_of_notMem {cs : List Char} (h : sep ∉ cs) : splitAll sep cs = [cs] := by
  induction cs with
  | nil => rfl
  | cons c cs ih =>
    rw [List.mem_cons, not_or] at h
    simp [splitAll, ih h.2, Ne.symm h.1]

/-- A separator stands between two pieces. -/
theorem intercalate_cons_cons (piece next : List Char) (pieces : List (List Char)) :
    [sep].intercalate (piece :: next :: pieces) =
      piece ++ sep :: [sep].intercalate (next :: pieces) := by
  simp [List.intercalate]

/-- Pieces that are joined by a separator are what the text is split into. -/
theorem splitAll_intercalate {pieces : List (List Char)} (hne : pieces ≠ [])
    (h : ∀ piece ∈ pieces, sep ∉ piece) :
    splitAll sep ([sep].intercalate pieces) = pieces := by
  induction pieces with
  | nil => exact absurd rfl hne
  | cons piece pieces ih =>
    obtain ⟨hpiece, hpieces⟩ := List.forall_mem_cons.1 h
    cases pieces with
    | nil => simp [splitAll_of_notMem hpiece]
    | cons next pieces =>
      rw [intercalate_cons_cons, splitAll_append, splitAll_of_notMem hpiece,
        ih (List.cons_ne_nil _ _) hpieces]
      rfl

/-- A character of pieces with separators is a separator or in one of the pieces. -/
theorem eq_or_exists_of_mem_intercalate {pieces : List (List Char)} {c : Char}
    (h : c ∈ [sep].intercalate pieces) : c = sep ∨ ∃ piece ∈ pieces, c ∈ piece := by
  induction pieces with
  | nil => simp at h
  | cons piece pieces ih =>
    cases pieces with
    | nil =>
      rw [List.intercalate_singleton] at h
      exact .inr ⟨piece, List.mem_cons_self, h⟩
    | cons next pieces =>
      rw [intercalate_cons_cons, List.mem_append, List.mem_cons] at h
      rcases h with h | h | h
      · exact .inr ⟨piece, List.mem_cons_self, h⟩
      · exact .inl h
      · exact (ih h).imp_right fun ⟨other, hother, hc⟩ => ⟨other, .tail piece hother, hc⟩

/-- What stands in a piece stands in the text and is no separator. -/
theorem mem_and_ne_of_mem_splitAll {cs piece : List Char} {c : Char} (h : piece ∈ splitAll sep cs)
    (hc : c ∈ piece) : c ∈ cs ∧ c ≠ sep := by
  induction cs generalizing piece with
  | nil =>
    obtain rfl := List.mem_singleton.1 h
    cases hc
  | cons d cs ih =>
    simp only [splitAll] at h
    split at h
    next =>
      rcases List.mem_cons.1 h with rfl | h
      · cases hc
      · exact (ih h hc).imp_left (List.mem_cons_of_mem d)
    next hd =>
      -- the first piece is the one that the character is put in front of
      cases hpieces : splitAll sep cs with
      | nil => exact absurd hpieces (splitAll_ne_nil cs)
      | cons first pieces =>
        rw [hpieces] at h ih
        rcases List.mem_cons.1 h with rfl | h
        · rcases List.mem_cons.1 hc with rfl | hc
          · exact ⟨List.mem_cons_self, hd⟩
          · exact (ih List.mem_cons_self hc).imp_left (List.mem_cons_of_mem d)
        · exact (ih (List.mem_cons_of_mem first h) hc).imp_left (List.mem_cons_of_mem d)

end Blueprint.Text
