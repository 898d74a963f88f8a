/-!
# Cutting a text at a separator

Splitting at every occurrence of a character, and at its first one only.
-/

namespace Blueprint.Text

/-- The pieces between the separators; there is always at least one. -/
def splitAll (sep : Char) : List Char → List (List Char)
  | [] => [[]]
  | c :: cs =>
    if c = sep then [] :: splitAll sep cs
    else
      match splitAll sep cs with
      | [] => [[c]]
      | piece :: pieces => (c :: piece) :: pieces

/-- What stands before the first separator and what after it; nothing without one. -/
def splitFirst (sep : Char) (cs : List Char) : Option (List Char × List Char) :=
  match cs.dropWhile (· != sep) with
  | [] => none
  | _ :: rest => some (cs.takeWhile (· != sep), rest)

/-- A first cut loses only the separator. -/
theorem eq_of_splitFirst {sep : Char} {cs before after : List Char}
    (h : splitFirst sep cs = some (before, after)) : cs = before ++ sep :: after := by
  unfold splitFirst at h
  have hcat := List.takeWhile_append_dropWhile (p := (· != sep)) (l := cs)
  match hd : cs.dropWhile (· != sep) with
  | [] => simp [hd] at h
  | c :: rest =>
    simp only [hd, Option.some.injEq, Prod.mk.injEq] at h
    obtain ⟨rfl, rfl⟩ := h
    have hc : c = sep := by
      have := List.head?_dropWhile_not (· != sep) cs
      simp [hd] at this
      exact this
    rw [hd, hc] at hcat
    exact hcat.symm

/-- There is no separator before the first one. -/
theorem notMem_of_splitFirst {sep : Char} {cs before after : List Char}
    (h : splitFirst sep cs = some (before, after)) : sep ∉ before := by
  unfold splitFirst at h
  split at h
  next => cases h
  next =>
    simp only [Option.some.injEq, Prod.mk.injEq] at h
    obtain ⟨rfl, -⟩ := h
    intro hmem
    have hall := List.all_eq_true.1 (List.all_takeWhile (p := (· != sep)) (l := cs)) sep hmem
    simp at hall

/-- A text is cut at the first separator that is put into it. -/
theorem splitFirst_append {sep : Char} {before : List Char} (h : sep ∉ before)
    (after : List Char) : splitFirst sep (before ++ sep :: after) = some (before, after) := by
  have hall : ∀ c ∈ before, (c != sep) = true := fun c hc => by
    simpa using fun heq : c = sep => h (heq ▸ hc)
  rw [splitFirst, List.dropWhile_append_of_pos hall, List.takeWhile_append_of_pos hall]
  simp

end Blueprint.Text
