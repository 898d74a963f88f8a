import Blueprint.Proofs.Text.Numeral
import Mathlib.Algebra.BigOperators.Group.List.Basic
import Mathlib.Algebra.GroupWithZero.Nat

/-!
# Lines

Texts are put together from fixed words, numbers and texts that come from elsewhere. The line
breaks in what is put together are those of its parts, and neither words nor numbers have any, so
whether a text is one line depends on what it quotes.
-/

namespace Blueprint.Text

/-- How many line breaks stand in a text. -/
def breaks (text : String) : Nat := text.toList.count '\n'

/-- No line break stands in a text. -/
def OneLine (text : String) : Prop := '\n' ∉ text.toList

instance : DecidablePred OneLine := fun text => inferInstanceAs (Decidable ('\n' ∉ text.toList))

/-- No line break stands in any of these texts. -/
def AllOneLine (texts : List String) : Prop := ∀ text ∈ texts, OneLine text

instance : DecidablePred AllOneLine := fun texts =>
  inferInstanceAs (Decidable (∀ text ∈ texts, OneLine text))

/-- A text is made of these lines, each with its end. -/
structure HasLines (lines : List String) (text : String) : Prop where
  /-- the lines are put one after another -/
  text_eq : text = String.join (lines.map fun line => line ++ "\n")
  /-- no line is broken -/
  oneLine : AllOneLine lines

/-- A text is one line exactly if it has no line break. -/
theorem breaks_eq_zero_iff {text : String} : breaks text = 0 ↔ OneLine text := List.count_eq_zero

theorem OneLine.breaks_eq {text : String} (h : OneLine text) : breaks text = 0 :=
  breaks_eq_zero_iff.2 h

@[simp] theorem breaks_append (s t : String) : breaks (s ++ t) = breaks s + breaks t := by
  rw [breaks, String.toList_append, List.count_append]
  rfl

@[simp] theorem oneLine_append {s t : String} : OneLine (s ++ t) ↔ OneLine s ∧ OneLine t := by
  rw [OneLine, String.toList_append, List.mem_append, not_or]
  rfl

/-- A text is one line exactly if no character of it is a line break. -/
theorem oneLine_ofList {cs : List Char} : OneLine (String.ofList cs) ↔ '\n' ∉ cs := by
  rw [OneLine, String.toList_ofList]

@[simp] theorem oneLine_toString {text : String} : OneLine (toString text) ↔ OneLine text := .rfl

@[simp] theorem breaks_toString (text : String) : breaks (toString text) = breaks text := rfl

@[simp] theorem allOneLine_nil : AllOneLine [] := nofun

@[simp] theorem allOneLine_cons {text : String} {texts : List String} :
    AllOneLine (text :: texts) ↔ OneLine text ∧ AllOneLine texts := List.forall_mem_cons

@[simp] theorem allOneLine_append {texts texts' : List String} :
    AllOneLine (texts ++ texts') ↔ AllOneLine texts ∧ AllOneLine texts' := List.forall_mem_append

/-- A single text is one line if it is. -/
theorem allOneLine_singleton {text : String} : AllOneLine [text] ↔ OneLine text :=
  List.forall_mem_singleton

/-! ## Numbers -/

@[simp] theorem oneLine_repr (n : Nat) : OneLine n.repr := by
  intro h
  have hdigit := isDigit_of_mem_repr h
  exact absurd hdigit (by decide)

@[simp] theorem oneLine_toString_int (n : Int) : OneLine (toString n) := by
  intro h
  have hchar := isDigit_of_mem_toString h
  exact absurd hchar (by decide)

@[simp] theorem breaks_repr (n : Nat) : breaks n.repr = 0 := (oneLine_repr n).breaks_eq

@[simp] theorem breaks_toString_int (n : Int) : breaks (toString n) = 0 :=
  (oneLine_toString_int n).breaks_eq

/-! ## Texts in a row -/

/-- Texts put together have their line breaks together. -/
theorem breaks_join (texts : List String) :
    breaks (String.join texts) = (texts.map breaks).sum := by
  induction texts with
  | nil => rfl
  | cons text texts ih => simp [ih]

/-- So have texts with something between them that has none. -/
theorem breaks_intercalate {sep : String} (hsep : breaks sep = 0) (texts : List String) :
    breaks (sep.intercalate texts) = (texts.map breaks).sum := by
  induction texts with
  | nil => rfl
  | cons text texts ih =>
    cases texts with
    | nil => simp
    | cons next texts => simp [ih, hsep]

/-- None of some texts has a line break exactly if there is none in all of them. -/
theorem sum_breaks_eq_zero_iff {texts : List String} :
    (texts.map breaks).sum = 0 ↔ AllOneLine texts := by
  induction texts with
  | nil => simp
  | cons text texts ih => simp [ih, breaks_eq_zero_iff]

/-! ## Lines -/

/-- Texts that are put one after another, each with a line end, make as many lines as there are
texts, and more for every break in one of them. -/
theorem breaks_lines (texts : List String) :
    breaks (String.join (texts.map fun text => text ++ "\n")) =
      texts.length + (texts.map breaks).sum := by
  have hend : breaks "\n" = 1 := by decide
  rw [breaks_join]
  induction texts with
  | nil => rfl
  | cons text texts ih =>
    simp only [List.map_cons, List.sum_cons, List.length_cons, breaks_append, hend, ih]
    omega

/-- A text that consists of lines has a line break for each of them. -/
theorem HasLines.breaks_eq {lines : List String} {text : String} (h : HasLines lines text) :
    breaks text = lines.length := by
  rw [h.text_eq, breaks_lines, sum_breaks_eq_zero_iff.2 h.oneLine, Nat.add_zero]

end Blueprint.Text
