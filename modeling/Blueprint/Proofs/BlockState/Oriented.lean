import Blueprint.BlockState.Oriented
import Blueprint.Proofs.SortedMap
import Blueprint.Proofs.Text.Numeral
import Blueprint.Structure

/-!
# Moving texts is moving values

A step turns typed property values, but a structure has their texts. A value and its text are
turned alike: whatever is a direction, an axis, a heading or an orientation as a text is one
as a value, and what is none stays as it is. So a palette entry can be moved by itself, with
the state it came from forgotten.
-/

namespace Blueprint

/-! ## States in texts -/

/-- A value as the text it is written out as. -/
def PropertyValue.inText (v : PropertyValue) : PropertyValue := .string v.text

/-- Properties with their values as texts. -/
def Properties.inText (p : Properties) : Properties := p.map fun _ v => v.inText

/-- A state with the values of its properties as texts. -/
def BlockState.inText (state : BlockState) : BlockState := ⟨state.id, state.properties.inText⟩

/-- Values in texts are written out as the values are. -/
theorem BlockState.paletteEntry_inText (state : BlockState) :
    state.inText.paletteEntry = state.paletteEntry := by
  refine congrArg (PaletteEntry.mk state.id) (SortedMap.eq_of_entries_eq ?_)
  simp only [inText, Properties.inText, SortedMap.map, List.map_map]
  rfl

/-! ## Texts that name nothing -/

/-- What has only digits and minus signs names no direction. -/
theorem Direction.ofText?_eq_none {text : String}
    (h : ∀ c ∈ text.toList, c.isDigit = true ∨ c = '-') : ofText? text = none := by
  cases hd : ofText? text with
  | none => rfl
  | some d =>
    have hall : text.toList.all (fun c => c.isDigit || c == '-') = true := by simpa using h
    rw [← text_of_ofText? hd] at hall
    cases d <;> exact absurd hall (by decide)

/-- What has only digits and minus signs names no axis. -/
theorem Axis.ofText?_eq_none {text : String}
    (h : ∀ c ∈ text.toList, c.isDigit = true ∨ c = '-') : ofText? text = none := by
  cases ha : ofText? text with
  | none => rfl
  | some a =>
    have hall : text.toList.all (fun c => c.isDigit || c == '-') = true := by simpa using h
    rw [← text_of_ofText? ha] at hall
    cases a <;> exact absurd hall (by decide)

namespace Step

variable (s : Step)

/-- A value that is no text names no direction. -/
theorem directionName_of_not_string {v : PropertyValue} (h : ∀ text, v ≠ .string text) :
    s.directionName v.text = v.text := by
  cases v with
  | bool b => cases b <;> rfl
  | int n =>
    rw [PropertyValue.text, directionName,
      Direction.ofText?_eq_none fun c => Text.isDigit_of_mem_toString]
  | string text => exact absurd rfl (h text)

/-- Nor does it name an axis. -/
theorem axisName_of_not_string {v : PropertyValue} (h : ∀ text, v ≠ .string text) :
    s.axisName v.text = v.text := by
  cases v with
  | bool b => cases b <;> rfl
  | int n =>
    rw [PropertyValue.text, axisName, Axis.ofText?_eq_none fun c => Text.isDigit_of_mem_toString]
  | string text => exact absurd rfl (h text)

/-- Nor an orientation. -/
theorem orientationName_of_not_string {v : PropertyValue} (h : ∀ text, v ≠ .string text) :
    s.orientationName v.text = v.text := by
  cases v with
  | bool b => cases b <;> rfl
  | int n =>
    rw [PropertyValue.text, orientationName, Text.splitFirst_toString (by decide) (by decide)]
  | string text => exact absurd rfl (h text)

/-! ## Values -/

/-- A heading is turned alike as a number, as a text and as the text of a number. -/
theorem headingValue_text (v : PropertyValue) :
    s.headingValue (.string v.text) = .string (s.headingValue v).text := by
  cases v with
  | bool b => cases b <;> rfl
  | string text =>
    simp only [headingValue, PropertyValue.text]
    split <;> rfl
  | int n =>
    have hread : Text.integer? 0x8000000000000000 (toString n.toInt).toList = some n.toInt :=
      Text.integer?_toString (Int64.le_toInt n) (Int64.toInt_lt n)
    simp only [headingValue, PropertyValue.text, hread, Option.bind_some]
    cases heading? n.toInt with
    | none => rfl
    | some h =>
      have hvalue : (Int64.ofNat (s.heading h).val).toInt = (s.heading h).val := by
        rw [Int64.toInt_ofNat_of_lt]
        omega
      simp only [hvalue]
      rfl

/-- **A property is turned alike as a value and as a text.** -/
theorem property_text (key : String) (v : PropertyValue) :
    s.property key v.inText = ((s.property key v).1, (s.property key v).2.inText) := by
  rw [PropertyValue.inText, PropertyValue.inText]
  generalize hp : s.property key v = moved
  unfold property at hp
  split at hp <;> subst hp
  case h_4 => exact congrArg (Prod.mk "rotation") (s.headingValue_text v)
  case h_10 hrotation hnorth heast hsouth hwest hfacing hhorizontal haxis horientation =>
    -- a value of another kind under a key that turns texts, or a key that turns nothing
    by_cases h : key = "facing"
    · subst h
      exact congrArg (fun text => ("facing", PropertyValue.string text))
        (s.directionName_of_not_string fun text => hfacing text rfl)
    by_cases h : key = "horizontal_facing"
    · subst h
      exact congrArg (fun text => ("horizontal_facing", PropertyValue.string text))
        (s.directionName_of_not_string fun text => hhorizontal text rfl)
    by_cases h : key = "axis"
    · subst h
      exact congrArg (fun text => ("axis", PropertyValue.string text))
        (s.axisName_of_not_string fun text => haxis text rfl)
    by_cases h : key = "orientation"
    · subst h
      exact congrArg (fun text => ("orientation", PropertyValue.string text))
        (s.orientationName_of_not_string fun text => horientation text rfl)
    unfold property
    split <;> first | rfl | contradiction
  all_goals rfl

/-- Properties are turned alike as values and as texts. -/
theorem properties_inText (p : Properties) :
    s.properties p.inText = Properties.inText (s.properties p) := by
  rw [properties, properties, Properties.inText, Properties.inText, SortedMap.map_ofList]
  refine congrArg SortedMap.ofList ?_
  simp only [SortedMap.map, List.map_map]
  exact List.map_congr_left fun e _ => s.property_text e.1 e.2

end Step

/-- A step turns a state in texts as it turns the state. -/
theorem BlockState.step_inText (s : Step) (state : BlockState) :
    state.inText.step s = (state.step s).inText :=
  congrArg (BlockState.mk state.id) (s.properties_inText state.properties)

/-! ## Palette entries -/

/-- A palette entry after a step: its texts are turned as properties. -/
def PaletteEntry.step (s : Step) (e : PaletteEntry) : PaletteEntry :=
  ⟨e.name, (s.properties (e.properties.map fun _ text => .string text)).map fun _ v => v.text⟩

/-- The entry of a state that takes a step is its entry after the step. -/
theorem BlockState.paletteEntry_step (s : Step) (state : BlockState) :
    (state.step s).paletteEntry = state.paletteEntry.step s := by
  have hmap : (state.properties.map fun _ v => v.text).map (fun _ text => .string text) =
      state.properties.inText := by
    simp only [Properties.inText, SortedMap.map, List.map_map]
    rfl
  calc
    (state.step s).paletteEntry = (state.inText.step s).paletteEntry := by
      rw [step_inText, paletteEntry_inText]
    _ = state.paletteEntry.step s := by
      rw [PaletteEntry.step, paletteEntry, paletteEntry, hmap]
      rfl

end Blueprint
