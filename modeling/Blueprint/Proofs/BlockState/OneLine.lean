import Blueprint.Proofs.BlockState.RoundTrip
import Blueprint.Proofs.Json.OneLine

/-!
# Block states without line breaks

A state that is read has no line breaks, whatever it is read from, and a step brings none into it.
If the text has none, then what is quoted of a text that is no state has none either.
-/

namespace Blueprint

open Text

/-- No text in the state has a line break. -/
structure BlockState.OneLine (state : BlockState) : Prop where
  id : Text.OneLine state.id
  properties : state.properties.InLines fun v => Text.OneLine v.text

namespace BlockState

/-! ## Reading -/

/-- No line break is a name character. -/
theorem IsId.oneLine {id : List Char} (h : IsId id) : '\n' ∉ id := fun hc =>
  absurd (h.isBlank hc) (by decide)

/-- A state that is read has no line break in it. -/
theorem oneLine_of_parse {text : String} {state : BlockState} (h : parse text = .ok state) :
    state.OneLine where
  id := (isRead_of_parse h).id.oneLine
  properties e he :=
    have hproperty := (isRead_of_parse h).properties e he
    ⟨hproperty.key.lineFeed, hproperty.value.isWord_text.lineFeed⟩

/-- What is quoted of a segment comes from the brackets, and these hold no line break. -/
theorem failsWith_parseSegments {state : String} (hstate : Text.OneLine state) {read : Properties}
    {pieces : List (List Char)} (hpieces : ∀ piece ∈ pieces, ',' ∉ piece ∧ '\n' ∉ piece) :
    Outcome.FailsWith (fun e => AllOneLine e.quoted) (parseSegments state read pieces) := by
  induction pieces generalizing read with
  | nil => exact .ok read
  | cons piece pieces ih =>
    obtain ⟨hpiece, hpieces⟩ := List.forall_mem_cons.1 hpieces
    unfold parseSegments
    split
    -- a piece of blanks is passed over
    next => exact ih hpieces
    next segment hne =>
      have hword : IsWord (Text.trim piece) := isWord_trim hne hpiece.1 hpiece.2
      split
      next =>
        -- without an equals sign the piece is quoted, a second time a key is quoted alone
        refine .error (allOneLine_cons.2 ⟨?_, allOneLine_singleton.2 hstate⟩)
        exact oneLine_ofList.2 hword.lineFeed
      next key value hcut =>
        obtain ⟨hkey, -, -⟩ := isWord_of_keyValue? hcut hword
        dsimp only
        split
        next =>
          refine .error (allOneLine_cons.2 ⟨?_, allOneLine_singleton.2 hstate⟩)
          exact oneLine_ofList.2 hkey.lineFeed
        next => exact ih hpieces

/-- A text without line breaks is refused without any. -/
theorem failsWith_parse {text : String} (h : Text.OneLine text) :
    Outcome.FailsWith (fun e => AllOneLine e.quoted) (parse text) := by
  have hform : AllOneLine (SyntaxError.form text).quoted := allOneLine_singleton.2 h
  unfold parse
  split
  next => exact .error hform
  next => exact .ok _
  next =>
    split
    next => exact .error hform
    next props hprops =>
      refine .map _ (failsWith_parseSegments h fun piece hpiece => ⟨fun hc => ?_, fun hc => ?_⟩)
      · exact (mem_and_ne_of_mem_splitAll hpiece hc).2 rfl
      · exact lineFeed_of_bracketed? hprops (mem_and_ne_of_mem_splitAll hpiece hc).1

end BlockState

/-! ## Steps -/

namespace Step

variable (s : Step)

/-- The name of a direction is turned into another one. -/
theorem oneLine_directionName {name : String} (h : OneLine name) : OneLine (s.directionName name) :=
  s.directionName_cases OneLine h fun d => by cases d <;> decide

/-- So is the name of an axis. -/
theorem oneLine_axisName {name : String} (h : OneLine name) : OneLine (s.axisName name) :=
  s.axisName_cases OneLine h fun a => by cases a <;> decide

/-- The names in an orientation are turned, and the low line stays. -/
theorem oneLine_orientationName {name : String} (h : OneLine name) :
    OneLine (s.orientationName name) := by
  obtain hnone | ⟨front, top, hfront, rfl⟩ := orientation_cases name
  · rwa [s.orientationName_of_none hnone]
  · rw [s.orientationName_join hfront]
    simp only [oneLine_append] at h ⊢
    exact ⟨⟨s.oneLine_directionName h.1.1, h.1.2⟩, s.oneLine_directionName h.2⟩

/-- A heading is written as a number, and other values stay as they are. -/
theorem oneLine_headingValue {v : PropertyValue} (h : OneLine v.text) :
    OneLine (s.headingValue v).text := by
  unfold headingValue
  split
  next => exact h
  next =>
    split
    · exact oneLine_toString_int _
    · exact h
  next =>
    split
    · exact oneLine_repr _
    · exact h

/-- A step brings no line break into a value. -/
theorem oneLine_property (key : String) {v : PropertyValue} (h : OneLine v.text) :
    OneLine (s.property key v).2.text := by
  unfold property
  split
  next => exact s.oneLine_directionName h
  next => exact s.oneLine_directionName h
  next => exact s.oneLine_axisName h
  next => exact s.oneLine_headingValue h
  next => exact s.oneLine_orientationName h
  all_goals exact h

end Step

/-- Nor does it bring one into a state. -/
theorem BlockState.OneLine.step {state : BlockState} (h : state.OneLine) (s : Step) :
    (state.step s).OneLine where
  id := h.id
  properties e he := by
    obtain ⟨e', he', rfl⟩ := List.mem_map.1
      ((s.perm_entries_properties state.properties).subset he)
    obtain ⟨hkey, hvalue⟩ := h.properties e' he'
    rw [Step.property_fst]
    exact ⟨s.oneLine_directionName hkey, s.oneLine_property e'.1 hvalue⟩

end Blueprint
