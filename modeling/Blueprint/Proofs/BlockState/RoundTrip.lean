import Blueprint.BlockState.Parser
import Blueprint.Proofs.BlockState.Symmetry
import Blueprint.Proofs.NamespacedId
import Blueprint.Proofs.Outcome
import Blueprint.Proofs.Text.Blank
import Blueprint.Proofs.Text.Split

/-!
# Block states are read back from their texts

The form in which states are read is loose: blanks and empty places are dropped, a value may hold
brackets and equals signs, and the properties come in any order. What is read is not loose at all.
`BlockState.IsRead` says what an identifier, a key and a value can be: the parts between the
separators, without blanks at their ends. Such a state is the one that its text is read as, and
every step keeps a state like this, since it writes names and numbers or keeps what is there.
-/

namespace Blueprint

namespace BlockState

/-! ## Identifiers -/

/-- Two parts of name characters around a colon. -/
def IsId (cs : List Char) : Prop :=
  ∃ space name, cs = space ++ ':' :: name ∧ space ≠ [] ∧ name ≠ [] ∧
    (∀ c ∈ space, isNameChar c = true) ∧ ∀ c ∈ name, isNameChar c = true

/-- The characters of the parts of an identifier are those of a path. -/
theorem isPathChar_eq_isNameChar (c : Char) : NamespacedId.isPathChar c = isNameChar c :=
  Bool.or_right_comm _ _ _

/-- No name character is a blank. -/
theorem isBlank_of_isNameChar {c : Char} (h : isNameChar c = true) : Text.isBlank c = false :=
  NamespacedId.isBlank_of_isPathChar ((isPathChar_eq_isNameChar c).trans h)

/-- What is taken is an identifier, and what is left is what follows it. -/
theorem isId_of_takeName {cs id rest : List Char} (h : takeName cs = some (id, rest)) :
    IsId id ∧ cs = id ++ rest := by
  unfold takeName at h
  have hcs := List.takeWhile_append_dropWhile (p := isNameChar) (l := cs)
  split at h
  next behind hbehind =>
    have hbehind' := List.takeWhile_append_dropWhile (p := isNameChar) (l := behind)
    dsimp only at h
    split at h
    next => cases h
    next hparts =>
      simp only [Bool.or_eq_true, List.isEmpty_iff, not_or] at hparts
      simp only [Option.some.injEq, Prod.mk.injEq] at h
      obtain ⟨rfl, rfl⟩ := h
      refine ⟨⟨_, _, rfl, hparts.1, hparts.2, ?_, ?_⟩, ?_⟩
      · exact List.all_eq_true.1 List.all_takeWhile
      · exact List.all_eq_true.1 List.all_takeWhile
      · rw [List.append_assoc, List.cons_append, hbehind', ← hbehind, hcs]
  next => cases h

/-- An identifier is taken whole if no name character follows it. -/
theorem IsId.takeName_append {id rest : List Char} (h : IsId id)
    (hrest : ∀ c ∈ rest.head?, isNameChar c = false) :
    takeName (id ++ rest) = some (id, rest) := by
  obtain ⟨space, name, rfl, hspace, hname, hspaces, hnames⟩ := h
  have hstop : isNameChar ':' = false := by decide
  have hend : rest.takeWhile isNameChar = [] ∧ rest.dropWhile isNameChar = rest := by
    cases rest with
    | nil => exact ⟨rfl, rfl⟩
    | cons c rest => simp [hrest c rfl]
  simp [takeName, List.takeWhile_append_of_pos hspaces, List.dropWhile_append_of_pos hspaces,
    List.takeWhile_append_of_pos hnames, List.dropWhile_append_of_pos hnames, hstop, hend, hspace,
    hname]

/-- An identifier has no blanks at all. -/
theorem IsId.isBlank {id : List Char} (h : IsId id) {c : Char} (hc : c ∈ id) :
    Text.isBlank c = false := by
  obtain ⟨space, name, rfl, -, -, hspace, hname⟩ := h
  rcases List.mem_append.1 hc with hc | hc
  · exact isBlank_of_isNameChar (hspace c hc)
  · rcases List.mem_cons.1 hc with rfl | hc
    · decide
    · exact isBlank_of_isNameChar (hname c hc)

/-! ## Keys and values -/

/-- A text that stands for itself between the separators of a state: it has no blanks at its ends,
no comma, which ends a property, and no line feed, which may not stand in the brackets. -/
structure IsWord (cs : List Char) : Prop extends Text.IsTrimmed cs where
  ne_nil : cs ≠ []
  comma : ',' ∉ cs
  lineFeed : '\n' ∉ cs

instance (cs : List Char) : Decidable (IsWord cs) :=
  decidable_of_iff (Text.IsTrimmed cs ∧ cs ≠ [] ∧ ',' ∉ cs ∧ '\n' ∉ cs)
    ⟨fun ⟨trimmed, ne_nil, comma, lineFeed⟩ => ⟨trimmed, ne_nil, comma, lineFeed⟩,
      fun h => ⟨h.toIsTrimmed, h.ne_nil, h.comma, h.lineFeed⟩⟩

/-- A value as it is read, which is always a text. -/
def IsValue (v : PropertyValue) : Prop := ∃ text, v = .string text ∧ IsWord text.toList

/-- A property as it is read: a key without an equals sign, and a value. -/
structure IsProperty (e : String × PropertyValue) : Prop where
  key : IsWord e.1.toList
  equals : '=' ∉ e.1.toList
  value : IsValue e.2

/-- A state as it is read. -/
structure IsRead (state : BlockState) : Prop where
  /-- the name is one that the reader takes -/
  id : IsId state.id.toList
  /-- so are the properties -/
  properties : ∀ e ∈ state.properties.entries, IsProperty e

/-! ## What is read -/

/-- A piece between separators is a word without the blanks around it, if anything is left. -/
theorem isWord_trim {cs : List Char} (hne : Text.trim cs ≠ []) (hcomma : ',' ∉ cs)
    (hlineFeed : '\n' ∉ cs) : IsWord (Text.trim cs) where
  toIsTrimmed := Text.isTrimmed_trim cs
  ne_nil := hne
  comma h := hcomma ((Text.trim_infix cs).subset h)
  lineFeed h := hlineFeed ((Text.trim_infix cs).subset h)

/-- A key and a value are words, and the key has no equals sign. -/
theorem isWord_of_keyValue? {segment key value : List Char}
    (h : keyValue? segment = some (key, value)) (hsegment : IsWord segment) :
    IsWord key ∧ '=' ∉ key ∧ IsWord value := by
  unfold keyValue? at h
  split at h
  next before after hcut =>
    dsimp only at h
    split at h
    next => cases h
    next hparts =>
      simp only [Bool.or_eq_true, List.isEmpty_iff, not_or] at hparts
      simp only [Option.some.injEq, Prod.mk.injEq] at h
      obtain ⟨rfl, rfl⟩ := h
      have hcomma := hsegment.comma
      have hlineFeed := hsegment.lineFeed
      rw [Text.eq_of_splitFirst hcut, List.mem_append, List.mem_cons, not_or, not_or] at hcomma
      rw [Text.eq_of_splitFirst hcut, List.mem_append, List.mem_cons, not_or, not_or] at hlineFeed
      exact ⟨isWord_trim hparts.1 hcomma.1 hlineFeed.1,
        fun hequals => Text.notMem_of_splitFirst hcut ((Text.trim_infix before).subset hequals),
        isWord_trim hparts.2 hcomma.2.2 hlineFeed.2.2⟩
  next => cases h

/-- All properties that are read off the pieces are ones that can be written. -/
theorem isProperty_of_parseSegments {state : String} {read properties : Properties}
    {pieces : List (List Char)} (h : parseSegments state read pieces = .ok properties)
    (hread : ∀ e ∈ read.entries, IsProperty e)
    (hpieces : ∀ piece ∈ pieces, ',' ∉ piece ∧ '\n' ∉ piece) :
    ∀ e ∈ properties.entries, IsProperty e := by
  induction pieces generalizing read with
  | nil =>
    obtain rfl := Except.ok.inj h
    exact hread
  | cons piece pieces ih =>
    obtain ⟨hpiece, hpieces⟩ := List.forall_mem_cons.1 hpieces
    unfold parseSegments at h
    split at h
    next => exact ih h hread hpieces
    next segment hne =>
      have hword : IsWord (Text.trim piece) := isWord_trim hne hpiece.1 hpiece.2
      split at h
      next => cases h
      next key value hcut =>
        dsimp only at h
        split at h
        next => cases h
        next =>
          obtain ⟨hkey, hequals, hvalue⟩ := isWord_of_keyValue? hcut hword
          -- what was read stays a list of properties when the new one is put in
          refine ih h (fun e he => ?_) hpieces
          rcases SortedMap.mem_insertEntry he with rfl | he
          · exact ⟨by simpa using hkey, by simpa using hequals, _, rfl, by simpa using hvalue⟩
          · exact hread e he

/-- There is no line feed in the brackets. -/
theorem lineFeed_of_bracketed? {cs props : List Char} (h : bracketed? cs = some props) :
    '\n' ∉ props := by
  unfold bracketed? at h
  split at h
  next rest =>
    split at h
    next hinside =>
      obtain rfl := Option.some.inj h
      simpa using (Bool.and_eq_true_iff.1 hinside).2
    next => cases h
  next => cases h

/-- What is read is a state in this sense. -/
theorem isRead_of_parse {text : String} {state : BlockState} (h : parse text = .ok state) :
    state.IsRead := by
  unfold parse at h
  split at h
  next => cases h
  next name hname =>
    obtain rfl := Except.ok.inj h
    refine ⟨?_, fun e he => (List.not_mem_nil he).elim⟩
    rw [ofId, String.toList_ofList]
    exact (isId_of_takeName hname).1
  next name rest _ hname =>
    split at h
    next => cases h
    next props hprops =>
      obtain ⟨properties, hproperties, rfl⟩ := Outcome.map_eq_ok.1 h
      refine ⟨?_, isProperty_of_parseSegments hproperties (fun e he => (List.not_mem_nil he).elim)
        fun piece hpiece => ⟨fun hc => ?_, fun hc => ?_⟩⟩
      · rw [String.toList_ofList]
        exact (isId_of_takeName hname).1
      · exact (Text.mem_and_ne_of_mem_splitAll hpiece hc).2 rfl
      · exact lineFeed_of_bracketed? hprops (Text.mem_and_ne_of_mem_splitAll hpiece hc).1

/-! ## What is read back -/

/-- Words put together are a word. -/
theorem IsWord.append {cs ds : List Char} (hcs : IsWord cs) (hds : IsWord ds) :
    IsWord (cs ++ ds) where
  toIsTrimmed := hcs.toIsTrimmed.append hds.toIsTrimmed
  ne_nil h := hcs.ne_nil (List.append_eq_nil_iff.1 h).1
  comma h := (List.mem_append.1 h).elim hcs.comma hds.comma
  lineFeed h := (List.mem_append.1 h).elim hcs.lineFeed hds.lineFeed

/-- Around a character that may stand in a word, it is enough to know each side with it. -/
theorem isWord_append_cons_iff {front back : List Char} {c : Char} (hc : IsWord [c]) :
    IsWord (front ++ c :: back) ↔ IsWord (front ++ [c]) ∧ IsWord (c :: back) := by
  have htrimmed : Text.IsTrimmed (front ++ c :: back) ↔ _ :=
    Text.isTrimmed_append_cons_iff (hc.head c rfl)
  refine ⟨fun h => ?_, fun ⟨hfront, hback⟩ => ?_⟩
  · obtain ⟨hf, hb⟩ := htrimmed.1 h.toIsTrimmed
    have hfront : front ++ [c] ⊆ front ++ c :: back := by simp
    have hback : c :: back ⊆ front ++ c :: back := List.subset_append_right _ _
    exact ⟨⟨hf, by simp, fun hm => h.comma (hfront hm), fun hm => h.lineFeed (hfront hm)⟩,
      ⟨hb, by simp, fun hm => h.comma (hback hm), fun hm => h.lineFeed (hback hm)⟩⟩
  · refine ⟨htrimmed.2 ⟨hfront.toIsTrimmed, hback.toIsTrimmed⟩, by simp, fun hm => ?_, fun hm => ?_⟩
    · exact (List.mem_append.1 hm).elim (fun h => hfront.comma (by simp [h])) hback.comma
    · exact (List.mem_append.1 hm).elim (fun h => hfront.lineFeed (by simp [h])) hback.lineFeed

/-- A property is written with an equals sign between its key and its value. -/
theorem toList_propertyText (e : String × PropertyValue) :
    (propertyText e).toList = e.1.toList ++ '=' :: e.2.text.toList := by
  simp [propertyText]

/-- The text of a value that was read is a word. -/
theorem IsValue.isWord_text {v : PropertyValue} (h : IsValue v) : IsWord v.text.toList := by
  obtain ⟨text, rfl, htext⟩ := h
  exact htext

/-- A value that was read is its text. -/
theorem IsValue.string_text {v : PropertyValue} (h : IsValue v) : .string v.text = v := by
  obtain ⟨text, rfl, -⟩ := h
  rfl

namespace IsProperty

variable {e : String × PropertyValue} (h : IsProperty e)

include h

/-- What is written of a property is a word. -/
theorem isWord_text : IsWord (propertyText e).toList := by
  have hequals : IsWord ['='] := by decide
  rw [toList_propertyText]
  exact h.key.append (hequals.append h.value.isWord_text)

/-- The parts of a property are told again from its text. -/
theorem keyValue?_text :
    keyValue? (propertyText e).toList = some (e.1.toList, e.2.text.toList) := by
  rw [toList_propertyText, keyValue?, Text.splitFirst_append h.equals]
  have hvalue := h.value.isWord_text
  simp [h.key.trim_eq, hvalue.trim_eq, h.key.ne_nil, hvalue.ne_nil]

end IsProperty

/-- Properties with new keys are put into those read before, one after another. -/
theorem parseSegments_text (state : String) {read : Properties}
    {entries : List (String × PropertyValue)} (h : ∀ e ∈ entries, IsProperty e)
    (hnodup : (entries.map Prod.fst).Nodup) (hread : ∀ e ∈ entries, read.get? e.1 = none) :
    parseSegments state read (entries.map fun e => (propertyText e).toList) =
      .ok (entries.foldl (fun m e => m.insert e.1 e.2) read) := by
  induction entries generalizing read with
  | nil => rfl
  | cons e entries ih =>
    obtain ⟨he, h⟩ := List.forall_mem_cons.1 h
    obtain ⟨hfree, hread⟩ := List.forall_mem_cons.1 hread
    obtain ⟨hnew, hnodup⟩ := List.nodup_cons.1 hnodup
    have hstill : ∀ e' ∈ entries, (read.insert e.1 e.2).get? e'.1 = none := by
      intro e' he'
      have hne : e'.1 ≠ e.1 := fun heq => hnew (heq ▸ List.mem_map_of_mem he')
      rw [SortedMap.get?_insert_of_lawful, if_neg hne, hread e' he']
    have hunread : read.contains e.1 = false := by rw [SortedMap.contains, hfree]; rfl
    rw [List.map_cons, parseSegments, he.isWord_text.trim_eq]
    split
    next hnil => exact absurd hnil he.isWord_text.ne_nil
    next =>
      rw [he.keyValue?_text]
      simp only [String.ofList_toList, hunread, Bool.false_eq_true, if_false, he.value.string_text]
      exact ih h hnodup hstill

/-- What stands in the brackets is taken out of them. -/
theorem bracketed?_brackets {body : List Char} (h : '\n' ∉ body) :
    bracketed? ('[' :: (body ++ [']'])) = some body := by
  simp [bracketed?, h]

/-- The properties of a state in the brackets of its text. -/
def body (state : BlockState) : List Char :=
  [','].intercalate (state.properties.entries.map fun e => (propertyText e).toList)

/-- A state with properties is written with brackets around them. -/
theorem toList_text {state : BlockState} (h : state.properties.entries ≠ []) :
    state.text.toList = state.id.toList ++ '[' :: (state.body ++ [']']) := by
  simp [text, SortedMap.isEmpty, h, body, Function.comp_def]

/-- No line feed is written in the brackets. -/
theorem IsRead.lineFeed {state : BlockState} (h : state.IsRead) : '\n' ∉ state.body := by
  intro hc
  obtain hc | ⟨piece, hpiece, hc⟩ := Text.eq_or_exists_of_mem_intercalate hc
  · exact absurd hc (by decide)
  · obtain ⟨e, he, rfl⟩ := List.mem_map.1 hpiece
    exact (h.properties e he).isWord_text.lineFeed hc

/-- The commas in the brackets stand between the properties. -/
theorem IsRead.splitAll_body {state : BlockState} (h : state.IsRead)
    (hne : state.properties.entries ≠ []) : Text.splitAll ',' state.body =
      state.properties.entries.map fun e => (propertyText e).toList := by
  refine Text.splitAll_intercalate (fun hnil => hne (List.map_eq_nil_iff.1 hnil)) ?_
  intro piece hpiece
  obtain ⟨e, he, rfl⟩ := List.mem_map.1 hpiece
  exact (h.properties e he).isWord_text.comma

/-- **A state as it is read is what its text is read as.** -/
theorem IsRead.parse_text {state : BlockState} (h : state.IsRead) :
    parse state.text = .ok state := by
  have hid : Text.IsTrimmed state.id.toList := Text.isTrimmed_of_forall fun c hc => h.id.isBlank hc
  -- without properties the text is the name, and nothing stands behind it
  by_cases hne : state.properties.entries = []
  · have htext : state.text = state.id := by simp [text, SortedMap.isEmpty, hne]
    have htake : takeName (state.id.toList ++ []) = some (state.id.toList, []) :=
      h.id.takeName_append (by simp)
    have hempty : state.properties = .empty := SortedMap.eq_of_entries_eq hne
    rw [List.append_nil] at htake
    rw [parse, htext, hid.trim_eq, htake]
    dsimp only
    rw [String.ofList_toList, ofId, ← hempty]
  -- a bracket is no blank, so nothing of the list is trimmed away
  · have hbrackets : Text.IsTrimmed ('[' :: (state.body ++ [']'])) := by
      refine ⟨fun c hc => ?_, fun c hc => ?_⟩
      · obtain rfl := Option.some.inj hc
        decide
      · rw [← List.cons_append, List.getLast?_concat] at hc
        obtain rfl := Option.some.inj hc
        decide
    have htake : takeName (state.id.toList ++ '[' :: (state.body ++ [']'])) =
        some (state.id.toList, '[' :: (state.body ++ [']'])) :=
      h.id.takeName_append fun c hc => Option.some.inj hc ▸ by decide
    have hsegments : parseSegments state.text .empty
        (state.properties.entries.map fun e => (propertyText e).toList) =
          .ok (.ofList state.properties.entries) :=
      parseSegments_text state.text h.properties state.properties.nodup_keys fun e _ => rfl
    rw [parse, toList_text hne, (hid.append hbrackets).trim_eq, htake]
    dsimp only
    rw [bracketed?_brackets h.lineFeed]
    dsimp only
    rw [h.splitAll_body hne, hsegments, String.ofList_toList]
    exact congrArg (fun properties => Except.ok (BlockState.mk state.id properties))
      state.properties.ofList_entries

end BlockState

/-! ## What a step writes -/

namespace Step

open BlockState

variable (s : Step)

/-- The name of what a direction becomes is a word. -/
theorem isWord_directionName {name : String} (h : IsWord name.toList) :
    IsWord (s.directionName name).toList :=
  s.directionName_cases (fun name => IsWord name.toList) h fun d => by cases d <;> decide

/-- So is the name of what an axis becomes. -/
theorem isWord_axisName {name : String} (h : IsWord name.toList) :
    IsWord (s.axisName name).toList :=
  s.axisName_cases (fun name => IsWord name.toList) h fun a => by cases a <;> decide

/-- And so are the names of an orientation, with a low line between them. -/
theorem isWord_orientationName {name : String} (h : IsWord name.toList) :
    IsWord (s.orientationName name).toList := by
  obtain hnone | ⟨front, top, hfront, rfl⟩ := orientation_cases name
  · rwa [s.orientationName_of_none hnone]
  · -- each name is a word with the underscore beside it, whether or not it names a direction
    have hchars (a b : String) : (a ++ "_" ++ b).toList = a.toList ++ '_' :: b.toList := by simp
    have hunderscore : IsWord ['_'] := by decide
    rw [hchars, isWord_append_cons_iff hunderscore] at h
    rw [s.orientationName_join hfront, hchars, isWord_append_cons_iff hunderscore]
    exact ⟨s.directionName_cases (fun name => IsWord (name.toList ++ ['_'])) h.1
        fun d => by cases d <;> decide,
      s.directionName_cases (fun name => IsWord ('_' :: name.toList)) h.2
        fun d => by cases d <;> decide⟩

/-- A heading that is turned can be read. -/
theorem isValue_headingValue {v : PropertyValue} (h : IsValue v) : IsValue (s.headingValue v) := by
  have hnumber : ∀ v : Heading, IsWord (toString v.val).toList := by decide
  obtain ⟨text, rfl, htext⟩ := h
  cases hread : Heading.ofText? text with
  | none =>
    rw [Heading.ofText?] at hread
    exact ⟨text, by rw [headingValue, hread], htext⟩
  | some v => exact ⟨_, s.headingValue_of_ofText? hread, hnumber _⟩

/-- A step keeps a value one that can be read. -/
theorem isValue_property (key : String) {v : PropertyValue} (h : IsValue v) :
    IsValue (s.property key v).2 := by
  have htext {text : String} (h : IsValue (.string text)) : IsWord text.toList := h.isWord_text
  unfold property
  split
  next => exact ⟨_, rfl, s.isWord_directionName (htext h)⟩
  next => exact ⟨_, rfl, s.isWord_directionName (htext h)⟩
  next => exact ⟨_, rfl, s.isWord_axisName (htext h)⟩
  next => exact s.isValue_headingValue h
  next => exact ⟨_, rfl, s.isWord_orientationName (htext h)⟩
  all_goals exact h

/-- So it does for a property. -/
theorem isProperty_property {e : String × PropertyValue} (h : IsProperty e) :
    IsProperty (s.property e.1 e.2) where
  key := by
    rw [property_fst]
    exact s.isWord_directionName h.key
  equals := by
    rw [property_fst]
    exact s.directionName_cases (fun name => '=' ∉ name.toList) h.equals
      fun d => by cases d <;> decide
  value := s.isValue_property e.1 h.value

end Step

namespace BlockState

/-- And so for a state. -/
theorem IsRead.step {state : BlockState} (h : state.IsRead) (s : Step) : (state.step s).IsRead where
  id := h.id
  properties e he := by
    obtain ⟨e', he', rfl⟩ := List.mem_map.1
      ((s.perm_entries_properties state.properties).subset he)
    exact s.isProperty_property (h.properties e' he')

/-- The state after steps, with those that change nothing else. -/
def after (steps : List Step) (state : BlockState) : BlockState :=
  steps.foldl (fun state s => state.step s) state

@[simp] theorem after_nil (state : BlockState) : state.after [] = state := rfl

@[simp] theorem after_cons (s : Step) (steps : List Step) (state : BlockState) :
    state.after (s :: steps) = (state.step s).after steps := rfl

/-- Whatever the steps are, the state can be read. -/
theorem IsRead.after {state : BlockState} (h : state.IsRead) (steps : List Step) :
    (state.after steps).IsRead := by
  induction steps generalizing state with
  | nil => exact h
  | cons s steps ih => exact ih (h.step s)

end BlockState

end Blueprint
