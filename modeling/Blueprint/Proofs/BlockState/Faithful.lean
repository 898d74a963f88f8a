import Blueprint.Proofs.BlockState.Symmetry

/-!
# Steps lose no property

A step renames the sides among the keys of a map and rewrites values, and it could lose an entry if
two keys became one, or blur two values if they were written alike. It does neither
(`Step.faithful`): every entry is found again under its own new key, and two maps that a step makes
equal were equal before, up to how a heading was spelled.

The last part needs no table of values. A step is undone by its inverse up to a turn by nothing, so
what a step cannot tell apart, the turn by nothing cannot tell apart either; and this turn changes
nothing but the spelling of headings.
-/

namespace Blueprint

/-- The heading that a value names as a text. -/
def PropertyValue.writtenHeading? : PropertyValue → Option Heading
  | .string text => Heading.ofText? text
  | _ => none

/-- Two texts of one heading. -/
def PropertyValue.SameHeading (v v' : PropertyValue) : Prop :=
  ∃ h, v.writtenHeading? = some h ∧ v'.writtenHeading? = some h

/-- The maps have the same keys with the same values, but a heading may be spelled otherwise. -/
def Properties.SpelledAlike (p q : Properties) : Prop :=
  ∀ key, Option.Rel (fun v v' => v = v' ∨ key = "rotation" ∧ v.SameHeading v') (p.get? key)
    (q.get? key)

namespace Step

/-! ## Keys -/

/-- What was under a key is found under the name that the step gives the key. -/
theorem get?_properties (s : Step) (p : Properties) (key : String) :
    (s.properties p).get? (s.directionName key) =
      (p.get? key).map fun v => (s.property key v).2 := by
  refine Option.ext fun v' => ?_
  rw [SortedMap.get?_eq_some_iff, (s.perm_entries_properties p).mem_iff, List.mem_map,
    Option.map_eq_some_iff]
  refine ⟨?_, ?_⟩
  · rintro ⟨e, he, hmoved⟩
    have hkey : s.directionName e.1 = s.directionName key :=
      (s.property_fst e.1 e.2).symm.trans (congrArg Prod.fst hmoved)
    obtain rfl := s.directionName_injective hkey
    exact ⟨e.2, SortedMap.get?_eq_some_iff.2 he, congrArg Prod.snd hmoved⟩
  · rintro ⟨v, hv, rfl⟩
    exact ⟨(key, v), SortedMap.get?_eq_some_iff.1 hv, Prod.ext (s.property_fst key v) rfl⟩

/-! ## Maps that a step makes equal -/

/-- A step tells apart what the turn by nothing tells apart, and no more. -/
theorem properties_eq_iff_deg0 (s : Step) {p q : Properties} :
    s.properties p = s.properties q ↔
      (rotate .deg0).properties p = (rotate .deg0).properties q := by
  -- turning by nothing is not the identity on maps, so both ways of dropping a step are needed
  have hundone : Alike [s, s.inverse] [rotate .deg0] :=
    ⟨List.cons_ne_nil _ _, List.cons_ne_nil _ _, s.composite_inverse⟩
  have hafter : Alike [rotate .deg0, s] [s] := by
    refine ⟨List.cons_ne_nil _ _, List.cons_ne_nil _ _, ?_⟩
    rw [composite, symmetry_of_isIdentity rfl, mul_one]
  refine ⟨fun h => ?_, fun h => ?_⟩
  · calc
      (rotate .deg0).properties p = s.inverse.properties (s.properties p) :=
        (byComposite_properties hundone ⟨0, 0, 0⟩ p).symm
      _ = s.inverse.properties (s.properties q) := by rw [h]
      _ = (rotate .deg0).properties q := byComposite_properties hundone ⟨0, 0, 0⟩ q
  · calc
      s.properties p = s.properties ((rotate .deg0).properties p) :=
        (byComposite_properties hafter ⟨0, 0, 0⟩ p).symm
      _ = s.properties ((rotate .deg0).properties q) := by rw [h]
      _ = s.properties q := byComposite_properties hafter ⟨0, 0, 0⟩ q

/-- A heading is written as a text that names it in plain decimal. -/
theorem writtenHeading?_headingText (h : Heading) : (headingText h).writtenHeading? = some h := by
  revert h
  decide

/-- A turn by nothing writes headings in plain decimal and keeps all other values. -/
theorem headingValue_deg0 (v : PropertyValue) :
    (rotate .deg0).headingValue v = (v.writtenHeading?.map headingText).getD v := by
  have hturn : ∀ h : Heading, (rotate .deg0).heading h = h := by decide
  obtain ⟨h, rfl⟩ | ⟨text, h, rfl, hread⟩ | ⟨hnone, hkept⟩ := headingValue_cases v
  · rw [headingValue_headingInt, hturn]
    rfl
  · rw [headingValue_of_ofText? _ hread, hturn, PropertyValue.writtenHeading?, hread]
    rfl
  · have hunwritten : v.writtenHeading? = none := by
      cases v with
      | string text => exact hnone text rfl
      | _ => rfl
    rw [hkept, hunwritten]
    rfl

/-- What is written for a heading is read as this heading again. -/
theorem writtenHeading?_deg0 (v : PropertyValue) :
    ((rotate .deg0).headingValue v).writtenHeading? = v.writtenHeading? := by
  rw [headingValue_deg0]
  cases hv : v.writtenHeading? with
  | none => exact hv
  | some h => exact writtenHeading?_headingText h

/-- Only two spellings of a heading become one by a turn by nothing. -/
theorem headingValue_deg0_eq_iff {v v' : PropertyValue} :
    (rotate .deg0).headingValue v = (rotate .deg0).headingValue v' ↔
      v = v' ∨ v.SameHeading v' := by
  refine ⟨fun heq => ?_, ?_⟩
  · have hsame : v.writtenHeading? = v'.writtenHeading? := by
      rw [← writtenHeading?_deg0 v, ← writtenHeading?_deg0 v', heq]
    cases hv : v.writtenHeading? with
    | none =>
      rw [headingValue_deg0, headingValue_deg0, ← hsame, hv] at heq
      exact .inl heq
    | some h => exact .inr ⟨h, hv, hsame ▸ hv⟩
  · rintro (rfl | ⟨h, hv, hv'⟩)
    · rfl
    · rw [headingValue_deg0, headingValue_deg0, hv, hv']
      rfl

/-- Two values look alike after no turn at all exactly if they are the same, or name one heading. -/
theorem property_deg0_eq_iff {key : String} {v v' : PropertyValue} :
    ((rotate .deg0).property key v).2 = ((rotate .deg0).property key v').2 ↔
      v = v' ∨ key = "rotation" ∧ v.SameHeading v' := by
  by_cases hrotation : key = "rotation"
  · subst hrotation
    exact headingValue_deg0_eq_iff.trans (by rw [eq_self_iff_true, true_and])
  · have hkept (v : PropertyValue) : ((rotate .deg0).property key v).2 = v :=
      congrArg Prod.snd (property_deg0_iff.2 fun h => absurd h hrotation)
    simp only [hkept, hrotation, false_and, or_false]

/-- **Two maps that a step makes equal** are equal up to the spelling of headings. -/
theorem properties_eq_iff (s : Step) {p q : Properties} :
    s.properties p = s.properties q ↔ p.SpelledAlike q := by
  have hturned (p : Properties) (key : String) : ((rotate .deg0).properties p).get? key =
      (p.get? key).map fun v => ((rotate .deg0).property key v).2 := by
    have h := (rotate .deg0).get?_properties p key
    rwa [directionName_deg0] at h
  have hkey (key : String) : ((rotate .deg0).properties p).get? key =
      ((rotate .deg0).properties q).get? key ↔
      Option.Rel (fun v v' => v = v' ∨ key = "rotation" ∧ v.SameHeading v') (p.get? key)
        (q.get? key) := by
    rw [hturned, hturned]
    cases p.get? key <;> cases q.get? key <;> simp [property_deg0_eq_iff]
  rw [properties_eq_iff_deg0]
  refine ⟨fun h key => (hkey key).1 (by rw [h]), fun h => ?_⟩
  exact SortedMap.ext_get? fun key => (hkey key).2 (h key)

/-- A heading with a zero in front is written as the one without. -/
example : (mirror .frontBack).properties (.ofList [("rotation", .string "03")]) =
    (mirror .frontBack).properties (.ofList [("rotation", .string "3")]) := by
  decide +kernel

/-! ## All of it -/

/-- The step loses no property and blurs none. -/
structure Faithful (s : Step) : Prop where
  /-- there are as many properties as before -/
  size : ∀ p, (s.properties p).size = p.size
  /-- what is said of a side is said of the side it moves to -/
  side : ∀ p d, Direction.text d ∈ sides →
    (s.properties p).get? (s.direction d).text = p.get? d.text
  /-- every other key is kept, with its value turned -/
  kept : ∀ p key, key ∉ sides →
    (s.properties p).get? key = (p.get? key).map fun v => (s.property key v).2
  /-- maps that become equal differ at most in how a heading is spelled -/
  spelled : ∀ p q, s.properties p = s.properties q ↔ p.SpelledAlike q

/-- **No step loses or merges properties.** -/
theorem faithful (s : Step) : s.Faithful where
  size p := by
    rw [SortedMap.size, (s.perm_entries_properties p).length_eq, List.length_map, SortedMap.size]
  side p d hd := by
    have h := s.get?_properties p d.text
    simp only [s.property_of_mem_sides hd, directionName_text, Option.map_id'] at h
    exact h
  kept p key hkey := by
    have h := s.get?_properties p key
    rwa [s.directionName_of_notMem_sides hkey] at h
  spelled _ _ := s.properties_eq_iff

end Step

end Blueprint
