import Blueprint.BlockState.Oriented
import Blueprint.Proofs.Direction
import Blueprint.Proofs.SortedMap

/-!
# Properties keep the laws of the square

A property is moved as its key and its value are, and no two keys of a map become one. What
steps make of the properties of a block therefore depends only on the symmetry they come to.

Not every map is brought back by steps that come to nothing. A heading may be written with a
plus sign or with zeros in front, and the first step that reads it writes it in plain decimal.
`Properties.PlainHeading` says that a map has no heading in another spelling.
-/

namespace Blueprint

/-- The heading that a text names, in any spelling of its number. -/
def Heading.ofText? (text : String) : Option Heading :=
  (Text.integer? 0x8000000000000000 text.toList).bind Step.heading?

/-- The value names no heading as a text, or it does so in plain decimal. -/
def PropertyValue.PlainHeading (v : PropertyValue) : Prop :=
  ∀ text h, v = .string text → Heading.ofText? text = some h → text = toString h.val

instance : DecidablePred PropertyValue.PlainHeading
  | .bool _ => isTrue fun _ _ htext => nomatch htext
  | .int _ => isTrue fun _ _ htext => nomatch htext
  | .string text => decidable_of_iff (∀ h, Heading.ofText? text = some h → text = toString h.val)
      ⟨fun hplain _ h htext => PropertyValue.string.inj htext ▸ hplain h,
        fun hplain h => hplain text h rfl⟩

/-- The value under `rotation` names no heading as a text, or it does so in plain decimal. -/
def Properties.PlainHeading (p : Properties) : Prop :=
  ∀ v, ("rotation", v) ∈ p.entries → v.PlainHeading

instance (p : Properties) : Decidable p.PlainHeading :=
  decidable_of_iff (∀ e ∈ p.entries, e.1 = "rotation" → e.2.PlainHeading)
    ⟨fun h _ hv => h _ hv rfl, fun h e he hkey => h e.2 (hkey ▸ he)⟩

namespace Step

/-! ## Values that are headings -/

/-- The value that a step writes for a heading it has read as a number. -/
def headingInt (h : Heading) : PropertyValue := .int (Int64.ofNat h.val)

/-- The value that a step writes for a heading it has read as a text. -/
def headingText (h : Heading) : PropertyValue := .string (toString h.val)

/-- A heading is read off one number only. -/
theorem eq_of_heading? {n : Int64} {h : Heading} (hread : heading? n.toInt = some h) :
    n = Int64.ofNat h.val := by
  unfold heading? at hread
  split at hread
  next hrange =>
    obtain rfl := Option.some.inj hread
    have hvalue : ((n.toInt.toNat : Nat) : Int) = n.toInt := Int.toNat_of_nonneg hrange.1
    rw [← Int64.toInt_inj, Int64.toInt_ofNat_of_lt (by dsimp only; omega), hvalue]
  next => cases hread

/-- A heading in a number is turned. -/
theorem headingValue_headingInt (s : Step) (h : Heading) :
    s.headingValue (headingInt h) = headingInt (s.heading h) := by
  have hread : ∀ h : Heading, heading? (Int64.ofNat h.val).toInt = some h := by decide
  rw [headingInt, headingValue, hread]
  rfl

/-- A heading in a text is turned, and written in plain decimal. -/
theorem headingValue_of_ofText? (s : Step) {text : String} {h : Heading}
    (hread : Heading.ofText? text = some h) :
    s.headingValue (.string text) = headingText (s.heading h) := by
  rw [Heading.ofText?] at hread
  rw [headingValue, hread]
  rfl

/-- A text that a heading was written as is turned. -/
theorem headingValue_headingText (s : Step) (h : Heading) :
    s.headingValue (headingText h) = headingText (s.heading h) := by
  have hread : ∀ h : Heading, Heading.ofText? (toString h.val) = some h := by decide
  exact s.headingValue_of_ofText? (hread h)

/-- A value names a heading as a number, or as a text, or no step changes it. -/
theorem headingValue_cases (v : PropertyValue) : (∃ h, v = headingInt h) ∨
    (∃ text h, v = .string text ∧ Heading.ofText? text = some h) ∨
    (∀ text, v = .string text → Heading.ofText? text = none) ∧
      ∀ s : Step, s.headingValue v = v := by
  cases v with
  | bool b => exact .inr (.inr ⟨fun _ htext => (nomatch htext), fun s => rfl⟩)
  | int n =>
    cases hread : heading? n.toInt with
    | some h => exact .inl ⟨h, congrArg PropertyValue.int (eq_of_heading? hread)⟩
    | none =>
      refine .inr (.inr ⟨fun _ htext => (nomatch htext), fun s => ?_⟩)
      rw [headingValue, hread]
  | string text =>
    cases hread : Heading.ofText? text with
    | some h => exact .inr (.inl ⟨text, h, rfl, hread⟩)
    | none =>
      refine .inr (.inr ⟨fun _ htext => PropertyValue.string.inj htext ▸ hread, fun s => ?_⟩)
      rw [Heading.ofText?] at hread
      rw [headingValue, hread]

/-- Headings keep the laws. -/
theorem byComposite_headingValue : ByComposite fun _ => headingValue := by
  intro steps steps' hsame size v
  obtain ⟨h, rfl⟩ | ⟨text, h, rfl, hread⟩ | ⟨-, hkept⟩ := headingValue_cases v
  · exact lawful_heading.byComposite.part headingInt (fun _ => headingValue_headingInt) hsame size h
  · -- the first step writes the text anew, so both sequences are followed from that step on
    have hwritten : ∀ steps ≠ [], run (fun _ => headingValue) size steps (.string text) =
        headingText (run (fun _ => heading) size steps h) := by
      intro steps hne
      cases steps with
      | nil => exact absurd rfl hne
      | cons s steps =>
        rw [run, headingValue_of_ofText? s hread, run, run_part fun _ => headingValue_headingText]
    rw [hwritten steps hsame.left_ne_nil, hwritten steps' hsame.right_ne_nil,
      lawful_heading.byComposite hsame]
  · rw [run_of_fixed fun _ => hkept, run_of_fixed fun _ => hkept]

/-- A turn by nothing keeps a value exactly if it is no heading in another spelling. -/
theorem headingValue_deg0_iff {v : PropertyValue} :
    (rotate .deg0).headingValue v = v ↔ v.PlainHeading := by
  have hturn : ∀ h : Heading, (rotate .deg0).heading h = h := by decide
  obtain ⟨h, rfl⟩ | ⟨text, h, rfl, hread⟩ | ⟨hnone, hkept⟩ := headingValue_cases v
  · rw [headingValue_headingInt, hturn]
    exact iff_of_true rfl fun _ _ htext => nomatch htext
  · rw [headingValue_of_ofText? _ hread, hturn, headingText, PropertyValue.string.injEq]
    refine ⟨fun hplain text' h' htext hread' => ?_, fun hplain => (hplain text h rfl hread).symm⟩
    obtain rfl := PropertyValue.string.inj htext
    rw [hread] at hread'
    rw [← Option.some.inj hread', hplain]
  · refine iff_of_true (hkept _) fun text h htext hread => ?_
    rw [hnone text htext] at hread
    cases hread

/-! ## Properties one by one -/

/-- The sides of a block that are keys of properties. -/
def sides : List String := ["north", "east", "south", "west"]

/-- A side is turned into a side. -/
theorem directionName_mem_sides (s : Step) {key : String} (h : key ∈ sides) :
    s.directionName key ∈ sides := by
  simp only [sides, List.mem_cons, List.not_mem_nil, or_false] at h
  cases s with
  | rotate q => cases q <;> rcases h with rfl | rfl | rfl | rfl <;> decide
  | mirror m => cases m <;> rcases h with rfl | rfl | rfl | rfl <;> decide

/-- Only the sides are names of directions that a step moves. -/
theorem directionName_of_notMem_sides (s : Step) {key : String} (h : key ∉ sides) :
    s.directionName key = key := by
  cases hd : Direction.ofText? key with
  | none => exact s.directionName_of_none hd
  | some d =>
    obtain rfl := Direction.text_of_ofText? hd
    have hstays : s.direction d = d := by
      cases d with
      | up => rcases s with q | m <;> [cases q; cases m] <;> rfl
      | down => rcases s with q | m <;> [cases q; cases m] <;> rfl
      | _ => exact absurd (by decide) h
    rw [directionName_text, hstays]

/-- What is said of a side stays as it is. -/
theorem property_of_mem_sides (s : Step) {key : String} (h : key ∈ sides) (v : PropertyValue) :
    s.property key v = (s.directionName key, v) := by
  simp only [sides, List.mem_cons, List.not_mem_nil, or_false] at h
  rcases h with rfl | rfl | rfl | rfl <;> rfl

/-- The key of a property is moved as the name of a direction, whatever its value is. -/
theorem property_fst (s : Step) (key : String) (v : PropertyValue) :
    (s.property key v).1 = s.directionName key := by
  by_cases h : key ∈ sides
  · rw [s.property_of_mem_sides h]
  · rw [s.directionName_of_notMem_sides h]
    unfold property
    split <;> first | rfl | exact absurd (by decide) h

/-- A key that has moved turns its value as it did before. -/
theorem property_directionName_snd (s t : Step) (key : String) (v : PropertyValue) :
    (s.property (t.directionName key) v).2 = (s.property key v).2 := by
  by_cases h : key ∈ sides
  · rw [s.property_of_mem_sides (t.directionName_mem_sides h), s.property_of_mem_sides h]
  · rw [t.directionName_of_notMem_sides h]

/-- Apart from a heading, only a text is turned under a key. -/
theorem property_snd_of_not_string (s : Step) {key : String} {v : PropertyValue}
    (hkey : key ≠ "rotation") (h : ∀ text, v ≠ .string text) : (s.property key v).2 = v := by
  unfold property
  split <;> first | rfl | exact absurd rfl (h _) | exact absurd rfl hkey

/-- The value under a key that turns texts depends only on the symmetry, if texts do. -/
theorem byComposite_text {key : String} {move : Step → String → String} (hkey : key ≠ "rotation")
    (hmove : ByComposite fun _ => move)
    (hstring : ∀ s text, (property s key (.string text)).2 = .string (move s text)) :
    ByComposite fun _ s v => (property s key v).2 := by
  intro steps steps' hsame size v
  by_cases h : ∃ text, v = .string text
  · obtain ⟨text, rfl⟩ := h
    exact hmove.part PropertyValue.string (fun _ => hstring) hsame size text
  · have hkept (s : Step) : (s.property key v).2 = v :=
      s.property_snd_of_not_string hkey fun text htext => h ⟨text, htext⟩
    rw [run_of_fixed fun _ => hkept, run_of_fixed fun _ => hkept]

/-- The value of a property depends on what the steps come to. -/
theorem byComposite_property_snd (key : String) :
    ByComposite fun _ s v => (property s key v).2 := by
  by_cases hfacing : key = "facing"
  · subst hfacing
    exact byComposite_text (by decide) byComposite_directionName fun _ _ => rfl
  by_cases hhorizontal : key = "horizontal_facing"
  · subst hhorizontal
    exact byComposite_text (by decide) byComposite_directionName fun _ _ => rfl
  by_cases haxis : key = "axis"
  · subst haxis
    exact byComposite_text (by decide) byComposite_axisName fun _ _ => rfl
  by_cases horientation : key = "orientation"
  · subst horientation
    exact byComposite_text (by decide) byComposite_orientationName fun _ _ => rfl
  by_cases hrotation : key = "rotation"
  · subst hrotation
    exact byComposite_headingValue
  -- no step turns a value under any other key
  have hkept (s : Step) (v : PropertyValue) : (s.property key v).2 = v := by
    unfold property
    split <;> first | rfl | contradiction
  intro steps steps' _ size v
  rw [run_of_fixed fun _ s => hkept s v, run_of_fixed fun _ s => hkept s v]

/-- The key and the value of a property are moved each by itself. -/
theorem run_property (size : Size) (steps : List Step) (e : String × PropertyValue) :
    run (fun _ s e => s.property e.1 e.2) size steps e =
      (run (fun _ => directionName) size steps e.1,
        run (fun _ s v => (property s e.1 v).2) size steps e.2) := by
  induction steps generalizing size e with
  | nil => rfl
  | cons s steps ih =>
    rw [run, ih, run, run, property_fst]
    simp only [property_directionName_snd]

/-- And so does a property with its key. -/
theorem byComposite_property : ByComposite fun _ s (e : String × PropertyValue) =>
    s.property e.1 e.2 := by
  intro steps steps' hsame size e
  rw [run_property, run_property, byComposite_directionName hsame size e.1,
    byComposite_property_snd e.1 hsame size e.2]

/-- A turn by nothing keeps a property exactly if it is no heading in another spelling. -/
theorem property_deg0_iff {key : String} {v : PropertyValue} :
    (rotate .deg0).property key v = (key, v) ↔ (key = "rotation" → v.PlainHeading) := by
  by_cases hrotation : key = "rotation"
  · subst hrotation
    have hvalue : (rotate .deg0).property "rotation" v = ("rotation", v) ↔ v.PlainHeading :=
      Prod.mk_right_inj.trans headingValue_deg0_iff
    exact hvalue.trans ⟨fun h _ => h, fun h => h rfl⟩
  · refine iff_of_true ?_ fun h => absurd h hrotation
    unfold property
    split <;>
      first
        | rfl
        | exact absurd rfl hrotation
        | simp only [directionName_deg0, axisName_deg0, orientationName_deg0]

/-! ## All properties of a block -/

/-- No two keys become one. -/
theorem nodup_keys_run (size : Size) (steps : List Step) (p : Properties) :
    ((p.entries.map (run (fun _ s e => s.property e.1 e.2) size steps)).map Prod.fst).Nodup := by
  have hkeys : (p.entries.map (run (fun _ s e => s.property e.1 e.2) size steps)).map Prod.fst =
      p.keys.map (run (fun _ => directionName) size steps) := by
    rw [SortedMap.keys, List.map_map, List.map_map]
    exact List.map_congr_left fun e _ => congrArg Prod.fst (run_property size steps e)
  rw [hkeys]
  exact p.nodup_keys.map (run_injective (fun _ => directionName_injective) size steps)

/-- No property is lost: the step moves each of them as it would by itself. -/
theorem perm_entries_properties (s : Step) (p : Properties) :
    (s.properties p).entries.Perm (p.entries.map fun e => s.property e.1 e.2) :=
  SortedMap.perm_ofList (nodup_keys_run ⟨0, 0, 0⟩ [s] p)

/-- Properties are moved one by one. -/
theorem run_properties (size : Size) (steps : List Step) (p : Properties) :
    run (fun _ => properties) size steps p =
      .ofList (p.entries.map (run (fun _ s e => s.property e.1 e.2) size steps)) := by
  induction steps generalizing size p with
  | nil => exact (p.ofList_entries.symm).trans (congrArg SortedMap.ofList (List.map_id _).symm)
  | cons s steps ih =>
    have hperm := (s.perm_entries_properties p).map
      (run (fun _ s (e : String × PropertyValue) => s.property e.1 e.2) (size.step s) steps)
    rw [List.map_map] at hperm
    rw [run, ih]
    exact SortedMap.ofList_congr (nodup_keys_run (size.step s) steps (s.properties p)) hperm

/-- So they depend on what the steps come to. -/
theorem byComposite_properties : ByComposite fun _ => properties := by
  intro steps steps' hsame size p
  rw [run_properties, run_properties]
  exact congrArg SortedMap.ofList (List.map_congr_left fun e _ => byComposite_property hsame size e)

/-- **A turn by nothing keeps properties exactly if no heading is in another spelling.** -/
theorem properties_deg0_iff {p : Properties} :
    (rotate .deg0).properties p = p ↔ p.PlainHeading := by
  refine ⟨fun h v hv => ?_, fun hplain => ?_⟩
  · -- the entry is still there after the turn, and so is what the turn makes of it
    have hperm := (rotate .deg0).perm_entries_properties p
    rw [h] at hperm
    have hmoved := hperm.symm.subset (List.mem_map_of_mem hv)
    have hsame := List.inj_on_of_nodup_map p.nodup_keys hmoved hv (property_fst _ _ v)
    exact property_deg0_iff.1 hsame rfl
  · have hkept : ∀ e ∈ p.entries, (rotate .deg0).property e.1 e.2 = e := by
      intro e he
      exact property_deg0_iff.2 fun hkey => hplain e.2 (hkey ▸ he)
    rw [properties, List.map_congr_left hkept, List.map_id', p.ofList_entries]

end Step

/-! ## Block states -/

namespace BlockState

/-- A state depends on what the steps come to. -/
theorem byComposite_step : Step.ByComposite fun _ => BlockState.step := by
  intro steps steps' hsame size state
  refine Step.byComposite_properties.part (mk state.id) ?_ hsame size state.properties
  exact fun _ _ _ => rfl

/-- A turn by nothing keeps a state exactly if its heading is written plainly. -/
theorem step_deg0_iff {state : BlockState} :
    state.step (.rotate .deg0) = state ↔ state.properties.PlainHeading := by
  rw [← Step.properties_deg0_iff, step]
  cases state
  exact ⟨fun h => (mk.inj h).2, fun h => congrArg _ h⟩

end BlockState

end Blueprint
