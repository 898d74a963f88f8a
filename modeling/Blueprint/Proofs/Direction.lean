import Blueprint.Direction
import Blueprint.Proofs.Symmetry

/-!
# What a block can point at keeps the laws of the square

Directions, axes and headings are moved as the symmetries of a square say. So are their names,
and the orientations of connectors, which are two names: a text that names nothing is kept by
every step. What a sequence of steps makes of any text therefore depends only on the symmetry
that the steps come to.
-/

namespace Blueprint

universe u

namespace Step

open DihedralGroup

/-! ## Directions, axes and headings -/

/-- Directions keep the laws. -/
theorem lawful_direction : Lawful fun _ => direction where
  rotate_rotate _ q q' d := by cases q <;> cases q' <;> cases d <;> rfl
  flip_rotate _ q d := by cases q <;> cases d <;> rfl
  flip_flip _ d := by cases d <;> rfl
  rotate_flip _ _ := rfl
  off _ d := by cases d <;> rfl
  leftRight _ d := by cases d <;> rfl

/-- So do axes. -/
theorem lawful_axis : Lawful fun _ => axis where
  rotate_rotate _ q q' a := by cases q <;> cases q' <;> cases a <;> rfl
  flip_rotate _ q _ := by cases q <;> rfl
  flip_flip _ a := by cases a <;> rfl
  rotate_flip _ a := by cases a <;> rfl
  off _ a := by cases a <;> rfl
  leftRight _ a := by cases a <;> rfl

/-- So do headings. -/
theorem lawful_heading : Lawful fun _ => heading where
  rotate_rotate _ q q' := by cases q <;> cases q' <;> decide
  flip_rotate _ q := by cases q <;> decide
  flip_flip _ := by decide
  rotate_flip _ := by decide
  off _ := by decide
  leftRight _ := by decide

/-- A turn by nothing keeps every direction, so that no step at all is no case of its own. -/
theorem run_direction (size : Size) (steps : List Step) (d : Direction) :
    run (fun _ => direction) size steps d = act (fun _ => direction) size (composite steps) d := by
  cases steps with
  | nil => rfl
  | cons s steps => exact lawful_direction.run_eq_act size (List.cons_ne_nil s steps) d

/-- **Two sequences of steps come to the same symmetry exactly if they turn every direction
alike.** -/
theorem composite_eq_iff (size : Size) (steps steps' : List Step) :
    composite steps = composite steps' ↔
      ∀ d, run (fun _ => direction) size steps d = run (fun _ => direction) size steps' d := by
  simp only [run_direction]
  refine ⟨fun h d => by rw [h], fun h => ?_⟩
  -- where north and east go tells the eight symmetries apart
  have htold : ∀ g g' : DihedralGroup 4,
      act (fun _ => direction) ⟨0, 0, 0⟩ g .north = act (fun _ => direction) ⟨0, 0, 0⟩ g' .north →
      act (fun _ => direction) ⟨0, 0, 0⟩ g .east = act (fun _ => direction) ⟨0, 0, 0⟩ g' .east →
      g = g' := by decide
  have hbox (g : DihedralGroup 4) (d : Direction) :
      act (fun _ => direction) size g d = act (fun _ => direction) ⟨0, 0, 0⟩ g d := by
    cases g <;> rfl
  simp only [hbox] at h
  exact htold _ _ (h .north) (h .east)

/-! ## Names -/

/-- Names of things that are moved by their symmetry are moved by it too, if texts that name
nothing are kept. -/
theorem byComposite_name {β : Type u} {read : String → Option β} {print : β → String}
    {move : Step → β → β} {rename : Step → String → String} (hmove : ByComposite fun _ => move)
    (hprint : ∀ {name b}, read name = some b → print b = name)
    (hsome : ∀ s b, rename s (print b) = print (move s b))
    (hnone : ∀ s {name}, read name = none → rename s name = name) :
    ByComposite fun _ => rename := by
  intro steps steps' hsame size name
  cases hname : read name with
  | none => rw [run_of_fixed fun _ s => hnone s hname, run_of_fixed fun _ s => hnone s hname]
  | some b =>
    rw [← hprint hname]
    exact hmove.part print (fun _ => hsome) hsame size b

section

variable (s : Step)

/-- The name of a direction becomes that of what the direction becomes. -/
theorem directionName_text (d : Direction) : s.directionName d.text = (s.direction d).text := by
  rw [directionName, Direction.ofText?_text]

/-- A text that names no direction stays as it is. -/
theorem directionName_of_none {name : String} (h : Direction.ofText? name = none) :
    s.directionName name = name := by
  rw [directionName, h]

/-- The name of an axis becomes that of what the axis becomes. -/
theorem axisName_text (a : Axis) : s.axisName a.text = (s.axis a).text := by
  rw [axisName, Axis.ofText?_text]

/-- A text that names no axis stays as it is. -/
theorem axisName_of_none {name : String} (h : Axis.ofText? name = none) :
    s.axisName name = name := by
  rw [axisName, h]

/-- A step keeps a text or writes the name of a direction. -/
theorem directionName_cases (P : String → Prop) {name : String} (keep : P name)
    (direction : ∀ d : Direction, P d.text) : P (s.directionName name) := by
  cases h : Direction.ofText? name with
  | none => rwa [s.directionName_of_none h]
  | some d =>
    rw [← Direction.text_of_ofText? h, directionName_text]
    exact direction _

/-- A step keeps a text or writes the name of an axis. -/
theorem axisName_cases (P : String → Prop) {name : String} (keep : P name)
    (axis : ∀ a : Axis, P a.text) : P (s.axisName name) := by
  cases h : Axis.ofText? name with
  | none => rwa [s.axisName_of_none h]
  | some a =>
    rw [← Axis.text_of_ofText? h, axisName_text]
    exact axis _

end

/-- The name of a direction depends on what the steps come to. -/
theorem byComposite_directionName : ByComposite fun _ => directionName :=
  byComposite_name lawful_direction.byComposite Direction.text_of_ofText? directionName_text
    directionName_of_none

/-- So does the name of an axis. -/
theorem byComposite_axisName : ByComposite fun _ => axisName :=
  byComposite_name lawful_axis.byComposite Axis.text_of_ofText? axisName_text axisName_of_none

/-- A turn by nothing keeps every name of a direction. -/
theorem directionName_deg0 (name : String) : (rotate .deg0).directionName name = name := by
  cases h : Direction.ofText? name with
  | none => exact directionName_of_none _ h
  | some d =>
    rw [← Direction.text_of_ofText? h, directionName_text]
    rfl

/-- A turn by nothing keeps every name of an axis. -/
theorem axisName_deg0 (name : String) : (rotate .deg0).axisName name = name := by
  cases h : Axis.ofText? name with
  | none => exact axisName_of_none _ h
  | some a =>
    rw [← Axis.text_of_ofText? h, axisName_text]
    cases a <;> rfl

/-! ## Steps that are undone -/

/-- The step that undoes a step. -/
def inverse : Step → Step
  | rotate q => rotate q.inverse
  | mirror m => mirror m

/-- A step and its inverse come to nothing. -/
theorem composite_inverse (s : Step) : composite [s, s.inverse] = 1 := by
  cases s with
  | rotate q => cases q <;> rfl
  | mirror m => cases m <;> rfl

/-- The inverse of a step changes something exactly if the step does. -/
theorem isIdentity_inverse (s : Step) : s.inverse.isIdentity = s.isIdentity := by
  cases s with
  | rotate q => cases q <;> rfl
  | mirror m => rfl

/-- The inverse of a step takes back what it did to a name. -/
theorem directionName_inverse_directionName (s : Step) (name : String) :
    s.inverse.directionName (s.directionName name) = name := by
  have hsame : Alike [s, s.inverse] [rotate .deg0] :=
    ⟨List.cons_ne_nil _ _, List.cons_ne_nil _ _, s.composite_inverse⟩
  exact (byComposite_directionName hsame ⟨0, 0, 0⟩ name).trans (directionName_deg0 name)

/-- So no two names become one. -/
theorem directionName_injective (s : Step) : Function.Injective s.directionName :=
  Function.LeftInverse.injective s.directionName_inverse_directionName

/-! ## Orientations of connectors -/

/-- An orientation without an underscore is kept. -/
theorem orientationName_of_none (s : Step) {name : String}
    (h : Text.splitFirst '_' name.toList = none) : s.orientationName name = name := by
  rw [orientationName, h]

/-- An orientation is moved by moving what stands before its first underscore and after it. -/
theorem orientationName_join (s : Step) {front : String} (h : '_' ∉ front.toList) (top : String) :
    s.orientationName (front ++ "_" ++ top) =
      s.directionName front ++ "_" ++ s.directionName top := by
  have hchars : (front ++ "_" ++ top).toList = front.toList ++ '_' :: top.toList := by simp
  rw [orientationName, hchars, Text.splitFirst_append h]
  simp only [String.ofList_toList]

/-- A step brings no low line into a name. -/
theorem notMem_directionName (s : Step) {name : String} (h : '_' ∉ name.toList) :
    '_' ∉ (s.directionName name).toList :=
  s.directionName_cases (fun name => '_' ∉ name.toList) h fun d => by cases d <;> decide

/-- The two names in an orientation are turned each by itself. -/
theorem run_orientationName (size : Size) (steps : List Step) {front : String}
    (h : '_' ∉ front.toList) (top : String) :
    run (fun _ => orientationName) size steps (front ++ "_" ++ top) =
      run (fun _ => directionName) size steps front ++ "_" ++
        run (fun _ => directionName) size steps top := by
  induction steps generalizing size front top with
  | nil => rfl
  | cons s steps ih =>
    rw [run, orientationName_join s h, ih _ (notMem_directionName s h), run, run]

/-- An orientation has no underscore, or it is two names around the first one. -/
theorem orientation_cases (name : String) : Text.splitFirst '_' name.toList = none ∨
    ∃ front top, '_' ∉ front.toList ∧ name = front ++ "_" ++ top := by
  cases h : Text.splitFirst '_' name.toList with
  | none => exact .inl rfl
  | some pieces =>
    obtain ⟨front, top⟩ := pieces
    refine .inr ⟨String.ofList front, String.ofList top, ?_, ?_⟩
    · rw [String.toList_ofList]
      exact Text.notMem_of_splitFirst h
    · rw [← String.toList_inj, Text.eq_of_splitFirst h]
      simp

/-- An orientation depends on what the steps come to. -/
theorem byComposite_orientationName : ByComposite fun _ => orientationName := by
  intro steps steps' hsame size name
  obtain h | ⟨front, top, h, rfl⟩ := orientation_cases name
  · rw [run_of_fixed fun _ s => orientationName_of_none s h,
      run_of_fixed fun _ s => orientationName_of_none s h]
  · rw [run_orientationName size steps h, run_orientationName size steps' h,
      byComposite_directionName hsame size front, byComposite_directionName hsame size top]

/-- A turn by nothing keeps every orientation. -/
theorem orientationName_deg0 (name : String) : (rotate .deg0).orientationName name = name := by
  obtain h | ⟨front, top, h, rfl⟩ := orientation_cases name
  · exact orientationName_of_none _ h
  · rw [orientationName_join _ h, directionName_deg0, directionName_deg0]

end Step

end Blueprint
