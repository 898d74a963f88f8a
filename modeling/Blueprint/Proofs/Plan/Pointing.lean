import Blueprint.Proofs.BlockState.Symmetry
import Blueprint.Proofs.Plan.Confined
import Blueprint.Proofs.Pointing

/-!
# What the blocks of a plan point at

`Turned` says of a part of a plan that it is a part of another plan after some steps: it stands in
the cell that its cell becomes, and whatever one of its names stands for is named, in the same
place, as what it becomes. One step turns every part (`Properties.turned_properties`), and what is
turned by one sequence and then by another is turned by both. With the laws of `Pointing` this says
that turned buildings keep their looks: a block that faces a neighbour faces it afterwards.
-/

namespace Blueprint

universe u v

/-! ## Cells in words and as numbers -/

/-- The far ends as other coordinates. -/
def Footprint.map {α : Type u} {β : Type v} (g : α → β) (f : Footprint α) : Footprint β :=
  ⟨g f.x, g f.z⟩

namespace Vec3

variable {α : Type u} {β : Type v} [Sub α] [Sub β] {g : α → β}

/-- A step is the same in other coordinates that keep differences. -/
theorem map_step (hg : ∀ a b, g (a - b) = g a - g b) (f : Footprint α) (s : Step) (p : Vec3 α) :
    (p.step f s).map g = (p.map g).step (f.map g) s := by
  cases s with
  | rotate r => cases r <;> simp only [step, rotate, map, Footprint.map, hg]
  | mirror m => cases m <;> simp only [step, mirror, map, Footprint.map, hg]

/-- So are several steps. -/
theorem map_after (hg : ∀ a b, g (a - b) = g a - g b) (f : Footprint α) (steps : List Step)
    (p : Vec3 α) : (p.after f steps).map g = (p.map g).after (f.map g) steps := by
  induction steps generalizing f p with
  | nil => rfl
  | cons s steps ih =>
    have hends : (f.step s).map g = (f.map g).step s := by
      cases s with
      | rotate r => cases r <;> rfl
      | mirror m => rfl
    rw [after_cons, ih, map_step hg, hends]
    rfl

end Vec3

/-- The last cells along the two horizontal axes, as numbers without a bound. -/
def Size.ends (size : Size) : Footprint Int := ⟨size.w.toInt - 1, size.l.toInt - 1⟩

/-- The far ends of a box in words are the far ends after a step. -/
theorem Size.lastCells_step (size : Size) (s : Step) :
    (size.step s).lastCells = size.lastCells.step s := by
  cases s with
  | rotate r => cases r <;> rfl
  | mirror m => rfl

/-- The last cells take the step that the extents take. -/
theorem Size.ends_step (size : Size) (s : Step) : (size.step s).ends = size.ends.step s := by
  cases s with
  | rotate r => cases r <;> rfl
  | mirror m => rfl

namespace Pos

/-- Several steps move a cell between the last cells of the box. -/
theorem after_eq (size : Size) (steps : List Step) (q : Pos) :
    q.after size steps = Vec3.after size.lastCells steps q := by
  induction steps generalizing size q with
  | nil => rfl
  | cons s steps ih =>
    rw [after_cons, ih, Size.lastCells_step]
    rfl

/-- A cell is moved as its coordinates would be without a bound, and read again as words. -/
theorem after_eq_map (size : Size) (steps : List Step) (q : Pos) :
    q.after size steps =
      Vec3.map Int32.ofInt (Vec3.after size.ends steps (q.map Int32.toInt)) := by
  have hends : size.ends.map Int32.ofInt = size.lastCells := by
    simp only [Size.ends, Footprint.map, Int32.ofInt_sub, Int32.ofInt_toInt]
    rfl
  have hwords : (q.map Int32.toInt).map Int32.ofInt = q := by
    simp only [Vec3.map, Int32.ofInt_toInt]
  rw [Vec3.map_after Int32.ofInt_sub, hends, hwords, after_eq]

/-- In the box the words of a cell stay the numbers that its coordinates would be. -/
theorem map_after {size : Size} {q : Pos} (h : size.Contains q) (steps : List Step) :
    (q.after size steps).map Int32.toInt =
      Vec3.after size.ends steps (q.map Int32.toInt) := by
  induction steps generalizing size q with
  | nil => rfl
  | cons s steps ih =>
    have hcell := (Pos.movesExactly h s).cell
    rw [after_cons, ih (Size.contains_step h s), hcell, Size.ends_step]
    rfl

end Pos

/-! ## Names -/

/-- The name of what a direction becomes; a text that names none is kept. -/
def Direction.nameAfter (steps : List Step) (name : String) : String :=
  match ofText? name with
  | some d => (d.after steps).text
  | none => name

/-- The name of a direction becomes that of what the direction becomes. -/
theorem Direction.nameAfter_text (steps : List Step) (d : Direction) :
    nameAfter steps d.text = (d.after steps).text := by
  rw [nameAfter, ofText?_text]

/-- A text that names no direction is kept. -/
theorem Direction.nameAfter_of_none {steps : List Step} {name : String}
    (h : ofText? name = none) : nameAfter steps name = name := by
  rw [nameAfter, h]

/-- A name takes one step after another. -/
theorem Direction.nameAfter_cons (s : Step) (steps : List Step) (name : String) :
    nameAfter (s :: steps) name = nameAfter steps (s.directionName name) := by
  cases h : ofText? name with
  | none => rw [s.directionName_of_none h, nameAfter_of_none h, nameAfter_of_none h]
  | some d =>
    rw [← text_of_ofText? h, s.directionName_text, nameAfter_text, nameAfter_text, after_cons]

/-- A single step does what it does to a name. -/
theorem Direction.nameAfter_singleton (s : Step) (name : String) :
    nameAfter [s] name = s.directionName name := by
  have hnil (name : String) : nameAfter [] name = name := by
    cases h : ofText? name with
    | none => exact nameAfter_of_none h
    | some d => rw [← text_of_ofText? h, nameAfter_text, after_nil]
  rw [nameAfter_cons, hnil]

/-- The heading that a value names, as a number or as a text. -/
def PropertyValue.heading? : PropertyValue → Option Heading
  | .bool _ => none
  | .int n => Step.heading? n.toInt
  | .string text => Heading.ofText? text

/-- A step turns the heading that a value names. -/
theorem PropertyValue.heading?_headingValue (s : Step) {value : PropertyValue} {v : Heading}
    (h : value.heading? = some v) : (s.headingValue value).heading? = some (s.heading v) := by
  have hint : ∀ v : Heading, (Step.headingInt v).heading? = some v := by decide
  have htext : ∀ v : Heading, (Step.headingText v).heading? = some v := by decide
  cases value with
  | bool b => cases h
  | int n =>
    obtain rfl := Step.eq_of_heading? h
    exact (congrArg heading? (s.headingValue_headingInt v)).trans (hint (s.heading v))
  | string text => rw [s.headingValue_of_ofText? h, htext]

/-! ## Parts of a plan -/

/-- An orientation of a connector after some steps: each of the two names in it is turned. -/
def OrientationTurned (steps : List Step) (o o' : String) : Prop :=
  ∀ front top, '_' ∉ front.toList → o = front ++ "_" ++ top →
    o' = Direction.nameAfter steps front ++ "_" ++ Direction.nameAfter steps top

/-- Properties after some steps. -/
structure Properties.Turned (steps : List Step) (p p' : Properties) : Prop where
  /-- a block that faces a direction faces what the direction becomes -/
  facing : ∀ key ∈ ["facing", "horizontal_facing"], ∀ d : Direction,
    p.get? key = some (.string d.text) → p'.get? key = some (.string (d.after steps).text)
  /-- what is said of a side is said of the side that it becomes -/
  side : ∀ (d : Direction) value, p.get? d.text = some value →
    p'.get? (d.after steps).text = some value
  /-- the axis is that of the line that its line becomes -/
  axis : ∀ a : Axis, p.get? "axis" = some (.string a.text) →
    p'.get? "axis" = some (.string (a.after steps).text)
  /-- the heading becomes what it becomes on the compass, in a value of its own -/
  heading : ∀ value (v : Heading), p.get? "rotation" = some value → value.heading? = some v →
    ∃ value', p'.get? "rotation" = some value' ∧ value'.heading? = some (v.after steps)
  /-- the two names of an orientation are turned -/
  orientation : ∀ o, p.get? "orientation" = some (.string o) →
    ∃ o', p'.get? "orientation" = some (.string o') ∧ OrientationTurned steps o o'

/-- A state after some steps. -/
structure BlockState.Turned (steps : List Step) (state state' : BlockState) : Prop where
  /-- the block is the same -/
  id : state'.id = state.id
  /-- its properties are turned -/
  properties : state.properties.Turned steps state'.properties

/-- A state reference after some steps. -/
inductive StateRef.Turned (steps : List Step) : StateRef → StateRef → Prop
  /-- a state that is written out is turned -/
  | direct {state state' : BlockState} (h : state.Turned steps state') :
    Turned steps (.direct state) (.direct state')
  /-- a material stays what it is -/
  | material (key : String) : Turned steps (.material key) (.material key)

/-- A block of a plan after some steps; `size` is the extent before all of them. -/
structure Block.Turned (size : Size) (steps : List Step) (b b' : Block) : Prop where
  /-- it stands in the cell that its cell becomes -/
  pos : b'.pos = b.pos.after size steps
  /-- its state is turned -/
  state : b.state.Turned steps b'.state

/-- A connector of a plan after some steps; `size` is the extent before all of them. -/
structure Jigsaw.Turned (size : Size) (steps : List Step) (j j' : Jigsaw) : Prop where
  /-- it stands in the cell that its cell becomes -/
  pos : j'.pos = j.pos.after size steps
  /-- it points along what its directions become -/
  orientation : OrientationTurned steps j.orientation j'.orientation
  /-- the state that replaces it is turned -/
  finalState : j.finalState.Turned steps j'.finalState

/-! ## One step -/

section

variable (s : Step)

/-- A step turns the names of an orientation. -/
theorem orientationTurned_step (o : String) : OrientationTurned [s] o (s.orientationName o) := by
  rintro front top h rfl
  rw [s.orientationName_join h, Direction.nameAfter_singleton, Direction.nameAfter_singleton]

namespace Properties

/-- The value of a key is found after a step where the key has moved, and it is turned. -/
theorem get?_properties {p : Properties} {key : String} {value : PropertyValue}
    (h : p.get? key = some value) :
    (s.properties p).get? (s.directionName key) = some (s.property key value).2 := by
  have hmem := List.mem_map_of_mem (f := fun e => s.property e.1 e.2)
    (SortedMap.get?_eq_some_iff.1 h)
  have hmoved := (s.perm_entries_properties p).mem_iff.2 hmem
  rw [← s.property_fst key value]
  exact SortedMap.get?_eq_some_iff.2 hmoved

/-- **A step turns the properties of a block.** -/
theorem turned_properties (p : Properties) : p.Turned [s] (s.properties p) where
  facing := by
    intro key hkey d h
    have hturned := get?_properties s h
    -- both keys of a direction are turned alike
    simp only [List.mem_cons, List.not_mem_nil, or_false] at hkey
    rcases hkey with rfl | rfl
    · exact hturned.trans (congrArg (some ∘ PropertyValue.string) (s.directionName_text d))
    · exact hturned.trans (congrArg (some ∘ PropertyValue.string) (s.directionName_text d))
  side := by
    intro d value h
    have hturned := get?_properties s h
    rw [s.directionName_text] at hturned
    cases d <;> exact hturned
  axis := by
    intro a h
    exact (get?_properties s h).trans (congrArg (some ∘ PropertyValue.string) (s.axisName_text a))
  heading := by
    intro value v h hv
    exact ⟨s.headingValue value, get?_properties s h, PropertyValue.heading?_headingValue s hv⟩
  orientation := by
    intro o h
    exact ⟨s.orientationName o, get?_properties s h, orientationTurned_step s o⟩

end Properties

end

/-! ## No step, and steps that are skipped -/

/-- Steps that keep every direction keep orientations. -/
theorem orientationTurned_of_fixed {steps : List Step}
    (h : ∀ d : Direction, d.after steps = d) (o : String) : OrientationTurned steps o o := by
  have hname (name : String) : Direction.nameAfter steps name = name := by
    cases hd : Direction.ofText? name with
    | none => exact Direction.nameAfter_of_none hd
    | some d => rw [← Direction.text_of_ofText? hd, Direction.nameAfter_text, h]
  rintro front top - rfl
  rw [hname, hname]

/-- Steps that keep everything that a block can point at keep its properties. -/
theorem Properties.turned_of_fixed {steps : List Step} (hd : ∀ d : Direction, d.after steps = d)
    (ha : ∀ a : Axis, a.after steps = a) (hv : ∀ v : Heading, v.after steps = v) (p : Properties) :
    p.Turned steps p where
  facing := by
    intro key _ d h
    rwa [hd]
  side := by
    intro d value h
    rwa [hd]
  axis := by
    intro a h
    rwa [ha]
  heading := by
    intro value v h hread
    rw [hv]
    exact ⟨value, h, hread⟩
  orientation := by
    intro o h
    exact ⟨o, h, orientationTurned_of_fixed hd o⟩

/-- Without a step properties are what they are. -/
theorem Properties.turned_nil (p : Properties) : p.Turned [] p :=
  turned_of_fixed (fun _ => rfl) (fun _ => rfl) (fun _ => rfl) p

section

variable {s : Step} (h : s.isIdentity = true)

include h

/-- A step that changes nothing keeps every direction. -/
theorem Direction.after_of_isIdentity (d : Direction) : d.after [s] = d := by
  cases s with
  | rotate r => cases r <;> first | rfl | cases h
  | mirror m => cases m <;> cases d <;> first | rfl | cases h

/-- So it keeps all properties. -/
theorem Properties.turned_of_isIdentity (p : Properties) : p.Turned [s] p := by
  apply turned_of_fixed (Direction.after_of_isIdentity h)
  · intro a
    cases s with
    | rotate r => cases r <;> cases a <;> first | rfl | cases h
    | mirror m => rfl
  · intro v
    cases s with
    | rotate r => cases r <;> first | exact Fin.add_zero v | cases h
    | mirror m => cases m <;> first | rfl | cases h

end

/-! ## Several steps -/

section

variable {s : Step} {steps : List Step}

/-- An orientation turned by a step and by others is turned by all of them. -/
theorem OrientationTurned.cons {o o' o'' : String} (h : OrientationTurned [s] o o')
    (h' : OrientationTurned steps o' o'') : OrientationTurned (s :: steps) o o'' := by
  intro front top hfront ho
  have hfirst := h front top hfront ho
  rw [Direction.nameAfter_singleton, Direction.nameAfter_singleton] at hfirst
  rw [Direction.nameAfter_cons, Direction.nameAfter_cons]
  exact h' _ _ (s.notMem_directionName hfront) hfirst

/-- Properties that are turned by a step and then by others are turned by all of them. -/
theorem Properties.Turned.cons {p p' p'' : Properties} (h : p.Turned [s] p')
    (h' : p'.Turned steps p'') : p.Turned (s :: steps) p'' where
  facing := by
    intro key hkey d hd
    exact h'.facing key hkey _ (h.facing key hkey d hd)
  side := by
    intro d value hd
    exact h'.side _ value (h.side d value hd)
  axis := by
    intro a ha
    exact h'.axis _ (h.axis a ha)
  heading := by
    intro value v hvalue hv
    obtain ⟨value', hvalue', hv'⟩ := h.heading value v hvalue hv
    exact h'.heading value' _ hvalue' hv'
  orientation := by
    intro o ho
    obtain ⟨o', ho', hturned⟩ := h.orientation o ho
    obtain ⟨o'', ho'', hturned'⟩ := h'.orientation o' ho'
    exact ⟨o'', ho'', hturned.cons hturned'⟩

/-- So is a state. -/
theorem BlockState.Turned.cons {state state' state'' : BlockState} (h : state.Turned [s] state')
    (h' : state'.Turned steps state'') : state.Turned (s :: steps) state'' :=
  ⟨h'.id.trans h.id, h.properties.cons h'.properties⟩

/-- And so is what a block gets its state from. -/
theorem StateRef.Turned.cons {ref ref' ref'' : StateRef} (h : ref.Turned [s] ref')
    (h' : ref'.Turned steps ref'') : ref.Turned (s :: steps) ref'' := by
  cases h with
  | direct h =>
    cases h' with
    | direct h' => exact .direct (h.cons h')
  | material key =>
    cases h' with
    | material => exact .material key

end

/-! ## Parts of a plan that is moved -/

/-- A step turns a state. -/
theorem BlockState.turned_step (s : Step) (state : BlockState) : state.Turned [s] (state.step s) :=
  ⟨rfl, Properties.turned_properties s state.properties⟩

namespace StateRef

/-- A step turns what a block gets its state from. -/
theorem turned_step (s : Step) (ref : StateRef) : ref.Turned [s] (ref.step s) := by
  cases ref with
  | direct state => exact .direct (state.turned_step s)
  | material key => exact .material key

/-- Steps that keep all properties keep what a block gets its state from. -/
theorem turned_self {steps : List Step} (h : ∀ p : Properties, p.Turned steps p) (ref : StateRef) :
    ref.Turned steps ref := by
  cases ref with
  | direct state => exact .direct ⟨rfl, h state.properties⟩
  | material key => exact .material key

end StateRef

namespace Block

/-- A step turns a block, or is skipped. -/
theorem turned_moved (size : Size) (s : Step) (b : Block) : b.Turned size [s] (b.moved s size) := by
  rw [moved]
  split
  next h =>
    exact ⟨(Pos.step_of_isIdentity h b.pos).symm,
      StateRef.turned_self (Properties.turned_of_isIdentity h) b.state⟩
  next => exact ⟨rfl, b.state.turned_step s⟩

/-- Without a step a block is what it is. -/
theorem turned_nil (size : Size) (b : Block) : b.Turned size [] b :=
  ⟨rfl, StateRef.turned_self Properties.turned_nil b.state⟩

/-- A block turned by a step and by others is turned by all of them. -/
theorem Turned.cons {size : Size} {s : Step} {steps : List Step} {b b' b'' : Block}
    (h : b.Turned size [s] b') (h' : b'.Turned (size.step s) steps b'') :
    b.Turned size (s :: steps) b'' := by
  refine ⟨?_, h.state.cons h'.state⟩
  rw [h'.pos, h.pos]
  rfl

end Block

namespace Jigsaw

/-- A step turns a connector, or is skipped. -/
theorem turned_moved (size : Size) (s : Step) (j : Jigsaw) :
    j.Turned size [s] (j.moved s size) := by
  rw [moved]
  split
  next h =>
    exact ⟨(Pos.step_of_isIdentity h j.pos).symm,
      orientationTurned_of_fixed (Direction.after_of_isIdentity h) j.orientation,
      rfl, Properties.turned_of_isIdentity h j.finalState.properties⟩
  next => exact ⟨rfl, orientationTurned_step s j.orientation, j.finalState.turned_step s⟩

/-- Without a step a connector is what it is. -/
theorem turned_nil (size : Size) (j : Jigsaw) : j.Turned size [] j :=
  ⟨rfl, orientationTurned_of_fixed (fun _ => rfl) j.orientation,
    rfl, j.finalState.properties.turned_nil⟩

/-- A connector turned by a step and by others is turned by all of them. -/
theorem Turned.cons {size : Size} {s : Step} {steps : List Step} {j j' j'' : Jigsaw}
    (h : j.Turned size [s] j') (h' : j'.Turned (size.step s) steps j'') :
    j.Turned size (s :: steps) j'' := by
  refine ⟨?_, h.orientation.cons h'.orientation, h.finalState.cons h'.finalState⟩
  rw [h'.pos, h.pos]
  rfl

end Jigsaw

namespace Plan

/-- What a step does to every part of a plan, and what follows for further steps from the first of
them, holds between the parts of a plan and its parts after the steps. -/
theorem forall₂_after {α : Type} {parts : Plan → List α} {f : Step → Size → α → α}
    {r : Size → List Step → α → α → Prop}
    (hparts : ∀ s p, parts (p.step s) = (parts p).map (f s p.size))
    (hnil : ∀ size a, r size [] a a)
    (hcons : ∀ size s steps a a'', r (size.step s) steps (f s size a) a'' →
      r size (s :: steps) a a'') (steps : List Step) (p : Plan) :
    List.Forall₂ (r p.size steps) (parts p) (parts (p.after steps)) := by
  induction steps generalizing p with
  | nil => exact List.forall₂_same.2 fun a _ => hnil p.size a
  | cons s steps ih =>
    have hrest := ih (p.step s)
    rw [hparts, List.forall₂_map_left_iff, size_step] at hrest
    exact hrest.imp (hcons p.size s steps)

/-- The blocks of a plan are turned, each by itself. -/
theorem blocks_turned (steps : List Step) (p : Plan) :
    List.Forall₂ (Block.Turned p.size steps) p.blocks (p.after steps).blocks := by
  apply forall₂_after (f := Block.moved) blocks_step Block.turned_nil
  intro size s steps b b'' h
  exact (b.turned_moved size s).cons h

/-- The connectors of a plan are turned, each by itself. -/
theorem jigsaws_turned (steps : List Step) (p : Plan) :
    List.Forall₂ (Jigsaw.Turned p.size steps) p.jigsaws (p.after steps).jigsaws := by
  apply forall₂_after (f := Jigsaw.moved) jigsaws_step Jigsaw.turned_nil
  intro size s steps j j'' h
  exact (j.turned_moved size s).cons h

/-- What points somewhere, and the cells that it points at, after some steps. -/
structure Pointing (steps : List Step) : Prop where
  /-- a neighbour of a cell in a direction becomes the one in the direction that it becomes -/
  direction : ∀ (f : Footprint Int) (q : Vec3 Int) (d : Direction),
    (q + d.unit).after f steps = q.after f steps + (d.after steps).unit
  /-- the line through a cell along an axis becomes the one along the axis that it becomes -/
  axis : ∀ (f : Footprint Int) (q : Vec3 Int) (a : Axis),
    Vec3.after f steps '' a.line q = (a.after steps).line (q.after f steps)
  /-- the point that a heading leads to becomes the one that the heading it becomes leads to -/
  heading : ∀ (f : Footprint ℝ) (q : Vec3 ℝ) (v : Heading),
    (q + v.compass).after f steps = q.after f steps + (v.after steps).compass
  /-- the headings of the four horizontal directions lead the way that the directions do -/
  compass : ∀ (d : Direction) (v : Heading), Heading.ofDirection? d = some v →
    v.compass = d.unit.map Int.cast
  /-- the cells of a plan are moved like this, with coordinates that are read again as words -/
  words : ∀ (size : Size) (q : Pos), q.after size steps =
    Vec3.map Int32.ofInt (Vec3.after size.ends steps (q.map Int32.toInt))
  /-- in the box of the plan the words are the coordinates -/
  coordinates : ∀ (size : Size) (q : Pos), size.Contains q →
    (q.after size steps).map Int32.toInt = Vec3.after size.ends steps (q.map Int32.toInt)
  /-- every block of every plan is turned -/
  blocks : ∀ p : Plan,
    List.Forall₂ (Block.Turned p.size steps) p.blocks (p.after steps).blocks
  /-- and so is every connector -/
  jigsaws : ∀ p : Plan,
    List.Forall₂ (Jigsaw.Turned p.size steps) p.jigsaws (p.after steps).jigsaws

/-- **What points somewhere is turned as the cells are moved.** Whatever the far ends are, steps
move the neighbour of a cell in a direction to the neighbour in the direction that it becomes, the
line along an axis to the line along the axis that it becomes, and the point that a heading leads
to, on a compass with south, west, north and east at right angles, to the point that the heading it
becomes leads to. The cells of a plan are moved like this in words, and without overflow in the box.
And every block and every connector is turned so: what it faces, the sides that it says something
of, its axis, its heading, and the directions of its orientation. -/
theorem pointing (steps : List Step) : Pointing steps where
  direction f q d := Direction.after_add_unit f steps q d
  axis f q a := Axis.image_line f steps a q
  heading f q v := Heading.after_add_compass f steps q v
  compass _ _ h := Heading.compass_ofDirection? h
  words size q := Pos.after_eq_map size steps q
  coordinates _ _ h := Pos.map_after h steps
  blocks p := p.blocks_turned steps
  jigsaws p := p.jigsaws_turned steps

/-- A quarter turn and a flip of `z` take the stair of the yard, which faces east, from the corner
at the origin to the opposite one. It faces north there. -/
theorem pointing_yard :
    let steps : List Step := [.rotate .deg90, .mirror .leftRight]
    Direction.after steps .east = .north ∧
    ∃ b ∈ (yard.after steps).blocks, b.pos = ⟨2, 0, 1⟩ ∧
      ∃ state, b.state = .direct state ∧
        state.properties.get? "facing" = some (.string "north") := by
  intro steps
  obtain ⟨b, rest, hstair, -, hblocks⟩ :=
    List.forall₂_cons_left_iff.1 ((pointing steps).blocks yard)
  refine ⟨rfl, b, ?_, hstair.pos.trans (by decide), ?_⟩
  · rw [hblocks]
    exact List.mem_cons_self
  · obtain ⟨pos, state, template⟩ := b
    cases hstair.state with
    | direct hstate => exact ⟨_, rfl, hstate.properties.facing "facing" (by decide) .east rfl⟩

end Plan

end Blueprint
