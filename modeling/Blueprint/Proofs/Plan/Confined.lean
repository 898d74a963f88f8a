import Blueprint.Proofs.Plan.Bounds
import Blueprint.Proofs.Plan.Symmetry
import Mathlib.Data.Set.Function

/-!
# The box is moved onto the box

A step subtracts in words of 32 bits, and a quarter turn exchanges the two extents that it
subtracts from. Still no step overflows in its box, and together the cells of the box become the
cells of the new one: none leaves it, no two become one, and none of the new cells is left out
(`Size.bijOn_step`). Each of the steps of a sequence is such a step, of the box that those before
have left. So a plan fits its box after any steps if it does before them (`Plan.confined`).
-/

namespace Blueprint

/-! ## Boxes and cells after some steps -/

/-- The extent after the steps. -/
def Size.after (steps : List Step) (size : Size) : Size :=
  steps.foldl (fun size s => size.step s) size

/-- The cell that a cell of the box becomes, each step taken with the extent before it. -/
def Pos.after (size : Size) (steps : List Step) (q : Pos) : Pos := Step.run Pos.step size steps q

section

variable (s : Step) (steps : List Step) (size : Size) (q : Pos)

@[simp] theorem Size.after_nil : size.after [] = size := rfl

@[simp] theorem Size.after_cons : size.after (s :: steps) = (size.step s).after steps := rfl

@[simp] theorem Pos.after_nil : q.after size [] = q := rfl

@[simp] theorem Pos.after_cons :
    q.after size (s :: steps) = (q.step size s).after (size.step s) steps := rfl

end

/-! ## One step -/

/-- The step that undoes a step brings back the extent. -/
theorem Size.step_step_inverse (size : Size) (s : Step) : (size.step s).step s.inverse = size := by
  cases s with
  | rotate r => cases r <;> rfl
  | mirror m => rfl

/-- A cell that was brought back by the inverse of a step is moved there again by the step. -/
theorem Pos.step_inverse_step (size : Size) (s : Step) (q : Pos) :
    (q.step (size.step s) s.inverse).step size s = q := by
  cases s with
  | rotate r =>
    have hends : (size.step (.rotate r)).lastCells = size.lastCells.rotate r := by
      cases r <;> rfl
    have hback := Vec3.rotate_rotate_inverse size.lastCells r q
    rwa [← hends] at hback
  | mirror m => exact Vec3.mirror_mirror size.lastCells m q

/-- **A step moves the box onto the box that it becomes.** -/
theorem Size.bijOn_step (size : Size) (s : Step) :
    Set.BijOn (Pos.step size s) {q | size.Contains q} {q | (size.step s).Contains q} := by
  refine ⟨?_, ?_, ?_⟩
  · intro q hq
    exact contains_step hq s
  · exact (Pos.step_bijective size s).injective.injOn
  · intro q hq
    -- the step is undone by a step of the new box, and that one does not leave the old box
    refine ⟨q.step (size.step s) s.inverse, ?_, Pos.step_inverse_step size s q⟩
    have hback := contains_step hq s.inverse
    rwa [step_step_inverse] at hback

/-! ## Any number of steps -/

/-- **Steps move the box onto the box that it becomes.** -/
theorem Size.bijOn_after (size : Size) (steps : List Step) :
    Set.BijOn (Pos.after size steps) {q | size.Contains q} {q | (size.after steps).Contains q} := by
  induction steps generalizing size with
  | nil => exact Set.bijOn_id _
  | cons s steps ih => exact (ih (size.step s)).comp (size.bijOn_step s)

/-- No steps make two cells one. -/
theorem Pos.after_injective (size : Size) (steps : List Step) :
    Function.Injective (Pos.after size steps) :=
  Step.run_injective (fun size s => (Pos.step_bijective size s).injective) size steps

/-- No step of a sequence overflows in the box. -/
theorem Pos.movesExactly_after {size : Size} {q : Pos} (h : size.Contains q) (before : List Step)
    (s : Step) : (q.after size before).MovesExactly (size.after before) s :=
  Pos.movesExactly ((size.bijOn_after before).mapsTo h) s

/-! ## Plans -/

namespace Plan

/-- The cells of the parts of some kinds. -/
def cells (kinds : Placed → Bool) (p : Plan) : List Pos :=
  (p.positions.filter fun e => kinds e.1).map Prod.snd

/-- The extents of a plan take its steps. -/
theorem size_after (steps : List Step) (p : Plan) : (p.after steps).size = p.size.after steps := by
  induction steps generalizing p with
  | nil => rfl
  | cons s steps ih =>
    rw [Size.after_cons, ← size_step]
    exact ih (p.step s)

/-- Everything that has a position is moved as its cell is. -/
theorem positions_after (steps : List Step) (p : Plan) :
    (p.after steps).positions = p.positions.map fun e => (e.1, e.2.after p.size steps) := by
  induction steps generalizing p with
  | nil => exact (List.map_id' _).symm
  | cons s steps ih =>
    refine (ih (p.step s)).trans ?_
    rw [positions_step, size_step, List.map_map]
    rfl

/-- The cells of a plan take its steps. -/
theorem cells_after (kinds : Placed → Bool) (steps : List Step) (p : Plan) :
    (p.after steps).cells kinds = (p.cells kinds).map (Pos.after p.size steps) := by
  rw [cells, positions_after, List.filter_map, List.map_map, cells, List.map_map]
  rfl

/-- A plan that fits its box fits it after any steps. -/
theorem checkBounds_after {p : Plan} (h : p.checkBounds = .ok ()) (steps : List Step) :
    (p.after steps).checkBounds = .ok () := by
  induction steps generalizing p with
  | nil => exact h
  | cons s steps ih => exact ih (checkBounds_step h s)

/-- **Steps cannot lead out of the box.** Whatever the extents of the box are, no step of a sequence
overflows at a cell of it, and the sequence moves the cells of the box one to one onto the cells of
the box that it becomes. So a plan that fits its box fits it after the steps, and its parts of any
kinds stand in cells of their own exactly if they did before. -/
theorem confined (size : Size) (steps : List Step) :
    (∀ q, size.Contains q → ∀ before s after, steps = before ++ s :: after →
      (q.after size before).MovesExactly (size.after before) s) ∧
    Set.BijOn (Pos.after size steps) {q | size.Contains q} {q | (size.after steps).Contains q} ∧
    ∀ p : Plan, p.size = size →
      (p.after steps).size = size.after steps ∧
      (p.checkBounds = .ok () → (p.after steps).checkBounds = .ok ()) ∧
      ∀ kinds, (p.after steps).cells kinds = (p.cells kinds).map (Pos.after size steps) ∧
        (((p.after steps).cells kinds).Nodup ↔ (p.cells kinds).Nodup) := by
  refine ⟨?_, size.bijOn_after steps, ?_⟩
  · intro q hq before s after _
    exact Pos.movesExactly_after hq before s
  · rintro p rfl
    refine ⟨p.size_after steps, fun h => checkBounds_after h steps, fun kinds => ?_⟩
    have hcells := p.cells_after kinds steps
    refine ⟨hcells, ?_⟩
    rw [hcells]
    exact List.nodup_map_iff (Pos.after_injective p.size steps)

/-- A wall as long as a box may be, with a stone in each of its two far corners. -/
def longWall : Plan where
  id := none
  size := ⟨2147483647, 1, 5⟩
  blocks := [
    ⟨⟨0, 0, 0⟩, .direct ⟨"stone", .empty⟩, none⟩,
    ⟨⟨2147483646, 0, 4⟩, .direct ⟨"stone", .empty⟩, none⟩]
  entities := []
  jigsaws := []
  jigsawPolicy := .unrestricted
  palettes := .empty
  tags := []

/-- A quarter turn and a flip of the long wall do not overflow at its far corner, which becomes the
corner at the origin. The wall fits the box that is now long the other way, with its stones in two
cells. -/
theorem confined_longWall :
    let steps : List Step := [.rotate .deg90, .mirror .leftRight]
    longWall.size.Contains ⟨2147483646, 0, 4⟩ ∧
    Pos.MovesExactly ⟨5, 1, 2147483647⟩ (.mirror .leftRight) ⟨0, 0, 2147483646⟩ ∧
    Pos.after longWall.size steps ⟨2147483646, 0, 4⟩ = ⟨0, 0, 0⟩ ∧
    (longWall.after steps).size = ⟨5, 1, 2147483647⟩ ∧
    longWall.checkBounds = .ok () ∧ (longWall.after steps).checkBounds = .ok () ∧
    ((longWall.after steps).cells fun _ => true).Nodup := by
  intro steps
  have hcorner : longWall.size.Contains ⟨2147483646, 0, 4⟩ := by decide
  have hfits : longWall.checkBounds = .ok () := rfl
  obtain ⟨hexact, -, hplan⟩ := confined longWall.size steps
  obtain ⟨hsize, hkept, hcells⟩ := hplan longWall rfl
  refine ⟨hcorner, ?_, by decide, hsize, hfits, hkept hfits, ?_⟩
  · exact hexact _ hcorner [.rotate .deg90] (.mirror .leftRight) [] rfl
  · exact (hcells fun _ => true).2.2 (by decide)

end Plan

end Blueprint
