import Blueprint.Footprint
import Blueprint.Proofs.Direction
import Mathlib.Analysis.SpecialFunctions.Trigonometric.Angle
import Mathlib.Tactic.Abel

/-!
# Pointing along with the box

There are three tables of what a block can point at, and each of them stands for something in space:

* a direction for the way to the next cell (`Direction.unit`);
* an axis for the line through the cell along it (`Axis.line`);
* a heading for a vector of length one on the compass (`Heading.compass`).

The tables turn the names. The box turns the points, and what leads from one point to another is
turned as a point is when the far ends are the origin (`Vec3.step_add`). Both agree in every step,
and so in any sequence of steps: whatever a block points at before, it points at afterwards.
-/

namespace Blueprint

universe u v

/-! ## Points and vectors -/

namespace Vec3

variable {α : Type u} {β : Type v}

/-- The point that the vector leads to. -/
instance [Add α] : Add (Vec3 α) := ⟨fun p v => ⟨p.x + v.x, p.y + v.y, p.z + v.z⟩⟩

section

variable [Sub α]

/-- The point after the steps, each taken with the far ends before it. -/
def after : Footprint α → List Step → Vec3 α → Vec3 α
  | _, [], p => p
  | f, s :: steps, p => after (f.step s) steps (p.step f s)

@[simp] theorem after_nil (f : Footprint α) (p : Vec3 α) : p.after f [] = p := rfl

@[simp] theorem after_cons (f : Footprint α) (s : Step) (steps : List Step) (p : Vec3 α) :
    p.after f (s :: steps) = (p.step f s).after (f.step s) steps := rfl

/-- The vector after a step: it is moved as a point whose far ends are the origin. -/
def turn [Zero α] (s : Step) (v : Vec3 α) : Vec3 α := v.step ⟨0, 0⟩ s

end

theorem add_eq [Add α] (p v : Vec3 α) : p + v = ⟨p.x + v.x, p.y + v.y, p.z + v.z⟩ := rfl

section

variable [AddCommGroup α] (f : Footprint α) (s : Step)

/-- **What leads from one point to another is turned with them.** -/
theorem step_add (p v : Vec3 α) : (p + v).step f s = p.step f s + v.turn s := by
  have hsub (a b c : α) : a - (b + c) = a - b + (0 - c) := by abel
  cases s with
  | rotate r => cases r <;> simp only [turn, step, rotate, add_eq, hsub]
  | mirror m => cases m <;> simp only [turn, step, mirror, add_eq, hsub]

/-- Every point is where a step has moved some point. -/
theorem step_surjective : Function.Surjective (step f s) := by
  intro q
  refine ⟨q.step (f.step s) s.inverse, ?_⟩
  cases s with
  | rotate r =>
    cases r <;>
      simp [step, rotate, Footprint.step, Footprint.rotate, Step.inverse, Rotation.inverse,
        Rotation.ofQuarterTurns, Rotation.quarterTurns, Rotation.swapsAxes]
  | mirror m => cases m <;> simp [step, mirror, Footprint.step, Step.inverse]

/-- Every point is one that the steps lead to. -/
theorem after_surjective (f : Footprint α) (steps : List Step) :
    Function.Surjective (after f steps) := by
  induction steps generalizing f with
  | nil => exact Function.surjective_id
  | cons s steps ih => exact (ih (f.step s)).comp (step_surjective f s)

end

/-- If the steps turn the vectors as they turn what the vectors stand for, then they move the
points that the vectors lead to alike. -/
theorem after_add [AddCommGroup α] {vector : β → Vec3 α} {move : Step → β → β}
    (h : ∀ s b, (vector b).turn s = vector (move s b)) (f : Footprint α) (steps : List Step)
    (p : Vec3 α) (b : β) : (p + vector b).after f steps =
      p.after f steps + vector (steps.foldl (fun b s => move s b) b) := by
  induction steps generalizing f p b with
  | nil => rfl
  | cons s steps ih =>
    rw [after_cons, step_add, h, ih]
    rfl

end Vec3

/-! ## Directions -/

namespace Direction

/-- The direction after the steps. -/
def after (steps : List Step) (d : Direction) : Direction :=
  steps.foldl (fun d s => s.direction d) d

@[simp] theorem after_nil (d : Direction) : d.after [] = d := rfl

@[simp] theorem after_cons (s : Step) (steps : List Step) (d : Direction) :
    d.after (s :: steps) = (s.direction d).after steps := rfl

/-- The way from a cell to its neighbour in that direction. -/
def unit : Direction → Vec3 Int
  | north => ⟨0, 0, -1⟩
  | east => ⟨1, 0, 0⟩
  | south => ⟨0, 0, 1⟩
  | west => ⟨-1, 0, 0⟩
  | up => ⟨0, 1, 0⟩
  | down => ⟨0, -1, 0⟩

/-- The unit of a direction is turned to that of what the direction becomes. -/
theorem turn_unit (s : Step) (d : Direction) : d.unit.turn s = (s.direction d).unit := by
  cases s with
  | rotate r => cases r <;> cases d <;> rfl
  | mirror m => cases m <;> cases d <;> rfl

/-- **The neighbour in a direction becomes the neighbour in the direction that it becomes.** -/
theorem after_add_unit (f : Footprint Int) (steps : List Step) (p : Vec3 Int) (d : Direction) :
    (p + d.unit).after f steps = p.after f steps + (d.after steps).unit :=
  Vec3.after_add turn_unit f steps p d

end Direction

/-! ## Axes -/

namespace Axis

/-- The axis after the steps. -/
def after (steps : List Step) (a : Axis) : Axis := steps.foldl (fun a s => s.axis a) a

/-- The points on the line along the axis through `p`: only one coordinate may be another. -/
def line (a : Axis) (p : Vec3 Int) : Set (Vec3 Int) :=
  {q | (a = x ∨ q.x = p.x) ∧ (a = y ∨ q.y = p.y) ∧ (a = z ∨ q.z = p.z)}

/-- A step keeps what is on a line on it, and what is not off it. -/
theorem step_mem_line (f : Footprint Int) (s : Step) {a : Axis} {p q : Vec3 Int} :
    q.step f s ∈ (s.axis a).line (p.step f s) ↔ q ∈ a.line p := by
  have hsub (n i j : Int) : n - i = n - j ↔ i = j := sub_right_inj
  cases s with
  | rotate r =>
    cases r <;> cases a <;>
      simp [line, Step.axis, rotate, Rotation.swapsAxes, Rotation.quarterTurns, Vec3.step,
        Vec3.rotate, and_comm]
  | mirror m => cases m <;> cases a <;> simp [line, Step.axis, Vec3.step, Vec3.mirror]

/-- So do several steps. -/
theorem after_mem_line (f : Footprint Int) (steps : List Step) {a : Axis} {p q : Vec3 Int} :
    q.after f steps ∈ (a.after steps).line (p.after f steps) ↔ q ∈ a.line p := by
  induction steps generalizing f a p q with
  | nil => exact Iff.rfl
  | cons s steps ih => exact (ih (f.step s)).trans (step_mem_line f s)

/-- **A line becomes the line along the axis that its axis becomes.** -/
theorem image_line (f : Footprint Int) (steps : List Step) (a : Axis) (p : Vec3 Int) :
    Vec3.after f steps '' a.line p = (a.after steps).line (p.after f steps) := by
  ext q
  constructor
  · rintro ⟨q, hq, rfl⟩
    exact (after_mem_line f steps).2 hq
  · intro hq
    obtain ⟨q, rfl⟩ := Vec3.after_surjective f steps q
    exact ⟨q, (after_mem_line f steps).1 hq, rfl⟩

end Axis

/-! ## Headings -/

namespace Heading

open Real

/-- The heading that points as a horizontal direction does. -/
def ofDirection? : Direction → Option Heading
  | .south => some ⟨0, by decide⟩
  | .west => some ⟨4, by decide⟩
  | .north => some ⟨8, by decide⟩
  | .east => some ⟨12, by decide⟩
  | _ => none

/-- The heading after the steps. -/
def after (steps : List Step) (v : Heading) : Heading := steps.foldl (fun v s => s.heading v) v

/-- The angle between a heading and the one before it: sixteen of them are a full turn. -/
noncomputable def oneStep : Angle := (π / 8 : ℝ)

/-- The angle of a heading, clockwise from south. -/
noncomputable def angle (v : Heading) : Angle := v.val • oneStep

/-- The vector of length one that the heading stands for. -/
noncomputable def compass (v : Heading) : Vec3 ℝ := ⟨-v.angle.sin, 0, v.angle.cos⟩

/-- From one heading to the fourth after it is a quarter turn. -/
theorem quarter : 4 • oneStep = (π / 2 : ℝ) := by
  rw [oneStep, ← Angle.coe_nsmul]
  congr 1
  rw [nsmul_eq_mul]
  ring

/-- To the eighth after it is a half turn. -/
theorem half : 8 • oneStep = (π : ℝ) := by
  rw [oneStep, ← Angle.coe_nsmul]
  congr 1
  rw [nsmul_eq_mul]
  ring

/-- And the sixteenth after it is the heading again. -/
theorem full : 16 • oneStep = 0 := by
  rw [show 16 = 2 * 8 from rfl, mul_nsmul', half, Angle.two_nsmul_coe_pi]

/-- The angle of a number of headings: full turns among them do not count. -/
theorem angle_ofNat (n : Nat) : angle (Fin.ofNat 16 n) = n • oneStep := by
  have hturns : n • oneStep = (n % 16) • oneStep + (n / 16) • 16 • oneStep := by
    rw [← mul_nsmul', ← add_nsmul, Nat.mod_add_div']
  rw [hturns, full, nsmul_zero, add_zero]
  rfl

/-- Angles are added as headings are. -/
theorem angle_add (v w : Heading) : (v + w).angle = v.angle + w.angle := by
  have hsum := angle_ofNat (v.val + w.val)
  rwa [add_nsmul] at hsum

/-- The other way round the angle is the opposite one. -/
theorem angle_neg (v : Heading) : (-v).angle = -v.angle := by
  apply eq_neg_of_add_eq_zero_left
  rw [← angle_add, neg_add_cancel]
  exact zero_nsmul oneStep

/-- Four of the headings point as the horizontal directions do. -/
theorem compass_ofDirection? {d : Direction} {v : Heading} (h : ofDirection? d = some v) :
    v.compass = d.unit.map Int.cast := by
  have hzero : angle ⟨0, by decide⟩ = 0 := zero_nsmul oneStep
  have hfour : angle ⟨4, by decide⟩ = (π / 2 : ℝ) := quarter
  have height : angle ⟨8, by decide⟩ = (π : ℝ) := half
  have htwelve : angle ⟨12, by decide⟩ = (π / 2 : ℝ) + (π : ℝ) := by
    rw [← hfour, ← height, ← angle_add]
    rfl
  cases d <;> cases h
  · rw [compass, height]
    simp [Direction.unit, Vec3.map]
  · rw [compass, htwelve]
    simp [Direction.unit, Vec3.map]
  · rw [compass, hzero]
    simp [Direction.unit, Vec3.map]
  · rw [compass, hfour]
    simp [Direction.unit, Vec3.map]

/-- A turn by quarters adds as many right angles. -/
theorem angle_rotate (r : Rotation) (v : Heading) :
    (rotate r v).angle = v.angle + r.quarterTurns • ((π / 2 : ℝ) : Angle) := by
  rw [rotate, angle_add, angle_ofNat, mul_nsmul, quarter]

/-- A flip of `x` turns the compass the other way around. -/
theorem angle_frontBack (v : Heading) : (mirror .frontBack v).angle = -v.angle := v.angle_neg

/-- A flip of `z` does so from north. -/
theorem angle_leftRight (v : Heading) : (mirror .leftRight v).angle = -v.angle + (π : ℝ) := by
  rw [mirror, sub_eq_add_neg, angle_add, angle_neg, add_comm, ← half]
  rfl

/-- The compass point of a heading is turned to that of what the heading becomes. -/
theorem turn_compass (s : Step) (v : Heading) : v.compass.turn s = (s.heading v).compass := by
  cases s with
  -- a quarter turn adds a quarter to the angle
  | rotate r =>
    have hangle := angle_rotate r v
    rw [compass, compass, Step.heading, hangle]
    cases r with
    | deg0 => simp [Vec3.turn, Vec3.step, Vec3.rotate, Rotation.quarterTurns]
    | deg90 =>
      simp [Vec3.turn, Vec3.step, Vec3.rotate, Rotation.quarterTurns, Angle.sin_add_pi_div_two,
        Angle.cos_add_pi_div_two]
    | deg180 => simp [Vec3.turn, Vec3.step, Vec3.rotate, Rotation.quarterTurns]
    | deg270 =>
      have hthree : 3 • ((π / 2 : ℝ) : Angle) = (π : ℝ) + (π / 2 : ℝ) := by
        rw [succ_nsmul, Angle.two_nsmul_coe_div_two]
      simp [Vec3.turn, Vec3.step, Vec3.rotate, Rotation.quarterTurns, hthree, ← add_assoc,
        Angle.sin_add_pi_div_two, Angle.cos_add_pi_div_two]
  | mirror m =>
    -- a flip takes the angle to its opposite, counted from north or from south
    cases m with
    | off => rfl
    | leftRight =>
      rw [compass, compass, Step.heading, angle_leftRight]
      simp [Vec3.turn, Vec3.step, Vec3.mirror]
    | frontBack =>
      rw [compass, compass, Step.heading, angle_frontBack]
      simp [Vec3.turn, Vec3.step, Vec3.mirror]

/-- **The point that a heading leads to becomes the point that the heading it becomes leads to.** -/
theorem after_add_compass (f : Footprint ℝ) (steps : List Step) (p : Vec3 ℝ) (v : Heading) :
    (p + v.compass).after f steps = p.after f steps + (v.after steps).compass :=
  Vec3.after_add turn_compass f steps p v

end Heading

end Blueprint
