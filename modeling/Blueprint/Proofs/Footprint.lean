import Blueprint.Footprint
import Mathlib.Logic.Function.Basic

/-!
# Cells move one to one

A step takes every cell to a cell of its own and leaves none out. This holds for all words,
also for cells outside the box: what is subtracted can be subtracted again.
-/

namespace Blueprint

/-- What is taken from a number twice is there again, with overflow or without. -/
theorem word_sub_sub_cancel (a b : Int32) : a - (a - b) = b := by grind

/-- Turning back after a turn leads to where the cell was. -/
theorem Vec3.rotate_inverse_rotate (f : Footprint Int32) (r : Rotation) (q : Pos) :
    (q.rotate f r).rotate (f.rotate r) r.inverse = q := by
  cases r <;>
    simp [Vec3.rotate, Footprint.rotate, Rotation.inverse, Rotation.ofQuarterTurns,
      Rotation.quarterTurns, Rotation.swapsAxes, word_sub_sub_cancel]

/-- A turn after turning back leads to where the cell was. -/
theorem Vec3.rotate_rotate_inverse (f : Footprint Int32) (r : Rotation) (q : Pos) :
    (q.rotate (f.rotate r) r.inverse).rotate f r = q := by
  cases r <;>
    simp [Vec3.rotate, Footprint.rotate, Rotation.inverse, Rotation.ofQuarterTurns,
      Rotation.quarterTurns, Rotation.swapsAxes, word_sub_sub_cancel]

/-- A mirror takes back what it did. -/
theorem Vec3.mirror_mirror (f : Footprint Int32) (m : Mirror) (q : Pos) :
    (q.mirror f m).mirror f m = q := by
  cases m <;> simp [Vec3.mirror, word_sub_sub_cancel]

namespace Pos

/-- A step takes the cells to cells one to one and leaves none out. -/
theorem step_bijective (size : Size) (s : Step) : Function.Bijective (Pos.step size s) := by
  cases s with
  | rotate r =>
    exact Function.bijective_iff_has_inverse.2
      ⟨fun q => q.rotate (size.lastCells.rotate r) r.inverse,
        Vec3.rotate_inverse_rotate _ r, Vec3.rotate_rotate_inverse _ r⟩
  | mirror m =>
    exact Function.bijective_iff_has_inverse.2
      ⟨fun q => q.mirror size.lastCells m, Vec3.mirror_mirror _ m, Vec3.mirror_mirror _ m⟩

/-- A step that changes nothing keeps every cell. -/
theorem step_of_isIdentity {size : Size} {s : Step} (h : s.isIdentity = true) (q : Pos) :
    Pos.step size s q = q := by
  cases s with
  | rotate r => cases r <;> first | rfl | cases h
  | mirror m => cases m <;> first | rfl | cases h

/-- The cell that a cell becomes when the box is turned and then mirrored. -/
def transform (size : Size) (r : Rotation) (m : Mirror) (q : Pos) : Pos :=
  Pos.step (size.step (.rotate r)) (.mirror m) (Pos.step size (.rotate r) q)

/-- A turn and a mirror lose no cell and reach every cell. -/
theorem transform_bijective (size : Size) (r : Rotation) (m : Mirror) :
    Function.Bijective (transform size r m) :=
  (step_bijective _ (.mirror m)).comp (step_bijective size (.rotate r))

end Pos

/-- The extent after a turn and a mirror. -/
def Size.transform (r : Rotation) (m : Mirror) (size : Size) : Size :=
  (size.step (.rotate r)).step (.mirror m)

/-- A step that changes nothing keeps the extents. -/
theorem Size.step_of_isIdentity {s : Step} (h : s.isIdentity = true) (size : Size) :
    size.step s = size := by
  cases s with
  | rotate r => cases r <;> first | rfl | cases h
  | mirror m => rfl

end Blueprint
