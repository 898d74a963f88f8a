import Blueprint.Symmetry
import Blueprint.Vec3

/-!
# Moving points with the box

A step turns the box of a structure about the vertical axis or mirrors it, and every point
of the box moves along. A coordinate that changes its end is subtracted from the far end
of its axis: from the last cell when cells are moved, from the full extent when points
between the cells are moved. `Footprint` holds these two far ends, so the same formulas
serve both, over any coordinates that can be subtracted.
-/

namespace Blueprint

universe u

/-- The far ends of the two horizontal axes. -/
structure Footprint (α : Type u) where
  /-- the far end along `x` -/
  x : α
  /-- the far end along `z` -/
  z : α
deriving DecidableEq, Repr

namespace Footprint

/-- The far ends after a turn. -/
def rotate {α : Type u} (r : Rotation) (f : Footprint α) : Footprint α :=
  if r.swapsAxes then ⟨f.z, f.x⟩ else f

/-- The far ends after a step; a mirror keeps them. -/
def step {α : Type u} (s : Step) (f : Footprint α) : Footprint α :=
  match s with
  | .rotate r => f.rotate r
  | .mirror _ => f

end Footprint

namespace Vec3

variable {α : Type u} [Sub α]

/-- The point after a clockwise turn of the box with these far ends. -/
def rotate (f : Footprint α) (r : Rotation) (p : Vec3 α) : Vec3 α :=
  match r with
  | .deg0 => p
  | .deg90 => ⟨f.z - p.z, p.y, p.x⟩
  | .deg180 => ⟨f.x - p.x, p.y, f.z - p.z⟩
  | .deg270 => ⟨p.z, p.y, f.x - p.x⟩

/-- The point after mirroring the box with these far ends. -/
def mirror (f : Footprint α) (m : Mirror) (p : Vec3 α) : Vec3 α :=
  match m with
  | .off => p
  | .leftRight => ⟨p.x, p.y, f.z - p.z⟩
  | .frontBack => ⟨f.x - p.x, p.y, p.z⟩

/-- The point after a step of the box with these far ends. -/
def step (f : Footprint α) (s : Step) (p : Vec3 α) : Vec3 α :=
  match s with
  | .rotate r => p.rotate f r
  | .mirror m => p.mirror f m

end Vec3

namespace Size

/-- The extent after a step: a quarter turn exchanges width and length. -/
def step (s : Step) (size : Size) : Size :=
  match s with
  | .rotate r => if r.swapsAxes then ⟨size.l, size.h, size.w⟩ else size
  | .mirror _ => size

/-- The last cells along the two horizontal axes. -/
def lastCells (size : Size) : Footprint Int32 := ⟨size.w - 1, size.l - 1⟩

end Size

/-- The cell that a cell of the box becomes; `size` is the extent before the step. -/
def Pos.step (size : Size) (s : Step) (p : Pos) : Pos := Vec3.step size.lastCells s p

end Blueprint
