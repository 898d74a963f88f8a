import Blueprint.Binary64
import Blueprint.Footprint

/-!
# Placements

An entity keeps the point it was authored at together with all the steps taken since, so
that rounding happens once and not at every step. Any sequence of steps comes to an
optional flip of `x` followed by one turn, and that is what a `Placement` records. Each
placed coordinate then takes at most one subtraction.
-/

namespace Blueprint

universe u

/-- What a sequence of steps did to a box of the given width and length. -/
structure Placement where
  /-- the width before all steps -/
  width : Int32
  /-- the length before all steps -/
  length : Int32
  /-- whether `x` is flipped first -/
  flipX : Bool
  /-- the turn after that -/
  rotation : Rotation
deriving DecidableEq, Repr, Inhabited

namespace Placement

/-- No step yet. -/
def identity (size : Size) : Placement := ⟨size.w, size.l, false, .deg0⟩

/-- The placement after one more step. Moving a flip of `x` in front of a turn inverts the
turn, and a flip of `z` is a flip of `x` followed by a half turn. -/
def step (s : Step) (p : Placement) : Placement :=
  match s with
  | .rotate r => { p with rotation := p.rotation.followedBy r }
  | .mirror .off => p
  | .mirror .frontBack => { p with flipX := !p.flipX, rotation := p.rotation.inverse }
  | .mirror .leftRight =>
    { p with flipX := !p.flipX, rotation := p.rotation.inverse.followedBy .deg180 }

/-- The extents of the box as coordinates. -/
def span {α : Type u} (coordinate : Int32 → α) (p : Placement) : Footprint α :=
  ⟨coordinate p.width, coordinate p.length⟩

/-- Where the placement puts a point of the box with the far ends `f`. -/
def applyIn {α : Type u} [Sub α] (f : Footprint α) (p : Placement) (v : Vec3 α) : Vec3 α :=
  match p.flipX, p.rotation with
  | false, .deg0 => v
  | false, .deg90 => ⟨f.z - v.z, v.y, v.x⟩
  | false, .deg180 => ⟨f.x - v.x, v.y, f.z - v.z⟩
  | false, .deg270 => ⟨v.z, v.y, f.x - v.x⟩
  | true, .deg0 => ⟨f.x - v.x, v.y, v.z⟩
  | true, .deg90 => ⟨f.z - v.z, v.y, f.x - v.x⟩
  | true, .deg180 => ⟨v.x, v.y, f.z - v.z⟩
  | true, .deg270 => ⟨v.z, v.y, v.x⟩

/-- Where the placement puts an authored point. -/
def apply (p : Placement) (v : Vec3 Binary64) : Vec3 Binary64 :=
  p.applyIn (p.span Binary64.ofWord) v

end Placement

end Blueprint
