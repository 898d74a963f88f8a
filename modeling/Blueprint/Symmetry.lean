import Blueprint.Text.Numeral

/-!
# Symmetries of the footprint

Seen from above, a structure can be turned by quarter turns clockwise and mirrored across
either horizontal axis. `Rotation` and `Mirror` name these moves, `Step` is one of them.

Conventions: north is `-z` and east is `+x`. The mirror `leftRight` flips `z`, so it
exchanges north and south; `frontBack` flips `x` and exchanges east and west.
-/

namespace Blueprint

/-! ## Rotations -/

/-- A clockwise turn about the vertical axis. -/
inductive Rotation where
  | deg0
  | deg90
  | deg180
  | deg270
deriving DecidableEq, Repr, Inhabited

namespace Rotation

/-- The number of quarter turns. -/
def quarterTurns : Rotation → Nat
  | deg0 => 0
  | deg90 => 1
  | deg180 => 2
  | deg270 => 3

/-- The turn made of `n` quarter turns; four of them are none. -/
def ofQuarterTurns (n : Nat) : Rotation :=
  match n % 4 with
  | 0 => deg0
  | 1 => deg90
  | 2 => deg180
  | _ => deg270

/-- The angle in degrees. -/
def degrees (r : Rotation) : Nat := 90 * r.quarterTurns

/-- One turn after another. -/
def followedBy (r s : Rotation) : Rotation := ofQuarterTurns (r.quarterTurns + s.quarterTurns)

/-- The turn that undoes this one. -/
def inverse (r : Rotation) : Rotation := ofQuarterTurns (4 - r.quarterTurns)

/-- Whether the turn exchanges the two horizontal axes. -/
def swapsAxes (r : Rotation) : Bool := r.quarterTurns % 2 == 1

/-- The angle as a setting or a message shows it. -/
def text (r : Rotation) : String := toString r.degrees

@[simp] theorem ofQuarterTurns_quarterTurns (r : Rotation) :
    ofQuarterTurns r.quarterTurns = r := by cases r <;> rfl

@[simp] theorem followedBy_inverse (r : Rotation) : r.followedBy r.inverse = deg0 := by
  cases r <;> rfl

end Rotation

/-! ## Mirrors -/

/-- A reflection in a vertical plane, or none. -/
inductive Mirror where
  | off
  | leftRight
  | frontBack
deriving DecidableEq, Repr, Inhabited

/-- The name of a mirror as a setting or a message shows it. -/
def Mirror.text : Mirror → String
  | off => "none"
  | leftRight => "left_right"
  | frontBack => "front_back"

/-! ## Reading them as settings -/

/-- A setting that names no symmetry. -/
inductive Symmetry.SettingError where
  /-- not one of the four angles -/
  | rotation (given : String)
  /-- not one of the three mirrors -/
  | mirror (given : String)
deriving DecidableEq, Repr

/-- What is wrong with the setting. -/
def Symmetry.SettingError.message : Symmetry.SettingError → String
  | rotation given => s!"rotation must be one of 0, 90, 180, 270 (got '{given}')"
  | mirror given => s!"mirror must be one of none, left_right, front_back (got '{given}')"

/-- The turn by an angle in degrees, for the four angles below a full turn. -/
def Rotation.ofDegrees? : Nat → Option Rotation
  | 0 => some deg0
  | 90 => some deg90
  | 180 => some deg180
  | 270 => some deg270
  | _ => none

/-- Reads an angle, written as a 16-bit number. -/
def Rotation.parse (text : String) : Except Symmetry.SettingError Rotation :=
  match (Text.natural? UInt16.size text.toList).bind ofDegrees? with
  | some r => .ok r
  | none => .error (.rotation text)

/-- Reads the name of a mirror. -/
def Mirror.parse (text : String) : Except Symmetry.SettingError Mirror :=
  match text with
  | "none" => .ok off
  | "left_right" => .ok leftRight
  | "front_back" => .ok frontBack
  | _ => .error (.mirror text)

/-! ## Steps -/

/-- One move of a structure. -/
inductive Step where
  | rotate (r : Rotation)
  | mirror (m : Mirror)
deriving DecidableEq, Repr

/-- The step changes nothing. -/
def Step.isIdentity : Step → Bool
  | rotate .deg0 => true
  | mirror .off => true
  | _ => false

end Blueprint
