import Blueprint.Symmetry
import Blueprint.Text.Split

/-!
# Directions, axes and headings

How a step changes what a block can point at: one of six directions, one of three axes,
one of sixteen headings, or a connector orientation written as two directions. These
maps agree with the way positions move, so a block keeps facing the same neighbour.
-/

namespace Blueprint

/-! ## Directions -/

/-- The direction from a cell to a neighbour. -/
inductive Direction where
  | north
  | east
  | south
  | west
  | up
  | down
deriving DecidableEq, Repr

namespace Direction

/-- The name of a direction. -/
def text : Direction → String
  | north => "north"
  | east => "east"
  | south => "south"
  | west => "west"
  | up => "up"
  | down => "down"

/-- The direction of that name. -/
def ofText? : String → Option Direction
  | "north" => some north
  | "east" => some east
  | "south" => some south
  | "west" => some west
  | "up" => some up
  | "down" => some down
  | _ => none

@[simp] theorem ofText?_text (d : Direction) : ofText? d.text = some d := by
  cases d <;> rfl

/-- A name that is read as a direction is the name of the direction. -/
theorem text_of_ofText? {name : String} {d : Direction} (h : ofText? name = some d) :
    d.text = name := by
  unfold ofText? at h
  split at h <;> cases h <;> rfl

/-- The next direction clockwise; up and down stay. -/
def clockwise : Direction → Direction
  | north => east
  | east => south
  | south => west
  | west => north
  | up => up
  | down => down

/-- The direction after a turn. -/
def rotate (r : Rotation) (d : Direction) : Direction :=
  match r with
  | .deg0 => d
  | .deg90 => d.clockwise
  | .deg180 => d.clockwise.clockwise
  | .deg270 => d.clockwise.clockwise.clockwise

/-- The direction in the mirror. -/
def mirror (m : Mirror) (d : Direction) : Direction :=
  match m, d with
  | .leftRight, north => south
  | .leftRight, south => north
  | .frontBack, east => west
  | .frontBack, west => east
  | _, d => d

end Direction

/-! ## Axes -/

/-- A line through a cell. -/
inductive Axis where
  | x
  | y
  | z
deriving DecidableEq, Repr

namespace Axis

/-- The name of an axis. -/
def text : Axis → String
  | x => "x"
  | y => "y"
  | z => "z"

/-- The axis of that name. -/
def ofText? : String → Option Axis
  | "x" => some x
  | "y" => some y
  | "z" => some z
  | _ => none

@[simp] theorem ofText?_text (a : Axis) : ofText? a.text = some a := by cases a <;> rfl

/-- A name that is read as an axis is the name of the axis. -/
theorem text_of_ofText? {name : String} {a : Axis} (h : ofText? name = some a) :
    a.text = name := by
  unfold ofText? at h
  split at h <;> cases h <;> rfl

/-- The axis after a turn. -/
def rotate (r : Rotation) (a : Axis) : Axis :=
  match r.swapsAxes, a with
  | true, x => z
  | true, z => x
  | _, a => a

end Axis

/-! ## Headings -/

/-- One of sixteen headings: 0 is south, 4 west, 8 north, 12 east, and the others stand
between them clockwise. -/
abbrev Heading := Fin 16

namespace Heading

/-- The heading after a turn: a quarter turn is four headings. -/
def rotate (r : Rotation) (v : Heading) : Heading := v + Fin.ofNat 16 (4 * r.quarterTurns)

/-- The heading in the mirror. -/
def mirror (m : Mirror) (v : Heading) : Heading :=
  match m with
  | .off => v
  | .leftRight => 8 - v
  | .frontBack => -v

end Heading

/-! ## Steps on them -/

namespace Step

/-- The direction after the step. -/
def direction : Step → Direction → Direction
  | rotate r, d => d.rotate r
  | mirror m, d => d.mirror m

/-- The axis after the step; a mirror keeps every axis. -/
def axis : Step → Axis → Axis
  | rotate r, a => a.rotate r
  | mirror _, a => a

/-- The heading after the step. -/
def heading : Step → Heading → Heading
  | rotate r, v => Heading.rotate r v
  | mirror m, v => Heading.mirror m v

/-- The name of a direction after the step; any other text is kept. -/
def directionName (s : Step) (name : String) : String :=
  match Direction.ofText? name with
  | some d => (s.direction d).text
  | none => name

/-- The name of an axis after the step; any other text is kept. -/
def axisName (s : Step) (name : String) : String :=
  match Axis.ofText? name with
  | some a => (s.axis a).text
  | none => name

/-- A connector orientation such as `north_up` after the step: the texts before and after
the first underscore are each mapped. Without an underscore nothing changes. -/
def orientationName (s : Step) (name : String) : String :=
  match Text.splitFirst '_' name.toList with
  | some (front, top) =>
    s.directionName (String.ofList front) ++ "_" ++ s.directionName (String.ofList top)
  | none => name

end Step

end Blueprint
