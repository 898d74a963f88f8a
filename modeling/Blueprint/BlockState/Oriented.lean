import Blueprint.BlockState
import Blueprint.Direction

/-!
# Properties that point somewhere

A step moves a block and turns what its properties say: `facing` and `horizontal_facing`
hold a direction, `axis` an axis, `rotation` a heading, `orientation` a connector
orientation, and `north`, `east`, `south`, `west` say something about one side, so the
*key* moves. A value that these tables do not know is kept as it is.
-/

namespace Blueprint

namespace Step

/-- The heading a number names, if it is one of the sixteen. -/
def heading? (n : Int) : Option Heading :=
  if h : 0 ≤ n ∧ n < 16 then some ⟨n.toNat, by omega⟩ else none

/-- A `rotation` value after the step, in the kind it was authored in. -/
def headingValue (s : Step) : PropertyValue → PropertyValue
  | .bool b => .bool b
  | .int n =>
    match heading? n.toInt with
    | some v => .int (Int64.ofNat (s.heading v).val)
    | none => .int n
  | .string text =>
    match (Text.integer? 0x8000000000000000 text.toList).bind heading? with
    | some v => .string (toString (s.heading v).val)
    | none => .string text

/-- One property after the step: its key and its value. -/
def property (s : Step) (key : String) (value : PropertyValue) : String × PropertyValue :=
  match key, value with
  | "facing", .string text => (key, .string (s.directionName text))
  | "horizontal_facing", .string text => (key, .string (s.directionName text))
  | "axis", .string text => (key, .string (s.axisName text))
  | "rotation", value => (key, s.headingValue value)
  | "orientation", .string text => (key, .string (s.orientationName text))
  | "north", value => (s.directionName key, value)
  | "east", value => (s.directionName key, value)
  | "south", value => (s.directionName key, value)
  | "west", value => (s.directionName key, value)
  | _, value => (key, value)

/-- All properties of a block after the step. -/
def properties (s : Step) (p : Properties) : Properties :=
  .ofList (p.entries.map fun e => s.property e.1 e.2)

end Step

/-- A block state after a step. -/
def BlockState.step (s : Step) (b : BlockState) : BlockState :=
  ⟨b.id, s.properties b.properties⟩

end Blueprint
