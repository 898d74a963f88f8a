import Blueprint.BlockState
import Blueprint.Json.Shape

/-!
# Property values in JSON

A property value is a truth value, a 64-bit integer or a string. The value is read to its
end before its kind is looked at, so a break inside it is met first.
-/

namespace Blueprint.PropertyValue

open Json

/-- The property value that a whole JSON value is. -/
def ofNode? : Node → Option PropertyValue
  | .bool b => some (.bool b)
  | .number (.int n) => if n < 0x8000000000000000 then some (.int (Int64.ofInt n)) else none
  | .string s => some (.string s)
  | _ => none

/-- A property value. -/
def shape : Shape PropertyValue := fun n =>
  if n.isIntact then
    match ofNode? n with
    | some v => .ok v
    | none => .error (.shape .noVariant)
  else .error .malformed

end Blueprint.PropertyValue
