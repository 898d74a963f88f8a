import Blueprint.Allowlist
import Blueprint.BlockState.Shape

/-!
# Allowlists in JSON

An allowlist is written in one of two layouts. The flat one is an object from blocks to
their properties, each with a list of values; the wrapped one holds the same under
`allowed_blocks`, with the properties of each block under `allowed_properties`. The
wrapped layout is tried first. The name `allowed_blocks` is never taken for a block.
-/

namespace Blueprint.Allowlist

open Json

/-- Why a text is no allowlist. -/
inductive ReadError where
  /-- neither layout, or no JSON -/
  | layout
  /-- the flat layout with the name of the wrapped one as a block -/
  | mixed
deriving DecidableEq, Repr

/-- The key of the wrapped layout. -/
def wrappedKey : String := "allowed_blocks"

/-- What is wrong with the text. -/
def ReadError.message : ReadError → String
  | layout => "expected an object of block ids to property/value lists"
  | mixed => s!"'{wrappedKey}' cannot be mixed with top-level block ids"

/-- Values by property, as they are written. -/
abbrev Written := SortedMap String (List PropertyValue)

/-- The rules that values by property amount to. -/
def rulesOf (written : Written) : Rules :=
  written.map fun _ values => .ofList (values.map PropertyValue.text)

/-- Values by property. -/
def writtenShape : Shape Written := .map (.list PropertyValue.shape)

/-- The rules of a block in the wrapped layout; without any, it has no properties. -/
def wrappedRulesShape : Shape Written :=
  .record [.optional "allowed_properties" writtenShape fun w _ => w] .empty

/-- The wrapped layout. -/
def wrappedShape : Shape (SortedMap String Written) :=
  .record [.required wrappedKey (.map wrappedRulesShape) fun blocks _ => blocks] .empty

/-- The flat layout. -/
def flatShape : Shape (SortedMap String Written) := .map writtenShape

/-- The allowlist of a JSON value. -/
def ofNode (n : Node) : Except ReadError Allowlist :=
  match wrappedShape n, flatShape n with
  | .ok blocks, _ => .ok ⟨blocks.map fun _ => rulesOf⟩
  | _, .ok blocks =>
    if blocks.contains wrappedKey then .error .mixed else .ok ⟨blocks.map fun _ => rulesOf⟩
  | _, _ => .error .layout

/-- The whole JSON value of a text. -/
def wholeValue : Shape Node := fun n => if n.isIntact then .ok n else .error .malformed

/-- The allowlist of a text. -/
def ofText (text : String) : Except ReadError Allowlist :=
  match wholeValue.ofText text with
  | .ok n => ofNode n
  | .error _ => .error .layout

end Blueprint.Allowlist
