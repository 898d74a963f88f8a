import Blueprint.BlockState

/-!
# Allowlists

An allowlist says which blocks a structure may contain, which properties they may have,
and which values each property may take. Values are compared in their text form. Nothing
outside the list is ever dropped or mended: a state that is not allowed is an error, and
the error names the block, or else its first offending property in key order.
-/

namespace Blueprint

/-- A set of texts. -/
abbrev TextSet := SortedMap String Unit

/-- The values that each property of a block may take. -/
abbrev Rules := SortedMap String TextSet

/-- Rules for each block that may be used. -/
structure Allowlist where
  /-- the rules by block -/
  blocks : SortedMap String Rules
deriving DecidableEq

/-- A state that may not be used. -/
inductive Violation where
  /-- the block is unknown -/
  | block (id : String)
  /-- the block has no such property -/
  | property (id key : String)
  /-- the property has no such value -/
  | value (id key text : String)
deriving DecidableEq, Repr

/-- What is not allowed. -/
def Violation.message : Violation → String
  | block id => s!"block {id} is not allowlisted"
  | property id key => s!"property '{key}' is not allowlisted for block {id}"
  | value id key text => s!"value '{text}' is not allowlisted for property {id}.{key}"

/-- The texts in a list, as a set. -/
def TextSet.ofList (texts : List String) : TextSet :=
  SortedMap.ofList (texts.map fun t => (t, ()))

namespace Allowlist

/-- The list that allows nothing. -/
def empty : Allowlist := ⟨.empty⟩

instance : Inhabited Allowlist := ⟨empty⟩

/-- The number of blocks that may be used. -/
def size (a : Allowlist) : Nat := a.blocks.size

/-- Whether nothing is allowed. -/
def isEmpty (a : Allowlist) : Bool := a.blocks.isEmpty

/-! ## Permissions -/

/-- The rules with more values for one property. -/
def allowValues (rules : Rules) (property : String) (values : List String) : Rules :=
  rules.insert property
    (values.foldl (fun set v => set.insert v ()) ((rules.get? property).getD .empty))

/-- The list that also allows a block with these values of its properties. -/
def allow (a : Allowlist) (id : String) (values : List (String × List String)) : Allowlist :=
  ⟨a.blocks.insert id
    (values.foldl (fun rules e => allowValues rules e.1 e.2) ((a.blocks.get? id).getD .empty))⟩

/-! ## Checks -/

/-- Checks properties one after another against the rules of their block. -/
def validateProperties (id : String) (rules : Rules) :
    List (String × PropertyValue) → Except Violation Unit
  | [] => .ok ()
  | (key, value) :: rest =>
    match rules.get? key with
    | none => .error (.property id key)
    | some allowed =>
      if allowed.contains value.text then validateProperties id rules rest
      else .error (.value id key value.text)

/-- Checks a block state. -/
def validate (a : Allowlist) (state : BlockState) : Except Violation Unit :=
  match a.blocks.get? state.id with
  | none => .error (.block state.id)
  | some rules => validateProperties state.id rules state.properties.entries

end Allowlist

end Blueprint
