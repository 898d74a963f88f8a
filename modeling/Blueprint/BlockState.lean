import Blueprint.SortedMap

/-!
# Block states

A block state is an identifier such as `minecraft:oak_stairs` with named properties. A
property value may be authored as a truth value, a number or a text; wherever states are
compared with rules or written out, only the text form counts.
-/

namespace Blueprint

/-- A property value as it was authored. -/
inductive PropertyValue where
  | bool (b : Bool)
  | int (n : Int64)
  | string (s : String)
deriving DecidableEq, Repr, Inhabited

/-- The text form of a value: a value written as a number, a truth value or a text of the
same spelling means the same. -/
def PropertyValue.text : PropertyValue → String
  | bool true => "true"
  | bool false => "false"
  | int n => toString n.toInt
  | string s => s

/-- The properties of a block by name. -/
abbrev Properties := SortedMap String PropertyValue

/-- A block with its properties. -/
structure BlockState where
  /-- the identifier of the block -/
  id : String
  /-- its properties -/
  properties : Properties
deriving DecidableEq

namespace BlockState

/-- The state of a block without properties. -/
def ofId (id : String) : BlockState := ⟨id, .empty⟩

instance : Inhabited BlockState := ⟨ofId ""⟩

/-- The text of one property in a state. -/
def propertyText (entry : String × PropertyValue) : String :=
  entry.1 ++ "=" ++ entry.2.text

/-- The canonical text `id[key=value,…]` with the keys in order; without properties it is
the identifier alone. -/
def text (s : BlockState) : String :=
  if s.properties.isEmpty then s.id
  else s.id ++ "[" ++ ",".intercalate (s.properties.entries.map propertyText) ++ "]"

end BlockState

end Blueprint
