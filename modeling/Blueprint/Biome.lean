/-!
# Biomes

A plan may describe one building for several biomes. The supported biomes are known by
name, and their order here is the order in which variants are made.
-/

namespace Blueprint.Biome

/-- The supported biomes. -/
def supported : List String := ["plains", "desert", "savanna", "snowy", "taiga"]

/-- The supported biomes as messages show them. -/
def supportedText : String := ", ".intercalate supported

/-- The variants that a choice of biomes asks for: those that are named, in the order of
`supported` and once each, and all of them if none is named. A name that is not supported
comes back as the error. -/
def select (chosen : List String) : Except String (List String) :=
  match chosen.find? fun b => !supported.contains b with
  | some unknown => .error unknown
  | none => .ok (supported.filter fun b => chosen.isEmpty || chosen.contains b)

end Blueprint.Biome
