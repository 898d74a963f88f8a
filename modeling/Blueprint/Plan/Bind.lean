import Blueprint.Plan
import Blueprint.Plan.Error

/-!
# Binding plans to biomes

Binding a plan to a biome gives every material the state that the palette of the biome
maps it to. A plan without materials needs no biome.
-/

namespace Blueprint

namespace Block

/-- The block with its material replaced by a state of the palette. -/
def bind (biome : Option String) (palette : Option BiomePalette) (b : Block) :
    Except SchemaError Block :=
  match b.state with
  | .direct _ => .ok b
  | .material key =>
    match palette.bind fun p => p.get? key with
    | some state => .ok { b with state := .direct state }
    | none => .error (.noMapping key b.pos biome)

/-- The blocks with their materials replaced, one after another. -/
def bindAll (biome : Option String) (palette : Option BiomePalette) :
    List Block → Except SchemaError (List Block)
  | [] => .ok []
  | b :: bs => do
    let first ← b.bind biome palette
    let rest ← bindAll biome palette bs
    return first :: rest

end Block

namespace Plan

/-- The palette of a biome, if one is named. -/
def paletteOf (p : Plan) : Option String → Except SchemaError (Option BiomePalette)
  | none => .ok none
  | some biome =>
    match p.palettes.get? biome with
    | some palette => .ok (some palette)
    | none => .error (.noPalette biome)

/-- The plan in a biome. -/
def bind (biome : Option String) (p : Plan) : Except SchemaError Plan := do
  let palette ← p.paletteOf biome
  let blocks ← Block.bindAll biome palette p.blocks
  return { p with blocks := blocks }

end Plan

end Blueprint
