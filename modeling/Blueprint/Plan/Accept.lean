import Blueprint.Plan.Document
import Blueprint.Plan.Error
import Std.Data.TreeSet

/-!
# Accepting plan documents

A document becomes a plan if it keeps the rules: a supported version, positive extents,
one state or one material for each block and no two blocks in a cell, palettes for all
biomes or none, materials that mean something in each of them, texts that are block
states, and names that say something. The rules are looked at in the order of this list,
field by field and item by item, and the first one that is broken is reported.
-/

namespace Blueprint

open Json

namespace PlanDocument

/-- Refuses a blank text. -/
def requireText (field text : String) : Except SchemaError Unit :=
  if Text.allBlank text then .error (.blank field) else .ok ()

/-- Reads the state in a field. -/
def readState (field text : String) : Except SchemaError BlockState :=
  (BlockState.parse text).mapError (.state field)

/-! ## Palettes -/

/-- The materials of a biome, one after another. -/
def acceptMaterials (biome : String) :
    List (String × String) → BiomePalette → Except SchemaError BiomePalette
  | [], read => .ok read
  | (key, text) :: rest, read => do
    requireText s!"palettes.{biome} material key" key
    let state ← readState s!"palettes.{biome}.{key}" text
    acceptMaterials biome rest (read.insert key state)

/-- The biomes, one after another. -/
def acceptBiomes :
    List (String × SortedMap String String) → SortedMap String BiomePalette →
      Except SchemaError (SortedMap String BiomePalette)
  | [], read => .ok read
  | (biome, materials) :: rest, read => do
    let palette ← acceptMaterials biome materials.entries .empty
    acceptBiomes rest (read.insert biome palette)

/-- The names of the supported biomes in order. -/
def biomeNames : List String := Biome.supported.mergeSort fun a b => a ≤ b

/-- Palettes are given for exactly the supported biomes, or not at all. -/
def acceptPalettes (written : SortedMap String (SortedMap String String)) :
    Except SchemaError (SortedMap String BiomePalette) :=
  let missing := biomeNames.filter fun b => !written.contains b
  let unknown := written.keys.filter fun b => !Biome.supported.contains b
  if written.isEmpty then .ok .empty
  else if missing.isEmpty && unknown.isEmpty then acceptBiomes written.entries .empty
  else .error (.biomes missing unknown)

/-! ## Blocks, connectors and entities -/

/-- The state of block number `i`, or its material, which must be in every palette. -/
def acceptStateRef (palettes : SortedMap String BiomePalette) (i : Nat) (b : BlockDocument) :
    Except SchemaError StateRef :=
  match b.blockId, b.materialKey with
  | some id, none => do
    requireText s!"blocks[{i}].block_id" id
    return .direct ⟨id, b.properties⟩
  | none, some key =>
    if !b.properties.isEmpty then throw (.materialProperties i)
    else
      match palettes.entries.find? fun e => !e.2.contains key with
      | some (biome, _) => throw (.undefinedMaterial i key biome)
      | none => return .material key
  | some _, some _ => throw (.twoStates i)
  | none, none => throw (.noState i)

/-- A name that may be left out must say something if it is there. -/
def acceptName (field : String) : Option String → Except SchemaError Unit
  | some name => requireText field name
  | none => .ok ()

/-- The blocks from number `i` on; `seen` are the cells of those before. -/
def acceptBlocks (palettes : SortedMap String BiomePalette) :
    (i : Nat) → (seen : Std.TreeSet Pos) → List BlockDocument → Except SchemaError (List Block)
  | _, _, [] => .ok []
  | i, seen, b :: bs => do
    if seen.contains b.pos then throw (.duplicatePosition i b.pos)
    let state ← acceptStateRef palettes i b
    acceptName s!"blocks[{i}].block_entity_ref" b.template
    let rest ← acceptBlocks palettes (i + 1) (seen.insert b.pos) bs
    return ⟨b.pos, state, b.template⟩ :: rest

/-- The connectors from number `i` on. -/
def acceptJigsaws : (i : Nat) → List JigsawDocument → Except SchemaError (List Jigsaw)
  | _, [] => .ok []
  | i, j :: js => do
    let finalState ← readState s!"jigsaws[{i}].final_state" j.finalState
    let rest ← acceptJigsaws (i + 1) js
    return ⟨j.pos, j.orientation, j.name, j.pool, j.targetPool, j.joint, finalState⟩ :: rest

/-- The entities of a box from number `i` on. -/
def acceptEntities (size : Size) :
    (i : Nat) → List EntityDocument → Except SchemaError (List Entity)
  | _, [] => .ok []
  | i, e :: es => do
    requireText s!"entities[{i}].entity_ref" e.template
    if e.point.toList.any fun c => !c.isFinite then throw (.infinitePoint i)
    let rest ← acceptEntities size (i + 1) es
    return ⟨e.point, .identity size, e.blockPos, e.template⟩ :: rest

/-! ## Plans -/

/-- The version, if given, is the supported one. -/
def acceptVersion : Option Nat → Except SchemaError Unit
  | some v => if v = Blueprint.schemaVersion then .ok () else .error (.version v)
  | none => .ok ()

/-- The plan of a document that keeps all rules. -/
def accept (d : PlanDocument) : Except SchemaError Plan := do
  acceptVersion d.schemaVersion
  acceptName "id" d.id
  if ¬ d.size.Positive then throw (.size d.size)
  let palettes ← acceptPalettes d.palettes
  let blocks ← acceptBlocks palettes 0 ∅ d.blocks
  let jigsaws ← acceptJigsaws 0 d.jigsaws
  let entities ← acceptEntities d.size 0 d.entities
  return ⟨d.id, d.size, blocks, entities, jigsaws, d.jigsawPolicy, palettes, d.tags⟩

end PlanDocument

namespace Plan

/-- The error of a text that is not read as a plan document. -/
def readError : Fault → PlanError
  | .malformed => .malformed
  | .shape e => .schema (.shape e)

/-- Reads a plan. -/
def parse (text : String) : Except PlanError Plan := do
  let d ← (PlanDocument.shape.ofText text).mapError readError
  d.accept.mapError .schema

end Plan

end Blueprint
