import Blueprint.Allowlist
import Blueprint.Biome
import Blueprint.BlockState.Parser
import Blueprint.FileError
import Blueprint.Json.Shape
import Blueprint.Structure.Container
import Blueprint.Template

/-!
# What can be wrong with a plan

Every way in which one plan fails, with the place in the plan where it does. A failure
never concerns more than its plan.
-/

namespace Blueprint

/-! ## Form and content of the document -/

/-- A rule that a plan document breaks. -/
inductive SchemaError where
  /-- a value has the wrong shape -/
  | shape (e : Json.ShapeError)
  /-- the version is not the supported one -/
  | version (given : Nat)
  /-- a text that must say something is blank -/
  | blank (field : String)
  /-- an extent is not positive -/
  | size (given : Size)
  /-- the palettes are not those of the supported biomes -/
  | biomes (missing unknown : List String)
  /-- a block stands where an earlier one does -/
  | duplicatePosition (block : Nat) (pos : Pos)
  /-- a material has properties of its own -/
  | materialProperties (block : Nat)
  /-- a material is not in the palette of a biome -/
  | undefinedMaterial (block : Nat) (key biome : String)
  /-- a block has both a state and a material -/
  | twoStates (block : Nat)
  /-- a block has neither a state nor a material -/
  | noState (block : Nat)
  /-- a text is no block state -/
  | state (field : String) (e : BlockState.SyntaxError)
  /-- an entity has a coordinate that is not finite -/
  | infinitePoint (entity : Nat)
  /-- the plan has no palette for the biome -/
  | noPalette (biome : String)
  /-- the material means nothing in the biome, or without one -/
  | noMapping (key : String) (pos : Pos) (biome : Option String)
  /-- a material was never given a state -/
  | unbound (key : String) (pos : Pos)
  /-- other plans write the same file -/
  | clash (output : String) (others : List String)
deriving DecidableEq

/-- The version of plan documents that is read. -/
def schemaVersion : Nat := 1

/-- What is wrong with the document. -/
def SchemaError.message : SchemaError → String
  | shape e => e.message
  | version given => s!"schema_version must be {schemaVersion}, got {given}"
  | blank field => s!"{field} must be a non-empty string"
  | size given => s!"size must be three integers > 0, got {given.text}"
  | biomes missing unknown =>
    "palettes must define exactly " ++ Biome.supportedText ++ " (missing: [" ++
      ", ".intercalate missing ++ "], unknown: [" ++ ", ".intercalate unknown ++ "])"
  | duplicatePosition block pos => s!"blocks[{block}]: duplicate position {pos.text}"
  | materialProperties block =>
    s!"blocks[{block}]: properties cannot be combined with material_key"
  | undefinedMaterial block key biome =>
    s!"blocks[{block}]: material_key '{key}' missing in palettes.{biome}"
  | twoStates block => s!"blocks[{block}]: block_id and material_key are mutually exclusive"
  | noState block => s!"blocks[{block}]: one of block_id or material_key is required"
  | state field e => s!"{field}: {e.message}"
  | infinitePoint entity => s!"entities[{entity}].pos must be finite"
  | noPalette biome => s!"no palette defined for biome '{biome}'"
  | noMapping key pos none => s!"material_key '{key}' at {pos.text} has no mapping"
  | noMapping key pos (some biome) =>
    s!"material_key '{key}' at {pos.text} has no mapping in biome '{biome}'"
  | unbound key pos => s!"material_key '{key}' at {pos.text} is not bound to a biome palette"
  | clash output others => s!"output {output} is also produced by " ++ ", ".intercalate others

/-! ## Connectors -/

/-- A rule that the connectors of a plan break. -/
inductive JigsawError where
  /-- there must be one, and there are this many -/
  | notOne (found : Nat)
  /-- there must be one at least -/
  | noneFound
  /-- a name or pool is no identifier -/
  | identifier (jigsaw : Nat) (pos : Pos) (field given : String)
  /-- the joint is unknown -/
  | joint (jigsaw : Nat) (pos : Pos) (given : String)
  /-- the orientation is unknown -/
  | orientation (jigsaw : Nat) (pos : Pos) (given : String)
  /-- an earlier connector stands in the cell -/
  | occupied (jigsaw : Nat) (pos : Pos)
deriving DecidableEq, Repr

/-- How a connector may be turned against its partner. -/
def jigsawJoints : List String := ["rollable", "aligned"]

/-- What is wrong with the connectors. -/
def JigsawError.message : JigsawError → String
  | notOne found => s!"plan requires exactly one entrance jigsaw, found {found}"
  | noneFound => "plan requires at least one jigsaw"
  | identifier jigsaw pos field given =>
    s!"jigsaws[{jigsaw}] at {pos.text}: {field} '{given}' is not a namespaced id"
  | joint jigsaw pos given =>
    s!"jigsaws[{jigsaw}] at {pos.text}: joint must be one of " ++
      ", ".intercalate jigsawJoints ++ s!", got '{given}'"
  | orientation jigsaw pos given =>
    s!"jigsaws[{jigsaw}] at {pos.text}: invalid orientation '{given}'"
  | occupied jigsaw pos => s!"jigsaws[{jigsaw}]: another jigsaw already sits at {pos.text}"

/-! ## All failures of a plan -/

/-- What a position of a plan belongs to. -/
inductive Placed where
  | block
  | jigsaw
  | entity
deriving DecidableEq, Repr

/-- The name of what has a position. -/
def Placed.text : Placed → String
  | block => "block"
  | jigsaw => "jigsaw"
  | entity => "entity"

/-- Why a plan fails. -/
inductive PlanError where
  /-- the file is no JSON -/
  | malformed
  | schema (e : SchemaError)
  /-- a state is not on the allowlist -/
  | notAllowed (pos : Pos) (violation : Violation)
  /-- a position lies outside the box -/
  | outOfBounds (what : Placed) (pos : Pos) (size : Size)
  /-- a template is not in the library -/
  | templateNotFound (kind : TemplateKind) (name : String)
  | jigsaw (e : JigsawError)
  /-- a file cannot be read or written -/
  | file (path : String) (e : FileError)
  /-- the structure for a file has no container -/
  | container (path : String) (e : ContainerError)
deriving DecidableEq

/-- What is wrong with the plan. -/
def PlanError.message : PlanError → String
  | malformed => "malformed plan"
  | schema e => s!"schema error: {e.message}"
  | notAllowed pos violation => s!"{violation.message} at {pos.text}"
  | outOfBounds what pos size => s!"{what.text} at {pos.text} is outside size {size.text}"
  | templateNotFound kind name => s!"{kind.text} template '{name}' not found"
  | jigsaw e => s!"invalid jigsaw: {e.message}"
  | file path e => s!"io error on {path}: {e.message}"
  | container path e => s!"io error on {path}: {e.message}"

end Blueprint
