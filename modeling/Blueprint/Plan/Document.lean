import Blueprint.BlockState.Shape
import Blueprint.Plan

/-!
# Plan documents

A plan as it is written: the fields of the JSON document with their types, before any rule
about their contents has been looked at.
-/

namespace Blueprint

open Json

/-- A block as it is written. -/
structure BlockDocument where
  pos : Pos
  blockId : Option String
  properties : Properties
  materialKey : Option String
  template : Option String
deriving DecidableEq, Inhabited

/-- A connector as it is written. -/
structure JigsawDocument where
  pos : Pos
  orientation : String
  name : String
  pool : String
  targetPool : String
  joint : String
  finalState : String
deriving DecidableEq

/-- A connector turns into air unless it says otherwise. -/
def defaultFinalState : String := "minecraft:air"

instance : Inhabited JigsawDocument := ⟨⟨default, "", "", "", "", "", defaultFinalState⟩⟩

/-- An entity as it is written. -/
structure EntityDocument where
  point : Vec3 Binary64
  blockPos : Pos
  template : String
deriving DecidableEq, Inhabited

/-- A plan as it is written. -/
structure PlanDocument where
  schemaVersion : Option Nat
  id : Option String
  size : Size
  blocks : List BlockDocument
  jigsaws : List JigsawDocument
  entities : List EntityDocument
  jigsawPolicy : JigsawPolicy
  palettes : SortedMap String (SortedMap String String)
  tags : List String
deriving DecidableEq, Inhabited

/-! ## Shapes -/

/-- A position. -/
def Pos.shape : Shape Pos := fun n => (fun (x, y, z) => ⟨x, y, z⟩) <$> Shape.triple .word n

/-- An extent. -/
def Size.shape : Shape Size := fun n => (fun (w, h, l) => ⟨w, h, l⟩) <$> Shape.triple .word n

/-- A point. -/
def pointShape : Shape (Vec3 Binary64) := fun n =>
  (fun (x, y, z) => ⟨x, y, z⟩) <$> Shape.triple .double n

/-- The policies that a plan can name. -/
def JigsawPolicy.shape : Shape JigsawPolicy := .variant JigsawPolicy.ofText?

/-- A block. -/
def BlockDocument.shape : Shape BlockDocument :=
  .record
    [.required "pos" Pos.shape fun a d => { d with pos := a },
      .optional "block_id" (.optional .string) fun a d => { d with blockId := a },
      .optional "properties" (.map PropertyValue.shape) fun a d => { d with properties := a },
      .optional "material_key" (.optional .string) fun a d => { d with materialKey := a },
      .optional "block_entity_ref" (.optional .string) fun a d => { d with template := a }]
    default

/-- A connector. -/
def JigsawDocument.shape : Shape JigsawDocument :=
  .record
    [.required "pos" Pos.shape fun a d => { d with pos := a },
      .required "orientation" .string fun a d => { d with orientation := a },
      .required "name" .string fun a d => { d with name := a },
      .required "pool" .string fun a d => { d with pool := a },
      .required "target_pool" .string fun a d => { d with targetPool := a },
      .required "joint" .string fun a d => { d with joint := a },
      .optional "final_state" .string fun a d => { d with finalState := a }]
    default

/-- An entity. -/
def EntityDocument.shape : Shape EntityDocument :=
  .record
    [.required "pos" pointShape fun a d => { d with point := a },
      .required "block_pos" Pos.shape fun a d => { d with blockPos := a },
      .required "entity_ref" .string fun a d => { d with template := a }]
    default

/-- A version number. -/
def versionShape : Shape Nat := fun n => Int.toNat <$> Shape.integer 0 0xffffffff n

/-- A plan. -/
def PlanDocument.shape : Shape PlanDocument :=
  .record
    [.optional "schema_version" (.optional versionShape) fun a d => { d with schemaVersion := a },
      .optional "id" (.optional .string) fun a d => { d with id := a },
      .required "size" Size.shape fun a d => { d with size := a },
      .required "blocks" (.list BlockDocument.shape) fun a d => { d with blocks := a },
      .optional "jigsaws" (.list JigsawDocument.shape) fun a d => { d with jigsaws := a },
      .optional "entities" (.list EntityDocument.shape) fun a d => { d with entities := a },
      .optional "jigsaw_policy" JigsawPolicy.shape fun a d => { d with jigsawPolicy := a },
      .optional "palettes" (.map (.map .string)) fun a d => { d with palettes := a },
      .optional "tags" (.list .string) fun a d => { d with tags := a }]
    default

end Blueprint
