import Blueprint.BlockState.Oriented
import Blueprint.Placement

/-!
# Plans

A plan describes one building: the extent of its box, the blocks in it, the connectors by
which it joins other buildings, and the entities that live in it. A block has its state
written out, or names a material that the palette of a biome maps to a state.
-/

namespace Blueprint

/-- Where a block gets its state from. -/
inductive StateRef where
  /-- the state as it is written -/
  | direct (state : BlockState)
  /-- the state that the palette of a biome gives for this key -/
  | material (key : String)
deriving DecidableEq

/-- A block of a plan. -/
structure Block where
  /-- its cell -/
  pos : Pos
  /-- its state -/
  state : StateRef
  /-- the template with the data of its block entity -/
  template : Option String
deriving DecidableEq

/-- A connector of a plan. -/
structure Jigsaw where
  /-- its cell -/
  pos : Pos
  /-- where it points and where its top points -/
  orientation : String
  /-- its own name -/
  name : String
  /-- the pool that its partner comes from -/
  pool : String
  /-- the name that it looks for in a partner -/
  targetPool : String
  /-- how it may be turned against its partner -/
  joint : String
  /-- the state that stands in its place in the end -/
  finalState : BlockState
deriving DecidableEq

/-- An entity of a plan. -/
structure Entity where
  /-- the point it was authored at -/
  authored : Vec3 Binary64
  /-- the steps the plan has taken since -/
  placement : Placement
  /-- the cell it belongs to -/
  blockPos : Pos
  /-- the template with its data -/
  template : String
deriving DecidableEq

/-- The point of an entity now. -/
def Entity.point (e : Entity) : Vec3 Binary64 := e.placement.apply e.authored

/-- How many connectors a plan must have. -/
inductive JigsawPolicy where
  | unrestricted
  | atLeastOne
  | singleEntrance
deriving DecidableEq, Repr, Inhabited

namespace JigsawPolicy

/-- The name of a policy. -/
def text : JigsawPolicy → String
  | unrestricted => "unrestricted"
  | atLeastOne => "at_least_one"
  | singleEntrance => "single_entrance"

/-- The policy of that name. -/
def ofText? : String → Option JigsawPolicy
  | "unrestricted" => some unrestricted
  | "at_least_one" => some atLeastOne
  | "single_entrance" => some singleEntrance
  | _ => none

end JigsawPolicy

/-- The states of the materials in one biome. -/
abbrev BiomePalette := SortedMap String BlockState

/-- A building. -/
structure Plan where
  /-- the name it was given -/
  id : Option String
  /-- the extent of its box -/
  size : Size
  /-- its blocks -/
  blocks : List Block
  /-- its entities -/
  entities : List Entity
  /-- its connectors -/
  jigsaws : List Jigsaw
  /-- how many connectors it must have -/
  jigsawPolicy : JigsawPolicy
  /-- what its materials are in each biome -/
  palettes : SortedMap String BiomePalette
  /-- free marks -/
  tags : List String
deriving DecidableEq

/-- Whether the plan has a variant for each biome. -/
def Plan.hasPalettes (p : Plan) : Bool := !p.palettes.isEmpty

/-! ## Steps -/

/-- A state reference after a step; a material stays what it is. -/
def StateRef.step (s : Step) : StateRef → StateRef
  | direct state => direct (state.step s)
  | material key => material key

/-- A block after a step of its plan; `size` is the extent before. -/
def Block.step (size : Size) (s : Step) (b : Block) : Block :=
  { b with pos := b.pos.step size s, state := b.state.step s }

/-- A connector after a step of its plan; `size` is the extent before. -/
def Jigsaw.step (size : Size) (s : Step) (j : Jigsaw) : Jigsaw :=
  { j with
    pos := j.pos.step size s
    orientation := s.orientationName j.orientation
    finalState := j.finalState.step s }

/-- An entity after a step of its plan; `size` is the extent before. -/
def Entity.step (size : Size) (s : Step) (e : Entity) : Entity :=
  { e with placement := e.placement.step s, blockPos := e.blockPos.step size s }

namespace Plan

/-- A plan after a step. The step that changes nothing leaves everything as authored. -/
def step (s : Step) (p : Plan) : Plan :=
  if s.isIdentity then p
  else
    { p with
      size := p.size.step s
      blocks := p.blocks.map (Block.step p.size s)
      jigsaws := p.jigsaws.map (Jigsaw.step p.size s)
      entities := p.entities.map (Entity.step p.size s) }

/-- A plan turned and then mirrored. -/
def transform (r : Rotation) (m : Mirror) (p : Plan) : Plan :=
  (p.step (.rotate r)).step (.mirror m)

end Plan

end Blueprint
