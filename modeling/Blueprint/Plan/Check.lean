import Blueprint.NamespacedId
import Blueprint.Plan
import Blueprint.Plan.Error

/-!
# Checks on plans

Three things are checked of a plan as a whole: that everything lies in its box, that every
state it would emit is allowed, and that its connectors are well formed and as many as its
policy asks for. Each check stops at the first problem in the order of the plan.
-/

namespace Blueprint

/-- The block that stands for a connector. -/
def jigsawBlock : String := "minecraft:jigsaw"

/-- The orientations that a connector block has: where it points, and where its top does. -/
def jigsawOrientations : List String :=
  ["down_east", "down_north", "down_south", "down_west", "east_up", "north_up", "south_up",
    "up_east", "up_north", "up_south", "up_west", "west_up"]

namespace Jigsaw

/-- The block state of a connector. -/
def blockState (j : Jigsaw) : BlockState :=
  ⟨jigsawBlock, SortedMap.ofList [("orientation", .string j.orientation)]⟩

/-- The full identifier in a field of connector number `i`. -/
def identifier (i : Nat) (j : Jigsaw) (field given : String) : Except JigsawError String :=
  match NamespacedId.complete? given with
  | some id => .ok id
  | none => .error (.identifier i j.pos field given)

/-- The block entity data of connector number `i`. -/
def data (i : Nat) (j : Jigsaw) : Except JigsawError Nbt.Compound := do
  let name ← j.identifier i "name" j.name
  let pool ← j.identifier i "pool" j.pool
  let targetPool ← j.identifier i "target_pool" j.targetPool
  if !jigsawJoints.contains j.joint then throw (.joint i j.pos j.joint)
  if !jigsawOrientations.contains j.orientation then
    throw (.orientation i j.pos j.orientation)
  return [("name", .string name), ("target", .string targetPool), ("pool", .string pool),
    ("final_state", .string j.finalState.text), ("joint", .string j.joint)]

end Jigsaw

namespace Plan

/-! ## Bounds -/

/-- Everything that has a position: blocks, then connectors, then entities. -/
def positions (p : Plan) : List (Placed × Pos) :=
  p.blocks.map (fun b => (.block, b.pos)) ++ p.jigsaws.map (fun j => (.jigsaw, j.pos)) ++
    p.entities.map fun e => (.entity, e.blockPos)

/-- Everything lies in the box. -/
def checkBounds (p : Plan) : Except PlanError Unit :=
  match p.positions.find? fun e => ¬ p.size.Contains e.2 with
  | some (what, pos) => .error (.outOfBounds what pos p.size)
  | none => .ok ()

/-! ## States -/

/-- The state at a position is allowed. -/
def checkState (allowlist : Allowlist) (pos : Pos) (s : BlockState) : Except PlanError Unit :=
  (allowlist.validate s).mapError (.notAllowed pos)

/-- The state of a block that is bound. -/
def boundState (b : Block) : Except PlanError BlockState :=
  match b.state with
  | .direct s => .ok s
  | .material key => .error (.schema (.unbound key b.pos))

/-- The states of the blocks are allowed. -/
def checkBlocks (allowlist : Allowlist) : List Block → Except PlanError Unit
  | [] => .ok ()
  | b :: bs => do
    checkState allowlist b.pos (← boundState b)
    checkBlocks allowlist bs

/-- The states of the connectors, now and in the end, are allowed. -/
def checkConnectors (allowlist : Allowlist) : List Jigsaw → Except PlanError Unit
  | [] => .ok ()
  | j :: js => do
    checkState allowlist j.pos j.blockState
    checkState allowlist j.pos j.finalState
    checkConnectors allowlist js

/-- Every state the plan would emit is allowed. -/
def checkStates (allowlist : Allowlist) (p : Plan) : Except PlanError Unit := do
  checkBlocks allowlist p.blocks
  checkConnectors allowlist p.jigsaws

/-! ## Connectors -/

/-- There are as many connectors as the policy asks for. -/
def checkPolicy (policy : JigsawPolicy) (count : Nat) : Except JigsawError Unit :=
  match policy with
  | .unrestricted => .ok ()
  | .atLeastOne => if count = 0 then .error .noneFound else .ok ()
  | .singleEntrance => if count = 1 then .ok () else .error (.notOne count)

/-- The data of the connectors from number `i` on, by position, after those in `read`. -/
def connectorsFrom : (i : Nat) → SortedMap Pos Nbt.Compound → List Jigsaw →
    Except JigsawError (SortedMap Pos Nbt.Compound)
  | _, read, [] => .ok read
  | i, read, j :: js => do
    let data ← j.data i
    if read.contains j.pos then throw (.occupied i j.pos)
    connectorsFrom (i + 1) (read.insert j.pos data) js

/-- The data of all connectors by position. -/
def connectors (p : Plan) : Except JigsawError (SortedMap Pos Nbt.Compound) := do
  checkPolicy p.jigsawPolicy p.jigsaws.length
  connectorsFrom 0 .empty p.jigsaws

/-- The connectors of the plan are well formed. -/
def checkJigsaws (p : Plan) : Except PlanError (SortedMap Pos Nbt.Compound) :=
  p.connectors.mapError .jigsaw

end Plan

end Blueprint
