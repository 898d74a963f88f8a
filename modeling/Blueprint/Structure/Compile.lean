import Blueprint.Plan.Bind
import Blueprint.Plan.Check
import Std.Data.TreeMap

/-!
# From plans to structures

A plan is compiled in four steps. It is *authored*: bound to its biome and checked as it
was written. It is *placed*: turned and mirrored, and its states checked again, because a
state that was allowed may become one that is not. It is *furnished*: the templates it
names are looked up. And it is *assembled*: blocks and connectors are laid out by position,
and their states are gathered into the palette in the order of first use.
-/

namespace Blueprint

open Nbt

/-- What all plans of a run share. -/
structure CompileContext where
  /-- the states that may be used -/
  allowlist : Allowlist
  /-- the templates that may be named -/
  templates : TemplateLibrary
deriving Inhabited

/-- How a run compiles its plans. -/
structure CompileOptions where
  /-- the turn -/
  rotation : Rotation
  /-- the mirror after it -/
  mirror : Mirror
  /-- whether entities go into the structure -/
  includeEntities : Bool
deriving DecidableEq, Repr, Inhabited

/-- The options change no position and no direction. -/
def CompileOptions.keepsPlace (o : CompileOptions) : Bool :=
  o.rotation == .deg0 && o.mirror == .off

/-- The version of the game data that structures are made for. -/
def dataVersion : Int32 := 3955

/-! ## Templates -/

/-- The payload of a template that must be there. -/
def TemplateLibrary.resolve (l : TemplateLibrary) (kind : TemplateKind) (name : String) :
    Except PlanError Compound :=
  match l.get? kind name with
  | some payload => .ok payload
  | none => .error (.templateNotFound kind name)

/-- The data of a block that names a template. -/
def Block.data (l : TemplateLibrary) (b : Block) : Except PlanError (Option Compound) :=
  match b.template with
  | some name => some <$> l.resolve .blockEntity name
  | none => .ok none

/-- An entity with its data. -/
def Entity.placed (l : TemplateLibrary) (e : Entity) : Except PlanError PlacedEntity := do
  let data ← l.resolve .entity e.template
  return ⟨e.point, e.blockPos, data⟩

/-! ## Laying out -/

/-- What stands in a cell: a palette entry and its data. -/
structure Cell where
  /-- the state -/
  entry : PaletteEntry
  /-- the data of its block entity -/
  data : Option Compound

/-- The cells of a structure by position. -/
abbrev Layout := Std.TreeMap Pos Cell

namespace Layout

/-- Puts the blocks in, one after another. A block in a cell that is taken replaces the one
before it and gets no data, since the data of a cell goes to its first block. -/
def addBlocks (l : TemplateLibrary) (layout : Layout) : List Block → Except PlanError Layout
  | [] => .ok layout
  | b :: bs => do
    let state ← Plan.boundState b
    let data ← b.data l
    let data := if layout.contains b.pos then none else data
    addBlocks l (layout.insert b.pos ⟨state.paletteEntry, data⟩) bs

/-- The data of a connector in a cell: entries of a template that stands there win over
those of the connector. -/
def connectorData (connector : Compound) (there : Option Cell) : Compound :=
  match there.bind Cell.data with
  | some template => Compound.insertAll connector template
  | none => connector

/-- Puts a connector in, instead of a block in its cell. -/
def addJigsaw (connectors : SortedMap Pos Compound) (layout : Layout) (j : Jigsaw) : Layout :=
  layout.insert j.pos
    ⟨j.blockState.paletteEntry,
      (connectors.get? j.pos).map fun c => connectorData c layout[j.pos]?⟩

/-- The structure with these cells: the palette holds each state once, in the order in
which the cells use them. -/
def assemble (size : Size) (entities : List PlacedEntity) (layout : Layout) : Structure :=
  let cells := layout.toList
  let palette := (cells.map fun c => c.2.entry).eraseDups
  { size
    palette
    blocks := cells.map fun (pos, cell) => ⟨pos, palette.idxOf cell.entry, cell.data⟩
    entities
    dataVersion }

end Layout

/-! ## The four steps -/

namespace Plan

/-- The plan in its biome, checked as it was written. A connector that is malformed is
reported before a state that is not allowed. -/
def authored (biome : Option String) (ctx : CompileContext) (p : Plan) : Except PlanError Plan := do
  let bound ← (p.bind biome).mapError .schema
  bound.checkBounds
  let _ ← bound.checkJigsaws
  bound.checkStates ctx.allowlist
  return bound

/-- The plan turned and mirrored, with its bounds and states checked again. -/
def placed (ctx : CompileContext) (options : CompileOptions) (p : Plan) : Except PlanError Plan :=
  if options.keepsPlace then .ok p
  else do
    let moved := p.transform options.rotation options.mirror
    moved.checkBounds
    moved.checkStates ctx.allowlist
    return moved

/-- The structure of a plan whose states have been checked. -/
def assembled (ctx : CompileContext) (options : CompileOptions) (p : Plan) :
    Except PlanError Structure := do
  let blocks ← Layout.addBlocks ctx.templates ∅ p.blocks
  let entities ← p.entities.mapM fun e => e.placed ctx.templates
  let connectors ← p.checkJigsaws
  let layout := p.jigsaws.foldl (Layout.addJigsaw connectors) blocks
  return layout.assemble p.size (if options.includeEntities then entities else [])

/-- Compiles a plan for a biome, or for none. -/
def compile (biome : Option String) (ctx : CompileContext) (options : CompileOptions) (p : Plan) :
    Except PlanError Structure := do
  let bound ← p.authored biome ctx
  let moved ← bound.placed ctx options
  moved.assembled ctx options

end Plan

end Blueprint
