import Blueprint.Proofs.BlockState.Oriented
import Blueprint.Proofs.Footprint
import Blueprint.Proofs.Structure.Layout

/-!
# Cells of a plan that is moved

A step moves every part of a plan, or leaves all of them alone if it changes nothing. What
stands in a cell moves along: the cell that a cell becomes has the same blocks and the same
connector, each after the step. Templates are not touched, so the data of a block travels
with it, and of the data of a connector only its final state is turned.
-/

namespace Blueprint

open Nbt

/-! ## Parts of a plan after a step -/

section

variable (s : Step)

/-- A state after a step that is skipped if it changes nothing. -/
def BlockState.moved (state : BlockState) : BlockState :=
  if s.isIdentity then state else state.step s

/-- A palette entry after a step that is skipped if it changes nothing. -/
def PaletteEntry.moved (e : PaletteEntry) : PaletteEntry :=
  if s.isIdentity then e else e.step s

/-- A block after a step that is skipped if it changes nothing. -/
def Block.moved (size : Size) (b : Block) : Block :=
  if s.isIdentity then b else b.step size s

/-- A connector after a step that is skipped if it changes nothing. -/
def Jigsaw.moved (size : Size) (j : Jigsaw) : Jigsaw :=
  if s.isIdentity then j else j.step size s

/-- An entity after a step that is skipped if it changes nothing. -/
def Entity.moved (size : Size) (e : Entity) : Entity :=
  if s.isIdentity then e else e.step size s

/-- A cell whose state has taken a step; its data has not. -/
def Cell.moved (cell : Cell) : Cell := ⟨cell.entry.moved s, cell.data⟩

/-- The entry of a state is moved with it. -/
theorem BlockState.paletteEntry_moved (state : BlockState) :
    (state.moved s).paletteEntry = state.paletteEntry.moved s := by
  rw [moved, PaletteEntry.moved]
  split
  · rfl
  · exact paletteEntry_step s state

namespace Block

/-- A block stays with its cell. -/
theorem pos_moved (size : Size) (b : Block) : (b.moved s size).pos = Pos.step size s b.pos := by
  rw [moved]
  split
  next h => exact (Pos.step_of_isIdentity h b.pos).symm
  next => rfl

/-- It keeps its template. -/
theorem template_moved (size : Size) (b : Block) : (b.moved s size).template = b.template := by
  rw [moved]
  split <;> rfl

/-- So it keeps the payload of that. -/
theorem payload?_moved (l : TemplateLibrary) (size : Size) (b : Block) :
    (b.moved s size).payload? l = b.payload? l := by
  rw [payload?, payload?, template_moved]

/-- Its entry is moved if it has one. -/
theorem entry?_moved (size : Size) (b : Block) :
    (b.moved s size).state.entry? = b.state.entry?.map (PaletteEntry.moved s) := by
  rw [moved]
  split
  next h =>
    have hmoved : PaletteEntry.moved s = id := funext fun e => if_pos h
    rw [hmoved, Option.map_id_fun, id]
  next h =>
    have hmoved : PaletteEntry.moved s = PaletteEntry.step s := funext fun e => if_neg h
    rw [hmoved, step]
    cases b.state with
    | direct state => exact congrArg some (BlockState.paletteEntry_step s state)
    | material key => rfl

end Block

namespace Jigsaw

/-- A connector stays with its cell. -/
theorem pos_moved (size : Size) (j : Jigsaw) : (j.moved s size).pos = Pos.step size s j.pos := by
  rw [moved]
  split
  next h => exact (Pos.step_of_isIdentity h j.pos).symm
  next => rfl

/-- Its own state is moved. -/
theorem blockState_moved (size : Size) (j : Jigsaw) :
    (j.moved s size).blockState = j.blockState.moved s := by
  rw [moved, BlockState.moved]
  split
  · rfl
  · rfl

/-- Only where a connector stands, where it points and its final state are moved. -/
theorem moved_eq (size : Size) (j : Jigsaw) :
    ∃ orientation, j.moved s size = { j with
      pos := Pos.step size s j.pos, orientation := orientation,
      finalState := j.finalState.moved s } := by
  simp only [moved, BlockState.moved]
  split
  next h =>
    rw [Pos.step_of_isIdentity h]
    exact ⟨j.orientation, rfl⟩
  next => exact ⟨s.orientationName j.orientation, rfl⟩

end Jigsaw

/-- An entity stays with its cell. -/
theorem Entity.blockPos_moved (size : Size) (e : Entity) :
    (e.moved s size).blockPos = Pos.step size s e.blockPos := by
  rw [moved]
  split
  next h => exact (Pos.step_of_isIdentity h e.blockPos).symm
  next => rfl

/-- It keeps its template. -/
theorem Entity.template_moved (size : Size) (e : Entity) :
    (e.moved s size).template = e.template := by
  rw [moved]
  split <;> rfl

end

/-! ## Plans after a step -/

namespace Plan

variable (s : Step) (p : Plan)

/-- The extents of a plan take a step. -/
theorem size_step : (p.step s).size = p.size.step s := by
  rw [step]
  split
  next h => exact (Size.step_of_isIdentity h p.size).symm
  next => rfl

/-- Moving all parts and skipping the step for all of them at once are the same. -/
theorem map_skip {α : Type} (f : α → α) (parts : List α) :
    (parts.map fun a => if s.isIdentity then a else f a) =
      if s.isIdentity then parts else parts.map f := by
  split
  · exact List.map_id' parts
  · rfl

/-- Each of its blocks takes the step. -/
theorem blocks_step : (p.step s).blocks = p.blocks.map (Block.moved s p.size) := by
  refine Eq.trans ?_ (map_skip s (Block.step p.size s) p.blocks).symm
  rw [step]
  split <;> rfl

/-- So does each of its connectors. -/
theorem jigsaws_step : (p.step s).jigsaws = p.jigsaws.map (Jigsaw.moved s p.size) := by
  refine Eq.trans ?_ (map_skip s (Jigsaw.step p.size s) p.jigsaws).symm
  rw [step]
  split <;> rfl

/-- And so does each of its entities. -/
theorem entities_step : (p.step s).entities = p.entities.map (Entity.moved s p.size) := by
  refine Eq.trans ?_ (map_skip s (Entity.step p.size s) p.entities).symm
  rw [step]
  split <;> rfl

/-- The cell that a cell becomes has the blocks of the cell, after the step. -/
theorem blocksAt_step (q : Pos) :
    (p.step s).blocksAt (Pos.step p.size s q) = (p.blocksAt q).map (Block.moved s p.size) := by
  rw [blocksAt, blocksAt, blocks_step, List.filter_map]
  refine congrArg (List.map _) (List.filter_congr fun b _ => ?_)
  rw [Function.comp_apply, Block.pos_moved]
  exact decide_eq_decide.2 (Pos.step_bijective p.size s).injective.eq_iff

/-- What blocks leave in a cell one after another is moved with the cell. -/
theorem foldl_after_moved (l : TemplateLibrary) (size : Size) (bs : List Block)
    (there : Option Cell) :
    (bs.map (Block.moved s size)).foldl (Cell.after l) (there.map (Cell.moved s)) =
      (bs.foldl (Cell.after l) there).map (Cell.moved s) := by
  induction bs generalizing there with
  | nil => rfl
  | cons b bs ih =>
    have hafter : Cell.after l (there.map (Cell.moved s)) (b.moved s size) =
        (Cell.after l there b).map (Cell.moved s) := by
      rw [Cell.after, Cell.after, Block.entry?_moved, Block.payload?_moved, Option.isSome_map,
        Option.map_map, Option.map_map]
      rfl
    rw [List.map_cons, List.foldl_cons, List.foldl_cons, hafter, ih]

/-- What the blocks come to moves along. -/
theorem blockCell?_step (l : TemplateLibrary) (q : Pos) :
    (p.step s).blockCell? l (Pos.step p.size s q) =
      (p.blockCell? l q).map (Cell.moved s) := by
  rw [blockCell?, blocksAt_step, blockCell?, ← foldl_after_moved]
  rfl

/-- The connector in a cell moves along. -/
theorem jigsawAt?_step (q : Pos) :
    (p.step s).jigsawAt? (Pos.step p.size s q) =
      (p.jigsawAt? q).map (Jigsaw.moved s p.size) := by
  rw [jigsawAt?, jigsawAt?, jigsaws_step, List.find?_map]
  refine congrArg (Option.map _) (congrArg (fun f => List.find? f p.jigsaws) (funext fun j => ?_))
  rw [Function.comp_apply, Jigsaw.pos_moved]
  exact decide_eq_decide.2 (Pos.step_bijective p.size s).injective.eq_iff

end Plan

/-! ## Turned and then mirrored -/

section

variable (r : Rotation) (m : Mirror)

/-- A state turned and then mirrored. -/
def BlockState.transform (state : BlockState) : BlockState :=
  (state.moved (.rotate r)).moved (.mirror m)

/-- A palette entry turned and then mirrored. -/
def PaletteEntry.transform (e : PaletteEntry) : PaletteEntry :=
  (e.moved (.rotate r)).moved (.mirror m)

/-- A block of a plan that is turned and then mirrored. -/
def Block.transform (size : Size) (b : Block) : Block :=
  (b.moved (.rotate r) size).moved (.mirror m) (size.step (.rotate r))

/-- A connector of a plan that is turned and then mirrored. -/
def Jigsaw.transform (size : Size) (j : Jigsaw) : Jigsaw :=
  (j.moved (.rotate r) size).moved (.mirror m) (size.step (.rotate r))

/-- An entity of a plan that is turned and then mirrored. -/
def Entity.transform (size : Size) (e : Entity) : Entity :=
  (e.moved (.rotate r) size).moved (.mirror m) (size.step (.rotate r))

/-- A cell whose state is turned and then mirrored; its data is not. -/
def Cell.transform (cell : Cell) : Cell := ⟨cell.entry.transform r m, cell.data⟩

namespace Plan

variable (p : Plan)

/-- The extents of a plan are turned. -/
theorem size_transform : (p.transform r m).size = p.size.transform r m := by
  rw [transform, size_step, size_step]
  rfl

/-- Each of its blocks is turned and mirrored. -/
theorem blocks_transform :
    (p.transform r m).blocks = p.blocks.map (Block.transform r m p.size) := by
  rw [transform, blocks_step, blocks_step, List.map_map, size_step]
  rfl

/-- So is each of its connectors. -/
theorem jigsaws_transform :
    (p.transform r m).jigsaws = p.jigsaws.map (Jigsaw.transform r m p.size) := by
  rw [transform, jigsaws_step, jigsaws_step, List.map_map, size_step]
  rfl

/-- And so is each of its entities. -/
theorem entities_transform :
    (p.transform r m).entities = p.entities.map (Entity.transform r m p.size) := by
  rw [transform, entities_step, entities_step, List.map_map, size_step]
  rfl

/-- What the blocks leave in a cell is in the cell that it becomes. -/
theorem blockCell?_transform (l : TemplateLibrary) (q : Pos) :
    (p.transform r m).blockCell? l (q.transform p.size r m) =
      (p.blockCell? l q).map (Cell.transform r m) := by
  rw [transform, Pos.transform, ← size_step, blockCell?_step, blockCell?_step, Option.map_map]
  rfl

/-- The connector in a cell is in the cell that it becomes. -/
theorem jigsawAt?_transform (q : Pos) :
    (p.transform r m).jigsawAt? (q.transform p.size r m) =
      (p.jigsawAt? q).map (Jigsaw.transform r m p.size) := by
  rw [transform, Pos.transform, ← size_step, jigsawAt?_step, jigsawAt?_step, Option.map_map,
    size_step]
  rfl

end Plan

/-- A block is where its cell has come to. -/
theorem Block.pos_transform (size : Size) (b : Block) :
    (b.transform r m size).pos = b.pos.transform size r m := by
  rw [transform, pos_moved, pos_moved]
  rfl

/-- It keeps its template. -/
theorem Block.template_transform (size : Size) (b : Block) :
    (b.transform r m size).template = b.template := by
  rw [transform, template_moved, template_moved]

/-- An entity is where its cell has come to. -/
theorem Entity.blockPos_transform (size : Size) (e : Entity) :
    (e.transform r m size).blockPos = e.blockPos.transform size r m := by
  rw [transform, blockPos_moved, blockPos_moved]
  rfl

/-- It keeps its template. -/
theorem Entity.template_transform (size : Size) (e : Entity) :
    (e.transform r m size).template = e.template := by
  rw [transform, template_moved, template_moved]

namespace Jigsaw

/-- The own state of a connector is turned and mirrored. -/
theorem blockState_transform (size : Size) (j : Jigsaw) :
    (j.transform r m size).blockState.paletteEntry =
      j.blockState.paletteEntry.transform r m := by
  rw [transform, blockState_moved, BlockState.paletteEntry_moved, blockState_moved,
    BlockState.paletteEntry_moved]
  rfl

/-- Only where a connector stands, where it points and its final state are moved. -/
theorem transform_eq (size : Size) (j : Jigsaw) :
    ∃ orientation, j.transform r m size = { j with
      pos := j.pos.transform size r m, orientation := orientation,
      finalState := j.finalState.transform r m } := by
  obtain ⟨front, hturned⟩ := moved_eq (.rotate r) size j
  obtain ⟨top, hmoved⟩ := moved_eq (.mirror m) (size.step (.rotate r)) (j.moved (.rotate r) size)
  rw [hturned] at hmoved
  exact ⟨top, (congrArg (moved _ _) hturned).trans hmoved⟩

/-- A connector is where its cell has come to. -/
theorem pos_transform (size : Size) (j : Jigsaw) :
    (j.transform r m size).pos = j.pos.transform size r m := by
  obtain ⟨orientation, hmoved⟩ := j.transform_eq r m size
  rw [hmoved]

/-- The data of a connector that is moved has the keys of its data before and the same values,
but for the text of the final state. -/
theorem data_transform {size : Size} {j : Jigsaw} {c c' : Compound} (h : j.data 0 = .ok c)
    (h' : (j.transform r m size).data 0 = .ok c') :
    Compound.keys c' = Compound.keys c ∧
      (∀ key, key ≠ "final_state" → Compound.get? key c' = Compound.get? key c) ∧
      Compound.get? "final_state" c' = some (.string (j.finalState.transform r m).text) := by
  obtain ⟨orientation, hmoved⟩ := j.transform_eq r m size
  rw [hmoved] at h'
  obtain ⟨name, pool, target, hname, hpool, htarget, -, -, rfl⟩ := data_eq_ok.1 h
  obtain ⟨name', pool', target', hname', hpool', htarget', -, -, rfl⟩ := data_eq_ok.1 h'
  obtain rfl := Option.some.inj (hname.symm.trans hname')
  obtain rfl := Option.some.inj (hpool.symm.trans hpool')
  obtain rfl := Option.some.inj (htarget.symm.trans htarget')
  refine ⟨rfl, fun key hkey => ?_, rfl⟩
  simp [Compound.get?, Ne.symm hkey]

end Jigsaw

end

end Blueprint
