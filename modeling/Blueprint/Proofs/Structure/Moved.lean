import Blueprint.Proofs.Nbt.Compound
import Blueprint.Proofs.Plan.Bind
import Blueprint.Proofs.Plan.Moved
import Mathlib.Data.List.Nodup
import Mathlib.Data.Set.Function

/-!
# Compiling a moved plan

Turning and mirroring a plan before it is compiled gives the structure of the plan as it is,
turned and mirrored. The two runs number their states differently and sort their blocks
differently, so they are compared cell by cell, by way of what the plan puts into each cell.
-/

namespace Blueprint

open Nbt

/-! ## Cells -/

namespace Layout

/-- Entries laid over like data give like data. -/
theorem keys_connectorData {c c' : Compound} (h : Compound.keys c' = Compound.keys c)
    (there : Option Cell) :
    Compound.keys (connectorData c' there) = Compound.keys (connectorData c there) := by
  rw [connectorData, connectorData]
  split
  · exact Compound.keys_insertAll_congr h _
  · exact h

/-- A key with like values in both has like values when entries are laid over. -/
theorem get?_connectorData {c c' : Compound} {key : String}
    (h : Compound.get? key c' = Compound.get? key c) (there : Option Cell) :
    Compound.get? key (connectorData c' there) = Compound.get? key (connectorData c there) := by
  rw [connectorData, connectorData]
  split
  · exact Compound.get?_insertAll_congr h _
  · exact h

/-- What is laid over the data of a connector does not change when its cell is moved. -/
theorem connectorData_transform (c : Compound) (there : Option Cell) (r : Rotation) (m : Mirror) :
    connectorData c (there.map (Cell.transform r m)) = connectorData c there := by
  cases there <;> rfl

/-- A key that the data laid over does not have keeps its value. -/
theorem get?_connectorData_of_none {c : Compound} {key : String} {there : Option Cell}
    (h : ∀ template, there.bind Cell.data = some template → Compound.get? key template = none) :
    Compound.get? key (connectorData c there) = Compound.get? key c := by
  rw [connectorData]
  split
  next template htemplate => exact Compound.get?_insertAll_of_get?_eq_none (h template htemplate)
  next => rfl

end Layout

namespace Plan

variable {l : TemplateLibrary} {p : Plan} {r : Rotation} {m : Mirror} {q : Pos} {cell cell' : Cell}

/-- Something stands in the cell that a cell becomes exactly if something stands in the cell,
and then it is the state of that, moved. -/
theorem cellAt?_transform (l : TemplateLibrary) (p : Plan) (r : Rotation) (m : Mirror) (q : Pos) :
    ((p.transform r m).cellAt? l (q.transform p.size r m)).map Cell.entry =
      (p.cellAt? l q).map fun cell => cell.entry.transform r m := by
  rw [cellAt?, cellAt?, jigsawAt?_transform, blockCell?_transform]
  cases p.jigsawAt? q with
  | some j => exact congrArg some (j.blockState_transform r m p.size)
  | none =>
    rw [Option.map_none, Option.map_map]
    rfl

/-- Where no connector stands, the data travels with the block. -/
theorem data_transform_of_no_jigsaw (hq : ∀ j ∈ p.jigsaws, j.pos ≠ q)
    (h : p.cellAt? l q = some cell)
    (h' : (p.transform r m).cellAt? l (q.transform p.size r m) = some cell') :
    cell'.data = cell.data := by
  have hnone : p.jigsawAt? q = none := jigsawAt?_eq_none.2 hq
  have hnone' : (p.transform r m).jigsawAt? (q.transform p.size r m) = none := by
    rw [jigsawAt?_transform, hnone]
    rfl
  rw [cellAt?_of_no_jigsaw hnone] at h
  rw [cellAt?_of_no_jigsaw hnone', blockCell?_transform, h] at h'
  exact Option.some.inj h' ▸ rfl

/-- The data in the cell of a connector of the plan, and the data in the cell that it becomes when
the plan is turned and mirrored. -/
structure ConnectorTransformed (l : TemplateLibrary) (p : Plan) (r : Rotation) (m : Mirror)
    (j : Jigsaw) (d d' : Compound) : Prop where
  /-- the keys are the same, in the same order -/
  keys : Compound.keys d' = Compound.keys d
  /-- so are their values, but for that of the final state -/
  get? : ∀ key, key ≠ "final_state" → Compound.get? key d' = Compound.get? key d
  /-- the final state is moved, unless a template that a block in the cell names says another one -/
  finalState : (∀ a ∈ p.blocks, a.pos = j.pos → ∀ template, a.payload? l = some template →
      Compound.get? "final_state" template = none) →
    Compound.get? "final_state" d' = some (.string (j.finalState.transform r m).text)

/-- Where a connector stands, its data is that of the connector as it was, except that its
final state is moved unless a template says another one. -/
theorem data_transform_of_jigsaw {j : Jigsaw} {c c' : Compound} (hj : p.jigsawAt? q = some j)
    (hc : j.data 0 = .ok c) (hc' : (j.transform r m p.size).data 0 = .ok c')
    (h : p.cellAt? l q = some cell)
    (h' : (p.transform r m).cellAt? l (q.transform p.size r m) = some cell') :
    ∃ d d', cell.data = some d ∧ cell'.data = some d' ∧ p.ConnectorTransformed l r m j d d' := by
  obtain ⟨hkeys, hvalues, hfinal⟩ := j.data_transform r m hc hc'
  obtain ⟨-, hjpos⟩ := mem_of_jigsawAt? hj
  have hj' : (p.transform r m).jigsawAt? (q.transform p.size r m) =
      some (j.transform r m p.size) := by
    rw [jigsawAt?_transform, hj]
    rfl
  rw [cellAt?_of_jigsaw hj hc] at h
  rw [cellAt?_of_jigsaw hj' hc', blockCell?_transform] at h'
  obtain rfl := Option.some.inj h
  obtain rfl := Option.some.inj h'
  refine ⟨_, _, rfl, congrArg some (Layout.connectorData_transform c' _ r m),
    Layout.keys_connectorData hkeys _,
    fun key hkey => Layout.get?_connectorData (hvalues key hkey) _, fun hplain => ?_⟩
  -- the final state is that of the connector unless a payload overrides it
  rw [Layout.get?_connectorData_of_none fun template htemplate => ?_, hfinal]
  obtain ⟨b, hb, hpos, hpayload⟩ := exists_block_of_blockCell? htemplate
  exact hplain b hb (hpos.trans hjpos.symm) template hpayload

/-- A written-out plan names the templates of the plan it was written from. -/
theorem ConnectorTransformed.of_bind {biome : Option String} {bound : Plan} {j : Jigsaw}
    {d d' : Compound} (hbind : p.bind biome = .ok bound)
    (h : bound.ConnectorTransformed l r m j d d') : p.ConnectorTransformed l r m j d d' where
  keys := h.keys
  get? := h.get?
  finalState := by
    obtain ⟨blocks, rfl, hblocks⟩ := exists_blocks_of_bind hbind
    refine fun hplain => h.finalState fun a ha hpos template htemplate => ?_
    obtain ⟨a', ha', hsame, hnamed⟩ := hblocks a ha
    refine hplain a' ha' (hsame.trans hpos) template ?_
    rw [Block.payload?, hnamed]
    exact htemplate

end Plan

/-! ## Entities -/

/-- Entities that keep their templates keep their data, and their order. -/
theorem Entity.placed_map {l : TemplateLibrary} {f : Entity → Entity} {g : Pos → Pos}
    {es : List Entity} {placed placed' : List PlacedEntity}
    (htemplate : ∀ e, (f e).template = e.template) (hpos : ∀ e, (f e).blockPos = g e.blockPos)
    (h : (es.mapM fun e => e.placed l) = .ok placed)
    (h' : ((es.map f).mapM fun e => e.placed l) = .ok placed') :
    placed'.map PlacedEntity.data = placed.map PlacedEntity.data ∧
      placed'.map PlacedEntity.blockPos = placed.map fun e => g e.blockPos := by
  induction es generalizing placed placed' with
  | nil =>
    obtain rfl := Except.ok.inj h
    obtain rfl := Except.ok.inj h'
    exact ⟨rfl, rfl⟩
  | cons e es ih =>
    simp only [List.map_cons, List.mapM_cons, Outcome.bind_eq_ok, Outcome.pure_eq_ok,
      Entity.placed_eq_ok] at h h'
    obtain ⟨_, ⟨payload, hpayload, rfl⟩, rest, hrest, rfl⟩ := h
    obtain ⟨_, ⟨payload', hpayload', rfl⟩, rest', hrest', rfl⟩ := h'
    rw [htemplate, hpayload] at hpayload'
    obtain rfl := Option.some.inj hpayload'
    obtain ⟨hdata, hposs⟩ := ih hrest hrest'
    refine ⟨?_, ?_⟩
    · rw [List.map_cons, List.map_cons, hdata]
    · rw [List.map_cons, List.map_cons, hposs, hpos]

/-! ## Structures -/

/-- The cells of a structure in which a block stands. -/
def Structure.positions (s : Structure) : Set Pos := {q | ∃ b ∈ s.blocks, b.pos = q}

namespace Plan

variable {ctx : CompileContext} {o o' : CompileOptions} {p : Plan} {r : Rotation} {m : Mirror}
  {s s' : Structure}

/-- A structure has the extent of its plan. -/
theorem size_of_assembled (h : p.assembled ctx o = .ok s) : s.size = p.size := by
  obtain ⟨_, _, _, -, -, -, rfl⟩ := assembled_eq_ok.1 h
  rfl

/-- A cell of a structure is occupied if the plan puts something into it. -/
theorem mem_positions (h : p.assembled ctx o = .ok s) {q : Pos} :
    q ∈ s.positions ↔ (p.cellAt? ctx.templates q).isSome := by
  refine ⟨fun ⟨b, hb, hpos⟩ => ?_, fun hsome => ?_⟩
  · obtain ⟨cell, hcell, -⟩ := exists_cell_of_mem_blocks h hb
    rw [← hpos, hcell]
    rfl
  · obtain ⟨cell, hcell⟩ := Option.isSome_iff_exists.1 hsome
    obtain ⟨b, hb, hpos, -⟩ := (holds_of_assembled h).2 hcell
    exact ⟨b, hb, hpos⟩

/-- The occupied cells are moved one to one. -/
theorem bijOn_positions (h : p.assembled ctx o = .ok s)
    (h' : (p.transform r m).assembled ctx o' = .ok s') :
    Set.BijOn (Pos.transform p.size r m) s.positions s'.positions := by
  -- both structures are compared with the plan: a cell has an account before the move exactly
  -- if the cell that it becomes has one after it
  have hiff (q : Pos) : q.transform p.size r m ∈ s'.positions ↔ q ∈ s.positions := by
    have hentries := congrArg Option.isSome (cellAt?_transform ctx.templates p r m q)
    rw [Option.isSome_map, Option.isSome_map] at hentries
    rw [mem_positions h, mem_positions h', hentries]
  refine ⟨fun q hq => (hiff q).2 hq, (Pos.transform_bijective p.size r m).injective.injOn, ?_⟩
  intro q' hq'
  obtain ⟨q, rfl⟩ := (Pos.transform_bijective p.size r m).surjective q'
  exact ⟨q, (hiff q).1 hq', rfl⟩

/-- A connector that passes its check is the one in its cell. -/
theorem ConnectedBy.jigsawAt? {connectors : SortedMap Pos Compound}
    (h : p.ConnectedBy connectors) {j : Jigsaw} (hj : j ∈ p.jigsaws) :
    p.jigsawAt? j.pos = some j := by
  cases hfind : p.jigsawAt? j.pos with
  | none => exact absurd rfl (jigsawAt?_eq_none.1 hfind j hj)
  | some j' =>
    obtain ⟨hj', hpos⟩ := mem_of_jigsawAt? hfind
    rw [List.inj_on_of_nodup_map h.nodup hj' hj hpos]

/-- The entities keep their order and their data, and their cells are moved. -/
theorem entities_of_assembled (h : p.assembled ctx o = .ok s)
    (h' : (p.transform r m).assembled ctx o' = .ok s')
    (hsame : o'.includeEntities = o.includeEntities) :
    s'.entities.map PlacedEntity.data = s.entities.map PlacedEntity.data ∧
      s'.entities.map PlacedEntity.blockPos =
        s.entities.map fun e => e.blockPos.transform p.size r m := by
  obtain ⟨_, entities, _, -, hentities, -, rfl⟩ := assembled_eq_ok.1 h
  obtain ⟨_, entities', _, -, hentities', -, rfl⟩ := assembled_eq_ok.1 h'
  rw [entities_transform] at hentities'
  have hmoved := Entity.placed_map (Entity.template_transform r m p.size)
    (Entity.blockPos_transform r m p.size) hentities hentities'
  dsimp only [Layout.assemble]
  rw [hsame]
  split
  · exact hmoved
  · exact ⟨rfl, rfl⟩

/-- A connector passes its check before the move and after it. -/
theorem exists_data_of_assembled (h : p.assembled ctx o = .ok s)
    (h' : (p.transform r m).assembled ctx o' = .ok s') {j : Jigsaw} (hj : j ∈ p.jigsaws) :
    p.jigsawAt? j.pos = some j ∧
      ∃ c c', j.data 0 = .ok c ∧ (j.transform r m p.size).data 0 = .ok c' := by
  obtain ⟨_, _, connectors, -, -, hconnectors, -⟩ := assembled_eq_ok.1 h
  obtain ⟨_, _, connectors', -, -, hconnectors', -⟩ := assembled_eq_ok.1 h'
  have hconnected := connectedBy_of_checkJigsaws hconnectors
  have hmoved : j.transform r m p.size ∈ (p.transform r m).jigsaws := by
    rw [jigsaws_transform]
    exact List.mem_map_of_mem hj
  obtain ⟨c, hc, -⟩ := hconnected.data j hj
  obtain ⟨c', hc', -⟩ := (connectedBy_of_checkJigsaws hconnectors').data _ hmoved
  exact ⟨hconnected.jigsawAt? hj, c, c', hc, hc'⟩

section

variable {b b' : PlacedBlock} (h : p.assembled ctx o = .ok s)
  (h' : (p.transform r m).assembled ctx o' = .ok s') (hb : b ∈ s.blocks) (hb' : b' ∈ s'.blocks)
  (hpos : b'.pos = b.pos.transform p.size r m)

include h h' hb hb' hpos

/-- The state of a block is moved. -/
theorem entry_of_assembled :
    ∃ e, s.palette[b.paletteIndex]? = some e ∧
      s'.palette[b'.paletteIndex]? = some (e.transform r m) := by
  obtain ⟨cell, hcell, hentry, -⟩ := exists_cell_of_mem_blocks h hb
  obtain ⟨cell', hcell', hentry', -⟩ := exists_cell_of_mem_blocks h' hb'
  refine ⟨cell.entry, hentry, ?_⟩
  rw [hpos] at hcell'
  have hmoved := cellAt?_transform ctx.templates p r m b.pos
  rw [hcell', hcell] at hmoved
  rw [hentry']
  exact hmoved

/-- The data of a block that is no connector stays. -/
theorem data_of_assembled_of_no_jigsaw (hfree : ∀ j ∈ p.jigsaws, j.pos ≠ b.pos) :
    b'.data = b.data := by
  obtain ⟨cell, hcell, -, hdata⟩ := exists_cell_of_mem_blocks h hb
  obtain ⟨cell', hcell', -, hdata'⟩ := exists_cell_of_mem_blocks h' hb'
  rw [hpos] at hcell'
  rw [hdata, hdata']
  exact data_transform_of_no_jigsaw hfree hcell hcell'

/-- The data of a connector stays, but for its final state. -/
theorem data_of_assembled_of_jigsaw {j : Jigsaw} (hj : j ∈ p.jigsaws) (hjpos : j.pos = b.pos) :
    ∃ d d', b.data = some d ∧ b'.data = some d' ∧
      p.ConnectorTransformed ctx.templates r m j d d' := by
  obtain ⟨cell, hcell, -, hdata⟩ := exists_cell_of_mem_blocks h hb
  obtain ⟨cell', hcell', -, hdata'⟩ := exists_cell_of_mem_blocks h' hb'
  obtain ⟨hat, c, c', hc, hc'⟩ := exists_data_of_assembled h h' hj
  rw [hpos] at hcell'
  rw [hjpos] at hat
  rw [hdata, hdata']
  exact data_transform_of_jigsaw hat hc hc' hcell hcell'

end

/-- A block of the structure of a plan, and the block in the cell that its cell becomes, in the
structure of the plan turned and mirrored. -/
structure BlockTransformed (l : TemplateLibrary) (p : Plan) (r : Rotation) (m : Mirror)
    (s s' : Structure) (b b' : PlacedBlock) : Prop where
  /-- the state is moved -/
  entry : ∃ e, s.palette[b.paletteIndex]? = some e ∧
    s'.palette[b'.paletteIndex]? = some (e.transform r m)
  /-- where the plan has no connector, the data stays -/
  data : (∀ j ∈ p.jigsaws, j.pos ≠ b.pos) → b'.data = b.data
  /-- where it has one, the data stays but for the final state of the connector -/
  connector : ∀ j ∈ p.jigsaws, j.pos = b.pos → ∃ d d', b.data = some d ∧ b'.data = some d' ∧
    p.ConnectorTransformed l r m j d d'

/-- The structure of a plan, and the structure of the plan turned and mirrored. -/
structure Transformed (l : TemplateLibrary) (p : Plan) (r : Rotation) (m : Mirror)
    (s s' : Structure) : Prop where
  /-- the extents are those of the turned box -/
  size : s'.size = s.size.transform r m
  /-- the occupied cells are moved one to one -/
  positions : Set.BijOn (Pos.transform s.size r m) s.positions s'.positions
  /-- what stands in a cell is moved with it -/
  blocks : ∀ b ∈ s.blocks, ∀ b' ∈ s'.blocks, b'.pos = b.pos.transform s.size r m →
    p.BlockTransformed l r m s s' b b'
  /-- the entities keep their order and their data -/
  entityData : s'.entities.map PlacedEntity.data = s.entities.map PlacedEntity.data
  /-- their cells are moved -/
  entityCells : s'.entities.map PlacedEntity.blockPos =
    s.entities.map fun e => e.blockPos.transform s.size r m

/-- **Compiling a moved plan gives the moved structure.** Compiled as it is and compiled turned
and mirrored, a plan fills cells that correspond one to one; the states in them are those of
the cells, moved, and the data is the same, except that the final state of a connector is
moved unless a template says another one. Entities keep their order and their data. -/
theorem compile_transform {biome : Option String} {includeEntities : Bool}
    (h : p.compile biome ctx ⟨.deg0, .off, includeEntities⟩ = .ok s)
    (h' : p.compile biome ctx ⟨r, m, includeEntities⟩ = .ok s') :
    p.Transformed ctx.templates r m s s' := by
  obtain ⟨bound, moved, hauthored, hplaced, hs⟩ := compile_eq_ok.1 h
  obtain ⟨bound', moved', hauthored', hplaced', hs'⟩ := compile_eq_ok.1 h'
  -- both start from the same plan with its materials written out, and the first leaves it as it is
  obtain rfl := Except.ok.inj (hauthored.symm.trans hauthored')
  obtain ⟨hmoved, -⟩ := placed_eq_ok.1 hplaced
  obtain rfl := hmoved.trans (transform_of_keepsPlace rfl bound)
  obtain ⟨rfl, -⟩ := placed_eq_ok.1 hplaced'
  have hsize := size_of_assembled hs
  obtain ⟨hbind, -⟩ := authored_eq_ok.1 hauthored
  have hjigsaws := jigsaws_of_bind hbind
  obtain ⟨hdata, hcells⟩ := entities_of_assembled hs hs' rfl
  constructor
  case size => rw [size_of_assembled hs', size_transform, hsize]
  case positions =>
    rw [hsize]
    exact bijOn_positions hs hs'
  case blocks =>
    intro b hb b' hb' hpos
    rw [hsize] at hpos
    constructor
    case entry => exact entry_of_assembled hs hs' hb hb' hpos
    -- without a connector the cell keeps the payload of its block, which no step reads
    case data =>
      intro hfree
      rw [← hjigsaws] at hfree
      exact data_of_assembled_of_no_jigsaw hs hs' hb hb' hpos hfree
    case connector =>
      intro j hj hjpos
      rw [← hjigsaws] at hj
      obtain ⟨d, d', hd, hd', hmoved⟩ := data_of_assembled_of_jigsaw hs hs' hb hb' hpos hj hjpos
      exact ⟨d, d', hd, hd', hmoved.of_bind hbind⟩
  case entityData => exact hdata
  case entityCells =>
    rw [hsize]
    exact hcells

/-- A stair, a connector behind it that a stair to the south replaces in the end, and a guard. -/
def gate : Plan where
  id := none
  size := ⟨1, 1, 2⟩
  blocks := [⟨⟨0, 0, 0⟩, .direct ⟨"stairs", .ofList [("facing", .string "north")]⟩, none⟩]
  entities := [⟨⟨⟨0⟩, ⟨0⟩, ⟨0⟩⟩, .identity ⟨1, 1, 2⟩, ⟨0, 0, 0⟩, "guard"⟩]
  jigsaws := [⟨⟨0, 0, 1⟩, "south_up", "gate", "roads", "road", "rollable",
    ⟨"stairs", .ofList [("facing", .string "south")]⟩⟩]
  jigsawPolicy := .unrestricted
  palettes := .empty
  tags := []

/-- What the gate needs: stairs and connectors in the directions used, and the guard. -/
def gateContext : CompileContext where
  allowlist :=
    (Allowlist.empty.allow "stairs" [("facing", ["north", "east", "south", "west"])]).allow
      jigsawBlock [("orientation", ["south_up", "west_up"])]
  templates := TemplateLibrary.empty.insert .entity "guard" [("Health", .int 20)]

/-- The gate turned by a quarter and mirrored lies along the other axis, and the stair that
replaces its connector points to the west. -/
theorem compile_transform_gate :
    ∃ s s', gate.compile none gateContext ⟨.deg0, .off, true⟩ = .ok s ∧
      gate.compile none gateContext ⟨.deg90, .leftRight, true⟩ = .ok s' ∧
      s'.size = ⟨2, 1, 1⟩ ∧
      s'.entities.map PlacedEntity.data = s.entities.map PlacedEntity.data ∧
      ∃ b ∈ s'.blocks, ∃ d, b.data = some d ∧
        Compound.get? "final_state" d = some (.string "stairs[facing=west]") := by
  obtain ⟨s, hs, hsize, b, hb, hpos⟩ :
      ∃ s, gate.compile none gateContext ⟨.deg0, .off, true⟩ = .ok s ∧ s.size = gate.size ∧
        ∃ b ∈ s.blocks, b.pos = ⟨0, 0, 1⟩ :=
    ⟨_, rfl, rfl, _, .tail _ (.head _), rfl⟩
  obtain ⟨s', hs'⟩ : ∃ s', gate.compile none gateContext ⟨.deg90, .leftRight, true⟩ = .ok s' :=
    ⟨_, rfl⟩
  have hmoved := compile_transform hs hs'
  obtain ⟨b', hb', hpos'⟩ := hmoved.positions.mapsTo ⟨b, hb, rfl⟩
  obtain ⟨_, d, -, hd, hconnector⟩ :=
    (hmoved.blocks b hb b' hb' hpos').connector _ (.head _) hpos.symm
  refine ⟨s, s', hs, hs', ?_, hmoved.entityData, b', hb', d, hd,
    hconnector.finalState fun a ha hapos => ?_⟩
  · rw [hmoved.size, hsize]
    decide
  · obtain rfl := List.mem_singleton.1 ha
    exact absurd hapos (by decide)

end Plan

end Blueprint
