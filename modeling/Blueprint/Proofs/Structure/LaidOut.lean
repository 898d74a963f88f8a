import Blueprint.Proofs.Plan.Accept
import Blueprint.Proofs.Structure.Moved
import Blueprint.Proofs.Structure.Permitted

/-!
# A structure has what its plan has

A plan that was read has no two blocks in one cell, and neither binding nor moving it brings two
blocks together. So nothing is lost when its blocks are put in by position: a structure has one
block for each occupied cell of the plan, with the state and the data that belong there. Only a
connector takes the place of a block.
-/

namespace Blueprint

open Nbt

namespace Plan

/-! ## One block for each cell -/

/-- Where no two blocks stand in one cell, each block is alone in its cell. -/
theorem blocksAt_of_nodup {p : Plan} (hnodup : (p.blocks.map Block.pos).Nodup) {a : Block}
    (ha : a ∈ p.blocks) : p.blocksAt a.pos = [a] := by
  have hthere : a ∈ p.blocksAt a.pos := List.mem_filter.2 ⟨ha, decide_eq_true rfl⟩
  have hall : ∀ b ∈ p.blocksAt a.pos, b = a := by
    intro b hb
    obtain ⟨hmem, hpos⟩ := mem_of_mem_blocksAt hb
    exact List.inj_on_of_nodup_map hnodup hmem ha hpos
  have honce : (p.blocksAt a.pos).Nodup := hnodup.of_map.filter _
  refine List.perm_singleton.1 ((List.perm_ext_iff_of_nodup honce (List.nodup_singleton a)).2 ?_)
  intro b
  rw [List.mem_singleton]
  exact ⟨hall b, fun heq => heq ▸ hthere⟩

/-- What stands in a cell with one block is that block. -/
theorem blockCell?_of_nodup {l : TemplateLibrary} {p : Plan}
    (hnodup : (p.blocks.map Block.pos).Nodup) {a : Block} (ha : a ∈ p.blocks) :
    p.blockCell? l a.pos = a.state.entry?.map fun entry => ⟨entry, a.payload? l⟩ := by
  rw [blockCell?, blocksAt_of_nodup hnodup ha]
  rfl

/-- A move brings no two blocks together. -/
theorem nodup_positions_transform {p : Plan} (hnodup : (p.blocks.map Block.pos).Nodup)
    (r : Rotation) (m : Mirror) : ((p.transform r m).blocks.map Block.pos).Nodup := by
  have hpositions : (p.transform r m).blocks.map Block.pos =
      (p.blocks.map Block.pos).map (Pos.transform p.size r m) := by
    rw [blocks_transform, List.map_map, List.map_map]
    exact List.map_congr_left fun b _ => b.pos_transform r m p.size
  rw [hpositions]
  exact hnodup.map (Pos.transform_bijective p.size r m).injective

/-! ## What a structure has -/

/-- The structure has what the plan has, and nothing else. -/
structure LaidOut (l : TemplateLibrary) (includeEntities : Bool) (p : Plan) (s : Structure) :
    Prop where
  /-- it has the extent of the plan -/
  size : s.size = p.size
  /-- it has no two blocks in one cell -/
  nodup : (s.blocks.map PlacedBlock.pos).Nodup
  /-- it has a block where the plan has a block or a connector, and nowhere else -/
  positions : ∀ q, (∃ b ∈ s.blocks, b.pos = q) ↔
    (∃ a ∈ p.blocks, a.pos = q) ∨ ∃ j ∈ p.jigsaws, j.pos = q
  /-- where the plan has a connector, the state is that of a connector that points as it does -/
  connectors : ∀ b ∈ s.blocks, ∀ j ∈ p.jigsaws, j.pos = b.pos →
    s.palette[b.paletteIndex]? =
      some ⟨"minecraft:jigsaw", .ofList [("orientation", j.orientation)]⟩
  /-- where it has a block and no connector, the state is the text form of that of the block, and
  the data is the payload of the template that the block names -/
  blocks : ∀ b ∈ s.blocks, (∀ j ∈ p.jigsaws, j.pos ≠ b.pos) → ∀ a ∈ p.blocks, a.pos = b.pos →
    (∃ state, a.state = .direct state ∧
      s.palette[b.paletteIndex]? = some state.paletteEntry) ∧
    (a.template = none → b.data = none) ∧
    ∀ name, a.template = some name →
      ∃ payload, l.get? .blockEntity name = some payload ∧ b.data = some payload
  /-- if entities are asked for, it has those of the plan in their order, with the payloads of the
  templates that they name -/
  entities : includeEntities = true →
    List.Forall₂ (fun e placed => ∃ payload, l.get? .entity e.template = some payload ∧
      placed = PlacedEntity.mk e.point e.blockPos payload) p.entities s.entities
  /-- if they are not, it has none -/
  noEntities : includeEntities = false → s.entities = []

section

variable {ctx : CompileContext} {o : CompileOptions} {p : Plan} {s : Structure}

/-- No two blocks of a structure are in one cell. -/
theorem nodup_positions_of_assembled (h : p.assembled ctx o = .ok s) :
    (s.blocks.map PlacedBlock.pos).Nodup := by
  obtain ⟨blocks, entities, connectors, -, -, -, rfl⟩ := assembled_eq_ok.1 h
  simp only [Layout.assemble, List.map_map]
  -- a layout has every key once
  exact Std.TreeMap.map_fst_toList_eq_keys ▸ Std.TreeMap.nodup_keys

/-- Every block of a plan that was put in has its state and its data. -/
theorem exists_entry_data_of_assembled (h : p.assembled ctx o = .ok s) {a : Block}
    (ha : a ∈ p.blocks) :
    (∃ state, a.state = .direct state) ∧ ∃ data, a.data ctx.templates = .ok data := by
  obtain ⟨blocks, _, _, hblocks, -, -, -⟩ := assembled_eq_ok.1 h
  obtain ⟨⟨state, hstate⟩, hdata⟩ := Layout.exists_addBlocks_eq_ok.1 ⟨blocks, hblocks⟩ a ha
  exact ⟨⟨state, boundState_eq_ok.1 hstate⟩, hdata⟩

/-- A cell is occupied exactly if the plan has a block or a connector there. -/
theorem mem_positions_iff (h : p.assembled ctx o = .ok s) {q : Pos} :
    q ∈ s.positions ↔ (∃ a ∈ p.blocks, a.pos = q) ∨ ∃ j ∈ p.jigsaws, j.pos = q := by
  have hbound : ∀ a ∈ p.blocks, a.state.entry?.isSome := by
    intro a ha
    obtain ⟨⟨state, hstate⟩, -⟩ := exists_entry_data_of_assembled h ha
    rw [hstate]
    rfl
  rw [mem_positions h, Option.isSome_iff_exists]
  refine ⟨?_, fun hthere => ?_⟩
  · rintro ⟨cell, hcell⟩
    rcases puts_of_cellAt? hcell with ⟨j, hj, hpos, -⟩ | ⟨-, a, ha, hpos, -⟩
    · exact .inr ⟨j, hj, hpos⟩
    · exact .inl ⟨a, ha, hpos⟩
  -- a connector in the cell wins over a block there
  · by_cases hjigsaw : ∃ j ∈ p.jigsaws, j.pos = q
    · obtain ⟨j, hj, hpos⟩ := hjigsaw
      exact exists_cellAt?_of_puts hbound (.inl ⟨j, hj, hpos, rfl⟩)
    · obtain ⟨a, ha, hpos⟩ := hthere.resolve_right hjigsaw
      obtain ⟨entry, hentry⟩ := Option.isSome_iff_exists.1 (hbound a ha)
      refine exists_cellAt?_of_puts hbound (.inr ⟨fun j hj hjpos => ?_, a, ha, hpos, hentry⟩)
      exact hjigsaw ⟨j, hj, hjpos⟩

/-- Where a connector stands, the state is its own. -/
theorem entry_of_assembled_of_jigsaw (h : p.assembled ctx o = .ok s) {b : PlacedBlock}
    (hb : b ∈ s.blocks) {j : Jigsaw} (hj : j ∈ p.jigsaws) (hpos : j.pos = b.pos) :
    s.palette[b.paletteIndex]? =
      some ⟨"minecraft:jigsaw", .ofList [("orientation", j.orientation)]⟩ := by
  obtain ⟨_, _, connectors, -, -, hconnectors, -⟩ := assembled_eq_ok.1 h
  have hconnected := connectedBy_of_checkJigsaws hconnectors
  obtain ⟨c, hc, -⟩ := hconnected.data j hj
  obtain ⟨cell, hcell, hentry, -⟩ := exists_cell_of_mem_blocks h hb
  have hat := hconnected.jigsawAt? hj
  rw [hpos] at hat
  rw [cellAt?_of_jigsaw hat hc] at hcell
  rw [hentry, ← Option.some.inj hcell]
  rfl

/-- Where a block and no connector stands, the state and the data are those of the block. -/
theorem entry_data_of_assembled_of_block (hnodup : (p.blocks.map Block.pos).Nodup)
    (h : p.assembled ctx o = .ok s) {b : PlacedBlock} (hb : b ∈ s.blocks)
    (hfree : ∀ j ∈ p.jigsaws, j.pos ≠ b.pos) {a : Block} (ha : a ∈ p.blocks)
    (hpos : a.pos = b.pos) :
    ∃ state, a.state = .direct state ∧ s.palette[b.paletteIndex]? = some state.paletteEntry ∧
      a.data ctx.templates = .ok b.data := by
  obtain ⟨⟨state, hstate⟩, data, hdata⟩ := exists_entry_data_of_assembled h ha
  obtain ⟨cell, hcell, hentry, hcelldata⟩ := exists_cell_of_mem_blocks h hb
  rw [cellAt?_of_no_jigsaw (jigsawAt?_eq_none.2 hfree), ← hpos, blockCell?_of_nodup hnodup ha,
    hstate, Block.payload?_of_data_eq_ok hdata] at hcell
  obtain rfl := Option.some.inj hcell
  rw [hcelldata]
  exact ⟨state, hstate, hentry, hdata⟩

/-- **A plan without two blocks in one cell is laid out as it is.** -/
theorem laidOut_of_assembled (hnodup : (p.blocks.map Block.pos).Nodup)
    (h : p.assembled ctx o = .ok s) : p.LaidOut ctx.templates o.includeEntities s where
  size := size_of_assembled h
  nodup := nodup_positions_of_assembled h
  positions q := mem_positions_iff h
  connectors b hb j hj hpos := entry_of_assembled_of_jigsaw h hb hj hpos
  blocks b hb hfree a ha hpos := by
    obtain ⟨state, hstate, hentry, hdata⟩ :=
      entry_data_of_assembled_of_block hnodup h hb hfree ha hpos
    -- what the cell carries follows from whether the block names a template
    refine ⟨⟨state, hstate, hentry⟩, fun hnone => ?_, fun name hname => ?_⟩
    · obtain ⟨-, hb⟩ | ⟨name, _, hname, -, -⟩ := Block.data_eq_ok.1 hdata
      · exact hb
      · rw [hnone] at hname
        cases hname
    · obtain ⟨hnone, -⟩ | ⟨name', payload, hname', hpayload, hb⟩ := Block.data_eq_ok.1 hdata
      · rw [hname] at hnone
        cases hnone
      · rw [hname] at hname'
        obtain rfl := Option.some.inj hname'
        exact ⟨payload, hpayload, hb⟩
  entities hinclude := by
    obtain ⟨_, entities, _, -, hentities, -, rfl⟩ := assembled_eq_ok.1 h
    rw [hinclude, if_pos rfl]
    exact (Outcome.mapM_eq_ok.1 hentities).imp fun e placed hplaced => Entity.placed_eq_ok.1 hplaced
  noEntities hexclude := by
    obtain ⟨_, _, _, -, -, -, rfl⟩ := assembled_eq_ok.1 h
    rw [hexclude]
    rfl

end

/-- **The structure of a plan that was read has exactly what the plan has**, once the plan is
bound to its biome, turned and mirrored. -/
theorem compile_laidOut {text : String} {p : Plan} {biome : Option String} {ctx : CompileContext}
    {o : CompileOptions} {s : Structure} (hparse : parse text = .ok p)
    (h : p.compile biome ctx o = .ok s) :
    ∃ bound, p.bind biome = .ok bound ∧
      (bound.transform o.rotation o.mirror).LaidOut ctx.templates o.includeEntities s := by
  obtain ⟨bound, hbind, -, hassembled⟩ := permitted_of_compile h
  have hnodup : (bound.blocks.map Block.pos).Nodup := by
    rw [map_pos_of_bind hbind]
    exact nodup_positions_of_parse hparse
  exact ⟨bound, hbind,
    laidOut_of_assembled (nodup_positions_transform hnodup o.rotation o.mirror) hassembled⟩

/-- A chest, a connector instead of a stone beside it, and a guard. -/
def hut : Plan where
  id := none
  size := ⟨2, 1, 1⟩
  blocks := [
    ⟨⟨0, 0, 0⟩, .direct ⟨"chest", .ofList [("facing", .string "north")]⟩, some "loot"⟩,
    ⟨⟨1, 0, 0⟩, .direct ⟨"stone", .empty⟩, none⟩]
  entities := [⟨⟨⟨0⟩, ⟨0⟩, ⟨0⟩⟩, .identity ⟨2, 1, 1⟩, ⟨0, 0, 0⟩, "guard"⟩]
  jigsaws := [⟨⟨1, 0, 0⟩, "south_up", "gate", "roads", "road", "rollable",
    ⟨"minecraft:air", .empty⟩⟩]
  jigsawPolicy := .unrestricted
  palettes := .empty
  tags := []

/-- The hut as a document, with its fields in order and no names for them. -/
def hutText : String :=
  "[null, null, [2, 1, 1], " ++
    "[[[0, 0, 0], \"chest\", \x7b\"facing\": \"north\"\x7d, null, \"loot\"], " ++
      "[[1, 0, 0], \"stone\"]], " ++
    "[[[1, 0, 0], \"south_up\", \"gate\", \"roads\", \"road\", \"rollable\"]], " ++
    "[[[0.0, 0.0, 0.0], [0, 0, 0], \"guard\"]]]"

/-- The text of the hut is read as the hut. -/
theorem parse_hutText : parse hutText = .ok hut :=
  Outcome.toOption_eq_some.1 (by decide +kernel)

/-- What the hut needs: its states in the directions used, and both templates. -/
def hutContext : CompileContext where
  allowlist :=
    (((Allowlist.empty.allow "chest" [("facing", ["north", "east"])]).allow "stone" []).allow
      "minecraft:air" []).allow jigsawBlock [("orientation", ["south_up", "west_up"])]
  templates := (TemplateLibrary.empty.insert .entity "guard" [("Health", .int 20)]).insert
    .blockEntity "loot" [("Lock", .string "key")]

/-- Turned by a quarter and mirrored, the hut has its chest with the loot, a connector that
points to the west, and its guard. -/
theorem compile_laidOut_hut :
    parse hutText = .ok hut ∧
    ∃ s, hut.compile none hutContext ⟨.deg90, .leftRight, true⟩ = .ok s ∧ s.size = ⟨1, 1, 2⟩ ∧
      (∃ b ∈ s.blocks, b.pos = ⟨0, 0, 1⟩ ∧ b.data = some [("Lock", .string "key")]) ∧
      (∃ b ∈ s.blocks, b.pos = ⟨0, 0, 0⟩ ∧ s.palette[b.paletteIndex]? =
        some ⟨"minecraft:jigsaw", .ofList [("orientation", "west_up")]⟩) ∧
      ∃ e, s.entities = [e] ∧ e.data = [("Health", .int 20)] := by
  obtain ⟨s, hs⟩ : ∃ s, hut.compile none hutContext ⟨.deg90, .leftRight, true⟩ = .ok s :=
    ⟨_, rfl⟩
  obtain ⟨bound, hbind, hlaid⟩ := compile_laidOut parse_hutText hs
  obtain rfl : hut = bound := Except.ok.inj hbind
  refine ⟨parse_hutText, s, hs, hlaid.size, ?_, ?_, ?_⟩
  -- the chest comes to this cell and carries its payload along
  · obtain ⟨b, hb, hpos⟩ := (hlaid.positions ⟨0, 0, 1⟩).2 (.inl ⟨_, .head _, rfl⟩)
    have hfree : ∀ j ∈ (hut.transform .deg90 .leftRight).jigsaws, j.pos ≠ b.pos := by
      rw [hpos]
      decide
    obtain ⟨-, -, hdata⟩ := hlaid.blocks b hb hfree _ (.head _) hpos.symm
    obtain ⟨payload, hpayload, hb'⟩ := hdata "loot" rfl
    exact ⟨b, hb, hpos, hb'.trans hpayload.symm⟩
  · obtain ⟨b, hb, hpos⟩ := (hlaid.positions ⟨0, 0, 0⟩).2 (.inr ⟨_, .head _, rfl⟩)
    exact ⟨b, hb, hpos, hlaid.connectors b hb _ (.head _) hpos.symm⟩
  · obtain ⟨e, es, ⟨payload, hpayload, rfl⟩, hes, hentities⟩ :=
      List.forall₂_cons_left_iff.1 (hlaid.entities rfl)
    obtain rfl := List.forall₂_nil_left_iff.1 hes
    exact ⟨_, hentities, (Option.some.inj hpayload).symm⟩

end Plan

end Blueprint
