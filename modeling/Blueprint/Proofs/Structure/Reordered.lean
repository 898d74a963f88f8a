import Blueprint.Proofs.Structure.Success
import Mathlib.Data.List.Perm.Basic

/-!
# The order in which a plan is written

The blocks of a plan and its connectors are lists, worked through from front to back, and the
palette of a structure numbers states by first use. None of this shows the order of the lists:
every check asks something of all members of a list, every cell has at most one block and one
connector, and the palette is filled in the order of the cells. So a plan may be written in any
order, and its structure is the same to the byte.
-/

namespace Blueprint

open Nbt

/-! ## Layouts -/

/-- What a layout has in its cells is all that its structure shows. -/
theorem Layout.assemble_congr {layout layout' : Layout} (size : Size)
    (entities : List PlacedEntity) (h : ∀ q : Pos, layout[q]? = layout'[q]?) :
    layout.assemble size entities = layout'.assemble size entities := by
  have hcells : layout.toList = layout'.toList :=
    (Std.TreeMap.Equiv.of_forall_constGet?_eq h).toList_eq
  rw [assemble, assemble, hcells]

namespace Plan

/-! ## Plans that differ in order -/

/-- The plans have the same blocks and the same connectors, each in some order, and differ in
nothing else. -/
structure Reordered (p p' : Plan) : Prop where
  /-- the blocks are the same -/
  blocks : p.blocks.Perm p'.blocks
  /-- the connectors are the same -/
  jigsaws : p.jigsaws.Perm p'.jigsaws
  /-- the rest is the same -/
  rest : p' = { p with blocks := p'.blocks, jigsaws := p'.jigsaws }

namespace Reordered

variable {p p' bound : Plan} {biome : Option String} {ctx : CompileContext} {o : CompileOptions}

/-- The order may be changed back. -/
theorem symm (h : p.Reordered p') : p'.Reordered p where
  blocks := h.blocks.symm
  jigsaws := h.jigsaws.symm
  rest := by rw [h.rest]

/-- It does not change the extents. -/
theorem size (h : p.Reordered p') : p'.size = p.size := by rw [h.rest]

/-- Nor does it change the entities. -/
theorem entities (h : p.Reordered p') : p'.entities = p.entities := by rw [h.rest]

/-- Every block is bound for itself, so the bound plans differ in order again. -/
theorem exists_bind (h : p.Reordered p') (hbind : p.bind biome = .ok bound) :
    ∃ bound', p'.bind biome = .ok bound' ∧ bound.Reordered bound' := by
  simp only [bind, Outcome.bind_eq_ok, Outcome.pure_eq_ok, Block.bindAll_eq_mapM,
    Outcome.mapM_eq_ok] at hbind
  obtain ⟨palette, hpalette, blocks, hblocks, rfl⟩ := hbind
  obtain ⟨blocks', hblocks', hperm⟩ := List.perm_comp_forall₂ h.blocks.symm hblocks
  have hpalette' : p'.paletteOf biome = .ok palette := by
    rw [h.rest]
    exact hpalette
  refine ⟨{ p' with blocks := blocks' }, ?_, hperm.symm, h.jigsaws, ?_⟩
  · simp only [bind, Outcome.bind_eq_ok, Outcome.pure_eq_ok, Block.bindAll_eq_mapM,
      Outcome.mapM_eq_ok]
    exact ⟨palette, hpalette', blocks', hblocks', rfl⟩
  · rw [h.rest]

/-- A step moves every part for itself. -/
theorem step (h : p.Reordered p') (s : Step) : (p.step s).Reordered (p'.step s) where
  blocks := by
    rw [blocks_step, blocks_step, h.size]
    exact h.blocks.map _
  jigsaws := by
    rw [jigsaws_step, jigsaws_step, h.size]
    exact h.jigsaws.map _
  rest := by
    rw [Plan.step, Plan.step]
    split
    · exact h.rest
    · rw [h.rest]

/-- It is kept by a turn with a mirror. -/
theorem transform (h : p.Reordered p') (r : Rotation) (m : Mirror) :
    (p.transform r m).Reordered (p'.transform r m) :=
  (h.step (.rotate r)).step (.mirror m)

/-! ## Checks -/

/-- The check of the connectors asks how many there are, whether their cells are their own, and
something of each of them. -/
theorem exists_checkJigsaws (h : p.Reordered p')
    (hconnected : ∃ connectors, p.checkJigsaws = .ok connectors) :
    ∃ connectors, p'.checkJigsaws = .ok connectors := by
  obtain ⟨hpolicy, hnodup, hdata⟩ := exists_checkJigsaws_eq_ok.1 hconnected
  have hsame : p'.jigsawPolicy = p.jigsawPolicy := by rw [h.rest]
  refine exists_checkJigsaws_eq_ok.2 ⟨?_, (h.jigsaws.map Jigsaw.pos).nodup_iff.1 hnodup, ?_⟩
  · rw [hsame, ← h.jigsaws.length_eq]
    exact hpolicy
  · intro j hj
    exact hdata j (h.jigsaws.mem_iff.2 hj)

/-- It does not matter to what is permitted. -/
theorem permitted (h : p.Reordered p') {a : Allowlist} (hpermitted : p.Permitted a) :
    p'.Permitted a where
  blocks b hb := hpermitted.blocks b (h.blocks.mem_iff.2 hb)
  connectors j hj := hpermitted.connectors j (h.jigsaws.mem_iff.2 hj)
  finals j hj := hpermitted.finals j (h.jigsaws.mem_iff.2 hj)

/-- What a plan must be like to be compiled does not depend on its order. -/
theorem compilable (h : p.Reordered p') {r : Rotation} {m : Mirror}
    (hcompilable : p.Compilable ctx r m) : p'.Compilable ctx r m where
  blocksInside b hb := by
    rw [h.size]
    exact hcompilable.blocksInside b (h.blocks.mem_iff.2 hb)
  jigsawsInside j hj := by
    rw [h.size]
    exact hcompilable.jigsawsInside j (h.jigsaws.mem_iff.2 hj)
  entitiesInside e he := by
    rw [h.size]
    exact hcompilable.entitiesInside e (h.entities ▸ he)
  connected := h.exists_checkJigsaws hcompilable.connected
  permitted := h.permitted hcompilable.permitted
  permittedMoved := (h.transform r m).permitted hcompilable.permittedMoved
  blockTemplates b hb := hcompilable.blockTemplates b (h.blocks.mem_iff.2 hb)
  entityTemplates e he := hcompilable.entityTemplates e (h.entities ▸ he)

/-- **A plan compiles in one order exactly if it does in any other.** -/
theorem exists_compile (h : p.Reordered p') (hs : ∃ s, p.compile biome ctx o = .ok s) :
    ∃ s, p'.compile biome ctx o = .ok s := by
  obtain ⟨bound, hbind, hcompilable⟩ := exists_compile_eq_ok.1 hs
  obtain ⟨bound', hbind', hbound⟩ := h.exists_bind hbind
  exact exists_compile_eq_ok.2 ⟨bound', hbind', hbound.compilable hcompilable⟩

/-! ## What stands in a cell -/

/-- Where no two blocks stand in one cell, the blocks come to the same in any order. -/
theorem blockCell? (h : p.Reordered p') (hnodup : (p.blocks.map Block.pos).Nodup)
    (l : TemplateLibrary) (q : Pos) : p'.blockCell? l q = p.blockCell? l q := by
  by_cases hthere : ∃ b ∈ p.blocks, b.pos = q
  · obtain ⟨b, hb, rfl⟩ := hthere
    have hnodup' : (p'.blocks.map Block.pos).Nodup := (h.blocks.map Block.pos).nodup_iff.1 hnodup
    rw [blockCell?_of_nodup hnodup hb, blockCell?_of_nodup hnodup' (h.blocks.mem_iff.1 hb)]
  · have hfree : p.blocksAt q = [] := List.filter_eq_nil_iff.2 fun b hb hpos =>
      hthere ⟨b, hb, of_decide_eq_true hpos⟩
    have hfree' : p'.blocksAt q = [] := by
      refine List.Perm.eq_nil ?_
      rw [← hfree]
      exact (h.blocks.filter _).symm
    rw [Plan.blockCell?, Plan.blockCell?, hfree, hfree']

/-- Where connectors stand in cells of their own, the same one is found in any order. -/
theorem jigsawAt? (h : p.Reordered p') {connectors' : SortedMap Pos Compound}
    (hconnected' : p'.ConnectedBy connectors') (q : Pos) :
    p'.jigsawAt? q = p.jigsawAt? q := by
  cases hj : p.jigsawAt? q with
  | none =>
    rw [jigsawAt?_eq_none] at hj ⊢
    exact fun j hmem => hj j (h.jigsaws.mem_iff.2 hmem)
  | some j =>
    obtain ⟨hmem, rfl⟩ := mem_of_jigsawAt? hj
    exact hconnected'.jigsawAt? (h.jigsaws.mem_iff.1 hmem)

/-- Plans that are written in different orders are assembled into one structure. -/
theorem assembled_eq (h : p.Reordered p') (hnodup : (p.blocks.map Block.pos).Nodup)
    {s s' : Structure} (hs : p.assembled ctx o = .ok s) (hs' : p'.assembled ctx o = .ok s') :
    s' = s := by
  obtain ⟨blocks, entities, connectors, hblocks, hentities, hconnectors, rfl⟩ :=
    assembled_eq_ok.1 hs
  obtain ⟨blocks', entities', connectors', hblocks', hentities', hconnectors', rfl⟩ :=
    assembled_eq_ok.1 hs'
  rw [h.entities, hentities] at hentities'
  obtain rfl := Except.ok.inj hentities'
  rw [h.size]
  refine Layout.assemble_congr _ _ fun q => ?_
  rw [getElem?_layout hblocks hconnectors, getElem?_layout hblocks' hconnectors']
  rw [cellAt?, cellAt?, h.jigsawAt? (connectedBy_of_checkJigsaws hconnectors'),
    h.blockCell? hnodup]

end Reordered

/-! ## Compiled plans -/

/-- **The order in which a plan is written does not show.** If the blocks and the connectors of a
plan that was read are put into any other order, the plan compiles as before or not at all as
before, and then into the same structure with the same bytes. -/
theorem compile_reordered {text : String} {p : Plan} (hparse : parse text = .ok p)
    {blocks : List Block} {jigsaws : List Jigsaw} (hblocks : blocks.Perm p.blocks)
    (hjigsaws : jigsaws.Perm p.jigsaws) (biome : Option String) (ctx : CompileContext)
    (o : CompileOptions) :
    let p' := { p with blocks := blocks, jigsaws := jigsaws }
    ((∃ s, p'.compile biome ctx o = .ok s) ↔ ∃ s, p.compile biome ctx o = .ok s) ∧
    ∀ s s', p.compile biome ctx o = .ok s → p'.compile biome ctx o = .ok s' →
      s' = s ∧ s'.encode = s.encode := by
  intro p'
  have h : p.Reordered p' := ⟨hblocks.symm, hjigsaws.symm, rfl⟩
  refine ⟨⟨h.symm.exists_compile, h.exists_compile⟩, fun s s' hs hs' => ?_⟩
  obtain ⟨bound, hbind, -, hassembled⟩ := permitted_of_compile hs
  obtain ⟨bound', hbind', -, hassembled'⟩ := permitted_of_compile hs'
  obtain ⟨bound'', hbind'', hbound⟩ := h.exists_bind hbind
  obtain rfl := Except.ok.inj (hbind'.symm.trans hbind'')
  -- each cell has one block, so the order of the blocks does not decide which one stands there
  have hnodup : (bound.blocks.map Block.pos).Nodup := by
    rw [map_pos_of_bind hbind]
    exact nodup_positions_of_parse hparse
  have hsame : s' = s := (hbound.transform o.rotation o.mirror).assembled_eq
    (nodup_positions_transform hnodup o.rotation o.mirror) hassembled hassembled'
  exact ⟨hsame, congrArg Structure.encode hsame⟩

/-- The hut with its stone written before its chest is compiled into the same structure. -/
theorem compile_reordered_hut :
    parse hutText = .ok hut ∧ hut.blocks.reverse.Perm hut.blocks ∧
    ∃ s, hut.compile none hutContext ⟨.deg90, .leftRight, true⟩ = .ok s ∧
      { hut with blocks := hut.blocks.reverse }.compile none hutContext
        ⟨.deg90, .leftRight, true⟩ = .ok s := by
  obtain ⟨s, hs⟩ : ∃ s, hut.compile none hutContext ⟨.deg90, .leftRight, true⟩ = .ok s :=
    ⟨_, rfl⟩
  have hperm : hut.blocks.reverse.Perm hut.blocks := hut.blocks.reverse_perm
  obtain ⟨hiff, hsame⟩ := compile_reordered parse_hutText hperm (.refl hut.jigsaws) none
    hutContext ⟨.deg90, .leftRight, true⟩
  obtain ⟨s', hs'⟩ := hiff.2 ⟨s, hs⟩
  obtain ⟨rfl, -⟩ := hsame s s' hs hs'
  exact ⟨parse_hutText, hperm, s', hs, hs'⟩

end Plan

end Blueprint
