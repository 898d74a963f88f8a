import Blueprint.Plan.Bind
import Blueprint.Proofs.Outcome

/-!
# What binding does

Binding a plan to a biome writes out the materials of its blocks and nothing else: every block
keeps its cell and its template, a state that is written out already stays, and what is not a
block is not touched.
-/

namespace Blueprint

/-- A block beside the block it is when its material is written out: each material stands for one
of the states, and a block without a material stays what it is. -/
inductive Block.WrittenOut (states : String → Option BlockState) : Block → Block → Prop where
  /-- its state is written out already -/
  | direct {pos : Pos} {state : BlockState} {template : Option String} :
    WrittenOut states ⟨pos, .direct state, template⟩ ⟨pos, .direct state, template⟩
  /-- its material stands for the state -/
  | material {pos : Pos} {key : String} {state : BlockState} {template : Option String}
    (h : states key = some state) :
    WrittenOut states ⟨pos, .material key, template⟩ ⟨pos, .direct state, template⟩

/-- A block is bound if its state can be written out. -/
theorem Block.bind_eq_ok {biome : Option String} {palette : Option BiomePalette} {b b' : Block} :
    b.bind biome palette = .ok b' ↔
      b.WrittenOut (fun key => palette.bind fun p => p.get? key) b' := by
  obtain ⟨pos, state | key, template⟩ := b
  · refine ⟨?_, ?_⟩
    · intro h
      obtain rfl := Except.ok.inj h
      exact .direct
    · rintro ⟨⟩
      rfl
  · rw [bind]
    dsimp only
    split
    next state hstate =>
      refine ⟨?_, ?_⟩
      · intro h
        obtain rfl := Except.ok.inj h
        exact .material hstate
      · intro h
        cases h with
        | material hstate' => rw [Option.some.inj (hstate.symm.trans hstate')]
    -- a material that no palette defines is refused, and nothing writes it out
    next hnone =>
      refine iff_of_false (fun h => by cases h) ?_
      intro h
      cases h with
      | material hstate => cases hnone.symm.trans hstate

/-- A block that is written out keeps its cell and its template. -/
theorem Block.WrittenOut.pos_template {states : String → Option BlockState} {b b' : Block}
    (h : b.WrittenOut states b') : b'.pos = b.pos ∧ b'.template = b.template := by
  cases h with
  | direct => exact ⟨rfl, rfl⟩
  | material => exact ⟨rfl, rfl⟩

/-- Blocks are bound one after another. -/
theorem Block.bindAll_eq_mapM (biome : Option String) (palette : Option BiomePalette)
    (bs : List Block) : bindAll biome palette bs = bs.mapM (bind biome palette) := by
  induction bs with
  | nil => rfl
  | cons b bs ih => rw [bindAll, ih, List.mapM_cons]

/-- They are bound if each of them can be written out. -/
theorem Block.bindAll_eq_ok {biome : Option String} {palette : Option BiomePalette}
    {bs bound : List Block} :
    bindAll biome palette bs = .ok bound ↔
      List.Forall₂ (WrittenOut fun key => palette.bind fun p => p.get? key) bs bound := by
  rw [bindAll_eq_mapM, Outcome.mapM_eq_ok]
  simp only [bind_eq_ok]

/-- Every bound block was a block of the plan. -/
theorem Block.exists_of_mem_bindAll {biome : Option String} {palette : Option BiomePalette}
    {bs bound : List Block} (h : bindAll biome palette bs = .ok bound) {b : Block}
    (hb : b ∈ bound) : ∃ b' ∈ bs, b'.pos = b.pos ∧ b'.template = b.template := by
  rw [bindAll_eq_mapM] at h
  obtain ⟨b', hb', hbind⟩ := Outcome.exists_mem_of_mem_mapM h hb
  obtain ⟨hpos, htemplate⟩ := (bind_eq_ok.1 hbind).pos_template
  exact ⟨b', hb', hpos.symm, htemplate.symm⟩

/-- The blocks stand in the same cells in the same order. -/
theorem Block.map_pos_of_bindAll {biome : Option String} {palette : Option BiomePalette}
    {bs bound : List Block} (h : bindAll biome palette bs = .ok bound) :
    bound.map Block.pos = bs.map Block.pos := by
  rw [bindAll_eq_ok] at h
  induction h with
  | nil => rfl
  | cons hfirst _ ih => rw [List.map_cons, List.map_cons, ih, hfirst.pos_template.1]

/-- A bound plan is the plan with other blocks, each in the cell and with the template of a
block of the plan. -/
theorem Plan.exists_blocks_of_bind {biome : Option String} {p bound : Plan}
    (h : p.bind biome = .ok bound) :
    ∃ blocks, bound = { p with blocks := blocks } ∧
      ∀ b ∈ blocks, ∃ b' ∈ p.blocks, b'.pos = b.pos ∧ b'.template = b.template := by
  simp only [bind, Outcome.bind_eq_ok, Outcome.pure_eq_ok] at h
  obtain ⟨palette, -, blocks, hblocks, rfl⟩ := h
  exact ⟨blocks, rfl, fun b hb => Block.exists_of_mem_bindAll hblocks hb⟩

/-- The blocks of a bound plan are those of the plan, written out. -/
theorem Plan.exists_writtenOut_of_bind {biome : Option String} {p bound : Plan}
    (h : p.bind biome = .ok bound) :
    ∃ states, List.Forall₂ (Block.WrittenOut states) p.blocks bound.blocks := by
  simp only [bind, Outcome.bind_eq_ok, Outcome.pure_eq_ok] at h
  obtain ⟨palette, -, blocks, hblocks, rfl⟩ := h
  exact ⟨_, Block.bindAll_eq_ok.1 hblocks⟩

/-- To bind a plan keeps its connectors. -/
theorem Plan.jigsaws_of_bind {biome : Option String} {p bound : Plan}
    (h : p.bind biome = .ok bound) : bound.jigsaws = p.jigsaws := by
  obtain ⟨blocks, rfl, -⟩ := exists_blocks_of_bind h
  rfl

/-- It keeps the extents too. -/
theorem Plan.size_of_bind {biome : Option String} {p bound : Plan}
    (h : p.bind biome = .ok bound) : bound.size = p.size := by
  obtain ⟨blocks, rfl, -⟩ := exists_blocks_of_bind h
  rfl

/-- And it keeps the cells of the blocks. -/
theorem Plan.map_pos_of_bind {biome : Option String} {p bound : Plan}
    (h : p.bind biome = .ok bound) : bound.blocks.map Block.pos = p.blocks.map Block.pos := by
  simp only [bind, Outcome.bind_eq_ok, Outcome.pure_eq_ok] at h
  obtain ⟨palette, -, blocks, hblocks, rfl⟩ := h
  exact Block.map_pos_of_bindAll hblocks

end Blueprint
