import Blueprint.Proofs.Allowlist
import Blueprint.Proofs.Structure.Layout

/-!
# Nothing but permitted states

The states of a plan are checked as typed values, before and after the plan is moved, and
come out as texts. `Permits` says in terms of these texts what an allowlist permits. A
structure has only permitted states, and each of them is one that the moved plan puts into
its cell: a state that is not permitted ends the compilation, and none is mended.
-/

namespace Blueprint

/-! ## What is permitted -/

namespace Allowlist

/-- The allowlist has the block, and for every property of the entry it has the value. -/
def Permits (a : Allowlist) (e : PaletteEntry) : Prop :=
  ∃ rules, a.blocks.get? e.name = some rules ∧ ∀ property ∈ e.properties.entries,
    ∃ values, rules.get? property.1 = some values ∧ values.contains property.2 = true

/-- A state passes the check exactly if its texts are permitted. -/
theorem validate_eq_ok {a : Allowlist} {state : BlockState} :
    a.validate state = .ok () ↔ a.Permits state.paletteEntry := by
  simp only [validate_eq_ok_iff, Permits, BlockState.paletteEntry, SortedMap.map,
    List.forall_mem_map]
  refine ⟨?_, ?_⟩
  · rintro ⟨⟨rules, hrules⟩, hvalues⟩
    exact ⟨rules, hrules, fun e he => (hasValue_of_get? hrules).1 (hvalues e he)⟩
  · rintro ⟨rules, hrules, hvalues⟩
    exact ⟨⟨rules, hrules⟩, fun e he => (hasValue_of_get? hrules).2 (hvalues e he)⟩

end Allowlist

/-! ## Plans with permitted states -/

namespace Plan

/-- Every state of the plan is permitted: those of its blocks, and those of its connectors now
and in the end. -/
structure Permitted (a : Allowlist) (p : Plan) : Prop where
  /-- the states of the blocks -/
  blocks : ∀ b ∈ p.blocks, ∃ e, b.state.entry? = some e ∧ a.Permits e
  /-- the states of the connectors -/
  connectors : ∀ j ∈ p.jigsaws, a.Permits j.blockState.paletteEntry
  /-- the states that replace the connectors in the end -/
  finals : ∀ j ∈ p.jigsaws, a.Permits j.finalState.paletteEntry

variable {a : Allowlist}

/-- A state is allowed if its entry is. -/
theorem checkState_eq_ok {pos : Pos} {state : BlockState} :
    checkState a pos state = .ok () ↔ a.Permits state.paletteEntry := by
  rw [checkState, Outcome.mapError_eq_ok, Allowlist.validate_eq_ok]

/-- Blocks are allowed if each of them has an entry that is. -/
theorem checkBlocks_eq_ok {bs : List Block} :
    checkBlocks a bs = .ok () ↔ ∀ b ∈ bs, ∃ e, b.state.entry? = some e ∧ a.Permits e := by
  induction bs with
  | nil => exact iff_of_true rfl fun b h => absurd h List.not_mem_nil
  | cons b bs ih =>
    rw [List.forall_mem_cons, ← ih]
    simp only [checkBlocks, Outcome.bind_eq_ok]
    refine ⟨fun ⟨state, hstate, ⟨⟩, hcheck, hrest⟩ => ?_, fun ⟨⟨e, he, hpermits⟩, hrest⟩ => ?_⟩
    · rw [boundState_eq_ok] at hstate
      refine ⟨⟨state.paletteEntry, ?_, checkState_eq_ok.1 hcheck⟩, hrest⟩
      rw [hstate]
      rfl
    · obtain ⟨state, hstate, rfl⟩ := StateRef.exists_of_entry? he
      exact ⟨state, boundState_eq_ok.2 hstate, (), checkState_eq_ok.2 hpermits, hrest⟩

/-- Connectors are allowed if their own states and their final ones are. -/
theorem checkConnectors_eq_ok {js : List Jigsaw} :
    checkConnectors a js = .ok () ↔ ∀ j ∈ js,
      a.Permits j.blockState.paletteEntry ∧ a.Permits j.finalState.paletteEntry := by
  induction js with
  | nil => exact iff_of_true rfl fun j h => absurd h List.not_mem_nil
  | cons j js ih =>
    rw [List.forall_mem_cons, ← ih]
    simp only [checkConnectors, Outcome.bind_eq_ok]
    refine ⟨?_, ?_⟩
    · rintro ⟨⟨⟩, hnow, ⟨⟩, hend, hrest⟩
      exact ⟨⟨checkState_eq_ok.1 hnow, checkState_eq_ok.1 hend⟩, hrest⟩
    · rintro ⟨⟨hnow, hend⟩, hrest⟩
      exact ⟨(), checkState_eq_ok.2 hnow, (), checkState_eq_ok.2 hend, hrest⟩

/-- A plan passes the check exactly if all its states are permitted. -/
theorem checkStates_eq_ok {p : Plan} : p.checkStates a = .ok () ↔ p.Permitted a := by
  simp only [checkStates, Outcome.bind_eq_ok]
  refine ⟨fun ⟨⟨⟩, hblocks, hconnectors⟩ => ?_, fun h => ?_⟩
  · have hconnectors := checkConnectors_eq_ok.1 hconnectors
    exact ⟨checkBlocks_eq_ok.1 hblocks, fun j hj => (hconnectors j hj).1,
      fun j hj => (hconnectors j hj).2⟩
  · exact ⟨(), checkBlocks_eq_ok.2 h.blocks,
      checkConnectors_eq_ok.2 fun j hj => ⟨h.connectors j hj, h.finals j hj⟩⟩

/-- What a plan with permitted states puts into a cell is permitted. -/
theorem Permitted.permits_of_puts {p : Plan} (h : p.Permitted a) {q : Pos} {e : PaletteEntry}
    (he : p.Puts q e) : a.Permits e := by
  rcases he with ⟨j, hj, -, rfl⟩ | ⟨-, b, hb, -, hentry⟩
  · exact h.connectors j hj
  · obtain ⟨e', he', hpermits⟩ := h.blocks b hb
    rw [hentry] at he'
    exact Option.some.inj he' ▸ hpermits

variable {biome : Option String} {ctx : CompileContext} {o : CompileOptions} {p : Plan}

/-- Whichever way a plan is moved, it is checked as it is then. -/
theorem permitted_of_compile {s : Structure} (h : p.compile biome ctx o = .ok s) :
    ∃ bound, p.bind biome = .ok bound ∧
      (bound.transform o.rotation o.mirror).Permitted ctx.allowlist ∧
      (bound.transform o.rotation o.mirror).assembled ctx o = .ok s := by
  obtain ⟨bound, moved, hauthored, hplaced, hassembled⟩ := compile_eq_ok.1 h
  obtain ⟨hbind, -, -, hstates⟩ := authored_eq_ok.1 hauthored
  obtain ⟨rfl, hmoved⟩ := placed_eq_ok.1 hplaced
  refine ⟨bound, hbind, ?_, hassembled⟩
  by_cases hkeeps : o.keepsPlace = true
  · rw [transform_of_keepsPlace hkeeps]
    exact checkStates_eq_ok.1 hstates
  · exact checkStates_eq_ok.1 (hmoved (Bool.eq_false_iff.2 hkeeps)).2

/-- **Only permitted states are emitted.** A structure has only permitted entries, each of
them one that the moved plan puts into its cell, and no cell is left out; the states that
replace the connectors are permitted too. If a state of the moved plan is not permitted, there
is no structure. -/
theorem compile_permitted (p : Plan) (biome : Option String) (ctx : CompileContext)
    (o : CompileOptions) :
    (∀ s, p.compile biome ctx o = .ok s → ∃ bound, p.bind biome = .ok bound ∧
      (∀ e ∈ s.palette, ctx.allowlist.Permits e) ∧
      (∀ j ∈ (bound.transform o.rotation o.mirror).jigsaws,
        ctx.allowlist.Permits j.finalState.paletteEntry) ∧
      (∀ b ∈ s.blocks, ∃ e, s.palette[b.paletteIndex]? = some e ∧
        (bound.transform o.rotation o.mirror).Puts b.pos e) ∧
      ∀ q e, (bound.transform o.rotation o.mirror).Puts q e → ∃ b ∈ s.blocks, b.pos = q) ∧
    ∀ bound, p.bind biome = .ok bound →
      ¬ (bound.transform o.rotation o.mirror).Permitted ctx.allowlist →
      ∃ e, p.compile biome ctx o = .error e := by
  refine ⟨fun s hs => ?_, fun bound hbind hforbidden => ?_⟩
  · obtain ⟨bound, hbind, hpermitted, hassembled⟩ := permitted_of_compile hs
    refine ⟨bound, hbind, fun e he => ?_, hpermitted.finals, fun b hb => ?_, fun q e he => ?_⟩
    · obtain ⟨q, cell, hcell, rfl⟩ := exists_cell_of_mem_palette hassembled he
      exact hpermitted.permits_of_puts (puts_of_cellAt? hcell)
    · obtain ⟨cell, hcell, hentry, -⟩ := exists_cell_of_mem_blocks hassembled hb
      exact ⟨cell.entry, hentry, puts_of_cellAt? hcell⟩
    · -- a state that passed its check is written out, so no block is left without an entry
      have hbound : ∀ b ∈ (bound.transform o.rotation o.mirror).blocks,
          b.state.entry?.isSome := by
        intro b hb
        obtain ⟨e, he, -⟩ := hpermitted.blocks b hb
        exact Option.isSome_of_eq_some he
      obtain ⟨cell, hcell⟩ := exists_cellAt?_of_puts hbound he
      obtain ⟨b, hb, hpos, -⟩ := (holds_of_assembled hassembled).2 hcell
      exact ⟨b, hb, hpos⟩
  · cases hs : p.compile biome ctx o with
    | error e => exact ⟨e, rfl⟩
    | ok s =>
      obtain ⟨bound', hbind', hpermitted, -⟩ := permitted_of_compile hs
      obtain rfl := Except.ok.inj (hbind.symm.trans hbind')
      exact absurd hpermitted hforbidden

/-- One stair to the north, in a box of one cell. -/
def stair : Plan where
  id := none
  size := ⟨1, 1, 1⟩
  blocks := [⟨⟨0, 0, 0⟩, .direct ⟨"stairs", .ofList [("facing", .string "north")]⟩, none⟩]
  entities := []
  jigsaws := []
  jigsawPolicy := .unrestricted
  palettes := .empty
  tags := []

/-- Where stairs may point north and east, the stair may be turned to the east but not to the
south. -/
theorem compile_permitted_stair :
    let ctx : CompileContext :=
      ⟨Allowlist.empty.allow "stairs" [("facing", ["north", "east"])], .empty⟩
    (∃ s, stair.compile none ctx ⟨.deg90, .off, false⟩ = .ok s ∧ s.palette ≠ [] ∧
      ∀ e ∈ s.palette, ctx.allowlist.Permits e) ∧
    ∃ e, stair.compile none ctx ⟨.deg180, .off, false⟩ = .error e := by
  intro ctx
  refine ⟨?_, ?_⟩
  · obtain ⟨s, hs, hpalette⟩ :
        ∃ s, stair.compile none ctx ⟨.deg90, .off, false⟩ = .ok s ∧ s.palette ≠ [] :=
      ⟨_, rfl, by decide⟩
    obtain ⟨bound, -, hpermits, -⟩ := (compile_permitted stair none ctx _).1 s hs
    exact ⟨s, hs, hpalette, hpermits⟩
  · refine (compile_permitted stair none ctx _).2 stair rfl fun hpermitted => ?_
    have hcheck := checkStates_eq_ok.2 hpermitted
    cases hcheck

end Plan

end Blueprint
