import Blueprint.Proofs.Outcome
import Blueprint.Structure.Compile

/-!
# The steps of compiling

When each step of compiling succeeds and what it then gives. Later files say what they want
of a structure by way of these lemmas, so that a change to the order of the steps shows
here and nowhere else.
-/

namespace Blueprint

open Nbt

/-! ## Steps that change nothing -/

namespace Plan

/-- A step that changes nothing is skipped. -/
theorem step_of_isIdentity {s : Step} (h : s.isIdentity = true) (p : Plan) : p.step s = p :=
  if_pos h

/-- Options that keep the place of everything turn and mirror nothing. -/
theorem transform_of_keepsPlace {o : CompileOptions} (h : o.keepsPlace = true) (p : Plan) :
    p.transform o.rotation o.mirror = p := by
  obtain ⟨hturn, hmirror⟩ := Bool.and_eq_true_iff.1 h
  rw [transform, eq_of_beq hturn, eq_of_beq hmirror, step_of_isIdentity rfl,
    step_of_isIdentity rfl]

/-! ## The four steps -/

section

variable {biome : Option String} {ctx : CompileContext} {o : CompileOptions} {p bound moved : Plan}
  {s : Structure}

/-- A plan is ready to be moved if it is bound, in its bounds, connected and allowed. -/
theorem authored_eq_ok :
    p.authored biome ctx = .ok bound ↔
      p.bind biome = .ok bound ∧ bound.checkBounds = .ok () ∧
        (∃ connectors, bound.checkJigsaws = .ok connectors) ∧
        bound.checkStates ctx.allowlist = .ok () := by
  simp only [authored, Outcome.bind_eq_ok, Outcome.pure_eq_ok, Outcome.mapError_eq_ok]
  refine ⟨?_, ?_⟩
  · rintro ⟨bound, hbind, ⟨⟩, hbounds, connectors, hconnectors, ⟨⟩, hstates, rfl⟩
    exact ⟨hbind, hbounds, ⟨connectors, hconnectors⟩, hstates⟩
  · rintro ⟨hbind, hbounds, ⟨connectors, hconnectors⟩, hstates⟩
    exact ⟨bound, hbind, (), hbounds, connectors, hconnectors, (), hstates, rfl⟩

/-- A plan is placed by its turn and its mirror, and checked again if these move anything. -/
theorem placed_eq_ok :
    bound.placed ctx o = .ok moved ↔
      moved = bound.transform o.rotation o.mirror ∧
        (o.keepsPlace = false →
          moved.checkBounds = .ok () ∧ moved.checkStates ctx.allowlist = .ok ()) := by
  rw [placed]
  by_cases hkeeps : o.keepsPlace = true
  · rw [if_pos hkeeps, transform_of_keepsPlace hkeeps, Except.ok.injEq, eq_comm]
    exact (and_iff_left fun hmoves => absurd (hkeeps.symm.trans hmoves) (by decide)).symm
  · rw [if_neg hkeeps]
    simp only [Outcome.bind_eq_ok, Outcome.pure_eq_ok]
    refine ⟨?_, ?_⟩
    · rintro ⟨⟨⟩, hbounds, ⟨⟩, hstates, rfl⟩
      exact ⟨rfl, fun _ => ⟨hbounds, hstates⟩⟩
    · rintro ⟨rfl, hchecked⟩
      obtain ⟨hbounds, hstates⟩ := hchecked (Bool.eq_false_iff.2 hkeeps)
      exact ⟨(), hbounds, (), hstates, rfl⟩

/-- A structure is assembled of the cells that blocks and connectors fill, and of the entities. -/
theorem assembled_eq_ok :
    moved.assembled ctx o = .ok s ↔
      ∃ blocks entities connectors,
        Layout.addBlocks ctx.templates ∅ moved.blocks = .ok blocks ∧
        (moved.entities.mapM fun e => e.placed ctx.templates) = .ok entities ∧
        moved.checkJigsaws = .ok connectors ∧
        s = (moved.jigsaws.foldl (Layout.addJigsaw connectors) blocks).assemble moved.size
          (if o.includeEntities then entities else []) := by
  simp only [assembled, Outcome.bind_eq_ok, Outcome.pure_eq_ok]
  refine ⟨?_, ?_⟩
  · rintro ⟨blocks, hblocks, entities, hentities, connectors, hconnectors, rfl⟩
    exact ⟨blocks, entities, connectors, hblocks, hentities, hconnectors, rfl⟩
  · rintro ⟨blocks, entities, connectors, hblocks, hentities, hconnectors, rfl⟩
    exact ⟨blocks, hblocks, entities, hentities, connectors, hconnectors, rfl⟩

/-- A plan is compiled in three parts. -/
theorem compile_eq_ok :
    p.compile biome ctx o = .ok s ↔
      ∃ bound moved, p.authored biome ctx = .ok bound ∧ bound.placed ctx o = .ok moved ∧
        moved.assembled ctx o = .ok s := by
  simp only [compile, Outcome.bind_eq_ok]
  refine ⟨?_, ?_⟩
  · rintro ⟨bound, hbound, moved, hmoved, hs⟩
    exact ⟨bound, moved, hbound, hmoved, hs⟩
  · rintro ⟨bound, moved, hbound, hmoved, hs⟩
    exact ⟨bound, hbound, moved, hmoved, hs⟩

end

end Plan

/-! ## Templates -/

/-- A template is resolved if it is there. -/
theorem TemplateLibrary.resolve_eq_ok {l : TemplateLibrary} {kind : TemplateKind} {name : String}
    {payload : Compound} : l.resolve kind name = .ok payload ↔ l.get? kind name = some payload := by
  rw [resolve]
  rcases l.get? kind name with _ | found <;> simp

/-- A block has data exactly if it names a template, and then the payload of that. -/
theorem Block.data_eq_ok {l : TemplateLibrary} {b : Block} {data : Option Compound} :
    b.data l = .ok data ↔
      (b.template = none ∧ data = none) ∨
        ∃ name payload, b.template = some name ∧ l.get? .blockEntity name = some payload ∧
          data = some payload := by
  rw [Block.data]
  rcases b.template with _ | name
  · simp [eq_comm]
  · simp only [Outcome.map_eq_ok, TemplateLibrary.resolve_eq_ok, reduceCtorEq, false_and,
      false_or, Option.some.injEq, exists_and_left, exists_eq_left', @eq_comm _ data]

/-- An entity is placed with the payload of its template. -/
theorem Entity.placed_eq_ok {l : TemplateLibrary} {e : Entity} {placed : PlacedEntity} :
    e.placed l = .ok placed ↔
      ∃ payload, l.get? .entity e.template = some payload ∧
        placed = ⟨e.point, e.blockPos, payload⟩ := by
  simp only [Entity.placed, Outcome.bind_eq_ok, Outcome.pure_eq_ok,
    TemplateLibrary.resolve_eq_ok, @eq_comm _ placed]

/-! ## Layouts -/

namespace Layout

/-- A cell that is filled has what it was filled with, and the others have what they had. -/
theorem getElem?_insert (layout : Layout) (p q : Pos) (cell : Cell) :
    (layout.insert p cell)[q]? = if p = q then some cell else layout[q]? := by
  rw [Std.TreeMap.getElem?_insert]
  simp only [Std.LawfulEqCmp.compare_eq_iff_eq]

/-- Blocks are added one after another, and only the first one in a cell brings data. -/
theorem addBlocks_cons_eq_ok {l : TemplateLibrary} {layout result : Layout} {b : Block}
    {bs : List Block} :
    addBlocks l layout (b :: bs) = .ok result ↔
      ∃ state data, Plan.boundState b = .ok state ∧ b.data l = .ok data ∧
        addBlocks l (layout.insert b.pos
          ⟨state.paletteEntry, if layout.contains b.pos then none else data⟩) bs = .ok result := by
  simp only [addBlocks, Outcome.bind_eq_ok]
  refine ⟨?_, ?_⟩
  · rintro ⟨state, hstate, data, hdata, hrest⟩
    exact ⟨state, data, hstate, hdata, hrest⟩
  · rintro ⟨state, data, hstate, hdata, hrest⟩
    exact ⟨state, hstate, data, hdata, hrest⟩

/-- All blocks can be put in exactly if each of them has its state and its data. -/
theorem exists_addBlocks_eq_ok {l : TemplateLibrary} {layout : Layout} {bs : List Block} :
    (∃ result, addBlocks l layout bs = .ok result) ↔
      ∀ b ∈ bs, (∃ state, Plan.boundState b = .ok state) ∧ ∃ data, b.data l = .ok data := by
  induction bs generalizing layout with
  | nil => exact iff_of_true ⟨layout, rfl⟩ fun b hb => absurd hb List.not_mem_nil
  | cons b bs ih =>
    rw [List.forall_mem_cons]
    refine ⟨?_, ?_⟩
    · rintro ⟨result, h⟩
      obtain ⟨state, data, hstate, hdata, hrest⟩ := addBlocks_cons_eq_ok.1 h
      exact ⟨⟨⟨state, hstate⟩, data, hdata⟩, ih.1 ⟨result, hrest⟩⟩
    · rintro ⟨⟨⟨state, hstate⟩, data, hdata⟩, hbs⟩
      obtain ⟨result, hrest⟩ := ih.2 hbs
      exact ⟨result, addBlocks_cons_eq_ok.2 ⟨state, data, hstate, hdata, hrest⟩⟩

/-- The cells of a layout are listed with what they have. -/
theorem mem_toList {layout : Layout} {p : Pos} {cell : Cell} :
    (p, cell) ∈ layout.toList ↔ layout[p]? = some cell :=
  Std.TreeMap.mem_toList_iff_getElem?_eq_some

end Layout

end Blueprint
