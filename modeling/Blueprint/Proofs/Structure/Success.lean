import Blueprint.Proofs.Plan.Bounds
import Blueprint.Proofs.Structure.LaidOut

/-!
# When a plan compiles

A plan compiles exactly if it can be bound, fits its box, has well-formed connectors, has only
permitted states before and after it is moved, and names only templates that are there. How it is
moved matters to its states alone: the box and the connectors are as good after the move as before.
So a plan that does not fit its box, or has connectors that are not well formed, is refused with one
error, however it is to be compiled.
-/

namespace Blueprint

open Outcome

/-! ## Success -/

/-- The data of a block is there exactly if the template is that it names. -/
theorem Block.exists_data_eq_ok {l : TemplateLibrary} {b : Block} :
    (∃ data, b.data l = .ok data) ↔
      ∀ name, b.template = some name → ∃ payload, l.get? .blockEntity name = some payload := by
  simp only [data_eq_ok]
  refine ⟨?_, fun h => ?_⟩
  · rintro ⟨_, ⟨hnone, -⟩ | ⟨name, payload, hname, hpayload, -⟩⟩ name' hname'
    · rw [hnone] at hname'
      cases hname'
    · rw [hname] at hname'
      obtain rfl := Option.some.inj hname'
      exact ⟨payload, hpayload⟩
  · cases htemplate : b.template with
    | none => exact ⟨none, .inl ⟨rfl, rfl⟩⟩
    | some name =>
      obtain ⟨payload, hpayload⟩ := h name htemplate
      exact ⟨some payload, .inr ⟨name, payload, rfl, hpayload, rfl⟩⟩

/-- An entity is there exactly if the template is that it names. -/
theorem Entity.exists_placed_eq_ok {l : TemplateLibrary} {e : Entity} :
    (∃ placed, e.placed l = .ok placed) ↔
      ∃ payload, l.get? .entity e.template = some payload := by
  simp only [placed_eq_ok]
  refine ⟨?_, ?_⟩
  · rintro ⟨_, payload, hpayload, -⟩
    exact ⟨payload, hpayload⟩
  · rintro ⟨payload, hpayload⟩
    exact ⟨_, payload, hpayload, rfl⟩

namespace Plan

/-- What a bound plan must be like to be turned, mirrored and compiled. -/
structure Compilable (ctx : CompileContext) (r : Rotation) (m : Mirror) (p : Plan) : Prop where
  /-- its blocks lie in its box -/
  blocksInside : ∀ b ∈ p.blocks, p.size.Contains b.pos
  /-- its connectors lie in its box -/
  jigsawsInside : ∀ j ∈ p.jigsaws, p.size.Contains j.pos
  /-- its entities belong to cells of its box -/
  entitiesInside : ∀ e ∈ p.entities, p.size.Contains e.blockPos
  /-- its connectors are well formed -/
  connected : ∃ connectors, p.checkJigsaws = .ok connectors
  /-- its states are permitted -/
  permitted : p.Permitted ctx.allowlist
  /-- they are permitted after the move -/
  permittedMoved : (p.transform r m).Permitted ctx.allowlist
  /-- there is a template for every block that names one -/
  blockTemplates : ∀ b ∈ p.blocks, ∀ name, b.template = some name →
    ∃ payload, ctx.templates.get? .blockEntity name = some payload
  /-- there is a template for every entity -/
  entityTemplates : ∀ e ∈ p.entities,
    ∃ payload, ctx.templates.get? .entity e.template = some payload

section

variable {biome : Option String} {ctx : CompileContext} {o : CompileOptions} {p : Plan}

/-- A plan is assembled exactly if its blocks have their states and its templates are there. -/
theorem exists_assembled_eq_ok : (∃ s, p.assembled ctx o = .ok s) ↔
    (∀ b ∈ p.blocks,
        (∃ state, boundState b = .ok state) ∧ ∃ data, b.data ctx.templates = .ok data) ∧
      (∀ e ∈ p.entities, ∃ placed, e.placed ctx.templates = .ok placed) ∧
      ∃ connectors, p.checkJigsaws = .ok connectors := by
  rw [← @Layout.exists_addBlocks_eq_ok _ ∅, ← exists_mapM_eq_ok]
  simp only [assembled_eq_ok]
  refine ⟨?_, ?_⟩
  · rintro ⟨_, blocks, entities, connectors, hblocks, hentities, hconnectors, -⟩
    exact ⟨⟨blocks, hblocks⟩, ⟨entities, hentities⟩, connectors, hconnectors⟩
  · rintro ⟨⟨blocks, hblocks⟩, ⟨entities, hentities⟩, connectors, hconnectors⟩
    exact ⟨_, blocks, entities, connectors, hblocks, hentities, hconnectors, rfl⟩

/-- A plan that passed its checks is assembled, moved or not, exactly if its templates are there. -/
theorem exists_assembled_transform_eq_ok {r : Rotation} {m : Mirror}
    (hconnected : ∃ connectors, p.checkJigsaws = .ok connectors)
    (hpermitted : (p.transform r m).Permitted ctx.allowlist) :
    (∃ s, (p.transform r m).assembled ctx o = .ok s) ↔
      (∀ b ∈ p.blocks, ∀ name, b.template = some name →
        ∃ payload, ctx.templates.get? .blockEntity name = some payload) ∧
      ∀ e ∈ p.entities, ∃ payload, ctx.templates.get? .entity e.template = some payload := by
  have hstates : ∀ b ∈ (p.transform r m).blocks, ∃ state, boundState b = .ok state := by
    intro b hb
    obtain ⟨e, he, -⟩ := hpermitted.blocks b hb
    obtain ⟨state, hstate, -⟩ := StateRef.exists_of_entry? he
    exact ⟨state, boundState_eq_ok.2 hstate⟩
  rw [exists_assembled_eq_ok, and_iff_left (exists_checkJigsaws_transform hconnected r m)]
  -- a move keeps the templates that are named
  refine and_congr ?_ ?_
  · refine Iff.trans (b := ∀ b ∈ (p.transform r m).blocks, ∃ data, b.data ctx.templates = .ok data)
      ⟨fun h b hb => (h b hb).2, fun h b hb => ⟨hstates b hb, h b hb⟩⟩ ?_
    simp only [blocks_transform, List.forall_mem_map, Block.exists_data_eq_ok,
      Block.template_transform]
  · simp only [entities_transform, List.forall_mem_map, Entity.exists_placed_eq_ok,
      Entity.template_transform]

/-- **A plan compiles exactly if it can be bound and is compilable.** -/
theorem exists_compile_eq_ok : (∃ s, p.compile biome ctx o = .ok s) ↔
    ∃ bound, p.bind biome = .ok bound ∧ bound.Compilable ctx o.rotation o.mirror := by
  refine ⟨?_, ?_⟩
  · rintro ⟨s, hs⟩
    obtain ⟨bound, hbind, hmoved, hassembled⟩ := permitted_of_compile hs
    obtain ⟨bound', _, hauthored, -, -⟩ := compile_eq_ok.1 hs
    obtain ⟨hbind', hbounds, hconnected, hstates⟩ := authored_eq_ok.1 hauthored
    obtain rfl := Except.ok.inj (hbind.symm.trans hbind')
    obtain ⟨hblocks, hjigsaws, hentities⟩ := checkBounds_eq_ok_iff.1 hbounds
    obtain ⟨hblockTemplates, hentityTemplates⟩ :=
      (exists_assembled_transform_eq_ok hconnected hmoved).1 ⟨s, hassembled⟩
    exact ⟨bound, hbind, hblocks, hjigsaws, hentities, hconnected, checkStates_eq_ok.1 hstates,
      hmoved, hblockTemplates, hentityTemplates⟩
  -- the later checks of the bounds and of the connectors follow from the first ones
  · rintro ⟨bound, hbind, hcompilable⟩
    have hbounds : bound.checkBounds = .ok () := checkBounds_eq_ok_iff.2
      ⟨hcompilable.blocksInside, hcompilable.jigsawsInside, hcompilable.entitiesInside⟩
    have hauthored : p.authored biome ctx = .ok bound := authored_eq_ok.2
      ⟨hbind, hbounds, hcompilable.connected, checkStates_eq_ok.2 hcompilable.permitted⟩
    have hplaced : bound.placed ctx o = .ok (bound.transform o.rotation o.mirror) := by
      refine placed_eq_ok.2 ⟨rfl, fun _ => ⟨?_, ?_⟩⟩
      · exact checkBounds_transform hbounds o.rotation o.mirror
      · exact checkStates_eq_ok.2 hcompilable.permittedMoved
    obtain ⟨s, hs⟩ := (exists_assembled_transform_eq_ok hcompilable.connected
      hcompilable.permittedMoved).2 ⟨hcompilable.blockTemplates, hcompilable.entityTemplates⟩
    exact ⟨s, compile_eq_ok.2 ⟨bound, _, hauthored, hplaced, hs⟩⟩

end

end Plan

/-! ## Failures -/

/-- The error says that something lies outside the box, or that connectors are not well formed. -/
def PlanError.OfPlace : PlanError → Prop
  | .outOfBounds _ _ _ => True
  | .jigsaw _ => True
  | _ => False

/-- The computation fails for other reasons only. -/
abbrev NotOfPlace {α : Type} (x : Except PlanError α) : Prop := FailsWith (fun e => ¬ e.OfPlace) x

/-- The property holds of all errors about states and templates. -/
structure PlanError.CoversStates (P : PlanError → Prop) : Prop where
  notAllowed : ∀ pos violation, P (.notAllowed pos violation)
  unbound : ∀ key pos, P (.schema (.unbound key pos))
  template : ∀ kind name, P (.templateNotFound kind name)

/-- The property holds of all errors that compiling can end with. -/
structure PlanError.CoversCompile (P : PlanError → Prop) : Prop extends CoversStates P where
  noPalette : ∀ biome, P (.schema (.noPalette biome))
  noMapping : ∀ key pos biome, P (.schema (.noMapping key pos biome))
  outOfBounds : ∀ what pos size, P (.outOfBounds what pos size)
  jigsaw : ∀ e, P (.jigsaw e)

/-- No failure of states is about the place of something. -/
theorem PlanError.coversStates_notOfPlace : CoversStates fun e => ¬ e.OfPlace :=
  ⟨fun _ _ => not_false, fun _ _ => not_false, fun _ _ => not_false⟩

section

variable {P : PlanError → Prop} (h : PlanError.CoversStates P)

include h

/-- A template fails by not being there. -/
theorem failsWith_resolve (l : TemplateLibrary) (kind : TemplateKind) (name : String) :
    FailsWith P (l.resolve kind name) := by
  rw [TemplateLibrary.resolve]
  split
  · exact .ok _
  · exact .error (h.template _ _)

/-- A block fails by its template. -/
theorem Block.failsWith_data (l : TemplateLibrary) (b : Block) : FailsWith P (b.data l) := by
  rw [data]
  split
  · exact (failsWith_resolve h l .blockEntity _).map some
  · exact .ok none

/-- So does an entity. -/
theorem Entity.failsWith_placed (l : TemplateLibrary) (e : Entity) : FailsWith P (e.placed l) :=
  (failsWith_resolve h l .entity e.template).bind fun _ _ => .ok _

namespace Plan

/-- A state fails by not being allowed. -/
theorem failsWith_checkState (a : Allowlist) (pos : Pos) (state : BlockState) :
    FailsWith P (checkState a pos state) := .mapError fun _ => h.notAllowed _ _

/-- A block fails by its material. -/
theorem failsWith_boundState (b : Block) : FailsWith P (boundState b) := by
  rw [boundState]
  split
  · exact .ok _
  · exact .error (h.unbound _ _)

/-- Blocks fail by one that has no state or one that is not allowed. -/
theorem failsWith_checkBlocks (a : Allowlist) (bs : List Block) :
    FailsWith P (checkBlocks a bs) := by
  induction bs with
  | nil => exact .ok ()
  | cons b bs ih =>
    rw [checkBlocks]
    refine (failsWith_boundState h b).bind fun state _ => ?_
    exact (failsWith_checkState h a b.pos state).bind fun _ _ => ih

/-- Connectors fail by a state that is not allowed. -/
theorem failsWith_checkConnectors (a : Allowlist) (js : List Jigsaw) :
    FailsWith P (checkConnectors a js) := by
  induction js with
  | nil => exact .ok ()
  | cons j js ih =>
    rw [checkConnectors]
    refine (failsWith_checkState h a j.pos j.blockState).bind fun _ _ => ?_
    exact (failsWith_checkState h a j.pos j.finalState).bind fun _ _ => ih

/-- So do the states of a plan. -/
theorem failsWith_checkStates (a : Allowlist) (p : Plan) : FailsWith P (p.checkStates a) :=
  (failsWith_checkBlocks h a p.blocks).bind fun _ _ => failsWith_checkConnectors h a p.jigsaws

/-- To fill cells fails by a material or a template. -/
theorem failsWith_addBlocks (l : TemplateLibrary) (layout : Layout) (bs : List Block) :
    FailsWith P (Layout.addBlocks l layout bs) := by
  induction bs generalizing layout with
  | nil => exact .ok layout
  | cons b bs ih =>
    rw [Layout.addBlocks]
    refine (failsWith_boundState h b).bind fun state _ => ?_
    exact (b.failsWith_data h l).bind fun data _ => ih _

end Plan

end

namespace Plan

variable {biome : Option String} {ctx : CompileContext} {o : CompileOptions} {p : Plan}

/-- A plan that fits its box is not refused for its place once it is moved. -/
theorem notOfPlace_placed (hbounds : p.checkBounds = .ok ()) : NotOfPlace (p.placed ctx o) := by
  rw [placed]
  split
  · exact .ok p
  · dsimp only
    rw [checkBounds_transform hbounds]
    refine FailsWith.bind (.ok ()) fun _ _ => ?_
    exact (failsWith_checkStates PlanError.coversStates_notOfPlace ctx.allowlist _).bind
      fun _ _ => .ok _

/-- A plan with well-formed connectors is not refused for them once it is assembled. -/
theorem notOfPlace_assembled (hconnected : ∃ connectors, p.checkJigsaws = .ok connectors) :
    NotOfPlace (p.assembled ctx o) := by
  obtain ⟨connectors, hconnectors⟩ := hconnected
  have hcovers := PlanError.coversStates_notOfPlace
  rw [assembled, hconnectors]
  refine (failsWith_addBlocks hcovers ctx.templates ∅ p.blocks).bind fun blocks _ => ?_
  refine (FailsWith.mapM fun e _ => e.failsWith_placed hcovers ctx.templates).bind
    fun entities _ => ?_
  exact FailsWith.bind (.ok connectors) fun _ _ => .ok _

/-- A plan that is refused for its place is refused before it is moved. -/
theorem authored_of_compile_eq_error {e : PlanError} (h : p.compile biome ctx o = .error e)
    (he : e.OfPlace) : p.authored biome ctx = .error e := by
  cases hauthored : p.authored biome ctx with
  | error e' =>
    rw [compile, hauthored] at h
    cases h
    rfl
  | ok bound =>
    -- the box and the connectors are good, and so they are in every later step
    obtain ⟨-, hbounds, hconnected, -⟩ := authored_eq_ok.1 hauthored
    rw [compile, hauthored] at h
    have hlater : NotOfPlace (bound.placed ctx o >>= fun moved => moved.assembled ctx o) := by
      refine (notOfPlace_placed hbounds).bind fun moved hmoved => notOfPlace_assembled ?_
      obtain ⟨rfl, -⟩ := placed_eq_ok.1 hmoved
      exact exists_checkJigsaws_transform hconnected o.rotation o.mirror
    exact absurd he (hlater e h)

section

variable {P : PlanError → Prop} (h : PlanError.CoversCompile P)

include h

/-- A plan fails to be bound by its palette or a material. -/
theorem failsWith_bind (p : Plan) (biome : Option String) :
    FailsWith (fun e => P (.schema e)) (p.bind biome) := by
  have hblock (palette : Option BiomePalette) (b : Block) :
      FailsWith (fun e => P (.schema e)) (b.bind biome palette) := by
    rw [Block.bind]
    split
    · exact .ok b
    · split
      · exact .ok _
      · exact .error (h.noMapping _ _ _)
  have hblocks (palette : Option BiomePalette) (bs : List Block) :
      FailsWith (fun e => P (.schema e)) (Block.bindAll biome palette bs) := by
    induction bs with
    | nil => exact .ok []
    | cons b bs ih => exact (hblock palette b).bind fun _ _ => ih.bind fun _ _ => .ok _
  have hpalette : FailsWith (fun e => P (.schema e)) (p.paletteOf biome) := by
    unfold paletteOf
    split
    · exact .ok none
    · split
      · exact .ok _
      · exact .error (h.noPalette _)
  exact hpalette.bind fun _ _ => (hblocks _ _).bind fun _ _ => .ok _

/-- The bounds fail by what lies out of them. -/
theorem failsWith_checkBounds (p : Plan) : FailsWith P p.checkBounds := by
  rw [checkBounds]
  split
  · exact .error (h.outOfBounds _ _ _)
  · exact .ok ()

/-- Connectors fail by what is wrong with them. -/
theorem failsWith_checkJigsaws (p : Plan) : FailsWith P p.checkJigsaws := .mapError h.jigsaw

/-- What compiling can end with. -/
theorem failsWith_compile : FailsWith P (p.compile biome ctx o) := by
  have hstates (p : Plan) := failsWith_checkStates h.toCoversStates ctx.allowlist p
  have hbound : FailsWith P ((p.bind biome).mapError .schema) :=
    (failsWith_bind h p biome).mapped
  have hauthored : FailsWith P (p.authored biome ctx) :=
    hbound.bind fun bound _ => (failsWith_checkBounds h bound).bind fun _ _ =>
      (failsWith_checkJigsaws h bound).bind fun _ _ => (hstates bound).bind fun _ _ => .ok bound
  have hplaced (bound : Plan) : FailsWith P (bound.placed ctx o) := by
    rw [placed]
    split
    · exact .ok bound
    · exact (failsWith_checkBounds h _).bind fun _ _ => (hstates _).bind fun _ _ => .ok _
  have hassembled (moved : Plan) : FailsWith P (moved.assembled ctx o) :=
    (failsWith_addBlocks h.toCoversStates _ _ _).bind fun _ _ =>
      (FailsWith.mapM fun e _ => e.failsWith_placed h.toCoversStates _).bind fun _ _ =>
        (failsWith_checkJigsaws h moved).bind fun _ _ => .ok _
  exact hauthored.bind fun bound _ => (hplaced bound).bind fun moved _ => hassembled moved

end

/-! ## Entities that are left out -/

/-- To leave the entities out is to make the structure and then take them out. -/
theorem compile_noEntities (r : Rotation) (m : Mirror) :
    p.compile biome ctx ⟨r, m, false⟩ =
      (p.compile biome ctx ⟨r, m, true⟩).map fun s => { s with entities := [] } := by
  have hassembled (moved : Plan) : moved.assembled ctx ⟨r, m, false⟩ =
      (moved.assembled ctx ⟨r, m, true⟩).map fun s => { s with entities := [] } := by
    simp only [assembled, map_bind]
    rfl
  rw [compile, compile, map_bind]
  refine congrArg _ (funext fun bound => ?_)
  rw [map_bind]
  exact congrArg _ (funext fun moved => hassembled moved)

/-! ## The condition -/

/-- **When a plan compiles.** It compiles exactly if it can be bound and is compilable as it is
to be moved. The move itself puts nothing outside the box and leaves the connectors well formed,
so a plan that is refused for its place is refused with one error however it is to be compiled;
and whether entities are left out shows in the entities of the structure and nowhere else. -/
theorem compile_succeeds_iff (p : Plan) (biome : Option String) (ctx : CompileContext) :
    (∀ o : CompileOptions, (∃ s, p.compile biome ctx o = .ok s) ↔
      ∃ bound, p.bind biome = .ok bound ∧ bound.Compilable ctx o.rotation o.mirror) ∧
    (∀ (bound : Plan) (r : Rotation) (m : Mirror),
      (bound.checkBounds = .ok () → (bound.transform r m).checkBounds = .ok ()) ∧
      ((∃ connectors, bound.checkJigsaws = .ok connectors) →
        ∃ connectors, (bound.transform r m).checkJigsaws = .ok connectors)) ∧
    (∀ o o' e, p.compile biome ctx o = .error e → e.OfPlace → p.compile biome ctx o' = .error e) ∧
    ∀ r m, p.compile biome ctx ⟨r, m, false⟩ =
      (p.compile biome ctx ⟨r, m, true⟩).map fun s => { s with entities := [] } := by
  refine ⟨fun o => exists_compile_eq_ok, fun bound r m => ⟨?_, ?_⟩, ?_, compile_noEntities⟩
  · intro hbounds
    exact checkBounds_transform hbounds r m
  · intro hconnected
    exact exists_checkJigsaws_transform hconnected r m
  · intro o o' e h he
    rw [compile, authored_of_compile_eq_error h he]
    rfl

/-- The hut may be turned to the east but not to the south; without height it is refused with one
error for every turn; and without its guard it is built as with it. -/
theorem compile_succeeds_iff_hut :
    (∃ s, hut.compile none hutContext ⟨.deg90, .leftRight, false⟩ = .ok s ∧ s.entities = []) ∧
    (¬ ∃ s, hut.compile none hutContext ⟨.deg180, .off, true⟩ = .ok s) ∧
    ∀ o, { hut with size := ⟨2, 0, 1⟩ }.compile none hutContext o =
      .error (.outOfBounds .block ⟨0, 0, 0⟩ ⟨2, 0, 1⟩) := by
  obtain ⟨hsucceeds, -, -, hentities⟩ := compile_succeeds_iff hut none hutContext
  refine ⟨?_, ?_, ?_⟩
  · have hcompilable : hut.Compilable hutContext .deg90 .leftRight :=
      { blocksInside := by decide
        jigsawsInside := by decide
        entitiesInside := by decide
        connected := ⟨_, rfl⟩
        permitted := checkStates_eq_ok.1 rfl
        permittedMoved := checkStates_eq_ok.1 rfl
        blockTemplates := by
          intro b hb name hname
          rcases List.mem_pair.1 hb with rfl | rfl
          · obtain rfl := Option.some.inj hname
            exact ⟨_, rfl⟩
          · cases hname
        entityTemplates := by
          intro e he
          obtain rfl := List.mem_singleton.1 he
          exact ⟨_, rfl⟩ }
    obtain ⟨s, hs⟩ := (hsucceeds ⟨.deg90, .leftRight, true⟩).2 ⟨hut, rfl, hcompilable⟩
    -- leaving the entities out changes nothing else
    refine ⟨{ s with entities := [] }, ?_, rfl⟩
    rw [hentities, hs]
    rfl
  · intro h
    obtain ⟨bound, hbind, hcompilable⟩ := (hsucceeds _).1 h
    obtain rfl : hut = bound := Except.ok.inj hbind
    have hcheck := checkStates_eq_ok.2 hcompilable.permittedMoved
    cases hcheck
  · intro o
    -- the bounds are checked first, so the options do not matter
    have hrefused := (compile_succeeds_iff { hut with size := ⟨2, 0, 1⟩ } none hutContext).2.2.1
    exact hrefused ⟨.deg0, .off, true⟩ o _ rfl trivial

end Plan

end Blueprint
