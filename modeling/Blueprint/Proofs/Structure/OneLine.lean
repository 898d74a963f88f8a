import Blueprint.Proofs.Nbt.Filled
import Blueprint.Proofs.Plan.OneLine
import Blueprint.Proofs.Structure.LongText

/-!
# Failures of compiling without line breaks

A plan without line breaks is compiled to a structure, or fails with a message that quotes nothing
with a line break, at whatever step that is. To write the structure fails with a message that quotes
nothing at all, since the only text that the encoder quotes is a key without a value.
-/

namespace Blueprint

open Text Nbt Outcome

/-! ## Binding -/

section

variable {biome : Option String} (hbiome : ∀ b ∈ biome, Text.OneLine b)

include hbiome

/-- A palette without line breaks is found, or none is found, and that is said without any. -/
theorem Plan.yields_paletteOf {p : Plan} (hp : p.OneLine) :
    Yields (fun palette => ∀ found ∈ palette, found.InLines BlockState.OneLine)
      (fun e => AllOneLine e.quoted) (p.paletteOf biome) := by
  unfold Plan.paletteOf
  split
  next => exact .of_ok nofun
  next biome =>
    split
    next palette hget =>
      refine .of_ok ?_
      rintro _ ⟨⟩
      exact (hp.palettes _ (SortedMap.get?_eq_some_iff.1 hget)).2
    next => exact .of_error (allOneLine_singleton.2 (hbiome biome rfl))

/-- A material is replaced by a state of the palette. -/
theorem Block.yields_bind {palette : Option BiomePalette}
    (hpalette : ∀ found ∈ palette, found.InLines BlockState.OneLine) {b : Block} (hb : b.OneLine) :
    Yields OneLine (fun e => AllOneLine e.quoted) (b.bind biome palette) := by
  obtain ⟨hstate, htemplate⟩ := hb
  unfold Block.bind
  split
  next => exact .of_ok ⟨hstate, htemplate⟩
  next key hkey =>
    rw [hkey] at hstate
    split
    next state hget =>
      obtain ⟨found, hfound, hget⟩ := Option.bind_eq_some_iff.1 hget
      have hline := hpalette found hfound _ (SortedMap.get?_eq_some_iff.1 hget)
      exact .of_ok ⟨hline.2, htemplate⟩
    next =>
      refine .of_error (allOneLine_cons.2 ⟨hstate, fun name hname => ?_⟩)
      exact hbiome name (Option.mem_toList.1 hname)

/-- A plan without line breaks is bound to one without any, or refused without any. -/
theorem Plan.yields_bind {p : Plan} (hp : p.OneLine) :
    Yields OneLine (fun e => AllOneLine e.quoted) (p.bind biome) := by
  refine (p.yields_paletteOf hbiome hp).bind fun palette hpalette => ?_
  rw [Block.bindAll_eq_mapM]
  exact (Yields.mapM fun b hb => Block.yields_bind hbiome hpalette (hp.blocks b hb)).bind
    fun blocks hblocks => .of_ok { hp with blocks := hblocks }

end

/-! ## Moving -/

/-- A step brings no line break into what a block gets its state from. -/
theorem StateRef.OneLine.step {state : StateRef} (h : state.OneLine) (s : Step) :
    (state.step s).OneLine := by
  cases state with
  | direct state => exact BlockState.OneLine.step h s
  | material key => exact h

/-- Nor into a connector. -/
theorem Jigsaw.OneLine.step {j : Jigsaw} (h : j.OneLine) (size : Size) (s : Step) :
    (j.step size s).OneLine :=
  { h with
    orientation := s.oneLine_orientationName h.orientation
    finalState := h.finalState.step s }

/-- Nor into a plan. -/
theorem Plan.OneLine.step {p : Plan} (h : p.OneLine) (s : Step) : (p.step s).OneLine := by
  unfold Plan.step
  split
  · exact h
  · exact ⟨List.forall_mem_map.2 fun b hb =>
        ⟨(h.blocks b hb).state.step s, (h.blocks b hb).template⟩,
      List.forall_mem_map.2 fun j hj => (h.jigsaws j hj).step p.size s,
      List.forall_mem_map.2 fun e he => h.entities e he, h.palettes⟩

/-- A turn with a mirror brings none in either. -/
theorem Plan.OneLine.transform {p : Plan} (h : p.OneLine) (r : Rotation) (m : Mirror) :
    (p.transform r m).OneLine := (h.step _).step _

/-! ## Checks -/

/-- What is quoted when a plan fails has no line break. -/
abbrev FailsInLines {α : Type} : Except PlanError α → Prop := FailsWith fun e => AllOneLine e.quoted

/-- A state is refused by what it says. -/
theorem Allowlist.failsWith_validate (allowlist : Allowlist) {state : BlockState}
    (h : state.OneLine) : FailsWith (fun e => AllOneLine e.quoted) (allowlist.validate state) := by
  have hproperties (rules : Rules) {l : List (String × PropertyValue)}
      (hl : ∀ e ∈ l, Text.OneLine e.1 ∧ Text.OneLine e.2.text) :
      FailsWith (fun e => AllOneLine e.quoted) (validateProperties state.id rules l) := by
    induction l with
    | nil => exact .ok ()
    | cons e l ih =>
      obtain ⟨⟨hkey, hvalue⟩, hl⟩ := List.forall_mem_cons.1 hl
      unfold validateProperties
      split
      next => exact .error (by simp [Violation.quoted, h.id, hkey])
      next =>
        split
        next => exact ih hl
        next => exact .error (by simp [Violation.quoted, h.id, hkey, hvalue])
  unfold validate
  split
  next => exact .error (allOneLine_singleton.2 h.id)
  next rules _ => exact hproperties rules h.properties

/-- The own state of a connector has the texts of the connector. -/
theorem Jigsaw.OneLine.blockState {j : Jigsaw} (h : j.OneLine) :
    j.blockState.OneLine := by
  have hid : Text.OneLine jigsawBlock := by decide
  have hkey : Text.OneLine "orientation" := by decide
  exact ⟨hid, SortedMap.inLines_empty.insert hkey h.orientation⟩

/-- What is quoted of a connector is one of its texts. -/
theorem Jigsaw.OneLine.data {j : Jigsaw} (h : j.OneLine) (i : Nat) :
    FailsWith (fun e => AllOneLine e.quoted) (j.data i) := by
  have hidentifier {field given : String} (hfield : Text.OneLine field)
      (hgiven : Text.OneLine given) :
      FailsWith (fun e => AllOneLine e.quoted) (j.identifier i field given) := by
    unfold Jigsaw.identifier
    split
    · exact .ok _
    · exact .error (by simp [JigsawError.quoted, hfield, hgiven])
  refine (hidentifier (by decide) h.name).bind fun name _ => ?_
  refine (hidentifier (by decide) h.pool).bind fun pool _ => ?_
  refine (hidentifier (by decide) h.targetPool).bind fun targetPool _ => ?_
  refine .refuse (fun _ => allOneLine_singleton.2 h.joint) ?_
  exact .refuse (fun _ => allOneLine_singleton.2 h.orientation) (.ok _)

namespace Plan

variable {p : Plan}

/-- A state that is not allowed is reported with its texts and its position. -/
theorem failsInLines_checkState (allowlist : Allowlist) (pos : Pos) {state : BlockState}
    (h : state.OneLine) : FailsInLines (checkState allowlist pos state) :=
  .mapped fun e he => allowlist.failsWith_validate h e he

/-- A block has its state, or is reported by its material. -/
theorem yields_boundState {b : Block} (h : b.OneLine) :
    Yields BlockState.OneLine (fun e => AllOneLine e.quoted) (boundState b) := by
  have hstate := h.state
  unfold boundState
  split
  next hdirect =>
    rw [hdirect] at hstate
    exact .of_ok hstate
  next hkey =>
    rw [hkey] at hstate
    exact .of_error (allOneLine_singleton.2 hstate)

/-- The states of a plan are reported by what they say. -/
theorem OneLine.checkStates (h : p.OneLine) (allowlist : Allowlist) :
    FailsInLines (p.checkStates allowlist) := by
  have hblocks {bs : List Block} (hbs : ∀ b ∈ bs, b.OneLine) :
      FailsInLines (checkBlocks allowlist bs) := by
    induction bs with
    | nil => exact .ok ()
    | cons b bs ih =>
      obtain ⟨hb, hbs⟩ := List.forall_mem_cons.1 hbs
      have hstate := yields_boundState hb
      exact hstate.error.bind fun state hs =>
        (failsInLines_checkState allowlist b.pos (hstate.ok state hs)).bind fun _ _ => ih hbs
  have hconnectors {js : List Jigsaw} (hjs : ∀ j ∈ js, j.OneLine) :
      FailsInLines (checkConnectors allowlist js) := by
    induction js with
    | nil => exact .ok ()
    | cons j js ih =>
      obtain ⟨hj, hjs⟩ := List.forall_mem_cons.1 hjs
      exact (failsInLines_checkState allowlist j.pos hj.blockState).bind fun _ _ =>
        (failsInLines_checkState allowlist j.pos hj.finalState).bind fun _ _ => ih hjs
  exact (hblocks h.blocks).bind fun _ _ => hconnectors h.jigsaws

/-- What is out of bounds is reported by its number, in fixed words. -/
theorem failsInLines_checkBounds (p : Plan) : FailsInLines p.checkBounds := by
  unfold checkBounds
  split
  · exact .error allOneLine_nil
  · exact .ok ()

/-- Connectors are reported by what they say. -/
theorem OneLine.checkJigsaws (h : p.OneLine) : FailsInLines p.checkJigsaws := by
  have hfrom (i : Nat) (read : SortedMap Pos Compound) {js : List Jigsaw}
      (hjs : ∀ j ∈ js, j.OneLine) :
      FailsWith (fun e => AllOneLine e.quoted) (connectorsFrom i read js) := by
    induction js generalizing i read with
    | nil => exact .ok read
    | cons j js ih =>
      obtain ⟨hj, hjs⟩ := List.forall_mem_cons.1 hjs
      exact (hj.data i).bind fun data _ =>
        .refuse (fun _ => allOneLine_nil) (ih (i + 1) _ hjs)
  have hpolicy : FailsWith (fun e => AllOneLine e.quoted)
      (checkPolicy p.jigsawPolicy p.jigsaws.length) := by
    unfold checkPolicy
    split
    · exact .ok ()
    · split
      · exact .error allOneLine_nil
      · exact .ok ()
    · split
      · exact .ok ()
      · exact .error allOneLine_nil
  exact .mapped (hpolicy.bind fun _ _ => hfrom 0 .empty h.jigsaws)

/-! ## Compiling -/

/-- A plan without line breaks is made ready as one without any, or refused without any. -/
theorem OneLine.yields_authored {biome : Option String} (h : p.OneLine)
    (hbiome : ∀ b ∈ biome, Text.OneLine b) (ctx : CompileContext) :
    Yields OneLine (fun e => AllOneLine e.quoted) (p.authored biome ctx) where
  ok bound hbound := (p.yields_bind hbiome h).ok bound (authored_eq_ok.1 hbound).1
  error := by
    have hbind := p.yields_bind hbiome h
    refine FailsWith.bind (.mapped hbind.error) fun bound hbound => ?_
    have hline := hbind.ok bound (mapError_eq_ok.1 hbound)
    exact (failsInLines_checkBounds bound).bind fun _ _ => hline.checkJigsaws.bind fun _ _ =>
      (hline.checkStates ctx.allowlist).bind fun _ _ => .ok bound

/-- It is placed as one without any, or refused without any. -/
theorem OneLine.yields_placed (h : p.OneLine) (ctx : CompileContext) (o : CompileOptions) :
    Yields OneLine (fun e => AllOneLine e.quoted) (p.placed ctx o) where
  ok moved hmoved := by
    rw [(placed_eq_ok.1 hmoved).1]
    exact h.transform _ _
  error := by
    unfold placed
    split
    · exact .ok p
    · exact (failsInLines_checkBounds _).bind fun _ _ =>
        ((h.transform _ _).checkStates ctx.allowlist).bind fun _ _ => .ok _

/-- A template that is not there is reported by its name. -/
theorem failsInLines_resolve (l : TemplateLibrary) (kind : TemplateKind) {name : String}
    (hname : Text.OneLine name) : FailsInLines (l.resolve kind name) := by
  unfold TemplateLibrary.resolve
  split
  · exact .ok _
  · exact .error (allOneLine_singleton.2 hname)

/-- Blocks are refused by their materials or their templates. -/
theorem failsInLines_addBlocks (l : TemplateLibrary) (layout : Layout) {bs : List Block}
    (hbs : ∀ b ∈ bs, b.OneLine) : FailsInLines (Layout.addBlocks l layout bs) := by
  induction bs generalizing layout with
  | nil => exact .ok layout
  | cons b bs ih =>
    obtain ⟨hb, hbs⟩ := List.forall_mem_cons.1 hbs
    have hdata : FailsInLines (b.data l) := by
      unfold Block.data
      split
      next name hname => exact .map _ (failsInLines_resolve l _ (hb.template name hname))
      next => exact .ok none
    exact (yields_boundState hb).error.bind fun state _ => hdata.bind fun data _ => ih _ hbs

/-- A plan without line breaks fails without any, if it fails. -/
theorem OneLine.assembled (h : p.OneLine) (ctx : CompileContext) (o : CompileOptions) :
    FailsInLines (p.assembled ctx o) := by
  refine (failsInLines_addBlocks ctx.templates ∅ h.blocks).bind fun blocks _ => ?_
  refine FailsWith.bind (.mapM fun e he => ?_) fun entities _ => ?_
  · exact (failsInLines_resolve ctx.templates .entity (h.entities e he)).bind fun data _ => .ok _
  · exact h.checkJigsaws.bind fun connectors _ => .ok _

/-- **A plan without line breaks fails without line breaks**, if it fails. -/
theorem OneLine.compile {biome : Option String} (h : p.OneLine)
    (hbiome : ∀ b ∈ biome, Text.OneLine b) (ctx : CompileContext) (o : CompileOptions) :
    FailsInLines (p.compile biome ctx o) := by
  have hauthored := h.yields_authored hbiome ctx
  refine hauthored.error.bind fun bound hbound => ?_
  have hplaced := (hauthored.ok bound hbound).yields_placed ctx o
  exact hplaced.error.bind fun moved hmoved => (hplaced.ok moved hmoved).assembled ctx o

end Plan

/-! ## Writing -/

namespace Structure

variable {s : Structure}

/-- Every key in a container has a value, if every key in what is spliced into it does. -/
theorem filled_document {d : Document} (h : s.document = .ok d)
    (hpayloads : ∀ c ∈ s.payloads, (Tag.compound c).Regular) : d.root.Filled := by
  obtain ⟨blocks, htags, rfl⟩ := document_eq_ok.1 h
  obtain ⟨hdata, hguests⟩ := forall_mem_payloads.1 hpayloads
  have hversion : (Tag.int s.dataVersion).Filled := Tag.filled_leaf rfl
  have hsize : (wordsTag [s.size.w, s.size.h, s.size.l]).Filled :=
    (Pos.regular_tag ⟨s.size.w, s.size.h, s.size.l⟩).filled
  have hpalette : (Tag.list 10 (s.palette.map PaletteEntry.tag)).Filled :=
    Tag.filled_list.2 (List.forall_mem_map.2 fun e _ => e.regular_tag.filled)
  have hblocks : (Tag.list 10 blocks).Filled :=
    Tag.filled_list.2 ((forall_mem_blockTags htags).2 fun b hb t ht =>
      (PlacedBlock.regular_tag ht (hdata b hb)).filled)
  have hentities : (Tag.list 10 (s.entities.map PlacedEntity.tag)).Filled :=
    Tag.filled_list.2 (List.forall_mem_map.2 fun e he =>
      (PlacedEntity.regular_tag (hguests e he)).filled)
  simp [Tag.filled_compound, hversion, hsize, hpalette, hblocks, hentities]

/-- To write a structure fails with nothing quoted, if it fails. -/
theorem failsPlainly_encode (hpayloads : ∀ c ∈ s.payloads, (Tag.compound c).Regular) :
    FailsWith (fun e => e.quoted = []) s.encode := by
  have hdocument : FailsWith (fun e => e.quoted = []) s.document := by
    have htags (bs : List PlacedBlock) :
        FailsWith (fun e : ContainerError => e.quoted = []) (blockTags bs) := by
      rw [blockTags_eq_mapM]
      refine .mapM fun b _ => ?_
      unfold PlacedBlock.tag
      split
      · exact .ok _
      · exact .error rfl
    exact (htags s.blocks).bind fun blocks _ => .ok _
  refine .map _ (hdocument.bind fun d hd => ?_)
  exact .mapped (Tag.failsPlainly_encode (filled_document hd hpayloads) d.name)

end Structure

end Blueprint
