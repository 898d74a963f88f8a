import Blueprint.Proofs.BlockState.OneLine
import Blueprint.Proofs.Plan.Bind
import Blueprint.Proofs.Plan.Rules

/-!
# Plans without line breaks

If no text in the file of a plan has a line break, neither has any text in the plan, whatever it is
bound to and wherever it is moved, and neither has what is quoted of the file when it is refused.
-/

namespace Blueprint

open Text Json Outcome

/-! ## Documents -/

/-- No text in the block has a line break. -/
structure BlockDocument.OneLine (b : BlockDocument) : Prop where
  blockId : ∀ id ∈ b.blockId, Text.OneLine id
  properties : b.properties.InLines fun v => Text.OneLine v.text
  materialKey : ∀ key ∈ b.materialKey, Text.OneLine key
  template : ∀ name ∈ b.template, Text.OneLine name

/-- No text in the connector has a line break. -/
structure JigsawDocument.OneLine (j : JigsawDocument) : Prop where
  orientation : Text.OneLine j.orientation
  name : Text.OneLine j.name
  pool : Text.OneLine j.pool
  targetPool : Text.OneLine j.targetPool
  joint : Text.OneLine j.joint
  finalState : Text.OneLine j.finalState

/-- No text in the entity has a line break. -/
structure EntityDocument.OneLine (e : EntityDocument) : Prop where
  template : Text.OneLine e.template

/-- No text has a line break that the document says what to build with. -/
structure PlanDocument.OneLine (d : PlanDocument) : Prop where
  blocks : ∀ b ∈ d.blocks, b.OneLine
  jigsaws : ∀ j ∈ d.jigsaws, j.OneLine
  entities : ∀ e ∈ d.entities, e.OneLine
  palettes : d.palettes.InLines fun materials => materials.InLines Text.OneLine

/-- A position has no text in it. -/
theorem Pos.gives_shape : Pos.shape.Gives fun _ => True := fun n hn =>
  (Shape.gives_word.triple n hn).map fun _ _ => trivial

/-- Nor has a size. -/
theorem Size.gives_shape : Size.shape.Gives fun _ => True := fun n hn =>
  (Shape.gives_word.triple n hn).map fun _ _ => trivial

/-- Nor has a point. -/
theorem gives_pointShape : pointShape.Gives fun _ => True := fun n hn =>
  (Shape.gives_double.triple n hn).map fun _ _ => trivial

/-- Nor has a version. -/
theorem gives_versionShape : versionShape.Gives fun _ => True := fun n hn =>
  (Shape.gives_integer _ _ n hn).map fun _ _ => trivial

open Shape.Field in
/-- A block is read without line breaks from a value without any. -/
theorem BlockDocument.gives_shape : BlockDocument.shape.Gives OneLine := by
  refine Shape.gives_record ?_ ⟨nofun, SortedMap.inLines_empty, nofun, nofun⟩
  simp only [List.forall_mem_cons]
  exact ⟨keeps_required (by decide) Pos.gives_shape fun _ _ _ h => { h with },
    keeps_optional (by decide) Shape.gives_string.optional fun _ _ ha h => { h with blockId := ha },
    keeps_optional (by decide) PropertyValue.gives_shape.map fun _ _ ha h =>
      { h with properties := ha },
    keeps_optional (by decide) Shape.gives_string.optional fun _ _ ha h =>
      { h with materialKey := ha },
    keeps_optional (by decide) Shape.gives_string.optional fun _ _ ha h =>
      { h with template := ha },
    nofun⟩

open Shape.Field in
/-- So is a connector. -/
theorem JigsawDocument.gives_shape : JigsawDocument.shape.Gives OneLine := by
  refine Shape.gives_record ?_ ⟨by decide, by decide, by decide, by decide, by decide, by decide⟩
  simp only [List.forall_mem_cons]
  exact ⟨keeps_required (by decide) Pos.gives_shape fun _ _ _ h => { h with },
    keeps_required (by decide) Shape.gives_string fun _ _ ha h => { h with orientation := ha },
    keeps_required (by decide) Shape.gives_string fun _ _ ha h => { h with name := ha },
    keeps_required (by decide) Shape.gives_string fun _ _ ha h => { h with pool := ha },
    keeps_required (by decide) Shape.gives_string fun _ _ ha h => { h with targetPool := ha },
    keeps_required (by decide) Shape.gives_string fun _ _ ha h => { h with joint := ha },
    keeps_optional (by decide) Shape.gives_string fun _ _ ha h => { h with finalState := ha },
    nofun⟩

open Shape.Field in
/-- So is an entity. -/
theorem EntityDocument.gives_shape : EntityDocument.shape.Gives OneLine := by
  refine Shape.gives_record ?_ ⟨by decide⟩
  simp only [List.forall_mem_cons]
  exact ⟨keeps_required (by decide) gives_pointShape fun _ _ _ h => { h with },
    keeps_required (by decide) Pos.gives_shape fun _ _ _ h => { h with },
    keeps_required (by decide) Shape.gives_string fun _ _ ha _ => ⟨ha⟩,
    nofun⟩

open Shape.Field in
/-- And so is a plan. -/
theorem PlanDocument.gives_shape : PlanDocument.shape.Gives OneLine := by
  refine Shape.gives_record ?_ ⟨nofun, nofun, nofun, SortedMap.inLines_empty⟩
  simp only [List.forall_mem_cons]
  exact ⟨keeps_optional (by decide) gives_versionShape.optional fun _ _ _ h => { h with },
    keeps_optional (by decide) Shape.gives_string.optional fun _ _ _ h => { h with },
    keeps_required (by decide) Size.gives_shape fun _ _ _ h => { h with },
    keeps_required (by decide) BlockDocument.gives_shape.list fun _ _ ha h =>
      { h with blocks := ha },
    keeps_optional (by decide) JigsawDocument.gives_shape.list fun _ _ ha h =>
      { h with jigsaws := ha },
    keeps_optional (by decide) EntityDocument.gives_shape.list fun _ _ ha h =>
      { h with entities := ha },
    keeps_optional (by decide) (Shape.gives_variant _) fun _ _ _ h => { h with },
    keeps_optional (by decide) Shape.gives_string.map.map fun _ _ ha h => { h with palettes := ha },
    keeps_optional (by decide) Shape.gives_string.list fun _ _ _ h => { h with },
    nofun⟩

/-! ## Documents that are refused -/

/-- What is quoted of what is refused has no line break. -/
abbrev RefusedInLines {α : Type} : Except SchemaError α → Prop :=
  FailsWith fun e => AllOneLine e.quoted

namespace PlanDocument

variable {field text : String}

/-- A field that says nothing is refused by its name. -/
theorem refusedInLines_requireText (hfield : Text.OneLine field) :
    RefusedInLines (requireText field text) := by
  rw [requireText]
  split
  · exact .error (allOneLine_singleton.2 hfield)
  · exact .ok ()

/-- A state that cannot be read is refused by its field and its text. -/
theorem refusedInLines_readState (hfield : Text.OneLine field) (htext : Text.OneLine text) :
    RefusedInLines (readState field text) :=
  .mapped fun e he => allOneLine_cons.2 ⟨hfield, BlockState.failsWith_parse htext e he⟩

/-- A name that says nothing is refused by its field. -/
theorem refusedInLines_acceptName (hfield : Text.OneLine field) (name : Option String) :
    RefusedInLines (acceptName field name) := by
  cases name with
  | none => exact .ok ()
  | some name => exact refusedInLines_requireText hfield

/-- A version is refused by its number. -/
theorem refusedInLines_acceptVersion (version : Option Nat) :
    RefusedInLines (acceptVersion version) := by
  cases version with
  | none => exact .ok ()
  | some v =>
    rw [acceptVersion]
    split
    · exact .ok ()
    · exact .error allOneLine_nil

/-! ### Palettes -/

/-- Materials are refused by their biome, or by the state of one. -/
theorem refusedInLines_acceptMaterials {biome : String} (hbiome : Text.OneLine biome)
    {l : List (String × String)} (hl : ∀ e ∈ l, Text.OneLine e.1 ∧ Text.OneLine e.2)
    (read : BiomePalette) : RefusedInLines (acceptMaterials biome l read) := by
  induction l generalizing read with
  | nil => exact .ok read
  | cons e l ih =>
    obtain ⟨⟨hkey, htext⟩, hl⟩ := List.forall_mem_cons.1 hl
    have hfield : Text.OneLine s!"palettes.{biome}.{e.1}" := by
      simp +decide [hbiome, hkey]
    refine (refusedInLines_requireText ?_).bind fun _ _ => ?_
    · simp +decide [hbiome]
    · exact (refusedInLines_readState hfield htext).bind fun state _ => ih hl _

/-- Palettes are refused by what is wrong with one of them. -/
theorem refusedInLines_acceptBiomes {l : List (String × SortedMap String String)}
    (hl : ∀ e ∈ l, Text.OneLine e.1 ∧ e.2.InLines Text.OneLine)
    (read : SortedMap String BiomePalette) : RefusedInLines (acceptBiomes l read) := by
  induction l generalizing read with
  | nil => exact .ok read
  | cons e l ih =>
    obtain ⟨⟨hbiome, hmaterials⟩, hl⟩ := List.forall_mem_cons.1 hl
    exact (refusedInLines_acceptMaterials hbiome hmaterials .empty).bind fun palette _ => ih hl _

/-- So they are by the biomes that are there and those that are not. -/
theorem refusedInLines_acceptPalettes {written : SortedMap String (SortedMap String String)}
    (h : written.InLines fun materials => materials.InLines Text.OneLine) :
    RefusedInLines (acceptPalettes written) := by
  have hsupported : AllOneLine Biome.supported := by decide
  unfold acceptPalettes
  dsimp only
  split
  next => exact .ok _
  next =>
    split
    next => exact refusedInLines_acceptBiomes h .empty
    next =>
      -- what is missing is a biome that is supported, and what is unknown a key that was written
      refine .error (allOneLine_append.2 ⟨fun biome hmissing => ?_, fun biome hunknown => ?_⟩)
      · have hbiome := List.mem_of_mem_filter hmissing
        exact hsupported biome (List.mem_mergeSort.1 hbiome)
      · obtain ⟨e, he, rfl⟩ := List.mem_map.1 (List.mem_of_mem_filter hunknown)
        exact (h e he).1

/-! ### Blocks, connectors and entities -/

/-- A state reference is refused by the field, the biome and the material. -/
theorem refusedInLines_acceptStateRef {palettes : SortedMap String BiomePalette}
    (hpalettes : AllOneLine palettes.keys) (i : Nat) {b : BlockDocument} (hb : b.OneLine) :
    RefusedInLines (acceptStateRef palettes i b) := by
  unfold acceptStateRef
  split
  next =>
    refine (refusedInLines_requireText ?_).bind fun _ _ => .ok _
    simp +decide
  next key _ hkey =>
    split
    next => exact .error allOneLine_nil
    next =>
      split
      next biome palette hlacking =>
        have hbiome : biome ∈ palettes.keys :=
          List.mem_map_of_mem (List.mem_of_find?_eq_some hlacking)
        refine .error (allOneLine_cons.2 ⟨hb.materialKey key hkey, ?_⟩)
        exact allOneLine_singleton.2 (hpalettes biome hbiome)
      next => exact .ok _
  next => exact .error allOneLine_nil
  next => exact .error allOneLine_nil

/-- Blocks are refused by what is wrong with one of them. -/
theorem refusedInLines_acceptBlocks {palettes : SortedMap String BiomePalette}
    (hpalettes : AllOneLine palettes.keys) (i : Nat) (seen : Std.TreeSet Pos)
    {bs : List BlockDocument} (hbs : ∀ b ∈ bs, b.OneLine) :
    RefusedInLines (acceptBlocks palettes i seen bs) := by
  induction bs generalizing i seen with
  | nil => exact .ok []
  | cons b bs ih =>
    obtain ⟨hb, hbs⟩ := List.forall_mem_cons.1 hbs
    rw [acceptBlocks]
    refine .refuse (fun _ => allOneLine_nil) ?_
    refine (refusedInLines_acceptStateRef hpalettes i hb).bind fun state _ => ?_
    refine (refusedInLines_acceptName ?_ b.template).bind fun _ _ => ?_
    · simp +decide
    · exact (ih (i + 1) _ hbs).bind fun rest _ => .ok _

/-- So are connectors. -/
theorem refusedInLines_acceptJigsaws (i : Nat) {js : List JigsawDocument}
    (hjs : ∀ j ∈ js, j.OneLine) : RefusedInLines (acceptJigsaws i js) := by
  induction js generalizing i with
  | nil => exact .ok []
  | cons j js ih =>
    obtain ⟨hj, hjs⟩ := List.forall_mem_cons.1 hjs
    refine (refusedInLines_readState ?_ hj.finalState).bind fun state _ => ?_
    · simp +decide
    · exact (ih (i + 1) hjs).bind fun rest _ => .ok _

/-- And so are entities. -/
theorem refusedInLines_acceptEntities (size : Size) (i : Nat) (es : List EntityDocument) :
    RefusedInLines (acceptEntities size i es) := by
  induction es generalizing i with
  | nil => exact .ok []
  | cons e es ih =>
    refine (refusedInLines_requireText ?_).bind fun _ _ => ?_
    · simp +decide
    · exact .refuse (fun _ => allOneLine_nil) ((ih (i + 1)).bind fun rest _ => .ok _)

/-- A document that is refused is quoted without line breaks, if it has none. -/
theorem OneLine.refusedInLines {d : PlanDocument} (h : d.OneLine) : RefusedInLines d.accept := by
  refine (refusedInLines_acceptVersion _).bind fun _ _ => ?_
  refine (refusedInLines_acceptName (by decide) _).bind fun _ _ => ?_
  refine .refuse (fun _ => allOneLine_nil) ?_
  refine (refusedInLines_acceptPalettes h.palettes).bind fun palettes hpalettes => ?_
  have hread := (acceptPalettes_eq_ok.1 hpalettes).2
  have hkeys : AllOneLine palettes.keys := by
    rw [← hread.keys_eq]
    exact List.forall_mem_map.2 fun e he => (h.palettes e he).1
  refine (refusedInLines_acceptBlocks hkeys 0 ∅ h.blocks).bind fun blocks _ => ?_
  refine (refusedInLines_acceptJigsaws 0 h.jigsaws).bind fun jigsaws _ => ?_
  exact (refusedInLines_acceptEntities d.size 0 d.entities).bind fun entities _ => .ok _

end PlanDocument

/-! ## Plans -/

/-- No text in the state of a block has a line break. -/
def StateRef.OneLine : StateRef → Prop
  | direct state => state.OneLine
  | material key => Text.OneLine key

/-- No text in the block has a line break. -/
structure Block.OneLine (b : Block) : Prop where
  state : b.state.OneLine
  template : ∀ name ∈ b.template, Text.OneLine name

/-- No text in the connector has a line break. -/
structure Jigsaw.OneLine (j : Jigsaw) : Prop where
  orientation : Text.OneLine j.orientation
  name : Text.OneLine j.name
  pool : Text.OneLine j.pool
  targetPool : Text.OneLine j.targetPool
  joint : Text.OneLine j.joint
  finalState : j.finalState.OneLine

/-- No text has a line break that the plan says what to build with. -/
structure Plan.OneLine (p : Plan) : Prop where
  blocks : ∀ b ∈ p.blocks, b.OneLine
  jigsaws : ∀ j ∈ p.jigsaws, j.OneLine
  entities : ∀ e ∈ p.entities, Text.OneLine e.template
  palettes : p.palettes.InLines fun palette => palette.InLines BlockState.OneLine

/-- The state of a block has the texts of the block. -/
theorem BlockDocument.HasState.oneLine {b : BlockDocument} {state : StateRef}
    (h : b.HasState state) (hb : b.OneLine) : state.OneLine := by
  cases h with
  | direct hid _ => exact ⟨hb.blockId _ hid, hb.properties⟩
  | material _ hkey => exact hb.materialKey _ hkey

/-- The states in a palette have the texts of its materials. -/
theorem MaterialsRead.inLines {materials : SortedMap String String} {palette : BiomePalette}
    (h : MaterialsRead materials palette) (hlines : materials.InLines Text.OneLine) :
    palette.InLines BlockState.OneLine :=
  hlines.of_rel h fun _ _ _ hread => BlockState.oneLine_of_parse hread

/-- A plan has the texts of its document. -/
theorem PlanDocument.Becomes.oneLine {d : PlanDocument} {p : Plan} (h : d.Becomes p)
    (hd : d.OneLine) : p.OneLine where
  blocks b hb := by
    obtain ⟨written, hwritten, hitem⟩ := exists_mem_of_forall₂ h.blocks hb
    have hline := hd.blocks written hwritten
    exact ⟨hitem.state.oneLine hline, hitem.template ▸ hline.template⟩
  jigsaws j hj := by
    obtain ⟨written, hwritten, hitem⟩ := exists_mem_of_forall₂ h.jigsaws hj
    obtain ⟨orientation, name, pool, targetPool, joint, -⟩ := hd.jigsaws written hwritten
    rw [hitem.rest]
    exact ⟨orientation, name, pool, targetPool, joint,
      BlockState.oneLine_of_parse hitem.finalState⟩
  entities e he := by
    rw [h.entities] at he
    obtain ⟨written, hwritten, rfl⟩ := List.mem_map.1 he
    exact (hd.entities written hwritten).template
  palettes := hd.palettes.of_rel h.palettes fun _ _ hlines hread => hread.inLines hlines

/-- Neither a plan that is read nor what is quoted of it has a line break, if its file has none in
any of its texts. -/
theorem Plan.yields_parse {text : String} (h : (layOut text).value.OneLine) :
    Yields OneLine (fun e => AllOneLine e.quoted) (parse text) := by
  have hread := PlanDocument.gives_shape.ofText h
  refine ⟨fun p hp => ?_, ?_⟩
  · simp only [parse, bind_eq_ok, mapError_eq_ok] at hp
    obtain ⟨d, hd, haccept⟩ := hp
    exact (PlanDocument.accept_eq_ok.1 haccept).2.oneLine (hread.ok d hd)
  · refine FailsWith.bind (.mapped fun e he => ?_) fun d hd => ?_
    · have hquoted := hread.error e he
      cases e with
      | malformed => exact allOneLine_nil
      | shape e => exact hquoted
    · have hline := hread.ok d (mapError_eq_ok.1 hd)
      exact .mapped fun e he => hline.refusedInLines e he

end Blueprint
