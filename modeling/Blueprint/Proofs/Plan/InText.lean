import Blueprint.Proofs.BlockState.Oriented
import Blueprint.Proofs.Outcome
import Blueprint.Structure.Compile

/-!
# Only the texts of values matter

A plan is put in text by putting every property value in it in text, whatever it was authored
as. Each step of compiling a plan in text does what it does for the plan as it was authored:
states are looked up, allowed, moved and gathered by their texts. So plans that are the same in
text are compiled alike, or fail alike (`Plan.compile_eq_of_inText_eq`).
-/

namespace Blueprint

/-! ## Parts of a plan in text -/

/-- A palette with its states in text. -/
def BiomePalette.inText (palette : BiomePalette) : BiomePalette :=
  palette.map fun _ state => state.inText

/-- A state reference in text; a material stays what it is. -/
def StateRef.inText : StateRef → StateRef
  | direct state => direct state.inText
  | material key => material key

/-- A block with its state in text. -/
def Block.inText (b : Block) : Block := { b with state := b.state.inText }

/-- A connector with its final state in text. -/
def Jigsaw.inText (j : Jigsaw) : Jigsaw := { j with finalState := j.finalState.inText }

/-- A plan with the property values of all its states as texts: those of its blocks, of its
palettes, and of its connectors in the end. -/
def Plan.inText (p : Plan) : Plan :=
  { p with
    blocks := p.blocks.map Block.inText
    jigsaws := p.jigsaws.map Jigsaw.inText
    palettes := p.palettes.map fun _ palette => palette.inText }

/-- A state in text has the same text. -/
theorem BlockState.text_inText (state : BlockState) : state.inText.text = state.text := by
  have hentries : state.properties.inText.entries.map propertyText =
      state.properties.entries.map propertyText := by
    simp only [Properties.inText, SortedMap.map, List.map_map]
    rfl
  have hempty : state.properties.inText.isEmpty = state.properties.isEmpty := List.isEmpty_map
  rw [text, text, inText, hentries, hempty]

/-- The data of a connector has its final state as a text already. -/
theorem Jigsaw.data_inText (i : Nat) (j : Jigsaw) : j.inText.data i = j.data i := by
  simp only [data, inText, BlockState.text_inText]
  rfl

/-- A state is allowed, or not allowed, by the texts of its values. -/
theorem Allowlist.validate_inText (a : Allowlist) (state : BlockState) :
    a.validate state.inText = a.validate state := by
  have hproperties (rules : Rules) (entries : List (String × PropertyValue)) :
      validateProperties state.id rules (entries.map fun e => (e.1, e.2.inText)) =
        validateProperties state.id rules entries := by
    induction entries with
    | nil => rfl
    | cons e entries ih =>
      simp only [List.map_cons, validateProperties, ih]
      rfl
  simp only [validate, BlockState.inText, Properties.inText, SortedMap.map, hproperties]

/-! ## Binding -/

/-- A block in text is bound to a state in text. -/
theorem Block.bind_inText (biome : Option String) (palette : Option BiomePalette) (b : Block) :
    b.inText.bind biome (palette.map BiomePalette.inText) =
      (b.bind biome palette).map Block.inText := by
  obtain ⟨pos, state | key, template⟩ := b
  · rfl
  · have hget : ((palette.map BiomePalette.inText).bind fun p => p.get? key) =
        (palette.bind fun p => p.get? key).map BlockState.inText := by
      cases palette with
      | none => rfl
      | some palette => exact SortedMap.get?_map _ palette key
    simp only [bind, inText, StateRef.inText, hget]
    cases palette.bind fun p => p.get? key with
    | none => rfl
    | some state => rfl

/-- So are all blocks. -/
theorem Block.bindAll_inText (biome : Option String) (palette : Option BiomePalette)
    (bs : List Block) :
    bindAll biome (palette.map BiomePalette.inText) (bs.map Block.inText) =
      (bindAll biome palette bs).map (List.map Block.inText) := by
  induction bs with
  | nil => rfl
  | cons b bs ih =>
    simp only [List.map_cons, bindAll, bind_inText, ih, Outcome.bind_map, Outcome.map_bind]
    rfl

namespace Plan

variable (p : Plan)

/-- The palettes of a plan in text are in text. -/
theorem paletteOf_inText (biome : Option String) :
    p.inText.paletteOf biome = (p.paletteOf biome).map (Option.map BiomePalette.inText) := by
  cases biome with
  | none => rfl
  | some biome =>
    simp only [paletteOf, inText, SortedMap.get?_map]
    cases p.palettes.get? biome with
    | none => rfl
    | some palette => rfl

/-- To bind a plan in text is to bind the plan. -/
theorem bind_inText (biome : Option String) :
    p.inText.bind biome = (p.bind biome).map inText := by
  have hblocks (palette : Option BiomePalette) := Block.bindAll_inText biome palette p.blocks
  simp only [bind, paletteOf_inText, Outcome.bind_map, Outcome.map_bind]
  simp only [inText, hblocks, Outcome.bind_map]
  rfl

/-! ## Checks -/

/-- A plan in text has everything in the same cells. -/
theorem positions_inText : p.inText.positions = p.positions := by
  simp only [positions, inText, List.map_map]
  rfl

/-- So its bounds are the same. -/
theorem checkBounds_inText : p.inText.checkBounds = p.checkBounds := by
  rw [checkBounds, checkBounds, positions_inText]
  rfl

/-- Its connectors have the same data. -/
theorem connectorsFrom_inText (i : Nat) (read : SortedMap Pos Nbt.Compound) (js : List Jigsaw) :
    connectorsFrom i read (js.map Jigsaw.inText) = connectorsFrom i read js := by
  induction js generalizing i read with
  | nil => rfl
  | cons j js ih =>
    simp only [List.map_cons, connectorsFrom, Jigsaw.data_inText, ih]
    rfl

/-- So they pass the same check. -/
theorem checkJigsaws_inText : p.inText.checkJigsaws = p.checkJigsaws := by
  simp only [checkJigsaws, connectors, inText, List.length_map, connectorsFrom_inText]

/-- A block in text is bound to the same state. -/
theorem boundState_inText (b : Block) :
    boundState b.inText = (boundState b).map BlockState.inText := by
  obtain ⟨pos, state | key, template⟩ := b
  · rfl
  · rfl

/-- Blocks are permitted by the texts of their values. -/
theorem checkBlocks_inText (allowlist : Allowlist) (bs : List Block) :
    checkBlocks allowlist (bs.map Block.inText) = checkBlocks allowlist bs := by
  induction bs with
  | nil => rfl
  | cons b bs ih =>
    simp only [List.map_cons, checkBlocks, boundState_inText, ih, Outcome.bind_map, checkState,
      Allowlist.validate_inText]
    rfl

/-- So are connectors. -/
theorem checkConnectors_inText (allowlist : Allowlist) (js : List Jigsaw) :
    checkConnectors allowlist (js.map Jigsaw.inText) = checkConnectors allowlist js := by
  induction js with
  | nil => rfl
  | cons j js ih =>
    simp only [List.map_cons, checkConnectors, ih, checkState, Jigsaw.inText,
      Allowlist.validate_inText]
    rfl

/-- And so are all states of a plan. -/
theorem checkStates_inText (allowlist : Allowlist) :
    p.inText.checkStates allowlist = p.checkStates allowlist := by
  simp only [checkStates, inText, checkBlocks_inText, checkConnectors_inText]

/-! ## The four steps -/

variable (ctx : CompileContext) (o : CompileOptions)

/-- A plan in text is prepared as the plan is. -/
theorem authored_inText (biome : Option String) :
    p.inText.authored biome ctx = (p.authored biome ctx).map inText := by
  simp only [authored, bind_inText, Outcome.mapError_map, Outcome.bind_map, Outcome.map_bind,
    checkBounds_inText, checkJigsaws_inText, checkStates_inText]
  rfl

/-- A step in text is the step. -/
theorem step_inText (s : Step) : p.inText.step s = (p.step s).inText := by
  have hblocks (b : Block) : b.inText.step p.size s = (b.step p.size s).inText := by
    obtain ⟨pos, state | key, template⟩ := b
    · simp only [Block.step, Block.inText, StateRef.step, StateRef.inText, BlockState.step_inText]
    · rfl
  have hjigsaws (j : Jigsaw) : j.inText.step p.size s = (j.step p.size s).inText := by
    simp only [Jigsaw.step, Jigsaw.inText, BlockState.step_inText]
  -- whether the step changes anything does not depend on the plan
  rw [step, step]
  split
  · rfl
  · simp only [inText, List.map_map, Function.comp_def, hblocks, hjigsaws]

/-- So is a turn with a mirror. -/
theorem transform_inText (r : Rotation) (m : Mirror) :
    p.inText.transform r m = (p.transform r m).inText := by
  rw [transform, transform, step_inText, step_inText]

/-- A plan in text is placed as the plan is. -/
theorem placed_inText : p.inText.placed ctx o = (p.placed ctx o).map inText := by
  rw [placed, placed]
  split
  · rfl
  · simp only [transform_inText, checkBounds_inText, checkStates_inText, Outcome.map_bind]
    rfl

/-- Blocks in text fill the cells with the same entries. -/
theorem addBlocks_inText (l : TemplateLibrary) (layout : Layout) (bs : List Block) :
    layout.addBlocks l (bs.map Block.inText) = layout.addBlocks l bs := by
  induction bs generalizing layout with
  | nil => rfl
  | cons b bs ih =>
    simp only [List.map_cons, Layout.addBlocks, boundState_inText, Outcome.bind_map,
      BlockState.paletteEntry_inText, ih]
    rfl

/-- The structure of a plan has its states as palette entries, and these are in text. -/
theorem assembled_inText : p.inText.assembled ctx o = p.assembled ctx o := by
  simp only [assembled, checkJigsaws_inText]
  simp only [inText, addBlocks_inText, List.foldl_map]
  rfl

/-- A plan in text is compiled as the plan is. -/
theorem compile_inText (biome : Option String) :
    p.inText.compile biome ctx o = p.compile biome ctx o := by
  simp only [compile, authored_inText, placed_inText, assembled_inText, Outcome.bind_map]

/-- **Property values matter only by their texts.** Two plans that are the same when every
property value is put in text are compiled to the same structure, or fail with the same error. -/
theorem compile_eq_of_inText_eq {p q : Plan} (h : p.inText = q.inText) (biome : Option String)
    (ctx : CompileContext) (o : CompileOptions) :
    p.compile biome ctx o = q.compile biome ctx o := by
  calc
    p.compile biome ctx o = p.inText.compile biome ctx o := (compile_inText p ctx o biome).symm
    _ = q.inText.compile biome ctx o := by rw [h]
    _ = q.compile biome ctx o := compile_inText q ctx o biome

/-- A sign, a lamp of the palette, and a connector that a lamp stands for in the end, with their
values authored as given. -/
def post (heading lit : PropertyValue) : Plan where
  id := none
  size := ⟨1, 3, 1⟩
  blocks := [⟨⟨0, 0, 0⟩, .direct ⟨"sign", .ofList [("rotation", heading)]⟩, none⟩,
    ⟨⟨0, 1, 0⟩, .material "light", none⟩]
  entities := []
  jigsaws := [⟨⟨0, 2, 0⟩, "south_up", "gate", "roads", "road", "rollable",
    ⟨"lamp", .ofList [("lit", lit)]⟩⟩]
  jigsawPolicy := .unrestricted
  palettes := .ofList [("taiga", .ofList [("light", ⟨"lamp", .ofList [("lit", lit)]⟩)])]
  tags := []

/-- What the post needs: its states in the directions used. -/
def postContext : CompileContext where
  allowlist := ((Allowlist.empty.allow "sign" [("rotation", ["3", "7"])]).allow "lamp"
    [("lit", ["true"])]).allow jigsawBlock [("orientation", ["south_up", "west_up"])]
  templates := .empty

/-- A number and a truth value are turned and written out as the texts of the same spelling. -/
theorem compile_eq_of_inText_eq_post :
    (post (.int 3) (.bool true)).inText = (post (.string "3") (.string "true")).inText ∧
    ∃ s, (post (.int 3) (.bool true)).compile (some "taiga") postContext ⟨.deg90, .off, true⟩ =
        .ok s ∧
      (post (.string "3") (.string "true")).compile (some "taiga") postContext
        ⟨.deg90, .off, true⟩ = .ok s := by
  have hsame : (post (.int 3) (.bool true)).inText = (post (.string "3") (.string "true")).inText :=
    by decide +kernel
  obtain ⟨s, hs⟩ : ∃ s, (post (.int 3) (.bool true)).compile (some "taiga") postContext
      ⟨.deg90, .off, true⟩ = .ok s := ⟨_, rfl⟩
  exact ⟨hsame, s, hs, (compile_eq_of_inText_eq hsame _ _ _).symm.trans hs⟩

end Plan

end Blueprint
