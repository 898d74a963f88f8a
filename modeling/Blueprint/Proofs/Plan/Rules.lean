import Blueprint.Plan.Accept
import Blueprint.Proofs.Outcome
import Blueprint.Proofs.SortedMap

/-!
# The rules for plan documents

What a document has to keep to become a plan, said of the document as a whole and apart from the
order in which the rules are looked at. A document that keeps them becomes a plan, one that breaks
any of them is refused with an error about its contents, and no refusal has another cause
(`Plan.judged`). The plan is the document item by item: nothing is left out, added or moved.
-/

namespace Blueprint

/-- Some character of the text is no blank. -/
def Text.SaysSomething (text : String) : Prop := ∃ c ∈ text.toList, Text.isBlank c = false

/-- A text says something unless it is all blank. -/
theorem Text.saysSomething_iff {text : String} : SaysSomething text ↔ allBlank text = false := by
  simp only [SaysSomething, allBlank, List.all_eq_false, Bool.not_eq_true]

instance (text : String) : Decidable (Text.SaysSomething text) :=
  decidable_of_iff _ Text.saysSomething_iff.symm

/-! ## What is read of a document -/

/-- The state that a block is given: its own, or that of a material. -/
inductive BlockDocument.HasState (b : BlockDocument) : StateRef → Prop
  /-- it names a block and no material -/
  | direct {id : String} (hid : b.blockId = some id) (hmaterial : b.materialKey = none) :
    HasState b (.direct ⟨id, b.properties⟩)
  /-- it names a material and no block -/
  | material {key : String} (hid : b.blockId = none) (hmaterial : b.materialKey = some key) :
    HasState b (.material key)

/-- A block has a state if it names a block or a material, and not both. -/
theorem BlockDocument.HasState.isSome_eq {b : BlockDocument} {state : StateRef}
    (h : b.HasState state) : b.blockId.isSome = !b.materialKey.isSome := by
  cases h with
  | direct hid hmaterial => rw [hid, hmaterial]; rfl
  | material hid hmaterial => rw [hid, hmaterial]; rfl

/-- One of them is enough for a state. -/
theorem BlockDocument.exists_hasState {b : BlockDocument}
    (h : b.blockId.isSome = !b.materialKey.isSome) : ∃ state, b.HasState state := by
  cases hid : b.blockId with
  | none =>
    obtain ⟨key, hkey⟩ : ∃ key, b.materialKey = some key := by
      rw [← Option.isSome_iff_exists]
      simpa [hid] using h
    exact ⟨_, .material hid hkey⟩
  | some id =>
    have hnone : b.materialKey = none := by simpa [hid] using h
    exact ⟨_, .direct hid hnone⟩

/-- A block of a document as a block of the plan. -/
structure BlockDocument.Becomes (b : BlockDocument) (block : Block) : Prop where
  /-- it stands in the same cell -/
  pos : block.pos = b.pos
  /-- it has the state that it was given -/
  state : b.HasState block.state
  /-- it keeps its template -/
  template : block.template = b.template

/-- A connector of a document as a connector of the plan. -/
structure JigsawDocument.Becomes (j : JigsawDocument) (jigsaw : Jigsaw) : Prop where
  /-- its final state is read -/
  finalState : BlockState.parse j.finalState = .ok jigsaw.finalState
  /-- everything else is kept -/
  rest : jigsaw = ⟨j.pos, j.orientation, j.name, j.pool, j.targetPool, j.joint, jigsaw.finalState⟩

/-- An entity of a document as an entity of the plan that has taken no step. -/
def EntityDocument.entity (size : Size) (e : EntityDocument) : Entity :=
  ⟨e.point, .identity size, e.blockPos, e.template⟩

/-- Materials with the states that their texts are read as. -/
def MaterialsRead : SortedMap String String → BiomePalette → Prop :=
  SortedMap.Rel fun text state => BlockState.parse text = .ok state

/-- A plan that has all items of a document, one for one and in their order. -/
structure PlanDocument.Becomes (d : PlanDocument) (p : Plan) : Prop where
  id : p.id = d.id
  size : p.size = d.size
  jigsawPolicy : p.jigsawPolicy = d.jigsawPolicy
  tags : p.tags = d.tags
  /-- each block becomes one block -/
  blocks : List.Forall₂ BlockDocument.Becomes d.blocks p.blocks
  /-- each connector becomes one connector -/
  jigsaws : List.Forall₂ JigsawDocument.Becomes d.jigsaws p.jigsaws
  /-- each entity becomes one -/
  entities : p.entities = d.entities.map (EntityDocument.entity d.size)
  /-- each material becomes the state that its text is read as -/
  palettes : d.palettes.Rel MaterialsRead p.palettes

/-- The blocks of a plan are in the cells that the document says. -/
theorem PlanDocument.Becomes.positions_eq {d : PlanDocument} {p : Plan} (h : d.Becomes p) :
    p.blocks.map Block.pos = d.blocks.map BlockDocument.pos := by
  rw [← List.forall₂_eq_eq_eq, List.forall₂_map_left_iff, List.forall₂_map_right_iff]
  exact h.blocks.flip.imp fun _ _ hblock => hblock.pos

/-! ## The rules -/

/-- What is asked of a block, given the palettes. -/
structure BlockDocument.Rules {α : Type} (palettes : SortedMap String (SortedMap String α))
    (b : BlockDocument) : Prop where
  /-- it has a state of its own or that of a material, and not both -/
  state : b.blockId.isSome = !b.materialKey.isSome
  /-- the name of its state says something -/
  id : ∀ id, b.blockId = some id → Text.SaysSomething id
  /-- a material has its properties elsewhere -/
  properties : ∀ key, b.materialKey = some key → b.properties.isEmpty = true
  /-- a material means something in every palette -/
  material : ∀ key, b.materialKey = some key → ∀ biome materials,
    palettes.get? biome = some materials → materials.contains key = true
  /-- the name of its template, if there is one, says something -/
  template : ∀ name, b.template = some name → Text.SaysSomething name

/-- What is asked of an entity. -/
structure EntityDocument.Rules (e : EntityDocument) : Prop where
  /-- the name of its template says something -/
  template : Text.SaysSomething e.template
  /-- its coordinates are numbers -/
  point : ∀ c ∈ e.point.toList, c.isFinite = true

/-- What is asked of the materials of a biome. -/
structure MaterialRules (materials : SortedMap String String) : Prop where
  /-- their names say something -/
  key : ∀ key ∈ materials.keys, Text.SaysSomething key
  /-- their states can be read -/
  state : ∀ key text, materials.get? key = some text → ∃ state, BlockState.parse text = .ok state

/-- What is asked of the palettes. -/
structure PaletteRules (palettes : SortedMap String (SortedMap String String)) : Prop where
  /-- they are those of all biomes, if there are any -/
  biomes : palettes.isEmpty = true ∨
    ∀ biome, palettes.contains biome = true ↔ biome ∈ Biome.supported
  /-- the materials of each can be read -/
  materials : ∀ biome materials, palettes.get? biome = some materials → MaterialRules materials

/-- What is asked of a document. -/
structure PlanDocument.Rules (d : PlanDocument) : Prop where
  /-- its version, if given, is the supported one -/
  version : ∀ v, d.schemaVersion = some v → v = 1
  /-- its name, if there is one, says something -/
  id : ∀ id, d.id = some id → Text.SaysSomething id
  /-- there is room in its box -/
  size : 0 < d.size.w ∧ 0 < d.size.h ∧ 0 < d.size.l
  /-- its palettes can be read -/
  palettes : PaletteRules d.palettes
  /-- no two blocks stand in a cell -/
  positions : (d.blocks.map BlockDocument.pos).Nodup
  /-- each block keeps the rules for blocks -/
  blocks : ∀ b ∈ d.blocks, b.Rules d.palettes
  /-- what connectors turn into can be read -/
  jigsaws : ∀ j ∈ d.jigsaws, ∃ state, BlockState.parse j.finalState = .ok state
  /-- each entity keeps the rules for entities -/
  entities : ∀ e ∈ d.entities, e.Rules

namespace PlanDocument

variable {field : String}

/-- A text that says something is accepted where one is required. -/
theorem requireText_eq_ok {text : String} :
    requireText field text = .ok () ↔ Text.SaysSomething text := by
  rw [requireText, Text.saysSomething_iff]
  cases Text.allBlank text with
  | true => simp
  | false => simp

/-- A name is accepted if it says something or is not there. -/
theorem acceptName_eq_ok {name : Option String} :
    acceptName field name = .ok () ↔ ∀ text, name = some text → Text.SaysSomething text := by
  cases name with
  | none => simp [acceptName]
  | some name => simp [acceptName, requireText_eq_ok]

/-- The only version is the first one. -/
theorem acceptVersion_eq_ok {version : Option Nat} :
    acceptVersion version = .ok () ↔ ∀ v, version = some v → v = 1 := by
  cases version with
  | none => simp [acceptVersion]
  | some v => simp [acceptVersion, show Blueprint.schemaVersion = 1 from rfl]

/-! ## Palettes -/

/-- Materials are accepted if their names say something and their states can be read. -/
theorem acceptMaterials_eq_ok {biome : String} {l : List (String × String)}
    {read palette : BiomePalette} :
    acceptMaterials biome l read = .ok palette ↔ (∀ e ∈ l, Text.SaysSomething e.1) ∧
      ∃ states, List.Forall₂
          (SortedMap.EntryRel fun text state => BlockState.parse text = .ok state) l states ∧
        palette = states.foldl (fun m e => m.insert e.1 e.2) read := by
  induction l generalizing read with
  | nil => simp [acceptMaterials, eq_comm]
  | cons e l ih =>
    obtain ⟨key, text⟩ := e
    rw [acceptMaterials, Outcome.check_bind_eq_ok, requireText_eq_ok, List.forall_mem_cons,
      and_assoc]
    simp only [Outcome.bind_eq_ok, readState, Outcome.mapError_eq_ok, ih]
    refine and_congr_right fun _ => ⟨?_, ?_⟩
    · rintro ⟨state, hstate, hkeys, states, hstates, rfl⟩
      exact ⟨hkeys, (key, state) :: states, .cons ⟨rfl, hstate⟩ hstates, rfl⟩
    · rintro ⟨hkeys, states, hstates, rfl⟩
      cases hstates with
      | @cons _ e' _ states he hstates =>
        obtain ⟨rfl, hstate⟩ := he
        exact ⟨e'.2, hstate, hkeys, states, hstates, rfl⟩

/-- What the materials of a biome are read as. -/
theorem acceptMaterials_entries_eq_ok {biome : String} {materials : SortedMap String String}
    {palette : BiomePalette} :
    acceptMaterials biome materials.entries .empty = .ok palette ↔
      (∀ key ∈ materials.keys, Text.SaysSomething key) ∧ MaterialsRead materials palette := by
  rw [acceptMaterials_eq_ok, MaterialsRead, SortedMap.rel_iff_exists, SortedMap.keys,
    List.forall_mem_map]
  rfl

/-- So are the palettes of several biomes. -/
theorem acceptBiomes_eq_ok {l : List (String × SortedMap String String)}
    {read palettes : SortedMap String BiomePalette} :
    acceptBiomes l read = .ok palettes ↔
      ∃ found, List.Forall₂ (SortedMap.EntryRel fun materials palette =>
          (∀ key ∈ materials.keys, Text.SaysSomething key) ∧ MaterialsRead materials palette)
          l found ∧
        palettes = found.foldl (fun m e => m.insert e.1 e.2) read := by
  induction l generalizing read with
  | nil => simp [acceptBiomes, eq_comm]
  | cons e l ih =>
    obtain ⟨biome, materials⟩ := e
    rw [acceptBiomes]
    simp only [Outcome.bind_eq_ok, acceptMaterials_entries_eq_ok, ih]
    refine ⟨?_, ?_⟩
    · rintro ⟨palette, hpalette, found, hfound, rfl⟩
      exact ⟨(biome, palette) :: found, .cons ⟨rfl, hpalette⟩ hfound, rfl⟩
    · rintro ⟨found, hfound, rfl⟩
      cases hfound with
      | @cons _ e' _ found he hfound =>
        obtain ⟨rfl, hpalette⟩ := he
        exact ⟨e'.2, hpalette, found, hfound, rfl⟩

/-- No biome is missing and none is unknown. -/
theorem exact_iff {written : SortedMap String (SortedMap String String)} :
    ((biomeNames.filter fun b => !written.contains b).isEmpty &&
        (written.keys.filter fun b => !Biome.supported.contains b).isEmpty) = true ↔
      ∀ biome, written.contains biome = true ↔ biome ∈ Biome.supported := by
  simp only [Bool.and_eq_true, List.isEmpty_iff, List.filter_eq_nil_iff, biomeNames,
    List.mem_mergeSort, Bool.not_eq_true', Bool.not_eq_false, List.contains_iff_mem,
    ← SortedMap.contains_iff_mem_keys]
  exact ⟨fun ⟨hmissing, hunknown⟩ biome => ⟨hunknown biome, hmissing biome⟩,
    fun h => ⟨fun biome => (h biome).2, fun biome => (h biome).1⟩⟩

/-- What the biomes with their materials are read as. -/
theorem acceptBiomes_entries_eq_ok {written : SortedMap String (SortedMap String String)}
    {palettes : SortedMap String BiomePalette} :
    acceptBiomes written.entries .empty = .ok palettes ↔
      (∀ biome materials, written.get? biome = some materials → MaterialRules materials) ∧
        written.Rel MaterialsRead palettes := by
  have hentries : acceptBiomes written.entries .empty = .ok palettes ↔
      (∀ e ∈ written.entries, ∀ key ∈ e.2.keys, Text.SaysSomething key) ∧
        written.Rel MaterialsRead palettes := by
    rw [acceptBiomes_eq_ok]
    exact SortedMap.rel_iff_exists.symm.trans SortedMap.rel_and_left_iff
  -- a state that was read is one that can be read
  refine hentries.trans (and_congr_left fun hread => ⟨fun hkeys biome materials hget => ?_,
    fun hrules e he => (hrules e.1 e.2 (SortedMap.get?_eq_some_iff.2 he)).key⟩)
  obtain ⟨palette, -, hpalette⟩ := hread.exists_value hget
  refine ⟨hkeys _ (SortedMap.get?_eq_some_iff.1 hget), fun key text htext => ?_⟩
  obtain ⟨state, -, hstate⟩ := hpalette.exists_value htext
  exact ⟨state, hstate⟩

/-- Palettes are accepted if they keep the rules. -/
theorem acceptPalettes_eq_ok {written : SortedMap String (SortedMap String String)}
    {palettes : SortedMap String BiomePalette} :
    acceptPalettes written = .ok palettes ↔
      PaletteRules written ∧ written.Rel MaterialsRead palettes := by
  rw [acceptPalettes]
  split
  next hempty =>
    -- no palette is written, and none is read
    have hnone := List.isEmpty_iff.1 hempty
    refine ⟨?_, fun h => ?_⟩
    · rintro ⟨⟩
      refine ⟨⟨.inl hempty, fun biome materials hget => ?_⟩, ?_⟩
      · rw [SortedMap.get?_eq_some_iff, hnone] at hget
        cases hget
      · rw [SortedMap.Rel, hnone]
        exact .nil
    · have hread := h.2
      rw [SortedMap.Rel, hnone, List.forall₂_nil_left_iff] at hread
      exact congrArg Except.ok (SortedMap.eq_of_entries_eq hread.symm)
  next hsome =>
    -- some are written: they are the supported biomes, or they are refused
    split
    next hexact =>
      rw [acceptBiomes_entries_eq_ok]
      exact and_congr_left fun _ =>
        ⟨fun hmaterials => ⟨.inr (exact_iff.1 hexact), hmaterials⟩, PaletteRules.materials⟩
    next hinexact =>
      refine iff_of_false (fun h => ?_) fun h =>
        hinexact (exact_iff.2 (h.1.biomes.resolve_left hsome))
      cases h

/-! ## Blocks -/

/-- A block keeps the same rules by the palettes as they are written and as they are read. -/
theorem rules_iff_of_rel {written : SortedMap String (SortedMap String String)}
    {palettes : SortedMap String BiomePalette} (h : written.Rel MaterialsRead palettes)
    {b : BlockDocument} : b.Rules written ↔ b.Rules palettes := by
  have hmaterial (key : String) :=
    h.forall_iff (P := fun materials => materials.contains key = true) fun _ _ hread =>
      hread.contains_iff
  exact ⟨fun ⟨state, id, properties, material, template⟩ =>
      ⟨state, id, properties, fun key hkey => (hmaterial key).1 (material key hkey), template⟩,
    fun ⟨state, id, properties, material, template⟩ =>
      ⟨state, id, properties, fun key hkey => (hmaterial key).2 (material key hkey), template⟩⟩

/-- A material means something in every palette if none is found in which it does not. -/
theorem find?_lacking_eq_none {palettes : SortedMap String BiomePalette} {key : String} :
    (palettes.entries.find? fun e => !e.2.contains key) = none ↔
      ∀ biome palette, palettes.get? biome = some palette → palette.contains key = true := by
  simp only [List.find?_eq_none, Bool.not_eq_true', Bool.not_eq_false, Prod.forall,
    SortedMap.get?_eq_some_iff]

/-- A state reference is accepted if it is of one kind and all palettes have its material. -/
theorem acceptStateRef_eq_ok {palettes : SortedMap String BiomePalette} {i : Nat}
    {b : BlockDocument} {state : StateRef} :
    acceptStateRef palettes i b = .ok state ↔ b.HasState state ∧
      (∀ id, b.blockId = some id → Text.SaysSomething id) ∧
      ∀ key, b.materialKey = some key → b.properties.isEmpty = true ∧
        ∀ biome palette, palettes.get? biome = some palette → palette.contains key = true := by
  refine ⟨fun h => ?_, ?_⟩
  -- both, neither, or properties beside a material are refused
  · rw [acceptStateRef] at h
    split at h
    next id hid hmaterial =>
      rw [Outcome.check_bind_eq_ok, requireText_eq_ok, Outcome.pure_eq_ok] at h
      obtain ⟨htext, rfl⟩ := h
      refine ⟨.direct hid hmaterial, fun id' hid' => ?_, fun key hkey => ?_⟩
      · obtain rfl := Option.some.inj (hid.symm.trans hid')
        exact htext
      · rw [hmaterial] at hkey
        cases hkey
    next key hid hmaterial =>
      split at h
      next => cases h
      next hbare =>
        split at h
        next => cases h
        next hfind =>
          cases h
          refine ⟨.material hid hmaterial, fun id hid' => ?_, fun key' hkey' => ?_⟩
          · rw [hid] at hid'
            cases hid'
          · obtain rfl := Option.some.inj (hmaterial.symm.trans hkey')
            exact ⟨by simpa using hbare, find?_lacking_eq_none.1 hfind⟩
    next => cases h
    next => cases h
  -- the two ways to give a state are the two branches that go on
  · rintro ⟨hstate, htext, hmaterials⟩
    cases hstate with
    | direct hid hmaterial =>
      simp only [acceptStateRef, hid, hmaterial, Outcome.check_bind_eq_ok, requireText_eq_ok,
        Outcome.pure_eq_ok, and_true]
      exact htext _ hid
    | material hid hmaterial =>
      obtain ⟨hbare, hdefined⟩ := hmaterials _ hmaterial
      simp [acceptStateRef, hid, hmaterial, hbare, find?_lacking_eq_none.2 hdefined,
        Outcome.pure_eq_ok]

/-- A block is accepted in a cell of its own if it keeps the rules. -/
theorem acceptBlocks_cons_eq_ok {palettes : SortedMap String BiomePalette} {i : Nat}
    {seen : Std.TreeSet Pos} {b : BlockDocument} {bs : List BlockDocument} {blocks : List Block} :
    acceptBlocks palettes i seen (b :: bs) = .ok blocks ↔
      ∃ block rest, b.pos ∉ seen ∧ b.Rules palettes ∧ b.Becomes block ∧
        acceptBlocks palettes (i + 1) (seen.insert b.pos) bs = .ok rest ∧
        blocks = block :: rest := by
  rw [acceptBlocks]
  -- a position that was seen is refused before the rest of the block is looked at
  by_cases hseen : seen.contains b.pos = true
  · rw [if_pos hseen]
    refine iff_of_false ?_ ?_
    · intro h
      obtain ⟨_, hthrow, -⟩ := Outcome.bind_eq_ok.1 h
      exact Outcome.throw_eq_ok.1 hthrow
    · rintro ⟨_, _, hfree, -⟩
      exact hfree (Std.TreeSet.contains_iff_mem.1 hseen)
  · rw [if_neg hseen]
    have hfree : b.pos ∉ seen := fun hmem => hseen (Std.TreeSet.contains_iff_mem.2 hmem)
    simp only [Outcome.bind_eq_ok, Outcome.pure_eq_ok, acceptStateRef_eq_ok]
    refine ⟨?_, ?_⟩
    · rintro ⟨state, ⟨hstate, hid, hmaterial⟩, ⟨⟩, htemplate, rest, hrest, rfl⟩
      have hrules : b.Rules palettes :=
        ⟨hstate.isSome_eq, hid, fun key hkey => (hmaterial key hkey).1,
          fun key hkey => (hmaterial key hkey).2, acceptName_eq_ok.1 htemplate⟩
      exact ⟨_, rest, hfree, hrules, ⟨rfl, hstate, rfl⟩, hrest, rfl⟩
    · rintro ⟨⟨_, state, _⟩, rest, -, hrules, ⟨rfl, hstate, rfl⟩, hrest, rfl⟩
      have hmaterial (key : String) (hkey : b.materialKey = some key) :=
        And.intro (hrules.properties key hkey) (hrules.material key hkey)
      exact ⟨state, ⟨hstate, hrules.id, hmaterial⟩, (), acceptName_eq_ok.2 hrules.template, rest,
        hrest, rfl⟩

/-- Blocks are accepted in different cells if all of them keep the rules. -/
theorem acceptBlocks_eq_ok {palettes : SortedMap String BiomePalette} {i : Nat}
    {seen : Std.TreeSet Pos} {bs : List BlockDocument} {blocks : List Block} :
    acceptBlocks palettes i seen bs = .ok blocks ↔
      (∀ b ∈ bs, b.pos ∉ seen) ∧ (bs.map BlockDocument.pos).Nodup ∧ (∀ b ∈ bs, b.Rules palettes) ∧
        List.Forall₂ BlockDocument.Becomes bs blocks := by
  -- every block is compared with all before it, so `seen` grows along the list
  induction bs generalizing i seen blocks with
  | nil => simp [acceptBlocks, eq_comm]
  | cons b bs ih =>
    have hfresh : (∀ b' ∈ bs, b'.pos ∉ seen.insert b.pos) ↔
        (∀ b' ∈ bs, b'.pos ∉ seen) ∧ b.pos ∉ bs.map BlockDocument.pos := by
      simp only [Std.TreeSet.mem_insert, Std.LawfulEqCmp.compare_eq_iff_eq, not_or, List.mem_map,
        not_exists, not_and, ← forall₂_and]
      exact forall₂_congr fun b' _ => and_comm.trans (and_congr_right fun _ => ne_comm)
    simp only [acceptBlocks_cons_eq_ok, ih, hfresh, List.map_cons, List.nodup_cons,
      List.forall_mem_cons, List.forall₂_cons_left_iff]
    refine ⟨?_, ?_⟩
    · rintro ⟨block, rest, hfree, hb, hblock, ⟨⟨hfrees, hnew⟩, hnodup, hbs, hrest⟩, rfl⟩
      exact ⟨⟨hfree, hfrees⟩, ⟨hnew, hnodup⟩, ⟨hb, hbs⟩, block, rest, hblock, hrest, rfl⟩
    · rintro ⟨⟨hfree, hfrees⟩, ⟨hnew, hnodup⟩, ⟨hb, hbs⟩, block, rest, hblock, hrest, rfl⟩
      exact ⟨block, rest, hfree, hb, hblock, ⟨⟨hfrees, hnew⟩, hnodup, hbs, hrest⟩, rfl⟩

/-! ## Connectors and entities -/

/-- Connectors are accepted if their final states can be read. -/
theorem acceptJigsaws_eq_ok {i : Nat} {js : List JigsawDocument} {jigsaws : List Jigsaw} :
    acceptJigsaws i js = .ok jigsaws ↔ List.Forall₂ JigsawDocument.Becomes js jigsaws := by
  induction js generalizing i jigsaws with
  | nil => simp [acceptJigsaws, eq_comm]
  | cons j js ih =>
    rw [acceptJigsaws]
    simp only [Outcome.bind_eq_ok, Outcome.pure_eq_ok, readState, Outcome.mapError_eq_ok, ih,
      List.forall₂_cons_left_iff]
    refine ⟨?_, ?_⟩
    · rintro ⟨finalState, hstate, rest, hrest, rfl⟩
      exact ⟨_, rest, ⟨hstate, rfl⟩, hrest, rfl⟩
    · rintro ⟨jigsaw, rest, hjigsaw, hrest, rfl⟩
      exact ⟨jigsaw.finalState, hjigsaw.finalState, rest, hrest,
        congrArg (· :: rest) hjigsaw.rest.symm⟩

/-- Entities are accepted if they keep the rules. -/
theorem acceptEntities_eq_ok {size : Size} {i : Nat} {es : List EntityDocument}
    {entities : List Entity} :
    acceptEntities size i es = .ok entities ↔
      (∀ e ∈ es, e.Rules) ∧ entities = es.map (EntityDocument.entity size) := by
  induction es generalizing i entities with
  | nil => simp [acceptEntities, eq_comm]
  | cons e es ih =>
    rw [acceptEntities, Outcome.check_bind_eq_ok, requireText_eq_ok, List.forall_mem_cons]
    split
    -- a coordinate that is no number breaks the rule of the entity
    next hinfinite =>
      refine iff_of_false ?_ ?_
      · rintro ⟨-, hthrow⟩
        obtain ⟨_, hthrow, -⟩ := Outcome.bind_eq_ok.1 hthrow
        exact Outcome.throw_eq_ok.1 hthrow
      · rintro ⟨⟨he, -⟩, -⟩
        obtain ⟨c, hc, hcoordinate⟩ := List.any_eq_true.1 hinfinite
        simp [he.point c hc] at hcoordinate
    next hfinite =>
      have hpoint : ∀ c ∈ e.point.toList, c.isFinite = true := by simpa using hfinite
      simp only [Outcome.bind_eq_ok, Outcome.pure_eq_ok, ih, List.map_cons]
      refine ⟨?_, ?_⟩
      · rintro ⟨htemplate, _, ⟨hes, rfl⟩, rfl⟩
        exact ⟨⟨⟨htemplate, hpoint⟩, hes⟩, rfl⟩
      · rintro ⟨⟨he, hes⟩, rfl⟩
        exact ⟨he.template, _, ⟨hes, rfl⟩, rfl⟩

/-! ## Documents -/

/-- A document is accepted as a plan exactly if it keeps the rules and the plan has its items. -/
theorem accept_eq_ok {d : PlanDocument} {p : Plan} : d.accept = .ok p ↔ d.Rules ∧ d.Becomes p := by
  by_cases hsize : d.size.Positive
  · simp only [accept, hsize, not_true_eq_false, if_false, Outcome.bind_eq_ok, Outcome.pure_eq_ok,
      acceptPalettes_eq_ok, acceptBlocks_eq_ok, acceptJigsaws_eq_ok, acceptEntities_eq_ok]
    refine ⟨?_, ?_⟩
    -- the rules come out in the order in which they are checked
    · rintro ⟨⟨⟩, hversion, ⟨⟩, hid, palettes, ⟨hpalettes, hread⟩, blocks,
        ⟨-, hpositions, hrules, hblocks⟩, jigsaws, hjigsaws, _, ⟨hentities, rfl⟩, rfl⟩
      refine ⟨⟨acceptVersion_eq_ok.1 hversion, acceptName_eq_ok.1 hid, hsize, hpalettes, hpositions,
        fun b hb => (rules_iff_of_rel hread).2 (hrules b hb), fun j hj => ?_, hentities⟩,
        ⟨rfl, rfl, rfl, rfl, hblocks, hjigsaws, rfl, hread⟩⟩
      obtain ⟨jigsaw, -, hjigsaw⟩ := Outcome.exists_mem_of_forall₂ hjigsaws.flip hj
      exact ⟨_, hjigsaw.finalState⟩
    · rintro ⟨hrules, hitems⟩
      obtain ⟨id, size, blocks, entities, jigsaws, policy, palettes, tags⟩ := p
      obtain ⟨rfl, rfl, rfl, rfl, hblocks, hjigsaws, rfl, hread⟩ := hitems
      -- at the start no position was seen
      have hempty : ∀ b ∈ d.blocks, b.pos ∉ (∅ : Std.TreeSet Pos) := fun _ _ => by simp
      exact ⟨(), acceptVersion_eq_ok.2 hrules.version, (), acceptName_eq_ok.2 hrules.id, palettes,
        ⟨hrules.palettes, hread⟩, blocks,
        ⟨hempty, hrules.positions, fun b hb => (rules_iff_of_rel hread).1 (hrules.blocks b hb),
          hblocks⟩,
        jigsaws, hjigsaws, _, ⟨hrules.entities, rfl⟩, rfl⟩
  · refine iff_of_false ?_ fun h => hsize h.1.size
    simp only [accept, hsize, not_false_eq_true, if_true, Outcome.bind_eq_ok, Outcome.throw_eq_ok]
    rintro ⟨-, -, -, -, -, ⟨⟩, -⟩

/-- A document that keeps the rules becomes some plan. -/
theorem Rules.exists_becomes {d : PlanDocument} (h : d.Rules) : ∃ p, d.Becomes p := by
  obtain ⟨palettes, hpalettes⟩ : ∃ palettes, d.palettes.Rel MaterialsRead palettes := by
    refine SortedMap.exists_rel fun e he => SortedMap.exists_rel fun material hmaterial => ?_
    exact (h.palettes.materials e.1 e.2 (SortedMap.get?_eq_some_iff.2 he)).state material.1
      material.2 (SortedMap.get?_eq_some_iff.2 hmaterial)
  obtain ⟨blocks, hblocks⟩ : ∃ blocks, List.Forall₂ BlockDocument.Becomes d.blocks blocks := by
    refine Outcome.exists_forall₂_iff.2 fun b hb => ?_
    obtain ⟨state, hstate⟩ := BlockDocument.exists_hasState (h.blocks b hb).state
    exact ⟨⟨b.pos, state, b.template⟩, rfl, hstate, rfl⟩
  obtain ⟨jigsaws, hjigsaws⟩ :
      ∃ jigsaws, List.Forall₂ JigsawDocument.Becomes d.jigsaws jigsaws := by
    refine Outcome.exists_forall₂_iff.2 fun j hj => ?_
    obtain ⟨finalState, hstate⟩ := h.jigsaws j hj
    exact ⟨⟨j.pos, j.orientation, j.name, j.pool, j.targetPool, j.joint, finalState⟩, hstate, rfl⟩
  exact ⟨⟨d.id, d.size, blocks, _, jigsaws, d.jigsawPolicy, palettes, d.tags⟩, rfl, rfl, rfl, rfl,
    hblocks, hjigsaws, rfl, hpalettes⟩

/-- A document is accepted exactly if it keeps the rules. -/
theorem exists_accept_eq_ok {d : PlanDocument} : (∃ p, d.accept = .ok p) ↔ d.Rules := by
  simp only [accept_eq_ok, exists_and_left]
  exact ⟨And.left, fun h => ⟨h, h.exists_becomes⟩⟩

/-- What the rules say about a document is what is made of it. -/
structure Judged (d : PlanDocument) (result : Except PlanError Plan) : Prop where
  /-- a plan is made exactly if the document keeps the rules -/
  accepted : (∃ p, result = .ok p) ↔ d.Rules
  /-- the plan has the items of the document -/
  items : ∀ p, result = .ok p → d.Becomes p
  /-- a refusal is about the contents of the document -/
  refused : ∀ e, result = .error e → ∃ broken, e = .schema broken

/-- A document is accepted as what it becomes, or refused as one that breaks a rule. -/
theorem judged_accept (d : PlanDocument) : d.Judged (d.accept.mapError .schema) where
  accepted := by simp only [Outcome.mapError_eq_ok, exists_accept_eq_ok]
  items p hp := (accept_eq_ok.1 (Outcome.mapError_eq_ok.1 hp)).2
  refused e he := by
    have hschema : Outcome.FailsWith (fun e : PlanError => ∃ broken, e = .schema broken)
        (d.accept.mapError .schema) := .mapError fun broken => ⟨broken, rfl⟩
    exact hschema e he

end PlanDocument

namespace Plan

open PlanDocument

/-- **A document becomes a plan exactly if it keeps the rules.** The plan then has the blocks,
connectors, entities and marks of the document in their order, its palettes with their states read,
and every entity where it was authored. A document that breaks a rule is refused as one that does.
This is so for every document there can be, and for every text that is read as a document. -/
theorem judged (d : PlanDocument) :
    d.Judged (d.accept.mapError .schema) ∧
      ∀ text, PlanDocument.shape.ofText text = .ok d → d.Judged (parse text) := by
  refine ⟨d.judged_accept, fun text htext => ?_⟩
  have hparse : parse text = d.accept.mapError .schema := by
    rw [parse, htext]
    rfl
  rw [hparse]
  exact d.judged_accept

/-- A cabin: a log, a light of a material that no palette gives, a door to a road, and a cat. -/
def cabin (id : String) : PlanDocument where
  schemaVersion := some 1
  id := some id
  size := ⟨2, 1, 1⟩
  blocks := [⟨⟨0, 0, 0⟩, some "mc:log", .empty, none, some "chest"⟩,
    ⟨⟨1, 0, 0⟩, none, .empty, some "light", none⟩]
  jigsaws := [⟨⟨0, 0, 0⟩, "north_up", "door", "roads", "road", "rollable", "mc:air"⟩]
  entities := [⟨⟨⟨0⟩, ⟨0⟩, ⟨0⟩⟩, ⟨0, 0, 0⟩, "cat"⟩]
  jigsawPolicy := .unrestricted
  palettes := .empty
  tags := ["small"]

/-- The cabin with its fields in order and no names for them. -/
def cabinText (id : String) : String :=
  "[1, \"" ++ id ++ "\", [2, 1, 1], [[[0, 0, 0], \"mc:log\", \x7b\x7d, null, \"chest\"], " ++
    "[[1, 0, 0], null, \x7b\x7d, \"light\"]], [[[0, 0, 0], \"north_up\", \"door\", \"roads\", " ++
    "\"road\", \"rollable\", \"mc:air\"]], [[[0, 0, 0], [0, 0, 0], \"cat\"]], \"unrestricted\", " ++
    "\x7b\x7d, [\"small\"]]"

/-- The text of the cabin is read as its document. -/
theorem ofText_cabinText :
    PlanDocument.shape.ofText (cabinText "hut") = .ok (cabin "hut") ∧
      PlanDocument.shape.ofText (cabinText " ") = .ok (cabin " ") :=
  ⟨Outcome.toOption_eq_some.1 (by decide +kernel), Outcome.toOption_eq_some.1 (by decide +kernel)⟩

/-- Its name alone is what the cabin can be refused for. -/
theorem rules_cabin_iff {id : String} : (cabin id).Rules ↔ Text.SaysSomething id := by
  refine ⟨fun h => h.id id rfl, fun hid => ?_⟩
  have hsize : (cabin id).size.Positive := by simp [cabin, Size.Positive]
  have hpositions : ((cabin id).blocks.map BlockDocument.pos).Nodup := by simp [cabin]
  refine ⟨by simp [cabin], fun _ h => Option.some.inj h ▸ hid, hsize, ⟨.inl rfl, nofun⟩,
    hpositions, ?_, ?_, ?_⟩
  · simp only [cabin, List.forall_mem_cons]
    refine ⟨⟨rfl, ?_, nofun, nofun, ?_⟩,
      ⟨rfl, nofun, fun _ _ => rfl, fun _ _ => nofun, nofun⟩, nofun⟩
    · rintro _ ⟨⟩
      decide
    · rintro _ ⟨⟩
      decide
  · simp only [cabin, List.forall_mem_cons]
    exact ⟨⟨_, rfl⟩, nofun⟩
  · simp only [cabin, List.forall_mem_cons]
    exact ⟨⟨by decide, by decide⟩, nofun⟩

/-- A cabin with a name is read with all its items, and one without is refused. -/
theorem judged_cabin :
    (∃ p, parse (cabinText "hut") = .ok p ∧ p.blocks.map Block.pos = [⟨0, 0, 0⟩, ⟨1, 0, 0⟩] ∧
      p.jigsaws.length = 1 ∧ p.tags = ["small"] ∧
      p.entities = [⟨⟨⟨0⟩, ⟨0⟩, ⟨0⟩⟩, .identity ⟨2, 1, 1⟩, ⟨0, 0, 0⟩, "cat"⟩]) ∧
    ∃ broken, parse (cabinText " ") = .error (.schema broken) := by
  have hnamed := (judged (cabin "hut")).2 _ ofText_cabinText.1
  have hblank := (judged (cabin " ")).2 _ ofText_cabinText.2
  refine ⟨?_, ?_⟩
  · obtain ⟨p, hp⟩ := hnamed.accepted.2 (rules_cabin_iff.2 (by decide))
    have hitems := hnamed.items p hp
    exact ⟨p, hp, hitems.positions_eq, hitems.jigsaws.length_eq.symm, hitems.tags, hitems.entities⟩
  · cases hresult : parse (cabinText " ") with
    | ok p =>
      have hrules := rules_cabin_iff.1 (hblank.accepted.1 ⟨p, hresult⟩)
      exact absurd hrules (by decide)
    | error e =>
      obtain ⟨broken, rfl⟩ := hblank.refused e hresult
      exact ⟨broken, rfl⟩

end Plan

end Blueprint
