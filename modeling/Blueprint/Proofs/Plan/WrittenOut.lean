import Blueprint.Batch.Config
import Blueprint.Proofs.Plan.Accept
import Blueprint.Proofs.Plan.Bind

/-!
# Materials are written out

A plan that was read with palettes can be bound to every biome that a run may ask for: each of its
materials means something there. Binding is the first thing that compiling does, so a plan
compiled for a biome comes out as the same plan does with its materials written out by hand,
whatever is then wrong with it (`Plan.materials_bound`).
-/

namespace Blueprint

/-- Only supported biomes can be selected. -/
theorem Biome.mem_supported_of_select {chosen selected : List String}
    (h : select chosen = .ok selected) {biome : String} (hbiome : biome ∈ selected) :
    biome ∈ supported := by
  rw [select] at h
  split at h
  next => cases h
  next =>
    obtain rfl := Except.ok.inj h
    exact (List.mem_filter.1 hbiome).1

namespace Block

variable {states : String → Option BlockState} {b b' : Block}

/-- A block can be written out if its material has a state. -/
theorem exists_writtenOut (h : ∀ key, b.state = .material key → ∃ state, states key = some state) :
    ∃ b', b.WrittenOut states b' := by
  obtain ⟨pos, state | key, template⟩ := b
  · exact ⟨_, .direct⟩
  · obtain ⟨state, hstate⟩ := h key rfl
    exact ⟨_, .material hstate⟩

/-- A block that is written out is of no material. -/
theorem WrittenOut.ne_material (h : b.WrittenOut states b') (key : String) :
    b'.state ≠ .material key := by
  cases h with
  | direct => exact nofun
  | material => exact nofun

/-- With no states to write them out by, only blocks without a material are written out. -/
theorem writtenOut_none_iff :
    b.WrittenOut (fun _ => none) b' ↔ (∀ key, b.state ≠ .material key) ∧ b = b' := by
  refine ⟨?_, ?_⟩
  · intro h
    cases h with
    | direct => exact ⟨nofun, rfl⟩
    | material hstate => cases hstate
  · rintro ⟨hdirect, rfl⟩
    obtain ⟨pos, state | key, template⟩ := b
    · exact .direct
    · exact absurd rfl (hdirect key)

end Block

namespace Plan

/-- A plan beside the plan in which its materials are written out by a palette. -/
structure WrittenOut (palette : BiomePalette) (p q : Plan) : Prop where
  /-- each block has its cell, its template, and its state, or that of its material -/
  blocks : List.Forall₂ (Block.WrittenOut palette.get?) p.blocks q.blocks
  /-- nothing else is different -/
  rest : q = { p with blocks := q.blocks }

/-- Every state of the plan is written out. -/
def WithoutMaterials (p : Plan) : Prop := ∀ b ∈ p.blocks, ∀ key, b.state ≠ .material key

variable {p q : Plan} {palette : BiomePalette}

/-- Nor is any block of a plan that is written out. -/
theorem WrittenOut.withoutMaterials (h : p.WrittenOut palette q) : q.WithoutMaterials := by
  intro b hb
  obtain ⟨i, hi, rfl⟩ := List.getElem_of_mem hb
  have hlt : i < p.blocks.length := h.blocks.length_eq ▸ hi
  exact (h.blocks.get hlt hi).ne_material

/-! ## Binding -/

/-- To bind a plan with a palette is to write it out. -/
theorem bind_some_eq_ok {biome : String} (hpalette : p.palettes.get? biome = some palette) :
    p.bind (some biome) = .ok q ↔ p.WrittenOut palette q := by
  simp only [bind, paletteOf, hpalette, Outcome.bind_eq_ok, Outcome.pure_eq_ok,
    Block.bindAll_eq_ok]
  refine ⟨?_, ?_⟩
  · rintro ⟨_, ⟨⟩, blocks, hblocks, rfl⟩
    exact ⟨hblocks, rfl⟩
  · rintro ⟨hblocks, hrest⟩
    exact ⟨_, rfl, q.blocks, hblocks, hrest.symm⟩

/-- Without a biome there is nothing to write a material out by. -/
theorem bind_none_eq_ok : p.bind none = .ok q ↔ p.WithoutMaterials ∧ q = p := by
  have hblocks (blocks : List Block) : Block.bindAll none none p.blocks = .ok blocks ↔
      p.WithoutMaterials ∧ p.blocks = blocks := by
    have hnone : Block.WrittenOut (fun key => (none : Option BiomePalette).bind (·.get? key)) =
        fun b b' => (∀ key, b.state ≠ .material key) ∧ b = b' :=
      funext₂ fun b b' => propext Block.writtenOut_none_iff
    -- a palette of nothing leaves only the blocks that stay what they are
    rw [Block.bindAll_eq_ok, hnone, List.forall₂_and_left, List.forall₂_eq_eq_eq]
    rfl
  simp only [bind, paletteOf, Outcome.bind_eq_ok, Outcome.pure_eq_ok, Except.ok.injEq,
    exists_eq_left', hblocks]
  refine ⟨?_, ?_⟩
  · rintro ⟨_, ⟨hdirect, rfl⟩, rfl⟩
    exact ⟨hdirect, rfl⟩
  · rintro ⟨hdirect, rfl⟩
    exact ⟨q.blocks, ⟨hdirect, rfl⟩, rfl⟩

/-- A plan that was read is bound to a supported biome by writing its materials out. -/
theorem exists_writtenOut_of_parse {text : String} (h : parse text = .ok p)
    (hpalettes : p.hasPalettes = true) {biome : String} (hbiome : biome ∈ Biome.supported) :
    ∃ palette q, p.palettes.get? biome = some palette ∧ p.WrittenOut palette q := by
  obtain ⟨palette, hpalette⟩ := exists_palette_of_parse h hpalettes hbiome
  have hblocks : ∃ blocks, Block.bindAll (some biome) (some palette) p.blocks = .ok blocks := by
    rw [Block.bindAll_eq_mapM, Outcome.exists_mapM_eq_ok]
    intro b hb
    obtain ⟨b', hb'⟩ := Block.exists_writtenOut fun key hkey =>
      exists_state_of_parse h hpalette hb hkey
    exact ⟨b', Block.bind_eq_ok.2 hb'⟩
  obtain ⟨blocks, hblocks⟩ := hblocks
  exact ⟨palette, { p with blocks := blocks }, hpalette, Block.bindAll_eq_ok.1 hblocks, rfl⟩

/-! ## Compiling -/

/-- What a plan is compiled to is decided by what it is bound to. -/
theorem compile_congr_of_bind {biome biome' : Option String}
    (h : (p.bind biome).mapError PlanError.schema = (q.bind biome').mapError PlanError.schema)
    (ctx : CompileContext) (o : CompileOptions) :
    p.compile biome ctx o = q.compile biome' ctx o := by
  rw [compile, compile, authored, authored, h]

/-- **The materials of an accepted plan can always be bound, and binding is all that is done with
them.** With palettes, and for every biome of a run, each material is written out as the palette
of the biome has it, every cell, template and direct state is kept, and the plan compiles for the
biome exactly as the one that is written out does for none. Without palettes, a plan is bound
exactly if it names no material. -/
theorem materials_bound {text : String} (h : parse text = .ok p) :
    (p.hasPalettes = true → ∀ (c : Batch.Config) (selected : List String),
      c.selectedBiomes = .ok selected → ∀ biome ∈ selected, ∃ palette q,
        p.palettes.get? biome = some palette ∧ p.bind (some biome) = .ok q ∧
        p.WrittenOut palette q ∧ q.WithoutMaterials ∧
        ∀ ctx o, p.compile (some biome) ctx o = q.compile none ctx o) ∧
    (p.hasPalettes = false → ((∃ q, p.bind none = .ok q) ↔ p.WithoutMaterials)) := by
  refine ⟨?_, fun _ => ?_⟩
  · intro hpalettes c selected hselected biome hbiome
    have hsupported : biome ∈ Biome.supported :=
      Biome.mem_supported_of_select (Outcome.mapError_eq_ok.1 hselected) hbiome
    obtain ⟨palette, q, hpalette, hq⟩ := exists_writtenOut_of_parse h hpalettes hsupported
    have hbind : p.bind (some biome) = .ok q := (bind_some_eq_ok hpalette).2 hq
    -- a plan without materials binds to itself, so both sides compile the same plan
    have hdirect : q.bind none = .ok q := bind_none_eq_ok.2 ⟨hq.withoutMaterials, rfl⟩
    refine ⟨palette, q, hpalette, hbind, hq, hq.withoutMaterials, fun ctx o => ?_⟩
    exact compile_congr_of_bind (by rw [hbind, hdirect]) ctx o
  · refine ⟨?_, fun hdirect => ⟨p, bind_none_eq_ok.2 ⟨hdirect, rfl⟩⟩⟩
    rintro ⟨q, hq⟩
    exact (bind_none_eq_ok.1 hq).1

/-- A stone below a block of what walls are made of. -/
def wall (palettes : SortedMap String BiomePalette) : Plan where
  id := none
  size := ⟨1, 2, 1⟩
  blocks := [⟨⟨0, 0, 0⟩, .direct ⟨"stone", .empty⟩, none⟩,
    ⟨⟨0, 1, 0⟩, .material "wall", some "moss"⟩]
  entities := []
  jigsaws := []
  jigsawPolicy := .unrestricted
  palettes
  tags := []

/-- Walls are made of logs in the taiga and of bricks elsewhere. -/
def wallPalettes : SortedMap String BiomePalette :=
  .ofList
    [("plains", .ofList [("wall", ⟨"mc:brick", .empty⟩)]),
      ("desert", .ofList [("wall", ⟨"mc:brick", .empty⟩)]),
      ("savanna", .ofList [("wall", ⟨"mc:brick", .empty⟩)]),
      ("snowy", .ofList [("wall", ⟨"mc:brick", .empty⟩)]),
      ("taiga", .ofList [("wall", ⟨"mc:log", .ofList [("axis", .string "x")]⟩)])]

/-- The wall as a document, with the given palettes. -/
def wallText (palettes : String) : String :=
  "[null,null,[1,2,1],[[[0,0,0],\"stone\"],[[0,1,0],null,\x7b\x7d,\"wall\",\"moss\"]],[],[]," ++
    "\"unrestricted\"," ++ palettes ++ "]"

/-- Those palettes in the document. -/
def wallPalettesText : String :=
  "\x7b\"plains\":\x7b\"wall\":\"mc:brick\"\x7d,\"desert\":\x7b\"wall\":\"mc:brick\"\x7d," ++
    "\"savanna\":\x7b\"wall\":\"mc:brick\"\x7d,\"snowy\":\x7b\"wall\":\"mc:brick\"\x7d," ++
    "\"taiga\":\x7b\"wall\":\"mc:log[axis=x]\"\x7d\x7d"

/-- The text of the wall is read as the wall. -/
theorem parse_wallText : parse (wallText wallPalettesText) = .ok (wall wallPalettes) := by
  have hparsed : (parse (wallText wallPalettesText)).toOption = some (wall wallPalettes) := by
    simp only [parse, PlanDocument.accept, PlanDocument.acceptPalettes, PlanDocument.biomeNames_eq]
    decide +kernel
  exact Outcome.toOption_eq_some.1 hparsed

/-- Without its palettes it is read as the wall without palettes. -/
theorem parse_wallText_empty : parse (wallText "\x7b\x7d") = .ok (wall .empty) :=
  Outcome.toOption_eq_some.1 (by decide +kernel)

/-- A run for the taiga only. -/
def taigaOnly : Batch.Config where
  plans := ⟨"plans"⟩
  templates := ⟨"templates"⟩
  allowlist := ⟨"allowlist.json"⟩
  out := ⟨"out"⟩
  options := default
  biomes := ["taiga"]
  jobs := 1

/-- In the taiga the wall comes out as one that is written with logs, and without palettes it
cannot be bound. -/
theorem materials_bound_wall :
    parse (wallText wallPalettesText) = .ok (wall wallPalettes) ∧
    (∃ q, (wall wallPalettes).bind (some "taiga") = .ok q ∧
      ⟨⟨0, 1, 0⟩, .direct ⟨"mc:log", .ofList [("axis", .string "x")]⟩, some "moss"⟩ ∈ q.blocks ∧
      ∀ ctx o, (wall wallPalettes).compile (some "taiga") ctx o = q.compile none ctx o) ∧
    parse (wallText "\x7b\x7d") = .ok (wall .empty) ∧ ¬ ∃ q, (wall .empty).bind none = .ok q := by
  refine ⟨parse_wallText, ?_, parse_wallText_empty, ?_⟩
  · obtain ⟨palette, q, -, hbind, -, -, hcompile⟩ :=
      (materials_bound parse_wallText).1 rfl taigaOnly ["taiga"] rfl "taiga" (.head _)
    refine ⟨q, hbind, ?_, hcompile⟩
    obtain rfl := Except.ok.inj hbind
    exact .tail _ (.head _)
  · rw [(materials_bound parse_wallText_empty).2 rfl]
    intro hdirect
    exact hdirect _ (.tail _ (.head _)) "wall" rfl

end Plan

end Blueprint
