import Blueprint.Proofs.Plan.Rules

/-!
# What an accepted plan is known to have

A plan that was read is a document that keeps the rules, item by item. So no two of its blocks stand
in one cell. With palettes it has one for every supported biome, in which every material of the plan
means something. Its final states are states that can be read, and its entities are placed as they
were authored.
-/

namespace Blueprint

/-- The biomes that a document may name are these. -/
theorem PlanDocument.biomeNames_eq :
    biomeNames = ["desert", "plains", "savanna", "snowy", "taiga"] := by
  simp [biomeNames, Biome.supported, List.mergeSort, List.MergeSort.Internal.splitInTwo]

namespace Plan

variable {text : String} {p : Plan}

/-- A plan that was read is what a document becomes that keeps the rules. -/
theorem exists_document_of_parse (h : parse text = .ok p) :
    ∃ d : PlanDocument, d.Rules ∧ d.Becomes p := by
  simp only [parse, Outcome.bind_eq_ok, Outcome.mapError_eq_ok] at h
  obtain ⟨d, -, haccept⟩ := h
  exact ⟨d, PlanDocument.accept_eq_ok.1 haccept⟩

/-- **No two blocks of a plan that was read stand in one cell.** -/
theorem nodup_positions_of_parse (h : parse text = .ok p) : (p.blocks.map Block.pos).Nodup := by
  obtain ⟨d, hrules, hitems⟩ := exists_document_of_parse h
  rw [hitems.positions_eq]
  exact hrules.positions

/-- A plan that was read with palettes has one for each supported biome. -/
theorem exists_palette_of_parse (h : parse text = .ok p) (hpalettes : p.hasPalettes = true)
    {biome : String} (hbiome : biome ∈ Biome.supported) :
    ∃ palette, p.palettes.get? biome = some palette := by
  obtain ⟨d, hrules, hitems⟩ := exists_document_of_parse h
  have hsome : d.palettes.isEmpty ≠ true := by
    rw [hasPalettes, ← hitems.palettes.isEmpty_eq] at hpalettes
    simpa using hpalettes
  have hcontains := (hrules.palettes.biomes.resolve_left hsome biome).2 hbiome
  exact Option.isSome_iff_exists.1 (hitems.palettes.contains_iff.1 hcontains)

/-- A material of a plan that was read means something in each of its palettes. -/
theorem exists_state_of_parse (h : parse text = .ok p) {biome : String} {palette : BiomePalette}
    (hpalette : p.palettes.get? biome = some palette) {b : Block} (hb : b ∈ p.blocks)
    {key : String} (hkey : b.state = .material key) : ∃ state, palette.get? key = some state := by
  obtain ⟨d, hrules, hitems⟩ := exists_document_of_parse h
  obtain ⟨written, hwritten, hblock⟩ := Outcome.exists_mem_of_forall₂ hitems.blocks hb
  have hmaterial : written.materialKey = some key := by
    have hstate := hblock.state
    rw [hkey] at hstate
    cases hstate with
    | material _ hmaterial => exact hmaterial
  have hread := (PlanDocument.rules_iff_of_rel hitems.palettes).1 (hrules.blocks written hwritten)
  exact Option.isSome_iff_exists.1 (hread.material key hmaterial biome palette hpalette)

/-- The state that replaces a connector of a plan that was read was itself read from a text. -/
theorem exists_finalState_text_of_parse (h : parse text = .ok p) {j : Jigsaw} (hj : j ∈ p.jigsaws) :
    ∃ state, BlockState.parse state = .ok j.finalState := by
  obtain ⟨d, -, hitems⟩ := exists_document_of_parse h
  obtain ⟨written, -, hjigsaw⟩ := Outcome.exists_mem_of_forall₂ hitems.jigsaws hj
  exact ⟨written.finalState, hjigsaw.finalState⟩

end Plan

end Blueprint
