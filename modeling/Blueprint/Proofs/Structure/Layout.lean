import Blueprint.Proofs.Plan.Check
import Blueprint.Proofs.Structure.Compile
import Mathlib.Data.List.Basic

/-!
# What stands in a cell

A layout is filled by insertions, and a structure numbers its states by a palette. Here both
are compared with a plain account of a cell: `Plan.cellAt?` says from the plan alone what
stands at a position. Whatever is wanted of a compiled structure can then be shown of this
account, with no map and no palette in the way.
-/

namespace Blueprint

open Nbt

/-! ## The account of a cell -/

/-- The palette entry of a state that is written out. -/
def StateRef.entry? : StateRef → Option PaletteEntry
  | direct state => some state.paletteEntry
  | material _ => none

/-- Only a state that is written out has an entry. -/
theorem StateRef.exists_of_entry? {ref : StateRef} {e : PaletteEntry} (h : ref.entry? = some e) :
    ∃ state, ref = direct state ∧ state.paletteEntry = e := by
  cases ref with
  | direct state => exact ⟨state, rfl, Option.some.inj h⟩
  | material key => cases h

/-- The payload of the template that a block names. -/
def Block.payload? (l : TemplateLibrary) (b : Block) : Option Compound :=
  b.template.bind (l.get? .blockEntity)

/-- What stands in a cell after one more block: the block, with its data if it is the first. -/
def Cell.after (l : TemplateLibrary) (there : Option Cell) (b : Block) : Option Cell :=
  b.state.entry?.map fun entry => ⟨entry, if there.isSome then none else b.payload? l⟩

/-- The entry in a cell is that of a block that was put there. -/
theorem Cell.exists_of_foldl_after {l : TemplateLibrary} {bs : List Block} {cell : Cell}
    (h : bs.foldl (Cell.after l) none = some cell) :
    ∃ b ∈ bs, b.state.entry? = some cell.entry := by
  rcases bs.eq_nil_or_concat with rfl | ⟨front, last, rfl⟩
  · cases h
  · rw [List.concat_eq_append, List.foldl_append] at h
    obtain ⟨entry, hentry, rfl⟩ := Option.map_eq_some_iff.1 h
    exact ⟨last, by simp, hentry⟩

/-- The data in a cell is the payload of a block that was put there. -/
theorem Cell.exists_payload_of_foldl_after {l : TemplateLibrary} {bs : List Block} {cell : Cell}
    {data : Compound} (h : bs.foldl (Cell.after l) none = some cell)
    (hdata : cell.data = some data) : ∃ b ∈ bs, b.payload? l = some data := by
  rcases bs.eq_nil_or_concat with rfl | ⟨front, last, rfl⟩
  · cases h
  · rw [List.concat_eq_append, List.foldl_append] at h
    obtain ⟨entry, -, rfl⟩ := Option.map_eq_some_iff.1 h
    dsimp only at hdata
    split at hdata
    next => cases hdata
    next => exact ⟨last, by simp, hdata⟩

/-- Something stands in a cell once a block was put there. -/
theorem Cell.isSome_foldl_after {l : TemplateLibrary} {bs : List Block} (hne : bs ≠ [])
    (hbound : ∀ b ∈ bs, b.state.entry?.isSome) : (bs.foldl (Cell.after l) none).isSome := by
  rcases bs.eq_nil_or_concat with rfl | ⟨front, last, rfl⟩
  · exact absurd rfl hne
  · rw [List.concat_eq_append, List.foldl_append, List.foldl_cons, List.foldl_nil, Cell.after,
      Option.isSome_map]
    exact hbound last (by simp)

namespace Plan

/-- The blocks in a cell. -/
def blocksAt (p : Plan) (q : Pos) : List Block := p.blocks.filter fun b => b.pos = q

/-- What the blocks of a plan come to in a cell. -/
def blockCell? (l : TemplateLibrary) (p : Plan) (q : Pos) : Option Cell :=
  (p.blocksAt q).foldl (Cell.after l) none

/-- The connector in a cell. -/
def jigsawAt? (p : Plan) (q : Pos) : Option Jigsaw := p.jigsaws.find? fun j => j.pos = q

/-- What stands in a cell: the connector, with its data and that of the block it replaces, or
else what the blocks come to. -/
def cellAt? (l : TemplateLibrary) (p : Plan) (q : Pos) : Option Cell :=
  match p.jigsawAt? q with
  | some j => some ⟨j.blockState.paletteEntry,
      (j.data 0).toOption.map fun c => Layout.connectorData c (p.blockCell? l q)⟩
  | none => p.blockCell? l q

/-- No connector is found in a cell where none is. -/
theorem jigsawAt?_eq_none {p : Plan} {q : Pos} :
    p.jigsawAt? q = none ↔ ∀ j ∈ p.jigsaws, j.pos ≠ q := by
  simp only [jigsawAt?, List.find?_eq_none, decide_eq_true_eq, ne_eq]

/-- The connector that is found is one of the plan, in the cell. -/
theorem mem_of_jigsawAt? {p : Plan} {q : Pos} {j : Jigsaw} (h : p.jigsawAt? q = some j) :
    j ∈ p.jigsaws ∧ j.pos = q := by
  have hpos := List.find?_some h
  exact ⟨List.mem_of_find?_eq_some h, of_decide_eq_true hpos⟩

/-- The blocks in a cell are blocks of the plan. -/
theorem mem_of_mem_blocksAt {p : Plan} {q : Pos} {b : Block} (h : b ∈ p.blocksAt q) :
    b ∈ p.blocks ∧ b.pos = q := by
  obtain ⟨hmem, hpos⟩ := List.mem_filter.1 h
  exact ⟨hmem, of_decide_eq_true hpos⟩

/-- The data in a cell, apart from that of a connector, is the payload of a block there. -/
theorem exists_block_of_blockCell? {l : TemplateLibrary} {p : Plan} {q : Pos}
    {template : Compound} (h : (p.blockCell? l q).bind Cell.data = some template) :
    ∃ b ∈ p.blocks, b.pos = q ∧ b.payload? l = some template := by
  obtain ⟨cell, hcell, hdata⟩ := Option.bind_eq_some_iff.1 h
  obtain ⟨b, hb, hpayload⟩ := Cell.exists_payload_of_foldl_after hcell hdata
  obtain ⟨hmem, hpos⟩ := mem_of_mem_blocksAt hb
  exact ⟨b, hmem, hpos, hpayload⟩

/-- Where a connector is, the cell has its state, and its data over that of the blocks. -/
theorem cellAt?_of_jigsaw {l : TemplateLibrary} {p : Plan} {q : Pos} {j : Jigsaw} {c : Compound}
    (hj : p.jigsawAt? q = some j) (hc : j.data 0 = .ok c) :
    p.cellAt? l q =
      some ⟨j.blockState.paletteEntry, some (Layout.connectorData c (p.blockCell? l q))⟩ := by
  simp only [cellAt?, hj, hc]
  rfl

/-- Where no connector is, the cell has what the blocks leave in it. -/
theorem cellAt?_of_no_jigsaw {l : TemplateLibrary} {p : Plan} {q : Pos}
    (hq : p.jigsawAt? q = none) : p.cellAt? l q = p.blockCell? l q := by
  simp only [cellAt?, hq]

end Plan

/-! ## Layouts -/

/-- A block is bound if its state is written out. -/
theorem Plan.boundState_eq_ok {b : Block} {state : BlockState} :
    boundState b = .ok state ↔ b.state = .direct state := by
  rw [boundState]
  rcases b.state with s | key <;> simp

/-- The payload of a block is the data that it brings. -/
theorem Block.payload?_of_data_eq_ok {l : TemplateLibrary} {b : Block} {data : Option Compound}
    (h : b.data l = .ok data) : b.payload? l = data := by
  rw [payload?]
  rcases data_eq_ok.1 h with ⟨hnone, rfl⟩ | ⟨name, payload, hname, hpayload, rfl⟩
  · rw [hnone]
    rfl
  · rw [hname]
    exact hpayload

namespace Layout

/-- A cell is filled if something is found in it. -/
theorem contains_eq_isSome (layout : Layout) (q : Pos) :
    layout.contains q = layout[q]?.isSome := Std.TreeMap.contains_eq_isSome_getElem?

/-- Blocks that were put in have gone to their cells, one after another. -/
theorem getElem?_addBlocks {l : TemplateLibrary} {layout result : Layout} {bs : List Block}
    (h : addBlocks l layout bs = .ok result) (q : Pos) :
    result[q]? = (bs.filter fun b => b.pos = q).foldl (Cell.after l) layout[q]? := by
  -- the fold over the remaining blocks starts from what the layout has in the cell by then
  induction bs generalizing layout with
  | nil =>
    obtain rfl := Except.ok.inj h
    rfl
  | cons b bs ih =>
    obtain ⟨state, data, hstate, hdata, hrest⟩ := addBlocks_cons_eq_ok.1 h
    have hentry : b.state.entry? = some state.paletteEntry := by
      rw [Plan.boundState_eq_ok.1 hstate]
      rfl
    rw [ih hrest, getElem?_insert]
    by_cases hq : b.pos = q
    · rw [if_pos hq, List.filter_cons_of_pos (by simpa using hq), List.foldl_cons, Cell.after,
        hentry, Block.payload?_of_data_eq_ok hdata, contains_eq_isSome, hq]
      rfl
    · rw [if_neg hq, List.filter_cons_of_neg (by simpa using hq)]

/-- Connectors in cells of their own stand there over what stood there before. -/
theorem getElem?_addJigsaws {connectors : SortedMap Pos Compound} {layout : Layout}
    {js : List Jigsaw} (hnodup : (js.map Jigsaw.pos).Nodup) (q : Pos) :
    (js.foldl (addJigsaw connectors) layout)[q]? =
      match js.find? fun j => j.pos = q with
      | some j => some ⟨j.blockState.paletteEntry,
          (connectors.get? j.pos).map fun c => connectorData c layout[q]?⟩
      | none => layout[q]? := by
  induction js generalizing layout with
  | nil => rfl
  | cons j js ih =>
    rw [List.map_cons, List.nodup_cons] at hnodup
    rw [List.foldl_cons, ih hnodup.2, addJigsaw, getElem?_insert]
    by_cases hq : j.pos = q
    -- no other connector is in this cell, so the later ones leave it as it is
    · have hrest : js.find? (fun j => j.pos = q) = none := by
        rw [List.find?_eq_none]
        intro j' hj' hpos
        exact hnodup.1 (List.mem_map.2 ⟨j', hj', (of_decide_eq_true hpos).trans hq.symm⟩)
      rw [hrest, List.find?_cons_of_pos (by simpa using hq), if_pos hq]
      dsimp only
      rw [hq]
    · rw [List.find?_cons_of_neg (by simpa using hq), if_neg hq]

end Layout

/-! ## Structures -/

namespace Structure

/-- The cell stands at a position of the structure: a block there has its data, and the palette
has its entry at the place that the block names. -/
def Holds (s : Structure) (q : Pos) (cell : Cell) : Prop :=
  ∃ b ∈ s.blocks, b.pos = q ∧ s.palette[b.paletteIndex]? = some cell.entry ∧ b.data = cell.data

end Structure

namespace Layout

variable {size : Size} {entities : List PlacedEntity} {layout : Layout}

/-- Every block of the structure stands for a cell of the layout. -/
theorem exists_cell_of_mem_assemble {b : PlacedBlock}
    (h : b ∈ (layout.assemble size entities).blocks) :
    ∃ cell, layout[b.pos]? = some cell ∧
      (layout.assemble size entities).palette[b.paletteIndex]? = some cell.entry ∧
      b.data = cell.data := by
  obtain ⟨⟨q, cell⟩, hmem, rfl⟩ := List.mem_map.1 h
  refine ⟨cell, mem_toList.1 hmem, List.getElem?_idxOf ?_, rfl⟩
  exact List.mem_eraseDups.2 (List.mem_map.2 ⟨(q, cell), hmem, rfl⟩)

/-- The structure of a layout holds its cells and no others. -/
theorem holds_assemble {q : Pos} {cell : Cell} :
    (layout.assemble size entities).Holds q cell ↔ layout[q]? = some cell := by
  refine ⟨fun ⟨b, hb, hpos, hentry, hdata⟩ => ?_, fun h => ?_⟩
  · obtain ⟨found, hfound, hentry', hdata'⟩ := exists_cell_of_mem_assemble hb
    rw [← hpos, hfound]
    have hentries := Option.some.inj (hentry'.symm.trans hentry)
    have hdatas := hdata'.symm.trans hdata
    cases found
    cases cell
    exact congrArg some (by simp_all)
  · have hmem := mem_toList.2 h
    refine ⟨⟨q, _, cell.data⟩, List.mem_map.2 ⟨(q, cell), hmem, rfl⟩, rfl, ?_, rfl⟩
    exact List.getElem?_idxOf (List.mem_eraseDups.2 (List.mem_map.2 ⟨(q, cell), hmem, rfl⟩))

/-- Every entry of the palette stands somewhere. -/
theorem exists_holds_of_mem_palette {e : PaletteEntry}
    (h : e ∈ (layout.assemble size entities).palette) :
    ∃ (q : Pos) (cell : Cell), layout[q]? = some cell ∧ cell.entry = e := by
  obtain ⟨⟨q, cell⟩, hmem, rfl⟩ := List.mem_map.1 (List.mem_eraseDups.1 h)
  exact ⟨q, cell, mem_toList.1 hmem, rfl⟩

end Layout

/-! ## Compiled plans -/

namespace Plan

variable {ctx : CompileContext} {o : CompileOptions} {p : Plan} {s : Structure}

/-- The layout of a plan has in each cell what the account of the cell says. -/
theorem getElem?_layout {l : TemplateLibrary} {blocks : Layout}
    {connectors : SortedMap Pos Compound} (hblocks : Layout.addBlocks l ∅ p.blocks = .ok blocks)
    (hconnectors : p.checkJigsaws = .ok connectors) (q : Pos) :
    (p.jigsaws.foldl (Layout.addJigsaw connectors) blocks)[q]? = p.cellAt? l q := by
  have hcell : blocks[q]? = p.blockCell? l q := by
    rw [Layout.getElem?_addBlocks hblocks, Std.TreeMap.getElem?_emptyc]
    rfl
  obtain ⟨hnodup, hdata, -⟩ := connectedBy_of_checkJigsaws hconnectors
  rw [Layout.getElem?_addJigsaws hnodup, hcell, cellAt?, jigsawAt?]
  cases hj : p.jigsaws.find? fun j => j.pos = q with
  | none => rfl
  | some j =>
    obtain ⟨c, hc, hget⟩ := hdata j (List.mem_of_find?_eq_some hj)
    dsimp only
    rw [hget, hc]
    rfl

/-- **What a structure holds** is what the plan puts into its cells. -/
theorem holds_of_assembled (h : p.assembled ctx o = .ok s) {q : Pos} {cell : Cell} :
    s.Holds q cell ↔ p.cellAt? ctx.templates q = some cell := by
  obtain ⟨blocks, entities, connectors, hblocks, -, hconnectors, rfl⟩ := assembled_eq_ok.1 h
  rw [Layout.holds_assemble, getElem?_layout hblocks hconnectors]

/-- Every block of the structure is held at its position. -/
theorem exists_cell_of_mem_blocks (h : p.assembled ctx o = .ok s) {b : PlacedBlock}
    (hb : b ∈ s.blocks) :
    ∃ cell, p.cellAt? ctx.templates b.pos = some cell ∧
      s.palette[b.paletteIndex]? = some cell.entry ∧ b.data = cell.data := by
  obtain ⟨blocks, entities, connectors, hblocks, -, hconnectors, rfl⟩ := assembled_eq_ok.1 h
  rw [← getElem?_layout hblocks hconnectors]
  exact Layout.exists_cell_of_mem_assemble hb

/-- Every entry of the palette is used somewhere. -/
theorem exists_cell_of_mem_palette (h : p.assembled ctx o = .ok s) {e : PaletteEntry}
    (he : e ∈ s.palette) : ∃ q cell, p.cellAt? ctx.templates q = some cell ∧ cell.entry = e := by
  obtain ⟨blocks, entities, connectors, hblocks, -, hconnectors, rfl⟩ := assembled_eq_ok.1 h
  obtain ⟨q, cell, hcell, rfl⟩ := Layout.exists_holds_of_mem_palette he
  exact ⟨q, cell, (getElem?_layout hblocks hconnectors q).symm.trans hcell, rfl⟩

/-- The plan puts the entry into a cell: it is that of a connector there, or else of a block
there. -/
def Puts (p : Plan) (q : Pos) (e : PaletteEntry) : Prop :=
  (∃ j ∈ p.jigsaws, j.pos = q ∧ e = j.blockState.paletteEntry) ∨
    (∀ j ∈ p.jigsaws, j.pos ≠ q) ∧ ∃ b ∈ p.blocks, b.pos = q ∧ b.state.entry? = some e

/-- Nothing stands in a cell but what the plan puts there. -/
theorem puts_of_cellAt? {l : TemplateLibrary} {q : Pos} {cell : Cell}
    (h : p.cellAt? l q = some cell) : p.Puts q cell.entry := by
  rw [cellAt?] at h
  split at h
  case h_1 j hj =>
    obtain rfl := Option.some.inj h
    obtain ⟨hmem, hpos⟩ := mem_of_jigsawAt? hj
    exact .inl ⟨j, hmem, hpos, rfl⟩
  case h_2 hnone =>
    obtain ⟨b, hb, hentry⟩ := Cell.exists_of_foldl_after h
    obtain ⟨hmem, hpos⟩ := mem_of_mem_blocksAt hb
    exact .inr ⟨jigsawAt?_eq_none.1 hnone, b, hmem, hpos, hentry⟩

/-- Something stands in every cell that the plan puts an entry into. -/
theorem exists_cellAt?_of_puts {l : TemplateLibrary} {q : Pos} {e : PaletteEntry}
    (hbound : ∀ b ∈ p.blocks, b.state.entry?.isSome) (h : p.Puts q e) :
    ∃ cell, p.cellAt? l q = some cell := by
  rw [cellAt?]
  split
  case h_1 j hj => exact ⟨_, rfl⟩
  case h_2 hnone =>
    obtain ⟨j, hj, hpos, -⟩ | ⟨-, b, hb, hpos, -⟩ := h
    · exact absurd hpos (jigsawAt?_eq_none.1 hnone j hj)
    · have hmem : b ∈ p.blocksAt q := List.mem_filter.2 ⟨hb, decide_eq_true hpos⟩
      refine Option.isSome_iff_exists.1 (Cell.isSome_foldl_after (List.ne_nil_of_mem hmem) ?_)
      exact fun b' hb' => hbound b' (mem_of_mem_blocksAt hb').1

end Plan

end Blueprint
