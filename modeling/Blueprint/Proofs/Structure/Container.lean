import Blueprint.Proofs.Nbt.Document
import Blueprint.Proofs.Structure.Layout

/-!
# Containers that are read back

A container is sound whenever the payloads spliced into it are: everything around them has
fixed keys and typed lists. But a payload stands three levels deeper in the container than
in its own file, behind the root, a list and an entry of that list. So a template that its
own reader accepts may still be too deep for the reader of the container, and this is the
only thing that can go wrong.
-/

namespace Blueprint

open Nbt

/-! ## Parts of a container -/

/-- Numbers have no keys. -/
theorem keysDistinct_wordsTag (words : List Int32) : (wordsTag words).KeysDistinct := by
  refine Tag.keysDistinct_list.2 fun u hu => ?_
  obtain ⟨v, -, rfl⟩ := List.mem_map.1 hu
  exact Tag.keysDistinct_leaf rfl

/-- Numbers need two levels. -/
theorem fits_wordsTag (words : List Int32) (levels : Nat) :
    (wordsTag words).Fits (levels + 2) := by
  refine Tag.fits_list.2 ⟨fun h => absurd h (by decide), fun u hu => ?_⟩
  obtain ⟨v, -, rfl⟩ := List.mem_map.1 hu
  exact Tag.fits_leaf rfl

namespace PaletteEntry

/-- No key of an entry is there twice. -/
theorem keysDistinct_tag (e : PaletteEntry) : e.tag.KeysDistinct := by
  have hproperties : (Tag.compound
      (e.properties.entries.map fun a => (a.1, Tag.string a.2))).KeysDistinct := by
    refine Tag.keysDistinct_compound.2 ⟨?_, fun a ha => ?_⟩
    · rw [Compound.keys, List.map_map]
      exact e.properties.nodup_keys
    · obtain ⟨_, -, rfl⟩ := List.mem_map.1 ha
      exact Tag.keysDistinct_leaf rfl
  rw [tag]
  refine Tag.keysDistinct_compound.2 ⟨?_, List.forall_mem_cons.2 ⟨Tag.keysDistinct_leaf rfl, ?_⟩⟩
  · split <;> simp [Compound.keys]
  · split
    · exact fun a ha => absurd ha List.not_mem_nil
    · exact List.forall_mem_singleton.2 hproperties

/-- An entry needs three levels. -/
theorem fits_tag (e : PaletteEntry) (levels : Nat) : e.tag.Fits (levels + 3) := by
  have hproperties : (Tag.compound
      (e.properties.entries.map fun a => (a.1, Tag.string a.2))).Fits
        (levels + 2) := by
    refine Tag.fits_compound.2 fun a ha => ?_
    obtain ⟨_, -, rfl⟩ := List.mem_map.1 ha
    exact Tag.fits_leaf rfl
  rw [tag]
  refine Tag.fits_compound.2 (List.forall_mem_cons.2 ⟨Tag.fits_leaf rfl, ?_⟩)
  split
  · exact fun a ha => absurd ha List.not_mem_nil
  · exact List.forall_mem_singleton.2 hproperties

end PaletteEntry

namespace PlacedBlock

variable {b : PlacedBlock} {t : Tag}

/-- A block is written if its number fits, with its data behind its state and its position. -/
theorem tag_eq_ok :
    b.tag = .ok t ↔ b.paletteIndex < 0x80000000 ∧
      t = .compound (("state", .int (Int32.ofNat b.paletteIndex)) :: ("pos", b.pos.tag) ::
        (b.data.map fun data => ("nbt", Tag.compound data)).toList) := by
  by_cases h : b.paletteIndex < 0x80000000
  · rw [tag, if_pos h, Except.ok.injEq, eq_comm]
    exact (and_iff_right h).symm
  · rw [tag, if_neg h]
    simp [h]

/-- No key of a block is there twice if none of its data is. -/
theorem keysDistinct_tag (h : b.tag = .ok t) (hdata : ∀ c ∈ b.data, (Tag.compound c).KeysDistinct) :
    t.KeysDistinct := by
  obtain ⟨-, rfl⟩ := tag_eq_ok.1 h
  rw [Tag.keysDistinct_compound, List.forall_mem_cons, List.forall_mem_cons]
  cases hd : b.data with
  | none =>
    exact ⟨by simp [Compound.keys], Tag.keysDistinct_leaf rfl, keysDistinct_wordsTag _,
      fun e he => absurd he List.not_mem_nil⟩
  | some c =>
    exact ⟨by simp [Compound.keys], Tag.keysDistinct_leaf rfl, keysDistinct_wordsTag _,
      List.forall_mem_singleton.2 (hdata c hd)⟩

/-- A block fits if its data fits a level lower. -/
theorem fits_tag (h : b.tag = .ok t) {levels : Nat} :
    t.Fits (levels + 3) ↔ ∀ c ∈ b.data, (Tag.compound c).Fits (levels + 2) := by
  obtain ⟨-, rfl⟩ := tag_eq_ok.1 h
  rw [Tag.fits_compound, List.forall_mem_cons, List.forall_mem_cons,
    and_iff_right (Tag.fits_leaf rfl),
    and_iff_right (show b.pos.tag.Fits (levels + 2) from fits_wordsTag _ levels)]
  cases b.data <;> simp

end PlacedBlock

/-- Blocks are written one after another. -/
theorem blockTags_eq_mapM (bs : List PlacedBlock) : blockTags bs = bs.mapM PlacedBlock.tag := by
  induction bs with
  | nil => rfl
  | cons b bs ih => rw [blockTags, ih, List.mapM_cons]

/-- They are written if each of them is. -/
theorem blockTags_eq_ok {bs : List PlacedBlock} {ts : List Tag} :
    blockTags bs = .ok ts ↔ List.Forall₂ (fun b t => b.tag = .ok t) bs ts := by
  rw [blockTags_eq_mapM, Outcome.mapM_eq_ok]

/-- So all of them can be written if each of them can. -/
theorem exists_blockTags_eq_ok {bs : List PlacedBlock} :
    (∃ ts, blockTags bs = .ok ts) ↔ ∀ b ∈ bs, ∃ t, b.tag = .ok t := by
  rw [blockTags_eq_mapM, Outcome.exists_mapM_eq_ok]

/-- What holds of all tags of blocks holds of the tag of every block. -/
theorem forall_mem_blockTags {P : Tag → Prop} {bs : List PlacedBlock} {ts : List Tag}
    (h : blockTags bs = .ok ts) :
    (∀ t ∈ ts, P t) ↔ ∀ b ∈ bs, ∀ t, b.tag = .ok t → P t := by
  rw [blockTags_eq_ok] at h
  induction h with
  | nil => simp
  | cons hb _ ih =>
    rw [List.forall_mem_cons, List.forall_mem_cons, ih, hb]
    simp only [Except.ok.injEq, forall_eq']

namespace PlacedEntity

/-- No key of an entity is there twice if none of its data is. -/
theorem keysDistinct_tag {e : PlacedEntity} (hdata : (Tag.compound e.data).KeysDistinct) :
    e.tag.KeysDistinct := by
  have hpoint : (Tag.list 6 (e.point.toList.map Tag.double)).KeysDistinct := by
    refine Tag.keysDistinct_list.2 fun u hu => ?_
    obtain ⟨v, -, rfl⟩ := List.mem_map.1 hu
    exact Tag.keysDistinct_leaf rfl
  rw [tag, Tag.keysDistinct_compound]
  simp [Compound.keys, hpoint, hdata, Pos.tag, keysDistinct_wordsTag]

/-- An entity fits if its data fits a level lower. -/
theorem fits_tag (e : PlacedEntity) {levels : Nat} :
    e.tag.Fits (levels + 3) ↔ (Tag.compound e.data).Fits (levels + 2) := by
  have hpoint : (Tag.list 6 (e.point.toList.map Tag.double)).Fits (levels + 2) := by
    refine Tag.fits_list.2 ⟨fun h => absurd h (by decide), fun u hu => ?_⟩
    obtain ⟨v, -, rfl⟩ := List.mem_map.1 hu
    exact Tag.fits_leaf rfl
  rw [tag, Tag.fits_compound]
  simp [hpoint, Pos.tag, fits_wordsTag]

end PlacedEntity

/-! ## Containers -/

namespace Structure

/-- The payloads that are spliced into the container. -/
def payloads (s : Structure) : List Compound :=
  s.blocks.filterMap PlacedBlock.data ++ s.entities.map PlacedEntity.data

variable {s : Structure} {d : Document}

/-- A structure is written with its five entries in order. -/
theorem document_eq_ok :
    s.document = .ok d ↔ ∃ blocks, blockTags s.blocks = .ok blocks ∧
      d = ⟨"", .compound
        [("DataVersion", .int s.dataVersion), ("size", wordsTag [s.size.w, s.size.h, s.size.l]),
          ("palette", .list 10 (s.palette.map PaletteEntry.tag)), ("blocks", .list 10 blocks),
          ("entities", .list 10 (s.entities.map PlacedEntity.tag))]⟩ := by
  simp only [document, Outcome.bind_eq_ok, Outcome.pure_eq_ok, @eq_comm _ d]

/-- The root has no name. -/
theorem name_of_document (h : s.document = .ok d) : d.name = "" := by
  obtain ⟨blocks, -, rfl⟩ := document_eq_ok.1 h
  rfl

/-- The payloads of a structure are the data of its blocks and of its entities. -/
theorem forall_mem_payloads {P : Compound → Prop} :
    (∀ c ∈ s.payloads, P c) ↔
      (∀ b ∈ s.blocks, ∀ c ∈ b.data, P c) ∧ ∀ e ∈ s.entities, P e.data := by
  simp only [payloads, List.forall_mem_append, List.forall_mem_map, List.mem_filterMap]
  refine and_congr_left fun _ => ⟨fun h b hb c hc => h c ⟨b, hb, hc⟩, ?_⟩
  rintro h c ⟨b, hb, hc⟩
  exact h b hb c hc

/-- No key stands twice in a container if none does in a payload. -/
theorem keysDistinct_document (h : s.document = .ok d)
    (hpayloads : ∀ c ∈ s.payloads, (Tag.compound c).KeysDistinct) : d.root.KeysDistinct := by
  obtain ⟨blocks, hblocks, rfl⟩ := document_eq_ok.1 h
  obtain ⟨hdata, hentities⟩ := forall_mem_payloads.1 hpayloads
  have hpalette : (Tag.list 10 (s.palette.map PaletteEntry.tag)).KeysDistinct :=
    Tag.keysDistinct_list.2 (List.forall_mem_map.2 fun e _ => e.keysDistinct_tag)
  have hblocks : (Tag.list 10 blocks).KeysDistinct :=
    Tag.keysDistinct_list.2 ((forall_mem_blockTags hblocks).2 fun b hb t ht =>
      PlacedBlock.keysDistinct_tag ht (hdata b hb))
  have hentities : (Tag.list 10 (s.entities.map PlacedEntity.tag)).KeysDistinct :=
    Tag.keysDistinct_list.2 (List.forall_mem_map.2 fun e he =>
      PlacedEntity.keysDistinct_tag (hentities e he))
  have hversion : (Tag.int s.dataVersion).KeysDistinct := Tag.keysDistinct_leaf rfl
  rw [Tag.keysDistinct_compound]
  simp [Compound.keys, hversion, hpalette, hblocks, hentities, keysDistinct_wordsTag]

/-- A container fits if every payload fits three levels further down. -/
theorem fits_document (h : s.document = .ok d) {levels : Nat} :
    d.root.Fits (levels + 5) ↔ ∀ c ∈ s.payloads, (Tag.compound c).Fits (levels + 2) := by
  obtain ⟨blocks, hblocks, rfl⟩ := document_eq_ok.1 h
  have hten : (10 : UInt8) ≠ 0 := by decide
  have hversion : (Tag.int s.dataVersion).Fits (levels + 4) := Tag.fits_leaf rfl
  have hsize : (wordsTag [s.size.w, s.size.h, s.size.l]).Fits (levels + 4) := fits_wordsTag _ _
  have hpalette : (Tag.list 10 (s.palette.map PaletteEntry.tag)).Fits (levels + 4) :=
    Tag.fits_list.2 ⟨fun h => absurd h hten, List.forall_mem_map.2 fun e _ => e.fits_tag levels⟩
  have hblocks : (Tag.list 10 blocks).Fits (levels + 4) ↔
      ∀ b ∈ s.blocks, ∀ c ∈ b.data, (Tag.compound c).Fits (levels + 2) := by
    rw [Tag.fits_list, and_iff_right fun h => absurd h hten, forall_mem_blockTags hblocks]
    refine ⟨?_, ?_⟩
    · intro hall b hb
      obtain ⟨t, ht⟩ := exists_blockTags_eq_ok.1 ⟨blocks, hblocks⟩ b hb
      exact (PlacedBlock.fits_tag ht).1 (hall b hb t ht)
    · intro hall b hb t ht
      exact (PlacedBlock.fits_tag ht).2 (hall b hb)
  have hentities : (Tag.list 10 (s.entities.map PlacedEntity.tag)).Fits (levels + 4) ↔
      ∀ e ∈ s.entities, (Tag.compound e.data).Fits (levels + 2) := by
    rw [Tag.fits_list, and_iff_right fun h => absurd h hten, List.forall_mem_map]
    exact forall₂_congr fun e _ => e.fits_tag
  -- the other entries fit in any case, so only the payloads decide
  rw [Tag.fits_compound, forall_mem_payloads, ← hblocks, ← hentities]
  simp [hversion, hsize, hpalette]

/-- A container that is written is read back if its payloads fit three levels further down,
and breaks a rule of the reader if one of them does not. -/
theorem ofBytes_encode {bytes : List UInt8} (hbytes : s.encode = .ok bytes)
    (hsound : ∀ c ∈ s.payloads, (Tag.compound c).Sound) :
    ∃ d, s.document = .ok d ∧
      ((∀ c ∈ s.payloads, (Tag.compound c).Within (maxDepth - 3)) →
        Document.ofBytes bytes = .ok d) ∧
      ((∃ c ∈ s.payloads, ¬ (Tag.compound c).Within (maxDepth - 3)) →
        ∃ e, Document.ofBytes bytes = .error e ∧ e.kind = .invalidData) := by
  obtain ⟨raw, hraw, rfl⟩ := Outcome.map_eq_ok.1 hbytes
  obtain ⟨d, hd, hencode⟩ := Outcome.bind_eq_ok.1 hraw
  obtain ⟨hok, herror⟩ := Document.ofBytes_encode
    (keysDistinct_document hd fun c hc => (hsound c hc).1) (fun _ => name_of_document hd)
    (Outcome.mapError_eq_ok.1 hencode)
  -- of the levels for the root and below, three are spent before a payload begins
  have hfits : d.root.Fits (maxDepth + 1) ↔
      ∀ c ∈ s.payloads, (Tag.compound c).Within (maxDepth - 3) := by
    refine (fits_document hd).trans (forall₂_congr fun c hc => ?_)
    exact Tag.fits_succ_iff.trans (and_iff_left (hsound c hc).2)
  rw [hfits] at hok herror
  exact ⟨d, hd, hok, fun ⟨c, hc, hdeep⟩ => herror fun h => hdeep (h c hc)⟩

/-- A structure whose document can be written has a container. -/
theorem exists_encode (hd : s.document = .ok d) (hroot : Encode.Writable d.root) :
    ∃ bytes, s.encode = .ok bytes := by
  obtain ⟨body, hbody⟩ := hroot
  have hencode : d.encode = .ok (d.root.typeId :: ([0, 0] ++ body)) := by
    obtain ⟨blocks, -, hroot⟩ := document_eq_ok.1 hd
    rw [Document.encode, name_of_document hd]
    refine (Tag.encode_eq_ok ?_).2 ⟨[0, 0], body, rfl, hbody, rfl⟩
    rw [hroot]
    exact fun h => nomatch h
  exact ⟨_, Outcome.map_eq_ok.2 ⟨_, Outcome.bind_eq_ok.2 ⟨d, hd,
    Outcome.mapError_eq_ok.2 hencode⟩, rfl⟩⟩

end Structure

/-! ## Where payloads come from -/

/-- Every payload of the library was read from a template file. -/
def TemplateLibrary.Accepted (l : TemplateLibrary) : Prop :=
  ∀ kind name c, l.get? kind name = some c → ∃ file, Template.payload file = .ok c

/-- Accepted templates are sound. -/
theorem TemplateLibrary.Accepted.sound {l : TemplateLibrary} (h : l.Accepted)
    {kind : TemplateKind} {name : String} {c : Compound} (hc : l.get? kind name = some c) :
    (Tag.compound c).Sound := by
  obtain ⟨file, hfile⟩ := h kind name c hc
  exact Template.sound_payload hfile

/-- The data of a connector can be written without loss. -/
theorem Jigsaw.sound_data {i : Nat} {j : Jigsaw} {c : Compound} (h : j.data i = .ok c) :
    (Tag.compound c).Sound := by
  obtain ⟨name, pool, target, -, -, -, -, -, rfl⟩ := data_eq_ok.1 h
  have htext (text : String) : (Tag.string text).Sound := Tag.sound_leaf rfl
  exact Tag.sound_compound.2 ⟨by simp [Compound.keys], by simp [htext]⟩

/-- Laying a template over the data of a connector keeps both sound. -/
theorem Nbt.Compound.sound_insertAll {c extra : Compound} (hc : (Tag.compound c).Sound)
    (hextra : (Tag.compound extra).Sound) : (Tag.compound (insertAll c extra)).Sound := by
  obtain ⟨hnodup, hvalues⟩ := Tag.sound_compound.1 hc
  exact Tag.sound_compound.2 ⟨nodup_keys_insertAll hnodup extra,
    forall_insertAll hvalues (Tag.sound_compound.1 hextra).2⟩

/-- What is spliced into a structure is a template, the data of a connector, or a template laid
over such data. So what holds of templates and connectors and is kept by laying one over the
other holds of all of it. -/
structure SplicedWith (l : TemplateLibrary) (P : Compound → Prop) : Prop where
  /-- it holds of every template -/
  template : ∀ kind name c, l.get? kind name = some c → P c
  /-- it holds of the data of every connector -/
  connector : ∀ (j : Jigsaw) c, j.data 0 = .ok c → P c
  /-- it is kept where the two meet -/
  insertAll : ∀ c template, P c → P template → P (Compound.insertAll c template)

namespace Plan

variable {ctx : CompileContext} {o : CompileOptions} {p : Plan} {s : Structure}

/-- What holds of the data that is spliced together holds of the data in each cell. -/
theorem forall_data_of_cellAt? {l : TemplateLibrary} {P : Compound → Prop}
    (hP : SplicedWith l P) {q : Pos} {cell : Cell} (h : p.cellAt? l q = some cell) :
    ∀ c ∈ cell.data, P c := by
  -- the payload of a block is that of a template, so it has the property already
  have hblock : ∀ template, (p.blockCell? l q).bind Cell.data = some template → P template := by
    intro template htemplate
    obtain ⟨b, -, -, hpayload⟩ := exists_block_of_blockCell? htemplate
    obtain ⟨name, -, hname⟩ := Option.bind_eq_some_iff.1 hpayload
    exact hP.template .blockEntity name template hname
  rw [cellAt?] at h
  split at h
  case h_1 j hj =>
    obtain rfl := Option.some.inj h
    intro c hc
    obtain ⟨connector, hconnector, rfl⟩ := Option.map_eq_some_iff.1 hc
    -- the five keys alone have it, and it stays when a payload is put over them
    cases hdata : j.data 0 with
    | error e =>
      rw [hdata] at hconnector
      cases hconnector
    | ok given =>
      rw [hdata] at hconnector
      obtain rfl := Option.some.inj hconnector
      have hgiven := hP.connector j given hdata
      rw [Layout.connectorData]
      split
      next template htemplate =>
        exact hP.insertAll given template hgiven (hblock template htemplate)
      next => exact hgiven
  case h_2 =>
    intro c hc
    refine hblock c ?_
    rw [h]
    exact hc

/-- So it holds of all data in the structure. -/
theorem forall_payloads_of_assembled {P : Compound → Prop} (hP : SplicedWith ctx.templates P)
    (h : p.assembled ctx o = .ok s) : ∀ c ∈ s.payloads, P c := by
  refine Structure.forall_mem_payloads.2 ⟨fun b hb => ?_, fun e he => ?_⟩
  · obtain ⟨cell, hcell, -, hdata⟩ := exists_cell_of_mem_blocks h hb
    rw [hdata]
    exact forall_data_of_cellAt? hP hcell
  · obtain ⟨blocks, entities, connectors, -, hentities, -, rfl⟩ := assembled_eq_ok.1 h
    have he : e ∈ entities := by
      dsimp only [Layout.assemble] at he
      split at he
      · exact he
      · cases he
    obtain ⟨entity, -, hplaced⟩ := Outcome.exists_mem_of_mem_mapM hentities he
    obtain ⟨payload, hpayload, rfl⟩ := Entity.placed_eq_ok.1 hplaced
    exact hP.template .entity entity.template payload hpayload

/-- Everything that is spliced into a structure can be written without loss. -/
theorem sound_payloads_of_assembled (htemplates : ctx.templates.Accepted)
    (h : p.assembled ctx o = .ok s) : ∀ c ∈ s.payloads, (Tag.compound c).Sound := by
  refine forall_payloads_of_assembled (P := fun c => (Tag.compound c).Sound) ?_ h
  exact ⟨fun _ _ _ hc => htemplates.sound hc, fun _ _ hc => Jigsaw.sound_data hc,
    fun _ _ => Compound.sound_insertAll⟩

/-- **Containers are read back** exactly if every payload in them leaves the three levels
that it is spliced below: a deeper one compiles and is written, but no reader accepts it. -/
theorem compile_readable_iff {biome : Option String} {bytes : List UInt8}
    (htemplates : ctx.templates.Accepted) (hs : p.compile biome ctx o = .ok s)
    (hbytes : s.encode = .ok bytes) :
    ∃ d, s.document = .ok d ∧
      (Document.ofBytes bytes = .ok d ↔
        ∀ c ∈ s.payloads, (Tag.compound c).Within (maxDepth - 3)) ∧
      ((∃ c ∈ s.payloads, ¬ (Tag.compound c).Within (maxDepth - 3)) →
        ∃ e, Document.ofBytes bytes = .error e ∧ e.kind = .invalidData) := by
  obtain ⟨_, moved, -, -, hassembled⟩ := compile_eq_ok.1 hs
  obtain ⟨d, hd, hok, herror⟩ :=
    Structure.ofBytes_encode hbytes (sound_payloads_of_assembled htemplates hassembled)
  refine ⟨d, hd, Outcome.eq_ok_iff hok fun hdeep => herror ?_, herror⟩
  push Not at hdeep
  exact hdeep

end Plan

/-! ## A room with a guest -/

/-- A room of one cell with one entity in it. -/
def Plan.room : Plan where
  id := none
  size := ⟨1, 1, 1⟩
  blocks := []
  entities := [⟨⟨⟨0⟩, ⟨0⟩, ⟨0⟩⟩, .identity ⟨1, 1, 1⟩, ⟨0, 0, 0⟩, "guest"⟩]
  jigsaws := []
  jigsawPolicy := .unrestricted
  palettes := .empty
  tags := []

/-- A run whose only template is that of the entity. -/
def CompileContext.hosting (guest : Compound) : CompileContext :=
  ⟨.empty, TemplateLibrary.empty.insert .entity "guest" guest⟩

/-- The options that move nothing and keep entities. -/
def CompileOptions.inPlace : CompileOptions := ⟨.deg0, .off, true⟩

/-- The structure of the room. -/
def Structure.room (guest : Compound) : Structure :=
  ⟨⟨1, 1, 1⟩, [], [], [⟨⟨⟨0⟩, ⟨0⟩, ⟨0⟩⟩, ⟨0, 0, 0⟩, guest⟩], Blueprint.dataVersion⟩

/-- The room is compiled with its guest in it. -/
theorem compile_room (guest : Compound) :
    Plan.room.compile none (.hosting guest) .inPlace = .ok (.room guest) := rfl

/-- It can be written if the guest can. -/
theorem encode_room {guest : Compound} (h : Encode.Writable (.compound guest)) :
    ∃ bytes, (Structure.room guest).encode = .ok bytes := by
  have hint (v : Int32) : Encode.Writable (.int v) := ⟨_, rfl⟩
  have hdouble (v : Binary64) : Encode.Writable (.double v) := ⟨_, rfl⟩
  refine Structure.exists_encode rfl (Encode.writable_compound.2 ?_)
  simp [Encode.writable_compound, Encode.writable_list, Structure.room, wordsTag,
    PlacedEntity.tag, Pos.tag, Vec3.toList, Tag.typeId, hint, hdouble, h, Encode.utf8]
  decide

/-- What can be written and read as a template is accepted as one. -/
theorem accepted_hosting {guest : Compound} (hsound : (Tag.compound guest).Sound)
    (hdepth : (Tag.compound guest).Within maxDepth) (hwritable : Encode.Writable (.compound guest))
    (hwhole : Template.unwrap guest = guest) :
    (CompileContext.hosting guest).templates.Accepted := by
  obtain ⟨body, hbody⟩ := hwritable
  have hroot : Tag.compound guest ≠ .terminator := fun h => nomatch h
  have hname : Encode.string "" = .ok [0, 0] := by decide
  -- a compound written under an empty name is read back, and nothing of it is unwrapped
  have hencode : Document.encode ⟨"", .compound guest⟩ = .ok (10 :: ([0, 0] ++ body)) :=
    (Tag.encode_eq_ok hroot).2 ⟨[0, 0], body, hname, hbody, rfl⟩
  have hread := (Document.ofBytes_encode hsound.1 (fun h => absurd h hroot) hencode).1
    (Tag.fits_succ_iff.2 ⟨hdepth, hsound.2⟩)
  intro kind name c hc
  cases kind with
  -- no block has a template here
  | blockEntity => cases hc
  | entity =>
    have hget : (SortedMap.empty.insert "guest" guest).get? name = some c := hc
    rw [SortedMap.get?_insert] at hget
    split at hget
    next =>
      obtain rfl := Option.some.inj hget
      refine ⟨Gzip.compress (10 :: ([0, 0] ++ body)), ?_⟩
      rw [Template.payload, hread]
      exact congrArg Except.ok hwhole
    next => cases hget

/-- Compounds inside each other, `n` of them around an empty one. -/
def Nbt.Tag.nest : (n : Nat) → Tag
  | 0 => .compound []
  | n + 1 => .compound [("", nest n)]

/-- Compounds inside each other are sound. -/
theorem sound_nest (n : Nat) : (Tag.nest n).Sound := by
  induction n with
  | zero => exact Tag.sound_compound.2 ⟨List.nodup_nil, fun e he => absurd he List.not_mem_nil⟩
  | succ n ih =>
    exact Tag.sound_compound.2 ⟨List.nodup_singleton _, List.forall_mem_singleton.2 ih⟩

/-- They can be written. -/
theorem writable_nest (n : Nat) : Encode.Writable (Tag.nest n) := by
  induction n with
  | zero => exact ⟨_, rfl⟩
  | succ n ih =>
    have htype : (Tag.nest n).typeId = 10 := by cases n <;> rfl
    have hkey : (Encode.utf8 "").length < UInt16.size := by decide
    refine Encode.writable_compound.2 (List.forall_mem_singleton.2 ⟨?_, hkey, ih⟩)
    rw [htype]
    decide

/-- The innermost compound stands at depth `n`. -/
theorem within_nest {n depth : Nat} : (Tag.nest n).Within depth ↔ n ≤ depth := by
  induction n generalizing depth with
  | zero =>
    refine iff_of_true ?_ (Nat.zero_le depth)
    exact Tag.everywhere_compound.2 ⟨Nat.zero_le depth, fun e he => absurd he List.not_mem_nil⟩
  | succ n ih =>
    cases depth with
    | zero =>
      refine iff_of_false (fun h => ?_) (Nat.not_succ_le_zero n)
      exact Nat.not_succ_le_zero 0 (h 1 _ (.value List.mem_cons_self (.root _)))
    | succ depth =>
      rw [Tag.nest, Tag.within_compound, List.forall_mem_singleton, ih, Nat.succ_le_succ_iff]

/-- Guests nested up to the limit of their own file are accepted. -/
theorem accepted_nest {n : Nat} (h : n < maxDepth) :
    (CompileContext.hosting [("", Tag.nest n)]).templates.Accepted :=
  accepted_hosting (sound_nest (n + 1)) (within_nest.2 h) (writable_nest (n + 1)) rfl

/-- The room with a guest of moderate depth has a container that is read back. -/
theorem compile_readable_iff_room :
    let guest : Compound := [("", Tag.nest 2)]
    ∃ bytes d, (CompileContext.hosting guest).templates.Accepted ∧
      Plan.room.compile none (.hosting guest) .inPlace = .ok (.room guest) ∧
      (Structure.room guest).encode = .ok bytes ∧ (Structure.room guest).document = .ok d ∧
      Document.ofBytes bytes = .ok d := by
  intro guest
  obtain ⟨bytes, hbytes⟩ := encode_room (writable_nest 3)
  obtain ⟨d, hd, hread, -⟩ :=
    Plan.compile_readable_iff (accepted_nest (by decide)) (compile_room guest) hbytes
  refine ⟨bytes, d, accepted_nest (by decide), rfl, hbytes, hd, hread.2 ?_⟩
  exact List.forall_mem_singleton.2 (within_nest.2 (show 3 ≤ maxDepth - 3 by decide))

/-- A guest of depth 510 is accepted as a template, since its own file may go down to 512, but
in the container of the room it reaches depth 513. -/
theorem exists_unreadable_container :
    let guest : Compound := [("", Tag.nest 509)]
    ∃ bytes e, (CompileContext.hosting guest).templates.Accepted ∧
      Plan.room.compile none (.hosting guest) .inPlace = .ok (.room guest) ∧
      (Structure.room guest).encode = .ok bytes ∧ Document.ofBytes bytes = .error e ∧
      e.kind = .invalidData := by
  intro guest
  obtain ⟨bytes, hbytes⟩ := encode_room (writable_nest 510)
  have hsound : ∀ c ∈ (Structure.room guest).payloads, (Tag.compound c).Sound :=
    List.forall_mem_singleton.2 (sound_nest 510)
  have hdeep : ¬ (Tag.nest 510).Within (maxDepth - 3) := mt within_nest.1 (by decide)
  obtain ⟨-, -, -, herror⟩ := Structure.ofBytes_encode hbytes hsound
  obtain ⟨e, he, hkind⟩ := herror ⟨guest, List.mem_cons_self, hdeep⟩
  exact ⟨bytes, e, accepted_nest (by decide), rfl, hbytes, he, hkind⟩

end Blueprint
