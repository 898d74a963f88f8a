import Blueprint.Proofs.Nbt.LongText
import Blueprint.Proofs.Nbt.Rewritten
import Blueprint.Proofs.Structure.Container

/-!
# Containers that are not written

A container is laid out so that only a text can keep it from being written: the lists in it have
one type, and what is spliced into it has a shape that a reader has accepted or that is fixed.
Templates were read, so their texts are short enough. What is left are the texts of the plan, and
the first of these that is too long is what the encoder reports (`Plan.encode_fails_iff`).
-/

namespace Blueprint

open Nbt

/-! ## Texts in a container -/

/-- The texts in a palette entry: the name, and each key with its value. -/
def PaletteEntry.texts (e : PaletteEntry) : List String :=
  e.name :: e.properties.entries.flatMap fun (key, value) => [key, value]

/-- The texts and keys in a structure: those of its palette, and those in the data of its blocks
and entities. -/
def Structure.texts (s : Structure) : List String :=
  s.palette.flatMap PaletteEntry.texts ++ s.payloads.flatMap fun c => (Tag.compound c).texts

/-- Integers have no texts. -/
@[simp] theorem texts_wordsTag (words : List Int32) : (wordsTag words).texts = [] := by
  simp [wordsTag, List.flatMap_map]

/-- The long texts of an entry are among its name, its keys and its values. -/
theorem PaletteEntry.longTexts_tag (e : PaletteEntry) :
    longTexts e.tag.texts = longTexts e.texts := by
  have hname : ¬ LongText "Name" := by decide
  have hkey : ¬ LongText "Properties" := by decide
  obtain ⟨name, ⟨properties, hsorted⟩⟩ := e
  cases properties with
  | nil => simp [tag, texts, hname]
  | cons property properties =>
    simp [tag, texts, List.flatMap_map, longTexts, List.filter_cons, hname, hkey]

/-- The long texts of a block are those of its data. -/
theorem PlacedBlock.longTexts_tag {b : PlacedBlock} {t : Tag} (h : b.tag = .ok t) :
    longTexts t.texts = longTexts (b.data.toList.flatMap fun c => (Tag.compound c).texts) := by
  obtain ⟨-, rfl⟩ := tag_eq_ok.1 h
  cases b.data with
  | none => simp (disch := decide) [Pos.tag]
  | some c => simp (disch := decide) [Pos.tag]

/-- So are those of an entity. -/
theorem PlacedEntity.longTexts_tag (e : PlacedEntity) :
    longTexts e.tag.texts = longTexts (Tag.compound e.data).texts := by
  have hpoint : (Tag.list 6 (e.point.toList.map Tag.double)).texts = [] := by
    simp [List.flatMap_map]
  rw [tag, Tag.texts_compound]
  simp (disch := decide) [hpoint, Pos.tag, -Tag.texts_list]

/-- The long texts of blocks are those of their data. -/
theorem longTexts_blockTags {bs : List PlacedBlock} {ts : List Tag} (h : blockTags bs = .ok ts) :
    longTexts (ts.flatMap Tag.texts) =
      longTexts ((bs.filterMap PlacedBlock.data).flatMap fun c => (Tag.compound c).texts) := by
  rw [blockTags_eq_ok] at h
  induction h with
  | nil => rfl
  | @cons b _ _ _ hb _ ih =>
    rw [List.flatMap_cons, longTexts_append, PlacedBlock.longTexts_tag hb, ih, List.filterMap_cons]
    cases b.data with
    | none => rfl
    | some c => rw [Option.toList, List.flatMap_singleton, ← longTexts_append, List.flatMap_cons]

namespace Structure

/-- Every long text of a container is a text of its structure. -/
theorem longTexts_document {s : Structure} {d : Document} (h : s.document = .ok d) :
    longTexts d.root.texts = longTexts s.texts := by
  obtain ⟨blocks, hblocks, rfl⟩ := document_eq_ok.1 h
  have hpalette : longTexts ((s.palette.map PaletteEntry.tag).flatMap Tag.texts) =
      longTexts (s.palette.flatMap PaletteEntry.texts) := by
    rw [List.flatMap_map]
    exact longTexts_flatMap_congr fun e _ => e.longTexts_tag
  have hentities : longTexts ((s.entities.map PlacedEntity.tag).flatMap Tag.texts) =
      longTexts ((s.entities.map PlacedEntity.data).flatMap fun c => (Tag.compound c).texts) := by
    rw [List.flatMap_map, List.flatMap_map]
    exact longTexts_flatMap_congr fun e _ => e.longTexts_tag
  -- the keys around the parts are fixed and short, so they drop out
  calc
    longTexts _ = longTexts ((s.palette.map PaletteEntry.tag).flatMap Tag.texts) ++
        (longTexts (blocks.flatMap Tag.texts) ++
          longTexts ((s.entities.map PlacedEntity.tag).flatMap Tag.texts)) := by
      simp (disch := decide) [longTexts_append]
    _ = longTexts s.texts := by
      rw [hpalette, hentities, longTexts_blockTags hblocks, texts, payloads, List.flatMap_append,
        longTexts_append, longTexts_append]

end Structure

/-! ## The shape of a container -/

@[simp] theorem typeId_wordsTag (words : List Int32) : (wordsTag words).typeId = 9 := rfl

/-- Numbers are as they may be written if their count fits. -/
theorem regular_wordsTag {words : List Int32} (h : words.length < 0x80000000) :
    (wordsTag words).Regular := by
  refine Tag.regular_list.2 ⟨by rwa [List.length_map], List.forall_mem_map.2 fun v _ => ?_⟩
  exact ⟨rfl, (Tag.regular_leaf rfl).2 trivial⟩

/-- There are three coordinates. -/
theorem Vec3.length_toList {α : Type} (v : Vec3 α) : v.toList.length = 3 := rfl

/-- So a position is as it may be written. -/
theorem Pos.regular_tag (p : Pos) : (wordsTag p.toList).Regular :=
  regular_wordsTag (by rw [Vec3.length_toList]; decide)

/-- An entry is as it may be written. -/
theorem PaletteEntry.regular_tag (e : PaletteEntry) : e.tag.Regular := by
  have htext (text : String) : (Tag.string text).Regular := (Tag.regular_leaf rfl).2 trivial
  have hproperties : (Tag.compound
      (e.properties.entries.map fun a => (a.1, Tag.string a.2))).Regular :=
    Tag.regular_compound.2 (List.forall_mem_map.2 fun a _ => ⟨by simp, htext a.2⟩)
  rw [tag, Tag.regular_compound]
  split
  · simp [htext]
  · simp [htext, hproperties]

/-- So is a block if its data is. -/
theorem PlacedBlock.regular_tag {b : PlacedBlock} {t : Tag} (h : b.tag = .ok t)
    (hdata : ∀ c ∈ b.data, (Tag.compound c).Regular) : t.Regular := by
  have hint (v : Int32) : (Tag.int v).Regular := (Tag.regular_leaf rfl).2 trivial
  obtain ⟨-, rfl⟩ := tag_eq_ok.1 h
  rw [Tag.regular_compound]
  cases hd : b.data with
  | none => simp [hint, Pos.tag, b.pos.regular_tag]
  | some c => simp [hint, Pos.tag, b.pos.regular_tag, hdata c hd]

/-- And so is an entity if its data is. -/
theorem PlacedEntity.regular_tag {e : PlacedEntity} (hdata : (Tag.compound e.data).Regular) :
    e.tag.Regular := by
  have hpoint : (Tag.list 6 (e.point.toList.map Tag.double)).Regular := by
    refine Tag.regular_list.2 ⟨?_, List.forall_mem_map.2 fun v _ => ?_⟩
    · rw [List.length_map, Vec3.length_toList]
      decide
    · exact ⟨rfl, (Tag.regular_leaf rfl).2 trivial⟩
  simp [tag, Tag.regular_compound, hpoint, Pos.tag, e.blockPos.regular_tag, hdata]

namespace Structure

variable {s : Structure} {d : Document}

/-- A container is regular if what is spliced into it is, and its lists are not too long. -/
theorem regular_document (h : s.document = .ok d) (hpalette : s.palette.length < 0x80000000)
    (hblocks : s.blocks.length < 0x80000000) (hentities : s.entities.length < 0x80000000)
    (hpayloads : ∀ c ∈ s.payloads, (Tag.compound c).Regular) : d.root.Regular := by
  obtain ⟨blocks, htags, rfl⟩ := document_eq_ok.1 h
  obtain ⟨hdata, hguests⟩ := forall_mem_payloads.1 hpayloads
  have hlength : s.blocks.length = blocks.length := (blockTags_eq_ok.1 htags).length_eq
  have hpalette : (Tag.list 10 (s.palette.map PaletteEntry.tag)).Regular :=
    Tag.regular_list.2 ⟨by rwa [List.length_map],
      List.forall_mem_map.2 fun e _ => ⟨rfl, e.regular_tag⟩⟩
  have hblocks : (Tag.list 10 blocks).Regular := by
    refine Tag.regular_list.2 ⟨hlength ▸ hblocks, (forall_mem_blockTags htags).2 ?_⟩
    intro b hb t ht
    refine ⟨?_, PlacedBlock.regular_tag ht (hdata b hb)⟩
    rw [(PlacedBlock.tag_eq_ok.1 ht).2]
    rfl
  have hentities : (Tag.list 10 (s.entities.map PlacedEntity.tag)).Regular :=
    Tag.regular_list.2 ⟨by rwa [List.length_map],
      List.forall_mem_map.2 fun e he => ⟨rfl, PlacedEntity.regular_tag (hguests e he)⟩⟩
  have hversion : (Tag.int s.dataVersion).Regular := (Tag.regular_leaf rfl).2 trivial
  have hsize : (wordsTag [s.size.w, s.size.h, s.size.l]).Regular :=
    Pos.regular_tag ⟨s.size.w, s.size.h, s.size.l⟩
  simp [Tag.regular_compound, hversion, hsize, hpalette, hblocks, hentities]

/-- A structure with a document fails to be written as the document does. -/
theorem encode_eq_error (h : s.document = .ok d) {e : ContainerError} :
    s.encode = .error e ↔ ∃ e', d.encode = .error e' ∧ e = .tag e' := by
  have hraw : s.encodeRaw = d.encode.mapError .tag := by
    rw [encodeRaw, h]
    rfl
  rw [encode, hraw]
  cases d.encode with
  | error e' => simp [Except.mapError, Functor.map, Except.map, @eq_comm _ e]
  | ok bytes => simp [Except.mapError, Functor.map, Except.map]

/-- **What keeps a structure from being written** is the first of its texts that is too long, if
the rest of its container can be written. -/
theorem encode_eq_error_iff (h : s.document = .ok d) (hregular : d.root.Regular)
    {e : ContainerError} :
    s.encode = .error e ↔ ∃ text, (s.texts.find? fun text => LongText text) = some text ∧
      e = .tag (.longString (Encode.utf8 text).length) := by
  have hroot : d.root ≠ .terminator := by
    obtain ⟨blocks, -, rfl⟩ := document_eq_ok.1 h
    exact fun hterm => by cases hterm
  have hlong : longTexts (d.name :: d.root.texts) = longTexts s.texts := by
    rw [name_of_document h, longTexts_cons_of_short (by decide), longTexts_document h]
  have hfails := (Tag.failsAtFirst_encode hregular hroot d.name).congr hlong
  rw [encode_eq_error h, Document.encode]
  simp only [hfails.eq_error_iff]
  refine ⟨?_, ?_⟩
  · rintro ⟨_, ⟨text, htext, rfl⟩, rfl⟩
    exact ⟨text, htext, rfl⟩
  · rintro ⟨text, htext, rfl⟩
    exact ⟨_, ⟨text, htext, rfl⟩, rfl⟩

end Structure

/-! ## What is spliced in -/

namespace Template

/-- What is in a wrapper can be written if the wrapper can. -/
theorem writable_unwrap {root : Compound} (h : Encode.Writable (.compound root)) :
    Encode.Writable (.compound (unwrap root)) := by
  unfold unwrap
  split
  next inner =>
    exact (Encode.writable_compound.1 h ("template", .compound inner) List.mem_cons_self).2.2
  next => exact h

/-- What a template file gives can be written, since it was read. -/
theorem writable_payload {bytes : List UInt8} {c : Compound} (h : payload bytes = .ok c) :
    Encode.Writable (.compound c) := by
  obtain ⟨d, root, hd, hroot, rfl⟩ := payload_eq_ok.1 h
  obtain ⟨input, rest, hread⟩ := Document.exists_read_of_ofBytes hd
  obtain ⟨spelled, front, hspelled, hmerged, -⟩ := Tag.read_spelled hread
  obtain ⟨again, hagain, -⟩ := Tag.encode_merged hspelled
  rw [hmerged, hroot] at hagain
  obtain ⟨header, body, -, hbody, -⟩ := (Tag.encode_eq_ok (fun hterm => by cases hterm)).1 hagain
  exact writable_unwrap ⟨body, hbody⟩

end Template

/-- Accepted templates can be written. -/
theorem TemplateLibrary.Accepted.writable {l : TemplateLibrary} (h : l.Accepted)
    {kind : TemplateKind} {name : String} {c : Compound} (hc : l.get? kind name = some c) :
    Encode.Writable (.compound c) := by
  obtain ⟨file, hfile⟩ := h kind name c hc
  exact Template.writable_payload hfile

/-- The data of a connector is a compound of texts. -/
theorem Jigsaw.regular_data {i : Nat} {j : Jigsaw} {c : Compound} (h : j.data i = .ok c) :
    (Tag.compound c).Regular := by
  obtain ⟨name, pool, target, -, -, -, -, -, rfl⟩ := data_eq_ok.1 h
  have htext (text : String) : (Tag.string text).Regular := (Tag.regular_leaf rfl).2 trivial
  simp [Tag.regular_compound, htext]

/-- Entries laid over others are as they may be written if both are. -/
theorem Nbt.Compound.regular_insertAll {c extra : Compound} (hc : (Tag.compound c).Regular)
    (hextra : (Tag.compound extra).Regular) : (Tag.compound (insertAll c extra)).Regular :=
  Tag.regular_compound.2 (forall_insertAll (P := fun t => t.typeId ≠ 0 ∧ t.Regular)
    (Tag.regular_compound.1 hc) (Tag.regular_compound.1 hextra))

namespace Plan

variable {ctx : CompileContext} {o : CompileOptions} {p : Plan} {s : Structure}

/-- So all data in a structure is as it may be written. -/
theorem regular_payloads_of_assembled (htemplates : ctx.templates.Accepted)
    (h : p.assembled ctx o = .ok s) : ∀ c ∈ s.payloads, (Tag.compound c).Regular := by
  refine forall_payloads_of_assembled (P := fun c => (Tag.compound c).Regular) ?_ h
  exact ⟨fun _ _ _ hc => Encode.regular_of_writable (htemplates.writable hc),
    fun _ _ hc => Jigsaw.regular_data hc, fun _ _ => Compound.regular_insertAll⟩

/-- A palette of moderate length gives every block a place that can be written. -/
theorem exists_document_of_assembled (h : p.assembled ctx o = .ok s)
    (hpalette : s.palette.length < 0x80000000) : ∃ d, s.document = .ok d := by
  have htags : ∃ blocks, blockTags s.blocks = .ok blocks := by
    refine exists_blockTags_eq_ok.2 ?_
    intro b hb
    obtain ⟨cell, -, hentry, -⟩ := exists_cell_of_mem_blocks h hb
    have hindex : b.paletteIndex < s.palette.length := (List.getElem?_eq_some_iff.1 hentry).1
    exact ⟨_, PlacedBlock.tag_eq_ok.2 ⟨Nat.lt_trans hindex hpalette, rfl⟩⟩
  obtain ⟨blocks, hblocks⟩ := htags
  exact ⟨_, Structure.document_eq_ok.2 ⟨blocks, hblocks, rfl⟩⟩

/-- **A compiled structure is kept from being written by a long text and by nothing else.** The
text is the first long one in the structure, and it is not from a template, since no text of a
template is long. -/
theorem encode_fails_iff {biome : Option String} (htemplates : ctx.templates.Accepted)
    (hs : p.compile biome ctx o = .ok s) (hpalette : s.palette.length < 0x80000000)
    (hblocks : s.blocks.length < 0x80000000) (hentities : s.entities.length < 0x80000000) :
    ((∃ e, s.encode = .error e) ↔ ∃ text ∈ s.texts, LongText text) ∧
      (∀ e, s.encode = .error e →
        ∃ text, (s.texts.find? fun text => LongText text) = some text ∧
          e = .tag (.longString (Encode.utf8 text).length)) ∧
      ∀ kind name c, ctx.templates.get? kind name = some c →
        ∀ text ∈ (Tag.compound c).texts, ¬ LongText text := by
  obtain ⟨_, moved, -, -, hassembled⟩ := compile_eq_ok.1 hs
  obtain ⟨d, hd⟩ := exists_document_of_assembled hassembled hpalette
  -- all lengths but those of the texts are in range, so only a text can fail
  have hregular := Structure.regular_document hd hpalette hblocks hentities
    (regular_payloads_of_assembled htemplates hassembled)
  have herror {e : ContainerError} := Structure.encode_eq_error_iff hd hregular (e := e)
  refine ⟨⟨?_, ?_⟩, fun e he => herror.1 he, fun kind name c hc => ?_⟩
  · rintro ⟨e, he⟩
    obtain ⟨text, hfirst, -⟩ := herror.1 he
    exact ⟨text, List.mem_of_find?_eq_some hfirst, by simpa using List.find?_some hfirst⟩
  -- some text is long, so there is a first one, which the writer reports
  · rintro ⟨text, htext, hlong⟩
    have hsome : (s.texts.find? fun text => LongText text).isSome :=
      List.find?_isSome.2 ⟨text, htext, by simpa using hlong⟩
    obtain ⟨first, hfirst⟩ := Option.isSome_iff_exists.1 hsome
    exact ⟨_, herror.2 ⟨first, hfirst, rfl⟩⟩
  · exact (Encode.writable_iff.1 (htemplates.writable hc)).2

end Plan

/-! ## A room with a name -/

/-- The room with one block of the given name. -/
def Plan.named (name : String) : Plan :=
  { Plan.room with blocks := [⟨⟨0, 0, 0⟩, .direct ⟨name, .empty⟩, none⟩] }

/-- A run that allows the name, with a template for the guest. -/
def CompileContext.naming (name : String) (guest : Compound) : CompileContext :=
  { CompileContext.hosting guest with allowlist := Allowlist.empty.allow name [] }

/-- A room of any name is compiled to one block and one entity. -/
theorem compile_named (name : String) (guest : Compound) :
    ∃ s, (Plan.named name).compile none (.naming name guest) .inPlace = .ok s ∧
      s.palette = [⟨name, .empty⟩] ∧ s.blocks.length = 1 ∧ s.entities.length = 1 := by
  have hvalid : (Allowlist.empty.allow name []).validate ⟨name, .empty⟩ = .ok () := by
    simp [Allowlist.validate, Allowlist.allow, Allowlist.validateProperties, SortedMap.empty]
  have hstates : (Plan.named name).checkStates (CompileContext.naming name guest).allowlist =
      .ok () := by
    simp only [Plan.checkStates, Plan.named, Plan.checkBlocks, Plan.boundState, Plan.checkState,
      CompileContext.naming, Outcome.bind_eq_ok]
    simp [hvalid, Outcome.mapError_eq_ok, Plan.room, Plan.checkConnectors]
  have hauthored : (Plan.named name).authored none (.naming name guest) = .ok (Plan.named name) :=
    Plan.authored_eq_ok.2 ⟨rfl, rfl, ⟨_, rfl⟩, hstates⟩
  have hplaced : (Plan.named name).placed (.naming name guest) .inPlace = .ok (Plan.named name) :=
    rfl
  exact ⟨_, Plan.compile_eq_ok.2 ⟨_, _, hauthored, hplaced, rfl⟩, rfl, rfl, rfl⟩

/-- A text of a single letter has as many bytes as letters. -/
theorem length_utf8_replicate (n : Nat) :
    (Encode.utf8 (String.ofList (List.replicate n 'a'))).length = n := by
  have hsize : 'a'.utf8Size = 1 := rfl
  simp [Encode.utf8, String.toUTF8, String.toByteArray_ofList, List.utf8Encode, hsize]

/-- A name of one byte more than fits is what keeps the room from being written. -/
theorem encode_fails_iff_named :
    let guest : Compound := [("", Tag.nest 2)]
    let name := String.ofList (List.replicate 65536 'a')
    (CompileContext.naming name guest).templates.Accepted ∧
      ∃ s, (Plan.named name).compile none (.naming name guest) .inPlace = .ok s ∧
        s.encode = .error (.tag (.longString 65536)) := by
  intro guest name
  have htemplates : (CompileContext.naming name guest).templates.Accepted :=
    accepted_nest (by decide)
  obtain ⟨s, hs, hpalette, hblocks, hentities⟩ := compile_named name guest
  have hlength : (Encode.utf8 name).length = 65536 := length_utf8_replicate _
  have hlong : LongText name := by
    rw [LongText, hlength]
    decide
  -- the long name is the first text, since the palette is written before all else
  obtain ⟨more, hmore⟩ : ∃ more, s.texts = name :: more := by
    rw [Structure.texts, hpalette]
    exact ⟨_, rfl⟩
  obtain ⟨hiff, hfirst, -⟩ := Plan.encode_fails_iff htemplates hs (by simp [hpalette])
    (by simp [hblocks]) (by simp [hentities])
  obtain ⟨e, he⟩ := hiff.2 ⟨name, hmore ▸ List.mem_cons_self, hlong⟩
  obtain ⟨text, htext, rfl⟩ := hfirst e he
  rw [hmore, List.find?_cons_of_pos (by simpa using hlong)] at htext
  obtain rfl := Option.some.inj htext
  rw [hlength] at he
  exact ⟨htemplates, s, hs, he⟩

end Blueprint
