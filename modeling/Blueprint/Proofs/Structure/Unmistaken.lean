import Blueprint.Proofs.Nbt.Unmistaken
import Blueprint.Proofs.Structure.Container
import Blueprint.Proofs.Structure.LaidOut

/-!
# Containers tell structures apart

What is written for a structure says which structure it is. Bytes are told apart as tags by the
encoder, so what is left is the layout: every part of a structure has its own place in the
container, and what may be left out, properties and data, is told from what is there and empty.
None of this asks whether a reader accepts the container, so it holds of payloads at any depth.
-/

namespace Blueprint

open Nbt

/-- Numbers can be told from their tags. -/
theorem wordsTag_injective : Function.Injective wordsTag := by
  intro words words' h
  obtain ⟨-, hwords⟩ := Tag.list.inj h
  exact List.map_injective_iff.2 (fun _ _ => Tag.int.inj) hwords

/-- A vector can be told from the list of its coordinates. -/
theorem Vec3.toList_injective {α : Type} : Function.Injective (Vec3.toList (α := α)) := by
  rintro ⟨x, y, z⟩ ⟨x', y', z'⟩ h
  simp only [toList, List.cons.injEq, and_true] at h
  obtain ⟨rfl, rfl, rfl⟩ := h
  rfl

/-- A position can be told from its tag. -/
theorem Pos.tag_injective : Function.Injective Pos.tag :=
  wordsTag_injective.comp Vec3.toList_injective

/-! ## Parts of a container -/

/-- Properties are told from each other, and none at all from some. -/
theorem PaletteEntry.tag_injective : Function.Injective PaletteEntry.tag := by
  rintro ⟨name, properties⟩ ⟨name', properties'⟩ h
  have hvalue : Function.Injective fun e : String × String => (e.1, Tag.string e.2) := by
    rintro ⟨key, value⟩ ⟨key', value'⟩ heq
    obtain ⟨rfl, hvalue⟩ := Prod.mk.inj heq
    obtain rfl := Tag.string.inj hvalue
    rfl
  obtain ⟨hname, hrest⟩ := List.cons.inj (Tag.compound.inj h)
  obtain rfl := Tag.string.inj (Prod.mk.inj hname).2
  have hentries : properties.entries = properties'.entries := by
    refine List.map_injective_iff.2 hvalue ?_
    dsimp only at hrest ⊢
    split at hrest
    next hnone =>
      split at hrest
      next hnone' => rw [List.isEmpty_iff.1 hnone, List.isEmpty_iff.1 hnone']
      next => cases hrest
    next =>
      split at hrest
      next => cases hrest
      next => exact Tag.compound.inj (Prod.mk.inj (List.head_eq_of_cons_eq hrest)).2
  rw [SortedMap.eq_of_entries_eq hentries]

/-- The place of a state in the palette is told as long as it fits its word. -/
theorem ofNat_inj_of_lt {m n : Nat} (hm : m < 0x80000000) (hn : n < 0x80000000)
    (h : Int32.ofNat m = Int32.ofNat n) : m = n := by
  have hvalue := congrArg Int32.toInt h
  rw [Int32.toInt_ofNat_of_lt hm, Int32.toInt_ofNat_of_lt hn] at hvalue
  exact Int.ofNat_inj.1 hvalue

/-- A block without data is told from one whose data is empty. -/
theorem PlacedBlock.tag_inj {b b' : PlacedBlock} {t : Tag} (h : b.tag = .ok t)
    (h' : b'.tag = .ok t) : b = b' := by
  obtain ⟨hlt, rfl⟩ := tag_eq_ok.1 h
  obtain ⟨hlt', heq⟩ := tag_eq_ok.1 h'
  obtain ⟨pos, index, data⟩ := b
  obtain ⟨pos', index', data'⟩ := b'
  obtain ⟨hindex, hrest⟩ := List.cons.inj (Tag.compound.inj heq)
  obtain ⟨hpos, hdata⟩ := List.cons.inj hrest
  obtain rfl := ofNat_inj_of_lt hlt hlt' (Tag.int.inj (Prod.mk.inj hindex).2)
  obtain rfl := Pos.tag_injective (Prod.mk.inj hpos).2
  cases data with
  | none =>
    cases data' with
    | none => rfl
    | some c' => cases hdata
  | some c =>
    cases data' with
    | none => cases hdata
    | some c' =>
      obtain rfl := Tag.compound.inj (Prod.mk.inj (List.head_eq_of_cons_eq hdata)).2
      rfl

/-- Blocks can be told from their tags. -/
theorem blockTags_inj {bs bs' : List PlacedBlock} {ts : List Tag} (h : blockTags bs = .ok ts)
    (h' : blockTags bs' = .ok ts) : bs = bs' := by
  have hunique : Relator.LeftUnique fun (b : PlacedBlock) t => b.tag = .ok t := by
    intro b t b' hb hb'
    exact PlacedBlock.tag_inj hb hb'
  exact List.left_unique_forall₂' hunique (blockTags_eq_ok.1 h) (blockTags_eq_ok.1 h')

/-- An entity can be told from its tag. -/
theorem PlacedEntity.tag_injective : Function.Injective PlacedEntity.tag := by
  rintro ⟨point, blockPos, data⟩ ⟨point', blockPos', data'⟩ h
  obtain ⟨hpoint, hrest⟩ := List.cons.inj (Tag.compound.inj h)
  obtain ⟨hpos, hrest⟩ := List.cons.inj hrest
  obtain ⟨-, hnumbers⟩ := Tag.list.inj (Prod.mk.inj hpoint).2
  obtain rfl := Vec3.toList_injective
    (List.map_injective_iff.2 (fun _ _ => Tag.double.inj) hnumbers)
  obtain rfl := Pos.tag_injective (Prod.mk.inj hpos).2
  obtain rfl := Tag.compound.inj (Prod.mk.inj (List.head_eq_of_cons_eq hrest)).2
  rfl

/-! ## Containers -/

/-- Under one name no two documents are written as the same bytes. -/
theorem Nbt.Document.encode_inj {d d' : Document} {bytes : List UInt8} (hname : d.name = d'.name)
    (h : d.encode = .ok bytes) (h' : d'.encode = .ok bytes) : d = d' := by
  obtain ⟨name, root⟩ := d
  obtain ⟨name', root'⟩ := d'
  obtain rfl : name = name' := hname
  have hroot : root = root' := Tag.encode_inj h h'
  rw [hroot]

namespace Structure

variable {s s' : Structure}

/-- Two structures with the same document are one. -/
theorem document_inj {d : Document} (h : s.document = .ok d) (h' : s'.document = .ok d) :
    s = s' := by
  obtain ⟨blocks, hblocks, rfl⟩ := document_eq_ok.1 h
  obtain ⟨blocks', hblocks', heq⟩ := document_eq_ok.1 h'
  have hroot := Tag.compound.inj (Document.mk.inj heq).2
  simp only [List.cons.injEq, Prod.mk.injEq, Tag.int.injEq, Tag.list.injEq, true_and, and_true]
    at hroot
  obtain ⟨hversion, hsize, hpalette, rfl, hentities⟩ := hroot
  have hwords := wordsTag_injective hsize
  obtain ⟨⟨w, h, l⟩, palette, bs, entities, version⟩ := s
  obtain ⟨⟨w', h', l'⟩, palette', bs', entities', version'⟩ := s'
  simp only [List.cons.injEq, and_true] at hwords
  obtain ⟨rfl, rfl, rfl⟩ := hwords
  obtain rfl : version = version' := hversion
  obtain rfl := List.map_injective_iff.2 PaletteEntry.tag_injective hpalette
  obtain rfl := List.map_injective_iff.2 PlacedEntity.tag_injective hentities
  obtain rfl := blockTags_inj hblocks hblocks'
  rfl

/-- **A container says which structure it is of.** Two structures that are written as the same
bytes are the same in every part, whether a reader accepts the bytes or not. -/
theorem eq_of_encodeRaw_eq {bytes : List UInt8} (h : s.encodeRaw = .ok bytes)
    (h' : s'.encodeRaw = .ok bytes) : s = s' := by
  obtain ⟨d, hd, hencode⟩ := Outcome.bind_eq_ok.1 h
  obtain ⟨d', hd', hencode'⟩ := Outcome.bind_eq_ok.1 h'
  have hname : d.name = d'.name := (name_of_document hd).trans (name_of_document hd').symm
  obtain rfl := Document.encode_inj hname (Outcome.mapError_eq_ok.1 hencode)
    (Outcome.mapError_eq_ok.1 hencode')
  exact document_inj hd hd'

/-- One block with the given data. -/
def block (data : Option Compound) : Structure :=
  ⟨⟨1, 1, 1⟩, [⟨"stone", .empty⟩], [⟨⟨0, 0, 0⟩, 0, data⟩], [], Blueprint.dataVersion⟩

/-- The hut comes out as the same bytes in whatever order its blocks are written, and so it is the
same structure; a block without data does not come out as the bytes of one with empty data. -/
theorem eq_of_encodeRaw_eq_hut :
    (∃ s s' bytes, Plan.hut.compile none Plan.hutContext ⟨.deg90, .leftRight, true⟩ = .ok s ∧
      { Plan.hut with blocks := Plan.hut.blocks.reverse }.compile none Plan.hutContext
        ⟨.deg90, .leftRight, true⟩ = .ok s' ∧
      s.encodeRaw = .ok bytes ∧ s'.encodeRaw = .ok bytes ∧ s = s') ∧
    ∃ bytes, (block none).encodeRaw = .ok bytes ∧ (block (some [])).encodeRaw ≠ .ok bytes := by
  refine ⟨⟨_, _, _, rfl, rfl, rfl, rfl, eq_of_encodeRaw_eq rfl rfl⟩, _, rfl, fun h => ?_⟩
  have hsame : block (some []) = block none := eq_of_encodeRaw_eq h rfl
  cases hsame

end Structure

end Blueprint
