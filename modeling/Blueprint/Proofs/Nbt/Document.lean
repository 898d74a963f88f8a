import Blueprint.Proofs.Gzip
import Blueprint.Proofs.Nbt.Decoded
import Blueprint.Template

/-!
# Documents that are read back

A document inside a stream is the document as it is, since the stream is opened to the bytes
that were put into it. So what is known of tags holds of documents, with the name of the root
and with a stream around it.
-/

namespace Blueprint.Nbt

namespace Document

/-- A document inside a stream is read as it is, and what follows it is not looked at. -/
theorem ofBytes_of_content? {stream raw : List UInt8}
    (h : Gzip.content? stream = some ⟨raw, true⟩) : ofBytes stream = Prod.fst <$> read raw := by
  rw [ofBytes, if_pos (Gzip.magic_isPrefixOf_of_content? h), ofGzip, h]
  dsimp only
  rcases read raw with e | ⟨d, rest⟩
  · cases e <;> rfl
  · rfl

/-- What was compressed is read as it was before. -/
theorem ofBytes_compress (raw : List UInt8) :
    ofBytes (Gzip.compress raw) = Prod.fst <$> read raw :=
  ofBytes_of_content? (Gzip.content?_compress raw)

/-- A document is read as its tag is, with the name of the tag. -/
theorem read_eq_ok {input rest : List UInt8} {d : Document} :
    read input = .ok (d, rest) ↔ Tag.read.run input = .ok ((d.name, d.root), rest) := by
  simp only [read, Outcome.bind_eq_ok, Outcome.pure_eq_ok]
  refine ⟨?_, ?_⟩
  · rintro ⟨⟨⟨name, root⟩, rest⟩, h, heq⟩
    obtain ⟨rfl, rfl⟩ := Prod.mk.inj heq
    exact h
  · intro h
    exact ⟨((d.name, d.root), rest), h, rfl⟩

/-- And it fails as its tag does. -/
theorem read_eq_error {input : List UInt8} {e : DecodeError}
    (h : Tag.read.run input = .error e) : read input = .error e := by
  rw [read, h]
  rfl

/-- A document that was read stands at the front of some bytes. -/
theorem exists_read_of_ofBytes {bytes : List UInt8} {d : Document} (h : ofBytes bytes = .ok d) :
    ∃ input rest, Tag.read.run input = .ok ((d.name, d.root), rest) := by
  rw [ofBytes] at h
  split at h
  case isTrue =>
    rw [ofGzip] at h
    split at h
    case h_1 => cases h
    case h_2 content hcontent =>
      split at h
      case h_1 d' rest hread =>
        obtain rfl := Except.ok.inj h
        exact ⟨content.bytes, rest, read_eq_ok.1 hread⟩
      case h_2 => cases h
      case h_3 => cases h
  case isFalse =>
    split at h
    case h_1 d' hread =>
      obtain rfl := Except.ok.inj h
      exact ⟨bytes, [], read_eq_ok.1 hread⟩
    case h_2 => cases h
    case h_3 => cases h

/-- **Stored documents are read back** exactly if they fit below the root. -/
theorem ofBytes_encode {d : Document} {raw : List UInt8} (hkeys : d.root.KeysDistinct)
    (hname : d.root = .terminator → d.name = "") (hraw : d.encode = .ok raw) :
    (d.root.Fits (maxDepth + 1) → ofBytes (Gzip.compress raw) = .ok d) ∧
      (¬ d.root.Fits (maxDepth + 1) →
        ∃ e, ofBytes (Gzip.compress raw) = .error e ∧ e.kind = .invalidData) := by
  have hread := (Tag.read_encode hkeys hname hraw []).congr Tag.fits_succ_iff.symm
  rw [List.append_nil] at hread
  rw [ofBytes_compress]
  refine ⟨?_, ?_⟩
  · intro hfits
    rw [read_eq_ok.2 (hread.ok hfits)]
    rfl
  · intro hdeep
    obtain ⟨e, he, hkind⟩ := hread.error hdeep
    exact ⟨e, by rw [read_eq_error he]; rfl, hkind⟩

end Document

end Blueprint.Nbt

namespace Blueprint.Template

open Nbt

/-! ## Payloads of templates -/

/-- What is in a wrapper is as sound as the wrapper. -/
theorem sound_unwrap {root : Compound} (h : (Tag.compound root).Sound) :
    (Tag.compound (unwrap root)).Sound := by
  unfold unwrap
  split
  next inner =>
    exact (Tag.sound_compound.1 h).2 ("template", .compound inner) List.mem_cons_self
  next => exact h

/-- A template file is a document whose root is a compound. -/
theorem payload_eq_ok {bytes : List UInt8} {c : Compound} :
    payload bytes = .ok c ↔
      ∃ d root, Document.ofBytes bytes = .ok d ∧ d.root = .compound root ∧ c = unwrap root := by
  rw [payload]
  cases Document.ofBytes bytes with
  | error e => simp
  | ok d =>
    obtain ⟨name, root⟩ := d
    cases root with
    | compound entries => simp [Tag.compound?, @eq_comm _ c]
    | _ => simp [Tag.compound?]

/-- What a template file gives can be written without loss. -/
theorem sound_payload {bytes : List UInt8} {c : Compound} (h : payload bytes = .ok c) :
    (Tag.compound c).Sound := by
  obtain ⟨d, root, hd, hroot, rfl⟩ := payload_eq_ok.1 h
  obtain ⟨input, rest, hread⟩ := Document.exists_read_of_ofBytes hd
  obtain ⟨hfits, hkeys⟩ := Tag.read_fits hread
  rw [hroot] at hfits hkeys
  exact sound_unwrap ⟨hkeys, (Tag.fits_succ_iff.1 hfits).2⟩

end Blueprint.Template
