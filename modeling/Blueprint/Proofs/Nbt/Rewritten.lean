import Blueprint.Proofs.Nbt.Document
import Blueprint.Proofs.Nbt.Spelled
import Blueprint.Proofs.Nbt.Unmistaken

/-!
# Documents that are written again

A document that was read can always be written, in no more bytes than it was read from. It
comes out as those bytes exactly if they repeat no key in a compound: a repeated key is
written once, with its last value in its first place.

The same bytes inside a stream give the same document, except for bytes after the root: as
they are they are refused, and in a stream they are not looked at.
-/

namespace Blueprint.Nbt

/-! ## Merged tags are written -/

/-- Merging does not change the type of a tag. -/
theorem Tag.typeId_merged (t : Tag) : t.merged.typeId = t.typeId := by
  cases t <;> rfl

namespace Encode

/-- The entry takes the place of one with its key, or comes after all of them. -/
theorem namedPayloads_insert {key : String} {tag : Tag} {c : Compound} {x y : List UInt8}
    (hc : namedPayloads c = .ok x) (he : namedPayloads [(key, tag)] = .ok y) :
    ∃ z, namedPayloads (Compound.insert key tag c) = .ok z ∧ z.length ≤ x.length + y.length := by
  induction c generalizing x with
  | nil => exact ⟨y, he, Nat.le_add_left _ _⟩
  | cons e c ih =>
    obtain ⟨htype, name, value, rest, hname, hvalue, hrest, rfl⟩ := namedPayloads_cons_eq_ok.1 hc
    rw [Compound.insert]
    split
    case isTrue =>
      obtain ⟨htype', name', value', rest', hname', hvalue', hend, rfl⟩ :=
        namedPayloads_cons_eq_ok.1 he
      refine ⟨_, namedPayloads_cons_eq_ok.2
        ⟨htype', name', value', rest, hname', hvalue', hrest, rfl⟩, ?_⟩
      simp only [List.length_cons, List.length_append]
      omega
    case isFalse =>
      obtain ⟨z, hz, hlength⟩ := ih hrest
      refine ⟨_, namedPayloads_cons_eq_ok.2 ⟨htype, name, value, z, hname, hvalue, hz, rfl⟩, ?_⟩
      simp only [List.length_cons, List.length_append]
      omega

/-- To insert entries into others takes no more bytes than both of them. -/
theorem namedPayloads_insertAll {c : Compound} {extra : List (String × Tag)} {x y : List UInt8}
    (hc : namedPayloads c = .ok x) (hextra : namedPayloads extra = .ok y) :
    ∃ z, namedPayloads (Compound.insertAll c extra) = .ok z ∧
      z.length ≤ x.length + y.length := by
  induction extra generalizing c x y with
  | nil => exact ⟨x, hc, Nat.le_add_right _ _⟩
  | cons e extra ih =>
    obtain ⟨htype, name, value, rest, hname, hvalue, hrest, rfl⟩ :=
      namedPayloads_cons_eq_ok.1 hextra
    have hone : namedPayloads [e] = .ok (e.2.typeId :: (name ++ value ++ [])) :=
      namedPayloads_cons_eq_ok.2 ⟨htype, name, value, [], hname, hvalue, rfl, rfl⟩
    obtain ⟨z, hz, hlength⟩ := namedPayloads_insert hc hone
    obtain ⟨z', hz', hlength'⟩ := ih hz hrest
    refine ⟨z', hz', ?_⟩
    simp only [List.length_cons, List.length_append, List.length_nil] at hlength ⊢
    omega

/-- Where the payload of `t` is written, that of `t` merged is written in no more bytes. -/
def Rewritable (t : Tag) : Prop :=
  ∀ {written : List UInt8}, payload t = .ok written →
    ∃ again, payload t.merged = .ok again ∧ again.length ≤ written.length

/-- Merged items take no more bytes than the items. -/
theorem payloads_merged {items : List Tag} (hitems : ∀ u ∈ items, Rewritable u)
    {body : List UInt8} (hbody : payloads items = .ok body) :
    ∃ again, payloads (items.map Tag.merged) = .ok again ∧ again.length ≤ body.length := by
  induction items generalizing body with
  | nil => exact ⟨[], rfl, Nat.zero_le _⟩
  | cons u items ih =>
    obtain ⟨hu, hmore⟩ := List.forall_mem_cons.1 hitems
    obtain ⟨front, back, hfront, hback, rfl⟩ := payloads_cons_eq_ok.1 hbody
    obtain ⟨front', hfront', hle⟩ := hu hfront
    obtain ⟨back', hback', hle'⟩ := ih hmore hback
    refine ⟨front' ++ back', payloads_cons_eq_ok.2 ⟨_, _, hfront', hback', rfl⟩, ?_⟩
    rw [List.length_append, List.length_append]
    omega

/-- Nor do merged values with their keys. -/
theorem namedPayloads_merged {entries : List (String × Tag)}
    (hvalues : ∀ e ∈ entries, Rewritable e.2) {body : List UInt8}
    (hbody : namedPayloads entries = .ok body) :
    ∃ again, namedPayloads (entries.map fun e => (e.1, e.2.merged)) = .ok again ∧
      again.length ≤ body.length := by
  induction entries generalizing body with
  | nil => exact ⟨[], rfl, Nat.zero_le _⟩
  | cons e entries ih =>
    obtain ⟨he, hmore⟩ := List.forall_mem_cons.1 hvalues
    obtain ⟨htype, name, value, rest, hname, hvalue, hrest, rfl⟩ :=
      namedPayloads_cons_eq_ok.1 hbody
    obtain ⟨value', hvalue', hle⟩ := he hvalue
    obtain ⟨rest', hrest', hle'⟩ := ih hmore hrest
    rw [← Tag.typeId_merged] at htype
    refine ⟨_, namedPayloads_cons_eq_ok.2
      ⟨htype, name, value', rest', hname, hvalue', hrest', rfl⟩, ?_⟩
    simp only [List.length_cons, List.length_append]
    omega

/-- **Merged payloads are written** in no more bytes. -/
theorem payload_merged (t : Tag) : Rewritable t := by
  induction t using Tag.nested_induction with
  | leaf t hleaf =>
    intro written hw
    rw [Tag.merged_leaf hleaf]
    exact ⟨written, hw, Nat.le_refl _⟩
  | list itemType items ih =>
    intro written hw
    obtain ⟨htypes, header, body, hheader, hbody, rfl⟩ := payload_list_eq_ok.1 hw
    -- the items keep their number, and none of them is longer than before
    obtain ⟨again, hagain, hle⟩ := payloads_merged ih hbody
    have htypes' : ∀ u ∈ items.map Tag.merged, u.typeId = itemType := by
      refine List.forall_mem_map.2 fun u hu => ?_
      rw [Tag.typeId_merged, htypes u hu]
    rw [← List.length_map Tag.merged] at hheader
    rw [Tag.merged_list]
    refine ⟨_, payload_list_eq_ok.2 ⟨htypes', header, again, hheader, hagain, rfl⟩, ?_⟩
    simp only [List.length_cons, List.length_append]
    omega
  | compound entries ih =>
    intro written hw
    obtain ⟨body, hbody, rfl⟩ := payload_compound_eq_ok.1 hw
    obtain ⟨again, hagain, hle⟩ := namedPayloads_merged ih hbody
    have hnone : namedPayloads [] = .ok [] := rfl
    -- a repeated key takes the place of the first one, so the entries never grow
    obtain ⟨z, hz, hle'⟩ := namedPayloads_insertAll hnone hagain
    rw [Tag.merged_compound]
    refine ⟨z ++ [0], payload_compound_eq_ok.2 ⟨z, hz, rfl⟩, ?_⟩
    simp only [List.length_append, List.length_nil] at hle' ⊢
    omega

end Encode

namespace Tag

/-- Only a terminator is merged into one. -/
theorem merged_eq_terminator_iff {t : Tag} : t.merged = terminator ↔ t = terminator := by
  rw [← typeId_eq_zero_iff, typeId_merged, typeId_eq_zero_iff]

/-- A tag that is written is written in no more bytes once it is merged. -/
theorem encode_merged {t : Tag} {name : String} {written : List UInt8}
    (hw : t.encode name = .ok written) :
    ∃ again, t.merged.encode name = .ok again ∧ again.length ≤ written.length := by
  by_cases hterm : t = terminator
  · subst hterm
    exact ⟨written, hw, Nat.le_refl _⟩
  · obtain ⟨header, body, hheader, hbody, rfl⟩ := (encode_eq_ok hterm).1 hw
    obtain ⟨again, hagain, hle⟩ := Encode.payload_merged t hbody
    have hterm' : t.merged ≠ terminator := mt merged_eq_terminator_iff.1 hterm
    refine ⟨_, (encode_eq_ok hterm').2 ⟨header, again, hheader, hagain, rfl⟩, ?_⟩
    simp only [List.length_cons, List.length_append]
    omega

/-- **A tag that was read is spelled** by the bytes that were taken for it. -/
theorem read_spelled {input rest : List UInt8} {name : String} {t : Tag}
    (h : read.run input = .ok ((name, t), rest)) :
    ∃ (spelled : Tag) (front : List UInt8), spelled.encode name = .ok front ∧ spelled.merged = t ∧
      input = front ++ rest := by
  rw [read_run] at h
  obtain ⟨type, mid, htype, hmore⟩ := Reader.run_bind_eq_ok.1 h
  obtain rfl := Reader.byte_eq_ok.1 htype
  by_cases hzero : type = 0
  · rw [if_pos hzero] at hmore
    obtain ⟨hpair, rfl⟩ := Prod.mk.inj (Except.ok.inj hmore)
    obtain ⟨rfl, rfl⟩ := Prod.mk.inj hpair
    exact ⟨terminator, [0], rfl, rfl, by rw [hzero, List.singleton_append]⟩
  · simp only [if_neg hzero] at hmore
    obtain ⟨name, mid', hname, hpayload⟩ := Reader.run_bind_eq_ok.1 hmore
    obtain ⟨u, mid'', hu, hend⟩ := Reader.run_bind_eq_ok.1 hpayload
    obtain ⟨hpair, rfl⟩ := Prod.mk.inj (Except.ok.inj hend)
    obtain ⟨rfl, rfl⟩ := Prod.mk.inj hpair
    obtain ⟨header, hheader, rfl⟩ := Reader.string_eq_ok.1 hname
    obtain ⟨spelled, body, rfl, hbody, hmerged, rfl⟩ := Reader.payload_spelled _ hu
    have hterm : spelled ≠ terminator := mt typeId_eq_zero_iff.2 hzero
    refine ⟨spelled, _, (encode_eq_ok hterm).2 ⟨header, body, hheader, hbody, rfl⟩, hmerged, ?_⟩
    rw [List.cons_append, List.append_assoc]

end Tag

/-! ## Documents -/

namespace Document

/-- Bytes that are no stream are a document if they are one to their last byte. -/
theorem ofBytes_eq_ok_iff {bytes : List UInt8} {d : Document}
    (hplain : Gzip.magic.isPrefixOf bytes = false) :
    ofBytes bytes = .ok d ↔ read bytes = .ok (d, []) := by
  rw [ofBytes, hplain]
  rcases read bytes with e | ⟨d', _ | ⟨b, rest⟩⟩ <;> simp

/-- **Writing a document again.** The bytes of a document spell one tag, and the root is that
tag merged. The document can be written, in no more bytes than it had, and in the same bytes
exactly if that tag repeats no key in a compound. -/
theorem encode_eq_bytes_iff {bytes : List UInt8} {d : Document}
    (hplain : Gzip.magic.isPrefixOf bytes = false) (h : ofBytes bytes = .ok d) :
    ∃ spelled : Tag, (∀ t : Tag, t.encode d.name = .ok bytes ↔ t = spelled) ∧
      d.root = spelled.merged ∧
      ∃ written, d.encode = .ok written ∧ written.length ≤ bytes.length ∧
        (written = bytes ↔ spelled.KeysDistinct) := by
  have hread := read_eq_ok.1 ((ofBytes_eq_ok_iff hplain).1 h)
  obtain ⟨spelled, front, hspelled, hmerged, hfront⟩ := Tag.read_spelled hread
  -- nothing is left behind the root, so the bytes read are all of them
  obtain rfl : bytes = front := by rw [hfront, List.append_nil]
  obtain ⟨written, hwritten, hle⟩ := Tag.encode_merged hspelled
  rw [hmerged] at hwritten
  refine ⟨spelled, ?_, hmerged.symm, written, hwritten, hle, ?_⟩
  · intro t
    refine ⟨?_, ?_⟩
    · intro ht
      exact Tag.encode_inj ht hspelled
    · rintro rfl
      exact hspelled
  -- the root is as spelled just when the merge changes nothing
  · rw [← Tag.merged_eq_self_iff, hmerged]
    refine ⟨?_, ?_⟩
    · rintro rfl
      exact Tag.encode_inj hwritten hspelled
    · intro heq
      rw [heq] at hwritten
      exact Except.ok.inj (hwritten.symm.trans hspelled)

/-- A compound with two entries for one key: the tag that its bytes spell, what was read from
them, and that writing it does not give them. -/
theorem encode_eq_bytes_iff_repeated :
    let spelled := Tag.compound [("a", .byte 1), ("a", .byte 2)]
    let bytes : List UInt8 := [10, 0, 0, 1, 0, 1, 97, 1, 1, 0, 1, 97, 2, 0]
    ofBytes bytes = .ok ⟨"", .compound [("a", .byte 2)]⟩ ∧
      .compound [("a", .byte 2)] = spelled.merged ∧
      ∃ written, Tag.encode "" (.compound [("a", .byte 2)]) = .ok written ∧
        written.length ≤ bytes.length ∧ (written = bytes ↔ spelled.KeysDistinct) := by
  intro spelled bytes
  have hbytes : ofBytes bytes = .ok ⟨"", .compound [("a", .byte 2)]⟩ := by rfl
  have hspelled : spelled.encode "" = .ok bytes := by
    simp only [spelled, bytes]
    rfl
  obtain ⟨t, hunique, hroot, hwritten⟩ := encode_eq_bytes_iff rfl hbytes
  obtain rfl := (hunique spelled).1 hspelled
  exact ⟨hbytes, hroot, hwritten⟩

/-- Bytes that are read and not written again. -/
theorem exists_encode_ne_bytes :
    ∃ bytes d, Gzip.magic.isPrefixOf bytes = false ∧ ofBytes bytes = .ok d ∧
      d.encode ≠ .ok bytes := by
  refine ⟨[10, 0, 0, 1, 0, 1, 97, 1, 1, 0, 1, 97, 2, 0], ⟨"", .compound [("a", .byte 2)]⟩,
    rfl, by rfl, ?_⟩
  have hshort : encode ⟨"", .compound [("a", .byte 2)]⟩ = .ok [10, 0, 0, 1, 0, 1, 97, 2, 0] := by
    rfl
  rw [hshort]
  intro h
  cases h

/-! ## Documents inside streams -/

/-- **Streams and plain bytes.** The same bytes inside a stream and outside of any give the
same document or the same error exactly if nothing follows the root. A root with bytes after
it is a document inside a stream, and is refused outside. -/
theorem ofBytes_stream_eq_iff {bytes stream : List UInt8}
    (hplain : Gzip.magic.isPrefixOf bytes = false)
    (hstream : Gzip.content? stream = some ⟨bytes, true⟩) :
    (ofBytes stream = ofBytes bytes ↔ ¬ ∃ d b rest, read bytes = .ok (d, b :: rest)) ∧
      ∀ d b rest, read bytes = .ok (d, b :: rest) →
        ofBytes stream = .ok d ∧ ofBytes bytes = .error .trailingBytes := by
  rw [ofBytes_of_content? hstream, ofBytes, hplain]
  -- a tree cannot be read, ends with the bytes, or leaves some of them
  rcases hread : read bytes with e | ⟨d, _ | ⟨b, rest⟩⟩
  · refine ⟨iff_of_true rfl ?_, ?_⟩
    · rintro ⟨d, b, rest, h⟩
      cases h
    · intro d b rest h
      cases h
  · refine ⟨iff_of_true rfl ?_, ?_⟩
    · rintro ⟨d, b, rest, h⟩
      cases h
    · intro d b rest h
      cases h
  · refine ⟨iff_of_false ?_ fun hnone => hnone ⟨d, b, rest, rfl⟩, ?_⟩
    · intro h
      cases h
    · intro d' b' rest' h
      obtain ⟨rfl, -⟩ := Prod.mk.inj (Except.ok.inj h)
      exact ⟨rfl, rfl⟩

/-- An empty compound, with a byte after it and without. -/
theorem ofBytes_stream_eq_iff_compound :
    let root : List UInt8 := [10, 0, 0, 0]
    ofBytes (Gzip.compress root) = ofBytes root ∧
      ofBytes (Gzip.compress (root ++ [0])) = .ok ⟨"", .compound []⟩ ∧
      ofBytes (root ++ [0]) = .error .trailingBytes := by
  intro root
  have hroot : read root = .ok (⟨"", .compound []⟩, []) := by rfl
  have hmore : read (root ++ [0]) = .ok (⟨"", .compound []⟩, [0]) := by rfl
  refine ⟨(ofBytes_stream_eq_iff rfl (Gzip.content?_compress root)).1.2 ?_,
    (ofBytes_stream_eq_iff rfl (Gzip.content?_compress (root ++ [0]))).2 _ _ _ hmore⟩
  rintro ⟨d, b, rest, h⟩
  rw [hroot] at h
  cases h

/-- Bytes and a stream of them that are not accepted alike. -/
theorem exists_ofBytes_stream_ne :
    ∃ bytes stream, Gzip.magic.isPrefixOf bytes = false ∧
      Gzip.content? stream = some ⟨bytes, true⟩ ∧
      ofBytes stream = .ok ⟨"", .compound []⟩ ∧ ofBytes bytes = .error .trailingBytes := by
  refine ⟨[10, 0, 0, 0, 0], Gzip.compress [10, 0, 0, 0, 0], rfl, Gzip.content?_compress _, ?_,
    by rfl⟩
  rw [ofBytes_compress]
  rfl

end Document

end Blueprint.Nbt
