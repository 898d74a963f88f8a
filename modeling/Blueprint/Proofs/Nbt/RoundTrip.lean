import Blueprint.Proofs.Nbt.Merged
import Blueprint.Proofs.Nbt.Reader
import Blueprint.Proofs.Outcome

/-!
# Which tags are read back

The encoder writes some tags that no reader accepts: it does not count how deep tags stand,
and it writes lists of terminators. `Fits levels` describes the tags that a reader accepts
when `levels` lists and compounds may still be opened. What comes back is the tag with its
repeated keys merged, so the tag itself if it has none.
-/

namespace Blueprint.Nbt

/-! ## Tags that fit -/

namespace Tag

/-- A reader that may go `levels` deep accepts the tag. -/
def Fits (levels : Nat) (t : Tag) : Prop :=
  t.Everywhere fun d u => d < levels ∧ u.HasNoTerminators

/-- Nothing fits where no level is left. -/
theorem not_fits_zero (t : Tag) : ¬ t.Fits 0 := by
  intro h
  exact Nat.not_lt_zero 0 (h 0 t (.root t)).1

/-- A tag without tags in it needs a single level. -/
theorem fits_leaf {levels : Nat} {t : Tag} (h : t.isLeaf) : t.Fits (levels + 1) := by
  rw [Fits, everywhere_leaf h]
  refine ⟨Nat.succ_pos levels, ?_⟩
  cases t with
  | list _ _ => cases h
  | _ => trivial

/-- A list fits if its items fit one level lower, and there are none of them if they are
terminators. -/
theorem fits_list {levels : Nat} {itemType : UInt8} {items : List Tag} :
    (list itemType items).Fits (levels + 1) ↔
      (itemType = 0 → items = []) ∧ ∀ u ∈ items, u.Fits levels := by
  simp only [Fits, everywhere_list, Nat.succ_pos, true_and, Nat.add_lt_add_iff_right,
    HasNoTerminators]

/-- A compound fits if its values fit one level lower. -/
theorem fits_compound {levels : Nat} {entries : List (String × Tag)} :
    (compound entries).Fits (levels + 1) ↔ ∀ e ∈ entries, e.2.Fits levels := by
  simp only [Fits, everywhere_compound, Nat.succ_pos, true_and, Nat.add_lt_add_iff_right,
    HasNoTerminators]

/-- A document is read with as many levels as may stand below the root, and one for the root. -/
theorem fits_succ_iff {depth : Nat} {t : Tag} :
    t.Fits (depth + 1) ↔ t.Within depth ∧ t.TerminatorListsEmpty := by
  refine ⟨?_, ?_⟩
  · intro h
    exact ⟨fun d u hu => Nat.le_of_lt_succ (h d u hu).1, fun d u hu => (h d u hu).2⟩
  · rintro ⟨hdepth, hempty⟩ d u hu
    exact ⟨Nat.lt_succ_of_le (hdepth d u hu), hempty d u hu⟩

end Tag

/-! ## Readers that succeed on a condition -/

/-- On `input` the reader gives `a` and leaves `rest` if `good` holds, and finds a broken rule
of the format if it does not. -/
structure ReadsIff {α : Type} (r : Reader α) (input : List UInt8) (good : Prop) (a : α)
    (rest : List UInt8) : Prop where
  /-- the result on the condition -/
  ok : good → r.run input = .ok (a, rest)
  /-- the error without it -/
  error : ¬ good → ∃ e, r.run input = .error e ∧ e.kind = .invalidData

namespace ReadsIff

variable {α β : Type} {r : Reader α} {input mid rest : List UInt8} {p q : Prop} {a : α} {b : β}

/-- A reader that succeeds does so without a condition. -/
theorem of_ok (h : r.run input = .ok (a, rest)) : ReadsIff r input True a rest :=
  ⟨fun _ => h, fun hn => absurd trivial hn⟩

/-- A reader that finds a broken rule does so without a condition. -/
theorem of_error {e : DecodeError} (h : r.run input = .error e) (he : e.kind = .invalidData) :
    ReadsIff r input False a rest :=
  ⟨fun hf => hf.elim, fun _ => ⟨e, h, he⟩⟩

/-- A condition may be said in other words. -/
theorem congr (h : ReadsIff r input p a rest) (hpq : p ↔ q) : ReadsIff r input q a rest := by
  rwa [← hpq]

/-- A sequence succeeds if both of its parts do; the second part runs on what the first part
leaves only if that succeeds. -/
theorem bind {f : α → Reader β} (hr : ReadsIff r input p a mid)
    (hf : p → ReadsIff (f a) mid q b rest) : ReadsIff (r >>= f) input (p ∧ q) b rest := by
  refine ⟨?_, ?_⟩
  · rintro ⟨hp, hq⟩
    rw [Reader.run_bind_ok (hr.ok hp)]
    exact (hf hp).ok hq
  · intro hn
    by_cases hp : p
    · rw [Reader.run_bind_ok (hr.ok hp)]
      exact (hf hp).error fun hq => hn ⟨hp, hq⟩
    · obtain ⟨e, he, hkind⟩ := hr.error hp
      exact ⟨e, Reader.run_bind_error he, hkind⟩

/-- A reader that succeeds adds nothing to the condition. -/
theorem bind_ok {f : α → Reader β} (hr : r.run input = .ok (a, mid))
    (hf : ReadsIff (f a) mid q b rest) : ReadsIff (r >>= f) input q b rest :=
  ((of_ok hr).bind fun _ => hf).congr (iff_of_eq (true_and q))

/-- Nor does what is made of the value. -/
theorem map (g : α → β) (hr : ReadsIff r input p a rest) :
    ReadsIff (g <$> r) input p (g a) rest := by
  refine ⟨?_, ?_⟩
  · intro hp
    exact Reader.run_map_ok g (hr.ok hp)
  · intro hn
    obtain ⟨e, he, hkind⟩ := hr.error hn
    exact ⟨e, Reader.run_map_error g he, hkind⟩

end ReadsIff

/-! ## Payloads -/

namespace Reader

/-- The payload of a tag that holds no others is read back at every depth. -/
theorem payload_leaf {t : Tag} (h : t.isLeaf) {written : List UInt8}
    (hw : Encode.payload t = .ok written) (fuel levels : Nat) (rest : List UInt8) :
    (payload fuel (levels + 1) t.typeId).run (written ++ rest) = .ok (t, rest) := by
  cases t with
  | list _ _ => cases h
  | compound _ => cases h
  | terminator =>
    obtain rfl := Except.ok.inj hw
    rfl
  -- a word is the bits of a number, and the number is made of the same bits again
  | byte v =>
    obtain rfl := Except.ok.inj hw
    exact word_value v.toUInt8.toNat_lt (congrArg Tag.byte (toInt8_ofNat_toNat v)) rest
  | short v =>
    obtain rfl := Except.ok.inj hw
    exact word_value v.toUInt16.toNat_lt (congrArg Tag.short (toInt16_ofNat_toNat v)) rest
  | int v =>
    obtain rfl := Except.ok.inj hw
    exact word_value v.toUInt32.toNat_lt (congrArg Tag.int (toInt32_ofNat_toNat v)) rest
  | long v =>
    obtain rfl := Except.ok.inj hw
    exact word_value v.toUInt64.toNat_lt (congrArg Tag.long (toInt64_ofNat_toNat v)) rest
  | float v =>
    obtain rfl := Except.ok.inj hw
    have hvalue : (⟨UInt32.ofNat v.bits.toNat⟩ : Binary32) = v := by rw [UInt32.ofNat_toNat]
    exact word_value v.bits.toNat_lt (congrArg Tag.float hvalue) rest
  | double v =>
    obtain rfl := Except.ok.inj hw
    have hvalue : (⟨UInt64.ofNat v.bits.toNat⟩ : Binary64) = v := by rw [UInt64.ofNat_toNat]
    exact word_value v.bits.toNat_lt (congrArg Tag.double hvalue) rest
  -- an array is its length and the words of its items
  | byteArray v =>
    exact run_map_ok _ (array_encode _ (fun x => x.toUInt8.toNat_lt) toInt8_ofNat_toNat hw rest)
  | string v => exact run_map_ok _ (string_encode hw rest)
  | intArray v =>
    exact run_map_ok _ (array_encode _ (fun x => x.toUInt32.toNat_lt) toInt32_ofNat_toNat hw rest)
  | longArray v =>
    exact run_map_ok _ (array_encode _ (fun x => x.toUInt64.toNat_lt) toInt64_ofNat_toNat hw rest)

/-- Items are read back one after another if each of them is. -/
theorem replicate_payloads {item : Reader Tag} {good : Tag → Prop} {image : Tag → Tag}
    {items : List Tag} {written : List UInt8} (hw : Encode.payloads items = .ok written)
    (hitem : ∀ u ∈ items, ∀ part, Encode.payload u = .ok part → part.length ≤ written.length →
      ∀ rest, ReadsIff item (part ++ rest) (good u) (image u) rest)
    (rest : List UInt8) :
    ReadsIff (replicate item items.length) (written ++ rest) (∀ u ∈ items, good u)
      (items.map image) rest := by
  induction items generalizing written with
  | nil =>
    obtain rfl := Except.ok.inj hw
    exact (ReadsIff.of_ok rfl).congr (by simp)
  | cons u items ih =>
    obtain ⟨first, more, hfirst, hmore, rfl⟩ := Encode.payloads_cons_eq_ok.1 hw
    have hu := hitem u List.mem_cons_self first hfirst (by simp) (more ++ rest)
    have hrec := ih hmore fun v hv part hpart hlen =>
      hitem v (List.mem_cons_of_mem u hv) part hpart (by rw [List.length_append]; omega)
    rw [List.append_assoc, List.length_cons, replicate]
    refine (hu.bind fun _ => hrec.bind fun _ => ReadsIff.of_ok rfl).congr ?_
    rw [and_true, List.forall_mem_cons]

/-- Entries are read back one after another and inserted into those read before. -/
theorem entries_namedPayloads {value : UInt8 → Reader Tag} {good : Tag → Prop}
    {image : Tag → Tag} {written : List (String × Tag)} {body : List UInt8}
    (hw : Encode.namedPayloads written = .ok body)
    (hvalue : ∀ e ∈ written, ∀ part, Encode.payload e.2 = .ok part → part.length ≤ body.length →
      ∀ rest, ReadsIff (value e.2.typeId) (part ++ rest) (good e.2) (image e.2) rest)
    {fuel : Nat} (hfuel : body.length < fuel) (read : Compound) (rest : List UInt8) :
    ReadsIff (entries value fuel read) (body ++ 0 :: rest) (∀ e ∈ written, good e.2)
      (Compound.insertAll read (written.map fun e => (e.1, image e.2))) rest := by
  induction written generalizing body fuel read with
  | nil =>
    obtain rfl := Except.ok.inj hw
    obtain ⟨fuel, rfl⟩ := Nat.exists_eq_add_one.2 (Nat.zero_lt_of_lt hfuel)
    rw [List.nil_append, entries]
    exact (ReadsIff.of_ok (run_bind_ok (byte_cons 0 rest))).congr (by simp)
  | cons e written ih =>
    obtain ⟨key, tag⟩ := e
    obtain ⟨htype, name, first, more, hname, hfirst, hmore, rfl⟩ :=
      Encode.namedPayloads_cons_eq_ok.1 hw
    simp only [List.length_cons, List.length_append] at hfuel hvalue
    obtain ⟨fuel, rfl⟩ := Nat.exists_eq_add_one.2 (Nat.zero_lt_of_lt hfuel)
    -- the entry is no longer than all of them, so its value is read back
    have htag := hvalue (key, tag) List.mem_cons_self first hfirst (by omega) (more ++ 0 :: rest)
    have hrec := ih hmore (fun e he part hpart hlen =>
      hvalue e (List.mem_cons_of_mem _ he) part hpart (by omega)) (show more.length < fuel by omega)
      (Compound.insert key (image tag) read)
    rw [List.cons_append, List.append_assoc, List.append_assoc, entries]
    refine ReadsIff.congr (ReadsIff.bind_ok (byte_cons tag.typeId _) ?_) List.forall_mem_cons.symm
    simp only [if_neg htype]
    refine ReadsIff.bind_ok (string_encode hname _) ?_
    exact htag.bind fun _ => hrec

/-! ## Payloads of all tags -/

/-- A list is read by its type and its count, and has no terminators in it. -/
theorem payload_list (fuel levels : Nat) :
    payload fuel (levels + 1) 9 = (do
      let itemType ← byte
      let n ← length .list
      if itemType = 0 ∧ 0 < n then throw .terminatorList
      .list itemType <$> replicate (payload fuel levels itemType) n) := rfl

/-- A compound is read entry by entry. -/
theorem payload_compound (fuel levels : Nat) :
    payload fuel (levels + 1) 10 = .compound <$> entries (payload fuel levels) fuel [] := rfl

/-- Where no level is left nothing is read. -/
theorem payload_zero (fuel : Nat) (type : UInt8) (t u : Tag) (input rest : List UInt8) :
    ReadsIff (payload fuel 0 type) input (t.Fits 0) u rest :=
  (ReadsIff.of_error rfl rfl).congr (iff_of_false id t.not_fits_zero)

/-- **Payloads are read back** exactly as far as they fit, with repeated keys merged. -/
theorem payload_encode {fuel : Nat} (t : Tag) :
    ∀ (levels : Nat) {written : List UInt8},
      Encode.payload t = .ok written → written.length ≤ fuel → ∀ rest : List UInt8,
        ReadsIff (payload fuel levels t.typeId) (written ++ rest) (t.Fits levels) t.merged
          rest := by
  -- items and values are read one level further down, and what is written after them is still
  -- unread then, so the levels and the rest vary in the induction
  induction t using Tag.nested_induction with
  | leaf t hleaf =>
    intro levels written hw _ rest
    cases levels with
    | zero => exact payload_zero fuel _ t _ _ rest
    | succ levels =>
      rw [Tag.merged_leaf hleaf]
      exact (ReadsIff.of_ok (payload_leaf hleaf hw fuel levels rest)).congr
        (iff_of_true trivial (Tag.fits_leaf hleaf))
  | list itemType items ih =>
    intro levels written hw hfuel rest
    cases levels with
    | zero => exact payload_zero fuel _ _ _ _ rest
    | succ levels =>
      obtain ⟨htypes, header, body, hheader, hbody, rfl⟩ := Encode.payload_list_eq_ok.1 hw
      have hitems := replicate_payloads hbody (fun u hu part hpart hlen =>
        htypes u hu ▸ ih u hu levels hpart (by grind)) rest
      rw [show Tag.typeId (.list itemType items) = 9 from rfl, payload_list, List.cons_append,
        List.append_assoc, Tag.merged_list]
      refine ReadsIff.congr ?_ Tag.fits_list.symm
      refine ReadsIff.bind_ok (byte_cons itemType _) ?_
      refine ReadsIff.bind_ok (length_encode .list hheader _) ?_
      by_cases hterm : itemType = 0 ∧ 0 < items.length
      · rw [if_pos hterm]
        refine (ReadsIff.of_error rfl rfl).congr (iff_of_false id fun hfits => ?_)
        exact List.ne_nil_of_length_pos hterm.2 (hfits.1 hterm.1)
      · rw [if_neg hterm]
        refine (hitems.map (Tag.list itemType)).congr ((and_iff_right fun hzero => ?_).symm)
        exact List.eq_nil_of_length_eq_zero (by grind)
  | compound entries ih =>
    intro levels written hw hfuel rest
    cases levels with
    | zero => exact payload_zero fuel _ _ _ _ rest
    | succ levels =>
      obtain ⟨body, hbody, rfl⟩ := Encode.payload_compound_eq_ok.1 hw
      -- the end marker is the byte that leaves fuel for one more round than there are entries
      rw [List.length_append, List.length_singleton] at hfuel
      have hentries := entries_namedPayloads hbody (fun e he part hpart hlen =>
        ih e he levels hpart (by omega)) (show body.length < fuel by omega) [] rest
      rw [show Tag.typeId (.compound entries) = 10 from rfl, payload_compound, List.append_assoc,
        Tag.merged_compound]
      refine ReadsIff.congr ?_ Tag.fits_compound.symm
      exact hentries.map Tag.compound

end Reader

/-! ## Whole tags -/

namespace Tag

/-- A terminator is read without a name. -/
theorem read_terminator (rest : List UInt8) :
    read.run (0 :: rest) = .ok (("", terminator), rest) := by
  rw [read, Reader.run_bind_ok rfl, Reader.run_bind_ok (Reader.byte_cons 0 rest), if_pos rfl]
  rfl

/-- A tag that was written is read, with repeated keys merged, if it fits below the root. -/
theorem read_encode_merged {t : Tag} {name : String} {written : List UInt8}
    (hname : t = .terminator → name = "") (hw : t.encode name = .ok written)
    (rest : List UInt8) :
    ReadsIff read (written ++ rest) (t.Within maxDepth ∧ t.TerminatorListsEmpty)
      (name, t.merged) rest := by
  refine ReadsIff.congr ?_ fits_succ_iff
  by_cases hterm : t = .terminator
  · subst hterm
    obtain rfl := hname rfl
    rw [encode_terminator] at hw
    obtain rfl := Except.ok.inj hw
    exact (ReadsIff.of_ok (read_terminator rest)).congr (iff_of_true trivial (fits_leaf rfl))
  · obtain ⟨header, body, hheader, hbody, rfl⟩ := (encode_eq_ok hterm).1 hw
    have htype : t.typeId ≠ 0 := mt typeId_eq_zero_iff.1 hterm
    rw [read]
    refine ReadsIff.bind_ok rfl ?_
    -- the fuel counts the bytes that are split up below, so it is hidden first
    generalize hfuel : (t.typeId :: (header ++ body) ++ rest).length + 1 = fuel
    have hpayload := Reader.payload_encode t (maxDepth + 1) hbody
      (show body.length ≤ fuel by grind) rest
    rw [List.cons_append, List.append_assoc]
    refine ReadsIff.bind_ok (Reader.byte_cons t.typeId _) ?_
    simp only [if_neg htype]
    refine ReadsIff.bind_ok (Reader.string_encode hheader _) ?_
    have hpair := ReadsIff.of_ok (Reader.run_pure (name, t.merged) rest)
    exact (hpayload.bind fun _ => hpair).congr (and_iff_left trivial)

/-- A tag without repeated keys is read back as it was. -/
theorem read_encode {t : Tag} {name : String} {written : List UInt8} (hkeys : t.KeysDistinct)
    (hname : t = .terminator → name = "") (hw : t.encode name = .ok written)
    (rest : List UInt8) :
    ReadsIff read (written ++ rest) (t.Within maxDepth ∧ t.TerminatorListsEmpty) (name, t)
      rest := by
  have h := read_encode_merged hname hw rest
  rwa [merged_of_keysDistinct hkeys] at h

/-- **The round trip of tags.** What was written, with anything after it, is read back with
nothing of the rest exactly if no reader has to go deeper than it may and no list of
terminators has items. Otherwise the reader finds a broken rule. -/
theorem read_written_iff {t : Tag} {name : String} {written : List UInt8}
    (hkeys : t.KeysDistinct) (hname : t = .terminator → name = "")
    (hw : t.encode name = .ok written) (rest : List UInt8) :
    (read.run (written ++ rest) = .ok ((name, t), rest) ↔
      t.Within maxDepth ∧ t.TerminatorListsEmpty) ∧
    (¬ (t.Within maxDepth ∧ t.TerminatorListsEmpty) →
      ∃ e, read.run (written ++ rest) = .error e ∧ e.kind = .invalidData) := by
  have h := read_encode hkeys hname hw rest
  exact ⟨Outcome.eq_ok_iff h.ok h.error, h.error⟩

/-- A compound with a list in it, and a byte after it that is none of its own. -/
theorem read_written_iff_nested :
    let t := compound [("a", list 3 [int 7, int (-2)]), ("b", byte 1)]
    let written := [10, 0, 1, 114, 9, 0, 1, 97, 3, 0, 0, 0, 2, 0, 0, 0, 7, 255, 255, 255, 254,
      1, 0, 1, 98, 1, 0]
    t.KeysDistinct ∧ t.encode "r" = .ok written ∧
      (read.run (written ++ [9]) = .ok (("r", t), [9]) ↔
        t.Within maxDepth ∧ t.TerminatorListsEmpty) := by
  intro t written
  have hint (v : Int32) : (int v).KeysDistinct := keysDistinct_leaf rfl
  have hbyte (v : Int8) : (byte v).KeysDistinct := keysDistinct_leaf rfl
  have hkeys : t.KeysDistinct := by
    refine keysDistinct_compound.2 ⟨by simp [Compound.keys], ?_⟩
    simp [keysDistinct_list, hint, hbyte]
  have hwritten : t.encode "r" = .ok written := by rfl
  have hname : t = .terminator → "r" = "" := fun h => absurd h (by simp [t])
  exact ⟨hkeys, hwritten, (read_written_iff hkeys hname hwritten [9]).1⟩

end Tag

end Blueprint.Nbt
