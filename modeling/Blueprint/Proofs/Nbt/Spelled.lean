import Blueprint.Proofs.Nbt.Delimited

/-!
# What bytes spell

Every reader is undone by its writer: what was taken for a value is what is written for that
value. Only compounds are an exception, since a key that comes again replaces its first value.
So the bytes taken for a tag are those of a tag that has all the entries as they came, and the
tag that was read is that one merged.
-/

namespace Blueprint.Nbt

namespace Reader

variable {α : Type}

/-! ## Signed numbers by their words -/

/-- The number of a byte is written as it was read. -/
theorem toNat_toInt8_ofNat {n : Nat} (h : n < 1 <<< (8 * 1)) :
    (UInt8.ofNat n).toInt8.toUInt8.toNat = n := by
  rw [UInt8.toUInt8_toInt8, UInt8.toNat_ofNat']
  exact Nat.mod_eq_of_lt h

/-- So is that of a short. -/
theorem toNat_toInt16_ofNat {n : Nat} (h : n < 1 <<< (8 * 2)) :
    (UInt16.ofNat n).toInt16.toUInt16.toNat = n := by
  rw [UInt16.toUInt16_toInt16, UInt16.toNat_ofNat']
  exact Nat.mod_eq_of_lt h

/-- So is that of a word. -/
theorem toNat_toInt32_ofNat {n : Nat} (h : n < 1 <<< (8 * 4)) :
    (UInt32.ofNat n).toInt32.toUInt32.toNat = n := by
  rw [UInt32.toUInt32_toInt32, UInt32.toNat_ofNat']
  exact Nat.mod_eq_of_lt h

/-- And so is that of a long one. -/
theorem toNat_toInt64_ofNat {n : Nat} (h : n < 1 <<< (8 * 8)) :
    (UInt64.ofNat n).toInt64.toUInt64.toNat = n := by
  rw [UInt64.toUInt64_toInt64, UInt64.toNat_ofNat']
  exact Nat.mod_eq_of_lt h

/-! ## Single values -/

/-- Some bytes are read exactly where there are as many. -/
theorem bytes_eq_ok {n : Nat} {input front rest : List UInt8} :
    (bytes n).run input = .ok (front, rest) ↔ input = front ++ rest ∧ front.length = n := by
  refine ⟨?_, ?_⟩
  · intro h
    rcases hsplit : splitExact n input with _ | result
    · simp only [bytes, StateT.run, hsplit] at h
      cases h
    · simp only [bytes, StateT.run, hsplit] at h
      obtain rfl := Except.ok.inj h
      exact splitExact_eq_some hsplit
  · rintro ⟨rfl, rfl⟩
    exact bytes_append front rest

/-- The number that was read fits its bytes, and they are written for it. -/
theorem word_eq_ok {width n : Nat} {input rest : List UInt8} :
    (word width).run input = .ok (n, rest) ↔
      n < 1 <<< (8 * width) ∧ input = BigEndian.encode width n ++ rest := by
  refine ⟨?_, ?_⟩
  · intro h
    obtain ⟨front, hfront, rfl⟩ := run_map_eq_ok.1 h
    obtain ⟨rfl, rfl⟩ := bytes_eq_ok.1 hfront
    rw [BigEndian.encode_decode]
    exact ⟨BigEndian.decode_lt front, rfl⟩
  · rintro ⟨hlt, rfl⟩
    exact word_encode hlt rest

/-- A text has the bytes it was made of. -/
theorem utf8_of_fromUTF8? {text : List UInt8} {s : String}
    (h : String.fromUTF8? ⟨text.toArray⟩ = some s) : Encode.utf8 s = text := by
  rw [String.fromUTF8?] at h
  split at h
  case isTrue hvalid =>
    obtain rfl := Option.some.inj h
    rfl
  case isFalse => cases h

/-- A text is read exactly where it is written. -/
theorem string_eq_ok {s : String} {input rest : List UInt8} :
    string.run input = .ok (s, rest) ↔
      ∃ written, Encode.string s = .ok written ∧ input = written ++ rest := by
  refine ⟨?_, ?_⟩
  · intro h
    obtain ⟨n, mid, hn, hmore⟩ := run_bind_eq_ok.1 h
    obtain ⟨text, mid', htext, hend⟩ := run_bind_eq_ok.1 hmore
    obtain ⟨hlt, hinput⟩ := word_eq_ok.1 hn
    obtain ⟨hmid, hlength⟩ := bytes_eq_ok.1 htext
    rcases hs : String.fromUTF8? ⟨text.toArray⟩ with _ | s'
    · rw [hs] at hend
      cases hend
    · rw [hs] at hend
      obtain ⟨rfl, rfl⟩ := Prod.mk.inj (Except.ok.inj hend)
      have hbytes := utf8_of_fromUTF8? hs
      rw [← hlength, ← hbytes] at hlt
      refine ⟨_, Encode.string_eq_ok.2 ⟨hlt, rfl⟩, ?_⟩
      rw [hinput, hmid, hbytes, hlength, List.append_assoc]
  · rintro ⟨written, hw, rfl⟩
    exact string_encode hw rest

/-- A length that is not below zero is its word, and has the highest bit clear. -/
theorem toNat_of_not_neg {n : Nat} (hlt : n < 1 <<< (8 * 4))
    (hneg : ¬ (UInt32.ofNat n).toInt32 < 0) :
    (UInt32.ofNat n).toInt32.toInt.toNat = n ∧ n < 0x80000000 := by
  have hword : n < 4294967296 := hlt
  rw [UInt32.toInt32_ofNat'] at hneg ⊢
  by_cases hn : n < 0x80000000
  · rw [Int32.toInt_ofNat_of_lt hn]
    exact ⟨Int.toNat_natCast n, hn⟩
  · have hsize : Int32.size = 4294967296 := rfl
    rw [Int32.lt_iff_toInt_lt, Int32.toInt_zero, Int32.toInt_ofNat', hsize, Int.bmod_def] at hneg
    split at hneg <;> omega

/-- A count is read exactly where it is written. -/
theorem length_eq_ok {what : Counted} {n : Nat} {input rest : List UInt8} :
    (length what).run input = .ok (n, rest) ↔
      ∃ written, Encode.length n = .ok written ∧ input = written ++ rest := by
  refine ⟨?_, ?_⟩
  · intro h
    obtain ⟨word, mid, hword, hmore⟩ := run_bind_eq_ok.1 h
    obtain ⟨hlt, hinput⟩ := word_eq_ok.1 hword
    dsimp only at hmore
    by_cases hneg : (UInt32.ofNat word).toInt32 < 0
    · rw [if_pos hneg] at hmore
      cases hmore
    · rw [if_neg hneg] at hmore
      obtain ⟨rfl, rfl⟩ := Prod.mk.inj (Except.ok.inj hmore)
      obtain ⟨hvalue, hn⟩ := toNat_of_not_neg hlt hneg
      rw [hvalue]
      exact ⟨_, Encode.length_eq_ok.2 ⟨hn, rfl⟩, hinput⟩
  · rintro ⟨written, hw, rfl⟩
    exact length_encode what hw rest

/-- Numbers that were read one after another are written as their bytes. -/
theorem replicate_word {width : Nat} {ofNat : Nat → α} {toNat : α → Nat}
    (hvalue : ∀ {n}, n < 1 <<< (8 * width) → toNat (ofNat n) = n) {n : Nat}
    {input rest : List UInt8} {values : List α}
    (h : (replicate (ofNat <$> word width) n).run input = .ok (values, rest)) :
    values.length = n ∧
      input = (values.flatMap fun x => BigEndian.encode width (toNat x)) ++ rest := by
  induction n generalizing input values with
  | zero =>
    obtain ⟨rfl, rfl⟩ := Prod.mk.inj (Except.ok.inj h)
    exact ⟨rfl, rfl⟩
  | succ n ih =>
    obtain ⟨first, mid, hfirst, hmore⟩ := run_bind_eq_ok.1 h
    obtain ⟨values, mid', hvalues, hend⟩ := run_bind_eq_ok.1 hmore
    obtain ⟨rfl, rfl⟩ := Prod.mk.inj (Except.ok.inj hend)
    obtain ⟨number, hnumber, rfl⟩ := run_map_eq_ok.1 hfirst
    obtain ⟨hlt, hinput⟩ := word_eq_ok.1 hnumber
    obtain ⟨hlength, hmid⟩ := ih hvalues
    rw [List.length_cons, hlength, List.flatMap_cons, hvalue hlt, List.append_assoc, ← hmid]
    exact ⟨rfl, hinput⟩

/-- An array that was read is written as its bytes. -/
theorem array_spelled {what : Counted} {width : Nat} {ofNat : Nat → α} {toNat : α → Nat}
    {values : List α} {input rest : List UInt8}
    (h : (array what width ofNat).run input = .ok (values, rest))
    (hvalue : ∀ {n}, n < 1 <<< (8 * width) → toNat (ofNat n) = n) :
    ∃ written, Encode.array width toNat values = .ok written ∧ input = written ++ rest := by
  obtain ⟨n, mid, hn, hvalues⟩ := run_bind_eq_ok.1 h
  obtain ⟨header, hheader, hinput⟩ := length_eq_ok.1 hn
  obtain ⟨rfl, hmid⟩ := replicate_word hvalue hvalues
  refine ⟨_, Encode.array_eq_ok.2 ⟨header, hheader, rfl⟩, ?_⟩
  rw [hinput, hmid, List.append_assoc]

/-! ## Payloads -/

/-- The bytes between `input` and `rest` are the payload of a tag of the type, and that tag
merged is `t`. -/
def Spells (type : UInt8) (input rest : List UInt8) (t : Tag) : Prop :=
  ∃ spelled front, spelled.typeId = type ∧ Encode.payload spelled = .ok front ∧
    spelled.merged = t ∧ input = front ++ rest

/-- A tag that holds no others is spelled by what is written for it. -/
theorem Spells.leaf {type : UInt8} {input front rest : List UInt8} {t : Tag} (hleaf : t.isLeaf)
    (htype : t.typeId = type) (hw : Encode.payload t = .ok front) (hinput : input = front ++ rest) :
    Spells type input rest t :=
  ⟨t, front, htype, hw, Tag.merged_leaf hleaf, hinput⟩

/-- A number that was read is spelled by its word. -/
theorem spells_word {type : UInt8} {width : Nat} {make : Nat → Tag} {input rest : List UInt8}
    {t : Tag} (h : (make <$> word width).run input = .ok (t, rest))
    (hleaf : ∀ n, (make n).isLeaf) (htype : ∀ n, (make n).typeId = type)
    (hw : ∀ {n}, n < 1 <<< (8 * width) →
      Encode.payload (make n) = .ok (BigEndian.encode width n)) :
    Spells type input rest t := by
  obtain ⟨n, hn, rfl⟩ := run_map_eq_ok.1 h
  obtain ⟨hlt, hinput⟩ := word_eq_ok.1 hn
  exact .leaf (hleaf n) (htype n) (hw hlt) hinput

/-- An array that was read is spelled by its length and its words. -/
theorem spells_array {type : UInt8} {what : Counted} {width : Nat} {ofNat : Nat → α}
    {toNat : α → Nat} {make : List α → Tag} {input rest : List UInt8} {t : Tag}
    (h : (make <$> array what width ofNat).run input = .ok (t, rest))
    (hleaf : ∀ v, (make v).isLeaf) (htype : ∀ v, (make v).typeId = type)
    (hw : ∀ v, Encode.payload (make v) = Encode.array width toNat v)
    (hvalue : ∀ {n}, n < 1 <<< (8 * width) → toNat (ofNat n) = n) : Spells type input rest t := by
  obtain ⟨v, hv, rfl⟩ := run_map_eq_ok.1 h
  obtain ⟨front, hfront, hinput⟩ := array_spelled hv hvalue
  exact .leaf (hleaf v) (htype v) ((hw v).trans hfront) hinput

/-- Items are spelled one after another if each of them is. -/
theorem replicate_spelled {item : Reader Tag} {type : UInt8}
    (hitem : ∀ {input rest t}, item.run input = .ok (t, rest) → Spells type input rest t) {n : Nat}
    {input rest : List UInt8} {items : List Tag}
    (h : (replicate item n).run input = .ok (items, rest)) :
    ∃ spelled body, spelled.length = n ∧ (∀ u ∈ spelled, u.typeId = type) ∧
      Encode.payloads spelled = .ok body ∧ spelled.map Tag.merged = items ∧
      input = body ++ rest := by
  induction n generalizing input items with
  | zero =>
    obtain ⟨rfl, rfl⟩ := Prod.mk.inj (Except.ok.inj h)
    exact ⟨[], [], rfl, fun u hu => absurd hu List.not_mem_nil, rfl, rfl, rfl⟩
  | succ n ih =>
    obtain ⟨first, mid, hfirst, hmore⟩ := run_bind_eq_ok.1 h
    obtain ⟨items, mid', hitems, hend⟩ := run_bind_eq_ok.1 hmore
    obtain ⟨rfl, rfl⟩ := Prod.mk.inj (Except.ok.inj hend)
    obtain ⟨u, front, hu, hfront, rfl, rfl⟩ := hitem hfirst
    obtain ⟨spelled, body, rfl, htypes, hbody, rfl, rfl⟩ := ih hitems
    refine ⟨u :: spelled, front ++ body, rfl, List.forall_mem_cons.2 ⟨hu, htypes⟩, ?_, rfl, ?_⟩
    · exact Encode.payloads_cons_eq_ok.2 ⟨front, body, hfront, hbody, rfl⟩
    · exact (List.append_assoc front body _).symm

/-- Entries are spelled as they come, up to the terminator, and inserted in that order. -/
theorem entries_spelled {value : UInt8 → Reader Tag}
    (hvalue : ∀ {type input rest t}, (value type).run input = .ok (t, rest) →
      Spells type input rest t) {fuel : Nat} {read c : Compound} {input rest : List UInt8}
    (h : (entries value fuel read).run input = .ok (c, rest)) :
    ∃ spelled body, Encode.namedPayloads spelled = .ok body ∧
      Compound.insertAll read (spelled.map fun e => (e.1, e.2.merged)) = c ∧
      input = body ++ 0 :: rest := by
  induction fuel generalizing read input with
  | zero => cases h
  | succ fuel ih =>
    obtain ⟨type, mid, htype, hround⟩ := run_bind_eq_ok.1 h
    obtain rfl := byte_eq_ok.1 htype
    by_cases hzero : type = 0
    · rw [if_pos hzero] at hround
      obtain ⟨rfl, rfl⟩ := Prod.mk.inj (Except.ok.inj hround)
      -- the byte that ends the compound is the first behind the entries
      exact ⟨[], [], rfl, rfl, by rw [hzero, List.nil_append]⟩
    · simp only [if_neg hzero] at hround
      obtain ⟨key, mid', hkey, hmore⟩ := run_bind_eq_ok.1 hround
      obtain ⟨t, mid'', ht, hrest⟩ := run_bind_eq_ok.1 hmore
      obtain ⟨name, hname, rfl⟩ := string_eq_ok.1 hkey
      -- the value is spelled by what the reader took for it
      obtain ⟨u, front, rfl, hfront, rfl, rfl⟩ := hvalue ht
      obtain ⟨spelled, body, hbody, rfl, rfl⟩ := ih hrest
      refine ⟨(key, u) :: spelled, _, Encode.namedPayloads_cons_eq_ok.2
        ⟨hzero, name, front, body, hname, hfront, hbody, rfl⟩, rfl, ?_⟩
      simp only [List.cons_append, List.append_assoc]

/-- **What was read for a payload is spelled by it.** -/
theorem payload_spelled {fuel : Nat} (levels : Nat) {type : UInt8} {input rest : List UInt8}
    {t : Tag} (h : (payload fuel levels type).run input = .ok (t, rest)) :
    Spells type input rest t := by
  -- the tag is only known once it is read, so the induction is on the levels
  induction levels generalizing type input rest t with
  | zero => cases h
  | succ levels ih =>
    rw [payload] at h
    split at h
    case h_1 heq =>
      obtain ⟨rfl, rfl⟩ := Prod.mk.inj (Except.ok.inj h)
      exact .leaf rfl (UInt8.toNat_inj.1 heq.symm) rfl rfl
    case h_2 heq =>
      refine spells_word h (fun _ => rfl) (fun _ => UInt8.toNat_inj.1 heq.symm) fun hlt => ?_
      rw [Encode.payload, toNat_toInt8_ofNat hlt]
    case h_3 heq =>
      refine spells_word h (fun _ => rfl) (fun _ => UInt8.toNat_inj.1 heq.symm) fun hlt => ?_
      rw [Encode.payload, toNat_toInt16_ofNat hlt]
    case h_4 heq =>
      refine spells_word h (fun _ => rfl) (fun _ => UInt8.toNat_inj.1 heq.symm) fun hlt => ?_
      rw [Encode.payload, toNat_toInt32_ofNat hlt]
    case h_5 heq =>
      refine spells_word h (fun _ => rfl) (fun _ => UInt8.toNat_inj.1 heq.symm) fun hlt => ?_
      rw [Encode.payload, toNat_toInt64_ofNat hlt]
    case h_6 heq =>
      refine spells_word h (fun _ => rfl) (fun _ => UInt8.toNat_inj.1 heq.symm) fun hlt => ?_
      rw [Encode.payload, UInt32.toNat_ofNat_of_lt' hlt]
    case h_7 heq =>
      refine spells_word h (fun _ => rfl) (fun _ => UInt8.toNat_inj.1 heq.symm) fun hlt => ?_
      rw [Encode.payload, UInt64.toNat_ofNat_of_lt' hlt]
    case h_8 heq =>
      exact spells_array h (fun _ => rfl) (fun _ => UInt8.toNat_inj.1 heq.symm) (fun _ => rfl)
        toNat_toInt8_ofNat
    case h_9 heq =>
      obtain ⟨v, hv, rfl⟩ := run_map_eq_ok.1 h
      obtain ⟨front, hfront, hinput⟩ := string_eq_ok.1 hv
      exact .leaf rfl (UInt8.toNat_inj.1 heq.symm) hfront hinput
    case h_10 heq =>
      obtain ⟨itemType, mid, hitemType, hmore⟩ := run_bind_eq_ok.1 h
      obtain ⟨n, mid', hn, hlist⟩ := run_bind_eq_ok.1 hmore
      obtain rfl := byte_eq_ok.1 hitemType
      obtain ⟨header, hheader, rfl⟩ := length_eq_ok.1 hn
      by_cases hbad : itemType = 0 ∧ 0 < n
      · rw [if_pos hbad] at hlist
        cases hlist
      · simp only [if_neg hbad] at hlist
        obtain ⟨items, hitems, rfl⟩ := run_map_eq_ok.1 hlist
        obtain ⟨spelled, body, rfl, htypes, hbody, rfl, rfl⟩ := replicate_spelled ih hitems
        refine ⟨.list itemType spelled, _, UInt8.toNat_inj.1 heq.symm,
          Encode.payload_list_eq_ok.2 ⟨htypes, header, body, hheader, hbody, rfl⟩,
          Tag.merged_list itemType spelled, ?_⟩
        rw [List.cons_append, List.append_assoc]
    case h_11 heq =>
      obtain ⟨c, hc, rfl⟩ := run_map_eq_ok.1 h
      obtain ⟨spelled, body, hbody, rfl, rfl⟩ := entries_spelled ih hc
      refine ⟨.compound spelled, _, UInt8.toNat_inj.1 heq.symm,
        Encode.payload_compound_eq_ok.2 ⟨body, hbody, rfl⟩, Tag.merged_compound spelled, ?_⟩
      rw [List.append_assoc, List.singleton_append]
    case h_12 heq =>
      exact spells_array h (fun _ => rfl) (fun _ => UInt8.toNat_inj.1 heq.symm) (fun _ => rfl)
        toNat_toInt32_ofNat
    case h_13 heq =>
      exact spells_array h (fun _ => rfl) (fun _ => UInt8.toNat_inj.1 heq.symm) (fun _ => rfl)
        toNat_toInt64_ofNat
    case h_14 => cases h

end Reader

end Blueprint.Nbt
