import Blueprint.Proofs.Nbt.RoundTrip

/-!
# Written tags are told apart

What is written for a tag says where it ends and which tag it is, also for tags that no reader
accepts: those that are too deep, that repeat a key, or that hold terminators. So the reader
cannot be used to tell such tags apart, and the bytes are compared part by part.
-/

namespace Blueprint.Nbt

/-! ## Tags by their types -/

namespace Tag

/-- Only lists and compounds hold other tags. -/
theorem isLeaf_iff (t : Tag) : t.isLeaf ↔ t.typeId ≠ 9 ∧ t.typeId ≠ 10 := by
  cases t <;> simp [isLeaf, typeId]

/-- A tag with the type of a list is one. -/
theorem exists_eq_list {t : Tag} (h : t.typeId = 9) :
    ∃ itemType items, t = list itemType items := by
  cases t with
  | list itemType items => exact ⟨itemType, items, rfl⟩
  | _ => cases h

/-- A tag with the type of a compound is one. -/
theorem exists_eq_compound {t : Tag} (h : t.typeId = 10) : ∃ entries, t = compound entries := by
  cases t with
  | compound entries => exact ⟨entries, rfl⟩
  | _ => cases h

end Tag

/-! ## Payloads -/

namespace Encode

variable {x y r s : List UInt8}

/-- Two texts are not written alike, whatever follows them. -/
theorem string_append_inj {a b : String} (ha : string a = .ok x) (hb : string b = .ok y)
    (h : x ++ r = y ++ s) : a = b ∧ r = s := by
  have hread := Reader.string_encode ha r
  rw [h, Reader.string_encode hb s] at hread
  obtain ⟨rfl, rfl⟩ := Prod.mk.inj (Except.ok.inj hread)
  exact ⟨rfl, rfl⟩

/-- Nor are two counts. -/
theorem length_append_inj {m n : Nat} (hm : length m = .ok x) (hn : length n = .ok y)
    (h : x ++ r = y ++ s) : m = n ∧ r = s := by
  have hread := Reader.length_encode .list hm r
  rw [h, Reader.length_encode .list hn s] at hread
  obtain ⟨rfl, rfl⟩ := Prod.mk.inj (Except.ok.inj hread)
  exact ⟨rfl, rfl⟩

/-- The payload of `t` is told from what follows it and from all others of its type. -/
def Unmistaken (t : Tag) : Prop :=
  ∀ {u : Tag} {x y r s : List UInt8}, t.typeId = u.typeId → payload t = .ok x →
    payload u = .ok y → x ++ r = y ++ s → t = u ∧ r = s

/-- Nor are as many items of one type, if their payloads are not. -/
theorem payloads_append_inj {items items' : List Tag} (hitems : ∀ t ∈ items, Unmistaken t)
    (hlength : items.length = items'.length) {type : UInt8}
    (htypes : ∀ t ∈ items, t.typeId = type) (htypes' : ∀ t ∈ items', t.typeId = type)
    (hx : payloads items = .ok x) (hy : payloads items' = .ok y) (h : x ++ r = y ++ s) :
    items = items' ∧ r = s := by
  induction items generalizing items' x y with
  | nil =>
    obtain rfl := List.length_eq_zero_iff.1 hlength.symm
    obtain rfl := Except.ok.inj hx
    obtain rfl := Except.ok.inj hy
    exact ⟨rfl, h⟩
  | cons t items ih =>
    cases items' with
    | nil => cases hlength
    | cons t' items' =>
      obtain ⟨front, back, hfront, hback, rfl⟩ := payloads_cons_eq_ok.1 hx
      obtain ⟨front', back', hfront', hback', rfl⟩ := payloads_cons_eq_ok.1 hy
      obtain ⟨ht, hmore⟩ := List.forall_mem_cons.1 hitems
      obtain ⟨htype, hsame⟩ := List.forall_mem_cons.1 htypes
      obtain ⟨htype', hsame'⟩ := List.forall_mem_cons.1 htypes'
      rw [List.append_assoc, List.append_assoc] at h
      -- equal items leave equal rests, which the other items are compared on
      obtain ⟨rfl, hrest⟩ := ht (htype.trans htype'.symm) hfront hfront' h
      obtain ⟨rfl, hend⟩ := ih hmore (Nat.succ.inj hlength) hsame hsame' hback hback' hrest
      exact ⟨rfl, hend⟩

/-- Nor are entries up to the end of a compound, if their values are not. -/
theorem namedPayloads_append_inj {entries entries' : List (String × Tag)}
    (hvalues : ∀ e ∈ entries, Unmistaken e.2) (hx : namedPayloads entries = .ok x)
    (hy : namedPayloads entries' = .ok y) (h : x ++ 0 :: r = y ++ 0 :: s) :
    entries = entries' ∧ r = s := by
  induction entries generalizing entries' x y with
  | nil =>
    obtain rfl := Except.ok.inj hx
    cases entries' with
    | nil =>
      obtain rfl := Except.ok.inj hy
      exact ⟨rfl, List.tail_eq_of_cons_eq h⟩
    -- an entry never starts with the byte that ends a compound
    | cons e' entries' =>
      obtain ⟨htype, name, value, rest, -, -, -, rfl⟩ := namedPayloads_cons_eq_ok.1 hy
      exact absurd (List.head_eq_of_cons_eq h).symm htype
  | cons e entries ih =>
    obtain ⟨htype, name, value, rest, hname, hvalue, hrest, rfl⟩ := namedPayloads_cons_eq_ok.1 hx
    cases entries' with
    | nil =>
      obtain rfl := Except.ok.inj hy
      exact absurd (List.head_eq_of_cons_eq h) htype
    | cons e' entries' =>
      obtain ⟨-, name', value', rest', hname', hvalue', hrest', rfl⟩ :=
        namedPayloads_cons_eq_ok.1 hy
      obtain ⟨ht, hvalues⟩ := List.forall_mem_cons.1 hvalues
      simp only [List.cons_append, List.append_assoc] at h
      obtain ⟨hkey, h'⟩ := string_append_inj hname hname' (List.tail_eq_of_cons_eq h)
      obtain ⟨htag, h'⟩ := ht (List.head_eq_of_cons_eq h) hvalue hvalue' h'
      obtain ⟨rfl, h'⟩ := ih hvalues hrest hrest' h'
      exact ⟨by rw [Prod.ext hkey htag], h'⟩

/-- **Payloads are told apart.** Two tags of one type with the same payload at the front of
the same bytes are the same, whether a reader accepts them or not. -/
theorem payload_unmistaken (t : Tag) : Unmistaken t := by
  induction t using Tag.nested_induction with
  | leaf t hleaf =>
    intro u x y r s htype hx hy h
    -- leaves are what their bytes read as, and the bytes are the same
    have huleaf : u.isLeaf := by
      rw [Tag.isLeaf_iff, ← htype, ← Tag.isLeaf_iff]
      exact hleaf
    have hread := Reader.payload_leaf hleaf hx 0 0 r
    rw [h, htype, Reader.payload_leaf huleaf hy 0 0 s] at hread
    obtain ⟨rfl, rfl⟩ := Prod.mk.inj (Except.ok.inj hread)
    exact ⟨rfl, rfl⟩
  | list itemType items ih =>
    intro u x y r s htype hx hy h
    obtain ⟨itemType', items', rfl⟩ := Tag.exists_eq_list htype.symm
    obtain ⟨htypes, header, body, hheader, hbody, rfl⟩ := payload_list_eq_ok.1 hx
    obtain ⟨htypes', header', body', hheader', hbody', rfl⟩ := payload_list_eq_ok.1 hy
    simp only [List.cons_append, List.append_assoc] at h
    -- the item type and the length say how to cut the bytes into items
    obtain rfl := List.head_eq_of_cons_eq h
    obtain ⟨hlength, h'⟩ := length_append_inj hheader hheader' (List.tail_eq_of_cons_eq h)
    obtain ⟨rfl, h'⟩ := payloads_append_inj ih hlength htypes htypes' hbody hbody' h'
    exact ⟨rfl, h'⟩
  | compound entries ih =>
    intro u x y r s htype hx hy h
    obtain ⟨entries', rfl⟩ := Tag.exists_eq_compound htype.symm
    obtain ⟨body, hbody, rfl⟩ := payload_compound_eq_ok.1 hx
    obtain ⟨body', hbody', rfl⟩ := payload_compound_eq_ok.1 hy
    simp only [List.append_assoc, List.singleton_append] at h
    obtain ⟨rfl, h'⟩ := namedPayloads_append_inj ih hbody hbody' h
    exact ⟨rfl, h'⟩

end Encode

/-! ## Whole tags -/

namespace Tag

/-- Under one name no two tags are written as the same bytes. -/
theorem encode_inj {t u : Tag} {name : String} {written : List UInt8}
    (ht : t.encode name = .ok written) (hu : u.encode name = .ok written) : t = u := by
  by_cases hterm : t = .terminator
  · subst hterm
    rw [encode_terminator] at ht
    obtain rfl := Except.ok.inj ht
    by_contra hne
    obtain ⟨header, body, -, -, heq⟩ := (encode_eq_ok (Ne.symm hne)).1 hu
    exact hne (typeId_eq_zero_iff.1 (List.head_eq_of_cons_eq heq).symm).symm
  · obtain ⟨header, body, hheader, hbody, rfl⟩ := (encode_eq_ok hterm).1 ht
    have huterm : u ≠ .terminator := by
      rintro rfl
      rw [encode_terminator] at hu
      have hzero := List.head_eq_of_cons_eq (Except.ok.inj hu)
      exact hterm (typeId_eq_zero_iff.1 hzero.symm)
    obtain ⟨header', body', hheader', hbody', heq⟩ := (encode_eq_ok huterm).1 hu
    obtain rfl := Except.ok.inj (hheader.symm.trans hheader')
    have hsame := List.append_cancel_left (List.tail_eq_of_cons_eq heq)
    have happend : body ++ [] = body' ++ [] := by rw [hsame]
    exact (Encode.payload_unmistaken t (List.head_eq_of_cons_eq heq) hbody hbody' happend).1

end Tag

end Blueprint.Nbt
