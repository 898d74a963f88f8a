import Blueprint.Nbt.Encode
import Blueprint.Proofs.Outcome

/-!
# What is written

The encoder refuses a few tags. These lemmas say of each step when it succeeds and which
bytes it then gives, so that no later proof has to open the encoder.
-/

namespace Blueprint.Nbt.Encode

/-- A text is written as its length in bytes and the bytes, if the length fits a short. -/
theorem string_eq_ok {s : String} {written : List UInt8} :
    string s = .ok written ↔
      (utf8 s).length < UInt16.size ∧
        written = BigEndian.encode 2 (utf8 s).length ++ utf8 s := by
  by_cases hlt : (utf8 s).length < UInt16.size
  · simp only [string, hlt, if_true, true_and]
    rw [Except.ok.injEq, eq_comm]
  · simp only [string, hlt, if_false, false_and, reduceCtorEq]

/-- A count is written if it fits a signed word. -/
theorem length_eq_ok {n : Nat} {written : List UInt8} :
    length n = .ok written ↔ n < 0x80000000 ∧ written = BigEndian.encode 4 n := by
  by_cases hlt : n < 0x80000000
  · simp only [length, hlt, if_true, true_and]
    rw [Except.ok.injEq, eq_comm]
  · simp only [length, hlt, if_false, false_and, reduceCtorEq]

/-- An array is written as its count and its values one after another. -/
theorem array_eq_ok {α : Type} {width : Nat} {toNat : α → Nat} {v : List α}
    {written : List UInt8} :
    array width toNat v = .ok written ↔
      ∃ header, length v.length = .ok header ∧
        written = header ++ v.flatMap fun x => BigEndian.encode width (toNat x) := by
  simp only [array, Outcome.bind_eq_ok, Outcome.pure_eq_ok, @eq_comm _ written]

/-- A list is written if all its items are of its type, as the type, the count and the items. -/
theorem payload_list_eq_ok {itemType : UInt8} {items : List Tag} {written : List UInt8} :
    payload (.list itemType items) = .ok written ↔
      (∀ u ∈ items, u.typeId = itemType) ∧ ∃ header body, length items.length = .ok header ∧
        payloads items = .ok body ∧ written = itemType :: (header ++ body) := by
  rw [payload]
  rcases hfind : items.find? fun item => item.typeId != itemType with _ | u
  · have hall : ∀ u ∈ items, u.typeId = itemType := by simpa using hfind
    simp only [hfind, Outcome.bind_eq_ok, Outcome.pure_eq_ok]
    refine ⟨?_, ?_⟩
    · rintro ⟨header, hheader, body, hbody, rfl⟩
      exact ⟨hall, header, body, hheader, hbody, rfl⟩
    · rintro ⟨-, header, body, hheader, hbody, rfl⟩
      exact ⟨header, hheader, body, hbody, rfl⟩
  · have hne : u.typeId ≠ itemType := by simpa using List.find?_some hfind
    have hmem := List.mem_of_find?_eq_some hfind
    simp only [hfind]
    refine ⟨?_, ?_⟩
    · intro h
      cases h
    · rintro ⟨hall, -⟩
      exact absurd (hall u hmem) hne

/-- A compound is written as its entries, and a zero byte that ends them. -/
theorem payload_compound_eq_ok {entries : List (String × Tag)} {written : List UInt8} :
    payload (.compound entries) = .ok written ↔
      ∃ body, namedPayloads entries = .ok body ∧ written = body ++ [0] := by
  simp only [payload, Outcome.bind_eq_ok, Outcome.pure_eq_ok, @eq_comm _ written]

/-- Payloads are written one after another, and all of them or none. -/
theorem payloads_cons_eq_ok {u : Tag} {items : List Tag} {written : List UInt8} :
    payloads (u :: items) = .ok written ↔
      ∃ first rest, payload u = .ok first ∧ payloads items = .ok rest ∧
        written = first ++ rest := by
  rw [payloads]
  simp only [Outcome.bind_eq_ok, Outcome.pure_eq_ok]
  refine ⟨?_, ?_⟩
  · rintro ⟨first, hfirst, rest, hrest, rfl⟩
    exact ⟨first, rest, hfirst, hrest, rfl⟩
  · rintro ⟨first, rest, hfirst, hrest, rfl⟩
    exact ⟨first, hfirst, rest, hrest, rfl⟩

/-- An entry is written as the type of its value, its name and the payload, and no value is a
terminator. -/
theorem namedPayloads_cons_eq_ok {key : String} {tag : Tag} {entries : List (String × Tag)}
    {written : List UInt8} :
    namedPayloads ((key, tag) :: entries) = .ok written ↔
      tag.typeId ≠ 0 ∧ ∃ name value rest, string key = .ok name ∧ payload tag = .ok value ∧
        namedPayloads entries = .ok rest ∧
        written = tag.typeId :: (name ++ value ++ rest) := by
  rw [namedPayloads]
  by_cases htype : tag.typeId = 0
  · rw [if_pos htype]
    refine ⟨?_, ?_⟩
    · intro h
      cases h
    · rintro ⟨hne, -⟩
      exact absurd htype hne
  · rw [if_neg htype]
    simp only [Outcome.bind_eq_ok, Outcome.pure_eq_ok]
    refine ⟨?_, ?_⟩
    · rintro ⟨name, hname, value, hvalue, rest, hrest, rfl⟩
      exact ⟨htype, name, value, rest, hname, hvalue, hrest, rfl⟩
    · rintro ⟨-, name, value, rest, hname, hvalue, hrest, rfl⟩
      exact ⟨name, hname, value, hvalue, rest, hrest, rfl⟩

/-! ## Tags that can be written -/

/-- The payload of the tag can be written. -/
def Writable (t : Tag) : Prop := ∃ written, payload t = .ok written

/-- A list can be written exactly if its count fits, and all items are of its type and can be
written. -/
theorem writable_list {itemType : UInt8} {items : List Tag} :
    Writable (.list itemType items) ↔ items.length < 0x80000000 ∧
      ∀ u ∈ items, u.typeId = itemType ∧ Writable u := by
  -- the induction is over the items, whose payloads stand one behind another
  have hpayloads (items : List Tag) :
      (∃ body, payloads items = .ok body) ↔ ∀ u ∈ items, Writable u := by
    induction items with
    | nil => exact iff_of_true ⟨[], rfl⟩ (fun u hu => absurd hu List.not_mem_nil)
    | cons u items ih =>
      rw [List.forall_mem_cons, ← ih]
      refine ⟨?_, ?_⟩
      · rintro ⟨body, hbody⟩
        obtain ⟨first, rest, hfirst, hrest, -⟩ := payloads_cons_eq_ok.1 hbody
        exact ⟨⟨first, hfirst⟩, rest, hrest⟩
      · rintro ⟨⟨first, hfirst⟩, rest, hrest⟩
        exact ⟨_, payloads_cons_eq_ok.2 ⟨first, rest, hfirst, hrest, rfl⟩⟩
  refine ⟨?_, ?_⟩
  · rintro ⟨written, hw⟩
    obtain ⟨htypes, header, body, hheader, hbody, -⟩ := payload_list_eq_ok.1 hw
    exact ⟨(length_eq_ok.1 hheader).1, fun u hu =>
      ⟨htypes u hu, (hpayloads items).1 ⟨body, hbody⟩ u hu⟩⟩
  · rintro ⟨hlt, hitems⟩
    obtain ⟨body, hbody⟩ := (hpayloads items).2 fun u hu => (hitems u hu).2
    exact ⟨_, payload_list_eq_ok.2 ⟨fun u hu => (hitems u hu).1, _, body,
      length_eq_ok.2 ⟨hlt, rfl⟩, hbody, rfl⟩⟩

/-- A compound can be written exactly if no value is a terminator, no key is long and every value
can be written. -/
theorem writable_compound {entries : List (String × Tag)} :
    Writable (.compound entries) ↔ ∀ e ∈ entries,
      e.2.typeId ≠ 0 ∧ (utf8 e.1).length < UInt16.size ∧ Writable e.2 := by
  have hnamed : (∃ body, namedPayloads entries = .ok body) ↔ ∀ e ∈ entries,
      e.2.typeId ≠ 0 ∧ (utf8 e.1).length < UInt16.size ∧ Writable e.2 := by
    induction entries with
    | nil => exact iff_of_true ⟨[], rfl⟩ (fun e he => absurd he List.not_mem_nil)
    | cons e entries ih =>
      rw [List.forall_mem_cons, ← ih]
      refine ⟨?_, ?_⟩
      · rintro ⟨body, hbody⟩
        obtain ⟨htype, name, value, rest, hname, hvalue, hrest, -⟩ :=
          namedPayloads_cons_eq_ok.1 hbody
        exact ⟨⟨htype, (string_eq_ok.1 hname).1, value, hvalue⟩, rest, hrest⟩
      · rintro ⟨⟨htype, hname, value, hvalue⟩, rest, hrest⟩
        exact ⟨_, namedPayloads_cons_eq_ok.2 ⟨htype, _, value, rest,
          string_eq_ok.2 ⟨hname, rfl⟩, hvalue, hrest, rfl⟩⟩
  rw [← hnamed]
  refine ⟨?_, ?_⟩
  · rintro ⟨written, hw⟩
    obtain ⟨body, hbody, -⟩ := payload_compound_eq_ok.1 hw
    exact ⟨body, hbody⟩
  · rintro ⟨body, hbody⟩
    exact ⟨_, payload_compound_eq_ok.2 ⟨body, hbody, rfl⟩⟩

end Blueprint.Nbt.Encode

namespace Blueprint.Nbt.Tag

/-- Only a terminator has the type zero. -/
theorem typeId_eq_zero_iff {t : Tag} : t.typeId = 0 ↔ t = .terminator := by
  cases t <;> simp [typeId]

/-- A terminator is written as a single byte, without a name. -/
theorem encode_terminator (name : String) : terminator.encode name = .ok [0] := rfl

/-- Every other tag is written as its type, its name and its payload. -/
theorem encode_eq_ok {t : Tag} (h : t ≠ .terminator) {name : String} {written : List UInt8} :
    t.encode name = .ok written ↔
      ∃ header body, Encode.string name = .ok header ∧ Encode.payload t = .ok body ∧
        written = t.typeId :: (header ++ body) := by
  rw [encode, if_neg (mt typeId_eq_zero_iff.1 h)]
  simp only [Outcome.bind_eq_ok, Outcome.pure_eq_ok]
  refine ⟨?_, ?_⟩
  · rintro ⟨header, hheader, body, hbody, rfl⟩
    exact ⟨header, body, hheader, hbody, rfl⟩
  · rintro ⟨header, body, hheader, hbody, rfl⟩
    exact ⟨header, hheader, body, hbody, rfl⟩

end Blueprint.Nbt.Tag
