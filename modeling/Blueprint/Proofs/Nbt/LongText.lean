import Blueprint.Proofs.Nbt.Nesting
import Blueprint.Proofs.Nbt.Writer

/-!
# Texts that are too long

A tag is refused by the encoder for the shape it has, or for a text in it that has more bytes than
its length can say. A tag whose shape is regular is written as far as its first long text: it can
be written if there is none, and that text is what is wrong with it if there is one.
-/

namespace Blueprint.Nbt

/-- The text has more bytes than a 16-bit length can say. -/
def LongText (text : String) : Prop := 65535 < (Encode.utf8 text).length

instance : DecidablePred LongText := fun _ => Nat.decLt _ _

/-- The long texts among these. -/
def longTexts (texts : List String) : List String := texts.filter fun text => LongText text

@[simp] theorem longTexts_cons_of_short {text : String} (h : ¬ LongText text)
    (texts : List String) : longTexts (text :: texts) = longTexts texts :=
  List.filter_cons_of_neg (by simpa using h)

theorem longTexts_append (texts texts' : List String) :
    longTexts (texts ++ texts') = longTexts texts ++ longTexts texts' := List.filter_append ..

/-- Where parts have the same long texts, so has the whole. -/
theorem longTexts_flatMap_congr {α : Type} {f g : α → List String} {l : List α}
    (h : ∀ a ∈ l, longTexts (f a) = longTexts (g a)) :
    longTexts (l.flatMap f) = longTexts (l.flatMap g) := by
  rw [longTexts, longTexts, List.filter_flatMap, List.filter_flatMap]
  exact List.flatMap_congr h

namespace Tag

/-! ## Texts in a tag -/

mutual

/-- The texts and the keys in a tag, in the order in which they are written. -/
def texts : Tag → List String
  | .string text => [text]
  | .list _ items => textsOfItems items
  | .compound entries => textsOfEntries entries
  | .terminator => []
  | .byte _ => []
  | .short _ => []
  | .int _ => []
  | .long _ => []
  | .float _ => []
  | .double _ => []
  | .byteArray _ => []
  | .intArray _ => []
  | .longArray _ => []
termination_by structural t => t

/-- The texts in the items of a list. -/
def textsOfItems : List Tag → List String
  | [] => []
  | item :: items => texts item ++ textsOfItems items
termination_by structural l => l

/-- The texts in the entries of a compound, with each key in front of those of its value. -/
def textsOfEntries : List (String × Tag) → List String
  | [] => []
  | (key, tag) :: entries => key :: (texts tag ++ textsOfEntries entries)
termination_by structural l => l

end

@[simp] theorem texts_string (text : String) : (string text).texts = [text] := rfl

@[simp] theorem texts_int (v : Int32) : (int v).texts = [] := rfl

@[simp] theorem texts_double (v : Binary64) : (double v).texts = [] := rfl

@[simp] theorem texts_list (itemType : UInt8) (items : List Tag) :
    (list itemType items).texts = items.flatMap texts := by
  have hitems : textsOfItems items = items.flatMap texts := by
    induction items with
    | nil => rfl
    | cons item items ih => rw [textsOfItems, ih, List.flatMap_cons]
  rw [texts, hitems]

@[simp] theorem texts_compound (entries : List (String × Tag)) :
    (compound entries).texts = entries.flatMap fun e => e.1 :: e.2.texts := by
  have hentries : textsOfEntries entries = entries.flatMap fun e => e.1 :: e.2.texts := by
    induction entries with
    | nil => rfl
    | cons e entries ih => rw [textsOfEntries, ih, List.flatMap_cons, List.cons_append]
  rw [texts, hentries]

/-! ## Regular tags -/

@[simp] theorem typeId_int (v : Int32) : (int v).typeId = 3 := rfl

@[simp] theorem typeId_string (text : String) : (string text).typeId = 8 := rfl

@[simp] theorem typeId_list (itemType : UInt8) (items : List Tag) :
    (list itemType items).typeId = 9 := rfl

@[simp] theorem typeId_compound (entries : List (String × Tag)) :
    (compound entries).typeId = 10 := rfl

/-- What is asked of the shape of a tag by itself: its length can be said, its items are of its
type, its values are no terminators. -/
def IsRegular : Tag → Prop
  | byteArray v => v.length < 0x80000000
  | intArray v => v.length < 0x80000000
  | longArray v => v.length < 0x80000000
  | list itemType items => items.length < 0x80000000 ∧ ∀ u ∈ items, u.typeId = itemType
  | compound entries => ∀ e ∈ entries, e.2.typeId ≠ 0
  | _ => True

/-- Everything in the tag has a shape that can be written. -/
def Regular (t : Tag) : Prop := t.Everywhere fun _ u => u.IsRegular

@[simp] theorem regular_leaf {t : Tag} (h : t.isLeaf) : t.Regular ↔ t.IsRegular :=
  everywhere_leaf h

/-- A list is as it may be written if its count fits, and its items are of its type and as they may
be. -/
theorem regular_list {itemType : UInt8} {items : List Tag} :
    (list itemType items).Regular ↔
      items.length < 0x80000000 ∧ ∀ u ∈ items, u.typeId = itemType ∧ u.Regular :=
  everywhere_list.trans (by rw [forall₂_and, IsRegular, and_assoc]; rfl)

/-- A compound is as it may be written if each key has a value that is. -/
theorem regular_compound {entries : List (String × Tag)} :
    (compound entries).Regular ↔ ∀ e ∈ entries, e.2.typeId ≠ 0 ∧ e.2.Regular :=
  everywhere_compound.trans forall₂_and.symm

end Tag

/-! ## The first long text -/

namespace Encode

/-- The computation fails at the first long text among these, and succeeds if there is none. -/
def FailsAtFirst {α : Type} (texts : List String) (x : Except EncodeError α) : Prop :=
  match texts.find? fun text => LongText text with
  | none => ∃ a, x = .ok a
  | some text => x = .error (.longString (utf8 text).length)

namespace FailsAtFirst

variable {α β : Type} {texts texts' : List String} {x : Except EncodeError α}

/-- What succeeds has no long text. -/
theorem ok (a : α) : FailsAtFirst [] (.ok a) := ⟨a, rfl⟩

/-- A computation fails with the length of the first long text, and in no other way. -/
theorem eq_error_iff (hx : FailsAtFirst texts x) {e : EncodeError} :
    x = .error e ↔ ∃ text, (texts.find? fun text => LongText text) = some text ∧
      e = .longString (utf8 text).length := by
  rw [FailsAtFirst] at hx
  cases hfind : texts.find? fun text => LongText text with
  | none =>
    rw [hfind] at hx
    obtain ⟨a, rfl⟩ := hx
    exact iff_of_false nofun (fun ⟨_, hsome, _⟩ => by cases hsome)
  | some text =>
    rw [hfind] at hx
    obtain rfl := hx
    simp only [Except.error.injEq, Option.some.injEq, exists_eq_left', @eq_comm _ e]

/-- Texts that are not long make no difference. -/
theorem congr (hx : FailsAtFirst texts x) (h : longTexts texts = longTexts texts') :
    FailsAtFirst texts' x := by
  rw [longTexts, longTexts] at h
  rwa [FailsAtFirst, ← List.head?_filter, ← h, List.head?_filter]

/-- What comes after a computation is looked at if that succeeds, and so if no text of it is
long. -/
theorem bind {f : α → Except EncodeError β} (hx : FailsAtFirst texts x)
    (hf : ∀ a, FailsAtFirst texts' (f a)) : FailsAtFirst (texts ++ texts') (x >>= f) := by
  -- a long text in front hides all that come after it, as its error hides what comes after
  rw [FailsAtFirst, List.find?_append]
  rw [FailsAtFirst] at hx
  cases hfind : texts.find? fun text => LongText text with
  | none =>
    rw [hfind] at hx
    obtain ⟨a, rfl⟩ := hx
    exact hf a
  | some text =>
    rw [hfind] at hx
    obtain rfl := hx
    rfl

/-- What is made of the value brings no texts in. -/
theorem bind_pure (f : α → β) (hx : FailsAtFirst texts x) :
    FailsAtFirst texts (x >>= fun a => pure (f a)) := by
  have hbind := hx.bind fun a => ok (f a)
  rwa [List.append_nil] at hbind

end FailsAtFirst

/-- A text is written unless it is long. -/
theorem failsAtFirst_string (text : String) : FailsAtFirst [text] (string text) := by
  by_cases hlong : LongText text
  · rw [FailsAtFirst, List.find?_cons_of_pos (by simpa using hlong), string,
      if_neg (Nat.not_lt.2 hlong)]
  · rw [FailsAtFirst, List.find?_cons_of_neg (by simpa using hlong)]
    exact ⟨_, string_eq_ok.2 ⟨Nat.lt_succ_of_le (Nat.not_lt.1 hlong), rfl⟩⟩

/-- A count that fits is written. -/
theorem failsAtFirst_length {n : Nat} (h : n < 0x80000000) : FailsAtFirst [] (length n) :=
  ⟨_, length_eq_ok.2 ⟨h, rfl⟩⟩

/-- So is an array with such a count. -/
theorem failsAtFirst_array {α : Type} (width : Nat) (toNat : α → Nat) {v : List α}
    (h : v.length < 0x80000000) : FailsAtFirst [] (array width toNat v) :=
  (failsAtFirst_length h).bind_pure _

/-- Items are written up to the first long text in them. -/
theorem failsAtFirst_payloads {items : List Tag}
    (h : ∀ u ∈ items, FailsAtFirst u.texts (payload u)) :
    FailsAtFirst (items.flatMap Tag.texts) (payloads items) := by
  induction items with
  | nil => exact .ok []
  | cons item items ih =>
    obtain ⟨hitem, hitems⟩ := List.forall_mem_cons.1 h
    rw [List.flatMap_cons, payloads]
    exact hitem.bind fun first => (ih hitems).bind_pure _

/-- Entries are written up to the first long text in them, which may be a key. -/
theorem failsAtFirst_namedPayloads {entries : List (String × Tag)}
    (h : ∀ e ∈ entries, e.2.typeId ≠ 0 ∧ FailsAtFirst e.2.texts (payload e.2)) :
    FailsAtFirst (entries.flatMap fun e => e.1 :: e.2.texts) (namedPayloads entries) := by
  induction entries with
  | nil => exact .ok []
  | cons e entries ih =>
    obtain ⟨⟨htype, hvalue⟩, hentries⟩ := List.forall_mem_cons.1 h
    rw [List.flatMap_cons, namedPayloads, if_neg htype]
    exact (failsAtFirst_string e.1).bind fun name => hvalue.bind fun value =>
      (ih hentries).bind_pure _

/-- **A regular tag fails at its first long text** and at nothing else. -/
theorem failsAtFirst_payload {t : Tag} (h : t.Regular) : FailsAtFirst t.texts (payload t) := by
  induction t using Tag.nested_induction with
  | leaf t hleaf =>
    have hregular := (Tag.regular_leaf hleaf).1 h
    cases t with
    | list _ _ => cases hleaf
    | compound _ => cases hleaf
    | string text => exact failsAtFirst_string text
    | byteArray v => exact failsAtFirst_array 1 _ hregular
    | intArray v => exact failsAtFirst_array 4 _ hregular
    | longArray v => exact failsAtFirst_array 8 _ hregular
    | _ => exact .ok _
  | list itemType items ih =>
    obtain ⟨hlength, hitems⟩ := Tag.regular_list.1 h
    -- all items have the type of the list, so the writer never refuses one for its type
    have hnone : (items.find? fun item => item.typeId != itemType) = none := by
      simpa using fun u hu => (hitems u hu).1
    rw [Tag.texts_list, payload, hnone]
    exact (failsAtFirst_length hlength).bind fun header =>
      (failsAtFirst_payloads fun u hu => ih u hu (hitems u hu).2).bind_pure _
  | compound entries ih =>
    have hentries := Tag.regular_compound.1 h
    rw [Tag.texts_compound, payload]
    exact (failsAtFirst_namedPayloads fun e he =>
      ⟨(hentries e he).1, ih e he (hentries e he).2⟩).bind_pure _

/-- The encoder asks for a regular shape of everything that it writes. -/
theorem regular_of_writable {t : Tag} (h : Writable t) : t.Regular := by
  have hlength {α : Type} {width : Nat} {toNat : α → Nat} {v : List α} {written : List UInt8}
      (harray : array width toNat v = .ok written) : v.length < 0x80000000 := by
    obtain ⟨header, hheader, -⟩ := array_eq_ok.1 harray
    exact (length_eq_ok.1 hheader).1
  induction t using Tag.nested_induction with
  | leaf t hleaf =>
    obtain ⟨written, hw⟩ := h
    refine (Tag.regular_leaf hleaf).2 ?_
    cases t with
    | list _ _ => cases hleaf
    | compound _ => cases hleaf
    | byteArray v => exact hlength hw
    | intArray v => exact hlength hw
    | longArray v => exact hlength hw
    | _ => trivial
  | list itemType items ih =>
    obtain ⟨hlt, hitems⟩ := writable_list.1 h
    exact Tag.regular_list.2 ⟨hlt, fun u hu => ⟨(hitems u hu).1, ih u hu (hitems u hu).2⟩⟩
  | compound entries ih =>
    have hentries := writable_compound.1 h
    exact Tag.regular_compound.2 fun e he => ⟨(hentries e he).1, ih e he (hentries e he).2.2⟩

/-- A tag can be written exactly if its shape is regular and no text in it is long. -/
theorem writable_iff {t : Tag} : Writable t ↔ t.Regular ∧ ∀ text ∈ t.texts, ¬ LongText text := by
  refine ⟨?_, ?_⟩
  · intro h
    have hregular := regular_of_writable h
    refine ⟨hregular, ?_⟩
    obtain ⟨written, hw⟩ := h
    -- the tag is written, so it has no first long text to fail at
    have hpayload := failsAtFirst_payload hregular
    rw [FailsAtFirst, hw] at hpayload
    split at hpayload
    next hnone => simpa using hnone
    next => cases hpayload
  · rintro ⟨hregular, hshort⟩
    have hnone : (t.texts.find? fun text => LongText text) = none := by simpa using hshort
    have hpayload := failsAtFirst_payload hregular
    rwa [FailsAtFirst, hnone] at hpayload

end Encode

/-- A regular tag with a name fails at the name, if that is long, or else at its first long
text. -/
theorem Tag.failsAtFirst_encode {t : Tag} (h : t.Regular) (hne : t ≠ .terminator) (name : String) :
    Encode.FailsAtFirst (name :: t.texts) (t.encode name) := by
  rw [encode, if_neg (mt typeId_eq_zero_iff.1 hne)]
  exact (Encode.failsAtFirst_string name).bind fun header =>
    (Encode.failsAtFirst_payload h).bind_pure _

end Blueprint.Nbt
