import Blueprint.Proofs.Nbt.LongText
import Blueprint.Proofs.Plan.Quoted

/-!
# Keys with values

The encoder quotes a single text when it fails: a key with a terminator in the place of its value.
In what is filled there is no such key, so to write it fails with a message that quotes nothing.
-/

namespace Blueprint.Nbt

open Outcome

namespace Tag

/-- Every key of a compound has a value; nothing is asked of other tags. -/
def IsFilled : Tag → Prop
  | compound entries => ∀ e ∈ entries, e.2.typeId ≠ 0
  | _ => True

/-- Every key in the tag has a value. -/
def Filled (t : Tag) : Prop := t.Everywhere fun _ u => u.IsFilled

/-- A tag with no tags in it has no keys. -/
theorem filled_leaf {t : Tag} (h : t.isLeaf) : t.Filled := by
  refine (everywhere_leaf h).2 ?_
  cases t with
  | compound _ => cases h
  | _ => trivial

/-- A list is filled exactly if its items are. -/
theorem filled_list {itemType : UInt8} {items : List Tag} :
    (list itemType items).Filled ↔ ∀ u ∈ items, u.Filled :=
  everywhere_list.trans (and_iff_right trivial)

/-- A compound is filled exactly if each key has a value that is filled. -/
theorem filled_compound {entries : List (String × Tag)} :
    (compound entries).Filled ↔ ∀ e ∈ entries, e.2.typeId ≠ 0 ∧ e.2.Filled :=
  everywhere_compound.trans forall₂_and.symm

/-- What may be written or read has no key without a value. -/
theorem Regular.filled {t : Tag} (h : t.Regular) : t.Filled := by
  intro d u hu
  have hregular := h d u hu
  cases u with
  | compound entries => exact hregular
  | _ => trivial

end Tag

namespace Encode

/-- If the computation fails, then with a message that quotes nothing. -/
abbrev FailsPlainly {α : Type} : Except EncodeError α → Prop := FailsWith fun e => e.quoted = []

/-- A text that is too long is not quoted. -/
theorem failsPlainly_string (text : String) : FailsPlainly (string text) := by
  unfold string
  dsimp only
  split
  · exact .ok _
  · exact .error rfl

/-- Nor is a count. -/
theorem failsPlainly_length (n : Nat) : FailsPlainly (length n) := by
  unfold length
  split
  · exact .ok _
  · exact .error rfl

/-- An array fails only by its count. -/
theorem failsPlainly_array {α : Type} (width : Nat) (toNat : α → Nat) (v : List α) :
    FailsPlainly (array width toNat v) :=
  (failsPlainly_length v.length).bind fun _ _ => .ok _

/-- Items fail with what one of them fails with. -/
theorem failsPlainly_payloads {items : List Tag} (h : ∀ u ∈ items, FailsPlainly (payload u)) :
    FailsPlainly (payloads items) := by
  induction items with
  | nil => exact .ok []
  | cons item items ih =>
    obtain ⟨hitem, hitems⟩ := List.forall_mem_cons.1 h
    rw [payloads]
    exact hitem.bind fun first _ => (ih hitems).bind fun rest _ => .ok _

/-- Entries fail by a key that is too long or by a value. -/
theorem failsPlainly_namedPayloads {entries : List (String × Tag)}
    (h : ∀ e ∈ entries, e.2.typeId ≠ 0 ∧ FailsPlainly (payload e.2)) :
    FailsPlainly (namedPayloads entries) := by
  induction entries with
  | nil => exact .ok []
  | cons e entries ih =>
    obtain ⟨⟨htype, hvalue⟩, hentries⟩ := List.forall_mem_cons.1 h
    rw [namedPayloads, if_neg htype]
    exact (failsPlainly_string e.1).bind fun name _ => hvalue.bind fun value _ =>
      (ih hentries).bind fun rest _ => .ok _

/-- To write the payload of a filled tag fails with nothing quoted, if it fails. -/
theorem failsPlainly_payload {t : Tag} (h : t.Filled) : FailsPlainly (payload t) := by
  induction t using Tag.nested_induction with
  | leaf t hleaf =>
    cases t with
    | list _ _ => cases hleaf
    | compound _ => cases hleaf
    | string text => exact failsPlainly_string text
    | byteArray v => exact failsPlainly_array 1 _ v
    | intArray v => exact failsPlainly_array 4 _ v
    | longArray v => exact failsPlainly_array 8 _ v
    | _ => exact .ok _
  | list itemType items ih =>
    have hitems := Tag.filled_list.1 h
    rw [payload]
    split
    · exact .error rfl
    · exact (failsPlainly_length _).bind fun header _ =>
        (failsPlainly_payloads fun u hu => ih u hu (hitems u hu)).bind fun body _ => .ok _
  | compound entries ih =>
    have hentries := Tag.filled_compound.1 h
    rw [payload]
    exact (failsPlainly_namedPayloads fun e he =>
      ⟨(hentries e he).1, ih e he (hentries e he).2⟩).bind fun body _ => .ok _

end Encode

/-- **To write a tag whose keys all have values fails with nothing quoted**, if it fails. -/
theorem Tag.failsPlainly_encode {t : Tag} (h : t.Filled) (name : String) :
    Encode.FailsPlainly (t.encode name) := by
  have hrest (header : List UInt8) :
      Encode.FailsPlainly (Encode.payload t >>= fun body => pure (t.typeId :: (header ++ body))) :=
    (Encode.failsPlainly_payload h).bind fun body _ => .ok _
  rw [encode]
  split
  · exact hrest []
  · exact (Encode.failsPlainly_string name).bind fun header _ => hrest header

end Blueprint.Nbt
