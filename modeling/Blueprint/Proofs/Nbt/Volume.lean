import Blueprint.Proofs.Nbt.NormalForm

/-!
# How much is read

The volume of a tag counts all that there is in it: tags, numbers in arrays, and bytes of texts
and keys. Whatever a length says, each of these is paid for with a byte of its own. Where a tag
can be written this is seen from what is written for it, and a tag that was read can be written
in no more bytes than it was read from.

The one payload of no bytes is that of a terminator, so lists of terminators have to be empty.
-/

namespace Blueprint.Nbt

/-! ## The volume of a tag -/

namespace Tag

mutual

/-- How many tags, numbers in arrays and bytes of texts and keys there are in the tag. -/
def volume : Tag → Nat
  | .list _ items => 1 + volumeOfItems items
  | .compound entries => 1 + volumeOfEntries entries
  | .string s => 1 + (Encode.utf8 s).length
  | .byteArray v => 1 + v.length
  | .intArray v => 1 + v.length
  | .longArray v => 1 + v.length
  | .terminator => 1
  | .byte _ => 1
  | .short _ => 1
  | .int _ => 1
  | .long _ => 1
  | .float _ => 1
  | .double _ => 1
termination_by structural t => t

/-- The volume of the items of a list together. -/
def volumeOfItems : List Tag → Nat
  | [] => 0
  | item :: items => volume item + volumeOfItems items
termination_by structural l => l

/-- The volume of the entries of a compound together, with their keys. -/
def volumeOfEntries : List (String × Tag) → Nat
  | [] => 0
  | (key, tag) :: entries => (Encode.utf8 key).length + volume tag + volumeOfEntries entries
termination_by structural l => l

end

/-- Four tags, two numbers, two keys of a byte each and a text of two. -/
example : volume (.compound [("a", .byteArray [1, 2]), ("b", .list 8 [.string "xy"])]) = 10 := by
  cbv

/-- A list of terminators is empty, and the lists in its items are as they should be. -/
theorem terminatorListsEmpty_list {itemType : UInt8} {items : List Tag} :
    (list itemType items).TerminatorListsEmpty ↔
      (itemType = 0 → items = []) ∧ ∀ u ∈ items, u.TerminatorListsEmpty := everywhere_list

end Tag

/-! ## What is written is no less -/

namespace Encode

/-- Only the payload of a terminator has no bytes. -/
theorem length_payload_pos {t : Tag} (ht : t.typeId ≠ 0) {written : List UInt8}
    (hw : payload t = .ok written) : 0 < written.length := by
  cases t with
  -- the end tag is the one payload without bytes
  | terminator => exact absurd rfl ht
  | list itemType items =>
    obtain ⟨-, header, body, -, -, rfl⟩ := payload_list_eq_ok.1 hw
    exact List.length_pos_of_ne_nil (List.cons_ne_nil _ _)
  | compound entries =>
    obtain ⟨body, -, rfl⟩ := payload_compound_eq_ok.1 hw
    rw [List.length_append]
    exact Nat.succ_pos _
  | string s =>
    obtain ⟨-, rfl⟩ := string_eq_ok.1 hw
    rw [List.length_append, BigEndian.length_encode]
    omega
  | byteArray v | intArray v | longArray v =>
    obtain ⟨header, hheader, rfl⟩ := array_eq_ok.1 hw
    obtain ⟨-, rfl⟩ := length_eq_ok.1 hheader
    rw [List.length_append, BigEndian.length_encode]
    omega
  | _ =>
    obtain rfl := Except.ok.inj hw
    rw [BigEndian.length_encode]
    decide

/-- An array is written in a byte for each number, and some for the length. -/
theorem length_le_of_array {α : Type} {width : Nat} (hwidth : 0 < width) {toNat : α → Nat}
    {v : List α} {written : List UInt8} (hw : array width toNat v = .ok written) :
    1 + v.length ≤ written.length := by
  obtain ⟨header, hheader, rfl⟩ := array_eq_ok.1 hw
  obtain ⟨-, rfl⟩ := length_eq_ok.1 hheader
  have hnumbers : (v.flatMap fun x => BigEndian.encode width (toNat x)).length =
      v.length * width := by
    simp only [List.length_flatMap, BigEndian.length_encode, List.map_const',
      List.sum_replicate_nat]
  have hone : v.length * 1 ≤ v.length * width := Nat.mul_le_mul_left _ hwidth
  rw [List.length_append, BigEndian.length_encode, hnumbers]
  omega

/-- The payload of the tag takes as many bytes as the tag has volume. -/
def Paid (t : Tag) : Prop :=
  t.TerminatorListsEmpty → t.typeId ≠ 0 → ∀ {written : List UInt8}, payload t = .ok written →
    t.volume ≤ written.length

/-- Items are paid for by the bytes they are written as. -/
theorem volumeOfItems_le {items : List Tag}
    (hitems : ∀ u ∈ items, ∀ {written : List UInt8}, payload u = .ok written →
      u.volume ≤ written.length) {body : List UInt8} (hbody : payloads items = .ok body) :
    Tag.volumeOfItems items ≤ body.length := by
  induction items generalizing body with
  | nil => exact Nat.zero_le _
  | cons u items ih =>
    obtain ⟨hu, hmore⟩ := List.forall_mem_cons.1 hitems
    obtain ⟨first, rest, hfirst, hrest, rfl⟩ := payloads_cons_eq_ok.1 hbody
    rw [Tag.volumeOfItems, List.length_append]
    exact Nat.add_le_add (hu hfirst) (ih hmore hrest)

/-- Entries are paid for by the bytes they are written as. -/
theorem volumeOfEntries_le {entries : List (String × Tag)}
    (hvalues : ∀ e ∈ entries, e.2.typeId ≠ 0 → ∀ {written : List UInt8},
      payload e.2 = .ok written → e.2.volume ≤ written.length) {body : List UInt8}
    (hbody : namedPayloads entries = .ok body) : Tag.volumeOfEntries entries ≤ body.length := by
  induction entries generalizing body with
  | nil => exact Nat.zero_le _
  | cons e entries ih =>
    obtain ⟨he, hmore⟩ := List.forall_mem_cons.1 hvalues
    obtain ⟨htype, name, value, rest, hname, hvalue, hrest, rfl⟩ :=
      namedPayloads_cons_eq_ok.1 hbody
    obtain ⟨-, rfl⟩ := string_eq_ok.1 hname
    have hfirst := he htype hvalue
    have hlast := ih hmore hrest
    simp only [Tag.volumeOfEntries, List.length_cons, List.length_append] at hfirst ⊢
    omega

/-- **Every payload takes its volume in bytes**, if no list of terminators in it has items. -/
theorem paid (t : Tag) : Paid t := by
  induction t using Tag.nested_induction with
  | leaf t hleaf =>
    intro _ htype written hw
    cases t with
    | list _ _ => cases hleaf
    | compound _ => cases hleaf
    | string s =>
      obtain ⟨-, rfl⟩ := string_eq_ok.1 hw
      rw [Tag.volume, List.length_append, BigEndian.length_encode]
      omega
    | byteArray v => exact length_le_of_array (by decide) hw
    | intArray v => exact length_le_of_array (by decide) hw
    | longArray v => exact length_le_of_array (by decide) hw
    | _ => exact length_payload_pos htype hw
  | list itemType items ih =>
    intro hempty _ written hw
    obtain ⟨hnone, hitems⟩ := Tag.terminatorListsEmpty_list.1 hempty
    obtain ⟨htypes, header, body, -, hbody, rfl⟩ := payload_list_eq_ok.1 hw
    -- a terminator among the items would cost nothing and count as one
    have hvalues : ∀ u ∈ items, u.typeId ≠ 0 := by
      intro u hu hzero
      rw [hnone ((htypes u hu).symm.trans hzero)] at hu
      exact List.not_mem_nil hu
    have hle := volumeOfItems_le (fun u hu => ih u hu (hitems u hu) (hvalues u hu)) hbody
    simp only [Tag.volume, List.length_cons, List.length_append]
    omega
  | compound entries ih =>
    intro hempty _ written hw
    have hvalues := Tag.terminatorListsEmpty_compound.1 hempty
    obtain ⟨body, hbody, rfl⟩ := payload_compound_eq_ok.1 hw
    have hle := volumeOfEntries_le (fun e he htype => ih e he (hvalues e he) htype) hbody
    simp only [Tag.volume, List.length_append, List.length_singleton]
    omega

end Encode

/-! ## What is read is no more -/

namespace Tag

/-- A tag takes a byte for its type, the bytes of its name and those of its payload. -/
theorem volume_le_encode {t : Tag} (hempty : t.TerminatorListsEmpty) {name : String}
    (hname : t = .terminator → name = "") {written : List UInt8}
    (hw : t.encode name = .ok written) :
    (Encode.utf8 name).length + t.volume ≤ written.length := by
  by_cases hterm : t = terminator
  · obtain rfl := hname hterm
    rw [hterm, encode_terminator] at hw
    obtain rfl := Except.ok.inj hw
    rw [hterm]
    exact Nat.le_refl 1
  · obtain ⟨header, body, hheader, hbody, rfl⟩ := (encode_eq_ok hterm).1 hw
    obtain ⟨-, rfl⟩ := Encode.string_eq_ok.1 hheader
    have hle := Encode.paid t hempty (mt typeId_eq_zero_iff.1 hterm) hbody
    simp only [List.length_cons, List.length_append]
    omega

/-- **A tag that was read** has a name and a volume of no more than the bytes it was read
from. -/
theorem volume_le_read {input rest : List UInt8} {name : String} {t : Tag}
    (h : read.run input = .ok ((name, t), rest)) :
    ∃ front, input = front ++ rest ∧ (Encode.utf8 name).length + t.volume ≤ front.length := by
  obtain ⟨spelled, front, hspelled, rfl, hinput⟩ := read_spelled h
  obtain ⟨again, hagain, hle⟩ := encode_merged hspelled
  have hempty := (fits_succ_iff.1 (read_fits h).1).2
  refine ⟨front, hinput, ?_⟩
  have hname : spelled.merged = .terminator → name = "" := by
    intro hterm
    rw [hterm] at h
    exact name_of_read_terminator h
  exact Nat.le_trans (volume_le_encode hempty hname hagain) hle

end Tag

end Blueprint.Nbt
