import Blueprint.Nbt.Decode

/-!
# Tags inside tags

Lists and compounds hold tags, and so on down to the leaves. `t.HasAt d u` says that the tag
`u` stands in `t` at depth `d`, and what is asked of a tag with all that it holds is asked
through `Everywhere`. The lemmas `everywhere_leaf`, `everywhere_list` and
`everywhere_compound` take such a demand apart the way the recursion on tags does.
-/

namespace Blueprint.Nbt.Tag

/-! ## Induction -/

/-- The tag holds no other tags. -/
def isLeaf : Tag → Bool
  | list _ _ => false
  | compound _ => false
  | _ => true

/-- Induction on tags, with a hypothesis for every item and for every value. -/
@[elab_as_elim]
theorem nested_induction {motive : Tag → Prop} (leaf : ∀ t, t.isLeaf → motive t)
    (list : ∀ itemType items, (∀ u ∈ items, motive u) → motive (.list itemType items))
    (compound : ∀ entries, (∀ e ∈ entries, motive e.2) → motive (.compound entries))
    (t : Tag) : motive t := by
  match t with
  | .list itemType items =>
    refine list itemType items fun u hu => ?_
    have hlt : sizeOf u < sizeOf items := List.sizeOf_lt_of_mem hu
    exact nested_induction leaf list compound u
  | .compound entries =>
    refine compound entries fun e he => ?_
    have hlt : sizeOf e < sizeOf entries := List.sizeOf_lt_of_mem he
    have hvalue : sizeOf e.2 < sizeOf e := by
      cases e
      simp only [Prod.mk.sizeOf_spec]
      omega
    exact nested_induction leaf list compound e.2
  | .terminator | .byte _ | .short _ | .int _ | .long _ | .float _ | .double _ | .byteArray _
  | .string _ | .intArray _ | .longArray _ => exact leaf _ rfl
termination_by sizeOf t
decreasing_by
  · simp only [Tag.list.sizeOf_spec]
    omega
  · simp only [Tag.compound.sizeOf_spec]
    omega

/-! ## What stands where -/

/-- `t.HasAt d u`: the tag `u` is reached from `t` by going `d` times from a list to an item
or from a compound to a value. -/
inductive HasAt : Tag → Nat → Tag → Prop where
  /-- a tag stands in itself at depth zero -/
  | root (t : Tag) : HasAt t 0 t
  /-- what stands in an item stands one deeper in the list -/
  | item {itemType : UInt8} {items : List Tag} {t u : Tag} {d : Nat} (ht : t ∈ items)
      (hu : HasAt t d u) : HasAt (.list itemType items) (d + 1) u
  /-- what stands in a value stands one deeper in the compound -/
  | value {entries : List (String × Tag)} {e : String × Tag} {u : Tag} {d : Nat}
      (he : e ∈ entries) (hu : HasAt e.2 d u) : HasAt (.compound entries) (d + 1) u

/-- Every tag that stands in `t` meets the demand for its depth. -/
def Everywhere (P : Nat → Tag → Prop) (t : Tag) : Prop := ∀ d u, t.HasAt d u → P d u

section

variable {P : Nat → Tag → Prop}

/-- What holds everywhere in a tag without tags in it holds of the tag. -/
theorem everywhere_leaf {t : Tag} (h : t.isLeaf) : t.Everywhere P ↔ P 0 t := by
  refine ⟨?_, ?_⟩
  · intro hP
    exact hP 0 t (.root t)
  · intro hP d u hu
    cases hu with
    | root => exact hP
    | item _ _ => cases h
    | value _ _ => cases h

/-- What holds everywhere in a list holds of the list, and one level deeper of its items. -/
theorem everywhere_list {itemType : UInt8} {items : List Tag} :
    (list itemType items).Everywhere P ↔
      P 0 (.list itemType items) ∧ ∀ u ∈ items, u.Everywhere fun d => P (d + 1) := by
  refine ⟨?_, ?_⟩
  · intro hP
    exact ⟨hP 0 _ (.root _), fun t ht d u hu => hP (d + 1) u (.item ht hu)⟩
  · rintro ⟨hroot, hitems⟩ d u hu
    cases hu with
    | root => exact hroot
    | item ht hu => exact hitems _ ht _ _ hu

/-- What holds everywhere in a compound holds of it, and one level deeper of its values. -/
theorem everywhere_compound {entries : List (String × Tag)} :
    (compound entries).Everywhere P ↔
      P 0 (.compound entries) ∧ ∀ e ∈ entries, e.2.Everywhere fun d => P (d + 1) := by
  refine ⟨?_, ?_⟩
  · intro hP
    exact ⟨hP 0 _ (.root _), fun e he d u hu => hP (d + 1) u (.value he hu)⟩
  · rintro ⟨hroot, hvalues⟩ d u hu
    cases hu with
    | root => exact hroot
    | value he hu => exact hvalues _ he _ _ hu

end

/-! ## Demands on a tag with all that it holds -/

/-- A compound has no key twice; nothing is asked of other tags. -/
def HasDistinctKeys : Tag → Prop
  | compound entries => (Compound.keys entries).Nodup
  | _ => True

/-- A list of terminators has no items; nothing is asked of other tags. -/
def HasNoTerminators : Tag → Prop
  | list itemType items => itemType = 0 → items = []
  | _ => True

/-- No compound in the tag has a key twice. -/
def KeysDistinct (t : Tag) : Prop := t.Everywhere fun _ u => u.HasDistinctKeys

/-- Nothing stands deeper in the tag than `depth`. -/
def Within (depth : Nat) (t : Tag) : Prop := t.Everywhere fun d _ => d ≤ depth

/-- No list of terminators in the tag has items. -/
def TerminatorListsEmpty (t : Tag) : Prop := t.Everywhere fun _ u => u.HasNoTerminators

/-- A tag without tags in it has no keys. -/
theorem keysDistinct_leaf {t : Tag} (h : t.isLeaf) : t.KeysDistinct := by
  refine (everywhere_leaf h).2 ?_
  cases t with
  | compound _ => cases h
  | _ => trivial

/-- The keys of a list are those of its items. -/
theorem keysDistinct_list {itemType : UInt8} {items : List Tag} :
    (list itemType items).KeysDistinct ↔ ∀ u ∈ items, u.KeysDistinct :=
  everywhere_list.trans (and_iff_right trivial)

/-- The keys of a compound are its own and those of its values. -/
theorem keysDistinct_compound {entries : List (String × Tag)} :
    (compound entries).KeysDistinct ↔
      (Compound.keys entries).Nodup ∧ ∀ e ∈ entries, e.2.KeysDistinct := everywhere_compound

/-- A tag without tags in it has no list of terminators. -/
theorem terminatorListsEmpty_leaf {t : Tag} (h : t.isLeaf) : t.TerminatorListsEmpty := by
  refine (everywhere_leaf h).2 ?_
  cases t with
  | list _ _ => cases h
  | _ => trivial

/-- The lists in a compound are those in its values. -/
theorem terminatorListsEmpty_compound {entries : List (String × Tag)} :
    (compound entries).TerminatorListsEmpty ↔ ∀ e ∈ entries, e.2.TerminatorListsEmpty :=
  everywhere_compound.trans (and_iff_right trivial)

/-- The values of a compound have one level less. -/
theorem within_compound {entries : List (String × Tag)} {depth : Nat} :
    (compound entries).Within (depth + 1) ↔ ∀ e ∈ entries, e.2.Within depth := by
  simp only [Within, everywhere_compound, Nat.zero_le, true_and, Nat.add_le_add_iff_right]

/-- The tag can be written without loss, and then only its depth can keep it from being read. -/
def Sound (t : Tag) : Prop := t.KeysDistinct ∧ t.TerminatorListsEmpty

/-- A tag without tags in it is sound. -/
theorem sound_leaf {t : Tag} (h : t.isLeaf) : t.Sound :=
  ⟨keysDistinct_leaf h, terminatorListsEmpty_leaf h⟩

/-- A compound is sound if its keys are distinct and its values are sound. -/
theorem sound_compound {entries : List (String × Tag)} :
    (compound entries).Sound ↔
      (Compound.keys entries).Nodup ∧ ∀ e ∈ entries, e.2.Sound := by
  rw [Sound, keysDistinct_compound, terminatorListsEmpty_compound]
  refine ⟨?_, ?_⟩
  · rintro ⟨⟨hnodup, hkeys⟩, hlists⟩
    exact ⟨hnodup, fun e he => ⟨hkeys e he, hlists e he⟩⟩
  · rintro ⟨hnodup, hvalues⟩
    exact ⟨⟨hnodup, fun e he => (hvalues e he).1⟩, fun e he => (hvalues e he).2⟩

end Blueprint.Nbt.Tag
