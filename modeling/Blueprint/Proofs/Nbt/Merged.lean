import Blueprint.Proofs.Nbt.Compound
import Blueprint.Proofs.Nbt.Nesting

/-!
# Repeated keys

The bytes of a compound may give a key twice, a compound that was read has each key once.
`t.merged` is what a reader makes of bytes that spell `t`: everywhere in it the entries of a
compound are inserted one after another, so the first entry of a key has the place and the
last one the value. A tag without repeated keys stays as it is, and no other does.
-/

namespace Blueprint.Nbt.Tag

mutual

/-- The tag with the entries of equal keys put together, in all its compounds. -/
def merged : Tag → Tag
  | .list itemType items => .list itemType (mergedItems items)
  | .compound entries => .compound (Compound.ofList (mergedEntries entries))
  | .terminator => .terminator
  | .byte v => .byte v
  | .short v => .short v
  | .int v => .int v
  | .long v => .long v
  | .float v => .float v
  | .double v => .double v
  | .byteArray v => .byteArray v
  | .string v => .string v
  | .intArray v => .intArray v
  | .longArray v => .longArray v
termination_by structural t => t

/-- The items of a list, each merged. -/
def mergedItems : List Tag → List Tag
  | [] => []
  | item :: items => merged item :: mergedItems items
termination_by structural l => l

/-- The entries of a compound, each with its value merged. -/
def mergedEntries : List (String × Tag) → List (String × Tag)
  | [] => []
  | (key, tag) :: entries => (key, merged tag) :: mergedEntries entries
termination_by structural l => l

end

/-- The items of a list are merged each by itself. -/
theorem mergedItems_eq_map (items : List Tag) : mergedItems items = items.map merged := by
  induction items with
  | nil => rfl
  | cons item items ih => rw [mergedItems, ih, List.map_cons]

/-- So are the values of a compound. -/
theorem mergedEntries_eq_map (entries : List (String × Tag)) :
    mergedEntries entries = entries.map fun e => (e.1, e.2.merged) := by
  induction entries with
  | nil => rfl
  | cons e entries ih => rw [mergedEntries, ih, List.map_cons]

@[simp] theorem merged_leaf {t : Tag} (h : t.isLeaf) : t.merged = t := by
  cases t with
  | list _ _ => cases h
  | compound _ => cases h
  | _ => rfl

@[simp] theorem merged_list (itemType : UInt8) (items : List Tag) :
    (list itemType items).merged = list itemType (items.map merged) := by
  rw [merged, mergedItems_eq_map]

@[simp] theorem merged_compound (entries : List (String × Tag)) :
    (compound entries).merged =
      compound (Compound.ofList (entries.map fun e => (e.1, e.2.merged))) := by
  rw [merged, mergedEntries_eq_map]

/-- Without repeated keys there is nothing to merge. -/
theorem merged_of_keysDistinct {t : Tag} (h : t.KeysDistinct) : t.merged = t := by
  induction t using nested_induction with
  | leaf t hleaf => exact merged_leaf hleaf
  | list itemType items ih =>
    have hitems := keysDistinct_list.1 h
    have hsame : items.map merged = items := by
      refine (List.map_congr_left fun u hu => ih u hu (hitems u hu)).trans ?_
      exact List.map_id' items
    rw [merged_list, hsame]
  | compound entries ih =>
    obtain ⟨hkeys, hvalues⟩ := keysDistinct_compound.1 h
    have hsame : (entries.map fun e => (e.1, e.2.merged)) = entries := by
      refine (List.map_congr_left fun e he => ?_).trans (List.map_id' entries)
      rw [ih e he (hvalues e he)]
    rw [merged_compound, hsame, Compound.ofList_of_nodup hkeys]

/-- After merging no key is repeated. -/
theorem keysDistinct_merged (t : Tag) : t.merged.KeysDistinct := by
  induction t using nested_induction with
  | leaf t hleaf =>
    rw [merged_leaf hleaf]
    exact keysDistinct_leaf hleaf
  | list itemType items ih =>
    rw [merged_list, keysDistinct_list]
    exact List.forall_mem_map.2 ih
  | compound entries ih =>
    rw [merged_compound, keysDistinct_compound]
    refine ⟨Compound.nodup_keys_ofList _, ?_⟩
    exact Compound.forall_insertAll (P := KeysDistinct) (c := [])
      (fun e he => absurd he List.not_mem_nil) (List.forall_mem_map.2 ih)

/-- Exactly the tags without repeated keys are as they are after merging. -/
theorem merged_eq_self_iff {t : Tag} : t.merged = t ↔ t.KeysDistinct := by
  refine ⟨?_, merged_of_keysDistinct⟩
  intro h
  rw [← h]
  exact t.keysDistinct_merged

end Blueprint.Nbt.Tag
