import Blueprint.Proofs.Nbt.Compound
import Mathlib.Data.Finset.Card

/-!
# Compounds keep the order of insertion

A key stands where its first insertion has put it and has the value of its last one. This holds of
every compound that is built by insertions (`Compound.insertionOrdered`), because one insertion
leaves the entries of all other keys as they are, with their values and in their order.
-/

namespace Blueprint.Nbt.Compound

/-! ## One insertion -/

/-- The entries of other keys are left as they are. -/
theorem filter_insert (key : String) (tag : Tag) (c : Compound) :
    (insert key tag c).filter (fun e => e.1 ≠ key) = c.filter fun e => e.1 ≠ key := by
  induction c with
  | nil => simp [insert]
  | cons e c ih =>
    rw [insert]
    split
    next heq => simp [heq]
    next => rw [List.filter_cons, List.filter_cons, ih]

/-! ## Insertions one after another -/

/-- The last of some entries is inserted into what is made of the others. -/
theorem ofList_append_singleton (entries : List (String × Tag)) (e : String × Tag) :
    ofList (entries ++ [e]) = insert e.1 e.2 (ofList entries) := List.foldl_append

/-- Entries are inserted one after another. -/
theorem ofList_append_cons (before : List (String × Tag)) (e : String × Tag)
    (after : List (String × Tag)) :
    ofList (before ++ e :: after) = insertAll (insert e.1 e.2 (ofList before)) after :=
  List.foldl_append

/-- The keys stand in the order in which they first came. -/
theorem keys_ofList (entries : List (String × Tag)) :
    keys (ofList entries) = (entries.map Prod.fst).eraseDups := by
  -- a compound grows at its end, so it is the last insertion that is split off
  induction entries using List.reverseRecOn with
  | nil => rfl
  | append_singleton entries e ih =>
    have hthere : e.1 ∈ keys (ofList entries) ↔ e.1 ∈ entries.map Prod.fst := by
      rw [ih, List.mem_eraseDups]
    rw [ofList_append_singleton, keys_insert, List.map_append, List.eraseDups_append, ← ih]
    by_cases hmem : e.1 ∈ entries.map Prod.fst
    · have hnone : [e.1].removeAll (entries.map Prod.fst) = [] := by simp [List.removeAll, hmem]
      rw [if_pos (hthere.2 hmem), List.map_singleton, hnone, List.eraseDups_nil, List.append_nil]
    · have hone : [e.1].removeAll (entries.map Prod.fst) = [e.1] := by simp [List.removeAll, hmem]
      rw [if_neg (mt hthere.1 hmem), List.map_singleton, hone]
      rfl

/-- A key has the value of its last insertion. -/
theorem get?_ofList_of_last {before after : List (String × Tag)} {key : String} {tag : Tag}
    (h : key ∉ after.map Prod.fst) :
    get? key (ofList (before ++ (key, tag) :: after)) = some tag := by
  rw [ofList_append_cons, get?_insertAll_of_get?_eq_none (get?_eq_none h), get?_insert, if_pos rfl]

/-- There are as many entries as there are keys to insert. -/
theorem length_ofList (entries : List (String × Tag)) :
    (ofList entries).length = (entries.map Prod.fst).toFinset.card := by
  have hkeys : (keys (ofList entries)).toFinset = (entries.map Prod.fst).toFinset := by
    ext key
    rw [List.mem_toFinset, List.mem_toFinset, keys_ofList, List.mem_eraseDups]
  rw [← hkeys, List.toFinset_card_of_nodup (nodup_keys_ofList entries), keys, List.length_map]

/-! ## All of it -/

/-- What a compound has from the insertions that built it. -/
structure InsertionOrdered (entries : List (String × Tag)) (c : Compound) : Prop where
  /-- no key stands twice -/
  distinct : (keys c).Nodup
  /-- the keys are those that were inserted, in the order of their first insertions -/
  order : keys c = (entries.map Prod.fst).eraseDups
  /-- a key has the value of its last insertion -/
  last : ∀ before key tag after, entries = before ++ (key, tag) :: after →
    key ∉ after.map Prod.fst → get? key c = some tag
  /-- a key that was not inserted has no value -/
  absent : ∀ key, key ∉ entries.map Prod.fst → get? key c = none
  /-- there are as many entries as distinct keys -/
  count : c.length = (entries.map Prod.fst).toFinset.card
  /-- one more insertion gives its key the new value and every other key the old one -/
  value : ∀ key tag key',
    get? key' (insert key tag c) = if key = key' then some tag else get? key' c
  /-- the entries of other keys stay, and in the same order -/
  others : ∀ key tag, (insert key tag c).filter (fun e => e.1 ≠ key) = c.filter fun e => e.1 ≠ key
  /-- a key that is there keeps its place -/
  place : ∀ key tag, key ∈ keys c → keys (insert key tag c) = keys c
  /-- a new key goes to the end -/
  fresh : ∀ key tag, key ∉ keys c → insert key tag c = c ++ [(key, tag)]

/-- **A compound is a map in insertion order**, whatever is inserted and however often. -/
theorem insertionOrdered (entries : List (String × Tag)) :
    InsertionOrdered entries (ofList entries) where
  distinct := nodup_keys_ofList entries
  order := keys_ofList entries
  last := by
    rintro before key tag after rfl hlast
    exact get?_ofList_of_last hlast
  absent key hkey := by
    have hnone : key ∉ keys (ofList entries) := by rwa [keys_ofList, List.mem_eraseDups]
    exact get?_eq_none hnone
  count := length_ofList entries
  value key tag key' := get?_insert key key' tag _
  others key tag := filter_insert key tag _
  place _ _ hkey := keys_insert_of_mem hkey
  fresh _ _ hkey := insert_of_notMem hkey

/-- The key that comes again stays in front, with its new value. -/
example : ofList [("zeta", .int 1), ("alpha", .int 2), ("zeta", .int 3)] =
    [("zeta", .int 3), ("alpha", .int 2)] := by
  rfl

end Blueprint.Nbt.Compound
