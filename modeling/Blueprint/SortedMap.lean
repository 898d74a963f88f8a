/-!
# Finite maps with sorted keys

Properties of a block state, palettes, rules and templates are all small maps whose
entries are shown, compared and numbered in key order. `SortedMap` keeps them as the
list of its entries with strictly increasing keys:

* **one form**: the keys never repeat and their order is fixed, so two maps with the
  same entries are the same value, whatever order they were built in;
* **one view**: every operation is described by what it does to `get?`.

Strings are compared character by character, which is also the order of their UTF-8
bytes.
-/

namespace Blueprint

universe u v w

/-- A finite map from `κ` to `α`, held as its entries in increasing key order. -/
structure SortedMap (κ : Type u) (α : Type v) [Ord κ] where
  /-- the entries -/
  entries : List (κ × α)
  /-- the keys increase strictly -/
  sorted : entries.Pairwise fun a b => compare a.1 b.1 = .lt

namespace SortedMap

variable {κ : Type u} {α : Type v} [Ord κ]

/-- A map is its list of entries; the proof of sortedness carries nothing. -/
theorem eq_of_entries_eq {m n : SortedMap κ α} (h : m.entries = n.entries) : m = n := by
  cases m; cases n; subst h; rfl

instance [DecidableEq κ] [DecidableEq α] : DecidableEq (SortedMap κ α) := fun m n =>
  if h : m.entries = n.entries then .isTrue (eq_of_entries_eq h)
  else .isFalse fun e => h (congrArg entries e)

/-- The map with no entry. -/
def empty : SortedMap κ α := ⟨[], .nil⟩

instance : EmptyCollection (SortedMap κ α) := ⟨empty⟩

instance : Inhabited (SortedMap κ α) := ⟨empty⟩

/-- The keys, in increasing order. -/
def keys (m : SortedMap κ α) : List κ := m.entries.map Prod.fst

/-- The values, in the order of their keys. -/
def values (m : SortedMap κ α) : List α := m.entries.map Prod.snd

/-- The number of entries. -/
def size (m : SortedMap κ α) : Nat := m.entries.length

/-- Whether the map has no entry. -/
def isEmpty (m : SortedMap κ α) : Bool := m.entries.isEmpty

/-- The value found under `key` in a list of entries. -/
def lookupEntry (key : κ) : List (κ × α) → Option α
  | [] => none
  | (k, v) :: rest => if compare key k = .eq then some v else lookupEntry key rest

/-- The value under `key`, if there is one. -/
def get? (m : SortedMap κ α) (key : κ) : Option α := lookupEntry key m.entries

/-- Whether `key` has a value. -/
def contains (m : SortedMap κ α) (key : κ) : Bool := (m.get? key).isSome

/-- Puts an entry at its place in a sorted list, instead of one with the same key. -/
def insertEntry (key : κ) (value : α) : List (κ × α) → List (κ × α)
  | [] => [(key, value)]
  | e :: rest =>
    match compare key e.1 with
    | .lt => (key, value) :: e :: rest
    | .eq => (key, value) :: rest
    | .gt => e :: insertEntry key value rest

/-- An insertion brings in no key but its own. -/
theorem mem_insertEntry {key : κ} {value : α} {l : List (κ × α)} {e : κ × α}
    (h : e ∈ insertEntry key value l) : e = (key, value) ∨ e ∈ l := by
  induction l with
  | nil => simpa [insertEntry] using h
  | cons a l ih =>
    simp only [insertEntry] at h
    split at h
    · simpa using h
    · rcases List.mem_cons.1 h with h | h
      · exact .inl h
      · exact .inr (List.mem_cons_of_mem _ h)
    · rcases List.mem_cons.1 h with h | h
      · exact .inr (h ▸ List.mem_cons_self)
      · exact (ih h).imp_right (List.mem_cons_of_mem _)

/-- The same keys with other values are sorted as before. -/
theorem sorted_map {β : Type w} (f : κ → α → β) {l : List (κ × α)}
    (h : l.Pairwise fun a b => compare a.1 b.1 = .lt) :
    (l.map fun e => (e.1, f e.1 e.2)).Pairwise fun a b => compare a.1 b.1 = .lt := by
  simpa [List.pairwise_map] using h

/-- Applies `f` to every key and its value and keeps the keys. -/
def map {β : Type w} (f : κ → α → β) (m : SortedMap κ α) : SortedMap κ β :=
  ⟨m.entries.map fun e => (e.1, f e.1 e.2), sorted_map f m.sorted⟩

/-- The entries that `keep` accepts. -/
def filter (keep : κ → α → Bool) (m : SortedMap κ α) : SortedMap κ α :=
  ⟨m.entries.filter fun e => keep e.1 e.2, m.sorted.filter _⟩

/-- The map without a value for `key`. -/
def erase (m : SortedMap κ α) (key : κ) : SortedMap κ α :=
  m.filter fun k _ => compare key k != .eq

@[simp] theorem get?_empty (key : κ) : (empty : SortedMap κ α).get? key = none := rfl

@[simp] theorem get?_map {β : Type w} [Std.LawfulEqOrd κ] (f : κ → α → β) (m : SortedMap κ α)
    (key : κ) : (m.map f).get? key = (m.get? key).map (f key) := by
  simp only [get?, map]
  induction m.entries with
  | nil => rfl
  | cons e l ih =>
    by_cases h : compare key e.1 = .eq
    · simp [lookupEntry, Std.LawfulEqOrd.eq_of_compare h]
    · simp [lookupEntry, h, ih]

/-! ## Insertion -/

variable [Std.TransOrd κ]

/-- An insertion keeps the keys strictly increasing. -/
theorem sorted_insertEntry {key : κ} {value : α} {l : List (κ × α)}
    (h : l.Pairwise fun a b => compare a.1 b.1 = .lt) :
    (insertEntry key value l).Pairwise fun a b => compare a.1 b.1 = .lt := by
  induction l with
  | nil => simp [insertEntry]
  | cons e l ih =>
    obtain ⟨he, hl⟩ := List.pairwise_cons.1 h
    simp only [insertEntry]
    split
    next hlt =>
      refine List.pairwise_cons.2 ⟨fun b hb => ?_, h⟩
      rcases List.mem_cons.1 hb with rfl | hb
      · exact hlt
      · exact Std.TransCmp.lt_trans hlt (he b hb)
    next heq =>
      exact List.pairwise_cons.2 ⟨fun b hb => Std.TransCmp.lt_of_eq_of_lt heq (he b hb), hl⟩
    next hgt =>
      refine List.pairwise_cons.2 ⟨fun b hb => ?_, ih hl⟩
      rcases mem_insertEntry hb with rfl | hb
      · exact Std.OrientedCmp.lt_of_gt hgt
      · exact he b hb

/-- Gives `key` the value `value`, instead of the one it has. -/
def insert (m : SortedMap κ α) (key : κ) (value : α) : SortedMap κ α :=
  ⟨insertEntry key value m.entries, sorted_insertEntry m.sorted⟩

/-- The map built by inserting the entries one after another: of entries with the same
key the last counts. -/
def ofList (l : List (κ × α)) : SortedMap κ α :=
  l.foldl (fun m e => m.insert e.1 e.2) empty

/-- After an insertion its key has the new value and every other key the old one. -/
theorem lookupEntry_insertEntry (key key' : κ) (value : α) (l : List (κ × α)) :
    lookupEntry key' (insertEntry key value l) =
      if compare key' key = .eq then some value else lookupEntry key' l := by
  induction l with
  | nil => simp [insertEntry, lookupEntry]
  | cons e l ih =>
    simp only [insertEntry]
    split
    · simp [lookupEntry]
    next heq =>
      by_cases h : compare key' key = .eq
      · simp [lookupEntry, h]
      · have : compare key' e.1 ≠ .eq := fun h' =>
          h (Std.TransCmp.eq_trans h' (Std.OrientedCmp.eq_symm heq))
        simp [lookupEntry, h, this]
    next hgt =>
      by_cases h : compare key' key = .eq
      · have : compare key' e.1 = .gt := by
          rw [Std.TransCmp.congr_left h]; exact hgt
        simp [lookupEntry, ih, h, this]
      · simp [lookupEntry, ih, h]

@[simp] theorem get?_insert (m : SortedMap κ α) (key key' : κ) (value : α) :
    (m.insert key value).get? key' =
      if compare key' key = .eq then some value else m.get? key' :=
  lookupEntry_insertEntry key key' value m.entries

end SortedMap

end Blueprint
