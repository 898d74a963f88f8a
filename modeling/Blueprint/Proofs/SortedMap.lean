import Blueprint.Proofs.Outcome
import Blueprint.SortedMap

/-!
# What is in a sorted map

Membership among the entries and looking up a key say the same, because no key stands twice.
For the same reason a map that is built from entries with distinct keys holds just these, in
whatever order they come.
-/

namespace Blueprint.SortedMap

universe u v w

variable {κ : Type u} {α : Type v} {β : Type w} [Ord κ] [Std.TransOrd κ]

/-- No key is in a map twice. -/
theorem nodup_keys (m : SortedMap κ α) : m.keys.Nodup := by
  rw [keys, List.Nodup, List.pairwise_map]
  refine m.sorted.imp fun {a b} hlt heq => ?_
  rw [heq, Std.ReflOrd.compare_self] at hlt
  cases hlt

/-- After an insertion, where equal keys are the same key. -/
theorem get?_insert_of_lawful [Std.LawfulEqOrd κ] [DecidableEq κ] (m : SortedMap κ α)
    (key key' : κ) (value : α) :
    (m.insert key value).get? key' = if key' = key then some value else m.get? key' := by
  simp only [get?_insert, Std.LawfulEqCmp.compare_eq_iff_eq]

/-! ## Values mapped one by one -/

/-- Mapping the values of a map and inserting the mapped value is the same in either order. -/
theorem map_insert (f : α → β) (m : SortedMap κ α) (key : κ) (value : α) :
    (m.insert key value).map (fun _ => f) = (m.map fun _ => f).insert key (f value) := by
  refine eq_of_entries_eq ?_
  simp only [map, insert]
  induction m.entries with
  | nil => rfl
  | cons e entries ih =>
    simp only [List.map_cons, insertEntry]
    cases hkey : compare key e.1 with
    | lt => rfl
    | eq => rfl
    | gt => exact congrArg ((e.1, f e.2) :: ·) ih

/-- Building a map and mapping its values is the same in either order. -/
theorem map_ofList (f : α → β) (l : List (κ × α)) :
    (ofList l).map (fun _ => f) = ofList (l.map fun e => (e.1, f e.2)) := by
  have hfold (m : SortedMap κ α) :
      (l.foldl (fun m e => m.insert e.1 e.2) m).map (fun _ => f) =
        (l.map fun e => (e.1, f e.2)).foldl (fun m e => m.insert e.1 e.2) (m.map fun _ => f) := by
    induction l generalizing m with
    | nil => rfl
    | cons e l ih => rw [List.foldl_cons, List.map_cons, List.foldl_cons, ih, map_insert]
  exact hfold empty

/-! ## Looking up -/

omit [Std.TransOrd κ] in
/-- Looking up a key finds the entry with that key. -/
theorem get?_eq_some_iff [Std.LawfulEqOrd κ] {m : SortedMap κ α} {key : κ} {value : α} :
    m.get? key = some value ↔ (key, value) ∈ m.entries := by
  have hsorted := m.sorted
  rw [get?]
  generalize m.entries = entries at hsorted ⊢
  induction entries with
  | nil => simp [lookupEntry]
  | cons e entries ih =>
    obtain ⟨he, hsorted⟩ := List.pairwise_cons.1 hsorted
    rw [lookupEntry, List.mem_cons]
    split
    next heq =>
      obtain rfl := Std.LawfulEqOrd.eq_of_compare heq
      have hfresh : (e.1, value) ∉ entries := fun hmem => by
        have hlt := he _ hmem
        rw [Std.ReflOrd.compare_self] at hlt
        cases hlt
      simp [hfresh, Prod.ext_iff, eq_comm]
    next hne =>
      have hother : (key, value) ≠ e := fun heq => hne (heq ▸ Std.ReflOrd.compare_self)
      simp [ih hsorted, hother]

/-- Two maps that find the same are one. -/
theorem ext_get? [Std.LawfulEqOrd κ] {m n : SortedMap κ α} (h : ∀ key, m.get? key = n.get? key) :
    m = n := by
  have hnodup (m : SortedMap κ α) : m.entries.Nodup :=
    List.Pairwise.of_map Prod.fst (fun _ _ hne heq => hne (congrArg Prod.fst heq)) m.nodup_keys
  refine eq_of_entries_eq (List.Perm.eq_of_pairwise (fun a b _ _ hab hba => ?_) m.sorted n.sorted
    ((List.perm_ext_iff_of_nodup (hnodup m) (hnodup n)).2 fun e => ?_))
  · rw [Std.OrientedCmp.gt_of_lt hba] at hab
    cases hab
  · rw [← get?_eq_some_iff, ← get?_eq_some_iff, h]

omit [Std.TransOrd κ] in
/-- After a key is taken away, every other key has its value. -/
theorem get?_erase [Std.LawfulEqOrd κ] [DecidableEq κ] (m : SortedMap κ α) (key key' : κ) :
    (m.erase key).get? key' = if key' = key then none else m.get? key' := by
  refine Option.ext fun value => ?_
  rw [get?_eq_some_iff]
  by_cases h : key' = key
  · simp [erase, filter, h]
  · have hne : compare key key' ≠ .eq := fun heq => h (Std.LawfulEqOrd.eq_of_compare heq).symm
    simp [erase, filter, h, hne, ← get?_eq_some_iff]

/-! ## Maps of entries with distinct keys -/

/-- Two maps with the same entries are one: their order is fixed. -/
theorem eq_of_perm {m n : SortedMap κ α} (h : m.entries.Perm n.entries) : m = n := by
  refine eq_of_entries_eq (h.eq_of_pairwise (fun a b _ _ hab hba => ?_) m.sorted n.sorted)
  rw [Std.OrientedCmp.gt_of_lt hba] at hab
  cases hab

variable [Std.LawfulEqOrd κ]

/-- Inserting a new key adds one entry. -/
theorem perm_insert (m : SortedMap κ α) {key : κ} (value : α) (h : key ∉ m.keys) :
    (m.insert key value).entries.Perm ((key, value) :: m.entries) := by
  rw [keys] at h
  change (insertEntry key value m.entries).Perm _
  generalize m.entries = entries at h ⊢
  induction entries with
  | nil => exact .refl _
  | cons e entries ih =>
    rw [List.map_cons, List.mem_cons, not_or] at h
    simp only [insertEntry]
    split
    next => exact .refl _
    next heq => exact absurd (Std.LawfulEqOrd.eq_of_compare heq) h.1
    next => exact ((ih h.2).cons e).trans (.swap _ _ _)

/-- Inserting new and distinct keys one after another adds all their entries. -/
theorem perm_foldl_insert {l : List (κ × α)} (hl : (l.map Prod.fst).Nodup) {m : SortedMap κ α}
    (hm : ∀ e ∈ l, e.1 ∉ m.keys) :
    (l.foldl (fun m e => m.insert e.1 e.2) m).entries.Perm (l ++ m.entries) := by
  induction l generalizing m with
  | nil => exact .refl _
  | cons e l ih =>
    obtain ⟨he, hl⟩ := List.nodup_cons.1 hl
    obtain ⟨hfree, hm⟩ := List.forall_mem_cons.1 hm
    have hinsert := m.perm_insert e.2 hfree
    refine (ih hl fun e' he' => ?_).trans ((hinsert.append_left l).trans List.perm_middle)
    rw [keys, (hinsert.map Prod.fst).mem_iff, List.map_cons, List.mem_cons, not_or]
    exact ⟨fun heq => he (heq ▸ List.mem_map_of_mem he'), hm e' he'⟩

/-- A map made of entries with different keys has these entries. -/
theorem perm_ofList {l : List (κ × α)} (h : (l.map Prod.fst).Nodup) :
    (ofList l).entries.Perm l := by
  have hempty : ∀ e ∈ l, e.1 ∉ (empty : SortedMap κ α).keys := fun _ _ => List.not_mem_nil
  exact (perm_foldl_insert h hempty).trans (.of_eq (List.append_nil l))

/-- Entries with distinct keys make the same map in whatever order they come. -/
theorem ofList_congr {l l' : List (κ × α)} (h : (l.map Prod.fst).Nodup) (hperm : l.Perm l') :
    ofList l = ofList l' := by
  have h' : (l'.map Prod.fst).Nodup := (hperm.map Prod.fst).nodup_iff.1 h
  exact eq_of_perm ((perm_ofList h).trans (hperm.trans (perm_ofList h').symm))

/-- A map is made of its own entries. -/
theorem ofList_entries (m : SortedMap κ α) : ofList m.entries = m :=
  eq_of_perm (perm_ofList m.nodup_keys)

omit [Std.TransOrd κ] in
/-- A map has a value for each of its keys and for no other one. -/
theorem contains_iff_mem_keys {m : SortedMap κ α} {key : κ} :
    m.contains key = true ↔ key ∈ m.keys := by
  rw [contains, Option.isSome_iff_exists, keys, List.mem_map]
  refine ⟨?_, ?_⟩
  · rintro ⟨value, hvalue⟩
    exact ⟨_, get?_eq_some_iff.1 hvalue, rfl⟩
  · rintro ⟨e, he, rfl⟩
    exact ⟨e.2, get?_eq_some_iff.2 he⟩

/-! ## Maps with the same keys -/

/-- Two entries with one key, and with values that belong together. -/
def EntryRel (R : α → β → Prop) (e : κ × α) (e' : κ × β) : Prop := e.1 = e'.1 ∧ R e.2 e'.2

/-- Two maps with the same keys, and with values that belong together. -/
def Rel (R : α → β → Prop) (m : SortedMap κ α) (n : SortedMap κ β) : Prop :=
  List.Forall₂ (EntryRel R) m.entries n.entries

variable {R : α → β → Prop} {m : SortedMap κ α} {n : SortedMap κ β}

omit [Ord κ] [Std.TransOrd κ] [Std.LawfulEqOrd κ] in
/-- Entries that belong to each other have the same keys. -/
theorem keys_eq_of_forall₂ {l : List (κ × α)} {l' : List (κ × β)}
    (h : List.Forall₂ (EntryRel R) l l') : l.map Prod.fst = l'.map Prod.fst := by
  rw [← List.forall₂_eq_eq_eq, List.forall₂_map_left_iff, List.forall₂_map_right_iff]
  exact h.imp fun _ _ he => he.1

omit [Std.TransOrd κ] [Std.LawfulEqOrd κ] in
/-- Maps that belong to each other have the same keys. -/
theorem Rel.keys_eq (h : m.Rel R n) : m.keys = n.keys := keys_eq_of_forall₂ h

omit [Std.TransOrd κ] [Std.LawfulEqOrd κ] in
/-- So one of them is empty if the other one is. -/
theorem Rel.isEmpty_eq (h : m.Rel R n) : m.isEmpty = n.isEmpty := by
  rw [isEmpty, isEmpty, Bool.eq_iff_iff, List.isEmpty_iff_length_eq_zero,
    List.isEmpty_iff_length_eq_zero, h.length_eq]

omit [Std.TransOrd κ] in
/-- And one has a value for a key if the other one has. -/
theorem Rel.contains_iff (h : m.Rel R n) {key : κ} :
    m.contains key = true ↔ n.contains key = true := by
  rw [contains_iff_mem_keys, contains_iff_mem_keys, h.keys_eq]

omit [Std.TransOrd κ] [Std.LawfulEqOrd κ] in
/-- Under one key, both have a value or neither does, and the values belong together. -/
theorem Rel.get? (h : m.Rel R n) (key : κ) : Option.Rel R (m.get? key) (n.get? key) := by
  have hlookup {l : List (κ × α)} {l' : List (κ × β)} (h : List.Forall₂ (EntryRel R) l l') :
      Option.Rel R (lookupEntry key l) (lookupEntry key l') := by
    induction h with
    | nil => exact .none
    | @cons e e' _ _ he _ ih =>
      rw [lookupEntry, lookupEntry, he.1]
      split
      next => exact .some he.2
      next => exact ih
  exact hlookup h

omit [Std.TransOrd κ] [Std.LawfulEqOrd κ] in
/-- A value in one of them belongs to a value in the other one. -/
theorem Rel.exists_value (h : m.Rel R n) {key : κ} {value : α} (hvalue : m.get? key = some value) :
    ∃ value', n.get? key = some value' ∧ R value value' := by
  have hrel := h.get? key
  rw [hvalue] at hrel
  cases hget : n.get? key with
  | none => simp [hget] at hrel
  | some value' => exact ⟨value', rfl, by simpa [hget] using hrel⟩

omit [Std.TransOrd κ] [Std.LawfulEqOrd κ] in
/-- All values have what all values that belong to them have. -/
theorem Rel.forall_iff {P : α → Prop} {Q : β → Prop} (h : m.Rel R n)
    (hvalue : ∀ value value', R value value' → (P value ↔ Q value')) :
    (∀ key value, m.get? key = some value → P value) ↔
      ∀ key value', n.get? key = some value' → Q value' := by
  refine forall_congr' fun key => ?_
  have hrel := h.get? key
  generalize m.get? key = found, n.get? key = found' at hrel
  cases hrel with
  | none => simp
  | some hsome => simp [hvalue _ _ hsome]

omit [Std.TransOrd κ] [Std.LawfulEqOrd κ] in
/-- What is asked of the values of one map may be asked before they are compared. -/
theorem rel_and_left_iff {P : α → Prop} :
    m.Rel (fun value value' => P value ∧ R value value') n ↔
      (∀ e ∈ m.entries, P e.2) ∧ m.Rel R n := by
  have hentry : EntryRel (κ := κ) (fun value value' => P value ∧ R value value') =
      fun e e' => P e.2 ∧ EntryRel R e e' := funext₂ fun _ _ => propext and_left_comm
  rw [Rel, hentry, List.forall₂_and_left, Rel]

/-- Entries that belong to those of a map are sorted as they are. -/
theorem rel_iff_exists :
    m.Rel R n ↔ ∃ l, List.Forall₂ (EntryRel R) m.entries l ∧ n = ofList l := by
  refine ⟨fun h => ⟨n.entries, h, (ofList_entries n).symm⟩, ?_⟩
  rintro ⟨l, hl, rfl⟩
  have hsorted : l.Pairwise fun a b => compare a.1 b.1 = .lt := by
    rw [← List.pairwise_map (f := Prod.fst) (R := fun a b => compare a b = .lt),
      ← keys_eq_of_forall₂ hl, List.pairwise_map]
    exact m.sorted
  rw [show ofList l = ⟨l, hsorted⟩ from ofList_entries ⟨l, hsorted⟩]
  exact hl

/-- If every value belongs to some value, the map belongs to some map. -/
theorem exists_rel (h : ∀ e ∈ m.entries, ∃ value, R e.2 value) : ∃ n, m.Rel R n := by
  obtain ⟨l, hl⟩ : ∃ l, List.Forall₂ (EntryRel R) m.entries l :=
    Outcome.exists_forall₂_iff.2 fun e he =>
      let ⟨value, hvalue⟩ := h e he
      ⟨(e.1, value), rfl, hvalue⟩
  exact ⟨ofList l, rel_iff_exists.2 ⟨l, hl, rfl⟩⟩

end Blueprint.SortedMap
