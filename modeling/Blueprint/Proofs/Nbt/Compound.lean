import Blueprint.Nbt.Tag
import Mathlib.Data.List.Nodup

/-!
# Building compounds

Inserting keeps the keys of a compound distinct, and entries with distinct new keys are
appended as they come. So the compounds that can be built are those with distinct keys, and
building such a compound from its own entries gives it again.
-/

namespace Blueprint.Nbt.Compound

/-- A new key goes to the end. -/
theorem insert_of_notMem {key : String} {tag : Tag} {c : Compound} (h : key ∉ keys c) :
    insert key tag c = c ++ [(key, tag)] := by
  induction c with
  | nil => rfl
  | cons e c ih =>
    rw [keys, List.map_cons, List.mem_cons, not_or] at h
    rw [insert, if_neg (Ne.symm h.1), ih h.2, List.cons_append]

/-- A key that is there keeps its place, and so do all others. -/
theorem keys_insert_of_mem {key : String} {tag : Tag} {c : Compound} (h : key ∈ keys c) :
    keys (insert key tag c) = keys c := by
  induction c with
  | nil => cases h
  | cons e c ih =>
    rw [insert]
    split
    next heq => rw [keys, keys, List.map_cons, List.map_cons, heq]
    next hne =>
      rw [keys, List.map_cons, List.mem_cons] at h
      have htail := ih (h.resolve_left (Ne.symm hne))
      rw [keys, keys, List.map_cons, List.map_cons]
      exact congrArg (e.1 :: ·) htail

/-- To insert an entry brings no key in twice. -/
theorem nodup_keys_insert {key : String} {tag : Tag} {c : Compound} (h : (keys c).Nodup) :
    (keys (insert key tag c)).Nodup := by
  by_cases hmem : key ∈ keys c
  · rw [keys_insert_of_mem hmem]
    exact h
  · rw [insert_of_notMem hmem, keys, List.map_append]
    refine List.nodup_append.2 ⟨h, List.nodup_singleton key, ?_⟩
    intro k hk k' hk' heq
    rw [heq, List.mem_singleton.1 hk'] at hk
    exact hmem hk

/-- Inserting a value leaves only it and values that were there. -/
theorem mem_insert {key : String} {tag : Tag} {c : Compound} {e : String × Tag}
    (h : e ∈ insert key tag c) : e = (key, tag) ∨ e ∈ c := by
  induction c with
  | nil => exact .inl (List.mem_singleton.1 h)
  | cons a c ih =>
    rw [insert] at h
    split at h
    next =>
      rcases List.mem_cons.1 h with rfl | h
      · exact .inl rfl
      · exact .inr (List.mem_cons_of_mem a h)
    next =>
      rcases List.mem_cons.1 h with rfl | h
      · exact .inr List.mem_cons_self
      · exact (ih h).imp_right (List.mem_cons_of_mem a)

/-- Nor does inserting several. -/
theorem nodup_keys_insertAll {c : Compound} (h : (keys c).Nodup) (extra : List (String × Tag)) :
    (keys (insertAll c extra)).Nodup := by
  induction extra generalizing c with
  | nil => exact h
  | cons a extra ih => exact ih (nodup_keys_insert h)

/-- No key is twice in what is made of a list of entries. -/
theorem nodup_keys_ofList (entries : List (String × Tag)) : (keys (ofList entries)).Nodup :=
  nodup_keys_insertAll (c := []) List.nodup_nil entries

/-- Inserting entries one after another keeps what holds of all values. -/
theorem forall_insertAll {P : Tag → Prop} {c : Compound} {extra : List (String × Tag)}
    (hc : ∀ e ∈ c, P e.2) (hextra : ∀ e ∈ extra, P e.2) : ∀ e ∈ insertAll c extra, P e.2 := by
  induction extra generalizing c with
  | nil => exact hc
  | cons a extra ih =>
    obtain ⟨ha, hextra⟩ := List.forall_mem_cons.1 hextra
    refine ih (fun e he => ?_) hextra
    rcases mem_insert he with rfl | he
    · exact ha
    · exact hc e he

/-- Entries with new and distinct keys are appended. -/
theorem insertAll_of_nodup {c : Compound} {entries : List (String × Tag)}
    (h : (keys (c ++ entries)).Nodup) : insertAll c entries = c ++ entries := by
  induction entries generalizing c with
  | nil => rw [insertAll, List.foldl_nil, List.append_nil]
  | cons e entries ih =>
    have hnew : e.1 ∉ keys c := by
      rw [keys, List.map_append, List.map_cons] at h
      exact fun hmem => (List.nodup_append.1 h).2.2 e.1 hmem e.1 List.mem_cons_self rfl
    rw [← List.singleton_append, ← List.append_assoc] at h
    have htail := ih h
    rw [insertAll, List.foldl_cons, insert_of_notMem hnew, ← insertAll, htail,
      List.append_assoc, List.singleton_append]

/-- A compound with distinct keys is built from its own entries. -/
theorem ofList_of_nodup {entries : List (String × Tag)} (h : (keys entries).Nodup) :
    ofList entries = entries := insertAll_of_nodup h

/-! ## Inserting into like compounds -/

variable {c c' : Compound} {key : String}

/-- A new key comes behind those that are there. -/
theorem keys_insert (key : String) (tag : Tag) (c : Compound) :
    keys (insert key tag c) = if key ∈ keys c then keys c else keys c ++ [key] := by
  by_cases hmem : key ∈ keys c
  · rw [if_pos hmem, keys_insert_of_mem hmem]
  · rw [if_neg hmem, insert_of_notMem hmem, keys, List.map_append]
    rfl

/-- The keys after insertions depend on the keys before them alone. -/
theorem keys_insertAll_congr (h : keys c = keys c') (extra : List (String × Tag)) :
    keys (insertAll c extra) = keys (insertAll c' extra) := by
  induction extra generalizing c c' with
  | nil => exact h
  | cons e extra ih =>
    refine ih ?_
    rw [keys_insert, keys_insert, h]

/-- The value of a key after insertions depends on its value before them alone. -/
theorem get?_insertAll_congr (h : get? key c = get? key c') (extra : List (String × Tag)) :
    get? key (insertAll c extra) = get? key (insertAll c' extra) := by
  induction extra generalizing c c' with
  | nil => exact h
  | cons e extra ih =>
    refine ih ?_
    rw [get?_insert, get?_insert, h]

/-- A key that is not there has no value. -/
theorem get?_eq_none (h : key ∉ keys c) : get? key c = none := by
  induction c with
  | nil => rfl
  | cons e c ih =>
    rw [keys, List.map_cons, List.mem_cons, not_or] at h
    rw [get?, if_neg (Ne.symm h.1)]
    exact ih h.2

/-- A key that is not inserted keeps its value. -/
theorem get?_insertAll_of_get?_eq_none {extra : Compound} (h : get? key extra = none) :
    get? key (insertAll c extra) = get? key c := by
  induction extra generalizing c with
  | nil => rfl
  | cons e extra ih =>
    rw [get?] at h
    split at h
    next => cases h
    next hne =>
      refine (ih h).trans ?_
      rw [get?_insert, if_neg hne]

/-! ## Laying one compound over another -/

/-- Laid over a compound, another one adds its new keys behind those that are there. -/
theorem keys_insertAll {extra : Compound} (h : (keys extra).Nodup) :
    keys (insertAll c extra) = keys c ++ (keys extra).filter fun key => key ∉ keys c := by
  induction extra generalizing c with
  | nil => exact (List.append_nil _).symm
  | cons e extra ih =>
    obtain ⟨hnew, hnodup⟩ := List.nodup_cons.1 h
    refine (ih hnodup).trans ?_
    have hcons : keys (e :: extra) = e.1 :: keys extra := rfl
    rw [keys_insert, hcons]
    split
    next hthere => rw [List.filter_cons_of_neg (by simpa using hthere)]
    next hfree =>
      -- the other new keys are not the one that has just been added
      have hrest : (keys extra).filter (fun key => key ∉ keys c ++ [e.1]) =
          (keys extra).filter fun key => key ∉ keys c := by
        refine List.filter_congr fun key hkey => ?_
        have hne : key ≠ e.1 := fun heq => hnew (heq ▸ hkey)
        simp [hne]
      rw [List.filter_cons_of_pos (by simpa using hfree), hrest, List.append_assoc,
        List.singleton_append]

/-- Laid over a compound, another one has the say about its own keys. -/
theorem get?_insertAll {extra : Compound} (h : (keys extra).Nodup) (key : String) :
    get? key (insertAll c extra) = (get? key extra).or (get? key c) := by
  induction extra generalizing c with
  | nil => rfl
  | cons e extra ih =>
    obtain ⟨hnew, hnodup⟩ := List.nodup_cons.1 h
    refine (ih hnodup).trans ?_
    rw [get?_insert, get?]
    split
    next heq =>
      have hnone : get? key extra = none := get?_eq_none (heq ▸ hnew)
      rw [hnone]
      rfl
    next => rfl

end Blueprint.Nbt.Compound
