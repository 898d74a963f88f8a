import Blueprint.Proofs.Nbt.Compound
import Blueprint.Proofs.Nbt.RoundTrip

/-!
# What can be read

Whatever bytes a reader is given, a tag that comes out of it has no key twice in a compound,
no terminator in a list, and nothing deeper than the reader was allowed to go. So a tag that
was read once can be written and read again, as long as it is not put deeper than before.
-/

namespace Blueprint.Nbt

namespace Reader

variable {α β : Type}

/-! ## Sequences of readers that succeed -/

/-- Two readers one after another read what the first one reads, and then what the second one does.
-/
theorem run_bind_eq_ok {r : Reader α} {f : α → Reader β} {input rest : List UInt8} {b : β} :
    (r >>= f).run input = .ok (b, rest) ↔
      ∃ a mid, r.run input = .ok (a, mid) ∧ (f a).run mid = .ok (b, rest) := by
  rw [StateT.run_bind, Outcome.bind_eq_ok]
  refine ⟨?_, ?_⟩
  · rintro ⟨⟨a, mid⟩, ha, hb⟩
    exact ⟨a, mid, ha, hb⟩
  · rintro ⟨a, mid, ha, hb⟩
    exact ⟨(a, mid), ha, hb⟩

/-- A reader whose value is changed takes the same bytes. -/
theorem run_map_eq_ok {r : Reader α} {g : α → β} {input rest : List UInt8} {b : β} :
    (g <$> r).run input = .ok (b, rest) ↔ ∃ a, r.run input = .ok (a, rest) ∧ g a = b := by
  rw [StateT.run_map, Outcome.map_eq_ok]
  refine ⟨?_, ?_⟩
  · rintro ⟨⟨a, mid⟩, ha, hb⟩
    obtain ⟨rfl, rfl⟩ := Prod.mk.inj hb
    exact ⟨a, ha, rfl⟩
  · rintro ⟨a, ha, rfl⟩
    exact ⟨(a, rest), ha, rfl⟩

/-- What holds of every value that a reader can give holds of all values read in a row. -/
theorem replicate_all {item : Reader α} {P : α → Prop}
    (h : ∀ input a rest, item.run input = .ok (a, rest) → P a) {n : Nat}
    {input rest : List UInt8} {values : List α}
    (hread : (replicate item n).run input = .ok (values, rest)) :
    values.length = n ∧ ∀ a ∈ values, P a := by
  induction n generalizing input values with
  | zero =>
    obtain ⟨rfl, rfl⟩ := Prod.mk.inj (Except.ok.inj hread)
    exact ⟨rfl, fun a ha => absurd ha List.not_mem_nil⟩
  | succ n ih =>
    rw [replicate, run_bind_eq_ok] at hread
    obtain ⟨first, mid, hfirst, hread⟩ := hread
    obtain ⟨more, mid', hmore, hend⟩ := run_bind_eq_ok.1 hread
    obtain ⟨rfl, rfl⟩ := Prod.mk.inj (Except.ok.inj hend)
    obtain ⟨hlength, hall⟩ := ih hmore
    rw [List.length_cons, hlength]
    exact ⟨rfl, List.forall_mem_cons.2 ⟨h _ _ _ hfirst, hall⟩⟩

/-- Entries that are read join those before them, under keys that stay distinct. -/
theorem entries_all {value : UInt8 → Reader Tag} {P : Tag → Prop}
    (h : ∀ type input t rest, (value type).run input = .ok (t, rest) → P t) {fuel : Nat}
    {read c : Compound} {input rest : List UInt8} (hkeys : (Compound.keys read).Nodup)
    (hvalues : ∀ e ∈ read, P e.2) (hread : (entries value fuel read).run input = .ok (c, rest)) :
    (Compound.keys c).Nodup ∧ ∀ e ∈ c, P e.2 := by
  induction fuel generalizing read input with
  | zero => cases hread
  | succ fuel ih =>
    rw [entries, run_bind_eq_ok] at hread
    obtain ⟨type, mid, -, hread⟩ := hread
    by_cases htype : type = 0
    · rw [if_pos htype] at hread
      obtain ⟨rfl, rfl⟩ := Prod.mk.inj (Except.ok.inj hread)
      exact ⟨hkeys, hvalues⟩
    · simp only [if_neg htype] at hread
      obtain ⟨key, mid, -, hread⟩ := run_bind_eq_ok.1 hread
      obtain ⟨t, mid, ht, hread⟩ := run_bind_eq_ok.1 hread
      refine ih (Compound.nodup_keys_insert hkeys) (fun e he => ?_) hread
      rcases Compound.mem_insert he with rfl | he
      · exact h _ _ _ _ ht
      · exact hvalues e he

/-! ## Payloads that were read -/

/-- A tag made of a value that holds no tags holds none. -/
theorem map_isLeaf {r : Reader α} {g : α → Tag} (hg : ∀ a, (g a).isLeaf)
    {input rest : List UInt8} {t : Tag} (h : (g <$> r).run input = .ok (t, rest)) : t.isLeaf := by
  obtain ⟨a, -, rfl⟩ := run_map_eq_ok.1 h
  exact hg a

/-- A payload is a leaf, a list whose items were read one level further down, or a compound
whose values were. -/
theorem payload_cases {fuel levels : Nat} {type : UInt8} {input rest : List UInt8} {t : Tag}
    (h : (payload fuel (levels + 1) type).run input = .ok (t, rest)) :
    t.isLeaf ∨
    (∃ itemType items n start, t = .list itemType items ∧ ¬ (itemType = 0 ∧ 0 < n) ∧
      (replicate (payload fuel levels itemType) n).run start = .ok (items, rest)) ∨
    (∃ c, t = .compound c ∧
      (entries (payload fuel levels) fuel []).run input = .ok (c, rest)) := by
  rw [payload] at h
  -- the end tag reads nothing
  split at h
  case h_1 =>
    obtain ⟨rfl, -⟩ := Prod.mk.inj (Except.ok.inj h)
    exact .inl rfl
  -- a list, whose items read one level further down
  case h_10 =>
    obtain ⟨itemType, mid, -, h⟩ := run_bind_eq_ok.1 h
    obtain ⟨n, mid, -, h⟩ := run_bind_eq_ok.1 h
    by_cases hbad : itemType = 0 ∧ 0 < n
    · rw [if_pos hbad] at h
      cases h
    · simp only [if_neg hbad] at h
      obtain ⟨items, hitems, rfl⟩ := run_map_eq_ok.1 h
      exact .inr (.inl ⟨itemType, items, n, mid, rfl, hbad, hitems⟩)
  -- a compound, whose entries do
  case h_11 =>
    obtain ⟨c, hc, rfl⟩ := run_map_eq_ok.1 h
    exact .inr (.inr ⟨c, rfl, hc⟩)
  case h_14 => cases h
  all_goals exact .inl (map_isLeaf (fun _ => rfl) h)

/-- **Payloads that were read** fit the levels of their reader and have no key twice. -/
theorem payload_fits {fuel : Nat} (levels : Nat) {type : UInt8} {input rest : List UInt8} {t : Tag}
    (h : (payload fuel levels type).run input = .ok (t, rest)) :
    t.Fits levels ∧ t.KeysDistinct := by
  -- the tag is only known once it is read, so the induction is on the levels
  induction levels generalizing type input rest t with
  | zero => cases h
  | succ levels ih =>
    rcases payload_cases h with
      hleaf | ⟨itemType, items, n, start, rfl, hbad, hread⟩ | ⟨c, rfl, hread⟩
    · exact ⟨Tag.fits_leaf hleaf, Tag.keysDistinct_leaf hleaf⟩
    · obtain ⟨rfl, hitems⟩ := replicate_all (fun input u rest hu => ih hu) hread
      have hempty : itemType = 0 → items = [] := fun hzero =>
        List.eq_nil_of_length_eq_zero (Nat.eq_zero_of_not_pos fun hpos => hbad ⟨hzero, hpos⟩)
      exact ⟨Tag.fits_list.2 ⟨hempty, fun u hu => (hitems u hu).1⟩,
        Tag.keysDistinct_list.2 fun u hu => (hitems u hu).2⟩
    · have hempty : (Compound.keys []).Nodup := List.nodup_nil
      obtain ⟨hkeys, hvalues⟩ := entries_all (fun type input u rest hu => ih hu) hempty
        (fun e he => absurd he List.not_mem_nil) hread
      exact ⟨Tag.fits_compound.2 fun e he => (hvalues e he).1,
        Tag.keysDistinct_compound.2 ⟨hkeys, fun e he => (hvalues e he).2⟩⟩

end Reader

/-! ## Tags that were read -/

namespace Tag

/-- **A tag that was read** fits below the root and has no key twice. -/
theorem read_fits {input rest : List UInt8} {name : String} {t : Tag}
    (h : read.run input = .ok ((name, t), rest)) : t.Fits (maxDepth + 1) ∧ t.KeysDistinct := by
  rw [read] at h
  obtain ⟨bytes, mid, -, h⟩ := Reader.run_bind_eq_ok.1 h
  obtain ⟨type, mid, -, h⟩ := Reader.run_bind_eq_ok.1 h
  by_cases htype : type = 0
  · rw [if_pos htype] at h
    obtain ⟨hpair, -⟩ := Prod.mk.inj (Except.ok.inj h)
    obtain ⟨-, rfl⟩ := Prod.mk.inj hpair
    exact ⟨fits_leaf rfl, keysDistinct_leaf rfl⟩
  · simp only [if_neg htype] at h
    obtain ⟨name, mid, -, h⟩ := Reader.run_bind_eq_ok.1 h
    obtain ⟨u, mid, hu, h⟩ := Reader.run_bind_eq_ok.1 h
    obtain ⟨hpair, -⟩ := Prod.mk.inj (Except.ok.inj h)
    obtain ⟨-, rfl⟩ := Prod.mk.inj hpair
    exact Reader.payload_fits (maxDepth + 1) hu

end Tag

end Blueprint.Nbt
