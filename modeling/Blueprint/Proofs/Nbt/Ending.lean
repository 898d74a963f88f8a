import Blueprint.Proofs.Nbt.Volume

/-!
# Reading ends

A reader is given fuel for the entries of compounds, and where the fuel is spent it says that the
bytes end too early. So that it always says something does not mean that it would come to an end
without fuel. The relations here know no fuel: how a payload ends is derived from how each list
and each compound in it ends, item by item and entry by entry. A derivation is a whole run, and
nothing is derived for a run that goes on forever.

There is a run for all bytes, it has the result that the reader gives, and no run has another.
The levels bound how deep it goes, and each round of a compound takes a byte at least.
-/

namespace Blueprint.Nbt

namespace Reader

variable {α β : Type}

/-! ## Results -/

/-- How reading ends: with a value and the bytes that are left, or with an error. -/
abbrev Ending (α : Type) := Except DecodeError (α × List UInt8)

/-- The ending with `g` applied to the value, if there is one. -/
def Ending.map (g : α → β) : Ending α → Ending β
  | .ok (a, rest) => .ok (g a, rest)
  | .error e => .error e

/-- A reader whose value is changed ends as it did, with the value changed. -/
theorem run_map (g : α → β) (r : Reader α) (input : List UInt8) :
    (g <$> r).run input = Ending.map g (r.run input) := by
  rcases h : r.run input with e | ⟨a, rest⟩
  · exact run_map_error g h
  · exact run_map_ok g h

/-! ## What stands before payloads -/

/-- The type of the items of a list and their number, before any of them. -/
def listHeader : Reader (UInt8 × Nat) := do
  let itemType ← byte
  let n ← length .list
  if itemType = 0 ∧ 0 < n then throw .terminatorList
  return (itemType, n)

/-- The type and the name before a payload; a terminator has neither. -/
def tagHeader : Reader (Option (UInt8 × String)) := do
  let type ← byte
  if type = 0 then return none
  let name ← string
  return some (type, name)

/-- What stands between `input` and `rest`, and that a list of terminators gets no further if it
says that it has items. -/
theorem listHeader_eq_ok {itemType : UInt8} {n : Nat} {input rest : List UInt8}
    (h : listHeader.run input = .ok ((itemType, n), rest)) :
    (itemType = 0 → n = 0) ∧
      ∃ written, Encode.length n = .ok written ∧ input = itemType :: (written ++ rest) := by
  obtain ⟨itemType', mid, hitemType, hmore⟩ := run_bind_eq_ok.1 h
  obtain ⟨n', mid', hn, hguard⟩ := run_bind_eq_ok.1 hmore
  obtain rfl := byte_eq_ok.1 hitemType
  by_cases hbad : itemType' = 0 ∧ 0 < n'
  · rw [if_pos hbad] at hguard
    cases hguard
  · simp only [if_neg hbad] at hguard
    obtain ⟨hpair, rfl⟩ := Prod.mk.inj (Except.ok.inj hguard)
    obtain ⟨rfl, rfl⟩ := Prod.mk.inj hpair
    obtain ⟨written, hwritten, rfl⟩ := length_eq_ok.1 hn
    refine ⟨fun hzero => ?_, written, hwritten, rfl⟩
    exact Nat.eq_zero_of_not_pos fun hpos => hbad ⟨hzero, hpos⟩

/-- A reader that starts with a type and a name and stops at a terminator. -/
theorem tagHeader_bind (last : Reader α) (next : UInt8 → String → Reader α) :
    (byte >>= fun type => if type = 0 then last else string >>= next type) =
      tagHeader >>= fun
        | none => last
        | some (type, name) => next type name := by
  simp only [tagHeader, bind_assoc]
  refine bind_congr fun type => ?_
  split
  · simp only [pure_bind]
  · simp only [bind_assoc, pure_bind]

/-! ## What is left -/

/-- The header of a list leaves no more bytes than there were. -/
theorem listHeader_le {header : UInt8 × Nat} {input rest : List UInt8}
    (h : listHeader.run input = .ok (header, rest)) : rest.length ≤ input.length := by
  obtain ⟨-, written, -, rfl⟩ := listHeader_eq_ok h
  simp only [List.length_cons, List.length_append]
  omega

/-- Every round of a compound takes a byte at least. -/
theorem tagHeader_lt {header : Option (UInt8 × String)} {input rest : List UInt8}
    (h : tagHeader.run input = .ok (header, rest)) : rest.length < input.length := by
  obtain ⟨type, mid, htype, hmore⟩ := run_bind_eq_ok.1 h
  obtain rfl := byte_eq_ok.1 htype
  by_cases hzero : type = 0
  · rw [if_pos hzero] at hmore
    obtain ⟨-, rfl⟩ := Prod.mk.inj (Except.ok.inj hmore)
    exact Nat.lt_succ_self _
  · simp only [if_neg hzero] at hmore
    obtain ⟨name, mid', hname, hend⟩ := run_bind_eq_ok.1 hmore
    obtain ⟨-, rfl⟩ := Prod.mk.inj (Except.ok.inj hend)
    obtain ⟨written, -, rfl⟩ := string_eq_ok.1 hname
    simp only [List.length_cons, List.length_append]
    omega

/-- Nor does a payload. -/
theorem payload_le {fuel levels : Nat} {type : UInt8} {input rest : List UInt8} {t : Tag}
    (h : (payload fuel levels type).run input = .ok (t, rest)) : rest.length ≤ input.length := by
  obtain ⟨spelled, front, -, -, -, rfl⟩ := payload_spelled levels h
  rw [List.length_append]
  exact Nat.le_add_left _ _

/-- Only the payload of a terminator takes nothing. -/
theorem one_add_le_of_payload {fuel levels : Nat} {type : UInt8} (htype : type ≠ 0)
    {input rest : List UInt8} {t : Tag}
    (h : (payload fuel levels type).run input = .ok (t, rest)) :
    1 + rest.length ≤ input.length := by
  obtain ⟨spelled, front, rfl, hfront, -, rfl⟩ := payload_spelled levels h
  rw [List.length_append]
  exact Nat.add_le_add_right (Encode.length_payload_pos htype hfront) _

/-- As many values as were asked for, each for bytes of its own. -/
theorem replicate_le {item : Reader α} {width : Nat}
    (hitem : ∀ {input rest a}, item.run input = .ok (a, rest) →
      width + rest.length ≤ input.length) {n : Nat} {input rest : List UInt8} {values : List α}
    (h : (replicate item n).run input = .ok (values, rest)) :
    values.length = n ∧ n * width + rest.length ≤ input.length := by
  induction n generalizing input values with
  | zero =>
    obtain ⟨rfl, rfl⟩ := Prod.mk.inj (Except.ok.inj h)
    exact ⟨rfl, by omega⟩
  | succ n ih =>
    obtain ⟨first, mid, hfirst, hmore⟩ := run_bind_eq_ok.1 h
    obtain ⟨values, mid', hvalues, hend⟩ := run_bind_eq_ok.1 hmore
    obtain ⟨rfl, rfl⟩ := Prod.mk.inj (Except.ok.inj hend)
    obtain ⟨hlength, hle⟩ := ih hvalues
    have hwidth := hitem hfirst
    rw [List.length_cons, hlength, Nat.succ_mul]
    exact ⟨rfl, by omega⟩

/-- A number takes its own bytes. -/
theorem word_le {width n : Nat} {input rest : List UInt8}
    (h : (word width).run input = .ok (n, rest)) : width + rest.length ≤ input.length := by
  obtain ⟨-, rfl⟩ := word_eq_ok.1 h
  exact Nat.le_of_eq (by rw [List.length_append, BigEndian.length_encode])

/-! ## Runs -/

mutual

/-- `PayloadEnds levels type input r`: the payload of a tag of the type, where so many lists and
compounds may still be opened, is read from `input` and ends with `r`. -/
inductive PayloadEnds : (levels : Nat) → (type : UInt8) → List UInt8 → Ending Tag → Prop where
  /-- there is no level left -/
  | tooDeep {type : UInt8} {input : List UInt8} : PayloadEnds 0 type input (.error .tooDeep)
  /-- a tag that holds no others is read in one go, and needs no fuel -/
  | leaf {levels : Nat} {type : UInt8} {input : List UInt8} (hlist : type ≠ 9)
      (hcompound : type ≠ 10) :
      PayloadEnds (levels + 1) type input ((payload 0 (levels + 1) type).run input)
  /-- a list whose header is broken -/
  | noList {levels : Nat} {input : List UInt8} {e : DecodeError}
      (h : listHeader.run input = .error e) : PayloadEnds (levels + 1) 9 input (.error e)
  /-- a list ends with its items -/
  | list {levels n : Nat} {itemType : UInt8} {input mid : List UInt8} {r : Ending (List Tag)}
      (h : listHeader.run input = .ok ((itemType, n), mid))
      (hitems : ItemsEnd levels itemType n mid r) :
      PayloadEnds (levels + 1) 9 input (Ending.map (Tag.list itemType) r)
  /-- a compound ends with its entries -/
  | compound {levels : Nat} {input : List UInt8} {r : Ending Compound}
      (hentries : EntriesEnd levels [] input r) :
      PayloadEnds (levels + 1) 10 input (Ending.map Tag.compound r)

/-- `ItemsEnd levels type n input r`: `n` payloads are read one after another. -/
inductive ItemsEnd :
    (levels : Nat) → (type : UInt8) → (n : Nat) → List UInt8 → Ending (List Tag) → Prop where
  /-- there is no item left to read -/
  | none {levels : Nat} {type : UInt8} {input : List UInt8} :
      ItemsEnd levels type 0 input (.ok ([], input))
  /-- an item that is broken -/
  | broken {levels n : Nat} {type : UInt8} {input : List UInt8} {e : DecodeError}
      (h : PayloadEnds levels type input (.error e)) : ItemsEnd levels type (n + 1) input (.error e)
  /-- an item, and the others after it -/
  | next {levels n : Nat} {type : UInt8} {input mid : List UInt8} {t : Tag}
      {r : Ending (List Tag)} (h : PayloadEnds levels type input (.ok (t, mid)))
      (hmore : ItemsEnd levels type n mid r) :
      ItemsEnd levels type (n + 1) input (Ending.map (t :: ·) r)

/-- `EntriesEnd levels read input r`: entries are read up to the terminator and inserted after
those read before. -/
inductive EntriesEnd :
    (levels : Nat) → (read : Compound) → List UInt8 → Ending Compound → Prop where
  /-- an entry whose type or key is broken -/
  | broken {levels : Nat} {read : Compound} {input : List UInt8} {e : DecodeError}
      (h : tagHeader.run input = .error e) : EntriesEnd levels read input (.error e)
  /-- the terminator -/
  | last {levels : Nat} {read : Compound} {input rest : List UInt8}
      (h : tagHeader.run input = .ok (none, rest)) : EntriesEnd levels read input (.ok (read, rest))
  /-- an entry whose value is broken -/
  | brokenValue {levels : Nat} {read : Compound} {input mid : List UInt8} {type : UInt8}
      {key : String} {e : DecodeError} (h : tagHeader.run input = .ok (some (type, key), mid))
      (hvalue : PayloadEnds levels type mid (.error e)) : EntriesEnd levels read input (.error e)
  /-- an entry, and the others after it -/
  | next {levels : Nat} {read : Compound} {input mid mid' : List UInt8} {type : UInt8}
      {key : String} {t : Tag} {r : Ending Compound}
      (h : tagHeader.run input = .ok (some (type, key), mid))
      (hvalue : PayloadEnds levels type mid (.ok (t, mid')))
      (hmore : EntriesEnd levels (Compound.insert key t read) mid' r) :
      EntriesEnd levels read input r

end

/-! ## The rounds of a reader -/

/-- A payload with no tags in it needs no fuel. -/
theorem payload_leaf_eq {type : UInt8} (hlist : type ≠ 9) (hcompound : type ≠ 10)
    (fuel levels : Nat) : payload fuel (levels + 1) type = payload 0 (levels + 1) type := by
  simp only [payload]
  split
  case h_10 heq => exact absurd (UInt8.toNat_inj.1 heq) hlist
  case h_11 heq => exact absurd (UInt8.toNat_inj.1 heq) hcompound
  all_goals rfl

/-- A list is a header and as many items. -/
theorem payload_list_eq (fuel levels : Nat) :
    payload fuel (levels + 1) 9 = listHeader >>= fun header =>
      Tag.list header.1 <$> replicate (payload fuel levels header.1) header.2 := by
  rw [payload_list, listHeader]
  simp only [bind_assoc]
  refine bind_congr fun itemType => bind_congr fun n => ?_
  split
  · rfl
  · simp only [pure_bind]

/-- Items are read one after another. -/
theorem replicate_succ_eq (item : Reader α) (n : Nat) :
    replicate item (n + 1) = item >>= fun first => (first :: ·) <$> replicate item n := by
  simp only [replicate, bind_pure_comp]

/-- Entries are read one after another, up to the end of the compound. -/
theorem entries_succ_eq (value : UInt8 → Reader Tag) (fuel : Nat) (read : Compound) :
    entries value (fuel + 1) read = tagHeader >>= fun
      | none => return read
      | some (type, key) => value type >>= fun tag =>
        entries value fuel (Compound.insert key tag read) :=
  tagHeader_bind (pure read) fun type key => value type >>= fun tag =>
    entries value fuel (Compound.insert key tag read)

/-! ## Every reader has a run -/

/-- The payloads below have runs, with fuel for the bytes they are read from and one more. -/
def HaveRuns (fuel levels : Nat) : Prop :=
  ∀ (type : UInt8) {input : List UInt8}, input.length < fuel →
    PayloadEnds levels type input ((payload fuel levels type).run input)

/-- The runs of the items of a list are those of the reader. -/
theorem itemsEnd_replicate {fuel levels : Nat} (hpayload : HaveRuns fuel levels) (type : UInt8)
    (n : Nat) {input : List UInt8} (hfuel : input.length < fuel) :
    ItemsEnd levels type n input ((replicate (payload fuel levels type) n).run input) := by
  induction n generalizing input with
  | zero => exact .none
  | succ n ih =>
    have hfirst := hpayload type hfuel
    rw [replicate_succ_eq]
    rcases h : (payload fuel levels type).run input with e | ⟨t, mid⟩
    · rw [h] at hfirst
      rw [run_bind_error h]
      exact .broken hfirst
    · rw [h] at hfirst
      rw [run_bind_ok h, run_map]
      exact .next hfirst (ih (Nat.lt_of_le_of_lt (payload_le h) hfuel))

/-- The rounds are as many as the bytes at most, because each of them takes one. -/
theorem entriesEnd_entries {fuel levels : Nat} (hpayload : HaveRuns fuel levels) (rounds : Nat)
    (read : Compound) {input : List UInt8} (hrounds : input.length < rounds)
    (hfuel : input.length < fuel) :
    EntriesEnd levels read input ((entries (payload fuel levels) rounds read).run input) := by
  induction rounds generalizing read input with
  | zero => exact absurd hrounds (Nat.not_lt_zero _)
  | succ rounds ih =>
    rw [entries_succ_eq]
    -- the header fails, ends the compound, or names an entry whose value fails or is read
    rcases h : tagHeader.run input with e | ⟨_ | ⟨type, key⟩, mid⟩
    · rw [run_bind_error h]
      exact .broken h
    · rw [run_bind_ok h]
      exact .last h
    · have hmid := tagHeader_lt h
      have hvalue := hpayload type (Nat.lt_trans hmid hfuel)
      rw [run_bind_ok h]
      dsimp only
      rcases hv : (payload fuel levels type).run mid with e | ⟨t, mid'⟩
      · rw [hv] at hvalue
        rw [run_bind_error hv]
        exact .brokenValue h hvalue
      · have hmid' := payload_le hv
        rw [hv] at hvalue
        -- an entry takes bytes, so the rounds and the fuel last for the rest
        rw [run_bind_ok hv]
        exact .next h hvalue (ih _ (by omega) (by omega))

/-- **Every payload has a run**, and the reader gives its result. -/
theorem haveRuns (fuel levels : Nat) : HaveRuns fuel levels := by
  -- the type of an item is only known from the header, so the induction is on the levels
  induction levels with
  | zero =>
    intro type input _
    exact .tooDeep
  | succ levels ih =>
    intro type input hfuel
    by_cases hlist : type = 9
    · rw [hlist, payload_list_eq]
      rcases h : listHeader.run input with e | ⟨⟨itemType, n⟩, mid⟩
      · rw [run_bind_error h]
        exact .noList h
      · rw [run_bind_ok h, run_map]
        have hmid := Nat.lt_of_le_of_lt (listHeader_le h) hfuel
        exact .list h (itemsEnd_replicate ih itemType n hmid)
    · by_cases hcompound : type = 10
      · rw [hcompound, payload_compound, run_map]
        exact .compound (entriesEnd_entries ih fuel [] hfuel hfuel)
      · rw [payload_leaf_eq hlist hcompound]
        exact .leaf hlist hcompound

/-! ## A run has one result

By recursion on the run. The fuel stays what it was at the root; it is enough everywhere because
less and less of the bytes is left. -/

mutual

/-- What a run of a payload ends with is what the reader gives. -/
theorem PayloadEnds.run_eq {levels : Nat} {type : UInt8} {input : List UInt8} {r : Ending Tag}
    {fuel : Nat} (hfuel : input.length < fuel) :
    PayloadEnds levels type input r → (payload fuel levels type).run input = r
  | .tooDeep => rfl
  | .leaf hlist hcompound => by rw [payload_leaf_eq hlist hcompound]
  | .noList h => by rw [payload_list_eq, run_bind_error h]
  | .list h hitems => by
    have hmid := Nat.lt_of_le_of_lt (listHeader_le h) hfuel
    rw [payload_list_eq, run_bind_ok h, run_map, hitems.run_eq hmid]
  | .compound hentries => by
    rw [payload_compound, run_map, hentries.run_eq hfuel hfuel]

/-- So it is for the items of a list. -/
theorem ItemsEnd.run_eq {levels n : Nat} {type : UInt8} {input : List UInt8}
    {r : Ending (List Tag)} {fuel : Nat} (hfuel : input.length < fuel) :
    ItemsEnd levels type n input r → (replicate (payload fuel levels type) n).run input = r
  | .none => rfl
  | .broken h => by rw [replicate_succ_eq, run_bind_error (h.run_eq hfuel)]
  | .next h hmore => by
    have hfirst := h.run_eq hfuel
    have hmid := Nat.lt_of_le_of_lt (payload_le hfirst) hfuel
    rw [replicate_succ_eq, run_bind_ok hfirst, run_map, hmore.run_eq hmid]

/-- And for the entries of a compound. -/
theorem EntriesEnd.run_eq {levels : Nat} {read : Compound} {input : List UInt8}
    {r : Ending Compound} {fuel rounds : Nat} (hfuel : input.length < fuel)
    (hrounds : input.length < rounds) :
    EntriesEnd levels read input r → (entries (payload fuel levels) rounds read).run input = r := by
  obtain ⟨rounds, rfl⟩ := Nat.exists_eq_add_one.2 (Nat.zero_lt_of_lt hrounds)
  rw [entries_succ_eq]
  exact fun
  | .broken h => run_bind_error h
  | .last h => run_bind_ok h
  | .brokenValue h hvalue => by
    have hmid := tagHeader_lt h
    rw [run_bind_ok h]
    exact run_bind_error (hvalue.run_eq (by omega))
  | .next h hvalue hmore => by
    have hmid := tagHeader_lt h
    have ht : (payload fuel levels _).run _ = _ := hvalue.run_eq (by omega)
    have hmid' := payload_le ht
    rw [run_bind_ok h]
    exact (run_bind_ok ht).trans (hmore.run_eq (by omega) (by omega))

end

end Reader

/-! ## Whole tags -/

namespace Tag

open Reader

/-- `ReadEnds input r`: a tag with its name is read from `input` and ends with `r`. -/
inductive ReadEnds : List UInt8 → Ending (String × Tag) → Prop where
  /-- a type or a name that is broken -/
  | broken {input : List UInt8} {e : DecodeError} (h : tagHeader.run input = .error e) :
      ReadEnds input (.error e)
  /-- a terminator, which has the empty name -/
  | terminator {input rest : List UInt8} (h : tagHeader.run input = .ok (none, rest)) :
      ReadEnds input (.ok (("", .terminator), rest))
  /-- a tag ends with its payload -/
  | tag {input mid : List UInt8} {type : UInt8} {name : String} {r : Ending Tag}
      (h : tagHeader.run input = .ok (some (type, name), mid))
      (hpayload : PayloadEnds (maxDepth + 1) type mid r) :
      ReadEnds input (Ending.map (fun t => (name, t)) r)

/-- A tag is read by its header and its payload. -/
theorem readWith_eq (fuel : Nat) :
    readWith fuel = tagHeader >>= fun
      | none => return ("", .terminator)
      | some (type, name) => (fun t => (name, t)) <$> payload fuel (maxDepth + 1) type := by
  simp only [← bind_pure_comp]
  exact tagHeader_bind (pure ("", .terminator)) fun type name =>
    payload fuel (maxDepth + 1) type >>= fun t => pure (name, t)

/-- Reading comes to an end, with the one result that it gives. -/
theorem readEnds_iff {input : List UInt8} {r : Ending (String × Tag)} :
    ReadEnds input r ↔ read.run input = r := by
  rw [read_run, readWith_eq]
  refine ⟨?_, ?_⟩
  · rintro (h | h | ⟨h, hpayload⟩)
    · exact run_bind_error h
    · exact run_bind_ok h
    · have hmid := tagHeader_lt h
      rw [run_bind_ok h]
      dsimp only
      rw [run_map, hpayload.run_eq (by omega)]
  · rintro rfl
    rcases h : tagHeader.run input with e | ⟨_ | ⟨type, name⟩, mid⟩
    · rw [run_bind_error h]
      exact .broken h
    · rw [run_bind_ok h]
      exact .terminator h
    · have hmid := tagHeader_lt h
      rw [run_bind_ok h]
      dsimp only
      rw [run_map]
      exact .tag h (haveRuns _ _ type (by omega))

/-! ## What reading comes to -/

/-- Reading from these bytes ends, and gives nothing that they do not pay for. -/
structure ReadBounded (input : List UInt8) : Prop where
  /-- there is a run, and it has the result that the reader gives -/
  ends : ∀ r, ReadEnds input r ↔ read.run input = r
  /-- from `k` bytes comes a tag of no more volume, with the bytes of its name counted in -/
  volume : ∀ name t rest, read.run input = .ok ((name, t), rest) →
    ∃ k ≤ input.length, rest = input.drop k ∧ (Encode.utf8 name).length + t.volume ≤ k
  /-- nothing stands deeper than is allowed -/
  depth : ∀ name t rest, read.run input = .ok ((name, t), rest) → t.Within 512
  /-- whatever number of items the header of a list says, those that were read so far have taken
  a byte each -/
  items : ∀ levels itemType n mid, listHeader.run input = .ok ((itemType, n), mid) →
    ∀ m ≤ n, ∀ items rest, ItemsEnd levels itemType m mid (.ok (items, rest)) →
      items.length = m ∧ m + rest.length ≤ mid.length
  /-- so have the numbers of an array, of any width -/
  numbers : ∀ {α : Type} (ofNat : Nat → α) (width m : Nat) values rest,
    (replicate (ofNat <$> word width) m).run input = .ok (values, rest) →
      values.length = m ∧ m * width + rest.length ≤ input.length

/-- **Reading ends for all bytes**, no deeper than is allowed and with no more than the bytes pay
for. -/
theorem read_bounded (input : List UInt8) : ReadBounded input where
  ends _ := readEnds_iff
  volume name t rest h := by
    obtain ⟨front, rfl, hle⟩ := volume_le_read h
    exact ⟨front.length, by simp, by simp, hle⟩
  depth name t rest h := (fits_succ_iff.1 (read_fits h).1).1
  items levels itemType n mid hheader m hm items rest hitems := by
    have hread := hitems.run_eq (Nat.lt_succ_self mid.length)
    -- only items that are there show that the type is not that of a terminator
    rcases Nat.eq_zero_or_pos m with rfl | hpos
    · obtain ⟨rfl, rfl⟩ := Prod.mk.inj (Except.ok.inj hread)
      exact ⟨rfl, Nat.le_of_eq (Nat.zero_add _)⟩
    · have htype : itemType ≠ 0 := by
        intro hzero
        have hnone := (listHeader_eq_ok hheader).1 hzero
        omega
      obtain ⟨hlength, hle⟩ := replicate_le (one_add_le_of_payload htype) hread
      exact ⟨hlength, by omega⟩
  numbers ofNat width m values rest h := by
    refine replicate_le (fun hnumber => ?_) h
    obtain ⟨n, hn, -⟩ := run_map_eq_ok.1 hnumber
    exact word_le hn

/-- A list that says it has 2147483647 items, and one of them. -/
example : read.run [9, 0, 0, 1, 127, 255, 255, 255, 5] = .error .unexpectedEnd := by
  cbv

end Tag

end Blueprint.Nbt
