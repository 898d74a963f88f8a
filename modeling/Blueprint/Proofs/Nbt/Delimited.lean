import Blueprint.Proofs.Nbt.Document

/-!
# Tags end by themselves

What a reader takes from the front of some bytes decides its result: whatever follows, it
takes the same bytes and gives the same value, and if any of them is missing it runs into the
end of the bytes, never into a broken rule and never into a shorter value.

A reader of entries is given fuel, and the fuel of a document is counted from all of its
bytes, so other bytes after the tag mean other fuel. Hence a reader is taken here as a family
with one member for each amount of fuel, and what one member has read is related to what all
the others do.
-/

namespace Blueprint.Nbt

/-! ## Readers that stop by themselves -/

/-- With fuel for the bytes `front` and one more, the readers take exactly `front` for `a`;
with a part of `front` only they want more. -/
structure Takes {α : Type} (r : Nat → Reader α) (front : List UInt8) (a : α) : Prop where
  /-- the result does not depend on what follows -/
  whole : ∀ {fuel : Nat} (rest : List UInt8), front.length < fuel →
    (r fuel).run (front ++ rest) = .ok (a, rest)
  /-- a part of the bytes is no value -/
  part : ∀ {fuel m : Nat}, m < front.length → m < fuel →
    (r fuel).run (front.take m) = .error .unexpectedEnd

/-- What the reader gives with this fuel it gives for the bytes it has taken alone. -/
def DelimitedAt {α : Type} (r : Nat → Reader α) (fuel : Nat) : Prop :=
  ∀ ⦃input rest : List UInt8⦄ ⦃a : α⦄, (r fuel).run input = .ok (a, rest) →
    ∃ front, input = front ++ rest ∧ Takes r front a

namespace Takes

variable {α β : Type} {r : Nat → Reader α} {a : α} {front : List UInt8}

/-- To give a value takes no bytes. -/
theorem pure (a : α) : Takes (fun _ => (Pure.pure a : Reader α)) [] a := by
  refine ⟨?_, ?_⟩
  · intro fuel rest _
    rfl
  · intro fuel m hm
    exact absurd hm (Nat.not_lt_zero m)

/-- One reader after another: the bytes end in the first part or in the second. -/
theorem bind {f : Nat → α → Reader β} {b : β} {back : List UInt8} (hr : Takes r front a)
    (hf : Takes (fun fuel => f fuel a) back b) :
    Takes (fun fuel => r fuel >>= f fuel) (front ++ back) b := by
  refine ⟨?_, ?_⟩
  · intro fuel rest hfuel
    rw [List.length_append] at hfuel
    rw [List.append_assoc, Reader.run_bind_ok (hr.whole _ (by omega))]
    exact hf.whole rest (by omega)
  · intro fuel m hm hfuel
    rw [List.length_append] at hm
    rw [List.take_append]
    rcases Nat.lt_or_ge m front.length with hlt | hge
    · have hnone : back.take (m - front.length) = [] := by
        rw [Nat.sub_eq_zero_of_le (Nat.le_of_lt hlt), List.take_zero]
      rw [hnone, List.append_nil]
      exact Reader.run_bind_error (hr.part hlt hfuel)
    · rw [List.take_of_length_le hge, Reader.run_bind_ok (hr.whole _ (by omega))]
      exact hf.part (by omega) (by omega)

/-- What is made of the value does not change the bytes that are taken. -/
theorem map (g : α → β) (hr : Takes r front a) :
    Takes (fun fuel => g <$> r fuel) front (g a) := by
  refine ⟨?_, ?_⟩
  · intro fuel rest hfuel
    exact Reader.run_map_ok g (hr.whole rest hfuel)
  · intro fuel m hm hfuel
    exact Reader.run_map_error g (hr.part hm hfuel)

/-- A round of a loop, paid for by the byte in front of it. -/
theorem byte_cons {f : Nat → UInt8 → Reader α} {b : UInt8} {back : List UInt8}
    (hr : ∀ fuel, r (fuel + 1) = Reader.byte >>= f fuel)
    (hf : Takes (fun fuel => f fuel b) back a) : Takes r (b :: back) a := by
  refine ⟨?_, ?_⟩
  · intro fuel rest hfuel
    obtain ⟨fuel, rfl⟩ := Nat.exists_eq_add_one.2 (Nat.zero_lt_of_lt hfuel)
    rw [List.length_cons] at hfuel
    rw [hr, List.cons_append, Reader.run_bind_ok (Reader.byte_cons b _)]
    exact hf.whole rest (by omega)
  · intro fuel m hm hfuel
    obtain ⟨fuel, rfl⟩ := Nat.exists_eq_add_one.2 (Nat.zero_lt_of_lt hfuel)
    rw [List.length_cons] at hm
    rw [hr]
    cases m with
    | zero => rfl
    | succ m =>
      rw [List.take_succ_cons, Reader.run_bind_ok (Reader.byte_cons b _)]
      exact hf.part (by omega) (by omega)

end Takes

namespace DelimitedAt

variable {α β : Type} {r : Nat → Reader α} {fuel : Nat}

/-- To give a value is delimited. -/
theorem pure (a : α) (fuel : Nat) : DelimitedAt (fun _ => (Pure.pure a : Reader α)) fuel := by
  intro input rest a' h
  obtain ⟨rfl, rfl⟩ := Prod.mk.inj (Except.ok.inj h)
  exact ⟨[], rfl, .pure a⟩

/-- To fail is delimited, since nothing is read. -/
theorem throw (e : DecodeError) (fuel : Nat) :
    DelimitedAt (fun _ => (MonadExcept.throw e : Reader α)) fuel := by
  intro input rest a h
  cases h

/-- Two readers one after another are delimited. -/
theorem bind {f : Nat → α → Reader β} (hr : DelimitedAt r fuel)
    (hf : ∀ a, DelimitedAt (fun fuel => f fuel a) fuel) :
    DelimitedAt (fun fuel => r fuel >>= f fuel) fuel := by
  intro input rest b h
  obtain ⟨a, mid, ha, hb⟩ := Reader.run_bind_eq_ok.1 h
  obtain ⟨front, rfl, hfront⟩ := hr ha
  obtain ⟨back, rfl, hback⟩ := hf a hb
  exact ⟨front ++ back, (List.append_assoc front back rest).symm, hfront.bind hback⟩

/-- So is a reader whose value is changed. -/
theorem map (g : α → β) (hr : DelimitedAt r fuel) :
    DelimitedAt (fun fuel => g <$> r fuel) fuel := by
  intro input rest b h
  obtain ⟨a, ha, rfl⟩ := Reader.run_map_eq_ok.1 h
  obtain ⟨front, rfl, hfront⟩ := hr ha
  exact ⟨front, rfl, hfront.map g⟩

/-- So is a choice between two. -/
theorem ite {p : Prop} [Decidable p] {r' : Nat → Reader α} (hr : p → DelimitedAt r fuel)
    (hr' : ¬ p → DelimitedAt r' fuel) :
    DelimitedAt (fun fuel => if p then r fuel else r' fuel) fuel := by
  by_cases h : p
  · simp only [if_pos h]
    exact hr h
  · simp only [if_neg h]
    exact hr' h

/-- More fuel for all members does no harm. -/
theorem shift (extra : Nat) (hr : DelimitedAt r (fuel + extra)) :
    DelimitedAt (fun fuel => r (fuel + extra)) fuel := by
  intro input rest a h
  obtain ⟨front, rfl, hfront⟩ := hr h
  refine ⟨front, rfl, ?_, ?_⟩
  · intro fuel rest hfuel
    exact hfront.whole rest (by omega)
  · intro fuel m hm hfuel
    exact hfront.part hm (by omega)

end DelimitedAt

/-! ## Single values -/

/-- The bytes that were split off, and that there are as many as was asked for. -/
theorem splitExact_eq_some {n : Nat} {input front rest : List UInt8}
    (h : splitExact n input = some (front, rest)) : input = front ++ rest ∧ front.length = n := by
  induction n generalizing input front with
  | zero =>
    obtain ⟨rfl, rfl⟩ := Prod.mk.inj (Option.some.inj h)
    exact ⟨rfl, rfl⟩
  | succ n ih =>
    cases input with
    | nil => cases h
    | cons b input =>
      rw [splitExact, Option.map_eq_some_iff] at h
      obtain ⟨⟨front', rest'⟩, hsplit, hpair⟩ := h
      obtain ⟨rfl, rfl⟩ := Prod.mk.inj hpair
      obtain ⟨rfl, rfl⟩ := ih hsplit
      exact ⟨rfl, rfl⟩

/-- No more bytes can be taken than there are. -/
theorem splitExact_eq_none {n : Nat} {input : List UInt8} (h : input.length < n) :
    splitExact n input = none := by
  rcases hsplit : splitExact n input with _ | ⟨front, rest⟩
  · rfl
  · obtain ⟨rfl, rfl⟩ := splitExact_eq_some hsplit
    rw [List.length_append] at h
    omega

namespace Reader

variable {α : Type}

/-- Some bytes are delimited by their number. -/
theorem delimitedAt_bytes (n fuel : Nat) : DelimitedAt (fun _ => bytes n) fuel := by
  intro input rest front h
  rcases hsplit : splitExact n input with _ | result
  · simp only [bytes, StateT.run, hsplit] at h
    cases h
  · simp only [bytes, StateT.run, hsplit] at h
    obtain rfl := Except.ok.inj h
    obtain ⟨rfl, rfl⟩ := splitExact_eq_some hsplit
    refine ⟨front, rfl, ?_, ?_⟩
    · intro fuel rest _
      exact bytes_append front rest
    · intro fuel m hm _
      have hshort : (front.take m).length < front.length := by
        rw [List.length_take]
        omega
      simp only [bytes, StateT.run, splitExact_eq_none hshort]

/-- So is a number of some bytes. -/
theorem delimitedAt_word (width fuel : Nat) : DelimitedAt (fun _ => word width) fuel :=
  (delimitedAt_bytes width fuel).map BigEndian.decode

/-- So is a single byte. -/
theorem delimitedAt_byte (fuel : Nat) : DelimitedAt (fun _ => byte) fuel :=
  (delimitedAt_word 1 fuel).map UInt8.ofNat

/-- A byte is read off the front. -/
theorem byte_eq_ok {input rest : List UInt8} {b : UInt8} :
    byte.run input = .ok (b, rest) ↔ input = b :: rest := by
  cases input with
  | nil => exact iff_of_false (fun h => by cases h) (List.cons_ne_nil b rest).symm
  | cons c input => rw [byte_cons, Except.ok.injEq, Prod.mk.injEq, List.cons.injEq]

/-- A text is delimited by its length. -/
theorem delimitedAt_string (fuel : Nat) : DelimitedAt (fun _ => string) fuel := by
  refine (delimitedAt_word 2 fuel).bind fun length => ?_
  refine (delimitedAt_bytes length fuel).bind fun text => ?_
  rcases String.fromUTF8? ⟨text.toArray⟩ with _ | s
  · exact .throw .notUtf8 fuel
  · exact .pure s fuel

/-- A count is delimited. -/
theorem delimitedAt_length (what : Counted) (fuel : Nat) :
    DelimitedAt (fun _ => length what) fuel := by
  refine (delimitedAt_word 4 fuel).bind fun n => ?_
  dsimp only
  split
  · exact .throw _ fuel
  · exact .pure _ fuel

/-- Items are delimited if each of them is. -/
theorem delimitedAt_replicate {item : Nat → Reader α} {fuel : Nat} (h : DelimitedAt item fuel)
    (n : Nat) : DelimitedAt (fun fuel => replicate (item fuel) n) fuel := by
  induction n with
  | zero => exact .pure [] fuel
  | succ n ih => exact h.bind fun first => ih.bind fun rest => .pure (first :: rest) fuel

/-- An array is delimited by its count. -/
theorem delimitedAt_array (what : Counted) (width : Nat) (ofNat : Nat → α) (fuel : Nat) :
    DelimitedAt (fun _ => array what width ofNat) fuel := by
  refine (delimitedAt_length what fuel).bind fun n => ?_
  exact delimitedAt_replicate ((delimitedAt_word width fuel).map ofNat) n

/-! ## Tags -/

/-- What is left of a round of `entries` after its first byte. -/
def entriesAfter (value : UInt8 → Reader Tag) (fuel : Nat) (read : Compound) (type : UInt8) :
    Reader Compound := do
  if type = 0 then return read
  let key ← string
  let tag ← value type
  entries value fuel (Compound.insert key tag read)

/-- A round reads a byte, and goes on with what it says. -/
theorem entries_succ (value : UInt8 → Reader Tag) (fuel : Nat) (read : Compound) :
    entries value (fuel + 1) read = byte >>= entriesAfter value fuel read := rfl

/-- Entries are delimited if their values are. The first byte of an entry pays for the round
that reads it, so a round less of fuel is left for a byte less of input. -/
theorem delimitedAt_entries {value : Nat → UInt8 → Reader Tag}
    (hvalue : ∀ fuel type, DelimitedAt (fun fuel => value fuel type) fuel) (fuel extra : Nat)
    (read : Compound) :
    DelimitedAt (fun fuel => entries (value (fuel + extra)) fuel read) fuel := by
  induction fuel generalizing extra read with
  | zero =>
    intro input rest c h
    cases h
  | succ fuel ih =>
    -- the reader of a value gets the fuel of the whole, the rounds one less each time
    have hround (type : UInt8) : DelimitedAt
        (fun fuel => entriesAfter (value (fuel + (1 + extra))) fuel read type) fuel := by
      refine .ite (fun _ => .pure read fuel) fun _ => ?_
      refine (delimitedAt_string fuel).bind fun key => ?_
      refine ((hvalue _ type).shift (1 + extra)).bind fun tag => ?_
      exact ih (1 + extra) (Compound.insert key tag read)
    intro input rest c h
    simp only [entries_succ, Nat.add_assoc] at h
    obtain ⟨type, mid, htype, hmore⟩ := run_bind_eq_ok.1 h
    obtain ⟨back, rfl, hback⟩ := hround type hmore
    obtain rfl := byte_eq_ok.1 htype
    refine ⟨type :: back, rfl, .byte_cons (fun fuel => ?_) hback⟩
    simp only [entries_succ, Nat.add_assoc]

/-- A payload is delimited at every depth. -/
theorem delimitedAt_payload (fuel levels : Nat) (type : UInt8) :
    DelimitedAt (fun fuel => payload fuel levels type) fuel := by
  induction levels generalizing fuel type with
  | zero => exact .throw .tooDeep fuel
  | succ levels ih =>
    simp only [payload]
    split
    case h_1 => exact .pure Tag.terminator fuel
    case h_10 =>
      refine (delimitedAt_byte fuel).bind fun itemType => ?_
      refine (delimitedAt_length .list fuel).bind fun n => ?_
      refine .ite (fun _ => .throw .terminatorList fuel) fun _ => ?_
      exact (delimitedAt_replicate (ih fuel itemType) n).map (Tag.list itemType)
    case h_11 => exact (delimitedAt_entries ih fuel 0 []).map Tag.compound
    case h_14 => exact .throw (.unknownType type) fuel
    case h_8 | h_12 | h_13 => exact (delimitedAt_array _ _ _ fuel).map _
    case h_9 => exact (delimitedAt_string fuel).map Tag.string
    all_goals exact (delimitedAt_word _ fuel).map _

end Reader

/-! ## Whole tags -/

namespace Tag

/-- A tag with its name, read with this fuel. -/
def readWith (fuel : Nat) : Reader (String × Tag) := do
  let type ← Reader.byte
  if type = 0 then return ("", .terminator)
  let name ← Reader.string
  let tag ← Reader.payload fuel (maxDepth + 1) type
  return (name, tag)

/-- A document has fuel for all of its bytes and one more. -/
theorem read_run (input : List UInt8) :
    read.run input = (readWith (input.length + 1)).run input := by
  rw [read, Reader.run_bind_ok rfl, readWith]

/-- A tag is delimited, with its name. -/
theorem delimitedAt_readWith (fuel : Nat) : DelimitedAt readWith fuel := by
  refine (Reader.delimitedAt_byte fuel).bind fun type => ?_
  refine .ite (fun _ => .pure ("", terminator) fuel) fun _ => ?_
  refine (Reader.delimitedAt_string fuel).bind fun name => ?_
  refine (Reader.delimitedAt_payload fuel (maxDepth + 1) type).bind fun tag => ?_
  exact .pure (name, tag) fuel

/-- **A tag ends by itself.** The bytes it was read from give it again whatever follows, and
a part of them is too short for any tag. -/
theorem read_front {input rest : List UInt8} {name : String} {t : Tag}
    (h : read.run input = .ok ((name, t), rest)) :
    ∃ front, input = front ++ rest ∧
      (∀ other, read.run (front ++ other) = .ok ((name, t), other)) ∧
      ∀ m, m < front.length → read.run (front.take m) = .error .unexpectedEnd := by
  rw [read_run] at h
  obtain ⟨front, rfl, hfront⟩ := delimitedAt_readWith _ h
  refine ⟨front, rfl, ?_, ?_⟩
  · intro other
    -- the fuel is one more than there are bytes, so it is enough for those that were taken
    rw [read_run]
    exact hfront.whole other (by rw [List.length_append]; omega)
  · intro m hm
    rw [read_run]
    exact hfront.part hm (by rw [List.length_take]; omega)

end Tag

/-! ## Documents one after another -/

namespace Document

/-- A document that comes back from its own bytes comes back from them whatever follows. -/
theorem read_encode_append {d : Document} {written left : List UInt8}
    (hw : d.encode = .ok written) (hread : read written = .ok (d, left)) (rest : List UInt8) :
    read (written ++ rest) = .ok (d, rest) := by
  have htag := read_eq_ok.1 hread
  obtain ⟨hfits, hkeys⟩ := Tag.read_fits htag
  have hname : d.root = .terminator → d.name = "" := by
    intro hterm
    rw [encode, hterm, Tag.encode_terminator] at hw
    obtain rfl := Except.ok.inj hw
    rw [Tag.read_terminator, Except.ok.injEq, Prod.mk.injEq, Prod.mk.injEq] at htag
    exact htag.1.1.symm
  exact read_eq_ok.2 ((Tag.read_encode hkeys hname hw rest).ok (Tag.fits_succ_iff.1 hfits))

/-- What is written is never empty. -/
theorem ne_nil_of_encode {d : Document} {written : List UInt8} (hw : d.encode = .ok written) :
    written ≠ [] := by
  by_cases hterm : d.root = .terminator
  · rw [encode, hterm, Tag.encode_terminator] at hw
    obtain rfl := Except.ok.inj hw
    exact List.cons_ne_nil 0 []
  · obtain ⟨header, body, -, -, rfl⟩ := (Tag.encode_eq_ok hterm).1 hw
    exact List.cons_ne_nil _ _

/-- The first document, and the documents in what it leaves. -/
theorem readAllFrom_succ {bytes rest : List UInt8} {d : Document} (hne : bytes ≠ [])
    (hread : read bytes = .ok (d, rest)) (fuel position : Nat) :
    readAllFrom (fuel + 1) position bytes =
      let next := position + (bytes.length - rest.length)
      ((d, next) :: (readAllFrom fuel next rest).1, (readAllFrom fuel next rest).2) := by
  cases bytes with
  | nil => exact absurd rfl hne
  | cons b bytes => simp only [readAllFrom, hread]

/-- Where documents that stand one after another end, if each of them comes back alone. -/
theorem readAllFrom_flatMap {written : List (Document × List UInt8)}
    (h : ∀ p ∈ written, p.1.encode = .ok p.2 ∧ ∃ rest, read p.2 = .ok (p.1, rest))
    {fuel : Nat} (hfuel : (written.flatMap Prod.snd).length ≤ fuel) (position : Nat) :
    readAllFrom fuel position (written.flatMap Prod.snd) =
      (written.mapIdx fun i p =>
        (p.1, position + ((written.take (i + 1)).flatMap Prod.snd).length), none) := by
  induction written generalizing fuel position with
  | nil => cases fuel <;> rfl
  | cons p written ih =>
    obtain ⟨⟨hw, left, hread⟩, hmore⟩ := List.forall_mem_cons.1 h
    have hfront := read_encode_append hw hread (written.flatMap Prod.snd)
    -- a document has at least one byte, so the fuel lasts for those behind it
    have hpos : 0 < p.2.length := List.length_pos_of_ne_nil (ne_nil_of_encode hw)
    have hne : p.2 ++ written.flatMap Prod.snd ≠ [] :=
      List.append_ne_nil_of_left_ne_nil (ne_nil_of_encode hw) _
    rw [List.flatMap_cons, List.length_append] at hfuel
    obtain ⟨fuel, rfl⟩ := Nat.exists_eq_add_one.2 (show 0 < fuel by omega)
    rw [List.flatMap_cons, readAllFrom_succ hne hfront, List.length_append, Nat.add_sub_cancel]
    dsimp only
    rw [ih hmore (by omega), List.mapIdx_cons]
    simp only [List.take_succ_cons, List.flatMap_cons, List.length_append, List.take_zero,
      List.flatMap_nil, List.length_nil, Nat.add_zero, Nat.add_assoc]

/-- **Tags are delimited by their own bytes.** A tag that was read from the first `k` bytes is
read from them whatever follows, and with fewer bytes than that the reader wants more. So
documents that come back alone come back one after another, each up to its own last byte. -/
theorem delimited :
    (∀ bytes name t rest, Tag.read.run bytes = .ok ((name, t), rest) →
      ∃ k ≤ bytes.length, rest = bytes.drop k ∧
        (∀ other, Tag.read.run (bytes.take k ++ other) = .ok ((name, t), other)) ∧
        ∀ m < k, Tag.read.run (bytes.take m) = .error .unexpectedEnd) ∧
    ∀ written : List (Document × List UInt8),
      (∀ p ∈ written, p.1.encode = .ok p.2 ∧ ∃ rest, read p.2 = .ok (p.1, rest)) →
      readAll (written.flatMap Prod.snd) =
        (written.mapIdx fun i p => (p.1, ((written.take (i + 1)).flatMap Prod.snd).length),
          none) := by
  refine ⟨?_, ?_⟩
  · intro bytes name t rest h
    obtain ⟨front, rfl, hwhole, hpart⟩ := Tag.read_front h
    refine ⟨front.length, by simp, by simp, ?_, ?_⟩
    · intro other
      rw [List.take_left]
      exact hwhole other
    · intro m hm
      rw [List.take_append_of_le_length (Nat.le_of_lt hm)]
      exact hpart m hm
  · intro written h
    have hall := readAllFrom_flatMap h (Nat.le_refl _) 0
    simpa only [readAll, Nat.zero_add] using hall

/-- Two documents, the second of them with a list of its own, and the end of each. -/
theorem delimited_pair :
    let a : Document := ⟨"a", .byte 5⟩
    let b : Document := ⟨"", .compound [("v", .list 3 [.int 7])]⟩
    let first : List UInt8 := [1, 0, 1, 97, 5]
    let second : List UInt8 := [10, 0, 0, 9, 0, 1, 118, 3, 0, 0, 0, 1, 0, 0, 0, 7, 0]
    Tag.read.run (first ++ second) = .ok (("a", .byte 5), second) ∧
      Tag.read.run ((first ++ second).take 4) = .error .unexpectedEnd ∧
      readAll (first ++ second) = ([(a, 5), (b, 22)], none) := by
  intro a b first second
  have hfirst : Tag.read.run (first ++ second) = .ok (("a", .byte 5), second) := by rfl
  refine ⟨hfirst, ?_, ?_⟩
  · obtain ⟨k, -, hrest, -, hpart⟩ := delimited.1 _ _ _ _ hfirst
    have hk : second.length = (first ++ second).length - k := by rw [← List.length_drop, ← hrest]
    simp only [List.length_append, first, second, List.length_cons, List.length_nil] at hk
    exact hpart 4 (by omega)
  · refine delimited.2 [(a, first), (b, second)] ?_
    simp only [List.forall_mem_cons, List.not_mem_nil, false_implies, implies_true, and_true]
    simp only [a, b, first, second]
    exact ⟨⟨by rfl, [], by rfl⟩, by rfl, [], by rfl⟩

end Document

end Blueprint.Nbt
