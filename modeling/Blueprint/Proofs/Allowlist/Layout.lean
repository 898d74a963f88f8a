import Blueprint.Allowlist.Document
import Blueprint.Proofs.Allowlist

/-!
# Both layouts of an allowlist

A table of rules may be written flat or wrapped, and a text that does not have the one layout is
tried as the other. No text comes to mean something else that way (`same_in_both_layouts`): a table
gives the same allowlist in either layout, with its values in their text forms, and an object with
the key of the wrapped layout is read as that or not at all.

A table is taken here as a text lists it, so its entries come in any order and may come more than
once.
-/

namespace Blueprint

/-! ## Values that are read -/

namespace SortedMap

/-- A key is in a map with an entry put in if it was there or is that of the entry. -/
theorem contains_insert {α : Type} (m : SortedMap String α) (key key' : String) (a : α) :
    (m.insert key' a).contains key = true ↔ m.contains key = true ∨ key' = key := by
  rw [contains, contains, get?_insert_of_lawful]
  by_cases h : key = key'
  · simp [h]
  · simp [h, Ne.symm h]

end SortedMap

namespace Json.Shape

section

variable {α β : Type} {shape : Shape α} {node : β → Node} {read : β → α}

/-- What an array or an object was read as counts only if it is closed. -/
theorem ofEnd_eq_ok_iff {a b : α} {isClosed : Bool} :
    ofEnd a isClosed = .ok b ↔ isClosed = true ∧ a = b := by
  cases isClosed <;> simp [ofEnd]

/-- A list whose items are read as what they are written for is read so itself. -/
theorem list_array {node : α → Node} (h : ∀ a, shape (node a) = .ok a) (l : List α) :
    list shape (.array (l.map node) true) = .ok l := by
  rw [list]
  induction l with
  | nil => rfl
  | cons a l ih =>
    rw [List.map_cons, eachItem, h, ih]
    rfl

/-- Members are put into the map in their order. -/
theorem eachMember_map (h : ∀ b, shape (node b) = .ok (read b)) (l : List (String × β))
    (m : SortedMap String α) : eachMember shape (l.map fun e => (e.1, node e.2)) m =
      .ok ((l.map fun e => (e.1, read e.2)).foldl (fun m e => m.insert e.1 e.2) m) := by
  induction l generalizing m with
  | nil => rfl
  | cons e l ih =>
    rw [List.map_cons, eachMember, h]
    exact ih (m.insert e.1 (read e.2))

/-- A map whose values are read as what they are written for is read so itself. -/
theorem map_object (h : ∀ b, shape (node b) = .ok (read b)) (l : List (String × β)) :
    map shape (.object (l.map fun e => (e.1, node e.2)) true) =
      .ok (.ofList (l.map fun e => (e.1, read e.2))) := by
  rw [map, eachMember_map h]
  rfl

/-- Every key of an object is a key of what is read. -/
theorem contains_eachMember {members : List (String × Node)} {m m' : SortedMap String α}
    (h : eachMember shape members m = .ok m') {key : String} :
    m'.contains key = true ↔ m.contains key = true ∨ key ∈ members.map Prod.fst := by
  induction members generalizing m with
  | nil =>
    obtain rfl := Except.ok.inj h
    simp
  | cons e members ih =>
    rw [eachMember] at h
    obtain ⟨a, -, h⟩ := Outcome.bind_eq_ok.1 h
    rw [ih h, SortedMap.contains_insert, List.map_cons, List.mem_cons, or_assoc, @eq_comm _ e.1]

/-- The keys that are read off an object are those of its members. -/
theorem contains_map {members : List (String × Node)} {isClosed : Bool} {m : SortedMap String α}
    (h : map shape (.object members isClosed) = .ok m) {key : String} :
    m.contains key = true ↔ key ∈ members.map Prod.fst := by
  rw [map] at h
  obtain ⟨read, hread, hend⟩ := Outcome.bind_eq_ok.1 h
  obtain ⟨-, rfl⟩ := ofEnd_eq_ok_iff.1 hend
  rw [contains_eachMember hread]
  simp [SortedMap.contains]

end

section

variable {ρ : Type} {f : Field ρ} {r a : ρ}

/-- A member with the name of the field is read as its value. -/
theorem eachKey_name (n : Node) (members : List (String × Node)) :
    eachKey [f] ((f.name, n) :: members) [] r =
      f.read n r >>= fun r => eachKey [f] members [f.name] r := by
  simp [eachKey]

/-- A member with another name is refused. -/
theorem eachKey_other {key : String} (h : f.name ≠ key) (n : Node) (members : List (String × Node))
    (seen : List String) :
    eachKey [f] ((key, n) :: members) seen r = .error (.shape (.unknownField key)) := by
  simp [eachKey, h]

/-- A second member with the name of the field is refused. -/
theorem eachKey_again (n : Node) (members : List (String × Node)) :
    eachKey [f] ((f.name, n) :: members) [f.name] r = .error (.shape (.duplicateField f.name)) := by
  simp [eachKey]

/-- The members of a record of one field: there are none, or there is this field alone. -/
theorem eachKey_singleton_eq_ok_iff {members : List (String × Node)} {seen : List String} :
    eachKey [f] members [] r = .ok (a, seen) ↔
      members = [] ∧ r = a ∧ seen = [] ∨
      ∃ n, members = [(f.name, n)] ∧ f.read n r = .ok a ∧ seen = [f.name] := by
  rcases members with - | ⟨⟨key, n⟩, members⟩
  · simp [eachKey, eq_comm]
  by_cases hkey : f.name = key
  · subst hkey
    rw [eachKey_name, Outcome.bind_eq_ok]
    rcases members with - | ⟨⟨key, n'⟩, members⟩
    · simp [eachKey, eq_comm]
    · -- whatever the second key is, it comes again or is unknown
      have hmore (r : ρ) : eachKey [f] ((key, n') :: members) [f.name] r ≠ .ok (a, seen) := by
        by_cases hkey : f.name = key
        · subst hkey
          rw [eachKey_again]
          nofun
        · rw [eachKey_other hkey]
          nofun
      simp [hmore]
  · rw [eachKey_other hkey]
    simp [Ne.symm hkey]

/-- The field is not missed if it has been read or may be left out. -/
theorem find?_singleton_eq_none_iff (f : Field ρ) (seen : List String) :
    [f].find? (fun f => f.isRequired && !seen.contains f.name) = none ↔
      (f.isRequired = true → f.name ∈ seen) := by
  simp

/-- A record of one field is read off an object with this field alone, or off one without members
if the field may be left out. -/
theorem record_singleton_eq_ok_iff {members : List (String × Node)} {isClosed : Bool} :
    record [f] r (.object members isClosed) = .ok a ↔ isClosed = true ∧
      (members = [] ∧ f.isRequired = false ∧ r = a ∨
        ∃ n, members = [(f.name, n)] ∧ f.read n r = .ok a) := by
  rw [record]
  refine Outcome.bind_eq_ok.trans ⟨?_, ?_⟩
  · rintro ⟨⟨r', seen⟩, hread, h⟩
    obtain ⟨_, hend, h⟩ := Outcome.bind_eq_ok.1 h
    refine ⟨(ofEnd_eq_ok_iff.1 hend).1, ?_⟩
    rcases hmissing : [f].find? (fun f => f.isRequired && !seen.contains f.name) with _ | f'
    · rw [hmissing] at h
      obtain rfl := Except.ok.inj h
      -- nothing is missing at the end, so the field was seen or is optional
      have hthere := (find?_singleton_eq_none_iff f seen).1 hmissing
      obtain ⟨rfl, rfl, rfl⟩ | ⟨n, rfl, hn, rfl⟩ := eachKey_singleton_eq_ok_iff.1 hread
      · exact .inl ⟨rfl, by simpa using hthere, rfl⟩
      · exact .inr ⟨n, rfl, hn⟩
    · rw [hmissing] at h
      cases h
  · rintro ⟨rfl, ⟨rfl, hoptional, rfl⟩ | ⟨n, rfl, hn⟩⟩
    · have hnone := (find?_singleton_eq_none_iff f []).2 (by simp [hoptional])
      refine ⟨(r, []), eachKey_singleton_eq_ok_iff.2 (.inl ⟨rfl, rfl, rfl⟩), ?_⟩
      refine Outcome.bind_eq_ok.2 ⟨(), ofEnd_eq_ok_iff.2 ⟨rfl, rfl⟩, ?_⟩
      rw [hnone]
      rfl
    · have hnone := (find?_singleton_eq_none_iff f [f.name]).2 (by simp)
      refine ⟨(a, [f.name]), eachKey_singleton_eq_ok_iff.2 (.inr ⟨n, rfl, hn, rfl⟩), ?_⟩
      refine Outcome.bind_eq_ok.2 ⟨(), ofEnd_eq_ok_iff.2 ⟨rfl, rfl⟩, ?_⟩
      rw [hnone]
      rfl

end

end Json.Shape

/-- The JSON value that a property value is written as. -/
def PropertyValue.node : PropertyValue → Json.Node
  | bool b => .bool b
  | int n => .number (.int n.toInt)
  | string s => .string s

/-- A value of a property is read as what it is written for. -/
theorem PropertyValue.shape_node (v : PropertyValue) : shape v.node = .ok v := by
  cases v with
  | bool b => rfl
  | string s => rfl
  | int n =>
    have hfits : n.toInt < 0x8000000000000000 := Int64.toInt_lt n
    have hvalue : ofNode? (node (int n)) = some (int n) := by
      rw [node, ofNode?, if_pos hfits, Int64.ofInt_toInt]
    rw [shape, hvalue]
    rfl

namespace Allowlist

open Json

/-! ## Tables -/

/-- A table of rules as a text lists it: the properties of each block with their values. Of entries
for the same block or the same property the last counts. -/
abbrev Table := List (String × List (String × List PropertyValue))

/-- The allowlist of the values that are written. -/
def ofWritten (blocks : SortedMap String Written) : Allowlist := ⟨blocks.map fun _ => rulesOf⟩

namespace Table

/-- The table by blocks and properties. -/
def written (t : Table) : SortedMap String Written := .ofList (t.map fun e => (e.1, .ofList e.2))

/-- Properties with their values as JSON. -/
def propertiesNode (properties : List (String × List PropertyValue)) : Node :=
  .object (properties.map fun e => (e.1, .array (e.2.map PropertyValue.node) true)) true

/-- The table in the flat layout. -/
def flat (t : Table) : Node := .object (t.map fun e => (e.1, propertiesNode e.2)) true

/-- The table in the wrapped layout. -/
def wrapped (t : Table) : Node :=
  .object [(wrappedKey, .object
    (t.map fun e => (e.1, .object [("allowed_properties", propertiesNode e.2)] true)) true)] true

/-- The properties of a block are read as they are written, in the flat layout. -/
theorem writtenShape_propertiesNode (properties : List (String × List PropertyValue)) :
    writtenShape (propertiesNode properties) = .ok (.ofList properties) := by
  have h : writtenShape (propertiesNode properties) =
      .ok (.ofList (properties.map fun e => (e.1, id e.2))) :=
    Shape.map_object (fun values => Shape.list_array PropertyValue.shape_node values) properties
  rw [h]
  simp only [id_eq, List.map_id']

/-- And in the wrapped one, under a key of their own. -/
theorem wrappedRulesShape_propertiesNode (properties : List (String × List PropertyValue)) :
    wrappedRulesShape (.object [("allowed_properties", propertiesNode properties)] true) =
      .ok (.ofList properties) := by
  refine Shape.record_singleton_eq_ok_iff.2 ⟨rfl, .inr ⟨_, rfl, ?_⟩⟩
  exact Outcome.map_eq_ok.2 ⟨_, writtenShape_propertiesNode properties, rfl⟩

/-- A table in the flat layout is read as it is written. -/
theorem flatShape_flat (t : Table) : flatShape t.flat = .ok t.written :=
  Shape.map_object writtenShape_propertiesNode t

/-- So is a table in the wrapped layout. -/
theorem wrappedShape_wrapped (t : Table) : wrappedShape t.wrapped = .ok t.written := by
  refine Shape.record_singleton_eq_ok_iff.2 ⟨rfl, .inr ⟨_, rfl, ?_⟩⟩
  exact Outcome.map_eq_ok.2 ⟨_, Shape.map_object wrappedRulesShape_propertiesNode t, rfl⟩

end Table

/-- The wrapped layout is one member, under the key of this layout. -/
theorem wrappedShape_eq_ok_iff {members : List (String × Node)} {isClosed : Bool}
    {blocks : SortedMap String Written} :
    wrappedShape (.object members isClosed) = .ok blocks ↔
      isClosed = true ∧ ∃ n, members = [(wrappedKey, n)] ∧
        Shape.map wrappedRulesShape n = .ok blocks := by
  refine Shape.record_singleton_eq_ok_iff.trans (and_congr_right fun _ => ?_)
  refine ⟨?_, ?_⟩
  · rintro (⟨-, hoptional, -⟩ | ⟨n, hmembers, hn⟩)
    · cases hoptional
    · obtain ⟨_, hblocks, rfl⟩ := Outcome.map_eq_ok.1 hn
      exact ⟨n, hmembers, hblocks⟩
  · rintro ⟨n, hmembers, hblocks⟩
    exact .inr ⟨n, hmembers, Outcome.map_eq_ok.2 ⟨_, hblocks, rfl⟩⟩

/-! ## Which layout is read -/

/-- What can be read in the wrapped layout is read so. -/
theorem ofNode_of_wrapped {n : Node} {blocks : SortedMap String Written}
    (h : wrappedShape n = .ok blocks) : ofNode n = .ok (ofWritten blocks) := by
  rw [ofNode, h]
  rfl

/-- What cannot be read so is read as flat, but not with the wrapped key for a block. -/
theorem ofNode_of_flat {n : Node} {blocks : SortedMap String Written} {e : Fault}
    (hwrapped : wrappedShape n = .error e) (hflat : flatShape n = .ok blocks) :
    ofNode n = if blocks.contains wrappedKey then .error .mixed else .ok (ofWritten blocks) := by
  rw [ofNode, hwrapped, hflat]
  rfl

/-- What can be read as neither is refused. -/
theorem ofNode_of_neither {n : Node} {e e' : Fault} (hwrapped : wrappedShape n = .error e)
    (hflat : flatShape n = .error e') : ofNode n = .error .layout := by
  rw [ofNode, hwrapped, hflat]

/-- An object with the key of the wrapped layout is read in this layout, or not at all. -/
theorem ofNode_of_wrappedKey {members : List (String × Node)}
    (h : wrappedKey ∈ members.map Prod.fst) (isClosed : Bool) :
    (∃ n blocks, members = [(wrappedKey, n)] ∧ Shape.map wrappedRulesShape n = .ok blocks ∧
      ofNode (.object members isClosed) = .ok (ofWritten blocks)) ∨
    ∃ e, ofNode (.object members isClosed) = .error e := by
  cases hwrapped : wrappedShape (.object members isClosed) with
  | ok blocks =>
    obtain ⟨-, n, hmembers, hblocks⟩ := wrappedShape_eq_ok_iff.1 hwrapped
    exact .inl ⟨n, blocks, hmembers, hblocks, ofNode_of_wrapped hwrapped⟩
  | error e =>
    cases hflat : flatShape (.object members isClosed) with
    | error e' => exact .inr ⟨_, ofNode_of_neither hwrapped hflat⟩
    | ok blocks =>
      -- the key would be a block here, and that is what is looked for
      have hcontains : blocks.contains wrappedKey = true := (Shape.contains_map hflat).2 h
      exact .inr ⟨_, (ofNode_of_flat hwrapped hflat).trans (if_pos hcontains)⟩

/-- A table without the key of the wrapped layout among its blocks is read in the flat one. -/
theorem ofNode_flat {t : Table} (h : ∀ e ∈ t, e.1 ≠ wrappedKey) :
    ofNode t.flat = .ok (ofWritten t.written) := by
  have hkeys : wrappedKey ∉ (t.map fun e => (e.1, Table.propertiesNode e.2)).map Prod.fst := by
    rw [List.map_map]
    intro hmem
    obtain ⟨e, he, hkey⟩ := List.mem_map.1 hmem
    exact h e he hkey
  have hflat := t.flatShape_flat
  cases hwrapped : wrappedShape t.flat with
  | ok blocks =>
    obtain ⟨-, n, hmembers, -⟩ := wrappedShape_eq_ok_iff.1 hwrapped
    rw [hmembers] at hkeys
    exact absurd List.mem_cons_self hkeys
  | error e =>
    have hcontains : ¬ t.written.contains wrappedKey = true := mt (Shape.contains_map hflat).1 hkeys
    exact (ofNode_of_flat hwrapped hflat).trans (if_neg hcontains)

/-! ## What is listed -/

/-- The allowlist lists what is written, with values in their text forms. -/
structure ListsWritten (a : Allowlist) (blocks : SortedMap String Written) : Prop where
  /-- the blocks are the names written -/
  block : ∀ id, a.HasBlock id ↔ ∃ properties, blocks.get? id = some properties
  /-- the properties of a block are the names written below it -/
  property : ∀ id key, a.HasProperty id key ↔ ∃ properties values,
    blocks.get? id = some properties ∧ properties.get? key = some values
  /-- the values of a property are the text forms of those written below it -/
  value : ∀ id key text, a.HasValue id key text ↔ ∃ properties values,
    blocks.get? id = some properties ∧ properties.get? key = some values ∧
      ∃ v ∈ values, v.text = text

/-- A text is in the set of some texts exactly if it is one of them. -/
theorem contains_ofList {texts : List String} {text : String} :
    (TextSet.ofList texts).contains text = true ↔ text ∈ texts := by
  rw [TextSet.ofList, SortedMap.ofList, List.foldl_map, TextSet.contains_foldl_insert]
  simp [SortedMap.contains]

/-- What is written is listed, and nothing else. -/
theorem listsWritten (blocks : SortedMap String Written) :
    (ofWritten blocks).ListsWritten blocks where
  block id := by simp [HasBlock, ofWritten]
  property id key := by simp [HasProperty, Rules.HasKey, ofWritten, rulesOf]
  value id key text := by
    simp [HasValue, Rules.Lists, ofWritten, rulesOf, contains_ofList]

/-! ## Both layouts -/

/-- The JSON value is read with this result, and so is every text that holds it. -/
structure ReadAs (n : Node) (r : Except ReadError Allowlist) : Prop where
  /-- the value itself -/
  value : ofNode n = r
  /-- every text of it -/
  text : ∀ text, wholeValue.ofText text = .ok n → ofText text = r

/-- A text that holds a value is read as the value is. -/
theorem ReadAs.of_ofNode {n : Node} {r : Except ReadError Allowlist} (h : ofNode n = r) :
    ReadAs n r where
  value := h
  text _ htext := by
    rw [ofText, htext]
    exact h

/-- **Both layouts mean the same.** A table that has no block of the name `allowed_blocks` gives the
same allowlist flat and wrapped, in whatever order its entries come, and it lists what the table
does. An object with this name among its keys is read as a wrapped table with no key beside it, or
it is refused. -/
theorem same_in_both_layouts :
    (∀ t t' : Table, t.written = t'.written → (∀ e ∈ t, e.1 ≠ wrappedKey) →
      ∃ a : Allowlist, ReadAs t.flat (.ok a) ∧ ReadAs t'.wrapped (.ok a) ∧
        a.ListsWritten t.written) ∧
    ∀ members isClosed, wrappedKey ∈ members.map Prod.fst →
      (∃ n blocks, members = [(wrappedKey, n)] ∧ Shape.map wrappedRulesShape n = .ok blocks ∧
        ReadAs (.object members isClosed) (.ok (ofWritten blocks))) ∨
      ∃ e, ReadAs (.object members isClosed) (.error e) := by
  refine ⟨fun t t' hsame hfree => ?_, fun members isClosed hkey => ?_⟩
  · refine ⟨ofWritten t.written, .of_ofNode (ofNode_flat hfree), .of_ofNode ?_, listsWritten _⟩
    rw [ofNode_of_wrapped t'.wrappedShape_wrapped, hsame]
  · rcases ofNode_of_wrappedKey hkey isClosed with
      ⟨n, blocks, hmembers, hblocks, hread⟩ | ⟨e, hread⟩
    · exact .inl ⟨n, blocks, hmembers, hblocks, .of_ofNode hread⟩
    · exact .inr ⟨e, .of_ofNode hread⟩

/-- A lamp with levels, and a rock. -/
def lamps : Table := [("lamp", [("level", [.int 3, .bool true])]), ("rock", [])]

/-- The lamp and the rock in the flat layout. -/
def lampsFlat : String := "\x7b\"lamp\":\x7b\"level\":[3,true]\x7d,\"rock\":\x7b\x7d\x7d"

/-- The rock and the lamp in the wrapped layout. -/
def lampsWrapped : String :=
  "\x7b\"allowed_blocks\":\x7b\"rock\":\x7b\"allowed_properties\":\x7b\x7d\x7d," ++
    "\"lamp\":\x7b\"allowed_properties\":\x7b\"level\":[3,true]\x7d\x7d\x7d\x7d"

/-- The texts are read as the JSON values of both layouts are. -/
theorem ofText_lamps :
    (ofText lampsFlat).toOption = (ofNode lamps.flat).toOption ∧
      (ofText lampsWrapped).toOption = (ofNode (Table.wrapped lamps.reverse)).toOption := by
  decide +kernel

/-- Both texts are one allowlist, and a rock beside a wrapped table is refused. -/
theorem same_in_both_layouts_lamps :
    (∃ a : Allowlist, ofText lampsFlat = .ok a ∧ ofText lampsWrapped = .ok a ∧
      a.HasValue "lamp" "level" "3" ∧ a.HasBlock "rock") ∧
    ∃ e, ofNode (.object [(wrappedKey, .object [] true), ("rock", .object [] true)] true) =
      .error e := by
  refine ⟨?_, ?_⟩
  · have hsame : lamps.written = Table.written lamps.reverse := by decide +kernel
    obtain ⟨a, hflat, hwrapped, hlists⟩ :=
      same_in_both_layouts.1 lamps lamps.reverse hsame (by decide)
    refine ⟨a, Outcome.toOption_eq_some.1 ?_, Outcome.toOption_eq_some.1 ?_, ?_, ?_⟩
    · rw [ofText_lamps.1, hflat.value]
      rfl
    · rw [ofText_lamps.2, hwrapped.value]
      rfl
    · exact (hlists.value "lamp" "level" "3").2
        ⟨.ofList [("level", [.int 3, .bool true])], [.int 3, .bool true], by decide +kernel,
          by decide +kernel, .int 3, List.mem_cons_self, by decide +kernel⟩
    · exact (hlists.block "rock").2 ⟨.empty, by decide +kernel⟩
  · rcases same_in_both_layouts.2 [(wrappedKey, .object [] true), ("rock", .object [] true)] true
      List.mem_cons_self with ⟨n, _, hmembers, -⟩ | ⟨e, he⟩
    · cases hmembers
    · exact ⟨e, he.value⟩

end Allowlist

end Blueprint
