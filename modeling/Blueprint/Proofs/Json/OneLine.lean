import Blueprint.BlockState.Shape
import Blueprint.Proofs.Outcome
import Blueprint.Proofs.Plan.Quoted
import Blueprint.Proofs.SortedMap

/-!
# Values without line breaks

A shape puts the texts of a value into what it reads, or quotes them in what it says is wrong. So
if none of them has a line break, neither has anything that is read (`Shape.Gives`). There is a
rule for each way in which shapes are put together.
-/

namespace Blueprint

/-! ## Maps -/

namespace SortedMap

variable {α β : Type} {m : SortedMap String α} {Q : α → Prop}

/-- No key of the map has a line break, and its values have the property. -/
def InLines (m : SortedMap String α) (Q : α → Prop) : Prop :=
  ∀ e ∈ m.entries, Text.OneLine e.1 ∧ Q e.2

/-- An empty map has nothing in it. -/
theorem inLines_empty : (empty : SortedMap String α).InLines Q :=
  fun _ he => absurd he List.not_mem_nil

/-- An entry without a line break may be put in. -/
theorem InLines.insert (h : m.InLines Q) {key : String} {a : α} (hkey : Text.OneLine key)
    (ha : Q a) : (m.insert key a).InLines Q := by
  intro e he
  rcases mem_insertEntry he with rfl | he
  · exact ⟨hkey, ha⟩
  · exact h e he

/-- What is known of the values is handed on to those that belong to them. -/
theorem InLines.of_rel {R : α → β → Prop} {n : SortedMap String β} {Q' : β → Prop}
    (h : m.InLines Q) (hrel : m.Rel R n) (hvalue : ∀ a b, Q a → R a b → Q' b) : n.InLines Q' := by
  intro e he
  obtain ⟨e', he', hkey, hR⟩ := Outcome.exists_mem_of_forall₂ hrel he
  obtain ⟨hline, hQ⟩ := h e' he'
  exact ⟨hkey ▸ hline, hvalue _ _ hQ hR⟩

end SortedMap

namespace Json

/-! ## Texts of a value -/

mutual

/-- The texts in a value, with the keys among them. -/
def Node.texts : Node → List String
  | .string text => [text]
  | .array items _ => textsOfItems items
  | .object members _ => textsOfMembers members
  | _ => []
termination_by structural n => n

/-- The texts in the items of an array. -/
def textsOfItems : List Node → List String
  | [] => []
  | n :: ns => n.texts ++ textsOfItems ns
termination_by structural l => l

/-- The texts in the members of an object, each key in front of those of its value. -/
def textsOfMembers : List (String × Node) → List String
  | [] => []
  | (key, n) :: ns => key :: (n.texts ++ textsOfMembers ns)
termination_by structural l => l

end

/-- No text in the value has a line break. -/
def Node.OneLine (n : Node) : Prop := Text.AllOneLine n.texts

/-- The only text in a text is the text itself. -/
theorem Node.oneLine_string {text : String} : (Node.string text).OneLine ↔ Text.OneLine text :=
  Text.allOneLine_singleton

/-- The texts in an array are those of its items. -/
theorem Node.oneLine_array {items : List Node} {isClosed : Bool} :
    (Node.array items isClosed).OneLine ↔ ∀ n ∈ items, n.OneLine := by
  rw [OneLine, texts]
  induction items with
  | nil => simp [textsOfItems]
  | cons n ns ih => rw [textsOfItems, Text.allOneLine_append, ih, List.forall_mem_cons, OneLine]

/-- The texts in an object are its keys and those of their values. -/
theorem Node.oneLine_object {members : List (String × Node)} {isClosed : Bool} :
    (Node.object members isClosed).OneLine ↔ ∀ e ∈ members, Text.OneLine e.1 ∧ e.2.OneLine := by
  rw [OneLine, texts]
  induction members with
  | nil => simp [textsOfMembers]
  | cons e ns ih =>
    rw [textsOfMembers, Text.allOneLine_cons, Text.allOneLine_append, ih, List.forall_mem_cons,
      and_assoc, OneLine]

/-! ## Shapes -/

/-- The texts that a fault quotes. -/
def Fault.quoted : Fault → List String
  | .malformed => []
  | .shape e => e.quoted

/-- What is read has the property, or what is quoted has no line break. -/
abbrev ReadsLines {α : Type} (Q : α → Prop) : Except Fault α → Prop :=
  Outcome.Yields Q fun e => Text.AllOneLine e.quoted

namespace Shape

variable {α ρ : Type} {Q : α → Prop} {shape : Shape α}

/-- What the shape reads off a value without line breaks has the property. -/
def Gives (Q : α → Prop) (shape : Shape α) : Prop := ∀ n : Node, n.OneLine → ReadsLines Q (shape n)

theorem readsLines_malformed : ReadsLines Q (.error .malformed) := .of_error nofun

/-- A value of another kind is refused without being quoted. -/
theorem readsLines_mismatch (n : Node) : ReadsLines Q (mismatch n) := by
  cases n with
  | broken => exact readsLines_malformed
  | _ => exact .of_error nofun

/-- A text is given as it is read. -/
theorem gives_string : Gives Text.OneLine string := by
  intro n hn
  rw [string.eq_def]
  split
  · exact .of_ok (Node.oneLine_string.1 hn)
  · exact readsLines_mismatch _

/-- A number has no text in it. -/
theorem gives_integer (lo hi : Int) : Gives (fun _ => True) (integer lo hi) := by
  intro n _
  rw [integer.eq_def]
  split
  · split
    · exact .of_ok trivial
    · exact .of_error nofun
  · exact readsLines_mismatch _

theorem gives_word : Gives (fun _ => True) word := fun n hn =>
  (gives_integer _ _ n hn).map fun _ _ => trivial

theorem gives_double : Gives (fun _ => True) double := by
  intro n _
  rw [double.eq_def]
  split
  · exact .of_ok trivial
  · exact .of_ok trivial
  · exact readsLines_mismatch _

/-- What may be missing is given as it is if it is there. -/
theorem Gives.optional (h : shape.Gives Q) : (optional shape).Gives fun a => ∀ b ∈ a, Q b := by
  have hsome (n : Node) (hn : n.OneLine) : ReadsLines (fun a => ∀ b ∈ a, Q b) (some <$> shape n) :=
    (h n hn).map fun a ha b hb => Option.some.inj hb ▸ ha
  intro n hn
  cases n with
  | null => exact .of_ok nofun
  | _ => exact hsome _ hn

/-! ## Arrays and maps -/

/-- Items are read one after another. -/
theorem Gives.eachItem (h : shape.Gives Q) {items : List Node} (hitems : ∀ n ∈ items, n.OneLine)
    (isClosed : Bool) : ReadsLines (fun l => ∀ a ∈ l, Q a) (eachItem shape items isClosed) := by
  induction items with
  | nil =>
    cases isClosed with
    | true => exact .of_ok nofun
    | false => exact readsLines_malformed
  | cons n ns ih =>
    obtain ⟨hn, hns⟩ := List.forall_mem_cons.1 hitems
    exact (h n hn).bind fun first hfirst => (ih hns).bind fun rest hrest =>
      .of_ok (List.forall_mem_cons.2 ⟨hfirst, hrest⟩)

/-- What is given of each item is given of the list. -/
theorem Gives.list (h : shape.Gives Q) : (list shape).Gives fun l => ∀ a ∈ l, Q a := by
  intro n hn
  rw [list.eq_def]
  split
  · exact h.eachItem (Node.oneLine_array.1 hn) _
  · exact readsLines_mismatch _

/-- Items whose number is fixed are read one after another. -/
theorem Gives.eachOf (h : shape.Gives Q) (count : Nat) {items : List Node}
    (hitems : ∀ n ∈ items, n.OneLine) (isClosed : Bool) :
    ReadsLines (fun _ => True) (eachOf shape count items isClosed) := by
  induction items generalizing count with
  | nil =>
    cases count with
    | zero =>
      cases isClosed with
      | true => exact .of_ok trivial
      | false => exact readsLines_malformed
    | succ count =>
      cases isClosed with
      | true => exact .of_error nofun
      | false => exact readsLines_malformed
  | cons n ns ih =>
    cases count with
    | zero => exact readsLines_malformed
    | succ count =>
      obtain ⟨hn, hns⟩ := List.forall_mem_cons.1 hitems
      exact (h n hn).bind fun _ _ => (ih count hns).bind fun _ _ => .of_ok trivial

/-- Three items are read in this way. -/
theorem Gives.triple (h : shape.Gives Q) : (triple shape).Gives fun _ => True := by
  intro n hn
  rw [triple.eq_def]
  split
  · refine (h.eachOf 3 (Node.oneLine_array.1 hn) _).bind fun l _ => ?_
    split
    · exact .of_ok trivial
    · exact readsLines_malformed
  · exact readsLines_mismatch _

/-- An array that is not closed is a fault that quotes nothing. -/
theorem readsLines_ofEnd {a : α} (ha : Q a) (isClosed : Bool) :
    ReadsLines Q (ofEnd a isClosed) := by
  cases isClosed with
  | true => exact .of_ok ha
  | false => exact readsLines_malformed

/-- Members are read one after another into a map that has no line breaks. -/
theorem Gives.eachMember (h : shape.Gives Q) {members : List (String × Node)}
    (hmembers : ∀ e ∈ members, Text.OneLine e.1 ∧ e.2.OneLine) {read : SortedMap String α}
    (hread : read.InLines Q) :
    ReadsLines (fun m => m.InLines Q) (eachMember shape members read) := by
  induction members generalizing read with
  | nil => exact .of_ok hread
  | cons e members ih =>
    obtain ⟨⟨hkey, hn⟩, hmembers⟩ := List.forall_mem_cons.1 hmembers
    exact (h e.2 hn).bind fun a ha => ih hmembers (hread.insert hkey ha)

/-- What is given of each value is given of the map, and its keys have no line breaks. -/
theorem Gives.map (h : shape.Gives Q) : (map shape).Gives fun m => m.InLines Q := by
  intro n hn
  rw [map.eq_def]
  split
  · exact (h.eachMember (Node.oneLine_object.1 hn) SortedMap.inLines_empty).bind fun read hread =>
      readsLines_ofEnd (Q := (SortedMap.InLines · Q)) hread _
  · exact readsLines_mismatch _

/-! ## Records -/

/-- The field keeps what is true of the record before it, and its name is one line. -/
structure Field.Keeps (I : ρ → Prop) (f : Field ρ) : Prop where
  /-- the name is one line -/
  name : Text.OneLine f.name
  /-- reading the field keeps what is true of the record -/
  read : ∀ n : Node, n.OneLine → ∀ r, I r → ReadsLines I (f.read n r)

/-- A field keeps what is known of a record if its value may be put in. -/
theorem Field.keeps_optional {I : ρ → Prop} {name : String} {put : α → ρ → ρ}
    (hname : Text.OneLine name) (h : shape.Gives Q) (hput : ∀ a r, Q a → I r → I (put a r)) :
    (Field.optional name shape put).Keeps I :=
  ⟨hname, fun n hn r hr => (h n hn).map fun a ha => hput a r ha hr⟩

/-- And so does a field that has to be there. -/
theorem Field.keeps_required {I : ρ → Prop} {name : String} {put : α → ρ → ρ}
    (hname : Text.OneLine name) (h : shape.Gives Q) (hput : ∀ a r, Q a → I r → I (put a r)) :
    (Field.required name shape put).Keeps I :=
  ⟨hname, fun n hn r hr => (h n hn).map fun a ha => hput a r ha hr⟩

variable {I : ρ → Prop} {fields : List (Field ρ)} {r : ρ}

/-- Fields that keep something of the record keep it when they are read from an array. -/
theorem readsLines_eachField (hfields : ∀ f ∈ fields, f.Keeps I) {items : List Node}
    (hitems : ∀ n ∈ items, n.OneLine) (isClosed : Bool) (hr : I r) :
    ReadsLines I (eachField fields items isClosed r) := by
  induction fields generalizing items r with
  | nil =>
    cases items with
    | nil =>
      cases isClosed with
      | true => exact .of_ok hr
      | false => exact readsLines_malformed
    | cons n ns => exact readsLines_malformed
  | cons f fields ih =>
    obtain ⟨hf, hfields⟩ := List.forall_mem_cons.1 hfields
    cases items with
    -- no item is left: the field takes its default or is reported as missing
    | nil =>
      cases isClosed with
      | true =>
        rw [eachField]
        split
        · exact .of_error nofun
        · exact ih hfields nofun hr
      | false => exact readsLines_malformed
    | cons n ns =>
      obtain ⟨hn, hns⟩ := List.forall_mem_cons.1 hitems
      exact (hf.read n hn r hr).bind fun _ hr => ih hfields hns hr

/-- And when they are read from an object, in whatever order its members are. -/
theorem readsLines_eachKey (hfields : ∀ f ∈ fields, f.Keeps I) {members : List (String × Node)}
    (hmembers : ∀ e ∈ members, Text.OneLine e.1 ∧ e.2.OneLine) (seen : List String) (hr : I r) :
    ReadsLines (fun found => I found.1) (eachKey fields members seen r) := by
  induction members generalizing seen r with
  | nil => exact .of_ok hr
  | cons e members ih =>
    obtain ⟨⟨hkey, hn⟩, hmembers⟩ := List.forall_mem_cons.1 hmembers
    rw [eachKey]
    split
    next => exact .of_error (Text.allOneLine_singleton.2 hkey)
    next f hf =>
      split
      · exact .of_error (Text.allOneLine_singleton.2 hkey)
      · exact ((hfields f (List.mem_of_find?_eq_some hf)).read e.2 hn r hr).bind fun _ hr =>
          ih hmembers _ hr

/-- A record is read field by field. -/
theorem gives_record (hfields : ∀ f ∈ fields, f.Keeps I) (hr : I r) :
    (record fields r).Gives I := by
  intro n hn
  rw [record.eq_def]
  split
  next => exact readsLines_eachField hfields (Node.oneLine_array.1 hn) _ hr
  next =>
    refine (readsLines_eachKey hfields (Node.oneLine_object.1 hn) [] hr).bind fun found hfound => ?_
    refine (readsLines_ofEnd (Q := fun _ => True) trivial _).bind fun _ _ => ?_
    split
    next f hf =>
      have hname := (hfields f (List.mem_of_find?_eq_some hf)).name
      exact .of_error (Text.allOneLine_singleton.2 hname)
    next => exact .of_ok hfound
  next => exact readsLines_mismatch _

/-! ## Variants and whole texts -/

/-- A name is quoted where it is not one of the names that are known. -/
theorem gives_variant (named : String → Option α) : (variant named).Gives fun _ => True := by
  intro n hn
  rw [variant.eq_def]
  split
  next name =>
    split
    · exact .of_ok trivial
    · exact .of_error hn
  next name n more isClosed =>
    obtain ⟨hname, -⟩ := (List.forall_mem_cons.1 (Node.oneLine_object.1 hn)).1
    split
    · exact .of_error (Text.allOneLine_singleton.2 hname)
    · split
      · split
        · exact readsLines_ofEnd trivial isClosed
        · exact readsLines_malformed
      · exact readsLines_mismatch _
  next => exact readsLines_malformed

/-- What a shape gives of values it gives of texts that are laid out as such. -/
theorem Gives.ofText (h : shape.Gives Q) {text : String} (htext : (layOut text).value.OneLine) :
    ReadsLines Q (ofText shape text) := by
  refine (h _ htext).bind fun a ha => ?_
  split
  · exact .of_ok ha
  · exact readsLines_malformed

end Shape

end Json

namespace PropertyValue

open Json

/-- The text of a value has no line break if it was read off a value without one. -/
theorem gives_shape : shape.Gives fun v => Text.OneLine v.text := by
  intro n hn
  rw [shape]
  split
  · split
    next v hv =>
      refine .of_ok ?_
      cases n with
      | bool b => obtain rfl := Option.some.inj hv; cases b <;> decide
      | string s => obtain rfl := Option.some.inj hv; exact Node.oneLine_string.1 hn
      | number x =>
        cases x with
        | int x =>
          rw [ofNode?] at hv
          split at hv
          · obtain rfl := Option.some.inj hv
            exact Text.oneLine_toString_int _
          · cases hv
        | real x => cases hv
      | _ => cases hv
    next => exact .of_error nofun
  · exact Shape.readsLines_malformed

end PropertyValue

end Blueprint
