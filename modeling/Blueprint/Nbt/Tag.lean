import Blueprint.Binary64

/-!
# Tags

The data of a container file: numbers of several widths, texts, arrays, lists and
compounds. A list carries the type of its items, so an empty list keeps it too. A compound
is an association list in insertion order with distinct keys; the operations on it are in
the namespace `Compound`.
-/

namespace Blueprint.Nbt

/-- A value of the container format. -/
inductive Tag where
  /-- the mark after the last entry of a compound -/
  | terminator
  | byte (v : Int8)
  | short (v : Int16)
  | int (v : Int32)
  | long (v : Int64)
  | float (v : Binary32)
  | double (v : Binary64)
  | byteArray (v : List Int8)
  | string (v : String)
  /-- items with the type they should all have -/
  | list (itemType : UInt8) (items : List Tag)
  /-- values by key, in insertion order -/
  | compound (entries : List (String × Tag))
  | intArray (v : List Int32)
  | longArray (v : List Int64)
deriving BEq, Repr, Inhabited

namespace Tag

/-- The number that stands for the type of a tag. -/
def typeId : Tag → UInt8
  | terminator => 0
  | byte _ => 1
  | short _ => 2
  | int _ => 3
  | long _ => 4
  | float _ => 5
  | double _ => 6
  | byteArray _ => 7
  | string _ => 8
  | list _ _ => 9
  | compound _ => 10
  | intArray _ => 11
  | longArray _ => 12

/-- The list whose item type is that of its first item. -/
def listOf (items : List Tag) : Tag :=
  list (items.head?.map typeId |>.getD 0) items

/-- The entries of a compound. -/
def compound? : Tag → Option (List (String × Tag))
  | compound entries => some entries
  | _ => none

/-- The items of a list. -/
def items? : Tag → Option (List Tag)
  | list _ items => some items
  | _ => none

/-- The text of a string tag. -/
def string? : Tag → Option String
  | string s => some s
  | _ => none

/-- The value of a 32-bit integer tag. -/
def int? : Tag → Option Int32
  | int n => some n
  | _ => none

/-- The value of a double-precision tag. -/
def double? : Tag → Option Binary64
  | double x => some x
  | _ => none

end Tag

/-! ## Compounds -/

/-- Values by key, in the order in which the keys first came. -/
abbrev Compound := List (String × Tag)

namespace Compound

/-- Gives `key` the value `tag`: a key that is there keeps its place, a new one goes to
the end. -/
def insert (key : String) (tag : Tag) : Compound → Compound
  | [] => [(key, tag)]
  | e :: rest => if e.1 = key then (key, tag) :: rest else e :: insert key tag rest

/-- The value under `key`. -/
def get? (key : String) : Compound → Option Tag
  | [] => none
  | e :: rest => if e.1 = key then some e.2 else get? key rest

/-- Whether `key` has a value. -/
def contains (key : String) (c : Compound) : Bool := (get? key c).isSome

/-- The keys in order. -/
def keys (c : Compound) : List String := c.map Prod.fst

/-- Inserts all entries of `extra`, one after another. -/
def insertAll (c : Compound) (extra : List (String × Tag)) : Compound :=
  extra.foldl (fun c e => insert e.1 e.2 c) c

/-- The compound built by inserting the entries one after another. -/
def ofList (entries : List (String × Tag)) : Compound := insertAll [] entries

/-- After an insertion its key has the new value and every other key the old one. -/
theorem get?_insert (key key' : String) (tag : Tag) (c : Compound) :
    get? key' (insert key tag c) = if key = key' then some tag else get? key' c := by
  induction c with
  | nil => simp [insert, get?]
  | cons e c ih =>
    by_cases h : e.1 = key
    · subst h
      by_cases h' : e.1 = key' <;> simp [insert, get?, h']
    · by_cases h' : e.1 = key'
      · subst h'
        simp [insert, get?, h, Ne.symm h]
      · simp [insert, get?, h, h', ih]

end Compound

end Blueprint.Nbt
