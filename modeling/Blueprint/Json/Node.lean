import Blueprint.Binary64

/-!
# JSON texts as far as they go

A plan is read from left to right, and the first problem on the way decides what is
reported: a value of the wrong shape before a place that is no JSON at all, or the other
way round. So the text is first laid out as a tree that may *break off*: `Node.broken`
stands where no value can be read, and an array or object that is not closed holds what
came before the break. Nothing stands after a break.
-/

namespace Blueprint.Json

/-- A number of the text. -/
inductive Number where
  /-- a whole number that fits 64 bits, with or without a sign -/
  | int (n : Int)
  /-- any other number -/
  | real (x : Binary64)
deriving DecidableEq, Repr

/-- A value of the text, as far as it can be read. -/
inductive Node where
  | null
  | bool (b : Bool)
  | number (n : Number)
  | string (s : String)
  /-- the items, and whether the closing bracket is there -/
  | array (items : List Node) (isClosed : Bool)
  /-- the members in the order of the text, and whether the closing brace is there -/
  | object (members : List (String × Node)) (isClosed : Bool)
  /-- no value can be read here -/
  | broken
deriving Repr, Inhabited

mutual

/-- The value can be read to its end. -/
def Node.isIntact : Node → Bool
  | .null => true
  | .bool _ => true
  | .number _ => true
  | .string _ => true
  | .array items isClosed => allIntact items && isClosed
  | .object members isClosed => membersIntact members && isClosed
  | .broken => false
termination_by structural n => n

/-- All items can be read to their ends. -/
def allIntact : List Node → Bool
  | [] => true
  | n :: ns => n.isIntact && allIntact ns
termination_by structural l => l

/-- All members can be read to their ends. -/
def membersIntact : List (String × Node) → Bool
  | [] => true
  | (_, n) :: ns => n.isIntact && membersIntact ns
termination_by structural l => l

end

end Blueprint.Json
