import Blueprint.BlockState
import Blueprint.Text.Blank
import Blueprint.Text.Split

/-!
# Reading block states

The text form is `namespace:name` followed by an optional list of properties in square
brackets. Blanks around the whole, around each property, and around its key and value are
dropped, and empty places in the list are passed over. All values are read as texts.
-/

namespace Blueprint.BlockState

/-- Why a text is no block state. Each error keeps the text as it was given. -/
inductive SyntaxError where
  /-- the identifier or the brackets are wrong -/
  | form (state : String)
  /-- a place in the list is not `key=value` -/
  | segment (piece state : String)
  /-- a key stands there twice -/
  | duplicate (key state : String)
deriving DecidableEq, Repr

/-- What is wrong with the text. -/
def SyntaxError.message : SyntaxError → String
  | form state => s!"invalid block state syntax: {state}"
  | segment piece state => s!"invalid property segment '{piece}' in state '{state}'"
  | duplicate key state => s!"duplicate property '{key}' in state '{state}'"

/-- A character of the parts of an identifier. -/
def isNameChar (c : Char) : Bool :=
  ('a' ≤ c && c ≤ 'z') || ('0' ≤ c && c ≤ '9') || c == '_' || c == '.' || c == '/' || c == '-'

/-- The identifier at the start of a text and what follows it. -/
def takeName (cs : List Char) : Option (List Char × List Char) :=
  let space := cs.takeWhile isNameChar
  match cs.dropWhile isNameChar with
  | ':' :: rest =>
    let name := rest.takeWhile isNameChar
    if space.isEmpty || name.isEmpty then none
    else some (space ++ ':' :: name, rest.dropWhile isNameChar)
  | _ => none

/-- What stands in the brackets that fill the text; they cannot hold a line feed. -/
def bracketed? (cs : List Char) : Option (List Char) :=
  match cs with
  | '[' :: rest =>
    if rest.getLast? == some ']' && !rest.dropLast.contains '\n' then some rest.dropLast else none
  | _ => none

/-- The key and the value of one property. -/
def keyValue? (segment : List Char) : Option (List Char × List Char) :=
  match Text.splitFirst '=' segment with
  | some (before, after) =>
    let key := Text.trim before
    let value := Text.trim after
    if key.isEmpty || value.isEmpty then none else some (key, value)
  | none => none

/-- Reads the properties one after another into those read before. -/
def parseSegments (state : String) (read : Properties) :
    List (List Char) → Except SyntaxError Properties
  | [] => .ok read
  | piece :: pieces =>
    match Text.trim piece with
    | [] => parseSegments state read pieces
    | segment =>
      match keyValue? segment with
      | none => .error (.segment (String.ofList segment) state)
      | some (key, value) =>
        let key := String.ofList key
        if read.contains key then .error (.duplicate key state)
        else parseSegments state (read.insert key (.string (String.ofList value))) pieces

/-- Reads a block state. -/
def parse (state : String) : Except SyntaxError BlockState :=
  match takeName (Text.trim state.toList) with
  | none => .error (.form state)
  | some (name, []) => .ok (ofId (String.ofList name))
  | some (name, rest) =>
    match bracketed? rest with
    | none => .error (.form state)
    | some props =>
      (parseSegments state .empty (Text.splitAll ',' props)).map
        fun properties => ⟨String.ofList name, properties⟩

end Blueprint.BlockState
