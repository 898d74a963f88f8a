import Blueprint.Text.Alphanumeric
import Blueprint.Text.Numeral

/-!
# Search patterns

Which texts are regular expressions: groups, classes in brackets, escapes after a
backslash, and repetition of what stands before a mark. Nothing is searched for here, so a
pattern is only checked from left to right, with the number of groups that are open.
-/

namespace Blueprint.Text.Pattern

/-! ## Escapes -/

/-- What an escape stands for. -/
inductive Escape where
  | char (code : Nat)
  /-- one of a set of characters -/
  | set
  /-- a place between characters -/
  | place
deriving DecidableEq, Repr

/-- The value of a hexadecimal digit. -/
def hexDigit? (c : Char) : Option Nat :=
  if c.isDigit then digit? c
  else if 'a' ≤ c.toLower ∧ c.toLower ≤ 'f' then some (c.toLower.toNat - 'a'.toNat + 10)
  else none

/-- Reads `n` hexadecimal digits after the number `value`. -/
def hexDigits? : (n value : Nat) → List Char → Option (Nat × List Char)
  | 0, value, cs => some (value, cs)
  | _ + 1, _, [] => none
  | n + 1, value, c :: cs => (hexDigit? c).bind fun d => hexDigits? n (16 * value + d) cs

/-- Reads the code of a character in `n` hexadecimal digits. -/
def code? (n : Nat) (cs : List Char) : Option (Escape × List Char) := do
  let (code, rest) ← hexDigits? n 0 cs
  if code.isValidChar then return (.char code, rest) else none

/-- The letters for characters that are not seen. -/
def controls : List (Char × Nat) :=
  [('a', 0x7), ('t', 0x9), ('n', 0xA), ('v', 0xB), ('f', 0xC), ('r', 0xD)]

/-- Reads an escape after its backslash. A letter or digit must have a meaning, and the ends
of words have none; any other character of ASCII but an angle bracket stands for itself. -/
def escape? : List Char → Option (Escape × List Char)
  | [] => none
  | c :: rest =>
    match controls.lookup c with
    | some code => some (.char code, rest)
    | none =>
      if c = 'x' then code? 2 rest
      else if c = 'u' then code? 4 rest
      else if c = 'U' then code? 8 rest
      else if c = 'p' ∨ c = 'P' then
        match rest with
        | category :: rest =>
          if "clmnpsz".toList.contains category.toLower then some (.set, rest) else none
        | [] => none
      else if "dDsSwW".toList.contains c then some (.set, rest)
      else if c = 'A' ∨ c = 'z' then some (.place, rest)
      else if c.toNat < 0x80 ∧ !c.isAlphanum ∧ c ≠ '<' ∧ c ≠ '>' then some (.char c.toNat, rest)
      else none

/-! ## Classes -/

/-- One item of a class: a character or a set of them. -/
def item? : List Char → Option (Escape × List Char)
  | [] => none
  | '\\' :: cs => (escape? cs).filter fun (e, _) => e != .place
  | c :: cs => some (.char c.toNat, cs)

/-- Reads an item or a range from one character to another, and what follows. -/
def range? (cs : List Char) : Option (List Char) := do
  let (first, rest) ← item? cs
  match rest with
  | '-' :: ']' :: _ | '-' :: '-' :: _ => return rest
  | '-' :: rest =>
    match first, ← item? rest with
    | .char a, (.char b, rest) => if a ≤ b then return rest else none
    | _, _ => none
  | _ => return rest

/-- Reads the start of a class after its bracket: a circumflex for its complement, and
hyphens or one closing bracket that stand for themselves. -/
def classStart (cs : List Char) : List Char :=
  let cs := match cs with
    | '^' :: cs => cs
    | _ => cs
  match cs with
  | ']' :: rest => rest
  | _ => cs.dropWhile (· == '-')

/-- The names that a class may mention between colons in brackets. -/
def classNames : List String :=
  ["alnum", "alpha", "ascii", "blank", "cntrl", "digit", "graph", "lower", "print", "punct",
   "space", "upper", "word", "xdigit"]

/-- Reads the name of a class after an opening bracket. -/
def className? : List Char → Option (List Char)
  | ':' :: cs =>
    let cs := match cs with
      | '^' :: cs => cs
      | _ => cs
    match cs.dropWhile (· != ':') with
    | ':' :: ']' :: rest =>
      if classNames.contains (String.ofList (cs.takeWhile (· != ':'))) then some rest else none
    | _ => none
  | _ => none

/-- Reads a class to its closing bracket; `depth` more classes are open around it. -/
def classEnd? : (fuel depth : Nat) → List Char → Option (List Char)
  | 0, _, _ => none
  | fuel + 1, depth, cs =>
    match cs with
    | [] => none
    | ']' :: rest => if depth = 0 then some rest else classEnd? fuel (depth - 1) rest
    | '[' :: rest =>
      match className? rest with
      | some rest => classEnd? fuel depth rest
      | none => classEnd? fuel (depth + 1) (classStart rest)
    | '&' :: '&' :: rest | '-' :: '-' :: rest | '~' :: '~' :: rest => classEnd? fuel depth rest
    | _ => (range? cs).bind (classEnd? fuel depth)

/-- Reads a class after its opening bracket. -/
def class? (cs : List Char) : Option (List Char) :=
  classEnd? (cs.length + 1) 0 (classStart cs)

/-! ## Groups -/

/-- The start of a group. -/
inductive GroupStart where
  /-- a group, with its name if it has one -/
  | group (name : Option (List Char))
  /-- settings for what follows, in place of a group -/
  | settings
deriving DecidableEq, Repr

/-- Reads the name of a group up to its closing angle bracket. -/
def groupName? (cs : List Char) : Option (GroupStart × List Char) :=
  let name := cs.takeWhile (· != '>')
  match name, cs.dropWhile (· != '>') with
  | c :: more, _ :: rest =>
    if (c = '_' ∨ isAlphanumeric c ∧ !c.isDigit) ∧
        more.all fun c => isAlphanumeric c || "_.[]".toList.contains c then
      some (.group name, rest)
    else none
  | _, _ => none

/-- The letters of settings, with a hyphen before those that are switched off. Each comes
once. -/
def areSettings (cs : List Char) : Bool :=
  cs.all (fun c => "imsUuRx-".toList.contains c) && cs.Nodup && cs.getLast? != some '-'

/-- Reads the start of a group after its bracket. -/
def groupStart? : List Char → Option (GroupStart × List Char)
  | '?' :: 'P' :: '<' :: cs => groupName? cs
  | '?' :: '<' :: cs => groupName? cs
  | '?' :: cs =>
    let isSetting := fun c => c != ':' && c != ')'
    let settings := cs.takeWhile isSetting
    match cs.dropWhile isSetting with
    | ':' :: rest => if areSettings settings then some (.group none, rest) else none
    | ')' :: rest =>
      if areSettings settings ∧ settings ≠ [] then some (.settings, rest) else none
    | _ => none
  | cs => some (.group none, cs)

/-! ## Patterns -/

/-- The rest of a pattern is well formed: `depth` groups are open, `names` are taken, and
`repeatable` says whether something stands before it that can be repeated. -/
def isRest : (fuel depth : Nat) → (names : List (List Char)) → (repeatable : Bool) →
    List Char → Bool
  | 0, _, _, _, _ => false
  | fuel + 1, depth, names, repeatable, cs =>
    match cs with
    | [] => depth = 0
    | '(' :: rest =>
      match groupStart? rest with
      | none => false
      | some (.settings, rest) => isRest fuel depth names false rest
      | some (.group none, rest) => isRest fuel (depth + 1) names false rest
      | some (.group (some name), rest) =>
        !names.contains name && isRest fuel (depth + 1) (name :: names) false rest
    | ')' :: rest => 0 < depth && isRest fuel (depth - 1) names true rest
    | '|' :: rest => isRest fuel depth names false rest
    | '[' :: rest =>
      match class? rest with
      | some rest => isRest fuel depth names true rest
      | none => false
    | '*' :: '?' :: rest | '+' :: '?' :: rest | '?' :: '?' :: rest
    | '*' :: rest | '+' :: rest | '?' :: rest => repeatable && isRest fuel depth names true rest
    | '{' :: _ => false
    | '\\' :: rest =>
      match escape? rest with
      | some (_, rest) => isRest fuel depth names true rest
      | none => false
    | _ :: rest => isRest fuel depth names true rest

end Pattern

/-- A text is a regular expression without counts of repetition. -/
def isPattern (cs : List Char) : Bool := Pattern.isRest (cs.length + 1) 0 [] false cs

end Blueprint.Text
