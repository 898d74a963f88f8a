import Blueprint.Json.Node
import Blueprint.Text.Numeral

/-!
# Laying out JSON texts

`Json.layOut` turns a text into the tree of `Blueprint.Json.Node`. The grammar is the
strict one: no comments, no trailing commas, no leading zeros, no bare control characters
in strings, and escapes above the basic plane come as a high and a low surrogate together.
A number beyond the finite double-precision numbers cannot be read, and neither can an
array or object inside `maxDepth` others.

The loops below take a character of the text in every round, so they are given `fuel` for as
many rounds as the whole text has characters.
-/

namespace Blueprint.Json

/-- What was read, and the text after it; no text if it breaks off. -/
structure Scan (α : Type) where
  /-- what was read -/
  value : α
  /-- what follows, unless the text breaks off in what was read -/
  rest : Option (List Char)

/-! ## Blanks, strings and numbers -/

/-- The four characters that may stand between the parts of a text. -/
def isSpace (c : Char) : Bool := c == ' ' || c == '\n' || c == '\t' || c == '\r'

/-- The text from its first part on. -/
def skipSpace (cs : List Char) : List Char := cs.dropWhile isSpace

/-- The value of a hexadecimal digit of either case. -/
def hexDigit? (c : Char) : Option Nat :=
  if '0' ≤ c && c ≤ '9' then some (c.toNat - '0'.toNat)
  else if 'a' ≤ c && c ≤ 'f' then some (c.toNat - 'a'.toNat + 10)
  else if 'A' ≤ c && c ≤ 'F' then some (c.toNat - 'A'.toNat + 10)
  else none

/-- A 16-bit unit of four hexadecimal digits, and the text after it. -/
def hexUnit? : List Char → Option (Nat × List Char)
  | a :: b :: c :: d :: rest => do
    let a ← hexDigit? a
    let b ← hexDigit? b
    let c ← hexDigit? c
    let d ← hexDigit? d
    return (4096 * a + 256 * b + 16 * c + d, rest)
  | _ => none

/-- The first half of a pair of units. -/
def isHighSurrogate (n : Nat) : Bool := 0xD800 ≤ n && n < 0xDC00

/-- The second half of a pair of units. -/
def isLowSurrogate (n : Nat) : Bool := 0xDC00 ≤ n && n < 0xE000

/-- The character after the letter `u` of an escape: one unit, or a pair of them with the
second in an escape of its own. Half a pair is no character. -/
def unicodeEscape? (cs : List Char) : Option (Char × List Char) := do
  let (unit, rest) ← hexUnit? cs
  if isLowSurrogate unit then none
  else if isHighSurrogate unit then
    match rest with
    | '\\' :: 'u' :: rest =>
      let (low, rest) ← hexUnit? rest
      if isLowSurrogate low then
        return (Char.ofNat (0x10000 + 1024 * (unit - 0xD800) + (low - 0xDC00)), rest)
      else none
    | _ => none
  else return (Char.ofNat unit, rest)

/-- The character after the backslash of an escape. -/
def escape? : List Char → Option (Char × List Char)
  | '"' :: rest => some ('"', rest)
  | '\\' :: rest => some ('\\', rest)
  | '/' :: rest => some ('/', rest)
  | 'b' :: rest => some ('\x08', rest)
  | 'f' :: rest => some ('\x0c', rest)
  | 'n' :: rest => some ('\n', rest)
  | 'r' :: rest => some ('\r', rest)
  | 't' :: rest => some ('\t', rest)
  | 'u' :: rest => unicodeEscape? rest
  | _ => none

/-- The characters of a string up to its closing quote, after those in `read` (last
first). -/
def stringBody : (fuel : Nat) → (read : List Char) → List Char → Option (String × List Char)
  | 0, _, _ => none
  | _ + 1, _, [] => none
  | fuel + 1, read, c :: rest =>
    if c = '"' then some (String.ofList read.reverse, rest)
    else if c = '\\' then
      match escape? rest with
      | some (d, rest) => stringBody fuel (d :: read) rest
      | none => none
    else if c.toNat < 0x20 then none
    else stringBody fuel (c :: read) rest

/-- A string after its opening quote. -/
def string? (fuel : Nat) (cs : List Char) : Option (String × List Char) := stringBody fuel [] cs

/-- The digits at the front of a text, one at least. -/
def digitRun? (cs : List Char) : Option (List Char × List Char) :=
  match cs.takeWhile Char.isDigit with
  | [] => none
  | ds => some (ds, cs.dropWhile Char.isDigit)

/-- The digits before the point: a zero stands alone. -/
def wholePart? (cs : List Char) : Option (List Char × List Char) :=
  match digitRun? cs with
  | some ('0' :: _ :: _, _) => none
  | part => part

/-- The digits after a point; there is a digit after each point. -/
def fractionPart? (cs : List Char) : Option (List Char × List Char) :=
  match cs with
  | '.' :: rest => digitRun? rest
  | _ => some ([], cs)

/-- The number after the letter of an exponent. -/
def exponentPart? (cs : List Char) : Option (Int × List Char) :=
  let (isNegative, rest) := match cs with
    | '-' :: rest => (true, rest)
    | '+' :: rest => (false, rest)
    | _ => (false, cs)
  (digitRun? rest).map fun (ds, rest) =>
    let n : Int := (Text.digits? ds).getD 0
    (if isNegative then -n else n, rest)

/-- A power of ten after a number, and whether there is one. -/
def scale? (cs : List Char) : Option (Option Int × List Char) :=
  match cs with
  | 'e' :: rest => (exponentPart? rest).map fun (n, rest) => (some n, rest)
  | 'E' :: rest => (exponentPart? rest).map fun (n, rest) => (some n, rest)
  | _ => some (none, cs)

/-- The significand with a digit behind it, if 64 bits hold that. -/
def withDigit? (significand : Nat) (c : Char) : Option Nat :=
  ((Text.digit? c).map fun d => 10 * significand + d).filter (· < UInt64.size)

/-- The significand with digits before the point, and the number of those that 64 bits do not
hold: from the first of them on they count as zeros. -/
def withWhole (significand : Nat) : List Char → Nat × Nat
  | [] => (significand, 0)
  | c :: cs =>
    match withDigit? significand c with
    | some n => withWhole n cs
    | none => (significand, (c :: cs).length)

/-- The significand with digits after the point, and the number of those that 64 bits hold: from
the first on that they do not, all are dropped. -/
def withFraction (significand : Nat) : List Char → Nat × Nat
  | [] => (significand, 0)
  | c :: cs =>
    match withDigit? significand c with
    | some n =>
      let (n, held) := withFraction n cs
      (n, held + 1)
    | none => (significand, 0)

/-- The double-precision number of a decimal numeral with a sign. -/
def real? (isNegative : Bool) (whole fraction : List Char) (exponent : Int) : Option Number := do
  let (significand, zeros) := withWhole 0 whole
  let (significand, held) := withFraction significand fraction
  let x ← Binary64.ofDecimal? significand (exponent + zeros - held)
  return .real (if isNegative then x.negated else x)

/-- The number that a numeral means. Without point and exponent it is a whole number as
long as 64 bits hold it; minus zero is no whole number. -/
def numberOf? (isNegative : Bool) (whole fraction : List Char) (exponent : Option Int) :
    Option Number :=
  let n := (Text.digits? whole).getD 0
  let isWhole := fraction.isEmpty && exponent.isNone
  if isWhole && !isNegative && n < UInt64.size then some (.int n)
  else if isWhole && isNegative && 0 < n && n ≤ 0x8000000000000000 then some (.int (-n))
  else real? isNegative whole fraction (exponent.getD 0)

/-- The number at the front of a text. -/
def number? (cs : List Char) : Option (Number × List Char) := do
  let (isNegative, rest) := match cs with
    | '-' :: rest => (true, rest)
    | _ => (false, cs)
  let (whole, rest) ← wholePart? rest
  let (fraction, rest) ← fractionPart? rest
  let (exponent, rest) ← scale? rest
  let n ← numberOf? isNegative whole fraction exponent
  return (n, rest)

/-! ## Values -/

/-- A scalar, or a break where it cannot be read. -/
def scalar {α : Type} (node : α → Node) : Option (α × List Char) → Scan Node
  | some (a, rest) => ⟨node a, some rest⟩
  | none => ⟨.broken, none⟩

/-- The items of an array from the first one on; `value` reads one of them. -/
def items (value : List Char → Scan Node) :
    (fuel : Nat) → List Char → List Node × Option (List Char)
  | 0, _ => ([], none)
  | fuel + 1, cs =>
    let first := value cs
    match first.rest.map skipSpace with
    | some (']' :: rest) => ([first.value], some rest)
    | some (',' :: rest) =>
      match skipSpace rest with
      | [] => ([first.value], none)
      | ']' :: _ => ([first.value], none)
      | rest =>
        let (more, rest) := items value fuel rest
        (first.value :: more, rest)
    | _ => ([first.value], none)

/-- The members of an object from the first key on, given the text after its opening
quote; `value` reads the value of one of them, and `key` the rest of a string. -/
def members (key : List Char → Option (String × List Char)) (value : List Char → Scan Node) :
    (fuel : Nat) → List Char → List (String × Node) × Option (List Char)
  | 0, _ => ([], none)
  | fuel + 1, cs =>
    match key cs with
    | none => ([], none)
    | some (name, rest) =>
      match skipSpace rest with
      | ':' :: rest =>
        let first := value rest
        match first.rest.map skipSpace with
        | some ('}' :: rest) => ([(name, first.value)], some rest)
        | some (',' :: rest) =>
          match skipSpace rest with
          | '"' :: rest =>
            let (more, rest) := members key value fuel rest
            ((name, first.value) :: more, rest)
          | _ => ([(name, first.value)], none)
        | _ => ([(name, first.value)], none)
      | _ => ([(name, .broken)], none)

/-- An array after its opening bracket. -/
def arrayBody (fuel : Nat) (value : List Char → Scan Node) (cs : List Char) : Scan Node :=
  match skipSpace cs with
  | [] => ⟨.array [] false, none⟩
  | ']' :: rest => ⟨.array [] true, some rest⟩
  | rest =>
    let (nodes, rest) := items value fuel rest
    ⟨.array nodes rest.isSome, rest⟩

/-- An object after its opening brace. -/
def objectBody (fuel : Nat) (value : List Char → Scan Node) (cs : List Char) : Scan Node :=
  match skipSpace cs with
  | '}' :: rest => ⟨.object [] true, some rest⟩
  | '"' :: rest =>
    let (nodes, rest) := members (string? fuel) value fuel rest
    ⟨.object nodes rest.isSome, rest⟩
  | _ => ⟨.object [] false, none⟩

/-- The value at the front of a text; `levels` arrays and objects may still be opened
inside each other. -/
def value (fuel : Nat) : (levels : Nat) → List Char → Scan Node
  | 0, _ => ⟨.broken, none⟩
  | levels + 1, cs =>
    match skipSpace cs with
    | 'n' :: 'u' :: 'l' :: 'l' :: rest => ⟨.null, some rest⟩
    | 't' :: 'r' :: 'u' :: 'e' :: rest => ⟨.bool true, some rest⟩
    | 'f' :: 'a' :: 'l' :: 's' :: 'e' :: rest => ⟨.bool false, some rest⟩
    | '"' :: rest => scalar .string (string? fuel rest)
    | '[' :: rest =>
      if levels = 0 then ⟨.array [] false, none⟩ else arrayBody fuel (value fuel levels) rest
    | '{' :: rest =>
      if levels = 0 then ⟨.object [] false, none⟩
      else objectBody fuel (value fuel levels) rest
    | rest => scalar .number (number? rest)

/-- How many arrays and objects may stand inside each other. -/
def maxDepth : Nat := 127

/-- The tree of a text, with what follows its value. -/
def layOut (text : String) : Scan Node :=
  let cs := text.toList
  value cs.length (maxDepth + 1) cs

end Blueprint.Json
