/-!
# Decimal numerals

Whole numbers written in ASCII digits, with the signs each kind of number allows. A
numeral outside the range of its number type is no numeral of that type.
-/

namespace Blueprint.Text

/-- The value of a decimal digit. -/
def digit? (c : Char) : Option Nat :=
  if c.isDigit then some (c.toNat - '0'.toNat) else none

/-- Reads digits after a number that has been read so far. -/
def digitsFrom (value : Nat) : List Char → Option Nat
  | [] => some value
  | c :: cs =>
    match digit? c with
    | some d => digitsFrom (10 * value + d) cs
    | none => none

/-- A number written with one digit or more and nothing else. -/
def digits? : List Char → Option Nat
  | [] => none
  | cs => digitsFrom 0 cs

/-- A natural number below `bound`; a plus sign may stand in front. -/
def natural? (bound : Nat) (cs : List Char) : Option Nat :=
  let body := match cs with
    | '+' :: rest => rest
    | _ => cs
  (digits? body).filter (· < bound)

/-- An integer from `-bound` to `bound - 1`; either sign may stand in front. -/
def integer? (bound : Nat) (cs : List Char) : Option Int :=
  let value := match cs with
    | '-' :: rest => (digits? rest).map fun n => -(n : Int)
    | '+' :: rest => (digits? rest).map fun n => (n : Int)
    | _ => (digits? cs).map fun n => (n : Int)
  value.filter fun n => -(bound : Int) ≤ n && n < bound

/-- The exponent at the end of a decimal number, or nothing. -/
def isExponent : List Char → Bool
  | [] => true
  | 'e' :: cs | 'E' :: cs =>
    match cs with
    | '+' :: cs | '-' :: cs => (digits? cs).isSome
    | cs => (digits? cs).isSome
  | _ => false

/-- A decimal number: digits with a point among them, in front or behind, and an exponent,
or a word for infinity or for no number. Either sign may stand in front. -/
def isDecimal (cs : List Char) : Bool :=
  let body := match cs with
    | '+' :: rest | '-' :: rest => rest
    | _ => cs
  let whole := body.takeWhile Char.isDigit
  let (fraction, rest) := match body.dropWhile Char.isDigit with
    | '.' :: rest => (rest.takeWhile Char.isDigit, rest.dropWhile Char.isDigit)
    | rest => ([], rest)
  ["inf", "infinity", "nan"].contains (String.ofList (body.map Char.toLower)) ||
    ((!whole.isEmpty || !fraction.isEmpty) && isExponent rest)

end Blueprint.Text
