import Blueprint.Text.Split

/-!
# Arguments by their form

What an argument can mean is seen from its first characters: two dashes begin the name of
an option, one dash begins letters for switches, and two dashes alone end the options.
Everything else, a single dash too, is a plain word.
-/

namespace Blueprint.CommandLine

/-- An argument by its form. -/
inductive Token where
  /-- two dashes alone -/
  | separator
  /-- the name of an option, and what follows an equals sign -/
  | long (name : String) (value : Option String)
  /-- letters for switches -/
  | short (letters : List Char)
  /-- anything else -/
  | plain (text : String)
deriving DecidableEq, Repr

/-- The form of an argument. -/
def Token.ofText (text : String) : Token :=
  match text.toList with
  | ['-', '-'] => .separator
  | '-' :: '-' :: rest =>
    match Text.splitFirst '=' rest with
    | some (name, value) => .long (String.ofList name) (some (String.ofList value))
    | none => .long (String.ofList rest) none
  | '-' :: letter :: letters => .short (letter :: letters)
  | _ => .plain text

end Blueprint.CommandLine
