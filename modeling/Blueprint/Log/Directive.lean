import Blueprint.Log.Level
import Blueprint.Text.Blank
import Blueprint.Text.Pattern
import Blueprint.Text.Split

/-!
# Directives of a log filter

A directive is a level, or the name of a part of the program with a level after an equals
sign. Between the two, brackets may restrict it to lines with some field, or to lines
inside a span of work.

```
warn    batch    batch=warn    batch[load{field=pattern}]=warn    [{field}]=warn
```

Without a level it lets everything through. A level alone is taken for one, but before an
equals sign or a bracket every word is a name.
-/

namespace Blueprint

/-- One directive of a filter: which lines it speaks of, and how much of them is let
through. -/
structure LogDirective where
  /-- the name that the part of the program must begin with -/
  target : String
  /-- the field that a line must have, if any -/
  field : Option String
  /-- whether it speaks of lines inside certain spans only -/
  inSpan : Bool
  /-- the verbosity let through -/
  verbosity : Nat
deriving DecidableEq, Repr

namespace LogDirective

/-! ## Levels -/

/-- A text without the difference between upper and lower case. -/
def foldCase (cs : List Char) : String := String.ofList (cs.map Char.toLower)

/-- The verbosity that lets everything through. -/
def everything : Nat := LogLevel.trace.verbosity

/-- The verbosity that a name stands for: that of a level, or `off`. -/
def named? (cs : List Char) : Option Nat :=
  if foldCase cs = "off" then some 0
  else (LogLevel.all.find? fun l => l.text = foldCase cs).map LogLevel.verbosity

/-- The verbosity that a word stands for: a name in any case, or a number. -/
def verbosity? (cs : List Char) : Option Nat :=
  ((Text.natural? UInt64.size cs).filter (· ≤ everything)).or (named? cs)

/-- The verbosity after an equals sign; everything if nothing follows it. -/
def assigned? (cs : List Char) : Option Nat :=
  if cs.isEmpty then some everything else verbosity? cs

/-! ## Brackets -/

/-- A directive that lets everything through and holds for every line of a part. -/
def ofTarget (target : List Char) : LogDirective :=
  ⟨String.ofList target, none, false, everything⟩

/-- Restricts a directive to lines with a field. A value that the field should have is a
number or a pattern and can only be met in a span. -/
def withField? (d : LogDirective) (cs : List Char) : Option LogDirective :=
  match Text.splitAll '=' cs with
  | [] | [[]] => none
  | [name] => some { d with field := some (String.ofList name) }
  | name :: value :: _ =>
    if Text.isDecimal value || Text.isPattern value then
      some { d with field := some (String.ofList name), inSpan := true }
    else none

/-- Reads what stands in the brackets, and what follows them: the name of a span, a field in
braces, or both. -/
def brackets? (d : LogDirective) (cs : List Char) : Option (LogDirective × List Char) :=
  let isName := fun c => c != ']' && c != '{'
  match cs.dropWhile isName with
  | ']' :: rest => some ({ d with inSpan := true }, rest)
  | _ :: rest =>
    let d := { d with inSpan := !(cs.takeWhile isName).isEmpty }
    match Text.splitFirst '}' rest with
    | some (field, ']' :: rest) => (d.withField? field).map fun d => (d, rest)
    | _ => none
  | [] => none

/-! ## Directives -/

/-- A character that a directive may begin with, unless it begins with a bracket. -/
def isStart (c : Char) : Bool := Text.isAlphanumeric c || c == '_' || c == ':' || c == '-'

/-- Reads a directive. Blanks at its start belong to the name, and no level may be assigned
after them; blanks at its end belong to the name or the level, or follow the brackets. -/
def parse (cs : List Char) : Option LogDirective := do
  let blanks := cs.takeWhile Text.isBlank
  let body := cs.dropWhile Text.isBlank
  let first ← body.head?
  if !(first == '[' || isStart first) then none
  let isName := fun c => c != '=' && c != '['
  let word := blanks ++ body.takeWhile isName
  let assign (d : LogDirective) (level : List Char) : Option LogDirective := do
    if !blanks.isEmpty then none
    return { d with verbosity := ← assigned? level }
  match body.dropWhile isName with
  | [] =>
    match verbosity? word with
    | some v => return { ofTarget [] with verbosity := v }
    | none => return ofTarget word
  | '[' :: rest =>
    let (d, rest) ← (ofTarget word).brackets? rest
    match rest with
    | '=' :: level => assign d level
    | rest => if rest.all Text.isBlank then return d else none
  | _ :: level => assign (ofTarget word) level

end LogDirective

end Blueprint
