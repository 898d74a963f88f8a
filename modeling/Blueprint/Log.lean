import Blueprint.Log.Directive

/-!
# Log filters

Which log lines are written is decided by a filter: a list of directives separated by
commas. Of the directives that speak of a line the most specific one decides, and without
any the line is left out.
-/

namespace Blueprint

namespace LogDirective

/-- The one field that every line has is its text. -/
def textField : String := "message"

/-- The directive speaks of the lines of a part. Lines stand in no span. -/
def covers (d : LogDirective) (target : String) : Bool :=
  d.target.toList.isPrefixOf target.toList && d.field.all (· == textField) && !d.inSpan

/-- How specific a directive is: a longer name counts more, and with the same name a
field. -/
def specificity (d : LogDirective) : Nat :=
  2 * d.target.length + if d.field.isSome then 1 else 0

end LogDirective

/-- The directives of a filter. -/
abbrev LogFilter := List LogDirective

namespace LogFilter

/-- The filter that lets a level through everywhere. -/
def ofLevel (l : LogLevel) : LogFilter :=
  [{ LogDirective.ofTarget [] with verbosity := l.verbosity }]

/-- Reads a filter. Nothing if a directive is wrong; empty ones count for nothing. -/
def parse (text : String) : Option LogFilter :=
  ((Text.splitAll ',' text.toList).filter (!·.isEmpty)).mapM LogDirective.parse

/-- The directive that decides about the lines of a part: the most specific one that speaks
of them, and of those that are equally specific the last. -/
def deciding (f : LogFilter) (target : String) : Option LogDirective :=
  (f.filter (·.covers target)).foldl (fun best d =>
    match best with
    | some b => if d.specificity < b.specificity then best else some d
    | none => some d) none

/-- Whether a line of a part and level is written. -/
def allows (f : LogFilter) (target : String) (level : LogLevel) : Bool :=
  match f.deciding target with
  | some d => level.verbosity ≤ d.verbosity
  | none => false

end LogFilter

end Blueprint
