import Blueprint.Batch.Discover
import Blueprint.Batch.Error

/-!
# Results of a run

Every variant ends with a structure file or a failure, and so does a plan that is not
read. A summary lists both sorted by plan and biome, so it does not depend on the order in
which the results came in. The report of a summary is one line for each result and a last
line with the counts.
-/

namespace Blueprint

/-! ## What results are about -/

/-- The plan and the biome that a result is about. -/
structure ResultKey where
  /-- the file of the plan -/
  plan : Path
  /-- the biome of the variant -/
  biome : Option String
deriving DecidableEq, Repr

namespace ResultKey

/-- Plans are ordered by their paths; a plan without biome stands before its variants. -/
instance : Ord ResultKey := ⟨compareLex (compareOn fun k => k.plan.parts) (compareOn biome)⟩

/-- The order of results. -/
def le (a b : ResultKey) : Bool := (compare a b).isLE

end ResultKey

/-- What failed. -/
def PlanFailure.key (f : PlanFailure) : ResultKey := ⟨f.plan, f.biome⟩

namespace Batch

/-- A structure file that was written. -/
structure Compiled where
  /-- the file of the plan -/
  plan : Path
  /-- the biome of the variant -/
  biome : Option String
  /-- the file of the structure -/
  output : Path
deriving DecidableEq, Repr

/-- What a structure file was made of. -/
def Compiled.key (c : Compiled) : ResultKey := ⟨c.plan, c.biome⟩

/-- How a variant ends. -/
abbrev Result := Except PlanFailure Compiled

/-! ## Summaries -/

/-- The results of a run. -/
structure Summary where
  /-- the structure files -/
  compiled : List Compiled
  /-- the failures -/
  failures : List PlanFailure
deriving DecidableEq

namespace Summary

/-- The structure file of a result. -/
def compiled? : Result → Option Compiled
  | .ok c => some c
  | .error _ => none

/-- The failure of a result. -/
def failure? : Result → Option PlanFailure
  | .ok _ => none
  | .error f => some f

/-- The summary of results in any order. -/
def ofResults (results : List Result) : Summary where
  compiled := (results.filterMap compiled?).mergeSort fun a b => a.key.le b.key
  failures := (results.filterMap failure?).mergeSort fun a b => a.key.le b.key

/-- Whether nothing failed. -/
def isSuccess (s : Summary) : Bool := s.failures.isEmpty

/-- The exit status that tells whether something failed. -/
def exitStatus (s : Summary) : Nat := if s.isSuccess then 0 else 1

/-! ## Reports -/

/-- The line for a structure file. -/
def compiledLine (c : Compiled) : String := s!"[ok] {c.plan.text} -> {c.output.text}\n"

/-- The line for a failure. -/
def failureLine (f : PlanFailure) : String := s!"[error] {f.message}\n"

/-- The line with the counts. -/
def countLine (s : Summary) : String :=
  s!"compiled={s.compiled.length} failed={s.failures.length}\n"

/-- The report on what was compiled. -/
def report (s : Summary) : String := String.join (s.compiled.map compiledLine) ++ s.countLine

/-- The report on what failed. -/
def failureReport (s : Summary) : String := String.join (s.failures.map failureLine)

end Summary

end Batch

end Blueprint
