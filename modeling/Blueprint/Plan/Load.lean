import Blueprint.Disk
import Blueprint.Plan.Accept

/-!
# Plans in files
-/

namespace Blueprint.Plan

variable {m : Type → Type} [Monad m] [Disk m]

/-- Reads the plan in a file. -/
def load (p : Path) : m (Except PlanError Plan) := do
  match ← Disk.readText p with
  | .error e => return .error (.file p.text e)
  | .ok text => return parse text

end Blueprint.Plan
