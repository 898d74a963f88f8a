import Blueprint.Batch.Error
import Blueprint.Disk

/-!
# Allowlists in files
-/

namespace Blueprint.Allowlist

variable {m : Type → Type} [Monad m] [Disk m]

/-- Reads the allowlist in a file. -/
def load (p : Path) : ExceptT RunError m Allowlist := ExceptT.mk do
  match ← (Disk.readText p : m _) with
  | .error e => return .error (.allowlist p (.file e))
  | .ok text => return (ofText text).mapError fun e => .allowlist p (.content e)

end Blueprint.Allowlist
