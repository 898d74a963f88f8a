import Blueprint.Batch.Error
import Blueprint.Disk

/-!
# Finding plans

The plans of a run are the files with the extension `json` at any depth below one
directory. They are named by their paths from there and worked through in the order of
these paths.
-/

namespace Blueprint

/-- The order of paths, part by part. -/
def Path.le (p q : Path) : Bool := (compare p.parts q.parts).isLE

namespace Batch

/-- The extension of plan files. -/
def planExtension : String := "json"

/-- The plans among the files below a directory, in order. -/
def plansAmong (files : List (List String)) : List Path :=
  ((files.map Path.ofNames).filter fun p => p.extension? == some planExtension).mergeSort Path.le

variable {m : Type → Type} [Monad m] [Disk m]

/-- The plans below a directory, in order. There must be one at least. -/
def discover (root : Path) : ExceptT ConfigError m (List Path) := ExceptT.mk do
  if ← (Disk.isDir root : m Bool) then
    match ← (Disk.filesBelow root : m _) with
    | .error e => return .error (.unreadable root e)
    | .ok files =>
      let plans := plansAmong files
      return if plans.isEmpty then .error (.noPlans root) else .ok plans
  else
    return .error (.noPlanDir root)

end Batch

end Blueprint
