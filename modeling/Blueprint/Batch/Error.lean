import Blueprint.Allowlist.Document
import Blueprint.Path
import Blueprint.Plan.Error

/-!
# Failures of a run

A run fails as a whole only for what all its plans share: the biomes asked for, the
directory of the plans, the allowlist, the templates and the directory for the output. A
failure of one plan, or of one of its variants, is kept with the results.
-/

namespace Blueprint

/-! ## Failures of the whole run -/

/-- Why an allowlist file is not read. -/
inductive AllowlistFileError where
  | file (e : FileError)
  | content (e : Allowlist.ReadError)
deriving DecidableEq

/-- What is wrong with the allowlist. -/
def AllowlistFileError.message : AllowlistFileError → String
  | file e => e.message
  | content e => e.message

/-- Why templates are not read. -/
inductive TemplateFileError where
  | file (e : FileError)
  | content (e : TemplateError)
  /-- another file has the same name before its extension -/
  | duplicate (kind : TemplateKind) (name : String)
deriving DecidableEq

/-- What is wrong with the templates. -/
def TemplateFileError.message : TemplateFileError → String
  | file e => e.message
  | content e => e.message
  | duplicate kind name => s!"duplicate {kind.text} template name '{name}'"

/-- What is wrong with the settings of a run. -/
inductive ConfigError where
  /-- a biome is not supported -/
  | biome (given : String)
  /-- the directory of the plans is missing -/
  | noPlanDir (root : Path)
  /-- the directory of the plans cannot be searched -/
  | unreadable (root : Path) (e : FileError)
  /-- there are no plans -/
  | noPlans (root : Path)
deriving DecidableEq

/-- What is wrong with the settings. -/
def ConfigError.message : ConfigError → String
  | biome given => s!"unknown biome '{given}' (expected one of {Biome.supportedText})"
  | noPlanDir root => s!"plan directory {root.text} does not exist"
  | unreadable root e => s!"cannot walk {root.text}: {e.message}"
  | noPlans root => s!"no *.json plans found under {root.text}"

/-- Why a run fails before its first plan. -/
inductive RunError where
  | config (e : ConfigError)
  | allowlist (path : Path) (e : AllowlistFileError)
  | template (path : Path) (e : TemplateFileError)
  /-- the directory for the output cannot be made -/
  | output (path : Path) (e : FileError)
deriving DecidableEq

/-- What went wrong. -/
def RunError.message : RunError → String
  | config e => s!"configuration error: {e.message}"
  | allowlist path e => s!"allowlist {path.text}: {e.message}"
  | template path e => s!"template {path.text}: {e.message}"
  | output path e => s!"io error on {path.text}: {e.message}"

/-! ## Failures of a plan -/

/-- A plan, or one of its variants, that failed. -/
structure PlanFailure where
  /-- the file of the plan -/
  plan : Path
  /-- the biome of the variant -/
  biome : Option String
  /-- why -/
  error : PlanError
deriving DecidableEq

/-- The failure as reports show it. -/
def PlanFailure.message (f : PlanFailure) : String :=
  match f.biome with
  | some biome => f.plan.text ++ " [" ++ biome ++ "]: " ++ f.error.message
  | none => f.plan.text ++ ": " ++ f.error.message

end Blueprint
