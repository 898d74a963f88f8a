import Blueprint.Allowlist.Load
import Blueprint.Batch.Config
import Blueprint.Batch.Work
import Blueprint.Plan.Load
import Blueprint.Template.Load

/-!
# Runs

A run finds the plans below a directory, compiles each of them for the biomes asked for
and writes the structures. It fails as a whole only before the first structure is written:
if a biome is not supported, if there are no plans, if the allowlist or the templates are
not read, or if the directory for the output cannot be made. The first of these that
applies, in this order, is reported. After that every plan succeeds or fails on its own.

What a run reports on its way goes to `note`.
-/

namespace Blueprint.Batch

variable {m : Type → Type} [Monad m] [Disk m] (note : Event → m Unit)

/-- Loads what all plans share. -/
def loadContext (c : Config) : ExceptT RunError m CompileContext := do
  let allowlist ← Allowlist.load c.allowlist
  note (.allowlistLoaded c.allowlist allowlist.size)
  let templates ← TemplateLibrary.load note c.templates
  note (.templatesLoaded templates.size c.templates)
  return ⟨allowlist, templates⟩

/-- A plan that was found, by its path from the directory of the plans, and what became of
reading it. -/
structure Found where
  relative : Path
  read : Except PlanError Plan

/-- Reads the plans that were found. -/
def readPlans (c : Config) (plans : List Path) : m (List Found) :=
  plans.mapM fun relative => return ⟨relative, ← Plan.load (c.plans.join relative)⟩

/-- The job of a plan that was read. -/
def Found.job? (c : Config) (selected : List String) (f : Found) : Option Job :=
  match f.read with
  | .ok p => some ⟨c.plans.join f.relative, p, variantsOf c.out selected f.relative p⟩
  | .error _ => none

/-- The failure of a plan that was not read. -/
def Found.failure? (c : Config) (f : Found) : Option PlanFailure :=
  match f.read with
  | .ok _ => none
  | .error e => some ⟨c.plans.join f.relative, none, e⟩

/-- The jobs of a run. -/
def jobsOf (c : Config) (selected : List String) (found : List Found) : List Job :=
  markRivals (found.filterMap (Found.job? c selected))

/-- Everything up to the first structure: the plans, the context and the directory for the
output. -/
def start (c : Config) : ExceptT RunError m (List String × List Path × CompileContext) := do
  let selected ← ExceptT.mk (pure (c.selectedBiomes.mapError .config))
  let plans ← (discover c.plans).adapt .config
  let ctx ← loadContext note c
  ExceptT.mk do
    match ← (Disk.createDirAll c.out : m _) with
    | .error e => return .error (.output c.out e)
    | .ok () => return .ok (selected, plans, ctx)

/-- Reads plans and does their jobs. -/
def compileAll (c : Config) (selected : List String) (plans : List Path) (ctx : CompileContext) :
    m Summary := do
  let found ← readPlans c plans
  let unread := (found.filterMap (Found.failure? c)).map Except.error
  noteFailures note unread
  let made ← runJobs note ctx c.options (jobsOf c selected found)
  return .ofResults (unread ++ made)

/-- Runs a batch. -/
def run (c : Config) : ExceptT RunError m Summary := do
  let (selected, plans, ctx) ← start note c
  note (.compiling plans.length (max c.jobs 1) c.options)
  let summary ← (compileAll note c selected plans ctx : m Summary)
  note (.finished summary.compiled.length summary.failures.length)
  return summary

end Blueprint.Batch
