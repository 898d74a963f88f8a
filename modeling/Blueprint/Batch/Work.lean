import Blueprint.Batch.Event
import Blueprint.Batch.Job
import Blueprint.Batch.Summary
import Blueprint.Disk
import Blueprint.Structure.Container

/-!
# Doing jobs

The variants of a job are made one after another, and each of them fails on its own. A
variant with rivals fails before it is compiled and writes nothing.
-/

namespace Blueprint.Batch

variable {m : Type → Type} [Monad m] [Disk m] (note : Event → m Unit)

/-- The bytes of the file of a variant, given what its plan was compiled to. -/
def Variant.bytes (v : Variant) (compiled : Except PlanError Structure) :
    Except PlanError (List UInt8) := do
  let s ← compiled
  s.encode.mapError (.container v.output.text)

/-- Compiles a variant and writes its file. -/
def Variant.make (ctx : CompileContext) (options : CompileOptions) (p : Plan) (v : Variant) :
    m (Except PlanError Unit) := do
  if !v.rivals.isEmpty then
    return .error (.schema (.clash v.output.text (v.rivals.map Path.text)))
  let compiled := p.compile v.biome ctx options
  (p.events v.biome ctx options compiled).forM note
  match v.bytes compiled with
  | .error e => return .error e
  | .ok bytes =>
    match ← Disk.writeAtomic v.output bytes with
    | .error e => return .error (.file v.output.text e)
    | .ok () =>
      note (.wrote v.output)
      return .ok ()

/-- Makes a variant of a job. -/
def Job.make (ctx : CompileContext) (options : CompileOptions) (j : Job) (v : Variant) :
    m Result := do
  match ← v.make note ctx options j.plan with
  | .ok () => return .ok ⟨j.source, v.biome, v.output⟩
  | .error e => return .error ⟨j.source, v.biome, e⟩

/-- Reports the failures among results. -/
def noteFailures (results : List Result) : m Unit :=
  (results.filterMap Summary.failure?).forM fun f => note (.planFailed f)

/-- Makes the variants of a job. -/
def Job.run (ctx : CompileContext) (options : CompileOptions) (j : Job) : m (List Result) := do
  let results ← j.variants.mapM (j.make note ctx options)
  noteFailures note results
  return results

/-- Does jobs one after another. -/
def runJobs (ctx : CompileContext) (options : CompileOptions) (jobs : List Job) :
    m (List Result) := do
  return (← jobs.mapM (Job.run note ctx options)).flatten

end Blueprint.Batch
