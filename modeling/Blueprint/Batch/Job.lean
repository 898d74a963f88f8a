import Blueprint.Path
import Blueprint.Plan
import Std.Data.TreeMap

/-!
# Jobs

A job is a plan with the variants to make of it: one for each biome asked for if the plan
has palettes, else a single one. Every variant is written to a file of its own. Since the
name of that file is put together from the name of the plan and the biome, two plans may
come to share one; then neither of them writes it, and each names the other.
-/

namespace Blueprint.Batch

/-- The extension of structure files. -/
def outputExtension : String := "bin"

/-- The file for a plan at a path from the directory of the plans: the same path from the
directory for the output, with the biome added to the name. -/
def outputPath (out relative : Path) (biome : Option String) : Path :=
  let target := out.join relative
  match biome with
  | some biome =>
    target.withFileName (target.stem?.getD "" ++ "_" ++ biome ++ "." ++ outputExtension)
  | none => target.withExtension outputExtension

/-! ## Variants -/

/-- One structure to make of a plan. -/
structure Variant where
  /-- the biome, for a plan with palettes -/
  biome : Option String
  /-- the file to write -/
  output : Path
  /-- the other plans that would write the same file -/
  rivals : List Path
deriving DecidableEq, Repr

/-- The biomes of the variants of a plan. -/
def variantBiomes (selected : List String) (p : Plan) : List (Option String) :=
  if p.hasPalettes then selected.map some else [none]

/-- The variants of a plan, before it is known which of them have rivals. -/
def variantsOf (out : Path) (selected : List String) (relative : Path) (p : Plan) : List Variant :=
  (variantBiomes selected p).map fun biome => ⟨biome, outputPath out relative biome, []⟩

/-- A plan with its variants. -/
structure Job where
  /-- the file of the plan -/
  source : Path
  plan : Plan
  variants : List Variant

/-! ## Rivals -/

/-- The plans by the file that they are to write. -/
abbrev Claims := Std.TreeMap (List Path.Part) (List Path)

namespace Claims

/-- Adds what a variant of a plan writes. -/
def add (source : Path) (claims : Claims) (v : Variant) : Claims :=
  claims.alter v.output.parts fun sources => some (sources.getD [] ++ [source])

/-- Adds what a job writes. -/
def addJob (claims : Claims) (j : Job) : Claims := j.variants.foldl (add j.source) claims

/-- What all jobs write. -/
def ofJobs (jobs : List Job) : Claims := jobs.foldl addJob ∅

/-- The plans that write a file, apart from one of them. -/
def rivals (claims : Claims) (source output : Path) : List Path :=
  (claims.getD output.parts []).filter fun s => !s.same source

end Claims

/-- The job with the rivals of its variants. -/
def Job.withRivals (claims : Claims) (j : Job) : Job :=
  { j with
    variants := j.variants.map fun v => { v with rivals := claims.rivals j.source v.output } }

/-- The jobs with the rivals of all variants. -/
def markRivals (jobs : List Job) : List Job := jobs.map (Job.withRivals (Claims.ofJobs jobs))

end Blueprint.Batch
