import Blueprint.Batch.Error
import Blueprint.Structure.Compile

/-!
# What a run is asked to do
-/

namespace Blueprint.Batch

/-- The settings of a run. -/
structure Config where
  /-- the directory of the plans -/
  plans : Path
  /-- the directory of the templates -/
  templates : Path
  /-- the file of the allowlist -/
  allowlist : Path
  /-- the directory for the structures -/
  out : Path
  /-- how plans are compiled -/
  options : CompileOptions
  /-- the biomes to make variants for; none stands for all -/
  biomes : List String
  /-- how many plans may be compiled at the same time -/
  jobs : Nat
deriving DecidableEq, Repr

/-- The biomes to make variants for, in their fixed order. -/
def Config.selectedBiomes (c : Config) : Except ConfigError (List String) :=
  (Biome.select c.biomes).mapError .biome

end Blueprint.Batch
