import Blueprint.Proofs.Batch.Conserved
import Mathlib.Data.List.Nodup

/-!
# Who writes what

The table of claims lists for every output the plans that would write it, so the rivals of a
variant are the other plans with a variant for the same output (`Batch.rivals_eq`): each of two
such plans is a rival of the other, and a plan is never its own rival.
-/

namespace Blueprint.Batch

/-! ## Claims -/

namespace Claims

/-- The plans that write a file according to a table. -/
def producers (claims : Claims) (output : List Path.Part) : List Path := claims.getD output []

/-- A variant claims its own output and no other one. -/
theorem producers_add (claims : Claims) (source : Path) (v : Variant) (output : List Path.Part) :
    (claims.add source v).producers output =
      claims.producers output ++ if v.output.parts = output then [source] else [] := by
  rw [producers, add, Std.TreeMap.getD_alter]
  by_cases h : v.output.parts = output
  · subst h
    rw [if_pos Std.ReflCmp.compare_self, if_pos rfl, Option.getD_some, producers,
      Std.TreeMap.getD_eq_getD_getElem?]
  · rw [if_neg fun heq => h (Std.LawfulEqCmp.eq_of_compare heq), if_neg h, List.append_nil,
      producers]

/-- A job claims the outputs of its variants, once for each. -/
theorem producers_addJob (claims : Claims) (j : Job) (output : List Path.Part) :
    (claims.addJob j).producers output =
      claims.producers output ++
        (j.variants.filter fun v => v.output.parts = output).map fun _ => j.source := by
  rw [addJob]
  induction j.variants generalizing claims with
  | nil => simp
  | cons v variants ih =>
    rw [List.foldl_cons, ih, producers_add, List.filter_cons]
    split <;> simp_all

/-- So do all jobs one after another. -/
theorem producers_ofJobs (jobs : List Job) (output : List Path.Part) :
    (ofJobs jobs).producers output = jobs.flatMap fun j =>
      (j.variants.filter fun v => v.output.parts = output).map fun _ => j.source := by
  have hfold (claims : Claims) : (jobs.foldl addJob claims).producers output =
      claims.producers output ++ jobs.flatMap fun j =>
        (j.variants.filter fun v => v.output.parts = output).map fun _ => j.source := by
    induction jobs generalizing claims with
    | nil => simp
    | cons j jobs ih =>
      rw [List.foldl_cons, ih, producers_addJob, List.flatMap_cons, List.append_assoc]
  simpa [ofJobs, producers] using hfold ∅

end Claims

/-! ## Outputs -/

/-- The last piece of the path of an output. -/
def outputName (file : String) (biome : Option String) : String :=
  let stem := (Path.splitName file).1
  match biome with
  | some b => stem ++ "_" ++ b ++ "." ++ outputExtension
  | none => if stem = "." then ".." else stem ++ "." ++ outputExtension

/-- The name of a biome can be part of the name of a file. -/
def FileBiome (biome : Option String) : Prop := ∀ b, biome = some b → '/' ∉ b.toList

/-- An output stands in the directory that stands for that of its plan. -/
theorem outputPath_endsIn (out : Path) {dirs : List String} {file : String}
    (hdirs : ∀ n ∈ dirs, Path.IsName n) (hfile : Path.IsName file) {biome : Option String}
    (hbiome : FileBiome biome) :
    (outputPath out (.ofNames (dirs ++ [file])) biome).EndsIn (out.parts ++ dirs.map .name)
      (outputName file biome) := by
  have htarget := Path.endsIn_join out hdirs hfile.toIsPiece
  obtain ⟨hne, hslash⟩ := hfile.stem
  cases biome with
  | none =>
    have hpiece : Path.IsPiece ((Path.splitName file).1 ++ "." ++ outputExtension) := by
      rw [String.append_assoc]
      exact Path.isPiece_append hne (by decide) hslash (by decide)
    dsimp only [outputPath, outputName]
    exact htarget.withExtension hfile hpiece
  | some b =>
    have hpiece : Path.IsPiece ((Path.splitName file).1 ++ "_" ++ b ++ "." ++ outputExtension) := by
      simp only [String.append_assoc]
      refine Path.isPiece_append hne (by simp) hslash ?_
      simpa [outputExtension] using hbiome b rfl
    dsimp only [outputPath, outputName]
    rw [htarget.stem_eq hfile, Option.getD_some]
    exact htarget.withFileName hfile hpiece

/-- Outputs are structure files, unless nothing is left of the name. -/
theorem outputName_eq (file : String) (biome : Option String) :
    outputName file biome = ".." ∨ ∃ name, outputName file biome = name ++ ".bin" := by
  cases biome with
  | some b => exact .inr ⟨(Path.splitName file).1 ++ "_" ++ b, String.append_assoc⟩
  | none =>
    dsimp only [outputName]
    split
    · exact .inl rfl
    · exact .inr ⟨(Path.splitName file).1, String.append_assoc⟩

/-- A biome can be told from the name of an output of one file. -/
theorem outputName_injective {file b b' : String}
    (h : outputName file (some b) = outputName file (some b')) : b = b' := by
  simpa [outputName, String.append_assoc] using h

/-! ## The plans of a run -/

variable {c : Config} {t : FileTree} {r : Prepared}

/-- The biomes of a run are supported ones. -/
theorem mem_supported_of_mem (h : Ready c t r) {p : Plan} {biome : Option String}
    (hbiome : biome ∈ variantBiomes r.selected p) : ∀ b, biome = some b → b ∈ Biome.supported := by
  rintro b rfl
  refine (selected_sublist h).subset ?_
  unfold variantBiomes at hbiome
  split at hbiome
  · obtain ⟨b', hb', heq⟩ := List.mem_map.1 hbiome
    exact Option.some.inj heq ▸ hb'
  · simp at hbiome

/-- A biome that a plan is made for can stand in the name of a file. -/
theorem fileBiome_of_mem (h : Ready c t r) {p : Plan} {biome : Option String}
    (hbiome : biome ∈ variantBiomes r.selected p) : FileBiome biome := by
  have hsupported : ∀ b ∈ Biome.supported, '/' ∉ b.toList := by decide
  exact fun b hb => hsupported b (mem_supported_of_mem h hbiome b hb)

/-- The file of a plan that was found. -/
def Found.source (c : Config) (f : Found) : Path := c.plans.join f.relative

/-- The outputs of a plan, if it was read. -/
def Found.outputs (c : Config) (selected : List String) (f : Found) : List Path :=
  match f.read with
  | .ok p => (variantBiomes selected p).map (outputPath c.out f.relative)
  | .error _ => []

/-- The other plans with a variant for an output. -/
def Prepared.others (r : Prepared) (c : Config) (f : Found) (output : Path) : List Path :=
  (r.found.filter fun g =>
    !(g.source c).same (f.source c) && (g.outputs c r.selected).any (·.same output)).map
      (Found.source c)

/-- The plan was read, and one of its variants has this output. -/
def Found.Produces (c : Config) (selected : List String) (f : Found) (output : Path) : Prop :=
  ∃ p, f.read = .ok p ∧ ∃ biome ∈ variantBiomes selected p,
    (outputPath c.out f.relative biome).parts = output.parts

/-- A plan produces a file exactly if one of its outputs is that file. -/
theorem produces_iff {selected : List String} {f : Found} {output : Path} :
    f.Produces c selected output ↔ (f.outputs c selected).any (·.same output) := by
  unfold Found.Produces Found.outputs
  cases f.read with
  | error e => simp
  | ok p => simp [Path.same]

/-- The others for an output are the different plans that produce it. -/
theorem mem_others {f : Found} {output source : Path} : source ∈ r.others c f output ↔
    ∃ g ∈ r.found, (g.source c).parts ≠ (f.source c).parts ∧ g.Produces c r.selected output ∧
      g.source c = source := by
  simp only [Prepared.others, List.mem_map, List.mem_filter, Bool.and_eq_true, produces_iff,
    Path.same, Bool.not_eq_true', beq_eq_false_iff_ne, and_assoc]

/-- How the plans of a run are named. -/
theorem Ready.exists_names (ht : t.Sound) (h : Ready c t r) {f : Found} (hf : f ∈ r.found) :
    ∃ dirs file, (∀ n ∈ dirs, Path.IsName n) ∧ Path.IsName file ∧
      (Path.splitName file).2 = some planExtension ∧ f.relative = .ofNames (dirs ++ [file]) ∧
      ∃ files, t.filesBelow c.plans = .ok files ∧ dirs ++ [file] ∈ files := by
  obtain ⟨files, hfiles, hfound⟩ := h.found
  have hlisted := FileTree.listed_of_filesBelow ht hfiles
  have hrelative : f.relative ∈ plansAmong files := hfound ▸ List.mem_map_of_mem hf
  obtain ⟨⟨names, hnames, hname⟩, hextension⟩ := mem_plansAmong.1 hrelative
  obtain ⟨dirs, file, rfl⟩ :=
    (List.eq_nil_or_concat names).resolve_left (hlisted.ne_nil names hnames)
  rw [List.concat_eq_append] at hnames hname
  have hall := hlisted.names _ hnames
  simp only [List.forall_mem_append, List.forall_mem_singleton] at hall
  rw [← hname, (Path.endsIn_ofNames hall.1 hall.2.toIsPiece).extension_eq hall.2] at hextension
  exact ⟨dirs, file, hall.1, hall.2, hextension, hname.symm, files, hfiles, hnames⟩

/-- No two plans of a run lie at the same place. -/
theorem Ready.eq_of_source (ht : t.Sound) (h : Ready c t r) {f g : Found} (hf : f ∈ r.found)
    (hg : g ∈ r.found) (hsame : (f.source c).parts = (g.source c).parts) : f = g := by
  have hnodup : (r.found.map fun f => (f.source c).parts).Nodup :=
    List.pairwise_map.2 (h.sources_ne ht)
  exact List.inj_on_of_nodup_map hnodup hf hg hsame

/-- The others for an output are all different. -/
theorem Ready.nodup_others (ht : t.Sound) (h : Ready c t r) (f : Found) (output : Path) :
    (r.others c f output).Nodup := by
  refine List.pairwise_map.2 (((h.sources_ne ht).filter _).imp fun hne hsame => hne ?_)
  exact congrArg Path.parts hsame

/-- The outputs of a plan are all different. -/
theorem pairwise_outputs (ht : t.Sound) (h : Ready c t r) {f : Found} (hf : f ∈ r.found)
    (p : Plan) : (variantBiomes r.selected p).Pairwise fun b b' =>
      (outputPath c.out f.relative b).parts ≠ (outputPath c.out f.relative b').parts := by
  obtain ⟨dirs, file, hdirs, hfile, -, hrelative, -⟩ := h.exists_names ht hf
  have hparts {biome : Option String} (hbiome : biome ∈ variantBiomes r.selected p) :=
    (outputPath_endsIn c.out hdirs hfile (fileBiome_of_mem h hbiome)).parts_eq
  rw [← hrelative] at hparts
  unfold variantBiomes
  split
  next hpalettes =>
    rw [List.pairwise_map]
    have hsome {b : String} (hb : b ∈ r.selected) : some b ∈ variantBiomes r.selected p := by
      simp [variantBiomes, hpalettes, hb]
    refine (nodup_selected h).imp_of_mem fun {b b'} hb hb' hne heq => hne ?_
    -- outputs of one plan share the directory, so equal ones have equal names
    rw [hparts (hsome hb), hparts (hsome hb'), List.append_cancel_left_eq] at heq
    have hpiece := congrArg Path.Part.piece (List.cons.inj heq).1
    rw [Path.Part.piece_ofPiece, Path.Part.piece_ofPiece] at hpiece
    exact outputName_injective hpiece
  next => exact List.pairwise_singleton _ _

/-- Of different outputs at most one is at a place. -/
theorem map_filter_parts {α : Type} {output : α → Path} {l : List α}
    (h : l.Pairwise fun a b => (output a).parts ≠ (output b).parts) (place source : Path) :
    ((l.filter fun a => (output a).parts = place.parts).map fun _ => source) =
      if l.any fun a => (output a).same place then [source] else [] := by
  induction l with
  | nil => rfl
  | cons a l ih =>
    obtain ⟨ha, h⟩ := List.pairwise_cons.1 h
    rw [List.filter_cons, List.any_cons]
    by_cases hplace : (output a).parts = place.parts
    · have hnone : l.filter (fun b => (output b).parts = place.parts) = [] := by
        refine List.filter_eq_nil_iff.2 fun b hb heq => ha b hb ?_
        rw [hplace, of_decide_eq_true heq]
      simp [hplace, Path.same, hnone]
    · have hother : (output a).same place = false := by simpa [Path.same] using hplace
      rw [if_neg (by simpa using hplace), ih h, hother, Bool.false_or]

/-- What a plan that was found claims. -/
theorem producers_of_job (ht : t.Sound) (h : Ready c t r) {f : Found} (hf : f ∈ r.found)
    {j : Job} (hj : f.job? c r.selected = some j) (output : Path) :
    ((j.variants.filter fun v => v.output.parts = output.parts).map fun _ => j.source) =
      if (f.outputs c r.selected).any (·.same output) then [f.source c] else [] := by
  unfold Found.job? at hj
  split at hj
  next p hread =>
    cases hj
    have hplace := map_filter_parts (pairwise_outputs ht h hf p) output (f.source c)
    simp only [variantsOf, List.filter_map, List.map_map, Function.comp_def, Found.outputs, hread,
      List.any_map] at hplace ⊢
    exact hplace
  next => cases hj

/-- The rivals of a variant are the other plans with a variant for the same output. -/
theorem rivals_eq (ht : t.Sound) (h : Ready c t r) (f : Found) (output : Path) :
    (Claims.ofJobs (r.found.filterMap (Found.job? c r.selected))).rivals (f.source c) output =
      r.others c f output := by
  have hproducers := Claims.producers_ofJobs (r.found.filterMap (Found.job? c r.selected))
    output.parts
  rw [Claims.producers] at hproducers
  rw [Claims.rivals, hproducers, Prepared.others]
  -- the claims come from a part of the plans, so the induction is over any plans that were found
  suffices hplans : ∀ plans : List Found, (∀ g ∈ plans, g ∈ r.found) →
      ((plans.filterMap (Found.job? c r.selected)).flatMap fun j =>
        (j.variants.filter fun v => v.output.parts = output.parts).map fun _ => j.source).filter
          (fun s => !s.same (f.source c)) =
      (plans.filter fun g =>
        !(g.source c).same (f.source c) && (g.outputs c r.selected).any (·.same output)).map
          (Found.source c) from hplans r.found fun _ hg => hg
  intro plans hplans
  induction plans with
  | nil => rfl
  | cons g plans ih =>
    obtain ⟨hg, hrest⟩ := List.forall_mem_cons.1 hplans
    have hrest := ih hrest
    rw [List.filter_cons]
    cases hread : g.read with
    | error e =>
      have hjob : g.job? c r.selected = none := by rw [Found.job?, hread]
      have hnone : g.outputs c r.selected = [] := by rw [Found.outputs, hread]
      rw [List.filterMap_cons_none hjob, hrest, hnone]
      simp
    | ok p =>
      obtain ⟨j, hjob⟩ : ∃ j, g.job? c r.selected = some j := ⟨_, by rw [Found.job?, hread]⟩
      rw [List.filterMap_cons_some hjob, List.flatMap_cons, List.filter_append, hrest,
        producers_of_job ht h hg hjob output]
      -- a plan with the output counts once, unless it is the one that asks
      by_cases hsame : (g.outputs c r.selected).any (·.same output) <;>
        by_cases hself : (g.source c).same (f.source c) <;> simp [hsame, hself]

/-- A variant of a plan, with its rivals. -/
def Prepared.variant (r : Prepared) (c : Config) (f : Found) (biome : Option String) : Variant :=
  ⟨biome, outputPath c.out f.relative biome, r.others c f (outputPath c.out f.relative biome)⟩

/-- The job of a plan. -/
def Prepared.job (r : Prepared) (c : Config) (f : Found) (p : Plan) : Job :=
  ⟨f.source c, p, (variantBiomes r.selected p).map (r.variant c f)⟩

/-- The job of a plan, if it was read. -/
def Prepared.job? (r : Prepared) (c : Config) (f : Found) : Option Job :=
  match f.read with
  | .ok p => some (r.job c f p)
  | .error _ => none

/-- A plan has a job exactly if it was read. -/
theorem job?_eq_some {f : Found} {j : Job} :
    r.job? c f = some j ↔ ∃ p, f.read = .ok p ∧ j = r.job c f p := by
  unfold Prepared.job?
  cases f.read with
  | error e => simp
  | ok p => simp [eq_comm]

/-- The jobs of a run: one for each plan that was read. -/
theorem jobs_eq (ht : t.Sound) (h : Ready c t r) : r.jobs c = r.found.filterMap (r.job? c) := by
  rw [Prepared.jobs, jobsOf, markRivals, List.map_filterMap]
  refine List.filterMap_congr fun f _ => ?_
  rw [Found.job?, Prepared.job?]
  cases f.read with
  | error e => rfl
  | ok p =>
    have hrivals := rivals_eq ht h f
    simp only [Found.source] at hrivals
    simp [Job.withRivals, variantsOf, Prepared.job, Prepared.variant, hrivals, Found.source]

/-! ## Shared outputs -/

/-- A variant of a run: a plan that was found and read, and a biome that it is made for. -/
structure Prepared.Has (r : Prepared) (f : Found) (p : Plan) (biome : Option String) : Prop where
  /-- the plan was found -/
  found : f ∈ r.found
  /-- it was read -/
  read : f.read = .ok p
  /-- it is made for the biome -/
  biome : biome ∈ variantBiomes r.selected p

section

variable {f g : Found} {p q : Plan} {b b' : Option String}

/-- Variants that share an output lie in the same directory. -/
theorem Ready.same_directory (ht : t.Sound) (h : Ready c t r) (hf : r.Has f p b) (hg : r.Has g q b')
    (hsame : (outputPath c.out f.relative b).parts = (outputPath c.out g.relative b').parts) :
    ∃ dirs file file', (Path.splitName file).2 = some planExtension ∧
      (Path.splitName file').2 = some planExtension ∧ f.relative = .ofNames (dirs ++ [file]) ∧
      g.relative = .ofNames (dirs ++ [file']) ∧ outputName file b = outputName file' b' ∧
      (outputPath c.out f.relative b).parts =
        c.out.parts ++ dirs.map .name ++ [.ofPiece (outputName file b)] := by
  obtain ⟨dirs, file, hdirs, hfile, hextension, hrelative, -⟩ := h.exists_names ht hf.found
  obtain ⟨dirs', file', hdirs', hfile', hextension', hrelative', -⟩ := h.exists_names ht hg.found
  have hparts := (outputPath_endsIn c.out hdirs hfile (fileBiome_of_mem h hf.biome)).parts_eq
  have hparts' := (outputPath_endsIn c.out hdirs' hfile' (fileBiome_of_mem h hg.biome)).parts_eq
  rw [← hrelative] at hparts
  rw [← hrelative'] at hparts'
  rw [hparts, hparts'] at hsame
  -- the outputs start with the directory for output, and so agree in the rest
  obtain ⟨hbefore, hlast⟩ := List.append_inj' hsame rfl
  obtain rfl : dirs = dirs' :=
    List.map_injective_iff.2 (fun _ _ => Path.Part.name.inj) (List.append_cancel_left hbefore)
  have hpiece := congrArg Path.Part.piece (List.cons.inj hlast).1
  rw [Path.Part.piece_ofPiece, Path.Part.piece_ofPiece] at hpiece
  exact ⟨dirs, file, file', hextension, hextension', hrelative, hrelative', hpiece, hparts⟩

/-- The file of a plan whose output leads upwards. -/
theorem file_of_outputName {file : String}
    (hextension : (Path.splitName file).2 = some planExtension)
    (hup : outputName file b = "..") : file = "." ++ "." ++ planExtension := by
  have hlong (stem : String) : stem ++ ".bin" ≠ ".." := Path.append_ne stem (by decide)
  cases b with
  | some biome =>
    refine absurd hup ?_
    dsimp only [outputName]
    rw [String.append_assoc]
    exact hlong _
  | none =>
    dsimp only [outputName] at hup
    split at hup
    next hstem => exact (Path.eq_of_splitName hextension).trans (by rw [hstem])
    next =>
      rw [String.append_assoc] at hup
      exact absurd hup (hlong _)

/-- An output that several plans share does not lead upwards. -/
theorem Ready.getLast?_ne_up (ht : t.Sound) (h : Ready c t r) (hf : r.Has f p b)
    (hothers : r.others c f (outputPath c.out f.relative b) ≠ []) :
    (outputPath c.out f.relative b).parts.getLast? ≠ some .up := by
  intro hup
  obtain ⟨source, hsource⟩ := List.exists_mem_of_ne_nil _ hothers
  obtain ⟨g, hg, hne, ⟨q, hq, b', hb', hsame⟩, -⟩ := mem_others.1 hsource
  obtain ⟨dirs, file, file', hextension, hextension', hrelative, hrelative', hname, hparts⟩ :=
    h.same_directory ht hf ⟨hg, hq, hb'⟩ hsame.symm
  rw [hparts, List.getLast?_concat] at hup
  have hpiece := congrArg Path.Part.piece (Option.some.inj hup)
  rw [Path.Part.piece_ofPiece] at hpiece
  rw [file_of_outputName hextension hpiece] at hrelative
  rw [file_of_outputName hextension' (hname.symm.trans hpiece)] at hrelative'
  exact hne (by rw [Found.source, Found.source, hrelative, hrelative'])

/-- If one plan with an output has others, all have. -/
theorem others_ne_nil {output : Path} (hf : r.Has f p b)
    (hsame : (outputPath c.out f.relative b).parts = output.parts)
    (hothers : r.others c f (outputPath c.out f.relative b) ≠ []) : r.others c g output ≠ [] := by
  obtain ⟨source, hsource⟩ := List.exists_mem_of_ne_nil _ hothers
  obtain ⟨k, hk, hne, ⟨q, hq, b', hb', houtput⟩, rfl⟩ := mem_others.1 hsource
  by_cases heq : (f.source c).parts = (g.source c).parts
  · exact List.ne_nil_of_mem
      (mem_others.2 ⟨k, hk, heq ▸ hne, ⟨q, hq, b', hb', houtput.trans hsame⟩, rfl⟩)
  · exact List.ne_nil_of_mem
      (mem_others.2 ⟨f, hf.found, heq, ⟨p, hf.read, b, hf.biome, hsame⟩, rfl⟩)

end

end Blueprint.Batch
