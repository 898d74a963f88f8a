import Blueprint.Proofs.Batch.Results
import Blueprint.Proofs.FileTree
import Blueprint.Proofs.Plan.Accept

/-!
# Nothing is lost

Whatever happens to the jobs of a run, and in whatever order they end, every plan among the files
is accounted for in the summary: a plan that was not read, or that has no palettes, with one
result, any other plan with one result for each biome asked for. The results are sorted strictly,
so it does not matter in which order they came in (`Batch.conserved`).
-/

namespace Blueprint

namespace Path

/-- Names joined to a path are added to its parts. -/
theorem parts_join_ofNames (p : Path) {names : List String} (hne : names ≠ [])
    (hnames : ∀ n ∈ names, IsName n) :
    (p.join (ofNames names)).parts = p.parts ++ names.map .name := by
  obtain ⟨dirs, last, rfl⟩ := (List.eq_nil_or_concat names).resolve_left hne
  simp only [List.concat_eq_append, List.forall_mem_append, List.forall_mem_singleton] at hnames ⊢
  rw [(endsIn_join p hnames.1 hnames.2.toIsPiece).parts_eq, hnames.2.ofPiece]
  simp

end Path

/-! ## The plans of a run -/

namespace Batch

/-- The plans among some files are those with the right extension. -/
theorem mem_plansAmong {files : List (List String)} {p : Path} :
    p ∈ plansAmong files ↔
      (∃ names ∈ files, .ofNames names = p) ∧ p.extension? = some planExtension := by
  rw [plansAmong, List.mem_mergeSort, List.mem_filter, List.mem_map, beq_iff_eq]

/-- No two plans of a run lie at the same place. -/
theorem pairwise_plansAmong {files : List (List String)} (h : FileTree.Listed files) (root : Path) :
    (plansAmong files).Pairwise fun p q => (root.join p).parts ≠ (root.join q).parts := by
  refine List.Pairwise.perm (.filter _ (List.pairwise_map.2 ?_)) (List.mergeSort_perm _ _).symm
    Ne.symm
  refine h.nodup.imp_of_mem fun {a b} ha hb hne heq => hne ?_
  rw [Path.parts_join_ofNames root (h.ne_nil a ha) (h.names a ha),
    Path.parts_join_ofNames root (h.ne_nil b hb) (h.names b hb), List.append_cancel_left_eq] at heq
  exact List.map_injective_iff.2 (fun _ _ => Path.Part.name.inj) heq

variable {c : Config} {t : FileTree} {r : Prepared}

/-- Plans that were found have different paths. -/
theorem Ready.sources_ne (ht : t.Sound) (h : Ready c t r) :
    r.found.Pairwise fun f g =>
      (c.plans.join f.relative).parts ≠ (c.plans.join g.relative).parts := by
  obtain ⟨files, hfiles, hfound⟩ := h.found
  have hplans := pairwise_plansAmong (FileTree.listed_of_filesBelow ht hfiles) c.plans
  rwa [← hfound, List.pairwise_map] at hplans

/-- The biomes of a run are some of the supported ones, in their order. -/
theorem selected_sublist (h : Ready c t r) : r.selected.Sublist Biome.supported := by
  have hselected := h.selected
  rw [Config.selectedBiomes, Outcome.mapError_eq_ok, Biome.select] at hselected
  split at hselected
  · cases hselected
  · rw [← Except.ok.inj hselected]
    exact List.filter_sublist

/-- No biome is selected twice. -/
theorem nodup_selected (h : Ready c t r) : r.selected.Nodup :=
  List.Pairwise.sublist (selected_sublist h) (by decide : Biome.supported.Nodup)

/-! ## Keys -/

/-- What a result is about. -/
def Result.key : Result → ResultKey
  | .ok c => c.key
  | .error f => f.key

/-- What the results of a job are about. -/
def Job.keys (j : Job) : List ResultKey := j.variants.map fun v => ⟨j.source, v.biome⟩

/-- What the results of a plan that was found are about: the plan itself, if it is not read or
has no palettes, or else the plan in each of the biomes asked for. -/
def Found.keys (c : Config) (selected : List String) (f : Found) : List ResultKey :=
  match f.read with
  | .error _ => [⟨c.plans.join f.relative, none⟩]
  | .ok p =>
    if p.hasPalettes then selected.map fun b => ⟨c.plans.join f.relative, some b⟩
    else [⟨c.plans.join f.relative, none⟩]

/-- What is about different plans or different biomes is not about the same. -/
theorem compare_ne_eq {a b : ResultKey} (h : a.plan.parts ≠ b.plan.parts ∨ a.biome ≠ b.biome) :
    compare a b ≠ .eq := by
  intro heq
  obtain ⟨hplan, hbiome⟩ := compareLex_eq_eq.1 heq
  exact h.elim (· (Std.LawfulEqOrd.eq_of_compare hplan)) (· (Std.LawfulEqOrd.eq_of_compare hbiome))

/-- What a plan is reported under starts with its path. -/
theorem plan_of_mem_keys {f : Found} {selected : List String} {k : ResultKey}
    (h : k ∈ f.keys c selected) : k.plan = c.plans.join f.relative := by
  unfold Found.keys at h
  split at h
  · simp_all
  · split at h
    · simp only [List.mem_map] at h
      obtain ⟨_, _, rfl⟩ := h
      rfl
    · simp_all

/-- No two results are about the same. -/
theorem pairwise_keys (ht : t.Sound) (h : Ready c t r) :
    (r.found.flatMap (Found.keys c r.selected)).Pairwise fun a b => compare a b ≠ .eq := by
  rw [List.pairwise_flatMap]
  constructor
  · intro f _
    unfold Found.keys
    split
    · exact List.pairwise_singleton _ _
    · split
      · rw [List.pairwise_map]
        refine (nodup_selected h).imp fun hne => compare_ne_eq (.inr fun heq => hne ?_)
        exact Option.some.inj heq
      · exact List.pairwise_singleton _ _
  · refine (h.sources_ne ht).imp fun hne a ha b hb => compare_ne_eq (.inl ?_)
    rwa [plan_of_mem_keys ha, plan_of_mem_keys hb]

/-- The plans that write the same file do not change what a job is reported under. -/
theorem Job.keys_withRivals (claims : Claims) (j : Job) : (j.withRivals claims).keys = j.keys := by
  simp [Job.keys, Job.withRivals, Function.comp_def]

/-- The results of the job of a plan are about the plan in the biomes asked for. -/
theorem keys_of_job {f : Found} {selected : List String} {j : Job}
    (h : f.job? c selected = some j) : j.keys = f.keys c selected := by
  unfold Found.job? at h
  split at h
  next p hread =>
    cases h
    simp only [Job.keys, variantsOf, variantBiomes, Found.keys, hread]
    split <;> simp
  next => cases h

/-- What jobs and plans that were not read have results about is what all plans have. -/
theorem perm_keys (r : Prepared) (c : Config) :
    ((r.unread c).map Result.key ++ (r.jobs c).flatMap Job.keys).Perm
      (r.found.flatMap (Found.keys c r.selected)) := by
  rw [Prepared.unread, Prepared.jobs, jobsOf, markRivals, List.flatMap_map]
  -- the marks do not change a job's keys; what is left is an induction over the plans found
  simp only [Job.keys_withRivals]
  induction r.found with
  | nil => exact .refl _
  | cons f found ih =>
    cases hread : f.read with
    | error e =>
      have hjob : f.job? c r.selected = none := by rw [Found.job?, hread]
      have hfailure : f.failure? c = some ⟨c.plans.join f.relative, none, e⟩ := by
        rw [Found.failure?, hread]
      have hkeys : f.keys c r.selected = [⟨c.plans.join f.relative, none⟩] := by
        rw [Found.keys, hread]
      rw [List.filterMap_cons_some hfailure, List.filterMap_cons_none hjob, List.flatMap_cons,
        hkeys]
      exact ih.cons _
    | ok p =>
      have hfailure : f.failure? c = none := by rw [Found.failure?, hread]
      obtain ⟨j, hjob⟩ : ∃ j, f.job? c r.selected = some j := ⟨_, by rw [Found.job?, hread]⟩
      rw [List.filterMap_cons_none hfailure, List.filterMap_cons_some hjob, List.flatMap_cons,
        List.flatMap_cons, keys_of_job hjob]
      -- a loaded plan adds its keys behind those of the plans that are unread
      exact List.perm_append_comm_assoc _ _ _ |>.trans (ih.append_left _)

/-! ## Results -/

/-- A result is reported under the plan and the biome that it is for. -/
theorem Job.key_result (j : Job) (v : Variant) (outcome : Except PlanError Unit) :
    (j.result v outcome).key = ⟨j.source, v.biome⟩ := by
  cases outcome <;> rfl

/-- Lists that are related item for item have the same images if related items do. -/
theorem map_eq_of_forall₂ {α β γ : Type} {f : β → γ} {g : α → γ} {l : List α} {l' : List β}
    (h : List.Forall₂ (fun a b => f b = g a) l l') : l'.map f = l.map g := by
  induction h with
  | nil => rfl
  | cons hfirst _ ih => rw [List.map_cons, List.map_cons, hfirst, ih]

end Batch

/-- Every task ends with some value, whatever the others do. -/
theorem Task.keeps_any {σ α : Type} (x : Task σ α) (s : σ) :
    x.Keeps ⟨fun _ _ => True, fun _ _ => True⟩ (fun _ _ => True) s := by
  induction x generalizing s with
  | done a => exact Task.keeps_done.2 fun _ _ => trivial
  | act effect next ih => exact Task.keeps_act.2 fun s' _ => ⟨trivial, ih s' (effect s')⟩

namespace Batch

/-- The results that come in are about all variants of all jobs. -/
theorem perm_collected {r : Prepared} {c : Config} {limit : Nat} {t : FileTree}
    {collected : List (List Result)}
    (h : Pool.Steps limit (.ofTasks r.tree (r.tasks c)) (.finished t collected)) :
    (collected.flatten.map Result.key).Perm ((r.jobs c).flatMap Job.keys) := by
  obtain ⟨⟨results, hperm, hresults⟩, -⟩ := results_of_steps
    (fun _ _ => ⟨fun _ _ => True, fun _ _ => True⟩) (fun _ _ _ _ => True)
    (List.pairwise_of_forall fun _ _ => ⟨fun _ _ h => h, fun _ _ h => h⟩)
    (fun _ _ => Task.keeps_any _ _) h
  have hkeys : results.map Result.key =
      (r.work c).map fun x => (⟨x.1.source, x.2.biome⟩ : ResultKey) := by
    refine map_eq_of_forall₂ (hresults.imp fun x result hresult => ?_)
    obtain ⟨outcome, -, rfl⟩ := hresult
    exact x.1.key_result x.2 outcome
  have hwork : (r.work c).map (fun x => (⟨x.1.source, x.2.biome⟩ : ResultKey)) =
      (r.jobs c).flatMap Job.keys := by
    simp only [Prepared.work, List.map_flatMap, List.map_map]
    rfl
  exact hwork ▸ hkeys ▸ (hperm.map Result.key).symm

/-- A summary has the results it was made of, each in one of its lists. -/
theorem Summary.perm_ofResults (results : List Result) :
    ((ofResults results).compiled.map Except.ok ++
      (ofResults results).failures.map Except.error).Perm results := by
  have hsorted : ((results.filterMap compiled?).map Except.ok ++
      (results.filterMap failure?).map Except.error).Perm results := by
    induction results with
    | nil => exact .refl _
    | cons result results ih =>
      cases result with
      | ok c => exact ih.cons _
      | error f => exact List.perm_middle.trans (ih.cons _)
  exact (((List.mergeSort_perm _ _).map _).append ((List.mergeSort_perm _ _).map _)).trans hsorted

/-- The keys of a summary are those of its two lists. -/
theorem Summary.keys_eq (s : Summary) :
    (s.compiled.map Except.ok ++ s.failures.map Except.error).map Result.key =
      s.compiled.map Compiled.key ++ s.failures.map PlanFailure.key := by
  simp [Function.comp_def, Result.key]

/-! ## The summary -/

/-- A list is sorted by what its results are about, and no two of them are about the same. -/
def SortedByKey {α : Type} (key : α → ResultKey) (l : List α) : Prop :=
  l.Pairwise fun a b => compare (key a) (key b) = .lt

instance : Std.TransOrd ResultKey :=
  inferInstanceAs (Std.TransCmp
    (compareLex (compareOn fun k : ResultKey => k.plan.parts) (compareOn ResultKey.biome)))

section Sorted

variable {α : Type} {key : α → ResultKey} {l l' : List α}

/-- Sorting makes results that are about different things strictly sorted. -/
theorem sortedByKey_mergeSort (h : l.Pairwise fun a b => compare (key a) (key b) ≠ .eq) :
    SortedByKey key (l.mergeSort fun a b => (key a).le (key b)) := by
  have hsorted : (l.mergeSort fun a b => (key a).le (key b)).Pairwise fun a b =>
      (key a).le (key b) := by
    refine List.pairwise_mergeSort (fun _ _ _ => Std.TransCmp.isLE_trans) (fun a b => ?_) l
    have hswap : compare (key b) (key a) = (compare (key a) (key b)).swap :=
      Std.OrientedCmp.eq_swap
    simp only [ResultKey.le, hswap]
    cases compare (key a) (key b) <;> rfl
  have hdistinct := h.perm (List.mergeSort_perm l fun a b => (key a).le (key b)).symm
    fun hne heq => hne (Std.OrientedCmp.eq_symm heq)
  refine (hsorted.and hdistinct).imp fun {a b} hboth => ?_
  exact (Ordering.isLE_iff_eq_lt_or_eq_eq.1 hboth.1).resolve_right hboth.2

/-- There is only one way to sort results strictly. -/
theorem SortedByKey.eq_of_perm (h : SortedByKey key l) (h' : SortedByKey key l')
    (hperm : l.Perm l') : l = l' := by
  refine hperm.eq_of_pairwise (fun a b _ _ hab hba => ?_) h h'
  rw [Std.OrientedCmp.gt_of_lt hba] at hab
  cases hab

end Sorted

namespace Summary

variable {results others : List Result}

/-- Results about different things are sorted strictly in their summary. -/
theorem sorted_ofResults
    (h : results.Pairwise fun a b => compare (Result.key a) (Result.key b) ≠ .eq) :
    SortedByKey Compiled.key (ofResults results).compiled ∧
      SortedByKey PlanFailure.key (ofResults results).failures := by
  constructor
  · refine sortedByKey_mergeSort (h.filterMap _ fun a b hne c hc c' hc' => ?_)
    cases a <;> cases b <;> cases hc <;> cases hc'
    exact hne
  · refine sortedByKey_mergeSort (h.filterMap _ fun a b hne f hf f' hf' => ?_)
    cases a <;> cases b <;> cases hf <;> cases hf'
    exact hne

/-- Their summary is the same in whatever order they come in. -/
theorem ofResults_congr
    (h : results.Pairwise fun a b => compare (Result.key a) (Result.key b) ≠ .eq)
    (hperm : results.Perm others) : ofResults results = ofResults others := by
  have h' := h.perm hperm fun hne heq => hne (Std.OrientedCmp.eq_symm heq)
  have hcompiled : ((results.filterMap compiled?).mergeSort fun a b => a.key.le b.key).Perm
      ((others.filterMap compiled?).mergeSort fun a b => a.key.le b.key) :=
    (List.mergeSort_perm _ _).trans ((hperm.filterMap _).trans (List.mergeSort_perm _ _).symm)
  have hfailures : ((results.filterMap failure?).mergeSort fun a b => a.key.le b.key).Perm
      ((others.filterMap failure?).mergeSort fun a b => a.key.le b.key) :=
    (List.mergeSort_perm _ _).trans ((hperm.filterMap _).trans (List.mergeSort_perm _ _).symm)
  exact Summary.mk.injEq .. |>.mpr
    ⟨(sorted_ofResults h).1.eq_of_perm (sorted_ofResults h').1 hcompiled,
      (sorted_ofResults h).2.eq_of_perm (sorted_ofResults h').2 hfailures⟩

end Summary

/-- What a summary accounts for. -/
structure Conserved (c : Config) (r : Prepared) (s : Summary) : Prop where
  /-- the results are about the plans that were found, each in the biomes it is made for -/
  keys : (s.compiled.map Compiled.key ++ s.failures.map PlanFailure.key).Perm
    (r.found.flatMap (Found.keys c r.selected))
  /-- no two of them are about the same -/
  distinct : (s.compiled.map Compiled.key ++ s.failures.map PlanFailure.key).Pairwise
    fun a b => compare a b ≠ .eq
  /-- what was compiled is in the order of plans and biomes -/
  compiled_sorted : SortedByKey Compiled.key s.compiled
  /-- and so is what failed -/
  failures_sorted : SortedByKey PlanFailure.key s.failures
  /-- in whatever order these results come in, the summary is the same -/
  order : ∀ results : List Result,
    results.Perm (s.compiled.map .ok ++ s.failures.map .error) → Summary.ofResults results = s

/-- The results of a run, with those of the plans that were not read, are about all plans. -/
theorem perm_results {c : Config} {r : Prepared} {limit : Nat} {t' : FileTree}
    {collected : List (List Result)}
    (hsteps : Pool.Steps limit (.ofTasks r.tree (r.tasks c)) (.finished t' collected)) :
    ((r.unread c ++ collected.flatten).map Result.key).Perm
      (r.found.flatMap (Found.keys c r.selected)) := by
  rw [List.map_append]
  exact ((perm_collected hsteps).append_left _).trans (perm_keys r c)

/-- No two of them are about the same. -/
theorem distinct_results {c : Config} {t t' : FileTree} {r : Prepared} (ht : t.Sound)
    (h : Ready c t r) {limit : Nat} {collected : List (List Result)}
    (hsteps : Pool.Steps limit (.ofTasks r.tree (r.tasks c)) (.finished t' collected)) :
    (r.unread c ++ collected.flatten).Pairwise
      fun a b => compare (Result.key a) (Result.key b) ≠ .eq :=
  List.pairwise_map.1 ((pairwise_keys ht h).perm (perm_results hsteps).symm
    fun hne heq => hne (Std.OrientedCmp.eq_symm heq))

/-- In whatever way the jobs of a run end, their results are accounted for. -/
theorem Ready.conserves {c : Config} {t t' : FileTree} {r : Prepared} {s : Summary} (ht : t.Sound)
    (h : Ready c t r) (hend : r.MayEnd c s t') : Conserved c r s := by
  obtain ⟨collected, hsteps, rfl⟩ := hend
  have hdistinct := distinct_results ht h hsteps
  have hkeys := perm_results hsteps
  generalize r.unread c ++ collected.flatten = results at hdistinct hkeys
  have hsummary := (Summary.perm_ofResults results).map Result.key
  rw [Summary.keys_eq] at hsummary
  refine ⟨hsummary.trans hkeys, ?_, (Summary.sorted_ofResults hdistinct).1,
    (Summary.sorted_ofResults hdistinct).2, fun others hothers => ?_⟩
  · exact (pairwise_keys ht h).perm (hsummary.trans hkeys).symm
      fun hne heq => hne (Std.OrientedCmp.eq_symm heq)
  · exact (Summary.ofResults_congr hdistinct
      (hothers.trans (Summary.perm_ofResults results)).symm).symm

/-- **Nothing is lost.** A run that ends with a summary has got to its jobs, and then it has the
biomes asked for and all plans among the files, each of them read as it is. However its jobs take
turns and in whatever order they end, the summary has exactly one result for each of these plans
and each biome it is made for, and it depends on the results only, not on the order in which they
came in. -/
theorem conserved (c : Config) {t : FileTree} (ht : t.Sound) :
    (∀ s t', (run (m := StateM FileTree) silent c).run t = (.ok s, t') →
      ∃ r, prepare c t = .ok r ∧ r.MayEnd c s t') ∧
    ∀ r, prepare c t = .ok r →
      Ready c t r ∧ ∀ s t', r.MayEnd c s t' → Conserved c r s := by
  refine ⟨fun s t' hrun => mayEnd_of_run hrun, fun r hprepare => ?_⟩
  have h := ready_of_prepare hprepare
  exact ⟨h, fun s t' hend => h.conserves ht hend⟩

/-- What a run needs to get to its first job, in the form in which it can be computed. -/
theorem exists_prepare {c : Config} {t ready : FileTree} {selected : List String}
    {files : List (List String)} (hselected : c.selectedBiomes = .ok selected)
    (hplans : t.find? c.plans = some .directory) (hfiles : t.filesBelow c.plans = .ok files)
    (hsome : ∃ names ∈ files, (Path.ofNames names).extension? = some planExtension)
    (hcontext : ((loadContext (m := StateM FileTree) silent c).run t).1.toOption.isSome)
    (hout : t.createDirAll c.out = .ok ready) :
    ∃ context, prepare c t = .ok ⟨selected, context, (plansAmong files).map fun relative =>
      ⟨relative, (Plan.load (m := StateM FileTree) (c.plans.join relative) ready).1⟩, ready⟩ := by
  obtain ⟨names, hnames, hplan⟩ := hsome
  obtain ⟨context, hloaded⟩ := Option.isSome_iff_exists.1 hcontext
  exact ⟨context, prepare_of hselected hplans hfiles
    (List.ne_nil_of_mem (mem_plansAmong.2 ⟨⟨names, hnames, rfl⟩, hplan⟩))
    (Outcome.toOption_eq_some.1 hloaded) hout⟩

/-- What all plans share, where it can be loaded. -/
theorem context_eq_ok {c : Config} {t : FileTree}
    (h : ((loadContext (m := StateM FileTree) silent c).run t).1.toOption.isSome) :
    ((loadContext (m := StateM FileTree) silent c).run t).1 =
      .ok (((loadContext (m := StateM FileTree) silent c).run t).1.toOption.getD default) := by
  obtain ⟨context, hloaded⟩ := Option.isSome_iff_exists.1 h
  rw [hloaded]
  exact Outcome.toOption_eq_some.1 hloaded

/-- A plan of one empty cell. -/
def cellText : String := "[null, null, [1, 1, 1], []]"

/-- Such a plan with palettes. -/
def palettesText : String :=
  "[null, null, [1, 1, 1], [], [], [], \"unrestricted\", \x7b\"plains\": \x7b\x7d, " ++
    "\"desert\": \x7b\x7d, \"savanna\": \x7b\x7d, \"snowy\": \x7b\x7d, \"taiga\": \x7b\x7d\x7d]"

/-- What the plan of one empty cell is read as. -/
def cell : Plan := ⟨none, ⟨1, 1, 1⟩, [], [], [], .unrestricted, .empty, []⟩

/-- What the plan with palettes is read as. -/
def wall : Plan := { cell with palettes := .ofList (Biome.supported.map fun b => (b, .empty)) }

/-- The text of the cell is read as the cell. -/
theorem parse_cellText : Plan.parse cellText = .ok cell := by decide +kernel

/-- And that of the wall as the wall. -/
theorem parse_palettesText : Plan.parse palettesText = .ok wall := by
  simp only [Plan.parse, PlanDocument.accept, PlanDocument.acceptPalettes,
    PlanDocument.biomeNames_eq]
  decide +kernel

/-- Three plans: one of nothing, one that is torn, and one with palettes. -/
def hamlet : FileTree where
  entries := .ofList
    [(["allowlist.json"], .file "\x7b\x7d".toUTF8.toList),
      (["plans"], .directory),
      (["plans", "field.json"], .file cellText.toUTF8.toList),
      (["plans", "torn.json"], .file "[".toUTF8.toList),
      (["plans", "wall.json"], .file palettesText.toUTF8.toList),
      (["templates"], .directory)]

/-- Their structures are to be made for all biomes, two plans at a time. -/
def hamletConfig : Config where
  plans := ⟨"plans"⟩
  templates := ⟨"templates"⟩
  allowlist := ⟨"allowlist.json"⟩
  out := ⟨"out"⟩
  options := ⟨.deg0, .off, false⟩
  biomes := []
  jobs := 2

/-- All biomes are selected. -/
theorem selectedBiomes_hamletConfig : hamletConfig.selectedBiomes = .ok Biome.supported := by
  decide +kernel

/-- Everything in the hamlet lies in directories. -/
theorem hamlet_sound : hamlet.Sound := FileTree.sound_of_entries (by decide +kernel)

/-- There are three files for plans in the hamlet. -/
theorem filesBelow_hamlet : hamlet.filesBelow hamletConfig.plans =
    .ok [["field.json"], ["torn.json"], ["wall.json"]] := by decide +kernel

/-- The directory for the output is made beside them. -/
theorem createDirAll_hamlet :
    hamlet.createDirAll hamletConfig.out = .ok (hamlet.put ["out"] .directory) := by decide +kernel

/-- Each of the three files is one of a plan. -/
theorem plansAmong_hamlet : plansAmong [["field.json"], ["torn.json"], ["wall.json"]] =
    [⟨"field.json"⟩, ⟨"torn.json"⟩, ⟨"wall.json"⟩] := by
  have hplans : ([["field.json"], ["torn.json"], ["wall.json"]].map Path.ofNames).filter
      (fun p => p.extension? == some planExtension) =
        [⟨"field.json"⟩, ⟨"torn.json"⟩, ⟨"wall.json"⟩] := by decide +kernel
  rw [plansAmong, hplans]
  exact List.mergeSort_of_pairwise (by decide +kernel)

/-- What is ready for the plans of the hamlet. -/
def hamletReady : Prepared where
  selected := Biome.supported
  context := ((loadContext (m := StateM FileTree) silent hamletConfig).run hamlet).1.toOption.getD
    default
  found := [⟨⟨"field.json"⟩, .ok cell⟩, ⟨⟨"torn.json"⟩, .error .malformed⟩,
    ⟨⟨"wall.json"⟩, .ok wall⟩]
  tree := hamlet.put ["out"] .directory

/-- A run in the hamlet finds two plans that can be read, and one that cannot. -/
theorem prepare_hamlet : prepare hamletConfig hamlet = .ok hamletReady := by
  have htorn : Plan.parse "[" = .error .malformed := by rfl
  have hload (relative : Path) (text : String) (h : (Disk.readText (m := StateM FileTree)
      (hamletConfig.plans.join relative) (hamlet.put ["out"] .directory)).1 = .ok text) :
      (Plan.load (m := StateM FileTree) (hamletConfig.plans.join relative)
        (hamlet.put ["out"] .directory)).1 = Plan.parse text := Plan.load_eq h
  rw [prepare_of selectedBiomes_hamletConfig (by decide +kernel) filesBelow_hamlet
      (by simp [plansAmong_hamlet]) (context_eq_ok (by decide +kernel)) createDirAll_hamlet,
    plansAmong_hamlet, List.map_cons, List.map_cons, List.map_singleton,
    hload _ cellText (by decide +kernel), hload _ "[" (by decide +kernel),
    hload _ palettesText (by decide +kernel), parse_cellText, htorn, parse_palettesText]
  rfl

/-- However the hamlet is built, the summary accounts for its three plans: one result for the field,
one for the plan that is torn, and one for the wall in each of five biomes. -/
theorem conserved_hamlet : hamlet.Sound ∧ ∃ s t,
    (run (m := StateM FileTree) silent hamletConfig).run hamlet = (.ok s, t) ∧
    prepare hamletConfig hamlet = .ok hamletReady ∧ hamletReady.MayEnd hamletConfig s t ∧
    Ready hamletConfig hamlet hamletReady ∧ Conserved hamletConfig hamletReady s ∧
    hamletReady.found.map Found.relative = [⟨"field.json"⟩, ⟨"torn.json"⟩, ⟨"wall.json"⟩] ∧
    (s.compiled.map Compiled.key ++ s.failures.map PlanFailure.key).Perm
      (⟨⟨"plans/field.json"⟩, none⟩ :: ⟨⟨"plans/torn.json"⟩, none⟩ ::
        ["plains", "desert", "savanna", "snowy", "taiga"].map fun b =>
          ⟨⟨"plans/wall.json"⟩, some b⟩) := by
  obtain ⟨s, t, hrun⟩ := exists_run_of_prepare prepare_hamlet
  obtain ⟨hends, hall⟩ := conserved hamletConfig hamlet_sound
  obtain ⟨r, hr, hend⟩ := hends s t hrun
  obtain rfl : hamletReady = r := Except.ok.inj (prepare_hamlet.symm.trans hr)
  obtain ⟨hready, hconserved⟩ := hall hamletReady hr
  have h := hconserved s t hend
  exact ⟨hamlet_sound, s, t, hrun, hr, hend, hready, h, rfl, h.keys⟩

end Batch

end Blueprint
