import Blueprint.Proofs.Batch.Prepared

/-!
# The results of the jobs

The jobs of a run make their variants, each of them on the terms that are laid down for it. If the
terms of any two variants fit together, whether they belong to one job or to two, then every
variant ends as it promises, and its result is among those that are collected, in some order
(`Batch.results_of_steps`).
-/

namespace Blueprint.Batch

/-- The result of a variant of a job that ends in this way. -/
def Job.result (j : Job) (v : Variant) : Except PlanError Unit → Result
  | .ok () => .ok ⟨j.source, v.biome, v.output⟩
  | .error e => .error ⟨j.source, v.biome, e⟩

/-- The variants of the jobs of a run, each with its job. -/
def Prepared.work (r : Prepared) (c : Config) : List (Job × Variant) :=
  (r.jobs c).flatMap fun j => j.variants.map fun v => (j, v)

/-- The work of a run is to make the variants of its jobs. -/
theorem Prepared.mem_work {r : Prepared} {c : Config} {j : Job} {v : Variant} :
    (j, v) ∈ r.work c ↔ j ∈ r.jobs c ∧ v ∈ j.variants := by
  simp [work, List.mem_flatMap]

namespace Summary

variable {results : List Result}

/-- The compiled variants are the results that are no failures. -/
theorem mem_compiled {k : Compiled} : k ∈ (ofResults results).compiled ↔ .ok k ∈ results := by
  rw [ofResults, List.mem_mergeSort, List.mem_filterMap]
  refine ⟨fun ⟨result, hmem, hk⟩ => ?_, fun hmem => ⟨_, hmem, rfl⟩⟩
  cases result <;> cases hk
  exact hmem

/-- The failures are the other results. -/
theorem mem_failures {k : PlanFailure} : k ∈ (ofResults results).failures ↔ .error k ∈ results := by
  rw [ofResults, List.mem_mergeSort, List.mem_filterMap]
  refine ⟨fun ⟨result, hmem, hk⟩ => ?_, fun hmem => ⟨_, hmem, rfl⟩⟩
  cases result <;> cases hk
  exact hmem

end Summary

section

variable {context : CompileContext} {options : CompileOptions} {s : FileTree}

/-- To make a variant and report on it keeps what making it keeps. -/
theorem Job.keeps_make {terms : Terms FileTree} {j : Job} {v : Variant}
    {promised : Except PlanError Unit → FileTree → Prop}
    (h : (v.make (m := Task FileTree) silent context options j.plan).Keeps terms promised s) :
    (j.make (m := Task FileTree) silent context options v).Keeps terms
      (fun result s => ∃ outcome, promised outcome s ∧ result = j.result v outcome) s := by
  refine Task.keeps_bind h.stable fun outcome s hs => ?_
  cases outcome with
  | ok _ => exact Task.keeps_done.2 fun s' hs' => ⟨_, hs s' hs', rfl⟩
  | error e => exact Task.keeps_done.2 fun s' hs' => ⟨_, hs s' hs', rfl⟩

/-- A job does no more than its variants, and ends with their results. -/
theorem Job.keeps_run {j : Job} (terms : Variant → Terms FileTree)
    (promised : Variant → Except PlanError Unit → FileTree → Prop)
    (hfits : j.variants.Pairwise fun v w => (terms v).Fits (terms w))
    (h : ∀ v ∈ j.variants, (v.make (m := Task FileTree) silent context options j.plan).Keeps
      (terms v) (promised v) s) :
    (j.run (m := Task FileTree) silent context options).Keeps
      ⟨fun s s' => ∀ v ∈ j.variants, (terms v).rely s s',
        fun s s' => ∃ v ∈ j.variants, (terms v).guarantee s s'⟩
      (fun results s => List.Forall₂
        (fun v result => ∃ outcome, promised v outcome s ∧ result = j.result v outcome)
        j.variants results) s := by
  have hmade := Task.keeps_mapM terms
    (fun v result s => ∃ outcome, promised v outcome s ∧ result = j.result v outcome)
    (fun v hv s s' (hs : ∀ v ∈ j.variants, (terms v).rely s s') => hs v hv) hfits
    fun v hv => Job.keeps_make (h v hv)
  rw [Job.run]
  refine Task.keeps_bind hmade.stable fun results s hs => ?_
  rw [noteFailures_silent]
  exact Task.keeps_done.2 hs

end

/-- Related lists of lists are related entry by entry. -/
theorem forall₂_flatten {ι α β : Type} {entries : ι → List α} {r : ι → α → β → Prop} {l : List ι}
    {lists : List (List β)} (h : List.Forall₂ (fun i => List.Forall₂ (r i) (entries i)) l lists) :
    List.Forall₂ (fun x => r x.1 x.2) (l.flatMap fun i => (entries i).map fun a => (i, a))
      lists.flatten := by
  induction h with
  | nil => exact .nil
  | cons hfirst _ ih =>
    rw [List.flatMap_cons, List.flatten_cons]
    refine List.rel_append ?_ ih
    exact List.forall₂_map_left_iff.2 hfirst

/-- **The results of a run.** Every variant ends with what it promises, whatever turns the jobs
take, if no variant does what another does not expect. -/
theorem results_of_steps {r : Prepared} {c : Config} {limit : Nat} {t : FileTree}
    {collected : List (List Result)} (terms : Job → Variant → Terms FileTree)
    (promised : Job → Variant → Except PlanError Unit → FileTree → Prop)
    (hfits : (r.work c).Pairwise fun x y => (terms x.1 x.2).Fits (terms y.1 y.2))
    (h : ∀ x ∈ r.work c, (x.2.make (m := Task FileTree) silent r.context c.options x.1.plan).Keeps
      (terms x.1 x.2) (promised x.1 x.2) r.tree)
    (hsteps : Pool.Steps limit (.ofTasks r.tree (r.tasks c)) (.finished t collected)) :
    (∃ results, results.Perm collected.flatten ∧ List.Forall₂ (fun (x : Job × Variant) result =>
        ∃ outcome, promised x.1 x.2 outcome t ∧ result = x.1.result x.2 outcome)
      (r.work c) results) ∧
    Relation.ReflTransGen
      (fun s s' => ∃ x ∈ r.work c, (terms x.1 x.2).guarantee s s') r.tree t := by
  -- promises fit inside a job and between jobs, so a job keeps those of all its variants
  obtain ⟨hwithin, hacross⟩ := List.pairwise_flatMap.1 hfits
  simp only [List.pairwise_map, List.forall_mem_map] at hwithin hacross
  have hkeeps (j : Job) (hj : j ∈ r.jobs c) :=
    Job.keeps_run (terms j) (promised j) (hwithin j hj) fun v hv =>
      h (j, v) (Prepared.mem_work.2 ⟨hj, hv⟩)
  obtain ⟨⟨owners, howners, hresults⟩, hstate⟩ := Pool.promised_of_finished
    (fun j : Job => ⟨fun s s' => ∀ v ∈ j.variants, (terms j v).rely s s',
      fun s s' => ∃ v ∈ j.variants, (terms j v).guarantee s s'⟩)
    (fun j results s => List.Forall₂
      (fun v result => ∃ outcome, promised j v outcome s ∧ result = j.result v outcome)
      j.variants results)
    (hacross.imp fun {j k} hjk => ⟨fun s s' ⟨v, hv, hs⟩ w hw => (hjk v hv w hw).1 s s' hs,
      fun s s' ⟨w, hw, hs⟩ v hv => (hjk v hv w hw).2 s s' hs⟩)
    hkeeps hsteps
  refine ⟨?_, Relation.ReflTransGen.mono (fun s s' ⟨j, hj, v, hv, hs⟩ =>
    ⟨(j, v), Prepared.mem_work.2 ⟨hj, hv⟩, hs⟩) _ _ hstate⟩
  -- the jobs ended in another order, and each gives one result for each of its variants
  obtain ⟨results, hall, hperm⟩ := List.perm_comp_forall₂
    (howners.symm.flatMap_right fun j => j.variants.map fun v => (j, v)) (forall₂_flatten hresults)
  exact ⟨results, hperm, hall⟩

end Blueprint.Batch
