import Blueprint.Batch.Pool
import Blueprint.Proofs.Batch.Pool
import Blueprint.Proofs.Disk
import Blueprint.Proofs.Outcome

/-!
# Before the first job

Up to the first job a run only reads files, apart from making the directory for the structures
(`Batch.Ready`). Doing the jobs one after another is one of the ways in which it may end
(`Batch.mayEnd_of_run`).
-/

namespace Blueprint

open FileTree

/-- To load a plan changes nothing. -/
theorem Plan.reads_load (p : Path) : Reads (Plan.load p) := by
  refine (reads_readText p).bind fun text => ?_
  cases text with
  | error e => exact reads_pure _
  | ok text => exact reads_pure _

/-- A plan that can be read as a text is loaded as the text is parsed. -/
theorem Plan.load_eq {p : Path} {t : FileTree} {text : String}
    (h : (Disk.readText (m := StateM FileTree) p t).1 = .ok text) :
    (Plan.load (m := StateM FileTree) p t).1 = Plan.parse text := by
  rw [load, bind_apply, h]
  rfl

/-- To load an allowlist changes nothing. -/
theorem Allowlist.reads_load (p : Path) : Reads (Allowlist.load p).run := by
  refine (reads_readText p).bind fun text => ?_
  cases text with
  | error e => exact reads_pure _
  | ok text => exact reads_pure _

namespace TemplateLibrary

/-- To say where something failed changes nothing. -/
theorem reads_atPath {α : Type} {p : Path} {action : StateM FileTree (Except FileError α)}
    (h : Reads action) : Reads (atPath p action).run := by
  refine h.bind fun outcome => ?_
  cases outcome with
  | error e => exact reads_pure _
  | ok a => exact reads_pure _

/-- To list the files of a directory changes nothing. -/
theorem reads_filesIn (directory : Path) : Reads (filesIn directory).run :=
  (reads_atPath fun _ => rfl).bindOk fun _ => Reads.filterM (fun _ => Reads.lift fun _ => rfl) _

/-- To load a template file changes nothing. -/
theorem reads_loadFile (kind : TemplateKind) (l : TemplateLibrary) (p : Path) :
    Reads (loadFile Batch.silent kind l p).run := by
  dsimp only [loadFile]
  split
  · exact reads_pure _
  · refine (reads_atPath fun _ => rfl).bindOk fun bytes => ?_
    cases Template.payload bytes with
    | error e => exact reads_pure _
    | ok payload => exact reads_pure _

/-- To load all templates of a kind changes nothing. -/
theorem reads_loadKind (root : Path) (l : TemplateLibrary) (kind : TemplateKind) :
    Reads (loadKind Batch.silent root l kind).run := by
  refine Reads.bindOk (Reads.lift fun _ => rfl) fun exists_ => ?_
  cases exists_ with
  | false => exact reads_pure _
  | true => exact (reads_filesIn _).bindOk fun files => Reads.foldlM (reads_loadFile kind) files l

/-- So it is for templates of both kinds. -/
theorem reads_load (root : Path) : Reads (load Batch.silent root).run :=
  (reads_atPath fun _ => rfl).bindOk fun _ => Reads.foldlM (reads_loadKind root) _ _

end TemplateLibrary

namespace Batch

/-- To look for plans changes nothing. -/
theorem reads_discover (root : Path) : Reads (discover root).run := by
  refine Reads.bind (fun _ => rfl) fun isDir => ?_
  cases isDir with
  | false => exact reads_pure _
  | true =>
    refine Reads.bind (fun _ => rfl) fun files => ?_
    cases files with
    | error e => exact reads_pure _
    | ok files => exact reads_pure _

/-- To load what all plans share changes nothing. -/
theorem reads_loadContext (c : Config) : Reads (loadContext silent c).run :=
  (Allowlist.reads_load _).bindOk fun _ => Reads.bindOk (reads_pure _) fun _ =>
    (TemplateLibrary.reads_load _).bindOk fun _ => reads_pure _

/-- To read plans changes nothing. -/
theorem reads_readPlans (c : Config) (plans : List Path) : Reads (readPlans c plans) :=
  Reads.mapM (fun _ => (Plan.reads_load _).bind fun _ => reads_pure _) plans

/-! ## Step by step -/

/-- Plans are looked for in a directory that is there, and there must be one. -/
theorem outcome_discover (root : Path) (t : FileTree) :
    outcome (discover root) t =
      if t.find? root = some .directory then
        match t.filesBelow root with
        | .error e => .error (.unreadable root e)
        | .ok files =>
          if plansAmong files = [] then .error (.noPlans root) else .ok (plansAmong files)
      else .error (.noPlanDir root) := by
  rw [outcome, discover, ExceptT.run_mk, bind_apply, isDir_apply]
  dsimp only
  by_cases hdir : t.find? root = some .directory
  · rw [if_pos hdir, if_pos (by simpa using hdir), bind_apply, filesBelow_apply]
    rcases t.filesBelow root with e | files
    · rfl
    · simp only [pure_apply, List.isEmpty_iff]
  · rw [if_neg hdir, if_neg (by simpa using hdir)]
    rfl

/-- An outcome has its failure adapted, and is otherwise the same. -/
theorem outcome_adapt {α ε ε' : Type} (x : ExceptT ε (StateM FileTree) α) (f : ε → ε')
    (t : FileTree) : outcome (x.adapt f) t = (outcome x t).mapError f := rfl

/-- Plans are found if their directory is there and holds some. -/
theorem discover_eq_ok {root : Path} {t : FileTree} {plans : List Path} :
    outcome (discover root) t = .ok plans ↔ ∃ files, t.find? root = some .directory ∧
      t.filesBelow root = .ok files ∧ plansAmong files ≠ [] ∧ plansAmong files = plans := by
  rw [outcome_discover]
  split
  next hdir =>
    rcases t.filesBelow root with e | files
    · simp
    · by_cases hnone : plansAmong files = [] <;> simp [hdir, hnone]
  next hdir => simp [hdir]

/-- What a run reads before it does anything. -/
def Config.inputs (c : Config) (t : FileTree) :
    Except RunError (List String × List Path × CompileContext) := do
  let selected ← c.selectedBiomes.mapError .config
  let plans ← (outcome (discover c.plans) t).mapError .config
  let context ← outcome (loadContext silent c) t
  return (selected, plans, context)

/-- Then it makes the directory for the structures. -/
theorem run_start (c : Config) (t : FileTree) :
    (start (m := StateM FileTree) silent c).run t =
      match c.inputs t with
      | .error e => (.error e, t)
      | .ok inputs =>
        match t.createDirAll c.out with
        | .error e => (.error (.output c.out e), t)
        | .ok ready => (.ok inputs, ready) := by
  have hadapt : Reads ((discover (m := StateM FileTree) c.plans).adapt RunError.config).run :=
    (reads_discover c.plans).bind fun _ => reads_pure _
  have hselected : outcome (ExceptT.mk (pure (c.selectedBiomes.mapError RunError.config))) t =
      c.selectedBiomes.mapError .config := rfl
  -- each stage reads without a write, so it is its outcome at the tree as it was
  rw [start, run_bind_of_reads (x := ExceptT.mk _) (reads_pure _), hselected, Config.inputs]
  rcases c.selectedBiomes.mapError RunError.config with e | selected
  · rfl
  dsimp only
  rw [run_bind_of_reads hadapt, outcome_adapt]
  rcases (outcome (discover c.plans) t).mapError RunError.config with e | plans
  · rfl
  dsimp only
  rw [run_bind_of_reads (reads_loadContext c)]
  rcases outcome (loadContext silent c) t with e | context
  · rfl
  dsimp only
  -- the directory for the output is the first thing that is written
  rw [ExceptT.run_mk, bind_apply, createDirAll_apply, update_apply]
  rcases t.createDirAll c.out with e | ready <;> rfl

/-- Each plan is read by itself. -/
theorem readPlans_eq (c : Config) (plans : List Path) (t : FileTree) :
    readPlans (m := StateM FileTree) c plans t =
      (plans.map fun relative => ⟨relative, (Plan.load (m := StateM FileTree)
        (c.plans.join relative) t).1⟩, t) := by
  induction plans with
  | nil => rfl
  | cons relative plans ih =>
    have hload := Plan.reads_load (c.plans.join relative) t
    simp only [readPlans, List.mapM_cons, bind_apply, pure_apply, hload] at ih ⊢
    rw [ih]
    rfl

/-! ## What is ready -/

/-- What a run has read, and what it has done, before its first job. -/
structure Ready (c : Config) (t : FileTree) (r : Prepared) : Prop where
  /-- the biomes are those asked for -/
  selected : c.selectedBiomes = .ok r.selected
  /-- the plans are those among the files below their directory -/
  found : ∃ files, t.filesBelow c.plans = .ok files ∧
    r.found.map Found.relative = plansAmong files
  /-- nothing was done but to make the directory for the structures -/
  tree : t.createDirAll c.out = .ok r.tree
  /-- the plans were read as they are -/
  read : ∀ f ∈ r.found,
    f.read = (Plan.load (m := StateM FileTree) (c.plans.join f.relative) r.tree).1

/-- What a run has read when it gets to its first job. -/
theorem inputs_of_prepare {c : Config} {t : FileTree} {r : Prepared} (h : prepare c t = .ok r) :
    ∃ plans, c.inputs t = .ok (r.selected, plans, r.context) ∧
      t.createDirAll c.out = .ok r.tree ∧ r.found = plans.map fun relative =>
        ⟨relative, (Plan.load (m := StateM FileTree) (c.plans.join relative) r.tree).1⟩ := by
  simp only [prepare, StateT.run, run_start, readPlans_eq] at h
  rcases hinputs : c.inputs t with e | ⟨selected, plans, context⟩
  · rw [hinputs] at h
    cases h
  rcases hout : t.createDirAll c.out with e | ready
  · rw [hinputs, hout] at h
    cases h
  rw [hinputs, hout] at h
  obtain rfl := Except.ok.inj h
  exact ⟨plans, rfl, rfl, rfl⟩

/-- What a run starts with is what the tree says. -/
theorem ready_of_prepare {c : Config} {t : FileTree} {r : Prepared} (h : prepare c t = .ok r) :
    Ready c t r := by
  obtain ⟨plans, hinputs, hout, hfound⟩ := inputs_of_prepare h
  obtain ⟨_, hselected, hinputs⟩ := Outcome.bind_eq_ok.1 hinputs
  obtain ⟨_, hplans, hinputs⟩ := Outcome.bind_eq_ok.1 hinputs
  obtain ⟨_, -, hinputs⟩ := Outcome.bind_eq_ok.1 hinputs
  cases hinputs
  obtain ⟨files, -, hfiles, -, rfl⟩ := discover_eq_ok.1 (Outcome.mapError_eq_ok.1 hplans)
  refine ⟨Outcome.mapError_eq_ok.1 hselected, ⟨files, hfiles, ?_⟩, hout, ?_⟩
  · simp [hfound, Function.comp_def]
  · simp [hfound]

/-- What a run needs to get to its first job. -/
theorem prepare_of {c : Config} {t ready : FileTree} {selected : List String}
    {files : List (List String)} {context : CompileContext}
    (hselected : c.selectedBiomes = .ok selected) (hplans : t.find? c.plans = some .directory)
    (hfiles : t.filesBelow c.plans = .ok files) (hsome : plansAmong files ≠ [])
    (hcontext : ((loadContext (m := StateM FileTree) silent c).run t).1 = .ok context)
    (hout : t.createDirAll c.out = .ok ready) :
    prepare c t = .ok ⟨selected, context, (plansAmong files).map fun relative =>
      ⟨relative, (Plan.load (m := StateM FileTree) (c.plans.join relative) ready).1⟩, ready⟩ := by
  have hdiscover := discover_eq_ok.2 ⟨files, hplans, hfiles, hsome, rfl⟩
  have hinputs : c.inputs t = .ok (selected, plansAmong files, context) := by
    rw [Config.inputs, hselected, hdiscover, outcome, hcontext]
    rfl
  simp only [prepare, StateT.run, run_start, hinputs, hout, readPlans_eq]

/-! ## The whole run -/

/-- A run that does not get to its first job fails as it does. -/
theorem run_of_start_error {c : Config} {t t' : FileTree} {e : RunError}
    (h : (start (m := StateM FileTree) silent c).run t = (.error e, t')) :
    (run (m := StateM FileTree) silent c).run t = (.error e, t') ∧ prepare c t = .error e := by
  constructor
  · rw [run, ExceptT.run_bind, bind_apply, h]
    rfl
  · simp only [prepare, StateT.run, h]

/-- A run that gets there ends with a summary. -/
theorem exists_run_of_start {c : Config} {t ready : FileTree}
    {inputs : List String × List Path × CompileContext}
    (h : (start (m := StateM FileTree) silent c).run t = (.ok inputs, ready)) :
    ∃ s t', (run (m := StateM FileTree) silent c).run t = (.ok s, t') := by
  rw [run, ExceptT.run_bind, bind_apply, h]
  exact ⟨_, _, rfl⟩

/-- With all ready for its jobs, a run ends with a summary. -/
theorem exists_run_of_prepare {c : Config} {t : FileTree} {r : Prepared}
    (h : prepare c t = .ok r) :
    ∃ s t', (run (m := StateM FileTree) silent c).run t = (.ok s, t') := by
  rcases hstart : (start (m := StateM FileTree) silent c).run t with ⟨e | inputs, ready⟩
  · rw [(run_of_start_error hstart).2] at h
    cases h
  · exact exists_run_of_start hstart

/-! ## One job after another -/

section

variable {m : Type → Type} [Monad m] [LawfulMonad m]

/-- Nothing is done for events that nobody hears. -/
theorem forM_silent {α : Type} (event : α → Event) (l : List α) :
    l.forM (fun a => silent (m := m) (event a)) = pure () := by
  induction l with
  | nil => rfl
  | cons a l ih =>
    change (silent (event a) >>= fun _ => l.forM fun a => silent (event a)) = pure ()
    rw [ih, silent, pure_bind]

/-- Nor is anything for results that nobody hears of. -/
theorem noteFailures_silent (results : List Result) :
    noteFailures (silent (m := m)) results = pure () := forM_silent _ _

end

/-- As a task the directory of a file is made as it is in one go. -/
theorem run_createParent (p : Path) :
    (Disk.createParent (m := Task FileTree) p).run = Disk.createParent p := by
  unfold Disk.createParent
  cases p.parent? with
  | none => rfl
  | some parent => rfl

/-- As a task a file is written in one move as it is in one go. -/
theorem run_writeAtomic (p : Path) (bytes : List UInt8) :
    (Disk.writeAtomic (m := Task FileTree) p bytes).run = Disk.writeAtomic p bytes := by
  unfold Disk.writeAtomic
  rw [Task.run_bind, run_createParent]
  refine bind_congr fun made => ?_
  cases made with
  | error e => rfl
  | ok made =>
    rw [Task.run_bind]
    refine bind_congr fun written => ?_
    cases written with
    | error e => rfl
    | ok written =>
      rw [Task.run_bind]
      refine bind_congr fun moved => ?_
      cases moved with
      | ok moved => rfl
      | error e => rfl

variable (context : CompileContext) (options : CompileOptions)

/-- A variant is made by its task as it is in one go. -/
theorem Variant.run_make (p : Plan) (v : Variant) :
    (Variant.make (m := Task FileTree) silent context options p v).run =
      Variant.make silent context options p v := by
  unfold Variant.make
  split
  · rfl
  · simp only [Variant.bytes, forM_silent fun e => e, pure_bind]
    split
    · rfl
    · rw [Task.run_bind, run_writeAtomic]
      refine bind_congr fun written => ?_
      cases written with
      | error e => rfl
      | ok written => rfl

/-- So are all variants of a job. -/
theorem Job.run_make (j : Job) (v : Variant) :
    (Job.make (m := Task FileTree) silent context options j v).run =
      Job.make silent context options j v := by
  unfold Job.make
  rw [Task.run_bind, Variant.run_make]
  refine bind_congr fun outcome => ?_
  cases outcome with
  | ok _ => rfl
  | error e => rfl

/-- A job has the same results as a task. -/
theorem Job.run_run (j : Job) :
    (Job.run (m := Task FileTree) silent context options j).run =
      Job.run silent context options j := by
  simp [Job.run, noteFailures_silent, Job.run_make]

/-- The tasks of a run one after another are its jobs one after another. -/
theorem mapM_run_tasks (r : Prepared) (c : Config) :
    (r.tasks c).mapM Task.run = (r.jobs c).mapM (Job.run silent r.context c.options) := by
  simp [Prepared.tasks, List.mapM_map, Function.comp_def, Job.run_run]

/-- A run that has started compiles its jobs one after another. -/
theorem compileAll_apply {c : Config} {plans : List Path} {r : Prepared}
    (hfound : readPlans (m := StateM FileTree) c plans r.tree = (r.found, r.tree)) :
    compileAll (m := StateM FileTree) silent c r.selected plans r.context r.tree =
      (.ofResults (r.unread c ++ ((r.tasks c).mapM Task.run r.tree).1.flatten),
        ((r.tasks c).mapM Task.run r.tree).2) := by
  rw [compileAll, bind_apply, hfound, mapM_run_tasks]
  simp only [noteFailures_silent, pure_bind, runJobs]
  rfl

/-- Steps that may fail succeed one after another. -/
theorem run_bind_eq_ok {α β ε : Type} {x : ExceptT ε (StateM FileTree) α}
    {f : α → ExceptT ε (StateM FileTree) β} {b : β} {t t' : FileTree} :
    (x >>= f).run t = (.ok b, t') ↔
      ∃ a between, x.run t = (.ok a, between) ∧ (f a).run between = (.ok b, t') := by
  rw [ExceptT.run_bind, bind_apply]
  rcases x.run t with ⟨e | a, between⟩
  · exact iff_of_false (fun h => by cases h) fun ⟨_, _, h, _⟩ => by cases h
  · exact ⟨fun h => ⟨a, between, rfl, h⟩, fun ⟨_, _, h, hrest⟩ => by cases h; exact hrest⟩

/-- A run that does its jobs one after another ends in one of the ways in which it may end. -/
theorem mayEnd_of_run {c : Config} {t t' : FileTree} {s : Summary}
    (h : (run (m := StateM FileTree) silent c).run.run t = (.ok s, t')) :
    ∃ r, prepare c t = .ok r ∧ r.MayEnd c s t' := by
  simp only [StateT.run] at h
  rw [run, run_bind_eq_ok] at h
  obtain ⟨⟨selected, plans, context⟩, ready, hstart, h⟩ := h
  have hread := reads_readPlans c plans ready
  rcases hfound : readPlans (m := StateM FileTree) c plans ready with ⟨found, tree⟩
  obtain rfl : tree = ready := by rwa [hfound] at hread
  let r : Prepared := ⟨selected, context, found, tree⟩
  refine ⟨r, ?_, ?_⟩
  · simp only [prepare, StateT.run, hstart, hfound, r]
  · have hall :
        compileAll (m := StateM FileTree) silent c selected plans context tree = (s, t') := by
      have hdone : (.ok (compileAll (m := StateM FileTree) silent c selected plans context tree).1,
          (compileAll (m := StateM FileTree) silent c selected plans context tree).2) =
            ((.ok s : Except RunError Summary), t') := h
      cases hdone
      rfl
    rw [compileAll_apply (r := r) hfound] at hall
    cases hall
    exact ⟨_, Pool.steps_run (Nat.le_max_right _ _) _ _, rfl⟩

end Batch

end Blueprint
