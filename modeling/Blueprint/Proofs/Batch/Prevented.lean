import Blueprint.Proofs.Batch.Conserved
import Blueprint.Proofs.Template

/-!
# What prevents a run

A run fails as a whole only for what all its plans share. `Prevents` lists what can be wrong with
it, each with the error that says so, and a run gets to its first job exactly if nothing of that
kind is there (`Batch.start_cases`). None of it depends on what is in the files of the plans, and
nothing has been done to any file when it is found, except that the directory for the
structures may have been what failed.
-/

namespace Blueprint.Batch

open FileTree

variable {c : Config} {t t' : FileTree} {e : RunError}

/-- What is wrong with the settings of a run, or with the files that all plans share. -/
inductive Prevents (c : Config) (t : FileTree) : RunError → Prop where
  /-- a biome that is asked for is not supported -/
  | biome {given : String} (asked : given ∈ c.biomes) (unknown : given ∉ Biome.supported) :
    Prevents c t (.config (.biome given))
  /-- the directory of the plans is missing -/
  | noPlanDir (missing : t.find? c.plans ≠ some .directory) :
    Prevents c t (.config (.noPlanDir c.plans))
  /-- the directory of the plans is there, but cannot be searched -/
  | unreadable {e : FileError} (there : t.find? c.plans = some .directory)
      (failed : t.filesBelow c.plans = .error e) :
    Prevents c t (.config (.unreadable c.plans e))
  /-- none of the files below it is a plan -/
  | noPlans {files : List (List String)} (listed : t.filesBelow c.plans = .ok files)
      (none : ∀ names ∈ files, (Path.ofNames names).extension? ≠ some planExtension) :
    Prevents c t (.config (.noPlans c.plans))
  /-- the allowlist cannot be read -/
  | allowlistFile {e : FileError}
      (failed : (Disk.readText (m := StateM FileTree) c.allowlist t).1 = .error e) :
    Prevents c t (.allowlist c.allowlist (.file e))
  /-- the allowlist is none -/
  | allowlist {text : String} {e : Allowlist.ReadError}
      (read : (Disk.readText (m := StateM FileTree) c.allowlist t).1 = .ok text)
      (malformed : Allowlist.ofText text = .error e) :
    Prevents c t (.allowlist c.allowlist (.content e))
  /-- something is wrong with the templates -/
  | template {e : RunError} (fault : TemplateFault t c.templates e) : Prevents c t e
  /-- the directory for the structures cannot be made -/
  | output {e : FileError} (failed : t.createDirAll c.out = .error e) :
    Prevents c t (.output c.out e)

/-! ## The steps before the first job -/

/-- Biomes are selected unless one of them is not supported. -/
theorem selectedBiomes_cases (c : Config) :
    (∃ given ∈ c.biomes, given ∉ Biome.supported ∧ c.selectedBiomes = .error (.biome given)) ∨
      (∀ given ∈ c.biomes, given ∈ Biome.supported) ∧
        ∃ selected, c.selectedBiomes = .ok selected := by
  rw [Config.selectedBiomes, Biome.select]
  cases hfind : c.biomes.find? fun b => !Biome.supported.contains b with
  | some given =>
    have hunknown : given ∉ Biome.supported := by simpa using List.find?_some hfind
    exact .inl ⟨given, List.mem_of_find?_eq_some hfind, hunknown, rfl⟩
  | none =>
    refine .inr ⟨?_, _, rfl⟩
    intro given hgiven
    simpa using List.find?_eq_none.1 hfind given hgiven

/-- There are no plans among files exactly if none of them has the extension. -/
theorem plansAmong_eq_nil {files : List (List String)} : plansAmong files = [] ↔
    ∀ names ∈ files, (Path.ofNames names).extension? ≠ some planExtension := by
  simp [List.eq_nil_iff_forall_not_mem, mem_plansAmong]

/-- Plans are found unless there is something wrong with their directory. -/
theorem discover_cases (c : Config) (t : FileTree) :
    (∃ e, Prevents c t (.config e) ∧ outcome (discover c.plans) t = .error e) ∨
      ∃ files, t.find? c.plans = some .directory ∧ t.filesBelow c.plans = .ok files ∧
        plansAmong files ≠ [] ∧ outcome (discover c.plans) t = .ok (plansAmong files) := by
  rw [outcome_discover]
  split
  next hdir =>
    split
    next e hfiles => exact .inl ⟨_, .unreadable hdir hfiles, rfl⟩
    next files hfiles =>
      split
      next hnone => exact .inl ⟨_, .noPlans hfiles (plansAmong_eq_nil.1 hnone), rfl⟩
      next hsome => exact .inr ⟨files, hdir, hfiles, hsome, rfl⟩
  next hdir => exact .inl ⟨_, .noPlanDir hdir, rfl⟩

/-- An allowlist is loaded if its file can be read and the text is one. -/
theorem outcome_allowlist (p : Path) (t : FileTree) :
    outcome (Allowlist.load p) t =
      match (Disk.readText (m := StateM FileTree) p t).1 with
      | .error e => .error (.allowlist p (.file e))
      | .ok text => (Allowlist.ofText text).mapError fun e => .allowlist p (.content e) := by
  rw [outcome, Allowlist.load, ExceptT.run_mk, bind_apply]
  rcases (Disk.readText (m := StateM FileTree) p t).1 with e | text <;> rfl

/-- The allowlist is loaded before the templates. -/
theorem outcome_loadContext (c : Config) (t : FileTree) :
    outcome (loadContext silent c) t = do
      let allowlist ← outcome (Allowlist.load c.allowlist) t
      let templates ← outcome (TemplateLibrary.load silent c.templates) t
      return ⟨allowlist, templates⟩ := by
  rw [loadContext, outcome_bind (Allowlist.reads_load _)]
  refine bind_congr fun allowlist => ?_
  exact outcome_bind (TemplateLibrary.reads_load _)

/-- What all plans share is loaded unless something is wrong with it. -/
theorem loadContext_cases (c : Config) (t : FileTree) :
    (∃ e, Prevents c t e ∧ outcome (loadContext silent c) t = .error e) ∨
      ∃ text allowlist templates,
        (Disk.readText (m := StateM FileTree) c.allowlist t).1 = .ok text ∧
          Allowlist.ofText text = .ok allowlist ∧
          outcome (TemplateLibrary.load silent c.templates) t = .ok templates ∧
          outcome (loadContext silent c) t = .ok ⟨allowlist, templates⟩ := by
  rw [outcome_loadContext, outcome_allowlist]
  rcases hread : (Disk.readText (m := StateM FileTree) c.allowlist t).1 with e | text
  · exact .inl ⟨_, .allowlistFile hread, rfl⟩
  rcases hallowlist : Allowlist.ofText text with e | allowlist
  · refine .inl ⟨_, .allowlist hread hallowlist, ?_⟩
    simp only [hallowlist]
    rfl
  rcases htemplates : outcome (TemplateLibrary.load silent c.templates) t with e | templates
  · refine .inl ⟨_, .template (TemplateLibrary.fault_of_error htemplates), ?_⟩
    simp only [hallowlist]
    rfl
  · refine .inr ⟨text, allowlist, templates, rfl, hallowlist, rfl, ?_⟩
    simp only [hallowlist]
    rfl

/-- What a run reads is there unless something prevents the run. -/
theorem inputs_cases (c : Config) (t : FileTree) :
    (∃ e, Prevents c t e ∧ c.inputs t = .error e) ∨
      ∃ inputs, c.inputs t = .ok inputs ∧ ∀ e, Prevents c t e → ∃ failed,
        t.createDirAll c.out = .error failed ∧ e = .output c.out failed := by
  rw [Config.inputs]
  rcases selectedBiomes_cases c with ⟨given, hasked, hunknown, hselected⟩ |
    ⟨hbiomes, selected, hselected⟩
  · exact .inl ⟨_, .biome hasked hunknown, by rw [hselected]; rfl⟩
  rcases discover_cases c t with ⟨e, hprevents, hplans⟩ | ⟨files, hdir, hfiles, hsome, hplans⟩
  · exact .inl ⟨_, hprevents, by rw [hselected, hplans]; rfl⟩
  rcases loadContext_cases c t with ⟨e, hprevents, hcontext⟩ |
    ⟨text, allowlist, templates, hread, hallowlist, htemplates, hcontext⟩
  · exact .inl ⟨_, hprevents, by rw [hselected, hplans, hcontext]; rfl⟩
  -- all three stages read something, so every cause but the last is ruled out
  refine .inr ⟨_, by rw [hselected, hplans, hcontext]; rfl, fun e hprevents => ?_⟩
  cases hprevents with
  | biome asked unknown => exact absurd (hbiomes _ asked) unknown
  | noPlanDir missing => exact absurd hdir missing
  | unreadable there failed =>
    exact absurd failed (Outcome.ne_error_of_eq_ok hfiles)
  | noPlans listed none =>
    obtain rfl := Except.ok.inj (hfiles.symm.trans listed)
    exact absurd (plansAmong_eq_nil.2 none) hsome
  | allowlistFile failed =>
    exact absurd failed (Outcome.ne_error_of_eq_ok hread)
  | allowlist read malformed =>
    obtain rfl := Except.ok.inj (hread.symm.trans read)
    exact absurd malformed (Outcome.ne_error_of_eq_ok hallowlist)
  | template fault => exact absurd fault (TemplateLibrary.not_fault_of_ok htemplates e)
  | output failed => exact ⟨_, failed, rfl⟩

/-- **A run gets to its first job exactly if nothing prevents it.** If it does not, nothing has
been done to the files, unless what failed was to make the directory for the structures. -/
theorem start_cases (c : Config) (t : FileTree) :
    (∃ e t', (start (m := StateM FileTree) silent c).run t = (.error e, t') ∧ Prevents c t e ∧
      ((∀ failed, e ≠ .output c.out failed) → t' = t)) ∨
    (∀ e, ¬ Prevents c t e) ∧
      ∃ inputs ready, (start (m := StateM FileTree) silent c).run t = (.ok inputs, ready) := by
  rw [run_start]
  rcases inputs_cases c t with ⟨e, hprevents, hinputs⟩ | ⟨inputs, hinputs, honly⟩
  · rw [hinputs]
    exact .inl ⟨e, t, rfl, hprevents, fun _ => rfl⟩
  rw [hinputs]
  rcases hout : t.createDirAll c.out with failed | ready
  · exact .inl ⟨_, _, rfl, .output hout, fun hother => absurd rfl (hother failed)⟩
  · refine .inr ⟨?_, inputs, ready, rfl⟩
    intro e hprevents
    obtain ⟨failed, hfailed, -⟩ := honly e hprevents
    exact absurd hfailed (Outcome.ne_error_of_eq_ok hout)

/-- The templates of a run were read from template files. -/
theorem accepted_of_prepare {r : Prepared} (h : prepare c t = .ok r) :
    r.context.templates.Accepted := by
  obtain ⟨plans, hinputs, -⟩ := inputs_of_prepare h
  obtain ⟨_, -, hinputs⟩ := Outcome.bind_eq_ok.1 hinputs
  obtain ⟨_, -, hinputs⟩ := Outcome.bind_eq_ok.1 hinputs
  obtain ⟨context, hcontext, hinputs⟩ := Outcome.bind_eq_ok.1 hinputs
  cases hinputs
  rw [outcome_loadContext] at hcontext
  obtain ⟨allowlist, -, hcontext⟩ := Outcome.bind_eq_ok.1 hcontext
  obtain ⟨templates, htemplates, hcontext⟩ := Outcome.bind_eq_ok.1 hcontext
  obtain hcontext : _ = r.context := Except.ok.inj hcontext
  exact hcontext ▸ TemplateLibrary.accepted_of_load htemplates

end Blueprint.Batch
