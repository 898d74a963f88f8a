import Blueprint.Proofs.Batch.Prevented
import Blueprint.Proofs.Batch.Processed
import Blueprint.Proofs.FileTree.Quoted
import Blueprint.Proofs.Path.OneLine
import Blueprint.Proofs.Structure.OneLine

/-!
# Reports line by line

A report has a line for every structure file and a line with the counts, and the report on failures
a line for every failure. No name of a file and no word of a message breaks a line, but messages
quote texts of the plans as they are. So the report on failures has as many lines too many as there
are line breaks in what its messages quote, and it has its lines if the files of the plans have no
line break in any text (`Batch.report_lineByLine`).
-/

namespace Blueprint

open Text Outcome FileTree

/-! ## Reading a plan -/

/-- To read a text fails with fixed words, whether the file or what is in it is wrong. -/
theorem FileTree.failsPlainly_readText (p : Path) (t : FileTree) :
    FailsPlainly (Disk.readText (m := StateM FileTree) p t).1 := by
  rw [Disk.readText, bind_apply, readFile_apply]
  cases hread : t.readFile p with
  | error e => exact .error (t.failsPlainly_readFile p e hread)
  | ok bytes =>
    dsimp only
    cases String.fromUTF8? ⟨bytes.toArray⟩ with
    | some text => exact .ok text
    | none => exact .error rfl

/-- No text in the JSON of a file has a line break. -/
def FileTree.WrittenInLines (t : FileTree) (p : Path) : Prop :=
  ∀ text, (Disk.readText (m := StateM FileTree) p t).1 = .ok text →
    (Json.layOut text).value.OneLine

/-- A plan written without line breaks is read without any, or refused without any. -/
theorem Plan.yields_load {t : FileTree} {p : Path} (hp : Text.OneLine p.text)
    (h : t.WrittenInLines p) :
    Yields Plan.OneLine (fun e => AllOneLine e.quoted)
      (Plan.load (m := StateM FileTree) p t).1 := by
  rw [load, bind_apply]
  cases hread : (Disk.readText (m := StateM FileTree) p t).1 with
  | error e =>
    have hquoted := failsPlainly_readText p t e hread
    refine .of_error ?_
    simp [PlanError.quoted, hquoted, hp]
  | ok text => exact Plan.yields_parse (h text hread)

/-! ## Writing a structure -/

/-- An operation on a file tree fails with the words it fails with at once. -/
theorem FileTree.returns_update {f : FileTree → Except FileError FileTree}
    (h : ∀ t, FailsPlainly (f t)) : (Task.step (update f)).Returns FailsPlainly := by
  refine Task.returns_step fun t => ?_
  cases hf : f t with
  | error e =>
    rw [update_of_error hf]
    exact .error (h t e hf)
  | ok t' =>
    rw [update_of_ok hf]
    exact .ok ()

/-- A structure that is not written fails with a message that quotes nothing. -/
theorem Disk.returns_writeAtomic (p : Path) (bytes : List UInt8) :
    (writeAtomic (m := Task FileTree) p bytes).Returns FailsPlainly := by
  have hparent : (createParent (m := Task FileTree) p).Returns FailsPlainly := by
    unfold createParent
    split
    next parent _ => exact returns_update fun t => t.failsPlainly_createDirAll parent
    next => exact Task.returns_done (.ok ())
  have hwrite : (writeFile (m := Task FileTree) (temporary p) bytes).Returns FailsPlainly :=
    returns_update fun t => t.failsPlainly_writeFile _ bytes
  have hrename : (rename (m := Task FileTree) (temporary p) p).Returns FailsPlainly :=
    returns_update fun t => t.failsPlainly_rename _ p
  -- why the temporary file stays is never reported
  have hremove : (removeFile (m := Task FileTree) (temporary p)).Returns fun _ => True :=
    Task.returns_step fun _ => trivial
  unfold writeAtomic
  refine hparent.bind fun made hmade => ?_
  cases made with
  | error e => exact Task.returns_done hmade
  | ok _ =>
    refine hwrite.bind fun written hwritten => ?_
    cases written with
    | error e => exact Task.returns_done hwritten
    | ok _ =>
      refine hrename.bind fun moved hmoved => ?_
      cases moved with
      | error e => exact hremove.bind fun _ _ => Task.returns_done hmoved
      | ok _ => exact Task.returns_done hmoved

namespace Batch

section

variable {context : CompileContext} {options : CompileOptions} {p : Plan} {v : Variant}

/-- To compile a plan without line breaks fails without any, if it fails. -/
theorem Variant.failsInLines_bytes (hcontext : context.templates.Accepted) (hp : p.OneLine)
    (hbiome : ∀ b ∈ v.biome, Text.OneLine b) (houtput : Text.OneLine v.output.text) :
    FailsInLines (v.bytes (p.compile v.biome context options)) := by
  refine (hp.compile hbiome context options).bind fun compiled hcompiled => .mapped fun e he => ?_
  obtain ⟨_, moved, -, -, hassembled⟩ := Plan.compile_eq_ok.1 hcompiled
  have hquoted := Structure.failsPlainly_encode
    (Plan.regular_payloads_of_assembled hcontext hassembled) e he
  simp [PlanError.quoted, hquoted, houtput]

/-- A variant of a plan without line breaks fails without line breaks. -/
theorem Variant.returns_make (hcontext : context.templates.Accepted) (hp : p.OneLine)
    (hbiome : ∀ b ∈ v.biome, Text.OneLine b) (houtput : Text.OneLine v.output.text)
    (hrivals : ∀ rival ∈ v.rivals, Text.OneLine rival.text) :
    (v.make (m := Task FileTree) silent context options p).Returns FailsInLines := by
  unfold Variant.make
  split
  next =>
    refine Task.returns_done (.error (allOneLine_cons.2 ⟨houtput, ?_⟩))
    exact List.forall_mem_map.2 hrivals
  next =>
    simp only [forM_silent fun e => e, pure_bind]
    split
    next e hbytes =>
      exact Task.returns_done (.error (failsInLines_bytes hcontext hp hbiome houtput e hbytes))
    next bytes _ =>
      refine (Disk.returns_writeAtomic v.output bytes).bind fun outcome houtcome => ?_
      cases outcome with
      | error e =>
        refine Task.returns_done (.error ?_)
        simp [PlanError.quoted, houtcome e rfl, houtput]
      | ok _ => exact Task.returns_done (.ok ())

end

/-! ## Names -/

variable {c : Config} {t t' : FileTree} {r : Prepared} {s : Summary}

/-- No line break stands in a name of a file below the directory of the plans or in the path of a
directory that reports mention. -/
structure NamesInLines (c : Config) (t : FileTree) : Prop where
  /-- the directory of the plans -/
  plans : Text.OneLine c.plans.text
  /-- the directory for the structures -/
  out : Text.OneLine c.out.text
  /-- the files below that of the plans -/
  files : ∀ files, t.filesBelow c.plans = .ok files → ∀ names ∈ files, AllOneLine names

/-- Where the names of the files have no line breaks, the paths of the plans have none. -/
theorem namesInLines_of_filesBelow {files : List (List String)} (hplans : Text.OneLine c.plans.text)
    (hout : Text.OneLine c.out.text) (hfiles : t.filesBelow c.plans = .ok files)
    (hnames : ∀ names ∈ files, AllOneLine names) : NamesInLines c t := by
  refine ⟨hplans, hout, fun files' hfiles' => ?_⟩
  rwa [← Except.ok.inj (hfiles.symm.trans hfiles')]

/-- Every plan that was found is a file below the directory of the plans. -/
theorem Ready.exists_listed (h : Ready c t r) {f : Found} (hf : f ∈ r.found) :
    ∃ files, t.filesBelow c.plans = .ok files ∧ ∃ names ∈ files, f.relative = .ofNames names := by
  obtain ⟨files, hfiles, hfound⟩ := h.found
  have hrelative : f.relative ∈ plansAmong files := hfound ▸ List.mem_map_of_mem hf
  obtain ⟨⟨names, hmem, hname⟩, -⟩ := mem_plansAmong.1 hrelative
  exact ⟨files, hfiles, names, hmem, hname.symm⟩

/-- The path from the directory of the plans has no line break. -/
theorem Ready.oneLine_relative (h : Ready c t r) (hnames : NamesInLines c t) {f : Found}
    (hf : f ∈ r.found) : Text.OneLine f.relative.text := by
  obtain ⟨files, hfiles, names, hmem, hname⟩ := h.exists_listed hf
  exact hname ▸ Path.oneLine_ofNames (hnames.files files hfiles names hmem)

/-- Nor has the whole path. -/
theorem Ready.oneLine_source (h : Ready c t r) (hnames : NamesInLines c t) {f : Found}
    (hf : f ∈ r.found) : Text.OneLine (f.source c).text :=
  Path.oneLine_join hnames.plans (h.oneLine_relative hnames hf)

/-- The biomes have none. -/
theorem Ready.oneLine_biome (h : Ready c t r) {f : Found} {p : Plan} {biome : Option String}
    (hhas : r.Has f p biome) : ∀ b ∈ biome, Text.OneLine b := by
  have hsupported : AllOneLine Biome.supported := by decide
  exact fun b hb => hsupported b (mem_supported_of_mem h hhas.biome b hb)

/-- And neither has the path of an output. -/
theorem Ready.oneLine_output (h : Ready c t r) (hnames : NamesInLines c t) {f : Found} {p : Plan}
    {biome : Option String} (hhas : r.Has f p biome) :
    Text.OneLine (outputPath c.out f.relative biome).text :=
  oneLine_outputPath hnames.out (h.oneLine_relative hnames hhas.found) (h.oneLine_biome hhas)

/-! ## Results -/

/-- A variant that a run makes fails without line breaks if its plan is written without any. -/
theorem Ready.returns_make (ht : t.Sound) (h : Ready c t r)
    (hcontext : r.context.templates.Accepted) (hnames : NamesInLines c t) {x : Job × Variant}
    (hx : x ∈ r.work c) :
    (x.2.make (m := Task FileTree) silent r.context c.options x.1.plan).Returns fun outcome =>
      r.tree.WrittenInLines x.1.source → FailsInLines outcome := by
  obtain ⟨f, p, biome, hhas, rfl⟩ := (mem_work ht h).1 hx
  -- nothing is promised of a plan with a line break in its file
  by_cases hwritten : r.tree.WrittenInLines (f.source c)
  · have hload := Plan.yields_load (h.oneLine_source hnames hhas.found) hwritten
    have hp := hload.ok p ((h.read f hhas.found).symm.trans hhas.read)
    refine (Variant.returns_make hcontext hp (h.oneLine_biome hhas) (h.oneLine_output hnames hhas)
      ?_).mono fun _ hfails _ => hfails
    intro rival hrival
    obtain ⟨g, hg, -, -, rfl⟩ := mem_others.1 hrival
    exact h.oneLine_source hnames hg
  · exact fun s => (Task.keeps_any _ s).mono (fun _ _ h => h) (fun _ _ h => h)
      fun _ _ _ hlines => absurd hlines hwritten

/-- Every result that comes in is that of a variant. -/
theorem Ready.exists_variant (ht : t.Sound) (h : Ready c t r)
    (hcontext : r.context.templates.Accepted) (hnames : NamesInLines c t) {limit : Nat}
    {collected : List (List Result)}
    (hsteps : Pool.Steps limit (.ofTasks r.tree (r.tasks c)) (.finished t' collected))
    {result : Result} (hresult : result ∈ collected.flatten) :
    ∃ f p biome outcome, r.Has f p biome ∧
      result = (r.job c f p).result (r.variant c f biome) outcome ∧
      (r.tree.WrittenInLines (f.source c) → FailsInLines outcome) := by
  -- the promise is about the outcome alone, so it does not matter what is done to the files
  obtain ⟨⟨results, hperm, hresults⟩, -⟩ := results_of_steps
    (fun _ _ => ⟨fun _ _ => True, fun _ _ => True⟩)
    (fun j _ outcome _ => r.tree.WrittenInLines j.source → FailsInLines outcome)
    (List.pairwise_of_forall fun _ _ => ⟨fun _ _ h => h, fun _ _ h => h⟩)
    (fun x hx => h.returns_make ht hcontext hnames hx r.tree) hsteps
  obtain ⟨x, hx, outcome, hfails, rfl⟩ :=
    Outcome.exists_mem_of_forall₂ hresults (hperm.symm.subset hresult)
  obtain ⟨f, p, biome, hhas, rfl⟩ := (mem_work ht h).1 hx
  exact ⟨f, p, biome, outcome, hhas, rfl, hfails⟩

/-- What reports show of a failure. -/
structure FailureInLines (c : Config) (r : Prepared) (k : PlanFailure) : Prop where
  /-- the plan is one that was found -/
  plan : ∃ f ∈ r.found, k.plan = f.source c
  /-- its path is one line -/
  name : Text.OneLine k.plan.text
  /-- the biome is one line -/
  biome : ∀ b ∈ k.biome, Text.OneLine b
  /-- what is quoted has no line breaks if none is written in the plan -/
  quoted : r.tree.WrittenInLines k.plan → AllOneLine k.error.quoted

/-- A failure is reported in lines if its plan is written in lines. -/
theorem Ready.failureInLines (ht : t.Sound) (h : Ready c t r)
    (hcontext : r.context.templates.Accepted) (hnames : NamesInLines c t)
    (hend : r.MayEnd c s t') {k : PlanFailure} (hk : k ∈ s.failures) : FailureInLines c r k := by
  obtain ⟨collected, hsteps, rfl⟩ := hend
  -- the plan was not read, or one of its variants failed
  rcases List.mem_append.1 (Summary.mem_failures.1 hk) with hunread | hmade
  · obtain ⟨_, hfailure, hsame⟩ := List.mem_map.1 hunread
    obtain ⟨f, hf, hfailure⟩ := List.mem_filterMap.1 hfailure
    unfold Found.failure? at hfailure
    split at hfailure
    next => cases hfailure
    next e hread =>
      cases hfailure
      cases hsame
      have hname := h.oneLine_source hnames hf
      refine ⟨⟨f, hf, rfl⟩, hname, nofun, fun hwritten => ?_⟩
      exact (Plan.yields_load hname hwritten).error e ((h.read f hf).symm.trans hread)
  · obtain ⟨f, p, biome, outcome, hhas, hsame, hfails⟩ :=
      h.exists_variant ht hcontext hnames hsteps hmade
    cases outcome with
    | ok _ => cases hsame
    | error e =>
      cases hsame
      exact ⟨⟨f, hhas.found, rfl⟩, h.oneLine_source hnames hhas.found, h.oneLine_biome hhas,
        fun hwritten => hfails hwritten e rfl⟩

/-- What was compiled is reported without line breaks. -/
theorem Ready.compiledInLines (ht : t.Sound) (h : Ready c t r)
    (hcontext : r.context.templates.Accepted) (hnames : NamesInLines c t)
    (hend : r.MayEnd c s t') {k : Compiled} (hk : k ∈ s.compiled) :
    Text.OneLine k.plan.text ∧ Text.OneLine k.output.text := by
  obtain ⟨collected, hsteps, rfl⟩ := hend
  rcases List.mem_append.1 (Summary.mem_compiled.1 hk) with hunread | hmade
  · obtain ⟨_, -, hsame⟩ := List.mem_map.1 hunread
    cases hsame
  · obtain ⟨f, p, biome, outcome, hhas, hsame, -⟩ :=
      h.exists_variant ht hcontext hnames hsteps hmade
    cases outcome with
    | error e => cases hsame
    | ok _ =>
      cases hsame
      exact ⟨h.oneLine_source hnames hhas.found, h.oneLine_output hnames hhas⟩

/-! ## Lines -/

/-- The lines of the report on what was compiled. -/
def Summary.lines (s : Summary) : List String :=
  s.compiled.map (fun k => "[ok] " ++ k.plan.text ++ " -> " ++ k.output.text) ++
    ["compiled=" ++ s.compiled.length.repr ++ " failed=" ++ s.failures.length.repr]

/-- The lines of the report on what failed. -/
def Summary.failureLines (s : Summary) : List String :=
  s.failures.map fun k => "[error] " ++ k.message

/-- The report is its lines, each with a line break at its end. -/
theorem Summary.report_eq (s : Summary) :
    s.report = String.join (s.lines.map fun line => line ++ "\n") := by
  have hcount (line : String) : String.join [line] = line := by simp
  rw [lines, List.map_append, List.map_map, String.join_append, List.map_singleton, hcount]
  rfl

/-- So is the report of the failures. -/
theorem Summary.failureReport_eq (s : Summary) :
    s.failureReport = String.join (s.failureLines.map fun line => line ++ "\n") := by
  rw [failureLines, List.map_map]
  rfl

/-- What the reports of a run consist of. -/
structure LineByLine (c : Config) (r : Prepared) (s : Summary) : Prop where
  /-- a line for every structure file and one with the counts -/
  out : HasLines s.lines s.report
  /-- the line of a failure starts with the plan -/
  starts : ∀ k ∈ s.failures, ("[error] " ++ k.plan.text).toList <+: (Summary.failureLine k).toList
  /-- there are as many lines as failures, and one more for every line break that is quoted -/
  breaks : breaks s.failureReport = s.failures.length +
    ((s.failures.flatMap fun k => k.error.quoted).map Text.breaks).sum
  /-- so there is one line for every failure just if none quotes a line break -/
  err_iff : HasLines s.failureLines s.failureReport ↔ ∀ k ∈ s.failures, AllOneLine k.error.quoted
  /-- a failure quotes one only if there is one in the file of its plan -/
  quoted : ∀ k ∈ s.failures, r.tree.WrittenInLines k.plan → AllOneLine k.error.quoted
  /-- so there is one line for every failure if no file of a plan has a line break in a text -/
  err : (∀ f ∈ r.found, r.tree.WrittenInLines (f.source c)) →
    HasLines s.failureLines s.failureReport

/-- The line of a failure is broken where its message quotes a line break. -/
theorem FailureInLines.breaks_line {k : PlanFailure} (h : FailureInLines c r k) :
    breaks ("[error] " ++ k.message) = (k.error.quoted.map breaks).sum := by
  have hname := h.name.breaks_eq
  have hbiome := h.biome
  unfold PlanFailure.message
  cases hb : k.biome with
  | none => simp (disch := decide) [hname, k.error.breaks_message, OneLine.breaks_eq]
  | some biome =>
    have hbiome := (hbiome biome hb).breaks_eq
    simp (disch := decide) [hname, hbiome, k.error.breaks_message, OneLine.breaks_eq]

/-- The line of a failure starts with the plan. -/
theorem Summary.prefix_failureLine (k : PlanFailure) :
    ("[error] " ++ k.plan.text).toList <+: (failureLine k).toList := by
  have hmessage : k.plan.text.toList <+: k.message.toList := by
    unfold PlanFailure.message
    split <;> simp [String.append_assoc]
  have hline : failureLine k = "[error] " ++ k.message ++ "\n" := rfl
  rw [hline, String.toList_append, String.toList_append, String.toList_append]
  exact ((List.prefix_append_right_inj _).2 hmessage).trans (List.prefix_append _ _)

/-- Numbers have no line breaks. -/
theorem oneLine_countText (compiled failed : Nat) :
    Text.OneLine ("compiled=" ++ compiled.repr ++ " failed=" ++ failed.repr) := by
  have hcompiled : Text.OneLine "compiled=" := by decide
  have hfailed : Text.OneLine " failed=" := by decide
  simp [hcompiled, hfailed]

/-- The report of a run consists of its lines. -/
theorem Ready.hasLines_report (ht : t.Sound) (h : Ready c t r)
    (hcontext : r.context.templates.Accepted) (hnames : NamesInLines c t)
    (hend : r.MayEnd c s t') : HasLines s.lines s.report := by
  refine ⟨s.report_eq, allOneLine_append.2 ⟨List.forall_mem_map.2 fun k hk => ?_, ?_⟩⟩
  · obtain ⟨hplan, houtput⟩ := h.compiledInLines ht hcontext hnames hend hk
    have hok : Text.OneLine "[ok] " := by decide
    have harrow : Text.OneLine " -> " := by decide
    simp [hplan, houtput, hok, harrow]
  · exact allOneLine_singleton.2 (oneLine_countText _ _)

section

variable (hfailed : ∀ k ∈ s.failures, FailureInLines c r k)

include hfailed

/-- There is one line end for every failure and one for every line break that is quoted. -/
theorem Summary.breaks_failureReport : breaks s.failureReport = s.failures.length +
    ((s.failures.flatMap fun k => k.error.quoted).map breaks).sum := by
  have hlines : s.failureLines.map breaks =
      s.failures.map fun k => (k.error.quoted.map breaks).sum := by
    rw [failureLines, List.map_map]
    exact List.map_congr_left fun k hk => (hfailed k hk).breaks_line
  rw [failureReport_eq, breaks_lines, hlines, failureLines, List.length_map, List.map_flatMap,
    List.flatMap_def, List.sum_flatten, List.map_map]
  rfl

/-- The report of the failures consists of its lines exactly if no failure quotes a line break. -/
theorem Summary.hasLines_failureReport_iff :
    HasLines s.failureLines s.failureReport ↔ ∀ k ∈ s.failures, AllOneLine k.error.quoted := by
  have hlines : AllOneLine s.failureLines ↔ ∀ k ∈ s.failures, AllOneLine k.error.quoted := by
    refine List.forall_mem_map.trans (forall₂_congr fun k hk => ?_)
    rw [← breaks_eq_zero_iff, (hfailed k hk).breaks_line, sum_breaks_eq_zero_iff]
  exact ⟨fun hreport => hlines.1 hreport.oneLine,
    fun hquoted => ⟨s.failureReport_eq, hlines.2 hquoted⟩⟩

end

/-- **Reports line by line.** Whatever is in the files, the report has one line for every structure
file and one for the counts. The report on failures has a line for every failure, which starts with
the plan, and is broken once more for every line break in a text that a message quotes; so it
has as many lines as failures if no text in the files of the plans has a line break. -/
theorem report_lineByLine (ht : t.Sound) (hready : prepare c t = .ok r) (hend : r.MayEnd c s t')
    (hnames : NamesInLines c t) : LineByLine c r s := by
  have h := ready_of_prepare hready
  have hcontext := accepted_of_prepare hready
  have hfailed (k : PlanFailure) (hk : k ∈ s.failures) : FailureInLines c r k :=
    h.failureInLines ht hcontext hnames hend hk
  have herr_iff := Summary.hasLines_failureReport_iff hfailed
  refine ⟨h.hasLines_report ht hcontext hnames hend, fun k _ => Summary.prefix_failureLine k,
    Summary.breaks_failureReport hfailed, herr_iff, fun k hk => (hfailed k hk).quoted,
    fun hwritten => herr_iff.2 fun k hk => ?_⟩
  obtain ⟨f, hf, hplan⟩ := (hfailed k hk).plan
  exact (hfailed k hk).quoted (hplan ▸ hwritten f hf)

/-- No plan of the hamlet has a line break in a text, whatever else is wrong with it. -/
theorem writtenInLines_hamlet (h : Ready hamletConfig hamlet r) {f : Found} (hf : f ∈ r.found) :
    r.tree.WrittenInLines (f.source hamletConfig) := by
  have htexts : ∀ names ∈ [["field.json"], ["torn.json"], ["wall.json"]],
      (Disk.readText (m := StateM FileTree) (hamletConfig.plans.join (.ofNames names))
        (hamlet.put ["out"] .directory)).1.toOption.any fun text =>
          decide (AllOneLine (Json.layOut text).value.texts) := by decide +kernel
  obtain ⟨files, hfiles, names, hmem, hname⟩ := h.exists_listed hf
  obtain rfl := Except.ok.inj (filesBelow_hamlet.symm.trans hfiles)
  have htree : hamlet.put ["out"] .directory = r.tree :=
    Except.ok.inj (createDirAll_hamlet.symm.trans h.tree)
  intro text hread
  have htext := htexts names hmem
  rw [← hname, htree, ← Found.source, hread] at htext
  have hlines : AllOneLine (Json.layOut text).value.texts := of_decide_eq_true htext
  exact hlines

/-- The torn plan of the hamlet has one line in the report. -/
theorem report_lineByLine_hamlet : hamlet.Sound ∧ NamesInLines hamletConfig hamlet ∧
    ∃ r s t, prepare hamletConfig hamlet = .ok r ∧ r.MayEnd hamletConfig s t ∧
      LineByLine hamletConfig r s ∧ HasLines s.failureLines s.failureReport := by
  have hnames : NamesInLines hamletConfig hamlet :=
    namesInLines_of_filesBelow (by decide) (by decide) filesBelow_hamlet (by decide)
  have hend : hamletReady.MayEnd hamletConfig _ _ :=
    ⟨_, Pool.steps_run (Nat.le_max_right _ _) _ _, rfl⟩
  have hlines := report_lineByLine hamlet_sound prepare_hamlet hend hnames
  exact ⟨hamlet_sound, hnames, hamletReady, _, _, prepare_hamlet, hend, hlines,
    hlines.err fun f hf => writtenInLines_hamlet (ready_of_prepare prepare_hamlet) hf⟩

/-- A plan with a door whose final state is given as a text of two lines. -/
def brokenText : String :=
  "\x7b\"size\":[1,1,1],\"blocks\":[],\"jigsaws\":[\x7b\"pos\":[0,0,0]," ++
    "\"orientation\":\"north_up\",\"name\":\"door\",\"pool\":\"roads\"," ++
    "\"target_pool\":\"road\",\"joint\":\"rollable\",\"final_state\":\"a\\nb\"\x7d]\x7d"

/-- Nothing but this plan. -/
def outpost : FileTree where
  entries := .ofList
    [(["allowlist.json"], .file "\x7b\x7d".toUTF8.toList),
      (["plans"], .directory),
      (["plans", "door.json"], .file brokenText.toUTF8.toList),
      (["templates"], .directory)]

/-- Why it is not read. -/
def brokenFailure : PlanFailure :=
  ⟨⟨"plans/door.json"⟩, none, .schema (.state "jigsaws[0].final_state" (.form "a\nb"))⟩

/-- The broken text is refused. -/
theorem parse_brokenText : Plan.parse brokenText = .error brokenFailure.error := by
  have hparsed : (Plan.parse brokenText).map (fun _ => ()) = .error brokenFailure.error := by
    decide +kernel
  exact Outcome.map_eq_error.1 hparsed

/-- There is one file for a plan at the outpost. -/
theorem filesBelow_outpost : outpost.filesBelow hamletConfig.plans = .ok [["door.json"]] := by
  decide +kernel

/-- A run at the outpost finds one plan, and cannot read it. -/
theorem exists_prepare_outpost : ∃ context, prepare hamletConfig outpost =
    .ok ⟨Biome.supported, context, [⟨.ofNames ["door.json"], .error brokenFailure.error⟩],
      outpost.put ["out"] .directory⟩ := by
  have hout : outpost.createDirAll hamletConfig.out = .ok (outpost.put ["out"] .directory) := by
    decide +kernel
  obtain ⟨context, hready⟩ := exists_prepare selectedBiomes_hamletConfig (by decide +kernel)
    filesBelow_outpost ⟨["door.json"], by decide, by decide +kernel⟩ (by decide +kernel) hout
  have hplans : plansAmong [["door.json"]] = [.ofNames ["door.json"]] := by decide +kernel
  have hread : (Plan.load (m := StateM FileTree) (hamletConfig.plans.join (.ofNames ["door.json"]))
      (outpost.put ["out"] .directory)).1 = _ :=
    (Plan.load_eq (by decide +kernel)).trans parse_brokenText
  rw [hplans, List.map_singleton, hread] at hready
  exact ⟨context, hready⟩

/-- The summary has the failure and nothing else. -/
theorem ofResults_brokenFailure :
    Summary.ofResults [.error brokenFailure] = ⟨[], [brokenFailure]⟩ := by
  have hcompiled : [.error brokenFailure].filterMap Summary.compiled? = [] := rfl
  have hfailures : [.error brokenFailure].filterMap Summary.failure? = [brokenFailure] := rfl
  rw [Summary.ofResults, hcompiled, hfailures, List.mergeSort_nil, List.mergeSort_singleton]

/-- There is no job to do, so nothing is reported but the plan. -/
theorem exists_mayEnd_outpost : ∃ r, prepare hamletConfig outpost = .ok r ∧
    r.MayEnd hamletConfig ⟨[], [brokenFailure]⟩ (outpost.put ["out"] .directory) := by
  obtain ⟨context, hready⟩ := exists_prepare_outpost
  have hfailure : Found.failure? hamletConfig
      ⟨.ofNames ["door.json"], .error brokenFailure.error⟩ = some brokenFailure := by decide +kernel
  refine ⟨_, hready, [], .refl, ?_⟩
  rw [Prepared.unread, List.filterMap_cons_some hfailure]
  exact ofResults_brokenFailure.symm

/-- One failure, and two lines in the report. -/
theorem exists_broken_line : outpost.Sound ∧ NamesInLines hamletConfig outpost ∧
    ∃ r s t, prepare hamletConfig outpost = .ok r ∧ r.MayEnd hamletConfig s t ∧
      s.failures.length = 1 ∧ breaks s.failureReport = 2 ∧
      ¬ HasLines s.failureLines s.failureReport := by
  have hsound : outpost.Sound := FileTree.sound_of_entries (by decide +kernel)
  have hnames : NamesInLines hamletConfig outpost :=
    namesInLines_of_filesBelow (by decide) (by decide) filesBelow_outpost (by decide)
  obtain ⟨r, hr, hend⟩ := exists_mayEnd_outpost
  have hbroken : breaks (Summary.failureReport ⟨[], [brokenFailure]⟩) = 2 := by decide +kernel
  refine ⟨hsound, hnames, r, _, _, hr, hend, rfl, hbroken, fun hlines => ?_⟩
  have hone := hlines.breaks_eq
  rw [hbroken] at hone
  exact absurd hone (by decide)

end Batch

end Blueprint
