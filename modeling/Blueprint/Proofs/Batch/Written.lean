import Blueprint.Proofs.Batch.Sites
import Blueprint.Proofs.Structure.Success

/-!
# What is written

No file of a run is written twice, and none is written by chance.
-/

namespace Blueprint

open FileTree

namespace Site

variable {x : Site} {p : Path} {bytes : List UInt8} {s s' : FileTree}

/-! ## One file -/

/-- Others leave a file alone that belongs to the site, once it is there. -/
def terms (x : Site) : Terms FileTree where
  rely := Changes (fun l => ¬ x.Own l) fun _ => True
  guarantee := Changes x.Own x.Way

/-- Nobody removes the directory that should be there. -/
theorem stable_holds (x : Site) : x.terms.Stable x.Holds := fun _ _ hs h => h.grows hs.grows

/-- Nor does anybody remove the directories of the site. -/
theorem stable_ready (x : Site) : x.terms.Stable x.Ready := fun _ _ hs h => h.grows hs.grows

/-- Nobody else changes a file of the site. -/
theorem stable_file (x : Site) {l : Location} (hl : x.Own l) (content : List UInt8) :
    x.terms.Stable fun s => s.entry? l = some (.file content) :=
  fun _ _ hs h => (hs.file_iff (not_not_intro hl)).2 h

/-- What is known of the file after it was written. -/
structure Done (x : Site) (p : Path) (bytes : List UInt8) (s : FileTree) : Prop where
  /-- its directories are there -/
  ready : x.Ready s
  /-- the path leads to it -/
  target : x.target p = .ok x.file
  /-- its name is that of a file -/
  name : x.last ≠ ".."
  /-- it has the content -/
  file : s.entry? x.file = some (.file bytes)

/-- What was written stays written. -/
theorem stable_done (x : Site) (p : Path) (bytes : List UInt8) :
    x.terms.Stable (x.Done p bytes) := fun s s' hs h =>
  ⟨x.stable_ready s s' hs h.ready, h.target, h.name,
    x.stable_file (.inr ⟨h.name, rfl⟩) bytes s s' hs h.file⟩

/-- An operation on the files of the site that changes nothing if it fails. -/
theorem keeps_update {f : FileTree → Except FileError FileTree} {fact done : FileTree → Prop}
    (hfact : x.terms.Stable fact) (hdone : x.terms.Stable done) (hs : fact s)
    (h : ∀ s s', fact s → f s = .ok s' → Changes x.Own x.Way s s' ∧ done s') :
    (Task.step (update f)).Keeps x.terms (After fact done) s := by
  refine Task.keeps_step_of_stable hfact (fun outcome => ?_) hs fun s hs => ?_
  · cases outcome with
    | ok _ => exact hdone
    | error e => exact hfact
  · cases hf : f s with
    | error e =>
      rw [update_of_error hf]
      exact ⟨.refl s, hs⟩
    | ok s' =>
      rw [update_of_ok hf]
      exact h s s' hs hf

/-- Before it is moved, the new content is in the temporary file. -/
structure Prepared (x : Site) (bytes : List UInt8) (s : FileTree) : Prop where
  /-- the directories are there -/
  ready : x.Ready s
  /-- the temporary file has the content -/
  temporary : s.entry? x.temporary = some (.file bytes)

/-- What was written to the temporary file stays there. -/
theorem stable_prepared (x : Site) (bytes : List UInt8) : x.terms.Stable (x.Prepared bytes) :=
  fun s s' hs h =>
    ⟨x.stable_ready s s' hs h.ready, x.stable_file (.inl rfl) bytes s s' hs h.temporary⟩

/-- A file that is reported as written is there, whatever else is done to other files at the
same time. -/
theorem keeps_writeAtomic (hp : x.At p) (hs : x.Holds s) :
    (Disk.writeAtomic (m := Task FileTree) p bytes).Keeps x.terms
      (After (fun _ => True) (x.Done p bytes)) s := by
  obtain ⟨parent, hparent, -⟩ := Path.EndsIn.exists_parent hp
  have htrue : x.terms.Stable fun _ => True := fun _ _ _ h => h
  have hcreate (s : FileTree) (hs : x.Holds s) :
      (Disk.createDirAll (m := Task FileTree) parent).Keeps x.terms (After x.Holds x.Ready) s :=
    keeps_update x.stable_holds x.stable_ready hs fun s s' hs hs' => by
      obtain ⟨hchanges, hready⟩ := changes_createParent hp hs hparent hs'
      exact ⟨hchanges.mono (fun _ h => h.elim) fun _ h => .inl h, hready⟩
  have hwrite (s : FileTree) (hs : x.Ready s) :
      (Disk.writeFile (m := Task FileTree) (Disk.temporary p) bytes).Keeps x.terms
        (After x.Ready (x.Prepared bytes)) s := by
    refine keeps_update x.stable_ready (x.stable_prepared bytes) hs fun s s' hs hs' => ?_
    obtain ⟨hchanges, hfile⟩ := changes_writeFile hp hs hs'
    exact ⟨hchanges, hs.grows hchanges.grows, hfile⟩
  have hrename (s : FileTree) (hs : x.Prepared bytes s) :
      (Disk.rename (m := Task FileTree) (Disk.temporary p) p).Keeps x.terms
        (After (x.Prepared bytes) (x.Done p bytes)) s := by
    refine keeps_update (x.stable_prepared bytes) (x.stable_done p bytes) hs fun s s' hs hs' => ?_
    obtain ⟨hchanges, htarget, hname, hfile⟩ := changes_rename hp hs.ready hs'
    exact ⟨hchanges, hs.ready.grows hchanges.grows, htarget, hname, hfile.trans hs.temporary⟩
  have hremove (s : FileTree) (hs : x.Ready s) :
      (Disk.removeFile (m := Task FileTree) (Disk.temporary p)).Keeps x.terms
        (After x.Ready fun _ => True) s :=
    keeps_update x.stable_ready htrue hs fun s s' hs hs' => ⟨changes_removeFile hp hs hs', trivial⟩
  -- once an operation has failed nothing is promised of the file
  rw [Disk.writeAtomic, Disk.createParent, hparent]
  refine Task.keeps_bind (hcreate s hs) fun created s hs => ?_
  cases created with
  | error e => exact Task.keeps_done_of_stable htrue trivial
  | ok _ =>
    refine Task.keeps_bind (hwrite s hs) fun written s hs => ?_
    cases written with
    | error e => exact Task.keeps_done_of_stable htrue trivial
    | ok _ =>
      refine Task.keeps_bind (hrename s hs) fun moved s hs => ?_
      cases moved with
      | error e =>
        refine Task.keeps_bind (hremove s hs.ready) fun _ s _ => ?_
        exact Task.keeps_done_of_stable htrue trivial
      | ok _ => exact Task.keeps_done_of_stable (x.stable_done p bytes) hs

/-- A file that was written can be read. -/
theorem Done.readFile (hp : x.At p) (h : x.Done p bytes s) : s.readFile p = .ok bytes := by
  have hlocate : s.locate p = .ok x.file := by
    rw [← locateFile_eq hp, locate_file hp h.ready, h.target]
  refine Outcome.bind_eq_ok.2 ⟨x.file, hlocate, ?_⟩
  rw [h.file]
  rfl

/-- The file of a path stays as it is: it keeps its content, and none is made or changed where the
path leads. -/
structure Untouched (s s' : FileTree) (p : Path) : Prop where
  /-- what can be read can still be read -/
  kept : ∀ content, s.find? p = some (.file content) → s'.find? p = some (.file content)
  /-- where the path leads now, there are the files that were there -/
  file_iff : ∀ location content, s'.locate p = .ok location →
    (s'.entry? location = some (.file content) ↔ s.entry? location = some (.file content))

/-- The file is untouched by changes that do not reach it. -/
theorem untouched (hp : x.At p) (hname : x.last ≠ "..") (hs' : x.Holds s')
    {own made : Location → Prop} (hown : ¬ own x.file) (hchanges : Changes own made s s') :
    Untouched s s' p := by
  constructor
  · intro content hfind
    obtain ⟨l, hlocate, hentry⟩ := find?_eq_some.1 hfind
    rw [locate_eq hp, Outcome.check_bind_eq_ok] at hlocate
    have hfollow := follow_mono hchanges.grows hlocate.2
    obtain rfl := hs'.eq_file hp hname hfollow
    refine find?_eq_some.2 ⟨x.file, ?_, (hchanges.file_iff hown).2 hentry⟩
    rw [locate_eq hp, hlocate.1]
    exact hfollow
  · intro l content hlocate
    obtain rfl := hs'.eq_file hp hname (follow_of_locate hlocate)
    exact hchanges.file_iff hown

end Site

/-! ## One variant -/

/-- The error says that other plans would write the same file. -/
def PlanError.IsClash : PlanError → Prop
  | .schema (.clash _ _) => True
  | _ => False

/-- No failure to compile is a clash. -/
theorem PlanError.coversCompile_notClash : CoversCompile fun e => ¬ e.IsClash where
  notAllowed _ _ := not_false
  unbound _ _ := not_false
  template _ _ := not_false
  noPalette _ := not_false
  noMapping _ _ _ := not_false
  outOfBounds _ _ _ := not_false
  jigsaw _ := not_false

namespace Batch

variable {context : CompileContext} {options : CompileOptions} {s : FileTree}

/-- The terms of a variant. One with rivals does nothing. -/
def Variant.terms (out : Path) (base : Location) (v : Variant) : Terms FileTree :=
  (v.site out base).terms.when (v.rivals = [])

/-- How a variant ends. -/
inductive Variant.Ends (context : CompileContext) (options : CompileOptions) (out : Path)
    (base : Location) (p : Plan) (v : Variant) : Except PlanError Unit → FileTree → Prop where
  /-- it has rivals, and says which -/
  | clash {s : FileTree} (rivals : v.rivals ≠ []) :
    Ends context options out base p v
      (.error (.schema (.clash v.output.text (v.rivals.map Path.text)))) s
  /-- it has none, but its plan does not compile, or not to what can be encoded -/
  | failed {e : PlanError} {s : FileTree} (rivals : v.rivals = [])
      (bytes_eq : v.bytes (p.compile v.biome context options) = .error e) :
    Ends context options out base p v (.error e) s
  /-- there are bytes for its file, but they are not written -/
  | unwritten {bytes : List UInt8} {e : FileError} {s : FileTree} (rivals : v.rivals = [])
      (bytes_eq : v.bytes (p.compile v.biome context options) = .ok bytes) :
    Ends context options out base p v (.error (.file v.output.text e)) s
  /-- its file holds what its plan was compiled to -/
  | written {bytes : List UInt8} {s : FileTree} (rivals : v.rivals = [])
      (bytes_eq : v.bytes (p.compile v.biome context options) = .ok bytes)
      (done : (v.site out base).Done v.output bytes s) :
    Ends context options out base p v (.ok ()) s

/-- What a variant has come to is not changed by others. -/
theorem Variant.stable_ends {out : Path} {base : Location} {p : Plan} {v : Variant}
    (outcome : Except PlanError Unit) :
    (v.terms out base).Stable (v.Ends context options out base p outcome) := by
  intro s s' hs h
  cases h with
  | clash rivals => exact .clash rivals
  | failed rivals bytes_eq => exact .failed rivals bytes_eq
  | unwritten rivals bytes_eq => exact .unwritten rivals bytes_eq
  | written rivals bytes_eq done =>
    exact .written rivals bytes_eq ((v.site out base).stable_done _ _ s s' (hs rivals) done)

/-- To compile a variant fails for some other reason than a clash. -/
theorem Variant.notClash_bytes (v : Variant) (p : Plan) :
    Outcome.FailsWith (fun e => ¬ e.IsClash) (v.bytes (p.compile v.biome context options)) :=
  (Plan.failsWith_compile PlanError.coversCompile_notClash).bind fun _ _ =>
    .mapError fun _ => not_false

/-- A variant keeps its terms. -/
theorem Variant.keeps_make {out : Path} {base : Location} {p : Plan} {v : Variant}
    (hat : (v.site out base).At v.output) (hs : (v.site out base).Holds s) :
    (v.make (m := Task FileTree) silent context options p).Keeps (v.terms out base)
      (v.Ends context options out base p) s := by
  have hdone (outcome : Except PlanError Unit) (s : FileTree)
      (h : v.Ends context options out base p outcome s) :
      (Task.done outcome).Keeps (v.terms out base) (v.Ends context options out base p) s :=
    Task.keeps_done_of_stable (Variant.stable_ends outcome) h
  unfold Variant.make
  split
  next hrivals => exact hdone _ s (.clash (by simpa using hrivals))
  next hrivals =>
    have hrivals : v.rivals = [] := by simpa using hrivals
    simp only [forM_silent fun e => e, pure_bind]
    split
    next e hbytes => exact hdone _ s (.failed hrivals hbytes)
    next bytes hbytes =>
      refine Task.keeps_bind ((Site.keeps_writeAtomic hat hs).when hrivals) fun outcome s hs => ?_
      cases outcome with
      | error e => exact hdone _ s (.unwritten hrivals hbytes)
      | ok _ => exact hdone _ s (.written hrivals hbytes hs)

/-! ## The run -/

variable {c : Config} {t t' : FileTree} {r : Prepared} {base : Location}

/-- The terms of two variants of a run fit together. -/
theorem Ready.fits (ht : t.Sound) (h : Ready c t r) (base : Location) :
    (r.work c).Pairwise fun x y => (x.2.terms c.out base).Fits (y.2.terms c.out base) := by
  refine (h.pairwise_own ht base).imp fun {x y} hown => Terms.fits_when fun hx hy => ?_
  exact ⟨fun s s' hs => hs.mono (hown hx hy) fun _ _ => .inl trivial,
    fun s s' hs => hs.mono (fun l hl hl' => hown hx hy l hl' hl) fun _ _ => .inl trivial⟩

/-- What belongs to a variant without rivals. -/
def Prepared.Own (r : Prepared) (c : Config) (base : Location) (l : Location) : Prop :=
  ∃ x ∈ r.work c, x.2.rivals = [] ∧ (x.2.site c.out base).Own l

/-- A file that several plans would write belongs to none of the variants that write one. -/
theorem Ready.not_own_file (ht : t.Sound) (h : Ready c t r) {x : Job × Variant} (hx : x ∈ r.work c)
    (hrivals : x.2.rivals ≠ []) :
    (x.2.site c.out base).last ≠ ".." ∧ ¬ r.Own c base (x.2.site c.out base).file := by
  obtain ⟨hat, hstructure⟩ := h.site ht hx base
  obtain ⟨f, p, biome, hhas, rfl⟩ := (mem_work ht h).1 hx
  have hparts := Path.EndsIn.parts_eq hat
  have hname : ((r.variant c f biome).site c.out base).last ≠ ".." := by
    intro hup
    refine h.getLast?_ne_up ht hhas hrivals ?_
    rw [hup] at hparts
    have hlast := congrArg List.getLast? hparts
    rwa [List.getLast?_concat] at hlast
  refine ⟨hname, ?_⟩
  -- a place of another that writes is not this one, or that one would have rivals too
  rintro ⟨y, hy, hnone, hown⟩
  obtain ⟨hat', hstructure'⟩ := h.site ht hy base
  obtain ⟨g, q, biome', hhas', rfl⟩ := (mem_work ht h).1 hy
  refine Site.Own.disjoint hstructure hstructure' rfl (fun hdirs hlast => ?_) (.inr ⟨hname, rfl⟩)
    hown
  refine others_ne_nil hhas ?_ hrivals hnone
  rw [hdirs, hlast] at hparts
  exact hparts.trans (Path.EndsIn.parts_eq hat').symm

/-- How a run ends: every variant in its way, and each result is that of a variant. -/
structure Ended (c : Config) (r : Prepared) (base : Location) (results : List Result)
    (t' : FileTree) : Prop where
  /-- every variant has a result, in one of its ways to end -/
  made : ∀ x ∈ r.work c, ∃ outcome, x.1.result x.2 outcome ∈ results ∧
    x.2.Ends r.context c.options c.out base x.1.plan outcome t'
  /-- every result is one of those -/
  results : ∀ result ∈ results, ∃ x ∈ r.work c, ∃ outcome, result = x.1.result x.2 outcome ∧
    x.2.Ends r.context c.options c.out base x.1.plan outcome t'
  /-- the tree changed at the files of the variants, and by directories -/
  changes : Changes (r.Own c base) (fun _ => True) r.tree t'

/-- A run that has finished has come to the ends of its variants. -/
theorem Ready.ended (ht : t.Sound) (h : Ready c t r) {limit : Nat} {collected : List (List Result)}
    (hsteps : Pool.Steps limit (.ofTasks r.tree (r.tasks c)) (.finished t' collected)) :
    ∃ base, (∀ v : Variant, (v.site c.out base).Holds r.tree) ∧
      Ended c r base collected.flatten t' := by
  obtain ⟨base, hbase⟩ := h.exists_holds
  obtain ⟨⟨results, hperm, hresults⟩, hguarantees⟩ := results_of_steps
    (fun _ v => v.terms c.out base)
    (fun j v => v.Ends r.context c.options c.out base j.plan) (h.fits ht base)
    (fun x hx => Variant.keeps_make (h.site ht hx base).1 (hbase x.2)) hsteps
  refine ⟨base, hbase, fun x hx => ?_, fun result hresult => ?_, ?_⟩
  · obtain ⟨_, hmem, outcome, hends, rfl⟩ := Outcome.exists_mem_of_forall₂ hresults.flip hx
    exact ⟨outcome, hperm.subset hmem, hends⟩
  · obtain ⟨x, hx, outcome, hends, hsame⟩ :=
      Outcome.exists_mem_of_forall₂ hresults (hperm.symm.subset hresult)
    exact ⟨x, hx, outcome, hsame, hends⟩
  · exact Changes.of_steps (fun s s' ⟨x, hx, hrivals, hs⟩ =>
      hs.mono (fun l hl => ⟨x, hx, hrivals, hl⟩) fun _ _ => .inl trivial) hguarantees

/-- A failure of a plan that was not read is not about a variant. -/
theorem Ready.not_mem_unread (ht : t.Sound) (h : Ready c t r) {f : Found} {p : Plan}
    {biome : Option String} (hhas : r.Has f p biome) (e : PlanError) :
    (.error ⟨f.source c, biome, e⟩ : Result) ∉ r.unread c := by
  intro hmem
  obtain ⟨failure, hfailure, heq⟩ := List.mem_map.1 hmem
  obtain ⟨g, hg, hgf⟩ := List.mem_filterMap.1 hfailure
  rw [Found.failure?] at hgf
  split at hgf
  next => cases hgf
  next e' hread =>
    obtain rfl := Option.some.inj hgf
    have hsource := congrArg PlanFailure.plan (Except.error.inj heq)
    obtain rfl := h.eq_of_source ht hg hhas.found (congrArg Path.parts hsource)
    rw [hhas.read] at hread
    cases hread

/-- A variant fails because of other plans just if there are any. -/
theorem Ready.clash_iff (ht : t.Sound) (h : Ready c t r) {results : List Result}
    (hended : Ended c r base results t') {f : Found} {p : Plan} {biome : Option String}
    (hhas : r.Has f p biome) (output : String) (names : List String) :
    (.error ⟨f.source c, biome, .schema (.clash output names)⟩ : Result) ∈ r.unread c ++ results ↔
      r.others c f (outputPath c.out f.relative biome) ≠ [] ∧
        output = (outputPath c.out f.relative biome).text ∧
        names = (r.others c f (outputPath c.out f.relative biome)).map Path.text := by
  -- a plan that was read is not among those that failed before
  rw [List.mem_append, or_iff_right (h.not_mem_unread ht hhas _)]
  constructor
  · intro hmem
    obtain ⟨x, hx, outcome, hresult, hends⟩ := hended.results _ hmem
    obtain ⟨g, q, biome', hhas', rfl⟩ := (mem_work ht h).1 hx
    cases outcome with
    | ok _ => cases hresult
    | error e =>
      obtain ⟨hsource, rfl, rfl⟩ := PlanFailure.mk.inj (Except.error.inj hresult)
      -- one source, one plan: the failure is that of this variant
      obtain rfl := h.eq_of_source ht hhas.found hhas'.found (congrArg Path.parts hsource)
      cases hends with
      | clash rivals => exact ⟨rivals, rfl, rfl⟩
      | failed rivals bytes_eq => exact absurd trivial (Variant.notClash_bytes _ _ _ bytes_eq)
  · rintro ⟨hothers, rfl, rfl⟩
    obtain ⟨outcome, hmem, hends⟩ := hended.made _ ((mem_work ht h).2 ⟨f, p, biome, hhas, rfl⟩)
    cases hends with
    | clash rivals => exact hmem
    | failed rivals bytes_eq => exact absurd rivals hothers
    | unwritten rivals bytes_eq => exact absurd rivals hothers
    | written rivals bytes_eq done => exact absurd rivals hothers

/-- What is listed as written can be read. -/
theorem Ready.readFile_compiled (ht : t.Sound) (h : Ready c t r) {results : List Result}
    (hended : Ended c r base results t') {k : Compiled}
    (hk : (.ok k : Result) ∈ r.unread c ++ results) :
    ∃ f p biome compiled bytes, r.Has f p biome ∧
      k = ⟨f.source c, biome, outputPath c.out f.relative biome⟩ ∧
      (Plan.load (m := StateM FileTree) k.plan r.tree).1 = .ok p ∧
      p.compile biome r.context c.options = .ok compiled ∧ compiled.encode = .ok bytes ∧
      t'.readFile k.output = .ok bytes := by
  -- a plan that was not read is a failure, never a compiled one
  have hmem : .ok k ∈ results := by
    refine (List.mem_append.1 hk).resolve_left fun hunread => ?_
    obtain ⟨_, -, heq⟩ := List.mem_map.1 hunread
    cases heq
  obtain ⟨x, hx, outcome, hresult, hends⟩ := hended.results _ hmem
  have hat := (h.site ht hx base).1
  obtain ⟨f, p, biome, hhas, rfl⟩ := (mem_work ht h).1 hx
  cases outcome with
  | error e => cases hresult
  | ok _ =>
    obtain rfl := Except.ok.inj hresult
    cases hends with
    | written rivals bytes_eq done =>
      obtain ⟨compiled, hcompiled, hencoded⟩ := Outcome.bind_eq_ok.1 bytes_eq
      exact ⟨f, p, biome, compiled, _, hhas, rfl, (h.read f hhas.found).symm.trans hhas.read,
        hcompiled, Outcome.mapError_eq_ok.1 hencoded, done.readFile hat⟩

/-- What a run makes of the outputs of its variants. -/
structure Exclusive (c : Config) (r : Prepared) (t : FileTree) (s : Summary) (t' : FileTree) :
    Prop where
  /-- A variant fails because of other plans just if there are any, and says which. -/
  clash : ∀ f p biome, r.Has f p biome → ∀ output names,
    (⟨f.source c, biome, .schema (.clash output names)⟩ : PlanFailure) ∈ s.failures ↔
      r.others c f (outputPath c.out f.relative biome) ≠ [] ∧
        output = (outputPath c.out f.relative biome).text ∧
        names = (r.others c f (outputPath c.out f.relative biome)).map Path.text
  /-- The others are the different plans with a variant for the same output, each of them once. -/
  others : ∀ f output, (r.others c f output).Nodup ∧ ∀ source, source ∈ r.others c f output ↔
    ∃ g ∈ r.found, (g.source c).parts ≠ (f.source c).parts ∧ g.Produces c r.selected output ∧
      g.source c = source
  /-- If two plans share an output, each is among the others of the other one. -/
  both : ∀ f p biome, r.Has f p biome → ∀ g q biome', r.Has g q biome' →
    (f.source c).parts ≠ (g.source c).parts →
    (outputPath c.out f.relative biome).parts = (outputPath c.out g.relative biome').parts →
      g.source c ∈ r.others c f (outputPath c.out f.relative biome) ∧
        f.source c ∈ r.others c g (outputPath c.out g.relative biome')
  /-- The file that several plans would write is left alone. -/
  untouched : ∀ f p biome, r.Has f p biome →
    r.others c f (outputPath c.out f.relative biome) ≠ [] →
      Site.Untouched t t' (outputPath c.out f.relative biome)
  /-- Every structure file that is listed holds what its plan was compiled to. -/
  compiled : ∀ k ∈ s.compiled, ∃ f p biome compiled bytes, r.Has f p biome ∧
    k = ⟨f.source c, biome, outputPath c.out f.relative biome⟩ ∧
      (Plan.load (m := StateM FileTree) k.plan r.tree).1 = .ok p ∧
      p.compile biome r.context c.options = .ok compiled ∧ compiled.encode = .ok bytes ∧
      t'.readFile k.output = .ok bytes

/-- **No file is written twice.** Whatever turns the jobs take, a variant fails because of other
plans if and only if there are other plans with its output, these plans fail likewise, and the file
is left alone; and every other file that is listed as written holds what its plan was compiled
to when the run is over. -/
theorem exclusive {s : Summary} (ht : t.Sound) (hready : prepare c t = .ok r)
    (hend : r.MayEnd c s t') : Exclusive c r t s t' := by
  obtain ⟨collected, hsteps, rfl⟩ := hend
  have h := ready_of_prepare hready
  obtain ⟨base, hbase, hended⟩ := h.ended ht hsteps
  constructor
  · intro f p biome hhas output names
    rw [Summary.mem_failures]
    exact h.clash_iff ht hended hhas output names
  · exact fun f output => ⟨h.nodup_others ht f output, fun source => mem_others⟩
  · intro f p biome hhas g q biome' hhas' hne hsame
    exact ⟨mem_others.2 ⟨g, hhas'.found, hne.symm, ⟨q, hhas'.read, biome', hhas'.biome, hsame.symm⟩,
        rfl⟩,
      mem_others.2 ⟨f, hhas.found, hne, ⟨p, hhas.read, biome, hhas.biome, hsame⟩, rfl⟩⟩
  · intro f p biome hhas hothers
    have hx := (mem_work ht h).2 ⟨f, p, biome, hhas, rfl⟩
    obtain ⟨hname, hown⟩ : _ ∧ ¬ r.Own c base _ := h.not_own_file ht hx hothers
    -- no place of a variant that writes is the shared file, so no step changes it
    exact Site.untouched (h.site ht hx base).1 hname ((hbase _).grows hended.changes.grows) hown
      ((h.changes.mono (fun _ h => h.elim) fun _ _ => .inl trivial).trans hended.changes)
  · exact fun k hk => h.readFile_compiled ht hended (Summary.mem_compiled.1 hk)

/-- Two plans that share an output: a wall for the plains, and a plan for walls in all biomes. -/
def village : FileTree where
  entries := .ofList
    [(["allowlist.json"], .file "\x7b\x7d".toUTF8.toList),
      (["plans"], .directory),
      (["plans", "wall.json"], .file palettesText.toUTF8.toList),
      (["plans", "wall_plains.json"], .file cellText.toUTF8.toList),
      (["templates"], .directory)]

/-- Everything in the village lies in directories. -/
theorem village_sound : village.Sound := FileTree.sound_of_entries (by decide +kernel)

/-- A run in the village finds a plan whose output another one produces. -/
theorem exists_prepare_village : ∃ r f p g, prepare hamletConfig village = .ok r ∧
    r.Has f p none ∧ (g.source hamletConfig).parts ≠ (f.source hamletConfig).parts ∧ g ∈ r.found ∧
      g.Produces hamletConfig r.selected (outputPath hamletConfig.out f.relative none) := by
  have hfiles : village.filesBelow hamletConfig.plans =
      .ok [["wall.json"], ["wall_plains.json"]] := by decide +kernel
  have hout : village.createDirAll hamletConfig.out = .ok (village.put ["out"] .directory) := by
    decide +kernel
  obtain ⟨context, hready⟩ := exists_prepare selectedBiomes_hamletConfig (by decide +kernel) hfiles
    ⟨["wall.json"], by decide, by decide +kernel⟩ (by decide +kernel) hout
  let found (name : String) : Found := ⟨.ofNames [name], (Plan.load (m := StateM FileTree)
    (hamletConfig.plans.join (.ofNames [name])) (village.put ["out"] .directory)).1⟩
  -- the plan without palettes has the one output that a biome of the other has
  have hplains : (found "wall_plains.json").read.toOption.any (!·.hasPalettes) := by decide +kernel
  obtain ⟨p, hp, hnone⟩ := (Option.any_eq_true _ _).1 hplains
  have hpalettes : wall.hasPalettes := by decide +kernel
  have hwall : (found "wall.json").read = .ok wall :=
    (Plan.load_eq (by decide +kernel)).trans parse_palettesText
  have hmem (name : String) (hname : [name] ∈ [["wall.json"], ["wall_plains.json"]])
      (hplan : (Path.ofNames [name]).extension? = some planExtension) :=
    List.mem_map_of_mem (f := fun relative => (⟨relative, (Plan.load (m := StateM FileTree)
      (hamletConfig.plans.join relative) (village.put ["out"] .directory)).1⟩ : Found))
      (mem_plansAmong.2 ⟨⟨[name], hname, rfl⟩, hplan⟩)
  refine ⟨_, found "wall_plains.json", p, found "wall.json", hready, ⟨?_, ?_, ?_⟩, ?_, ?_,
    wall, ?_, some "plains", ?_, ?_⟩
  · exact hmem "wall_plains.json" (by decide) (by decide +kernel)
  · exact Outcome.toOption_eq_some.1 hp
  · rw [variantBiomes, if_neg (by simpa using hnone)]
    exact List.mem_singleton_self none
  · decide +kernel
  · exact hmem "wall.json" (by decide) (by decide +kernel)
  · exact hwall
  · rw [variantBiomes, if_pos hpalettes]
    exact List.mem_map_of_mem (by decide : "plains" ∈ Biome.supported)
  · decide +kernel

/-- Neither of the plans that share an output makes a wall for the plains. -/
theorem exclusive_village : ∃ r s t f p, prepare hamletConfig village = .ok r ∧
    r.MayEnd hamletConfig s t ∧ r.Has f p none ∧
    r.others hamletConfig f (outputPath hamletConfig.out f.relative none) ≠ [] ∧
    Exclusive hamletConfig r village s t := by
  obtain ⟨r, f, p, g, hr, hhas, hne, hg, hproduces⟩ := exists_prepare_village
  have hend : r.MayEnd hamletConfig _ _ :=
    ⟨_, Pool.steps_run (Nat.le_max_right _ _) _ _, rfl⟩
  exact ⟨r, _, _, f, p, hr, hend, hhas,
    List.ne_nil_of_mem (mem_others.2 ⟨g, hg, hne, hproduces, rfl⟩),
    exclusive village_sound hr hend⟩

end Batch

end Blueprint
