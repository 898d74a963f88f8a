import Blueprint.Proofs.Batch.Alone
import Blueprint.Proofs.Batch.Sites

/-!
# Turns

If no variant writes a file, or a temporary file, where another one needs a directory, the turns
that the jobs take make no difference: every run that begins with the same files ends with the same
summary and the same files (`Batch.scheduled`). Otherwise they may make one
(`Batch.exists_mayEnd_ne`), since rivals are looked for among the outputs only, and not among
the directories on the way to them.
-/

namespace Blueprint

open FileTree

/-- A file with the first path, or its temporary file, stands where one with the second path needs
a directory. -/
def Path.Blocks (p q : Path) : Prop :=
  p.parts <+: q.parts.dropLast ∨ (Disk.temporary p).parts <+: q.parts.dropLast

/-- What belongs to a site is not on the way to another one, unless its path blocks that of the
other. -/
theorem Site.not_way {x y : Site} {p q : Path} (hp : x.At p) (hq : y.At q) (hroot : x.root = y.root)
    (hbase : x.base = y.base) (h : ¬ p.Blocks q) {l : Location} (hl : x.Own l) : ¬ y.Way l := by
  rintro ⟨k, -, hk, rfl⟩
  have hway : q.parts.dropLast = y.root.parts ++ y.dirs.map .name := by
    rw [Path.EndsIn.parts_eq hq, List.dropLast_concat]
  have hstart : x.root.parts ++ k.map .name <+: q.parts.dropLast := by
    rw [hway, hroot, List.prefix_append_right_inj]
    exact hk.map Path.Part.name
  have hfollows {last : String} (heq : y.base ++ k = x.directory ++ [last]) :
      k = x.dirs ++ [last] := by
    rw [directory, hbase, List.append_assoc] at heq
    exact List.append_cancel_left heq
  rcases hl with hl | ⟨hname, hl⟩
  · refine h (.inr ?_)
    rw [hfollows hl] at hstart
    simpa [parts_temporary hp] using hstart
  · refine h (.inl ?_)
    rw [hfollows hl] at hstart
    simpa [parts_file hp hname] using hstart

namespace Batch

variable {context : CompileContext} {options : CompileOptions} {a s : FileTree}

/-- A variant that has no rivals and compiles, so that its file is written. -/
def Variant.Writes (context : CompileContext) (options : CompileOptions) (p : Plan) (v : Variant) :
    Prop := v.rivals = [] ∧ ∃ bytes, v.bytes (p.compile v.biome context options) = .ok bytes

/-- The terms of a variant that is not disturbed. One that does not write does nothing. -/
def Variant.undisturbed (context : CompileContext) (options : CompileOptions) (out : Path)
    (base : Location) (a : FileTree) (p : Plan) (v : Variant) : Terms FileTree :=
  ((v.site out base).undisturbed (Site.Opens v.output a)).when (v.Writes context options p)

/-- A variant that is not disturbed ends as it would if it was made alone. -/
theorem Variant.mirrors_make {out : Path} {base : Location} {p : Plan} {v : Variant}
    (hat : (v.site out base).At v.output) (ha : (v.site out base).Holds a) :
    (v.make (m := Task FileTree) silent context options p).Mirrors
      (v.undisturbed context options out base a p)
      (fun _ a' s' => v.Writes context options p → (v.site out base).Like a' s' ∧
        (Site.Opens v.output a → (v.site out base).Ready s')) a a := by
  -- what is promised of the value lasts while the others leave the site as it is
  have hstable (a' : FileTree) : (v.undisturbed context options out base a p).Stable
      fun s' => v.Writes context options p → (v.site out base).Like a' s' ∧
        (Site.Opens v.output a → (v.site out base).Ready s') := fun s s' hs h hwrites =>
    ⟨(v.site out base).stable_like _ a' s s' (hs hwrites) (h hwrites).1, fun hopens =>
      ((h hwrites).2 hopens).grows (hs hwrites).grows⟩
  unfold Variant.make
  split
  next hrivals =>
    -- a variant with rivals or without bytes writes nothing and promises nothing
    refine Task.mirrors_done_of_stable (hstable a) fun hwrites => ?_
    rw [hwrites.1] at hrivals
    cases hrivals
  next hrivals =>
    simp only [forM_silent fun e => e, pure_bind]
    split
    next e hbytes =>
      refine Task.mirrors_done_of_stable (hstable a) fun ⟨_, bytes, hwrites⟩ => ?_
      rw [hbytes] at hwrites
      cases hwrites
    next bytes hbytes =>
      have hwrites : v.Writes context options p := ⟨by simpa using hrivals, bytes, hbytes⟩
      have hawaits : (v.site out base).Awaits a a := ⟨ha, ha, fun _ _ => .inl rfl, fun _ _ => rfl⟩
      refine Task.mirrors_bind ((Site.mirrors_writeAtomic hat hawaits).when hwrites)
        fun outcome a' _ s' hs' => ?_
      cases outcome with
      | error e => exact Task.mirrors_done_of_stable (hstable a') fun _ => hs'
      | ok _ => exact Task.mirrors_done_of_stable (hstable a') fun _ => hs'

/-! ## The run -/

variable {c : Config} {t t' : FileTree} {r : Prepared} {base : Location}

/-- A variant of a run that writes. -/
def Prepared.Writes (r : Prepared) (c : Config) (x : Job × Variant) : Prop :=
  x.2.Writes r.context c.options x.1.plan

/-- No variant that writes stands in the way of another one. -/
def Prepared.Apart (r : Prepared) (c : Config) : Prop :=
  ∀ x ∈ r.work c, r.Writes c x → ∀ y ∈ r.work c, r.Writes c y → ¬ x.2.output.Blocks y.2.output

/-- What a variant comes to if it is the only one. -/
def Prepared.alone (r : Prepared) (c : Config) (x : Job × Variant) :
    Except PlanError Unit × FileTree :=
  x.2.make (m := StateM FileTree) silent r.context c.options x.1.plan r.tree

/-- Where no output is in the way of another, no variant disturbs another one. -/
theorem Ready.undisturbed_fits (ht : t.Sound) (h : Ready c t r) (hapart : r.Apart c)
    (base : Location) : (r.work c).Pairwise fun x y =>
      (x.2.undisturbed r.context c.options c.out base r.tree x.1.plan).Fits
        (y.2.undisturbed r.context c.options c.out base r.tree y.1.plan) := by
  refine (h.pairwise_own ht base).imp_of_mem fun {x y} hx hy hown =>
    Terms.fits_when fun hxw hyw => ?_
  have hat := (h.site ht hx base).1
  have hat' := (h.site ht hy base).1
  have hxy (l : Location) (hl : (x.2.site c.out base).Own l) : ¬ (y.2.site c.out base).Way l :=
    Site.not_way hat hat' rfl rfl (hapart x hx hxw y hy hyw) hl
  have hyx (l : Location) (hl : (y.2.site c.out base).Own l) : ¬ (x.2.site c.out base).Way l :=
    Site.not_way hat' hat rfl rfl (hapart y hy hyw x hx hxw) hl
  have hdisjoint (l : Location) := hown hxw.1 hyw.1 l
  exact ⟨fun s s' hs => hs.mono (fun l hl => ⟨hdisjoint l hl, hxy l hl⟩)
      fun l hl => .inl fun hl' => hyx l hl' hl.1,
    fun s s' hs => hs.mono (fun l hl => ⟨fun hl' => hdisjoint l hl' hl, hyx l hl⟩)
      fun l hl => .inl fun hl' => hxy l hl' hl.1⟩

/-- What variants that are not disturbed leave behind: at its site each what it would leave alone,
and nothing anywhere else. -/
structure Left (c : Config) (r : Prepared) (base : Location) (t' : FileTree) : Prop where
  /-- each site that is written is as the variant leaves it alone -/
  sites : ∀ x ∈ r.work c, r.Writes c x → (x.2.site c.out base).Like (r.alone c x).2 t' ∧
    (Site.Opens x.2.output r.tree → (x.2.site c.out base).Ready t')
  /-- every change is one at the site of a variant that writes -/
  changes : Changes (fun l => ∃ x ∈ r.work c, r.Writes c x ∧ (x.2.site c.out base).Own l)
    (fun l => ∃ x ∈ r.work c, r.Writes c x ∧ (x.2.site c.out base).Way l ∧
      Site.Opens x.2.output r.tree) r.tree t'

/-- All variants end as they would alone, and leave behind what they would alone. -/
theorem Ready.left (ht : t.Sound) (h : Ready c t r) (hapart : r.Apart c)
    (hbase : ∀ v : Variant, (v.site c.out base).Holds r.tree) {limit : Nat}
    {collected : List (List Result)}
    (hsteps : Pool.Steps limit (.ofTasks r.tree (r.tasks c)) (.finished t' collected)) :
    collected.flatten.Perm ((r.work c).map fun x => x.1.result x.2 (r.alone c x).1) ∧
      Left c r base t' := by
  obtain ⟨⟨results, hperm, hresults⟩, hguarantees⟩ := results_of_steps
    (fun j v => v.undisturbed r.context c.options c.out base r.tree j.plan)
    (fun j v outcome s => outcome = (r.alone c (j, v)).1 ∧ (r.Writes c (j, v) →
      (v.site c.out base).Like (r.alone c (j, v)).2 s ∧
        (Site.Opens v.output r.tree → (v.site c.out base).Ready s)))
    (h.undisturbed_fits ht hapart base)
    (fun x hx => by
      have hmirrors : (x.2.make (m := Task FileTree) silent r.context c.options x.1.plan).Mirrors
          _ _ r.tree r.tree := Variant.mirrors_make (h.site ht hx base).1 (hbase x.2)
      unfold Task.Mirrors at hmirrors
      rwa [Variant.run_make] at hmirrors) hsteps
  refine ⟨?_, fun x hx => ?_, ?_⟩
  -- each result is the one the variant has when it runs alone
  · have heq : results.map id = (r.work c).map fun x => x.1.result x.2 (r.alone c x).1 := by
      refine map_eq_of_forall₂ (hresults.imp fun x result hresult => ?_)
      obtain ⟨outcome, ⟨rfl, -⟩, rfl⟩ := hresult
      rfl
    rw [← heq, List.map_id]
    exact hperm.symm
  · obtain ⟨_, -, _, ⟨-, hsite⟩, -⟩ := Outcome.exists_mem_of_forall₂ hresults.flip hx
    exact hsite
  -- every step changes the places of one variant that writes, and only these
  · exact Changes.of_steps (fun s s' ⟨x, hx, hwrites, hs⟩ =>
      hs.mono (fun l hl => ⟨x, hx, hwrites, hl⟩) fun l hl => .inl ⟨x, hx, hwrites, hl⟩) hguarantees

/-- That says what every entry is. -/
theorem Left.eq {t₁ t₂ : FileTree} (h₁ : Left c r base t₁) (h₂ : Left c r base t₂) : t₁ = t₂ := by
  -- an entry belongs to a variant, or is on the way to one, or is as it was before the jobs
  have hentries (l : Location) : t₁.entries.get? l = t₂.entries.get? l := by
    by_cases hown : ∃ x ∈ r.work c, r.Writes c x ∧ (x.2.site c.out base).Own l
    · obtain ⟨x, hx, hwrites, hl⟩ := hown
      rw [← entry?_of_ne_nil hl.ne_nil, ← entry?_of_ne_nil hl.ne_nil,
        (h₁.sites x hx hwrites).1 l hl, (h₂.sites x hx hwrites).1 l hl]
    by_cases hway : ∃ x ∈ r.work c, r.Writes c x ∧ (x.2.site c.out base).Way l ∧
        Site.Opens x.2.output r.tree
    · obtain ⟨x, hx, hwrites, hl, hopens⟩ := hway
      rw [← entry?_of_ne_nil hl.ne_nil, ← entry?_of_ne_nil hl.ne_nil,
        ((h₁.sites x hx hwrites).2 hopens).entry_of_way hl,
        ((h₂.sites x hx hwrites).2 hopens).entry_of_way hl]
    · rw [(h₁.changes.rest l hown).resolve_right fun hmade => hway hmade.1,
        (h₂.changes.rest l hown).resolve_right fun hmade => hway hmade.1]
  cases t₁
  cases t₂
  exact congrArg FileTree.mk (SortedMap.ext_get? hentries)

/-- **Turns make no difference.** If no variant stands in the way of another one, every way in
which the jobs of a run may take turns, with whatever limit, ends with the same summary and the
same files. -/
theorem scheduled {n₁ n₂ : Nat} {s₁ s₂ : Summary} {t₁ t₂ : FileTree} (ht : t.Sound)
    (hready : prepare c t = .ok r) (hapart : r.Apart c)
    (h₁ : r.MayEnd { c with jobs := n₁ } s₁ t₁) (h₂ : r.MayEnd { c with jobs := n₂ } s₂ t₂) :
    s₁ = s₂ ∧ t₁ = t₂ := by
  obtain ⟨collected₁, hsteps₁, rfl⟩ := h₁
  obtain ⟨collected₂, hsteps₂, rfl⟩ := h₂
  have h := ready_of_prepare hready
  obtain ⟨base, hbase⟩ := h.exists_holds
  obtain ⟨hresults₁, hleft₁⟩ := h.left ht hapart hbase hsteps₁
  obtain ⟨hresults₂, hleft₂⟩ := h.left ht hapart hbase hsteps₂
  refine ⟨?_, hleft₁.eq hleft₂⟩
  exact Summary.ofResults_congr (distinct_results ht h hsteps₁)
    ((hresults₁.trans hresults₂.symm).append_left _)

/-- The name is not that of a structure file or a temporary file. -/
def Plain (n : String) : Prop := ¬ ".bin".toList <:+ n.toList ∧ ¬ ".tmp".toList <:+ n.toList

instance (n : String) : Decidable (Plain n) := inferInstanceAs (Decidable (_ ∧ _))

/-- If no directory of plans has the name of a structure file or a temporary file, no variant
stands in the way of another one. -/
theorem Ready.apart_of_plain (ht : t.Sound) (h : Ready c t r) {files : List (List String)}
    (hfiles : t.filesBelow c.plans = .ok files)
    (hplain : ∀ names ∈ files, ∀ n ∈ names.dropLast, Plain n) : r.Apart c := by
  intro x hx _ y hy _
  obtain ⟨hat, hstructure⟩ := h.site ht hx []
  obtain ⟨g, q, biome, hhas, rfl⟩ := (mem_work ht h).1 hy
  obtain ⟨dirs, file, hdirs, hfile, -, hrelative, files', hfiles', hmem⟩ :=
    h.exists_names ht hhas.found
  obtain rfl := Except.ok.inj (hfiles.symm.trans hfiles')
  have hends := outputPath_endsIn c.out hdirs hfile (fileBiome_of_mem h hhas.biome)
  rw [← hrelative] at hends
  -- a blocked way passes a file of the other, so that file has the name of a directory
  have hway : (r.variant c g biome).output.parts.dropLast = c.out.parts ++ dirs.map .name := by
    change (outputPath c.out g.relative biome).parts.dropLast = _
    rw [hends.parts_eq, List.dropLast_concat]
  have hnamed {part : Path.Part} (hstart : c.out.parts ++
      (x.2.site c.out []).dirs.map .name ++ [part] <+: c.out.parts ++ dirs.map .name) :
      ∃ n, .name n = part ∧ Plain n := by
    rw [List.append_assoc, List.prefix_append_right_inj] at hstart
    obtain ⟨n, hn, heq⟩ := List.mem_map.1
      (hstart.subset (List.mem_append_right _ List.mem_cons_self))
    exact ⟨n, heq, hplain _ hmem n (by simpa using hn)⟩
  rw [Path.Blocks, hway]
  rintro (hblocks | hblocks)
  · rw [Path.EndsIn.parts_eq hat] at hblocks
    -- neither an output nor its temporary file has such a name
    obtain ⟨n, hn, hplain⟩ := hnamed hblocks
    obtain rfl : n = (x.2.site c.out []).last := by simpa using congrArg Path.Part.piece hn
    rcases hstructure with hup | ⟨name, hbin⟩
    · simp [hup, Path.Part.ofPiece] at hn
    · refine hplain.1 ?_
      rw [hbin, String.toList_append]
      exact List.suffix_append _ _
  · obtain ⟨n, hn, hplain⟩ := hnamed (Site.parts_temporary hat ▸ hblocks)
    obtain rfl := Path.Part.name.inj hn
    refine hplain.2 ?_
    rw [String.toList_append]
    exact List.suffix_append _ _

/-- No plan of the hamlet stands in the way of another one. -/
theorem apart_hamlet : hamletReady.Apart hamletConfig :=
  (ready_of_prepare prepare_hamlet).apart_of_plain hamlet_sound filesBelow_hamlet (by decide)

/-- The hamlet is the same whether its plans are built one at a time or all at once. -/
theorem scheduled_hamlet : ∃ r s₁ s₂ t₁ t₂, prepare hamletConfig hamlet = .ok r ∧
    r.Apart hamletConfig ∧ r.MayEnd { hamletConfig with jobs := 1 } s₁ t₁ ∧
    r.MayEnd { hamletConfig with jobs := 3 } s₂ t₂ ∧ s₁ = s₂ ∧ t₁ = t₂ := by
  have hfirst : hamletReady.MayEnd { hamletConfig with jobs := 1 } _ _ :=
    ⟨_, Pool.steps_run (Nat.le_max_right _ _) _ _, rfl⟩
  have hsecond : hamletReady.MayEnd { hamletConfig with jobs := 3 } _ _ :=
    ⟨_, Pool.steps_run (Nat.le_max_right _ _) _ _, rfl⟩
  exact ⟨hamletReady, _, _, _, _, prepare_hamlet, apart_hamlet, hfirst, hsecond,
    scheduled hamlet_sound prepare_hamlet apart_hamlet hfirst hsecond⟩

/-! ## In the way -/

/-- Two plans. The directory for the structure of the bar has the name of the temporary file for the
structure of the gate. -/
def crossing : FileTree where
  entries := .ofList
    [(["allowlist.json"], .file "\x7b\x7d".toUTF8.toList),
      (["plans"], .directory),
      (["plans", "gate.bin.tmp"], .directory),
      (["plans", "gate.bin.tmp", "bar.json"], .file cellText.toUTF8.toList),
      (["plans", "gate.json"], .file cellText.toUTF8.toList),
      (["templates"], .directory)]

/-- What is ready for them. -/
def crossingReady : Prepared where
  selected := Biome.supported
  context := ((loadContext (m := StateM FileTree) silent hamletConfig).run crossing).1.toOption.getD
    default
  found := [⟨⟨"gate.bin.tmp/bar.json"⟩, .ok cell⟩, ⟨⟨"gate.json"⟩, .ok cell⟩]
  tree := crossing.put ["out"] .directory

/-- Both files are those of plans. -/
theorem plansAmong_crossing : plansAmong [["gate.bin.tmp", "bar.json"], ["gate.json"]] =
    [⟨"gate.bin.tmp/bar.json"⟩, ⟨"gate.json"⟩] := by
  have hplans : ([["gate.bin.tmp", "bar.json"], ["gate.json"]].map Path.ofNames).filter
      (fun p => p.extension? == some planExtension) =
        [⟨"gate.bin.tmp/bar.json"⟩, ⟨"gate.json"⟩] := by decide +kernel
  rw [plansAmong, hplans]
  exact List.mergeSort_of_pairwise (by decide +kernel)

/-- A run at the crossing finds both of them. -/
theorem prepare_crossing : prepare hamletConfig crossing = .ok crossingReady := by
  have hfiles : crossing.filesBelow hamletConfig.plans =
      .ok [["gate.bin.tmp", "bar.json"], ["gate.json"]] := by decide +kernel
  have hout : crossing.createDirAll hamletConfig.out = .ok crossingReady.tree := by decide +kernel
  have hload (relative : Path)
      (h : (Disk.readText (m := StateM FileTree) (hamletConfig.plans.join relative)
        crossingReady.tree).1 = .ok cellText) :
      (Plan.load (m := StateM FileTree) (hamletConfig.plans.join relative) crossingReady.tree).1 =
        .ok cell := (Plan.load_eq h).trans parse_cellText
  rw [prepare_of selectedBiomes_hamletConfig (by decide +kernel) hfiles
      (by simp [plansAmong_crossing]) (context_eq_ok (by decide +kernel)) hout,
    plansAmong_crossing, List.map_cons, List.map_singleton, hload _ (by decide +kernel),
    hload _ (by decide +kernel)]
  rfl

/-- Whether a result is a failure. -/
def Result.failed : Result → Bool
  | .ok _ => false
  | .error _ => true

/-- If there are two jobs, the second one may be over before the first one begins. -/
theorem mayEnd_swapped (htwo : (r.tasks c).length = 2) (hlimit : 2 ≤ max c.jobs 1) :
    r.MayEnd c
      (.ofResults (r.unread c ++ ((r.tasks c).reverse.mapM Task.run r.tree).1.reverse.flatten))
      ((r.tasks c).reverse.mapM Task.run r.tree).2 := by
  refine ⟨_, ?_, rfl⟩
  obtain ⟨x, y, htasks⟩ := List.length_eq_two.1 htwo
  rw [htasks]
  exact Pool.steps_swapped hlimit x y r.tree

/-- **Turns may make a difference.** If the bar comes first, the gate cannot be written, because its
temporary file would stand where the directory for the bar is now; but if the gate comes first,
both are written. -/
theorem exists_mayEnd_ne : ∃ s₁ s₂ t₁ t₂, prepare hamletConfig crossing = .ok crossingReady ∧
    crossingReady.MayEnd hamletConfig s₁ t₁ ∧ crossingReady.MayEnd hamletConfig s₂ t₂ ∧
    s₁ ≠ s₂ ∧ t₁ ≠ t₂ := by
  have hbarFirst : ((crossingReady.tasks hamletConfig).mapM Task.run
      crossingReady.tree).1.flatten.any Result.failed ∧ ((crossingReady.tasks hamletConfig).mapM
        Task.run crossingReady.tree).2.find? ⟨"out/gate.bin"⟩ = none := by decide +kernel
  have hgateFirst : ((crossingReady.tasks hamletConfig).reverse.mapM Task.run
      crossingReady.tree).1.flatten.all (!·.failed) ∧
        ((crossingReady.tasks hamletConfig).reverse.mapM Task.run
          crossingReady.tree).2.find? ⟨"out/gate.bin"⟩ ≠ none := by decide +kernel
  have hfirst : crossingReady.MayEnd hamletConfig _ _ :=
    ⟨_, Pool.steps_run (Nat.le_max_right _ _) _ _, rfl⟩
  have hsecond := mayEnd_swapped (c := hamletConfig) (r := crossingReady) (by decide +kernel)
    (by decide)
  refine ⟨_, _, _, _, prepare_crossing, hfirst, hsecond, fun hsame => ?_, fun hsame => ?_⟩
  · obtain ⟨result, hmem, herror⟩ := List.any_eq_true.1 hbarFirst.1
    cases result with
    | ok k => cases herror
    | error e =>
      -- if the summaries were the same, this failure would be in the one that has none
      have hlisted := Summary.mem_failures.2
        (List.mem_append_right (crossingReady.unread hamletConfig) hmem)
      rw [hsame, Summary.mem_failures] at hlisted
      have hmem' := (List.mem_append.1 hlisted).resolve_left fun h => by cases h
      rw [((List.reverse_perm _).flatten).mem_iff] at hmem'
      cases List.all_eq_true.1 hgateFirst.1 _ hmem'
  · exact hgateFirst.2 (hsame ▸ hbarFirst.2)

end Batch

end Blueprint
