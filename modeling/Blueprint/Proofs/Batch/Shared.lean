import Blueprint.Proofs.Batch.Written

/-!
# Which variants can share an output

The output of a variant is named after its plan, with the biome behind a low line. No biome has a
low line in its name, so the biome can be told from the name of the output, but for one thing: a
plan may itself be named as another one is with a biome. That is the only way for two variants to
share an output (`Batch.shared_iff`), and then one of them has a biome and the other has none. So
three variants never share one.
-/

namespace Blueprint.Batch

/-- A variant: a plan at a path from the directory of the plans, and the biome it is made for. -/
abbrev PlanBiome := Path × Option String

namespace PlanBiome

/-- The path leads through names to a plan, and the biome is a supported one. -/
structure Proper (x : PlanBiome) : Prop where
  /-- the path has names only -/
  names : ∀ part ∈ x.1.parts, ∃ name, part = .name name
  /-- it has the extension of plans -/
  extension : x.1.extension? = some planExtension
  /-- the biome is supported, if there is one -/
  biome : ∀ b, x.2 = some b → b ∈ Biome.supported

/-- They are for different plans or for different biomes. -/
def Different (x y : PlanBiome) : Prop := x.1.parts ≠ y.1.parts ∨ x.2 ≠ y.2

/-- They have one output in a directory for the output. -/
def Share (out : Path) (x y : PlanBiome) : Prop :=
  (outputPath out x.1 x.2).same (outputPath out y.1 y.2) = true

/-- The plan of `x`, which has no biome, is named as that of `y` is with its biome. -/
def NamedAfter (x y : PlanBiome) : Prop :=
  ∃ b stem, x.2 = none ∧ y.2 = some b ∧ y.1.stem? = some stem ∧ x.1.stem? = some (stem ++ "_" ++ b)

/-- They lie in the same directory, and one plan is named as the other is with its biome. -/
def Clash (x y : PlanBiome) : Prop :=
  x.1.parent?.map Path.parts = y.1.parent?.map Path.parts ∧ (NamedAfter x y ∨ NamedAfter y x)

/-- The stem of an output. -/
def outputStem (file : String) : Option String → String
  | some b => (Path.splitName file).1 ++ "_" ++ b
  | none => (Path.splitName file).1

/-! ## Names of outputs -/

/-- What stands behind the last low line can be told, and so can what stands before it. -/
theorem append_low_line_inj {s s' b b' : String} (hb : '_' ∉ b.toList) (hb' : '_' ∉ b'.toList)
    (h : s ++ "_" ++ b = s' ++ "_" ++ b') : s = s' ∧ b = b' := by
  have hsplit (s : String) {b : String} (hb : '_' ∉ b.toList) :
      Text.splitAll '_' (s ++ "_" ++ b).toList = Text.splitAll '_' s.toList ++ [b.toList] := by
    simp [Text.splitAll_append, Text.splitAll_of_notMem hb]
  have hpieces := hsplit s hb
  rw [h, hsplit s' hb'] at hpieces
  obtain rfl := String.toList_inj.1 (List.cons.inj (List.append_inj' hpieces rfl).2).1
  exact ⟨by simpa using h, rfl⟩

/-- No supported biome has a low line in its name. -/
theorem not_mem_low_line {b : String} (hb : b ∈ Biome.supported) : '_' ∉ b.toList := by
  have hall : ∀ b ∈ Biome.supported, '_' ∉ b.toList := by decide
  exact hall b hb

variable {x y z : PlanBiome} {dirs dirs' : List Path.Part} {file file' : String} {out : Path}

/-- The path of a variant has no parts but names. -/
theorem Proper.plain (h : x.Proper) : ∀ part ∈ x.1.parts, part ≠ .root ∧ part ≠ .here := by
  intro part hpart
  obtain ⟨name, rfl⟩ := h.names part hpart
  exact ⟨nofun, nofun⟩

/-- A variant is made of a file in a directory. -/
theorem Proper.exists_file (h : x.Proper) : ∃ dirs file, x.1.parts = dirs ++ [.name file] := by
  obtain ⟨name, hname, -⟩ := Option.bind_eq_some_iff.1 h.extension
  obtain ⟨dirs, last, hparts⟩ :=
    (List.eq_nil_or_concat _).resolve_left (Path.parts_ne_nil_of_fileName hname)
  rw [List.concat_eq_append] at hparts
  obtain ⟨file, rfl⟩ := h.names last (hparts ▸ List.mem_append_right dirs (.head _))
  exact ⟨dirs, file, hparts⟩

/-- The file of a variant is its stem and the extension. -/
theorem Proper.file_eq (h : x.Proper) (hx : x.1.parts = dirs ++ [.name file]) :
    file = (Path.splitName file).1 ++ ".json" := by
  have hextension := (Path.extension?_of_parts hx).symm.trans h.extension
  exact (Path.eq_of_splitName hextension).trans String.append_assoc

/-- Where the output of a variant lies. A plan `..json` without a biome may have an output that
leads upwards. -/
theorem Proper.exists_outputName (h : x.Proper) (out : Path)
    (hx : x.1.parts = dirs ++ [.name file]) : ∃ name,
      (outputPath out x.1 x.2).parts = out.parts ++ dirs ++ [.ofPiece name] ∧
        (name = outputStem file x.2 ++ ".bin" ∨
          name = ".." ∧ x.2 = none ∧ (Path.splitName file).1 = ".") := by
  obtain ⟨path, biome⟩ := x
  have htarget : (out.join path).parts = out.parts ++ dirs ++ [.name file] := by
    rw [Path.parts_join out h.plain, List.append_assoc, ← hx]
  obtain ⟨hne, hslash⟩ := (Path.endsIn_of_parts hx).2.stem
  -- both ways to name the output put one piece in the place of the last
  cases biome with
  | none =>
    have hpiece : Path.IsPiece ((Path.splitName file).1 ++ "." ++ outputExtension) := by
      rw [String.append_assoc]
      exact Path.isPiece_append hne (by decide) hslash (by decide)
    obtain ⟨name, hparts, hname⟩ := Path.parts_withExtension htarget hpiece
    refine ⟨name, hparts, hname.imp (fun hname => ?_) fun ⟨hname, hstem⟩ => ⟨hname, rfl, hstem⟩⟩
    rw [hname, String.append_assoc]
    rfl
  | some b =>
    have hb : '/' ∉ b.toList := by
      have hall : ∀ b ∈ Biome.supported, '/' ∉ b.toList := by decide
      exact hall b (h.biome b rfl)
    have hpiece : Path.IsPiece ((Path.splitName file).1 ++ "_" ++ b ++ "." ++ outputExtension) := by
      simp only [String.append_assoc]
      refine Path.isPiece_append hne (by simp) hslash ?_
      simpa [outputExtension] using hb
    have hname : (Path.splitName file).1 ++ "_" ++ b ++ "." ++ outputExtension =
        outputStem file (some b) ++ ".bin" := String.append_assoc
    refine ⟨_, ?_, .inl hname⟩
    dsimp only [outputPath]
    rw [Path.stem?_of_parts htarget, Option.getD_some]
    exact Path.parts_withFileName htarget hpiece

/-! ## Shared outputs -/

/-- Sharing goes both ways. -/
theorem Share.symm (h : Share out x y) : Share out y x := by
  rw [Share, Path.same, beq_iff_eq] at h ⊢
  exact h.symm

/-- Files in directories lie in the same one exactly if the parts of these are the same. -/
theorem parent_eq_iff (hx : x.1.parts = dirs ++ [.name file])
    (hy : y.1.parts = dirs' ++ [.name file']) :
    x.1.parent?.map Path.parts = y.1.parent?.map Path.parts ↔ dirs = dirs' := by
  obtain ⟨parent, hparent, rfl⟩ := Path.exists_parent_of_parts hx
  obtain ⟨parent', hparent', rfl⟩ := Path.exists_parent_of_parts hy
  rw [hparent, hparent', Option.map_some, Option.map_some, Option.some_inj]

/-- Whether a plan is named after another one can be told from the names of the files. -/
theorem namedAfter_iff (hx : x.1.parts = dirs ++ [.name file])
    (hy : y.1.parts = dirs' ++ [.name file']) :
    NamedAfter x y ↔ ∃ b, x.2 = none ∧ y.2 = some b ∧
      (Path.splitName file).1 = (Path.splitName file').1 ++ "_" ++ b := by
  simp only [NamedAfter, Path.stem?_of_parts hx, Path.stem?_of_parts hy, Option.some_inj]
  refine exists_congr fun b => ⟨?_, ?_⟩
  · rintro ⟨_, hnone, hsome, rfl, hstem⟩
    exact ⟨hnone, hsome, hstem⟩
  · rintro ⟨hnone, hsome, hstem⟩
    exact ⟨_, hnone, hsome, rfl, hstem⟩

/-- Two variants share an output exactly if they lie in one directory and their outputs have one
name. -/
theorem share_iff_of_outputName {name name' : String}
    (h : (outputPath out x.1 x.2).parts = out.parts ++ dirs ++ [.ofPiece name])
    (h' : (outputPath out y.1 y.2).parts = out.parts ++ dirs' ++ [.ofPiece name']) :
    Share out x y ↔ dirs = dirs' ∧ name = name' := by
  rw [Share, Path.same, beq_iff_eq, h, h', List.append_assoc, List.append_assoc,
    List.append_cancel_left_eq]
  refine ⟨fun heq => ?_, ?_⟩
  · obtain ⟨hdirs, hlast⟩ := List.append_inj' heq rfl
    have hpiece := congrArg Path.Part.piece (List.cons.inj hlast).1
    rw [Path.Part.piece_ofPiece, Path.Part.piece_ofPiece] at hpiece
    exact ⟨hdirs, hpiece⟩
  · rintro ⟨rfl, rfl⟩
    rfl

/-- The same plan in the same biome. -/
theorem not_different (hx : x.1.parts = dirs ++ [.name file])
    (hy : y.1.parts = dirs ++ [.name file']) (hproper : x.Proper) (hproper' : y.Proper)
    (hstem : (Path.splitName file).1 = (Path.splitName file').1) (hbiome : x.2 = y.2) :
    ¬ Different x y := by
  have hfile : file = file' := by rw [hproper.file_eq hx, hproper'.file_eq hy, hstem]
  rw [Different, not_or, not_not, not_not, hx, hy, hfile]
  exact ⟨rfl, hbiome⟩

/-- A name with the extension of a structure does not lead upwards. -/
theorem up_ne_bin (stem : String) : stem ++ ".bin" ≠ ".." := Path.append_ne stem (by decide)

/-- Variants that share an output clash. -/
theorem Proper.clash_of_share (hx : x.Proper) (hy : y.Proper) (hdifferent : Different x y)
    (hshare : Share out x y) : Clash x y := by
  obtain ⟨dirs, file, hxparts⟩ := hx.exists_file
  obtain ⟨dirs', file', hyparts⟩ := hy.exists_file
  obtain ⟨name, hname, hcases⟩ := hx.exists_outputName out hxparts
  obtain ⟨name', hname', hcases'⟩ := hy.exists_outputName out hyparts
  obtain ⟨rfl, rfl⟩ := (share_iff_of_outputName hname hname').1 hshare
  -- both outputs have the extension, or both lead upwards
  have hstems : outputStem file x.2 = outputStem file' y.2 := by
    rcases hcases with hbin | ⟨hup, hnone, hstem⟩
    · rcases hcases' with hbin' | ⟨hup', -, -⟩
      · simpa using hbin.symm.trans hbin'
      · exact absurd (hbin.symm.trans hup') (up_ne_bin _)
    · rcases hcases' with hbin' | ⟨-, hnone', hstem'⟩
      · exact absurd (hbin'.symm.trans hup) (up_ne_bin _)
      · rw [hnone, hnone', outputStem, outputStem, hstem, hstem']
  refine ⟨(parent_eq_iff hxparts hyparts).2 rfl, ?_⟩
  rw [namedAfter_iff hxparts hyparts, namedAfter_iff hyparts hxparts]
  have hsame := not_different hxparts hyparts hx hy
  cases hb : x.2 with
  | none =>
    cases hb' : y.2 with
    | none =>
      rw [hb, hb'] at hstems
      exact absurd hdifferent (hsame hstems (hb.trans hb'.symm))
    | some b' =>
      rw [hb, hb'] at hstems
      exact .inl ⟨b', rfl, rfl, hstems⟩
  | some b =>
    cases hb' : y.2 with
    | none =>
      rw [hb, hb'] at hstems
      exact .inr ⟨b, rfl, rfl, hstems.symm⟩
    | some b' =>
      rw [hb, hb'] at hstems
      obtain ⟨hstem, rfl⟩ := append_low_line_inj (not_mem_low_line (hx.biome b hb))
        (not_mem_low_line (hy.biome b' hb')) hstems
      exact absurd hdifferent (hsame hstem (hb.trans hb'.symm))

/-- A plan named after another one in its biome shares the output. -/
theorem Proper.share_of_namedAfter (hx : x.Proper) (hy : y.Proper)
    (hparent : x.1.parent?.map Path.parts = y.1.parent?.map Path.parts)
    (hnamed : NamedAfter x y) : Share out x y := by
  obtain ⟨dirs, file, hxparts⟩ := hx.exists_file
  obtain ⟨dirs', file', hyparts⟩ := hy.exists_file
  obtain rfl := (parent_eq_iff hxparts hyparts).1 hparent
  obtain ⟨name, hname, hcases⟩ := hx.exists_outputName out hxparts
  obtain ⟨name', hname', hcases'⟩ := hy.exists_outputName out hyparts
  obtain ⟨b, hnone, hsome, hstem⟩ := (namedAfter_iff hxparts hyparts).1 hnamed
  refine (share_iff_of_outputName hname hname').2 ⟨rfl, ?_⟩
  have hlong : (Path.splitName file).1 ≠ "." := by
    rw [hstem, String.append_assoc]
    refine Path.append_ne _ ?_
    have hall : ∀ b ∈ Biome.supported, ".".length < ("_" ++ b).length := by decide
    exact hall b (hy.biome b hsome)
  have hbin := hcases.resolve_right fun hup => hlong hup.2.2
  have hbin' := hcases'.resolve_right fun hup => by simp [hsome] at hup
  rw [hbin, hbin', hnone, hsome, outputStem, outputStem, hstem]

/-- Different variants share an output exactly if they clash. -/
theorem Proper.share_iff (hx : x.Proper) (hy : y.Proper) (hdifferent : Different x y) :
    Share out x y ↔ Clash x y := by
  refine ⟨hx.clash_of_share hy hdifferent, ?_⟩
  rintro ⟨hparent, hnamed | hnamed⟩
  · exact hx.share_of_namedAfter hy hparent hnamed
  · exact (hy.share_of_namedAfter hx hparent.symm hnamed).symm

/-- Of two variants that clash, one has a biome and the other has none. -/
theorem Clash.isSome_ne (h : Clash x y) : x.2.isSome ≠ y.2.isSome := by
  obtain ⟨-, ⟨b, stem, hnone, hsome, -⟩ | ⟨b, stem, hnone, hsome, -⟩⟩ := h
  · simp [hnone, hsome]
  · simp [hnone, hsome]

end PlanBiome

/-! ## The variants of a run -/

variable {c : Config} {t : FileTree} {r : Prepared}

/-- The variants of a run are proper. -/
theorem Ready.proper (ht : t.Sound) (h : Ready c t r) {f : Found} {p : Plan}
    {biome : Option String} (hhas : r.Has f p biome) :
    PlanBiome.Proper (f.relative, biome) := by
  obtain ⟨dirs, file, hdirs, hfile, hextension, hrelative, -⟩ := h.exists_names ht hhas.found
  have hends := Path.endsIn_ofNames hdirs hfile.toIsPiece
  rw [← hrelative] at hends
  refine ⟨fun part hpart => ?_, (hends.extension_eq hfile).trans hextension,
    mem_supported_of_mem h hhas.biome⟩
  rw [hends.parts_eq, hfile.ofPiece] at hpart
  rcases List.mem_append.1 hpart with hdir | hlast
  · obtain ⟨name, -, rfl⟩ := List.mem_map.1 hdir
    exact ⟨name, rfl⟩
  · exact ⟨file, List.mem_singleton.1 hlast⟩

/-- Two variants of a run share an output only if one has a biome and the other has none. -/
theorem Ready.pairwise_shared (ht : t.Sound) (h : Ready c t r) : (r.work c).Pairwise fun x y =>
    x.2.output.parts = y.2.output.parts → x.2.biome.isSome ≠ y.2.biome.isSome := by
  refine h.pairwise_work_of ht (fun _ _ hne heq => absurd heq hne) ?_
  intro f g p q b b' hf hg hsource houtput
  have hx := h.proper ht hf
  have hy := h.proper ht hg
  have hdifferent : PlanBiome.Different (f.relative, b) (g.relative, b') := by
    refine .inl fun hsame => hsource ?_
    rw [Found.source, Found.source, Path.parts_join c.plans hx.plain,
      Path.parts_join c.plans hy.plain, hsame]
  exact (hx.clash_of_share hy hdifferent (beq_iff_eq.2 houtput)).isSome_ne

/-- Of three things two have a property or two do not. -/
theorem length_le_two {α : Type} {p : α → Bool} {l : List α}
    (h : l.Pairwise fun x y => p x ≠ p y) : l.length ≤ 2 := by
  match l with
  | [] => simp
  | [_] => simp
  | [_, _] => simp
  | x :: y :: z :: _ =>
    simp only [List.pairwise_cons, List.forall_mem_cons] at h
    obtain ⟨⟨hxy, hxz, -⟩, ⟨hyz, -⟩, -⟩ := h
    have hy := Bool.eq_not_iff.2 hxy.symm
    have hz := Bool.eq_not_iff.2 hxz.symm
    exact absurd (hy.trans hz.symm) hyz

/-- The variants of a run with this output. -/
def Prepared.sharing (r : Prepared) (c : Config) (output : Path) : List (Job × Variant) :=
  (r.work c).filter fun x => x.2.output.same output

/-- At most two variants of a run share an output. -/
theorem Ready.length_sharing (ht : t.Sound) (h : Ready c t r) (output : Path) :
    (r.sharing c output).length ≤ 2 := by
  refine length_le_two (p := fun x => x.2.biome.isSome) ?_
  refine ((h.pairwise_shared ht).filter _).imp_of_mem fun {x y} hx hy hshared => hshared ?_
  have houtput {x : Job × Variant} (hx : x ∈ r.sharing c output) :
      x.2.output.parts = output.parts := beq_iff_eq.1 (List.mem_filter.1 hx).2
  rw [houtput hx, houtput hy]

/-- The variants of one job have different outputs. -/
theorem Ready.nodup_outputs (ht : t.Sound) (h : Ready c t r) {j : Job} (hj : j ∈ r.jobs c) :
    (j.variants.map fun v => v.output.parts).Nodup := by
  rw [jobs_eq ht h] at hj
  obtain ⟨f, hf, hj⟩ := List.mem_filterMap.1 hj
  obtain ⟨p, -, rfl⟩ := job?_eq_some.1 hj
  rw [Prepared.job, List.map_map]
  exact List.pairwise_map.2 (pairwise_outputs ht h hf p)

/-- **Two variants share an output only by the name of a plan.** They do exactly if their plans lie
in one directory, one of them has no biome, and its plan is named as the other one is with its
biome. So no output of a run is shared by more than two variants, or by two of one plan. -/
theorem shared_iff :
    (∀ (out : Path) (x y : PlanBiome), x.Proper → y.Proper → x.Different y →
      ((outputPath out x.1 x.2).same (outputPath out y.1 y.2) = true ↔ x.Clash y)) ∧
    ∀ (c : Config) (t : FileTree) (r : Prepared), t.Sound → prepare c t = .ok r →
      (∀ output, (r.sharing c output).length ≤ 2) ∧
      ∀ j ∈ r.jobs c, (j.variants.map fun v => v.output.parts).Nodup := by
  refine ⟨fun out x y hx hy hdifferent => hx.share_iff hy hdifferent, fun c t r ht hready => ?_⟩
  have h := ready_of_prepare hready
  exact ⟨h.length_sharing ht, fun j hj => h.nodup_outputs ht hj⟩

/-- A barn in the desert. -/
def desertBarn : PlanBiome := (⟨"farm/barn.json"⟩, some "desert")

/-- A plan with a name of its own, whatever stands around it in its path. -/
def barnDesert : PlanBiome := (⟨"farm//./barn_desert.json/"⟩, none)

/-- Both variants of the barns are proper. -/
theorem proper_barns : desertBarn.Proper ∧ barnDesert.Proper := by
  have hbarn : desertBarn.1.parts = [.name "farm", .name "barn.json"] := by decide +kernel
  have hdesert : barnDesert.1.parts = [.name "farm", .name "barn_desert.json"] := by
    decide +kernel
  refine ⟨⟨?_, by decide +kernel, ?_⟩, ⟨?_, by decide +kernel, nofun⟩⟩
  · simp [hbarn]
  · rintro b ⟨⟩
    decide
  · simp [hdesert]

/-- The barn in the desert and the other plan share an output. So do the wall for the plains and the
plan for walls in the village, and no third one does. -/
theorem shared_iff_barns :
    (outputPath ⟨"out"⟩ desertBarn.1 desertBarn.2).same
      (outputPath ⟨"out"⟩ barnDesert.1 barnDesert.2) = true ∧
    ∃ r output, prepare hamletConfig village = .ok r ∧
      (∃ x ∈ r.sharing hamletConfig output, ∃ y ∈ r.sharing hamletConfig output,
        x.1.source.parts ≠ y.1.source.parts) ∧
      (r.sharing hamletConfig output).length ≤ 2 := by
  obtain ⟨hbarn, hdesert⟩ := proper_barns
  refine ⟨(shared_iff.1 _ _ _ hbarn hdesert (.inr (by decide))).2 ⟨by decide +kernel, ?_⟩, ?_⟩
  · exact .inr ⟨"desert", "barn", rfl, rfl, by decide +kernel, by decide +kernel⟩
  · obtain ⟨r, f, p, g, hr, hhas, hne, hg, q, hq, b, hb, hsame⟩ := exists_prepare_village
    have h := ready_of_prepare hr
    have hmem {f : Found} {p : Plan} {b : Option String} {output : Path} (hhas : r.Has f p b)
        (hsame : (outputPath hamletConfig.out f.relative b).parts = output.parts) :
        (r.job hamletConfig f p, r.variant hamletConfig f b) ∈ r.sharing hamletConfig output :=
      List.mem_filter.2 ⟨(mem_work village_sound h).2 ⟨f, p, b, hhas, rfl⟩, beq_iff_eq.2 hsame⟩
    exact ⟨r, _, hr, ⟨_, hmem ⟨hg, hq, hb⟩ hsame, _, hmem hhas rfl, hne⟩,
      (shared_iff.2 _ _ r village_sound hr).1 _⟩

end Blueprint.Batch
