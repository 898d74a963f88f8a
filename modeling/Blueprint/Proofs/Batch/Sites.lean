import Blueprint.Proofs.Batch.Rivals
import Blueprint.Proofs.Batch.Site

/-!
# Where the variants of a run write

The variants of a run write below the directory for the structures, which is there before the first
job begins. Two of them without rivals have no file in common, not even a temporary one.
-/

namespace Blueprint.Batch

open FileTree

variable {c : Config} {t : FileTree} {r : Prepared}

/-- The site of a variant, given where the directory for the structures is. -/
def Variant.site (out : Path) (base : Location) (v : Variant) : Site := .ofPath out base v.output

/-- The directory for the structures is there when the jobs begin. -/
theorem Ready.exists_holds (h : Ready c t r) :
    ∃ base, ∀ v : Variant, (v.site c.out base).Holds r.tree := by
  obtain ⟨base, hleads, hreached, -⟩ := Site.holds_of_createDirAll h.tree
  exact ⟨base, fun _ => ⟨hleads, hreached⟩⟩

/-- Before the jobs begin nothing is done but to make directories. -/
theorem Ready.changes (h : Ready c t r) : Changes (fun _ => False) (fun _ => True) t r.tree :=
  (Site.holds_of_createDirAll h.tree).choose_spec.2.2

/-- The variants of a run are those of the plans that were read. -/
theorem mem_work (ht : t.Sound) (h : Ready c t r) {x : Job × Variant} : x ∈ r.work c ↔
    ∃ f p biome, r.Has f p biome ∧ x = (r.job c f p, r.variant c f biome) := by
  rw [Prepared.mem_work, jobs_eq ht h]
  simp only [List.mem_filterMap, job?_eq_some]
  constructor
  · rintro ⟨⟨f, hf, p, hp, hj⟩, hv⟩
    rw [hj] at hv
    obtain ⟨biome, hbiome, hv⟩ := List.mem_map.1 hv
    exact ⟨f, p, biome, ⟨hf, hp, hbiome⟩, Prod.ext hj hv.symm⟩
  · rintro ⟨f, p, biome, hhas, rfl⟩
    exact ⟨⟨f, hhas.found, p, hhas.read, rfl⟩, List.mem_map_of_mem hhas.biome⟩

/-- Every variant of a run has a site, and its file is a structure file. -/
theorem Ready.site (ht : t.Sound) (h : Ready c t r) {x : Job × Variant} (hx : x ∈ r.work c)
    (base : Location) :
    (x.2.site c.out base).At x.2.output ∧ (x.2.site c.out base).ForStructure := by
  obtain ⟨f, p, biome, hhas, rfl⟩ := (mem_work ht h).1 hx
  obtain ⟨dirs, file, hdirs, hfile, -, hrelative, -⟩ := h.exists_names ht hhas.found
  have hends := outputPath_endsIn c.out hdirs hfile (fileBiome_of_mem h hhas.biome)
  rw [← hrelative] at hends
  have hsite : (r.variant c f biome).site c.out base =
      ⟨c.out, base, dirs, outputName file biome⟩ := Site.ofPath_eq hends base
  dsimp only
  rw [hsite]
  exact ⟨hends, outputName_eq file biome⟩

/-- Two variants of a run have different outputs, or else belong to plans at different places. -/
theorem Ready.pairwise_work_of (ht : t.Sound) (h : Ready c t r)
    {R : Job × Variant → Job × Variant → Prop}
    (hown : ∀ x y, x.2.output.parts ≠ y.2.output.parts → R x y)
    (hother : ∀ f g p q b b', r.Has f p b → r.Has g q b' →
      (f.source c).parts ≠ (g.source c).parts →
        R (r.job c f p, r.variant c f b) (r.job c g q, r.variant c g b')) :
    (r.work c).Pairwise R := by
  rw [Prepared.work, List.pairwise_flatMap, jobs_eq ht h]
  constructor
  · intro j hj
    obtain ⟨f, hf, hj⟩ := List.mem_filterMap.1 hj
    obtain ⟨p, -, rfl⟩ := job?_eq_some.1 hj
    rw [List.pairwise_map, Prepared.job, List.pairwise_map]
    exact (pairwise_outputs ht h hf p).imp fun hne => hown _ _ hne
  · rw [List.pairwise_filterMap]
    refine (List.Pairwise.and_mem.1 (h.sources_ne ht)).imp ?_
    rintro f g ⟨hf, hg, hsource⟩ j hj k hk
    obtain ⟨p, hp, rfl⟩ := job?_eq_some.1 hj
    obtain ⟨q, hq, rfl⟩ := job?_eq_some.1 hk
    simp only [Prepared.job, List.forall_mem_map]
    exact fun b hb b' hb' => hother f g p q b b' ⟨hf, hp, hb⟩ ⟨hg, hq, hb'⟩ hsource

/-- Two variants without rivals have different outputs. -/
theorem Ready.pairwise_work (ht : t.Sound) (h : Ready c t r) : (r.work c).Pairwise fun x y =>
    x.2.rivals = [] → y.2.rivals = [] → x.2.output.parts ≠ y.2.output.parts := by
  refine h.pairwise_work_of ht (fun _ _ hne _ _ => hne) ?_
  intro f g p q b b' _ hg hsource hnone _ houtput
  have hother : g.source c ∈ r.others c f (outputPath c.out f.relative b) :=
    mem_others.2 ⟨g, hg.found, hsource.symm, ⟨q, hg.read, b', hg.biome, houtput.symm⟩, rfl⟩
  exact List.ne_nil_of_mem hother hnone

/-- Two variants without rivals have nothing in common. -/
theorem Ready.pairwise_own (ht : t.Sound) (h : Ready c t r) (base : Location) :
    (r.work c).Pairwise fun x y => x.2.rivals = [] → y.2.rivals = [] →
      ∀ l, (x.2.site c.out base).Own l → ¬ (y.2.site c.out base).Own l := by
  refine (h.pairwise_work ht).imp_of_mem fun {x y} hx hy hne hxr hyr l => ?_
  obtain ⟨hat, hstructure⟩ := h.site ht hx base
  obtain ⟨hat', hstructure'⟩ := h.site ht hy base
  refine Site.Own.disjoint hstructure hstructure' rfl fun hdirs hlast => hne hxr hyr ?_
  rw [Path.EndsIn.parts_eq hat, Path.EndsIn.parts_eq hat', hdirs, hlast]
  rfl

end Blueprint.Batch
