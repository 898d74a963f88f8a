import Blueprint.Proofs.Batch.Ending
import Blueprint.Proofs.Batch.Prevented
import Blueprint.Proofs.Batch.Scheduled
import Blueprint.Proofs.Batch.Written
import Blueprint.Proofs.Plan.Bounds

/-!
# Runs that fail, and runs that do not

If something is wrong with what all plans share, a run fails before it has made anything. If not, it
comes to an end whatever is in the files of the plans, and every plan fails or succeeds on its own
(`Batch.prevented_or_processed`).
-/

namespace Blueprint.Batch

open FileTree

variable {c : Config} {t t' : FileTree} {r : Prepared} {s : Summary}

/-- How a plan that was read is reported on in a biome that it is made for. -/
inductive Reported (c : Config) (r : Prepared) (s : Summary) (t' : FileTree) (f : Found) (p : Plan)
    (biome : Option String) : Prop where
  /-- there are other plans for its output: it fails because of them -/
  | clash (others : r.others c f (outputPath c.out f.relative biome) ≠ [])
      (listed : ⟨f.source c, biome, .schema (.clash (outputPath c.out f.relative biome).text
        ((r.others c f (outputPath c.out f.relative biome)).map Path.text))⟩ ∈ s.failures)
  /-- there are none, but it does not compile, or not to what can be encoded: that is the failure -/
  | failed {e : PlanError} (others : r.others c f (outputPath c.out f.relative biome) = [])
      (bytes_eq : (r.variant c f biome).bytes (p.compile biome r.context c.options) = .error e)
      (listed : ⟨f.source c, biome, e⟩ ∈ s.failures)
  /-- there are bytes for its output, but to write them fails -/
  | unwritten {bytes : List UInt8} {e : FileError}
      (others : r.others c f (outputPath c.out f.relative biome) = [])
      (bytes_eq : (r.variant c f biome).bytes (p.compile biome r.context c.options) = .ok bytes)
      (listed : ⟨f.source c, biome, .file (outputPath c.out f.relative biome).text e⟩ ∈ s.failures)
  /-- there are bytes for its output, and in the end it holds them -/
  | written {bytes : List UInt8}
      (others : r.others c f (outputPath c.out f.relative biome) = [])
      (bytes_eq : (r.variant c f biome).bytes (p.compile biome r.context c.options) = .ok bytes)
      (listed : ⟨f.source c, biome, outputPath c.out f.relative biome⟩ ∈ s.compiled)
      (read : t'.readFile (outputPath c.out f.relative biome) = .ok bytes)

/-- What a run has made of the plans that were found, each of them on its own. -/
structure Processed (c : Config) (r : Prepared) (s : Summary) (t' : FileTree) : Prop where
  /-- the results are about the plans that were found, each in the biomes it is made for -/
  keys : (s.compiled.map Compiled.key ++ s.failures.map PlanFailure.key).Perm
    (r.found.flatMap (Found.keys c r.selected))
  /-- a plan that was not read fails with the reason -/
  unread : ∀ f ∈ r.found, ∀ e, f.read = .error e → ⟨f.source c, none, e⟩ ∈ s.failures
  /-- a plan that was read is reported on in each of its biomes -/
  reported : ∀ f p biome, r.Has f p biome → Reported c r s t' f p biome
  /-- it ends as if it was the only plan, if no output stands in the way of another one -/
  alone : r.Apart c → ∀ f p biome, r.Has f p biome →
    (r.job c f p).result (r.variant c f biome)
      (r.alone c (r.job c f p, r.variant c f biome)).1 ∈
        s.compiled.map Except.ok ++ s.failures.map Except.error
  /-- it is not moved unless it fits its box, so that nothing overflows -/
  movesExactly : ∀ f p biome, r.Has f p biome → ∀ bound, p.authored biome r.context = .ok bound →
    bound.MovesExactly (.rotate c.options.rotation) ∧
      (bound.step (.rotate c.options.rotation)).MovesExactly (.mirror c.options.mirror)

/-- However a run ends that was ready, its plans are processed. -/
theorem Ready.processed (ht : t.Sound) (h : Ready c t r) (hend : r.MayEnd c s t') :
    Processed c r s t' := by
  obtain ⟨collected, hsteps, rfl⟩ := hend
  obtain ⟨base, hbase, hended⟩ := h.ended ht hsteps
  have hresults := Summary.perm_ofResults (r.unread c ++ collected.flatten)
  constructor
  -- summing up sorts the results and keeps each of them, so the keys are those of the run
  · have hkeys := hresults.map Result.key
    rw [Summary.keys_eq] at hkeys
    exact hkeys.trans (perm_results hsteps)
  · intro f hf e hread
    have hfailure : f.failure? c = some ⟨f.source c, none, e⟩ := by
      rw [Found.failure?, hread]
      rfl
    rw [Summary.mem_failures]
    apply List.mem_append_left
    exact List.mem_map_of_mem (List.mem_filterMap.2 ⟨f, hf, hfailure⟩)
  · intro f p biome hhas
    have hx := (mem_work ht h).2 ⟨f, p, biome, hhas, rfl⟩
    have hat := (h.site ht hx base).1
    obtain ⟨outcome, hmem, hends⟩ := hended.made _ hx
    have hmem := List.mem_append_right (r.unread c) hmem
    cases hends with
    | clash rivals => exact .clash rivals (Summary.mem_failures.2 hmem)
    | failed rivals bytes_eq => exact .failed rivals bytes_eq (Summary.mem_failures.2 hmem)
    | unwritten rivals bytes_eq => exact .unwritten rivals bytes_eq (Summary.mem_failures.2 hmem)
    | written rivals bytes_eq done =>
      exact .written rivals bytes_eq (Summary.mem_compiled.2 hmem) (done.readFile hat)
  -- alone in its place, each variant ends as it does when it runs by itself
  · intro hapart f p biome hhas
    have hx := (mem_work ht h).2 ⟨f, p, biome, hhas, rfl⟩
    have hleft := (h.left ht hapart hbase hsteps).1
    apply hresults.symm.subset
    apply List.mem_append_right
    apply hleft.symm.subset
    exact List.mem_map_of_mem hx
  -- the authored plan passes the bounds, so no turn leaves the range of the numbers
  · intro f p biome _ bound hauthored
    obtain ⟨-, hbounds, -⟩ := Plan.authored_eq_ok.1 hauthored
    exact ⟨Plan.movesExactly hbounds _, Plan.movesExactly (Plan.checkBounds_step hbounds _) _⟩

/-! ## The whole run -/

/-- **Failures of a run and failures of plans.** A run fails only if something is wrong with what
all plans share, and then all files are as before, unless it was the directory for the structures
that could not be made. Otherwise, whatever is in the files of the plans, the jobs come to an end
in whatever way they take turns, and every plan is processed on its own. -/
theorem prevented_or_processed (c : Config) (ht : t.Sound) :
    (∃ e t', (run (m := StateM FileTree) silent c).run t = (.error e, t') ∧
      prepare c t = .error e ∧ Prevents c t e ∧
      ((∀ failed, e ≠ .output c.out failed) → t' = t)) ∨
    (∀ e, ¬ Prevents c t e) ∧
      ∃ r s t', (run (m := StateM FileTree) silent c).run t = (.ok s, t') ∧
        prepare c t = .ok r ∧ Ready c t r ∧ r.MayEnd c s t' ∧
        Pool.Finishes (max c.jobs 1) (.ofTasks r.tree (r.tasks c)) ∧
        ∀ s t', r.MayEnd c s t' → Processed c r s t' := by
  rcases start_cases c t with ⟨e, t', hstart, hprevents, hsame⟩ | ⟨hnone, inputs, ready, hstart⟩
  · obtain ⟨hrun, hprepare⟩ := run_of_start_error hstart
    exact .inl ⟨e, t', hrun, hprepare, hprevents, hsame⟩
  · obtain ⟨s, t', hrun⟩ := exists_run_of_start hstart
    obtain ⟨r, hprepare, hend⟩ := mayEnd_of_run hrun
    have h := ready_of_prepare hprepare
    exact .inr ⟨hnone, r, s, t', hrun, hprepare, h, hend,
      Pool.finishes (Nat.le_max_right _ _) _, fun s t' hend => h.processed ht hend⟩

/-- Made alone, the structure of the field is written. -/
theorem alone_field : (hamletReady.alone hamletConfig
    (hamletReady.job hamletConfig ⟨⟨"field.json"⟩, .ok cell⟩ cell,
      hamletReady.variant hamletConfig ⟨⟨"field.json"⟩, .ok cell⟩ none)).1 = .ok () := by
  decide +kernel

/-- The torn plan of the hamlet does not keep the others from being built: the field is. -/
theorem prevented_or_processed_hamlet : hamlet.Sound ∧
    (∀ e, ¬ Prevents hamletConfig hamlet e) ∧
      ∃ s t', (run (m := StateM FileTree) silent hamletConfig).run hamlet = (.ok s, t') ∧
        prepare hamletConfig hamlet = .ok hamletReady ∧
        Processed hamletConfig hamletReady s t' ∧
        ⟨⟨"plans/torn.json"⟩, none, .malformed⟩ ∈ s.failures ∧
        ⟨⟨"plans/field.json"⟩, none, ⟨"out/field.bin"⟩⟩ ∈ s.compiled := by
  rcases prevented_or_processed hamletConfig hamlet_sound with
    ⟨e, t', -, hprepare, -⟩ | ⟨hnone, r, s, t', hrun, hprepare, -, hend, -, hall⟩
  -- the hamlet prepares, which rules out the first half of the theorem
  · rw [prepare_hamlet] at hprepare
    cases hprepare
  · obtain rfl : hamletReady = r := Except.ok.inj (prepare_hamlet.symm.trans hprepare)
    have h := hall s t' hend
    refine ⟨hamlet_sound, hnone, s, t', hrun, hprepare, h, ?_, ?_⟩
    · exact h.unread ⟨⟨"torn.json"⟩, .error .malformed⟩ (by simp [hamletReady]) .malformed rfl
    · have hhas : hamletReady.Has ⟨⟨"field.json"⟩, .ok cell⟩ cell none :=
        ⟨List.mem_cons_self, rfl, List.mem_singleton_self none⟩
      -- no other plan is in its way: the field ends as it does alone, which is compiled
      have hresult := h.alone apart_hamlet _ _ _ hhas
      rw [alone_field] at hresult
      rcases List.mem_append.1 hresult with hmem | hmem
      · obtain ⟨k, hk, heq⟩ := List.mem_map.1 hmem
        cases heq
        exact hk
      · obtain ⟨k, -, heq⟩ := List.mem_map.1 hmem
        cases heq

end Blueprint.Batch
