import Blueprint.Proofs.Batch.Pool
import Mathlib.Logic.Hydra

/-!
# Pools come to an end

A task has finitely many steps however the state changes between them, though there is no bound
on their number that holds for all states. So a pool cannot go on forever whatever turns its
tasks take, and it cannot get stuck either: as long as a task waits or is under way, something
can happen (`Pool.finishes`).
-/

namespace Blueprint

namespace Task

variable {σ α : Type}

/-- The first task is what the second may go on with after a step. -/
inductive Continues : Task σ α → Task σ α → Prop where
  | step {effect : σ → σ} {next : σ → Task σ α} (s : σ) : Continues (next s) (.act effect next)

/-- A task comes to its end, whatever states its steps find. -/
theorem wellFounded_continues : WellFounded (Continues (σ := σ) (α := α)) := by
  refine ⟨fun x => ?_⟩
  induction x with
  | done a =>
    refine .intro _ fun y h => ?_
    cases h
  | act effect next ih =>
    refine .intro _ fun y h => ?_
    cases h with
    | step s => exact ih s

end Task

namespace Pool

variable {σ α : Type} {limit : Nat}

/-- Whatever happens next, and then and so on, in the end all tasks are collected. -/
inductive Finishes (limit : Nat) : Pool σ α → Prop where
  /-- all tasks have been collected -/
  | finished (s : σ) (collected : List α) : Finishes limit (.finished s collected)
  /-- something can happen, and whatever does leads to an end -/
  | step {p : Pool σ α} (goesOn : ∃ p', Step limit p p')
      (ends : ∀ p', Step limit p p' → Finishes limit p') : Finishes limit p

/-- The tasks of a pool and the moves that are left for them. -/
def remaining (p : Pool σ α) : Multiset (Task σ α) × Nat := (p.tasks, p.moves)

/-- A step of the pool is a step of one task, which the others do not feel, or a move. -/
theorem remaining_of_step {p p' : Pool σ α} (h : Step limit p p') :
    Prod.Lex (Relation.CutExpand Task.Continues) (· < ·) p'.remaining p.remaining := by
  obtain ⟨-, hmoved, hless⟩ | ⟨effect, next, others, hold, hnew, -⟩ := tasks_of_step h
  · have hsame : (p'.tasks : Multiset (Task σ α)) = p.tasks := (Multiset.coe_eq_coe.2 hmoved).symm
    rw [remaining, remaining, hsame]
    exact .right _ hless
  · refine .left _ _ ⟨{next p.state}, .act effect next, ?_, ?_⟩
    · intro x hx
      rw [Multiset.mem_singleton.1 hx]
      exact .step p.state
    · rw [Multiset.coe_eq_coe.2 hold, Multiset.coe_eq_coe.2 hnew, ← Multiset.cons_coe,
        ← Multiset.cons_coe, ← Multiset.singleton_add, ← Multiset.singleton_add, add_comm,
        add_comm {next p.state}, add_assoc]

/-- No pool takes steps without an end. -/
theorem wellFounded_step (limit : Nat) :
    WellFounded fun p' p : Pool σ α => Step limit p p' := by
  have hlex : WellFounded (Prod.Lex (Relation.CutExpand (Task.Continues (σ := σ) (α := α)))
      ((· < ·) : Nat → Nat → Prop)) :=
    Task.wellFounded_continues.cutExpand.prod_lex Nat.lt_wfRel.wf
  exact Subrelation.wf (fun h => remaining_of_step h) (InvImage.wf remaining hlex)

/-- As long as a task waits or is under way, something can happen. -/
theorem exists_step (hlimit : 1 ≤ limit) {p : Pool σ α} (h : p.waiting ≠ [] ∨ p.running ≠ []) :
    ∃ p', Step limit p p' := by
  obtain ⟨state, waiting, running, collected⟩ := p
  cases running with
  | nil =>
    cases waiting with
    | nil => exact absurd h (by simp)
    | cons x waiting => exact ⟨_, .start hlimit⟩
  | cons y running =>
    cases y with
    | act effect next => exact ⟨_, @Step.act σ α limit state effect next waiting [] running _⟩
    -- a result waits until nothing can start, because nothing waits or no place is free
    | done value =>
      have hcollect (needed : waiting = [] ∨ limit ≤ (.done value :: running).length) :=
        @Step.collect σ α limit state value waiting [] running collected needed
      cases waiting with
      | nil => exact ⟨_, hcollect (.inl rfl)⟩
      | cons x waiting =>
        rcases Nat.lt_or_ge (Task.done (σ := σ) value :: running).length limit with hroom | hfull
        · exact ⟨_, .start hroom⟩
        · exact ⟨_, hcollect (.inr hfull)⟩

/-- **Pools come to an end**, whatever turns their tasks take. -/
theorem finishes (hlimit : 1 ≤ limit) (p : Pool σ α) : Finishes limit p := by
  induction p using (wellFounded_step limit).induction with
  | _ p ih =>
    by_cases hdone : p.waiting = [] ∧ p.running = []
    · obtain ⟨state, waiting, running, collected⟩ := p
      obtain ⟨rfl, rfl⟩ : waiting = [] ∧ running = [] := hdone
      exact .finished state collected
    · exact .step (exists_step hlimit (not_and_or.1 hdone)) ih

end Pool

end Blueprint
