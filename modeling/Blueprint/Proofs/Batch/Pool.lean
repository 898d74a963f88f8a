import Blueprint.Batch.Pool
import Blueprint.Proofs.Task
import Mathlib.Data.List.Perm.Basic

/-!
# What a pool comes to

However the tasks of a pool take turns, no task is lost and none is done twice: at every moment
the tasks that wait, those under way and those that were collected are the ones the pool began
with. So if the tasks keep terms that fit together, they all end as they promise, and what they
promise holds together once the last is collected (`Pool.promised_of_finished`).

To do the tasks one after another is one of the ways a pool can go, whatever its limit
(`Pool.steps_run`), and it is how `Batch.run` does its jobs (`Batch.mayEnd_of_run`).
-/

namespace Blueprint

namespace Pool

variable {σ α ι : Type} {limit : Nat}

/-! ## Every way a pool can go -/

/-- All tasks of a pool. One that was collected counts as a task that is over. -/
def tasks (p : Pool σ α) : List (Task σ α) := p.waiting ++ p.running ++ p.collected.map .done

/-- What is left to do with the tasks of a pool besides their own steps: a task that waits is to
be started and collected, a task under way to be collected. -/
def moves (p : Pool σ α) : Nat := 2 * p.waiting.length + p.running.length

/-- What happens in a pool only moves tasks on, unless it is the step of one of them. -/
theorem tasks_of_step {p p' : Pool σ α} (h : Step limit p p') :
    (p'.state = p.state ∧ p.tasks.Perm p'.tasks ∧ p'.moves < p.moves) ∨
      ∃ effect next others, p.tasks.Perm (.act effect next :: others) ∧
        p'.tasks.Perm (next p.state :: others) ∧ p'.state = effect p.state := by
  cases h with
  -- a task that starts moves from the waiting ones to the running ones
  | @start state x waiting running collected room =>
    refine .inl ⟨rfl, ?_, ?_⟩
    · have hmoved : (x :: (waiting ++ running)).Perm (waiting ++ (running ++ [x])) := by
        rw [← List.append_assoc]
        exact (List.perm_append_singleton x _).symm
      exact hmoved.append_right (collected.map .done)
    · simp only [moves, List.length_cons, List.length_append, List.length_nil]
      omega
  | @act state effect next waiting before after collected =>
    refine .inr ⟨effect, next, waiting ++ before ++ (after ++ collected.map .done), ?_, ?_, rfl⟩
    all_goals simpa [tasks] using @List.perm_middle _ _ (waiting ++ before) _
  | @collect state value waiting before after collected needed =>
    refine .inl ⟨rfl, ?_, ?_⟩
    -- a value that is collected leaves the running ones as a task that is done
    · have hmoved : (.done value :: (after ++ collected.map .done)).Perm
          (after ++ (collected ++ [value]).map (Task.done (σ := σ))) := by
        rw [List.map_append, ← List.append_assoc]
        exact (List.perm_append_singleton _ _).symm
      simpa [tasks] using hmoved.append_left (waiting ++ before)
    · simp only [moves, List.length_cons, List.length_append]
      omega

/-- If two lists are related entry by entry, the entries of one may be taken in another order,
as long as those of the other list are too. -/
theorem forall₂_of_perm {r : ι → α → Prop} {l : List ι} {xs ys : List α}
    (h : List.Forall₂ r l xs) (hxs : xs.Perm ys) : ∃ l', l'.Perm l ∧ List.Forall₂ r l' ys := by
  have hcomp : Relation.Comp (List.Forall₂ r) List.Perm l ys := ⟨xs, h, hxs⟩
  rw [List.forall₂_comp_perm_eq_perm_comp_forall₂] at hcomp
  obtain ⟨l', hl, h'⟩ := hcomp
  exact ⟨l', hl.symm, h'⟩

section Terms

variable (terms : ι → Terms σ) (promised : ι → α → σ → Prop) {l : List ι}

/-- Each task of the pool keeps the terms of its owner. -/
def Accounted (l : List ι) (p : Pool σ α) : Prop :=
  ∃ owners, owners.Perm l ∧
    List.Forall₂ (fun i x => x.Keeps (terms i) (promised i) p.state) owners p.tasks

variable {terms promised} in
/-- A step of one task stays within its guarantee, and the others keep their terms. -/
theorem Accounted.of_step (hfits : l.Pairwise fun i j => (terms i).Fits (terms j))
    {p p' : Pool σ α} (h : Accounted terms promised l p) (hstep : Step limit p p') :
    Accounted terms promised l p' ∧
      (p.state = p'.state ∨ ∃ i ∈ l, (terms i).guarantee p.state p'.state) := by
  obtain ⟨owners, howners, hkeeps⟩ := h
  obtain ⟨hstate, hmoved, -⟩ | ⟨effect, next, others, hold, hnew, hstate⟩ := tasks_of_step hstep
  · obtain ⟨owners', howners', hkeeps'⟩ := forall₂_of_perm hkeeps hmoved
    exact ⟨⟨owners', howners'.trans howners, hstate ▸ hkeeps'⟩, .inl hstate.symm⟩
  · obtain ⟨owners', howners', hkeeps'⟩ := forall₂_of_perm hkeeps hold
    obtain ⟨i, rest, hacting, hothers, rfl⟩ := List.forall₂_cons_right_iff.1 hkeeps'
    have hperm : (i :: rest).Perm l := howners'.trans howners
    have hpairs := (hperm.pairwise_iff fun h => h.symm).2 hfits
    obtain ⟨hown, hnext⟩ := Task.keeps_act.1 hacting p.state .refl
    have hguarantee : (terms i).guarantee p.state p'.state := hstate ▸ hown
    -- to the owners of the other tasks the step is one of those they rely on
    have hlater :
        List.Forall₂ (fun j x => x.Keeps (terms j) (promised j) p'.state) rest others := by
      refine List.forall₂_iff_zip.2 ⟨hothers.length_eq, fun {j x} hjx => ?_⟩
      have hfit := (List.pairwise_cons.1 hpairs).1 j (List.of_mem_zip hjx).1
      exact ((List.forall₂_iff_zip.1 hothers).2 hjx).later (.single (hfit.1 _ _ hguarantee))
    obtain ⟨owners'', howners'', hkeeps''⟩ :=
      forall₂_of_perm (.cons (hstate ▸ hnext) hlater) hnew.symm
    exact ⟨⟨owners'', howners''.trans hperm, hkeeps''⟩,
      .inr ⟨i, hperm.subset List.mem_cons_self, hguarantee⟩⟩

/-- **Tasks at the same time.** Tasks whose terms fit together all end with what they promise,
and what they promise is true when all are over. Meanwhile nothing happens to the state but
what their guarantees allow. -/
theorem promised_of_finished {make : ι → Task σ α} {s s' : σ} {collected : List α}
    (hfits : l.Pairwise fun i j => (terms i).Fits (terms j))
    (h : ∀ i ∈ l, (make i).Keeps (terms i) (promised i) s)
    (hsteps : Steps limit (.ofTasks s (l.map make)) (.finished s' collected)) :
    (∃ owners, owners.Perm l ∧ List.Forall₂ (fun i a => promised i a s') owners collected) ∧
      Relation.ReflTransGen (fun s s' => ∃ i ∈ l, (terms i).guarantee s s') s s' := by
  -- the induction is over the steps: each keeps every promise and moves the state by one guarantee
  have hrun (p : Pool σ α) (hp : Steps limit (.ofTasks s (l.map make)) p) :
      Accounted terms promised l p ∧
        Relation.ReflTransGen (fun s s' => ∃ i ∈ l, (terms i).guarantee s s') s p.state := by
    induction hp with
    | refl =>
      refine ⟨⟨l, .refl l, ?_⟩, .refl⟩
      simpa [ofTasks, tasks, List.forall₂_map_right_iff, List.forall₂_same] using h
    | tail _ hstep ih =>
      obtain ⟨hnext, hstate⟩ := ih.1.of_step hfits hstep
      refine ⟨hnext, ?_⟩
      rcases hstate with hsame | hguarantee
      · exact hsame ▸ ih.2
      · exact ih.2.tail hguarantee
  obtain ⟨⟨owners, howners, hkeeps⟩, hstate⟩ := hrun _ hsteps
  refine ⟨⟨owners, howners, ?_⟩, hstate⟩
  -- at the end every task left is a value, and a value keeps its own promise at once
  have hvalues : List.Forall₂ (fun i a => (Task.done a).Keeps (terms i) (promised i) s')
      owners collected := by
    simpa [finished, tasks, List.forall₂_map_right_iff] using hkeeps
  exact hvalues.imp fun i a hdone => Task.keeps_done.1 hdone s' .refl

end Terms

/-! ## One after another -/

/-- A task that was started can go on to its end. -/
theorem steps_task {s : σ} {waiting before after : List (Task σ α)} {collected : List α}
    (x : Task σ α) :
    Steps limit ⟨s, waiting, before ++ x :: after, collected⟩
      ⟨(x.run s).2, waiting, before ++ .done (x.run s).1 :: after, collected⟩ := by
  induction x generalizing s with
  | done a => exact .refl
  | act effect next ih => exact .head .act (ih s)

/-- If no task waits any more and all are over, they can be collected in their order. -/
theorem steps_collect {s : σ} (values collected : List α) :
    Steps limit ⟨s, [], values.map .done, collected⟩ (.finished s (collected ++ values)) := by
  induction values generalizing collected with
  | nil => simpa [finished] using Relation.ReflTransGen.refl
  | cons a values ih =>
    have hcollect : Step limit ⟨s, [], (a :: values).map .done, collected⟩
        ⟨s, [], values.map .done, collected ++ [a]⟩ :=
      @Step.collect σ α limit s a [] [] (values.map .done) collected (.inl rfl)
    refine .head hcollect ?_
    simpa using ih (collected ++ [a])

/-- Tasks are run one after another, each in the state that the one before it left. -/
theorem mapM_run_cons (x : Task σ α) (tasks : List (Task σ α)) (s : σ) :
    (x :: tasks).mapM Task.run s =
      ((x.run s).1 :: (tasks.mapM Task.run (x.run s).2).1,
        (tasks.mapM Task.run (x.run s).2).2) := by
  rw [List.mapM_cons]
  rfl

/-- **One after another.** Whatever the limit, a pool can go through its tasks in their order,
each of them undisturbed. -/
theorem steps_run (hlimit : 1 ≤ limit) (tasks : List (Task σ α)) (s : σ) :
    Steps limit (.ofTasks s tasks)
      (.finished (tasks.mapM Task.run s).2 (tasks.mapM Task.run s).1) := by
  -- the tasks under way are all over, and the one that was started first is collected next
  suffices hover : ∀ (values collected : List α) (s : σ), values.length ≤ limit →
      Steps limit ⟨s, tasks, values.map .done, collected⟩
        (.finished (tasks.mapM Task.run s).2
          (collected ++ values ++ (tasks.mapM Task.run s).1)) by
    simpa [ofTasks] using hover [] [] s (Nat.zero_le limit)
  induction tasks with
  | nil =>
    intro values collected s _
    have hnil : ([] : List (Task σ α)).mapM Task.run s = ([], s) := rfl
    rw [hnil, List.append_nil]
    exact steps_collect values collected
  | cons x tasks ih =>
    have hstarted (values collected : List α) (s : σ) (hroom : values.length < limit) :
        Steps limit ⟨s, x :: tasks, values.map .done, collected⟩
          (.finished ((x :: tasks).mapM Task.run s).2
            (collected ++ values ++ ((x :: tasks).mapM Task.run s).1)) := by
      have hrest := ih (values ++ [(x.run s).1]) collected (x.run s).2
        (by simpa using Nat.succ_le_of_lt hroom)
      refine .head (.start (by simpa using hroom)) ((steps_task x).trans ?_)
      simpa [mapM_run_cons] using hrest
    intro values collected s hvalues
    rcases Nat.lt_or_eq_of_le hvalues with hroom | hfull
    · exact hstarted values collected s hroom
    · cases values with
      | nil => simp at hfull; omega
      | cons a values =>
        simp only [List.length_cons] at hfull
        have hcollect : Step limit ⟨s, x :: tasks, (a :: values).map .done, collected⟩
            ⟨s, x :: tasks, values.map .done, collected ++ [a]⟩ :=
          @Step.collect σ α limit s a (x :: tasks) [] (values.map .done) collected
            (.inr (by simp [hfull]))
        refine .head hcollect ?_
        simpa using hstarted values (collected ++ [a]) s (by omega)

/-- Two tasks may also go the other way round, if both may be under way. -/
theorem steps_swapped (hlimit : 2 ≤ limit) (x y : Task σ α) (s : σ) :
    Steps limit (.ofTasks s [x, y])
      (.finished ([y, x].mapM Task.run s).2 ([y, x].mapM Task.run s).1.reverse) := by
  have hsecond : Steps limit ⟨s, [], [x, y], []⟩ ⟨(y.run s).2, [], [x, .done (y.run s).1], []⟩ :=
    @steps_task σ α limit s [] [x] [] [] y
  have hfirst := @steps_task σ α limit (y.run s).2 [] [] [.done (y.run s).1] [] x
  have hover := @steps_collect σ α limit (x.run (y.run s).2).2
    [(x.run (y.run s).2).1, (y.run s).1] []
  refine .head (.start (Nat.lt_of_lt_of_le Nat.zero_lt_two hlimit))
    (.head (.start (Nat.lt_of_lt_of_le Nat.one_lt_two hlimit)) ?_)
  exact hsecond.trans (hfirst.trans hover)

end Pool

end Blueprint
