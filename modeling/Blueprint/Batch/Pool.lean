import Blueprint.Batch
import Blueprint.FileTree
import Blueprint.Task
import Mathlib.Logic.Relation

/-!
# Doing jobs at the same time

The jobs of a run are done by a pool of tasks. They are started in their order, and never are
more of them under way than the settings allow: if there are as many, the next one waits until
the results of one that is over have been collected. Which task takes the next step, and which
of those that are over is collected first, is left open. Once all have been started the rest is
collected, and the summary is made of the results in the order in which they came in.

`Batch.run` does the jobs one after another, which is one way for the pool to go.
-/

namespace Blueprint

/-- Tasks on a shared state, started in their order and collected as they end. -/
structure Pool (σ α : Type) where
  /-- what the tasks share -/
  state : σ
  /-- the tasks that have not been started -/
  waiting : List (Task σ α)
  /-- the tasks that have been started and not been collected -/
  running : List (Task σ α)
  /-- the values of the tasks that have been collected, in the order of their collection -/
  collected : List α

namespace Pool

variable {σ α : Type}

/-- What can happen next in a pool in which `limit` tasks may be under way. -/
inductive Step (limit : Nat) : Pool σ α → Pool σ α → Prop where
  /-- the next task is started, if there is room for it -/
  | start {state : σ} {x : Task σ α} {waiting running : List (Task σ α)} {collected : List α}
      (room : running.length < limit) :
      Step limit ⟨state, x :: waiting, running, collected⟩
        ⟨state, waiting, running ++ [x], collected⟩
  /-- a task that was started takes a step -/
  | act {state : σ} {effect : σ → σ} {next : σ → Task σ α}
      {waiting before after : List (Task σ α)} {collected : List α} :
      Step limit ⟨state, waiting, before ++ .act effect next :: after, collected⟩
        ⟨effect state, waiting, before ++ next state :: after, collected⟩
  /-- a task that is over is collected, if room is needed or no task waits any more -/
  | collect {state : σ} {value : α} {waiting before after : List (Task σ α)}
      {collected : List α}
      (needed : waiting = [] ∨ limit ≤ (before ++ .done value :: after).length) :
      Step limit ⟨state, waiting, before ++ .done value :: after, collected⟩
        ⟨state, waiting, before ++ after, collected ++ [value]⟩

/-- What can become of a pool. -/
abbrev Steps (limit : Nat) : Pool σ α → Pool σ α → Prop := Relation.ReflTransGen (Step limit)

/-- The pool of these tasks before the first is started. -/
def ofTasks (state : σ) (tasks : List (Task σ α)) : Pool σ α := ⟨state, tasks, [], []⟩

/-- The pool whose tasks have all been collected. -/
def finished (state : σ) (collected : List α) : Pool σ α := ⟨state, [], [], collected⟩

end Pool

namespace Batch

/-- To keep no record of what happens. -/
def silent {m : Type → Type} [Monad m] : Event → m Unit := fun _ => pure ()

/-- What is known before the first job of a run: the biomes to make variants for, what all plans
share, and the plans that were found. -/
structure Prepared where
  /-- the biomes to make variants for -/
  selected : List String
  /-- what all plans share -/
  context : CompileContext
  /-- the plans that were found, in order -/
  found : List Found
  /-- the files, with the directory for the structures among them -/
  tree : FileTree

/-- Everything up to the first job. -/
def prepare (c : Config) (t : FileTree) : Except RunError Prepared :=
  match (start silent c : ExceptT RunError (StateM FileTree) _).run.run t with
  | (.ok (selected, plans, context), ready) =>
    let (found, tree) := (readPlans c plans : StateM FileTree _).run ready
    .ok ⟨selected, context, found, tree⟩
  | (.error e, _) => .error e

namespace Prepared

variable (r : Prepared) (c : Config)

/-- The jobs of the run. -/
def jobs : List Job := jobsOf c r.selected r.found

/-- The failures of the plans that were not read. -/
def unread : List Result := (r.found.filterMap (Found.failure? c)).map Except.error

/-- The tasks of the run, one for each job. -/
def tasks : List (Task FileTree (List Result)) :=
  (r.jobs c).map (Job.run silent r.context c.options)

/-- The run may end with this summary and these files. -/
def MayEnd (s : Summary) (t : FileTree) : Prop :=
  ∃ collected, Pool.Steps (max c.jobs 1) (.ofTasks r.tree (r.tasks c)) (.finished t collected) ∧
    s = .ofResults (r.unread c ++ collected.flatten)

end Prepared

end Batch

end Blueprint
