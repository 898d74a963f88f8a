import Blueprint.Disk

/-!
# Tasks

A task is a computation on a shared state that is carried out in steps. A step looks at the
state and changes it at one go; between two steps of a task others may change the state. So a
task is not a function of the state it begins with: `Task.run` says what it comes to if nobody
comes between its steps, and `Blueprint.Pool` lets several tasks take their steps in turns.

Over a state with a `Disk`, every operation on files is one step.
-/

namespace Blueprint

/-- A computation on a state of type `σ` that is carried out in steps. -/
inductive Task (σ α : Type) where
  /-- the computation is over -/
  | done (value : α)
  /-- one step: what it makes of the state, and how the task goes on, given the state before -/
  | act (effect : σ → σ) (next : σ → Task σ α)

namespace Task

variable {σ α β : Type}

/-- One task and then another, which may depend on the value of the first. -/
protected def bind : Task σ α → (α → Task σ β) → Task σ β
  | done a, f => f a
  | act effect next, f => act effect fun s => (next s).bind f

instance : Monad (Task σ) where
  pure := done
  bind := Task.bind

@[simp] theorem pure_eq (a : α) : (pure a : Task σ α) = done a := rfl

@[simp] theorem done_bind (a : α) (f : α → Task σ β) : (done a : Task σ α) >>= f = f a := rfl

@[simp] theorem act_bind (effect : σ → σ) (next : σ → Task σ α) (f : α → Task σ β) :
    act effect next >>= f = act effect fun s => next s >>= f := rfl

/-- The task of a single step. -/
def step (x : StateM σ α) : Task σ α := act (fun s => (x s).2) fun s => done (x s).1

/-- What a task comes to if nobody comes between its steps. -/
def run : Task σ α → StateM σ α
  | done a => pure a
  | act effect next => fun s => (next s).run (effect s)

instance [Disk (StateM σ)] : Disk (Task σ) where
  readFile p := step (Disk.readFile p)
  readDir p := step (Disk.readDir p)
  filesBelow p := step (Disk.filesBelow p)
  pathExists p := step (Disk.pathExists p)
  isFile p := step (Disk.isFile p)
  isDir p := step (Disk.isDir p)
  createDirAll p := step (Disk.createDirAll p)
  writeFile p bytes := step (Disk.writeFile p bytes)
  rename p q := step (Disk.rename p q)
  removeFile p := step (Disk.removeFile p)

end Task

end Blueprint
