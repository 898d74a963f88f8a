import Blueprint.FileTree

/-!
# Computations on a file tree

What the operations of a disk do if the disk is a file tree, and which computations only read.
-/

namespace Blueprint

namespace FileTree

variable {α β ε : Type}

/-! ## Operations on a tree -/

/-- A computation and then another one, each in the tree that the one before it left. -/
theorem bind_apply (x : StateM FileTree α) (f : α → StateM FileTree β) (t : FileTree) :
    (x >>= f) t = f (x t).1 (x t).2 := rfl

theorem pure_apply (a : α) (t : FileTree) : (pure a : StateM FileTree α) t = (a, t) := rfl

theorem filesBelow_apply (p : Path) (t : FileTree) :
    (Disk.filesBelow p : StateM FileTree _) t = (t.filesBelow p, t) := rfl

theorem readFile_apply (p : Path) (t : FileTree) :
    (Disk.readFile p : StateM FileTree _) t = (t.readFile p, t) := rfl

theorem readDir_apply (p : Path) (t : FileTree) :
    (Disk.readDir p : StateM FileTree _) t = (t.readDir p, t) := rfl

theorem pathExists_apply (p : Path) (t : FileTree) :
    (Disk.pathExists p : StateM FileTree _) t = ((t.find? p).isSome, t) := rfl

theorem isDir_apply (p : Path) (t : FileTree) :
    (Disk.isDir p : StateM FileTree _) t = (t.find? p == some .directory, t) := rfl

theorem createDirAll_apply (p : Path) :
    (Disk.createDirAll p : StateM FileTree _) = update fun t => t.createDirAll p := rfl

/-- An operation that is refused leaves the tree as it is. -/
theorem update_apply (f : FileTree → Except FileError FileTree) (t : FileTree) :
    update f t =
      match f t with
      | .ok t' => (.ok (), t')
      | .error e => (.error e, t) := by
  change (match f t with | .ok t' => _ | .error e => _ : StateM FileTree _) t = _
  cases f t with
  | ok t' => rfl
  | error e => rfl

/-- What succeeds leaves the tree that it makes. -/
theorem update_of_ok {f : FileTree → Except FileError FileTree} {t t' : FileTree}
    (h : f t = .ok t') : update f t = (.ok (), t') := by
  rw [update_apply, h]

/-- What fails leaves the tree as it was. -/
theorem update_of_error {f : FileTree → Except FileError FileTree} {t : FileTree}
    {e : FileError} (h : f t = .error e) : update f t = (.error e, t) := by
  rw [update_apply, h]

/-- One thing is true after a failure, another after a success. -/
def After (failed done : FileTree → Prop) : Except FileError Unit → FileTree → Prop
  | .ok _ => done
  | .error _ => failed

/-! ## Reading -/

/-- A computation leaves all files as they are. -/
def Reads (x : StateM FileTree α) : Prop := ∀ t, (x t).2 = t

/-- To give a value changes nothing. -/
theorem reads_pure (a : α) : Reads (pure a : StateM FileTree α) := fun _ => rfl

/-- Neither do two computations that change nothing. -/
theorem Reads.bind {x : StateM FileTree α} {f : α → StateM FileTree β} (hx : Reads x)
    (hf : ∀ a, Reads (f a)) : Reads (x >>= f) :=
  fun t => (hf _ _).trans (hx t)

/-- Nor does one for each item of a list. -/
theorem Reads.mapM {f : α → StateM FileTree β} (hf : ∀ a, Reads (f a)) (l : List α) :
    Reads (l.mapM f) := by
  induction l with
  | nil => exact reads_pure _
  | cons a l ih =>
    rw [List.mapM_cons]
    exact (hf a).bind fun _ => ih.bind fun _ => reads_pure _

/-! A computation that may fail goes on only with a value. -/

/-- Nor does one that may fail and then another one. -/
theorem Reads.bindOk {x : ExceptT ε (StateM FileTree) α} {f : α → ExceptT ε (StateM FileTree) β}
    (hx : Reads x.run) (hf : ∀ a, Reads (f a).run) : Reads (x >>= f).run := by
  rw [ExceptT.run_bind]
  refine hx.bind fun outcome => ?_
  cases outcome with
  | error e => exact reads_pure _
  | ok a => exact hf a

/-- Nor does one that cannot fail, taken as one that may. -/
theorem Reads.lift {x : StateM FileTree α} (hx : Reads x) :
    Reads (liftM x : ExceptT ε (StateM FileTree) α).run := hx.bind fun _ => reads_pure _

/-- Nor do steps from one value to the next. -/
theorem Reads.foldlM {f : β → α → ExceptT ε (StateM FileTree) β} (hf : ∀ b a, Reads (f b a).run)
    (l : List α) (b : β) : Reads (l.foldlM f b).run := by
  induction l generalizing b with
  | nil => exact reads_pure _
  | cons a l ih => exact (hf b a).bindOk fun b => ih b

/-- Nor do questions about the items of a list. -/
theorem Reads.filterM {f : α → ExceptT ε (StateM FileTree) Bool} (hf : ∀ a, Reads (f a).run)
    (l : List α) : Reads (l.filterM f).run := by
  have hkept (kept : List α) : Reads (l.filterAuxM f kept).run := by
    induction l generalizing kept with
    | nil => exact reads_pure _
    | cons a l ih => exact (hf a).bindOk fun _ => ih _
  exact (hkept []).bindOk fun _ => reads_pure _

/-! ## Reading that may fail -/

/-- What comes of a computation on these files that may fail. -/
def outcome (x : ExceptT ε (StateM FileTree) α) (t : FileTree) : Except ε α := (x.run t).1

section

variable {x : ExceptT ε (StateM FileTree) α} {t : FileTree}

/-- A computation that changes nothing has an outcome, and that is all it has. -/
theorem run_of_reads (hx : Reads x.run) (t : FileTree) : x.run t = (outcome x t, t) :=
  Prod.ext rfl (hx t)

/-- If the first of two computations only reads, the second meets the same files. -/
theorem run_bind_of_reads {f : α → ExceptT ε (StateM FileTree) β} (hx : Reads x.run) :
    (x >>= f).run t =
      match outcome x t with
      | .ok a => (f a).run t
      | .error e => (.error e, t) := by
  rw [ExceptT.run_bind, bind_apply, run_of_reads hx]
  rcases outcome x t with e | a <;> rfl

/-- The outcome of two computations is that of the second one, unless the first one fails. -/
theorem outcome_bind {f : α → ExceptT ε (StateM FileTree) β} (hx : Reads x.run) :
    outcome (x >>= f) t = outcome x t >>= fun a => outcome (f a) t := by
  rw [outcome, run_bind_of_reads hx]
  rcases outcome x t with e | a <;> rfl

/-- The outcome of what cannot fail is its value. -/
theorem outcome_lift (y : StateM FileTree α) (t : FileTree) :
    outcome (liftM y : ExceptT ε (StateM FileTree) α) t = .ok (y t).1 := rfl

/-- Steps from one value to the next have the outcomes of the steps, one after another. -/
theorem outcome_foldlM {f : β → α → ExceptT ε (StateM FileTree) β}
    (hf : ∀ b a, Reads (f b a).run) (l : List α) (b : β) :
    outcome (l.foldlM f b) t = l.foldlM (fun b a => outcome (f b a) t) b := by
  induction l generalizing b with
  | nil => rfl
  | cons a l ih =>
    rw [List.foldlM_cons, List.foldlM_cons, outcome_bind (hf b a)]
    exact bind_congr fun b => ih b

/-- To keep what passes a test that cannot fail. -/
theorem outcome_filterM {f : α → ExceptT ε (StateM FileTree) Bool} {test : α → Bool}
    (hf : ∀ a, (f a).run t = (.ok (test a), t)) (l : List α) :
    outcome (l.filterM f) t = .ok (l.filter test) := by
  have hkept (kept : List α) :
      (l.filterAuxM f kept).run t = (.ok ((l.filter test).reverse ++ kept), t) := by
    induction l generalizing kept with
    | nil => rfl
    | cons a l ih =>
      rw [List.filterAuxM, ExceptT.run_bind, bind_apply, hf]
      refine (ih _).trans ?_
      cases htest : test a <;> simp [htest]
  rw [outcome, List.filterM, ExceptT.run_bind, bind_apply, hkept]
  simp [pure_apply]

end

/-- To read a text changes nothing. -/
theorem reads_readText (p : Path) : Reads (Disk.readText p) := by
  refine Reads.bind (fun _ => rfl) fun bytes => ?_
  cases bytes with
  | error e => exact reads_pure _
  | ok bytes =>
    dsimp only
    split
    · exact reads_pure _
    · exact reads_pure _

end FileTree

end Blueprint
