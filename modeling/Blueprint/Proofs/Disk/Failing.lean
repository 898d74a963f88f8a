import Blueprint.Proofs.Disk
import Blueprint.Proofs.FileTree.Location

/-!
# Operations that break off

On a file tree an operation is carried out as a whole or not at all. On a real disk it goes through
several trees and may break off at any of them: directories are made one after another, and a file
is there before all of its content is. A `FailingTree` is a file tree with operations of this kind.
It says which of them break off and how far they get, and it keeps every tree that was there at some
moment. If none breaks off, the operations do what they do on a file tree (`Mirrors`).
-/

namespace Blueprint

/-! ## Stages -/

/-- The parts of the directories that are made for a path, without a part `.` at its end. -/
def Path.dirParts (p : Path) : List Part :=
  if p.endsInHere then p.parts.dropLast else p.parts

namespace FileTree

/-- The trees on the way to the directories of a path: one part after another is made. -/
def dirStages (t : FileTree) (p : Path) : List FileTree :=
  (List.range p.dirParts.length).filterMap fun n =>
    (requirePath p >>= fun _ => t.makeDirs [] (p.dirParts.take (n + 1))).toOption

/-- The trees on the way to the content of a file: first there is no byte of it, then one byte
after another is written. -/
def writeStages (t : FileTree) (p : Path) (bytes : List UInt8) : List FileTree :=
  (List.range (bytes.length + 1)).filterMap fun n => (t.writeFile p (bytes.take n)).toOption

variable {t t' m : FileTree} {p : Path}

/-- The directories of a path are made from its parts, whether it ends in a dot or not. -/
theorem makeDirs_of_createDirAll (h : t.createDirAll p = .ok t') :
    t.makeDirs [] p.dirParts = .ok t' := by
  rw [createDirAll, Outcome.check_bind_eq_ok] at h
  obtain ⟨-, h⟩ := h
  rw [Path.dirParts]
  split at h
  next hhere =>
    obtain ⟨made, hmade, h⟩ := Outcome.bind_eq_ok.1 h
    obtain ⟨-, -, h⟩ := Outcome.bind_eq_ok.1 h
    rw [if_pos hhere, hmade, Except.ok.inj h]
  next hhere => rwa [if_neg hhere]

/-- On the way to the directories of a path the first parts of it are made. -/
theorem exists_of_mem_dirStages (h : m ∈ t.dirStages p) :
    ∃ first, first <+: p.dirParts ∧ t.makeDirs [] first = .ok m := by
  obtain ⟨n, -, hn⟩ := List.mem_filterMap.1 h
  obtain ⟨-, hmade⟩ := Outcome.check_bind_eq_ok.1 (Outcome.toOption_eq_some.1 hn)
  exact ⟨_, List.take_prefix _ _, hmade⟩

/-- On the way to the content of a file the first bytes of it are written. -/
theorem exists_of_mem_writeStages {bytes : List UInt8} (h : m ∈ t.writeStages p bytes) :
    ∃ n, t.writeFile p (bytes.take n) = .ok m := by
  obtain ⟨n, -, hn⟩ := List.mem_filterMap.1 h
  exact ⟨n, Outcome.toOption_eq_some.1 hn⟩

end FileTree

/-! ## Faults -/

/-- How an operation breaks off. -/
structure Fault where
  /-- the number of its stages that are reached -/
  progress : Nat
  /-- why it does not get further -/
  error : FileError
deriving DecidableEq, Repr

/-- Which operations break off. -/
structure Faults where
  /-- how directories are not made -/
  createDirs : Option Fault := none
  /-- how a file is not written -/
  write : Option Fault := none
  /-- how a file is not moved -/
  rename : Option Fault := none
  /-- how a file is not removed -/
  remove : Option Fault := none
deriving DecidableEq, Repr

/-- A file tree whose operations may break off, and the trees that were there before. -/
structure FailingTree where
  /-- what is there now -/
  tree : FileTree
  /-- what was there at earlier moments, the latest first -/
  past : List FileTree
  /-- what breaks off -/
  faults : Faults

namespace FailingTree

/-- Nothing has happened yet. -/
def start (t : FileTree) (faults : Faults) : FailingTree := ⟨t, [], faults⟩

/-- One stage is reached after another. -/
def through (s : FailingTree) (stages : List FileTree) : FailingTree :=
  stages.foldl (fun s t => { s with tree := t, past := s.tree :: s.past }) s

/-- A tree is there now or was there at an earlier moment. -/
def Saw (s : FailingTree) (t : FileTree) : Prop := t = s.tree ∨ t ∈ s.past

/-- An operation that goes through stages to its result, unless it breaks off at one of them or is
refused at once. What moves or removes a file does so in one step and has no stages. -/
def attempt (fault : Faults → Option Fault) (stages : FileTree → List FileTree)
    (f : FileTree → Except FileError FileTree) : StateM FailingTree (Except FileError Unit) :=
  fun s =>
    match fault s.faults, f s.tree with
    | some fault, _ => (.error fault.error, s.through ((stages s.tree).take fault.progress))
    | none, .ok t => (.ok (), s.through (stages s.tree ++ [t]))
    | none, .error e => (.error e, s)

instance : Disk (StateM FailingTree) where
  readFile p := return (← get).tree.readFile p
  readDir p := return (← get).tree.readDir p
  filesBelow p := return (← get).tree.filesBelow p
  pathExists p := return ((← get).tree.find? p).isSome
  isFile p := return (← get).tree.find? p matches some (.file _)
  isDir p := return (← get).tree.find? p == some .directory
  createDirAll p := attempt (·.createDirs) (fun t => t.dirStages p) fun t => t.createDirAll p
  writeFile p bytes :=
    attempt (·.write) (fun t => t.writeStages p bytes) fun t => t.writeFile p bytes
  rename p q := attempt (·.rename) (fun _ => []) fun t => t.rename p q
  removeFile p := attempt (·.remove) (fun _ => []) fun t => t.removeFile p

/-! ## What was there -/

variable {s s' : FailingTree} {t : FileTree} {stages : List FileTree} {p q : Path}

@[simp] theorem tree_start (t : FileTree) (faults : Faults) : (start t faults).tree = t := rfl

@[simp] theorem faults_start (t : FileTree) (faults : Faults) :
    (start t faults).faults = faults := rfl

/-- At the start there was no tree but the one that is there. -/
theorem saw_start {t' : FileTree} {faults : Faults} : (start t faults).Saw t' ↔ t' = t := by
  simp [Saw, start]

/-- What is there now is there at some moment. -/
theorem saw_tree (s : FailingTree) : s.Saw s.tree := .inl rfl

@[simp] theorem through_nil (s : FailingTree) : s.through [] = s := rfl

@[simp] theorem faults_through (s : FailingTree) (stages : List FileTree) :
    (s.through stages).faults = s.faults := by
  induction stages generalizing s with
  | nil => rfl
  | cons stage stages ih => exact ih _

@[simp] theorem tree_through_concat (s : FailingTree) (stages : List FileTree) (t : FileTree) :
    (s.through (stages ++ [t])).tree = t := by
  rw [through, List.foldl_append]
  rfl

/-- Going through stages adds these to the trees that were there. -/
theorem saw_through : (s.through stages).Saw t ↔ s.Saw t ∨ t ∈ stages := by
  induction stages generalizing s with
  | nil => simp
  | cons stage stages ih =>
    refine ih.trans ?_
    simp only [Saw, List.mem_cons]
    tauto

/-- What is true of every tree before the stages and of every stage is true at every moment. -/
theorem forall_saw_through {P : FileTree → Prop} (hs : ∀ t, s.Saw t → P t)
    (hstages : ∀ t ∈ stages, P t) : ∀ t, (s.through stages).Saw t → P t :=
  fun t ht => (saw_through.1 ht).elim (hs t) (hstages t)

/-- After the stages one of them is there, or what was there before if there are none. -/
theorem tree_through (s : FailingTree) (stages : List FileTree) :
    (s.through stages).tree = s.tree ∧ stages = [] ∨ (s.through stages).tree ∈ stages := by
  obtain rfl | ⟨init, last, rfl⟩ := stages.eq_nil_or_concat'
  · exact .inl ⟨rfl, rfl⟩
  · simp

/-- A computation and then another one, each from the tree that the one before it left. -/
theorem bind_apply {α β : Type} (x : StateM FailingTree α) (f : α → StateM FailingTree β)
    (s : FailingTree) : (x >>= f) s = f (x s).1 (x s).2 := rfl

/-! ## How operations end -/

/-- The ends of an operation: it breaks off, it is refused, or it is done. -/
inductive Ends (fault : Option Fault) (stages : List FileTree)
    (result : Except FileError FileTree) (s : FailingTree) :
    Except FileError Unit → FailingTree → Prop where
  /-- a fault breaks it off after the first stages -/
  | broken {f : Fault} (hfault : fault = some f) :
    Ends fault stages result s (.error f.error) (s.through (stages.take f.progress))
  /-- the tree refuses it, and nothing happens -/
  | refused {e : FileError} (hfault : fault = none) (hresult : result = .error e) :
    Ends fault stages result s (.error e) s
  /-- it goes through all stages -/
  | done {t : FileTree} (hfault : fault = none) (hresult : result = .ok t) :
    Ends fault stages result s (.ok ()) (s.through (stages ++ [t]))

variable {r : Except FileError Unit}

/-- An operation that may break off has one of these ends. -/
theorem ends_of_attempt {fault : Faults → Option Fault} {stages : FileTree → List FileTree}
    {f : FileTree → Except FileError FileTree} (h : attempt fault stages f s = (r, s')) :
    Ends (fault s.faults) (stages s.tree) (f s.tree) s r s' := by
  unfold attempt at h
  split at h <;> cases h
  next hfault => exact .broken hfault
  next hfault hresult => exact .done hfault hresult
  next hfault hresult => exact .refused hfault hresult

/-- What is done in one step is done as a whole or not at all. -/
theorem Ends.of_nil {fault : Option Fault} {result : Except FileError FileTree}
    (h : Ends fault [] result s r s') :
    (∃ t, result = .ok t ∧ fault = none ∧ r = .ok () ∧ s' = s.through [t]) ∨
      ∃ e, r = .error e ∧ s' = s ∧ (fault = none → result = .error e) := by
  cases h with
  | broken hfault => exact .inr ⟨_, rfl, by simp, by simp [hfault]⟩
  | refused hfault hresult => exact .inr ⟨_, rfl, rfl, fun _ => hresult⟩
  | done hfault hresult => exact .inl ⟨_, hresult, hfault, rfl, rfl⟩

/-- To make directories ends after some of them, or with all. -/
theorem ends_createDirAll (h : (Disk.createDirAll p : StateM FailingTree _) s = (r, s')) :
    Ends s.faults.createDirs (s.tree.dirStages p) (s.tree.createDirAll p) s r s' :=
  ends_of_attempt h

/-- To write a file ends after some of its bytes, or with all. -/
theorem ends_writeFile {bytes : List UInt8}
    (h : (Disk.writeFile p bytes : StateM FailingTree _) s = (r, s')) :
    Ends s.faults.write (s.tree.writeStages p bytes) (s.tree.writeFile p bytes) s r s' :=
  ends_of_attempt h

/-- To move a file has no stages. -/
theorem ends_rename (h : (Disk.rename p q : StateM FailingTree _) s = (r, s')) :
    Ends s.faults.rename [] (s.tree.rename p q) s r s' :=
  ends_of_attempt h

/-- Nor has removing one. -/
theorem ends_removeFile (h : (Disk.removeFile p : StateM FailingTree _) s = (r, s')) :
    Ends s.faults.remove [] (s.tree.removeFile p) s r s' :=
  ends_of_attempt h

/-! ## Without faults -/

variable {α β : Type}

/-- If nothing breaks off, a computation does the same as one on a file tree. -/
def Mirrors (x : StateM FailingTree α) (y : StateM FileTree α) : Prop :=
  ∀ s, s.faults = {} → (x s).1 = (y s.tree).1 ∧ (x s).2.tree = (y s.tree).2 ∧ (x s).2.faults = {}

/-- To give a value does the same to both trees. -/
theorem mirrors_pure (a : α) : Mirrors (pure a) (pure a) := fun _ h => ⟨rfl, rfl, h⟩

/-- Computations that do the same one after another do the same together. -/
theorem Mirrors.bind {x : StateM FailingTree α} {y : StateM FileTree α}
    {f : α → StateM FailingTree β} {g : α → StateM FileTree β} (hx : Mirrors x y)
    (hf : ∀ a, Mirrors (f a) (g a)) : Mirrors (x >>= f) (y >>= g) := by
  intro s hs
  obtain ⟨hvalue, htree, hfaults⟩ := hx s hs
  rw [bind_apply, FileTree.bind_apply, ← htree, ← hvalue]
  exact hf _ _ hfaults

/-- An operation that does not break off does what it does on a file tree. -/
theorem mirrors_attempt {fault : Faults → Option Fault} (hfault : fault {} = none)
    (stages : FileTree → List FileTree) (f : FileTree → Except FileError FileTree) :
    Mirrors (attempt fault stages f) (FileTree.update f) := by
  intro s hs
  rw [attempt, hs, hfault, FileTree.update_apply]
  cases f s.tree with
  | ok t => simp [hs]
  | error e => exact ⟨rfl, rfl, hs⟩

/-- So does making the directory that a path lies in. -/
theorem mirrors_createParent (p : Path) :
    Mirrors (Disk.createParent p) (Disk.createParent p) := by
  unfold Disk.createParent
  split
  · exact mirrors_attempt rfl _ _
  · exact mirrors_pure _

/-- If nothing breaks off, writing a file in one move does what it does on a file tree. -/
theorem mirrors_writeAtomic (p : Path) (bytes : List UInt8) :
    Mirrors (Disk.writeAtomic p bytes) (Disk.writeAtomic p bytes) := by
  refine (mirrors_createParent p).bind fun made => ?_
  cases made with
  | error e => exact mirrors_pure _
  | ok _ =>
    refine (mirrors_attempt rfl _ _).bind fun written => ?_
    cases written with
    | error e => exact mirrors_pure _
    | ok _ =>
      refine (mirrors_attempt rfl _ _).bind fun moved => ?_
      cases moved with
      | ok _ => exact mirrors_pure _
      | error e => exact (mirrors_attempt rfl _ _).bind fun _ => mirrors_pure _

end FailingTree

end Blueprint
