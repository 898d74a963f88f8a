import Blueprint.Task
import Mathlib.Data.List.Forall2
import Mathlib.Logic.Relation

/-!
# Tasks among others

Whoever shares a state has to say what may be done to it. The *terms* of a task are a relation
between states that the steps of the others stay within, its *rely*, and one that its own steps
stay within, its *guarantee*. `Task.Keeps` says that from a state on, as long as the others stay
within the rely, the task stays within the guarantee and ends with what it promises; and what it
promises stays true whatever the others do after that.

The terms of two tasks fit together if the guarantee of each lies within the rely of the other.
Tasks that are done one after another are a special case: `keeps_mapM` asks of them what would be
asked if they were done at the same time.
-/

namespace Blueprint

/-- What a task may expect of others that share its state, and what they may expect of it. -/
structure Terms (σ : Type) where
  /-- what a step of the others may do -/
  rely : σ → σ → Prop
  /-- what a step of the task may do -/
  guarantee : σ → σ → Prop

namespace Terms

variable {σ : Type}

/-- Neither of two tasks does what the other does not expect. -/
def Fits (a b : Terms σ) : Prop :=
  (∀ s s', a.guarantee s s' → b.rely s s') ∧ ∀ s s', b.guarantee s s' → a.rely s s'

/-- Terms fit each other both ways. -/
theorem Fits.symm {a b : Terms σ} (h : a.Fits b) : b.Fits a := ⟨h.2, h.1⟩

/-- The terms of a task that does nothing unless a condition is met. -/
def when (t : Terms σ) (condition : Prop) : Terms σ where
  rely s s' := condition → t.rely s s'
  guarantee s s' := condition ∧ t.guarantee s s'

/-- Terms on conditions fit if they do where both conditions hold. -/
theorem fits_when {a b : Terms σ} {p q : Prop} (h : p → q → a.Fits b) :
    (a.when p).Fits (b.when q) :=
  ⟨fun s s' ⟨hp, hs⟩ hq => (h hp hq).1 s s' hs, fun s s' ⟨hq, hs⟩ hp => (h hp hq).2 s s' hs⟩

/-- The state that others have made of a state. -/
abbrev Later (t : Terms σ) : σ → σ → Prop := Relation.ReflTransGen t.rely

/-- A fact that the others do not make untrue. -/
def Stable (t : Terms σ) (fact : σ → Prop) : Prop := ∀ s s', t.rely s s' → fact s → fact s'

/-- A stable fact stays while others do what they may. -/
theorem Stable.later {t : Terms σ} {fact : σ → Prop} (h : t.Stable fact) {s s' : σ}
    (hs : t.Later s s') (hfact : fact s) : fact s' := by
  induction hs with
  | refl => exact hfact
  | tail _ hstep ih => exact h _ _ hstep ih

end Terms

namespace Task

variable {σ α β ι : Type}

/-! ## Without interruption -/

instance : LawfulMonad (Task σ) := by
  refine LawfulMonad.mk' _ (fun x => ?_) (fun _ _ => rfl) fun x f g => ?_
  · induction x with
    | done a => rfl
    | act effect next ih => exact congrArg (act effect) (funext ih)
  · induction x with
    | done a => rfl
    | act effect next ih => exact congrArg (act effect) (funext ih)

@[simp] theorem run_done (a : α) : (done a : Task σ α).run = pure a := rfl

@[simp] theorem run_step (x : StateM σ α) : (step x).run = x := rfl

@[simp] theorem run_bind (x : Task σ α) (f : α → Task σ β) :
    (x >>= f).run = x.run >>= fun a => (f a).run := by
  induction x with
  | done a => rfl
  | act effect next ih => exact funext fun s => congrFun (ih s) (effect s)

@[simp] theorem run_mapM (f : ι → Task σ α) (l : List ι) :
    (l.mapM f).run = l.mapM fun i => (f i).run := by
  induction l with
  | nil => rfl
  | cons i l ih => simp [ih]

/-! ## Keeping terms -/

/-- From this state on the task stays within its guarantee, if the others stay within its rely,
and ends with a value and a state as promised. -/
def Keeps (t : Terms σ) (promised : α → σ → Prop) : Task σ α → σ → Prop
  | done a, s => ∀ s', t.Later s s' → promised a s'
  | act effect next, s => ∀ s', t.Later s s' →
      t.guarantee s' (effect s') ∧ (next s').Keeps t promised (effect s')

variable {t : Terms σ} {promised promised' : α → σ → Prop} {x : Task σ α} {s s' : σ}

/-- A task that is done keeps its promise if that stays. -/
theorem keeps_done {a : α} :
    (done a : Task σ α).Keeps t promised s ↔ ∀ s', t.Later s s' → promised a s' := .rfl

/-- A task that acts does what it may, whatever others have done before. -/
theorem keeps_act {effect : σ → σ} {next : σ → Task σ α} :
    (act effect next).Keeps t promised s ↔ ∀ s', t.Later s s' →
      t.guarantee s' (effect s') ∧ (next s').Keeps t promised (effect s') := .rfl

-- or else the steps of a task are carried out whenever it is looked at whether it keeps its terms
attribute [irreducible] Keeps

/-- The others may take their steps first. -/
theorem Keeps.later (h : x.Keeps t promised s) (hs : t.Later s s') : x.Keeps t promised s' := by
  cases x with
  | done a =>
    rw [keeps_done] at h ⊢
    exact fun s'' hs' => h s'' (hs.trans hs')
  | act effect next =>
    rw [keeps_act] at h ⊢
    exact fun s'' hs' => h s'' (hs.trans hs')

/-- A task that expects less keeps its terms where it may expect more, and may promise less. -/
theorem Keeps.mono {t' : Terms σ} (h : x.Keeps t promised s)
    (hrely : ∀ s s', t'.rely s s' → t.rely s s')
    (hguarantee : ∀ s s', t.guarantee s s' → t'.guarantee s s')
    (hpromised : ∀ a s, promised a s → promised' a s) : x.Keeps t' promised' s := by
  have hlater {s s' : σ} (hs : t'.Later s s') : t.Later s s' :=
    Relation.ReflTransGen.mono hrely _ _ hs
  induction x generalizing s with
  | done a =>
    rw [keeps_done] at h ⊢
    exact fun s' hs => hpromised a s' (h s' (hlater hs))
  | act effect next ih =>
    rw [keeps_act] at h ⊢
    intro s' hs
    obtain ⟨hown, hnext⟩ := h s' (hlater hs)
    exact ⟨hguarantee _ _ hown, ih s' hnext⟩

/-- Terms on a condition are kept where it holds. -/
theorem Keeps.when {p : Prop} (hp : p) (h : x.Keeps t promised s) :
    x.Keeps (t.when p) promised s :=
  h.mono (fun _ _ hs => hs hp) (fun _ _ hs => ⟨hp, hs⟩) fun _ _ h => h

/-- What a task promises stays true. -/
theorem Keeps.stable (h : x.Keeps t promised s) :
    x.Keeps t (fun a s => ∀ s', t.Later s s' → promised a s') s := by
  induction x generalizing s with
  | done a =>
    rw [keeps_done] at h ⊢
    exact fun s' hs s'' hs' => h s'' (hs.trans hs')
  | act effect next ih =>
    rw [keeps_act] at h ⊢
    exact fun s' hs => ⟨(h s' hs).1, ih s' (h s' hs).2⟩

/-- What neither the task nor the others make untrue is true in the end. -/
theorem Keeps.and (fact : σ → Prop) (h : x.Keeps t promised s) (hfact : fact s)
    (hrely : t.Stable fact) (hguarantee : ∀ s s', t.guarantee s s' → fact s → fact s') :
    x.Keeps t (fun a s => promised a s ∧ fact s) s := by
  induction x generalizing s with
  | done a =>
    rw [keeps_done] at h ⊢
    exact fun s' hs => ⟨h s' hs, hrely.later hs hfact⟩
  | act effect next ih =>
    rw [keeps_act] at h ⊢
    intro s' hs
    obtain ⟨hown, hnext⟩ := h s' hs
    exact ⟨hown, ih s' hnext (hguarantee _ _ hown (hrely.later hs hfact))⟩

/-- A stable promise stays. -/
theorem keeps_done_of_stable {a : α} (hpromised : t.Stable (promised a)) (h : promised a s) :
    (done a : Task σ α).Keeps t promised s := keeps_done.2 fun _ hs => hpromised.later hs h

/-- A step may begin with a fact that the others do not make untrue. -/
theorem keeps_step_of_stable {x : StateM σ α} {fact : σ → Prop} (hfact : t.Stable fact)
    (hpromised : ∀ a, t.Stable (promised a)) (hs : fact s)
    (h : ∀ s, fact s → t.guarantee s (x s).2 ∧ promised (x s).1 (x s).2) :
    (step x).Keeps t promised s := by
  refine keeps_act.2 fun s' hs' => ?_
  obtain ⟨hguarantee, hdone⟩ := h s' (hfact.later hs' hs)
  exact ⟨hguarantee, keeps_done_of_stable (hpromised _) hdone⟩

/-- One task after another keeps the terms if both do. -/
theorem keeps_bind {promised' : β → σ → Prop} {f : α → Task σ β} (hx : x.Keeps t promised s)
    (hf : ∀ a s', promised a s' → (f a).Keeps t promised' s') :
    (x >>= f).Keeps t promised' s := by
  induction x generalizing s with
  | done a => exact hf a s (keeps_done.1 hx s .refl)
  | act effect next ih =>
    rw [keeps_act] at hx
    exact keeps_act.2 fun s' hs => ⟨(hx s' hs).1, ih s' (hx s' hs).2⟩

/-- Whatever is done to what it shares, the task ends with a value of this kind. -/
def Returns (P : α → Prop) (x : Task σ α) : Prop :=
  ∀ s, x.Keeps ⟨fun _ _ => True, fun _ _ => True⟩ (fun a _ => P a) s

section Returns

variable {P : α → Prop} {Q : β → Prop}

/-- A task that is done returns its value. -/
theorem returns_done {a : α} (ha : P a) : (done a : Task σ α).Returns P :=
  fun _ => keeps_done.2 fun _ _ => ha

/-- A single step returns what it gives, whatever state it starts in. -/
theorem returns_step {x : StateM σ α} (h : ∀ s, P (x s).1) : (step x).Returns P := by
  have hfact : Terms.Stable ⟨fun _ _ => True, fun _ _ => True⟩ fun _ : σ => True :=
    fun _ _ _ h => h
  exact fun _ => keeps_step_of_stable hfact (fun _ _ _ _ h => h) trivial fun s _ => ⟨trivial, h s⟩

/-- More may be known of a value than is asked for. -/
theorem Returns.mono {P' : α → Prop} (hx : x.Returns P) (h : ∀ a, P a → P' a) : x.Returns P' :=
  fun s => (hx s).mono (fun _ _ h => h) (fun _ _ h => h) fun a _ ha => h a ha

/-- One task after another returns what the second one does. -/
theorem Returns.bind {f : α → Task σ β} (hx : x.Returns P) (hf : ∀ a, P a → (f a).Returns Q) :
    (x >>= f).Returns Q := fun s => keeps_bind (hx s) fun a s' ha => hf a ha s'

end Returns

/-- As long as the others stay within the rely, the task ends with the same value from this state
as from another one if nobody comes between its steps, and the states that it ends in are related
too. -/
def Mirrors (t : Terms σ) (related : α → σ → σ → Prop) (x : Task σ α) (alone s : σ) : Prop :=
  x.Keeps t (fun a s' => a = (x.run alone).1 ∧ related a (x.run alone).2 s') s

section Mirrors

variable {related : α → σ → σ → Prop} {alone : σ}

/-- What mirrors another run on terms does so where the condition holds. -/
theorem Mirrors.when {p : Prop} (hp : p) (h : x.Mirrors t related alone s) :
    x.Mirrors (t.when p) related alone s := Keeps.when hp h

/-- A task that is done ends as it does alone, and the states stay related. -/
theorem mirrors_done_of_stable {a : α} (hrelated : t.Stable (related a alone))
    (h : related a alone s) : (done a : Task σ α).Mirrors t related alone s :=
  keeps_done.2 fun _ hs => ⟨rfl, hrelated.later hs h⟩

/-- A step ends as it does alone if it does alike in related states. -/
theorem mirrors_step_of_stable {x : StateM σ α} {fact : σ → Prop} (hfact : t.Stable fact)
    (hrelated : ∀ a alone, t.Stable (related a alone)) (hs : fact s)
    (h : ∀ s, fact s → t.guarantee s (x s).2 ∧ (x s).1 = (x alone).1 ∧
      related (x s).1 (x alone).2 (x s).2) : (step x).Mirrors t related alone s :=
  keeps_step_of_stable hfact (fun a s s' hs h => ⟨h.1, hrelated a _ s s' hs h.2⟩) hs h

/-- One task after another ends as both do alone. -/
theorem mirrors_bind {related' : β → σ → σ → Prop} {f : α → Task σ β}
    (hx : x.Mirrors t related alone s)
    (hf : ∀ a after, x.run alone = (a, after) → ∀ s', related a after s' →
      (f a).Mirrors t related' after s') :
    (x >>= f).Mirrors t related' alone s := by
  unfold Mirrors
  rw [run_bind]
  refine keeps_bind hx ?_
  rintro _ s' ⟨rfl, hrelated⟩
  exact hf _ _ rfl s' hrelated

end Mirrors

/-- **Tasks in a sequence.** Tasks whose terms fit together may be done one after another: each
ends with what it promises, and that stays true until all are over. -/
theorem keeps_mapM {rely : σ → σ → Prop} (terms : ι → Terms σ) (promised : ι → α → σ → Prop)
    {f : ι → Task σ α} {l : List ι}
    (hrely : ∀ i ∈ l, ∀ s s', rely s s' → (terms i).rely s s')
    (hfits : l.Pairwise fun i j => (terms i).Fits (terms j))
    (h : ∀ i ∈ l, (f i).Keeps (terms i) (promised i) s) :
    (l.mapM f).Keeps ⟨rely, fun s s' => ∃ i ∈ l, (terms i).guarantee s s'⟩
      (fun values s => List.Forall₂ (fun i a => promised i a s) l values) s := by
  -- the tasks of the rest keep their terms while the first is done, and the promise of the
  -- first stays true while the rest are done
  induction l generalizing s with
  | nil => exact keeps_done.2 fun _ _ => .nil
  | cons i l ih =>
    obtain ⟨hfirst, hrest⟩ := List.forall_mem_cons.1 h
    obtain ⟨hrelyFirst, hrelyRest⟩ := List.forall_mem_cons.1 hrely
    obtain ⟨hfitsFirst, hfitsRest⟩ := List.pairwise_cons.1 hfits
    rw [List.mapM_cons]
    have hdone : (f i).Keeps ⟨rely, (terms i).guarantee⟩
        (fun a s => (∀ s', (terms i).Later s s' → promised i a s') ∧
          ∀ j ∈ l, (f j).Keeps (terms j) (promised j) s) s := by
      have hkeeps : (f i).Keeps ⟨rely, (terms i).guarantee⟩
          (fun a s => ∀ s', (terms i).Later s s' → promised i a s') s :=
        hfirst.stable.mono hrelyFirst (fun _ _ h => h) fun _ _ h => h
      refine hkeeps.and (fun s => ∀ j ∈ l, (f j).Keeps (terms j) (promised j) s) hrest ?_ ?_
      · exact fun s s' hs hkeeps j hj => (hkeeps j hj).later (.single (hrelyRest j hj s s' hs))
      · exact fun s s' hs hkeeps j hj => (hkeeps j hj).later (.single ((hfitsFirst j hj).1 s s' hs))
    refine keeps_bind (hdone.mono (fun _ _ h => h) (fun s s' hs => ?_) fun _ _ h => h) ?_
    · exact ⟨i, List.mem_cons_self, hs⟩
    · rintro a s' ⟨hpromised, hrest⟩
      have hvalues : (l.mapM f).Keeps ⟨rely, fun s s' => ∃ j ∈ l, (terms j).guarantee s s'⟩
          (fun values s => List.Forall₂ (fun j a => promised j a s) l values ∧
            ∀ s', (terms i).Later s s' → promised i a s') s' := by
        refine (ih hrelyRest hfitsRest hrest).and
          (fun s => ∀ s', (terms i).Later s s' → promised i a s') hpromised ?_ ?_
        · exact fun s s' hs hstays s'' hs' => hstays s'' (.head (hrelyFirst s s' hs) hs')
        · rintro s s' ⟨j, hj, hs⟩ hstays s'' hs'
          exact hstays s'' (.head ((hfitsFirst j hj).2 s s' hs) hs')
      refine keeps_bind (hvalues.stable.mono (fun _ _ h => h) (fun s s' hs => ?_) fun _ _ h => h) ?_
      · obtain ⟨j, hj, hs⟩ := hs
        exact ⟨j, List.mem_cons_of_mem i hj, hs⟩
      · intro values s'' hstays
        refine keeps_done.2 fun s''' hs => ?_
        obtain ⟨hvalues, hfirst⟩ := hstays s''' hs
        exact .cons (hfirst s''' .refl) hvalues

end Task

end Blueprint
