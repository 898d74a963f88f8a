import Mathlib.Data.List.Forall2

/-!
# Computations that may fail

When a sequence of steps in `Except` succeeds, and with what. A step that fails ends the
sequence, so a sequence that succeeds has a value for every step, and a sequence that fails
does so as one of its steps.
-/

namespace Blueprint.Outcome

universe u v w

variable {ε : Type u} {ε' : Type w} {α β : Type v}

/-- One computation after another succeeds if both do. -/
theorem bind_eq_ok {x : Except ε α} {f : α → Except ε β} {b : β} :
    (x >>= f) = .ok b ↔ ∃ a, x = .ok a ∧ f a = .ok b := by
  rcases x with e | a <;> simp [bind, Except.bind]

/-- After a check a computation succeeds if the check does. -/
theorem check_bind_eq_ok {x : Except ε PUnit} {f : PUnit → Except ε β} {b : β} :
    (x >>= f) = .ok b ↔ x = .ok ⟨⟩ ∧ f ⟨⟩ = .ok b := by
  rcases x with e | a <;> simp [bind, Except.bind]

/-- What is made of a value is made of one that was computed. -/
theorem map_eq_ok {x : Except ε α} {f : α → β} {b : β} :
    f <$> x = .ok b ↔ ∃ a, x = .ok a ∧ f a = b := by
  rcases x with e | a <;> simp [Functor.map, Except.map]

/-- A failure has nothing made of it. -/
theorem map_eq_error {x : Except ε α} {f : α → β} {e : ε} :
    x.map f = .error e ↔ x = .error e := by
  rcases x with e' | a
  · exact ⟨fun h => congrArg Except.error (Except.error.inj h),
      fun h => congrArg Except.error (Except.error.inj h)⟩
  · exact iff_of_false nofun nofun

/-- A value stays as it is while failures are changed. -/
theorem mapError_eq_ok {x : Except ε α} {f : ε → ε'} {a : α} :
    x.mapError f = .ok a ↔ x = .ok a := by
  rcases x with e | found
  · exact iff_of_false (fun h => by cases h) (fun h => by cases h)
  · exact ⟨fun h => congrArg Except.ok (Except.ok.inj h),
      fun h => congrArg Except.ok (Except.ok.inj h)⟩

/-- What is done with the value of a sequence is done with that of its last step. -/
theorem map_bind {γ : Type v} (x : Except ε α) (f : α → Except ε β) (g : β → γ) :
    (x >>= f).map g = x >>= fun a => (f a).map g := by
  rcases x with e | a <;> rfl

/-- What comes after a value that is mapped sees the mapped value. -/
theorem bind_map {γ : Type v} (x : Except ε α) (g : α → β) (f : β → Except ε γ) :
    x.map g >>= f = x >>= fun a => f (g a) := by
  rcases x with e | a <;> rfl

/-- A value and an error are mapped in either order. -/
theorem mapError_map (x : Except ε α) (f : ε → ε') (g : α → β) :
    (x.map g).mapError f = (x.mapError f).map g := by
  rcases x with e | a <;> rfl

theorem toOption_eq_some {x : Except ε α} {a : α} : x.toOption = some a ↔ x = .ok a := by
  rcases x with e | found
  · exact iff_of_false (fun h => by cases h) (fun h => by cases h)
  · exact ⟨fun h => congrArg Except.ok (Option.some.inj h),
      fun h => congrArg some (Except.ok.inj h)⟩

theorem pure_eq_ok {a b : α} : (pure a : Except ε α) = .ok b ↔ a = b := by
  simp [pure, Except.pure]

theorem throw_eq_ok {e : ε} {a : α} : (throw e : Except ε α) = .ok a ↔ False := by
  simp [throw, throwThe, MonadExceptOf.throw]

/-- Nothing succeeds and fails. -/
theorem ne_error_of_eq_ok {x : Except ε α} {a : α} {e : ε} (hok : x = .ok a) : x ≠ .error e := by
  rw [hok]
  intro h
  cases h

/-- A computation that fails without a condition succeeds exactly on it. -/
theorem eq_ok_iff {x : Except ε α} {a : α} {good : Prop} {P : ε → Prop} (hok : good → x = .ok a)
    (herror : ¬ good → ∃ e, x = .error e ∧ P e) : x = .ok a ↔ good := by
  refine ⟨fun hx => Classical.byContradiction fun hbad => ?_, hok⟩
  obtain ⟨e, he, -⟩ := herror hbad
  rw [he] at hx
  cases hx

/-- A list of computations succeeds with the list of their values. -/
theorem mapM_eq_ok {f : α → Except ε β} {l : List α} {l' : List β} :
    l.mapM f = .ok l' ↔ List.Forall₂ (fun a b => f a = .ok b) l l' := by
  induction l generalizing l' with
  | nil => rw [List.mapM_nil, pure_eq_ok, List.forall₂_nil_left_iff, eq_comm]
  | cons a l ih =>
    simp only [List.mapM_cons, bind_eq_ok, pure_eq_ok, List.forall₂_cons_left_iff, ih,
      exists_and_left, @eq_comm _ l']

/-- Every item belongs to some item exactly if the list belongs to some list. -/
theorem exists_forall₂_iff {α : Type u} {β : Type w} {R : α → β → Prop} {l : List α} :
    (∃ l', List.Forall₂ R l l') ↔ ∀ a ∈ l, ∃ b, R a b := by
  induction l with
  | nil => exact iff_of_true ⟨[], .nil⟩ fun a ha => absurd ha List.not_mem_nil
  | cons a l ih =>
    rw [List.forall_mem_cons, ← ih]
    simp only [List.forall₂_cons_left_iff]
    refine ⟨?_, ?_⟩
    · rintro ⟨_, b, rest, hb, hrest, rfl⟩
      exact ⟨⟨b, hb⟩, rest, hrest⟩
    · rintro ⟨⟨b, hb⟩, rest, hrest⟩
      exact ⟨b :: rest, b, rest, hb, hrest, rfl⟩

/-- A sequence succeeds if each computation in it does. -/
theorem exists_mapM_eq_ok {f : α → Except ε β} {l : List α} :
    (∃ l', l.mapM f = .ok l') ↔ ∀ a ∈ l, ∃ b, f a = .ok b := by
  simp only [mapM_eq_ok, exists_forall₂_iff]

/-- Every item of the second list has one of the first list that it belongs to. -/
theorem exists_mem_of_forall₂ {R : α → β → Prop} {l : List α} {l' : List β}
    (h : List.Forall₂ R l l') {b : β} (hb : b ∈ l') : ∃ a ∈ l, R a b := by
  induction h with
  | nil => cases hb
  | @cons a _ _ _ hfirst _ ih =>
    rcases List.mem_cons.1 hb with rfl | hb
    · exact ⟨a, List.mem_cons_self, hfirst⟩
    · obtain ⟨a', ha', hrel⟩ := ih hb
      exact ⟨a', List.mem_cons_of_mem a ha', hrel⟩

/-- Every value of a sequence comes from a value that the sequence was made of. -/
theorem exists_mem_of_mem_mapM {f : α → Except ε β} {l : List α} {l' : List β}
    (h : l.mapM f = .ok l') {b : β} (hb : b ∈ l') : ∃ a ∈ l, f a = .ok b :=
  exists_mem_of_forall₂ (mapM_eq_ok.1 h) hb

/-- Steps one after another succeed only if each of them does. -/
theorem exists_of_foldlM_eq_ok {f : β → α → Except ε β} {l : List α} {b b' : β}
    (h : l.foldlM f b = .ok b') {a : α} (ha : a ∈ l) : ∃ x x', f x a = .ok x' := by
  induction l generalizing b with
  | nil => cases ha
  | cons first l ih =>
    rw [List.foldlM_cons] at h
    obtain ⟨between, hfirst, hrest⟩ := bind_eq_ok.1 h
    rcases List.mem_cons.1 ha with rfl | ha
    · exact ⟨b, between, hfirst⟩
    · exact ih hrest ha

/-- What every step keeps is kept by steps one after another. -/
theorem invariant_of_foldlM_eq_ok {P : β → Prop} {f : β → α → Except ε β} {l : List α} {b b' : β}
    (hstep : ∀ x a x', P x → f x a = .ok x' → P x') (hb : P b) (h : l.foldlM f b = .ok b') :
    P b' := by
  induction l generalizing b with
  | nil => exact pure_eq_ok.1 h ▸ hb
  | cons a l ih =>
    rw [List.foldlM_cons] at h
    obtain ⟨between, hfirst, hrest⟩ := bind_eq_ok.1 h
    exact ih (hstep b a between hb hfirst) hrest

/-! ## Failures -/

/-- Every failure of the computation has the property. -/
def FailsWith (P : ε → Prop) (x : Except ε α) : Prop := ∀ e, x = .error e → P e

namespace FailsWith

variable {P : ε → Prop}

/-- What succeeds does not fail. -/
theorem ok (a : α) : FailsWith P (.ok a) := by
  intro e h
  cases h

/-- What fails with an error fails with that error only. -/
theorem error {e : ε} (he : P e) : FailsWith P (.error e : Except ε α) := by
  intro e' h
  cases h
  exact he

/-- A sequence fails as its first step or as what comes after it. -/
theorem bind {x : Except ε α} {f : α → Except ε β} (hx : FailsWith P x)
    (hf : ∀ a, x = .ok a → FailsWith P (f a)) : FailsWith P (x >>= f) := by
  intro e h
  cases hresult : x with
  | error e' =>
    rw [hresult] at h
    cases h
    exact hx e hresult
  | ok a =>
    rw [hresult] at h
    exact hf a hresult e h

/-- What is refused under a condition goes on if that is not met. -/
theorem refuse {c : Prop} [Decidable c] {e : ε} {f : PUnit → Except ε α} (he : c → P e)
    (hf : FailsWith P (f ⟨⟩)) : FailsWith P (if c then throw e >>= f else f ⟨⟩) := by
  split
  next hc => exact error (he hc)
  next => exact hf

/-- What is made of a value adds no failure. -/
theorem map {x : Except ε α} (f : α → β) (hx : FailsWith P x) : FailsWith P (f <$> x) := by
  intro e h
  cases x with
  | error e' =>
    cases h
    exact hx e rfl
  | ok a => cases h

/-- What failures are mapped to. -/
theorem mapped {Q : ε' → Prop} {x : Except ε α} {f : ε → ε'} (hx : FailsWith (fun e => Q (f e)) x) :
    FailsWith Q (x.mapError f) := by
  intro e h
  cases x with
  | error e' =>
    cases h
    exact hx e' rfl
  | ok a => cases h

/-- Failures are what they are changed into. -/
theorem mapError {Q : ε' → Prop} {x : Except ε α} {f : ε → ε'} (hf : ∀ e, Q (f e)) :
    FailsWith Q (x.mapError f) := mapped fun e _ => hf e

/-- A sequence fails with what one of its computations fails with. -/
theorem mapM {f : α → Except ε β} {l : List α} (hf : ∀ a ∈ l, FailsWith P (f a)) :
    FailsWith P (l.mapM f) := by
  induction l with
  | nil => exact ok []
  | cons a l ih =>
    obtain ⟨hfirst, hrest⟩ := List.forall_mem_cons.1 hf
    rw [List.mapM_cons]
    exact hfirst.bind fun b _ => (ih hrest).bind fun bs _ => ok (b :: bs)

end FailsWith

/-! ## Values and failures -/

/-- The value has one property, or the failure another. -/
structure Yields (Q : α → Prop) (P : ε → Prop) (x : Except ε α) : Prop where
  ok : ∀ a, x = .ok a → Q a
  error : FailsWith P x

namespace Yields

variable {P : ε → Prop} {Q : α → Prop} {R : β → Prop}

/-- A value has the property that it is said to have. -/
theorem of_ok {a : α} (ha : Q a) : Yields Q P (.ok a) :=
  ⟨fun _ h => Except.ok.inj h ▸ ha, .ok a⟩

/-- So has a failure. -/
theorem of_error {e : ε} (he : P e) : Yields Q P (.error e) := ⟨nofun, .error he⟩

/-- What is known of the first value is known to the second computation. -/
theorem bind {x : Except ε α} {f : α → Except ε β} (hx : Yields Q P x)
    (hf : ∀ a, Q a → Yields R P (f a)) : Yields R P (x >>= f) where
  ok b h := by
    obtain ⟨a, ha, hb⟩ := bind_eq_ok.1 h
    exact (hf a (hx.ok a ha)).ok b hb
  error := hx.error.bind fun a ha => (hf a (hx.ok a ha)).error

/-- What is known of a value is known of what is made of it. -/
theorem map {x : Except ε α} {f : α → β} (hx : Yields Q P x) (hf : ∀ a, Q a → R (f a)) :
    Yields R P (f <$> x) where
  ok b h := by
    obtain ⟨a, ha, rfl⟩ := map_eq_ok.1 h
    exact hf a (hx.ok a ha)
  error := hx.error.map f

/-- What each computation in a sequence yields is known of all values. -/
theorem mapM {f : α → Except ε β} {l : List α} (hf : ∀ a ∈ l, Yields R P (f a)) :
    Yields (fun l' => ∀ b ∈ l', R b) P (l.mapM f) where
  ok l' h b hb := by
    obtain ⟨a, ha, hab⟩ := exists_mem_of_mem_mapM h hb
    exact (hf a ha).ok b hab
  error := .mapM fun a ha => (hf a ha).error

end Yields

end Blueprint.Outcome
