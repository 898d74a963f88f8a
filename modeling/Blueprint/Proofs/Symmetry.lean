import Blueprint.Footprint
import Mathlib.GroupTheory.SpecificGroups.Dihedral

/-!
# The symmetry that steps come to

Turns and mirrors are symmetries of a square, and so is what they come to when they are
taken one after another. `Step.Lawful` says of a way of moving things that it keeps the laws
of these symmetries. Then a sequence of steps moves a thing as one turn does, with a flip of
`x` before it if the sequence turns the square over: it does not matter which steps are
taken, but only what they come to.

The laws do not say that a turn by nothing changes nothing. It may bring a thing into the form
that every step leaves it in, and so a sequence of no step at all is a case of its own.
-/

namespace Blueprint

open DihedralGroup

universe u v w

namespace Rotation

/-- The turn by some quarters. -/
def quarters (i : ZMod 4) : Rotation := ofQuarterTurns i.val

/-- A turn is made of its own quarters. -/
theorem quarters_quarterTurns (q : Rotation) : quarters q.quarterTurns = q := by
  cases q <;> rfl

/-- Quarters are added. -/
theorem quarters_followedBy (i j : ZMod 4) :
    (quarters i).followedBy (quarters j) = quarters (i + j) := by
  revert i j
  decide

/-- The other way round they are taken away. -/
theorem inverse_quarters (i : ZMod 4) : (quarters i).inverse = quarters (-i) := by
  revert i
  decide

/-- No turn afterwards changes nothing. -/
theorem followedBy_deg0 (q : Rotation) : q.followedBy deg0 = q := by
  cases q <;> rfl

/-- Three turns are one turn, however they are taken together. -/
theorem followedBy_assoc (q q' q'' : Rotation) :
    (q.followedBy q').followedBy q'' = q.followedBy (q'.followedBy q'') := by
  cases q <;> cases q' <;> cases q'' <;> rfl

/-- Two turns are taken back by taking back both. -/
theorem inverse_followedBy (q q' : Rotation) :
    (q.followedBy q').inverse = q.inverse.followedBy q'.inverse := by
  cases q <;> cases q' <;> rfl

/-- A turn that is taken back twice is the turn. -/
theorem inverse_inverse (q : Rotation) : q.inverse.inverse = q := by
  cases q <;> rfl

end Rotation

/-- Turning one way or the other exchanges the same extents. -/
theorem Size.step_inverse (size : Size) (q : Rotation) :
    size.step (.rotate q.inverse) = size.step (.rotate q) := by
  cases q <;> rfl

namespace Step

/-- The symmetry of the square that a step is: `r i` turns it clockwise by `i` quarters, and
`sr i` flips `x` after that. To flip `z` is to flip `x` after a half turn. -/
def symmetry : Step → DihedralGroup 4
  | rotate q => r q.quarterTurns
  | mirror .off => 1
  | mirror .leftRight => sr 2
  | mirror .frontBack => sr 0

/-- The symmetry that steps come to when they are taken one after another. -/
def composite : List Step → DihedralGroup 4
  | [] => 1
  | s :: steps => composite steps * s.symmetry

/-- What the steps make of a thing in a box of the given extent: each of them finds the box as
those before have left it. -/
def run {α : Type u} (move : Size → Step → α → α) : Size → List Step → α → α
  | _, [], a => a
  | size, s :: steps, a => run move (size.step s) steps (move size s a)

/-- A step that changes nothing is no symmetry but the trivial one. -/
theorem symmetry_of_isIdentity {s : Step} (h : s.isIdentity = true) : s.symmetry = 1 := by
  cases s with
  | rotate q => cases q <;> first | rfl | cases h
  | mirror m => cases m <;> first | rfl | cases h

/-- Steps that change nothing do not matter to what a sequence comes to. -/
theorem composite_filter (steps : List Step) :
    composite (steps.filter fun s => !s.isIdentity) = composite steps := by
  induction steps with
  | nil => rfl
  | cons s steps ih =>
    cases h : s.isIdentity with
    | true => rw [List.filter_cons_of_neg (by simp [h]), ih, composite,
        symmetry_of_isIdentity h, mul_one]
    | false => rw [List.filter_cons_of_pos (by simp [h]), composite, composite, ih]

/-- Two sequences of one step or more that come to the same symmetry. -/
structure Alike (steps steps' : List Step) : Prop where
  /-- there is a step in the one -/
  left_ne_nil : steps ≠ []
  /-- there is a step in the other -/
  right_ne_nil : steps' ≠ []
  /-- they come to the same -/
  composite_eq : composite steps = composite steps'

/-- What steps make of a thing depends on what they come to, and on nothing else of them. -/
def ByComposite {α : Type u} (move : Size → Step → α → α) : Prop :=
  ∀ ⦃steps steps'⦄, Alike steps steps' → ∀ size a, run move size steps a = run move size steps' a

variable {α : Type u} {β : Type v} {γ : Type w} {move : Size → Step → α → α}
  {moveβ : Size → Step → β → β} {moveγ : Size → Step → γ → γ}

/-! ## Parts of what is moved -/

/-- What no step changes is not changed by a sequence of them. -/
theorem run_of_fixed {a : α} (h : ∀ size s, move size s a = a) (size : Size) (steps : List Step) :
    run move size steps a = a := by
  induction steps generalizing size with
  | nil => rfl
  | cons s steps ih => rw [run, h, ih]

/-- Steps that make no two things one make no two things one together. -/
theorem run_injective (h : ∀ size s, Function.Injective (move size s)) (size : Size)
    (steps : List Step) : Function.Injective (run move size steps) := by
  induction steps generalizing size with
  | nil => exact Function.injective_id
  | cons s steps ih => exact (ih (size.step s)).comp (h size s)

/-- If every step moves a thing by moving a part of it, then so does a sequence of them. -/
theorem run_part {whole : β → α}
    (h : ∀ size s b, move size s (whole b) = whole (moveβ size s b)) (size : Size)
    (steps : List Step) (b : β) :
    run move size steps (whole b) = whole (run moveβ size steps b) := by
  induction steps generalizing size b with
  | nil => rfl
  | cons s steps ih => rw [run, h, ih, run]

/-- Two parts are moved each by itself. -/
theorem run_prod (size : Size) (steps : List Step) (b : β) (c : γ) :
    run (fun size s (p : β × γ) => (moveβ size s p.1, moveγ size s p.2)) size steps (b, c) =
      (run moveβ size steps b, run moveγ size steps c) := by
  induction steps generalizing size b c with
  | nil => rfl
  | cons s steps ih => exact ih (size.step s) (moveβ size s b) (moveγ size s c)

/-- What is made of two parts depends on what the steps come to if both parts do. -/
theorem ByComposite.prod (hβ : ByComposite moveβ) (hγ : ByComposite moveγ) :
    ByComposite fun size s (p : β × γ) => (moveβ size s p.1, moveγ size s p.2) := by
  intro steps steps' hsame size p
  rw [run_prod, run_prod, hβ hsame, hγ hsame]

/-- A thing that is moved by moving a part of it is moved as that part is. -/
theorem ByComposite.part (h : ByComposite moveβ) (whole : β → α)
    (hwhole : ∀ size s b, move size s (whole b) = whole (moveβ size s b)) {steps steps' : List Step}
    (hsame : Alike steps steps') (size : Size) (b : β) :
    run move size steps (whole b) = run move size steps' (whole b) := by
  rw [run_part hwhole, run_part hwhole, h hsame]

/-! ## Ways of moving that keep the laws -/

/-- The laws of the symmetries of a square. -/
structure Lawful (move : Size → Step → α → α) : Prop where
  /-- two turns are one -/
  rotate_rotate : ∀ size q q' a, move (size.step (rotate q)) (rotate q') (move size (rotate q) a) =
    move size (rotate (q.followedBy q')) a
  /-- a turn before a flip goes the other way after it -/
  flip_rotate : ∀ size q a,
    move (size.step (rotate q)) (mirror .frontBack) (move size (rotate q) a) =
    move size (rotate q.inverse) (move size (mirror .frontBack) a)
  /-- two flips are a turn by nothing -/
  flip_flip : ∀ size a, move size (mirror .frontBack) (move size (mirror .frontBack) a) =
    move size (rotate .deg0) a
  /-- after a flip there is nothing that a turn by nothing changes -/
  rotate_flip : ∀ size a, move size (rotate .deg0) (move size (mirror .frontBack) a) =
    move size (mirror .frontBack) a
  /-- no mirror is a turn by nothing -/
  off : ∀ size a, move size (mirror .off) a = move size (rotate .deg0) a
  /-- a flip of `z` is a flip of `x` and a half turn -/
  leftRight : ∀ size a, move size (mirror .leftRight) a =
    move size (rotate .deg180) (move size (mirror .frontBack) a)

/-- What a symmetry makes of a thing: it is flipped if the square is turned over, and then it is
turned. -/
def act (move : Size → Step → α → α) (size : Size) : DihedralGroup 4 → α → α
  | r i, a => move size (rotate (.quarters i)) a
  | sr i, a => move size (rotate (.quarters (-i))) (move size (mirror .frontBack) a)

namespace Lawful

variable (h : Lawful move)

include h

/-- A symmetry after a turn. -/
theorem act_rotate (size : Size) (g : DihedralGroup 4) (j : ZMod 4) (a : α) :
    act move (size.step (rotate (.quarters j))) g (move size (rotate (.quarters j)) a) =
      act move size (g * r j) a := by
  cases g with
  | r i => rw [act, h.rotate_rotate, Rotation.quarters_followedBy, r_mul_r, act, add_comm]
  | sr i =>
    rw [act, h.flip_rotate, ← Size.step_inverse, h.rotate_rotate, Rotation.inverse_quarters,
      Rotation.quarters_followedBy, sr_mul_r, act, neg_add_rev]

/-- A symmetry after a flip. -/
theorem act_flip (size : Size) (g : DihedralGroup 4) (a : α) :
    act move size g (move size (mirror .frontBack) a) = act move size (g * sr 0) a := by
  cases g with
  | r i => rw [r_mul_sr, act, act, zero_sub, neg_neg]
  | sr i =>
    rw [act, h.flip_flip, sr_mul_sr, act, zero_sub]
    exact (h.act_rotate size (r (-i)) 0 a).trans (by rw [r_zero, mul_one, act])

/-- **A symmetry after a step** is one symmetry. -/
theorem act_move (size : Size) (g : DihedralGroup 4) (s : Step) (a : α) :
    act move (size.step s) g (move size s a) = act move size (g * s.symmetry) a := by
  cases s with
  | rotate q =>
    have hturn := h.act_rotate size g q.quarterTurns a
    rwa [Rotation.quarters_quarterTurns] at hturn
  | mirror m =>
    cases m with
    | off =>
      rw [h.off, symmetry, ← r_zero]
      exact h.act_rotate size g 0 a
    | frontBack => exact h.act_flip size g a
    | leftRight =>
      have hturn := h.act_rotate size g 2 (move size (mirror .frontBack) a)
      rw [h.act_flip, mul_assoc] at hturn
      rw [h.leftRight]
      exact hturn

/-- A step by itself does what its symmetry does. -/
theorem act_symmetry (size : Size) (s : Step) (a : α) :
    act move size s.symmetry a = move size s a := by
  cases s with
  | rotate q => rw [symmetry, act, Rotation.quarters_quarterTurns]
  | mirror m =>
    cases m with
    | off => exact (h.off size a).symm
    | frontBack => exact h.rotate_flip size a
    | leftRight => exact (h.leftRight size a).symm

/-- **One step or more** do what their symmetry does. -/
theorem run_eq_act (size : Size) {steps : List Step} (hne : steps ≠ []) (a : α) :
    run move size steps a = act move size (composite steps) a := by
  induction steps generalizing size a with
  | nil => exact absurd rfl hne
  | cons s steps ih =>
    rw [run, composite]
    cases steps with
    | nil => rw [run, composite, one_mul, h.act_symmetry]
    | cons s' steps => rw [ih _ (List.cons_ne_nil s' steps), h.act_move]

/-- What keeps the laws depends on what the steps come to. -/
theorem byComposite : ByComposite move := by
  intro steps steps' hsame size a
  rw [h.run_eq_act size hsame.left_ne_nil, h.run_eq_act size hsame.right_ne_nil,
    hsame.composite_eq]

end Lawful

end Step

end Blueprint
