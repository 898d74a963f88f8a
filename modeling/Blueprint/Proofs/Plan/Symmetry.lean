import Blueprint.Plan.Accept
import Blueprint.Plan.Check
import Blueprint.Proofs.BlockState.Symmetry
import Blueprint.Proofs.Footprint
import Blueprint.Proofs.Outcome

/-!
# Plans keep the laws of the square

Everything in a plan is moved as the symmetries of a square say: cells with the box they lie
in, properties, orientations of connectors, and the placements of entities. So it does not
matter which turns and mirrors a plan goes through, but only what they come to.

Steps that come to nothing bring back every plan whose headings are in plain decimal, and no
other plan unless there is no step among them that does anything.
-/

namespace Blueprint

open Step

/-! ## Cells, extents and placements -/

/-- Extents keep the laws. -/
theorem Size.lawful_step : Lawful fun _ => Size.step where
  rotate_rotate _ q q' size := by cases q <;> cases q' <;> rfl
  flip_rotate _ q size := by cases q <;> rfl
  flip_flip _ _ := rfl
  rotate_flip _ _ := rfl
  off _ _ := rfl
  leftRight _ _ := rfl

/-- So do cells, with their box. -/
theorem Pos.lawful_step : Lawful Pos.step where
  rotate_rotate size q q' p := by
    cases q <;> cases q' <;>
      simp [Pos.step, Vec3.step, Vec3.rotate, Size.step, Size.lastCells, Rotation.followedBy,
        Rotation.ofQuarterTurns, Rotation.quarterTurns, Rotation.swapsAxes, word_sub_sub_cancel]
  flip_rotate size q p := by
    cases q <;>
      simp [Pos.step, Vec3.step, Vec3.rotate, Vec3.mirror, Size.step, Size.lastCells,
        Rotation.inverse, Rotation.ofQuarterTurns, Rotation.quarterTurns, Rotation.swapsAxes,
        word_sub_sub_cancel]
  flip_flip size p := Vec3.mirror_mirror size.lastCells .frontBack p
  rotate_flip _ _ := rfl
  off _ _ := rfl
  leftRight size p := by simp [Pos.step, Vec3.step, Vec3.rotate, Vec3.mirror, word_sub_sub_cancel]

/-- So do placements. -/
theorem Placement.lawful_step : Lawful fun _ => Placement.step where
  rotate_rotate _ q q' p :=
    congrArg (mk p.width p.length p.flipX) (p.rotation.followedBy_assoc q q')
  flip_rotate _ q p :=
    congrArg (mk p.width p.length !p.flipX) (p.rotation.inverse_followedBy q)
  flip_flip _ p := by
    simp only [step, Bool.not_not, Rotation.inverse_inverse, Rotation.followedBy_deg0]
  rotate_flip _ p :=
    congrArg (mk p.width p.length !p.flipX) p.rotation.inverse.followedBy_deg0
  off _ p := congrArg (mk p.width p.length p.flipX) p.rotation.followedBy_deg0.symm
  leftRight _ _ := rfl

/-! ## Parts of a plan -/

namespace StateRef

/-- What a block gets its state from depends on what the steps come to. -/
theorem byComposite_step : ByComposite fun _ => StateRef.step := by
  intro steps steps' hsame size state
  cases state with
  | direct state =>
    exact BlockState.byComposite_step.part direct (fun _ _ _ => rfl) hsame size state
  | material key => rw [run_of_fixed fun _ _ => rfl, run_of_fixed fun _ _ => rfl]

/-- The heading of a state that is written out, if it has one as a text, is in plain decimal. -/
def PlainHeading (ref : StateRef) : Prop :=
  ∀ state, ref = direct state → state.properties.PlainHeading

instance (ref : StateRef) : Decidable ref.PlainHeading :=
  match ref with
  | direct state => decidable_of_iff state.properties.PlainHeading
      ⟨fun h _ hstate => direct.inj hstate ▸ h, fun h => h state rfl⟩
  | material _ => isTrue fun _ hstate => nomatch hstate

/-- A turn by nothing keeps it exactly if its heading is written plainly. -/
theorem step_deg0_iff {ref : StateRef} : ref.step (.rotate .deg0) = ref ↔ ref.PlainHeading := by
  cases ref with
  | direct state =>
    rw [step, direct.injEq, BlockState.step_deg0_iff]
    exact ⟨fun h _ hstate => direct.inj hstate ▸ h, fun h => h state rfl⟩
  | material key => exact iff_of_true rfl fun _ hstate => nomatch hstate

end StateRef

namespace Block

/-- A block depends on what the steps come to. -/
theorem byComposite_step : ByComposite Block.step := by
  intro steps steps' hsame size b
  have hparts := Pos.lawful_step.byComposite.prod StateRef.byComposite_step
  refine hparts.part (fun moved => mk moved.1 moved.2 b.template) ?_ hsame size (b.pos, b.state)
  exact fun _ _ _ => rfl

/-- A turn by nothing keeps a block exactly if its heading is written plainly. -/
theorem step_deg0_iff {size : Size} {b : Block} :
    b.step size (.rotate .deg0) = b ↔ b.state.PlainHeading := by
  rw [← StateRef.step_deg0_iff]
  obtain ⟨pos, state, template⟩ := b
  exact ⟨fun h => (mk.inj h).2.1, fun h => congrArg (mk pos · template) h⟩

end Block

namespace Jigsaw

/-- A connector depends on what the steps come to. -/
theorem byComposite_step : ByComposite Jigsaw.step := by
  intro steps steps' hsame size j
  have hparts := Pos.lawful_step.byComposite.prod
    (byComposite_orientationName.prod BlockState.byComposite_step)
  refine hparts.part
    (fun moved => { j with pos := moved.1, orientation := moved.2.1, finalState := moved.2.2 })
    ?_ hsame size (j.pos, j.orientation, j.finalState)
  exact fun _ _ _ => rfl

/-- A turn by nothing keeps a connector exactly if the heading of its final state is written
plainly. -/
theorem step_deg0_iff {size : Size} {j : Jigsaw} :
    j.step size (.rotate .deg0) = j ↔ j.finalState.properties.PlainHeading := by
  rw [← BlockState.step_deg0_iff, step, orientationName_deg0]
  obtain ⟨pos, orientation, name, pool, targetPool, joint, finalState⟩ := j
  exact ⟨fun h => (mk.inj h).2.2.2.2.2.2,
    fun h => congrArg (mk pos orientation name pool targetPool joint) h⟩

end Jigsaw

namespace Entity

/-- An entity depends on what the steps come to. -/
theorem byComposite_step : ByComposite Entity.step := by
  intro steps steps' hsame size e
  have hparts := Placement.lawful_step.byComposite.prod Pos.lawful_step.byComposite
  refine hparts.part (fun moved => mk e.authored moved.1 moved.2 e.template) ?_ hsame size
    (e.placement, e.blockPos)
  exact fun _ _ _ => rfl

/-- A turn by nothing keeps an entity. -/
theorem step_deg0 (size : Size) (e : Entity) : e.step size (.rotate .deg0) = e := by
  obtain ⟨authored, placement, blockPos, template⟩ := e
  exact congrArg (mk authored · blockPos template) (Placement.lawful_step.off size placement).symm

end Entity

/-! ## Plans -/

namespace Plan

/-- The plan after the steps, taken one after another. -/
def after (steps : List Step) (p : Plan) : Plan := steps.foldl (fun p s => p.step s) p

/-- The plan with all its parts moved by the steps, also by those that change nothing else. -/
def through (steps : List Step) (p : Plan) : Plan :=
  { p with
    size := run (fun _ => Size.step) p.size steps p.size
    blocks := p.blocks.map (run Block.step p.size steps)
    jigsaws := p.jigsaws.map (run Jigsaw.step p.size steps)
    entities := p.entities.map (run Entity.step p.size steps) }

/-- Every heading of the plan that is written as a text is in plain decimal. -/
structure PlainHeadings (p : Plan) : Prop where
  /-- in the states of its blocks that are written out -/
  blocks : ∀ b ∈ p.blocks, b.state.PlainHeading
  /-- in the states that replace its connectors in the end -/
  jigsaws : ∀ j ∈ p.jigsaws, j.finalState.properties.PlainHeading

instance (p : Plan) : Decidable p.PlainHeadings :=
  decidable_of_iff ((∀ b ∈ p.blocks, b.state.PlainHeading) ∧
      ∀ j ∈ p.jigsaws, j.finalState.properties.PlainHeading)
    ⟨fun ⟨hblocks, hjigsaws⟩ => ⟨hblocks, hjigsaws⟩, fun h => ⟨h.blocks, h.jigsaws⟩⟩

/-- Steps that change nothing are skipped, so they may be left out. -/
theorem after_filter (steps : List Step) (p : Plan) :
    p.after (steps.filter fun s => !s.isIdentity) = p.after steps := by
  induction steps generalizing p with
  | nil => rfl
  | cons s steps ih =>
    cases h : s.isIdentity with
    | true =>
      rw [List.filter_cons_of_neg (by simp [h]), ih]
      exact congrArg (after steps) (if_pos h).symm
    | false =>
      rw [List.filter_cons_of_pos (by simp [h])]
      exact ih (p.step s)

/-- Where no step is skipped, all of them are taken. -/
theorem after_eq_through {steps : List Step} (h : ∀ s ∈ steps, s.isIdentity = false) (p : Plan) :
    p.after steps = p.through steps := by
  induction steps generalizing p with
  | nil =>
    simp only [through, run, List.map_id_fun']
    rfl
  | cons s steps ih =>
    obtain ⟨hs, hsteps⟩ := List.forall_mem_cons.1 h
    have hstep : p.step s = { p with
      size := p.size.step s
      blocks := p.blocks.map (Block.step p.size s)
      jigsaws := p.jigsaws.map (Jigsaw.step p.size s)
      entities := p.entities.map (Entity.step p.size s) } := if_neg (by simp [hs])
    refine (ih hsteps (p.step s)).trans ?_
    rw [hstep, through, through]
    simp only [List.map_map]
    rfl

/-- A plan depends on what the steps come to. -/
theorem through_congr {steps steps' : List Step} (hsame : Alike steps steps') (p : Plan) :
    p.through steps = p.through steps' := by
  have hsize := Size.lawful_step.byComposite hsame p.size p.size
  have hblocks := funext (Block.byComposite_step hsame p.size)
  have hjigsaws := funext (Jigsaw.byComposite_step hsame p.size)
  have hentities := funext (Entity.byComposite_step hsame p.size)
  rw [through, through, hsize, hblocks, hjigsaws, hentities]

/-- A list stays as it is exactly if all of its items do. -/
theorem map_eq_self_iff {α : Type} {f : α → α} {l : List α} :
    l.map f = l ↔ ∀ a ∈ l, f a = a := by
  have hiff : l.map f = l.map (fun a => a) ↔ ∀ a ∈ l, f a = a := List.map_inj_left
  rwa [List.map_id'] at hiff

/-- A turn by nothing keeps a plan exactly if its headings are in plain decimal. -/
theorem through_deg0_iff {p : Plan} : p.through [.rotate .deg0] = p ↔ p.PlainHeadings := by
  have hentities : p.entities.map (Entity.step p.size (.rotate .deg0)) = p.entities :=
    map_eq_self_iff.2 fun e _ => e.step_deg0 p.size
  have hthrough : p.through [.rotate .deg0] = { p with
      blocks := p.blocks.map (Block.step p.size (.rotate .deg0))
      jigsaws := p.jigsaws.map (Jigsaw.step p.size (.rotate .deg0)) } :=
    congrArg (mk p.id p.size _ · _ p.jigsawPolicy p.palettes p.tags) hentities
  have hblocks : p.blocks.map (Block.step p.size (.rotate .deg0)) = p.blocks ↔
      ∀ b ∈ p.blocks, b.state.PlainHeading := by
    simp only [map_eq_self_iff, Block.step_deg0_iff]
  have hjigsaws : p.jigsaws.map (Jigsaw.step p.size (.rotate .deg0)) = p.jigsaws ↔
      ∀ j ∈ p.jigsaws, j.finalState.properties.PlainHeading := by
    simp only [map_eq_self_iff, Jigsaw.step_deg0_iff]
  rw [hthrough]
  refine ⟨fun h => ⟨hblocks.1 (congrArg blocks h), hjigsaws.1 (congrArg jigsaws h)⟩, fun h => ?_⟩
  rw [hblocks.2 h.blocks, hjigsaws.2 h.jigsaws]

/-- If some step changes something, some step is left. -/
theorem filter_ne_nil {steps : List Step} (h : ∃ s ∈ steps, s.isIdentity = false) :
    steps.filter (fun s => !s.isIdentity) ≠ [] := by
  obtain ⟨s, hs, hreal⟩ := h
  exact List.ne_nil_of_mem (List.mem_filter.2 ⟨hs, by simp [hreal]⟩)

/-- If there is a step that does something, then the steps that do something make the plan what
any steps that come to the same make of its parts. -/
theorem after_eq_through_of_composite {steps steps' : List Step}
    (hreal : ∃ s ∈ steps, s.isIdentity = false) (hne : steps' ≠ [])
    (hsame : composite steps = composite steps') (p : Plan) :
    p.after steps = p.through steps' := by
  have halike : Alike (steps.filter fun s => !s.isIdentity) steps' :=
    ⟨filter_ne_nil hreal, hne, (composite_filter steps).trans hsame⟩
  rw [← after_filter, after_eq_through fun s hs => ?_, through_congr halike]
  simpa using (List.mem_filter.1 hs).2

/-- Steps that do something and come to nothing bring back the plans whose headings are in
plain decimal, and no others. -/
theorem after_eq_self_iff {steps : List Step} (hreal : ∃ s ∈ steps, s.isIdentity = false)
    (hone : composite steps = 1) {p : Plan} : p.after steps = p ↔ p.PlainHeadings := by
  have hsame : composite steps = composite [.rotate .deg0] := hone
  rw [after_eq_through_of_composite hreal (List.cons_ne_nil _ _) hsame, through_deg0_iff]

/-- Steps that do nothing leave a plan as it is. -/
theorem after_of_isIdentity {steps : List Step} (h : ∀ s ∈ steps, s.isIdentity = true) (p : Plan) :
    p.after steps = p := by
  have hnone : (steps.filter fun s => !s.isIdentity) = [] :=
    List.filter_eq_nil_iff.2 fun s hs => by simp [h s hs]
  rw [← after_filter, hnone]
  rfl

/-- **The symmetries of the square act on plans.** Two sequences of steps that come to the same
symmetry make the same of a plan, if each of them has a step that does something; and a sequence
that comes to nothing brings back a plan whose headings are in plain decimal. -/
theorem after_eq_of_composite_eq {steps steps' : List Step}
    (hsame : composite steps = composite steps') (p : Plan) :
    ((∃ s ∈ steps, s.isIdentity = false) → (∃ s ∈ steps', s.isIdentity = false) →
      p.after steps = p.after steps') ∧
    (composite steps = 1 → p.PlainHeadings → p.after steps = p) := by
  refine ⟨fun hreal hreal' => ?_, fun hone hplain => ?_⟩
  · have hne : steps' ≠ [] := hreal'.elim fun s' hs' => List.ne_nil_of_mem hs'.1
    rw [after_eq_through_of_composite hreal hne hsame,
      after_eq_through_of_composite hreal' hne rfl]
  · by_cases hreal : ∃ s ∈ steps, s.isIdentity = false
    · exact (after_eq_self_iff hreal hone).2 hplain
    · refine after_of_isIdentity (fun s hs => ?_) p
      exact Bool.eq_true_of_not_eq_false fun hfalse => hreal ⟨s, hs, hfalse⟩

/-- A yard: a stair, a fence, two signs, a floor, a connector that a log replaces in the end,
and a guard. -/
def yard : Plan where
  id := some "yard"
  size := ⟨2, 1, 3⟩
  blocks := [
    ⟨⟨0, 0, 0⟩, .direct ⟨"stairs", .ofList [("facing", .string "east")]⟩, none⟩,
    ⟨⟨1, 0, 0⟩, .direct ⟨"fence", .ofList [("north", .bool true), ("west", .bool false)]⟩, none⟩,
    ⟨⟨0, 0, 1⟩, .direct ⟨"sign", .ofList [("rotation", .string "3")]⟩, some "note"⟩,
    ⟨⟨1, 0, 1⟩, .direct ⟨"sign", .ofList [("rotation", .int 11)]⟩, none⟩,
    ⟨⟨0, 0, 2⟩, .material "floor", none⟩]
  entities := [⟨⟨⟨0⟩, ⟨0⟩, ⟨0⟩⟩, .identity ⟨2, 1, 3⟩, ⟨1, 0, 2⟩, "guard"⟩]
  jigsaws := [⟨⟨1, 0, 2⟩, "south_up", "gate", "roads", "road", "rollable",
    ⟨"log", .ofList [("axis", .string "x")]⟩⟩]
  jigsawPolicy := .unrestricted
  palettes := .empty
  tags := []

/-- A flip of the yard before a quarter turn is a quarter turn the other way before a flip. It
leaves a yard of another extent; flips of both axes and a half turn bring the yard back. -/
theorem after_eq_of_composite_eq_yard :
    composite [.mirror .frontBack, .rotate .deg90] =
      composite [.rotate .deg270, .mirror .off, .mirror .frontBack] ∧
    yard.after [.mirror .frontBack, .rotate .deg90] =
      yard.after [.rotate .deg270, .mirror .off, .mirror .frontBack] ∧
    yard.after [.mirror .frontBack, .rotate .deg90] ≠ yard ∧ yard.PlainHeadings ∧
    yard.after [.mirror .leftRight, .rotate .deg180, .mirror .frontBack] = yard := by
  have hplain : yard.PlainHeadings := by decide
  refine ⟨rfl, ?_, ?_, hplain, ?_⟩
  · exact (after_eq_of_composite_eq rfl yard).1 ⟨_, .head _, rfl⟩ ⟨_, .head _, rfl⟩
  · intro h
    exact absurd (congrArg size h) (by decide)
  · exact (@after_eq_of_composite_eq _ [] rfl yard).2 rfl hplain

/-- **Which plans are brought back.** Four quarter turns, two mirrors across the same axis, and
a turn with the turn that undoes it bring back the plans whose headings are in plain decimal. No
other plan comes back, unless the steps do nothing. -/
theorem restored_iff (p : Plan) :
    (p.after (List.replicate 4 (.rotate .deg90)) = p ↔ p.PlainHeadings) ∧
    (∀ m, p.after [.mirror m, .mirror m] = p ↔ m = .off ∨ p.PlainHeadings) ∧
    ∀ q, p.after [.rotate q, .rotate q.inverse] = p ↔ q = .deg0 ∨ p.PlainHeadings := by
  -- a step and its inverse come to nothing, and both do nothing if one does
  have hpair : ∀ s : Step, p.after [s, s.inverse] = p ↔ s.isIdentity = true ∨ p.PlainHeadings := by
    intro s
    cases hs : s.isIdentity with
    | true =>
      have hinverse : s.inverse.isIdentity = true := by rw [isIdentity_inverse, hs]
      refine iff_of_true (after_of_isIdentity ?_ p) (.inl rfl)
      intro s' hs'
      rcases List.mem_pair.1 hs' with rfl | rfl
      · exact hs
      · exact hinverse
    | false =>
      rw [after_eq_self_iff ⟨s, .head _, hs⟩ s.composite_inverse]
      exact (or_iff_right Bool.false_ne_true).symm
  refine ⟨?_, ?_, ?_⟩
  · exact after_eq_self_iff ⟨_, .head _, rfl⟩ rfl
  · intro m
    have hoff : (Step.mirror m).isIdentity = true ↔ m = .off := by cases m <;> decide
    rw [← hoff]
    exact hpair (.mirror m)
  · intro q
    have hdeg0 : (Step.rotate q).isIdentity = true ↔ q = .deg0 := by cases q <;> decide
    rw [← hdeg0]
    exact hpair (.rotate q)

/-- A sign that says where it points with a zero in front of the number. -/
def sign : Plan where
  id := none
  size := ⟨1, 1, 1⟩
  blocks := [⟨⟨0, 0, 0⟩, .direct ⟨"sign", .ofList [("rotation", .string "03")]⟩, none⟩]
  entities := []
  jigsaws := []
  jigsawPolicy := .unrestricted
  palettes := .empty
  tags := []

/-- The sign as a document. -/
def signText : String :=
  "\x7b\"size\": [1, 1, 1], \"blocks\": [\x7b\"pos\": [0, 0, 0], \"block_id\": \"sign\", " ++
    "\"properties\": \x7b\"rotation\": \"03\"\x7d\x7d]\x7d"

/-- The text of the sign is read as the sign. -/
theorem parse_signText : parse signText = .ok sign :=
  Outcome.toOption_eq_some.1 (by decide +kernel)

/-- The sign may be read and lies in its box, and none of these steps brings it back. -/
theorem exists_not_restored : ∃ text p, Plan.parse text = .ok p ∧ p.checkBounds = .ok () ∧
    p.after (List.replicate 4 (.rotate .deg90)) ≠ p ∧
    p.after [.mirror .leftRight, .mirror .leftRight] ≠ p ∧
    p.after [.mirror .frontBack, .mirror .frontBack] ≠ p ∧
    p.after [.rotate .deg90, .rotate Rotation.deg90.inverse] ≠ p := by
  have hsign : ¬ sign.PlainHeadings := by decide
  refine ⟨signText, sign, parse_signText, rfl, ?_, ?_, ?_, ?_⟩
  all_goals
    intro hback
    exact hsign ((after_eq_self_iff ⟨_, .head _, rfl⟩ rfl).1 hback)

end Plan

end Blueprint
