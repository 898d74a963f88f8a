import Blueprint.Proofs.BlockState.RoundTrip
import Blueprint.Proofs.Plan.Accept
import Blueprint.Proofs.Plan.Bind
import Blueprint.Proofs.Plan.Check
import Blueprint.Proofs.Plan.Moved
import Blueprint.Proofs.Plan.Symmetry

/-!
# Final states are read back

A connector carries the state that replaces it in the end, as a text in its data. The state was
itself read from a text, and steps keep what reading makes of a text. So whoever reads the data
finds the final state of the connector, moved with the plan.
-/

namespace Blueprint

open Nbt

namespace Plan

/-- The final states of connectors take all steps but those that change nothing. -/
theorem map_finalState_after (steps : List Step) (p : Plan) :
    (p.after steps).jigsaws.map Jigsaw.finalState =
      p.jigsaws.map fun j => j.finalState.after (steps.filter fun s => !s.isIdentity) := by
  induction steps generalizing p with
  | nil => rfl
  | cons s steps ih =>
    refine (ih (p.step s)).trans ?_
    rw [jigsaws_step, List.map_map]
    refine List.map_congr_left fun j _ => ?_
    rw [Function.comp_apply, Jigsaw.moved]
    cases h : s.isIdentity with
    | true => simp [h]
    | false => simp [h, Jigsaw.step]

/-- The final state of a connector stands in its data as its text. -/
theorem get?_finalState_of_checkJigsaws {p : Plan} {connectors : SortedMap Pos Compound}
    (h : p.checkJigsaws = .ok connectors) {j : Jigsaw} (hj : j ∈ p.jigsaws) :
    ∃ data, connectors.get? j.pos = some data ∧
      Compound.get? "final_state" data = some (.string j.finalState.text) := by
  obtain ⟨data, hdata, hget⟩ := (connectedBy_of_checkJigsaws h).data j hj
  obtain ⟨name, pool, target, -, -, -, -, -, rfl⟩ := Jigsaw.data_eq_ok.1 hdata
  exact ⟨_, hget, rfl⟩

/-- **The text of a state is read as that state.** This holds of every state that was read and of
what steps make of it, so two such states with one text are the same. The final state in the data of
a connector is such a text: in a plan that was read, bound to a biome or not, and then moved, it is
read as the final state of the connector, which is the one it was read with, moved. -/
theorem reread :
    (∀ text state, BlockState.parse text = .ok state → ∀ steps,
      BlockState.parse (state.after steps).text = .ok (state.after steps)) ∧
    (∀ text text' state state', BlockState.parse text = .ok state →
      BlockState.parse text' = .ok state' → ∀ steps steps',
      (state.after steps).text = (state'.after steps').text →
        state.after steps = state'.after steps') ∧
    ∀ document p, parse document = .ok p →
      ∀ q, q = p ∨ (∃ biome, p.bind biome = .ok q) → ∀ steps connectors,
      (q.after steps).checkJigsaws = .ok connectors →
        (q.after steps).jigsaws.map Jigsaw.finalState =
          p.jigsaws.map (fun j => j.finalState.after (steps.filter fun s => !s.isIdentity)) ∧
        ∀ j ∈ (q.after steps).jigsaws, ∃ data text, connectors.get? j.pos = some data ∧
          Compound.get? "final_state" data = some (.string text) ∧
          BlockState.parse text = .ok j.finalState := by
  -- a state that was read stays readable under every step
  have hread {text : String} {state : BlockState} (h : BlockState.parse text = .ok state)
      (steps : List Step) :
      BlockState.parse (state.after steps).text = .ok (state.after steps) :=
    ((BlockState.isRead_of_parse h).after steps).parse_text
  refine ⟨fun _ _ h => hread h, fun text text' state state' h h' steps steps' htext => ?_,
    fun document p h q hq steps connectors hconnectors => ?_⟩
  · have hstate := hread h steps
    rw [htext, hread h' steps'] at hstate
    exact (Except.ok.inj hstate).symm
  -- writing the materials out leaves the connectors as they are
  · have hjigsaws : q.jigsaws = p.jigsaws := by
      obtain rfl | ⟨biome, hbind⟩ := hq
      · rfl
      · exact jigsaws_of_bind hbind
    have hmoved := map_finalState_after steps q
    rw [hjigsaws] at hmoved
    refine ⟨hmoved, fun j hj => ?_⟩
    obtain ⟨data, hdata, hfinal⟩ := get?_finalState_of_checkJigsaws hconnectors hj
    -- the text in the data is that of a turned state of the plan, which was read from a text
    refine ⟨data, _, hdata, hfinal, ?_⟩
    have hstate := List.mem_map_of_mem (f := Jigsaw.finalState) hj
    rw [hmoved] at hstate
    obtain ⟨authored, hauthored, hsame⟩ := List.mem_map.1 hstate
    obtain ⟨text, htext⟩ := exists_finalState_text_of_parse h hauthored
    rw [← hsame]
    exact hread htext _

/-- A wall with a low side to the north. -/
def lowWall : BlockState :=
  ⟨"minecraft:wall", .ofList [("north", .string "[low]"), ("up", .string "a=b")]⟩

/-- The wall as it may be written, with blanks and an empty place. -/
def lowWallText : String := " minecraft:wall[ up = a=b ,, north =[low]] "

/-- A connector that the wall replaces in the end. -/
def archway : Plan where
  id := none
  size := ⟨1, 1, 1⟩
  blocks := []
  entities := []
  jigsaws := [⟨⟨0, 0, 0⟩, "north_up", "arch", "roads", "road", "rollable", lowWall⟩]
  jigsawPolicy := .unrestricted
  palettes := .empty
  tags := []

/-- The archway as a document, with its fields in order and no names for them. -/
def archwayText : String :=
  "[null, null, [1, 1, 1], [], [[[0, 0, 0], \"north_up\", \"arch\", \"roads\", \"road\", " ++
    "\"rollable\", \"" ++ lowWallText ++ "\"]]]"

/-- The text of the low wall is read as its state. -/
theorem parse_lowWallText : BlockState.parse lowWallText = .ok lowWall :=
  Outcome.toOption_eq_some.1 (by decide +kernel)

/-- The text of the archway is read as the archway. -/
theorem parse_archwayText : parse archwayText = .ok archway :=
  Outcome.toOption_eq_some.1 (by decide +kernel)

/-- A quarter turn puts the low side to the east, and that is what is read from the text of the wall
and from the data of the connector. -/
theorem reread_archway :
    let turned : BlockState :=
      ⟨"minecraft:wall", .ofList [("east", .string "[low]"), ("up", .string "a=b")]⟩
    BlockState.parse lowWallText = .ok lowWall ∧
    BlockState.parse "minecraft:wall[east=[low],up=a=b]" = .ok turned ∧
    parse archwayText = .ok archway ∧
    ∃ connectors data text, (archway.after [.rotate .deg90]).checkJigsaws = .ok connectors ∧
      connectors.get? ⟨0, 0, 0⟩ = some data ∧
      Compound.get? "final_state" data = some (.string text) ∧
      BlockState.parse text = .ok turned := by
  intro turned
  obtain ⟨hstate, -, hplan⟩ := reread
  have hturned : lowWall.after [.rotate .deg90] = turned := by decide +kernel
  have hwall := hstate lowWallText lowWall parse_lowWallText [.rotate .deg90]
  have htext : turned.text = "minecraft:wall[east=[low],up=a=b]" := by decide +kernel
  rw [hturned, htext] at hwall
  obtain ⟨connectors, hconnectors⟩ :
      ∃ connectors, (archway.after [.rotate .deg90]).checkJigsaws = .ok connectors := ⟨_, rfl⟩
  obtain ⟨-, hdata⟩ :=
    hplan archwayText archway parse_archwayText archway (.inl rfl) _ _ hconnectors
  obtain ⟨data, text, hget, hfinal, hread⟩ := hdata _ (.head _)
  refine ⟨parse_lowWallText, hwall, parse_archwayText, connectors, data, text, hconnectors, hget,
    hfinal, hread.trans (congrArg Except.ok ?_)⟩
  exact hturned

end Plan

end Blueprint
