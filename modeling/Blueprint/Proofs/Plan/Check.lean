import Blueprint.Plan.Check
import Blueprint.Proofs.Outcome
import Blueprint.Proofs.SortedMap

/-!
# What the checks of a plan establish

A plan that passes a check has the property the check is named for. The data of connectors
comes out of their check, so what it holds at which position is said here too.
-/

namespace Blueprint

open Nbt

/-! ## Connectors -/

namespace Jigsaw

/-- A field with an identifier passes if it can be completed. -/
theorem identifier_eq_ok {i : Nat} {j : Jigsaw} {field given id : String} :
    j.identifier i field given = .ok id ↔ NamespacedId.complete? given = some id := by
  rw [identifier]
  rcases NamespacedId.complete? given with _ | id' <;> simp

/-- A connector whose fields are all well formed has this data, whatever its number is. -/
theorem data_eq_ok {i : Nat} {j : Jigsaw} {c : Compound} :
    j.data i = .ok c ↔
      ∃ name pool target, NamespacedId.complete? j.name = some name ∧
        NamespacedId.complete? j.pool = some pool ∧
        NamespacedId.complete? j.targetPool = some target ∧
        j.joint ∈ jigsawJoints ∧ j.orientation ∈ jigsawOrientations ∧
        c = [("name", .string name), ("target", .string target), ("pool", .string pool),
          ("final_state", .string j.finalState.text), ("joint", .string j.joint)] := by
  simp only [data, Outcome.bind_eq_ok, identifier_eq_ok]
  by_cases hjoint : j.joint ∈ jigsawJoints
  · by_cases horientation : j.orientation ∈ jigsawOrientations
    · simp [hjoint, horientation, Outcome.pure_eq_ok, @eq_comm _ c]
    · simp [hjoint, horientation, Outcome.map_eq_ok, Outcome.throw_eq_ok]
  · simp [hjoint, Outcome.bind_eq_ok, Outcome.throw_eq_ok]

/-- The number of a connector only shows in its errors. -/
theorem data_eq_ok_of_data_eq_ok {i : Nat} (i' : Nat) {j : Jigsaw} {c : Compound}
    (h : j.data i = .ok c) : j.data i' = .ok c := data_eq_ok.2 (data_eq_ok.1 h)

end Jigsaw

namespace Plan

/-- Connectors pass if the first one does, in a cell without another, and then the others do. -/
theorem connectorsFrom_cons_eq_ok {i : Nat} {read result : SortedMap Pos Compound} {j : Jigsaw}
    {js : List Jigsaw} :
    connectorsFrom i read (j :: js) = .ok result ↔
      ∃ c, j.data i = .ok c ∧ read.get? j.pos = none ∧
        connectorsFrom (i + 1) (read.insert j.pos c) js = .ok result := by
  simp only [connectorsFrom, Outcome.bind_eq_ok]
  refine exists_congr fun c => and_congr_right fun _ => ?_
  rcases hthere : read.get? j.pos with _ | there
  · simp [SortedMap.contains, hthere]
  · simp [SortedMap.contains, hthere, Outcome.bind_eq_ok, Outcome.throw_eq_ok]

/-- Connectors with well-formed fields in free cells of their own: their data is there, and
what was read before them stays. -/
theorem connectorsFrom_spec {i : Nat} {read result : SortedMap Pos Compound} {js : List Jigsaw}
    (h : connectorsFrom i read js = .ok result) :
    (∀ j ∈ js, read.get? j.pos = none) ∧ (js.map Jigsaw.pos).Nodup ∧
      (∀ j ∈ js, ∃ c, j.data 0 = .ok c ∧ result.get? j.pos = some c) ∧
      ∀ p, (∀ j ∈ js, j.pos ≠ p) → result.get? p = read.get? p := by
  -- a later connector is checked against all that was read before it, so `read` grows
  induction js generalizing i read with
  | nil =>
    obtain rfl := Except.ok.inj h
    exact ⟨fun j hj => absurd hj List.not_mem_nil, List.nodup_nil,
      fun j hj => absurd hj List.not_mem_nil, fun p _ => rfl⟩
  | cons j js ih =>
    obtain ⟨c, hc, hfree, hrest⟩ := connectorsFrom_cons_eq_ok.1 h
    obtain ⟨hfrees, hnodup, hdata, hother⟩ := ih hrest
    have hne : ∀ j' ∈ js, j'.pos ≠ j.pos := by
      intro j' hj' heq
      have hnone := hfrees j' hj'
      rw [heq, SortedMap.get?_insert_of_lawful, if_pos rfl] at hnone
      cases hnone
    refine ⟨List.forall_mem_cons.2 ⟨hfree, fun j' hj' => ?_⟩, ?_,
      List.forall_mem_cons.2 ⟨?_, hdata⟩, fun p hp => ?_⟩
    · rw [← hfrees j' hj', SortedMap.get?_insert_of_lawful, if_neg (hne j' hj')]
    · rw [List.map_cons, List.nodup_cons, List.mem_map]
      exact ⟨fun ⟨j', hj', heq⟩ => hne j' hj' heq, hnodup⟩
    · refine ⟨c, Jigsaw.data_eq_ok_of_data_eq_ok 0 hc, ?_⟩
      rw [hother j.pos hne, SortedMap.get?_insert_of_lawful, if_pos rfl]
    · rw [hother p fun j' hj' => hp j' (List.mem_cons_of_mem j hj'),
        SortedMap.get?_insert_of_lawful, if_neg (Ne.symm (hp j List.mem_cons_self))]

/-- Connectors are read exactly if their fields are well formed and each has a free cell of its
own. -/
theorem exists_connectorsFrom_eq_ok {i : Nat} {read : SortedMap Pos Compound} {js : List Jigsaw} :
    (∃ result, connectorsFrom i read js = .ok result) ↔
      (∀ j ∈ js, read.get? j.pos = none) ∧ (js.map Jigsaw.pos).Nodup ∧
        ∀ j ∈ js, ∃ c, j.data 0 = .ok c := by
  refine ⟨?_, ?_⟩
  · rintro ⟨result, h⟩
    obtain ⟨hfree, hnodup, hdata, -⟩ := connectorsFrom_spec h
    exact ⟨hfree, hnodup, fun j hj => (hdata j hj).imp fun c hc => hc.1⟩
  · rintro ⟨hfree, hnodup, hdata⟩
    induction js generalizing i read with
    | nil => exact ⟨read, rfl⟩
    | cons j js ih =>
      obtain ⟨⟨c, hc⟩, hdatas⟩ := List.forall_mem_cons.1 hdata
      obtain ⟨hown, hfrees⟩ := List.forall_mem_cons.1 hfree
      rw [List.map_cons, List.nodup_cons] at hnodup
      -- the cells of the others are not taken by this one
      have hstill : ∀ j' ∈ js, (read.insert j.pos c).get? j'.pos = none := by
        intro j' hj'
        have hne : j.pos ≠ j'.pos := fun heq => hnodup.1 (heq ▸ List.mem_map_of_mem hj')
        rw [SortedMap.get?_insert_of_lawful, if_neg fun heq => hne heq.symm, hfrees j' hj']
      obtain ⟨result, hrest⟩ := ih hstill hnodup.2 hdatas
      exact ⟨result,
        connectorsFrom_cons_eq_ok.2 ⟨c, Jigsaw.data_eq_ok_of_data_eq_ok i hc, hown, hrest⟩⟩

/-- Connectors pass their check exactly if they are as many as the policy asks for, stand in cells
of their own and have well-formed fields. -/
theorem exists_checkJigsaws_eq_ok {p : Plan} :
    (∃ connectors, p.checkJigsaws = .ok connectors) ↔
      checkPolicy p.jigsawPolicy p.jigsaws.length = .ok () ∧ (p.jigsaws.map Jigsaw.pos).Nodup ∧
        ∀ j ∈ p.jigsaws, ∃ c, j.data 0 = .ok c := by
  have hread : (∃ connectors, connectorsFrom 0 .empty p.jigsaws = .ok connectors) ↔
      (p.jigsaws.map Jigsaw.pos).Nodup ∧ ∀ j ∈ p.jigsaws, ∃ c, j.data 0 = .ok c := by
    rw [exists_connectorsFrom_eq_ok]
    exact and_iff_right fun j _ => rfl
  simp only [checkJigsaws, Outcome.mapError_eq_ok, connectors, Outcome.bind_eq_ok, ← hread]
  refine ⟨?_, ?_⟩
  · rintro ⟨connectors, ⟨⟩, hpolicy, hconnectors⟩
    exact ⟨hpolicy, connectors, hconnectors⟩
  · rintro ⟨hpolicy, connectors, hconnectors⟩
    exact ⟨connectors, (), hpolicy, hconnectors⟩

/-- What is known of connectors that pass their check: no two are in one cell, and the data
of a cell is that of the connector in it. -/
structure ConnectedBy (p : Plan) (connectors : SortedMap Pos Compound) : Prop where
  /-- no two connectors stand in one cell -/
  nodup : (p.jigsaws.map Jigsaw.pos).Nodup
  /-- every connector has its data -/
  data : ∀ j ∈ p.jigsaws, ∃ c, j.data 0 = .ok c ∧ connectors.get? j.pos = some c
  /-- there is no other data -/
  only : ∀ q, (∀ j ∈ p.jigsaws, j.pos ≠ q) → connectors.get? q = none

/-- Connectors that pass their check are in different cells, with their data. -/
theorem connectedBy_of_checkJigsaws {p : Plan} {connectors : SortedMap Pos Compound}
    (h : p.checkJigsaws = .ok connectors) : p.ConnectedBy connectors := by
  rw [checkJigsaws, Outcome.mapError_eq_ok, Plan.connectors, Outcome.bind_eq_ok] at h
  obtain ⟨_, -, h⟩ := h
  obtain ⟨-, hnodup, hdata, hother⟩ := connectorsFrom_spec h
  exact ⟨hnodup, hdata, hother⟩

end Plan

end Blueprint
