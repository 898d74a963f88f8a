import Blueprint.Proofs.Plan.Check
import Blueprint.Proofs.Plan.Moved
import Mathlib.Data.List.Nodup

/-!
# Plans that fit their box, and their connectors

What lies in the box of a plan lies in the box that a step makes of it, and connectors that are
well formed stay so: a step only moves where they stand and where they point. So neither check
can fail after a step if it passed before. Nor can the step itself overflow, whatever the extent of
the box is (`Plan.movesExactly`).
-/

namespace Blueprint

/-! ## The box -/

/-- To count a cell of an axis from the other end, the words are subtracted as the numbers that they
stand for. -/
theorem word_mirror_toInt {n x : Int32} (h : 0 ≤ x ∧ x < n) :
    (n - 1).toInt = n.toInt - 1 ∧ (n - 1 - x).toInt = n.toInt - 1 - x.toInt := by
  obtain ⟨hlow, hhigh⟩ := h
  rw [Int32.le_iff_toInt_le, Int32.toInt_zero] at hlow
  rw [Int32.lt_iff_toInt_lt] at hhigh
  have hbound := n.toInt_lt
  -- nothing on the way is less than zero
  have hlast : (n - 1).toInt = n.toInt - 1 := by
    rw [Int32.toInt_sub, Int32.toInt_one]
    exact Int.bmod_eq_of_le (by omega) (by omega)
  refine ⟨hlast, ?_⟩
  rw [Int32.toInt_sub, hlast]
  exact Int.bmod_eq_of_le (by omega) (by omega)

/-- A cell of an axis, counted from the other end, is a cell of that axis. -/
theorem word_mirror_mem {n x : Int32} (h : 0 ≤ x ∧ x < n) : 0 ≤ n - 1 - x ∧ n - 1 - x < n := by
  have hsub := (word_mirror_toInt h).2
  obtain ⟨hlow, hhigh⟩ := h
  rw [Int32.le_iff_toInt_le, Int32.toInt_zero] at hlow
  rw [Int32.lt_iff_toInt_lt] at hhigh
  rw [Int32.le_iff_toInt_le, Int32.lt_iff_toInt_lt, Int32.toInt_zero, hsub]
  omega

/-- A step takes the box into the box that it becomes. -/
theorem Size.contains_step {size : Size} {q : Pos} (h : size.Contains q) (s : Step) :
    (size.step s).Contains (q.step size s) := by
  obtain ⟨hx, hy, hz⟩ := h
  cases s with
  | rotate r =>
    cases r with
    | deg0 => exact ⟨hx, hy, hz⟩
    | deg90 => exact ⟨word_mirror_mem hz, hy, hx⟩
    | deg180 => exact ⟨word_mirror_mem hx, hy, word_mirror_mem hz⟩
    | deg270 => exact ⟨hz, hy, word_mirror_mem hx⟩
  | mirror m =>
    cases m with
    | off => exact ⟨hx, hy, hz⟩
    | leftRight => exact ⟨hx, hy, word_mirror_mem hz⟩
    | frontBack => exact ⟨word_mirror_mem hx, hy, hz⟩

/-- A step moves a cell without overflow: the last cells of the axes and the new coordinates are the
numbers that they would be if there was no bound on words. -/
structure Pos.MovesExactly (size : Size) (s : Step) (q : Pos) : Prop where
  /-- the last cell of the first axis -/
  lastX : size.lastCells.x.toInt = size.w.toInt - 1
  /-- the last cell of the third axis -/
  lastZ : size.lastCells.z.toInt = size.l.toInt - 1
  /-- the cell moves as it would among all numbers -/
  cell : (q.step size s).map Int32.toInt =
    (q.map Int32.toInt).step ⟨size.w.toInt - 1, size.l.toInt - 1⟩ s

/-- No step overflows at a cell of the box. -/
theorem Pos.movesExactly {size : Size} {q : Pos} (h : size.Contains q) (s : Step) :
    q.MovesExactly size s := by
  obtain ⟨hx, -, hz⟩ := h
  obtain ⟨hlastX, hmirrorX⟩ := word_mirror_toInt hx
  obtain ⟨hlastZ, hmirrorZ⟩ := word_mirror_toInt hz
  refine ⟨hlastX, hlastZ, ?_⟩
  cases s with
  | rotate r =>
    cases r <;>
      simp only [Pos.step, Vec3.step, Vec3.rotate, Vec3.map, Size.lastCells, hmirrorX, hmirrorZ]
  | mirror m =>
    cases m <;>
      simp only [Pos.step, Vec3.step, Vec3.mirror, Vec3.map, Size.lastCells, hmirrorX, hmirrorZ]

namespace Plan

/-- The bounds are checked for everything that has a cell. -/
theorem checkBounds_eq_ok {p : Plan} :
    p.checkBounds = .ok () ↔ ∀ e ∈ p.positions, p.size.Contains e.2 := by
  rw [checkBounds]
  cases hfind : p.positions.find? fun e => ¬ p.size.Contains e.2 with
  | none =>
    refine iff_of_true rfl fun e he => ?_
    simpa using List.find?_eq_none.1 hfind e he
  | some outside =>
    refine iff_of_false (fun h => nomatch h) fun hall => ?_
    have houtside := List.find?_some hfind
    exact absurd (hall outside (List.mem_of_find?_eq_some hfind)) (by simpa using houtside)

/-- A plan fits its box exactly if its blocks, its connectors and its entities do. -/
theorem checkBounds_eq_ok_iff {p : Plan} : p.checkBounds = .ok () ↔
    (∀ b ∈ p.blocks, p.size.Contains b.pos) ∧ (∀ j ∈ p.jigsaws, p.size.Contains j.pos) ∧
      ∀ e ∈ p.entities, p.size.Contains e.blockPos := by
  rw [checkBounds_eq_ok, positions, List.forall_mem_append, List.forall_mem_append, and_assoc]
  simp only [List.forall_mem_map]

/-- Everything that has a position is moved. -/
theorem positions_step (s : Step) (p : Plan) :
    (p.step s).positions = p.positions.map fun e => (e.1, e.2.step p.size s) := by
  simp only [positions, blocks_step, jigsaws_step, entities_step, List.map_append, List.map_map]
  refine congrArg₂ _ (congrArg₂ _ ?_ ?_) ?_
  · exact List.map_congr_left fun b _ => congrArg (Prod.mk _) (b.pos_moved s p.size)
  · exact List.map_congr_left fun j _ => congrArg (Prod.mk _) (j.pos_moved s p.size)
  · exact List.map_congr_left fun e _ => congrArg (Prod.mk _) (e.blockPos_moved s p.size)

/-- A plan that fits its box fits it after a step. -/
theorem checkBounds_step {p : Plan} (h : p.checkBounds = .ok ()) (s : Step) :
    (p.step s).checkBounds = .ok () := by
  rw [checkBounds_eq_ok] at h ⊢
  rw [positions_step, size_step, List.forall_mem_map]
  intro e he
  exact Size.contains_step (h e he) s

/-- A step moves a plan without overflow. -/
def MovesExactly (p : Plan) (s : Step) : Prop := ∀ e ∈ p.positions, e.2.MovesExactly p.size s

/-- A plan that fits its box is moved without overflow. -/
theorem movesExactly {p : Plan} (h : p.checkBounds = .ok ()) (s : Step) : p.MovesExactly s :=
  fun e he => Pos.movesExactly (checkBounds_eq_ok.1 h e he) s

/-- What lies in the box lies in the turned box afterwards. -/
theorem checkBounds_transform {p : Plan} (h : p.checkBounds = .ok ()) (r : Rotation) (m : Mirror) :
    (p.transform r m).checkBounds = .ok () :=
  checkBounds_step (checkBounds_step h (.rotate r)) (.mirror m)

end Plan

/-! ## Connectors -/

/-- The orientations of connectors are turned into each other. -/
theorem Step.orientationName_mem (s : Step) {name : String} (h : name ∈ jigsawOrientations) :
    s.orientationName name ∈ jigsawOrientations := by
  have hall : ∀ name ∈ jigsawOrientations, s.orientationName name ∈ jigsawOrientations := by
    cases s with
    | rotate r => cases r <;> decide
    | mirror m => cases m <;> decide
  exact hall name h

/-- A connector with well-formed fields has well-formed fields after a step. -/
theorem Jigsaw.exists_data_moved {j : Jigsaw} (h : ∃ c, j.data 0 = .ok c) (s : Step) (size : Size) :
    ∃ c, (j.moved s size).data 0 = .ok c := by
  rw [moved]
  split
  · exact h
  · obtain ⟨c, hc⟩ := h
    obtain ⟨name, pool, target, hname, hpool, htarget, hjoint, horientation, -⟩ := data_eq_ok.1 hc
    exact ⟨_, data_eq_ok.2 ⟨name, pool, target, hname, hpool, htarget, hjoint,
      s.orientationName_mem horientation, rfl⟩⟩

namespace Plan

/-- Connectors that pass their check pass it after a step. -/
theorem exists_checkJigsaws_step {p : Plan} (h : ∃ connectors, p.checkJigsaws = .ok connectors)
    (s : Step) : ∃ connectors, (p.step s).checkJigsaws = .ok connectors := by
  obtain ⟨hpolicy, hnodup, hdata⟩ := exists_checkJigsaws_eq_ok.1 h
  have hkept : (p.step s).jigsawPolicy = p.jigsawPolicy := by
    rw [step]
    split <;> rfl
  have hcells : (p.jigsaws.map (Jigsaw.moved s p.size)).map Jigsaw.pos =
      (p.jigsaws.map Jigsaw.pos).map (Pos.step p.size s) := by
    rw [List.map_map, List.map_map]
    exact List.map_congr_left fun j _ => j.pos_moved s p.size
  rw [exists_checkJigsaws_eq_ok, hkept, jigsaws_step, List.length_map, hcells, List.forall_mem_map]
  refine ⟨hpolicy, hnodup.map (Pos.step_bijective p.size s).injective, ?_⟩
  intro j hj
  exact Jigsaw.exists_data_moved (hdata j hj) s p.size

/-- Connectors that pass their check do so after a move. -/
theorem exists_checkJigsaws_transform {p : Plan}
    (h : ∃ connectors, p.checkJigsaws = .ok connectors) (r : Rotation) (m : Mirror) :
    ∃ connectors, (p.transform r m).checkJigsaws = .ok connectors :=
  exists_checkJigsaws_step (exists_checkJigsaws_step h (.rotate r)) (.mirror m)

end Plan

end Blueprint
