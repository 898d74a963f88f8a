import Blueprint.Proofs.Structure.Compile
import Mathlib.Data.List.Basic

/-!
# Structures in canonical form

A block of a structure does not have its state but a number, the place of the state in the
palette. There are many ways to number the same states, and to list the same blocks. A structure
is `Canonical` if its blocks stand in the order of their positions, every entry of the palette is
there once and for some block, and the entries come in the order in which the blocks first use
them. Nothing is left to choose then: the states at the positions decide the palette and every
number (`Canonical.palette_eq`, `Canonical.numbering_eq`). Compiled structures are canonical.
-/

namespace Blueprint

/-! ## First uses in a list -/

section

variable {α β : Type} [BEq α] [LawfulBEq α] [BEq β] [LawfulBEq β]

/-- Of two members that a filter keeps, the same one is first before the filter and after it. -/
theorem idxOf_filter_lt_iff {keep : α → Bool} {a b : α} (ha : keep a = true) (hb : keep b = true)
    (l : List α) : (l.filter keep).idxOf a < (l.filter keep).idxOf b ↔ l.idxOf a < l.idxOf b := by
  induction l with
  | nil => simp
  | cons c l ih =>
    cases hc : keep c with
    | true =>
      rw [List.filter_cons_of_pos hc]
      by_cases hcb : c = b
      · simp [hcb]
      · rw [List.idxOf_cons_ne _ hcb, List.idxOf_cons_ne _ hcb]
        by_cases hca : c = a
        · simp [hca]
        · rw [List.idxOf_cons_ne _ hca, List.idxOf_cons_ne _ hca, Nat.succ_lt_succ_iff,
            Nat.succ_lt_succ_iff, ih]
    | false =>
      have hca : c ≠ a := fun h => by simp [← h, hc] at ha
      have hcb : c ≠ b := fun h => by simp [← h, hc] at hb
      rw [List.filter_cons_of_neg (by simp [hc]), ih, List.idxOf_cons_ne l hca,
        List.idxOf_cons_ne l hcb, Nat.succ_lt_succ_iff]

/-- Without its repetitions, a list has its members in the order of their first uses. -/
theorem pairwise_idxOf_eraseDups (l : List α) :
    l.eraseDups.Pairwise fun a b => l.idxOf a < l.idxOf b := by
  match l with
  | [] => exact .nil
  | a :: l =>
    have hkept : ∀ b ∈ (l.filter fun b => !b == a).eraseDups, a ≠ b := by
      intro b hb hab
      have hother := List.of_mem_filter (List.mem_eraseDups.1 hb)
      simp [hab] at hother
    rw [List.eraseDups_cons, List.pairwise_cons]
    constructor
    · intro b hb
      rw [List.idxOf_cons_self, List.idxOf_cons_ne l (hkept b hb)]
      exact Nat.succ_pos _
    · apply (pairwise_idxOf_eraseDups (l.filter fun b => !b == a)).imp_of_mem
      intro b c hb hc hlt
      rw [List.idxOf_cons_ne l (hkept b hb), List.idxOf_cons_ne l (hkept c hc)]
      have hfirst := (idxOf_filter_lt_iff (by simpa using (hkept b hb).symm)
        (by simpa using (hkept c hc).symm) l).1 hlt
      exact Nat.succ_lt_succ hfirst
termination_by l.length
decreasing_by exact Nat.lt_succ_of_le (List.length_filter_le _ l)

/-- A member that is told from the others by `f` is first where its image is. -/
theorem idxOf_map {f : α → β} {a : α} {l : List α} (h : ∀ b ∈ l, f b = f a → b = a) :
    (l.map f).idxOf (f a) = l.idxOf a := by
  induction l with
  | nil => rfl
  | cons b l ih =>
    obtain ⟨hb, hl⟩ := List.forall_mem_cons.1 h
    rw [List.map_cons]
    by_cases hba : b = a
    · rw [hba, List.idxOf_cons_self, List.idxOf_cons_self]
    · rw [List.idxOf_cons_ne l hba, List.idxOf_cons_ne _ fun heq => hba (hb heq), ih hl]

end

/-! ## The order of cells -/

/-- The cell `p` comes before the cell `q`: by `x`, then by `y`, then by `z`. -/
def Pos.Before (p q : Pos) : Prop :=
  p.x < q.x ∨ p.x = q.x ∧ (p.y < q.y ∨ p.y = q.y ∧ p.z < q.z)

/-- Positions are compared coordinate by coordinate, as cells are. -/
theorem Pos.compare_eq_lt_iff {p q : Pos} : compare p q = .lt ↔ p.Before q := by
  change ((compare p.x q.x).then ((compare p.y q.y).then (compare p.z q.z))) = .lt ↔ _
  simp only [Ordering.then_eq_lt, Std.compare_eq_lt, Std.LawfulEqCmp.compare_eq_iff_eq]
  rfl

/-- Of two positions at most one is before the other. -/
theorem Pos.Before.asymm {p q : Pos} (h : p.Before q) : ¬ q.Before p := by
  rw [← compare_eq_lt_iff] at h ⊢
  rw [Std.OrientedCmp.gt_of_lt h]
  decide

/-! ## Canonical structures -/

namespace Structure

/-- The state stands at the position: a block there has its number. -/
def HasState (s : Structure) (q : Pos) (e : PaletteEntry) : Prop :=
  ∃ b ∈ s.blocks, b.pos = q ∧ s.palette[b.paletteIndex]? = some e

/-- The positions of the blocks with the numbers of their states. -/
def numbering (s : Structure) : List (Pos × Nat) := s.blocks.map fun b => (b.pos, b.paletteIndex)

/-- The place of the first block whose state has the number `k`. -/
def firstUse (s : Structure) (k : Nat) : Nat := s.blocks.findIdx fun b => b.paletteIndex == k

/-- The blocks are in order, and the palette has their states in the order of first use. -/
structure Canonical (s : Structure) : Prop where
  /-- the blocks stand in the order of their positions, one at each -/
  sorted : s.blocks.Pairwise fun a b => a.pos.Before b.pos
  /-- the number of every block is the place of an entry -/
  inPalette : ∀ b ∈ s.blocks, b.paletteIndex < s.palette.length
  /-- no entry is there twice -/
  distinct : s.palette.Nodup
  /-- every entry is that of some block -/
  used : ∀ k, k < s.palette.length → ∃ b ∈ s.blocks, b.paletteIndex = k
  /-- every entry is first used after the one before it -/
  numbered : ∀ k, k + 1 < s.palette.length → s.firstUse k < s.firstUse (k + 1)

variable {s s' : Structure}

/-- The positions of the blocks with their states. -/
def states (s : Structure) : List (Pos × Option PaletteEntry) :=
  s.blocks.map fun b => (b.pos, s.palette[b.paletteIndex]?)

/-- The states of the blocks are looked up by their numbers. -/
theorem snd_states (s : Structure) :
    s.states.map Prod.snd = (s.blocks.map PlacedBlock.paletteIndex).map (s.palette[·]?) := by
  rw [states, List.map_map, List.map_map]
  rfl

/-- Where an entry stands once, its number is first used where its state is. -/
theorem firstUse_eq (hdistinct : s.palette.Nodup) {k : Nat} (hk : k < s.palette.length) :
    s.firstUse k = (s.states.map Prod.snd).idxOf (some s.palette[k]) := by
  have hnumber : ∀ j ∈ s.blocks.map PlacedBlock.paletteIndex,
      s.palette[j]? = s.palette[k]? → j = k := by
    intro j _ hsame
    exact ((List.getElem?_inj hk hdistinct).1 hsame.symm).symm
  have hplace := idxOf_map (f := (s.palette[·]?)) hnumber
  rw [snd_states, ← List.getElem?_eq_getElem hk, hplace, firstUse, List.idxOf, List.findIdx_map]
  rfl

namespace Canonical

/-- A position is listed with the states that stand there. -/
theorem mem_states_iff (h : s.Canonical) {q : Pos} {state : Option PaletteEntry} :
    (q, state) ∈ s.states ↔ ∃ e, state = some e ∧ s.HasState q e := by
  rw [states, List.mem_map]
  constructor
  · rintro ⟨b, hb, hpair⟩
    obtain ⟨rfl, rfl⟩ := Prod.mk.inj hpair
    have hentry := List.getElem?_eq_getElem (h.inPalette b hb)
    exact ⟨_, hentry, b, hb, rfl, hentry⟩
  · rintro ⟨e, rfl, b, hb, rfl, hentry⟩
    exact ⟨b, hb, by rw [hentry]⟩

/-- Blocks in order with the same states at the same positions are the same list of states. -/
theorem states_eq (h : s.Canonical) (h' : s'.Canonical)
    (hsame : ∀ q e, s.HasState q e ↔ s'.HasState q e) : s.states = s'.states := by
  have hsorted {s : Structure} (h : s.Canonical) :
      s.states.Pairwise fun a b => a.1.Before b.1 := List.pairwise_map.2 h.sorted
  have hnodup {s : Structure} (h : s.Canonical) : s.states.Nodup := by
    apply (hsorted h).imp
    rintro a b hbefore rfl
    exact hbefore.asymm hbefore
  apply List.Perm.eq_of_pairwise _ (hsorted h) (hsorted h')
  · rw [List.perm_ext_iff_of_nodup (hnodup h) (hnodup h')]
    rintro ⟨q, state⟩
    simp only [h.mem_states_iff, h'.mem_states_iff, hsame]
  · intro a b _ _ hab hba
    exact absurd hba hab.asymm

/-- Later entries are first used later. -/
theorem firstUse_lt (h : s.Canonical) {j k : Nat} (hlt : j < k) (hk : k < s.palette.length) :
    s.firstUse j < s.firstUse k := by
  induction hlt with
  | refl => exact h.numbered j hk
  | step _ ih => exact Nat.lt_trans (ih (Nat.lt_of_succ_lt hk)) (h.numbered _ hk)

/-- The palette is in the order in which the states come first. -/
theorem pairwise_palette (h : s.Canonical) : s.palette.Pairwise fun e e' =>
    (s.states.map Prod.snd).idxOf (some e) < (s.states.map Prod.snd).idxOf (some e') := by
  rw [List.pairwise_iff_getElem]
  intro j k hj hk hlt
  rw [← firstUse_eq h.distinct hj, ← firstUse_eq h.distinct hk]
  exact h.firstUse_lt hlt hk

/-- The palette has the states of the blocks and no others. -/
theorem mem_palette_iff (h : s.Canonical) {e : PaletteEntry} :
    e ∈ s.palette ↔ some e ∈ s.states.map Prod.snd := by
  simp only [states, List.map_map, List.mem_map, Function.comp_apply]
  constructor
  · intro he
    obtain ⟨k, hk, rfl⟩ := List.getElem_of_mem he
    obtain ⟨b, hb, rfl⟩ := h.used k hk
    exact ⟨b, hb, List.getElem?_eq_getElem hk⟩
  · rintro ⟨b, -, hentry⟩
    exact List.mem_of_getElem? hentry

/-- The states at the positions decide the palette. -/
theorem palette_eq (h : s.Canonical) (h' : s'.Canonical)
    (hsame : ∀ q e, s.HasState q e ↔ s'.HasState q e) : s.palette = s'.palette := by
  have hsorted := h'.pairwise_palette
  have hmem (e : PaletteEntry) : e ∈ s'.palette ↔ some e ∈ s.states.map Prod.snd := by
    rw [h'.mem_palette_iff, h.states_eq h' hsame]
  rw [← h.states_eq h' hsame] at hsorted
  apply List.Perm.eq_of_pairwise _ h.pairwise_palette hsorted
  · rw [List.perm_ext_iff_of_nodup h.distinct h'.distinct]
    intro e
    rw [h.mem_palette_iff, hmem]
  · intro a b _ _ hab hba
    exact absurd hba (Nat.lt_asymm hab)

/-- The number of a block is the place of its state. -/
theorem numbering_eq_states (h : s.Canonical) :
    s.numbering = s.states.map fun e => (e.1, (s.palette.map some).idxOf e.2) := by
  have hdistinct : (s.palette.map some).Nodup := by
    apply List.pairwise_map.2
    exact h.distinct.imp fun hne heq => hne (Option.some.inj heq)
  rw [numbering, states, List.map_map]
  apply List.map_congr_left
  intro b hb
  have hk := h.inPalette b hb
  have hplace := hdistinct.idxOf_getElem b.paletteIndex (by rwa [List.length_map])
  rw [List.getElem_map] at hplace
  rw [Function.comp_apply, List.getElem?_eq_getElem hk, hplace]

/-- The states at the positions decide every number. -/
theorem numbering_eq (h : s.Canonical) (h' : s'.Canonical)
    (hsame : ∀ q e, s.HasState q e ↔ s'.HasState q e) : s.numbering = s'.numbering := by
  rw [h.numbering_eq_states, h'.numbering_eq_states, h.states_eq h' hsame,
    h.palette_eq h' hsame]

end Canonical

end Structure

/-! ## Compiled structures -/

namespace Layout

variable (size : Size) (entities : List PlacedEntity) (layout : Layout)

/-- The states of what is assembled are those of its cells. -/
theorem snd_states_assemble : (layout.assemble size entities).states.map Prod.snd =
    (layout.toList.map fun c => c.2.entry).map some := by
  simp only [Structure.states, assemble, List.map_map]
  apply List.map_congr_left
  intro c hc
  apply List.getElem?_idxOf
  exact List.mem_eraseDups.2 (List.mem_map_of_mem hc)

/-- The palette of a layout is in the order in which its cells first have the entries. -/
theorem pairwise_palette_assemble : (layout.assemble size entities).palette.Pairwise fun e e' =>
    (layout.toList.map fun c => c.2.entry).idxOf e <
      (layout.toList.map fun c => c.2.entry).idxOf e' :=
  pairwise_idxOf_eraseDups _

/-- No entry is there twice in what is assembled. -/
theorem nodup_palette_assemble : (layout.assemble size entities).palette.Nodup := by
  apply (layout.pairwise_palette_assemble size entities).imp
  rintro e e' hlt rfl
  exact absurd hlt (Nat.lt_irrefl _)

/-- The number of a state is first used in the first cell that has its entry. -/
theorem firstUse_assemble {k : Nat} (hk : k < (layout.assemble size entities).palette.length) :
    (layout.assemble size entities).firstUse k =
      (layout.toList.map fun c => c.2.entry).idxOf (layout.assemble size entities).palette[k] := by
  rw [Structure.firstUse_eq (layout.nodup_palette_assemble size entities) hk, snd_states_assemble]
  apply idxOf_map
  intro e _ heq
  exact Option.some.inj heq

/-- **The structure of a layout is canonical**, since the layout has its cells in order. -/
theorem canonical_assemble : (layout.assemble size entities).Canonical where
  sorted := by
    rw [assemble, List.pairwise_map]
    -- the cells come out of the map in its order, which is that of the list
    apply Std.TreeMap.ordered_keys_toList.imp
    intro c c' hlt
    exact Pos.compare_eq_lt_iff.1 hlt
  inPalette := by
    intro b hb
    obtain ⟨c, hc, rfl⟩ := List.mem_map.1 hb
    apply List.idxOf_lt_length_of_mem
    exact List.mem_eraseDups.2 (List.mem_map_of_mem hc)
  distinct := layout.nodup_palette_assemble size entities
  used := by
    intro k hk
    obtain ⟨c, hc, hentry⟩ := List.mem_map.1 (List.mem_eraseDups.1 (List.getElem_mem hk))
    refine ⟨_, List.mem_map_of_mem hc, ?_⟩
    have hplace := (layout.nodup_palette_assemble size entities).idxOf_getElem k hk
    rwa [← hentry] at hplace
  -- a later entry is first used at a later cell, since each entry was added at its first use
  numbered := by
    intro k hk
    rw [layout.firstUse_assemble size entities (Nat.lt_of_succ_lt hk),
      layout.firstUse_assemble size entities hk]
    have horder := layout.pairwise_palette_assemble size entities
    exact List.pairwise_iff_getElem.1 horder k (k + 1) _ hk (Nat.lt_succ_self k)

end Layout

namespace Plan

/-- **Compiled structures are canonical.** The blocks of a compiled structure are in the order of
their positions; its palette has every state of a block once and no others, in the order in which
the blocks first use them. So the states at the positions decide the palette and the number of
every block: any other canonical structure with these states has the same. -/
theorem compile_canonical {p : Plan} {biome : Option String} {ctx : CompileContext}
    {o : CompileOptions} {s : Structure} (h : p.compile biome ctx o = .ok s) :
    s.Canonical ∧ ∀ s' : Structure, s'.Canonical →
      (∀ q e, s'.HasState q e ↔ s.HasState q e) →
      s'.palette = s.palette ∧ s'.numbering = s.numbering := by
  obtain ⟨_, moved, -, -, hassembled⟩ := compile_eq_ok.1 h
  obtain ⟨blocks, entities, connectors, -, -, -, rfl⟩ := assembled_eq_ok.1 hassembled
  have hcanonical := Layout.canonical_assemble moved.size
    (if o.includeEntities then entities else [])
    (moved.jigsaws.foldl (Layout.addJigsaw connectors) blocks)
  refine ⟨hcanonical, ?_⟩
  intro s' hcanonical' hsame
  exact ⟨hcanonical'.palette_eq hcanonical hsame, hcanonical'.numbering_eq hcanonical hsame⟩

/-- A path of three cells, written from its end: gravel, sand, gravel. -/
def path : Plan where
  id := none
  size := ⟨3, 1, 1⟩
  blocks := [
    ⟨⟨2, 0, 0⟩, .direct ⟨"gravel", .empty⟩, none⟩,
    ⟨⟨1, 0, 0⟩, .direct ⟨"sand", .empty⟩, none⟩,
    ⟨⟨0, 0, 0⟩, .direct ⟨"gravel", .empty⟩, none⟩]
  entities := []
  jigsaws := []
  jigsawPolicy := .unrestricted
  palettes := .empty
  tags := []

/-- The palette of the path has gravel and sand, and the cells from the first on have the numbers
zero, one and zero. -/
theorem compile_canonical_path :
    let ctx : CompileContext := ⟨(Allowlist.empty.allow "gravel" []).allow "sand" [], .empty⟩
    ∃ s, path.compile none ctx ⟨.deg0, .off, false⟩ = .ok s ∧ s.Canonical ∧
      s.palette = [⟨"gravel", .empty⟩, ⟨"sand", .empty⟩] ∧
      s.numbering = [(⟨0, 0, 0⟩, 0), (⟨1, 0, 0⟩, 1), (⟨2, 0, 0⟩, 0)] := by
  intro ctx
  obtain ⟨s, hs, hpalette, hnumbering⟩ :
      ∃ s, path.compile none ctx ⟨.deg0, .off, false⟩ = .ok s ∧
        s.palette = [⟨"gravel", .empty⟩, ⟨"sand", .empty⟩] ∧
        s.numbering = [(⟨0, 0, 0⟩, 0), (⟨1, 0, 0⟩, 1), (⟨2, 0, 0⟩, 0)] :=
    ⟨_, rfl, by decide, by decide⟩
  exact ⟨s, hs, (compile_canonical hs).1, hpalette, hnumbering⟩

end Plan

end Blueprint
