import Blueprint.Proofs.NamespacedId
import Blueprint.Proofs.Structure.Container
import Blueprint.Proofs.Structure.LaidOut

/-!
# The data of connectors

The data in the cell of a connector is made of two parts: five entries of the connector, and over
them the payload of the template that the block in the cell names. The five keys stay in front and
the others follow, and where both have a value it is that of the template. No data of a connector
gets into any other cell.
-/

namespace Blueprint

open Nbt

/-- An identifier is the full form of a text, and its own full form. -/
def NamespacedId.Completes (text id : String) : Prop :=
  complete? text = some id ∧ complete? id = some id

/-- What an identifier is completed to is complete. -/
theorem NamespacedId.Completes.of_complete? {text id : String} (h : complete? text = some id) :
    Completes text id := ⟨h, complete?_complete? h⟩

/-- The identifiers of a connector in full. -/
structure Jigsaw.Identifiers (j : Jigsaw) (name target pool : String) : Prop where
  /-- that of its name -/
  name : NamespacedId.Completes j.name name
  /-- that of the name that it looks for -/
  target : NamespacedId.Completes j.targetPool target
  /-- that of the pool that it looks in -/
  pool : NamespacedId.Completes j.pool pool

/-- The data of a connector with these identifiers, and this state to replace it in the end. -/
def Jigsaw.entries (j : Jigsaw) (name target pool : String) (finalState : BlockState) : Compound :=
  [("name", .string name), ("target", .string target), ("pool", .string pool),
    ("final_state", .string finalState.text), ("joint", .string j.joint)]

/-- A connector that passes its check has all five entries, with its final state moved. -/
theorem Jigsaw.exists_entries_of_data {r : Rotation} {m : Mirror} {size : Size} {i : Nat}
    {j : Jigsaw} {c : Compound} (h : (j.transform r m size).data i = .ok c) :
    ∃ name target pool, j.Identifiers name target pool ∧
      c = j.entries name target pool (j.finalState.transform r m) := by
  obtain ⟨orientation, hmoved⟩ := j.transform_eq r m size
  rw [hmoved] at h
  obtain ⟨name, pool, target, hname, hpool, htarget, -, -, rfl⟩ := data_eq_ok.1 h
  exact ⟨name, target, pool,
    ⟨.of_complete? hname, .of_complete? htarget, .of_complete? hpool⟩, rfl⟩

/-- The compound `d` is `c` with `t` laid over it: first come the keys of `c` and then the others of
`t`, each in their order, and the values of `t` stand before those of `c`. -/
structure Nbt.Compound.LaidOver (c t d : Compound) : Prop where
  /-- which keys there are, and in which order -/
  keys : Compound.keys d =
    Compound.keys c ++ (Compound.keys t).filter fun key => key ∉ Compound.keys c
  /-- which values they have -/
  get? : ∀ key, Compound.get? key d = (Compound.get? key t).or (Compound.get? key c)

namespace Plan

/-! ## What the blocks leave in a cell -/

section

variable {biome : Option String} {l : TemplateLibrary} {p bound : Plan} {q : Pos}

/-- The blocks in a cell are still there when they are written out. -/
theorem exists_writtenOut_blocksAt (h : p.bind biome = .ok bound) (q : Pos) :
    ∃ states, List.Forall₂ (Block.WrittenOut states) (p.blocksAt q) (bound.blocksAt q) := by
  obtain ⟨states, hblocks⟩ := exists_writtenOut_of_bind h
  refine ⟨states, List.rel_filter (fun a a' hwritten => ?_) hblocks⟩
  simp only [hwritten.pos_template.1]

/-- Blocks that name no template leave no data. -/
theorem data_of_no_template (h : p.bind biome = .ok bound)
    (hnone : ∀ a ∈ p.blocks, a.pos = q → a.template = none) :
    (bound.blockCell? l q).bind Cell.data = none := by
  rw [Option.eq_none_iff_forall_ne_some]
  intro t ht
  obtain ⟨a, ha, hpos, hpayload⟩ := exists_block_of_blockCell? ht
  obtain ⟨blocks, rfl, hblocks⟩ := exists_blocks_of_bind h
  obtain ⟨a', ha', hpos', htemplate⟩ := hblocks a ha
  rw [Block.payload?, ← htemplate, hnone a' ha' (hpos'.trans hpos)] at hpayload
  cases hpayload

/-- A block that is alone in its cell is so when it is written out. -/
theorem exists_alone_of_bind (h : p.bind biome = .ok bound) {a : Block}
    (ha : p.blocksAt q = [a]) :
    ∃ states a', a.WrittenOut states a' ∧ bound.blocksAt q = [a'] := by
  obtain ⟨states, hblocks⟩ := exists_writtenOut_blocksAt h q
  rw [ha] at hblocks
  obtain ⟨a', rest, hwritten, hrest, hbound⟩ := List.forall₂_cons_left_iff.1 hblocks
  obtain rfl := List.forall₂_nil_left_iff.1 hrest
  exact ⟨states, a', hwritten, hbound⟩

/-- A block that is alone in its cell leaves the payload of its template. -/
theorem data_of_alone (h : p.bind biome = .ok bound) {a : Block} (ha : p.blocksAt q = [a]) :
    (bound.blockCell? l q).bind Cell.data = a.payload? l := by
  obtain ⟨states, a', hwritten, hbound⟩ := exists_alone_of_bind h ha
  rw [blockCell?, hbound]
  cases hwritten with
  | direct => rfl
  | material => rfl

end

/-! ## What a structure has in the cell of a connector -/

section

variable {ctx : CompileContext} {o : CompileOptions} {p : Plan} {s : Structure}

/-- There is one block in the cell, with the data of the connector under what the blocks left. -/
theorem exists_block_of_jigsaw (h : p.assembled ctx o = .ok s) {j : Jigsaw} (hj : j ∈ p.jigsaws) :
    ∃ b ∈ s.blocks, (∀ b' ∈ s.blocks, b'.pos = j.pos ↔ b' = b) ∧ ∃ c, j.data 0 = .ok c ∧
      b.data = some (Layout.connectorData c (p.blockCell? ctx.templates j.pos)) := by
  obtain ⟨_, _, connectors, -, -, hconnectors, -⟩ := assembled_eq_ok.1 h
  have hconnected := connectedBy_of_checkJigsaws hconnectors
  obtain ⟨c, hc, -⟩ := hconnected.data j hj
  obtain ⟨b, hb, hpos⟩ := (mem_positions_iff h).2 (.inr ⟨j, hj, rfl⟩)
  obtain ⟨cell, hcell, -, hdata⟩ := exists_cell_of_mem_blocks h hb
  rw [hpos, cellAt?_of_jigsaw (hconnected.jigsawAt? hj) hc] at hcell
  refine ⟨b, hb, fun b' hb' => ⟨fun hpos' => ?_, fun heq => heq ▸ hpos⟩, c, hc, ?_⟩
  · exact List.inj_on_of_nodup_map (nodup_positions_of_assembled h) hb' hb (hpos'.trans hpos.symm)
  · rw [hdata, ← Option.some.inj hcell]

/-- In a cell without a connector there is no data but the payload of a block in it. -/
theorem exists_payload_of_no_jigsaw (h : p.assembled ctx o = .ok s) {b : PlacedBlock}
    (hb : b ∈ s.blocks) (hfree : ∀ j ∈ p.jigsaws, j.pos ≠ b.pos) {d : Compound}
    (hd : b.data = some d) : ∃ a ∈ p.blocks, a.pos = b.pos ∧ a.payload? ctx.templates = some d := by
  obtain ⟨cell, hcell, -, hdata⟩ := exists_cell_of_mem_blocks h hb
  rw [cellAt?_of_no_jigsaw (jigsawAt?_eq_none.2 hfree)] at hcell
  refine exists_block_of_blockCell? ?_
  rw [hcell, ← hd, hdata]
  rfl

end

/-! ## What becomes of the cells of a plan -/

section

variable {biome : Option String} {ctx : CompileContext} {o : CompileOptions} {p bound : Plan}
  {s : Structure} (hbind : p.bind biome = .ok bound)
  (h : (bound.transform o.rotation o.mirror).assembled ctx o = .ok s)

include hbind h

/-- The cell of a connector becomes one with one block, and the block has the data of the connector
under what the blocks of the plan leave in its cell. -/
theorem exists_block_of_connector {j : Jigsaw} (hj : j ∈ p.jigsaws) :
    ∃ name target pool, j.Identifiers name target pool ∧
      ∃ b ∈ s.blocks, (∀ b' ∈ s.blocks,
          b'.pos = j.pos.transform p.size o.rotation o.mirror ↔ b' = b) ∧
        b.data = some (Layout.connectorData
          (j.entries name target pool (j.finalState.transform o.rotation o.mirror))
          (bound.blockCell? ctx.templates j.pos)) := by
  have hmoved : j.transform o.rotation o.mirror p.size ∈
      (bound.transform o.rotation o.mirror).jigsaws := by
    rw [jigsaws_transform, jigsaws_of_bind hbind, size_of_bind hbind]
    exact List.mem_map_of_mem hj
  obtain ⟨b, hb, honly, c, hc, hdata⟩ := exists_block_of_jigsaw h hmoved
  obtain ⟨name, target, pool, hfull, rfl⟩ := Jigsaw.exists_entries_of_data hc
  rw [Jigsaw.pos_transform] at honly hdata
  rw [← size_of_bind hbind, blockCell?_transform, Layout.connectorData_transform] at hdata
  exact ⟨name, target, pool, hfull, b, hb, honly, hdata⟩

/-- The template of a block that is alone in its cell has a payload. -/
theorem exists_payload_of_alone {q : Pos} {a : Block} (ha : p.blocksAt q = [a])
    {template : String} (htemplate : a.template = some template) :
    ∃ t, ctx.templates.get? .blockEntity template = some t := by
  obtain ⟨states, a', hwritten, hbound⟩ := exists_alone_of_bind hbind ha
  have ha' : a' ∈ bound.blocks := by
    refine (mem_of_mem_blocksAt (q := q) ?_).1
    rw [hbound]
    exact List.mem_singleton_self a'
  have hmoved : a'.transform o.rotation o.mirror bound.size ∈
      (bound.transform o.rotation o.mirror).blocks := by
    rw [blocks_transform]
    exact List.mem_map_of_mem ha'
  obtain ⟨-, data, hdata⟩ := exists_entry_data_of_assembled h hmoved
  rcases Block.data_eq_ok.1 hdata with ⟨hnone, -⟩ | ⟨name, t, hname, ht, -⟩
  · rw [Block.template_transform, hwritten.pos_template.2, htemplate] at hnone
    cases hnone
  · rw [Block.template_transform, hwritten.pos_template.2, htemplate] at hname
    obtain rfl := Option.some.inj hname
    exact ⟨t, ht⟩

/-- In a cell that no connector comes to there is no data but the payload of a block of the plan. -/
theorem exists_payload_of_no_connector {b : PlacedBlock} (hb : b ∈ s.blocks)
    (hfree : ∀ j ∈ p.jigsaws, j.pos.transform p.size o.rotation o.mirror ≠ b.pos) {d : Compound}
    (hd : b.data = some d) : ∃ a ∈ p.blocks,
      a.pos.transform p.size o.rotation o.mirror = b.pos ∧ a.payload? ctx.templates = some d := by
  have hsize := size_of_bind hbind
  have hfree' : ∀ j ∈ (bound.transform o.rotation o.mirror).jigsaws, j.pos ≠ b.pos := by
    rw [jigsaws_transform, jigsaws_of_bind hbind, hsize, List.forall_mem_map]
    intro j hj
    rw [Jigsaw.pos_transform]
    exact hfree j hj
  obtain ⟨a, ha, hpos, hpayload⟩ := exists_payload_of_no_jigsaw h hb hfree' hd
  rw [blocks_transform, hsize] at ha
  obtain ⟨written, hwritten, rfl⟩ := List.mem_map.1 ha
  obtain ⟨blocks, rfl, hblocks⟩ := exists_blocks_of_bind hbind
  obtain ⟨authored, hauthored, hsame, htemplate⟩ := hblocks written hwritten
  rw [Block.pos_transform, ← hsame] at hpos
  rw [Block.payload?, Block.template_transform, ← htemplate] at hpayload
  exact ⟨authored, hauthored, hpos, hpayload⟩

end

/-- The data that a structure has in the cell of a connector of a plan; `entries` is what the
connector has by itself. -/
structure ConnectorData (l : TemplateLibrary) (p : Plan) (j : Jigsaw) (entries : Compound)
    (data : Option Compound) : Prop where
  /-- it is that of the connector if no block in the cell names a template -/
  plain : (∀ a ∈ p.blocks, a.pos = j.pos → a.template = none) → data = some entries
  /-- if the only block in the cell names a template, it has the payload laid over it -/
  template : ∀ a, p.blocksAt j.pos = [a] → ∀ template, a.template = some template →
    ∃ t d, l.get? .blockEntity template = some t ∧ data = some d ∧
      ((Compound.keys t).Nodup → Compound.LaidOver entries t d)

/-- A structure that a plan was compiled to, with the data of the connectors in their cells. -/
structure Connected (l : TemplateLibrary) (o : CompileOptions) (p : Plan) (s : Structure) :
    Prop where
  /-- one block is in the cell that the cell of a connector becomes, with the data of the connector
  and what the block in its cell lays over it -/
  connectors : ∀ j ∈ p.jigsaws, ∃ name target pool, j.Identifiers name target pool ∧
    ∃ b ∈ s.blocks,
      (∀ b' ∈ s.blocks, b'.pos = j.pos.transform p.size o.rotation o.mirror ↔ b' = b) ∧
      p.ConnectorData l j
        (j.entries name target pool (j.finalState.transform o.rotation o.mirror)) b.data
  /-- in every other cell there is no data but the payload of a block of the plan -/
  elsewhere : ∀ b ∈ s.blocks,
    (∀ j ∈ p.jigsaws, j.pos.transform p.size o.rotation o.mirror ≠ b.pos) →
    ∀ d, b.data = some d → ∃ a ∈ p.blocks,
      a.pos.transform p.size o.rotation o.mirror = b.pos ∧ a.payload? l = some d
  /-- in a plan that was read, no two blocks are in one cell -/
  alone : ∀ text, parse text = .ok p → ∀ a ∈ p.blocks, p.blocksAt a.pos = [a]
  /-- in templates that were read, no key is there twice -/
  distinct : l.Accepted → ∀ template t,
    l.get? .blockEntity template = some t → (Compound.keys t).Nodup

/-- **Connectors have their own data, and that of the template in their cell over it.** In the cell
that the cell of a connector becomes there is one block, and its data is that of the connector, with
its identifiers in full, if no block in the cell names a template. If the block in the cell names
one, the payload of the template is laid over the data. The data in every other cell is the payload
of a block. In a plan that was read, a block has no other block in its cell, and the keys in a
template file are distinct. -/
theorem connected {p : Plan} {biome : Option String} {ctx : CompileContext} {o : CompileOptions}
    {s : Structure} (h : p.compile biome ctx o = .ok s) : p.Connected ctx.templates o s := by
  obtain ⟨bound, hbind, -, hassembled⟩ := permitted_of_compile h
  constructor
  case connectors =>
    intro j hj
    -- a connector stands in its cell before any block, and its block is the only one there
    obtain ⟨name, target, pool, hfull, b, hb, honly, hdata⟩ :=
      exists_block_of_connector hbind hassembled hj
    refine ⟨name, target, pool, hfull, b, hb, honly, fun hnone => ?_,
      fun a ha template htemplate => ?_⟩
    · rw [hdata, Layout.connectorData, data_of_no_template hbind hnone]
    -- the payload of the block is spliced behind the five keys
    · obtain ⟨t, ht⟩ := exists_payload_of_alone hbind hassembled ha htemplate
      rw [Layout.connectorData, data_of_alone hbind ha, Block.payload?, htemplate,
        Option.bind_some, ht] at hdata
      refine ⟨t, _, ht, hdata, fun hnodup => ⟨?_, ?_⟩⟩
      · exact Compound.keys_insertAll hnodup
      · exact Compound.get?_insertAll hnodup
  case elsewhere =>
    intro b hb hfree d hd
    exact exists_payload_of_no_connector hbind hassembled hb hfree hd
  case alone =>
    intro text hparse a ha
    exact blocksAt_of_nodup (nodup_positions_of_parse hparse) ha
  case distinct =>
    intro haccepted template t ht
    exact (Tag.sound_compound.1 (haccepted.sound ht)).1

/-- A connector in the cell of a chest, and another one beside it. -/
def vault : Plan where
  id := none
  size := ⟨2, 1, 1⟩
  blocks := [⟨⟨0, 0, 0⟩, .direct ⟨"chest", .empty⟩, some "loot"⟩]
  entities := []
  jigsaws := [
    ⟨⟨0, 0, 0⟩, "south_up", "vault", "hoards", "gold", "rollable", ⟨"minecraft:air", .empty⟩⟩,
    ⟨⟨1, 0, 0⟩, "south_up", "door", "roads", "road", "aligned", ⟨"minecraft:air", .empty⟩⟩]
  jigsawPolicy := .unrestricted
  palettes := .empty
  tags := []

/-- The vault as a document, with its fields in order and no names for them. -/
def vaultText : String :=
  "[null, null, [2, 1, 1], " ++
    "[[[0, 0, 0], \"chest\", \x7b\x7d, null, \"loot\"]], " ++
    "[[[0, 0, 0], \"south_up\", \"vault\", \"hoards\", \"gold\", \"rollable\"], " ++
      "[[1, 0, 0], \"south_up\", \"door\", \"roads\", \"road\", \"aligned\"]]]"

/-- The text of the vault is read as the vault. -/
theorem parse_vaultText : parse vaultText = .ok vault :=
  Outcome.toOption_eq_some.1 (by decide +kernel)

/-- What the vault needs, with loot that has one key of its own and one of a connector. -/
def vaultContext : CompileContext where
  allowlist :=
    ((Allowlist.empty.allow "chest" []).allow "minecraft:air" []).allow jigsawBlock
      [("orientation", ["south_up", "west_up"])]
  templates := TemplateLibrary.empty.insert .blockEntity "loot"
    [("Lock", .string "key"), ("joint", .string "aligned")]

/-- Where the chest was, the connector has a lock behind its own entries and the joint of the loot;
the other connector has its own entries alone. -/
theorem connected_vault :
    parse vaultText = .ok vault ∧
    ∃ s, vault.compile none vaultContext ⟨.deg90, .off, false⟩ = .ok s ∧
      (∃ b ∈ s.blocks, b.pos = ⟨0, 0, 0⟩ ∧ ∃ d, b.data = some d ∧
        Compound.keys d = ["name", "target", "pool", "final_state", "joint", "Lock"] ∧
        Compound.get? "name" d = some (.string "minecraft:vault") ∧
        Compound.get? "joint" d = some (.string "aligned")) ∧
      ∃ b ∈ s.blocks, b.pos = ⟨0, 0, 1⟩ ∧ b.data = some
        [("name", .string "minecraft:door"), ("target", .string "minecraft:road"),
          ("pool", .string "minecraft:roads"), ("final_state", .string "minecraft:air"),
          ("joint", .string "aligned")] := by
  obtain ⟨s, hs⟩ : ∃ s, vault.compile none vaultContext ⟨.deg90, .off, false⟩ = .ok s := ⟨_, rfl⟩
  have hconnected := connected hs
  refine ⟨parse_vaultText, s, hs, ?_, ?_⟩
  · obtain ⟨name, target, pool, hfull, b, hb, honly, hdata⟩ :=
      hconnected.connectors _ (.head _)
    -- the chest stands under the first connector and keeps its own `joint`
    obtain ⟨t, d, ht, hd, hlaid⟩ :=
      hdata.template _ (hconnected.alone vaultText parse_vaultText _ (.head _)) "loot" rfl
    obtain rfl : "minecraft:vault" = name := Option.some.inj hfull.name.1
    obtain rfl : [("Lock", .string "key"), ("joint", .string "aligned")] = t := Option.some.inj ht
    have hmerged := hlaid (by decide)
    exact ⟨b, hb, (honly b hb).2 rfl, d, hd, hmerged.keys, hmerged.get? "name",
      hmerged.get? "joint"⟩
  -- nothing stands under the second one
  · obtain ⟨name, target, pool, hfull, b, hb, honly, hdata⟩ :=
      hconnected.connectors _ (.tail _ (.head _))
    obtain rfl : "minecraft:door" = name := Option.some.inj hfull.name.1
    obtain rfl : "minecraft:road" = target := Option.some.inj hfull.target.1
    obtain rfl : "minecraft:roads" = pool := Option.some.inj hfull.pool.1
    exact ⟨b, hb, (honly b hb).2 rfl, hdata.plain (by decide)⟩

end Plan

end Blueprint
