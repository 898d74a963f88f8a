import Blueprint.Allowlist
import Blueprint.Proofs.Outcome
import Blueprint.Proofs.SortedMap

/-!
# What allowlists permit

An allowlist is what it lists: blocks, properties of blocks, and values of properties. A property
that is listed without any value is still a property of its block. Permissions only add to what is
listed, so after a sequence of them the list holds what it held before and what any of them gives,
in whatever order they come. A state is refused for its block, or else for the first of its
properties whose value is not listed (`Allowlist.accumulated`).
-/

namespace Blueprint

/-- What a step may bring about is there in the end if it was there at the start or if one of the
steps brings it about. -/
theorem iff_foldl {σ α : Type} {step : σ → α → σ} {P : σ → Prop} {brings : α → Prop}
    (h : ∀ s a, P (step s a) ↔ P s ∨ brings a) (l : List α) (s : σ) :
    P (l.foldl step s) ↔ P s ∨ ∃ a ∈ l, brings a := by
  induction l generalizing s with
  | nil => simp
  | cons a l ih => rw [List.foldl_cons, ih, h, or_assoc, List.exists_mem_cons_iff]

/-! ## Sets of texts -/

namespace TextSet

variable {set set' : TextSet} {text : String}

/-- A text is in a set exactly if it is found there. -/
theorem contains_iff : set.contains text = true ↔ set.get? text = some () := by
  rw [SortedMap.contains, Option.isSome_iff_exists]
  refine ⟨?_, fun h => ⟨(), h⟩⟩
  rintro ⟨⟨⟩, h⟩
  exact h

/-- A text is in a set with another one put in if it was there or is the other one. -/
theorem contains_insert (text' : String) :
    (set.insert text' ()).contains text = true ↔ set.contains text = true ∨ text' = text := by
  rw [contains_iff, contains_iff, SortedMap.get?_insert_of_lawful]
  by_cases h : text = text'
  · simp [h]
  · simp [h, Ne.symm h]

/-- So it is for texts put in one after another. -/
theorem contains_foldl_insert (texts : List String) :
    (texts.foldl (fun set v => set.insert v ()) set : TextSet).contains text = true ↔
      set.contains text = true ∨ text ∈ texts := by
  rw [iff_foldl (P := fun set : TextSet => set.contains text = true) fun _ v => contains_insert v]
  simp

/-- A set is what it contains. -/
theorem ext (h : ∀ text, set.contains text = true ↔ set'.contains text = true) : set = set' := by
  refine SortedMap.ext_get? fun text => Option.ext fun ⟨⟩ => ?_
  exact contains_iff.symm.trans ((h text).trans contains_iff)

end TextSet

/-! ## Rules -/

namespace Rules

/-- The block has the property, maybe without any value. -/
def HasKey (rules : Rules) (key : String) : Prop := ∃ set, rules.get? key = some set

/-- The property may take the value. -/
def Lists (rules : Rules) (key text : String) : Prop :=
  ∃ set, rules.get? key = some set ∧ set.contains text = true

variable {rules rules' : Rules} {key text : String}

/-- A key without rules is one that is not found. -/
theorem not_hasKey : ¬ rules.HasKey key ↔ rules.get? key = none := by
  rw [HasKey, Option.eq_none_iff_forall_ne_some, not_exists]

/-- The values listed for a key are those in the set that is found at the key. -/
theorem lists_of_get? {set : TextSet} (h : rules.get? key = some set) :
    rules.Lists key text ↔ set.contains text = true := by
  simp [Lists, h]

/-- Rules are what they list. -/
theorem ext (hkey : ∀ key, rules.HasKey key ↔ rules'.HasKey key)
    (hlists : ∀ key text, rules.Lists key text ↔ rules'.Lists key text) : rules = rules' := by
  refine SortedMap.ext_get? fun key => ?_
  cases h : rules.get? key with
  | none => exact (not_hasKey.1 (mt (hkey key).2 (not_hasKey.2 h))).symm
  | some set =>
    obtain ⟨set', h'⟩ := (hkey key).1 ⟨set, h⟩
    have hset : set = set' := TextSet.ext fun text => by
      rw [← lists_of_get? h, ← lists_of_get? h', hlists]
    rw [h', hset]

/-- To allow values of a property gives rules to the property, though no values may be listed. -/
theorem hasKey_allowValues (property : String) (values : List String) :
    (Allowlist.allowValues rules property values).HasKey key ↔
      rules.HasKey key ∨ property = key := by
  rw [HasKey, Allowlist.allowValues, SortedMap.get?_insert_of_lawful]
  by_cases h : key = property
  · simp [h]
  · simp [h, Ne.symm h, HasKey]

/-- And lists the values for it, beside what was listed before. -/
theorem lists_allowValues (property : String) (values : List String) :
    (Allowlist.allowValues rules property values).Lists key text ↔
      rules.Lists key text ∨ property = key ∧ text ∈ values := by
  rw [Lists, Allowlist.allowValues, SortedMap.get?_insert_of_lawful]
  by_cases h : key = property
  · subst h
    have hbefore : ((rules.get? key).getD .empty : TextSet).contains text = true ↔
        rules.Lists key text := by
      cases hset : rules.get? key with
      | none => simp [Lists, hset, SortedMap.contains]
      | some set => simp [Lists, hset]
    simp [TextSet.contains_foldl_insert, hbefore]
  · simp [h, Ne.symm h, Lists]

end Rules

namespace Allowlist

/-! ## What is listed -/

/-- The block is listed. -/
def HasBlock (a : Allowlist) (id : String) : Prop := ∃ rules, a.blocks.get? id = some rules

/-- The property is listed for the block, maybe without any value. -/
def HasProperty (a : Allowlist) (id key : String) : Prop :=
  ∃ rules, a.blocks.get? id = some rules ∧ rules.HasKey key

/-- The value is listed for the property of the block. -/
def HasValue (a : Allowlist) (id key text : String) : Prop :=
  ∃ rules, a.blocks.get? id = some rules ∧ rules.Lists key text

variable {a b : Allowlist} {id key text : String}

/-- A block that is not on the list is not found. -/
theorem not_hasBlock : ¬ a.HasBlock id ↔ a.blocks.get? id = none := by
  rw [HasBlock, Option.eq_none_iff_forall_ne_some, not_exists]

/-- The properties of a block on the list are those that its rules are about. -/
theorem hasProperty_of_get? {rules : Rules} (h : a.blocks.get? id = some rules) :
    a.HasProperty id key ↔ rules.HasKey key := by
  simp [HasProperty, h]

/-- And its values are those that its rules list. -/
theorem hasValue_of_get? {rules : Rules} (h : a.blocks.get? id = some rules) :
    a.HasValue id key text ↔ rules.Lists key text := by
  simp [HasValue, h]

/-- An allowlist is what it lists. -/
theorem ext (hblock : ∀ id, a.HasBlock id ↔ b.HasBlock id)
    (hproperty : ∀ id key, a.HasProperty id key ↔ b.HasProperty id key)
    (hvalue : ∀ id key text, a.HasValue id key text ↔ b.HasValue id key text) : a = b := by
  have hblocks : a.blocks = b.blocks := by
    refine SortedMap.ext_get? fun id => ?_
    cases h : a.blocks.get? id with
    | none => exact (not_hasBlock.1 (mt (hblock id).2 (not_hasBlock.2 h))).symm
    | some rules =>
      obtain ⟨rules', h'⟩ := (hblock id).1 ⟨rules, h⟩
      have hrules : rules = rules' := by
        refine Rules.ext (fun key => ?_) fun key text => ?_
        · rw [← hasProperty_of_get? h, ← hasProperty_of_get? h', hproperty]
        · rw [← hasValue_of_get? h, ← hasValue_of_get? h', hvalue]
      rw [h', hrules]
  cases a
  cases b
  exact congrArg mk hblocks

/-! ## Permissions -/

/-- What `allow` is given: a block with values of its properties. -/
structure Permission where
  /-- the block -/
  id : String
  /-- the values by property; a property may come more than once -/
  values : List (String × List String)

/-- The property is given to the block. -/
def Permission.GivesProperty (c : Permission) (id key : String) : Prop :=
  c.id = id ∧ ∃ e ∈ c.values, e.1 = key

/-- The value is given to the property of the block. -/
def Permission.GivesValue (c : Permission) (id key text : String) : Prop :=
  c.id = id ∧ ∃ e ∈ c.values, e.1 = key ∧ text ∈ e.2

/-- The list after permissions that are given one after another. -/
def allowAll (a : Allowlist) (permissions : List Permission) : Allowlist :=
  permissions.foldl (fun a c => a.allow c.id c.values) a

/-- Rules that are missing are as good as rules about nothing. -/
theorem hasKey_getD :
    ((a.blocks.get? id).getD .empty : Rules).HasKey key ↔ a.HasProperty id key := by
  cases h : a.blocks.get? id with
  | none => simp [HasProperty, Rules.HasKey, h]
  | some rules => simp [hasProperty_of_get? h]

theorem lists_getD :
    ((a.blocks.get? id).getD .empty : Rules).Lists key text ↔ a.HasValue id key text := by
  cases h : a.blocks.get? id with
  | none => simp [HasValue, Rules.Lists, h]
  | some rules => simp [hasValue_of_get? h]

/-- A permission changes the rules of its own block alone. -/
theorem get?_allow (c : Permission) : (a.allow c.id c.values).blocks.get? id =
    if id = c.id then some (c.values.foldl (fun rules e => allowValues rules e.1 e.2)
      ((a.blocks.get? c.id).getD .empty)) else a.blocks.get? id :=
  SortedMap.get?_insert_of_lawful ..

/-- It puts its block on the list. -/
theorem hasBlock_allow (c : Permission) :
    (a.allow c.id c.values).HasBlock id ↔ a.HasBlock id ∨ c.id = id := by
  rw [HasBlock, get?_allow]
  by_cases h : id = c.id
  · simp [h]
  · simp [h, Ne.symm h, HasBlock]

/-- It gives its own properties to its block. -/
theorem hasProperty_allow (c : Permission) :
    (a.allow c.id c.values).HasProperty id key ↔ a.HasProperty id key ∨ c.GivesProperty id key := by
  by_cases h : id = c.id
  · subst h
    rw [hasProperty_of_get? ((get?_allow c).trans (if_pos rfl)),
      iff_foldl (P := fun rules : Rules => rules.HasKey key)
        fun _ e => Rules.hasKey_allowValues e.1 e.2, hasKey_getD]
    simp [Permission.GivesProperty]
  · rw [HasProperty, get?_allow, if_neg h]
    simp [HasProperty, Permission.GivesProperty, Ne.symm h]

/-- It gives its own values to them. -/
theorem hasValue_allow (c : Permission) : (a.allow c.id c.values).HasValue id key text ↔
    a.HasValue id key text ∨ c.GivesValue id key text := by
  by_cases h : id = c.id
  · subst h
    rw [hasValue_of_get? ((get?_allow c).trans (if_pos rfl)),
      iff_foldl (P := fun rules : Rules => rules.Lists key text)
        fun _ e => Rules.lists_allowValues e.1 e.2, lists_getD]
    simp [Permission.GivesValue]
  · rw [HasValue, get?_allow, if_neg h]
    simp [HasValue, Permission.GivesValue, Ne.symm h]

section

variable (permissions : List Permission)

/-- After many permissions the blocks are those that were there and those that are allowed. -/
theorem hasBlock_allowAll :
    (a.allowAll permissions).HasBlock id ↔ a.HasBlock id ∨ ∃ c ∈ permissions, c.id = id :=
  iff_foldl (P := fun a => HasBlock a id) (fun _ c => hasBlock_allow c) permissions a

/-- The properties are those that were there and those that some permission gives. -/
theorem hasProperty_allowAll : (a.allowAll permissions).HasProperty id key ↔
    a.HasProperty id key ∨ ∃ c ∈ permissions, c.GivesProperty id key :=
  iff_foldl (P := fun a => HasProperty a id key) (fun _ c => hasProperty_allow c) permissions a

/-- And so are the values. -/
theorem hasValue_allowAll : (a.allowAll permissions).HasValue id key text ↔
    a.HasValue id key text ∨ ∃ c ∈ permissions, c.GivesValue id key text :=
  iff_foldl (P := fun a => HasValue a id key text) (fun _ c => hasValue_allow c) permissions a

end

/-- Permissions have the same effect in whatever order they are given. -/
theorem allowAll_congr {permissions others : List Permission} (h : permissions.Perm others) :
    a.allowAll permissions = a.allowAll others := by
  refine ext (fun id => ?_) (fun id key => ?_) fun id key text => ?_
  · simp only [hasBlock_allowAll, h.mem_iff]
  · simp only [hasProperty_allowAll, h.mem_iff]
  · simp only [hasValue_allowAll, h.mem_iff]

/-! ## Checks -/

/-- The value of a property of a block is listed. -/
def Accepts (a : Allowlist) (id : String) (e : String × PropertyValue) : Prop :=
  a.HasValue id e.1 e.2.text

/-- A property is the first one in key order whose value is not listed. -/
structure FirstRefused (a : Allowlist) (s : BlockState) (e : String × PropertyValue) : Prop where
  /-- the state has it -/
  mem : e ∈ s.properties.entries
  /-- its value is not listed -/
  refused : ¬ a.Accepts s.id e
  /-- the values of all properties before it are -/
  before : ∀ e' ∈ s.properties.entries, compare e'.1 e.1 = .lt → a.Accepts s.id e'

/-- What is wrong with a state. -/
inductive Refuses (a : Allowlist) (s : BlockState) : Violation → Prop where
  /-- its block is not listed -/
  | block (unknown : ¬ a.HasBlock s.id) : Refuses a s (.block s.id)
  /-- its block is listed, but without the first property whose value is not listed -/
  | property {e : String × PropertyValue} (known : a.HasBlock s.id) (first : a.FirstRefused s e)
      (unlisted : ¬ a.HasProperty s.id e.1) : Refuses a s (.property s.id e.1)
  /-- that property is listed, but without the value -/
  | value {e : String × PropertyValue} (first : a.FirstRefused s e)
      (listed : a.HasProperty s.id e.1) : Refuses a s (.value s.id e.1 e.2.text)

/-- At most one property is the first that is refused. -/
theorem FirstRefused.eq {s : BlockState} {e e' : String × PropertyValue} (h : a.FirstRefused s e)
    (h' : a.FirstRefused s e') : e = e' := by
  cases hcompare : compare e.1 e'.1 with
  | lt => exact absurd (h'.before e h.mem hcompare) h.refused
  | gt => exact absurd (h.before e' h'.mem (Std.OrientedCmp.lt_of_gt hcompare)) h'.refused
  | eq =>
    have hkey : e.1 = e'.1 := Std.LawfulEqOrd.eq_of_compare hcompare
    have hvalue := SortedMap.get?_eq_some_iff.2 h.mem
    rw [hkey, SortedMap.get?_eq_some_iff.2 h'.mem] at hvalue
    exact Prod.ext hkey (Option.some.inj hvalue).symm

/-- What is wrong with a property that is refused. -/
def violation (id : String) (rules : Rules) (e : String × PropertyValue) : Violation :=
  match rules.get? e.1 with
  | none => .property id e.1
  | some _ => .value id e.1 e.2.text

/-- Properties are looked at up to the first that is refused. -/
theorem validateProperties_cases (id : String) (rules : Rules)
    (properties : List (String × PropertyValue)) :
    (validateProperties id rules properties = .ok () ∧
      ∀ e ∈ properties, rules.Lists e.1 e.2.text) ∨
    ∃ before e after, properties = before ++ e :: after ∧
      (∀ e' ∈ before, rules.Lists e'.1 e'.2.text) ∧ ¬ rules.Lists e.1 e.2.text ∧
      validateProperties id rules properties = .error (violation id rules e) := by
  induction properties with
  | nil => exact .inl ⟨rfl, fun e he => absurd he List.not_mem_nil⟩
  | cons e properties ih =>
    by_cases hfirst : rules.Lists e.1 e.2.text
    -- a listed property is skipped, so the outcome is that of the others
    · have hskip : validateProperties id rules (e :: properties) =
          validateProperties id rules properties := by
        obtain ⟨set, hset, hcontains⟩ := hfirst
        simp [validateProperties, hset, hcontains]
      rw [hskip]
      rcases ih with ⟨hok, hall⟩ | ⟨before, e', after, rfl, hbefore, hrefused, herror⟩
      · exact .inl ⟨hok, List.forall_mem_cons.2 ⟨hfirst, hall⟩⟩
      · exact .inr ⟨e :: before, e', after, rfl, List.forall_mem_cons.2 ⟨hfirst, hbefore⟩, hrefused,
          herror⟩
    · refine .inr ⟨[], e, properties, rfl, fun e' he' => absurd he' List.not_mem_nil, hfirst, ?_⟩
      rw [validateProperties, violation]
      -- refused for want of the property among the rules, or of the value in its set
      cases hset : rules.get? e.1 with
      | none => rfl
      | some set => simp [mt (Rules.lists_of_get? hset).2 hfirst]

/-- A state is accepted or refused for one reason. -/
theorem validate_cases (a : Allowlist) (s : BlockState) :
    (a.validate s = .ok () ∧ a.HasBlock s.id ∧ ∀ e ∈ s.properties.entries, a.Accepts s.id e) ∨
      ∃ v, a.validate s = .error v ∧ a.Refuses s v := by
  cases hrules : a.blocks.get? s.id with
  | none =>
    refine .inr ⟨_, ?_, .block (not_hasBlock.2 hrules)⟩
    rw [validate, hrules]
  | some rules =>
    have hvalidate : a.validate s = validateProperties s.id rules s.properties.entries := by
      rw [validate, hrules]
    have hknown : a.HasBlock s.id := ⟨rules, hrules⟩
    have haccepts (e : String × PropertyValue) : rules.Lists e.1 e.2.text ↔ a.Accepts s.id e :=
      (hasValue_of_get? hrules).symm
    simp only [hvalidate, ← haccepts]
    rcases validateProperties_cases s.id rules s.properties.entries with
      ⟨hok, hall⟩ | ⟨before, e, after, hentries, hbefore, hrefused, herror⟩
    · exact .inl ⟨hok, hknown, hall⟩
    · refine .inr ⟨_, herror, ?_⟩
      have hfirst : a.FirstRefused s e := by
        refine ⟨?_, mt (haccepts e).2 hrefused, fun e' he' hlt => (haccepts e').1 ?_⟩
        · rw [hentries]
          simp
        · -- the entries behind `e` have greater keys
          have hsorted := s.properties.sorted
          rw [hentries] at he' hsorted
          rcases List.mem_append.1 he' with he' | he'
          · exact hbefore e' he'
          · have hbehind := (List.pairwise_cons.1 (List.pairwise_append.1 hsorted).2.1).1
            rcases List.mem_cons.1 he' with rfl | he'
            · rw [Std.ReflOrd.compare_self] at hlt
              cases hlt
            · rw [Std.OrientedCmp.gt_of_lt (hbehind e' he')] at hlt
              cases hlt
      have hlisted : a.HasProperty s.id e.1 ↔ rules.HasKey e.1 := hasProperty_of_get? hrules
      rw [violation]
      cases hset : rules.get? e.1 with
      | none => exact .property hknown hfirst (mt hlisted.1 (Rules.not_hasKey.2 hset))
      | some set => exact .value hfirst (hlisted.2 ⟨set, hset⟩)

/-- If something is wrong with a state, not all of it is listed. -/
theorem Refuses.not_accepted {s : BlockState} {v : Violation} (h : a.Refuses s v) :
    ¬ (a.HasBlock s.id ∧ ∀ e ∈ s.properties.entries, a.Accepts s.id e) := by
  rintro ⟨known, hall⟩
  cases h with
  | block unknown => exact unknown known
  | property _ first _ => exact first.refused (hall _ first.mem)
  | value first _ => exact first.refused (hall _ first.mem)

/-- A state is accepted exactly if its block and all its values are listed. -/
theorem validate_eq_ok_iff {s : BlockState} : a.validate s = .ok () ↔
    a.HasBlock s.id ∧ ∀ e ∈ s.properties.entries, a.Accepts s.id e := by
  rcases validate_cases a s with ⟨hok, hlisted⟩ | ⟨v, herror, hrefuses⟩
  · exact iff_of_true hok hlisted
  · exact iff_of_false (fun hok => Outcome.ne_error_of_eq_ok hok herror) hrefuses.not_accepted

/-- Nothing is wrong with a state for two reasons. -/
theorem Refuses.eq {s : BlockState} {v v' : Violation} (h : a.Refuses s v) (h' : a.Refuses s v') :
    v = v' := by
  have hknown {e : String × PropertyValue} (h : a.HasProperty s.id e.1) : a.HasBlock s.id := by
    obtain ⟨rules, hrules, -⟩ := h
    exact ⟨rules, hrules⟩
  cases h with
  | block unknown =>
    cases h' with
    | block => rfl
    | property known => exact absurd known unknown
    | value _ listed => exact absurd (hknown listed) unknown
  | property known first unlisted =>
    cases h' with
    | block unknown => exact absurd known unknown
    | property _ first' => rw [first.eq first']
    | value first' listed => exact absurd (first.eq first' ▸ listed) unlisted
  | value first listed =>
    cases h' with
    | block unknown => exact absurd (hknown listed) unknown
    | property _ first' unlisted => exact absurd (first.eq first' ▸ listed) unlisted
    | value first' => rw [first.eq first']

/-- A state is refused for what is wrong with it. -/
theorem validate_eq_error_iff {s : BlockState} {v : Violation} :
    a.validate s = .error v ↔ a.Refuses s v := by
  rcases validate_cases a s with ⟨hok, hlisted⟩ | ⟨v', herror, hrefuses⟩
  · exact iff_of_false (Outcome.ne_error_of_eq_ok hok) fun h => h.not_accepted hlisted
  · rw [herror, Except.error.injEq]
    exact ⟨fun heq => heq ▸ hrefuses, fun h => hrefuses.eq h⟩

/-! ## Permissions and checks -/

/-- What permissions make of an allowlist. -/
structure Accumulated (a : Allowlist) (permissions : List Permission) (b : Allowlist) : Prop where
  /-- a block is listed if it was, or is named by a permission -/
  block : ∀ id, b.HasBlock id ↔ a.HasBlock id ∨ ∃ c ∈ permissions, c.id = id
  /-- a property is listed if it was, or is given to its block, maybe without any value -/
  property : ∀ id key, b.HasProperty id key ↔
    a.HasProperty id key ∨ ∃ c ∈ permissions, c.GivesProperty id key
  /-- a value is listed if it was, or is given to its property -/
  value : ∀ id key text, b.HasValue id key text ↔
    a.HasValue id key text ∨ ∃ c ∈ permissions, c.GivesValue id key text
  /-- a state is accepted exactly if its block is listed, and each of its values was listed or is
  given -/
  accepted : ∀ s : BlockState, b.validate s = .ok () ↔
    (a.HasBlock s.id ∨ ∃ c ∈ permissions, c.id = s.id) ∧ ∀ e ∈ s.properties.entries,
      a.HasValue s.id e.1 e.2.text ∨ ∃ c ∈ permissions, c.GivesValue s.id e.1 e.2.text
  /-- what was accepted still is -/
  kept : ∀ s, a.validate s = .ok () → b.validate s = .ok ()
  /-- the permissions may come in any order -/
  order : ∀ others, permissions.Perm others → a.allowAll others = b
  /-- a state is refused for its block if that is not listed, or else for the first property whose
  value is not listed, depending on whether the property is -/
  refused : ∀ s v, b.validate s = .error v ↔ b.Refuses s v

/-- **Permissions accumulate.** After any permissions a state is accepted exactly if its block and
the texts of its values were listed or are given by one of them, and otherwise refused for the
first thing that is not listed. -/
theorem accumulated (a : Allowlist) (permissions : List Permission) :
    Accumulated a permissions (a.allowAll permissions) := by
  have hvalid (s : BlockState) : (a.allowAll permissions).validate s = .ok () ↔
      (a.HasBlock s.id ∨ ∃ c ∈ permissions, c.id = s.id) ∧ ∀ e ∈ s.properties.entries,
        a.HasValue s.id e.1 e.2.text ∨ ∃ c ∈ permissions, c.GivesValue s.id e.1 e.2.text := by
    simp only [validate_eq_ok_iff, Accepts, hasBlock_allowAll, hasValue_allowAll]
  constructor
  · exact fun id => hasBlock_allowAll permissions
  · exact fun id key => hasProperty_allowAll permissions
  · exact fun id key text => hasValue_allowAll permissions
  · exact hvalid
  · intro s hs
    obtain ⟨hblock, hvalues⟩ := validate_eq_ok_iff.1 hs
    exact (hvalid s).2 ⟨.inl hblock, fun e he => .inl (hvalues e he)⟩
  · exact fun others hperm => (allowAll_congr hperm).symm
  · exact fun s v => validate_eq_error_iff

/-- A lamp whose light is listed without values is refused for the value, not for the property. -/
example : (Allowlist.empty.allow "lamp" [("lit", [])]).validate
    ⟨"lamp", .ofList [("lit", .bool true)]⟩ = .error (.value "lamp" "lit" "true") := by
  decide +kernel

end Allowlist

end Blueprint
