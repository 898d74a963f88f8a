import Blueprint.Proofs.FileTree
import Mathlib.Logic.Relation

/-!
# Following parts and making directories

Where parts lead depends on the directories of a tree only, and it stays the same as directories
are added (`FileTree.follow_mono`). A place that is reached through directories alone is a place
that directories can be made from without looking at the way to it again
(`FileTree.makeDirs_append`); and what is made there depends only on what stands on the way that
is made (`FileTree.makeDirs_congr`).
-/

namespace Blueprint

/-- The location that a part leads to from another one, whatever stands there. -/
def Path.Part.lead (location : Location) : Path.Part → Location
  | .root => []
  | .here => location
  | .up => location.dropLast
  | .name n => location ++ [n]

namespace FileTree

variable {t t' : FileTree} {location : Location} {e : FileEntry} {p : Path}

/-! ## Entries -/

@[simp] theorem entry?_nil (t : FileTree) : t.entry? [] = some .directory := rfl

/-- An entry is put in its place. -/
theorem get?_put (t : FileTree) (location l : Location) (e : FileEntry) :
    (t.put location e).entries.get? l = if l = location then some e else t.entries.get? l :=
  SortedMap.get?_insert_of_lawful _ _ _ _

/-- An entry is removed from its place. -/
theorem get?_remove (t : FileTree) (location l : Location) :
    (t.remove location).entries.get? l = if l = location then none else t.entries.get? l :=
  SortedMap.get?_erase _ _ _

/-- What is put in a place is seen there, and elsewhere nothing changes. -/
theorem entry?_put (h : location ≠ []) (l : Location) :
    entry? (t.put location e) l = if l = location then some e else t.entry? l := by
  cases l with
  | nil => simp [h.symm]
  | cons n l => exact get?_put t location (n :: l) e

/-- What is removed from a place is not seen there, and elsewhere nothing changes. -/
theorem entry?_remove (h : location ≠ []) (l : Location) :
    entry? (t.remove location) l = if l = location then none else t.entry? l := by
  cases l with
  | nil => simp [h.symm]
  | cons n l => exact get?_remove t location (n :: l)

/-! ## Directories -/

/-- Every directory of one tree is one of the other. -/
def Grows (t t' : FileTree) : Prop :=
  ∀ location, t.entry? location = some .directory → t'.entry? location = some .directory

/-- A tree has its own directories. -/
theorem Grows.refl (t : FileTree) : t.Grows t := fun _ h => h

/-- A tree that grows and grows again has grown. -/
theorem Grows.trans {t'' : FileTree} (h : t.Grows t') (h' : t'.Grows t'') : t.Grows t'' :=
  fun l hl => h' l (h l hl)

/-- A location is that of a directory, and so are all locations on the way to it. -/
def Reached (t : FileTree) (location : Location) : Prop :=
  ∀ l, l <+: location → t.entry? l = some .directory

/-- The root is always reached. -/
theorem reached_nil (t : FileTree) : t.Reached [] := fun l hl => by
  rw [List.prefix_nil.1 hl, entry?_nil]

/-- A place that is reached is a directory. -/
theorem Reached.entry (h : t.Reached location) : t.entry? location = some .directory :=
  h location List.prefix_rfl

/-- It is reached while the tree grows. -/
theorem Reached.grows (h : t.Reached location) (hgrows : t.Grows t') : t'.Reached location :=
  fun l hl => hgrows l (h l hl)

/-- So is every place on the way to it. -/
theorem Reached.of_prefix {l : Location} (h : t.Reached location) (hl : l <+: location) :
    t.Reached l := fun _ hl' => h _ (hl'.trans hl)

/-- A place is reached if the one above it is and a directory stands there. -/
theorem reached_concat {n : String} :
    t.Reached (location ++ [n]) ↔
      t.Reached location ∧ t.entry? (location ++ [n]) = some .directory := by
  refine ⟨fun h => ⟨h.of_prefix (List.prefix_append _ _), h.entry⟩, fun ⟨h, hentry⟩ l hl => ?_⟩
  rcases List.prefix_concat_iff.1 hl with rfl | hl
  · exact hentry
  · exact h l hl

/-- There is no directory at a location, so there may be a file. -/
def Free (t : FileTree) (location : Location) : Prop := t.entry? location ≠ some .directory

namespace Free

/-- The root is a directory. -/
theorem ne_nil (h : t.Free location) : location ≠ [] := fun hnil => h (by rw [hnil, entry?_nil])

/-- To put something where no directory is takes none away. -/
theorem grows_put (h : t.Free location) : t.Grows (t.put location e) := by
  intro l hl
  rw [entry?_put h.ne_nil, if_neg fun heq : l = location => h (heq ▸ hl), hl]

/-- So does removing something there. -/
theorem grows_remove (h : t.Free location) : t.Grows (t.remove location) := by
  intro l hl
  rw [entry?_remove h.ne_nil, if_neg fun heq : l = location => h (heq ▸ hl), hl]

end Free

/-! ## Changes -/

/-- From one tree to the other no directory is lost. What is not `own` stays as it is, but where
nothing stands a directory may be made, if it is `made`. -/
structure Changes (own made : Location → Prop) (t t' : FileTree) : Prop where
  /-- no directory is lost -/
  grows : t.Grows t'
  /-- what is not `own` stays, or becomes a directory that is `made` -/
  rest : ∀ l, ¬ own l → t'.entries.get? l = t.entries.get? l ∨
    made l ∧ t.entries.get? l = none ∧ t'.entries.get? l = some .directory

namespace Changes

variable {own made own' made' : Location → Prop}

/-- Nothing has changed from a tree to itself. -/
theorem refl (t : FileTree) : Changes own made t t := ⟨.refl t, fun _ _ => .inl rfl⟩

/-- Changes after one another are changes. -/
theorem trans {t'' : FileTree} (h : Changes own made t t') (h' : Changes own made t' t'') :
    Changes own made t t'' := by
  refine ⟨h.grows.trans h'.grows, fun l hl => ?_⟩
  rcases h.rest l hl with hsame | ⟨hmade, hnone, hdir⟩ <;>
    rcases h'.rest l hl with hsame' | ⟨hmade', hnone', hdir'⟩
  · exact .inl (hsame'.trans hsame)
  · exact .inr ⟨hmade', hsame ▸ hnone', hdir'⟩
  · exact .inr ⟨hmade, hnone, hsame'.trans hdir⟩
  · rw [hdir] at hnone'
    cases hnone'

/-- More may be changed than is. -/
theorem mono (h : Changes own made t t') (hown : ∀ l, own l → own' l)
    (hmade : ∀ l, made l → made' l ∨ own' l) : Changes own' made' t t' := by
  refine ⟨h.grows, fun l hl => ?_⟩
  rcases h.rest l (fun hown' => hl (hown l hown')) with hsame | ⟨hmade', hnone, hdir⟩
  · exact .inl hsame
  · exact .inr ⟨(hmade l hmade').resolve_right hl, hnone, hdir⟩

/-- Changes that follow each other are one. -/
theorem of_steps {step : FileTree → FileTree → Prop}
    (hstep : ∀ t t', step t t' → Changes own made t t') (h : Relation.ReflTransGen step t t') :
    Changes own made t t' := by
  induction h with
  | refl => exact .refl t
  | tail _ h ih => exact ih.trans (hstep _ _ h)

/-- What is not `own` is the same before and after, if no directory can be made there. -/
theorem entry?_eq_of (h : Changes own made t t') {l : Location} (hl : ¬ own l)
    (hthere : made l → t.entry? l ≠ none) : t'.entry? l = t.entry? l := by
  cases l with
  | nil => rfl
  | cons n l => exact (h.rest _ hl).resolve_right fun ⟨hmade, hnone, _⟩ => hthere hmade hnone

/-- What may not change is the same before and after. -/
theorem entry?_eq (h : Changes own made t t') {l : Location} (hl : ¬ own l) (hl' : ¬ made l) :
    t'.entry? l = t.entry? l :=
  h.entry?_eq_of hl fun hmade => absurd hmade hl'

/-- Files that are not `own` are the same before and after. -/
theorem file_iff (h : Changes own made t t') {l : Location} (hl : ¬ own l) {content : List UInt8} :
    t'.entry? l = some (.file content) ↔ t.entry? l = some (.file content) := by
  cases l with
  | nil => simp
  | cons n l =>
    change t'.entries.get? (n :: l) = _ ↔ t.entries.get? (n :: l) = _
    rcases h.rest _ hl with hsame | ⟨-, hnone, hdir⟩
    · rw [hsame]
    · simp [hnone, hdir]

end Changes

/-- To make a directory takes none away. -/
theorem grows_put_directory (hne : location ≠ []) : t.Grows (t.put location .directory) := by
  intro l hl
  rw [entry?_put hne]
  split
  · rfl
  · exact hl

/-- A directory may be made where nothing is. -/
theorem changes_put_directory {own made : Location → Prop} (hnone : t.entry? location = none)
    (hmade : made location) : Changes own made t (t.put location .directory) := by
  have hne : location ≠ [] := fun h => by simp [h] at hnone
  refine ⟨grows_put_directory hne, fun l _ => ?_⟩
  rw [get?_put]
  split
  next heq =>
    rw [entry?_of_ne_nil hne] at hnone
    exact .inr ⟨heq ▸ hmade, heq ▸ hnone, rfl⟩
  next => exact .inl rfl

/-! ## Following -/

/-- Upwards the way goes from a directory that is not the root. -/
theorem follow_up (t : FileTree) (location : Location) (rest : List Path.Part) :
    t.follow location (.up :: rest) =
      t.requireDir location >>= fun _ =>
        if location.isEmpty then .error .notFound else t.follow location.dropLast rest := by
  rw [follow]
  split <;> rfl

/-- To a name the way goes from a directory. -/
theorem follow_name (t : FileTree) (location : Location) (n : String) (rest : List Path.Part) :
    t.follow location (.name n :: rest) =
      t.requireDir location >>= fun _ => requireName n >>= fun _ =>
        t.follow (location ++ [n]) rest := rfl

/-- So it goes upwards if a directory is there that is not the root. -/
theorem follow_up_eq_ok {rest : List Path.Part} {l : Location} :
    t.follow location (.up :: rest) = .ok l ↔ t.entry? location = some .directory ∧
      location ≠ [] ∧ t.follow location.dropLast rest = .ok l := by
  rw [follow_up, Outcome.check_bind_eq_ok, requireDir_eq_ok]
  cases location with
  | nil => simp
  | cons n location => simp

/-- And it goes to a name if a directory is there and the name can be one. -/
theorem follow_name_eq_ok {n : String} {rest : List Path.Part} {l : Location} :
    t.follow location (.name n :: rest) = .ok l ↔ t.entry? location = some .directory ∧
      requireName n = .ok () ∧ t.follow (location ++ [n]) rest = .ok l := by
  rw [follow_name, Outcome.check_bind_eq_ok, requireDir_eq_ok, Outcome.check_bind_eq_ok]

/-- Parts are followed one after another. -/
theorem follow_append (t : FileTree) (location : Location) (first rest : List Path.Part) :
    t.follow location (first ++ rest) = t.follow location first >>= fun l => t.follow l rest := by
  induction first generalizing location with
  | nil => rfl
  | cons part first ih =>
    cases part with
    | root => exact ih []
    | here => exact ih location
    | up =>
      rw [List.cons_append, follow_up, follow_up, bind_assoc]
      refine bind_congr fun _ => ?_
      split
      · rfl
      · exact ih _
    | name n =>
      rw [List.cons_append, follow_name, follow_name, bind_assoc]
      refine bind_congr fun _ => ?_
      rw [bind_assoc]
      exact bind_congr fun _ => ih _

/-- Parts lead to the same place when directories are added. -/
theorem follow_mono (hgrows : t.Grows t') {parts : List Path.Part} {l : Location}
    (h : t.follow location parts = .ok l) : t'.follow location parts = .ok l := by
  induction parts generalizing location with
  | nil => exact h
  | cons part parts ih =>
    cases part with
    | root => exact ih h
    | here => exact ih h
    | up =>
      obtain ⟨hdir, hne, hrest⟩ := follow_up_eq_ok.1 h
      exact follow_up_eq_ok.2 ⟨hgrows _ hdir, hne, ih hrest⟩
    | name n =>
      obtain ⟨hdir, hname, hrest⟩ := follow_name_eq_ok.1 h
      exact follow_name_eq_ok.2 ⟨hgrows _ hdir, hname, ih hrest⟩

/-- Parts that can be followed lead where they lead in any tree. -/
theorem eq_of_follow {parts : List Path.Part} {l : Location}
    (h : t.follow location parts = .ok l) : l = parts.foldl Path.Part.lead location := by
  induction parts generalizing location with
  | nil => exact (Except.ok.inj h).symm
  | cons part parts ih =>
    cases part with
    | root => exact ih h
    | here => exact ih h
    | up => exact ih (follow_up_eq_ok.1 h).2.2
    | name n => exact ih (follow_name_eq_ok.1 h).2.2

/-- What leads to a place leads through directories. -/
theorem entry_of_follow {parts : List Path.Part} {l : Location} (hstart : ∀ k, k <+: location →
      k ≠ location → t.entry? k = some .directory) (h : t.follow location parts = .ok l) :
    ∀ k, k <+: l → k ≠ l → t.entry? k = some .directory := by
  induction parts generalizing location with
  | nil =>
    cases h
    exact hstart
  | cons part parts ih =>
    cases part with
    | root => exact ih (fun k hk hne => absurd (List.prefix_nil.1 hk) hne) h
    | here => exact ih hstart h
    | up =>
      obtain ⟨hdir, hne, hrest⟩ := follow_up_eq_ok.1 h
      -- one part back, what lies in front of the new place lies in front of the old one
      refine ih (fun k hk hne' => hstart k (hk.trans (List.dropLast_prefix _)) fun heq => ?_) hrest
      have hlength := hk.length_le
      rw [heq, List.length_dropLast] at hlength
      have hpositive := List.length_pos_of_ne_nil hne
      omega
    | name n =>
      obtain ⟨hdir, hname, hrest⟩ := follow_name_eq_ok.1 h
      refine ih (fun k hk hne => ?_) hrest
      -- a place in front of the next one is the place reached, a directory, or in front of that
      rcases List.prefix_concat_iff.1 hk with rfl | hk
      · exact absurd rfl hne
      · by_cases heq : k = location
        · exact heq ▸ hdir
        · exact hstart k hk heq

/-! ## Making -/

/-- A directory is made by its name unless it is there, or something else is. -/
theorem makeDirs_name (t : FileTree) (location : Location) (n : String) (rest : List Path.Part) :
    t.makeDirs location (.name n :: rest) = requireName n >>= fun _ =>
      match t.entry? (location ++ [n]) with
      | some .directory => t.makeDirs (location ++ [n]) rest
      | some (.file _) => .error (if rest.isEmpty then .alreadyExists else .notADirectory)
      | none => (t.put (location ++ [n]) .directory).makeDirs (location ++ [n]) rest := rfl

/-- Upwards nothing is made. -/
theorem makeDirs_up (t : FileTree) (location : Location) (rest : List Path.Part) :
    t.makeDirs location (.up :: rest) =
      if location.isEmpty then .error .notFound else t.makeDirs location.dropLast rest := rfl

/-- The locations that parts lead through from another one. -/
def Passes (location : Location) (parts : List Path.Part) (l : Location) : Prop :=
  ∃ first, first <+: parts ∧ l = first.foldl Path.Part.lead location

/-- What is passed behind the first part is passed on the whole way. -/
theorem Passes.cons {part : Path.Part} {parts : List Path.Part} {l : Location}
    (h : Passes (part.lead location) parts l) : Passes location (part :: parts) l := by
  obtain ⟨first, hfirst, rfl⟩ := h
  exact ⟨part :: first, List.cons_prefix_cons.2 ⟨rfl, hfirst⟩, rfl⟩

/-- Directories are made only where parts lead through, and only where nothing is. -/
theorem makeDirs_passes {parts : List Path.Part} (h : t.makeDirs location parts = .ok t') :
    Changes (fun _ => False) (Passes location parts) t t' := by
  -- what is passed from the part on is passed with the part in front
  have hrest {s : FileTree} {location : Location} {part : Path.Part} {parts : List Path.Part}
      (h : Changes (fun _ => False) (Passes (part.lead location) parts) s t') :
      Changes (fun _ => False) (Passes location (part :: parts)) s t' :=
    h.mono (fun _ h => h) fun l hl => .inl hl.cons
  induction parts generalizing t location with
  | nil =>
    cases h
    exact .refl _
  | cons part parts ih =>
    cases part with
    | root => exact hrest (ih h)
    | here => exact hrest (ih h)
    | up =>
      rw [makeDirs_up] at h
      split at h
      · cases h
      · exact hrest (ih h)
    | name n =>
      rw [makeDirs_name, Outcome.check_bind_eq_ok] at h
      obtain ⟨-, h⟩ := h
      split at h
      · exact hrest (ih h)
      · cases h
      -- the one case that puts something, on the way to what follows
      next hnone =>
        have hhere : Passes location (.name n :: parts) (location ++ [n]) :=
          .cons ⟨[], List.nil_prefix, rfl⟩
        exact (changes_put_directory hnone hhere).trans (hrest (ih h))

/-- Making directories changes nothing that is there. -/
theorem makeDirs_changes {parts : List Path.Part} (h : t.makeDirs location parts = .ok t') :
    Changes (fun _ => False) (fun _ => True) t t' :=
  (makeDirs_passes h).mono (fun _ h => h) fun _ _ => .inl trivial

/-- Parts that directories were made of lead to a place that is reached through directories. -/
theorem exists_follow_of_makeDirs {parts : List Path.Part} (hreached : t.Reached location)
    (h : t.makeDirs location parts = .ok t') :
    ∃ l, t'.follow location parts = .ok l ∧ t'.Reached l := by
  induction parts generalizing t location with
  | nil =>
    cases h
    exact ⟨location, rfl, hreached⟩
  | cons part parts ih =>
    -- nothing of the tree is taken away, so a directory stays one for the later lookup
    have hgrows := (makeDirs_changes h).grows
    cases part with
    | root => exact ih (reached_nil t) h
    | here => exact ih hreached h
    | up =>
      rw [makeDirs_up] at h
      split at h
      · cases h
      next hne =>
        obtain ⟨l, hl, hreached'⟩ := ih (hreached.of_prefix (List.dropLast_prefix _)) h
        exact ⟨l, follow_up_eq_ok.2 ⟨hgrows _ hreached.entry, by simpa using hne, hl⟩, hreached'⟩
    | name n =>
      rw [makeDirs_name, Outcome.check_bind_eq_ok] at h
      obtain ⟨hname, h⟩ := h
      have hrest : ∃ l, t'.follow (location ++ [n]) parts = .ok l ∧ t'.Reached l := by
        split at h
        next hdir => exact ih (reached_concat.2 ⟨hreached, hdir⟩) h
        next => cases h
        -- a name that is free becomes a directory, and the way goes on through it
        next hnone =>
          refine ih (reached_concat.2 ⟨?_, ?_⟩) h
          · exact hreached.grows (grows_put_directory (by simp))
          · rw [entry?_put (by simp), if_pos rfl]
      obtain ⟨l, hl, hreached'⟩ := hrest
      exact ⟨l, follow_name_eq_ok.2 ⟨hgrows _ hreached.entry, hname, hl⟩, hreached'⟩

/-- Parts that name entries or lead upwards, as all parts do after the first of a path. -/
def Plain (parts : List Path.Part) : Prop := ∀ part ∈ parts, part ≠ .root ∧ part ≠ .here

/-- Parts that lead to a directory do so from one. -/
theorem entry_of_follow_plain {parts : List Path.Part} (hplain : Plain parts) {l : Location}
    (h : t.follow location parts = .ok l) (hl : t.entry? l = some .directory) :
    t.entry? location = some .directory := by
  cases parts with
  | nil =>
    cases h
    exact hl
  | cons part parts =>
    cases part with
    | root => exact absurd rfl (hplain _ List.mem_cons_self).1
    | here => exact absurd rfl (hplain _ List.mem_cons_self).2
    | up => exact (follow_up_eq_ok.1 h).1
    | name n => exact (follow_name_eq_ok.1 h).1

/-- Where parts lead through directories already, nothing has to be made. -/
theorem makeDirs_append {parts : List Path.Part} (hplain : Plain parts) {l : Location}
    (hreached : t.Reached location) (h : t.follow location parts = .ok l) (hl : t.Reached l)
    (more : List Path.Part) : t.makeDirs location (parts ++ more) = t.makeDirs l more := by
  induction parts generalizing location with
  | nil =>
    cases h
    rfl
  | cons part parts ih =>
    obtain ⟨hpart, hrest⟩ := List.forall_mem_cons.1 hplain
    cases part with
    | root => exact absurd rfl hpart.1
    | here => exact absurd rfl hpart.2
    | up =>
      obtain ⟨-, hne, h⟩ := follow_up_eq_ok.1 h
      rw [List.cons_append, makeDirs_up, if_neg (by simpa using hne)]
      exact ih hrest (hreached.of_prefix (List.dropLast_prefix _)) h
    -- the lookup went through a directory here, so none is made
    | name n =>
      obtain ⟨-, hname, h⟩ := follow_name_eq_ok.1 h
      have hdir := entry_of_follow_plain hrest h hl.entry
      rw [List.cons_append, makeDirs_name, hname]
      simp only [hdir]
      exact ih hrest (reached_concat.2 ⟨hreached, hdir⟩) h

/-! ## Names -/

/-- What names lead to from a location, one after another. -/
def Way (location : Location) (names : List String) (l : Location) : Prop :=
  ∃ k, k ≠ [] ∧ k <+: names ∧ l = location ++ k

/-- The first of some directories is on the way, and so are those behind it. -/
theorem way_cons {n : String} {names : List String} {l : Location} :
    Way location (n :: names) l ↔ l = location ++ [n] ∨ Way (location ++ [n]) names l := by
  constructor
  · rintro ⟨k, hk, hprefix, rfl⟩
    cases k with
    | nil => exact absurd rfl hk
    | cons m k =>
      obtain ⟨rfl, hrest⟩ := List.cons_prefix_cons.1 hprefix
      cases k with
      | nil => exact .inl rfl
      | cons m' k => exact .inr ⟨m' :: k, by simp, hrest, by simp⟩
  · rintro (rfl | ⟨k, -, hprefix, rfl⟩)
    · exact ⟨[n], by simp, by simp, rfl⟩
    · exact ⟨n :: k, by simp, List.cons_prefix_cons.2 ⟨rfl, hprefix⟩, by simp⟩

/-- The directories that names lead to stand, and their names can be ones. -/
structure Made (t : FileTree) (location : Location) (names : List String) : Prop where
  /-- all directories on the way stand -/
  reached : t.Reached (location ++ names)
  /-- their names can be names of entries -/
  fit : ∀ n ∈ names, requireName n = .ok ()

/-- Where all directories stand, names lead through them. -/
theorem Made.follow {names : List String} (h : t.Made location names) (rest : List Path.Part) :
    t.follow location (names.map .name ++ rest) = t.follow (location ++ names) rest := by
  induction names generalizing location with
  | nil => rw [List.append_nil]; rfl
  | cons n names ih =>
    obtain ⟨hn, hfit⟩ := List.forall_mem_cons.1 h.fit
    have hreached : t.Reached (location ++ [n] ++ names) := by simpa using h.reached
    have hlocation : t.requireDir location = .ok () :=
      requireDir_eq_ok.2 (h.reached _ (List.prefix_append _ _))
    rw [List.map_cons, List.cons_append, follow_name, hlocation, hn]
    have hrest := ih ⟨hreached, hfit⟩
    rw [List.append_assoc, List.singleton_append] at hrest
    exact hrest

/-- Names lead nowhere else than to what they name. -/
theorem eq_of_follow_names {names : List String} {l : Location}
    (h : t.follow location (names.map .name) = .ok l) : l = location ++ names := by
  induction names generalizing location with
  | nil =>
    cases h
    simp
  | cons n names ih =>
    rw [ih (follow_name_eq_ok.1 h).2.2]
    simp

/-- Making the directories of names makes those that they lead to, and no others. -/
theorem made_of_makeDirs {names : List String} (hreached : t.Reached location)
    (h : t.makeDirs location (names.map .name) = .ok t') :
    t'.Made location names ∧ Changes (fun _ => False) (Way location names) t t' := by
  induction names generalizing t location with
  | nil =>
    cases h
    exact ⟨⟨by simpa using hreached, fun _ h => nomatch h⟩, .refl _⟩
  | cons n names ih =>
    rw [List.map_cons, makeDirs_name, Outcome.check_bind_eq_ok] at h
    obtain ⟨hn, h⟩ := h
    have hmade : t'.Made (location ++ [n]) names ∧
        Changes (fun _ => False) (Way location (n :: names)) t t' := by
      split at h
      next hdir =>
        obtain ⟨hmade, hchanges⟩ := ih (reached_concat.2 ⟨hreached, hdir⟩) h
        exact ⟨hmade, hchanges.mono (fun _ h => h) fun l hl => .inl (way_cons.2 (.inr hl))⟩
      next => cases h
      -- a free name becomes a directory, which is a change on the way and no other
      next hnone =>
        have hput : Changes (fun _ => False) (Way location (n :: names)) t
            (t.put (location ++ [n]) .directory) :=
          changes_put_directory hnone (way_cons.2 (.inl rfl))
        have hdir : entry? (t.put (location ++ [n]) .directory) (location ++ [n]) =
            some .directory := by rw [entry?_put (by simp), if_pos rfl]
        obtain ⟨hmade, hchanges⟩ := ih (reached_concat.2 ⟨hreached.grows hput.grows, hdir⟩) h
        exact ⟨hmade, hput.trans
          (hchanges.mono (fun _ h => h) fun l hl => .inl (way_cons.2 (.inr hl)))⟩
    exact ⟨⟨by simpa using hmade.1.reached, List.forall_mem_cons.2 ⟨hn, hmade.1.fit⟩⟩, hmade.2⟩

/-- Two trees look the same on the way to a place, if some directories may be made in one of
them already. -/
def Ahead (way : Location → Prop) (t t' : FileTree) : Prop :=
  ∀ l, way l → t'.entry? l = t.entry? l ∨ t.entry? l = none ∧ t'.entry? l = some .directory

/-- Whether directories can be made, and why not, depends on what stands on the way only, and
not on how many of them are made already. -/
theorem makeDirs_congr {names : List String} (h : Ahead (Way location names) t t') :
    (∃ e, t.makeDirs location (names.map .name) = .error e ∧
        t'.makeDirs location (names.map .name) = .error e) ∨
      ∃ s s', t.makeDirs location (names.map .name) = .ok s ∧
        t'.makeDirs location (names.map .name) = .ok s' := by
  induction names generalizing t t' location with
  | nil => exact .inr ⟨t, t', rfl, rfl⟩
  | cons n names ih =>
    simp only [List.map_cons, makeDirs_name]
    cases hname : requireName n with
    | error e => exact .inl ⟨e, rfl, rfl⟩
    | ok _ =>
      have hrest : Ahead (Way (location ++ [n]) names) t t' :=
        fun l hl => h l (way_cons.2 (.inr hl))
      -- the directory put lies in front of what is passed next, so that is looked up as before
      have hput (s : FileTree) {l : Location} (hl : Way (location ++ [n]) names l) :
          entry? (s.put (location ++ [n]) .directory) l = s.entry? l := by
        obtain ⟨k, hk, -, rfl⟩ := hl
        rw [entry?_put (List.concat_ne_nil _ _), if_neg (by simpa using hk)]
      rcases h _ (way_cons.2 (.inl rfl)) with hsame | ⟨hnone, hdir⟩
      · rw [hsame]
        cases hentry : t.entry? (location ++ [n]) with
        | none =>
          refine ih fun l hl => ?_
          rw [hput t hl, hput t' hl]
          exact hrest l hl
        | some e =>
          cases e with
          | directory => exact ih hrest
          | file content => exact .inl ⟨_, rfl, rfl⟩
      -- one tree has the directory that the other puts now
      · rw [hnone, hdir]
        refine ih fun l hl => ?_
        rw [hput t hl]
        exact hrest l hl

end FileTree

end Blueprint
