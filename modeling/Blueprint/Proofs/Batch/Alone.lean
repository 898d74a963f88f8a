import Blueprint.Proofs.Batch.Prepared
import Blueprint.Proofs.Batch.Site

/-!
# Writing a file undisturbed

If the others leave alone what belongs to a site, and make no more than directories on the way to
it, then the file is written, or not written, as it would be if nobody else were there
(`Site.mirrors_writeAtomic`). This asks more of the others than `Site.terms`: none of their files
may stand where this site needs a directory.
-/

namespace Blueprint

open FileTree

namespace Site

variable {x : Site} {p : Path} {bytes : List UInt8} {a s : FileTree} {opens : Prop}

/-- Others leave what belongs to the site alone, and on the way to it they make directories at
most; the site itself makes them if it `opens`. -/
def undisturbed (x : Site) (opens : Prop) : Terms FileTree where
  rely := Changes (fun l => ¬ x.Own l ∧ ¬ x.Way l) fun l => ¬ x.Own l
  guarantee := Changes x.Own fun l => x.Way l ∧ opens

/-- What belongs to the site is the same in two trees. -/
def Like (x : Site) (a s : FileTree) : Prop := ∀ l, x.Own l → s.entry? l = a.entry? l

/-- Trees stay alike where both go through the same change elsewhere. -/
theorem Like.changes {a' s' : FileTree} {own made : Location → Prop} (h : x.Like a s)
    (ha : Changes own made a a') (hs : Changes own made s s')
    (hown : ∀ l, x.Own l → ¬ own l ∧ ¬ made l) : x.Like a' s' := fun l hl => by
  rw [ha.entry?_eq (hown l hl).1 (hown l hl).2, hs.entry?_eq (hown l hl).1 (hown l hl).2, h l hl]

/-- Trees stay alike where the same entry is put into both. -/
theorem Like.put (h : x.Like a s) {l : Location} (hl : l ≠ []) (e : FileEntry) :
    x.Like (a.put l e) (s.put l e) := fun k hk => by
  rw [entry?_put hl, entry?_put hl, h k hk]

/-- Trees stay alike where the temporary file is removed from both. -/
theorem Like.remove (h : x.Like a s) : x.Like (a.remove x.temporary) (s.remove x.temporary) :=
  fun k hk => by rw [entry?_remove x.temporary_ne_nil, entry?_remove x.temporary_ne_nil, h k hk]

/-- The directories of the site are there in both trees, and what belongs to it is the same. -/
structure Open (x : Site) (a s : FileTree) : Prop where
  /-- in the tree where the variant is alone -/
  alone : x.Ready a
  /-- and in that of the run -/
  ready : x.Ready s
  /-- its files look the same in both -/
  like : x.Like a s

/-- The site looks the same in both trees, but for directories on the way that are there in the
second one already. -/
structure Awaits (x : Site) (a s : FileTree) : Prop where
  /-- the directory for output is there in the tree where the variant is alone -/
  alone : x.Holds a
  /-- and in that of the run -/
  holds : x.Holds s
  /-- on the way the run may be ahead by directories -/
  ahead : Ahead x.Way a s
  /-- the files of the site look the same in both -/
  like : x.Like a s

/-- Nobody else can make the trees differ at the output. -/
theorem stable_like (x : Site) (opens : Prop) (a : FileTree) :
    (x.undisturbed opens).Stable (x.Like a) := fun _ _ hs h l hl => by
  rw [hs.entry?_eq (fun hown => hown.1 hl) (not_not_intro hl), h l hl]

/-- Nor can anybody else remove the directory of the output. -/
theorem stable_open (x : Site) (opens : Prop) (a : FileTree) :
    (x.undisturbed opens).Stable (x.Open a) := fun s s' hs h =>
  ⟨h.alone, h.ready.grows hs.grows, x.stable_like opens a s s' hs h.like⟩

/-- Nor can anybody else get in its way before it is there. -/
theorem stable_awaits (x : Site) (opens : Prop) (a : FileTree) :
    (x.undisturbed opens).Stable (x.Awaits a) := by
  refine fun s s' hs h => ⟨h.alone, h.holds.grows hs.grows, fun l hl => ?_,
    x.stable_like opens a s s' hs h.like⟩
  have hway : s'.entry? l = s.entry? l ∨ s.entry? l = none ∧ s'.entry? l = some .directory := by
    cases l with
    | nil => exact .inl rfl
    | cons n l => exact (hs.rest _ fun hown => hown.2 hl).imp_right fun h => ⟨h.2.1, h.2.2⟩
  rcases h.ahead l hl with hsame | ⟨hnone, hdir⟩
  · rwa [hsame] at hway
  · refine .inr ⟨hnone, ?_⟩
    rcases hway with hsame | ⟨hnone', -⟩
    · exact hsame.trans hdir
    · simp [hdir] at hnone'

/-! ## Operations in two trees -/

/-- An operation fails in two trees for the same reason, or makes of them two that are
related. -/
def Both (related : FileTree → FileTree → Prop) (u v : Except FileError FileTree) : Prop :=
  (∃ e, u = .error e ∧ v = .error e) ∨ ∃ a s, u = .ok a ∧ v = .ok s ∧ related a s

/-- What is refused or done after a check is so in both trees, if the check has one answer. -/
theorem Both.check {β : Type} {related : FileTree → FileTree → Prop} (check : Except FileError β)
    {u v : β → Except FileError FileTree} (h : ∀ b, check = .ok b → Both related (u b) (v b)) :
    Both related (check >>= u) (check >>= v) := by
  cases check with
  | error e => exact .inl ⟨e, rfl, rfl⟩
  | ok b => exact h b rfl

/-- In both trees the directory of the output is made, or is refused for the same reason. -/
theorem both_createParent (hp : x.At p) (h : x.Awaits a s) {parent : Path}
    (hparent : p.parent? = some parent) :
    Both x.Open (a.createDirAll parent) (s.createDirAll parent) := by
  have hmade : Both (fun _ _ => True) (a.createDirAll parent) (s.createDirAll parent) := by
    obtain ⟨parent', hparent', hcreate⟩ := createParent_eq hp h.alone
    obtain ⟨parent'', hparent'', hcreate'⟩ := createParent_eq hp h.holds
    obtain rfl := Option.some.inj (hparent.symm.trans hparent')
    obtain rfl := Option.some.inj (hparent.symm.trans hparent'')
    rw [hcreate, hcreate']
    refine Both.check _ fun _ _ => ?_
    rcases makeDirs_congr h.ahead with hfailed | ⟨a', s', ha', hs'⟩
    · exact .inl hfailed
    · exact .inr ⟨a', s', ha', hs', trivial⟩
  rcases hmade with hfailed | ⟨a', s', ha', hs', -⟩
  · exact .inl hfailed
  · obtain ⟨hchanges, hready⟩ := changes_createParent hp h.alone hparent ha'
    obtain ⟨hchanges', hready'⟩ := changes_createParent hp h.holds hparent hs'
    exact .inr ⟨a', s', ha', hs', hready, hready',
      h.like.changes hchanges hchanges' fun l hl => ⟨not_false, hl.not_way⟩⟩

/-- In both trees the temporary file is written, or is refused for the same reason. -/
theorem both_writeFile (hp : x.At p) (h : x.Open a s) (bytes : List UInt8) :
    Both x.Like (a.writeFile (Disk.temporary p) bytes) (s.writeFile (Disk.temporary p) bytes) := by
  rw [writeFile_temporary hp h.alone, writeFile_temporary hp h.ready, h.like _ (.inl rfl)]
  refine Both.check _ fun _ _ => ?_
  split
  · exact .inl ⟨_, rfl, rfl⟩
  · exact .inr ⟨_, _, rfl, rfl, h.like.put x.temporary_ne_nil _⟩

/-- In both trees the temporary file is moved, or is refused for the same reason. -/
theorem both_rename (hp : x.At p) (h : x.Open a s) :
    Both x.Like (a.rename (Disk.temporary p) p) (s.rename (Disk.temporary p) p) := by
  rw [rename_temporary hp h.alone, rename_temporary hp h.ready, h.like _ (.inl rfl)]
  refine Both.check _ fun _ _ => Both.check _ fun q hq => ?_
  have htarget : s.entry? q = a.entry? q := by
    rcases eq_of_target h.alone hq with ⟨hname, rfl⟩ | ⟨hup, hdir⟩
    · exact h.like _ (.inr ⟨hname, rfl⟩)
    · obtain ⟨-, hdir'⟩ := (eq_of_target h.ready hq).resolve_left fun hname => hname.1 hup
      exact hdir'.trans hdir.symm
  rw [htarget]
  split
  · exact .inl ⟨_, rfl, rfl⟩
  · exact .inl ⟨_, rfl, rfl⟩
  · exact .inl ⟨_, rfl, rfl⟩
  next e _ _ hdir =>
    obtain ⟨hname, rfl⟩ := (eq_of_target h.alone hq).resolve_right fun hup => hdir hup.2
    exact .inr ⟨_, _, rfl, rfl, h.like.remove.put x.file_ne_nil e⟩

/-- In both trees the temporary file is removed, or is refused for the same reason. -/
theorem both_removeFile (hp : x.At p) (h : x.Open a s) :
    Both x.Like (a.removeFile (Disk.temporary p)) (s.removeFile (Disk.temporary p)) := by
  rw [removeFile_temporary hp h.alone, removeFile_temporary hp h.ready, h.like _ (.inl rfl)]
  refine Both.check _ fun _ _ => ?_
  split
  · exact .inr ⟨_, _, rfl, rfl, h.like.remove⟩
  · exact .inl ⟨_, rfl, rfl⟩
  · exact .inl ⟨_, rfl, rfl⟩

/-- An operation on the files of a site keeps its directories. -/
theorem Both.opened {u v : Except FileError FileTree} (hboth : Both x.Like u v) (h : x.Open a s)
    (hopens : opens) (ha : ∀ a', u = .ok a' → Changes x.Own x.Way a a')
    (hs : ∀ s', v = .ok s' → Changes x.Own x.Way s s') :
    Both (fun a' s' => x.Open a' s' ∧ (x.undisturbed opens).guarantee s s') u v := by
  rcases hboth with hfailed | ⟨a', s', ha', hs', hlike⟩
  · exact .inl hfailed
  · refine .inr ⟨a', s', ha', hs', ⟨h.alone.grows (ha a' ha').grows,
      h.ready.grows (hs s' hs').grows, hlike⟩, ?_⟩
    exact (hs s' hs').mono (fun _ hl => hl) fun _ hl => .inl ⟨hl, hopens⟩

/-! ## The file -/

/-- The directory of a file is there or can be made. -/
def Opens (p : Path) (a : FileTree) : Prop :=
  (Disk.createParent (m := StateM FileTree) p a).1 = .ok ()

/-- An operation that comes to the same in both trees. -/
theorem mirrors_update {f : FileTree → Except FileError FileTree}
    {fact done : FileTree → FileTree → Prop} (hfact : ∀ a, (x.undisturbed opens).Stable (fact a))
    (hdone : ∀ a, (x.undisturbed opens).Stable (done a)) (hs : fact a s)
    (h : ∀ s, fact a s →
      Both (fun a' s' => done a' s' ∧ (x.undisturbed opens).guarantee s s') (f a) (f s)) :
    (Task.step (update f)).Mirrors (x.undisturbed opens)
      (fun outcome a => After (fact a) (done a) outcome) a s := by
  refine Task.mirrors_step_of_stable (hfact a) (fun outcome a => ?_) hs fun s hs => ?_
  · cases outcome with
    | ok _ => exact hdone a
    | error e => exact hfact a
  · rcases h s hs with ⟨e, ha, hs'⟩ | ⟨a', s', ha, hs', hdone, hchanges⟩
    · rw [update_of_error ha, update_of_error hs']
      exact ⟨.refl s, rfl, hs⟩
    · rw [update_of_ok ha, update_of_ok hs']
      exact ⟨hchanges, rfl, hdone⟩

theorem mirrors_createParent (hp : x.At p) (h : x.Awaits a s) :
    (Disk.createParent (m := Task FileTree) p).Mirrors (x.undisturbed (Opens p a))
      (fun outcome a => After (x.Awaits a) (x.Open a) outcome) a s := by
  obtain ⟨parent, hparent, -⟩ := Path.EndsIn.exists_parent hp
  rw [Disk.createParent, hparent]
  refine mirrors_update (x.stable_awaits _) (x.stable_open _) h fun s hs => ?_
  rcases both_createParent hp hs hparent with hfailed | ⟨a', s', ha', hs', hopen⟩
  · exact .inl hfailed
  · have hopens : Opens p a := by
      rw [Opens, Disk.createParent, hparent]
      exact congrArg Prod.fst (update_of_ok ha')
    refine .inr ⟨a', s', ha', hs', hopen, ?_⟩
    exact (changes_createParent hp hs.holds hparent hs').1.mono (fun _ h => h.elim)
      fun _ hl => .inl ⟨hl, hopens⟩

/-- **Undisturbed.** A file that the others leave alone is written, or not written, as it would be
if nobody else were there, and the same is left at its site. -/
theorem mirrors_writeAtomic (hp : x.At p) (h : x.Awaits a s) :
    (Disk.writeAtomic (m := Task FileTree) p bytes).Mirrors (x.undisturbed (Opens p a))
      (fun _ a' s' => x.Like a' s' ∧ (Opens p a → x.Ready s')) a s := by
  have hfinal (a' : FileTree) : (x.undisturbed (Opens p a)).Stable
      fun s' => x.Like a' s' ∧ (Opens p a → x.Ready s') := fun s s' hs h =>
    ⟨x.stable_like _ a' s s' hs h.1, fun hopens => (h.2 hopens).grows hs.grows⟩
  have hdone (outcome : Except FileError Unit) (a' s' : FileTree) (h : x.Open a' s') :
      (Task.done outcome).Mirrors (x.undisturbed (Opens p a))
        (fun _ a' s' => x.Like a' s' ∧ (Opens p a → x.Ready s')) a' s' :=
    Task.mirrors_done_of_stable (hfinal a') ⟨h.like, fun _ => h.ready⟩
  rw [Disk.writeAtomic]
  refine Task.mirrors_bind (mirrors_createParent hp h) fun outcome a₁ hmade s hs => ?_
  rw [Batch.run_createParent] at hmade
  cases outcome with
  | error e =>
    -- a directory that cannot be made ends the write before the final path is open
    have hclosed : ¬ Opens p a := fun hopens => by
      rw [Opens, hmade] at hopens
      cases hopens
    exact Task.mirrors_done_of_stable (hfinal a₁) ⟨hs.like, fun hopens => absurd hopens hclosed⟩
  | ok _ =>
    -- from here on every operation leaves the path open in both runs
    have hopens : Opens p a := congrArg Prod.fst hmade
    refine Task.mirrors_bind (mirrors_update (x.stable_open _) (x.stable_open _) hs fun s hs =>
      (both_writeFile hp hs bytes).opened hs hopens
        (fun a' h => (changes_writeFile hp hs.alone h).1)
        fun s' h => (changes_writeFile hp hs.ready h).1) fun outcome a₂ _ s hs => ?_
    cases outcome with
    | error e => exact hdone _ a₂ s hs
    | ok _ =>
      refine Task.mirrors_bind (mirrors_update (x.stable_open _) (x.stable_open _) hs fun s hs =>
        (both_rename hp hs).opened hs hopens (fun a' h => (changes_rename hp hs.alone h).1)
          fun s' h => (changes_rename hp hs.ready h).1) fun outcome a₃ _ s hs => ?_
      cases outcome with
      | ok _ => exact hdone _ a₃ s hs
      | error e =>
        -- only a rename that fails leaves a temporary file to take away
        refine Task.mirrors_bind (mirrors_update (x.stable_open _) (x.stable_open _) hs fun s hs =>
          (both_removeFile hp hs).opened hs hopens
            (fun a' h => changes_removeFile hp hs.alone h)
            fun s' h => changes_removeFile hp hs.ready h) fun outcome a₄ _ s hs => ?_
        cases outcome with
        | ok _ => exact hdone _ a₄ s hs
        | error e => exact hdone _ a₄ s hs

end Site

end Blueprint
