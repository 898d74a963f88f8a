import Blueprint.Proofs.Disk.Failing

/-!
# Writing a file in one move

Whatever breaks off, nobody finds anything else where the path of a file leads than what was there
before or all of the new content; the new content is there after a success, and what was there
before after a failure (`Disk.writeAtomic_atomic`). This needs that making the directory of the file
does not put a directory where the file, or its temporary file, is to be (`Disk.Clear`), as only a
path with a part `..` can. The temporary file is gone in the end, unless writing it broke off.
-/

namespace Blueprint.Disk

open FileTree FailingTree

variable {p : Path} {bytes : List UInt8} {t t' m : FileTree} {faults : Faults}
  {s s' : FailingTree} {r : Except FileError Unit} {e : FileError}

/-! ## Making the directory -/

/-- On the way to the directory of a path something stands already where the path and that of its
temporary file lead, if the way goes there at all. -/
def Clear (p : Path) (t : FileTree) : Prop :=
  ∀ parent, p.parent? = some parent → ∀ l, Passes [] parent.dirParts l →
    l = p.location ∨ l = (temporary p).location → t.entry? l ≠ none

/-- Without a part `..` the way does not go there. -/
theorem clear_of_up_notMem (hup : .up ∉ p.parts) (t : FileTree) : Clear p t := by
  intro parent hparent l hl hat
  have hparts : parent.dirParts <+: p.parts.dropLast := by
    rw [← Path.parts_of_parent hparent, Path.dirParts]
    split
    · exact List.dropLast_prefix _
    · exact List.prefix_rfl
  have hpasses : Passes [] p.parts.dropLast l := by
    obtain ⟨first, hfirst, rfl⟩ := hl
    exact ⟨first, hfirst.trans hparts, rfl⟩
  rcases Path.length_lt_of_passes hup hpasses with rfl | hlt
  · simp
  · have hle := p.length_location_le
    rcases hat with rfl | rfl <;> omega

/-- The file and the temporary file of a path are what they are in another tree. -/
structure Untouched (p : Path) (t m : FileTree) : Prop where
  /-- the file -/
  target : m.entry? p.location = t.entry? p.location
  /-- the temporary file -/
  temporary : m.entry? (temporary p).location = t.entry? (Disk.temporary p).location

/-- Making the first directories on a clear way leaves both files alone. -/
theorem Clear.untouched (hclear : Clear p t) {parent : Path} (hparent : p.parent? = some parent)
    {first : List Path.Part} (hfirst : first <+: parent.dirParts)
    (h : t.makeDirs [] first = .ok m) : Untouched p t m := by
  have hthere {l : Location} (hat : l = p.location ∨ l = (temporary p).location) :
      m.entry? l = t.entry? l := by
    refine (makeDirs_passes h).entry?_eq_of (fun h => h) fun ⟨k, hk, hl⟩ => ?_
    exact hclear parent hparent l ⟨k, hk.trans hfirst, hl⟩ hat
  exact ⟨hthere (.inl rfl), hthere (.inr rfl)⟩

/-- So does making the directory of the path, whether it breaks off or not. -/
theorem Clear.createParent (hclear : Clear p t)
    (h : (createParent p : StateM FailingTree _) (.start t faults) = (r, s)) :
    s.faults = faults ∧ ∀ m, s.Saw m → Untouched p t m := by
  have hstart (m : FileTree) (hm : (FailingTree.start t faults).Saw m) : Untouched p t m := by
    rw [saw_start.1 hm]
    exact ⟨rfl, rfl⟩
  unfold Disk.createParent at h
  cases hparent : p.parent? with
  | some parent =>
    rw [hparent] at h
    -- every stage on the way is a directory above the file, so both files are as before
    have hstages : ∀ m ∈ t.dirStages parent, Untouched p t m := by
      intro m hm
      obtain ⟨first, hfirst, hmade⟩ := exists_of_mem_dirStages hm
      exact hclear.untouched hparent hfirst hmade
    cases ends_createDirAll h with
    | broken hfault =>
      -- a fault leaves the first stages only
      refine ⟨faults_through _ _, forall_saw_through hstart fun m hm => ?_⟩
      exact hstages m (List.mem_of_mem_take hm)
    | refused hfault hresult => exact ⟨rfl, hstart⟩
    | done hfault hresult =>
      have hmade := hclear.untouched hparent List.prefix_rfl (makeDirs_of_createDirAll hresult)
      refine ⟨faults_through _ _, forall_saw_through hstart ?_⟩
      exact List.forall_mem_append.2 ⟨hstages, List.forall_mem_singleton.2 hmade⟩
  | none =>
    rw [hparent] at h
    cases h
    exact ⟨rfl, hstart⟩

/-! ## What is promised -/

/-- What a computation that gives the file of a path its content shows on its way and leaves. -/
structure Atomic (p : Path) (bytes : List UInt8) (t : FileTree) (faults : Faults)
    (r : Except FileError Unit) (s : FailingTree) : Prop where
  /-- at every moment there is what was there before, or all of the content -/
  whole : ∀ m, s.Saw m →
    m.entry? p.location = t.entry? p.location ∨ m.entry? p.location = some (.file bytes)
  /-- after a success the content is there and can be read, and there is no temporary file -/
  done : r = .ok () → s.tree.entry? p.location = some (.file bytes) ∧
    s.tree.readFile p = .ok bytes ∧ s.tree.entry? (temporary p).location = none
  /-- after a failure there is what was there before -/
  failed : ∀ e, r = .error e → s.tree.entry? p.location = t.entry? p.location
  /-- a temporary file that was made is left exactly if writing it broke off, or if it could not be
  removed after a failure -/
  left : t.entry? (temporary p).location = none →
    (s.tree.entry? (temporary p).location ≠ none ↔
      (∃ m, s.Saw m ∧ m.entry? (temporary p).location ≠ none) ∧
        (faults.write ≠ none ∨ (∃ e, r = .error e) ∧ faults.remove ≠ none))

/-- If neither file was touched there is nothing more to say. -/
theorem atomic_of_untouched (h : ∀ m, s.Saw m → Untouched p t m) :
    Atomic p bytes t faults (.error e) s where
  whole m hm := .inl (h m hm).target
  done hok := nomatch hok
  failed _ _ := (h _ s.saw_tree).target
  left hnone := by
    have htree := (h _ s.saw_tree).temporary.trans hnone
    refine ⟨fun hleft => absurd htree hleft, fun ⟨⟨m, hm, hmade⟩, _⟩ => ?_⟩
    exact absurd ((h m hm).temporary.trans hnone) hmade

/-! ## Writing the temporary file -/

/-- The temporary file can be put in its place with the file left alone. -/
theorem entry?_put_temporary (p : Path) (t : FileTree) (content : FileEntry) :
    entry? (t.put (temporary p).location content) p.location = t.entry? p.location ∧
      entry? (t.put (temporary p).location content) (temporary p).location = some content := by
  rw [entry?_put p.location_temporary_ne_nil, entry?_put p.location_temporary_ne_nil]
  exact ⟨if_neg p.location_temporary_ne.symm, if_pos rfl⟩

/-- If writing breaks off, the temporary file that was made stays. -/
theorem atomic_of_broken (h : ∀ m, s.Saw m → Untouched p t m) (hwrite : faults.write ≠ none)
    (progress : Nat) : Atomic p bytes t faults (.error e)
      (s.through ((s.tree.writeStages (temporary p) bytes).take progress)) := by
  have hstage {m : FileTree} (hm : m ∈ (s.tree.writeStages (temporary p) bytes).take progress) :
      m.entry? p.location = t.entry? p.location ∧ m.entry? (temporary p).location ≠ none := by
    obtain ⟨n, hn⟩ := exists_of_mem_writeStages (List.mem_of_mem_take hm)
    obtain ⟨-, -, rfl⟩ := writeFile_eq_ok.1 hn
    obtain ⟨htarget, htemporary⟩ := entry?_put_temporary p s.tree (.file (bytes.take n))
    exact ⟨htarget.trans (h _ s.saw_tree).target, by simp [htemporary]⟩
  have htarget := forall_saw_through (fun m hm => (h m hm).target) fun m hm => (hstage hm).1
  refine ⟨fun m hm => .inl (htarget m hm), nofun, fun _ _ => htarget _ (saw_tree _), ?_⟩
  intro hnone
  refine ⟨fun hleft => ⟨⟨_, saw_tree _, hleft⟩, .inl hwrite⟩, fun ⟨⟨m, hm, hmade⟩, _⟩ => ?_⟩
  rcases tree_through s ((s.tree.writeStages (temporary p) bytes).take progress) with
    ⟨-, hstages⟩ | hlast
  · rw [hstages] at hm
    exact absurd ((h m hm).temporary.trans hnone) hmade
  · exact (hstage hlast).2

/-- The temporary file has all of the content, and the file itself was never touched. -/
structure Written (p : Path) (bytes : List UInt8) (t : FileTree) (s : FailingTree) : Prop where
  /-- the temporary path leads to its place -/
  located : s.tree.locateFile (temporary p) = .ok (temporary p).location
  /-- the content is there -/
  content : s.tree.entry? (temporary p).location = some (.file bytes)
  /-- no tree that was seen had another file -/
  target : ∀ m, s.Saw m → m.entry? p.location = t.entry? p.location

/-- After it was written, the temporary file has all of the content. -/
theorem written_of_writeFile (h : ∀ m, s.Saw m → Untouched p t m)
    (hwrite : s.tree.writeFile (temporary p) bytes = .ok t') :
    Written p bytes t (s.through (s.tree.writeStages (temporary p) bytes ++ [t'])) := by
  have hstage {n : Nat} {m : FileTree}
      (hn : s.tree.writeFile (temporary p) (bytes.take n) = .ok m) :
      m.entry? p.location = t.entry? p.location := by
    obtain ⟨-, -, rfl⟩ := writeFile_eq_ok.1 hn
    exact (entry?_put_temporary p _ _).1.trans (h _ s.saw_tree).target
  obtain ⟨hlocated, hfree, ht'⟩ := writeFile_eq_ok.1 hwrite
  have hgrows : s.tree.Grows t' := ht' ▸ hfree.grows_put
  refine ⟨?_, ?_, forall_saw_through (fun m hm => (h m hm).target) ?_⟩
  · rw [tree_through_concat]
    exact locateFile_mono hgrows hlocated
  · rw [tree_through_concat, ht']
    exact (entry?_put_temporary p _ _).2
  · refine List.forall_mem_append.2 ⟨fun m hm => ?_, List.forall_mem_singleton.2 ?_⟩
    · obtain ⟨n, hn⟩ := exists_of_mem_writeStages hm
      exact hstage hn
    · exact hstage (n := bytes.length) (by rwa [List.take_length])

/-! ## Moving it -/

/-- Once it is moved, the file has all of the content, and the temporary file is gone. -/
theorem Written.moved (h : Written p bytes t s) (hwrite : faults.write = none)
    (hmoved : s.tree.rename (temporary p) p = .ok t') :
    Atomic p bytes t faults (.ok ()) (s.through [t']) := by
  obtain ⟨-, hlocated, content, hcontent, hfree, ht'⟩ := rename_eq_ok.1 hmoved
  obtain rfl : bytes = content := by
    rw [h.content] at hcontent
    injection hcontent with hcontent
    injection hcontent
  have htarget : t'.entry? p.location = some (.file bytes) := by
    rw [ht', entry?_put hfree.ne_nil, if_pos rfl]
  have htemporary : t'.entry? (temporary p).location = none := by
    rw [ht', entry?_put hfree.ne_nil, if_neg p.location_temporary_ne,
      entry?_remove p.location_temporary_ne_nil, if_pos rfl]
  have htemporaryFree : s.tree.Free (temporary p).location := by simp [Free, h.content]
  have hremovedFree : (s.tree.remove (temporary p).location).Free p.location := by
    rwa [Free, entry?_remove htemporaryFree.ne_nil, if_neg p.location_temporary_ne.symm]
  -- what is added to a tree hides nothing that was there, so the path still leads to the file
  have hgrows : s.tree.Grows t' :=
    ht' ▸ htemporaryFree.grows_remove.trans hremovedFree.grows_put
  have hread := readFile_of_locateFile (locateFile_mono hgrows hlocated) htarget
  have htree : (s.through [t']).tree = t' := tree_through_concat s [] t'
  refine ⟨forall_saw_through (fun m hm => .inl (h.target m hm)) ?_, fun _ => ?_, nofun, fun _ => ?_⟩
  -- the other trees seen have the old file, the last one has the new one
  · exact List.forall_mem_singleton.2 (.inr htarget)
  · rw [htree]
    exact ⟨htarget, hread, htemporary⟩
  · rw [htree, htemporary]
    simp [hwrite]

/-- If it is not moved it is removed, unless that fails too. -/
theorem Written.removed (h : Written p bytes t s) (hfaults : s.faults = faults)
    (hwrite : faults.write = none)
    (hremove : (removeFile (temporary p) : StateM FailingTree _) s = (r, s')) :
    Atomic p bytes t faults (.error e) s' := by
  subst hfaults
  have hleft : s.tree.entry? (temporary p).location ≠ none := by simp [h.content]
  rcases (ends_removeFile hremove).of_nil with ⟨t', hremoved, hfault, -, rfl⟩ | ⟨e', -, rfl, hfails⟩
  · obtain ⟨-, -, rfl⟩ := removeFile_eq_ok.1 hremoved
    have htree : (s.through [s.tree.remove (temporary p).location]).tree = _ :=
      tree_through_concat s [] _
    have htarget : ∀ m, (s.through [s.tree.remove (temporary p).location]).Saw m →
        m.entry? p.location = t.entry? p.location := by
      refine forall_saw_through h.target (List.forall_mem_singleton.2 ?_)
      rw [entry?_remove p.location_temporary_ne_nil, if_neg p.location_temporary_ne.symm]
      exact h.target _ s.saw_tree
    refine ⟨fun m hm => .inl (htarget m hm), nofun, fun _ _ => htarget _ (saw_tree _), fun _ => ?_⟩
    rw [htree, entry?_remove p.location_temporary_ne_nil, if_pos rfl]
    simp [hwrite, hfault]
  -- the file can be removed, so only a fault keeps it there
  · have hok := removeFile_eq_ok.2 ⟨h.located, ⟨bytes, h.content⟩, rfl⟩
    have hremove : s'.faults.remove ≠ none :=
      fun hnone => Outcome.ne_error_of_eq_ok hok (hfails hnone)
    refine ⟨fun m hm => .inl (h.target m hm), nofun, fun _ _ => h.target _ s'.saw_tree,
      fun _ => ?_⟩
    exact iff_of_true hleft ⟨⟨_, s'.saw_tree, hleft⟩, .inr ⟨⟨e, rfl⟩, hremove⟩⟩

/-! ## All of it -/

/-- **A file is written in one move or not at all.** Whatever breaks off while the file of a path
gets its content, nobody ever finds part of it there; after a success all of it is there, and after
a failure what was there before. A temporary file is left only if writing it broke off, or if it
could not be removed after the move had failed. -/
theorem writeAtomic_atomic (hclear : Clear p t) (bytes : List UInt8) (faults : Faults)
    (h : (writeAtomic p bytes : StateM FailingTree _) (.start t faults) = (r, s)) :
    Atomic p bytes t faults r s := by
  rw [writeAtomic, FailingTree.bind_apply] at h
  rcases hcreate : (createParent p : StateM FailingTree _) (.start t faults) with ⟨_ | _, s₁⟩
  -- the directories are made, or nothing more happens: the files are untouched in both cases
  all_goals
    obtain ⟨rfl, huntouched⟩ := hclear.createParent hcreate
    rw [hcreate] at h
  · cases h
    exact atomic_of_untouched huntouched
  dsimp only at h
  rw [FailingTree.bind_apply] at h
  rcases hwrite : (writeFile (temporary p) bytes : StateM FailingTree _) s₁ with ⟨r₂, s₂⟩
  rw [hwrite] at h
  cases ends_writeFile hwrite with
  | broken hfault =>
    cases h
    exact atomic_of_broken huntouched (by simp [hfault]) _
  | refused hfault hresult =>
    cases h
    exact atomic_of_untouched huntouched
  | done hfault hresult =>
    -- from here on the temporary file holds all the bytes
    have hwritten := written_of_writeFile huntouched hresult
    dsimp only at h
    rw [FailingTree.bind_apply] at h
    rcases hmove : (rename (temporary p) p : StateM FailingTree _) (s₁.through _) with ⟨r₃, s₃⟩
    rw [hmove] at h
    rcases (ends_rename hmove).of_nil with ⟨t', hmoved, -, rfl, rfl⟩ | ⟨e, rfl, rfl, -⟩
    · cases h
      exact hwritten.moved hfault hmoved
    · cases h
      exact hwritten.removed (faults_through _ _) hfault rfl

/-- A directory with a file in it. -/
def shelf : FileTree where
  entries := .ofList [(["shelf"], .directory), (["shelf", "book"], .file [7])]

/-- The move of a file breaks off. -/
def unmoved : Faults where
  rename := some ⟨0, .other "Input/output error (os error 5)"⟩

/-- The new book cannot be moved to its place, and the shelf is left as it was. -/
theorem writeAtomic_atomic_unmoved : Clear ⟨"shelf/book"⟩ shelf ∧
    ∃ s, (writeAtomic ⟨"shelf/book"⟩ [1, 2] : StateM FailingTree _) (.start shelf unmoved) =
        (.error (.other "Input/output error (os error 5)"), s) ∧
      s.tree = shelf ∧
      Atomic ⟨"shelf/book"⟩ [1, 2] shelf unmoved (.error (.other "Input/output error (os error 5)"))
        s := by
  have hclear : Clear ⟨"shelf/book"⟩ shelf := clear_of_up_notMem (by decide +kernel) shelf
  have hfails : ((writeAtomic ⟨"shelf/book"⟩ [1, 2] : StateM FailingTree _)
      (.start shelf unmoved)).1 = .error (.other "Input/output error (os error 5)") := by
    decide +kernel
  refine ⟨hclear, _, Prod.ext hfails rfl, by decide +kernel, ?_⟩
  exact writeAtomic_atomic hclear [1, 2] unmoved (Prod.ext hfails rfl)

/-! ## What is not promised -/

/-- The disk is full after a file has its first byte. -/
def full : Faults where
  write := some ⟨2, .other "No space left on device (os error 28)"⟩

/-- **Not all is cleaned up.** If writing breaks off, the temporary file stays. And a path may put a
directory in its own way, in the place of the temporary file or of the file itself, and that stays
too. Then the file cannot be written afterwards, though nothing stood in its place before. -/
theorem exists_left :
    (∃ e s, (writeAtomic ⟨"book"⟩ [1, 2] : StateM FailingTree _) (.start .empty full) =
        (.error e, s) ∧ s.tree.entry? ["book.tmp"] = some (.file [1])) ∧
    (∃ e t, (writeAtomic ⟨"book.tmp/../book"⟩ [0] : StateM FileTree _) .empty = (.error e, t) ∧
      t.entry? ["book.tmp"] = some .directory ∧
      ((writeAtomic ⟨"book"⟩ [1] : StateM FileTree _) t).1 = .error .isADirectory) ∧
    ∃ e t, (writeAtomic ⟨"book/../book"⟩ [0] : StateM FileTree _) .empty = (.error e, t) ∧
      t.entry? ["book"] = some .directory ∧
      ((writeAtomic ⟨"book"⟩ [1] : StateM FileTree _) t).1 = .error .isADirectory := by
  have hfull : ((writeAtomic ⟨"book"⟩ [1, 2] : StateM FailingTree _) (.start .empty full)).1 =
      .error (.other "No space left on device (os error 28)") := by decide +kernel
  have htemporary : ((writeAtomic ⟨"book.tmp/../book"⟩ [0] : StateM FileTree _) .empty).1 =
      .error .isADirectory := by decide +kernel
  have htarget : ((writeAtomic ⟨"book/../book"⟩ [0] : StateM FileTree _) .empty).1 =
      .error .isADirectory := by decide +kernel
  exact ⟨⟨_, _, Prod.ext hfull rfl, by decide +kernel⟩,
    ⟨_, _, Prod.ext htemporary rfl, by decide +kernel⟩,
    ⟨_, _, Prod.ext htarget rfl, by decide +kernel⟩⟩

end Blueprint.Disk
