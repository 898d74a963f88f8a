import Blueprint.Proofs.FileTree.Follow

/-!
# Where a file is written

A file is written behind directories that are made on the way, below a directory that is there
(`Site`). What is done to it and to its temporary file is a matter of two locations, once the
directories on the way are made (`Site.Ready`): the operations then look at these two locations
and change nothing else.
-/

namespace Blueprint

open FileTree

/-- A place for a file: a directory that is there, by its path and its location, the names of the
directories below, and the last piece of the path of the file. -/
structure Site where
  /-- the path of the directory that is there -/
  root : Path
  /-- where it is -/
  base : Location
  /-- the directories below -/
  dirs : List String
  /-- the last piece of the path -/
  last : String
deriving DecidableEq

namespace Site

variable (x : Site)

/-- The directory of the file. -/
def directory : Location := x.base ++ x.dirs

/-- The location of the file. -/
def file : Location := x.directory ++ [x.last]

/-- The location of its temporary file. -/
def temporary : Location := x.directory ++ [x.last ++ ".tmp"]

/-- What belongs to the site. A path that ends upwards is that of no file. -/
def Own (l : Location) : Prop := l = x.temporary ∨ x.last ≠ ".." ∧ l = x.file

/-- The directories on the way to the file. -/
def Way (l : Location) : Prop := FileTree.Way x.base x.dirs l

/-- The path of the file. -/
def At (p : Path) : Prop := p.EndsIn (x.root.parts ++ x.dirs.map .name) x.last

/-- The directory that should be there is there. -/
structure Holds (t : FileTree) : Prop where
  /-- the path of the directory leads to its place -/
  leads : t.follow [] x.root.parts = .ok x.base
  /-- the place and all above it are directories -/
  reached : t.Reached x.base

/-- All directories of the site are there. -/
structure Ready (t : FileTree) : Prop extends x.Holds t where
  made : t.Made x.base x.dirs

variable {x} {t t' : FileTree} {p : Path} {l : Location}

/-- A directory that is there stays there while the tree grows. -/
theorem Holds.grows (h : x.Holds t) (hgrows : t.Grows t') : x.Holds t' :=
  ⟨follow_mono hgrows h.leads, h.reached.grows hgrows⟩

/-- So do all directories of a site. -/
theorem Ready.grows (h : x.Ready t) (hgrows : t.Grows t') : x.Ready t' :=
  ⟨h.toHolds.grows hgrows, h.made.reached.grows hgrows, h.made.fit⟩

/-! ## Locations -/

/-- The temporary file is not the root. -/
theorem temporary_ne_nil (x : Site) : x.temporary ≠ [] := List.concat_ne_nil _ _

/-- Nor is the file. -/
theorem file_ne_nil (x : Site) : x.file ≠ [] := List.concat_ne_nil _ _

/-- They are in different places. -/
theorem temporary_ne_file (x : Site) : x.temporary ≠ x.file := by simp [temporary, file]

/-- What belongs to a site is not on the way to it. -/
theorem Own.not_way {l : Location} (h : x.Own l) : ¬ x.Way l := by
  rintro ⟨k, -, hk, rfl⟩
  have hlength := hk.length_le
  rcases h with h | ⟨-, h⟩
  · have := congrArg List.length h
    simp [temporary, directory] at this
    omega
  · have := congrArg List.length h
    simp [file, directory] at this
    omega

/-- What belongs to a site is not the root. -/
theorem Own.ne_nil {l : Location} (h : x.Own l) : l ≠ [] := by
  rcases h with rfl | ⟨-, rfl⟩
  · exact x.temporary_ne_nil
  · exact x.file_ne_nil

/-- Nor is what is on the way. -/
theorem Way.ne_nil {l : Location} (h : x.Way l) : l ≠ [] := by
  obtain ⟨k, hk, -, rfl⟩ := h
  exact List.append_ne_nil_of_right_ne_nil _ hk

/-- Where all directories are there, so are those on the way. -/
theorem Ready.entry_of_way (h : x.Ready t) (hl : x.Way l) : t.entry? l = some .directory := by
  obtain ⟨k, -, hk, rfl⟩ := hl
  exact h.made.reached _ ((List.prefix_append_right_inj _).2 hk)

/-! ## Sites of paths -/

/-- The site of a path below a directory that is there, read off the parts of the path. -/
def ofPath (root : Path) (base : Location) (p : Path) : Site :=
  let pieces := (p.parts.drop root.parts.length).map Path.Part.piece
  ⟨root, base, pieces.dropLast, pieces.getLast?.getD ""⟩

/-- The site of a path is read off its pieces. -/
theorem ofPath_eq {root : Path} {dirs : List String} {last : String}
    (h : p.EndsIn (root.parts ++ dirs.map .name) last) (base : Location) :
    ofPath root base p = ⟨root, base, dirs, last⟩ := by
  have hpieces : (p.parts.drop root.parts.length).map Path.Part.piece = dirs ++ [last] := by
    rw [h.parts_eq, List.append_assoc, List.drop_left]
    simp [Function.comp_def]
  simp [ofPath, hpieces]

/-- The last piece is that of a structure file, or else leads upwards. -/
def ForStructure (x : Site) : Prop := x.last = ".." ∨ ∃ name, x.last = name ++ ".bin"

/-- No temporary file is named as a structure file is. -/
theorem tmp_ne_bin (name name' : String) : name ++ ".tmp" ≠ name' ++ ".bin" := by
  intro h
  have hlast := congrArg (fun s => s.toList.getLast?) h
  simp at hlast

/-- Two files in different places, or of different names, have nothing in common. -/
theorem Own.disjoint {x y : Site} (hx : x.ForStructure) (hy : y.ForStructure)
    (hbase : x.base = y.base) (hne : x.dirs = y.dirs → x.last ≠ y.last) {l : Location}
    (h : x.Own l) : ¬ y.Own l := by
  intro h'
  have hinj {a b : String} (heq : x.directory ++ [a] = y.directory ++ [b]) :
      x.dirs = y.dirs ∧ a = b := by
    rw [directory, directory, hbase] at heq
    simpa using heq
  rcases h with rfl | ⟨hname, rfl⟩ <;> rcases h' with heq | ⟨hname', heq⟩
  · obtain ⟨hdirs, hlast⟩ := hinj heq
    exact hne hdirs (by simpa using hlast)
  · obtain ⟨-, hlast⟩ := hinj heq
    obtain ⟨name, hbin⟩ := hy.resolve_left hname'
    exact tmp_ne_bin _ _ (hlast.trans hbin)
  · obtain ⟨-, hlast⟩ := hinj heq
    obtain ⟨name, hbin⟩ := hx.resolve_left hname
    exact tmp_ne_bin _ _ (hlast.symm.trans hbin)
  · obtain ⟨hdirs, hlast⟩ := hinj heq
    exact hne hdirs hlast

/-! ## The directory of the file -/

/-- Where a path leads, nothing has to be made on the way. -/
theorem makeDirs_parts (h : t.follow [] p.parts = .ok l) (hl : t.Reached l)
    (more : List Path.Part) : t.makeDirs [] (p.parts ++ more) = t.makeDirs l more := by
  have hplain := p.tail_parts
  cases hparts : p.parts with
  | nil =>
    rw [hparts] at h
    cases h
    rfl
  | cons part parts =>
    rw [hparts] at h hplain
    cases part with
    | root => exact makeDirs_append hplain (reached_nil t) h hl more
    | here => exact makeDirs_append hplain (reached_nil t) h hl more
    | up => exact absurd (follow_up_eq_ok.1 h).2.1 (by simp)
    | name n =>
      have hplain' : Plain (.name n :: parts) := fun part hpart => by
        rcases List.mem_cons.1 hpart with rfl | hpart
        · simp
        · exact hplain part hpart
      exact makeDirs_append hplain' (reached_nil t) h hl more

/-- A path that leads to a place does so along its parts. -/
theorem follow_of_locate (h : t.locate p = .ok l) : t.follow [] p.parts = .ok l := by
  rw [locate, Outcome.check_bind_eq_ok] at h
  obtain ⟨-, h⟩ := h
  cases hparts : p.parts.isEmpty with
  | true =>
    rw [hparts] at h
    cases h
  | false =>
    simp only [hparts, Bool.false_eq_true, if_false] at h
    obtain ⟨l', hfollow, h⟩ := Outcome.bind_eq_ok.1 h
    split at h
    · split at h
      · cases h
      · rwa [← Except.ok.inj h]
    · rwa [← Except.ok.inj h]

/-- A path that leads to a directory does so along its parts. -/
theorem follow_of_locateDir (h : t.locateDir p = .ok l) :
    t.follow [] p.parts = .ok l ∧ t.entry? l = some .directory := by
  obtain ⟨l', hlocate, h⟩ := Outcome.bind_eq_ok.1 h
  rw [Outcome.check_bind_eq_ok] at h
  obtain ⟨hdir, h⟩ := h
  obtain rfl := Except.ok.inj h
  exact ⟨follow_of_locate hlocate, requireDir_eq_ok.1 hdir⟩

/-- After a directory was made, its path leads to it. -/
theorem holds_of_createDirAll (h : t.createDirAll p = .ok t') :
    ∃ base, t'.follow [] p.parts = .ok base ∧ t'.Reached base ∧
      Changes (fun _ => False) (fun _ => True) t t' := by
  rw [createDirAll, Outcome.check_bind_eq_ok] at h
  obtain ⟨-, h⟩ := h
  split at h
  · obtain ⟨made, hmade, h⟩ := Outcome.bind_eq_ok.1 h
    obtain ⟨base, hbase, h⟩ := Outcome.bind_eq_ok.1 h
    obtain rfl := Except.ok.inj h
    obtain ⟨hfollow, hdir⟩ := follow_of_locateDir hbase
    refine ⟨base, hfollow, fun l hl => ?_, makeDirs_changes hmade⟩
    by_cases heq : l = base
    · exact heq ▸ hdir
    · exact entry_of_follow (fun k hk hne => absurd (List.prefix_nil.1 hk) hne) hfollow l hl heq
  · obtain ⟨base, hbase, hreached⟩ := exists_follow_of_makeDirs (reached_nil t) h
    exact ⟨base, hbase, hreached, makeDirs_changes h⟩

/-- To make the directory of a file is to make what is missing on the way to it. -/
theorem createParent_eq (hp : x.At p) (h : x.Holds t) : ∃ parent, p.parent? = some parent ∧
    t.createDirAll parent =
      requirePath parent >>= fun _ => t.makeDirs x.base (x.dirs.map .name) := by
  obtain ⟨parent, hparent, hparts, hhere⟩ := Path.EndsIn.exists_parent hp
  refine ⟨parent, hparent, ?_⟩
  have hmake := makeDirs_parts h.leads h.reached (x.dirs.map .name)
  rw [← hparts] at hmake
  unfold createDirAll
  split
  next hdot =>
    obtain ⟨text⟩ := parent
    obtain rfl := hhere hdot
    rw [← hmake]
    rfl
  next => rw [hmake]

/-! ## Locating -/

section

variable {dir : List Path.Part} {last : String} (h : p.EndsIn dir last)

include h

/-- A path leads where its parts do, if it is one. -/
theorem locate_eq : t.locate p = requirePath p >>= fun _ => t.follow [] p.parts := by
  have hsome : p.parts.isEmpty = false := by simp [h.parts_eq]
  unfold locate
  rw [hsome, h.asksForDir_eq]
  cases requirePath p with
  | error e => rfl
  | ok _ =>
    cases t.follow [] p.parts with
    | error e => rfl
    | ok l =>
      simp only [bind, Except.bind, Bool.false_eq_true, if_false]
      rcases t.entry? l with _ | content | _ <;> rfl

/-- A file is located as its path is, since the path does not ask for a directory. -/
theorem locateFile_eq : t.locateFile p = t.locate p := by
  unfold locateFile
  rw [h.asksForDir_eq]
  cases t.locate p with
  | error e => rfl
  | ok l => rfl

end

/-- Where the path of the file leads. -/
def target (x : Site) (p : Path) : Except FileError Location := do
  requirePath p
  if x.last = ".." then
    if x.directory = [] then throw .notFound
    return x.directory.dropLast
  requireName x.last
  return x.file

/-- Where the path of the temporary file leads. -/
def temporaryTarget (x : Site) (p : Path) : Except FileError Location := do
  requirePath (Disk.temporary p)
  requireName (x.last ++ ".tmp")
  return x.temporary

/-- Where all directories are there, the path goes on from the directory of the file. -/
theorem Ready.follow (h : x.Ready t) (rest : List Path.Part) :
    t.follow [] (x.root.parts ++ x.dirs.map .name ++ rest) = t.follow x.directory rest := by
  rw [List.append_assoc, follow_append, h.leads]
  exact h.made.follow rest

/-- That is a directory. -/
theorem Ready.requireDir (h : x.Ready t) : t.requireDir x.directory = .ok () :=
  requireDir_eq_ok.2 h.made.reached.entry

/-- The temporary file is in the directory of the file, under the name with an ending. -/
theorem at_temporary (hp : x.At p) :
    (Disk.temporary p).EndsIn (x.root.parts ++ x.dirs.map .name) (x.last ++ ".tmp") := by
  refine Path.EndsIn.longer hp rfl (Path.isPiece_append ?_ (by decide) ?_ (by decide))
  · exact (Path.EndsIn.piece hp).ne_empty
  · exact (Path.EndsIn.piece hp).slash

/-- Its path goes through the directories of the site to that name. -/
theorem parts_temporary (hp : x.At p) : (Disk.temporary p).parts =
    x.root.parts ++ x.dirs.map .name ++ [.name (x.last ++ ".tmp")] := by
  have hname : x.last ++ ".tmp" ≠ ".." := Path.append_ne x.last (by decide)
  rw [(at_temporary hp).parts_eq, Path.Part.ofPiece, if_neg hname]

/-- The path of the file does so too, unless it leads upwards. -/
theorem parts_file (hp : x.At p) (hname : x.last ≠ "..") :
    p.parts = x.root.parts ++ x.dirs.map .name ++ [.name x.last] := by
  rw [Path.EndsIn.parts_eq hp, Path.Part.ofPiece, if_neg hname]

/-- Where the directory that should be there is there, the path leads to the file, if it leads
anywhere. -/
theorem Holds.eq_file (hp : x.At p) (h : x.Holds t) (hname : x.last ≠ "..")
    (hl : t.follow [] p.parts = .ok l) : l = x.file := by
  have hparts : p.parts = x.root.parts ++ (x.dirs ++ [x.last]).map .name := by
    simp [parts_file hp hname]
  rw [hparts, follow_append, h.leads] at hl
  rw [eq_of_follow_names hl, file, directory, List.append_assoc]

/-- The path of the temporary file leads to its target. -/
theorem locate_temporary (hp : x.At p) (h : x.Ready t) :
    t.locateFile (Disk.temporary p) = x.temporaryTarget p := by
  rw [locateFile_eq (at_temporary hp), locate_eq (at_temporary hp), parts_temporary hp, h.follow,
    follow_name, h.requireDir]
  rfl

/-- The path of the file leads to its target. -/
theorem locate_file (hp : x.At p) (h : x.Ready t) : t.locateFile p = x.target p := by
  rw [locateFile_eq hp, locate_eq hp, Path.EndsIn.parts_eq hp, h.follow, Path.Part.ofPiece, target]
  by_cases hup : x.last = ".."
  · rw [if_pos hup, if_pos hup, follow_up, h.requireDir]
    refine bind_congr fun _ => ?_
    cases x.directory with
    | nil => rfl
    | cons n directory => rfl
  · rw [if_neg hup, if_neg hup, follow_name, h.requireDir]
    rfl

/-! ## Operations -/

/-- The target of the temporary file is the temporary file. -/
theorem exists_temporary_of_target {q : Location} (h : x.temporaryTarget p = .ok q) :
    q = x.temporary := by
  simp only [temporaryTarget, Outcome.check_bind_eq_ok] at h
  exact (Except.ok.inj h.2.2).symm

/-- The path of the file leads to the file, or else upwards to a directory. -/
theorem eq_of_target (h : x.Ready t) {q : Location} (hq : x.target p = .ok q) :
    x.last ≠ ".." ∧ q = x.file ∨ x.last = ".." ∧ t.entry? q = some .directory := by
  simp only [target, Outcome.check_bind_eq_ok] at hq
  obtain ⟨-, hq⟩ := hq
  split at hq
  next hup =>
    split at hq
    · cases hq
    · obtain rfl := Except.ok.inj hq
      exact .inr ⟨hup, h.made.reached _ (List.dropLast_prefix _)⟩
  next hup =>
    rw [Outcome.check_bind_eq_ok] at hq
    exact .inl ⟨hup, (Except.ok.inj hq.2).symm⟩

/-- The temporary file is written unless there is a directory in its place. -/
theorem writeFile_temporary (hp : x.At p) (h : x.Ready t) (bytes : List UInt8) :
    t.writeFile (Disk.temporary p) bytes = x.temporaryTarget p >>= fun _ =>
      match t.entry? x.temporary with
      | some .directory => .error .isADirectory
      | _ => .ok (t.put x.temporary (.file bytes)) := by
  rw [writeFile, locate_temporary hp h]
  cases htarget : x.temporaryTarget p with
  | error e => rfl
  | ok q =>
    obtain rfl := exists_temporary_of_target htarget
    rfl

/-- The temporary file is moved to where the path of the file leads, unless there is a directory. -/
theorem rename_temporary (hp : x.At p) (h : x.Ready t) :
    t.rename (Disk.temporary p) p = x.temporaryTarget p >>= fun _ => x.target p >>= fun q =>
      match t.entry? x.temporary, t.entry? q with
      | none, _ => .error .notFound
      | some .directory, _ => .error .isADirectory
      | _, some .directory => .error .isADirectory
      | some e, _ => .ok ((t.remove x.temporary).put q e) := by
  rw [rename, locate_temporary hp h, locate_file hp h]
  cases htarget : x.temporaryTarget p with
  | error e => rfl
  | ok q =>
    obtain rfl := exists_temporary_of_target htarget
    rfl

/-- The temporary file is removed if it is a file. -/
theorem removeFile_temporary (hp : x.At p) (h : x.Ready t) :
    t.removeFile (Disk.temporary p) = x.temporaryTarget p >>= fun _ =>
      match t.entry? x.temporary with
      | some (.file _) => .ok (t.remove x.temporary)
      | some .directory => .error .isADirectory
      | none => .error .notFound := by
  rw [removeFile, locate_temporary hp h]
  cases htarget : x.temporaryTarget p with
  | error e => rfl
  | ok q =>
    obtain rfl := exists_temporary_of_target htarget
    rfl

/-! ## What they change -/

/-- To write a file of the site changes the site alone. -/
theorem changes_put_own {l : Location} {content : List UInt8} (hown : x.Own l)
    (hfree : t.Free l) : Changes x.Own x.Way t (t.put l (.file content)) := by
  refine ⟨hfree.grows_put, fun k hk => .inl ?_⟩
  rw [get?_put, if_neg fun heq : k = l => hk (heq ▸ hown)]

/-- So does removing the temporary file. -/
theorem changes_remove_temporary (hfree : t.Free x.temporary) :
    Changes x.Own x.Way t (t.remove x.temporary) := by
  refine ⟨hfree.grows_remove, fun k hk => .inl ?_⟩
  rw [get?_remove, if_neg fun heq => hk (.inl heq)]

/-- To make the directory of the file changes nothing but the way to it, and all directories are
there. -/
theorem changes_createParent (hp : x.At p) (h : x.Holds t) {parent : Path}
    (hparent : p.parent? = some parent) (hmade : t.createDirAll parent = .ok t') :
    Changes (fun _ => False) x.Way t t' ∧ x.Ready t' := by
  obtain ⟨parent', hparent', hcreate⟩ := createParent_eq hp h
  obtain rfl := Option.some.inj (hparent.symm.trans hparent')
  rw [hcreate, Outcome.check_bind_eq_ok] at hmade
  obtain ⟨hready, hchanges⟩ := made_of_makeDirs h.reached hmade.2
  exact ⟨hchanges, h.grows hchanges.grows, hready⟩

/-- To write the temporary file changes the site alone, and the file is there. -/
theorem changes_writeFile (hp : x.At p) (h : x.Ready t) {bytes : List UInt8}
    (hwritten : t.writeFile (Disk.temporary p) bytes = .ok t') :
    Changes x.Own x.Way t t' ∧ t'.entry? x.temporary = some (.file bytes) := by
  rw [writeFile_temporary hp h, Outcome.bind_eq_ok] at hwritten
  obtain ⟨-, -, hwritten⟩ := hwritten
  split at hwritten
  · cases hwritten
  next hdir =>
    obtain rfl := Except.ok.inj hwritten
    refine ⟨changes_put_own (.inl rfl) fun h => hdir h, ?_⟩
    rw [entry?_put x.temporary_ne_nil, if_pos rfl]

/-- To move the temporary file changes the site alone, and what it held is in the file. -/
theorem changes_rename (hp : x.At p) (h : x.Ready t)
    (hmoved : t.rename (Disk.temporary p) p = .ok t') :
    Changes x.Own x.Way t t' ∧ x.target p = .ok x.file ∧ x.last ≠ ".." ∧
      t'.entry? x.file = t.entry? x.temporary := by
  rw [rename_temporary hp h, Outcome.bind_eq_ok] at hmoved
  obtain ⟨-, -, hmoved⟩ := hmoved
  obtain ⟨q, hq, hmoved⟩ := Outcome.bind_eq_ok.1 hmoved
  split at hmoved
  · cases hmoved
  · cases hmoved
  · cases hmoved
  next e hfile htemporary hdir =>
    -- only a file that is there is moved, and it goes to the file the path names
    obtain rfl := Except.ok.inj hmoved
    obtain ⟨hname, rfl⟩ : x.last ≠ ".." ∧ q = x.file :=
      (eq_of_target h hq).resolve_right fun hup => hdir hup.2
    -- the two places differ, so the file put is the one that was taken away
    refine ⟨(changes_remove_temporary fun heq => ?_).trans ?_, hq, hname, ?_⟩
    · exact hfile (Option.some.inj (htemporary.symm.trans heq))
    · cases e with
      | directory => exact absurd rfl hfile
      | file content =>
        refine changes_put_own (.inr ⟨hname, rfl⟩) ?_
        rw [Free, entry?_remove x.temporary_ne_nil, if_neg x.temporary_ne_file.symm]
        exact hdir
    · rw [entry?_put x.file_ne_nil, if_pos rfl, htemporary]

/-- To remove the temporary file changes the site alone. -/
theorem changes_removeFile (hp : x.At p) (h : x.Ready t)
    (hremoved : t.removeFile (Disk.temporary p) = .ok t') : Changes x.Own x.Way t t' := by
  rw [removeFile_temporary hp h, Outcome.bind_eq_ok] at hremoved
  obtain ⟨-, -, hremoved⟩ := hremoved
  split at hremoved
  next content hfile =>
    obtain rfl := Except.ok.inj hremoved
    exact changes_remove_temporary (by simp [Free, hfile])
  · cases hremoved
  · cases hremoved

end Site

end Blueprint
