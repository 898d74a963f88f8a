import Blueprint.Disk
import Blueprint.Proofs.FileTree.Follow

/-!
# Where paths lead by their names alone

Without links, a path leads where its parts say, whatever stands there: down by each name and up by
each `..` (`Path.location`). If a tree can follow a path at all, it is to this location, so what an
operation changes is known before it is carried out. The temporary file of a path is never where the
path itself leads, and without a part `..` neither is on the way to the directory of the path.
-/

namespace Blueprint

namespace Path

/-- The location that a path leads to. -/
def location (p : Path) : Location := p.parts.foldl Part.lead []

/-! ## Temporary files -/

/-- A name with the ending of a temporary file is a piece of a path. -/
theorem isPiece_temporary {last : String} (hslash : '/' ∉ last.toList) :
    IsPiece (last ++ ".tmp") where
  ne_empty := by simp
  ne_here := append_ne last (by decide)
  slash := by simp [hslash]

/-- A path and that of its temporary file differ in their last pieces only, and the last piece of
the path itself may stand for no part. -/
theorem exists_parts_temporary (p : Path) : ∃ dir last,
    (Disk.temporary p).parts = dir ++ [.name (last ++ ".tmp")] ∧
      (p.parts = dir ∨ p.parts = dir ++ [.here] ∨ p.parts = dir ++ [Part.ofPiece last]) := by
  -- the text is cut at its last slash: a front part that is empty or ends in it, and a last piece
  obtain ⟨dir, hfront⟩ := exists_leads_dropWhile p.text.toList.reverse
  obtain ⟨last, hlast⟩ : ∃ last : String,
      last.toList = (p.text.toList.reverse.takeWhile (· != '/')).reverse :=
    ⟨.ofList _, String.toList_ofList⟩
  have hslash : '/' ∉ last.toList := by
    rw [hlast, List.mem_reverse]
    intro hmem
    simpa using List.all_eq_true.1 List.all_takeWhile _ hmem
  generalize hrest : (p.text.toList.reverse.dropWhile (· != '/')).reverse = front at hfront
  have htext : p.text.toList = front ++ last.toList := by
    rw [hlast, ← hrest, ← List.reverse_append, List.takeWhile_append_dropWhile,
      List.reverse_reverse]
  have htemporary : (Disk.temporary p).EndsIn dir (last ++ ".tmp") :=
    ⟨isPiece_temporary hslash, front, hfront, by simp [Disk.temporary, htext]⟩
  refine ⟨dir, last, ?_, ?_⟩
  · rw [htemporary.parts_eq, Part.ofPiece, if_neg (append_ne last (by decide))]
  by_cases hpiece : last ≠ "" ∧ last ≠ "."
  · exact .inr (.inr (EndsIn.parts_eq ⟨⟨hpiece.1, hpiece.2, hslash⟩, front, hfront, htext⟩))
  -- a last piece that is empty or a dot names no part of its own
  have hidle : last.toList = [] ∨ last.toList = ['.'] := by
    rcases Classical.not_and_iff_not_or_not.1 hpiece with h | h
    · exact .inl (by simpa using h)
    · exact .inr (by rw [not_not.1 h]; rfl)
  cases hfront with
  | start =>
    have hparts : p.parts = [] ∨ p.parts = [.here] := by
      rw [List.nil_append] at htext
      rw [parts, pieces_eq, htext]
      rcases hidle with h | h <;> rw [h]
      · exact .inl rfl
      · exact .inr rfl
    exact hparts.imp_right .inl
  | slash cs =>
    have hparts : p.parts = leading (piecesOf cs) := by
      rw [← leading_of_text fun h => by simp [h] at htext, htext, List.append_assoc,
        List.singleton_append, leading_slash cs hidle]
    exact .inl hparts

/-- So the one location is that of an entry of a directory, and the other that of the directory, of
the one above, or of another entry. -/
theorem exists_location_temporary (p : Path) : ∃ directory last,
    (Disk.temporary p).location = directory ++ [last ++ ".tmp"] ∧
      (p.location = directory ∨ p.location = directory.dropLast ∨
        p.location = directory ++ [last]) := by
  obtain ⟨dir, last, htemporary, hp⟩ := exists_parts_temporary p
  refine ⟨dir.foldl Part.lead [], last, by simp [location, htemporary, Part.lead], ?_⟩
  rcases hp with hp | hp | hp
  · exact .inl (by rw [location, hp])
  · exact .inl (by simp [location, hp, Part.lead])
  · rw [location, hp, List.foldl_append, Part.ofPiece]
    split
    · exact .inr (.inl rfl)
    · exact .inr (.inr rfl)

/-- A temporary file is not the root. -/
theorem location_temporary_ne_nil (p : Path) : (Disk.temporary p).location ≠ [] := by
  obtain ⟨directory, last, htemporary, -⟩ := exists_location_temporary p
  simp [htemporary]

/-- It is in another place than its file. -/
theorem location_temporary_ne (p : Path) : (Disk.temporary p).location ≠ p.location := by
  obtain ⟨directory, last, htemporary, hp⟩ := exists_location_temporary p
  rw [htemporary]
  intro h
  have hlength := congrArg List.length h
  rcases hp with hp | hp | hp <;> rw [hp] at h hlength
  · simp at hlength
  · simp at hlength
    omega
  · simp at h

/-- It is at least as deep down as its file. -/
theorem length_location_le (p : Path) :
    p.location.length ≤ (Disk.temporary p).location.length := by
  obtain ⟨directory, last, htemporary, hp⟩ := exists_location_temporary p
  rcases hp with hp | hp | hp <;> simp [htemporary, hp]
  omega

/-! ## Without steps upwards -/

/-- Names lead one step down each. -/
theorem length_foldl_lead {parts : List Part} (h : ∀ part ∈ parts, ∃ n, part = .name n)
    (l : Location) : (parts.foldl Part.lead l).length = l.length + parts.length := by
  induction parts generalizing l with
  | nil => rfl
  | cons part parts ih =>
    obtain ⟨⟨n, rfl⟩, hrest⟩ := List.forall_mem_cons.1 h
    rw [List.foldl_cons, ih hrest]
    simp [Part.lead]
    omega

/-- On its way to its directory such a path leads only to locations that are shorter than where it
leads itself, apart from the root. -/
theorem length_lt_of_passes {p : Path} (hup : .up ∉ p.parts) {l : Location}
    (h : FileTree.Passes [] p.parts.dropLast l) :
    l = [] ∨ l.length < p.location.length := by
  obtain ⟨first, hfirst, rfl⟩ := h
  -- without a way up every part but the first is a name, and a name adds one to the length
  have hnames : ∀ part ∈ p.parts.tail, ∃ n, part = .name n := by
    intro part hpart
    obtain ⟨hroot, hhere⟩ := p.tail_parts part hpart
    cases part with
    | root => exact absurd rfl hroot
    | here => exact absurd rfl hhere
    | up => exact absurd (List.mem_of_mem_tail hpart) hup
    | name n => exact ⟨n, rfl⟩
  rw [location]
  generalize p.parts = parts at *
  cases first with
  | nil => exact .inl rfl
  | cons part first =>
    obtain ⟨rest, hrest⟩ := hfirst
    obtain rfl | ⟨init, final, rfl⟩ := parts.eq_nil_or_concat'
    · cases hrest
    rw [List.dropLast_concat] at hrest
    subst hrest
    simp only [List.cons_append, List.append_assoc, List.tail_cons] at hnames ⊢
    refine .inr ?_
    rw [List.foldl_cons, List.foldl_cons, length_foldl_lead hnames,
      length_foldl_lead fun part hpart => hnames part (List.mem_append_left _ hpart)]
    simp only [List.length_append, List.length_cons, List.length_nil]
    omega

end Path

namespace FileTree

variable {t t' : FileTree} {l : Location} {p q : Path}

/-! ## Locating -/

/-- A path that does not ask for a directory is located if it can be a path, has parts and can be
followed. -/
theorem locate_eq_ok (hasks : p.asksForDir = false) : t.locate p = .ok l ↔
    requirePath p = .ok () ∧ p.parts ≠ [] ∧ t.follow [] p.parts = .ok l := by
  rw [locate, Outcome.check_bind_eq_ok, hasks]
  refine and_congr_right fun _ => ?_
  by_cases hparts : p.parts = []
  · simp [hparts, Outcome.bind_eq_ok, Outcome.throw_eq_ok]
  · simp only [hparts, List.isEmpty_iff, if_false, Outcome.bind_eq_ok, Bool.false_eq_true, ne_eq,
      not_false_eq_true, true_and]
    refine ⟨fun ⟨l', hl', h⟩ => ?_, fun h => ⟨l, h, ?_⟩⟩
    · have hsame : l' = l := by split at h <;> exact Except.ok.inj h
      exact hsame ▸ hl'
    · split <;> rfl

/-- The path of a file does not ask for a directory. -/
theorem locateFile_eq_ok : t.locateFile p = .ok l ↔ p.asksForDir = false ∧
    requirePath p = .ok () ∧ p.parts ≠ [] ∧ t.follow [] p.parts = .ok l := by
  rw [locateFile, Outcome.bind_eq_ok]
  cases hasks : p.asksForDir with
  | true => simp [Outcome.map_eq_ok, Outcome.throw_eq_ok]
  | false => simp [Outcome.pure_eq_ok, locate_eq_ok hasks]

/-- A file is located where its path leads without anything being looked up. -/
theorem eq_of_locateFile (h : t.locateFile p = .ok l) : l = p.location :=
  eq_of_follow (locateFile_eq_ok.1 h).2.2.2

/-- A path leads to the same file when directories are added. -/
theorem locateFile_mono (hgrows : t.Grows t') (h : t.locateFile p = .ok l) :
    t'.locateFile p = .ok l := by
  obtain ⟨hasks, hpath, hparts, hfollow⟩ := locateFile_eq_ok.1 h
  exact locateFile_eq_ok.2 ⟨hasks, hpath, hparts, follow_mono hgrows hfollow⟩

/-! ## Operations -/

/-- A file is read where the path leads. -/
theorem readFile_of_locateFile {bytes : List UInt8} (h : t.locateFile p = .ok l)
    (hentry : t.entry? l = some (.file bytes)) : t.readFile p = .ok bytes := by
  obtain ⟨hasks, hlocate⟩ := locateFile_eq_ok.1 h
  rw [readFile, (locate_eq_ok hasks).2 hlocate, Outcome.bind_eq_ok]
  exact ⟨l, rfl, by rw [hentry]; rfl⟩

/-- A file is put where the path leads. -/
theorem writeFile_eq_ok {bytes : List UInt8} : t.writeFile p bytes = .ok t' ↔
    t.locateFile p = .ok p.location ∧ t.Free p.location ∧
      t' = t.put p.location (.file bytes) := by
  rw [writeFile, Outcome.bind_eq_ok]
  constructor
  · rintro ⟨l, hl, h⟩
    obtain rfl := eq_of_locateFile hl
    split at h
    · cases h
    next hfree => exact ⟨hl, fun hdir => hfree hdir, (Except.ok.inj h).symm⟩
  · rintro ⟨hl, hfree, rfl⟩
    refine ⟨_, hl, ?_⟩
    split
    next hdir => exact absurd hdir hfree
    next => rfl

/-- A file that is moved is taken from where one path leads and put where the other leads. -/
theorem rename_eq_ok : t.rename p q = .ok t' ↔
    t.locateFile p = .ok p.location ∧ t.locateFile q = .ok q.location ∧
      ∃ bytes, t.entry? p.location = some (.file bytes) ∧ t.Free q.location ∧
        t' = (t.remove p.location).put q.location (.file bytes) := by
  rw [rename, Outcome.bind_eq_ok]
  constructor
  · rintro ⟨l, hl, h⟩
    obtain ⟨k, hk, h⟩ := Outcome.bind_eq_ok.1 h
    obtain rfl := eq_of_locateFile hl
    obtain rfl := eq_of_locateFile hk
    split at h
    · cases h
    · cases h
    · cases h
    next e hdir hentry hfree =>
      cases e with
      | directory => exact absurd rfl hdir
      | file bytes => exact ⟨hl, hk, bytes, hentry, fun h => hfree h, (Except.ok.inj h).symm⟩
  · rintro ⟨hl, hk, bytes, hentry, hfree, rfl⟩
    refine ⟨_, hl, Outcome.bind_eq_ok.2 ⟨_, hk, ?_⟩⟩
    rw [hentry]
    -- what stands at the target decides nothing, unless it is a directory
    cases htarget : t.entry? q.location with
    | none => rfl
    | some e =>
      cases e with
      | directory => exact absurd htarget hfree
      | file content => rfl

/-- A file is taken from where the path leads. -/
theorem removeFile_eq_ok : t.removeFile p = .ok t' ↔
    t.locateFile p = .ok p.location ∧ (∃ bytes, t.entry? p.location = some (.file bytes)) ∧
      t' = t.remove p.location := by
  rw [removeFile, Outcome.bind_eq_ok]
  constructor
  · rintro ⟨l, hl, h⟩
    obtain rfl := eq_of_locateFile hl
    split at h
    next bytes hentry => exact ⟨hl, ⟨bytes, hentry⟩, (Except.ok.inj h).symm⟩
    · cases h
    · cases h
  · rintro ⟨hl, ⟨bytes, hentry⟩, rfl⟩
    exact ⟨_, hl, by rw [hentry]; rfl⟩

end FileTree

end Blueprint
