import Blueprint.Batch.Discover
import Blueprint.FileTree
import Blueprint.Proofs.Outcome
import Blueprint.Proofs.Path
import Blueprint.Proofs.SortedMap

/-!
# What is in a file tree

A tree is *sound* if every entry has a name that can be one and stands in a directory. All trees
that are made by operations on a sound one are sound.
-/

namespace Blueprint

namespace FileTree

/-- Every entry has a proper name and stands in a directory. -/
structure Sound (t : FileTree) : Prop where
  /-- the names on the way to an entry are proper -/
  names : ∀ {location e}, t.entry? location = some e → ∀ n ∈ location, Path.IsName n
  /-- an entry stands in a directory -/
  parents : ∀ {location n e}, t.entry? (location ++ [n]) = some e →
    t.entry? location = some .directory

variable {t : FileTree} {location : Location} {e : FileEntry} {p : Path}

/-- Whatever is not the root is looked up among the entries. -/
theorem entry?_of_ne_nil (h : location ≠ []) : t.entry? location = t.entries.get? location := by
  cases location with
  | nil => exact absurd rfl h
  | cons n location => rfl

/-- It is enough to look at the entries. -/
theorem sound_of_entries (h : ∀ x ∈ t.entries.entries, x.1 ≠ [] ∧ (∀ n ∈ x.1, Path.IsName n) ∧
    t.entry? x.1.dropLast = some .directory) : t.Sound := by
  have hentry {location : Location} {e : FileEntry} (hne : location ≠ [])
      (he : t.entry? location = some e) := by
    rw [entry?_of_ne_nil hne] at he
    exact h _ (SortedMap.get?_eq_some_iff.1 he)
  refine ⟨fun {location e} he n hn => ?_, fun {location n e} he => ?_⟩
  · exact (hentry (List.ne_nil_of_mem hn) he).2.1 n hn
  · simpa using (hentry (by simp) he).2.2

/-- A path leads to an entry if it leads to a place where the entry stands. -/
theorem find?_eq_some :
    t.find? p = some e ↔ ∃ location, t.locate p = .ok location ∧ t.entry? location = some e := by
  unfold find?
  cases t.locate p with
  | error e => simp
  | ok location => simp

/-- A directory is required where one is. -/
theorem requireDir_eq_ok :
    t.requireDir location = .ok () ↔ t.entry? location = some .directory := by
  unfold requireDir
  split <;> simp_all

/-- A path that leads to a directory leads to an entry that is one. -/
theorem find?_of_locateDir (h : t.locateDir p = .ok location) : t.find? p = some .directory := by
  obtain ⟨found, hfound, h⟩ := Outcome.bind_eq_ok.1 h
  exact find?_eq_some.2 ⟨found, hfound, requireDir_eq_ok.1 (Outcome.check_bind_eq_ok.1 h).1⟩

/-! ## Listing -/

/-- What is listed below a directory is what stands there, by the way to it. -/
theorem below_eq_some {l : Location} {listed : Location × FileEntry} :
    (if location.isPrefixOf l && l != location then some (l.drop location.length, e) else none) =
      some listed ↔ l = location ++ listed.1 ∧ listed.1 ≠ [] ∧ e = listed.2 := by
  rw [Option.ite_none_right_eq_some, Bool.and_eq_true, List.isPrefixOf_iff_prefix, bne_iff_ne,
    Option.some.injEq]
  constructor
  · rintro ⟨⟨⟨names, rfl⟩, hne⟩, rfl⟩
    simpa using hne
  · rintro ⟨rfl, hne, rfl⟩
    simpa using hne

/-- What is listed below a location is an entry, by the way to it from there. -/
theorem exists_of_mem_below {listed : Location × FileEntry} (h : listed ∈ t.below location) :
    listed.1 ≠ [] ∧ t.entry? (location ++ listed.1) = some listed.2 := by
  obtain ⟨⟨l, e⟩, hmem, hlisted⟩ := List.mem_filterMap.1 h
  obtain ⟨rfl, hne, rfl⟩ := below_eq_some.1 hlisted
  refine ⟨hne, ?_⟩
  rw [entry?_of_ne_nil (List.append_ne_nil_of_right_ne_nil _ hne)]
  exact SortedMap.get?_eq_some_iff.2 hmem

/-- Nothing is listed twice. -/
theorem pairwise_below (t : FileTree) (location : Location) :
    (t.below location).Pairwise fun a b => a.1 ≠ b.1 := by
  refine List.Pairwise.filterMap _ (fun a b hlt listed ha listed' hb heq => ?_) t.entries.sorted
  have hkeys : a.1 = b.1 := by
    rw [(below_eq_some.1 ha).1, (below_eq_some.1 hb).1, heq]
  rw [hkeys, Std.ReflOrd.compare_self] at hlt
  cases hlt

/-- What is listed of a file. -/
def file? : Location × FileEntry → Option Location
  | (l, e) =>
    match e with
    | .file _ => some l
    | .directory => none

/-- A file is listed by the way to it, and a directory is not. -/
theorem file?_eq_some {listed : Location × FileEntry} {l : Location} :
    file? listed = some l ↔ listed.1 = l ∧ ∃ content, listed.2 = .file content := by
  rcases listed with ⟨l', content | _⟩ <;> simp [file?]

/-- The names that lead to the files below a directory: proper ones, and no file twice. -/
structure Listed (files : List (List String)) : Prop where
  /-- no file is listed twice -/
  nodup : files.Nodup
  /-- the directory itself is none of them -/
  ne_nil : ∀ names ∈ files, names ≠ []
  /-- the names on the way are proper -/
  names : ∀ names ∈ files, ∀ n ∈ names, Path.IsName n

/-- The files below a directory are those that are listed. -/
theorem filesBelow_eq_ok {files : List (List String)} (h : t.filesBelow p = .ok files) :
    ∃ location, t.locateDir p = .ok location ∧ files = (t.below location).filterMap file? := by
  obtain ⟨location, hlocation, hfiles⟩ := Outcome.bind_eq_ok.1 h
  exact ⟨location, hlocation, (Except.ok.inj hfiles).symm⟩

/-- They are listed by proper names, and none of them twice. -/
theorem listed_of_filesBelow (ht : t.Sound) {files : List (List String)}
    (h : t.filesBelow p = .ok files) : Listed files := by
  obtain ⟨location, -, rfl⟩ := filesBelow_eq_ok h
  have hlisted (names : List String) (hmem : names ∈ (t.below location).filterMap file?) :
      names ≠ [] ∧ ∃ e, t.entry? (location ++ names) = some e := by
    obtain ⟨listed, hbelow, hfile⟩ := List.mem_filterMap.1 hmem
    obtain ⟨rfl, -⟩ := file?_eq_some.1 hfile
    exact ⟨(exists_of_mem_below hbelow).1, _, (exists_of_mem_below hbelow).2⟩
  refine ⟨?_, fun names hmem => (hlisted names hmem).1, fun names hmem n hn => ?_⟩
  · refine (pairwise_below t location).filterMap _ fun a b hne names ha names' hb => ?_
    rwa [← (file?_eq_some.1 ha).1, ← (file?_eq_some.1 hb).1]
  · obtain ⟨-, e, he⟩ := hlisted names hmem
    exact ht.names he n (List.mem_append_right location hn)

end FileTree

end Blueprint
