import Blueprint.Batch.Job
import Blueprint.Proofs.Path
import Blueprint.Proofs.Text.Lines

/-!
# Paths without line breaks

To take a path apart drops characters from it, and to put paths together adds separators and points
only. So no path has a line break that is made from paths and names without one, and the output of a
variant has none if neither the directory for the structures nor the path of its plan has one
(`Batch.oneLine_outputPath`).
-/

namespace Blueprint

open Text

namespace Path

variable {p q : Path}

/-! ## Taking paths apart -/

/-- What is left without the idle end is at the end of the characters from behind. -/
theorem dropIdle_suffix (cs : List Char) : dropIdle cs <:+ cs := by
  fun_induction dropIdle cs with
  | case1 rest ih => exact ih.trans (List.suffix_cons _ _)
  | case2 rest ih => exact ih.trans (List.suffix_cons _ _)
  | case3 rest => exact List.suffix_refl rest

/-- There is no line break in what is left. -/
theorem not_mem_body (h : OneLine p.text) : '\n' ∉ p.body := fun hmem =>
  h (List.mem_reverse.1 ((dropIdle_suffix _).subset hmem))

/-- Nor is there one in front of the last piece. -/
theorem not_mem_beforeLast (h : OneLine p.text) : '\n' ∉ p.beforeLast := fun hmem =>
  not_mem_body h ((List.dropWhile_suffix _).subset hmem)

/-- Nor in the last piece. -/
theorem oneLine_lastPiece (h : OneLine p.text) : OneLine p.lastPiece := by
  rw [lastPiece, oneLine_ofList, List.mem_reverse]
  exact fun hmem => not_mem_body h ((List.takeWhile_prefix _).subset hmem)

/-- Nor in the name of the file. -/
theorem oneLine_of_fileName {name : String} (h : OneLine p.text) (hname : p.fileName? = some name) :
    OneLine name := by
  unfold fileName? at hname
  split at hname
  next => cases hname
  next => exact Option.some.inj hname ▸ oneLine_lastPiece h

/-- Nor in the stem of a name. -/
theorem oneLine_splitName {name : String} (h : OneLine name) : OneLine (splitName name).1 :=
  fun hmem => h ((prefix_of_splitName name).subset hmem)

/-- Nor in the stem of a path. -/
theorem oneLine_stem (h : OneLine p.text) : OneLine (p.stem?.getD "") := by
  unfold stem?
  cases hname : p.fileName? with
  | none => exact List.not_mem_nil
  | some name => exact oneLine_splitName (oneLine_of_fileName h hname)

/-- Nor in the path of the directory. -/
theorem oneLine_of_parent {parent : Path} (h : OneLine p.text) (hparent : p.parent? = some parent) :
    OneLine parent.text := by
  unfold parent? at hparent
  split at hparent
  next => cases hparent
  next =>
    split at hparent
    next =>
      obtain rfl := Option.some.inj hparent
      decide
    next rest _ =>
      obtain rfl := Option.some.inj hparent
      rw [oneLine_ofList, List.mem_reverse]
      exact fun hmem => not_mem_beforeLast h ((dropIdle_suffix _).subset hmem)

/-! ## Putting paths together -/

/-- Paths without line breaks are joined to one without any. -/
theorem oneLine_join (hp : OneLine p.text) (hq : OneLine q.text) : OneLine (p.join q).text := by
  have hslash : OneLine "/" := by decide
  unfold join
  split
  · exact hq
  · split
    · exact oneLine_append.2 ⟨hp, hq⟩
    · simp [hp, hq, hslash]

/-- So is a path with the name of an entry. -/
theorem oneLine_entry {name : String} (hp : OneLine p.text) (hname : OneLine name) :
    OneLine (p.entry name).text := oneLine_join hp hname

/-- So are names. -/
theorem oneLine_ofNames {names : List String} (h : AllOneLine names) :
    OneLine (ofNames names).text := by
  have hslash : breaks "/" = 0 := by decide
  rw [← breaks_eq_zero_iff, ofNames, breaks_intercalate hslash]
  exact sum_breaks_eq_zero_iff.2 h

/-- Another extension brings no line break in if it has none. -/
theorem oneLine_withExtension {extension : String} (h : OneLine p.text)
    (hextension : OneLine extension) : OneLine (p.withExtension extension).text := by
  have hpoint : OneLine "." := by decide
  have hup : OneLine ".." := by decide
  have hfront : OneLine (String.ofList p.beforeLast.reverse) := by
    rw [oneLine_ofList, List.mem_reverse]
    exact not_mem_beforeLast h
  unfold withExtension
  split
  next => exact h
  next name hname =>
    have hstem := oneLine_splitName (oneLine_of_fileName h hname)
    dsimp only
    split
    · exact oneLine_append.2 ⟨hfront, hup⟩
    · simp [hfront, hstem, hpoint, hextension]

/-- Nor does another name. -/
theorem oneLine_withFileName {name : String} (h : OneLine p.text) (hname : OneLine name) :
    OneLine (p.withFileName name).text := by
  unfold withFileName
  split
  next parent _ hparent => exact oneLine_entry (oneLine_of_parent h hparent) hname
  next => exact oneLine_entry h hname

end Path

/-- The output of a variant has no line break, if there is none in what its path is made of. -/
theorem Batch.oneLine_outputPath {out relative : Path} {biome : Option String}
    (hout : OneLine out.text) (hrelative : OneLine relative.text)
    (hbiome : ∀ b ∈ biome, OneLine b) : OneLine (outputPath out relative biome).text := by
  have htarget := Path.oneLine_join hout hrelative
  have hextension : OneLine outputExtension := by decide
  unfold outputPath
  cases biome with
  | none => exact Path.oneLine_withExtension htarget hextension
  | some b =>
    have hstem := Path.oneLine_stem htarget
    have hline : OneLine "_" := by decide
    have hpoint : OneLine "." := by decide
    apply Path.oneLine_withFileName htarget
    simp [hstem, hbiome b rfl, hextension, hline, hpoint]

end Blueprint
