import Blueprint.FileTree
import Blueprint.Proofs.Outcome
import Blueprint.Proofs.Plan.Quoted

/-!
# Failures of a file tree

A real system may say in words of its own why an operation fails. A file tree in memory does not: it
tells only the cases apart that have a fixed message.
-/

namespace Blueprint.FileTree

open Outcome

/-- If the operation fails, then with a message that quotes nothing. -/
abbrev FailsPlainly {α : Type} : Except FileError α → Prop := FailsWith fun e => e.quoted = []

variable (t : FileTree)

theorem failsPlainly_requireDir (location : Location) : FailsPlainly (t.requireDir location) := by
  unfold requireDir
  split
  · exact .ok ()
  · exact .error rfl
  · exact .error rfl

theorem failsPlainly_requirePath (p : Path) : FailsPlainly (requirePath p) := by
  unfold requirePath
  split
  · exact .error rfl
  · split
    · exact .error rfl
    · exact .ok ()

theorem failsPlainly_requireName (n : String) : FailsPlainly (requireName n) := by
  unfold requireName
  split
  · exact .error rfl
  · exact .ok ()

/-- To follow the parts of a path fails with fixed words. -/
theorem failsPlainly_follow (location : Location) (parts : List Path.Part) :
    FailsPlainly (t.follow location parts) := by
  induction parts generalizing location with
  | nil => exact .ok location
  | cons part rest ih =>
    unfold follow
    cases part with
    | root => exact ih []
    | here => exact ih location
    | up =>
      refine (t.failsPlainly_requireDir location).bind fun _ _ => ?_
      exact .refuse (fun _ => rfl) (ih location.dropLast)
    | name n =>
      refine (t.failsPlainly_requireDir location).bind fun _ _ => ?_
      exact (failsPlainly_requireName n).bind fun _ _ => ih _

/-- To find what a path leads to fails with fixed words. -/
theorem failsPlainly_locate (p : Path) : FailsPlainly (t.locate p) := by
  refine (failsPlainly_requirePath p).bind fun _ _ => .refuse (fun _ => rfl) ?_
  refine (t.failsPlainly_follow [] p.parts).bind fun location _ => ?_
  split
  · split
    · exact .error rfl
    · exact .ok location
  · exact .ok location

/-- So it does for a file. -/
theorem failsPlainly_locateFile (p : Path) : FailsPlainly (t.locateFile p) :=
  (t.failsPlainly_locate p).bind fun location _ => .refuse (fun _ => rfl) (.ok location)

/-- And for a directory. -/
theorem failsPlainly_locateDir (p : Path) : FailsPlainly (t.locateDir p) :=
  (t.failsPlainly_locate p).bind fun location _ =>
    (t.failsPlainly_requireDir location).bind fun _ _ => .ok location

/-- To read a file fails with fixed words. -/
theorem failsPlainly_readFile (p : Path) : FailsPlainly (t.readFile p) := by
  refine (t.failsPlainly_locate p).bind fun location _ => ?_
  split
  · exact .ok _
  · exact .error rfl
  · exact .error rfl

/-- To make one directory after another fails with fixed words. -/
theorem failsPlainly_makeDirs (location : Location) (parts : List Path.Part) :
    FailsPlainly (t.makeDirs location parts) := by
  induction parts generalizing t location with
  | nil => exact .ok t
  | cons part rest ih =>
    unfold makeDirs
    cases part with
    | root => exact ih t []
    | here => exact ih t location
    | up =>
      dsimp only
      split
      · exact .error rfl
      · exact ih t location.dropLast
    | name n =>
      refine (failsPlainly_requireName n).bind fun _ _ => ?_
      dsimp only
      split
      · exact ih t _
      · refine .error ?_
        split <;> rfl
      · exact ih _ _

/-- So does making all directories of a path. -/
theorem failsPlainly_createDirAll (p : Path) : FailsPlainly (t.createDirAll p) := by
  refine (failsPlainly_requirePath p).bind fun _ _ => ?_
  split
  · exact (t.failsPlainly_makeDirs [] _).bind fun made _ =>
      (made.failsPlainly_locateDir p).bind fun _ _ => .ok made
  · exact t.failsPlainly_makeDirs [] _

/-- To write a file fails with fixed words. -/
theorem failsPlainly_writeFile (p : Path) (content : List UInt8) :
    FailsPlainly (t.writeFile p content) := by
  refine (t.failsPlainly_locateFile p).bind fun location _ => ?_
  split
  · exact .error rfl
  · exact .ok _

/-- To move a file fails with fixed words. -/
theorem failsPlainly_rename (p q : Path) : FailsPlainly (t.rename p q) := by
  refine (t.failsPlainly_locateFile p).bind fun source _ => ?_
  refine (t.failsPlainly_locateFile q).bind fun target _ => ?_
  split
  · exact .error rfl
  · exact .error rfl
  · exact .error rfl
  · exact .ok _

end Blueprint.FileTree
