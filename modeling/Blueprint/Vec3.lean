import Blueprint.SortedMap

/-!
# Positions and sizes

A structure fills a box of cells. A cell is named by its position `(x, y, z)` with
`y` upwards, and the box by its extent: `w` cells along `x`, `h` along `y`, `l` along
`z`. Both are kept in 32-bit words, as plans and containers write them.

`Vec3` is generic in its coordinates because the symmetries of the box also move points
inside it: block positions are words, entity points are not.
-/

namespace Blueprint

universe u

/-- Three coordinates. -/
structure Vec3 (α : Type u) where
  /-- eastwards -/
  x : α
  /-- upwards -/
  y : α
  /-- southwards -/
  z : α
deriving DecidableEq, Repr, Inhabited

namespace Vec3

/-- Applies `f` to each coordinate. -/
def map {α : Type u} {β : Type v} (f : α → β) (v : Vec3 α) : Vec3 β := ⟨f v.x, f v.y, f v.z⟩

/-- The coordinates in order. -/
def toList {α : Type u} (v : Vec3 α) : List α := [v.x, v.y, v.z]

variable {α : Type u} [Ord α]

/-- Order by `x`, then `y`, then `z`. -/
instance : Ord (Vec3 α) :=
  ⟨compareLex (compareOn x) (compareLex (compareOn y) (compareOn z))⟩

instance [Std.TransOrd α] : Std.TransOrd (Vec3 α) :=
  inferInstanceAs
    (Std.TransCmp (compareLex (compareOn x) (compareLex (compareOn y) (compareOn z))))

instance [Std.LawfulEqOrd α] : Std.LawfulEqOrd (Vec3 α) where
  compare_self {a} := by simp [compare, compareLex, compareOn]
  eq_of_compare {a b} h := by
    obtain ⟨hx, h⟩ := compareLex_eq_eq.1 h
    obtain ⟨hy, hz⟩ := compareLex_eq_eq.1 h
    cases a; cases b
    cases Std.LawfulEqOrd.eq_of_compare hx
    cases Std.LawfulEqOrd.eq_of_compare hy
    cases Std.LawfulEqOrd.eq_of_compare hz
    rfl

end Vec3

/-- The position of a cell. -/
abbrev Pos := Vec3 Int32

/-- The extent of a box of cells. -/
structure Size where
  /-- cells along `x` -/
  w : Int32
  /-- cells along `y` -/
  h : Int32
  /-- cells along `z` -/
  l : Int32
deriving DecidableEq, Repr, Inhabited

/-- The decimal text of a word. -/
def wordText (n : Int32) : String := toString n.toInt

/-- A position as messages show it. -/
def Pos.text (p : Pos) : String :=
  s!"({wordText p.x}, {wordText p.y}, {wordText p.z})"

namespace Size

/-- A size as messages show it. -/
def text (s : Size) : String := s!"[{wordText s.w}, {wordText s.h}, {wordText s.l}]"

/-- Every extent is at least one cell. -/
def Positive (s : Size) : Prop := 0 < s.w ∧ 0 < s.h ∧ 0 < s.l

instance (s : Size) : Decidable s.Positive := inferInstanceAs (Decidable (_ ∧ _))

/-- The cell lies in the box whose corner is the origin. -/
def Contains (s : Size) (p : Pos) : Prop :=
  (0 ≤ p.x ∧ p.x < s.w) ∧ (0 ≤ p.y ∧ p.y < s.h) ∧ (0 ≤ p.z ∧ p.z < s.l)

instance (s : Size) (p : Pos) : Decidable (s.Contains p) := inferInstanceAs (Decidable (_ ∧ _))

end Size

end Blueprint
