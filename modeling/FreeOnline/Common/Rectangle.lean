import Mathlib.Data.Int.Order.Basic
import Mathlib.Order.MinMax
import FreeOnline.Common.StringVector

/-!
# Rectangles

Rectangles that are kept as their edges. The edges belong to them, so two rectangles that touch
intersect. The coordinates are those of a document, whose sums are ints.
-/

set_option autoImplicit false

namespace FreeOnline.Common

structure Rectangle where
  x1 : Int
  y1 : Int
  x2 : Int
  y2 : Int
deriving DecidableEq

namespace Rectangle

/-- The default, which holds no point and adds nothing to what it extends. -/
def empty : Rectangle where
  x1 := intMax
  y1 := intMax
  x2 := -intMax - 1
  y2 := -intMax - 1

def ofSize (x y width height : Int) : Rectangle where
  x1 := x
  y1 := y
  x2 := x + width
  y2 := y + height

def extend (area rectangle : Rectangle) : Rectangle where
  x1 := if rectangle.x1 < area.x1 then rectangle.x1 else area.x1
  y1 := if rectangle.y1 < area.y1 then rectangle.y1 else area.y1
  x2 := if rectangle.x2 > area.x2 then rectangle.x2 else area.x2
  y2 := if rectangle.y2 > area.y2 then rectangle.y2 else area.y2

def getWidth (area : Rectangle) : Int := area.x2 - area.x1

def getHeight (area : Rectangle) : Int := area.y2 - area.y1

def isValid (area : Rectangle) : Bool := area.x1 ≤ area.x2 && area.y1 ≤ area.y2

def hasSurface (area : Rectangle) : Bool := area.x1 < area.x2 && area.y1 < area.y2

def intersection (area other : Rectangle) : Rectangle where
  x1 := max area.x1 other.x1
  y1 := max area.y1 other.y1
  x2 := min area.x2 other.x2
  y2 := min area.y2 other.y2

def intersects (area other : Rectangle) : Bool :=
  (area.intersection other).isValid

def Has (area : Rectangle) (px py : Int) : Prop :=
  (area.x1 ≤ px ∧ px ≤ area.x2) ∧ area.y1 ≤ py ∧ py ≤ area.y2

/-- No edge of the first rectangle is outside of the second one. -/
structure Within (area around : Rectangle) : Prop where
  left : around.x1 ≤ area.x1
  top : around.y1 ≤ area.y1
  right : area.x2 ≤ around.x2
  bottom : area.y2 ≤ around.y2

variable {area other around : Rectangle}

theorem Within.refl (area : Rectangle) : Within area area :=
  ⟨Int.le_refl _, Int.le_refl _, Int.le_refl _, Int.le_refl _⟩

theorem Within.trans (inner : Within area other) (outer : Within other around) :
    Within area around where
  left := Int.le_trans outer.left inner.left
  top := Int.le_trans outer.top inner.top
  right := Int.le_trans inner.right outer.right
  bottom := Int.le_trans inner.bottom outer.bottom

theorem extend_eq (area other : Rectangle) : area.extend other =
    ⟨min other.x1 area.x1, min other.y1 area.y1, max other.x2 area.x2, max other.y2 area.y2⟩ := by
  have least (p q : Int) : (if p < q then p else q) = min p q := by
    rw [min_def]
    split <;> split <;> omega
  have greatest (p q : Int) : (if p > q then p else q) = max p q := by
    rw [max_def]
    split <;> split <;> omega
  simp only [extend, least, greatest]

theorem within_extend_left (area other : Rectangle) : Within area (area.extend other) := by
  rw [extend_eq]
  exact ⟨min_le_right _ _, min_le_right _ _, le_max_right _ _, le_max_right _ _⟩

theorem within_extend_right (area other : Rectangle) : Within other (area.extend other) := by
  rw [extend_eq]
  exact ⟨min_le_left _ _, min_le_left _ _, le_max_left _ _, le_max_left _ _⟩

/-- Every edge of the result is one of the two. -/
theorem extend_edges {vertical horizontal : Int → Prop}
    (edges : (vertical area.x1 ∧ vertical area.x2) ∧ horizontal area.y1 ∧ horizontal area.y2)
    (otherEdges : (vertical other.x1 ∧ vertical other.x2) ∧ horizontal other.y1 ∧
      horizontal other.y2) :
    (vertical (area.extend other).x1 ∧ vertical (area.extend other).x2) ∧
      horizontal (area.extend other).y1 ∧ horizontal (area.extend other).y2 := by
  obtain ⟨⟨left, right⟩, top, bottom⟩ := edges
  obtain ⟨⟨otherLeft, otherRight⟩, otherTop, otherBottom⟩ := otherEdges
  have either {P : Prop} [Decidable P] {kind : Int → Prop} {p q : Int} (isP : kind p) (isQ : kind q) :
      kind (if P then p else q) := by
    split
    · exact isP
    · exact isQ
  exact ⟨⟨either otherLeft left, either otherRight right⟩, either otherTop top,
    either otherBottom bottom⟩

theorem isValid_iff : area.isValid = true ↔ area.x1 ≤ area.x2 ∧ area.y1 ≤ area.y2 := by
  simp only [isValid, Bool.and_eq_true, decide_eq_true_eq]

theorem has_intersection {px py : Int} :
    (area.intersection other).Has px py ↔ area.Has px py ∧ other.Has px py := by
  simp only [Has, intersection, max_le_iff, le_min_iff]
  constructor
  · rintro ⟨⟨⟨left, otherLeft⟩, right, otherRight⟩, ⟨top, otherTop⟩, bottom, otherBottom⟩
    exact ⟨⟨⟨left, right⟩, top, bottom⟩, ⟨otherLeft, otherRight⟩, otherTop, otherBottom⟩
  · rintro ⟨⟨⟨left, right⟩, top, bottom⟩, ⟨otherLeft, otherRight⟩, otherTop, otherBottom⟩
    exact ⟨⟨⟨left, otherLeft⟩, right, otherRight⟩, ⟨top, otherTop⟩, bottom, otherBottom⟩

theorem isValid_iff_has : area.isValid = true ↔ ∃ px py, area.Has px py := by
  rw [isValid_iff]
  constructor
  · rintro ⟨wide, high⟩
    exact ⟨area.x1, area.y1, ⟨Int.le_refl _, wide⟩, Int.le_refl _, high⟩
  · rintro ⟨px, py, ⟨left, right⟩, top, bottom⟩
    exact ⟨Int.le_trans left right, Int.le_trans top bottom⟩

/-- Two rectangles intersect if they have a point in common. -/
theorem intersects_iff :
    area.intersects other = true ↔ ∃ px py, area.Has px py ∧ other.Has px py := by
  rw [intersects, isValid_iff_has]
  simp only [has_intersection]

end Rectangle

end FreeOnline.Common
