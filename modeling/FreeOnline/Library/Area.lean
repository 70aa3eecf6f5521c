import Mathlib.Order.Lattice
import Mathlib.Data.Int.Order.Basic

/-!
# Areas

Rectangles of points with integer coordinates, and the least area around two of them.
-/

set_option autoImplicit false

namespace FreeOnline.Library

structure Area where
  x : Int
  y : Int
  w : Int
  h : Int
deriving DecidableEq

namespace Area

def right (area : Area) : Int := area.x + area.w

def bottom (area : Area) : Int := area.y + area.h

def Has (area : Area) (px py : Int) : Prop :=
  (area.x ≤ px ∧ px < area.right) ∧ area.y ≤ py ∧ py < area.bottom

/-- No edge of the first area is outside of the second one. -/
def Within (area around : Area) : Prop :=
  (around.x ≤ area.x ∧ area.right ≤ around.right) ∧
    around.y ≤ area.y ∧ area.bottom ≤ around.bottom

instance (area around : Area) : Decidable (Within area around) :=
  inferInstanceAs (Decidable (_ ∧ _))

def join (area other : Area) : Area where
  x := min area.x other.x
  y := min area.y other.y
  w := max area.right other.right - min area.x other.x
  h := max area.bottom other.bottom - min area.y other.y

variable {area other around : Area}

theorem Within.refl (area : Area) : Within area area :=
  ⟨⟨Int.le_refl _, Int.le_refl _⟩, Int.le_refl _, Int.le_refl _⟩

theorem Within.trans (inner : Within area other) (outer : Within other around) :
    Within area around :=
  ⟨⟨Int.le_trans outer.1.1 inner.1.1, Int.le_trans inner.1.2 outer.1.2⟩,
    Int.le_trans outer.2.1 inner.2.1, Int.le_trans inner.2.2 outer.2.2⟩

theorem Has.of_within {px py : Int} (has : area.Has px py) (within : Within area around) :
    around.Has px py :=
  ⟨⟨Int.le_trans within.1.1 has.1.1, Int.lt_of_lt_of_le has.1.2 within.1.2⟩,
    Int.le_trans within.2.1 has.2.1, Int.lt_of_lt_of_le has.2.2 within.2.2⟩

theorem right_join : (join area other).right = max area.right other.right := by
  change min area.x other.x + (max area.right other.right - min area.x other.x) = _
  omega

theorem bottom_join : (join area other).bottom = max area.bottom other.bottom := by
  change min area.y other.y + (max area.bottom other.bottom - min area.y other.y) = _
  omega

theorem within_join_left (area other : Area) : Within area (join area other) := by
  refine ⟨⟨min_le_left _ _, ?_⟩, min_le_left _ _, ?_⟩
  · rw [right_join]
    exact le_max_left _ _
  · rw [bottom_join]
    exact le_max_left _ _

theorem within_join_right (area other : Area) : Within other (join area other) := by
  refine ⟨⟨min_le_right _ _, ?_⟩, min_le_right _ _, ?_⟩
  · rw [right_join]
    exact le_max_right _ _
  · rw [bottom_join]
    exact le_max_right _ _

theorem Within.w_le (within : Within area around) : area.w ≤ around.w := by
  obtain ⟨⟨left, right⟩, -⟩ := within
  unfold Area.right at right
  omega

theorem Within.h_le (within : Within area around) : area.h ≤ around.h := by
  obtain ⟨-, top, bottom⟩ := within
  unfold Area.bottom at bottom
  omega

end Area

end FreeOnline.Library
