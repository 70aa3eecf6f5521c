import Mathlib.Data.Int.Range
import Mathlib.Tactic.Ring

/-!
# Rows of cells

A line that is cut into cells of one size. A cell holds its first point, and not the point
behind its last one, so that every point is in one cell.
-/

set_option autoImplicit false

namespace FreeOnline.Library

/-- The cell with this index has the point. -/
def InCell (size index point : Int) : Prop :=
  index * size ≤ point ∧ point < index * size + size

namespace InCell

variable {size index point first last : Int}

theorem iff_ediv (positive : 0 < size) : InCell size index point ↔ point / size = index := by
  have upper : index * size + size = (index + 1) * size := by ring
  rw [InCell, upper, ← Int.le_ediv_iff_mul_le positive, ← Int.ediv_lt_iff_lt_mul positive,
    Int.lt_add_one_iff]
  constructor
  · rintro ⟨lower, upper⟩
    exact Int.le_antisymm upper lower
  · rintro rfl
    exact ⟨Int.le_refl _, Int.le_refl _⟩

theorem unique (positive : 0 < size) {other : Int} (isIn : InCell size index point)
    (isInOther : InCell size other point) : index = other :=
  ((iff_ediv positive).mp isIn).symm.trans ((iff_ediv positive).mp isInOther)

/-- The cells that have a point between the first and the last one. -/
theorem meets_iff (positive : 0 < size) (inOrder : first ≤ last) :
    (∃ point, InCell size index point ∧ first ≤ point ∧ point ≤ last) ↔
      first / size ≤ index ∧ index ≤ last / size := by
  constructor
  · rintro ⟨point, isIn, lower, upper⟩
    obtain rfl := (iff_ediv positive).mp isIn
    exact ⟨Int.ediv_le_ediv positive lower, Int.ediv_le_ediv positive upper⟩
  · rintro ⟨lower, upper⟩
    refine ⟨max first (index * size), ⟨le_max_right _ _, ?_⟩, le_max_left _ _, ?_⟩
    · refine max_lt ?_ (Int.lt_add_of_pos_right _ positive)
      have upper : index * size + size = (index + 1) * size := by ring
      rw [upper, ← Int.ediv_lt_iff_lt_mul positive]
      exact Int.lt_add_one_of_le lower
    · exact max_le inOrder ((Int.le_ediv_iff_mul_le positive).mp upper)

/-- The division of integers rounds towards 0. -/
theorem meets_iff_tdiv (positive : 0 < size) (inOrder : first ≤ last) (nonneg : 0 ≤ last)
    (indexNonneg : 0 ≤ index) :
    (∃ point, InCell size index point ∧ first ≤ point ∧ point ≤ last) ↔
      first.tdiv size ≤ index ∧ index ≤ last.tdiv size := by
  rw [meets_iff positive inOrder, Int.tdiv_eq_ediv_of_nonneg nonneg]
  cases Int.le_total 0 first with
  | inl firstNonneg => rw [Int.tdiv_eq_ediv_of_nonneg firstNonneg]
  | inr firstNonpos =>
      have opposite : 0 ≤ (-first).tdiv size :=
        Int.tdiv_nonneg (Int.neg_nonneg_of_nonpos firstNonpos) (Int.le_of_lt positive)
      rw [Int.neg_tdiv, Int.neg_nonneg] at opposite
      have rounded : first.tdiv size ≤ index := Int.le_trans opposite indexNonneg
      have below : first / size ≤ 0 / size := Int.ediv_le_ediv positive firstNonpos
      rw [Int.zero_ediv] at below
      simp only [rounded, Int.le_trans below indexNonneg]

end InCell

section

variable {size index count first point last : Int}

/-- A cell between the first and the last point of a row of cells. -/
theorem index_bounds (positive : 0 < size) (isIndex : index * size = point - first)
    (isCount : count * size = last - first) (lower : first ≤ point) (upper : point + size ≤ last) :
    0 ≤ index ∧ index + 1 ≤ count := by
  constructor
  · refine Int.nonneg_of_mul_nonneg_left ?_ positive
    rw [isIndex]
    exact Int.sub_nonneg_of_le lower
  · refine Int.le_of_mul_le_mul_right ?_ positive
    have next : (index + 1) * size = point + size - first := by
      rw [Int.add_mul, isIndex]
      ring
    rw [next, isCount]
    exact Int.sub_le_sub_right upper first

/-- The same row in cells of another size. -/
theorem scaled_bounds (nonneg : 0 ≤ size) (bounds : 0 ≤ index ∧ index + 1 ≤ count) :
    0 ≤ index * size ∧ index * size + size ≤ count * size := by
  constructor
  · exact Int.mul_nonneg bounds.1 nonneg
  · have next : index * size + size = (index + 1) * size := by ring
    rw [next]
    exact Int.mul_le_mul_of_nonneg_right bounds.2 nonneg

end

end FreeOnline.Library
