import FreeOnline.Browser.CPolyUtil
import FreeOnline.Library.AlternatingTrail

/-!
# Rows and columns of corners

Corners are sorted into rows and into columns and paired there. Corners at one place stand next to
each other in both, and in the same order.
-/

set_option autoImplicit false

namespace FreeOnline.Browser.CPolyUtil

open FreeOnline.Library

/-!
## The comparisons
-/

theorem xThenY_nonpos_iff (ap bp : Point) :
    xThenY ap bp ≤ 0 ↔ ap.x < bp.x ∨ (ap.x = bp.x ∧ ap.y ≤ bp.y) := by
  unfold xThenY
  split
  · next isLess =>
      refine iff_of_true (by decide) ?_
      exact isLess.imp_right fun inColumn => ⟨inColumn.1, inColumn.2.le⟩
  · next notLess =>
      split
      · next same => exact iff_of_true (by decide) (.inr ⟨same.1, same.2.le⟩)
      · next different =>
          refine iff_of_false (by decide) ?_
          rintro (left | ⟨inColumn, below⟩)
          · exact notLess (.inl left)
          · cases lt_or_eq_of_le below with
            | inl isLess => exact notLess (.inr ⟨inColumn, isLess⟩)
            | inr same => exact different ⟨inColumn, same⟩

/-- The point with its coordinates exchanged. -/
def Point.swap (point : Point) : Point := ⟨point.y, point.x⟩

theorem yThenX_eq_swap (ap bp : Point) : yThenX ap bp = xThenY ap.swap bp.swap := by
  unfold yThenX xThenY Point.swap
  simp only [and_comm]

theorem yThenX_nonpos_iff (ap bp : Point) :
    yThenX ap bp ≤ 0 ↔ ap.y < bp.y ∨ (ap.y = bp.y ∧ ap.x ≤ bp.x) := by
  rw [yThenX_eq_swap, xThenY_nonpos_iff]
  rfl

/-- What a sort needs of a comparison, and that only points at one place compare both ways. -/
structure Compares (comparison : Point → Point → Int) : Prop where
  trans : ∀ a b c, comparison a b ≤ 0 → comparison b c ≤ 0 → comparison a c ≤ 0
  total : ∀ a b, comparison a b ≤ 0 ∨ comparison b a ≤ 0
  antisymm : ∀ a b, comparison a b ≤ 0 → comparison b a ≤ 0 → a = b

theorem compares_xThenY : Compares xThenY := by
  constructor
  · intro a b c first second
    rw [xThenY_nonpos_iff] at first second ⊢
    rcases first with left | ⟨inColumn, below⟩
    · cases second with
      | inl further => exact .inl (left.trans further)
      | inr same => exact .inl (same.1 ▸ left)
    · cases second with
      | inl left => exact .inl (inColumn ▸ left)
      | inr further => exact .inr ⟨inColumn.trans further.1, below.trans further.2⟩
  · intro a b
    rw [xThenY_nonpos_iff, xThenY_nonpos_iff]
    rcases lt_trichotomy a.x b.x with left | inColumn | right
    · exact .inl (.inl left)
    · exact (le_total a.y b.y).imp (fun below => .inr ⟨inColumn, below⟩)
        fun above => .inr ⟨inColumn.symm, above⟩
    · exact .inr (.inl right)
  · intro a b first second
    rw [xThenY_nonpos_iff] at first second
    rcases first with left | ⟨inColumn, below⟩
    · cases second with
      | inl right => exact absurd right left.asymm
      | inr same => exact absurd same.1 left.ne'
    · cases second with
      | inl right => exact absurd inColumn right.ne'
      | inr above =>
          exact Point.ext inColumn (below.antisymm above.2)

theorem compares_yThenX : Compares yThenX := by
  constructor
  · intro a b c
    rw [yThenX_eq_swap, yThenX_eq_swap, yThenX_eq_swap]
    exact compares_xThenY.trans a.swap b.swap c.swap
  · intro a b
    rw [yThenX_eq_swap, yThenX_eq_swap]
    exact compares_xThenY.total a.swap b.swap
  · intro a b first second
    rw [yThenX_eq_swap] at first second
    exact congrArg Point.swap (compares_xThenY.antisymm a.swap b.swap first second)

/-!
## Sorted corners
-/

section

variable {heap : Heap} {keys : List Nat} {comparison : Point → Point → Int} {a b c : Nat}

theorem sortBy_perm (heap : Heap) (comparison : Point → Point → Int) (keys : List Nat) :
    (sortBy heap comparison keys).Perm keys :=
  List.mergeSort_perm keys _

theorem mem_sortBy : a ∈ sortBy heap comparison keys ↔ a ∈ keys :=
  (sortBy_perm heap comparison keys).mem_iff

theorem sortBy_sorted (compares : Compares comparison) :
    (sortBy heap comparison keys).Pairwise fun a b =>
      comparison (heap.point a) (heap.point b) ≤ 0 := by
  have sorted : (sortBy heap comparison keys).Pairwise fun a b =>
      decide (comparison (heap.point a) (heap.point b) ≤ 0) = true := by
    refine List.pairwise_mergeSort (fun a b c first second => decide_eq_true ?_) (fun a b => ?_) keys
    · exact compares.trans _ _ _ (of_decide_eq_true first) (of_decide_eq_true second)
    · simpa using compares.total (heap.point a) (heap.point b)
  exact sorted.imp of_decide_eq_true

/-- Corners at one place keep their order. -/
theorem Before.sortBy (compares : Compares comparison) (same : heap.point a = heap.point b)
    (isBefore : Before keys a b) : Before (sortBy heap comparison keys) a b := by
  refine isBefore.mergeSort (fun a b c first second => ?_) (fun a b => ?_) (decide_eq_true ?_)
  · exact decide_eq_true
      (compares.trans _ _ _ (of_decide_eq_true first) (of_decide_eq_true second))
  · simpa using compares.total (heap.point a) (heap.point b)
  · rw [same]
    exact (compares.total (heap.point b) (heap.point b)).elim id id

/-- In the sorted corners, those at one place stand as they did before. -/
theorem before_sortBy_iff (compares : Compares comparison) (distinct : keys.Nodup)
    (inKeys : a ∈ keys) (alsoIn : b ∈ keys) (different : a ≠ b)
    (same : heap.point a = heap.point b) :
    Before (CPolyUtil.sortBy heap comparison keys) a b ↔ Before keys a b := by
  refine ⟨fun isBefore => ?_, Before.sortBy compares same⟩
  cases before_or_before inKeys alsoIn different with
  | inl inOrder => exact inOrder
  | inr reversed =>
      have sortedDistinct := (sortBy_perm heap comparison keys).nodup_iff.mpr distinct
      exact absurd (Before.sortBy compares same.symm reversed) (isBefore.asymm sortedDistinct)

/-- Between two corners at one place, in the order of a sort, there are only corners at that
place. -/
theorem point_between (compares : Compares comparison) (same : heap.point a = heap.point c)
    (first : Before (sortBy heap comparison keys) a b)
    (second : Before (sortBy heap comparison keys) b c) : heap.point b = heap.point a := by
  have sorted := @sortBy_sorted heap keys comparison compares
  have isAbove := second.pairwise sorted
  rw [← same] at isAbove
  exact compares.antisymm _ _ isAbove (first.pairwise sorted)

end

/-!
## Corners that can be paired
-/

/-- Corners of which an even number is in each row and in each column. -/
structure Corners (heap : Heap) (keys : List Nat) : Prop where
  distinct : keys.Nodup
  even : keys.length % 2 = 0
  rows : ∀ level, occurrences (fun object => (heap.point object).y) keys level % 2 = 0
  columns : ∀ level, occurrences (fun object => (heap.point object).x) keys level % 2 = 0

/-- The partners in the rows. -/
def alongRow (heap : Heap) (keys : List Nat) : Nat → Nat := partner (sortBy heap yThenX keys)

/-- The partners in the columns. -/
def alongColumn (heap : Heap) (keys : List Nat) : Nat → Nat := partner (sortBy heap xThenY keys)

section

variable {heap : Heap} {keys : List Nat} (corners : Corners heap keys)

include corners

theorem Corners.nodup_sortBy (comparison : Point → Point → Int) :
    (sortBy heap comparison keys).Nodup :=
  (sortBy_perm heap comparison keys).nodup_iff.mpr corners.distinct

theorem Corners.even_sortBy (comparison : Point → Point → Int) :
    (sortBy heap comparison keys).length % 2 = 0 := by
  rw [(sortBy_perm heap comparison keys).length_eq]
  exact corners.even

theorem Corners.mem_pairs {comparison : Point → Point → Int} {vertex : Nat} (member : vertex ∈ keys) :
    (vertex, partner (sortBy heap comparison keys) vertex) ∈ pairs (sortBy heap comparison keys) :=
  mem_pairs_partner (corners.nodup_sortBy comparison) (corners.even_sortBy comparison)
    (mem_sortBy.mpr member)

theorem Corners.same_row {vertex : Nat} (member : vertex ∈ keys) :
    (heap.point vertex).y = (heap.point (alongRow heap keys vertex)).y := by
  have sorted : (sortBy heap yThenX keys).Pairwise fun a b =>
      (heap.point a).y ≤ (heap.point b).y := by
    refine (sortBy_sorted compares_yThenX).imp fun inOrder => ?_
    rw [yThenX_nonpos_iff] at inOrder
    exact inOrder.elim le_of_lt fun inRow => inRow.1.le
  refine same_of_mem_pairs sorted (fun level => ?_) (corners.mem_pairs member)
  unfold occurrences
  rw [(sortBy_perm heap yThenX keys).countP_eq]
  exact corners.rows level

theorem Corners.same_column {vertex : Nat} (member : vertex ∈ keys) :
    (heap.point vertex).x = (heap.point (alongColumn heap keys vertex)).x := by
  have sorted : (sortBy heap xThenY keys).Pairwise fun a b =>
      (heap.point a).x ≤ (heap.point b).x := by
    refine (sortBy_sorted compares_xThenY).imp fun inOrder => ?_
    rw [xThenY_nonpos_iff] at inOrder
    exact inOrder.elim le_of_lt fun inColumn => inColumn.1.le
  refine same_of_mem_pairs sorted (fun level => ?_) (corners.mem_pairs member)
  unfold occurrences
  rw [(sortBy_perm heap xThenY keys).countP_eq]
  exact corners.columns level

theorem Corners.rowPairs : Pairing keys (alongRow heap keys) :=
  (pairing_partner (corners.nodup_sortBy yThenX) (corners.even_sortBy yThenX)).of_perm
    (sortBy_perm heap yThenX keys)

theorem Corners.columnPairs : Pairing keys (alongColumn heap keys) :=
  (pairing_partner (corners.nodup_sortBy xThenY) (corners.even_sortBy xThenY)).of_perm
    (sortBy_perm heap xThenY keys)

/-- Corners at one place stand in the same order in rows and columns. -/
theorem Corners.before_columns_iff {a b : Nat} (inKeys : a ∈ keys) (alsoIn : b ∈ keys)
    (different : a ≠ b) (same : heap.point a = heap.point b) :
    Before (sortBy heap xThenY keys) a b ↔ Before (sortBy heap yThenX keys) a b := by
  rw [before_sortBy_iff compares_xThenY corners.distinct inKeys alsoIn different same,
    before_sortBy_iff compares_yThenX corners.distinct inKeys alsoIn different same]

end

/-!
## The first corner that is left
-/

/-- Of the corners that are left, with their partners, the first one in the rows. -/
structure FirstLeft (heap : Heap) (keys : List Nat) (left : Nat → Bool) (first : Nat) : Prop where
  corners : Corners heap keys
  inKeys : first ∈ keys
  isLeft : left first = true
  behind : ∀ vertex ∈ keys, left vertex = true → vertex ≠ first →
    Before (sortBy heap yThenX keys) first vertex
  rowLeft : ∀ vertex ∈ keys, left vertex = true → left (alongRow heap keys vertex) = true
  columnLeft : ∀ vertex ∈ keys, left vertex = true → left (alongColumn heap keys vertex) = true

section

variable {heap : Heap} {keys : List Nat} {left : Nat → Bool} {first other : Nat}
  (isFirst : FirstLeft heap keys left first)

include isFirst

theorem FirstLeft.row_behind :
    Before (sortBy heap yThenX keys) first (alongRow heap keys first) :=
  isFirst.behind _ (isFirst.corners.rowPairs.inside first isFirst.inKeys)
    (isFirst.rowLeft first isFirst.inKeys isFirst.isLeft)
    (isFirst.corners.rowPairs.different first isFirst.inKeys)

/-- The partner in the row stands next to the first corner, and so at the place of any other one
there. -/
theorem FirstLeft.row_place (inKeys : other ∈ keys) (isLeft : left other = true)
    (different : other ≠ first) (samePlace : heap.point other = heap.point first) :
    heap.point (alongRow heap keys first) = heap.point first := by
  have corners := isFirst.corners
  by_cases isOther : alongRow heap keys first = other
  · rw [isOther, samePlace]
  · have notBetween := not_between_of_mem_pairs (corners.nodup_sortBy yThenX)
      (corners.mem_pairs isFirst.inKeys) (isFirst.behind other inKeys isLeft different)
    have rowInKeys := corners.rowPairs.inside first isFirst.inKeys
    have inOrder := (before_or_before (mem_sortBy.mpr inKeys) (mem_sortBy.mpr rowInKeys)
      (Ne.symm isOther)).resolve_left notBetween
    exact point_between compares_yThenX samePlace.symm isFirst.row_behind inOrder

/-- The partner in the column is behind the first corner there, because it is in the rows. -/
theorem FirstLeft.column_behind :
    Before (sortBy heap xThenY keys) first (alongColumn heap keys first) := by
  have corners := isFirst.corners
  have inKeys := corners.columnPairs.inside first isFirst.inKeys
  have different := corners.columnPairs.different first isFirst.inKeys
  have inRows := isFirst.behind _ inKeys (isFirst.columnLeft first isFirst.inKeys isFirst.isLeft)
    different
  refine (before_or_before (mem_sortBy.mpr isFirst.inKeys) (mem_sortBy.mpr inKeys)
    different.symm).resolve_right fun reversed => ?_
  have below := (xThenY_nonpos_iff _ _).mp (reversed.pairwise (sortBy_sorted compares_xThenY))
  have above := (yThenX_nonpos_iff _ _).mp (inRows.pairwise (sortBy_sorted compares_yThenX))
  have inColumn := corners.same_column isFirst.inKeys
  have notAbove := (below.resolve_left inColumn.not_gt).2
  have sameRow := (above.resolve_left (not_lt.mpr notAbove)).1
  have place : heap.point (alongColumn heap keys first) = heap.point first :=
    Point.ext inColumn.symm sameRow.symm
  have alsoReversed := (corners.before_columns_iff inKeys isFirst.inKeys different place).mp reversed
  exact inRows.asymm (corners.nodup_sortBy yThenX) alsoReversed

/-- Where the first corner is not alone at its place, its partners are one and the same. -/
theorem FirstLeft.same_partner (inKeys : other ∈ keys) (isLeft : left other = true)
    (different : other ≠ first) (samePlace : heap.point other = heap.point first) :
    alongColumn heap keys first = alongRow heap keys first := by
  have corners := isFirst.corners
  have rowInKeys := corners.rowPairs.inside first isFirst.inKeys
  have rowDifferent := corners.rowPairs.different first isFirst.inKeys
  have columnInKeys := corners.columnPairs.inside first isFirst.inKeys
  have columnDifferent := corners.columnPairs.different first isFirst.inKeys
  have rowPlace := isFirst.row_place inKeys isLeft different samePlace
  by_contra apart
  -- the partner in the column would stand before the partner in the row, and so between the two
  have rowBehind := (corners.before_columns_iff isFirst.inKeys rowInKeys rowDifferent.symm
    rowPlace.symm).mpr isFirst.row_behind
  have notBetween := not_between_of_mem_pairs (corners.nodup_sortBy xThenY)
    (corners.mem_pairs isFirst.inKeys) rowBehind
  have inOrder := (before_or_before (mem_sortBy.mpr columnInKeys) (mem_sortBy.mpr rowInKeys)
    apart).resolve_right notBetween
  have place := point_between compares_xThenY rowPlace.symm isFirst.column_behind inOrder
  have inRows := (corners.before_columns_iff columnInKeys rowInKeys apart
    (place.trans rowPlace.symm)).mp inOrder
  have columnBehind := (corners.before_columns_iff isFirst.inKeys columnInKeys
    columnDifferent.symm place.symm).mp isFirst.column_behind
  exact not_between_of_mem_pairs (corners.nodup_sortBy yThenX) (corners.mem_pairs isFirst.inKeys)
    columnBehind inRows

end

end FreeOnline.Browser.CPolyUtil
