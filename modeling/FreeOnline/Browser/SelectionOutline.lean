import Mathlib.Tactic.NormNum
import FreeOnline.Browser.OutlineGlue
import FreeOnline.Browser.OutlineTrace

/-!
# The outline of a selection

What is inside of an odd number of edges is what an odd number of rectangles cover. A vertical edge
is crossed on the left of a point exactly if one of its ends is below and one above the point.
-/

set_option autoImplicit false

namespace FreeOnline.Browser.CPolyUtil

open FreeOnline.Library

/-- From each point to the next, vertical and horizontal in turn. -/
inductive Alternating : List Point → Prop where
  | last (point) : Alternating [point]
  | turn {u v w rest} : u.x = v.x → v.y = w.y → Alternating (w :: rest) →
      Alternating (u :: v :: w :: rest)

/-- How many edges a ray crosses that leads to the left of `(a, b)`. -/
def crossings (a b : ℚ) : List Point → Nat
  | u :: v :: rest =>
      (if u.x ≤ a ∧ decide (u.y ≤ b) ≠ decide (v.y ≤ b) then 1 else 0) + crossings a b (v :: rest)
  | _ => 0

/-- A rectangle has the left one and the lower one of two sides, but not the others. -/
def Covers (heap : Heap) (a b : ℚ) (rect : List Nat) : Prop :=
  ((∃ corner ∈ rect, (heap.point corner).x ≤ a) ∧ ∃ corner ∈ rect, a < (heap.point corner).x) ∧
    (∃ corner ∈ rect, (heap.point corner).y ≤ b) ∧ ∃ corner ∈ rect, b < (heap.point corner).y

instance (heap : Heap) (a b : ℚ) (rect : List Nat) : Decidable (Covers heap a b rect) :=
  inferInstanceAs (Decidable ((_ ∧ _) ∧ _ ∧ _))

/-- Not to the right of a point and not above it. -/
def InQuadrant (a b : ℚ) (point : Point) : Prop := point.x ≤ a ∧ point.y ≤ b

instance (a b : ℚ) (point : Point) : Decidable (InQuadrant a b point) :=
  inferInstanceAs (Decidable (_ ∧ _))

/-!
## One ring
-/

section

variable {heap : Heap} {keys : List Nat}

theorem Alternating.concat {u v w : Point} (inColumn : u.x = v.x) (inRow : v.y = w.y) :
    ∀ {front : List Point}, Alternating (front ++ [u]) → Alternating (front ++ [u, v, w])
  | [], _ => .turn inColumn inRow (.last w)
  | [_], alternating => nomatch alternating
  | [_, _], .turn firstColumn firstRow _ =>
      .turn firstColumn firstRow (.turn inColumn inRow (.last w))
  | _ :: _ :: third :: front, .turn firstColumn firstRow rest =>
      .turn firstColumn firstRow (@Alternating.concat u v w inColumn inRow (third :: front) rest)

/-- Up to the vertex that was reached, or up to the one before it in the same column. -/
def PathAlternates (heap : Heap) (isAlong : Bool) (current : Nat) (before : List Nat) : Prop :=
  if isAlong then
    ∃ previous earlier, before = previous :: earlier ∧
      Alternating ((previous :: earlier).reverse.map heap.point) ∧
      (heap.point previous).x = (heap.point current).x
  else Alternating ((current :: before).reverse.map heap.point)

theorem Alternating.step {previous current next : Nat} {earlier : List Nat}
    (alternating : Alternating ((previous :: earlier).reverse.map heap.point))
    (inColumn : (heap.point previous).x = (heap.point current).x)
    (inRow : (heap.point current).y = (heap.point next).y) :
    Alternating ((next :: current :: previous :: earlier).reverse.map heap.point) := by
  rw [List.reverse_cons, List.map_append] at alternating
  have longer := Alternating.concat inColumn inRow alternating
  simpa using longer

theorem pathAlternates_of_trail (corners : Corners heap keys) {start current : Nat}
    (isStart : start ∈ keys) {isAlong : Bool} {before : List Nat}
    (trail : Trail (alongColumn heap keys) (alongRow heap keys) start isAlong current before) :
    PathAlternates heap isAlong current before := by
  induction trail with
  | start => exact .last _
  | @across current before trail ih =>
      have kept := trail.kept corners.columnPairs corners.rowPairs isStart
      exact ⟨current, before, rfl, ih, corners.same_column (kept.inside current List.mem_cons_self)⟩
  | @along current before trail _ ih =>
      have kept := trail.kept corners.columnPairs corners.rowPairs isStart
      obtain ⟨previous, earlier, rfl, alternating, inColumn⟩ := ih
      exact alternating.step inColumn (corners.same_row (kept.inside current List.mem_cons_self))

/-- A ring has a first vertex, and the polygon comes back to it. -/
theorem IsRing.polygon_eq {ring : List Nat} (isRing : IsRing heap keys ring) :
    ∃ start rest, ring = start :: rest ∧
      polygon heap ring = ring.map heap.point ++ [heap.point start] := by
  obtain ⟨start, last, before, rfl, -, trail, -⟩ := isRing
  obtain ⟨front, isFront⟩ := trail.exists_front
  refine ⟨start, front.reverse, ?_, ?_⟩
  · rw [isFront, List.reverse_append]
    rfl
  · rw [polygon, isFront, List.reverse_append, List.map_append]
    rfl

theorem IsRing.alternating (corners : Corners heap keys) {ring : List Nat}
    (isRing : IsRing heap keys ring) : Alternating (polygon heap ring) := by
  obtain ⟨start, rest, isStart, isPolygon⟩ := isRing.polygon_eq
  obtain ⟨first, last, before, isTrail, isKey, trail, comesBack⟩ := isRing
  have kept := trail.kept corners.columnPairs corners.rowPairs isKey
  obtain ⟨front, isFront⟩ := trail.exists_front
  have same : start = first := by
    have reversed := congrArg List.reverse isFront
    rw [← isTrail, isStart, List.reverse_append] at reversed
    exact (List.cons.inj reversed).1
  obtain ⟨previous, earlier, rfl, alternating, inColumn⟩ :=
    pathAlternates_of_trail corners isKey trail
  have inRow := corners.same_row (kept.inside last List.mem_cons_self)
  rw [comesBack] at inRow
  have closed := alternating.step inColumn inRow
  rw [isPolygon, same, isTrail]
  rw [List.reverse_cons, List.map_append] at closed
  exact closed

end

/-!
## Parity
-/

section

variable {a b : ℚ}

theorem decide_inQuadrant (point : Point) :
    decide (InQuadrant a b point) = (decide (point.x ≤ a) && decide (point.y ≤ b)) :=
  Bool.decide_and _ _

/-- A vertical edge is crossed if one of its ends is in the quadrant and the other one is not. -/
theorem crossed_parity {u v : Point} (inColumn : u.x = v.x) :
    (if u.x ≤ a ∧ decide (u.y ≤ b) ≠ decide (v.y ≤ b) then 1 else 0) % 2 =
      ((if InQuadrant a b v then 1 else 0) + (if InQuadrant a b u then 1 else 0)) % 2 := by
  unfold InQuadrant
  by_cases isLeft : u.x ≤ a
  · have alsoLeft : v.x ≤ a := inColumn ▸ isLeft
    by_cases uBelow : u.y ≤ b
    · by_cases vBelow : v.y ≤ b
      · simp [isLeft, alsoLeft, uBelow, vBelow]
      · simp [isLeft, uBelow, vBelow]
    · by_cases vBelow : v.y ≤ b
      · simp [isLeft, alsoLeft, uBelow, vBelow]
      · simp [uBelow, vBelow]
  · have notLeft : ¬v.x ≤ a := inColumn ▸ isLeft
    simp [isLeft, notLeft]

/-- The edges that are crossed are as many as the vertices in the quadrant, up to an even number. -/
theorem crossings_alternating {points : List Point} (alternating : Alternating points) :
    crossings a b points % 2 = (points.dropLast.countP fun point => InQuadrant a b point) % 2 := by
  induction alternating with
  | last point => rfl
  | @turn u v w rest inColumn inRow _ ih =>
      have notCrossed : ¬(v.x ≤ a ∧ decide (v.y ≤ b) ≠ decide (w.y ≤ b)) := by
        rw [inRow]
        exact fun crossed => crossed.2 rfl
      have isPair := @crossed_parity a b u v inColumn
      rw [crossings, crossings, if_neg notCrossed, List.dropLast_cons_cons,
        List.dropLast_cons_cons, List.countP_cons, List.countP_cons]
      simp only [decide_eq_true_eq]
      rw [Nat.zero_add, Nat.add_assoc, Nat.add_mod, isPair, ih, ← Nat.add_mod, Nat.add_comm]

/-- Of the four corners, an odd number is in the quadrant if each coordinate is between two sides. -/
theorem quadrant_parity (p p' q q' : Bool) :
    ([(p, q), (p', q), (p', q'), (p, q')].countP fun side => side.1 && side.2) % 2 =
      if p ≠ p' ∧ q ≠ q' then 1 else 0 := by
  revert p p' q q'
  decide

/-- Of a rectangle's corners, an odd number is in the quadrant of what it covers. -/
theorem corners_inQuadrant {heap : Heap} {rect : List Nat} (isRectangle : IsRectangle heap rect) :
    (rect.countP fun corner => InQuadrant a b (heap.point corner)) % 2 =
      if Covers heap a b rect then 1 else 0 := by
  obtain ⟨x, x', y, y', corners⟩ := isRectangle
  have someCorner (test : Point → Prop) : (∃ corner ∈ rect, test (heap.point corner)) ↔
      test ⟨x, y⟩ ∨ test ⟨x', y⟩ ∨ test ⟨x', y'⟩ ∨ test ⟨x, y'⟩ := by
    have onPoints : (∃ corner ∈ rect, test (heap.point corner)) ↔
        ∃ point ∈ rect.map heap.point, test point := by
      constructor
      · rintro ⟨corner, isCorner, holds⟩
        exact ⟨_, List.mem_map_of_mem isCorner, holds⟩
      · rintro ⟨point, isPoint, holds⟩
        obtain ⟨corner, isCorner, rfl⟩ := List.mem_map.mp isPoint
        exact ⟨corner, isCorner, holds⟩
    rw [onPoints]
    simp only [corners.mem_iff, List.exists_mem_cons_iff, List.not_mem_nil, false_and,
      exists_false, or_false]
  have isCovered : Covers heap a b rect ↔
      decide (x ≤ a) ≠ decide (x' ≤ a) ∧ decide (y ≤ b) ≠ decide (y' ≤ b) := by
    unfold Covers
    rw [someCorner (·.x ≤ a), someCorner (a < ·.x), someCorner (·.y ≤ b), someCorner (b < ·.y)]
    simp only [← not_le, ne_eq, decide_eq_decide]
    grind
  have counted : (rect.countP fun corner => InQuadrant a b (heap.point corner)) =
      [(decide (x ≤ a), decide (y ≤ b)), (decide (x' ≤ a), decide (y ≤ b)),
        (decide (x' ≤ a), decide (y' ≤ b)), (decide (x ≤ a), decide (y' ≤ b))].countP
          fun side => side.1 && side.2 := by
    have onPoints := corners.countP_eq fun point => decide (point.x ≤ a) && decide (point.y ≤ b)
    rw [List.countP_map] at onPoints
    simp only [decide_inQuadrant]
    exact onPoints
  rw [counted, quadrant_parity]
  simp only [isCovered]

/-!
## All rings and all rectangles
-/

variable {heap : Heap} {keys : List Nat} {rectangles : List (List Nat)}

theorem crossings_rings (corners : Corners heap keys) {rings : List (List Nat)}
    (areRings : ∀ ring ∈ rings, IsRing heap keys ring) :
    (rings.map fun ring => crossings a b (polygon heap ring)).sum % 2 =
      (rings.flatten.countP fun vertex => InQuadrant a b (heap.point vertex)) % 2 := by
  induction rings with
  | nil => rfl
  | cons ring rings ih =>
      have isRing := areRings ring List.mem_cons_self
      have others := ih fun other isOther => areRings other (List.mem_cons_of_mem _ isOther)
      have crossed := @crossings_alternating a b _ (isRing.alternating corners)
      obtain ⟨start, rest, -, isPolygon⟩ := isRing.polygon_eq
      rw [isPolygon, List.dropLast_concat, ← isPolygon, List.countP_map] at crossed
      rw [List.map_cons, List.sum_cons, List.flatten_cons, List.countP_append, Nat.add_mod, crossed,
        others, ← Nat.add_mod]
      rfl

theorem rectangles_inQuadrant (areRectangles : ∀ rect ∈ rectangles, IsRectangle heap rect) :
    (rectangles.flatten.countP fun corner => InQuadrant a b (heap.point corner)) % 2 =
      (rectangles.countP fun rect => Covers heap a b rect) % 2 := by
  induction rectangles with
  | nil => rfl
  | cons rect rectangles ih =>
      have inQuadrant := @corners_inQuadrant a b heap rect (areRectangles rect List.mem_cons_self)
      have others := ih fun other isOther => areRectangles other (List.mem_cons_of_mem _ isOther)
      rw [List.flatten_cons, List.countP_append, List.countP_cons, Nat.add_mod, inQuadrant, others,
        Nat.add_comm, Nat.mod_add_mod]
      simp only [decide_eq_true_eq]

end

/-!
## Whole coordinates
-/

/-- All coordinates are integers. -/
def Whole (heap : Heap) : Prop := ∀ object, ∃ x y : ℤ, heap.point object = ⟨x, y⟩

section

variable {heap : Heap}

theorem pull_whole (target value : ℤ) : ∃ moved : ℤ, pull target value = moved := by
  unfold pull
  split
  · exact ⟨target, rfl⟩
  · exact ⟨value, rfl⟩

theorem Whole.gluePoint (whole : Whole heap) (k l : Nat) : Whole (gluePoint heap k l) := by
  intro object
  rw [point_gluePoint]
  split
  · obtain ⟨x, y, isTarget⟩ := whole k
    obtain ⟨x', y', isMoved⟩ := whole l
    rw [isTarget, isMoved]
    obtain ⟨movedX, isX⟩ := pull_whole x x'
    obtain ⟨movedY, isY⟩ := pull_whole y y'
    exact ⟨movedX, movedY, Point.ext isX isY⟩
  · exact whole object

theorem Whole.glueRectangles (whole : Whole heap) (rect other : List Nat) :
    Whole (glueRectangles rect other heap) :=
  List.foldlRecOn rect _ whole fun _ whole k _ =>
    List.foldlRecOn other _ whole fun _ whole l _ => whole.gluePoint k l

theorem Whole.glue {rectangles : List (List Nat)} (whole : Whole heap) :
    Whole (glue rectangles heap) := by
  induction rectangles generalizing heap with
  | nil => exact whole
  | cons rect later ih =>
      exact ih (List.foldlRecOn later _ whole fun _ whole other _ => whole.glueRectangles rect other)

theorem eq_of_near {m n : ℤ} (near : |minus m n| < epsilon) : m = n := by
  by_contra different
  have apart : (1 : ℚ) ≤ |(m : ℚ) - n| := by
    exact_mod_cast Int.one_le_abs (sub_ne_zero.mpr different)
  have rounded : 1 ≤ |minus (m : ℚ) n| := one_le_abs_roundDigits apart
  have small : epsilon < 1 := by
    unfold epsilon
    norm_num
  exact absurd near (small.trans_le rounded).not_gt

/-- Where all coordinates are whole, corners that are equal are at one place. -/
theorem Whole.distinguished (whole : Whole heap) (keys : List Nat) : Distinguished heap keys := by
  intro first _ second _ equal
  obtain ⟨x, y, isFirst⟩ := whole first
  obtain ⟨x', y', isSecond⟩ := whole second
  rw [isFirst, isSecond] at equal ⊢
  unfold Point.equals at equal
  rw [Bool.and_eq_true, decide_eq_true_iff, decide_eq_true_iff] at equal
  rw [eq_of_near equal.1, eq_of_near equal.2]

end

/-- Corners on a grid. -/
def gridHeap (size : ℚ) (corners : List (ℤ × ℤ)) : Heap where
  point object := ⟨(corners.getD object (0, 0)).1 * size, (corners.getD object (0, 0)).2 * size⟩

theorem whole_gridHeap (corners : List (ℤ × ℤ)) : Whole (gridHeap 1 corners) := fun _ =>
  ⟨_, _, Point.ext (mul_one _) (mul_one _)⟩

/-!
## The outline
-/

section

variable {heap : Heap} {rectangles : List (List Nat)}

theorem IsRectangle.length_eq {rect : List Nat} (isRectangle : IsRectangle heap rect) :
    rect.length = 4 := by
  obtain ⟨x, x', y, y', corners⟩ := isRectangle
  have length := corners.length_eq
  rwa [List.length_map] at length

/-- The corners of rectangles can be paired. -/
theorem corners_rectangles (separate : rectangles.flatten.Nodup)
    (areRectangles : ∀ rect ∈ rectangles, IsRectangle heap rect) :
    Corners heap rectangles.flatten where
  distinct := separate
  even := by
    have lengths : rectangles.map List.length = rectangles.map fun _ => 4 :=
      List.map_congr_left fun rect isRect => (areRectangles rect isRect).length_eq
    rw [List.length_flatten, lengths, List.map_const', List.sum_replicate_nat]
    exact Nat.mod_eq_zero_of_dvd (Dvd.dvd.mul_left (by decide) _)
  rows := rows_even areRectangles
  columns := columns_even areRectangles

theorem outlineRings_eq (separate : rectangles.flatten.Nodup)
    (areRectangles : ∀ rect ∈ rectangles, IsRectangle heap rect)
    (distinguished : Distinguished heap rectangles.flatten) :
    ∃ rings, outlineRings rectangles heap = some rings ∧
      (∀ ring ∈ rings, IsRing heap rectangles.flatten ring) ∧
      rings.flatten.Perm rectangles.flatten := by
  have corners := corners_rectangles separate areRectangles
  have areEdges (comparison : Point → Point → Int) :
      pairEdges (sortBy heap comparison rectangles.flatten) [] =
        some (pairs (sortBy heap comparison rectangles.flatten)) :=
    @pairEdges_eq _ [] (corners.nodup_sortBy comparison) (corners.even_sortBy comparison)
  have nothingGone : leftInRows heap rectangles.flatten [] =
      sortBy heap yThenX rectangles.flatten := by
    unfold leftInRows
    simp
  have enough : (leftInRows heap rectangles.flatten []).length <
      (pairs (sortBy heap yThenX rectangles.flatten)).length + 1 := by
    have length := congrArg List.length (keys_pairs (corners.even_sortBy yThenX))
    rw [OrderedMap.keys, List.length_map] at length
    rw [nothingGone, length]
    exact Nat.lt_succ_self _
  obtain ⟨rings, isRings, areRings, allMet⟩ :=
    traceRings_eq corners distinguished (fun _ _ _ => ⟨List.not_mem_nil, List.not_mem_nil⟩)
      enough
  rw [OrderedMap.without_nil, OrderedMap.without_nil] at isRings
  refine ⟨rings, ?_, areRings, ?_⟩
  · unfold outlineRings
    rw [pointKeys_eq separate]
    dsimp only
    rw [areEdges, areEdges]
    exact isRings
  · rw [nothingGone] at allMet
    exact allMet.trans (sortBy_perm heap yThenX rectangles.flatten)

/-- The rings take every corner of the glued rectangles once. From vertex to vertex they go along
columns and rows in turn, and they close. What is inside of an odd number of rings is what an odd
number of the glued rectangles cover. -/
theorem rectanglesToPointSet_outlines {Pixel : Type} (unitConverter : Point → Pixel)
    (separate : rectangles.flatten.Nodup)
    (areRectangles : ∀ rect ∈ rectangles, IsRectangle heap rect)
    (distinguished : Distinguished (glue rectangles heap) rectangles.flatten) :
    ∃ rings : List (List Nat), rectanglesToPointSet rectangles unitConverter heap =
        some (rings.map fun ring => (polygon (glue rectangles heap) ring).map unitConverter) ∧
      (∀ ring ∈ rings, Alternating (polygon (glue rectangles heap) ring) ∧
        (polygon (glue rectangles heap) ring).head? =
          (polygon (glue rectangles heap) ring).getLast?) ∧
      rings.flatten.Perm rectangles.flatten ∧
      ∀ a b, (rings.map fun ring => crossings a b (polygon (glue rectangles heap) ring)).sum % 2 =
        (rectangles.countP fun rect => Covers (glue rectangles heap) a b rect) % 2 := by
  have stillRectangles := isRectangle_glue separate areRectangles
  have corners := corners_rectangles separate stillRectangles
  obtain ⟨rings, isRings, areRings, allMet⟩ := outlineRings_eq separate stillRectangles distinguished
  refine ⟨rings, ?_, fun ring isRing => ⟨?_, ?_⟩, allMet, fun a b => ?_⟩
  · unfold rectanglesToPointSet
    dsimp only
    rw [isRings, Option.map_some]
  · exact (areRings ring isRing).alternating corners
  · obtain ⟨start, rest, isStart, isPolygon⟩ := (areRings ring isRing).polygon_eq
    rw [isPolygon, isStart, List.getLast?_concat]
    rfl
  · rw [crossings_rings corners areRings, allMet.countP_eq]
    exact rectangles_inQuadrant stillRectangles

end

/-- Two rectangles that overlap, and one that is glued to the first. -/
theorem rectanglesToPointSet_whole_rectangles :
    let rectangles := [[0, 1, 2, 3], [4, 5, 6, 7], [8, 9, 10, 11]]
    let heap := gridHeap 1 [(0, 0), (100, 0), (100, 100), (0, 100), (50, 50), (150, 50), (150, 150),
      (50, 150), (110, 0), (200, 0), (200, 40), (110, 40)]
    ∃ rings : List (List Nat), rectanglesToPointSet rectangles id heap =
        some (rings.map fun ring => (polygon (glue rectangles heap) ring).map id) ∧
      (∀ ring ∈ rings, Alternating (polygon (glue rectangles heap) ring) ∧
        (polygon (glue rectangles heap) ring).head? =
          (polygon (glue rectangles heap) ring).getLast?) ∧
      rings.flatten.Perm rectangles.flatten ∧
      ∀ a b, (rings.map fun ring => crossings a b (polygon (glue rectangles heap) ring)).sum % 2 =
        (rectangles.countP fun rect => Covers (glue rectangles heap) a b rect) % 2 := by
  refine rectanglesToPointSet_outlines id (by decide) ?_ ((whole_gridHeap _).glue.distinguished _)
  intro rect isRect
  simp only [List.mem_cons, List.not_mem_nil, or_false] at isRect
  rcases isRect with rfl | rfl | rfl
  · exact ⟨_, _, _, _, List.Perm.refl _⟩
  · exact ⟨_, _, _, _, List.Perm.refl _⟩
  · exact ⟨_, _, _, _, List.Perm.refl _⟩

/-!
## Corners that the test does not tell apart
-/

theorem minus_near {m n : ℤ} (near : |m - n| ≤ 1) :
    |minus (m * (1 / 2 ^ 60)) (n * (1 / 2 ^ 60))| < epsilon := by
  have positive : (0 : ℚ) < 2 ^ (-60 : ℤ) := zpow_pos (by norm_num) _
  have isDifference : (m * (1 / 2 ^ 60) - n * (1 / 2 ^ 60) : ℚ) = (m - n : ℤ) * 2 ^ (-60 : ℤ) := by
    push_cast
    rw [zpow_neg]
    norm_num
    ring
  have small : |((m - n : ℤ) : ℚ) * 2 ^ (-60 : ℤ)| ≤ 2 ^ (-60 : ℤ) := by
    rw [abs_mul, abs_of_pos positive]
    exact mul_le_of_le_one_left positive.le (by exact_mod_cast near)
  have inside : (2 : ℚ) ^ (-60 : ℤ) < 2 ^ 1024 :=
    lt_of_lt_of_le (by norm_num) (one_le_pow₀ (by norm_num))
  have isDouble : IsDouble ((m - n : ℤ) * 2 ^ (-60 : ℤ)) :=
    ⟨m - n, -60, near.trans_lt (by norm_num), by norm_num, rfl, small.trans_lt inside⟩
  unfold minus
  rw [isDifference, roundDigits_of_isDouble isDouble]
  refine small.trans_lt ?_
  unfold epsilon
  norm_num

/-- Corners on the finest grid are equal to their neighbours. -/
theorem equals_near {corners : List (ℤ × ℤ)} {a b : Nat}
    (nearX : |(corners.getD b (0, 0)).1 - (corners.getD a (0, 0)).1| ≤ 1)
    (nearY : |(corners.getD b (0, 0)).2 - (corners.getD a (0, 0)).2| ≤ 1) :
    ((gridHeap (1 / 2 ^ 60) corners).point a).equals ((gridHeap (1 / 2 ^ 60) corners).point b) =
      true := by
  unfold Point.equals
  rw [Bool.and_eq_true, decide_eq_true_iff, decide_eq_true_iff]
  exact ⟨minus_near nearX, minus_near nearY⟩

theorem traceRings_near {heap : Heap} (first : (heap.point 2).equals (heap.point 0) = true)
    (second : (heap.point 3).equals (heap.point 1) = true) :
    traceRings heap 5 [(0, 1), (1, 0), (3, 2), (2, 3)] [(0, 3), (3, 0), (1, 2), (2, 1)] =
      some [[0, 3], [1, 2]] := by
  simp [traceRings, trace, OrderedMap.keys, OrderedMap.get, OrderedMap.delete,
    OrderedMap.deleteAll, first, second]

/-- A rectangle with sides of length 2⁻⁶⁰. Each ring ends at the second of its edges, because the
next corner is equal to the first one, and closes in a column. -/
theorem rectanglesToPointSet_smallest_rectangle :
    let heap := gridHeap (1 / 2 ^ 60) [(0, 0), (1, 0), (1, 1), (0, 1)]
    [[0, 1, 2, 3]].flatten.Nodup ∧ IsRectangle heap [0, 1, 2, 3] ∧
      ∃ polygons, rectanglesToPointSet [[0, 1, 2, 3]] id heap = some polygons ∧
        ∃ points ∈ polygons, ¬Alternating points := by
  intro heap
  have inRows : sortBy heap yThenX [0, 1, 2, 3] = [0, 1, 3, 2] := by
    simp [heap, sortBy, List.mergeSort, List.MergeSort.Internal.splitInTwo, yThenX, gridHeap]
  have inColumns : sortBy heap xThenY [0, 1, 2, 3] = [0, 3, 1, 2] := by
    simp [heap, sortBy, List.mergeSort, List.MergeSort.Internal.splitInTwo, xThenY, gridHeap]
  have isTraced : traceRings heap 5 [(0, 1), (1, 0), (3, 2), (2, 3)]
      [(0, 3), (3, 0), (1, 2), (2, 1)] = some [[0, 3], [1, 2]] :=
    traceRings_near (equals_near (by decide) (by decide)) (equals_near (by decide) (by decide))
  have isOutline : outlineRings [[0, 1, 2, 3]] heap = some [[0, 3], [1, 2]] := by
    have isKeys : pointKeys [[0, 1, 2, 3]] = [0, 1, 2, 3] := by decide
    unfold outlineRings
    rw [isKeys]
    dsimp only
    rw [inRows, inColumns]
    exact isTraced
  refine ⟨by decide, ⟨_, _, _, _, List.Perm.refl _⟩, [polygon heap [0, 3], polygon heap [1, 2]],
    ?_, polygon heap [0, 3], List.mem_cons_self, ?_⟩
  · have isGlued : glue [[0, 1, 2, 3]] heap = heap := rfl
    unfold rectanglesToPointSet
    rw [isGlued]
    dsimp only
    rw [isOutline]
    simp
  · intro alternating
    cases alternating with
    | turn _ inRow _ =>
        have sameHeight : (1 : ℚ) * (1 / 2 ^ 60) = 0 * (1 / 2 ^ 60) := inRow
        norm_num at sameHeight

end FreeOnline.Browser.CPolyUtil
