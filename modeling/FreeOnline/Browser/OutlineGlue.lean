import Mathlib.Data.List.Flatten
import Mathlib.Data.List.Pairwise
import FreeOnline.Browser.CPolyUtil
import FreeOnline.Library.Pairing

/-!
# Glued rectangles

Gluing moves all corners of a rectangle that have one coordinate in common to one new coordinate.
Rectangles stay rectangles, and every row and every column has an even number of corners.
-/

set_option autoImplicit false

namespace FreeOnline.Browser.CPolyUtil

open FreeOnline.Library

/-- The four corners, in any order. The sides may have no length. -/
def IsRectangle (heap : Heap) (rect : List Nat) : Prop :=
  ∃ x x' y y' : ℚ, (rect.map heap.point).Perm [⟨x, y⟩, ⟨x', y⟩, ⟨x', y'⟩, ⟨x, y'⟩]

/-!
## One rectangle that is glued to another
-/

/-- Where a coordinate is moved to, by one that is near. -/
def pull (target value : ℚ) : ℚ := if |minus target value| < eps then target else value

/-- The points of these objects are moved, each coordinate by itself. -/
def Moved (heap moved : Heap) (objects : List Nat) (f g : ℚ → ℚ) : Prop :=
  ∀ object, moved.point object =
    if object ∈ objects then ⟨f (heap.point object).x, g (heap.point object).y⟩
    else heap.point object

theorem y_setX (heap : Heap) (l : Nat) (x : ℚ) (object : Nat) :
    ((heap.setX l x).point object).y = (heap.point object).y := by
  unfold Heap.setX
  dsimp only
  split
  · next same => rw [same]
  · rfl

/-- The object is moved to the other one's coordinates, as far as they are near. -/
theorem point_gluePoint (heap : Heap) (k l object : Nat) :
    (gluePoint heap k l).point object =
      if object = l then
        ⟨pull (heap.point k).x (heap.point l).x, pull (heap.point k).y (heap.point l).y⟩
      else heap.point object := by
  unfold gluePoint pull
  by_cases nearX : |minus (heap.point k).x (heap.point l).x| < eps
  · simp only [if_pos nearX, y_setX]
    by_cases nearY : |minus (heap.point k).y (heap.point l).y| < eps
    · simp only [if_pos nearY, Heap.setX, Heap.setY, if_true]
      split
      · rfl
      · rfl
    · simp only [if_neg nearY, Heap.setX]
  · simp only [if_neg nearX]
    by_cases nearY : |minus (heap.point k).y (heap.point l).y| < eps
    · simp only [if_pos nearY, Heap.setY]
    · simp only [if_neg nearY]
      split
      · next same => rw [same]
      · rfl

section

variable {heap moved : Heap} {rect other objects : List Nat} {rectangles later : List (List Nat)}

theorem Moved.refl (heap : Heap) (objects : List Nat) : Moved heap heap objects id id := by
  intro object
  split
  · rfl
  · rfl

theorem Moved.trans {next : Heap} {f g f' g' : ℚ → ℚ} (first : Moved heap moved objects f g)
    (second : Moved moved next objects f' g') : Moved heap next objects (f' ∘ f) (g' ∘ g) := by
  intro object
  rw [second object, first object]
  split
  · rfl
  · rfl

theorem moved_row {k : Nat} (distinct : other.Nodup) (apart : k ∉ other) :
    Moved heap (other.foldl (fun heap l => gluePoint heap k l) heap) other
      (pull (heap.point k).x) (pull (heap.point k).y) := by
  induction other generalizing heap with
  | nil => exact fun object => (if_neg List.not_mem_nil).symm
  | cons l rest ih =>
      obtain ⟨absent, distinct⟩ := List.nodup_cons.mp distinct
      obtain ⟨notFirst, notRest⟩ := not_or.mp (List.mem_cons.not.mp apart)
      intro object
      have isRest := @ih (gluePoint heap k l) distinct notRest object
      rw [point_gluePoint, if_neg notFirst, point_gluePoint] at isRest
      rw [List.foldl_cons, isRest]
      by_cases isFirst : object = l
      · rw [isFirst, if_neg absent, if_pos rfl, if_pos List.mem_cons_self]
      · rw [if_neg isFirst]
        simp only [List.mem_cons, isFirst, false_or]

theorem moved_glueRectangles (distinct : other.Nodup) (apart : ∀ k ∈ rect, k ∉ other) :
    ∃ f g, Moved heap (glueRectangles rect other heap) other f g := by
  unfold glueRectangles
  induction rect generalizing heap with
  | nil => exact ⟨id, id, Moved.refl heap other⟩
  | cons k rect ih =>
      have row := @moved_row heap other k distinct (apart k List.mem_cons_self)
      obtain ⟨f, g, others⟩ := @ih (other.foldl (fun heap l => gluePoint heap k l) heap)
        fun corner isCorner => apart corner (List.mem_cons_of_mem _ isCorner)
      exact ⟨_, _, row.trans others⟩

/-!
## All rectangles
-/

/-- What was a rectangle is one. -/
def KeepsRectangles (rectangles : List (List Nat)) (heap moved : Heap) : Prop :=
  ∀ rect ∈ rectangles, IsRectangle heap rect → IsRectangle moved rect

theorem Moved.isRectangle {f g : ℚ → ℚ} (isMoved : Moved heap moved rect f g)
    (isRectangle : IsRectangle heap rect) : IsRectangle moved rect := by
  obtain ⟨x, x', y, y', corners⟩ := isRectangle
  have points : rect.map moved.point =
      (rect.map heap.point).map fun point => ⟨f point.x, g point.y⟩ := by
    rw [List.map_map]
    exact List.map_congr_left fun object member => (isMoved object).trans (if_pos member)
  refine ⟨f x, f x', g y, g y', ?_⟩
  rw [points]
  exact corners.map _

theorem Moved.keepsRectangles {f g : ℚ → ℚ} (separate : rectangles.flatten.Nodup)
    (isOther : other ∈ rectangles) (isMoved : Moved heap moved other f g) :
    KeepsRectangles rectangles heap moved := by
  intro rect isRect isRectangle
  by_cases same : rect = other
  · rw [same] at isRectangle ⊢
    exact isMoved.isRectangle isRectangle
  · have isSymm : Std.Symm (List.Disjoint : List Nat → List Nat → Prop) :=
      ⟨fun _ _ disjoint _ inSecond inFirst => disjoint inFirst inSecond⟩
    have disjoint : rect.Disjoint other :=
      (List.nodup_flatten.mp separate).2.forall isRect isOther same
    have points : rect.map moved.point = rect.map heap.point :=
      List.map_congr_left fun object member => (isMoved object).trans (if_neg (disjoint member))
    unfold IsRectangle
    rwa [points]

theorem keepsRectangles_later (separate : rectangles.flatten.Nodup)
    (inRectangles : ∀ other ∈ later, other ∈ rectangles)
    (apart : ∀ other ∈ later, ∀ k ∈ rect, k ∉ other) :
    KeepsRectangles rectangles heap
      (later.foldl (fun heap other => glueRectangles rect other heap) heap) := by
  induction later generalizing heap with
  | nil => exact fun _ _ isRectangle => isRectangle
  | cons other later ih =>
      have isOther := inRectangles other List.mem_cons_self
      obtain ⟨f, g, isMoved⟩ := @moved_glueRectangles heap rect other
        ((List.nodup_flatten.mp separate).1 other isOther) (apart other List.mem_cons_self)
      have others := @ih (glueRectangles rect other heap)
        (fun one isOne => inRectangles one (List.mem_cons_of_mem _ isOne))
        (fun one isOne => apart one (List.mem_cons_of_mem _ isOne))
      exact fun rect isRect isRectangle =>
        others rect isRect (isMoved.keepsRectangles separate isOther rect isRect isRectangle)

theorem keepsRectangles_glue (separate : rectangles.flatten.Nodup)
    (isSuffix : later <:+ rectangles) : KeepsRectangles rectangles heap (glue later heap) := by
  induction later generalizing heap with
  | nil => exact fun _ _ isRectangle => isRectangle
  | cons rect later ih =>
      have isLater := (List.suffix_cons rect later).trans isSuffix
      have laterSeparate : (rect :: later).flatten.Nodup :=
        List.Nodup.sublist (List.Sublist.flatten isSuffix.sublist) separate
      have apart : ∀ other ∈ later, ∀ k ∈ rect, k ∉ other := by
        intro other isOther k isCorner
        have disjoint := (List.nodup_flatten.mp laterSeparate).2
        exact (List.pairwise_cons.mp disjoint).1 other isOther isCorner
      have first := @keepsRectangles_later heap rect rectangles later separate
        (fun other isOther => isLater.subset isOther) apart
      exact fun other isOther isRectangle =>
        ih isLater other isOther (first other isOther isRectangle)

theorem isRectangle_glue (separate : rectangles.flatten.Nodup)
    (areRectangles : ∀ rect ∈ rectangles, IsRectangle heap rect) :
    ∀ rect ∈ rectangles, IsRectangle (glue rectangles heap) rect := fun rect isRect =>
  keepsRectangles_glue separate (List.suffix_refl rectangles) rect isRect (areRectangles rect isRect)

/-!
## The keys
-/

theorem foldl_toggle {start objects : List Nat} (distinct : (start ++ objects).Nodup) :
    objects.foldl toggle start = start ++ objects := by
  induction objects generalizing start with
  | nil => exact (List.append_nil start).symm
  | cons object objects ih =>
      have isNew : object ∉ start := by
        rw [List.nodup_middle, List.nodup_cons] at distinct
        exact fun member => distinct.1 (List.mem_append_left _ member)
      have same : start ++ object :: objects = start ++ [object] ++ objects :=
        (List.append_cons start object objects)
      rw [same] at distinct ⊢
      rw [List.foldl_cons, toggle, if_neg isNew, ih distinct]

/-- All corners are keys, each one once. -/
theorem pointKeys_eq (separate : rectangles.flatten.Nodup) :
    pointKeys rectangles = rectangles.flatten :=
  @foldl_toggle [] _ separate

section

variable {value : Point → ℚ}

/-- Of the corners of rectangles, an even number is in a row or in a column. -/
theorem occurrences_even
    (twice : ∀ rect ∈ rectangles, ∀ level : ℚ,
      (rect.map heap.point).countP (fun point => value point = level) % 2 = 0) (level : ℚ) :
    occurrences (fun object => value (heap.point object)) rectangles.flatten level % 2 = 0 := by
  induction rectangles with
  | nil => rfl
  | cons rect rectangles ih =>
      have isEven := twice rect List.mem_cons_self level
      have others := ih fun other isOther => twice other (List.mem_cons_of_mem _ isOther)
      rw [List.countP_map] at isEven
      unfold occurrences at others ⊢
      rw [List.flatten_cons, List.countP_append, Nat.add_mod, others]
      simp only [Function.comp_def] at isEven
      rw [isEven]

end

theorem rows_even (areRectangles : ∀ rect ∈ rectangles, IsRectangle heap rect) (level : ℚ) :
    occurrences (fun object => (heap.point object).y) rectangles.flatten level % 2 = 0 := by
  refine @occurrences_even heap rectangles Point.y (fun rect isRect level => ?_) level
  obtain ⟨x, x', y, y', corners⟩ := areRectangles rect isRect
  rw [corners.countP_eq]
  by_cases lower : y = level
  · by_cases upper : y' = level
    · simp [lower, upper]
    · simp [lower, upper]
  · by_cases upper : y' = level
    · simp [lower, upper]
    · simp [lower, upper]

theorem columns_even (areRectangles : ∀ rect ∈ rectangles, IsRectangle heap rect) (level : ℚ) :
    occurrences (fun object => (heap.point object).x) rectangles.flatten level % 2 = 0 := by
  refine @occurrences_even heap rectangles Point.x (fun rect isRect level => ?_) level
  obtain ⟨x, x', y, y', corners⟩ := areRectangles rect isRect
  rw [corners.countP_eq]
  by_cases left : x = level
  · by_cases right : x' = level
    · simp [left, right]
    · simp [left, right]
  · by_cases right : x' = level
    · simp [left, right]
    · simp [left, right]

end

end FreeOnline.Browser.CPolyUtil
