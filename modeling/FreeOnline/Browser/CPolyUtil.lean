import Mathlib.Algebra.Order.Ring.Rat
import FreeOnline.Library.Double
import FreeOnline.Library.OrderedMap

/-!
# Outlines of rectangles

The corners of rectangles are glued where they are near, paired along rows and columns, and
followed from pair to pair until a ring closes.
-/

set_option autoImplicit false

namespace FreeOnline.Browser.CPolyUtil

open FreeOnline.Library

/-- A point with numbers for its coordinates. -/
@[ext]
structure Point where
  x : ℚ
  y : ℚ
deriving DecidableEq

/-- The difference of two numbers, rounded to a number. -/
def minus (a b : ℚ) : ℚ := roundDigits (a - b)

/-- `Number.EPSILON` -/
def epsilon : ℚ := 1 / 2 ^ 52

def Point.equals (point other : Point) : Bool :=
  |minus other.x point.x| < epsilon && |minus other.y point.y| < epsilon

/-- The points of the objects that the rectangles are lists of. Each object has a number that says
which one it is. -/
structure Heap where
  point : Nat → Point

def Heap.setX (heap : Heap) (object : Nat) (x : ℚ) : Heap where
  point other := if other = object then { heap.point object with x := x } else heap.point other

def Heap.setY (heap : Heap) (object : Nat) (y : ℚ) : Heap where
  point other := if other = object then { heap.point object with y := y } else heap.point other

/-!
## Gluing
-/

def eps : ℚ := 20

def gluePoint (heap : Heap) (k l : Nat) : Heap :=
  let heap :=
    if |minus (heap.point k).x (heap.point l).x| < eps then heap.setX l (heap.point k).x else heap
  if |minus (heap.point k).y (heap.point l).y| < eps then heap.setY l (heap.point k).y else heap

def glueRectangles (rect other : List Nat) (heap : Heap) : Heap :=
  rect.foldl (fun heap k => other.foldl (fun heap l => gluePoint heap k l) heap) heap

/-- Every rectangle is glued to each of those before it, in their order. -/
def glue : List (List Nat) → Heap → Heap
  | [], heap => heap
  | rect :: later, heap =>
      glue later (later.foldl (fun heap other => glueRectangles rect other heap) heap)

/-!
## Pairing
-/

/-- An object that is there already is taken away. -/
def toggle (points : List Nat) (object : Nat) : List Nat :=
  if object ∈ points then points.erase object else points ++ [object]

def pointKeys (rectangles : List (List Nat)) : List Nat := rectangles.flatten.foldl toggle []

def xThenY (ap bp : Point) : Int :=
  if ap.x < bp.x ∨ (ap.x = bp.x ∧ ap.y < bp.y) then -1
  else if ap.x = bp.x ∧ ap.y = bp.y then 0
  else 1

def yThenX (ap bp : Point) : Int :=
  if ap.y < bp.y ∨ (ap.y = bp.y ∧ ap.x < bp.x) then -1
  else if ap.x = bp.x ∧ ap.y = bp.y then 0
  else 1

/-- A stable sort. -/
def sortBy (heap : Heap) (comparison : Point → Point → Int) (objects : List Nat) : List Nat :=
  objects.mergeSort fun a b => comparison (heap.point a) (heap.point b) ≤ 0

abbrev Edges := OrderedMap Nat Nat

/-- Both loops go on from where the other one stopped, two objects at a time. Nothing comes out
where one is left over. -/
def pairEdges : List Nat → Edges → Option Edges
  | [], edges => some edges
  | [_], _ => none
  | a :: b :: rest, edges => pairEdges rest ((edges.set a b).set b a)

/-!
## Rings
-/

/-- From the current vertex on to the end of the ring, with the vertices before it, the last one
first. Nothing comes out where a vertex is undefined. -/
def trace (heap : Heap) (start : Nat) :
    Nat → Bool → Nat → List Nat → Edges → Edges → Option (List Nat × Edges × Edges)
  | 0, _, _, _, _, _ => none
  | fuel + 1, false, curr, path, edgesH, edgesV =>
      match edgesV.get curr with
      | none => none
      | some nextVertex =>
          trace heap start fuel true nextVertex (curr :: path) edgesH (edgesV.delete curr)
  | fuel + 1, true, curr, path, edgesH, edgesV =>
      match edgesH.get curr with
      | none => none
      | some nextVertex =>
          if (heap.point nextVertex).equals (heap.point start) then
            some ((curr :: path).reverse, edgesH.delete curr, edgesV)
          else trace heap start fuel false nextVertex (curr :: path) (edgesH.delete curr) edgesV

def traceRings (heap : Heap) : Nat → Edges → Edges → Option (List (List Nat))
  | 0, _, _ => none
  | fuel + 1, edgesH, edgesV =>
      match edgesH.keys with
      | [] => some []
      | first :: _ =>
          match trace heap first (edgesH.length + 1) false first [] edgesH edgesV with
          | none => none
          | some (ring, edgesH, edgesV) =>
              (traceRings heap fuel (edgesH.deleteAll ring) (edgesV.deleteAll ring)).map (ring :: ·)

/-- The rings of glued rectangles. -/
def outlineRings (rectangles : List (List Nat)) (heap : Heap) : Option (List (List Nat)) :=
  let keys := pointKeys rectangles
  match pairEdges (sortBy heap yThenX keys) [], pairEdges (sortBy heap xThenY keys) [] with
  | some edgesH, some edgesV => traceRings heap (edgesH.length + 1) edgesH edgesV
  | _, _ => none

/-- The vertices of a ring, and the first one again. -/
def polygon (heap : Heap) (ring : List Nat) : List Point := (ring ++ ring.take 1).map heap.point

/-- The polygons of the point set. -/
def rectanglesToPointSet {Pixel : Type} (rectangles : List (List Nat))
    (unitConverter : Point → Pixel) (heap : Heap) : Option (List (List Pixel)) :=
  let heap := glue rectangles heap
  (outlineRings rectangles heap).map fun rings =>
    rings.map fun ring => (polygon heap ring).map unitConverter

end FreeOnline.Browser.CPolyUtil
