import FreeOnline.Browser.SpanEncoding
import Mathlib.Data.List.Sort

/-!
# Requests for tiles

The browser asks for the tiles of a queue in areas that grow to the right and down from the first
tile left. Each area is asked for with one message.
-/

set_option autoImplicit false

namespace FreeOnline.Browser.CanvasTileLayer

open FreeOnline.Library FreeOnline.Common
open FreeOnline.Browser.SheetGeometry (split parseInt split_append split_word parseInt_printInt
  notMem_printInt_of)

structure TileCoordData where
  x : Int
  y : Int
  z : Int
  part : Int
  mode : Int
deriving DecidableEq

structure Point where
  x : Int
  y : Int
deriving DecidableEq

namespace TileCoordData

variable (coords : TileCoordData)

def getPos : Point := ⟨coords.x, coords.y⟩

def key : Text :=
  printInt coords.x ++ ':' :: (printInt coords.y ++ ':' :: (printInt coords.z ++
    ':' :: (printInt coords.part ++ ':' :: printInt coords.mode)))

end TileCoordData

/-- What `_addTiles` reads of the layer. The cache has the keys that it is true of. -/
structure TileLayer where
  tileSize : Int
  tileWidthTwips : Int
  tileHeightTwips : Int
  selectedPart : Int
  selectedMode : Int
  tileCache : Text → Bool
  sizePositive : 0 < tileSize
  widthPositive : 0 < tileWidthTwips
  heightPositive : 0 < tileHeightTwips

theorem tileSize_positive : (0 : Int) < 256 := by decide

theorem tileTwips_positive : (0 : Int) < 3840 := by decide

/-- A message with the positions of tiles in twips. -/
structure TileCombine where
  part : Int
  mode : Int
  positions : List Point
deriving DecidableEq

namespace TileLayer

variable (layer : TileLayer)

def coordsToTwips (coords : TileCoordData) : Point :=
  ⟨coords.x.fdiv layer.tileSize * layer.tileWidthTwips,
    coords.y.fdiv layer.tileSize * layer.tileHeightTwips⟩

def interests (coords : TileCoordData) : Bool :=
  !layer.tileCache coords.key && coords.part == layer.selectedPart &&
    coords.mode == layer.selectedMode

end TileLayer

/-- In the order of the rows. -/
def sortByRows (coordsQueue : List TileCoordData) : List TileCoordData :=
  coordsQueue.insertionSort fun a b => if a.y ≠ b.y then a.y < b.y else a.x ≤ b.x

def push (current : TileCoordData) (result : List TileCoordData × List TileCoordData) :
    List TileCoordData × List TileCoordData :=
  (current :: result.1, result.2)

def leave (current : TileCoordData) (result : List TileCoordData × List TileCoordData) :
    List TileCoordData × List TileCoordData :=
  (result.1, current :: result.2)

/-- The tiles close to the bound that are taken from the queue, and those that are left in it. -/
def findClose (tileSize : Int) : Point → Bool → Bool → List TileCoordData →
    List TileCoordData × List TileCoordData
  | _, _, _, [] => ([], [])
  | bound, rowLocked, hasHole, current :: coordsQueue =>
      let isNextRow := !hasHole && current.y == bound.y + tileSize
      let rowLocked := rowLocked || isNextRow
      let bound := if isNextRow then ⟨bound.x, bound.y + tileSize⟩ else bound
      if bound.y < current.y then ([], current :: coordsQueue)
      else if !rowLocked then
        if current.y = bound.y ∧ current.x = bound.x + tileSize then
          push current
            (findClose tileSize ⟨bound.x + tileSize, bound.y⟩ rowLocked hasHole coordsQueue)
        -- The rest of the row is ignored.
        else leave current (findClose tileSize bound true hasHole coordsQueue)
      else if current.x ≤ bound.x ∧ current.y ≤ bound.y then
        push current (findClose tileSize bound rowLocked hasHole coordsQueue)
      else leave current (findClose tileSize bound rowLocked true coordsQueue)

/-- A first tile with those taken to it. -/
abbrev Rectangle := TileCoordData × List TileCoordData

def Rectangle.tiles (rectangle : Rectangle) : List TileCoordData := rectangle.1 :: rectangle.2

def Rectangle.last (rectangle : Rectangle) : TileCoordData := rectangle.2.getLastD rectangle.1

/-- The tiles of a rectangle whose keys were not added before. -/
def newTiles : List Text → List TileCoordData → List TileCoordData
  | _, [] => []
  | added, coords :: rectQueue =>
      if coords.key ∈ added then newTiles added rectQueue
      else coords :: newTiles (coords.key :: added) rectQueue

namespace TileLayer

variable (layer : TileLayer)

/-- None where the fuel runs out. -/
def rectangles : Nat → List TileCoordData → Option (List Rectangle)
  | 0, _ => none
  | _ + 1, [] => some []
  | fuel + 1, coords :: coordsQueue =>
      if layer.interests coords then
        let (taken, left) := findClose layer.tileSize coords.getPos false false coordsQueue
        (rectangles fuel left).map fun rectangles => (coords, taken) :: rectangles
      else rectangles fuel coordsQueue

/-- One message for each rectangle, with the part of its last tile. -/
def sendRequests : List Text → List Rectangle → List TileCombine
  | _, [] => []
  | added, rectangle :: rectangles =>
      ⟨rectangle.last.part, layer.selectedMode,
        (newTiles added rectangle.tiles).map layer.coordsToTwips⟩ ::
      sendRequests (rectangle.tiles.map TileCoordData.key ++ added) rectangles

/-- The messages that `_addTiles` sends, none where the fuel runs out. -/
def addTiles (fuel : Nat) (coordsQueue : List TileCoordData) : Option (List TileCombine) :=
  (layer.rectangles fuel (sortByRows coordsQueue)).map (layer.sendRequests [])

end TileLayer

/-!
## What is expected
-/

/-- A tile as the server is asked for it. -/
structure AskedTile where
  part : Int
  mode : Int
  position : Point
deriving DecidableEq

def TileCombine.asked (request : TileCombine) : List AskedTile :=
  request.positions.map fun position => ⟨request.part, request.mode, position⟩

def asked (requests : List TileCombine) : List AskedTile := requests.flatMap TileCombine.asked

namespace TileLayer

variable (layer : TileLayer)

def asking (coords : TileCoordData) : AskedTile :=
  ⟨coords.part, coords.mode, layer.coordsToTwips coords⟩

def askingSelected (coords : TileCoordData) : AskedTile :=
  ⟨layer.selectedPart, layer.selectedMode, layer.coordsToTwips coords⟩

/-- Exactly the tiles of interest are asked for, each once, and no message is empty. -/
structure AsksOnce (coordsQueue : List TileCoordData) (requests : List TileCombine) : Prop where
  once : ∀ coords ∈ coordsQueue, layer.interests coords →
    (asked requests).count (layer.asking coords) = 1
  only : ∀ tile ∈ asked requests, ∃ coords ∈ coordsQueue,
    layer.interests coords ∧ tile = layer.asking coords
  positions : ∀ request ∈ requests, request.positions ≠ []

end TileLayer

/-!
## Areas of a queue
-/

/-- How far a list goes on from a start, each element in relation to the one before. -/
inductive LongestRun {α : Type} (related : α → α → Prop) : α → List α → List α → Prop where
  | stops {start : α} {rest : List α} :
      (∀ next ∈ rest.head?, ¬ related start next) → LongestRun related start [] rest
  | goesOn {start next : α} {run rest : List α} :
      related start next → LongestRun related next run rest →
      LongestRun related start (next :: run) rest

namespace TileCoordData

variable (tileSize : Int) (coords next : TileCoordData)

def IsNextInRow : Prop := next.y = coords.y ∧ next.x = coords.x + tileSize

/-- In the same row or the next one, and not to the right of a bound. -/
def IsBelow (right : Int) : Prop :=
  next.x ≤ right ∧ (next.y = coords.y ∨ next.y = coords.y + tileSize)

/-- The next one where it is in the row. -/
def skipped (queue : List TileCoordData) : List TileCoordData :=
  queue.head?.toList.filter fun tile => tile.y = coords.y

end TileCoordData

/-- The tiles behind a first one in a queue sorted by rows: those next to each other in its row, the
next one if it is in the row as well, those below up to the last column, and the rest. -/
structure Area (tileSize : Int) (first : TileCoordData)
    (row skipped below rest : List TileCoordData) : Prop where
  inRow : LongestRun (TileCoordData.IsNextInRow tileSize) first row (skipped ++ (below ++ rest))
  skips : first.skipped (skipped ++ (below ++ rest)) = skipped
  isBelow : LongestRun (fun coords next => coords.IsBelow tileSize next (row.getLastD first).x)
    first below rest

/-- A queue sorted by rows, of tiles without interest and of areas without such tiles, each area with
a tile that none before has. -/
inductive TileLayer.Tidy (layer : TileLayer) :
    List TileCoordData → List TileCoordData → Prop where
  | done {seen : List TileCoordData} : Tidy layer seen []
  | dropped {seen coordsQueue : List TileCoordData} {coords : TileCoordData} :
      layer.interests coords = false → Tidy layer seen coordsQueue →
      Tidy layer seen (coords :: coordsQueue)
  | grouped {seen row skipped below rest : List TileCoordData} {first : TileCoordData} :
      Area layer.tileSize first row skipped below rest →
      (∀ tile ∈ first :: (row ++ below), layer.interests tile = true) →
      (∃ tile ∈ first :: (row ++ below), tile ∉ seen) →
      -- Those skipped are gone through again before the rest.
      Tidy layer (first :: (row ++ below) ++ seen) (skipped ++ rest) →
      Tidy layer seen (first :: (row ++ (skipped ++ (below ++ rest))))

/-!
## Keys and positions
-/

theorem TileCoordData.key_injective {coords other : TileCoordData} (same : coords.key = other.key) :
    coords = other := by
  have isSplit (tile : TileCoordData) : (split ':' tile.key).map parseInt =
      [some tile.x, some tile.y, some tile.z, some tile.part, some tile.mode] := by
    have noColon (n : Int) : ':' ∉ printInt n := notMem_printInt_of (.inr rfl) n
    rw [TileCoordData.key, split_append (noColon _), split_append (noColon _),
      split_append (noColon _), split_append (noColon _), split_word (noColon _)]
    simp only [List.map_cons, List.map_nil, parseInt_printInt]
  have parts := isSplit coords
  rw [same, isSplit other] at parts
  obtain ⟨x, y, z, part, mode⟩ := coords
  obtain ⟨x', y', z', part', mode'⟩ := other
  simp only [List.cons.injEq, Option.some.injEq, and_true] at parts
  obtain ⟨rfl, rfl, rfl, rfl, rfl⟩ := parts
  rfl

/-- Tiles of a grid, as the queues have them. -/
def Aligned (tileSize zoom : Int) (coords : TileCoordData) : Prop :=
  tileSize ∣ coords.x ∧ tileSize ∣ coords.y ∧ coords.z = zoom

section

variable {layer : TileLayer} {zoom : Int}

theorem TileLayer.coordsToTwips_injective {coords other : TileCoordData}
    (aligned : Aligned layer.tileSize zoom coords) (otherAligned : Aligned layer.tileSize zoom other)
    (same : layer.coordsToTwips coords = layer.coordsToTwips other) :
    coords.x = other.x ∧ coords.y = other.y := by
  obtain ⟨⟨column, isColumn⟩, ⟨row, isRow⟩, -⟩ := aligned
  obtain ⟨⟨otherColumn, isOtherColumn⟩, ⟨otherRow, isOtherRow⟩, -⟩ := otherAligned
  have sized := layer.sizePositive.ne'
  rw [coordsToTwips, coordsToTwips, Point.mk.injEq, isColumn, isRow, isOtherColumn, isOtherRow,
    Int.mul_fdiv_cancel_left _ sized, Int.mul_fdiv_cancel_left _ sized,
    Int.mul_fdiv_cancel_left _ sized, Int.mul_fdiv_cancel_left _ sized] at same
  rw [isColumn, isRow, isOtherColumn, isOtherRow,
    Int.eq_of_mul_eq_mul_right layer.widthPositive.ne' same.1,
    Int.eq_of_mul_eq_mul_right layer.heightPositive.ne' same.2]
  exact ⟨rfl, rfl⟩

theorem TileLayer.interests_iff {coords : TileCoordData} :
    layer.interests coords = true ↔ layer.tileCache coords.key = false ∧
      coords.part = layer.selectedPart ∧ coords.mode = layer.selectedMode := by
  simp only [interests, Bool.and_eq_true, Bool.not_eq_true', beq_iff_eq, and_assoc]

end

/-!
## Rectangles
-/

theorem push_perm {current : TileCoordData} {result : List TileCoordData × List TileCoordData}
    {coordsQueue : List TileCoordData} (isPerm : (result.1 ++ result.2).Perm coordsQueue) :
    ((push current result).1 ++ (push current result).2).Perm (current :: coordsQueue) :=
  isPerm.cons current

theorem leave_perm {current : TileCoordData} {result : List TileCoordData × List TileCoordData}
    {coordsQueue : List TileCoordData} (isPerm : (result.1 ++ result.2).Perm coordsQueue) :
    ((leave current result).1 ++ (leave current result).2).Perm (current :: coordsQueue) :=
  List.perm_middle.trans (isPerm.cons current)

/-- Each tile of the queue is taken or left. -/
theorem findClose_perm (tileSize : Int) (bound : Point) (rowLocked hasHole : Bool)
    (coordsQueue : List TileCoordData) :
    let result := findClose tileSize bound rowLocked hasHole coordsQueue
    (result.1 ++ result.2).Perm coordsQueue := by
  induction coordsQueue generalizing bound rowLocked hasHole with
  | nil => exact List.Perm.refl _
  | cons current coordsQueue ih =>
      dsimp only at ih ⊢
      unfold findClose
      dsimp only
      generalize (if (!hasHole && current.y == bound.y + tileSize) = true then
        (⟨bound.x, bound.y + tileSize⟩ : Point) else bound) = nextBound
      generalize (rowLocked || !hasHole && current.y == bound.y + tileSize) = nextLocked
      split
      · exact List.Perm.refl _
      · split
        · split
          · exact push_perm (ih _ _ _)
          · exact leave_perm (ih _ _ _)
        · split
          · exact push_perm (ih _ _ _)
          · exact leave_perm (ih _ _ _)

theorem findClose_holed (tileSize : Int) (bound : Point) (current : TileCoordData)
    (coordsQueue : List TileCoordData) :
    findClose tileSize bound true true (current :: coordsQueue) =
      if bound.y < current.y then ([], current :: coordsQueue)
      else if current.x ≤ bound.x ∧ current.y ≤ bound.y then
        push current (findClose tileSize bound true true coordsQueue)
      else leave current (findClose tileSize bound true true coordsQueue) := rfl

/-- With the row locked and no hole, the bound goes on to the next row. -/
theorem findClose_locked {tileSize : Int} {bound nextBound : Point} {current : TileCoordData}
    (coordsQueue : List TileCoordData)
    (goesOn : (if current.y = bound.y + tileSize then (⟨bound.x, bound.y + tileSize⟩ : Point)
      else bound) = nextBound) :
    findClose tileSize bound true false (current :: coordsQueue) =
      if nextBound.y < current.y then ([], current :: coordsQueue)
      else if current.x ≤ nextBound.x ∧ current.y ≤ nextBound.y then
        push current (findClose tileSize nextBound true false coordsQueue)
      else leave current (findClose tileSize nextBound true true coordsQueue) := by
  rw [findClose]
  simp only [Bool.not_false, Bool.true_and, Bool.true_or, beq_iff_eq, goesOn, Bool.not_true,
    Bool.false_eq_true, if_false]

/-- In the row of the bound, as long as it is not locked. -/
theorem findClose_inRow {tileSize : Int} {bound : Point} {current : TileCoordData}
    (positive : 0 < tileSize) (coordsQueue : List TileCoordData) (inRow : current.y = bound.y) :
    findClose tileSize bound false false (current :: coordsQueue) =
      if current.x = bound.x + tileSize then
        push current (findClose tileSize ⟨bound.x + tileSize, bound.y⟩ false false coordsQueue)
      else leave current (findClose tileSize bound true false coordsQueue) := by
  have notNextRow : (current.y == bound.y + tileSize) = false := beq_eq_false_iff_ne.mpr (by omega)
  have notAfter : ¬ bound.y < current.y := by omega
  rw [findClose]
  simp only [Bool.not_false, Bool.true_and, Bool.false_or, notNextRow, Bool.false_eq_true, if_false,
    notAfter, if_true]
  simp only [inRow, true_and]

/-- A tile in another row locks the row. -/
theorem findClose_otherRow {tileSize : Int} {bound : Point} {current : TileCoordData}
    (coordsQueue : List TileCoordData) (otherRow : bound.y < current.y) :
    findClose tileSize bound false false (current :: coordsQueue) =
      findClose tileSize bound true false (current :: coordsQueue) := by
  rw [findClose, findClose]
  by_cases isNextRow : current.y = bound.y + tileSize
  · simp only [Bool.not_false, Bool.true_and, Bool.false_or, Bool.true_or, isNextRow, beq_self_eq_true]
  · simp only [Bool.not_false, Bool.true_and, beq_eq_false_iff_ne.mpr isNextRow,
      Bool.false_eq_true, if_false, otherRow, if_true]

/-- Up to a tile behind the bound nothing is taken any more. -/
theorem findClose_behind {tileSize : Int} {bound : Point} {coordsQueue : List TileCoordData}
    (behind : ∀ tile ∈ coordsQueue, bound.y < tile.y ∨ tile.y = bound.y ∧ bound.x < tile.x) :
    findClose tileSize bound true true coordsQueue = ([], coordsQueue) := by
  induction coordsQueue with
  | nil => rfl
  | cons current coordsQueue ih =>
      obtain ⟨isBehind, laterBehind⟩ := List.forall_mem_cons.mp behind
      rw [findClose_holed]
      split
      · rfl
      · rw [if_neg (by omega), ih laterBehind]
        rfl

/-- The order of the rows. -/
def RowOrder (coords other : TileCoordData) : Prop :=
  coords.y < other.y ∨ coords.y = other.y ∧ coords.x ≤ other.x

theorem sortByRows_sorted (coordsQueue : List TileCoordData) :
    (sortByRows coordsQueue).Pairwise RowOrder := by
  have isTotal : Std.Total fun a b : TileCoordData => if a.y ≠ b.y then a.y < b.y else a.x ≤ b.x :=
    ⟨fun a b => by split_ifs <;> omega⟩
  have isTrans : IsTrans TileCoordData fun a b => if a.y ≠ b.y then a.y < b.y else a.x ≤ b.x := by
    refine ⟨fun a b c first second => ?_⟩
    split_ifs at first second ⊢ <;> omega
  refine (List.pairwise_insertionSort _ coordsQueue).imp fun {a b} ordered => ?_
  rw [RowOrder]
  split_ifs at ordered <;> omega

/-- The bound is in the row of the tile that was taken last. -/
theorem bound_eq {tileSize right y next : Int} (inReach : next = y ∨ next = y + tileSize) :
    (if next = y + tileSize then (⟨right, y + tileSize⟩ : Point) else ⟨right, y⟩) =
      ⟨right, next⟩ := by
  split
  · next isNextRow => rw [isNextRow]
  · next notNextRow => rw [inReach.resolve_right notNextRow]

/-- With the row locked, the tiles below are taken and all others left. -/
theorem findClose_below {tileSize right : Int} {first : TileCoordData}
    {below rest : List TileCoordData} (positive : 0 < tileSize)
    (longest : LongestRun (fun coords next => coords.IsBelow tileSize next right) first below rest)
    (fromRow : ∀ tile ∈ below ++ rest, first.y ≤ tile.y)
    (sorted : (below ++ rest).Pairwise RowOrder) :
    findClose tileSize ⟨right, first.y⟩ true false (below ++ rest) = (below, rest) := by
  induction longest with
  | @stops first rest notBelow =>
      cases rest with
      | nil => rfl
      | cons next rest =>
          have isOutside : ¬ first.IsBelow tileSize next right := notBelow next rfl
          have inOrder := (List.pairwise_cons.mp sorted).1
          have isAfter := fromRow next List.mem_cons_self
          rw [TileCoordData.IsBelow] at isOutside
          rw [List.nil_append]
          by_cases inReach : next.y = first.y ∨ next.y = first.y + tileSize
          · -- The tile is to the right of the bound, and so are those after it in its row.
            rw [findClose_locked rest (bound_eq inReach), if_neg (lt_irrefl _),
              if_neg fun inside => isOutside ⟨inside.1, inReach⟩, findClose_behind]
            · rfl
            · intro tile member
              have ordered := inOrder tile member
              rw [RowOrder] at ordered
              dsimp only
              omega
          · rw [findClose_locked rest (if_neg (fun isNextRow => inReach (.inr isNextRow)))]
            exact if_pos (by dsimp only; omega)
  | @goesOn first next below rest isBelow _ ih =>
      obtain ⟨withinBound, inReach⟩ := isBelow
      rw [List.cons_append] at fromRow sorted ⊢
      obtain ⟨inOrder, laterSorted⟩ := List.pairwise_cons.mp sorted
      have laterRows : ∀ tile ∈ below ++ rest, next.y ≤ tile.y := by
        intro tile member
        have ordered := inOrder tile member
        rw [RowOrder] at ordered
        omega
      rw [findClose_locked _ (bound_eq inReach), if_neg (lt_irrefl _), if_pos ⟨withinBound, le_rfl⟩,
        ih laterRows laterSorted]
      rfl

/-- As long as the row is not locked, the tiles next to each other are taken. -/
theorem findClose_row {tileSize : Int} {first : TileCoordData} {row behind : List TileCoordData}
    (positive : 0 < tileSize)
    (longest : LongestRun (TileCoordData.IsNextInRow tileSize) first row behind) :
    findClose tileSize first.getPos false false (row ++ behind) =
      let result := findClose tileSize (row.getLastD first).getPos false false behind
      (row ++ result.1, result.2) := by
  induction longest with
  | stops _ => rfl
  | @goesOn first next row behind isNext _ ih =>
      obtain ⟨inRow, isRight⟩ := isNext
      have next_eq : (⟨first.getPos.x + tileSize, first.getPos.y⟩ : Point) = next.getPos := by
        rw [TileCoordData.getPos, TileCoordData.getPos, inRow, isRight]
      have isRight : next.x = first.getPos.x + tileSize := isRight
      rw [List.cons_append, findClose_inRow positive _ inRow, if_pos isRight, next_eq, ih,
        List.getLastD_cons]
      rfl

theorem LongestRun.row_y {tileSize : Int} {first : TileCoordData} {row behind : List TileCoordData}
    (longest : LongestRun (TileCoordData.IsNextInRow tileSize) first row behind) :
    (row.getLastD first).y = first.y ∧
      ∀ tile ∈ behind.head?, ¬ (row.getLastD first).IsNextInRow tileSize tile := by
  induction longest with
  | stops notNext => exact ⟨rfl, notNext⟩
  | goesOn isNext _ ih =>
      rw [List.getLastD_cons]
      exact ⟨ih.1.trans isNext.1, ih.2⟩

/-- Of a queue sorted by rows, the row and the tiles below are taken to a first one. -/
theorem findClose_area {tileSize : Int} {first : TileCoordData}
    {row skipped below rest : List TileCoordData} (positive : 0 < tileSize)
    (area : Area tileSize first row skipped below rest)
    (sorted : (first :: (row ++ (skipped ++ (below ++ rest)))).Pairwise RowOrder) :
    findClose tileSize first.getPos false false (row ++ (skipped ++ (below ++ rest))) =
      (row ++ below, skipped ++ rest) := by
  obtain ⟨inOrder, sorted⟩ := List.pairwise_cons.mp sorted
  have behindSorted := (List.pairwise_append.mp sorted).2.1
  have fromRow : ∀ tile ∈ skipped ++ (below ++ rest), first.y ≤ tile.y := by
    intro tile member
    have ordered := inOrder tile (List.mem_append_right _ member)
    rw [RowOrder] at ordered
    omega
  obtain ⟨row_y, notNext⟩ := area.inRow.row_y
  have taken := findClose_below positive area.isBelow
    (fun tile member => fromRow tile (List.mem_append_right _ member))
    (List.pairwise_append.mp behindSorted).2.1
  have bound_eq : (row.getLastD first).getPos = ⟨(row.getLastD first).x, first.y⟩ := by
    rw [TileCoordData.getPos, row_y]
  suffices findClose tileSize (row.getLastD first).getPos false false
      (skipped ++ (below ++ rest)) = (below, skipped ++ rest) by
    rw [findClose_row positive area.inRow, this]
  have skips := area.skips
  rw [bound_eq]
  generalize hBehind : skipped ++ (below ++ rest) = behind at *
  cases behind with
  | nil =>
      obtain ⟨rfl, hRest⟩ := List.append_eq_nil_iff.mp hBehind
      obtain ⟨rfl, rfl⟩ := List.append_eq_nil_iff.mp hRest
      rfl
  | cons next behind =>
      rw [TileCoordData.skipped, List.head?_cons, Option.toList_some] at skips
      by_cases inRow : next.y = first.y
      · rw [List.filter_cons_of_pos (by simpa using inRow), List.filter_nil] at skips
        rw [← skips, List.singleton_append, List.cons.injEq] at hBehind
        rw [findClose_inRow positive _ inRow, if_neg, ← hBehind.2, taken, ← skips]
        · rfl
        · intro isNext
          exact notNext next rfl ⟨inRow.trans row_y.symm, isNext⟩
      · rw [List.filter_cons_of_neg (by simpa using inRow), List.filter_nil] at skips
        rw [← skips, List.nil_append] at hBehind
        have isAfter := fromRow next List.mem_cons_self
        rw [findClose_otherRow _ (by dsimp only; omega), ← hBehind, taken, ← skips]
        rfl

theorem exists_longestRun {α : Type} (related : α → α → Prop) (start : α) (queue : List α) :
    ∃ run rest, queue = run ++ rest ∧ LongestRun related start run rest := by
  induction queue generalizing start with
  | nil => exact ⟨[], [], rfl, .stops nofun⟩
  | cons next queue ih =>
      by_cases isRelated : related start next
      · obtain ⟨run, rest, isSplit, longest⟩ := ih next
        exact ⟨next :: run, rest, congrArg _ isSplit, .goesOn isRelated longest⟩
      · refine ⟨[], next :: queue, rfl, .stops fun found isFound => ?_⟩
        cases isFound
        exact isRelated

theorem exists_area (tileSize : Int) (first : TileCoordData) (coordsQueue : List TileCoordData) :
    ∃ row skipped below rest, coordsQueue = row ++ (skipped ++ (below ++ rest)) ∧
      Area tileSize first row skipped below rest := by
  obtain ⟨row, behind, rfl, inRow⟩ :=
    exists_longestRun (TileCoordData.IsNextInRow tileSize) first coordsQueue
  have isSplit : ∃ later, behind = first.skipped behind ++ later := by
    cases behind with
    | nil => exact ⟨[], rfl⟩
    | cons next behind =>
        rw [TileCoordData.skipped, List.head?_cons, Option.toList_some, List.filter_cons]
        split
        · exact ⟨behind, rfl⟩
        · exact ⟨next :: behind, rfl⟩
  obtain ⟨later, hBehind⟩ := isSplit
  obtain ⟨below, rest, rfl, isBelow⟩ := exists_longestRun
    (fun coords next => coords.IsBelow tileSize next (row.getLastD first).x) first later
  refine ⟨row, first.skipped behind, below, rest, by rw [← hBehind], ?_, ?_, isBelow⟩
  · rwa [← hBehind]
  · rw [← hBehind]

theorem Rectangle.last_mem (rectangle : Rectangle) : rectangle.last ∈ rectangle.tiles := by
  obtain ⟨coords, taken⟩ := rectangle
  rw [Rectangle.last, Rectangle.tiles]
  cases isLast : taken.getLast? with
  | none =>
      rw [List.getLastD_eq_getLast?, isLast]
      exact List.mem_cons_self
  | some last =>
      rw [List.getLastD_eq_getLast?, isLast]
      exact List.mem_cons_of_mem _ (List.mem_of_getLast? isLast)

/-- All tiles of the rectangles are of interest, and each rectangle has a new one. -/
def Clean (layer : TileLayer) : List TileCoordData → List Rectangle → Prop
  | _, [] => True
  | seen, rectangle :: rectangles =>
      (∀ tile ∈ rectangle.tiles, layer.interests tile = true) ∧
        (∃ tile ∈ rectangle.tiles, tile ∉ seen) ∧ Clean layer (rectangle.tiles ++ seen) rectangles

section

variable {layer : TileLayer} {fuel : Nat} {coordsQueue : List TileCoordData}

theorem TileLayer.tidy_dropped_iff {seen : List TileCoordData} {coords : TileCoordData}
    (notInteresting : layer.interests coords = false) :
    layer.Tidy seen (coords :: coordsQueue) ↔ layer.Tidy seen coordsQueue := by
  constructor
  · intro tidy
    cases tidy with
    | dropped _ rest => exact rest
    | grouped _ allInteresting _ _ =>
        rw [allInteresting _ List.mem_cons_self] at notInteresting
        cases notInteresting
  · exact TileLayer.Tidy.dropped notInteresting

theorem TileLayer.tidy_grouped_iff {seen taken left : List TileCoordData} {coords : TileCoordData}
    (interests : layer.interests coords = true)
    (sorted : (coords :: coordsQueue).Pairwise RowOrder)
    (close : findClose layer.tileSize coords.getPos false false coordsQueue = (taken, left)) :
    layer.Tidy seen (coords :: coordsQueue) ↔
      (∀ tile ∈ coords :: taken, layer.interests tile = true) ∧
        (∃ tile ∈ coords :: taken, tile ∉ seen) ∧ layer.Tidy (coords :: taken ++ seen) left := by
  constructor
  · intro tidy
    cases tidy with
    | dropped notInteresting _ =>
        rw [interests] at notInteresting
        cases notInteresting
    | grouped area allInteresting isNew rest =>
        rw [findClose_area layer.sizePositive area sorted] at close
        cases close
        exact ⟨allInteresting, isNew, rest⟩
  · intro ⟨allInteresting, isNew, rest⟩
    obtain ⟨row, skipped, below, later, rfl, area⟩ :=
      exists_area layer.tileSize coords coordsQueue
    rw [findClose_area layer.sizePositive area sorted] at close
    cases close
    exact .grouped area allInteresting isNew rest

/-- Each pass takes a tile off the queue, and the tiles of interest are in the rectangles. -/
theorem TileLayer.rectangles_spec (enough : coordsQueue.length < fuel)
    (sorted : coordsQueue.Pairwise RowOrder) :
    ∃ rectangles, layer.rectangles fuel coordsQueue = some rectangles ∧
      (∀ tile ∈ rectangles.flatMap Rectangle.tiles, tile ∈ coordsQueue) ∧
      (∀ tile ∈ coordsQueue, layer.interests tile = true →
        tile ∈ rectangles.flatMap Rectangle.tiles) ∧
      ∀ seen, layer.Tidy seen coordsQueue ↔ Clean layer seen rectangles := by
  induction fuel generalizing coordsQueue with
  | zero => cases enough
  | succ fuel ih =>
      cases coordsQueue with
      | nil => exact ⟨[], rfl, nofun, nofun, fun _ => iff_of_true .done trivial⟩
      | cons coords coordsQueue =>
          rw [rectangles]
          cases interests : layer.interests coords with
          | false =>
              obtain ⟨rectangles, isSome, inQueue, found, tidy_iff⟩ :=
                @ih coordsQueue (Nat.lt_of_succ_lt_succ enough) (List.pairwise_cons.mp sorted).2
              refine ⟨rectangles, isSome,
                fun tile member => List.mem_cons_of_mem _ (inQueue tile member), ?_, ?_⟩
              · intro tile member isInteresting
                rcases List.mem_cons.mp member with rfl | isLater
                · rw [interests] at isInteresting
                  cases isInteresting
                · exact found tile isLater isInteresting
              · exact fun seen => (layer.tidy_dropped_iff interests).trans (tidy_iff seen)
          | true =>
              have isPerm := findClose_perm layer.tileSize coords.getPos false false coordsQueue
              cases close : findClose layer.tileSize coords.getPos false false coordsQueue with
              | mk taken left =>
              rw [close] at isPerm
              dsimp only at isPerm
              have shorter : left.length ≤ coordsQueue.length := by
                rw [← isPerm.length_eq, List.length_append]
                exact Nat.le_add_left _ _
              have leftSorted : left.Pairwise RowOrder := by
                obtain ⟨row, skipped, below, later, rfl, area⟩ :=
                  exists_area layer.tileSize coords coordsQueue
                rw [findClose_area layer.sizePositive area sorted] at close
                cases close
                refine (List.pairwise_cons.mp sorted).2.sublist ?_
                exact (((List.sublist_append_right _ _).append_left _)).trans
                  (List.sublist_append_right _ _)
              obtain ⟨rectangles, isSome, inQueue, found, tidy_iff⟩ :=
                @ih left (Nat.lt_of_le_of_lt shorter (Nat.lt_of_succ_lt_succ enough)) leftSorted
              refine ⟨(coords, taken) :: rectangles, ?_, ?_, ?_, ?_⟩
              · rw [if_pos rfl]
                dsimp only
                rw [isSome, Option.map_some]
              · intro tile member
                rw [List.flatMap_cons, Rectangle.tiles, List.cons_append, List.mem_cons] at member
                rcases member with rfl | member
                · exact List.mem_cons_self
                · refine List.mem_cons_of_mem _ (isPerm.mem_iff.mp ?_)
                  rcases List.mem_append.mp member with inTaken | later
                  · exact List.mem_append_left _ inTaken
                  · exact List.mem_append_right _ (inQueue tile later)
              · intro tile member isInteresting
                rw [List.flatMap_cons, Rectangle.tiles, List.cons_append, List.mem_cons]
                rcases List.mem_cons.mp member with rfl | isLater
                · exact .inl rfl
                · right
                  rcases List.mem_append.mp (isPerm.mem_iff.mpr isLater) with inTaken | inLeft
                  · exact List.mem_append_left _ inTaken
                  · exact List.mem_append_right _ (found tile inLeft isInteresting)
              · intro seen
                rw [Clean, ← tidy_iff]
                exact layer.tidy_grouped_iff interests sorted close

/-!
## Messages
-/

theorem mem_newTiles {added : List Text} {tiles : List TileCoordData} {tile : TileCoordData} :
    tile ∈ newTiles added tiles ↔ tile ∈ tiles ∧ tile.key ∉ added := by
  induction tiles generalizing added with
  | nil => exact iff_of_false List.not_mem_nil fun found => List.not_mem_nil found.1
  | cons coords tiles ih =>
      rw [newTiles, List.mem_cons]
      split
      · next isAdded =>
          rw [ih]
          constructor
          · intro ⟨member, isNew⟩
            exact ⟨.inr member, isNew⟩
          · rintro ⟨rfl | member, isNew⟩
            · exact absurd isAdded isNew
            · exact ⟨member, isNew⟩
      · next notAdded =>
          rw [List.mem_cons, ih, List.mem_cons]
          constructor
          · rintro (rfl | ⟨member, isNew⟩)
            · exact ⟨.inl rfl, notAdded⟩
            · exact ⟨.inr member, fun isAdded => isNew (.inr isAdded)⟩
          · rintro ⟨rfl | member, isNew⟩
            · exact .inl rfl
            · by_cases same : tile.key = coords.key
              · exact .inl (TileCoordData.key_injective same)
              · exact .inr ⟨member, not_or.mpr ⟨same, isNew⟩⟩

theorem newTiles_nodup (added : List Text) (tiles : List TileCoordData) :
    (newTiles added tiles).Nodup := by
  induction tiles generalizing added with
  | nil => exact List.nodup_nil
  | cons coords tiles ih =>
      rw [newTiles]
      split
      · exact ih added
      · refine List.nodup_cons.mpr ⟨fun member => ?_, ih _⟩
        exact (mem_newTiles.mp member).2 List.mem_cons_self

/-- The tiles whose positions are sent. -/
def sentTiles : List Text → List Rectangle → List TileCoordData
  | _, [] => []
  | added, rectangle :: rectangles =>
      newTiles added rectangle.tiles ++
        sentTiles (rectangle.tiles.map TileCoordData.key ++ added) rectangles

theorem mem_sentTiles {added : List Text} {rectangles : List Rectangle} {tile : TileCoordData} :
    tile ∈ sentTiles added rectangles ↔
      tile ∈ rectangles.flatMap Rectangle.tiles ∧ tile.key ∉ added := by
  induction rectangles generalizing added with
  | nil => exact iff_of_false List.not_mem_nil fun found => List.not_mem_nil found.1
  | cons rectangle rectangles ih =>
      have inKeys : tile.key ∈ rectangle.tiles.map TileCoordData.key ↔ tile ∈ rectangle.tiles := by
        constructor
        · intro isKey
          obtain ⟨other, member, same⟩ := List.mem_map.mp isKey
          rwa [← TileCoordData.key_injective same]
        · exact List.mem_map_of_mem
      rw [sentTiles, List.mem_append, mem_newTiles, ih, List.flatMap_cons, List.mem_append,
        List.mem_append, inKeys]
      tauto

theorem sentTiles_nodup (added : List Text) (rectangles : List Rectangle) :
    (sentTiles added rectangles).Nodup := by
  induction rectangles generalizing added with
  | nil => exact List.nodup_nil
  | cons rectangle rectangles ih =>
      refine List.nodup_append'.mpr ⟨newTiles_nodup _ _, ih _, ?_⟩
      intro tile isNew isLater
      refine (mem_sentTiles.mp isLater).2 (List.mem_append_left _ ?_)
      exact List.mem_map_of_mem (mem_newTiles.mp isNew).1

/-- Where all messages have the selected part, the tiles that are sent are asked for with it. -/
theorem TileLayer.asked_sendRequests {added : List Text} {rectangles : List Rectangle}
    (samePart : ∀ request ∈ layer.sendRequests added rectangles,
      request.part = layer.selectedPart) :
    asked (layer.sendRequests added rectangles) =
      (sentTiles added rectangles).map layer.askingSelected := by
  induction rectangles generalizing added with
  | nil => rfl
  | cons rectangle rectangles ih =>
      rw [sendRequests] at samePart ⊢
      obtain ⟨isPart, restPart⟩ := List.forall_mem_cons.mp samePart
      have rest := ih restPart
      dsimp only at isPart
      rw [asked] at rest
      rw [asked, List.flatMap_cons, rest, sentTiles, List.map_append, TileCombine.asked, isPart,
        List.map_map]
      rfl

/-- A rectangle with a new tile sends a position, and the other way round. -/
theorem newTiles_ne_nil {seen : List TileCoordData} {rectangle : Rectangle} :
    newTiles (seen.map TileCoordData.key) rectangle.tiles ≠ [] ↔
      ∃ tile ∈ rectangle.tiles, tile ∉ seen := by
  have inNew {tile : TileCoordData} :
      tile ∈ newTiles (seen.map TileCoordData.key) rectangle.tiles ↔
        tile ∈ rectangle.tiles ∧ tile ∉ seen := by
    refine mem_newTiles.trans (and_congr_right fun _ => not_congr ?_)
    constructor
    · intro isKey
      obtain ⟨other, member, same⟩ := List.mem_map.mp isKey
      rwa [← TileCoordData.key_injective same]
    · exact List.mem_map_of_mem
  constructor
  · intro notEmpty
    obtain ⟨tile, member⟩ := List.exists_mem_of_ne_nil _ notEmpty
    exact ⟨tile, inNew.mp member⟩
  · intro ⟨tile, isNew⟩
    exact List.ne_nil_of_mem (inNew.mpr isNew)

theorem clean_iff {seen : List TileCoordData} {rectangles : List Rectangle} :
    Clean layer seen rectangles ↔
      (∀ tile ∈ rectangles.flatMap Rectangle.tiles, layer.interests tile = true) ∧
        ∀ request ∈ layer.sendRequests (seen.map TileCoordData.key) rectangles,
          request.positions ≠ [] := by
  induction rectangles generalizing seen with
  | nil => exact iff_of_true trivial ⟨nofun, nofun⟩
  | cons rectangle rectangles ih =>
      have added : (rectangle.tiles ++ seen).map TileCoordData.key =
          rectangle.tiles.map TileCoordData.key ++ seen.map TileCoordData.key := List.map_append
      have hasPosition : (newTiles (seen.map TileCoordData.key) rectangle.tiles).map
          layer.coordsToTwips ≠ [] ↔ ∃ tile ∈ rectangle.tiles, tile ∉ seen := by
        rw [Ne, List.map_eq_nil_iff]
        exact newTiles_ne_nil
      rw [Clean, ih, added, TileLayer.sendRequests, List.forall_mem_cons, hasPosition,
        List.flatMap_cons, List.forall_mem_append]
      tauto

theorem part_of_clean {added : List Text} {rectangles : List Rectangle}
    (allInteresting : ∀ tile ∈ rectangles.flatMap Rectangle.tiles, layer.interests tile = true) :
    ∀ request ∈ layer.sendRequests added rectangles, request.part = layer.selectedPart := by
  induction rectangles generalizing added with
  | nil => nofun
  | cons rectangle rectangles ih =>
      rw [List.flatMap_cons, List.forall_mem_append] at allInteresting
      refine List.forall_mem_cons.mpr ⟨?_, ih allInteresting.2⟩
      exact (TileLayer.interests_iff.mp (allInteresting.1 _ rectangle.last_mem)).2.1

theorem asking_of_interests {coords : TileCoordData}
    (isInteresting : layer.interests coords = true) :
    layer.asking coords = layer.askingSelected coords := by
  obtain ⟨-, isPart, isMode⟩ := TileLayer.interests_iff.mp isInteresting
  rw [TileLayer.asking, isPart, isMode]
  rfl

/-- Where all tiles of the rectangles are of interest, each is asked for as it is. -/
theorem TileLayer.asked_of_interests {rectangles : List Rectangle}
    (allInteresting : ∀ tile ∈ rectangles.flatMap Rectangle.tiles, layer.interests tile = true) :
    asked (layer.sendRequests [] rectangles) = (sentTiles [] rectangles).map layer.asking := by
  rw [layer.asked_sendRequests (part_of_clean allInteresting)]
  exact List.map_congr_left fun tile member =>
    (asking_of_interests (allInteresting tile (mem_sentTiles.mp member).1)).symm

/-- The position of a tile is that of no other one of the same part and mode. -/
theorem asking_injective {coords other : TileCoordData} {zoom : Int}
    (aligned : Aligned layer.tileSize zoom coords) (otherAligned : Aligned layer.tileSize zoom other)
    (same : layer.asking coords = layer.asking other) : coords = other := by
  rw [TileLayer.asking, TileLayer.asking, AskedTile.mk.injEq] at same
  obtain ⟨samePart, sameMode, samePosition⟩ := same
  obtain ⟨sameX, sameY⟩ := layer.coordsToTwips_injective aligned otherAligned samePosition
  obtain ⟨x, y, z, part, mode⟩ := coords
  obtain ⟨x', y', z', part', mode'⟩ := other
  obtain ⟨-, -, rfl⟩ := aligned
  obtain ⟨-, -, rfl⟩ := otherAligned
  cases samePart
  cases sameMode
  cases sameX
  cases sameY
  rfl

theorem two_le_count {α β : Type} [DecidableEq β] {f : α → β} {l : List α} {a b : α}
    (member : a ∈ l) (isOther : b ∈ l) (differ : a ≠ b) (same : f a = f b) :
    2 ≤ (l.map f).count (f a) := by
  obtain ⟨before, after, rfl⟩ := List.append_of_mem member
  have inRest : b ∈ before ++ after := by
    rcases List.mem_append.mp isOther with inBefore | inAfter
    · exact List.mem_append_left _ inBefore
    · rcases List.mem_cons.mp inAfter with rfl | inRest
      · exact absurd rfl differ
      · exact List.mem_append_right _ inRest
  have counted : 0 < ((before ++ after).map f).count (f a) := by
    rw [List.count_pos_iff, same]
    exact List.mem_map_of_mem inRest
  rw [List.map_append, List.count_append] at counted
  rw [List.map_append, List.map_cons, List.count_append, List.count_cons_self]
  omega

/-- A queue without duplicates, all of whose tiles are of interest, leaves nothing that could go
wrong. -/
theorem TileLayer.tidy_of_nodup {seen : List TileCoordData} (nodup : coordsQueue.Nodup)
    (interesting : ∀ coords ∈ coordsQueue, layer.interests coords = true)
    (areNew : ∀ coords ∈ coordsQueue, coords ∉ seen) : layer.Tidy seen coordsQueue := by
  induction hLength : coordsQueue.length using Nat.strong_induction_on
    generalizing seen coordsQueue with
  | h length ih =>
      subst hLength
      cases coordsQueue with
      | nil => exact .done
      | cons coords coordsQueue =>
          obtain ⟨row, skipped, below, rest, rfl, area⟩ :=
            exists_area layer.tileSize coords coordsQueue
          have isPerm : (row ++ below ++ (skipped ++ rest)).Perm
              (row ++ (skipped ++ (below ++ rest))) := by
            rw [List.append_assoc]
            exact List.Perm.append_left _ (List.perm_append_comm_assoc _ _ _)
          obtain ⟨notLater, laterNodup⟩ := List.nodup_cons.mp nodup
          obtain ⟨-, leftNodup, disjoint⟩ := List.nodup_append'.mp (isPerm.nodup_iff.mpr laterNodup)
          refine .grouped area ?_ ⟨coords, List.mem_cons_self, areNew coords List.mem_cons_self⟩ ?_
          · intro tile member
            refine interesting tile (List.mem_cons.mpr ((List.mem_cons.mp member).imp_right ?_))
            exact fun inArea => isPerm.mem_iff.mp (List.mem_append_left _ inArea)
          · refine ih (skipped ++ rest).length ?_ leftNodup ?_ ?_ rfl
            · have lengths := isPerm.length_eq
              rw [List.length_append] at lengths
              rw [List.length_cons]
              omega
            · exact fun tile member => interesting tile
                (List.mem_cons_of_mem _ (isPerm.mem_iff.mp (List.mem_append_right _ member)))
            · intro tile member isSeen
              have isLater := isPerm.mem_iff.mp (List.mem_append_right (row ++ below) member)
              rcases List.mem_append.mp isSeen with inArea | wasSeen
              · rcases List.mem_cons.mp inArea with rfl | isTaken
                · exact notLater isLater
                · exact disjoint isTaken member
              · exact areNew tile (List.mem_cons_of_mem _ isLater) wasSeen

/-- Such a queue is asked for as it is. -/
theorem TileLayer.addTiles_of_nodup (nodup : coordsQueue.Nodup)
    (interesting : ∀ coords ∈ coordsQueue, layer.interests coords = true)
    (enough : coordsQueue.length < fuel) :
    ∃ requests, layer.addTiles fuel coordsQueue = some requests ∧
      (asked requests).Perm (coordsQueue.map layer.asking) ∧
      ∀ request ∈ requests, request.positions ≠ [] := by
  have isPerm : (sortByRows coordsQueue).Perm coordsQueue := List.perm_insertionSort _ _
  obtain ⟨rectangles, isSome, inQueue, found, tidy_iff⟩ :=
    @TileLayer.rectangles_spec layer fuel (sortByRows coordsQueue) (by rwa [isPerm.length_eq])
      (sortByRows_sorted coordsQueue)
  have tidy : layer.Tidy [] (sortByRows coordsQueue) := by
    refine TileLayer.tidy_of_nodup (isPerm.nodup_iff.mpr nodup) ?_ fun _ _ => List.not_mem_nil
    exact fun coords member => interesting coords (isPerm.mem_iff.mp member)
  obtain ⟨allInteresting, positions⟩ := clean_iff.mp ((tidy_iff []).mp tidy)
  refine ⟨layer.sendRequests [] rectangles,
    by rw [TileLayer.addTiles, isSome, Option.map_some], ?_, positions⟩
  rw [layer.asked_of_interests allInteresting]
  refine List.Perm.map _ ((List.perm_ext_iff_of_nodup (sentTiles_nodup _ _) nodup).mpr fun tile => ?_)
  rw [mem_sentTiles, ← isPerm.mem_iff]
  constructor
  · exact fun member => inQueue tile member.1
  · intro member
    exact ⟨found tile member (interesting tile (isPerm.mem_iff.mp member)), List.not_mem_nil⟩

end

/-- Two tiles side by side, the second of them in the cache. -/
private def leftTile : TileCoordData := ⟨0, 0, 10, 0, 0⟩

private def rightTile : TileCoordData := ⟨256, 0, 10, 0, 0⟩

private def cachingLayer : TileLayer :=
  { tileSize := 256, tileWidthTwips := 3840, tileHeightTwips := 3840, selectedPart := 0,
    selectedMode := 0, tileCache := fun key => key == rightTile.key,
    sizePositive := tileSize_positive, widthPositive := tileTwips_positive,
    heightPositive := tileTwips_positive }

end FreeOnline.Browser.CanvasTileLayer
