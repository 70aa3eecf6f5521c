import FreeOnline.Browser.TileRequests
import Mathlib.Data.Rat.Floor
import Mathlib.Tactic.Linarith

/-!
# Tiles fetched ahead

Around each pane the browser fetches tiles that are not seen yet, along a border that grows by a tile
at a time. All panes share the number of tiles that one call may ask for.
-/

set_option autoImplicit false

namespace FreeOnline.Browser.TilePrefetch

open FreeOnline.Library FreeOnline.Common FreeOnline.Browser.CanvasTileLayer

structure Bounds where
  min : Point
  max : Point
deriving DecidableEq

namespace Bounds

/-- The smallest bounds with both points. -/
def of (a b : Point) : Bounds :=
  ⟨⟨Min.min b.x a.x, Min.min b.y a.y⟩, ⟨Max.max b.x a.x, Max.max b.y a.y⟩⟩

variable (bounds : Bounds)

def clampX (x : Int) : Int := Max.max bounds.min.x (Min.min bounds.max.x x)

def clampY (y : Int) : Int := Max.max bounds.min.y (Min.min bounds.max.y y)

def clamp (obj : Bounds) : Bounds :=
  of ⟨bounds.clampX obj.min.x, bounds.clampY obj.min.y⟩
    ⟨bounds.clampX obj.max.x, bounds.clampY obj.max.y⟩

end Bounds

structure PixelPoint where
  x : ℚ
  y : ℚ
deriving DecidableEq

structure PixelBounds where
  min : PixelPoint
  max : PixelPoint
deriving DecidableEq

/-- The smallest bounds with both points. -/
def PixelBounds.of (a b : PixelPoint) : PixelBounds :=
  ⟨⟨Min.min b.x a.x, Min.min b.y a.y⟩, ⟨Max.max b.x a.x, Max.max b.y a.y⟩⟩

structure PaneStatus where
  xFixed : Bool
  yFixed : Bool
deriving DecidableEq

/-- The panes that a document is split into at the position. -/
def getPanesProperties (splitPos : PixelPoint) : List PaneStatus :=
  (if splitPos.x ≠ 0 ∧ splitPos.y ≠ 0 then [⟨true, true⟩] else []) ++
    (if splitPos.y ≠ 0 then [⟨false, true⟩] else []) ++
    (if splitPos.x ≠ 0 then [⟨true, false⟩] else []) ++ [⟨false, false⟩]

def getPxBoundList (splitPos : PixelPoint) (pxBounds : PixelBounds) : List PixelBounds :=
  let topLeft := pxBounds.min
  let bottomRight := pxBounds.max
  let boundList :=
    (if splitPos.x ≠ 0 ∧ splitPos.y ≠ 0 then [.of ⟨0, 0⟩ splitPos] else []) ++
      (if splitPos.y ≠ 0 then
        [.of ⟨topLeft.x + splitPos.x, 0⟩ ⟨bottomRight.x, splitPos.y⟩] else []) ++
      (if splitPos.x ≠ 0 then
        [PixelBounds.of ⟨0, topLeft.y + splitPos.y⟩ ⟨splitPos.x, bottomRight.y⟩] else [])
  if boundList = [] then [.of topLeft bottomRight]
  else boundList ++ [.of ⟨topLeft.x + splitPos.x, topLeft.y + splitPos.y⟩ bottomRight]

/-- The layer of a document. The tiles that exist have the keys that `tiles` is true of, and the
split position is none where there are no panes. -/
structure DocLayer extends TileLayer where
  docWidthTwips : ℚ
  docHeightTwips : ℚ
  tiles : Text → Bool
  emptyTilesCount : Nat
  splitPanesContext : Option PixelPoint

structure PaneBorder where
  border : Bounds
  xFixed : Bool
  yFixed : Bool
  index : Nat
deriving DecidableEq

/-- What is shown when the borders are computed. -/
structure Shown where
  zoom : Int
  part : Int
  mode : Int
  hasEditPerm : Bool
  pixelBounds : PixelBounds
  splitPos : PixelPoint
deriving DecidableEq

structure TilesPreFetcher where
  zoom : Option Int
  preFetchPart : Option Int
  preFetchMode : Option Int
  hasEditPerm : Option Bool
  pixelBounds : Option PixelBounds
  splitPos : Option PixelPoint
  borders : Option (List PaneBorder)

/-- What the map shows. -/
structure MapView where
  zoom : Int
  editMode : Bool
  pixelBounds : PixelBounds

namespace DocLayer

variable (layer : DocLayer)

def isValidTile (coords : TileCoordData) : Bool :=
  if coords.x < 0 ∨ coords.y < 0 then false
  else if (coords.x / layer.tileSize : ℚ) * layer.tileWidthTwips > layer.docWidthTwips ∨
      (coords.y / layer.tileSize : ℚ) * layer.tileHeightTwips > layer.docHeightTwips then false
  else true

def pxBoundsToTileRange (bounds : PixelBounds) : Bounds :=
  .of ⟨⌊bounds.min.x / layer.tileSize⌋, ⌊bounds.min.y / layer.tileSize⌋⟩
    ⟨⌊bounds.max.x / layer.tileSize⌋, ⌊bounds.max.y / layer.tileSize⌋⟩

def pxBoundsToTileRanges (bounds : PixelBounds) : List Bounds :=
  match layer.splitPanesContext with
  | none => [layer.pxBoundsToTileRange bounds]
  | some splitPos => (getPxBoundList splitPos bounds).map layer.pxBoundsToTileRange

def paneStatusList : List PaneStatus :=
  match layer.splitPanesContext with
  | none => [⟨false, false⟩]
  | some splitPos => getPanesProperties splitPos

def validTileRange : Bounds :=
  .of ⟨0, 0⟩ ⟨⌊(layer.docWidthTwips - 1) / layer.tileWidthTwips⌋,
    ⌊(layer.docHeightTwips - 1) / layer.tileHeightTwips⌋⟩

def shown (map : MapView) : Shown :=
  ⟨map.zoom, layer.selectedPart, layer.selectedMode, map.editMode, map.pixelBounds,
    layer.splitPanesContext.getD ⟨0, 0⟩⟩

/-- A border around each pane that moves in some direction. -/
def paneBorders (pixelBounds : PixelBounds) : List PaneBorder :=
  ((layer.pxBoundsToTileRanges pixelBounds).zip layer.paneStatusList).filterMap
    fun (tileRange, pane) =>
      if pane.xFixed && pane.yFixed then none
      else some ⟨.of ⟨tileRange.min.x - 1, tileRange.min.y - 1⟩
        ⟨tileRange.max.x + 1, tileRange.max.y + 1⟩, pane.xFixed, pane.yFixed, 0⟩

end DocLayer

/-- What the fetcher knows to be shown, as now where it knows nothing. -/
def TilesPreFetcher.known (prefetcher : TilesPreFetcher) (now : Shown) : Shown :=
  ⟨prefetcher.zoom.getD now.zoom, prefetcher.preFetchPart.getD now.part,
    prefetcher.preFetchMode.getD now.mode, prefetcher.hasEditPerm.getD now.hasEditPerm,
    prefetcher.pixelBounds.getD now.pixelBounds, prefetcher.splitPos.getD now.splitPos⟩

/-- What the tiles are fetched for, and the borders of the panes, computed afresh where needed. -/
def TilesPreFetcher.start (layer : DocLayer) (map : MapView) (forceBorderCalc : Bool)
    (prefetcher : TilesPreFetcher) : Shown × List PaneBorder :=
  let now := layer.shown map
  let known := prefetcher.known now
  match prefetcher.borders with
  | none | some [] => (now, layer.paneBorders map.pixelBounds)
  | some borders =>
      if forceBorderCalc || known ≠ now then (now, layer.paneBorders map.pixelBounds)
      else (known, borders)

def maxTilesToFetch (hasEditPerm : Bool) : Nat := if hasEditPerm then 5 else 10

def maxBorderWidth (hasEditPerm : Bool) : Nat := if hasEditPerm then 3 else 5

/-- The tiles found so far, their keys, and how many more may be fetched, none for no limit. -/
structure Fetching where
  finalQueue : List TileCoordData
  visitedTiles : List Text
  tilesToFetch : Option Nat

def Fetching.mayFetch (fetching : Fetching) : Bool := fetching.tilesToFetch ≠ some 0

def Fetching.fetch (fetching : Fetching) (coords : TileCoordData) : Fetching :=
  ⟨fetching.finalQueue ++ [coords], coords.key :: fetching.visitedTiles,
    fetching.tilesToFetch.map (· - 1)⟩

/-- The whole numbers from the first to the last one. -/
def fromTo (first last : Int) : List Int :=
  (List.range (last + 1 - first).toNat).map fun (i : Nat) => first + (i : Int)

section

variable (layer : DocLayer) (shown : Shown)

/-- The sides of the border that lie in the document. -/
def PaneBorder.fetchTopBorder (pane : PaneBorder) : Bool :=
  !pane.yFixed && pane.border.min.y == (layer.validTileRange.clamp pane.border).min.y

def PaneBorder.fetchBottomBorder (pane : PaneBorder) : Bool :=
  !pane.yFixed && pane.border.max.y == (layer.validTileRange.clamp pane.border).max.y

def PaneBorder.fetchLeftBorder (pane : PaneBorder) : Bool :=
  !pane.xFixed && pane.border.min.x == (layer.validTileRange.clamp pane.border).min.x

def PaneBorder.fetchRightBorder (pane : PaneBorder) : Bool :=
  !pane.xFixed && pane.border.max.x == (layer.validTileRange.clamp pane.border).max.x

def tileAt (column row : Int) : TileCoordData :=
  ⟨column * layer.tileSize, row * layer.tileSize, shown.zoom, shown.part, shown.mode⟩

/-- The tiles along the sides of the border that lie in the document. -/
def PaneBorder.sides (pane : PaneBorder) : List TileCoordData :=
  let clampedBorder := layer.validTileRange.clamp pane.border
  let columns := fromTo clampedBorder.min.x clampedBorder.max.x
  let rows := fromTo clampedBorder.min.y clampedBorder.max.y
  (if pane.fetchBottomBorder layer then
      columns.map fun i => tileAt layer shown i pane.border.max.y else []) ++
    (if pane.fetchTopBorder layer then
      columns.map fun i => tileAt layer shown i pane.border.min.y else []) ++
    (if pane.fetchRightBorder layer then
      rows.map fun i => tileAt layer shown pane.border.max.x i else []) ++
    (if pane.fetchLeftBorder layer then
      rows.map fun i => tileAt layer shown pane.border.min.x i else [])

/-- The border a tile further, where the pane moves and the document goes on. -/
def PaneBorder.grow (pane : PaneBorder) : PaneBorder :=
  let bounds := pane.border
  let validTileRange := layer.validTileRange
  { pane with
    border :=
      ⟨⟨if !pane.xFixed && 0 < bounds.min.x then bounds.min.x - 1 else bounds.min.x,
          if !pane.yFixed && 0 < bounds.min.y then bounds.min.y - 1 else bounds.min.y⟩,
        ⟨if !pane.xFixed && bounds.max.x < validTileRange.max.x then bounds.max.x + 1
          else bounds.max.x,
          if !pane.yFixed && bounds.max.y < validTileRange.max.y then bounds.max.y + 1
          else bounds.max.y⟩⟩
    index := pane.index + 1 }

/-- What was found in the queue, and whether there are tiles left that may not be fetched. -/
def scan : Fetching → List TileCoordData → Fetching × Bool
  | fetching, [] => (fetching, false)
  | fetching, coords :: queue =>
      if !layer.isValidTile coords || layer.tiles coords.key || layer.tileCache coords.key ||
          coords.key ∈ fetching.visitedTiles then scan fetching queue
      else if fetching.mayFetch then scan (fetching.fetch coords) queue
      else ((scan fetching queue).1, true)

/-- The loop over the border's widths, none where the fuel runs out. -/
def fetchPane (width : Nat) : Nat → Fetching → List TileCoordData → PaneBorder →
    Option (Fetching × PaneBorder)
  | 0, _, _, _ => none
  | fuel + 1, fetching, queue, pane =>
      if fetching.mayFetch ∧ pane.index < width then
        if !pane.fetchLeftBorder layer && !pane.fetchRightBorder layer &&
            !pane.fetchTopBorder layer && !pane.fetchBottomBorder layer then some (fetching, pane)
        else
          let queue := queue ++ pane.sides layer shown
          let (fetching, tilesPending) := scan layer fetching queue
          -- The border is not updated while there are tiles to be fetched.
          if tilesPending then fetchPane width fuel fetching queue pane
          else fetchPane width fuel fetching queue (pane.grow layer)
      else some (fetching, pane)

def fetchPanes (width fuel : Nat) : Fetching → List PaneBorder →
    Option (Fetching × List PaneBorder)
  | fetching, [] => some (fetching, [])
  | fetching, pane :: panes => do
      let (fetching, pane) ← fetchPane layer shown width fuel fetching [] pane
      let (fetching, panes) ← fetchPanes width fuel fetching panes
      return (fetching, pane :: panes)

end

/-- The tiles that one call may ask for, none for no limit. -/
def tileLimit (map : MapView) (immediate : Bool) : Option Nat :=
  if immediate then none else some (maxTilesToFetch map.editMode)

/-- What a call leaves: the fetcher, the borders of the panes before they may be dropped, and the
messages sent. -/
structure PreFetched where
  prefetcher : TilesPreFetcher
  panes : List PaneBorder
  requests : List TileCombine

/-- The messages for a queue, where it has any tile. -/
def requestTiles (layer : DocLayer) (finalQueue : List TileCoordData) : Option (List TileCombine) :=
  if !finalQueue.isEmpty then layer.addTiles (finalQueue.length + 1) finalQueue else some []

/-- None where the fuel runs out. Of a document of which all parts are shown in one view, the view is
brought up to date before: that call comes first in the code and is not in here. -/
def preFetchTiles (fuel : Nat) (layer : DocLayer) (map : MapView)
    (forceBorderCalc immediate : Bool) (prefetcher : TilesPreFetcher) : Option PreFetched :=
  if 0 < layer.emptyTilesCount then some ⟨prefetcher, [], []⟩
  else do
    let (shown, borders) := prefetcher.start layer map forceBorderCalc
    let width := maxBorderWidth map.editMode
    let (fetching, panes) ← fetchPanes layer shown width fuel
      ⟨[], [], tileLimit map immediate⟩ borders
    let doneAllPanes := panes.all fun pane => width ≤ pane.index
    let tilesRequested := !fetching.finalQueue.isEmpty
    let requests ← requestTiles layer fetching.finalQueue
    return ⟨⟨some shown.zoom, some shown.part, some shown.mode, some shown.hasEditPerm,
      some shown.pixelBounds, some shown.splitPos,
      if !tilesRequested || doneAllPanes then none else some panes⟩, panes, requests⟩

/-!
## What is expected
-/

/-- A valid tile. Where the document has a size, it also begins before the document ends. -/
structure Inside (layer : DocLayer) (coords : TileCoordData) : Prop where
  valid : layer.isValidTile coords = true
  column : 0 < layer.docWidthTwips →
    (coords.x / layer.tileSize : ℚ) * layer.tileWidthTwips < layer.docWidthTwips
  row : 0 < layer.docHeightTwips →
    (coords.y / layer.tileSize : ℚ) * layer.tileHeightTwips < layer.docHeightTwips

/-- The border advanced by some widths, and at each of them no tile of the sides was left. -/
def Advanced (layer : DocLayer) (shown : Shown) (isAsked : TileCoordData → Prop)
    (before after : PaneBorder) : Prop :=
  ∃ steps, after = (PaneBorder.grow layer)^[steps] before ∧
    ∀ step < steps, ∀ coords ∈ ((PaneBorder.grow layer)^[step] before).sides layer shown,
      layer.isValidTile coords = true → layer.tiles coords.key = true ∨
        layer.tileCache coords.key = true ∨ isAsked coords

/-- What a call asks for, and how it moves the borders of the panes. -/
structure FetchesAhead (layer : DocLayer) (map : MapView) (immediate : Bool) (shown : Shown)
    (borders : List PaneBorder) (result : PreFetched) : Prop where
  limited : ∀ limit ∈ tileLimit map immediate, (asked result.requests).length ≤ limit
  distinct : (asked result.requests).Nodup
  inside : ∀ tile ∈ asked result.requests, ∃ coords, tile = layer.asking coords ∧
    Inside layer coords ∧ layer.tiles coords.key = false ∧ layer.tileCache coords.key = false
  positions : ∀ request ∈ result.requests, request.positions ≠ []
  advanced : List.Forall₂
    (Advanced layer shown fun coords => layer.asking coords ∈ asked result.requests)
    borders result.panes

/-!
## Borders
-/

namespace Bounds

theorem of_ordered (a b : Point) :
    (of a b).min.x ≤ (of a b).max.x ∧ (of a b).min.y ≤ (of a b).max.y :=
  ⟨(min_le_left _ _).trans (le_max_left _ _), (min_le_left _ _).trans (le_max_left _ _)⟩

theorem clamp_max_x_le {bounds : Bounds} (obj : Bounds) (ordered : bounds.min.x ≤ bounds.max.x) :
    (bounds.clamp obj).max.x ≤ bounds.max.x :=
  max_le (max_le ordered (min_le_left _ _)) (max_le ordered (min_le_left _ _))

theorem clamp_max_y_le {bounds : Bounds} (obj : Bounds) (ordered : bounds.min.y ≤ bounds.max.y) :
    (bounds.clamp obj).max.y ≤ bounds.max.y :=
  max_le (max_le ordered (min_le_left _ _)) (max_le ordered (min_le_left _ _))

end Bounds

theorem mem_fromTo {first last i : Int} : i ∈ fromTo first last ↔ first ≤ i ∧ i ≤ last := by
  rw [fromTo, List.mem_map]
  constructor
  · rintro ⟨n, inRange, rfl⟩
    have bound := List.mem_range.mp inRange
    omega
  · intro ⟨notBefore, notAfter⟩
    refine ⟨(i - first).toNat, List.mem_range.mpr ?_, ?_⟩ <;> omega

/-- A row or a column of the valid range begins before the end of the document. -/
theorem begins_before {size : ℚ} {tileTwips i : Int} (twipsPositive : 0 < tileTwips)
    (within : i ≤ max ⌊(size - 1) / tileTwips⌋ 0) (positive : 0 < size) :
    (i * tileTwips : ℚ) < size := by
  have castPositive : (0 : ℚ) < tileTwips := Int.cast_pos.mpr twipsPositive
  rcases le_max_iff.mp within with inRange | notPositive
  · have below : (i : ℚ) ≤ (size - 1) / tileTwips := Int.le_floor.mp inRange
    have shorter := (le_div_iff₀ castPositive).mp below
    linarith
  · have atStart : (i : ℚ) ≤ 0 := Int.cast_nonpos.mpr notPositive
    have notAfter := mul_nonpos_of_nonpos_of_nonneg atStart castPositive.le
    linarith

/-- A tile on the grid of what is shown. Where it is valid, it is inside the document. -/
structure Candidate (layer : DocLayer) (shown : Shown) (coords : TileCoordData) : Prop where
  aligned : Aligned layer.tileSize shown.zoom coords
  part : coords.part = shown.part
  mode : coords.mode = shown.mode
  inside : layer.isValidTile coords = true → Inside layer coords

section

variable {layer : DocLayer} {shown : Shown}

theorem tileAt_candidate {column row : Int} (columnWithin : column ≤ layer.validTileRange.max.x)
    (rowWithin : row ≤ layer.validTileRange.max.y) :
    Candidate layer shown (tileAt layer shown column row) where
  aligned := ⟨Int.dvd_mul_left _ _, Int.dvd_mul_left _ _, rfl⟩
  part := rfl
  mode := rfl
  inside valid := by
    have sized : (layer.tileSize : ℚ) ≠ 0 := Int.cast_ne_zero.mpr layer.sizePositive.ne'
    constructor
    · exact valid
    · rw [tileAt, Int.cast_mul, mul_div_cancel_right₀ _ sized]
      exact begins_before layer.widthPositive columnWithin
    · rw [tileAt, Int.cast_mul, mul_div_cancel_right₀ _ sized]
      exact begins_before layer.heightPositive rowWithin

/-- The sides that are scanned lie in the valid range. -/
theorem PaneBorder.sides_candidate {pane : PaneBorder} {coords : TileCoordData}
    (member : coords ∈ pane.sides layer shown) : Candidate layer shown coords := by
  have inRange := Bounds.of_ordered ⟨0, 0⟩ ⟨⌊(layer.docWidthTwips - 1) / layer.tileWidthTwips⌋,
    ⌊(layer.docHeightTwips - 1) / layer.tileHeightTwips⌋⟩
  have columnsWithin : (layer.validTileRange.clamp pane.border).max.x ≤ layer.validTileRange.max.x :=
    Bounds.clamp_max_x_le _ inRange.1
  have rowsWithin : (layer.validTileRange.clamp pane.border).max.y ≤ layer.validTileRange.max.y :=
    Bounds.clamp_max_y_le _ inRange.2
  have ordered : (layer.validTileRange.clamp pane.border).min.x ≤
      (layer.validTileRange.clamp pane.border).max.x ∧
      (layer.validTileRange.clamp pane.border).min.y ≤
        (layer.validTileRange.clamp pane.border).max.y := Bounds.of_ordered _ _
  have along {side : Bool} {indices : List Int} {tile : Int → TileCoordData}
      (isTile : coords ∈ if side = true then indices.map tile else []) :
      side = true ∧ ∃ i ∈ indices, tile i = coords := by
    cases side with
    | true => exact ⟨rfl, List.mem_map.mp isTile⟩
    | false => exact absurd isTile List.not_mem_nil
  rw [sides, List.mem_append, List.mem_append, List.mem_append] at member
  rcases member with ((bottom | top) | right) | left
  · obtain ⟨isSide, i, inColumns, rfl⟩ := along bottom
    rw [fetchBottomBorder, Bool.and_eq_true, beq_iff_eq] at isSide
    exact tileAt_candidate ((mem_fromTo.mp inColumns).2.trans columnsWithin)
      (isSide.2.le.trans rowsWithin)
  · obtain ⟨isSide, i, inColumns, rfl⟩ := along top
    rw [fetchTopBorder, Bool.and_eq_true, beq_iff_eq] at isSide
    exact tileAt_candidate ((mem_fromTo.mp inColumns).2.trans columnsWithin)
      ((isSide.2.le.trans ordered.2).trans rowsWithin)
  · obtain ⟨isSide, i, inRows, rfl⟩ := along right
    rw [fetchRightBorder, Bool.and_eq_true, beq_iff_eq] at isSide
    exact tileAt_candidate (isSide.2.le.trans columnsWithin)
      ((mem_fromTo.mp inRows).2.trans rowsWithin)
  · obtain ⟨isSide, i, inRows, rfl⟩ := along left
    rw [fetchLeftBorder, Bool.and_eq_true, beq_iff_eq] at isSide
    exact tileAt_candidate ((isSide.2.le.trans ordered.1).trans columnsWithin)
      ((mem_fromTo.mp inRows).2.trans rowsWithin)

/-!
## The budget
-/

/-- What holds of the tiles found so far. -/
structure Fetching.Within (layer : DocLayer) (shown : Shown) (limit : Option Nat)
    (fetching : Fetching) : Prop where
  budget : limit = fetching.tilesToFetch.map (· + fetching.finalQueue.length)
  visited : fetching.visitedTiles = (fetching.finalQueue.map TileCoordData.key).reverse
  distinct : fetching.finalQueue.Nodup
  candidate : ∀ coords ∈ fetching.finalQueue, Candidate layer shown coords
  inside : ∀ coords ∈ fetching.finalQueue, Inside layer coords
  missing : ∀ coords ∈ fetching.finalQueue,
    layer.tiles coords.key = false ∧ layer.tileCache coords.key = false

variable {limit : Option Nat} {fetching : Fetching}

theorem Fetching.Within.start (layer : DocLayer) (shown : Shown) (limit : Option Nat) :
    Fetching.Within layer shown limit ⟨[], [], limit⟩ where
  budget := by cases limit <;> rfl
  visited := rfl
  distinct := List.nodup_nil
  candidate := nofun
  inside := nofun
  missing := nofun

theorem Fetching.Within.mem_visited (within : fetching.Within layer shown limit)
    {coords : TileCoordData} :
    coords.key ∈ fetching.visitedTiles ↔ coords ∈ fetching.finalQueue := by
  rw [within.visited, List.mem_reverse, List.mem_map]
  constructor
  · rintro ⟨other, member, same⟩
    rwa [← TileCoordData.key_injective same]
  · exact fun member => ⟨coords, member, rfl⟩

theorem Fetching.Within.fetch (within : fetching.Within layer shown limit) {coords : TileCoordData}
    (mayFetch : fetching.mayFetch = true) (candidate : Candidate layer shown coords)
    (valid : layer.isValidTile coords = true) (notLoaded : layer.tiles coords.key = false)
    (notCached : layer.tileCache coords.key = false)
    (isNew : coords.key ∉ fetching.visitedTiles) :
    (fetching.fetch coords).Within layer shown limit where
  budget := by
    rw [within.budget, Fetching.fetch, List.length_append, List.length_singleton, Option.map_map]
    cases left : fetching.tilesToFetch with
    | none => rfl
    | some tiles =>
        rw [Fetching.mayFetch, left, decide_eq_true_eq] at mayFetch
        have notZero : tiles ≠ 0 := fun isZero => mayFetch (congrArg some isZero)
        rw [Option.map_some, Option.map_some, Option.some_inj, Function.comp_apply]
        omega
  visited := by
    rw [Fetching.fetch, List.map_append, List.reverse_append, within.visited]
    rfl
  distinct := by
    refine List.nodup_append'.mpr ⟨within.distinct, List.nodup_singleton _, ?_⟩
    intro other isOld isOther
    rw [List.mem_singleton.mp isOther] at isOld
    exact isNew (within.mem_visited.mpr isOld)
  candidate := List.forall_mem_append.mpr
    ⟨within.candidate, List.forall_mem_singleton.mpr candidate⟩
  inside := List.forall_mem_append.mpr
    ⟨within.inside, List.forall_mem_singleton.mpr (candidate.inside valid)⟩
  missing := List.forall_mem_append.mpr
    ⟨within.missing, List.forall_mem_singleton.mpr ⟨notLoaded, notCached⟩⟩

/-- What may be left of a queue once it was scanned. -/
def Settled (layer : DocLayer) (fetching : Fetching) (coords : TileCoordData) : Prop :=
  layer.isValidTile coords = true → layer.tiles coords.key = true ∨
    layer.tileCache coords.key = true ∨ coords ∈ fetching.finalQueue

/-- The tiles that were found stay, and where tiles are pending no more may be fetched. -/
structure Scanned (layer : DocLayer) (shown : Shown) (limit : Option Nat) (before : Fetching)
    (queue : List TileCoordData) (after : Fetching × Bool) : Prop where
  within : after.1.Within layer shown limit
  kept : before.finalQueue ⊆ after.1.finalQueue
  settled : after.2 = false → ∀ coords ∈ queue, Settled layer after.1 coords
  pending : after.2 = true → after.1.mayFetch = false

theorem scan_of_not_mayFetch {queue : List TileCoordData} (spent : fetching.mayFetch = false) :
    (scan layer fetching queue).1 = fetching := by
  induction queue with
  | nil => rfl
  | cons coords queue ih =>
      rw [scan]
      split
      · exact ih
      · rw [if_neg (ne_true_of_eq_false spent)]
        exact ih

theorem scan_scanned {queue : List TileCoordData} (within : fetching.Within layer shown limit)
    (candidates : ∀ coords ∈ queue, Candidate layer shown coords) :
    Scanned layer shown limit fetching queue (scan layer fetching queue) := by
  induction queue generalizing fetching with
  | nil => exact ⟨within, List.Subset.refl _, fun _ => nofun, nofun⟩
  | cons coords queue ih =>
      obtain ⟨candidate, laterCandidates⟩ := List.forall_mem_cons.mp candidates
      rw [scan]
      split
      · next skipped =>
          have rest := ih within laterCandidates
          refine ⟨rest.within, rest.kept, fun notPending => ?_, rest.pending⟩
          refine List.forall_mem_cons.mpr ⟨fun valid => ?_, rest.settled notPending⟩
          simp only [valid, Bool.not_true, Bool.false_or, Bool.or_eq_true, decide_eq_true_eq] at skipped
          rcases skipped with (isLoaded | isCached) | isVisited
          · exact .inl isLoaded
          · exact .inr (.inl isCached)
          · exact .inr (.inr (rest.kept (within.mem_visited.mp isVisited)))
      · next notSkipped =>
          simp only [Bool.or_eq_true, Bool.not_eq_true', decide_eq_true_eq, not_or,
            Bool.not_eq_false, Bool.not_eq_true] at notSkipped
          obtain ⟨⟨⟨valid, notLoaded⟩, notCached⟩, isNew⟩ := notSkipped
          split
          · next mayFetch =>
              have rest := ih (within.fetch mayFetch candidate valid notLoaded notCached isNew)
                laterCandidates
              have found : fetching.finalQueue ++ [coords] ⊆
                  (scan layer (fetching.fetch coords) queue).1.finalQueue := rest.kept
              refine ⟨rest.within, List.Subset.trans (List.subset_append_left _ _) found,
                fun notPending => ?_, rest.pending⟩
              refine List.forall_mem_cons.mpr ⟨fun _ => .inr (.inr ?_), rest.settled notPending⟩
              exact found (List.mem_append_right _ (List.mem_singleton_self _))
          · next spent =>
              rw [Bool.not_eq_true] at spent
              have unchanged : (scan layer fetching queue).1 = fetching :=
                scan_of_not_mayFetch spent
              rw [unchanged]
              exact ⟨within, List.Subset.refl _, nofun, fun _ => spent⟩

/-!
## Panes
-/

theorem Advanced.mono {isAsked wasAsked : TileCoordData → Prop} {before after : PaneBorder}
    (advanced : Advanced layer shown wasAsked before after)
    (kept : ∀ coords, wasAsked coords → isAsked coords) :
    Advanced layer shown isAsked before after := by
  obtain ⟨steps, isAfter, settled⟩ := advanced
  refine ⟨steps, isAfter, fun step inSteps coords member valid => ?_⟩
  rcases settled step inSteps coords member valid with isLoaded | isCached | isFound
  · exact .inl isLoaded
  · exact .inr (.inl isCached)
  · exact .inr (.inr (kept coords isFound))

/-- One more width before those that follow. -/
theorem Advanced.cons {isAsked : TileCoordData → Prop} {pane after : PaneBorder}
    (settled : ∀ coords ∈ pane.sides layer shown, layer.isValidTile coords = true →
      layer.tiles coords.key = true ∨ layer.tileCache coords.key = true ∨ isAsked coords)
    (advanced : Advanced layer shown isAsked (pane.grow layer) after) :
    Advanced layer shown isAsked pane after := by
  obtain ⟨steps, isAfter, later⟩ := advanced
  refine ⟨steps + 1, by rw [Function.iterate_succ_apply]; exact isAfter, ?_⟩
  intro step inSteps
  cases step with
  | zero => exact settled
  | succ step =>
      rw [Function.iterate_succ_apply]
      exact later step (Nat.lt_of_succ_lt_succ inSteps)

/-- Each pass of the border loop grows the border, or is the last one with tiles to be fetched. -/
theorem fetchPane_spec {width fuel : Nat} {queue : List TileCoordData} {pane : PaneBorder}
    (within : fetching.Within layer shown limit)
    (candidates : ∀ coords ∈ queue, Candidate layer shown coords)
    (enough : width - pane.index < fuel ∨ fetching.mayFetch = false ∧ 0 < fuel) :
    ∃ after pane', fetchPane layer shown width fuel fetching queue pane = some (after, pane') ∧
      after.Within layer shown limit ∧ fetching.finalQueue ⊆ after.finalQueue ∧
      Advanced layer shown (· ∈ after.finalQueue) pane pane' := by
  have stop : Advanced layer shown (· ∈ fetching.finalQueue) pane pane :=
    ⟨0, rfl, fun _ impossible => absurd impossible (Nat.not_lt_zero _)⟩
  induction fuel generalizing fetching queue pane with
  | zero =>
      rcases enough with impossible | ⟨-, impossible⟩ <;> exact absurd impossible (Nat.not_lt_zero _)
  | succ fuel ih =>
      rw [fetchPane]
      split
      · next goesOn =>
          obtain ⟨mayFetch, narrow⟩ := goesOn
          have enoughLeft : width - pane.index < fuel + 1 := by
            rcases enough with enough | ⟨spent, -⟩
            · exact enough
            · rw [spent] at mayFetch
              cases mayFetch
          split
          · exact ⟨fetching, pane, rfl, within, List.Subset.refl _, stop⟩
          · have candidates : ∀ coords ∈ queue ++ pane.sides layer shown,
                Candidate layer shown coords :=
              List.forall_mem_append.mpr ⟨candidates, fun _ => PaneBorder.sides_candidate⟩
            have scanned := scan_scanned within candidates
            dsimp only
            cases result : scan layer fetching (queue ++ pane.sides layer shown) with
            | mk found tilesPending =>
            rw [result] at scanned
            obtain ⟨foundWithin, kept, settled, pending⟩ := scanned
            dsimp only at foundWithin kept settled pending ⊢
            cases tilesPending with
            | true =>
                have spent : found.mayFetch = false ∧ 0 < fuel := ⟨pending rfl, by omega⟩
                obtain ⟨after, pane', isSome, afterWithin, keptAfter, advanced⟩ :=
                  ih foundWithin candidates (.inr spent)
                    ⟨0, rfl, fun _ impossible => absurd impossible (Nat.not_lt_zero _)⟩
                exact ⟨after, pane', isSome, afterWithin, List.Subset.trans kept keptAfter, advanced⟩
            | false =>
                have enoughLater : width - (pane.grow layer).index < fuel := by
                  have grown : (pane.grow layer).index = pane.index + 1 := rfl
                  omega
                obtain ⟨after, pane', isSome, afterWithin, keptAfter, advanced⟩ :=
                  ih foundWithin candidates (.inl enoughLater)
                    ⟨0, rfl, fun _ impossible => absurd impossible (Nat.not_lt_zero _)⟩
                refine ⟨after, pane', isSome, afterWithin, List.Subset.trans kept keptAfter, .cons ?_ advanced⟩
                intro coords member valid
                rcases settled rfl coords (List.mem_append_right _ member) valid with
                  isLoaded | isCached | isFound
                · exact .inl isLoaded
                · exact .inr (.inl isCached)
                · exact .inr (.inr (keptAfter isFound))
      · exact ⟨fetching, pane, rfl, within, List.Subset.refl _, stop⟩

theorem fetchPanes_spec {width fuel : Nat} {panes : List PaneBorder}
    (within : fetching.Within layer shown limit) (enough : width < fuel) :
    ∃ after panes', fetchPanes layer shown width fuel fetching panes = some (after, panes') ∧
      after.Within layer shown limit ∧ fetching.finalQueue ⊆ after.finalQueue ∧
      List.Forall₂ (Advanced layer shown (· ∈ after.finalQueue)) panes panes' := by
  induction panes generalizing fetching with
  | nil => exact ⟨fetching, [], rfl, within, List.Subset.refl _, .nil⟩
  | cons pane panes ih =>
      obtain ⟨found, pane', isSome, foundWithin, kept, advanced⟩ :=
        @fetchPane_spec layer shown limit fetching width fuel [] pane within nofun
          (.inl (Nat.lt_of_le_of_lt (Nat.sub_le _ _) enough))
      obtain ⟨after, panes', restSome, afterWithin, keptAfter, rest⟩ := ih foundWithin
      refine ⟨after, pane' :: panes', ?_, afterWithin, List.Subset.trans kept keptAfter,
        .cons (advanced.mono fun _ isFound => keptAfter isFound) rest⟩
      rw [fetchPanes, isSome]
      dsimp only [bind, Option.bind]
      rw [restSome]
      rfl

end

/-- What the fetcher fetches for is what is shown now. -/
theorem TilesPreFetcher.start_shown {layer : DocLayer} {map : MapView} {forceBorderCalc : Bool}
    {prefetcher : TilesPreFetcher} :
    (prefetcher.start layer map forceBorderCalc).1 = layer.shown map := by
  rw [start]
  split
  · rfl
  · rfl
  · split
    · rfl
    · next isKnown =>
        simp only [Bool.or_eq_true, decide_eq_true_eq, not_or, not_not] at isKnown
        exact isKnown.2

section

variable {layer : DocLayer} {map : MapView} {fuel : Nat}

theorem interests_of_within {limit : Option Nat} {fetching : Fetching}
    (within : fetching.Within layer (layer.shown map) limit) :
    ∀ coords ∈ fetching.finalQueue, layer.interests coords = true := fun coords member =>
  TileLayer.interests_iff.mpr ⟨(within.missing coords member).2,
    (within.candidate coords member).part, (within.candidate coords member).mode⟩

/-- Nothing is asked for an empty queue, so the check for one changes nothing. -/
theorem requestTiles_eq {coordsQueue : List TileCoordData} {requests : List TileCombine}
    (isAdded : layer.addTiles (coordsQueue.length + 1) coordsQueue = some requests) :
    requestTiles layer coordsQueue = some requests := by
  cases coordsQueue with
  | nil => exact isAdded
  | cons coords coordsQueue => exact isAdded

/-- The queue was found within the budget, and its tiles are those asked for. -/
theorem Fetching.Within.fetchesAhead {immediate : Bool} {fetching : Fetching}
    {borders : List PaneBorder} {result : PreFetched}
    (within : fetching.Within layer (layer.shown map) (tileLimit map immediate))
    (areAsked : (asked result.requests).Perm (fetching.finalQueue.map layer.asking))
    (positions : ∀ request ∈ result.requests, request.positions ≠ [])
    (advanced : List.Forall₂ (Advanced layer (layer.shown map) (· ∈ fetching.finalQueue))
      borders result.panes) :
    FetchesAhead layer map immediate (layer.shown map) borders result where
  limited := by
    intro limit isLimit
    have budget := within.budget
    rw [Option.mem_def.mp isLimit] at budget
    obtain ⟨left, -, isSum⟩ := Option.map_eq_some_iff.mp budget.symm
    rw [areAsked.length_eq, List.length_map, ← isSum]
    exact Nat.le_add_left _ _
  distinct := by
    refine areAsked.nodup_iff.mpr (within.distinct.map_on ?_)
    intro coords member other isOther same
    exact asking_injective (within.candidate coords member).aligned
      (within.candidate other isOther).aligned same
  inside := by
    intro tile isAsked
    obtain ⟨coords, member, rfl⟩ := List.mem_map.mp (areAsked.mem_iff.mp isAsked)
    exact ⟨coords, rfl, within.inside coords member, within.missing coords member⟩
  positions := positions
  advanced := advanced.imp fun _ _ paneAdvanced => paneAdvanced.mono fun _ member =>
    areAsked.mem_iff.mpr (List.mem_map_of_mem member)

/-- A call ends. It asks for no more tiles than it may, each once, inside the document and missing, and
a border advances only where no tile of its sides is left. -/
theorem preFetchTiles_fetchesAhead {forceBorderCalc immediate : Bool} {prefetcher : TilesPreFetcher}
    (enough : maxBorderWidth map.editMode < fuel) :
    ∃ result, preFetchTiles fuel layer map forceBorderCalc immediate prefetcher = some result ∧
      ((0 < layer.emptyTilesCount ∧ result.prefetcher = prefetcher ∧ result.requests = []) ∨
        FetchesAhead layer map immediate (layer.shown map)
          (prefetcher.start layer map forceBorderCalc).2 result) := by
  rw [preFetchTiles]
  split
  · next waiting => exact ⟨_, rfl, .inl ⟨waiting, rfl, rfl⟩⟩
  · have isShown := @TilesPreFetcher.start_shown layer map forceBorderCalc prefetcher
    cases starts : prefetcher.start layer map forceBorderCalc with
    | mk shown borders =>
    rw [starts] at isShown
    dsimp only at isShown
    subst isShown
    obtain ⟨fetching, panes, isSome, within, -, advanced⟩ :=
      @fetchPanes_spec layer (layer.shown map) (tileLimit map immediate)
        ⟨[], [], tileLimit map immediate⟩ (maxBorderWidth map.editMode) fuel borders
        (.start _ _ _) enough
    obtain ⟨requests, isAdded, areAsked, positions⟩ :=
      TileLayer.addTiles_of_nodup within.distinct (interests_of_within within)
        (Nat.lt_succ_self fetching.finalQueue.length)
    dsimp only
    rw [isSome]
    dsimp only [bind, Option.bind]
    rw [requestTiles_eq isAdded]
    exact ⟨_, rfl, .inr (within.fetchesAhead areAsked positions advanced)⟩

end

/-- A document of four by four tiles, with nothing but the first tile seen. -/
private def smallDocument : DocLayer :=
  { tileSize := 256, tileWidthTwips := 3840, tileHeightTwips := 3840, selectedPart := 0,
    selectedMode := 0, tileCache := fun _ => false,
    sizePositive := CanvasTileLayer.tileSize_positive,
    widthPositive := CanvasTileLayer.tileTwips_positive,
    heightPositive := CanvasTileLayer.tileTwips_positive, docWidthTwips := 15360,
    docHeightTwips := 15360, tiles := fun _ => false, emptyTilesCount := 0,
    splitPanesContext := none }

private def editing : MapView := ⟨10, true, ⟨⟨0, 0⟩, ⟨100, 100⟩⟩⟩

private def nothingKnown : TilesPreFetcher := ⟨none, none, none, none, none, none, none⟩

theorem preFetchTiles_fetchesAhead_editing :
    ∃ result, preFetchTiles 4 smallDocument editing false false nothingKnown = some result ∧
      ((0 < smallDocument.emptyTilesCount ∧ result.prefetcher = nothingKnown ∧
          result.requests = []) ∨
        FetchesAhead smallDocument editing false (smallDocument.shown editing)
          (nothingKnown.start smallDocument editing false).2 result) :=
  preFetchTiles_fetchesAhead (by decide)

end FreeOnline.Browser.TilePrefetch
