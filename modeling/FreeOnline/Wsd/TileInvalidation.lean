import Mathlib.Data.Int.Range
import FreeOnline.Common.Rectangle
import FreeOnline.Library.Grid
import FreeOnline.Wsd.TileCombinedText

/-!
# Requests for invalidated tiles

When a part of the document has changed, the server asks for the visible tiles on behalf of the
client. The window of a client can be split: the columns and rows of the panes at the left and at
the top are frozen, those of the others are scrolled.
-/

set_option autoImplicit false

namespace FreeOnline.Wsd

open FreeOnline.Common
open FreeOnline.Kit (TileWireId)
open FreeOnline.Library

/-!
## The message
-/

def getNonNegTokenInteger (token name : Text) : Option Int :=
  (getTokenInteger token name).filter (0 ≤ ·)

namespace TileCache

/-- Everything. -/
def wholeRect : Rectangle := .ofSize 0 0 intMax intMax

def readRect (x y width height : Text) : Option Rectangle := do
  let x ← getNonNegTokenInteger x "x".toList
  let y ← getNonNegTokenInteger y "y".toList
  let width ← getNonNegTokenInteger width "width".toList
  let height ← getNonNegTokenInteger height "height".toList
  some (.ofSize x y width height)

/-- The part, the mode and the area that the tokens speak of. -/
def readInvalidateMsg : List Text → Option ((Int × Int) × Rectangle)
  | [_, empty] => if empty = "EMPTY".toList then some ((-1, 0), wholeRect) else none
  | [_, empty, part] =>
      if empty = "EMPTY,".toList then
        (stringToInteger part).map fun part => ((part, 0), wholeRect)
      else none
  | [_, empty, part, mode] =>
      if empty = "EMPTY,".toList then do
        let part ← stringToInteger part
        let mode ← stringToInteger mode
        some ((part, mode), wholeRect)
      else none
  | [_, part, x, y, width, height] => do
      let part ← getTokenInteger part "part".toList
      let rect ← readRect x y width height
      some ((part, 0), rect)
  | [_, part, mode, x, y, width, height] => do
      let part ← getTokenInteger part "part".toList
      let mode ← getTokenInteger mode "mode".toList
      let rect ← readRect x y width height
      some ((part, mode), rect)
  | _ => none

/-- Nothing in front of the document. -/
def Starts (rect : Rectangle) : Prop := 0 ≤ rect.x1 ∧ 0 ≤ rect.y1

theorem starts_readRect {x y width height : Text} {rect : Rectangle}
    (isRead : readRect x y width height = some rect) : Starts rect := by
  simp only [readRect, getNonNegTokenInteger, Option.bind_eq_bind, Option.bind_eq_some_iff,
    Option.filter_eq_some_iff, decide_eq_true_eq] at isRead
  obtain ⟨left, ⟨-, isLeft⟩, top, ⟨-, isTop⟩, width, -, height, -, isRect⟩ := isRead
  cases isRect
  exact ⟨isLeft, isTop⟩

theorem starts_readInvalidateMsg {tokens : List Text} {read : (Int × Int) × Rectangle}
    (isRead : readInvalidateMsg tokens = some read) : Starts read.2 := by
  have whole : Starts wholeRect := ⟨Int.le_refl _, Int.le_refl _⟩
  unfold readInvalidateMsg at isRead
  split at isRead
  · split at isRead
    · cases isRead
      exact whole
    · cases isRead
  · split at isRead
    · obtain ⟨part, -, rfl⟩ := Option.map_eq_some_iff.mp isRead
      exact whole
    · cases isRead
  · split at isRead
    · simp only [Option.bind_eq_bind, Option.bind_eq_some_iff] at isRead
      obtain ⟨part, -, mode, -, isRect⟩ := isRead
      cases isRect
      exact whole
    · cases isRead
  · simp only [Option.bind_eq_bind, Option.bind_eq_some_iff] at isRead
    obtain ⟨part, -, rect, isRect, same⟩ := isRead
    cases same
    exact starts_readRect isRect
  · simp only [Option.bind_eq_bind, Option.bind_eq_some_iff] at isRead
    obtain ⟨part, -, mode, -, rect, isRect, same⟩ := isRead
    cases same
    exact starts_readRect isRect
  · cases isRead

/-- A message that is not understood is about the upper left corner of all parts. -/
def parseInvalidateMsg (tiles : Text) : (Int × Int) × Rectangle :=
  (readInvalidateMsg (tokenize tiles ' ')).getD ((-1, 0), .ofSize 0 0 0 0)

theorem starts_parseInvalidateMsg (tiles : Text) : Starts (parseInvalidateMsg tiles).2 := by
  unfold parseInvalidateMsg
  cases isRead : readInvalidateMsg (tokenize tiles ' ') with
  | none => exact ⟨Int.le_refl _, Int.le_refl _⟩
  | some read => exact starts_readInvalidateMsg isRead

end TileCache

/-!
## The panes
-/

inductive SplitPaneName where
  | topLeft
  | topRight
  | bottomLeft
  | bottomRight
deriving DecidableEq

/-- What a session knows of the window of its client, and of the tiles it was sent. -/
structure ClientView where
  canonicalViewId : Int
  clientVisibleArea : Rectangle
  splitX : Int
  splitY : Int
  clientSelectedPart : Int
  clientSelectedMode : Int
  tileWidthPixel : Int
  tileHeightPixel : Int
  tileWidthTwips : Int
  tileHeightTwips : Int
  isTextDocument : Bool
  isCloseFrame : Bool
  oldWireIds : TileId → Option TileWireId

namespace ClientView

def isSplitPane (view : ClientView) : SplitPaneName → Bool
  | .bottomRight => true
  | .topLeft => view.splitX ≠ 0 && view.splitY ≠ 0
  | .topRight => view.splitY ≠ 0
  | .bottomLeft => view.splitX ≠ 0

def getNormalizedVisibleArea (view : ClientView) : Rectangle where
  x1 := max view.clientVisibleArea.x1 0
  y1 := max view.clientVisibleArea.y1 0
  x2 := view.clientVisibleArea.x2
  y2 := view.clientVisibleArea.y2

def getNormalizedVisiblePaneArea (view : ClientView) (paneName : SplitPaneName) : Rectangle :=
  let area := view.getNormalizedVisibleArea
  if view.splitX = 0 ∧ view.splitY = 0 then
    if paneName = .bottomRight then area else .empty
  else
    let freeStartX := area.x1 + view.splitX
    let freeStartY := area.y1 + view.splitY
    let freeWidth := area.getWidth - view.splitX
    let freeHeight := area.getHeight - view.splitY
    match paneName with
    | .bottomRight => .ofSize freeStartX freeStartY freeWidth freeHeight
    | .topLeft =>
        if view.splitX ≠ 0 ∧ view.splitY ≠ 0 then .ofSize 0 0 view.splitX view.splitY else .empty
    | .topRight =>
        if view.splitY ≠ 0 then .ofSize freeStartX 0 freeWidth view.splitY else .empty
    | .bottomLeft =>
        if view.splitX ≠ 0 then .ofSize 0 freeStartY view.splitX freeHeight else .empty

/-- The areas of the panes that show something of the rectangle. -/
def paneRects (view : ClientView) (invalidateRect : Rectangle) : List Rectangle :=
  let panes := [SplitPaneName.topLeft, .topRight, .bottomLeft, .bottomRight]
  ((panes.filter view.isSplitPane).map view.getNormalizedVisiblePaneArea).filter
    (·.intersects invalidateRect)

/-!
## The tiles
-/

/-- The columns and rows of the tiles of an area. (Rounding up what is already an int does
nothing.) -/
def cells (view : ClientView) (area : Rectangle) : List (Int × Int) :=
  let between := fun first last size : Int => Int.range (first.tdiv size) (last.tdiv size + 1)
  (between area.y1 area.y2 view.tileHeightTwips).flatMap fun i =>
    (between area.x1 area.x2 view.tileWidthTwips).map fun j => (j, i)

def tileRect (view : ClientView) (cell : Int × Int) : Rectangle :=
  .ofSize (cell.1 * view.tileWidthTwips) (cell.2 * view.tileHeightTwips) view.tileWidthTwips
    view.tileHeightTwips

def tileDesc (view : ClientView) (part mode : Int) (cell : Int × Int) : Option TileDesc :=
  TileDesc.create? view.canonicalViewId part mode view.tileWidthPixel view.tileHeightPixel
    (cell.1 * view.tileWidthTwips) (cell.2 * view.tileHeightTwips) view.tileWidthTwips
    view.tileHeightTwips (-1) 0 (-1) false 0 0

def setWireIds (view : ClientView) (desc : TileDesc) : TileDesc :=
  (desc.setOldWireId ((view.oldWireIds desc.generateID).getD 0)).setWireId 0

/-- The tile is added if the invalidation affects it and it is no duplicate. -/
def addTile (view : ClientView) (part mode : Int) (invalidateRect : Rectangle)
    (invalidTiles : List TileDesc) (cell : Int × Int) : Option (List TileDesc) :=
  if invalidateRect.intersects (view.tileRect cell) then
    (view.tileDesc part mode cell).map fun desc =>
      if invalidTiles.any fun it => it.beq desc then invalidTiles
      else invalidTiles ++ [view.setWireIds desc]
  else some invalidTiles

def invalidTiles (view : ClientView) (part mode : Int) (invalidateRect : Rectangle) :
    Option (List TileDesc) :=
  ((view.paneRects invalidateRect).flatMap view.cells).foldlM
    (view.addTile part mode invalidateRect) []

/-- The combined request for the tiles, if there are any. -/
def requestFor : List TileDesc → Option TileCombined
  | [] => none
  | first :: rest => some (.create first rest)

/-- The request that is handed to the document broker, if there is one, unless there is an
exception. (The view id that is set in the end is that of the tiles.) -/
def handleTileInvalidation (view : ClientView) (message : Text) : Option (Option TileCombined) :=
  if !view.clientVisibleArea.hasSurface ∨ view.tileWidthPixel = 0 ∨ view.tileHeightPixel = 0 ∨
      view.tileWidthTwips = 0 ∨ view.tileHeightTwips = 0 ∨
      view.clientSelectedPart = -1 ∧ view.isTextDocument = false then some none
  else if view.isCloseFrame then some none
  else
    let ((part, mode), invalidateRect) := TileCache.parseInvalidateMsg message
    if view.paneRects invalidateRect = [] then some none
    else
      let part := if part = -1 then view.clientSelectedPart else part
      if part = view.clientSelectedPart ∧ mode = view.clientSelectedMode ∨
          view.isTextDocument = true then
        (view.invalidTiles part mode invalidateRect).map requestFor
      else some none

end ClientView

/-!
## What the panes show
-/

/-- The columns, or the rows, of a pane: those at the beginning of the document, or those that
are scrolled. -/
inductive Strip where
  | frozen
  | free

namespace Strip

def first (split start : Int) : Strip → Int
  | .frozen => 0
  | .free => start + split

def last (split stop : Int) : Strip → Int
  | .frozen => split
  | .free => stop

/-- At an offset in a window of that size, which is scrolled to its start, the strip shows the
point of the document. -/
def Shows (split start size offset point : Int) : Strip → Prop
  | .frozen => (0 ≤ offset ∧ offset ≤ split) ∧ point = offset
  | .free => (split ≤ offset ∧ offset ≤ size) ∧ point = start + offset

theorem shows_iff {split start stop point : Int} (strip : Strip) :
    (∃ offset, strip.Shows split start (stop - start) offset point) ↔
      strip.first split start ≤ point ∧ point ≤ strip.last split stop := by
  cases strip with
  | frozen =>
      constructor
      · rintro ⟨offset, inStrip, rfl⟩
        exact inStrip
      · intro inStrip
        exact ⟨point, inStrip, rfl⟩
  | free =>
      constructor
      · rintro ⟨offset, ⟨lower, upper⟩, rfl⟩
        exact ⟨Int.add_le_add_left lower start, Int.add_le_of_le_sub_left upper⟩
      · rintro ⟨lower, upper⟩
        exact ⟨point - start, ⟨Int.le_sub_left_of_add_le lower, Int.sub_le_sub_right upper start⟩,
          (add_sub_cancel start point).symm⟩

end Strip

namespace SplitPaneName

def columns : SplitPaneName → Strip
  | .topLeft | .bottomLeft => .frozen
  | .topRight | .bottomRight => .free

def rows : SplitPaneName → Strip
  | .topLeft | .topRight => .frozen
  | .bottomLeft | .bottomRight => .free

end SplitPaneName

namespace ClientView

variable {view : ClientView} {pane : SplitPaneName}

theorem isSplitPane_unsplit (unsplit : view.splitX = 0 ∧ view.splitY = 0)
    (isSplit : view.isSplitPane pane = true) : pane = .bottomRight := by
  cases pane with
  | bottomRight => rfl
  | topLeft | topRight | bottomLeft => simp [isSplitPane, unsplit] at isSplit

theorem getNormalizedVisiblePaneArea_eq (isSplit : view.isSplitPane pane = true) :
    let area := view.getNormalizedVisibleArea
    view.getNormalizedVisiblePaneArea pane =
      ⟨pane.columns.first view.splitX area.x1, pane.rows.first view.splitY area.y1,
        pane.columns.last view.splitX area.x2, pane.rows.last view.splitY area.y2⟩ := by
  unfold getNormalizedVisiblePaneArea
  generalize view.getNormalizedVisibleArea = area
  by_cases unsplit : view.splitX = 0 ∧ view.splitY = 0
  · cases isSplitPane_unsplit unsplit isSplit
    simp only [unsplit, and_self, ↓reduceIte, SplitPaneName.columns, SplitPaneName.rows,
      Strip.first, Strip.last, Int.add_zero]
  · have stop (start stop split : Int) : start + split + (stop - start - split) = stop := by ring
    simp only [if_neg unsplit]
    cases pane with
    | bottomRight =>
        simp only [Rectangle.ofSize, Rectangle.getWidth, Rectangle.getHeight, stop]
        rfl
    | topLeft =>
        simp only [isSplitPane, Bool.and_eq_true, decide_eq_true_eq] at isSplit
        simp only [if_pos isSplit, Rectangle.ofSize, Int.zero_add]
        rfl
    | topRight =>
        simp only [isSplitPane, decide_eq_true_eq] at isSplit
        simp only [if_pos isSplit, Rectangle.ofSize, Rectangle.getWidth, stop, Int.zero_add]
        rfl
    | bottomLeft =>
        simp only [isSplitPane, decide_eq_true_eq] at isSplit
        simp only [if_pos isSplit, Rectangle.ofSize, Rectangle.getHeight, stop, Int.zero_add]
        rfl

/-- The area of a pane is what its columns and rows show of the document. -/
theorem has_getNormalizedVisiblePaneArea (isSplit : view.isSplitPane pane = true) {px py : Int} :
    let area := view.getNormalizedVisibleArea
    (view.getNormalizedVisiblePaneArea pane).Has px py ↔
      (∃ offset, pane.columns.Shows view.splitX area.x1 area.getWidth offset px) ∧
        ∃ offset, pane.rows.Shows view.splitY area.y1 area.getHeight offset py := by
  dsimp only
  rw [getNormalizedVisiblePaneArea_eq isSplit, Rectangle.getWidth, Rectangle.getHeight,
    Strip.shows_iff, Strip.shows_iff]
  exact Iff.rfl

/-- No pane begins in front of the document, unless a split does. -/
theorem starts_getNormalizedVisiblePaneArea (splitX : 0 ≤ view.splitX) (splitY : 0 ≤ view.splitY)
    (isSplit : view.isSplitPane pane = true) :
    TileCache.Starts (view.getNormalizedVisiblePaneArea pane) := by
  have first {split start : Int} (nonneg : 0 ≤ split) (starts : 0 ≤ start) (strip : Strip) :
      0 ≤ strip.first split start := by
    cases strip with
    | frozen => exact Int.le_refl _
    | free => exact Int.add_nonneg starts nonneg
  rw [getNormalizedVisiblePaneArea_eq isSplit]
  exact ⟨first splitX (le_max_right _ _) _, first splitY (le_max_right _ _) _⟩

theorem mem_paneRects {invalidateRect area : Rectangle} :
    area ∈ view.paneRects invalidateRect ↔ ∃ pane, view.isSplitPane pane = true ∧
      view.getNormalizedVisiblePaneArea pane = area ∧ area.intersects invalidateRect = true := by
  have all (pane : SplitPaneName) :
      pane ∈ [SplitPaneName.topLeft, .topRight, .bottomLeft, .bottomRight] := by
    cases pane <;> decide
  simp only [paneRects, List.mem_filter, List.mem_map, all, true_and]
  constructor
  · rintro ⟨⟨pane, isSplit, isArea⟩, meets⟩
    exact ⟨pane, isSplit, isArea, meets⟩
  · rintro ⟨pane, isSplit, isArea, meets⟩
    exact ⟨⟨pane, isSplit, isArea⟩, meets⟩

/-!
## What is collected
-/

/-- Sizes of tiles as a client has them. -/
structure HasTileSizes (view : ClientView) : Prop where
  widthPixel : 0 < view.tileWidthPixel
  heightPixel : 0 < view.tileHeightPixel
  widthTwips : 0 < view.tileWidthTwips
  heightTwips : 0 < view.tileHeightTwips

/-- The tile at this column and row has the point. -/
def InTile (view : ClientView) (cell : Int × Int) (px py : Int) : Prop :=
  InCell view.tileWidthTwips cell.1 px ∧ InCell view.tileHeightTwips cell.2 py

variable {part mode : Int} {invalidateRect area : Rectangle} {cell : Int × Int}

theorem mem_cells : cell ∈ view.cells area ↔
    (area.x1.tdiv view.tileWidthTwips ≤ cell.1 ∧ cell.1 ≤ area.x2.tdiv view.tileWidthTwips) ∧
      area.y1.tdiv view.tileHeightTwips ≤ cell.2 ∧ cell.2 ≤ area.y2.tdiv view.tileHeightTwips := by
  obtain ⟨j, i⟩ := cell
  simp only [cells, List.mem_flatMap, List.mem_map, Int.mem_range_iff, Int.lt_add_one_iff,
    Prod.mk.injEq]
  constructor
  · rintro ⟨_, row, _, column, rfl, rfl⟩
    exact ⟨column, row⟩
  · rintro ⟨column, row⟩
    exact ⟨i, row, j, column, rfl, rfl⟩

/-- The tiles that are looked at have a point of the area in common. -/
theorem mem_cells_iff (sizes : view.HasTileSizes) (meets : area.intersects invalidateRect = true)
    (starts : TileCache.Starts invalidateRect) (column : 0 ≤ cell.1) (row : 0 ≤ cell.2) :
    cell ∈ view.cells area ↔ ∃ px py, view.InTile cell px py ∧ area.Has px py := by
  obtain ⟨px, py, ⟨⟨left, right⟩, top, bottom⟩, ⟨otherLeft, -⟩, otherTop, -⟩ :=
    Rectangle.intersects_iff.mp meets
  rw [mem_cells,
    ← InCell.meets_iff_tdiv sizes.widthTwips (Int.le_trans left right)
      (Int.le_trans (Int.le_trans starts.1 otherLeft) right) column,
    ← InCell.meets_iff_tdiv sizes.heightTwips (Int.le_trans top bottom)
      (Int.le_trans (Int.le_trans starts.2 otherTop) bottom) row]
  constructor
  · rintro ⟨⟨px, inColumn, inWidth⟩, py, inRow, inHeight⟩
    exact ⟨px, py, ⟨inColumn, inRow⟩, inWidth, inHeight⟩
  · rintro ⟨px, py, ⟨inColumn, inRow⟩, inWidth, inHeight⟩
    exact ⟨⟨px, inColumn, inWidth⟩, py, inRow, inHeight⟩

/-- What there is to know of the tile of a cell. -/
structure IsTile (view : ClientView) (part mode : Int) (cell : Int × Int) (desc : TileDesc) :
    Prop where
  header : desc.header = ⟨view.canonicalViewId, part, mode, view.tileWidthPixel,
    view.tileHeightPixel, view.tileWidthTwips, view.tileHeightTwips⟩
  position : TileCombined.position desc =
    (cell.1 * view.tileWidthTwips, cell.2 * view.tileHeightTwips)
  version : desc.ver = -1
  imgSize : desc.imgSize = 0
  id : desc.id = -1
  broadcast : desc.broadcast = false

theorem isTile_of_tileDesc {desc : TileDesc} (isDesc : view.tileDesc part mode cell = some desc) :
    view.IsTile part mode cell desc := by
  unfold tileDesc TileDesc.create? at isDesc
  split at isDesc
  · cases isDesc
    exact ⟨rfl, rfl, rfl, rfl, rfl, rfl⟩
  · cases isDesc

theorem isTile_setWireIds {desc : TileDesc} (isTile : view.IsTile part mode cell desc) :
    view.IsTile part mode cell (view.setWireIds desc) :=
  ⟨isTile.header, isTile.position, isTile.version, isTile.imgSize, isTile.id, isTile.broadcast⟩

theorem IsTile.cell_eq (sizes : view.HasTileSizes) {other : Int × Int} {desc tile : TileDesc}
    (isDesc : view.IsTile part mode cell desc) (isTile : view.IsTile part mode other tile)
    (same : TileCombined.position desc = TileCombined.position tile) : cell = other := by
  rw [isDesc.position, isTile.position, Prod.mk.injEq] at same
  exact Prod.ext (Int.eq_of_mul_eq_mul_right (Int.ne_of_gt sizes.widthTwips) same.1)
    (Int.eq_of_mul_eq_mul_right (Int.ne_of_gt sizes.heightTwips) same.2)

/-- Duplicates are tiles at the same position. -/
theorem IsTile.beq_iff {other : Int × Int} {desc tile : TileDesc}
    (isDesc : view.IsTile part mode cell desc) (isTile : view.IsTile part mode other tile) :
    tile.beq desc = true ↔ TileCombined.position tile = TileCombined.position desc := by
  have sameHeader : tile.header = desc.header := isTile.header.trans isDesc.header.symm
  simp only [TileDesc.header, TileHeader.mk.injEq] at sameHeader
  simp only [TileDesc.beq_iff, TileDesc.cacheKey, TileKey.mk.injEq, sameHeader, isDesc.id, isTile.id,
    isDesc.broadcast, isTile.broadcast, TileCombined.position, Prod.mk.injEq, true_and, and_true]

/-- The tiles that were collected are those of the cells that have been looked at. -/
structure Collected (view : ClientView) (part mode : Int) (invalidateRect : Rectangle)
    (seen : List (Int × Int)) (tiles : List TileDesc) : Prop where
  distinct : (tiles.map TileCombined.position).Nodup
  ofCell : ∀ tile ∈ tiles, ∃ cell ∈ seen, invalidateRect.intersects (view.tileRect cell) = true ∧
    ∃ desc, view.tileDesc part mode cell = some desc ∧ view.setWireIds desc = tile
  ofEach : ∀ cell ∈ seen, invalidateRect.intersects (view.tileRect cell) = true →
    ∃ desc, view.tileDesc part mode cell = some desc ∧ view.setWireIds desc ∈ tiles

variable {seen : List (Int × Int)} {tiles after : List TileDesc}

theorem Collected.isTile (collected : Collected view part mode invalidateRect seen tiles)
    {tile : TileDesc} (member : tile ∈ tiles) :
    ∃ cell ∈ seen, invalidateRect.intersects (view.tileRect cell) = true ∧
      view.IsTile part mode cell tile := by
  obtain ⟨cell, isSeen, meets, desc, isDesc, rfl⟩ := collected.ofCell tile member
  exact ⟨cell, isSeen, meets, isTile_setWireIds (isTile_of_tileDesc isDesc)⟩

theorem collected_nil : Collected view part mode invalidateRect [] [] where
  distinct := List.nodup_nil
  ofCell := fun _ member => absurd member List.not_mem_nil
  ofEach := fun _ member => absurd member List.not_mem_nil

/-- Nothing is added for a cell whose tile is there. -/
theorem Collected.skip (collected : Collected view part mode invalidateRect seen tiles)
    (known : invalidateRect.intersects (view.tileRect cell) = true →
      ∃ desc, view.tileDesc part mode cell = some desc ∧ view.setWireIds desc ∈ tiles) :
    Collected view part mode invalidateRect (seen ++ [cell]) tiles where
  distinct := collected.distinct
  ofCell := by
    intro tile member
    obtain ⟨other, isSeen, isTile⟩ := collected.ofCell tile member
    exact ⟨other, List.mem_append_left _ isSeen, isTile⟩
  ofEach := by
    intro other isSeen meets
    cases List.mem_append.mp isSeen with
    | inl isSeen => exact collected.ofEach other isSeen meets
    | inr isLast =>
        cases List.mem_singleton.mp isLast
        exact known meets

theorem Collected.push (collected : Collected view part mode invalidateRect seen tiles)
    (meets : invalidateRect.intersects (view.tileRect cell) = true) {desc : TileDesc}
    (isDesc : view.tileDesc part mode cell = some desc)
    (isNew : ∀ tile ∈ tiles, ¬tile.beq desc = true) :
    Collected view part mode invalidateRect (seen ++ [cell]) (tiles ++ [view.setWireIds desc]) where
  distinct := by
    have isTile := isTile_of_tileDesc isDesc
    rw [List.map_append, List.nodup_append]
    refine ⟨collected.distinct, List.nodup_singleton _, ?_⟩
    intro position isOld new isLast same
    obtain ⟨tile, member, rfl⟩ := List.mem_map.mp isOld
    obtain ⟨other, -, -, isOther⟩ := collected.isTile member
    refine isNew tile member ((isTile.beq_iff isOther).mpr ?_)
    rw [same, List.mem_singleton.mp isLast]
    rfl
  ofCell := by
    intro tile member
    cases List.mem_append.mp member with
    | inl isOld =>
        obtain ⟨other, isSeen, isTile⟩ := collected.ofCell tile isOld
        exact ⟨other, List.mem_append_left _ isSeen, isTile⟩
    | inr isLast =>
        exact ⟨cell, List.mem_append_right _ (List.mem_singleton.mpr rfl), meets, desc, isDesc,
          (List.mem_singleton.mp isLast).symm⟩
  ofEach := by
    intro other isSeen otherMeets
    cases List.mem_append.mp isSeen with
    | inl isSeen =>
        obtain ⟨found, isFound, member⟩ := collected.ofEach other isSeen otherMeets
        exact ⟨found, isFound, List.mem_append_left _ member⟩
    | inr isLast =>
        cases List.mem_singleton.mp isLast
        exact ⟨desc, isDesc, List.mem_append_right _ (List.mem_singleton.mpr rfl)⟩

theorem Collected.addTile (sizes : view.HasTileSizes)
    (collected : Collected view part mode invalidateRect seen tiles)
    (added : view.addTile part mode invalidateRect tiles cell = some after) :
    Collected view part mode invalidateRect (seen ++ [cell]) after := by
  unfold ClientView.addTile at added
  split at added
  · next meets =>
      obtain ⟨desc, isDesc, isAfter⟩ := Option.map_eq_some_iff.mp added
      split at isAfter
      · next isDuplicate =>
          cases isAfter
          obtain ⟨old, isOld, same⟩ := List.any_eq_true.mp isDuplicate
          obtain ⟨other, isSeen, otherMeets, found, isFound, rfl⟩ := collected.ofCell old isOld
          have isTile := isTile_of_tileDesc isDesc
          have isOther := isTile_setWireIds (isTile_of_tileDesc isFound)
          cases IsTile.cell_eq sizes isOther isTile ((isTile.beq_iff isOther).mp same)
          exact collected.skip fun _ => ⟨found, isFound, isOld⟩
      · next isNew =>
          cases isAfter
          exact collected.push meets isDesc fun tile member same =>
            isNew (List.any_eq_true.mpr ⟨tile, member, same⟩)
  · next apart =>
      cases added
      exact collected.skip fun meets => absurd meets apart

theorem Collected.foldlM (sizes : view.HasTileSizes) {cells : List (Int × Int)}
    (collected : Collected view part mode invalidateRect seen tiles)
    (areAdded : cells.foldlM (view.addTile part mode invalidateRect) tiles = some after) :
    Collected view part mode invalidateRect (seen ++ cells) after := by
  induction cells generalizing seen tiles with
  | nil =>
      cases areAdded
      rw [List.append_nil]
      exact collected
  | cons cell cells ih =>
      rw [List.foldlM_cons, Option.bind_eq_bind, Option.bind_eq_some_iff] at areAdded
      obtain ⟨next, isAdded, areAdded⟩ := areAdded
      have all := ih (collected.addTile sizes isAdded) areAdded
      rw [List.append_assoc] at all
      exact all

/-- There is no exception if every cell has a tile. -/
theorem foldlM_isSome {cells : List (Int × Int)}
    (areTiles : ∀ cell ∈ cells, (view.tileDesc part mode cell).isSome = true) :
    ∃ after, cells.foldlM (view.addTile part mode invalidateRect) tiles = some after := by
  induction cells generalizing tiles with
  | nil => exact ⟨tiles, rfl⟩
  | cons cell cells ih =>
      obtain ⟨isTile, areTiles⟩ := List.forall_mem_cons.mp areTiles
      obtain ⟨desc, isDesc⟩ := Option.isSome_iff_exists.mp isTile
      have isAdded : ∃ next, view.addTile part mode invalidateRect tiles cell = some next := by
        unfold ClientView.addTile
        rw [isDesc]
        split
        · exact ⟨_, rfl⟩
        · exact ⟨_, rfl⟩
      obtain ⟨next, isAdded⟩ := isAdded
      rw [List.foldlM_cons, isAdded]
      exact ih areTiles

/-!
## What is requested
-/

def requestedTiles : Option TileCombined → List TileDesc
  | none => []
  | some request => request.tiles

def positions (request : Option TileCombined) : List (Int × Int) :=
  (requestedTiles request).map TileCombined.position

def tilePosition (view : ClientView) (cell : Int × Int) : Int × Int :=
  (cell.1 * view.tileWidthTwips, cell.2 * view.tileHeightTwips)

theorem positions_requestFor (tiles : List TileDesc) :
    positions (requestFor tiles) = tiles.map TileCombined.position := by
  cases tiles with
  | nil => rfl
  | cons first rest =>
      simp only [positions, requestedTiles, requestFor, TileCombined.create, List.map_map]
      rfl

theorem header_requestFor {header : TileHeader} (uniform : ∀ tile ∈ tiles, tile.header = header) :
    ∀ tile ∈ requestedTiles (requestFor tiles), tile.header = header := by
  intro tile member
  cases tiles with
  | nil => exact absurd member List.not_mem_nil
  | cons first rest =>
      exact ((TileCombined.create first rest).uniform tile member).trans
        (uniform first List.mem_cons_self)

/-- Invalidations are of interest at all: the client has told what it sees, and is still there. -/
structure Listens (view : ClientView) : Prop where
  hasSurface : view.clientVisibleArea.hasSurface = true
  hasPart : view.clientSelectedPart = -1 → view.isTextDocument = true
  isOpen : view.isCloseFrame = false

/-- An invalidation of this part and mode is about what the client shows. -/
def Concerns (view : ClientView) (part mode : Int) : Prop :=
  (part = -1 ∨ part = view.clientSelectedPart) ∧ mode = view.clientSelectedMode ∨
    view.isTextDocument = true

/-- The part of an invalidation of all parts is the one of the client. -/
def shownPart (view : ClientView) (part : Int) : Int :=
  if part = -1 then view.clientSelectedPart else part

theorem concerns_iff : view.Concerns part mode ↔
    view.shownPart part = view.clientSelectedPart ∧ mode = view.clientSelectedMode ∨
      view.isTextDocument = true := by
  unfold Concerns shownPart
  by_cases all : part = -1
  · simp only [all, true_or, ↓reduceIte]
  · simp only [all, false_or, ↓reduceIte]

/-- The tile is affected, and is seen in a pane that shows something of the invalidated area. -/
structure Affected (view : ClientView) (invalidateRect : Rectangle) (cell : Int × Int) : Prop where
  column : 0 ≤ cell.1
  row : 0 ≤ cell.2
  meets : invalidateRect.intersects (view.tileRect cell) = true
  inPane : ∃ pane, view.isSplitPane pane = true ∧
    (view.getNormalizedVisiblePaneArea pane).intersects invalidateRect = true ∧
    ∃ px py, view.InTile cell px py ∧ (view.getNormalizedVisiblePaneArea pane).Has px py

theorem mem_flatMap_cells (sizes : view.HasTileSizes) (starts : TileCache.Starts invalidateRect)
    (column : 0 ≤ cell.1) (row : 0 ≤ cell.2) :
    cell ∈ (view.paneRects invalidateRect).flatMap view.cells ↔
      ∃ pane, view.isSplitPane pane = true ∧
        (view.getNormalizedVisiblePaneArea pane).intersects invalidateRect = true ∧
        ∃ px py, view.InTile cell px py ∧ (view.getNormalizedVisiblePaneArea pane).Has px py := by
  rw [List.mem_flatMap]
  constructor
  · rintro ⟨area, isArea, isCell⟩
    obtain ⟨pane, isSplit, rfl, meets⟩ := mem_paneRects.mp isArea
    exact ⟨pane, isSplit, meets, (mem_cells_iff sizes meets starts column row).mp isCell⟩
  · rintro ⟨pane, isSplit, meets, inPane⟩
    exact ⟨_, mem_paneRects.mpr ⟨pane, isSplit, rfl, meets⟩,
      (mem_cells_iff sizes meets starts column row).mpr inPane⟩

/-- The constructor of a tile throws in front of the document. -/
theorem nonneg_of_tileDesc (sizes : view.HasTileSizes) {desc : TileDesc}
    (isDesc : view.tileDesc part mode cell = some desc) : 0 ≤ cell.1 ∧ 0 ≤ cell.2 := by
  have isPosition := (isTile_of_tileDesc isDesc).position
  obtain ⟨-, -, -, -, -, posX, posY, -⟩ := desc.valid
  rw [TileCombined.position, Prod.mk.injEq] at isPosition
  rw [isPosition.1] at posX
  rw [isPosition.2] at posY
  exact ⟨Int.nonneg_of_mul_nonneg_left posX sizes.widthTwips,
    Int.nonneg_of_mul_nonneg_left posY sizes.heightTwips⟩

theorem mem_invalidTiles (sizes : view.HasTileSizes) (starts : TileCache.Starts invalidateRect)
    (areTiles : view.invalidTiles part mode invalidateRect = some tiles) {position : Int × Int} :
    position ∈ tiles.map TileCombined.position ↔
      ∃ cell, view.Affected invalidateRect cell ∧ position = view.tilePosition cell := by
  have collected := collected_nil.foldlM sizes areTiles
  rw [List.nil_append] at collected
  constructor
  · intro member
    obtain ⟨tile, isTile, rfl⟩ := List.mem_map.mp member
    obtain ⟨cell, isCell, meets, desc, isDesc, rfl⟩ := collected.ofCell tile isTile
    obtain ⟨column, row⟩ := nonneg_of_tileDesc sizes isDesc
    have inPane := (mem_flatMap_cells sizes starts column row).mp isCell
    exact ⟨cell, ⟨column, row, meets, inPane⟩, (isTile_of_tileDesc isDesc).position⟩
  · rintro ⟨cell, affected, rfl⟩
    have isCell := (mem_flatMap_cells sizes starts affected.column affected.row).mpr affected.inPane
    obtain ⟨desc, isDesc, member⟩ := collected.ofEach cell isCell affected.meets
    exact List.mem_map.mpr ⟨_, member, (isTile_of_tileDesc isDesc).position⟩

/-- There is no exception unless a number is in front of 0. -/
theorem invalidTiles_isSome (sizes : view.HasTileSizes) (viewId : 0 ≤ view.canonicalViewId)
    (hasPart : 0 ≤ part) (hasMode : 0 ≤ mode) (splitX : 0 ≤ view.splitX) (splitY : 0 ≤ view.splitY) :
    ∃ tiles, view.invalidTiles part mode invalidateRect = some tiles := by
  refine foldlM_isSome fun cell isCell => ?_
  obtain ⟨area, isArea, isCell⟩ := List.mem_flatMap.mp isCell
  obtain ⟨pane, isSplit, rfl, -⟩ := mem_paneRects.mp isArea
  obtain ⟨left, top⟩ := starts_getNormalizedVisiblePaneArea splitX splitY isSplit
  obtain ⟨⟨column, -⟩, row, -⟩ := mem_cells.mp isCell
  have width := Int.le_of_lt sizes.widthTwips
  have height := Int.le_of_lt sizes.heightTwips
  have posX := Int.mul_nonneg (Int.le_trans (Int.tdiv_nonneg left width) column) width
  have posY := Int.mul_nonneg (Int.le_trans (Int.tdiv_nonneg top height) row) height
  unfold tileDesc TileDesc.create?
  rw [dif_pos ⟨viewId, hasPart, hasMode, sizes.widthPixel, sizes.heightPixel, posX, posY,
    sizes.widthTwips, sizes.heightTwips, Int.le_refl 0⟩]
  rfl

/-- The checks in front. -/
theorem listens_iff (sizes : view.HasTileSizes) : view.Listens ↔
    ¬((!view.clientVisibleArea.hasSurface) = true ∨ view.tileWidthPixel = 0 ∨
      view.tileHeightPixel = 0 ∨ view.tileWidthTwips = 0 ∨ view.tileHeightTwips = 0 ∨
      view.clientSelectedPart = -1 ∧ view.isTextDocument = false) ∧ ¬view.isCloseFrame = true := by
  have widthPixel := Int.ne_of_gt sizes.widthPixel
  have heightPixel := Int.ne_of_gt sizes.heightPixel
  have widthTwips := Int.ne_of_gt sizes.widthTwips
  have heightTwips := Int.ne_of_gt sizes.heightTwips
  simp only [Bool.not_eq_true', widthPixel, heightPixel, widthTwips, heightTwips, false_or, not_or,
    Bool.not_eq_false, not_and, Bool.not_eq_true]
  constructor
  · exact fun listens => ⟨⟨listens.hasSurface, listens.hasPart⟩, listens.isOpen⟩
  · exact fun ⟨⟨hasSurface, hasPart⟩, isOpen⟩ => ⟨hasSurface, hasPart, isOpen⟩

/-- Either the tiles are collected, or there is nothing to collect. -/
theorem handleTileInvalidation_cases (sizes : view.HasTileSizes) (message : Text) :
    let read := TileCache.parseInvalidateMsg message
    (view.Listens ∧ view.Concerns read.1.1 read.1.2 ∧ view.handleTileInvalidation message =
      (view.invalidTiles (view.shownPart read.1.1) read.1.2 read.2).map requestFor) ∨
    view.handleTileInvalidation message = some none ∧
      ∀ cell, ¬(view.Listens ∧ view.Concerns read.1.1 read.1.2 ∧ view.Affected read.2 cell) := by
  unfold handleTileInvalidation
  dsimp only
  generalize TileCache.parseInvalidateMsg message = read
  obtain ⟨⟨part, mode⟩, invalidateRect⟩ := read
  split
  · next silent =>
      exact .inr ⟨rfl, fun cell affected => ((listens_iff sizes).mp affected.1).1 silent⟩
  · next notSilent =>
      split
      · next isClosed =>
          exact .inr ⟨rfl, fun cell affected => ((listens_iff sizes).mp affected.1).2 isClosed⟩
      · next isOpen =>
          split
          · next noPane =>
              refine .inr ⟨rfl, fun cell ⟨_, _, affected⟩ => ?_⟩
              obtain ⟨pane, isSplit, meets, -⟩ := affected.inPane
              have isPane := mem_paneRects.mpr ⟨pane, isSplit, rfl, meets⟩
              rw [noPane] at isPane
              cases isPane
          · by_cases concerns : view.Concerns part mode
            · have listens := (listens_iff sizes).mpr ⟨notSilent, isOpen⟩
              exact .inl ⟨listens, concerns, if_pos (concerns_iff.mp concerns)⟩
            · exact .inr ⟨if_neg fun shown => concerns (concerns_iff.mpr shown),
                fun cell affected => concerns affected.2.1⟩

/-- What is requested for an invalidation are the tiles that are affected, each once, if the client
listens and shows the part and the mode, and the areas of the panes are what the panes show. -/
theorem requests_affected (sizes : view.HasTileSizes) (message : Text) :
    let read := TileCache.parseInvalidateMsg message
    (0 ≤ view.canonicalViewId → 0 ≤ view.shownPart read.1.1 → 0 ≤ read.1.2 → 0 ≤ view.splitX →
      0 ≤ view.splitY → ∃ request, view.handleTileInvalidation message = some request) ∧
    (∀ request, view.handleTileInvalidation message = some request →
      (positions request).Nodup ∧
      (∀ tile ∈ requestedTiles request, tile.header = ⟨view.canonicalViewId,
        view.shownPart read.1.1, read.1.2, view.tileWidthPixel, view.tileHeightPixel,
        view.tileWidthTwips, view.tileHeightTwips⟩) ∧
      ∀ position, position ∈ positions request ↔
        ∃ cell, (view.Listens ∧ view.Concerns read.1.1 read.1.2 ∧ view.Affected read.2 cell) ∧
          position = view.tilePosition cell) ∧
    ∀ pane, view.isSplitPane pane = true → ∀ px py,
      (view.getNormalizedVisiblePaneArea pane).Has px py ↔
        (∃ offset, pane.columns.Shows view.splitX view.getNormalizedVisibleArea.x1
          view.getNormalizedVisibleArea.getWidth offset px) ∧
        ∃ offset, pane.rows.Shows view.splitY view.getNormalizedVisibleArea.y1
          view.getNormalizedVisibleArea.getHeight offset py := by
  have starts := TileCache.starts_parseInvalidateMsg message
  have outcome := handleTileInvalidation_cases sizes message
  dsimp only at outcome ⊢
  refine ⟨fun viewId hasPart hasMode splitX splitY => ?_, fun request isRequest => ?_,
    fun pane isSplit px py => has_getNormalizedVisiblePaneArea isSplit⟩
  · rcases outcome with ⟨-, -, isHandled⟩ | ⟨isHandled, -⟩
    · obtain ⟨tiles, areTiles⟩ := invalidTiles_isSome sizes viewId hasPart hasMode splitX splitY
      rw [areTiles] at isHandled
      exact ⟨_, isHandled⟩
    · exact ⟨none, isHandled⟩
  · rcases outcome with ⟨listens, concerns, isHandled⟩ | ⟨isHandled, nothing⟩
    · obtain ⟨tiles, areTiles, rfl⟩ := Option.map_eq_some_iff.mp (isHandled.symm.trans isRequest)
      have collected := collected_nil.foldlM sizes areTiles
      refine ⟨?_, header_requestFor fun tile member => ?_, fun position => ?_⟩
      · rw [positions_requestFor]
        exact collected.distinct
      · obtain ⟨cell, -, -, isTile⟩ := collected.isTile member
        exact isTile.header
      · rw [positions_requestFor, mem_invalidTiles sizes starts areTiles]
        simp only [listens, concerns, true_and]
    · cases isHandled.symm.trans isRequest
      refine ⟨List.nodup_nil, fun _ member => absurd member List.not_mem_nil, fun position => ?_⟩
      constructor
      · exact fun member => absurd member List.not_mem_nil
      · rintro ⟨cell, affected, -⟩
        exact absurd affected (nothing cell)

/-- A window over the upper left corner of the first sheet. -/
def upperLeft : ClientView where
  canonicalViewId := 0
  clientVisibleArea := .ofSize 0 0 1000 1000
  splitX := 0
  splitY := 0
  clientSelectedPart := 0
  clientSelectedMode := 0
  tileWidthPixel := 256
  tileHeightPixel := 256
  tileWidthTwips := 3840
  tileHeightTwips := 3840
  isTextDocument := false
  isCloseFrame := false
  oldWireIds := fun _ => none

theorem hasTileSizes_upperLeft : upperLeft.HasTileSizes :=
  ⟨by decide, by decide, by decide, by decide⟩

/-- A window with frozen rows and columns, scrolled away from them. -/
def frozen : ClientView :=
  { upperLeft with
    clientVisibleArea := .ofSize 8000 9000 10000 12000
    splitX := 3000
    splitY := 4000 }

/-- Tiles of the two upper panes. -/
theorem requests_affected_frozen :
    let message := "invalidatetiles: part=0 mode=0 x=2000 y=3000 width=9000 height=2000".toList
    ∃ request, frozen.handleTileInvalidation message = some request ∧
      (positions request).Nodup ∧ (0, 0) ∈ positions request ∧ (7680, 3840) ∈ positions request := by
  intro message
  have isRead : TileCache.parseInvalidateMsg message = ((0, 0), ⟨2000, 3000, 11000, 5000⟩) := by
    decide +kernel
  have sizes : frozen.HasTileSizes := ⟨by decide, by decide, by decide, by decide⟩
  have requests := requests_affected sizes message
  dsimp only at requests
  rw [isRead] at requests
  obtain ⟨answers, areAffected, -⟩ := requests
  obtain ⟨request, isRequest⟩ :=
    answers (by decide) (by decide) (by decide) (by decide) (by decide)
  obtain ⟨distinct, -, mem_iff⟩ := areAffected request isRequest
  have listens : frozen.Listens := ⟨by decide, by decide, rfl⟩
  have concerns : frozen.Concerns 0 0 := .inl ⟨.inr rfl, rfl⟩
  refine ⟨request, isRequest, distinct, ?_, ?_⟩
  · refine (mem_iff _).mpr ⟨(0, 0), ⟨listens, concerns, by decide, by decide, by decide +kernel, ?_⟩, rfl⟩
    exact ⟨.topLeft, by decide, by decide +kernel, 2500, 3500,
      ⟨⟨by decide, by decide⟩, by decide, by decide⟩, ⟨by decide, by decide⟩, by decide, by decide⟩
  · refine (mem_iff _).mpr ⟨(2, 1), ⟨listens, concerns, by decide, by decide, by decide +kernel, ?_⟩, rfl⟩
    exact ⟨.topRight, by decide, by decide +kernel, 11000, 3900,
      ⟨⟨by decide, by decide⟩, by decide, by decide⟩, ⟨by decide, by decide⟩, by decide, by decide⟩

/-- What is requested are all tiles that meet a pane as well as the invalidated area. -/
def Covers (view : ClientView) (message : Text) : Prop :=
  ∃ request, view.handleTileInvalidation message = some request ∧ (positions request).Nodup ∧
    ∀ position, position ∈ positions request ↔ ∃ cell : Int × Int, (0 ≤ cell.1 ∧ 0 ≤ cell.2) ∧
      (TileCache.parseInvalidateMsg message).2.intersects (view.tileRect cell) = true ∧
      (∃ pane, view.isSplitPane pane = true ∧
        (view.getNormalizedVisiblePaneArea pane).intersects (view.tileRect cell) = true) ∧
      position = view.tilePosition cell

/-- A tile of which one corner is seen, when something changes in the middle of it. -/
theorem not_covers_upperLeft :
    let message := "invalidatetiles: part=0 mode=0 x=2000 y=2000 width=100 height=100".toList
    upperLeft.HasTileSizes ∧ upperLeft.Listens ∧
      (TileCache.parseInvalidateMsg message).1 =
        (upperLeft.clientSelectedPart, upperLeft.clientSelectedMode) ∧
      ¬upperLeft.Covers message := by
  intro message
  have isRead : TileCache.parseInvalidateMsg message = ((0, 0), ⟨2000, 2000, 2100, 2100⟩) := by
    decide +kernel
  have unseen : upperLeft.paneRects ⟨2000, 2000, 2100, 2100⟩ = [] := by decide +kernel
  refine ⟨hasTileSizes_upperLeft, ⟨by decide, by decide, rfl⟩, by rw [isRead]; rfl, ?_⟩
  rintro ⟨request, isRequest, -, covers⟩
  rw [isRead] at covers
  have nothing : upperLeft.handleTileInvalidation message = some none := by
    unfold handleTileInvalidation
    rw [isRead]
    dsimp only
    rw [if_neg (by decide), if_neg (by decide), if_pos unseen]
  cases nothing.symm.trans isRequest
  have requested := (covers (0, 0)).mpr
    ⟨(0, 0), by decide, by decide, ⟨.bottomRight, rfl, by decide⟩, rfl⟩
  exact absurd requested List.not_mem_nil

end ClientView

end FreeOnline.Wsd
