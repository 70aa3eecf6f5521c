import Mathlib.Algebra.Order.Field.Rat
import Mathlib.Data.Rat.Cast.Order
import Mathlib.Tactic.FieldSimp
import FreeOnline.Common.Rectangle
import FreeOnline.Library.Area
import FreeOnline.Library.Grid
import FreeOnline.Wsd.TileRequests

/-!
# Rendering several tiles at once

The tiles of a combined request are cut out of one picture of the area around all of them.
-/

set_option autoImplicit false

namespace FreeOnline.Kit

open FreeOnline.Common FreeOnline.Library FreeOnline.Wsd

/-!
## The picture
-/

def tileRec (combined : TileCombined) (tile : TileDesc) : Rectangle :=
  .ofSize tile.tilePosX tile.tilePosY combined.header.tileWidth combined.header.tileHeight

/-- The area we cover. -/
def coveredArea : List Rectangle → Rectangle
  | [] => .empty
  | first :: rest => rest.foldl Rectangle.extend first

def renderArea (combined : TileCombined) : Rectangle :=
  coveredArea (combined.tiles.map (tileRec combined))

def tilesByX (combined : TileCombined) : Int :=
  (renderArea combined).getWidth.tdiv combined.header.tileWidth

def tilesByY (combined : TileCombined) : Int :=
  (renderArea combined).getHeight.tdiv combined.header.tileHeight

def pixmapWidth (combined : TileCombined) : Int := tilesByX combined * combined.header.width

def pixmapHeight (combined : TileCombined) : Int := tilesByY combined * combined.header.height

def positionX (combined : TileCombined) (tileRect : Rectangle) : Int :=
  (tileRect.x1 - (renderArea combined).x1).tdiv combined.header.tileWidth

def positionY (combined : TileCombined) (tileRect : Rectangle) : Int :=
  (tileRect.y1 - (renderArea combined).y1).tdiv combined.header.tileHeight

def offsetX (combined : TileCombined) (tileRect : Rectangle) : Int :=
  positionX combined tileRect * combined.header.width

def offsetY (combined : TileCombined) (tileRect : Rectangle) : Int :=
  positionY combined tileRect * combined.header.height

/-- The pixels that are cut out. -/
def tilePixels (combined : TileCombined) (tile : TileDesc) : Area where
  x := offsetX combined (tileRec combined tile)
  y := offsetY combined (tileRec combined tile)
  w := combined.header.width
  h := combined.header.height

def pixmap (combined : TileCombined) : Area where
  x := 0
  y := 0
  w := pixmapWidth combined
  h := pixmapHeight combined

/-!
## Tiles of a grid
-/

/-- The tiles come from a grid of tiles of their size. -/
structure OnGrid (combined : TileCombined) : Prop where
  notNil : combined.tiles ≠ []
  columns : ∀ tile ∈ combined.tiles, combined.header.tileWidth ∣ tile.tilePosX
  rows : ∀ tile ∈ combined.tiles, combined.header.tileHeight ∣ tile.tilePosY

theorem within_coveredArea {recs : List Rectangle} {rect : Rectangle} (member : rect ∈ recs) :
    rect.Within (coveredArea recs) := by
  have kept (rest : List Rectangle) (area : Rectangle) :
      area.Within (rest.foldl Rectangle.extend area) ∧
        ∀ rect ∈ rest, rect.Within (rest.foldl Rectangle.extend area) := by
    induction rest generalizing area with
    | nil => exact ⟨.refl area, fun _ member => absurd member List.not_mem_nil⟩
    | cons next rest ih =>
        obtain ⟨inner, others⟩ := ih (area.extend next)
        refine ⟨(Rectangle.within_extend_left area next).trans inner, fun rect member => ?_⟩
        cases member with
        | head => exact (Rectangle.within_extend_right area next).trans inner
        | tail _ member => exact others rect member
  cases member with
  | head rest => exact (kept rest rect).1
  | tail first member => exact (kept _ first).2 rect member

/-- The edges of the area are edges of tiles. -/
theorem coveredArea_edges {vertical horizontal : Int → Prop} {recs : List Rectangle}
    (notNil : recs ≠ [])
    (edges : ∀ rect ∈ recs, (vertical rect.x1 ∧ vertical rect.x2) ∧ horizontal rect.y1 ∧
      horizontal rect.y2) :
    (vertical (coveredArea recs).x1 ∧ vertical (coveredArea recs).x2) ∧
      horizontal (coveredArea recs).y1 ∧ horizontal (coveredArea recs).y2 := by
  cases recs with
  | nil => exact absurd rfl notNil
  | cons first rest =>
      unfold coveredArea
      clear notNil
      induction rest generalizing first with
      | nil => exact edges first List.mem_cons_self
      | cons next rest ih =>
          obtain ⟨firstEdges, edges⟩ := List.forall_mem_cons.mp edges
          obtain ⟨nextEdges, edges⟩ := List.forall_mem_cons.mp edges
          exact ih (first.extend next)
            (List.forall_mem_cons.mpr ⟨Rectangle.extend_edges firstEdges nextEdges, edges⟩)

variable {combined : TileCombined} {tile other : TileDesc}

/-- The sizes of the tiles. -/
structure Sizes (header : TileHeader) : Prop where
  width : 0 < header.width
  height : 0 < header.height
  tileWidth : 0 < header.tileWidth
  tileHeight : 0 < header.tileHeight

theorem sizes_of_mem (member : tile ∈ combined.tiles) : Sizes combined.header := by
  obtain ⟨-, -, -, width, height, -, -, tileWidth, tileHeight, -⟩ := tile.valid
  rw [← combined.uniform tile member]
  exact ⟨width, height, tileWidth, tileHeight⟩

/-- The edges of the area are on the grid. -/
theorem OnGrid.edges (onGrid : OnGrid combined) :
    (combined.header.tileWidth ∣ (renderArea combined).x1 ∧
      combined.header.tileWidth ∣ (renderArea combined).x2) ∧
      combined.header.tileHeight ∣ (renderArea combined).y1 ∧
      combined.header.tileHeight ∣ (renderArea combined).y2 := by
  refine coveredArea_edges (fun isNil => onGrid.notNil (List.map_eq_nil_iff.mp isNil)) ?_
  intro rect member
  obtain ⟨tile, isTile, rfl⟩ := List.mem_map.mp member
  have column := onGrid.columns tile isTile
  have row := onGrid.rows tile isTile
  exact ⟨⟨column, Int.dvd_add column (Int.dvd_refl _)⟩, row, Int.dvd_add row (Int.dvd_refl _)⟩

theorem within_renderArea (member : tile ∈ combined.tiles) :
    (tileRec combined tile).Within (renderArea combined) :=
  within_coveredArea (List.mem_map_of_mem member)

/-- The divisions leave nothing over. -/
theorem OnGrid.tilesByX_mul (onGrid : OnGrid combined) :
    tilesByX combined * combined.header.tileWidth = (renderArea combined).getWidth :=
  Int.tdiv_mul_cancel (Int.dvd_sub onGrid.edges.1.2 onGrid.edges.1.1)

theorem OnGrid.tilesByY_mul (onGrid : OnGrid combined) :
    tilesByY combined * combined.header.tileHeight = (renderArea combined).getHeight :=
  Int.tdiv_mul_cancel (Int.dvd_sub onGrid.edges.2.2 onGrid.edges.2.1)

theorem OnGrid.positionX_mul (onGrid : OnGrid combined) (member : tile ∈ combined.tiles) :
    positionX combined (tileRec combined tile) * combined.header.tileWidth =
      tile.tilePosX - (renderArea combined).x1 :=
  Int.tdiv_mul_cancel (Int.dvd_sub (onGrid.columns tile member) onGrid.edges.1.1)

theorem OnGrid.positionY_mul (onGrid : OnGrid combined) (member : tile ∈ combined.tiles) :
    positionY combined (tileRec combined tile) * combined.header.tileHeight =
      tile.tilePosY - (renderArea combined).y1 :=
  Int.tdiv_mul_cancel (Int.dvd_sub (onGrid.rows tile member) onGrid.edges.2.1)

theorem OnGrid.positionX_bounds (onGrid : OnGrid combined) (member : tile ∈ combined.tiles) :
    0 ≤ positionX combined (tileRec combined tile) ∧
      positionX combined (tileRec combined tile) + 1 ≤ tilesByX combined :=
  index_bounds (sizes_of_mem member).tileWidth (onGrid.positionX_mul member) onGrid.tilesByX_mul
    (within_renderArea member).left (within_renderArea member).right

theorem OnGrid.positionY_bounds (onGrid : OnGrid combined) (member : tile ∈ combined.tiles) :
    0 ≤ positionY combined (tileRec combined tile) ∧
      positionY combined (tileRec combined tile) + 1 ≤ tilesByY combined :=
  index_bounds (sizes_of_mem member).tileHeight (onGrid.positionY_mul member) onGrid.tilesByY_mul
    (within_renderArea member).top (within_renderArea member).bottom

/-!
## Where the tiles are in the picture
-/

theorem OnGrid.columns_inside (onGrid : OnGrid combined) (member : tile ∈ combined.tiles) :
    0 ≤ (tilePixels combined tile).x ∧
      (tilePixels combined tile).x + combined.header.width ≤ pixmapWidth combined :=
  scaled_bounds (Int.le_of_lt (sizes_of_mem member).width) (onGrid.positionX_bounds member)

theorem OnGrid.rows_inside (onGrid : OnGrid combined) (member : tile ∈ combined.tiles) :
    0 ≤ (tilePixels combined tile).y ∧
      (tilePixels combined tile).y + combined.header.height ≤ pixmapHeight combined :=
  scaled_bounds (Int.le_of_lt (sizes_of_mem member).height) (onGrid.positionY_bounds member)

/-- No tile is cut out across an edge. -/
theorem OnGrid.within_pixmap (onGrid : OnGrid combined) (member : tile ∈ combined.tiles) :
    (tilePixels combined tile).Within (pixmap combined) := by
  obtain ⟨left, right⟩ := onGrid.columns_inside member
  obtain ⟨top, bottom⟩ := onGrid.rows_inside member
  refine ⟨⟨left, ?_⟩, top, ?_⟩
  · rw [Area.right, Area.right, pixmap, Int.zero_add]
    exact right
  · rw [Area.bottom, Area.bottom, pixmap, Int.zero_add]
    exact bottom

/-- Tiles at different positions have no pixel in common. -/
theorem OnGrid.position_eq (onGrid : OnGrid combined) (member : tile ∈ combined.tiles)
    (otherMember : other ∈ combined.tiles) {px py : Int}
    (has : (tilePixels combined tile).Has px py) (otherHas : (tilePixels combined other).Has px py) :
    TileCombined.position tile = TileCombined.position other := by
  have sizes := sizes_of_mem member
  have column := InCell.unique sizes.width has.1 otherHas.1
  have row := InCell.unique sizes.height has.2 otherHas.2
  have sameColumn := onGrid.positionX_mul member
  have sameRow := onGrid.positionY_mul member
  rw [column, onGrid.positionX_mul otherMember] at sameColumn
  rw [row, onGrid.positionY_mul otherMember] at sameRow
  exact Prod.ext (sub_left_inj.mp sameColumn).symm (sub_left_inj.mp sameRow).symm

/-- The coordinate that is seen at an edge of a pixel, where so much of the document is painted
on so many pixels. -/
def documentAt (start extent pixels : Int) (edge : ℚ) : ℚ := start + edge * extent / pixels

/-- A cell of a row of cells is painted as if it were painted alone. -/
theorem documentAt_offset {start extent count pixels size index point : Int} (hasPixels : 0 < pixels)
    (nonempty : 0 < count) (isCount : count * size = extent)
    (isIndex : index * size = point - start) (edge : ℚ) :
    documentAt start extent (count * pixels) ((index * pixels : Int) + edge) =
      documentAt point size pixels edge := by
  have pixelsNe : (pixels : ℚ) ≠ 0 := Int.cast_ne_zero.mpr (Int.ne_of_gt hasPixels)
  have countNe : (count : ℚ) ≠ 0 := Int.cast_ne_zero.mpr (Int.ne_of_gt nonempty)
  have isPoint : (point : ℚ) = start + index * size := by
    have same : point = start + index * size := by rw [isIndex]; ring
    rw [same]
    push_cast
    ring
  unfold documentAt
  rw [← isCount, isPoint]
  push_cast
  field_simp
  ring

/-- Every column of a tile's pixels shows what it would show in a picture of the tile alone. -/
theorem OnGrid.documentAt_column (onGrid : OnGrid combined) (member : tile ∈ combined.tiles)
    (edge : ℚ) :
    documentAt (renderArea combined).x1 (renderArea combined).getWidth (pixmapWidth combined)
        ((tilePixels combined tile).x + edge) =
      documentAt tile.tilePosX combined.header.tileWidth combined.header.width edge := by
  obtain ⟨nonneg, below⟩ := onGrid.positionX_bounds member
  exact documentAt_offset (sizes_of_mem member).width
    (Int.lt_of_lt_of_le (Int.lt_add_one_of_le nonneg) below) onGrid.tilesByX_mul
    (onGrid.positionX_mul member) edge

theorem OnGrid.documentAt_row (onGrid : OnGrid combined) (member : tile ∈ combined.tiles)
    (edge : ℚ) :
    documentAt (renderArea combined).y1 (renderArea combined).getHeight (pixmapHeight combined)
        ((tilePixels combined tile).y + edge) =
      documentAt tile.tilePosY combined.header.tileHeight combined.header.height edge := by
  obtain ⟨nonneg, below⟩ := onGrid.positionY_bounds member
  exact documentAt_offset (sizes_of_mem member).height
    (Int.lt_of_lt_of_le (Int.lt_add_one_of_le nonneg) below) onGrid.tilesByY_mul
    (onGrid.positionY_mul member) edge

/-- The asserted bounds hold, so the tile can be cut out of the painted pixels. -/
def tileRegion (onGrid : OnGrid combined) (member : tile ∈ combined.tiles) (pixels : List UInt32)
    (painted : (pixels.length : Int) = pixmapWidth combined * pixmapHeight combined) :
    TileRegion where
  pixmap := pixels
  startX := (tilePixels combined tile).x.toNat
  startY := (tilePixels combined tile).y.toNat
  width := combined.header.width.toNat
  height := combined.header.height.toNat
  bufferWidth := (pixmapWidth combined).toNat
  bufferHeight := (pixmapHeight combined).toNat
  pixmap_length := by
    obtain ⟨left, right⟩ := onGrid.columns_inside member
    obtain ⟨top, bottom⟩ := onGrid.rows_inside member
    have sizes := sizes_of_mem member
    have wide := Int.le_trans (Int.add_nonneg left (Int.le_of_lt sizes.width)) right
    have high := Int.le_trans (Int.add_nonneg top (Int.le_of_lt sizes.height)) bottom
    rw [← Int.toNat_mul wide high, ← painted, Int.toNat_natCast]
  columns_inside := by
    obtain ⟨left, right⟩ := onGrid.columns_inside member
    rw [← Int.toNat_add left (Int.le_of_lt (sizes_of_mem member).width)]
    exact Int.toNat_le_toNat right
  rows_inside := by
    obtain ⟨top, bottom⟩ := onGrid.rows_inside member
    rw [← Int.toNat_add top (Int.le_of_lt (sizes_of_mem member).height)]
    exact Int.toNat_le_toNat bottom

/-- What is cut out are the pixels of the tile. -/
theorem tileRegion_pixels (onGrid : OnGrid combined) (member : tile ∈ combined.tiles)
    (pixels : List UInt32)
    (painted : (pixels.length : Int) = pixmapWidth combined * pixmapHeight combined) :
    let region := tileRegion onGrid member pixels painted
    tilePixels combined tile = ⟨region.startX, region.startY, region.width, region.height⟩ := by
  have sizes := sizes_of_mem member
  simp only [tileRegion, Int.toNat_of_nonneg (onGrid.columns_inside member).1,
    Int.toNat_of_nonneg (onGrid.rows_inside member).1, Int.toNat_of_nonneg (Int.le_of_lt sizes.width),
    Int.toNat_of_nonneg (Int.le_of_lt sizes.height)]
  rfl

end FreeOnline.Kit
