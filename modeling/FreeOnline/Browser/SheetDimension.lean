import FreeOnline.Browser.BinarySearch
import FreeOnline.Browser.SpanList
import Mathlib.Algebra.Order.Field.Rat
import Mathlib.Data.Rat.Floor

/-!
# Sheet dimensions

The rows or the columns of a sheet, with the positions of their elements in print twips, in core
pixels and in the twips that these pixels have.
-/

set_option autoImplicit false

namespace FreeOnline.Browser.SheetGeometry

open FreeOnline.Library

@[ext]
structure TileGeometry where
  tileSizeTwips : ℚ
  tileSizePixels : ℚ
  twipsPositive : 0 < tileSizeTwips
  pixelsPositive : 0 < tileSizePixels

instance : DecidableEq TileGeometry := fun _ _ => decidable_of_iff _ TileGeometry.ext_iff.symm

theorem tileTwips_positive : (0 : ℚ) < 3840 := by decide

theorem zoomedTwips_positive : (0 : ℚ) < 3200 := by decide

theorem tilePixels_positive : (0 : ℚ) < 256 := by decide

def TileGeometry.coreZoomFactor (tile : TileGeometry) : ℚ :=
  tile.tileSizePixels * 15 / tile.tileSizeTwips

def TileGeometry.twipsPerCorePixel (tile : TileGeometry) : ℚ :=
  tile.tileSizeTwips / tile.tileSizePixels

/-- The size of one element of a span in core pixels, and where the span ends. -/
structure CustomData where
  sizecore : Int
  poscorepx : Int
  postiletwips : Int
  posprinttwips : Int
deriving DecidableEq

structure SpanData extends ParsedSpan where
  data : CustomData
deriving DecidableEq

inductive GeometryUnit where
  | corepixels
  | tiletwips
  | printtwips
deriving DecidableEq

/-- The end of a span in this unit. -/
def CustomData.position (data : CustomData) : GeometryUnit → Int
  | .corepixels => data.poscorepx
  | .tiletwips => data.postiletwips
  | .printtwips => data.posprinttwips

/-- A span with its neighbours in the list. -/
structure SpanView where
  previous : Option SpanData
  span : SpanData
  next : Option SpanData

def SpanView.start (view : SpanView) : Int :=
  match view.previous with
  | none => 0
  | some previous => previous.index + 1

def SpanView.stop (view : SpanView) : Int := view.span.index

def SpanView.size (view : SpanView) : Int := view.span.value

def SpanView.data (view : SpanView) : CustomData := view.span.data

def SpanView.elementCount (view : SpanView) : Int := view.stop - view.start + 1

def viewsFrom : Option SpanData → List SpanData → List SpanView
  | _, [] => []
  | previous, span :: spans => ⟨previous, span, spans.head?⟩ :: viewsFrom (some span) spans

/-- `_getSpanData` of each span. -/
def views (spans : List SpanData) : List SpanView := viewsFrom none spans

def searchSpans (directionProvider : SpanView → Direction) (spans : List SpanView)
    (firstMatch : Bool) : Option Nat :=
  binarySearch
    (fun id =>
      match spans[id]? with
      | none => .lower
      | some view => directionProvider view)
    spans.length firstMatch

def indexDirection (index : Int) (view : SpanView) : Direction :=
  if index < view.start then .lower else if view.stop < index then .upper else .here

def searchByIndex (spans : List SpanView) (index : Int) : Option Nat :=
  searchSpans (indexDirection index) spans false

def getSpanDataByIndex (spans : List SpanView) (index : Int) : Option SpanView :=
  (searchByIndex spans index).bind (spans[·]?)

/-- The spans of `forEachSpanInRange`, from one of them on. -/
def spansUpTo (stop : Int) : List SpanView → List SpanView
  | [] => []
  | view :: rest => view :: if view.stop ≤ stop then spansUpTo stop rest else []

def spansInRange (spans : List SpanView) (start stop : Int) : List SpanView :=
  if stop < start then []
  else
    match searchByIndex spans start with
    | none => []
    | some id => spansUpTo stop (spans.drop id)

/-!
## The dimension
-/

structure OutlineEntry where
  start : Int
  stop : Int
  hidden : Int
  visible : Int
deriving DecidableEq

def loadOutlineEntry (entry : Text) : Option OutlineEntry :=
  match split ':' entry with
  | start :: size :: hidden :: visible :: _ =>
      match parseInt start, parseInt size, parseInt hidden, parseInt visible with
      | some start, some size, some hidden, some visible =>
          some ⟨start, size + (start - 1), hidden, visible⟩
      | _, _, _, _ => none
  | _ => none

def loadOutlineLevel (level : Text) : Option (List OutlineEntry) :=
  let collectionSplits := split ',' level
  if collectionSplits.length < 2 then none else collectionSplits.dropLast.mapM loadOutlineEntry

/-- `DimensionOutlines.load`, none where it fails. -/
def loadOutlines (encoding : Text) : Option (List (List OutlineEntry)) :=
  let levels := split ' ' encoding
  if levels.length < 2 then some [] else levels.dropLast.mapM loadOutlineLevel

structure SheetDimensionCoreData where
  sizes : Option Text
  hidden : Option Text
  filtered : Option Text
  groups : Option Text

/-- Sizes and positions at a zoom, and what is computed of them, are exact here, and not rounded to
doubles. -/
structure SheetDimension where
  sizes : List ParsedSpan := []
  hidden : BoolSpanList := ⟨false, []⟩
  filtered : BoolSpanList := ⟨false, []⟩
  outlines : List (List OutlineEntry) := []
  visibleSizes : Option (List SpanData) := none
  maxIndex : Int
  tile : TileGeometry

def addPositions (twipsPerCorePixel : ℚ) : Int → Int → Int → List ParsedSpan → List SpanData
  | _, _, _, [] => []
  | previous, posCorePx, posPrintTwips, span :: spans =>
      let spanLength := span.index - previous
      -- The rounding is that of the core, in core pixels.
      let sizeCorePxOne := ⌊(span.value : ℚ) / twipsPerCorePixel⌋
      let posCorePx := posCorePx + sizeCorePxOne * spanLength
      let posTileTwips := ⌊(posCorePx : ℚ) * twipsPerCorePixel⌋
      let posPrintTwips := posPrintTwips + span.value * spanLength
      ⟨span, ⟨sizeCorePxOne, posCorePx, posTileTwips, posPrintTwips⟩⟩ ::
        addPositions twipsPerCorePixel span.index posCorePx posPrintTwips spans

/-- The data of spans with this tile geometry. -/
def positioned (tile : TileGeometry) (spans : List ParsedSpan) : List SpanData :=
  addPositions tile.twipsPerCorePixel (-1) 0 0 spans

/-- A value loaded from its encoding, and whether that went well. -/
def loadEncoding {α : Type} (load : Text → Option α) (current : α) :
    Option Text → Bool × α
  | none => (true, current)
  | some encoding =>
      match load encoding with
      | none => (false, current)
      | some loaded => (true, loaded)

namespace SheetDimension

variable (dimension : SheetDimension)

/-- None where a property of undefined is read. -/
def updatePositions : Option SheetDimension :=
  dimension.visibleSizes.map fun spans =>
    { dimension with
      visibleSizes := some (positioned dimension.tile (spans.map SpanData.toParsedSpan)) }

def updateVisible : Option SheetDimension :=
  match dimension.hidden.union dimension.filtered with
  | none => none
  | some invisible =>
      (applyZeroValues dimension.sizes invisible).map fun visible =>
        { dimension with visibleSizes := some (positioned dimension.tile visible) }

/-- Whether all that was given was loaded, with the dimension then. None where a property of
undefined is read. -/
def update (data : SheetDimensionCoreData) : Option (Bool × SheetDimension) :=
  let (sizesOK, sizes) := loadEncoding parseSpanList dimension.sizes data.sizes
  let (hiddenOK, hidden) := loadEncoding parseBoolSpanList dimension.hidden data.hidden
  let (filteredOK, filtered) := loadEncoding parseBoolSpanList dimension.filtered data.filtered
  let (groupsOK, outlines) := loadEncoding loadOutlines dimension.outlines data.groups
  let loadsOK := sizesOK && hiddenOK && filteredOK && groupsOK
  let regenerateVisibleSizes := data.sizes.isSome || data.hidden.isSome || data.filtered.isSome
  let loaded :=
    { dimension with sizes := sizes, hidden := hidden, filtered := filtered, outlines := outlines }
  if loadsOK && regenerateVisibleSizes then loaded.updateVisible.map fun updated => (true, updated)
  else some (loadsOK, loaded)

def setMaxIndex (maxIndex : Int) : SheetDimension := { dimension with maxIndex := maxIndex }

def setTileGeometryData (tile : TileGeometry) (withPositions : Bool) : Option SheetDimension :=
  if dimension.tile = tile then some dimension
  else
    let resized := { dimension with tile := tile }
    if withPositions then resized.updatePositions else some resized

end SheetDimension

/-!
## Positions and sizes of elements
-/

structure DimensionPosSize where
  startpos : Int
  size : Int
deriving DecidableEq

/-- `_getElementDataAnyFromSpanByIndex`, none where it is undefined. -/
def getElementDataAnyFromSpanByIndex (twipsPerCorePixel : ℚ) (index : Int) (view : SpanView)
    (unitName : GeometryUnit) : Option DimensionPosSize :=
  if index < view.start ∨ view.stop < index then none
  else
    let numSizes := view.stop - index + 1
    match unitName with
    | .corepixels =>
        some ⟨view.data.poscorepx - view.data.sizecore * numSizes, view.data.sizecore⟩
    | .printtwips => some ⟨view.data.posprinttwips - view.size * numSizes, view.size⟩
    | .tiletwips =>
        some ⟨⌊((view.data.poscorepx - view.data.sizecore * numSizes : Int) : ℚ) *
          twipsPerCorePixel⌋, ⌊(view.data.sizecore : ℚ) * twipsPerCorePixel⌋⟩

/-- What one span adds to the position, or the size it gives the element. -/
def addSpanAtZoom (index : Int) (zoomScale : ℚ) (result : DimensionPosSize) (view : SpanView) :
    DimensionPosSize :=
  let sizeOneCorePx := ⌊(view.size : ℚ) * zoomScale / 15⌋
  if view.stop < index then
    { result with startpos := result.startpos + sizeOneCorePx * view.elementCount }
  else if view.start ≤ index ∧ index ≤ view.stop then
    ⟨result.startpos + sizeOneCorePx * (index - view.start), sizeOneCorePx⟩
  else result

namespace SheetDimension

variable (dimension : SheetDimension)

/-- None where it is undefined or a property of undefined is read. -/
def getElementDataAny (index : Int) (unitName : GeometryUnit) : Option DimensionPosSize :=
  match dimension.visibleSizes with
  | none => none
  | some spans =>
      (getSpanDataByIndex (views spans) index).bind fun view =>
        getElementDataAnyFromSpanByIndex dimension.tile.twipsPerCorePixel index view unitName

def getElementData (index : Int) (zoomScale : Option ℚ) : Option DimensionPosSize :=
  match zoomScale, dimension.visibleSizes with
  | _, none => none
  | some zoomScale, some spans =>
      some ((spansInRange (views spans) 0 index).foldl (addSpanAtZoom index zoomScale) ⟨0, 0⟩)
  | none, some _ => dimension.getElementDataAny index .corepixels

end SheetDimension

end FreeOnline.Browser.SheetGeometry
