import FreeOnline.Browser.SheetDimension

/-!
# Positions in a sheet

The position of an element is the sum of the sizes before it. Its size is nothing where it is
hidden or filtered. The spans of a dimension keep these positions at their ends.
-/

set_option autoImplicit false

namespace FreeOnline.Browser.SheetGeometry

open FreeOnline.Library

/-- The size in core pixels of an element with this size in twips. -/
def coreSize (tile : TileGeometry) (size : Int) : Int := ⌊(size : ℚ) / tile.twipsPerCorePixel⌋

/-- The position of an element, from the sizes of those before it. -/
def position (tile : TileGeometry) (size : Int → Int) : GeometryUnit → Int → Int
  | .printtwips, i => sumBefore size i
  | .corepixels, i => sumBefore (fun j => coreSize tile (size j)) i
  | .tiletwips, i =>
      ⌊((sumBefore (fun j => coreSize tile (size j)) i : Int) : ℚ) * tile.twipsPerCorePixel⌋

def elementSize (tile : TileGeometry) (size : Int) : GeometryUnit → Int
  | .printtwips => size
  | .corepixels => coreSize tile size
  | .tiletwips => ⌊(coreSize tile size : ℚ) * tile.twipsPerCorePixel⌋

theorem position_zero (tile : TileGeometry) (size : Int → Int) (unitName : GeometryUnit) :
    position tile size unitName 0 = 0 := by
  cases unitName with
  | printtwips => rfl
  | corepixels => rfl
  | tiletwips =>
      rw [position, sumBefore_zero, Int.cast_zero, zero_mul, Int.floor_zero]

/-!
## Spans one behind the other
-/

/-- The spans give the sizes of the elements, from `start` to the last one. -/
inductive Consecutive (size : Int → Int) (last : Int) : Int → List SpanView → Prop where
  | done : Consecutive size last (last + 1) []
  | next {view : SpanView} {rest : List SpanView} : view.start ≤ view.stop →
      (∀ i, view.start ≤ i → i ≤ view.stop → size i = view.size) →
      Consecutive size last (view.stop + 1) rest → Consecutive size last view.start (view :: rest)

namespace Consecutive

variable {size : Int → Int} {last start : Int} {spans : List SpanView}

theorem bound (consecutive : Consecutive size last start spans) : start ≤ last + 1 := by
  induction consecutive with
  | done => exact Int.le_refl _
  | next ordered _ _ ih => exact Int.le_trans ordered (Int.le_trans (Int.le_add_one (Int.le_refl _)) ih)

theorem behind (consecutive : Consecutive size last start spans) {view : SpanView}
    (member : view ∈ spans) : start ≤ view.start := by
  induction consecutive with
  | done => cases member
  | next ordered _ _ ih =>
      cases member with
      | head => exact Int.le_refl _
      | tail _ isLater =>
          exact Int.le_trans ordered (Int.le_trans (Int.le_add_one (Int.le_refl _)) (ih isLater))

theorem ordered (consecutive : Consecutive size last start spans) :
    spans.Pairwise fun earlier later =>
      earlier.start ≤ earlier.stop ∧ earlier.stop < later.start := by
  induction consecutive with
  | done => exact List.Pairwise.nil
  | next isOrdered _ others ih =>
      exact List.Pairwise.cons (fun later isLater => ⟨isOrdered, others.behind isLater⟩) ih

theorem trichotomy (consecutive : Consecutive size last start spans) {view other : SpanView}
    (member : view ∈ spans) (isOther : other ∈ spans) :
    view = other ∨ view.stop < other.start ∨ other.stop < view.start := by
  induction consecutive with
  | done => cases member
  | next _ _ others ih =>
      cases member with
      | head =>
          cases isOther with
          | head => exact .inl rfl
          | tail _ isLater => exact .inr (.inl (others.behind isLater))
      | tail _ isLater =>
          cases isOther with
          | head => exact .inr (.inr (others.behind isLater))
          | tail _ otherLater => exact ih isLater otherLater

theorem member_spec (consecutive : Consecutive size last start spans) {view : SpanView}
    (member : view ∈ spans) :
    view.start ≤ view.stop ∧ view.stop ≤ last ∧
      ∀ i, view.start ≤ i → i ≤ view.stop → size i = view.size := by
  induction consecutive with
  | done => cases member
  | next isOrdered equal others ih =>
      cases member with
      | head => exact ⟨isOrdered, Int.le_of_add_le_add_right others.bound, equal⟩
      | tail _ isLater => exact ih isLater

theorem covers (consecutive : Consecutive size last start spans) {i : Int} (isBehind : start ≤ i)
    (isInside : i ≤ last) : ∃ view ∈ spans, view.start ≤ i ∧ i ≤ view.stop := by
  induction consecutive with
  | done => omega
  | @next view rest _ _ _ ih =>
      rcases lt_or_ge view.stop i with isLater | isHere
      · obtain ⟨found, member, isFound⟩ := ih isLater
        exact ⟨found, List.mem_cons_of_mem _ member, isFound⟩
      · exact ⟨view, List.mem_cons_self, isBehind, isHere⟩

end Consecutive

def startAfter : Option SpanData → Int
  | none => 0
  | some previous => previous.index + 1

theorem SpanView.start_eq (view : SpanView) : view.start = startAfter view.previous := by
  obtain ⟨previous, span, next⟩ := view
  cases previous with
  | none => rfl
  | some previous => rfl

theorem consecutive_views {size : Int → Int} {last : Int} {previous : Option SpanData}
    {spans : List SpanData}
    (described : Describes size last (startAfter previous - 1) (runs (spans.map SpanData.toParsedSpan))) :
    Consecutive size last (startAfter previous) (viewsFrom previous spans) := by
  induction spans generalizing previous with
  | nil =>
      generalize isStart : startAfter previous = start at described
      obtain rfl : start = last + 1 := by
        have isLast : start - 1 = last := by
          cases described with
          | done => rfl
        omega
      exact .done
  | cons span spans ih =>
      have isView := SpanView.start_eq ⟨previous, span, spans.head?⟩
      cases described with
      | run before equal others =>
          have rest := @ih (some span) (by
            rw [startAfter, Int.add_sub_cancel]
            exact others)
          rw [viewsFrom, ← isView]
          rw [← isView] at before equal
          apply Consecutive.next (Int.le_of_sub_one_lt before) _ rest
          intro i isBehind isInside
          exact equal i (Int.sub_one_lt_of_le isBehind) isInside

/-!
## Positions at the ends of the spans
-/

/-- The data of a span are the positions at its ends. -/
structure Positioned (tile : TileGeometry) (size : Int → Int) (view : SpanView) : Prop where
  sizecore : view.data.sizecore = coreSize tile view.size
  stop : ∀ unitName, view.data.position unitName = position tile size unitName (view.stop + 1)
  previous : ∀ previous, view.previous = some previous → ∀ unitName,
    previous.data.position unitName = position tile size unitName view.start

theorem toParsedSpan_addPositions (twipsPerCorePixel : ℚ) (previous posCorePx posPrintTwips : Int)
    (spans : List ParsedSpan) :
    (addPositions twipsPerCorePixel previous posCorePx posPrintTwips spans).map
      SpanData.toParsedSpan = spans := by
  induction spans generalizing previous posCorePx posPrintTwips with
  | nil => rfl
  | cons span spans ih =>
      rw [addPositions, List.map_cons, ih]

theorem positioned_views (tile : TileGeometry) {size : Int → Int} {last start : Int}
    {previous : Option SpanData} {spans : List ParsedSpan} (isStart : startAfter previous = start)
    (nonneg : 0 ≤ start)
    (previousAt : ∀ before, previous = some before → ∀ unitName,
      before.data.position unitName = position tile size unitName start)
    (described : Describes size last (start - 1) (runs spans)) {view : SpanView}
    (member : view ∈ viewsFrom previous (addPositions tile.twipsPerCorePixel (start - 1)
      (position tile size .corepixels start) (position tile size .printtwips start) spans)) :
    Positioned tile size view := by
  induction spans generalizing start previous with
  | nil => cases member
  | cons span spans ih =>
      cases described with
      | run before equal others =>
          have behind : start ≤ span.index + 1 := by omega
          have corePosition : position tile size .corepixels (span.index + 1) =
              position tile size .corepixels start +
                coreSize tile span.value * (span.index - (start - 1)) := by
            have added := @sumBefore_run _ _ (fun i => coreSize tile (size i)) start
              (span.index + 1) (coreSize tile span.value) nonneg behind (fun i isBehind isInside => by
                rw [equal i (Int.sub_one_lt_of_le isBehind) (Int.lt_add_one_iff.mp isInside)])
            rw [position, position, added, smul_eq_mul]
            ring
          have printPosition : position tile size .printtwips (span.index + 1) =
              position tile size .printtwips start + span.value * (span.index - (start - 1)) := by
            have added := @sumBefore_run _ _ size start (span.index + 1) span.value nonneg behind
              (fun i isBehind isInside =>
                equal i (Int.sub_one_lt_of_le isBehind) (Int.lt_add_one_iff.mp isInside))
            rw [position, position, added, smul_eq_mul]
            ring
          have tilePosition : position tile size .tiletwips (span.index + 1) =
              ⌊((position tile size .corepixels start +
                coreSize tile span.value * (span.index - (start - 1)) : Int) : ℚ) *
                tile.twipsPerCorePixel⌋ := by
            rw [← corePosition]
            rfl
          let positionedSpan : SpanData := ⟨span, ⟨coreSize tile span.value,
            position tile size .corepixels (span.index + 1),
            position tile size .tiletwips (span.index + 1),
            position tile size .printtwips (span.index + 1)⟩⟩
          have atStop : ∀ unitName, positionedSpan.data.position unitName =
              position tile size unitName (span.index + 1) := by
            intro unitName
            cases unitName with
            | corepixels => rfl
            | tiletwips => rfl
            | printtwips => rfl
          have isAdded : addPositions tile.twipsPerCorePixel (start - 1)
              (position tile size .corepixels start) (position tile size .printtwips start)
              (span :: spans) = positionedSpan :: addPositions tile.twipsPerCorePixel span.index
                (position tile size .corepixels (span.index + 1))
                (position tile size .printtwips (span.index + 1)) spans := by
            rw [addPositions]
            dsimp only [positionedSpan]
            rw [tilePosition, corePosition, printPosition]
            rfl
          rw [isAdded, viewsFrom] at member
          cases member with
          | head =>
              refine ⟨rfl, atStop, ?_⟩
              intro before isBefore unitName
              rw [SpanView.start_eq, isStart]
              exact previousAt before isBefore unitName
          | tail _ isLater =>
              have isNext : startAfter (some positionedSpan) = span.index + 1 := rfl
              apply ih isNext (Int.le_trans nonneg behind)
              · intro before isBefore
                cases isBefore
                exact atStop
              · rw [Int.add_sub_cancel]
                exact others
              · rw [Int.add_sub_cancel]
                exact isLater

/-!
## Finding a span
-/

theorem searchSpans_found {directionProvider : SpanView → Direction} {spans : List SpanView}
    (descends : spans.Pairwise fun earlier later =>
      directionProvider earlier ≠ .upper → directionProvider later = .lower)
    {view : SpanView} (member : view ∈ spans) (isHere : directionProvider view = .here)
    (firstMatch : Bool) :
    (searchSpans directionProvider spans firstMatch).bind (spans[·]?) = some view := by
  obtain ⟨id, inside, isView⟩ := List.mem_iff_getElem.mp member
  have isAt : spans[id]? = some view := by rw [List.getElem?_eq_getElem inside, isView]
  have isFound : searchSpans directionProvider spans firstMatch = some id := by
    unfold searchSpans
    apply binarySearch_found _ inside
    · rw [isAt]
      exact isHere
    · intro index later isBefore isInside notUpper
      have indexInside := Nat.lt_trans isBefore isInside
      dsimp only at notUpper ⊢
      rw [List.getElem?_eq_getElem indexInside] at notUpper
      rw [List.getElem?_eq_getElem isInside]
      exact List.pairwise_iff_getElem.mp descends index later indexInside isInside isBefore notUpper
  rw [isFound, Option.bind_some, isAt]

theorem getSpanDataByIndex_found {size : Int → Int} {last start : Int} {spans : List SpanView}
    (consecutive : Consecutive size last start spans) {view : SpanView} (member : view ∈ spans)
    {i : Int} (isBehind : view.start ≤ i) (isInside : i ≤ view.stop) :
    getSpanDataByIndex spans i = some view := by
  apply searchSpans_found _ member
  · rw [indexDirection, if_neg (Int.not_lt.mpr isBehind), if_neg (Int.not_lt.mpr isInside)]
  · apply consecutive.ordered.imp
    intro earlier later ⟨startsBefore, stopsBefore⟩ notUpper
    rw [indexDirection] at notUpper
    rw [indexDirection, if_pos]
    split at notUpper
    · omega
    · split at notUpper
      · exact absurd rfl notUpper
      · omega

/-- The dimension has spans that give these sizes, with the positions of their ends. -/
structure Measured (dimension : SheetDimension) (size : Int → Int) (last : Int)
    (spans : List SpanData) : Prop where
  visible : dimension.visibleSizes = some spans
  consecutive : Consecutive size last 0 (views spans)
  positioned : ∀ view ∈ views spans, Positioned dimension.tile size view

theorem measured_positioned {tile : TileGeometry} {dimension : SheetDimension} {size : Int → Int}
    {last : Int} {spans : List ParsedSpan} (described : Describes size last (-1) (runs spans))
    (visible : dimension.visibleSizes = some (positioned tile spans))
    (isTile : dimension.tile = tile) :
    Measured dimension size last (positioned tile spans) := by
  refine ⟨visible, ?_, ?_⟩
  · apply @consecutive_views size last none
    rw [positioned, toParsedSpan_addPositions]
    exact described
  · intro view member
    rw [isTile]
    apply @positioned_views tile size last 0 none spans rfl (Int.le_refl 0) nofun described
    rw [position_zero, position_zero]
    exact member

/-- In a span a sum grows by the same with each element. -/
theorem sumBefore_inside (measure : Int → Int) {size : Int → Int} {view : SpanView} {i : Int}
    (equal : ∀ i, view.start ≤ i → i ≤ view.stop → size i = view.size) (nonneg : 0 ≤ view.start)
    (isBehind : view.start ≤ i) (isInside : i ≤ view.stop + 1) :
    sumBefore (fun j => measure (size j)) i =
      sumBefore (fun j => measure (size j)) view.start + measure view.size * (i - view.start) := by
  have added := @sumBefore_run _ _ (fun j => measure (size j)) view.start i (measure view.size) nonneg
    isBehind (fun j isLater isBefore => by
      rw [equal j isLater (Int.lt_add_one_iff.mp (Int.lt_of_lt_of_le isBefore isInside))])
  rw [added, smul_eq_mul, mul_comm]

section

variable {tile : TileGeometry} {size : Int → Int} {view : SpanView} {i : Int}

theorem position_corepixels_inside
    (equal : ∀ i, view.start ≤ i → i ≤ view.stop → size i = view.size) (nonneg : 0 ≤ view.start)
    (isBehind : view.start ≤ i) (isInside : i ≤ view.stop + 1) :
    position tile size .corepixels i =
      position tile size .corepixels view.start + coreSize tile view.size * (i - view.start) :=
  sumBefore_inside (coreSize tile) equal nonneg isBehind isInside

theorem position_printtwips_inside
    (equal : ∀ i, view.start ≤ i → i ≤ view.stop → size i = view.size) (nonneg : 0 ≤ view.start)
    (isBehind : view.start ≤ i) (isInside : i ≤ view.stop + 1) :
    position tile size .printtwips i =
      position tile size .printtwips view.start + view.size * (i - view.start) :=
  sumBefore_inside id equal nonneg isBehind isInside

theorem getElementDataAnyFromSpanByIndex_eq (positioned : Positioned tile size view)
    (equal : ∀ i, view.start ≤ i → i ≤ view.stop → size i = view.size) (nonneg : 0 ≤ view.start)
    (isBehind : view.start ≤ i) (isInside : i ≤ view.stop) (unitName : GeometryUnit) :
    getElementDataAnyFromSpanByIndex tile.twipsPerCorePixel i view unitName =
      some ⟨position tile size unitName i, elementSize tile (size i) unitName⟩ := by
  have notOutside : ¬ (i < view.start ∨ view.stop < i) := by omega
  have ordered : view.start ≤ view.stop + 1 := by omega
  have corePosition : view.data.poscorepx - view.data.sizecore * (view.stop - i + 1) =
      position tile size .corepixels i := by
    have atStop : view.data.poscorepx = _ := positioned.stop .corepixels
    rw [atStop, positioned.sizecore, position_corepixels_inside equal nonneg ordered (Int.le_refl _),
      position_corepixels_inside equal nonneg isBehind (Int.le_add_one isInside)]
    ring
  have printPosition : view.data.posprinttwips - view.size * (view.stop - i + 1) =
      position tile size .printtwips i := by
    have atStop : view.data.posprinttwips = _ := positioned.stop .printtwips
    rw [atStop, position_printtwips_inside equal nonneg ordered (Int.le_refl _),
      position_printtwips_inside equal nonneg isBehind (Int.le_add_one isInside)]
    ring
  rw [getElementDataAnyFromSpanByIndex, if_neg notOutside, equal i isBehind isInside]
  cases unitName with
  | corepixels =>
      dsimp only
      rw [corePosition, positioned.sizecore]
      rfl
  | printtwips =>
      dsimp only
      rw [printPosition]
      rfl
  | tiletwips =>
      dsimp only
      rw [corePosition, positioned.sizecore]
      rfl

end

section

variable {dimension : SheetDimension} {size : Int → Int} {last : Int} {spans : List SpanData}

theorem Measured.getElementDataAny_eq (measured : Measured dimension size last spans) {i : Int}
    (nonneg : 0 ≤ i) (isInside : i ≤ last) (unitName : GeometryUnit) :
    dimension.getElementDataAny i unitName =
      some ⟨position dimension.tile size unitName i, elementSize dimension.tile (size i) unitName⟩ := by
  obtain ⟨view, member, isBehind, isBefore⟩ := measured.consecutive.covers nonneg isInside
  obtain ⟨-, -, equal⟩ := measured.consecutive.member_spec member
  unfold SheetDimension.getElementDataAny
  rw [measured.visible]
  dsimp only
  rw [getSpanDataByIndex_found measured.consecutive member isBehind isBefore, Option.bind_some,
    getElementDataAnyFromSpanByIndex_eq (measured.positioned view member) equal
      (measured.consecutive.behind member) isBehind isBefore]

end

/-!
## Positions at another zoom
-/

/-- The size in core pixels at this zoom of an element with this size in twips. -/
def zoomSize (zoomScale : ℚ) (size : Int) : Int := ⌊(size : ℚ) * zoomScale / 15⌋

def positionAtZoom (zoomScale : ℚ) (size : Int → Int) (i : Int) : Int :=
  sumBefore (fun j => zoomSize zoomScale (size j)) i

section

variable {zoomScale : ℚ} {size : Int → Int} {last start i : Int} {spans : List SpanView}

theorem positionAtZoom_inside {view : SpanView}
    (equal : ∀ i, view.start ≤ i → i ≤ view.stop → size i = view.size) (nonneg : 0 ≤ view.start)
    (isBehind : view.start ≤ i) (isInside : i ≤ view.stop + 1) :
    positionAtZoom zoomScale size i =
      positionAtZoom zoomScale size view.start + zoomSize zoomScale view.size * (i - view.start) :=
  sumBefore_inside (zoomSize zoomScale) equal nonneg isBehind isInside

/-- Spans behind the element add nothing. -/
private theorem foldl_behind (consecutive : Consecutive size last start spans) (isBefore : i < start)
    (result : DimensionPosSize) :
    (spansUpTo i spans).foldl (addSpanAtZoom i zoomScale) result = result := by
  cases consecutive with
  | done => rfl
  | @next view rest ordered _ _ =>
      have notPassed : ¬ view.stop < i := by omega
      have notReached : ¬ (view.start ≤ i ∧ i ≤ view.stop) := by omega
      have stops : ¬ view.stop ≤ i := by omega
      rw [spansUpTo, if_neg stops, List.foldl_cons, addSpanAtZoom, if_neg notPassed,
        if_neg notReached]
      rfl

private theorem foldl_spansUpTo (consecutive : Consecutive size last start spans)
    (nonneg : 0 ≤ start) (isBehind : start ≤ i) (isInside : i ≤ last) :
    (spansUpTo i spans).foldl (addSpanAtZoom i zoomScale)
        ⟨positionAtZoom zoomScale size start, 0⟩ =
      ⟨positionAtZoom zoomScale size i, zoomSize zoomScale (size i)⟩ := by
  induction consecutive with
  | done => omega
  | @next view rest ordered equal others ih =>
      rw [spansUpTo, List.foldl_cons, addSpanAtZoom]
      rcases lt_or_ge view.stop i with passed | isHere
      · have atStop := @positionAtZoom_inside zoomScale size (view.stop + 1) view equal nonneg
          (by omega) (Int.le_refl _)
        have count : view.elementCount = view.stop + 1 - view.start := by
          rw [SpanView.elementCount]
          ring
        rw [if_pos (Int.le_of_lt passed), if_pos passed, count]
        have rest := ih (by omega) passed
        rw [atStop] at rest
        exact rest
      · have reached : view.start ≤ i ∧ i ≤ view.stop := ⟨isBehind, isHere⟩
        rw [if_neg (Int.not_lt.mpr isHere), if_pos reached, equal i isBehind isHere,
          @positionAtZoom_inside zoomScale size i view equal nonneg isBehind (by omega)]
        split
        · next isStop => exact foldl_behind others (by omega) _
        · rfl

theorem spansInRange_zero (consecutive : Consecutive size last 0 spans) (nonneg : 0 ≤ i)
    (isInside : i ≤ last) : spansInRange spans 0 i = spansUpTo i spans := by
  rw [spansInRange, if_neg (Int.not_lt.mpr nonneg)]
  generalize isStart : (0 : Int) = start at consecutive
  cases consecutive with
  | done => omega
  | @next view rest ordered _ _ =>
      have isHere : indexDirection view.start view = .here := by
        rw [indexDirection, if_neg (Int.lt_irrefl _), if_neg (Int.not_lt.mpr ordered)]
      have isFound : searchByIndex (view :: rest) view.start = some 0 := by
        unfold searchByIndex searchSpans
        apply binarySearch_first
        · exact Nat.succ_pos _
        · exact isHere
      rw [isFound]
      rfl

end

theorem Measured.getElementData_zoom {dimension : SheetDimension} {size : Int → Int} {last : Int}
    {spans : List SpanData} (measured : Measured dimension size last spans) {i : Int}
    (nonneg : 0 ≤ i) (isInside : i ≤ last) (zoomScale : ℚ) :
    dimension.getElementData i (some zoomScale) =
      some ⟨positionAtZoom zoomScale size i, zoomSize zoomScale (size i)⟩ := by
  have folded := @foldl_spansUpTo zoomScale size last 0 i (views spans) measured.consecutive
    (Int.le_refl 0) nonneg isInside
  unfold SheetDimension.getElementData
  rw [measured.visible]
  dsimp only
  rw [spansInRange_zero measured.consecutive nonneg isInside]
  exact congrArg some folded

/-- At its own zoom a dimension has the positions that it keeps. -/
theorem zoomSize_coreZoomFactor (tile : TileGeometry) (size : Int) :
    zoomSize tile.coreZoomFactor size = coreSize tile size := by
  have twips := tile.twipsPositive.ne'
  have pixels := tile.pixelsPositive.ne'
  unfold zoomSize coreSize TileGeometry.coreZoomFactor TileGeometry.twipsPerCorePixel
  congr 1
  field_simp

/-!
## Positions never decrease
-/

theorem TileGeometry.twipsPerCorePixel_pos (tile : TileGeometry) : 0 < tile.twipsPerCorePixel :=
  div_pos tile.twipsPositive tile.pixelsPositive

theorem coreSize_nonneg (tile : TileGeometry) {size : Int} (nonneg : 0 ≤ size) :
    0 ≤ coreSize tile size :=
  Int.floor_nonneg.mpr (div_nonneg (Int.cast_nonneg nonneg) tile.twipsPerCorePixel_pos.le)

theorem position_mono {tile : TileGeometry} {size : Int → Int} {last start stop : Int}
    (nonneg : ∀ i, 0 ≤ i → i ≤ last → 0 ≤ size i) (ordered : start ≤ stop)
    (isInside : stop ≤ last + 1) (unitName : GeometryUnit) :
    position tile size unitName start ≤ position tile size unitName stop := by
  have corePositions : position tile size .corepixels start ≤ position tile size .corepixels stop :=
    sumBefore_mono (fun i isNonneg isBefore => coreSize_nonneg tile
      (nonneg i isNonneg (Int.lt_add_one_iff.mp (Int.lt_of_lt_of_le isBefore isInside)))) ordered
  cases unitName with
  | corepixels => exact corePositions
  | printtwips =>
      exact sumBefore_mono (fun i isNonneg isBefore =>
        nonneg i isNonneg (Int.lt_add_one_iff.mp (Int.lt_of_lt_of_le isBefore isInside))) ordered
  | tiletwips =>
      exact Int.floor_le_floor (mul_le_mul_of_nonneg_right (Int.cast_le.mpr corePositions)
        tile.twipsPerCorePixel_pos.le)

/-!
## Updates
-/

/-- Sizes in spans up to the last index. -/
structure SizeSpans (last : Int) where
  spans : List ParsedSpan
  ends : EndsAt last (-1) (spans.map ParsedSpan.index)

/-- Bits up to the last index: the first one, and the last element before each change. -/
structure BitSpans (last : Int) where
  startBit : Int
  first : Int
  others : List Int
  ends : EndsAt last (-1) (first :: others)

theorem endsAt_one : EndsAt 1 (-1) [1] := .next (by decide) .done

theorem endsAt_three : EndsAt 3 (-1) [3] := .next (by decide) .done

namespace SizeSpans

variable {last : Int} (sizes : SizeSpans last)

def encoding : Text := encodeSpanList sizes.spans

def sizeAt (i : Int) : Int := valueAt sizes.spans i

end SizeSpans

namespace BitSpans

variable {last : Int} (bits : BitSpans last)

def encoding : Text := encodeBoolSpanList bits.startBit bits.first bits.others

def list : BoolSpanList := ⟨bits.startBit ≠ 0, bits.first :: bits.others⟩

def isSet (i : Int) : Bool := bitAt bits.list.startBit bits.list.spanlist i

theorem nonempty (bits : BitSpans last) : -1 < last := by
  cases bits.ends with
  | next before others =>
      have bound := (describes_bitAt others false).bound
      omega

end BitSpans

/-- The size of an element, or nothing where it is hidden or filtered. -/
def visibleSize {last : Int} (sizes : SizeSpans last) (hidden filtered : BitSpans last) (i : Int) :
    Int :=
  if hidden.isSet i || filtered.isSet i then 0 else sizes.sizeAt i

private theorem loadEncoding_some {α : Type} {load : Text → Option α} {encoding : Text} {loaded : α}
    (loads : load encoding = some loaded) (current : α) :
    loadEncoding load current (some encoding) = (true, loaded) := by
  rw [loadEncoding, loads]

section

variable {last : Int} (sizes : SizeSpans last) (hidden filtered : BitSpans last)
  (dimension : SheetDimension) {groups : Option Text}

theorem update_measured
    (loadsGroups : ∀ encoding, groups = some encoding → loadOutlines encoding ≠ none) :
    ∃ updated visible,
      dimension.update ⟨some sizes.encoding, some hidden.encoding, some filtered.encoding, groups⟩ =
        some (true, updated) ∧
      updated.tile = dimension.tile ∧ updated.maxIndex = dimension.maxIndex ∧
      updated.visibleSizes = some (positioned updated.tile visible) ∧
      Describes (visibleSize sizes hidden filtered) last (-1) (runs visible) := by
  have notEmpty := hidden.nonempty
  have someSizes : sizes.spans ≠ [] := by
    intro isEmpty
    have ends := sizes.ends
    rw [isEmpty] at ends
    cases ends with
    | done => exact absurd notEmpty (Int.lt_irrefl _)
  obtain ⟨united, isUnited, isUnion⟩ :=
    @union_describes last hidden.list filtered.list hidden.ends filtered.ends notEmpty
  obtain ⟨visible, isVisible, described⟩ :=
    applyZeroValues_describes notEmpty (describes_valueAt sizes.ends) isUnion
  obtain ⟨outlines, isLoaded⟩ : ∃ outlines,
      loadEncoding loadOutlines dimension.outlines groups = (true, outlines) := by
    cases groups with
    | none => exact ⟨_, rfl⟩
    | some encoding =>
        obtain ⟨outlines, isOutlines⟩ := Option.ne_none_iff_exists'.mp (loadsGroups encoding rfl)
        exact ⟨outlines, loadEncoding_some isOutlines _⟩
  have sizesLoaded := loadEncoding_some (parseSpanList_encode someSizes) dimension.sizes
  have bitsLoaded (bits : BitSpans last) (current : BoolSpanList) :
      loadEncoding parseBoolSpanList current (some bits.encoding) = (true, bits.list) :=
    loadEncoding_some (parseBoolSpanList_encode _ _ _) current
  refine ⟨{ dimension with
    sizes := sizes.spans
    hidden := hidden.list
    filtered := filtered.list
    outlines := outlines
    visibleSizes := some (positioned dimension.tile visible) }, visible, ?_, rfl, rfl, rfl, described⟩
  unfold SheetDimension.update SizeSpans.encoding
  dsimp only
  rw [sizesLoaded, bitsLoaded, bitsLoaded, isLoaded]
  dsimp only
  rw [if_pos (by rfl), SheetDimension.updateVisible]
  dsimp only
  rw [isUnited]
  dsimp only
  rw [isVisible]
  rfl

/-- The positions of a sheet are the sums of the visible sizes. -/
theorem element_positions
    (loadsGroups : ∀ encoding, groups = some encoding → loadOutlines encoding ≠ none) :
    ∃ updated,
      dimension.update ⟨some sizes.encoding, some hidden.encoding, some filtered.encoding, groups⟩ =
        some (true, updated) ∧
      (∃ spans, updated.visibleSizes = some spans ∧ ∀ i, 0 ≤ i → i ≤ last →
        valueAt (spans.map SpanData.toParsedSpan) i = visibleSize sizes hidden filtered i) ∧
      ∀ tile : TileGeometry, ∃ sized,
        updated.setTileGeometryData tile true = some sized ∧ sized.tile = tile ∧
        ∀ i, 0 ≤ i → i ≤ last →
          (∀ unitName, sized.getElementDataAny i unitName =
            some ⟨position tile (visibleSize sizes hidden filtered) unitName i,
              elementSize tile (visibleSize sizes hidden filtered i) unitName⟩) ∧
          sized.getElementData i (some tile.coreZoomFactor) = sized.getElementData i none := by
  obtain ⟨updated, visible, isUpdated, -, -, isVisible, described⟩ :=
    update_measured sizes hidden filtered dimension loadsGroups
  refine ⟨updated, isUpdated, ⟨_, isVisible, ?_⟩, ?_⟩
  · intro i nonneg isInside
    rw [positioned, toParsedSpan_addPositions]
    exact valueAt_of_describes described (Int.lt_of_lt_of_le (by decide) nonneg) isInside
  · intro tile
    obtain ⟨sized, isSized, sizedVisible, isTile⟩ : ∃ sized,
        updated.setTileGeometryData tile true = some sized ∧
        sized.visibleSizes = some (positioned tile visible) ∧ sized.tile = tile := by
      unfold SheetDimension.setTileGeometryData
      split
      · next same => exact ⟨_, rfl, same ▸ isVisible, same⟩
      · unfold SheetDimension.updatePositions
        dsimp only
        rw [isVisible, positioned, Option.map_some, toParsedSpan_addPositions]
        exact ⟨_, rfl, rfl, rfl⟩
    have measured := measured_positioned described sizedVisible isTile
    refine ⟨sized, isSized, isTile, ?_⟩
    intro i nonneg isInside
    have data := @Measured.getElementDataAny_eq _ _ _ _ measured i nonneg isInside
    rw [isTile] at data
    refine ⟨data, ?_⟩
    have atCore : sized.getElementData i none = sized.getElementDataAny i .corepixels := by
      unfold SheetDimension.getElementData
      rw [sizedVisible]
    have samePosition : positionAtZoom tile.coreZoomFactor (visibleSize sizes hidden filtered) i =
        position tile (visibleSize sizes hidden filtered) .corepixels i := by
      unfold positionAtZoom position
      exact sumBefore_congr (fun j => zoomSize_coreZoomFactor tile _) i
    rw [atCore, data, measured.getElementData_zoom nonneg isInside, samePosition,
      zoomSize_coreZoomFactor]
    rfl

end

/-- The last two of six elements have another size, the second and the third are hidden. -/
private def someSizes : SizeSpans 5 :=
  ⟨[⟨3, 100⟩, ⟨5, 255⟩], .next (by decide) (.next (by decide) .done)⟩

private def someHidden : BitSpans 5 :=
  ⟨0, 0, [2, 5], .next (by decide) (.next (by decide) (.next (by decide) .done))⟩

private def noneFiltered : BitSpans 5 := ⟨0, 5, [], .next (by decide) .done⟩

private def someTile : TileGeometry := ⟨3840, 256, tileTwips_positive, tilePixels_positive⟩

theorem element_positions_some :
    ∃ updated sized,
      (SheetDimension.update { maxIndex := 5, tile := someTile }
        ⟨some someSizes.encoding, some someHidden.encoding, some noneFiltered.encoding, none⟩) =
        some (true, updated) ∧
      updated.setTileGeometryData someTile true = some sized ∧
      sized.getElementDataAny 4 .printtwips = some ⟨200, 255⟩ ∧
      sized.getElementDataAny 4 .corepixels = some ⟨12, 17⟩ ∧
      sized.getElementDataAny 4 .tiletwips = some ⟨180, 255⟩ := by
  obtain ⟨updated, isUpdated, -, resize⟩ := @element_positions 5 someSizes someHidden
    noneFiltered { maxIndex := 5, tile := someTile } none nofun
  obtain ⟨sized, isSized, -, data⟩ := resize someTile
  obtain ⟨data, -⟩ := data 4 (by decide) (by decide)
  refine ⟨updated, sized, isUpdated, isSized, ?_, ?_, ?_⟩
  · rw [data]
    decide +kernel
  · rw [data]
    decide +kernel
  · rw [data]
    decide +kernel

end FreeOnline.Browser.SheetGeometry
