import FreeOnline.Browser.SheetConversion

/-!
# Print twips at a zoom

At a zoom the conversion to tile twips goes through the spans and rounds the size of each. Without
a zoom it rounds once, where the element starts. At the zoom of the core pixels they differ by the
parts of a twip that the spans lose.
-/

set_option autoImplicit false

namespace FreeOnline.Browser.SheetGeometry

structure PrintState where
  posTT : ℚ
  posPTInc : ℚ

/-- One span on the way to the position. The last one has a size, since the position is in it. -/
def addPrintSpan (posPT zoomScale : ℚ) (state : PrintState) (spanData : SpanView) : PrintState :=
  let count := spanData.elementCount
  let sizeSpanPT := spanData.size * count
  let sizeOneCorePx := ⌊(spanData.size : ℚ) * zoomScale / 15⌋
  let sizeSpanTT := ⌊(sizeOneCorePx : ℚ) * count * 15 / zoomScale⌋
  if posPT ≤ state.posPTInc then state
  else if state.posPTInc + sizeSpanPT < posPT then
    ⟨state.posTT + sizeSpanTT, state.posPTInc + sizeSpanPT⟩
  else
    let remainingPT := posPT - state.posPTInc
    let elemCountFinalSpan := ⌊remainingPT / spanData.size⌋
    let extra := remainingPT - elemCountFinalSpan * spanData.size
    ⟨state.posTT + (⌊(elemCountFinalSpan : ℚ) * sizeSpanTT / count⌋ + extra), posPT⟩

/-- `getTileTwipsPosFromPrint` with a zoom. None where a property of undefined is read. -/
def SheetDimension.getTileTwipsPosFromPrintAtZoom (dimension : SheetDimension)
    (posPT zoomScale : ℚ) : Option ℚ :=
  dimension.visibleSizes.map fun spans =>
    ((views spans).foldl (addPrintSpan posPT zoomScale) ⟨0, 0⟩).posTT

/-!
## Parts of a twip
-/

/-- The size of a span in tile twips before rounding. -/
def SpanView.unroundedSize (view : SpanView) (tile : TileGeometry) : ℚ :=
  view.elementCount * coreSize tile view.size * tile.twipsPerCorePixel

/-- What rounding takes from these elements of a span, as a share of the rounded span. -/
def SpanView.partLoss (view : SpanView) (tile : TileGeometry) (count : Int) : ℚ :=
  count * coreSize tile view.size * tile.twipsPerCorePixel -
    ⌊(count : ℚ) * ⌊view.unroundedSize tile⌋ / view.elementCount⌋

/-- What rounding each span for itself takes from the tile twips before an element. -/
def spanwiseLoss (tile : TileGeometry) (i : Int) : List SpanView → ℚ
  | [] => 0
  | view :: spans =>
      if view.stop < i then Int.fract (view.unroundedSize tile) + spanwiseLoss tile i spans
      else view.partLoss tile (i - view.start)

theorem SpanView.partLoss_nonneg (view : SpanView) (tile : TileGeometry)
    (ordered : view.start ≤ view.stop) {count : Int} (nonneg : 0 ≤ count) :
    0 ≤ view.partLoss tile count := by
  have positive : (0 : ℚ) < view.elementCount :=
    Int.cast_pos.mpr (SpanView.elementCount_pos ordered)
  have rounded : ((⌊(count : ℚ) * ⌊view.unroundedSize tile⌋ / view.elementCount⌋ : Int) : ℚ) ≤
      count * ⌊view.unroundedSize tile⌋ / view.elementCount := Int.floor_le _
  have less : (count : ℚ) * ⌊view.unroundedSize tile⌋ / view.elementCount ≤
      count * view.unroundedSize tile / view.elementCount :=
    div_le_div_of_nonneg_right
      (mul_le_mul_of_nonneg_left (Int.floor_le _) (Int.cast_nonneg nonneg)) positive.le
  have share : (count : ℚ) * view.unroundedSize tile / view.elementCount =
      count * coreSize tile view.size * tile.twipsPerCorePixel := by
    rw [SpanView.unroundedSize]
    field_simp
  rw [SpanView.partLoss, ← share]
  linarith

section

variable {tile : TileGeometry} {size : Int → Int} {last start i : Int} {spans : List SpanView}

theorem spanwiseLoss_nonneg (consecutive : Consecutive size last start spans)
    (isBehind : start ≤ i) : 0 ≤ spanwiseLoss tile i spans := by
  induction consecutive with
  | done => exact le_refl _
  | @next view rest ordered _ _ ih =>
      rw [spanwiseLoss]
      split
      · next isLater => exact add_nonneg (Int.fract_nonneg _) (ih isLater)
      · exact view.partLoss_nonneg tile ordered (Int.sub_nonneg.mpr isBehind)

theorem position_after (consecutive : Consecutive size last start spans) {view : SpanView}
    (member : view ∈ spans) (nonneg : 0 ≤ view.start) (isBehind : view.start ≤ i)
    (isInside : i ≤ view.stop + 1) :
    position tile size .printtwips i =
        position tile size .printtwips view.start + view.size * (i - view.start) ∧
      position tile size .corepixels i =
        position tile size .corepixels view.start +
          coreSize tile view.size * (i - view.start) := by
  obtain ⟨-, -, equal⟩ := consecutive.member_spec member
  exact ⟨position_printtwips_inside equal nonneg isBehind isInside,
    position_corepixels_inside equal nonneg isBehind isInside⟩

/-- A span goes from its start to that of the next one. -/
theorem unroundedSize_position (consecutive : Consecutive size last start spans) {view : SpanView}
    (member : view ∈ spans) (nonneg : 0 ≤ view.start) (ordered : view.start ≤ view.stop) :
    view.unroundedSize tile =
      position tile size .corepixels (view.stop + 1) * tile.twipsPerCorePixel -
        position tile size .corepixels view.start * tile.twipsPerCorePixel := by
  have atStop := (@position_after tile _ _ _ (view.stop + 1) _ consecutive view member nonneg
    (Int.le_add_one ordered) (Int.le_refl _)).2
  rw [atStop, SpanView.unroundedSize, SpanView.elementCount]
  push_cast
  ring

/-- The rounded spans have a whole number of twips. -/
theorem spanwiseLoss_whole (consecutive : Consecutive size last start spans) (nonneg : 0 ≤ start)
    (isBehind : start ≤ i) (isInside : i ≤ last) :
    ∃ whole : Int, (position tile size .corepixels i : ℚ) * tile.twipsPerCorePixel -
      position tile size .corepixels start * tile.twipsPerCorePixel -
        spanwiseLoss tile i spans = whole := by
  induction consecutive with
  | done => omega
  | @next view rest ordered equal others ih =>
      have consecutive := Consecutive.next ordered equal others
      rw [spanwiseLoss]
      by_cases isLater : view.stop < i
      · obtain ⟨whole, isWhole⟩ := ih (by omega) isLater
        have fraction := Int.fract_add_floor (view.unroundedSize tile)
        have unrounded := @unroundedSize_position tile _ _ _ _ consecutive view List.mem_cons_self
          nonneg ordered
        refine ⟨whole + ⌊view.unroundedSize tile⌋, ?_⟩
        rw [if_pos isLater]
        push_cast
        linarith
      · have atElement := (@position_after tile _ _ _ i _ consecutive view
          List.mem_cons_self nonneg isBehind (by omega)).2
        refine ⟨⌊((i - view.start : Int) : ℚ) * ⌊view.unroundedSize tile⌋ / view.elementCount⌋, ?_⟩
        rw [if_neg isLater, SpanView.partLoss, atElement]
        push_cast
        ring

/-- Nothing is lost where all before the element is hidden. -/
theorem spanwiseLoss_hidden (consecutive : Consecutive size last start spans) (nonneg : 0 ≤ start)
    (sizes : ∀ j, 0 ≤ j → j ≤ last → 0 ≤ size j) (isBehind : start ≤ i) (isInside : i ≤ last)
    (isVisible : 0 < size i)
    (same : position tile size .printtwips i = position tile size .printtwips start) :
    spanwiseLoss tile i spans = 0 ∧
      position tile size .corepixels i = position tile size .corepixels start := by
  induction consecutive with
  | done => omega
  | @next view rest ordered equal others ih =>
      have consecutive := Consecutive.next ordered equal others
      rw [spanwiseLoss]
      by_cases isLater : view.stop < i
      · obtain ⟨printStop, coreStop⟩ := @position_after tile _ _ _ (view.stop + 1) _ consecutive
          view List.mem_cons_self nonneg (by omega) (Int.le_refl _)
        have notBefore := @position_mono tile size last (view.stop + 1) i sizes isLater
          (Int.le_add_one isInside) .printtwips
        have notBehind := @position_mono tile size last view.start (view.stop + 1) sizes (by omega)
          (by omega) .printtwips
        have isHidden : view.size = 0 := by
          have noSize : view.size * (view.stop + 1 - view.start) = 0 := by omega
          rcases Int.mul_eq_zero.mp noSize with isZero | noElements
          · exact isZero
          · omega
        have isNothing : coreSize tile view.size = 0 := by
          rw [isHidden, coreSize, Int.cast_zero, zero_div, Int.floor_zero]
        rw [isHidden, Int.zero_mul, Int.add_zero] at printStop
        rw [isNothing, Int.zero_mul, Int.add_zero] at coreStop
        obtain ⟨restNothing, restSame⟩ := ih (by omega) isLater (by rw [same, printStop])
        rw [if_pos isLater, restNothing, restSame, coreStop, SpanView.unroundedSize, isNothing]
        simp
      · obtain ⟨printAt, -⟩ := @position_after tile _ _ _ i _ consecutive view List.mem_cons_self
          nonneg isBehind (by omega)
        have noOffset : view.size * (i - view.start) = 0 := by omega
        rw [equal i isBehind (by omega)] at isVisible
        rcases Int.mul_eq_zero.mp noOffset with isZero | isFirst
        · omega
        · obtain rfl : i = view.start := by omega
          rw [if_neg isLater, SpanView.partLoss, Int.sub_self]
          simp

variable {pos : ℚ}

theorem ElementAt.isVisible (isAt : ElementAt tile size last i pos) : 0 < size i := by
  have fromStart := isAt.fromStart
  have beforeEnd := isAt.beforeEnd
  have positive : (0 : ℚ) < size i := by linarith
  exact Int.cast_pos.mp positive

/-- A position that is not behind an earlier start is at the start of its element, and all between the
two is hidden. -/
theorem ElementAt.atStart (isAt : ElementAt tile size last i pos)
    (sizes : ∀ j, 0 ≤ j → j ≤ last → 0 ≤ size j) (isBehind : start ≤ i)
    (isReached : pos ≤ position tile size .printtwips start) :
    pos = position tile size .printtwips i ∧
      position tile size .printtwips i = position tile size .printtwips start := by
  have notBefore := @position_mono tile size last start i sizes isBehind
    (Int.le_add_one isAt.inside) .printtwips
  have samePos : pos = position tile size .printtwips i :=
    le_antisymm (isReached.trans (Int.cast_le.mpr notBefore)) isAt.fromStart
  rw [samePos] at isReached
  exact ⟨samePos, Int.le_antisymm (Int.cast_le.mp isReached) notBefore⟩

/-- A position behind a span has its element there. -/
theorem ElementAt.isLater (isAt : ElementAt tile size last i pos)
    (sizes : ∀ j, 0 ≤ j → j ≤ last → 0 ≤ size j) {stop : Int} (isInside : stop ≤ last)
    (isPassed : (position tile size .printtwips (stop + 1) : ℚ) < pos) : stop < i := by
  by_contra notLater
  obtain ⟨printNext, -⟩ := @position_succ tile size i isAt.nonneg
  have bound := @position_mono tile size last (i + 1) (stop + 1) sizes
    (Int.add_le_add_right (Int.not_lt.mp notLater) 1) (Int.add_le_add_right isInside 1) .printtwips
  rw [printNext] at bound
  have boundCast : (position tile size .printtwips i : ℚ) + size i ≤
      position tile size .printtwips (stop + 1) := by exact_mod_cast bound
  have beforeEnd := isAt.beforeEnd
  linarith

/-- The elements of a span that are passed before the position are those before its element. -/
theorem ElementAt.passed (isAt : ElementAt tile size last i pos) {view : SpanView}
    (sized : (0 : ℚ) < view.size) (sameSize : size i = view.size)
    (printAt : position tile size .printtwips i =
      position tile size .printtwips view.start + view.size * (i - view.start)) :
    ⌊(pos - position tile size .printtwips view.start) / view.size⌋ = i - view.start := by
  have fromStart := isAt.fromStart
  have beforeEnd := isAt.beforeEnd
  rw [printAt] at fromStart beforeEnd
  rw [sameSize] at beforeEnd
  rw [Int.floor_eq_iff, le_div_iff₀ sized, div_lt_iff₀ sized]
  push_cast at fromStart beforeEnd ⊢
  constructor
  · linarith
  · linarith

/-!
## The conversion at the zoom of the core pixels
-/

/-- Behind the position nothing is added. -/
theorem foldl_addPrintSpan {posPT posPTInc : ℚ} (isReached : posPT ≤ posPTInc)
    (zoomScale posTT : ℚ) (spans : List SpanView) :
    spans.foldl (addPrintSpan posPT zoomScale) ⟨posTT, posPTInc⟩ = ⟨posTT, posPTInc⟩ := by
  induction spans with
  | nil => rfl
  | cons view rest ih =>
      have isDone : addPrintSpan posPT zoomScale ⟨posTT, posPTInc⟩ view = ⟨posTT, posPTInc⟩ :=
        if_pos isReached
      rw [List.foldl_cons, isDone, ih]

/-- At the zoom of the core pixels a span has its own size, rounded. -/
theorem zoomSpan_size (tile : TileGeometry) (view : SpanView) :
    ⌊((⌊(view.size : ℚ) * tile.coreZoomFactor / 15⌋ : Int) : ℚ) * view.elementCount * 15 /
      tile.coreZoomFactor⌋ = ⌊view.unroundedSize tile⌋ := by
  have isCore : ⌊(view.size : ℚ) * tile.coreZoomFactor / 15⌋ = coreSize tile view.size :=
    zoomSize_coreZoomFactor tile view.size
  have twips : (15 : ℚ) / tile.coreZoomFactor = tile.twipsPerCorePixel := by
    have twipsPositive := tile.twipsPositive
    have pixelsPositive := tile.pixelsPositive
    rw [TileGeometry.coreZoomFactor, TileGeometry.twipsPerCorePixel]
    field_simp
  rw [isCore, mul_div_assoc, twips, SpanView.unroundedSize]
  congr 1
  ring

/-- Before the position a span is added, or its part up to the position. -/
theorem addPrintSpan_core {posPT posTT posPTInc : ℚ} (notReached : ¬ posPT ≤ posPTInc)
    (view : SpanView) :
    addPrintSpan posPT tile.coreZoomFactor ⟨posTT, posPTInc⟩ view =
      if posPTInc + (view.size * view.elementCount : Int) < posPT then
        ⟨posTT + ⌊view.unroundedSize tile⌋, posPTInc + (view.size * view.elementCount : Int)⟩
      else
        ⟨posTT + (⌊(⌊(posPT - posPTInc) / view.size⌋ : ℚ) * ⌊view.unroundedSize tile⌋ /
          view.elementCount⌋ + (posPT - posPTInc - ⌊(posPT - posPTInc) / view.size⌋ * view.size)),
          posPT⟩ := by
  unfold addPrintSpan
  dsimp only
  rw [if_neg notReached, zoomSpan_size]

/-- What the spans from here on add for a position is its distance, less the loss. -/
theorem foldl_posTT (consecutive : Consecutive size last start spans) (nonneg : 0 ≤ start)
    (sizes : ∀ j, 0 ≤ j → j ≤ last → 0 ≤ size j) {pos : ℚ} (isBehind : start ≤ i)
    (isAt : ElementAt tile size last i pos) (posTT : ℚ) :
    (spans.foldl (addPrintSpan pos tile.coreZoomFactor)
      ⟨posTT, position tile size .printtwips start⟩).posTT =
        posTT + ((position tile size .corepixels i : ℚ) * tile.twipsPerCorePixel -
          position tile size .corepixels start * tile.twipsPerCorePixel -
            spanwiseLoss tile i spans) + (pos - position tile size .printtwips i) := by
  induction consecutive generalizing posTT with
  | done =>
      have inside := isAt.inside
      omega
  | @next view rest ordered equal others ih =>
      have consecutive := Consecutive.next ordered equal others
      obtain ⟨printStop, -⟩ := @position_after tile _ _ _ (view.stop + 1) _ consecutive
        view List.mem_cons_self nonneg (by omega) (Int.le_refl _)
      have count : view.elementCount = view.stop + 1 - view.start := by
        rw [SpanView.elementCount]
        ring
      have positive : (0 : ℚ) < view.elementCount :=
        Int.cast_pos.mpr (SpanView.elementCount_pos ordered)
      have unrounded := @unroundedSize_position tile _ _ _ _ consecutive view List.mem_cons_self
        nonneg ordered
      have fraction := Int.fract_add_floor (view.unroundedSize tile)
      by_cases isReached : pos ≤ position tile size .printtwips view.start
      · -- The position is that of the start, and all up to its element is hidden.
        obtain ⟨samePos, same⟩ := isAt.atStart sizes isBehind isReached
        obtain ⟨noLoss, sameCore⟩ := spanwiseLoss_hidden consecutive nonneg sizes isBehind
          isAt.inside isAt.isVisible same
        rw [foldl_addPrintSpan isReached, noLoss, sameCore, ← samePos]
        ring
      · rw [List.foldl_cons, addPrintSpan_core isReached, ← Int.cast_add, count, ← printStop]
        by_cases isWhole : (position tile size .printtwips (view.stop + 1) : ℚ) < pos
        · have isLater := isAt.isLater sizes (Int.lt_add_one_iff.mp (Int.lt_of_add_one_le others.bound))
            isWhole
          rw [if_pos isWhole, ih (by omega) isLater, spanwiseLoss, if_pos isLater]
          linarith
        · rw [if_neg isWhole, foldl_addPrintSpan (le_refl pos), spanwiseLoss]
          have sized : (0 : ℚ) < view.size := by
            have stopCast : (position tile size .printtwips (view.stop + 1) : ℚ) =
                position tile size .printtwips view.start + view.size * view.elementCount := by
              rw [printStop, count]
              push_cast
              ring
            have grows : (0 : ℚ) < view.size * view.elementCount := by
              have behindStart := not_le.mp isReached
              linarith
            exact pos_of_mul_pos_left grows positive.le
          by_cases isLater : view.stop < i
          · -- The position is the end of the span, and all between it and its element is hidden.
            obtain ⟨samePos, same⟩ := isAt.atStart sizes isLater (not_lt.mp isWhole)
            obtain ⟨noLoss, sameCore⟩ := spanwiseLoss_hidden others (by omega) sizes isLater
              isAt.inside isAt.isVisible same
            have offset : pos - position tile size .printtwips view.start =
                (view.stop + 1 - view.start : Int) * view.size := by
              rw [samePos, same, printStop]
              push_cast
              ring
            rw [if_pos isLater, offset, mul_div_cancel_right₀ _ sized.ne', Int.floor_intCast, noLoss,
              sameCore, ← count, mul_div_cancel_left₀ _ positive.ne', Int.floor_intCast, samePos]
            linarith
          · obtain ⟨printAt, coreAt⟩ := @position_after tile _ _ _ i _ consecutive view
              List.mem_cons_self nonneg isBehind (by omega)
            have isIndex := isAt.passed sized (equal i isBehind (Int.not_lt.mp isLater)) printAt
            rw [if_neg isLater, isIndex, SpanView.partLoss, printAt, coreAt, count]
            push_cast
            ring

end

/-!
## Both conversions
-/

/-- At the zoom of the core pixels a position is converted as without a zoom, and the start of its
element to its start. -/
structure ConversionsAgree (dimension : SheetDimension) (size : Int → Int) (i : Int) (pos : ℚ) :
    Prop where
  same : (dimension.getTileTwipsPosFromPrintAtZoom pos dimension.tile.coreZoomFactor).map some =
    dimension.getTileTwipsPosFromPrint pos
  starts : pos = position dimension.tile size .printtwips i →
    dimension.getTileTwipsPosFromPrint pos =
      some (some (position dimension.tile size .tiletwips i : ℚ))

/-- The spans lose less than a twip. Where no span covers the position, as much is lost before its
element as before the one with the highest index. -/
def LossesAgree (dimension : SheetDimension) (size : Int → Int) (last : Int) (spans : List SpanView)
    (i : Int) (pos : ℚ) : Prop :=
  (Covered dimension size last spans .printtwips pos ∧ spanwiseLoss dimension.tile i spans < 1) ∨
  (¬ Covered dimension size last spans .printtwips pos ∧
    (position dimension.tile size .printtwips i : ℚ) -
        position dimension.tile size .corepixels i * dimension.tile.twipsPerCorePixel +
          spanwiseLoss dimension.tile i spans =
      roundingLoss dimension.tile size dimension.maxIndex)

section

variable {dimension : SheetDimension} {size : Int → Int} {last i : Int} {spans : List SpanData}
  {pos : ℚ}

theorem Valid.tileTwips_atZoom (valid : Valid dimension size last spans)
    (isAt : ElementAt dimension.tile size last i pos) :
    dimension.getTileTwipsPosFromPrintAtZoom pos dimension.tile.coreZoomFactor =
      some ((position dimension.tile size .corepixels i : ℚ) * dimension.tile.twipsPerCorePixel -
        spanwiseLoss dimension.tile i (views spans) +
          (pos - position dimension.tile size .printtwips i)) := by
  have added := foldl_posTT valid.consecutive (Int.le_refl 0) valid.sizeNonneg isAt.nonneg isAt 0
  rw [position_zero, position_zero, Int.cast_zero, zero_mul, sub_zero, zero_add] at added
  rw [SheetDimension.getTileTwipsPosFromPrintAtZoom, valid.visible, Option.map_some, added]

/-- Rounding once gives what is left of the rounded spans if they lose less than a twip. -/
theorem Valid.floor_eq_iff (valid : Valid dimension size last spans)
    (isAt : ElementAt dimension.tile size last i pos) :
    (position dimension.tile size .corepixels i : ℚ) * dimension.tile.twipsPerCorePixel -
        spanwiseLoss dimension.tile i (views spans) = position dimension.tile size .tiletwips i ↔
      spanwiseLoss dimension.tile i (views spans) < 1 := by
  obtain ⟨whole, isWhole⟩ := @spanwiseLoss_whole dimension.tile size last 0 i _ valid.consecutive
    (Int.le_refl 0) isAt.nonneg isAt.inside
  have nonneg := @spanwiseLoss_nonneg dimension.tile size last 0 i _ valid.consecutive isAt.nonneg
  have isTile : position dimension.tile size .tiletwips i =
      ⌊(position dimension.tile size .corepixels i : ℚ) * dimension.tile.twipsPerCorePixel⌋ := rfl
  rw [position_zero, Int.cast_zero, zero_mul, sub_zero] at isWhole
  rw [isWhole, isTile, Int.cast_inj, eq_comm, Int.floor_eq_iff]
  constructor
  · intro ⟨_, isLess⟩
    linarith
  · intro isLess
    constructor
    · linarith
    · linarith

/-- At the position of an element both conversions agree exactly where the losses do. -/
theorem print_conversions_agree (valid : Valid dimension size last spans) (nonneg : 0 ≤ pos)
    (inside : pos < position dimension.tile size .printtwips (last + 1)) :
    ∃ i, ElementAt dimension.tile size last i pos ∧
      (ConversionsAgree dimension size i pos ↔
        LossesAgree dimension size last (views spans) i pos) := by
  obtain ⟨i, isAt⟩ := valid.exists_elementAt nonneg inside
  have atZoom := valid.tileTwips_atZoom isAt
  refine ⟨i, isAt, ?_⟩
  by_cases covered : Covered dimension size last (views spans) .printtwips pos
  · have rounded := valid.tileTwips_covered covered isAt
    have lessThan : LossesAgree dimension size last (views spans) i pos ↔
        spanwiseLoss dimension.tile i (views spans) < 1 := by
      rw [LossesAgree, and_iff_right covered, or_iff_left fun other => other.1 covered]
    rw [lessThan, ← valid.floor_eq_iff isAt]
    constructor
    · intro agree
      have same := agree.same
      rw [atZoom, rounded, Option.map_some, Option.some.injEq, Option.some.injEq, roundingLoss]
        at same
      push_cast at same
      linarith
    · intro isStart
      refine ⟨?_, ?_⟩
      · rw [atZoom, rounded, Option.map_some, Option.some.injEq, Option.some.injEq, isStart,
          roundingLoss]
        push_cast
        ring
      · intro atStart
        rw [rounded, Option.some.injEq, Option.some.injEq, atStart, roundingLoss]
        push_cast
        ring
  · have limited := valid.tileTwips_uncovered nonneg covered
    have notStart : pos ≠ position dimension.tile size .printtwips i := by
      intro atStart
      rw [atStart] at nonneg inside covered
      exact covered (valid.covered_int .printtwips (Int.cast_nonneg_iff.mp nonneg)
        (Int.cast_lt.mp inside).le)
    rw [LossesAgree, or_iff_right fun other => covered other.1, and_iff_right covered]
    constructor
    · intro agree
      have same := agree.same
      rw [atZoom, limited, Option.map_some, Option.some.injEq, Option.some.injEq] at same
      linarith
    · intro isLoss
      refine ⟨?_, fun atStart => absurd atStart notStart⟩
      rw [atZoom, limited, Option.map_some, Option.some.injEq, Option.some.injEq]
      linarith

end

/-- A core pixel has 12.5 tile twips, and each element is a span of its own. -/
private def halfTile : TileGeometry := ⟨3200, 256, zoomedTwips_positive, tilePixels_positive⟩

private def pixelSizes : SizeSpans 2 :=
  ⟨[⟨0, 15⟩, ⟨1, 16⟩, ⟨2, 17⟩], .next (by decide) (.next (by decide) (.next (by decide) .done))⟩

private def noneSkipped : BitSpans 2 := ⟨0, 2, [], .next (by decide) .done⟩

/-- A position in the third element, behind two spans that are rounded. -/
theorem print_conversions_agree_third :
    ∃ updated spans i,
      SheetDimension.update { maxIndex := 2, tile := halfTile }
        ⟨some pixelSizes.encoding, some noneSkipped.encoding, some noneSkipped.encoding, none⟩ =
        some (true, updated) ∧
      ElementAt updated.tile (visibleSize pixelSizes noneSkipped noneSkipped) 2 i 40 ∧
      (ConversionsAgree updated (visibleSize pixelSizes noneSkipped noneSkipped) i 40 ↔
        LossesAgree updated (visibleSize pixelSizes noneSkipped noneSkipped) 2 (views spans) i
          40) := by
  have sizesNonneg : ∀ i, 0 ≤ i → i ≤ 2 → 0 ≤ pixelSizes.sizeAt i := by
    intro i nonneg isInside
    rw [SizeSpans.sizeAt, pixelSizes, valueAt]
    split
    · decide
    · rw [valueAt]
      split
      · decide
      · rw [valueAt, if_pos isInside]
        decide
  obtain ⟨updated, spans, isUpdated, sameTile, valid⟩ :=
    @update_valid 2 pixelSizes noneSkipped noneSkipped { maxIndex := 2, tile := halfTile } none
      loads_noGroups sizesNonneg (by decide) (by decide)
  have ends : 40 < position updated.tile (visibleSize pixelSizes noneSkipped noneSkipped)
      .printtwips (2 + 1) := by
    rw [sameTile]
    decide +kernel
  obtain ⟨i, isAt, agree_iff⟩ := @print_conversions_agree _ _ _ _ 40 valid (by norm_num)
    (by exact_mod_cast ends)
  exact ⟨updated, spans, i, isUpdated, isAt, agree_iff⟩

/-- The third element starts at 25 tile twips. At the zoom both spans before it lose half a twip. -/
theorem not_print_conversions_agree :
    ∃ updated,
      SheetDimension.update { maxIndex := 2, tile := halfTile }
        ⟨some pixelSizes.encoding, some noneSkipped.encoding, some noneSkipped.encoding, none⟩ =
        some (true, updated) ∧
      updated.getElementDataAny 2 .tiletwips = some ⟨25, 12⟩ ∧
      updated.getTileTwipsPosFromPrint 31 = some (some 25) ∧
      updated.getTileTwipsPosFromPrintAtZoom 31 updated.tile.coreZoomFactor = some 24 := by
  have isLoaded : (SheetDimension.update { maxIndex := 2, tile := halfTile }
      ⟨some pixelSizes.encoding, some noneSkipped.encoding, some noneSkipped.encoding, none⟩).map
        Prod.fst = some true := by decide +kernel
  obtain ⟨⟨loaded, updated⟩, isUpdated, isTrue⟩ := Option.map_eq_some_iff.mp isLoaded
  obtain rfl : loaded = true := isTrue
  exact ⟨updated, isUpdated,
    read_updated (·.getElementDataAny 2 .tiletwips) isUpdated (by decide +kernel),
    read_updated (·.getTileTwipsPosFromPrint 31) isUpdated (by decide +kernel),
    read_updated (fun read => read.getTileTwipsPosFromPrintAtZoom 31 read.tile.coreZoomFactor)
      isUpdated (by decide +kernel)⟩

end FreeOnline.Browser.SheetGeometry
