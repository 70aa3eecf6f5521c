import FreeOnline.Browser.SheetLookup
import FreeOnline.Browser.SheetZoom

/-!
# Conversions between print and tile twips

A conversion keeps the offset of a position in its element, though the element has another size
in the other unit. What the elements before a position lose by rounding is what the conversion
takes from it.
-/

set_option autoImplicit false

namespace FreeOnline.Browser.SheetGeometry

/-- The print twips that rounding has taken from the elements before this one. -/
def roundingLoss (tile : TileGeometry) (size : Int → Int) (i : Int) : Int :=
  position tile size .printtwips i - position tile size .tiletwips i

/-- The element at a position in print twips. -/
structure ElementAt (tile : TileGeometry) (size : Int → Int) (last i : Int) (pos : ℚ) : Prop where
  nonneg : 0 ≤ i
  inside : i ≤ last
  fromStart : position tile size .printtwips i ≤ pos
  beforeEnd : pos < position tile size .printtwips i + size i

/-- A position that is looked up in a span. -/
def Covered (dimension : SheetDimension) (size : Int → Int) (last : Int) (spans : List SpanView)
    (unitName : GeometryUnit) (pos : ℚ) : Prop :=
  ∃ view ∈ spans, view.Covers dimension.tile size last unitName pos

/-- The position is in the part of this element where the span is cut into equal parts, between its
unrounded start and its rounded end. Elements before the span have such parts too. -/
def SpanView.PartAt (view : SpanView) (tile : TileGeometry) (size : Int → Int) (i : Int) (pos : ℚ) :
    Prop :=
  view.unroundedStart tile size + (i - view.start : Int) * view.averageSize tile size ≤ pos ∧
    pos < view.unroundedStart tile size + ((i - view.start : Int) + 1) * view.averageSize tile size

/-!
## Loss by rounding
-/

theorem coreSize_mul_le (tile : TileGeometry) (size : Int) :
    (coreSize tile size : ℚ) * tile.twipsPerCorePixel ≤ size :=
  (le_div_iff₀ tile.twipsPerCorePixel_pos).mp (Int.floor_le _)

theorem position_succ {tile : TileGeometry} {size : Int → Int} {i : Int} (nonneg : 0 ≤ i) :
    position tile size .printtwips (i + 1) = position tile size .printtwips i + size i ∧
      position tile size .corepixels (i + 1) =
        position tile size .corepixels i + coreSize tile (size i) :=
  ⟨total_succ id nonneg, total_succ (coreSize tile) nonneg⟩

theorem roundingLoss_succ (tile : TileGeometry) (size : Int → Int) {i : Int} (nonneg : 0 ≤ i) :
    roundingLoss tile size i ≤ roundingLoss tile size (i + 1) := by
  obtain ⟨printNext, coreNext⟩ := @position_succ tile size i nonneg
  have tileNext : position tile size .tiletwips (i + 1) ≤
      position tile size .tiletwips i + size i := by
    have grows : (position tile size .corepixels (i + 1) : ℚ) * tile.twipsPerCorePixel ≤
        position tile size .corepixels i * tile.twipsPerCorePixel + size i := by
      rw [coreNext, Int.cast_add, add_mul]
      exact add_le_add_right (coreSize_mul_le tile (size i)) _
    exact (Int.floor_le_floor grows).trans_eq (Int.floor_add_intCast _ _)
  rw [roundingLoss, roundingLoss, printNext]
  omega

theorem roundingLoss_mono (tile : TileGeometry) (size : Int → Int) {i j : Int} (nonneg : 0 ≤ i)
    (ordered : i ≤ j) : roundingLoss tile size i ≤ roundingLoss tile size j := by
  induction j, ordered using Int.leInduction with
  | base => exact Int.le_refl _
  | succ j isBehind ih =>
      exact Int.le_trans ih (roundingLoss_succ tile size (Int.le_trans nonneg isBehind))

/-!
## The element of a position
-/

/-- In an element the offset stays the same. -/
theorem convertPos_element {dimension : SheetDimension} {size : Int → Int} {last : Int}
    {spans : List SpanData} (valid : Valid dimension size last spans) {view : SpanView}
    (member : view ∈ views spans) {i : Int} (isBehind : view.start ≤ i) (isInside : i ≤ view.stop)
    (pos : ℚ) (fromUnit toUnit : GeometryUnit) :
    dimension.convertPos ⟨.element i, some view⟩ pos fromUnit toUnit =
      some (some (position dimension.tile size toUnit i +
        (pos - position dimension.tile size fromUnit i))) := by
  obtain ⟨-, -, equal⟩ := valid.consecutive.member_spec member
  have starts (unitName : GeometryUnit) :
      (elementData dimension.tile.twipsPerCorePixel ⟨.element i, some view⟩ unitName).startpos =
        some (some (position dimension.tile size unitName i)) := by
    unfold elementData
    dsimp only
    rw [getElementDataAnyFromSpanByIndex_eq (valid.positioned view member) equal
      (valid.start_nonneg member) isBehind isInside]
    rfl
  rw [SheetDimension.convertPos, starts, starts]

namespace Valid

variable {dimension : SheetDimension} {size : Int → Int} {last : Int} {spans : List SpanData}
  {view : SpanView} {i : Int} {pos : ℚ}

/-- Every position in the sheet is in an element. -/
theorem exists_elementAt (valid : Valid dimension size last spans) (nonneg : 0 ≤ pos)
    (inside : pos < position dimension.tile size .printtwips (last + 1)) :
    ∃ i, ElementAt dimension.tile size last i pos := by
  have upTo (count : Nat) (bound : (count : Int) ≤ last + 1)
      (before : pos < position dimension.tile size .printtwips count) :
      ∃ i, ElementAt dimension.tile size last i pos := by
    induction count with
    | zero =>
        rw [Nat.cast_zero, position_zero, Int.cast_zero] at before
        exact absurd nonneg (not_le.mpr before)
    | succ count ih =>
        rcases lt_or_ge pos (position dimension.tile size .printtwips count) with earlier | here
        · exact ih (by omega) earlier
        · have next := (@position_succ dimension.tile size count (Int.natCast_nonneg count)).1
          rw [Nat.cast_succ, next, Int.cast_add] at before
          exact ⟨count, Int.natCast_nonneg count, by omega, here, before⟩
  obtain ⟨count, isCount⟩ := Int.eq_ofNat_of_zero_le
    (show 0 ≤ last + 1 from Int.le_trans (Int.le_trans valid.maxNonneg valid.maxInside) (by omega))
  rw [isCount] at inside
  exact upTo count isCount.ge inside

/-- An element at a covered position is in the span that covers it. -/
theorem elementAt_span (valid : Valid dimension size last spans) (member : view ∈ views spans)
    (covers : view.Covers dimension.tile size last .printtwips pos)
    (isAt : ElementAt dimension.tile size last i pos) : view.start ≤ i ∧ i ≤ view.stop := by
  obtain ⟨ordered, bound, -⟩ := valid.consecutive.member_spec member
  have nonneg := valid.start_nonneg member
  have beforeEnd : pos < position dimension.tile size .printtwips (i + 1) := by
    rw [(position_succ isAt.nonneg).1, Int.cast_add]
    exact isAt.beforeEnd
  constructor
  · by_contra before
    have notBehind := @mono _ _ _ _ valid (i + 1) view.start (by omega) (by omega) .printtwips
    exact absurd (lt_of_lt_of_le beforeEnd (Int.cast_le.mpr notBehind)) (not_lt.mpr covers.1)
  · by_contra behind
    have notBefore := @mono _ _ _ _ valid (view.stop + 1) i (by omega)
      (Int.le_add_one isAt.inside) .printtwips
    rcases covers.before_or_end with isBefore | ⟨isLast, -⟩
    · have isEarlier := lt_of_lt_of_le isBefore (Int.cast_le.mpr notBefore)
      exact absurd isEarlier (not_lt.mpr isAt.fromStart)
    · have inside := isAt.inside
      omega

/-- The element at a covered position is found. -/
theorem printElement_at (valid : Valid dimension size last spans) (member : view ∈ views spans)
    (covers : view.Covers dimension.tile size last .printtwips pos)
    (isAt : ElementAt dimension.tile size last i pos) :
    dimension.getSpanAndIndexFromPrintTwipsPos (views spans) pos = ⟨.element i, some view⟩ := by
  obtain ⟨isBehind, isInside⟩ := valid.elementAt_span member covers isAt
  obtain ⟨-, -, equal⟩ := valid.consecutive.member_spec member
  have fromStart := isAt.fromStart
  have beforeEnd := isAt.beforeEnd
  rw [equal i isBehind isInside] at beforeEnd
  have positive : (0 : ℚ) < view.size := by linarith
  have atElement := @position_printtwips_inside dimension.tile size view i equal
    (valid.start_nonneg member) isBehind (Int.le_add_one isInside)
  rw [atElement] at fromStart beforeEnd
  push_cast at fromStart beforeEnd
  rw [valid.printElement member covers, (indexAt_of_pos positive).mpr]
  push_cast
  constructor
  · linarith
  · linarith

/-- At a covered position the loss before its element is taken from it. -/
theorem tileTwips_covered (valid : Valid dimension size last spans)
    (covered : Covered dimension size last (views spans) .printtwips pos)
    (isAt : ElementAt dimension.tile size last i pos) :
    dimension.getTileTwipsPosFromPrint pos =
      some (some (pos - roundingLoss dimension.tile size i)) := by
  obtain ⟨view, member, covers⟩ := covered
  obtain ⟨isBehind, isInside⟩ := valid.elementAt_span member covers isAt
  rw [SheetDimension.getTileTwipsPosFromPrint, valid.visible, Option.bind_some,
    valid.printElement_at member covers isAt, convertPos_element valid member isBehind isInside,
    roundingLoss]
  push_cast
  congr 2
  ring

/-- At other positions it is the loss before the element with the highest index. -/
theorem tileTwips_uncovered (valid : Valid dimension size last spans) (nonneg : 0 ≤ pos)
    (uncovered : ¬ Covered dimension size last (views spans) .printtwips pos) :
    dimension.getTileTwipsPosFromPrint pos =
      some (some (pos - roundingLoss dimension.tile size dimension.maxIndex)) := by
  obtain ⟨view, member, isBehind, isInside, isLimit⟩ := valid.limit_found nonneg
  have notFound := valid.lookup_none fun view member covers => uncovered ⟨view, member, covers⟩
  rw [SheetDimension.getTileTwipsPosFromPrint, valid.visible, Option.bind_some,
    SheetDimension.getSpanAndIndexFromPrintTwipsPos, notFound]
  dsimp only
  rw [isLimit, convertPos_element valid member isBehind isInside, roundingLoss]
  push_cast
  congr 2
  ring

/-- All whole positions in the sheet are covered. -/
theorem covered_int (valid : Valid dimension size last spans) (unitName : GeometryUnit) {pos : Int}
    (nonneg : 0 ≤ pos) (inside : pos ≤ position dimension.tile size unitName (last + 1)) :
    Covered dimension size last (views spans) unitName pos := by
  have upTo (start : Int) (part : List SpanView) (isPart : ∀ view ∈ part, view ∈ views spans)
      (consecutive : Consecutive size last start part) (notEmpty : start ≤ last)
      (isBehind : position dimension.tile size unitName start ≤ pos) :
      Covered dimension size last (views spans) unitName pos := by
    induction consecutive with
    | done => omega
    | @next view rest ordered _ others ih =>
        have member := isPart view List.mem_cons_self
        by_cases isLast : view.stop = last
        · refine ⟨view, member, Int.cast_le.mpr isBehind, Int.cast_le.mpr ?_⟩
          rw [if_pos isLast, isLast]
          omega
        · rcases lt_or_ge pos (position dimension.tile size unitName (view.stop + 1)) with
            isHere | isLater
          · refine ⟨view, member, Int.cast_le.mpr isBehind, Int.cast_le.mpr ?_⟩
            rw [if_neg isLast]
            omega
          · have bound := others.bound
            exact ih (fun later isLater => isPart later (List.mem_cons_of_mem _ isLater))
              (by omega) isLater
  refine upTo 0 (views spans) (fun _ member => member) valid.consecutive
    (Int.le_trans valid.maxNonneg valid.maxInside) ?_
  rw [position_zero]
  exact nonneg

/-!
## Tile twips
-/

/-- The index in the span that covers a position is that of the equal part there. -/
theorem tileElement_index_iff (valid : Valid dimension size last spans) (member : view ∈ views spans)
    (covers : view.Covers dimension.tile size last .tiletwips pos)
    (notAfter : i ≤ view.stop) :
    (dimension.getSpanAndIndexFromTileTwipsPos (views spans) pos).index = .element i ↔
      view.PartAt dimension.tile size i pos := by
  obtain ⟨ordered, -, -⟩ := valid.consecutive.member_spec member
  have filled := valid.elementCount_mul_averageSize member
  rw [valid.tileElement member covers]
  dsimp only
  rcases covers.before_or_end with isBefore | ⟨-, isEnd⟩
  · have positive := valid.averageSize_pos member covers.1 isBefore
    rw [indexAt_of_pos positive, le_sub_iff_add_le', sub_lt_iff_lt_add']
    rfl
  · rw [← isEnd] at filled
    constructor
    · intro isIndex
      have isAfter := indexAt_end filled.symm isIndex
      omega
    · intro ⟨isBehind, isBefore⟩
      -- The end of the span is in no part of it or of what is before it.
      have count : ((i - view.start : Int) : ℚ) + 1 ≤ view.elementCount := by
        have inside : i - view.start + 1 ≤ view.elementCount := by
          rw [SpanView.elementCount]
          omega
        exact_mod_cast inside
      exfalso
      rcases le_or_gt 0 (view.averageSize dimension.tile size) with nonneg | negative
      · have shorter := mul_le_mul_of_nonneg_right count nonneg
        linarith
      · have longer := mul_le_mul_of_nonpos_right count negative.le
        linarith

/-- The offset in an element is added where the lookup in tile twips has found it. -/
theorem printTwips_covered (valid : Valid dimension size last spans) (member : view ∈ views spans)
    (covers : view.Covers dimension.tile size last .tiletwips pos) {converted : ℚ}
    (isConverted : dimension.getPrintTwipsPosFromTile pos = some (some converted)) :
    ∃ i, view.start ≤ i ∧ i ≤ view.stop ∧ view.PartAt dimension.tile size i pos ∧
      converted = pos + roundingLoss dimension.tile size i := by
  have isElement := valid.tileElement member covers
  rw [SheetDimension.getPrintTwipsPosFromTile, valid.visible, Option.bind_some] at isConverted
  obtain ⟨i, found, isFound, isBehind, isInside⟩ :=
    (dimension.found_iff_convertPos).mpr ⟨converted, isConverted⟩
  have isSpan : found = view := by
    rw [isFound] at isElement
    exact Option.some.inj (congrArg IndexAndSpan.span isElement)
  rw [isSpan] at isFound isBehind isInside
  have isIndex : (dimension.getSpanAndIndexFromTileTwipsPos (views spans) pos).index = .element i := by
    rw [isFound]
  rw [isFound, convertPos_element valid member isBehind isInside] at isConverted
  refine ⟨i, isBehind, isInside,
    (valid.tileElement_index_iff member covers isInside).mp isIndex, ?_⟩
  rw [← Option.some.inj (Option.some.inj isConverted), roundingLoss]
  push_cast
  ring

/-- Later positions are looked up in the same element or behind it. -/
theorem partAt_mono (valid : Valid dimension size last spans) {other : SpanView} {j : Int} {later : ℚ}
    (ordered : pos ≤ later) (member : view ∈ views spans) (isOther : other ∈ views spans)
    (covers : view.Covers dimension.tile size last .tiletwips pos)
    (otherCovers : other.Covers dimension.tile size last .tiletwips later)
    (isInside : i ≤ view.stop) (otherBehind : other.start ≤ j) (otherInside : j ≤ other.stop)
    (isPart : view.PartAt dimension.tile size i pos)
    (otherPart : other.PartAt dimension.tile size j later) : i ≤ j := by
  rcases valid.consecutive.trichotomy member isOther with rfl | isBefore | isAfter
  · have positive : 0 < view.averageSize dimension.tile size := by
      have nonempty := lt_of_le_of_lt isPart.1 isPart.2
      linarith
    by_contra notOrdered
    have less : ((j - view.start : Int) : ℚ) + 1 ≤ (i - view.start : Int) := by
      exact_mod_cast (by omega : j - view.start + 1 ≤ i - view.start)
    have smaller := mul_le_mul_of_nonneg_right less positive.le
    have isBefore := otherPart.2
    have isBehind := isPart.1
    linarith
  · omega
  · have notBehind := @before_later _ _ _ _ .tiletwips _ valid _ isOther member isAfter
    obtain ⟨ordered', bound, -⟩ := valid.consecutive.member_spec member
    rcases otherCovers.before_or_end with isBefore | ⟨isLast, -⟩
    · have isEarlier := lt_of_lt_of_le isBefore (Int.cast_le.mpr notBehind)
      exact absurd (lt_of_lt_of_le isEarlier covers.1) (not_lt.mpr ordered)
    · omega

end Valid

/-- Where they have data, conversions to print twips keep the order. Conversions to tile twips keep
it exactly where no more is lost between the elements of two positions than they are apart. -/
theorem conversions_monotone {dimension : SheetDimension} {size : Int → Int} {last : Int}
    {spans : List SpanData} (valid : Valid dimension size last spans) {p q : ℚ} (ordered : p ≤ q) :
    (Covered dimension size last (views spans) .tiletwips p →
      Covered dimension size last (views spans) .tiletwips q →
      ∀ x y, dimension.getPrintTwipsPosFromTile p = some (some x) →
        dimension.getPrintTwipsPosFromTile q = some (some y) → x ≤ y) ∧
    (Covered dimension size last (views spans) .printtwips p →
      Covered dimension size last (views spans) .printtwips q →
      0 ≤ p → q < position dimension.tile size .printtwips (last + 1) →
      ∃ i j x y, ElementAt dimension.tile size last i p ∧ ElementAt dimension.tile size last j q ∧
        dimension.getTileTwipsPosFromPrint p = some (some x) ∧
        dimension.getTileTwipsPosFromPrint q = some (some y) ∧
        (x ≤ y ↔ ((roundingLoss dimension.tile size j - roundingLoss dimension.tile size i : Int) : ℚ) ≤
          q - p)) := by
  constructor
  · intro ⟨view, member, covers⟩ ⟨other, isOther, otherCovers⟩ x y isX isY
    obtain ⟨i, isBehind, isInside, isPart, rfl⟩ := valid.printTwips_covered member covers isX
    obtain ⟨j, otherBehind, otherInside, otherPart, rfl⟩ :=
      valid.printTwips_covered isOther otherCovers isY
    have elements := valid.partAt_mono ordered member isOther covers otherCovers isInside
      otherBehind otherInside isPart otherPart
    have nonneg := Int.le_trans (valid.start_nonneg member) isBehind
    have losses := roundingLoss_mono dimension.tile size nonneg elements
    exact add_le_add ordered (Int.cast_le.mpr losses)
  · intro covered otherCovered nonneg inside
    obtain ⟨i, isAt⟩ := valid.exists_elementAt nonneg (lt_of_le_of_lt ordered inside)
    obtain ⟨j, otherAt⟩ := valid.exists_elementAt (le_trans nonneg ordered) inside
    refine ⟨i, j, _, _, isAt, otherAt, valid.tileTwips_covered covered isAt,
      valid.tileTwips_covered otherCovered otherAt, ?_⟩
    push_cast
    constructor
    · intro isOrdered
      linarith
    · intro isLess
      linarith

/-- An element of 299 print twips has 285 tile twips in 19 core pixels. -/
private def lossyTile : TileGeometry := ⟨3840, 256, tileTwips_positive, tilePixels_positive⟩

private def lossySizes : SizeSpans 1 := ⟨[⟨1, 299⟩], .next (by decide) .done⟩

private def allShown : BitSpans 1 := ⟨0, 1, [], endsAt_one⟩

theorem conversions_monotone_lossy :
    ∃ updated,
      SheetDimension.update { maxIndex := 1, tile := lossyTile }
        ⟨some lossySizes.encoding, some allShown.encoding, some allShown.encoding, none⟩ =
        some (true, updated) ∧
      (∃ x y, updated.getPrintTwipsPosFromTile 10 = some (some x) ∧
        updated.getPrintTwipsPosFromTile 300 = some (some y) ∧ x ≤ y) ∧
      ∃ x y, updated.getTileTwipsPosFromPrint 10 = some (some x) ∧
        updated.getTileTwipsPosFromPrint 300 = some (some y) := by
  have sizesNonneg : ∀ i, 0 ≤ i → i ≤ 1 → 0 ≤ lossySizes.sizeAt i := by
    intro i nonneg isInside
    rw [SizeSpans.sizeAt, lossySizes, valueAt, if_pos isInside]
    decide
  obtain ⟨updated, spans, isUpdated, sameTile, valid⟩ :=
    @update_valid 1 lossySizes allShown allShown { maxIndex := 1, tile := lossyTile } none
      loads_noGroups sizesNonneg (by decide) (by decide)
  have ends : 300 < position updated.tile (visibleSize lossySizes allShown allShown) .printtwips
        (1 + 1) ∧
      300 ≤ position updated.tile (visibleSize lossySizes allShown allShown) .tiletwips (1 + 1) := by
    rw [sameTile]
    decide +kernel
  have covered (unitName : GeometryUnit) (isInside : 300 ≤ position updated.tile
        (visibleSize lossySizes allShown allShown) unitName (1 + 1)) :
      Covered updated (visibleSize lossySizes allShown allShown) 1 (views spans) unitName 10 ∧
        Covered updated (visibleSize lossySizes allShown allShown) 1 (views spans) unitName 300 := by
    have first := @Valid.covered_int _ _ _ _ valid unitName 10 (by decide) (by omega)
    have second := @Valid.covered_int _ _ _ _ valid unitName 300 (by decide) isInside
    rw [Int.cast_ofNat] at first second
    exact ⟨first, second⟩
  obtain ⟨fromTile, fromPrint⟩ := @conversions_monotone _ _ _ _ valid 10 300 (by norm_num)
  obtain ⟨x, isX⟩ : ∃ x, updated.getPrintTwipsPosFromTile 10 = some (some x) :=
    ⟨10, read_updated (·.getPrintTwipsPosFromTile 10) isUpdated (by decide +kernel)⟩
  obtain ⟨y, isY⟩ : ∃ y, updated.getPrintTwipsPosFromTile 300 = some (some y) :=
    ⟨314, read_updated (·.getPrintTwipsPosFromTile 300) isUpdated (by decide +kernel)⟩
  obtain ⟨tileFirst, tileSecond⟩ := covered .tiletwips ends.2
  obtain ⟨printFirst, printSecond⟩ := covered .printtwips ends.1.le
  obtain ⟨_, _, x', y', -, -, isX', isY', -⟩ :=
    fromPrint printFirst printSecond (by norm_num) (by exact_mod_cast ends.1)
  have monotone := fromTile tileFirst tileSecond x y isX isY
  exact ⟨updated, isUpdated, ⟨x, y, isX, isY, monotone⟩, x', y', isX', isY'⟩

/-- The last twip of an element is converted to a position behind the start of the next one. -/
theorem not_conversions_monotone :
    ∃ updated,
      SheetDimension.update { maxIndex := 1, tile := lossyTile }
        ⟨some lossySizes.encoding, some allShown.encoding, some allShown.encoding, none⟩ =
        some (true, updated) ∧
      updated.getTileTwipsPosFromPrint 298 = some (some 298) ∧
      updated.getTileTwipsPosFromPrint 299 = some (some 285) := by
  have isLoaded : (SheetDimension.update { maxIndex := 1, tile := lossyTile }
      ⟨some lossySizes.encoding, some allShown.encoding, some allShown.encoding, none⟩).map
        Prod.fst = some true := by decide +kernel
  obtain ⟨⟨loaded, updated⟩, isUpdated, isTrue⟩ := Option.map_eq_some_iff.mp isLoaded
  obtain rfl : loaded = true := isTrue
  exact ⟨updated, isUpdated,
    read_updated (·.getTileTwipsPosFromPrint 298) isUpdated (by decide +kernel),
    read_updated (·.getTileTwipsPosFromPrint 299) isUpdated (by decide +kernel)⟩

end FreeOnline.Browser.SheetGeometry
