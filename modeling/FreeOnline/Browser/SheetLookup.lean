import FreeOnline.Browser.SheetPositions

/-!
# Elements at positions

A position is looked up in the spans by their rounded ends, and then among the elements of its
span by their average size, from the start of the span before rounding.
-/

set_option autoImplicit false

namespace FreeOnline.Browser.SheetGeometry

/-- An index that comes from a division. -/
inductive Index where
  | element (index : Int)
  | infinite
  | notANumber
deriving DecidableEq

structure IndexAndSpan where
  index : Index
  span : Option SpanView

/-- The index of the element at this offset from the start of a span. -/
def indexAt (start : Int) (offset sizeOne : ℚ) : Index :=
  if sizeOne = 0 then
    if offset = 0 then .notANumber else .infinite
  else .element (start + ⌊offset / sizeOne⌋)

def SpanView.valueStart (view : SpanView) (unitName : GeometryUnit) : Int :=
  match view.previous with
  | none => 0
  | some previous => previous.data.position unitName

def SpanView.valueEnd (view : SpanView) (unitName : GeometryUnit) : Int :=
  view.data.position unitName -
    match view.next with
    | none => 0
    | some _ => 1

def customDirection (value : ℚ) (unitName : GeometryUnit) (view : SpanView) : Direction :=
  if value < view.valueStart unitName then .lower
  else if view.valueEnd unitName < value then .upper
  else .here

/-- The field is the one with the positions in this unit. -/
def getSpanDataByCustomDataField (spans : List SpanView) (value : ℚ) (unitName : GeometryUnit) :
    Option SpanView :=
  (searchSpans (customDirection value unitName) spans true).bind (spans[·]?)

/-- What `_getElementDataAnyFromSpanByIndex` gives for such an index. -/
inductive ElementData where
  | undefined
  | startNotANumber
  | data (posSize : DimensionPosSize)
deriving DecidableEq

def elementData (twipsPerCorePixel : ℚ) (element : IndexAndSpan) (unitName : GeometryUnit) :
    ElementData :=
  match element.span, element.index with
  | none, _ => .undefined
  | some _, .infinite => .undefined
  | some _, .notANumber => .startNotANumber
  | some span, .element index =>
      match getElementDataAnyFromSpanByIndex twipsPerCorePixel index span unitName with
      | none => .undefined
      | some posSize => .data posSize

/-- None where a property of undefined is read, none inside where it is not a number. -/
def ElementData.startpos : ElementData → Option (Option Int)
  | .undefined => none
  | .startNotANumber => some none
  | .data posSize => some (some posSize.startpos)

namespace SheetDimension

variable (dimension : SheetDimension)

/-- The element at the end, or at the start. -/
def limitElement (spans : List SpanView) (pos : ℚ) : IndexAndSpan :=
  let index := if 0 ≤ pos then dimension.maxIndex else 0
  ⟨.element index, getSpanDataByIndex spans index⟩

def getSpanAndIndexFromTileTwipsPos (spans : List SpanView) (pos : ℚ) : IndexAndSpan :=
  match getSpanDataByCustomDataField spans pos .tiletwips with
  | none => dimension.limitElement spans pos
  | some span =>
      let posStart : ℚ := ((span.data.poscorepx - span.data.sizecore * span.elementCount : Int) : ℚ) *
        dimension.tile.twipsPerCorePixel
      let posEnd : ℚ := span.data.postiletwips
      let sizeOne := (posEnd - posStart) / span.elementCount
      ⟨indexAt span.start (pos - posStart) sizeOne, some span⟩

def getSpanAndIndexFromPrintTwipsPos (spans : List SpanView) (pos : ℚ) : IndexAndSpan :=
  match getSpanDataByCustomDataField spans pos .printtwips with
  | none => dimension.limitElement spans pos
  | some span =>
      let posStart : ℚ := (span.data.posprinttwips - span.size * span.elementCount : Int)
      ⟨indexAt span.start (pos - posStart) span.size, some span⟩

/-- The element at a position in this unit. Core pixels are converted first. -/
def getSpanAndIndexFromPos (spans : List SpanView) (pos : ℚ) : GeometryUnit → IndexAndSpan
  | .corepixels =>
      dimension.getSpanAndIndexFromTileTwipsPos spans (pos * dimension.tile.twipsPerCorePixel)
  | .tiletwips => dimension.getSpanAndIndexFromTileTwipsPos spans pos
  | .printtwips => dimension.getSpanAndIndexFromPrintTwipsPos spans pos

/-- None where a property of undefined is read. -/
def getIndexFromPos (pos : ℚ) (unitName : GeometryUnit) : Option Index :=
  dimension.visibleSizes.map fun spans =>
    (dimension.getSpanAndIndexFromPos (views spans) pos unitName).index

/-- None where a property of undefined is read, none inside where it is not a number. -/
def getSnapPos (pos : ℚ) (unitName : GeometryUnit) : Option (Option Int) :=
  dimension.visibleSizes.bind fun spans =>
    (elementData dimension.tile.twipsPerCorePixel
      (dimension.getSpanAndIndexFromPos (views spans) pos unitName) unitName).startpos

/-- The position in one unit for that in the other, at the same offset in the element. -/
def convertPos (element : IndexAndSpan) (pos : ℚ) (fromUnit toUnit : GeometryUnit) :
    Option (Option ℚ) :=
  match (elementData dimension.tile.twipsPerCorePixel element fromUnit).startpos,
    (elementData dimension.tile.twipsPerCorePixel element toUnit).startpos with
  | some (some fromStart), some (some toStart) =>
      let offset := pos - fromStart
      some (some (toStart + offset))
  | none, _ => none
  | _, none => none
  | _, _ => some none

/-- Without a zoom. -/
def getTileTwipsPosFromPrint (posPT : ℚ) : Option (Option ℚ) :=
  dimension.visibleSizes.bind fun spans =>
    dimension.convertPos (dimension.getSpanAndIndexFromPrintTwipsPos (views spans) posPT) posPT
      .printtwips .tiletwips

def getPrintTwipsPosFromTile (posTT : ℚ) : Option (Option ℚ) :=
  dimension.visibleSizes.bind fun spans =>
    dimension.convertPos (dimension.getSpanAndIndexFromTileTwipsPos (views spans) posTT) posTT
      .tiletwips .printtwips

end SheetDimension

/-!
## The span at a position
-/

/-- The positions at which the lookup finds this span. The end of the last one is among them. -/
def SpanView.Covers (view : SpanView) (tile : TileGeometry) (size : Int → Int) (last : Int)
    (unitName : GeometryUnit) (pos : ℚ) : Prop :=
  position tile size unitName view.start ≤ pos ∧
    pos ≤ (position tile size unitName (view.stop + 1) - if view.stop = last then 0 else 1 : Int)

/-- A covered position is before the end of the span, or it is the end of the sheet. -/
theorem SpanView.Covers.before_or_end {view : SpanView} {tile : TileGeometry} {size : Int → Int}
    {last : Int} {unitName : GeometryUnit} {pos : ℚ}
    (covers : view.Covers tile size last unitName pos) :
    pos < position tile size unitName (view.stop + 1) ∨
      view.stop = last ∧ pos = position tile size unitName (view.stop + 1) := by
  obtain ⟨-, isInside⟩ := covers
  split at isInside
  · next isLast =>
      rw [Int.sub_zero] at isInside
      rcases lt_or_eq_of_le isInside with isBefore | isEnd
      · exact .inl isBefore
      · exact .inr ⟨isLast, isEnd⟩
  · exact .inl (lt_of_le_of_lt isInside (Int.cast_lt.mpr (Int.sub_one_lt_of_le (Int.le_refl _))))

theorem next_eq_none_iff {size : Int → Int} {last start : Int} {previous : Option SpanData}
    {spans : List SpanData} (consecutive : Consecutive size last start (viewsFrom previous spans))
    {view : SpanView} (member : view ∈ viewsFrom previous spans) :
    view.next = none ↔ view.stop = last := by
  induction spans generalizing previous start with
  | nil => cases member
  | cons span spans ih =>
      rw [viewsFrom] at consecutive member
      cases consecutive with
      | next ordered equal others =>
          cases member with
          | tail _ isLater => exact ih others isLater
          | head =>
              cases spans with
              | nil =>
                  generalize isStop : SpanView.stop ⟨previous, span, [].head?⟩ + 1 = stop at others
                  cases others with
                  | done => exact ⟨fun _ => add_right_cancel isStop, fun _ => rfl⟩
              | cons next rest =>
                  have isNext := (others.member_spec List.mem_cons_self)
                  have isBehind := others.behind List.mem_cons_self
                  constructor
                  · intro isNone
                    cases isNone
                  · intro isLast
                    omega

section

variable {dimension : SheetDimension} {size : Int → Int} {last : Int} {spans : List SpanData}
  {unitName : GeometryUnit} {pos : ℚ} {view : SpanView}

theorem Measured.valueStart_eq (measured : Measured dimension size last spans)
    (member : view ∈ views spans) :
    view.valueStart unitName = position dimension.tile size unitName view.start := by
  cases isPrevious : view.previous with
  | none => rw [SpanView.valueStart, SpanView.start, isPrevious, position_zero]
  | some previous =>
      rw [SpanView.valueStart, isPrevious]
      exact (measured.positioned view member).previous previous isPrevious unitName

theorem Measured.valueEnd_eq (measured : Measured dimension size last spans)
    (member : view ∈ views spans) :
    view.valueEnd unitName = position dimension.tile size unitName (view.stop + 1) -
      if view.stop = last then 0 else 1 := by
  have isLast := next_eq_none_iff measured.consecutive member
  rw [SpanView.valueEnd, (measured.positioned view member).stop]
  cases isNext : view.next with
  | none => rw [if_pos (isLast.mp isNext)]
  | some next =>
      have notLast : ¬ view.stop = last := by
        rw [← isLast, isNext]
        exact nofun
      rw [if_neg notLast]

theorem Measured.covers_iff (measured : Measured dimension size last spans)
    (member : view ∈ views spans) :
    view.Covers dimension.tile size last unitName pos ↔
      customDirection pos unitName view = .here := by
  rw [SpanView.Covers, customDirection, ← measured.valueStart_eq member,
    ← measured.valueEnd_eq member]
  constructor
  · intro ⟨isBehind, isInside⟩
    rw [if_neg (not_lt.mpr isBehind), if_neg (not_lt.mpr isInside)]
  · intro isHere
    split at isHere
    · cases isHere
    · next isBehind =>
        split at isHere
        · cases isHere
        · next isInside => exact ⟨not_lt.mp isBehind, not_lt.mp isInside⟩

end

/-- A dimension whose elements have a size or none, with a highest index among them. -/
structure Valid (dimension : SheetDimension) (size : Int → Int) (last : Int)
    (spans : List SpanData) : Prop extends Measured dimension size last spans where
  sizeNonneg : ∀ i, 0 ≤ i → i ≤ last → 0 ≤ size i
  maxNonneg : 0 ≤ dimension.maxIndex
  maxInside : dimension.maxIndex ≤ last

theorem loads_noGroups (encoding : Library.Text) (isThere : none = some encoding) :
    loadOutlines encoding ≠ none := by
  cases isThere

/-- An update with sizes that are not negative gives a valid dimension. -/
theorem update_valid {last : Int} (sizes : SizeSpans last) (hidden filtered : BitSpans last)
    (dimension : SheetDimension) {groups : Option Library.Text}
    (loadsGroups : ∀ encoding, groups = some encoding → loadOutlines encoding ≠ none)
    (sizesNonneg : ∀ i, 0 ≤ i → i ≤ last → 0 ≤ sizes.sizeAt i)
    (maxNonneg : 0 ≤ dimension.maxIndex) (maxInside : dimension.maxIndex ≤ last) :
    ∃ updated spans,
      dimension.update ⟨some sizes.encoding, some hidden.encoding, some filtered.encoding, groups⟩ =
        some (true, updated) ∧
      updated.tile = dimension.tile ∧
      Valid updated (visibleSize sizes hidden filtered) last spans := by
  obtain ⟨updated, visible, isUpdated, sameTile, sameMax, isVisible, described⟩ :=
    update_measured sizes hidden filtered dimension loadsGroups
  refine ⟨updated, _, isUpdated, sameTile, measured_positioned described isVisible rfl, ?_, ?_, ?_⟩
  · intro i nonneg isInside
    rw [visibleSize]
    split
    · exact Int.le_refl 0
    · exact sizesNonneg i nonneg isInside
  · exact sameMax ▸ maxNonneg
  · exact sameMax ▸ maxInside

/-- What is read of the dimension that an update gives. -/
theorem read_updated {α : Type} {result : Option (Bool × SheetDimension)} {updated : SheetDimension}
    {value : α} (read : SheetDimension → α) (isUpdated : result = some (true, updated))
    (isRead : (result.map fun loaded => read loaded.2) = some value) : read updated = value := by
  rw [isUpdated] at isRead
  exact Option.some.inj isRead

namespace Valid

variable {dimension : SheetDimension} {size : Int → Int} {last : Int} {spans : List SpanData}
  {unitName : GeometryUnit} {pos : ℚ} {view : SpanView}

theorem mono (valid : Valid dimension size last spans) {start stop : Int}
    (ordered : start ≤ stop) (isInside : stop ≤ last + 1) (unitName : GeometryUnit) :
    position dimension.tile size unitName start ≤ position dimension.tile size unitName stop :=
  position_mono valid.sizeNonneg ordered isInside unitName

theorem start_nonneg (valid : Valid dimension size last spans) (member : view ∈ views spans) :
    0 ≤ view.start :=
  valid.consecutive.behind member

/-- A position before the end of a span is before all that later spans cover. -/
theorem before_later (valid : Valid dimension size last spans) {later : SpanView}
    (member : view ∈ views spans) (isLater : later ∈ views spans) (ordered : view.stop < later.start) :
    position dimension.tile size unitName (view.stop + 1) ≤
      position dimension.tile size unitName later.start := by
  obtain ⟨startsBefore, -, -⟩ := valid.consecutive.member_spec member
  obtain ⟨laterBefore, isInside, -⟩ := valid.consecutive.member_spec isLater
  have nonneg := valid.start_nonneg member
  exact valid.mono ordered (by omega) unitName

theorem descends (valid : Valid dimension size last spans) :
    (views spans).Pairwise fun earlier later =>
      customDirection pos unitName earlier ≠ .upper → customDirection pos unitName later = .lower := by
  apply valid.consecutive.ordered.imp_of_mem
  intro earlier later member isLater ⟨startsBefore, stopsBefore⟩ notUpper
  have ordered := @before_later _ _ _ _ unitName _ valid later member isLater stopsBefore
  obtain ⟨-, laterInside, -⟩ := valid.consecutive.member_spec isLater
  obtain ⟨laterBefore, -, -⟩ := valid.consecutive.member_spec isLater
  have notLast : ¬ earlier.stop = last := by omega
  have atEnd := @Measured.valueEnd_eq _ _ _ _ unitName _ valid.toMeasured member
  have atStart := @Measured.valueStart_eq _ _ _ _ unitName _ valid.toMeasured member
  have atLater := @Measured.valueStart_eq _ _ _ _ unitName _ valid.toMeasured isLater
  rw [if_neg notLast] at atEnd
  have isBefore : pos < later.valueStart unitName := by
    have startBefore := valid.mono (Int.le_add_one startsBefore)
      (by omega) unitName
    have beforeLater : earlier.valueStart unitName ≤ later.valueStart unitName := by omega
    have endBefore : earlier.valueEnd unitName < later.valueStart unitName := by omega
    rw [customDirection] at notUpper
    split at notUpper
    · next isLower => exact lt_of_lt_of_le isLower (Int.cast_le.mpr beforeLater)
    · split at notUpper
      · exact absurd rfl notUpper
      · next notAbove => exact lt_of_le_of_lt (not_lt.mp notAbove) (Int.cast_lt.mpr endBefore)
  rw [customDirection, if_pos isBefore]

theorem lookup_found (valid : Valid dimension size last spans) (member : view ∈ views spans)
    (covers : view.Covers dimension.tile size last unitName pos) :
    getSpanDataByCustomDataField (views spans) pos unitName = some view :=
  searchSpans_found valid.descends member ((valid.covers_iff member).mp covers) true

theorem lookup_none (valid : Valid dimension size last spans)
    (uncovered : ∀ view ∈ views spans, ¬ view.Covers dimension.tile size last unitName pos) :
    getSpanDataByCustomDataField (views spans) pos unitName = none := by
  have notFound : searchSpans (customDirection pos unitName) (views spans) true = none := by
    unfold searchSpans
    apply binarySearch_none
    intro index inside
    rw [List.getElem?_eq_getElem inside, Ne, ← valid.covers_iff (List.getElem_mem inside)]
    exact uncovered _ (List.getElem_mem inside)
  rw [getSpanDataByCustomDataField, notFound]
  rfl

/-- Where no span is found, the limits have data. -/
theorem limit_found (valid : Valid dimension size last spans) (nonneg : 0 ≤ pos) :
    ∃ view ∈ views spans, view.start ≤ dimension.maxIndex ∧ dimension.maxIndex ≤ view.stop ∧
      dimension.limitElement (views spans) pos = ⟨.element dimension.maxIndex, some view⟩ := by
  obtain ⟨view, member, isBehind, isInside⟩ :=
    valid.consecutive.covers valid.maxNonneg valid.maxInside
  refine ⟨view, member, isBehind, isInside, ?_⟩
  rw [SheetDimension.limitElement, if_pos nonneg, getSpanDataByIndex_found valid.consecutive member isBehind isInside]

end Valid

/-!
## The element in the span
-/

theorem indexAt_of_pos {start i : Int} {offset sizeOne : ℚ} (positive : 0 < sizeOne) :
    indexAt start offset sizeOne = .element i ↔
      (i - start : Int) * sizeOne ≤ offset ∧ offset < ((i - start : Int) + 1) * sizeOne := by
  rw [indexAt, if_neg positive.ne', Index.element.injEq, ← le_div_iff₀ positive,
    ← div_lt_iff₀ positive, ← Int.floor_eq_iff]
  constructor
  · intro isIndex
    omega
  · intro isRelative
    omega

/-- The start of a span in tile twips, before rounding. -/
def SpanView.unroundedStart (view : SpanView) (tile : TileGeometry) (size : Int → Int) : ℚ :=
  (position tile size .corepixels view.start : ℚ) * tile.twipsPerCorePixel

/-- The size in tile twips that the lookup takes for each element of a span. -/
def SpanView.averageSize (view : SpanView) (tile : TileGeometry) (size : Int → Int) : ℚ :=
  (position tile size .tiletwips (view.stop + 1) - view.unroundedStart tile size) /
    view.elementCount

theorem SpanView.elementCount_pos {view : SpanView} (ordered : view.start ≤ view.stop) :
    0 < view.elementCount := by
  rw [SpanView.elementCount]
  omega

/-- An element that was found, with its span. -/
def IndexAndSpan.Found (element : IndexAndSpan) : Prop :=
  ∃ i view, element = ⟨.element i, some view⟩ ∧ view.start ≤ i ∧ i ≤ view.stop

theorem IndexAndSpan.found_iff_startpos {element : IndexAndSpan} {twipsPerCorePixel : ℚ}
    {unitName : GeometryUnit} :
    element.Found ↔
      ∃ startpos, (elementData twipsPerCorePixel element unitName).startpos = some (some startpos) := by
  constructor
  · intro ⟨i, view, isElement, isBehind, isInside⟩
    have notOutside : ¬ (i < view.start ∨ view.stop < i) := by omega
    rw [isElement]
    unfold elementData getElementDataAnyFromSpanByIndex
    dsimp only
    rw [if_neg notOutside]
    cases unitName with
    | corepixels => exact ⟨_, rfl⟩
    | tiletwips => exact ⟨_, rfl⟩
    | printtwips => exact ⟨_, rfl⟩
  · intro ⟨startpos, isStart⟩
    obtain ⟨index, span⟩ := element
    cases span with
    | none => cases isStart
    | some view =>
        cases index with
        | infinite => cases isStart
        | notANumber => cases isStart
        | element i =>
            refine ⟨i, view, rfl, ?_⟩
            unfold elementData getElementDataAnyFromSpanByIndex at isStart
            by_contra notInside
            have outside : i < view.start ∨ view.stop < i := by omega
            dsimp only at isStart
            rw [if_pos outside] at isStart
            cases isStart

theorem SheetDimension.found_iff_convertPos (dimension : SheetDimension) {element : IndexAndSpan}
    {pos : ℚ} {fromUnit toUnit : GeometryUnit} :
    element.Found ↔ ∃ converted,
      dimension.convertPos element pos fromUnit toUnit = some (some converted) := by
  constructor
  · intro found
    obtain ⟨fromStart, isFrom⟩ := IndexAndSpan.found_iff_startpos.mp found
    obtain ⟨toStart, isTo⟩ := IndexAndSpan.found_iff_startpos.mp found
    refine ⟨toStart + (pos - fromStart), ?_⟩
    rw [SheetDimension.convertPos, isFrom, isTo]
  · intro ⟨converted, isConverted⟩
    rw [SheetDimension.convertPos] at isConverted
    split at isConverted
    · next isFrom _ => exact IndexAndSpan.found_iff_startpos.mpr ⟨_, isFrom⟩
    · cases isConverted
    · cases isConverted
    · cases isConverted

/-- The end of a span belongs to the element behind it. -/
theorem indexAt_end {view : SpanView} {offset sizeOne : ℚ} {i : Int}
    (isEnd : offset = view.elementCount * sizeOne)
    (isIndex : indexAt view.start offset sizeOne = .element i) : i = view.stop + 1 := by
  rw [indexAt] at isIndex
  split at isIndex
  · split at isIndex
    · cases isIndex
    · cases isIndex
  · next nonzero =>
      rw [isEnd, mul_div_cancel_right₀ _ nonzero, Int.floor_intCast, SpanView.elementCount] at isIndex
      cases isIndex
      ring

namespace Valid

variable {dimension : SheetDimension} {size : Int → Int} {last : Int} {spans : List SpanData}
  {pos : ℚ} {view : SpanView}

theorem tileElement (valid : Valid dimension size last spans) (member : view ∈ views spans)
    (covers : view.Covers dimension.tile size last .tiletwips pos) :
    dimension.getSpanAndIndexFromTileTwipsPos (views spans) pos =
      ⟨indexAt view.start (pos - view.unroundedStart dimension.tile size)
        (view.averageSize dimension.tile size), some view⟩ := by
  obtain ⟨ordered, -, equal⟩ := valid.consecutive.member_spec member
  have positioned := valid.positioned view member
  have coreStop : view.data.poscorepx = _ := positioned.stop .corepixels
  have tileStop : view.data.postiletwips = _ := positioned.stop .tiletwips
  have coreStart : view.data.poscorepx - view.data.sizecore * view.elementCount =
      position dimension.tile size .corepixels view.start := by
    rw [coreStop, positioned.sizecore, position_corepixels_inside equal (valid.start_nonneg member)
      (Int.le_add_one ordered) (Int.le_refl _), SpanView.elementCount]
    ring
  rw [SheetDimension.getSpanAndIndexFromTileTwipsPos, valid.lookup_found member covers]
  dsimp only
  rw [coreStart, tileStop]
  rfl

theorem printElement (valid : Valid dimension size last spans) (member : view ∈ views spans)
    (covers : view.Covers dimension.tile size last .printtwips pos) :
    dimension.getSpanAndIndexFromPrintTwipsPos (views spans) pos =
      ⟨indexAt view.start (pos - position dimension.tile size .printtwips view.start) view.size,
        some view⟩ := by
  obtain ⟨ordered, -, equal⟩ := valid.consecutive.member_spec member
  have printStop : view.data.posprinttwips = _ := (valid.positioned view member).stop .printtwips
  have printStart : view.data.posprinttwips - view.size * view.elementCount =
      position dimension.tile size .printtwips view.start := by
    rw [printStop, position_printtwips_inside equal (valid.start_nonneg member)
      (Int.le_add_one ordered) (Int.le_refl _), SpanView.elementCount]
    ring
  rw [SheetDimension.getSpanAndIndexFromPrintTwipsPos, valid.lookup_found member covers]
  dsimp only
  rw [printStart]

/-- The average is positive where there is a position between the rounded ends. -/
theorem averageSize_pos (valid : Valid dimension size last spans) (member : view ∈ views spans)
    (isBehind : position dimension.tile size .tiletwips view.start ≤ pos)
    (isBefore : pos < position dimension.tile size .tiletwips (view.stop + 1)) :
    0 < view.averageSize dimension.tile size := by
  obtain ⟨ordered, -, -⟩ := valid.consecutive.member_spec member
  have rounded : position dimension.tile size .tiletwips view.start <
      position dimension.tile size .tiletwips (view.stop + 1) :=
    Int.cast_lt.mp (lt_of_le_of_lt isBehind isBefore)
  have unrounded : view.unroundedStart dimension.tile size <
      position dimension.tile size .tiletwips (view.stop + 1) := Int.floor_lt.mp rounded
  exact div_pos (sub_pos.mpr unrounded) (Int.cast_pos.mpr (SpanView.elementCount_pos ordered))

theorem elementCount_mul_averageSize (valid : Valid dimension size last spans)
    (member : view ∈ views spans) :
    (view.elementCount : ℚ) * view.averageSize dimension.tile size =
      position dimension.tile size .tiletwips (view.stop + 1) -
        view.unroundedStart dimension.tile size := by
  obtain ⟨ordered, -, -⟩ := valid.consecutive.member_spec member
  have positive : (0 : ℚ) < view.elementCount :=
    Int.cast_pos.mpr (SpanView.elementCount_pos ordered)
  exact mul_div_cancel₀ _ positive.ne'

end Valid

end FreeOnline.Browser.SheetGeometry
