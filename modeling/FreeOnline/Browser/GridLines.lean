import FreeOnline.Browser.SheetZoom

/-!
# Grid lines

The starts and ends of elements in a range of core pixels. Each span with elements in the range
goes through its own, from the first one behind the start of the range.
-/

set_option autoImplicit false

namespace FreeOnline.Browser.SheetGeometry

/-- What the callback of `forEachInCorePixelRange` is called with. -/
structure GridLine where
  startPosCorePx : Int
  index : Int
deriving DecidableEq

/-- The sign is that of the dividend. Without a divisor the remainder is not a number. -/
def remainder (dividend divisor : Int) : Option Int :=
  if divisor = 0 then none else some (dividend.tmod divisor)

/-- The loop over the lines of a span. None where the fuel runs out. -/
def lineLoop (sizecore lastCorePx : Int) : Nat → Int → Int → Option (List GridLine)
  | 0, _, _ => none
  | fuel + 1, pos, index =>
      if pos ≤ lastCorePx then
        (lineLoop sizecore lastCorePx fuel (pos + sizecore) (index + 1)).map
          fun lines => ⟨pos, index⟩ :: lines
      else some []

def spanLines (fuel : Nat) (startPix endPix : Int) (spanData : SpanView) :
    Option (List GridLine) :=
  let sizecore := spanData.data.sizecore
  let spanFirstCorePx := spanData.data.poscorepx - sizecore * spanData.elementCount
  if spanFirstCorePx < endPix ∧ startPix < spanData.data.poscorepx then
    match remainder (startPix - spanFirstCorePx) sizecore with
    -- Nothing is less than what is not a number.
    | none => some []
    | some past =>
        let firstCorePx := max spanFirstCorePx (startPix + sizecore - past)
        let lastCorePx := min endPix spanData.data.poscorepx
        let index := spanData.start + (firstCorePx - spanFirstCorePx).fdiv sizecore
        lineLoop sizecore lastCorePx fuel firstCorePx index
  else some []

def spansLines (fuel : Nat) (startPix endPix : Int) : List SpanView → Option (List GridLine)
  | [] => some []
  | spanData :: spans =>
      match spanLines fuel startPix endPix spanData, spansLines fuel startPix endPix spans with
      | some lines, some rest => some (lines ++ rest)
      | _, _ => none

/-- The calls of the callback. None where the fuel runs out or a property of undefined is read. -/
def SheetDimension.forEachInCorePixelRange (dimension : SheetDimension) (fuel : Nat)
    (startPix endPix : Int) : Option (List GridLine) :=
  dimension.visibleSizes.bind fun spans => spansLines fuel startPix endPix (views spans)

/-!
## The lines of a span
-/

theorem lineLoop_lines {sizecore lastCorePx : Int} (positive : 0 < sizecore) {fuel : Nat}
    {pos : Int} (enough : (lastCorePx - pos + 1).toNat < fuel) (index : Int) :
    ∃ lines, lineLoop sizecore lastCorePx fuel pos index = some lines ∧
      ∀ line, line ∈ lines ↔ ∃ passed : Int, 0 ≤ passed ∧ pos + sizecore * passed ≤ lastCorePx ∧
        line = ⟨pos + sizecore * passed, index + passed⟩ := by
  induction fuel generalizing pos index with
  | zero => cases enough
  | succ fuel ih =>
      rw [lineLoop]
      by_cases inside : pos ≤ lastCorePx
      · obtain ⟨lines, isLoop, isLines⟩ :=
          @ih (pos + sizecore) (by omega) (index + 1)
        rw [if_pos inside, isLoop, Option.map_some]
        refine ⟨_, rfl, fun line => ?_⟩
        rw [List.mem_cons, isLines]
        constructor
        · rintro (isFirst | ⟨passed, nonneg, isInside, isLine⟩)
          · refine ⟨0, Int.le_refl 0, ?_, ?_⟩
            · rw [Int.mul_zero, Int.add_zero]
              exact inside
            · rw [Int.mul_zero, Int.add_zero, Int.add_zero]
              exact isFirst
          · have next : pos + sizecore + sizecore * passed = pos + sizecore * (passed + 1) := by
              ring
            rw [next] at isInside isLine
            rw [Int.add_assoc, Int.add_comm 1] at isLine
            exact ⟨passed + 1, by omega, isInside, isLine⟩
        · rintro ⟨passed, nonneg, isInside, isLine⟩
          rcases eq_or_lt_of_le nonneg with rfl | isLater
          · left
            rw [Int.mul_zero, Int.add_zero, Int.add_zero] at isLine
            exact isLine
          · right
            have next : pos + sizecore * passed = pos + sizecore + sizecore * (passed - 1) := by
              ring
            have isIndex : index + passed = index + 1 + (passed - 1) := by ring
            rw [next] at isInside isLine
            rw [isIndex] at isLine
            exact ⟨passed - 1, by omega, isInside, isLine⟩
      · rw [if_neg inside]
        refine ⟨[], rfl, fun line => iff_of_false List.not_mem_nil ?_⟩
        rintro ⟨passed, nonneg, isInside, -⟩
        have notBefore : 0 ≤ sizecore * passed := Int.mul_nonneg positive.le nonneg
        omega

/-- The lines from an element on are those of the elements up to the end of the span and of the range. -/
theorem lineLoop_elements {sizecore spanFirst endPix start stop first : Int} (positive : 0 < sizecore)
    {fuel : Nat} (enough : (endPix - (spanFirst + sizecore * first) + 1).toNat < fuel) :
    ∃ lines, lineLoop sizecore (min endPix (spanFirst + sizecore * (stop + 1 - start))) fuel
        (spanFirst + sizecore * first) (start + first) = some lines ∧
      ∀ line, line ∈ lines ↔ ∃ i, start + first ≤ i ∧ i ≤ stop + 1 ∧
        spanFirst + sizecore * (i - start) ≤ endPix ∧
          line = ⟨spanFirst + sizecore * (i - start), i⟩ := by
  obtain ⟨lines, isLoop, isLines⟩ := @lineLoop_lines sizecore
    (min endPix (spanFirst + sizecore * (stop + 1 - start))) positive fuel
    (spanFirst + sizecore * first) (by omega) (start + first)
  have isPos (passed : Int) : spanFirst + sizecore * first + sizecore * passed =
      spanFirst + sizecore * (start + first + passed - start) := by ring
  refine ⟨lines, isLoop, fun line => (isLines line).trans ?_⟩
  constructor
  · rintro ⟨passed, nonneg, notBehind, rfl⟩
    rw [isPos] at notBehind ⊢
    obtain ⟨inRange, beforeStop⟩ := le_min_iff.mp notBehind
    have notPast : start + first + passed - start ≤ stop + 1 - start :=
      Int.le_of_mul_le_mul_left (Int.le_of_add_le_add_left beforeStop) positive
    exact ⟨start + first + passed, by omega, by omega, inRange, rfl⟩
  · rintro ⟨i, isBehind, isBefore, inRange, rfl⟩
    have isIndex : start + first + (i - start - first) = i := by ring
    refine ⟨i - start - first, by omega, ?_, ?_⟩
    · rw [isPos, isIndex]
      refine le_min inRange (Int.add_le_add_left ?_ _)
      exact Int.mul_le_mul_of_nonneg_left (by omega) positive.le
    · rw [isPos, isIndex]

/-- The first line is behind the start of the range, and no later one is before it. Where the range
starts less than an element before the span, this passes the start of the span. -/
theorem firstLine {sizecore spanFirst startPix : Int} (positive : 0 < sizecore) :
    ∃ first : Int, 0 ≤ first ∧
      max spanFirst (startPix + sizecore - (startPix - spanFirst).tmod sizecore) =
        spanFirst + sizecore * first ∧
      startPix < spanFirst + sizecore * first ∧
      ∀ passed, 0 < passed → startPix < spanFirst + sizecore * passed → first ≤ passed := by
  rcases lt_or_ge startPix spanFirst with before | inside
  · -- The remainder is that of the distance, with the other sign.
    have isPast : (startPix - spanFirst).tmod sizecore = -((spanFirst - startPix) % sizecore) := by
      rw [← Int.neg_sub, Int.neg_tmod, Int.tmod_eq_emod_of_nonneg (Int.sub_nonneg.mpr before.le)]
    have isLeft := Int.emod_add_mul_ediv (spanFirst - startPix) sizecore
    have nonneg := Int.emod_nonneg (spanFirst - startPix) positive.ne'
    have less := Int.emod_lt_of_pos (spanFirst - startPix) positive
    rw [isPast]
    rcases lt_or_ge (spanFirst - startPix) sizecore with near | far
    · have isSmall := Int.emod_eq_of_lt (Int.sub_nonneg.mpr before.le) near
      refine ⟨1, by omega, ?_, by omega, fun passed isLater _ => isLater⟩
      omega
    · refine ⟨0, Int.le_refl 0, ?_, by omega, fun passed isLater _ => isLater.le⟩
      have notBefore : 1 ≤ (spanFirst - startPix) / sizecore :=
        Int.le_ediv_of_mul_le positive (by omega)
      have reaches : sizecore * 1 ≤ sizecore * ((spanFirst - startPix) / sizecore) :=
        Int.mul_le_mul_of_nonneg_left notBefore positive.le
      omega
  · have isPast : (startPix - spanFirst).tmod sizecore = (startPix - spanFirst) % sizecore :=
      Int.tmod_eq_emod_of_nonneg (Int.sub_nonneg.mpr inside)
    have isLeft := Int.emod_add_mul_ediv (startPix - spanFirst) sizecore
    have nonneg := Int.emod_nonneg (startPix - spanFirst) positive.ne'
    have less := Int.emod_lt_of_pos (startPix - spanFirst) positive
    have wholeNonneg : 0 ≤ (startPix - spanFirst) / sizecore :=
      Int.ediv_nonneg (Int.sub_nonneg.mpr inside) positive.le
    have next : sizecore * ((startPix - spanFirst) / sizecore + 1) =
        sizecore * ((startPix - spanFirst) / sizecore) + sizecore := by ring
    rw [isPast]
    refine ⟨(startPix - spanFirst) / sizecore + 1, by omega, by omega, by omega, ?_⟩
    intro passed _ isBehind
    by_contra notReached
    have atMost : sizecore * passed ≤ sizecore * ((startPix - spanFirst) / sizecore) :=
      Int.mul_le_mul_of_nonneg_left (by omega) positive.le
    omega

section

variable {dimension : SheetDimension} {size : Int → Int} {last : Int} {spans : List SpanData}
  {startPix endPix : Int} {view : SpanView}

/-- The lines of a span with a size are its elements' starts and its end in the range, but for its
own start at times. -/
theorem Valid.spanLines_lines (valid : Valid dimension size last spans)
    (member : view ∈ views spans) {fuel : Nat} (enough : (endPix - startPix).toNat < fuel) :
    ∃ lines, spanLines fuel startPix endPix view = some lines ∧
      (∀ line ∈ lines, coreSize dimension.tile view.size ≠ 0 ∧
        view.start ≤ line.index ∧ line.index ≤ view.stop + 1 ∧
        line.startPosCorePx = position dimension.tile size .corepixels line.index ∧
        startPix < line.startPosCorePx ∧ line.startPosCorePx ≤ endPix) ∧
      ∀ i, view.start < i → i ≤ view.stop + 1 → coreSize dimension.tile view.size ≠ 0 →
        startPix < position dimension.tile size .corepixels i →
        position dimension.tile size .corepixels i ≤ endPix →
        ⟨position dimension.tile size .corepixels i, i⟩ ∈ lines := by
  obtain ⟨startsBefore, isInside, equal⟩ := valid.consecutive.member_spec member
  have nonneg := valid.start_nonneg member
  have positioned := valid.positioned view member
  have inSpan : ∀ {i}, view.start ≤ i → i ≤ view.stop + 1 →
      position dimension.tile size .corepixels i =
        position dimension.tile size .corepixels view.start +
          coreSize dimension.tile view.size * (i - view.start) :=
    fun isBehind isBefore => position_corepixels_inside equal nonneg isBehind isBefore
  have sizeNonneg : 0 ≤ coreSize dimension.tile view.size := by
    rw [← equal view.start (Int.le_refl _) startsBefore]
    exact valid.coreSize_nonneg _ nonneg (Int.le_trans startsBefore isInside)
  have atStop : view.data.poscorepx = position dimension.tile size .corepixels (view.stop + 1) :=
    positioned.stop .corepixels
  have atStart : view.data.poscorepx - view.data.sizecore * view.elementCount =
      position dimension.tile size .corepixels view.start := by
    rw [atStop, positioned.sizecore, inSpan (Int.le_add_one startsBefore) (Int.le_refl _),
      SpanView.elementCount]
    ring
  unfold spanLines
  dsimp only
  rw [atStart, atStop, positioned.sizecore]
  generalize coreSize dimension.tile view.size = sizecore at *
  have stopInSpan := inSpan (Int.le_add_one startsBefore) (Int.le_refl _)
  rcases eq_or_lt_of_le sizeNonneg with rfl | positive
  · rw [remainder, if_pos rfl, ite_self]
    exact ⟨[], rfl, fun _ isLine => absurd isLine List.not_mem_nil,
      fun _ _ _ sized => absurd rfl sized⟩
  · have sized : sizecore ≠ 0 := positive.ne'
    by_cases overlaps : position dimension.tile size .corepixels view.start < endPix ∧
        startPix < position dimension.tile size .corepixels (view.stop + 1)
    · rw [if_pos overlaps, remainder, if_neg sized]
      dsimp only
      obtain ⟨first, firstNonneg, isFirst, isBehind, isLeast⟩ :=
        @firstLine sizecore (position dimension.tile size .corepixels view.start) startPix positive
      rw [isFirst, add_sub_cancel_left, Int.mul_fdiv_cancel_left _ sized]
      rw [stopInSpan]
      obtain ⟨lines, isLoop, isLines⟩ := @lineLoop_elements sizecore
        (position dimension.tile size .corepixels view.start) endPix view.start view.stop first
        positive fuel (by omega)
      refine ⟨lines, isLoop, ?_, ?_⟩
      · intro line isLine
        obtain ⟨i, notEarlier, isBefore, inRange, rfl⟩ := (isLines line).mp isLine
        have behindStart : view.start ≤ i := by omega
        have later : sizecore * first ≤ sizecore * (i - view.start) :=
          Int.mul_le_mul_of_nonneg_left (by omega) positive.le
        refine ⟨sized, behindStart, isBefore, (inSpan behindStart isBefore).symm, ?_, inRange⟩
        dsimp only
        omega
      · intro i isBehindStart isBefore _ inRangeStart inRangeEnd
        have isAt := inSpan isBehindStart.le isBefore
        rw [isAt] at inRangeStart inRangeEnd ⊢
        have notEarlier := isLeast (i - view.start) (by omega) inRangeStart
        exact (isLines _).mpr ⟨i, by omega, isBefore, inRangeEnd, rfl⟩
    · rw [if_neg overlaps]
      refine ⟨[], rfl, fun _ isLine => absurd isLine List.not_mem_nil, ?_⟩
      intro i isBehindStart isBefore _ inRangeStart inRangeEnd
      have isAt := inSpan isBehindStart.le isBefore
      have beforeStop := valid.mono isBefore (Int.add_le_add_right isInside 1) .corepixels
      have grows : 0 < sizecore * (i - view.start) := Int.mul_pos positive (by omega)
      exact absurd ⟨by omega, by omega⟩ overlaps

theorem Valid.spansLines_lines (valid : Valid dimension size last spans) {fuel : Nat}
    (enough : (endPix - startPix).toNat < fuel) {part : List SpanView}
    (members : ∀ view ∈ part, view ∈ views spans) :
    ∃ lines, spansLines fuel startPix endPix part = some lines ∧
      ∀ line, line ∈ lines ↔
        ∃ view ∈ part, ∃ found,
          spanLines fuel startPix endPix view = some found ∧ line ∈ found := by
  induction part with
  | nil => exact ⟨[], rfl, fun line => iff_of_false List.not_mem_nil (by simp)⟩
  | cons view later ih =>
      obtain ⟨rest, isRest, restLines⟩ :=
        ih fun other isLater => members other (List.mem_cons_of_mem _ isLater)
      obtain ⟨lines, isLines, -⟩ :=
        valid.spanLines_lines (members view List.mem_cons_self) enough
      refine ⟨lines ++ rest, ?_, fun line => ?_⟩
      · rw [spansLines, isLines, isRest]
      · rw [List.mem_append, restLines]
        constructor
        · rintro (inFirst | ⟨other, isLater, found⟩)
          · exact ⟨view, List.mem_cons_self, lines, isLines, inFirst⟩
          · exact ⟨other, List.mem_cons_of_mem _ isLater, found⟩
        · rintro ⟨other, isOther, found, isFound, inFound⟩
          rcases List.mem_cons.mp isOther with rfl | isLater
          · left
            rw [isLines] at isFound
            cases isFound
            exact inFound
          · exact .inr ⟨other, isLater, found, isFound, inFound⟩

/-- Every boundary but that at the start of the sheet is the end of an element with a size. -/
theorem boundary_sized {tile : TileGeometry} {i : Nat} (isBehind : 0 < position tile size .corepixels i) :
    ∃ j : Int, 0 ≤ j ∧ j < i ∧ coreSize tile (size j) ≠ 0 ∧
      position tile size .corepixels (j + 1) = position tile size .corepixels i := by
  induction i with
  | zero =>
      rw [Nat.cast_zero, position_zero] at isBehind
      cases isBehind
  | succ i ih =>
      have added : position tile size .corepixels (i + 1) =
          position tile size .corepixels i + coreSize tile (size i) :=
        total_succ (coreSize tile) (Int.natCast_nonneg i)
      rw [Nat.cast_succ] at isBehind ⊢
      by_cases isEmpty : coreSize tile (size i) = 0
      · rw [isEmpty, add_zero] at added
        rw [added] at isBehind ⊢
        obtain ⟨j, nonneg, before, sized, isAt⟩ := ih isBehind
        exact ⟨j, nonneg, by omega, sized, isAt⟩
      · exact ⟨i, Int.natCast_nonneg i, by omega, isEmpty, rfl⟩

/-- The lines in a range are the boundaries in it, those of the elements with a size. -/
theorem gridLines_boundaries (valid : Valid dimension size last spans) (nonneg : 0 ≤ startPix)
    {fuel : Nat} (enough : (endPix - startPix).toNat < fuel) :
    ∃ lines, dimension.forEachInCorePixelRange fuel startPix endPix = some lines ∧
      (∀ pos, (∃ line ∈ lines, line.startPosCorePx = pos) ↔ startPix < pos ∧ pos ≤ endPix ∧
        ∃ i, 0 ≤ i ∧ i ≤ last + 1 ∧ position dimension.tile size .corepixels i = pos) ∧
      (∀ line ∈ lines, line.index ≤ last →
        ∃ elementSize, dimension.getElementDataAny line.index .corepixels =
          some ⟨line.startPosCorePx, elementSize⟩) ∧
      ∀ line ∈ lines, ∃ i, 0 ≤ i ∧ i ≤ last ∧ coreSize dimension.tile (size i) ≠ 0 ∧
        (position dimension.tile size .corepixels i = line.startPosCorePx ∨
          position dimension.tile size .corepixels (i + 1) = line.startPosCorePx) := by
  obtain ⟨lines, isLines, inLines⟩ := valid.spansLines_lines enough fun view member => member
  have inSpan : ∀ line ∈ lines, ∃ view ∈ views spans,
      coreSize dimension.tile view.size ≠ 0 ∧
        view.start ≤ line.index ∧ line.index ≤ view.stop + 1 ∧
        line.startPosCorePx = position dimension.tile size .corepixels line.index ∧
        startPix < line.startPosCorePx ∧ line.startPosCorePx ≤ endPix := by
    intro line isLine
    obtain ⟨view, member, found, isFound, inFound⟩ := (inLines line).mp isLine
    obtain ⟨spanLines, isSpan, isIn, -⟩ := valid.spanLines_lines member enough
    rw [isSpan] at isFound
    cases isFound
    exact ⟨view, member, isIn line inFound⟩
  refine ⟨lines, ?_, ?_, ?_, ?_⟩
  · rw [SheetDimension.forEachInCorePixelRange, valid.visible]
    exact isLines
  · intro pos
    constructor
    · rintro ⟨line, isLine, rfl⟩
      obtain ⟨view, member, -, isBehind, isBefore, isAt, isAbove, isBelow⟩ := inSpan line isLine
      have notBefore := valid.start_nonneg member
      have notBehind := (valid.consecutive.member_spec member).2.1
      exact ⟨isAbove, isBelow, line.index, by omega, by omega, isAt.symm⟩
    · rintro ⟨isAbove, isBelow, i, notBefore, inside, rfl⟩
      obtain ⟨i, rfl⟩ := Int.eq_ofNat_of_zero_le notBefore
      -- The end of an element with a size is among the lines of its span.
      obtain ⟨j, jNonneg, before, sized, isAt⟩ :=
        boundary_sized (Int.lt_of_le_of_lt nonneg isAbove)
      obtain ⟨view, member, isBehind, isBefore⟩ :=
        valid.consecutive.covers jNonneg (show j ≤ last by omega)
      obtain ⟨found, isFound, -, complete⟩ := valid.spanLines_lines member enough
      rw [(valid.consecutive.member_spec member).2.2 j isBehind isBefore] at sized
      rw [← isAt] at isAbove isBelow ⊢
      have inFound := complete (j + 1) (by omega) (by omega) sized isAbove isBelow
      exact ⟨_, (inLines _).mpr ⟨view, member, found, isFound, inFound⟩, rfl⟩
  · intro line isLine inside
    obtain ⟨view, member, -, isBehind, -, isAt, -⟩ := inSpan line isLine
    have notBefore := valid.start_nonneg member
    rw [isAt]
    exact ⟨_, valid.getElementDataAny_eq (by omega) inside .corepixels⟩
  · intro line isLine
    obtain ⟨view, member, sized, isBehind, isBefore, isAt, -⟩ := inSpan line isLine
    obtain ⟨startsBefore, notBehind, equal⟩ := valid.consecutive.member_spec member
    have notBefore := valid.start_nonneg member
    rcases Int.lt_or_eq_of_le isBefore with inside | isEnd
    · refine ⟨line.index, by omega, by omega, ?_, .inl isAt.symm⟩
      rw [equal line.index isBehind (by omega)]
      exact sized
    · refine ⟨view.stop, by omega, notBehind, ?_, .inr ?_⟩
      · rw [equal view.stop startsBefore (Int.le_refl _)]
        exact sized
      · rw [isAt, isEnd]

end

private def gridTile : TileGeometry := ⟨3840, 256, tileTwips_positive, tilePixels_positive⟩

private def gridSizes : SizeSpans 3 :=
  ⟨[⟨2, 300⟩, ⟨3, 330⟩], .next (by decide) (.next (by decide) .done)⟩

private def secondHidden : BitSpans 3 :=
  ⟨0, 0, [1, 3], .next (by decide) (.next (by decide) (.next (by decide) .done))⟩

private def noLineFiltered : BitSpans 3 := ⟨0, 3, [], endsAt_three⟩

theorem gridLines_boundaries_hidden :
    ∃ updated lines,
      SheetDimension.update { maxIndex := 3, tile := gridTile }
        ⟨some gridSizes.encoding, some secondHidden.encoding, some noLineFiltered.encoding, none⟩ =
        some (true, updated) ∧
      updated.forEachInCorePixelRange 41 10 50 = some lines ∧
      ∃ line ∈ lines, line.startPosCorePx = 40 := by
  have sizesNonneg : ∀ i, 0 ≤ i → i ≤ 3 → 0 ≤ gridSizes.sizeAt i := by
    intro i nonneg isInside
    rw [SizeSpans.sizeAt, gridSizes, valueAt]
    split
    · decide
    · rw [valueAt, if_pos isInside]
      decide
  obtain ⟨updated, spans, isUpdated, sameTile, valid⟩ :=
    @update_valid 3 gridSizes secondHidden noLineFiltered { maxIndex := 3, tile := gridTile } none
      loads_noGroups sizesNonneg (by decide) (by decide)
  obtain ⟨lines, isLines, boundaries, -⟩ :=
    @gridLines_boundaries _ _ _ _ 10 50 valid (by decide) 41 (by decide)
  refine ⟨updated, lines, isUpdated, isLines, (boundaries 40).mpr ⟨by decide, by decide, 3, ?_⟩⟩
  refine ⟨by decide, by decide, ?_⟩
  rw [sameTile]
  decide +kernel

end FreeOnline.Browser.SheetGeometry
