import FreeOnline.Browser.SheetLookup

/-!
# Core pixels at another zoom

A position is converted span by span. What remains of it is less than an element of the spans that
were passed, but the spans behind the position take from it too.
-/

set_option autoImplicit false

namespace FreeOnline.Browser.SheetGeometry

open FreeOnline.Library

structure ConvertState where
  converted : Int
  remaining : ℚ

/-- One turn of the loops of both conversions. -/
def convertSpan (sizeOneFrom sizeOneTo elementCount : Int) (state : ConvertState) : ConvertState :=
  let sizeFrom := sizeOneFrom * elementCount
  let sizeTo := sizeOneTo * elementCount
  -- The loop of the source goes on with the next span here.
  if state.remaining < sizeOneFrom then state
  else if sizeFrom ≤ state.remaining then ⟨state.converted + sizeTo, state.remaining - sizeFrom⟩
  else
    let elems := ⌊state.remaining / sizeOneFrom⌋
    ⟨state.converted + elems * sizeOneTo, state.remaining - (elems * sizeOneFrom : Int)⟩

def SpanView.sizeAtZoom (view : SpanView) (zoomScale : ℚ) : Int :=
  ⌊(view.size : ℚ) / 15 * zoomScale⌋

namespace SheetDimension

variable (dimension : SheetDimension)

/-- None where a property of undefined is read. -/
def getCorePixelsAtZoom (posCP zoomScale : ℚ) : Option ℚ :=
  dimension.visibleSizes.map fun spans =>
    let state := (views spans).foldl
      (fun state span =>
        convertSpan span.data.sizecore (span.sizeAtZoom zoomScale) span.elementCount state)
      ⟨0, posCP⟩
    state.converted + state.remaining * zoomScale / dimension.tile.coreZoomFactor

/-- None where a property of undefined is read. -/
def getCorePixelsFromZoom (posCPZ zoomScale : ℚ) : Option ℚ :=
  dimension.visibleSizes.map fun spans =>
    let state := (views spans).foldl
      (fun state span =>
        convertSpan (span.sizeAtZoom zoomScale) span.data.sizecore span.elementCount state)
      ⟨0, posCPZ⟩
    state.converted + state.remaining * dimension.tile.coreZoomFactor / zoomScale

end SheetDimension

/-!
## Converting from one measure to another
-/

/-- The sum of what is measured of the elements before this one. -/
def total (measure : Int → Int) (size : Int → Int) (i : Int) : Int :=
  sumBefore (fun j => measure (size j)) i

section

variable {fromSize toSize : Int → Int} {size : Int → Int} {last start i : Int}
  {spans : List SpanView}

/-- The state behind all spans. -/
def convertAll (fromSize toSize : Int → Int) (spans : List SpanView) (state : ConvertState) :
    ConvertState :=
  spans.foldl
    (fun state span => convertSpan (fromSize span.size) (toSize span.size) span.elementCount state)
    state

def ConvertState.value (state : ConvertState) (factor : ℚ) : ℚ :=
  state.converted + state.remaining * factor

theorem total_zero (measure : Int → Int) : total measure size 0 = 0 := rfl

theorem total_inside (measure : Int → Int) {view : SpanView}
    (equal : ∀ i, view.start ≤ i → i ≤ view.stop → size i = view.size) (nonneg : 0 ≤ view.start)
    (isBehind : view.start ≤ i) (isInside : i ≤ view.stop + 1) :
    total measure size i =
      total measure size view.start + measure view.size * (i - view.start) :=
  sumBefore_inside measure equal nonneg isBehind isInside

theorem total_succ (measure : Int → Int) (nonneg : 0 ≤ i) :
    total measure size (i + 1) = total measure size i + measure (size i) := by
  have added := @sumBefore_run _ _ (fun j => measure (size j)) i (i + 1) (measure (size i)) nonneg
    (Int.le_add_one (Int.le_refl i)) (fun j isLater isBefore => by
      rw [Int.le_antisymm (Int.lt_add_one_iff.mp isBefore) isLater])
  rw [total, total, added, add_sub_cancel_left, one_smul]

theorem total_mono {measure : Int → Int}
    (nonneg : ∀ i, 0 ≤ i → i ≤ last → 0 ≤ measure (size i)) {start stop : Int}
    (ordered : start ≤ stop) (isInside : stop ≤ last + 1) :
    total measure size start ≤ total measure size stop :=
  sumBefore_mono (fun i isNonneg isBefore =>
    nonneg i isNonneg (Int.lt_add_one_iff.mp (Int.lt_of_lt_of_le isBefore isInside))) ordered

/-- A span takes some elements from what remains, and none where they are larger. -/
theorem convertSpan_elems {sizeOneFrom sizeOneTo elementCount : Int} {state : ConvertState}
    (nonneg : 0 ≤ sizeOneFrom) (count : 0 < elementCount) :
    ∃ elems : Int, 0 ≤ elems ∧
      convertSpan sizeOneFrom sizeOneTo elementCount state =
        ⟨state.converted + elems * sizeOneTo, state.remaining - (elems * sizeOneFrom : Int)⟩ ∧
      (state.remaining < sizeOneFrom → elems = 0) := by
  unfold convertSpan
  dsimp only
  split
  · refine ⟨0, Int.le_refl 0, ?_, fun _ => rfl⟩
    rw [zero_mul, zero_mul, Int.add_zero, Int.cast_zero, sub_zero]
  · next notSmaller =>
      split
      · refine ⟨elementCount, Int.le_of_lt count, ?_, fun isSmaller => absurd isSmaller notSmaller⟩
        rw [mul_comm sizeOneTo, mul_comm sizeOneFrom]
      · refine ⟨_, ?_, rfl, fun isSmaller => absurd isSmaller notSmaller⟩
        have sizeNonneg : (0 : ℚ) ≤ sizeOneFrom := Int.cast_nonneg nonneg
        exact Int.floor_nonneg.mpr (div_nonneg (le_trans sizeNonneg (not_lt.mp notSmaller)) sizeNonneg)

/-- Spans that are larger than what remains, or proportional, keep the value. -/
theorem convertAll_value {factor : ℚ} {state : ConvertState}
    (ordered : ∀ span ∈ spans, span.start ≤ span.stop)
    (nonneg : ∀ span ∈ spans, 0 ≤ fromSize span.size)
    (keeps : ∀ span ∈ spans, state.remaining < fromSize span.size ∨
      (fromSize span.size : ℚ) * factor = toSize span.size) :
    (convertAll fromSize toSize spans state).value factor = state.value factor := by
  induction spans generalizing state with
  | nil => rfl
  | cons span spans ih =>
      have first := @List.mem_cons_self _ span spans
      obtain ⟨elems, elemsNonneg, isConverted, whenSmaller⟩ :=
        @convertSpan_elems (fromSize span.size) (toSize span.size) span.elementCount state
          (nonneg span first) (SpanView.elementCount_pos (ordered span first))
      have taken : (0 : ℚ) ≤ (elems * fromSize span.size : Int) :=
        Int.cast_nonneg (mul_nonneg elemsNonneg (nonneg span first))
      have others := @ih
        ⟨state.converted + elems * toSize span.size,
          state.remaining - (elems * fromSize span.size : Int)⟩
        (fun other isOther => ordered other (List.mem_cons_of_mem _ isOther))
        (fun other isOther => nonneg other (List.mem_cons_of_mem _ isOther))
        (fun other isOther => (keeps other (List.mem_cons_of_mem _ isOther)).imp_left
          (lt_of_le_of_lt (sub_le_self _ taken)))
      rw [convertAll, List.foldl_cons, isConverted]
      rw [convertAll] at others
      rw [others]
      unfold ConvertState.value
      dsimp only
      rcases keeps span first with isSmaller | proportional
      · rw [whenSmaller isSmaller]
        push_cast
        ring
      · push_cast
        rw [← proportional]
        ring

/-- A span of which all remains is converted as a whole. -/
theorem convertSpan_whole {sizeOneFrom sizeOneTo elementCount : Int} {state : ConvertState}
    (nonneg : 0 ≤ sizeOneFrom) (count : 0 < elementCount)
    (enough : (sizeOneFrom * elementCount : Int) ≤ state.remaining) :
    convertSpan sizeOneFrom sizeOneTo elementCount state =
      ⟨state.converted + sizeOneTo * elementCount,
        state.remaining - (sizeOneFrom * elementCount : Int)⟩ := by
  have isSmaller : sizeOneFrom ≤ sizeOneFrom * elementCount :=
    le_mul_of_one_le_right nonneg (Int.add_one_le_iff.mpr count)
  have notSmaller : ¬ state.remaining < sizeOneFrom :=
    not_lt.mpr (le_trans (Int.cast_le.mpr isSmaller) enough)
  unfold convertSpan
  dsimp only
  rw [if_neg notSmaller, if_pos enough]

/-- The elements that lie before an offset in one element are converted. -/
theorem convertSpan_part {sizeOneFrom sizeOneTo elementCount elems converted : Int} {offset : ℚ}
    (elemsNonneg : 0 ≤ elems) (isInside : elems < elementCount) (offsetNonneg : 0 ≤ offset)
    (isOffset : offset < sizeOneFrom) :
    convertSpan sizeOneFrom sizeOneTo elementCount
        ⟨converted, (sizeOneFrom * elems : Int) + offset⟩ =
      ⟨converted + sizeOneTo * elems, offset⟩ := by
  have positive : (0 : ℚ) < sizeOneFrom := lt_of_le_of_lt offsetNonneg isOffset
  rcases eq_or_lt_of_le elemsNonneg with isFirst | isLater
  · unfold convertSpan
    dsimp only
    rw [← isFirst, mul_zero, mul_zero, Int.cast_zero, zero_add, Int.add_zero, if_pos isOffset]
  · have isOne : (1 : ℚ) ≤ elems := by exact_mod_cast isLater
    have notSmaller : ¬ ((sizeOneFrom * elems : Int) : ℚ) + offset < sizeOneFrom := by
      have larger := mul_le_mul_of_nonneg_left isOne positive.le
      push_cast
      linarith
    have notWhole : ¬ ((sizeOneFrom * elementCount : Int) : ℚ) ≤
        (sizeOneFrom * elems : Int) + offset := by
      have nextElement : (elems : ℚ) + 1 ≤ elementCount := by exact_mod_cast isInside
      have larger := mul_le_mul_of_nonneg_left nextElement positive.le
      push_cast
      linarith
    have isFloor : ⌊(((sizeOneFrom * elems : Int) : ℚ) + offset) / sizeOneFrom⌋ = elems := by
      rw [Int.floor_eq_iff, le_div_iff₀ positive, div_lt_iff₀ positive]
      push_cast
      constructor
      · linarith
      · linarith
    unfold convertSpan
    dsimp only
    rw [if_neg notSmaller, if_neg notWhole, isFloor, mul_comm elems, mul_comm elems,
      add_sub_cancel_left]

/-- What is left at the start of the span of an element, after all spans before it. -/
theorem convertAll_reach (consecutive : Consecutive size last start spans) (startNonneg : 0 ≤ start)
    (nonneg : ∀ i, 0 ≤ i → i ≤ last → 0 ≤ fromSize (size i)) (isBehind : start ≤ i)
    (isInside : i ≤ last) :
    ∃ view ∈ spans, view.start ≤ i ∧ i ≤ view.stop ∧
      ∃ later, (∀ span ∈ later, span ∈ spans ∧ view.stop < span.start) ∧
      ∀ rest : ℚ, 0 ≤ rest →
        convertAll fromSize toSize spans ⟨total toSize size start,
          (total fromSize size view.start - total fromSize size start : Int) + rest⟩ =
        convertAll fromSize toSize later
          (convertSpan (fromSize view.size) (toSize view.size) view.elementCount
            ⟨total toSize size view.start, rest⟩) := by
  induction consecutive with
  | done => omega
  | @next view spans ordered equal others ih =>
      rcases lt_or_ge view.stop i with passed | isHere
      · obtain ⟨found, member, isStart, isStop, later, isLater, reached⟩ := ih (by omega) passed
        refine ⟨found, List.mem_cons_of_mem _ member, isStart, isStop, later, ?_, ?_⟩
        · intro span isSpan
          obtain ⟨isMember, isBehind⟩ := isLater span isSpan
          exact ⟨List.mem_cons_of_mem _ isMember, isBehind⟩
        · intro rest restNonneg
          have inside := others.bound
          have foundBehind := others.behind member
          obtain ⟨-, foundInside, -⟩ := others.member_spec member
          have viewNonneg : 0 ≤ fromSize view.size := by
            rw [← equal view.stop ordered (Int.le_refl _)]
            exact nonneg view.stop (by omega) (by omega)
          have count : view.stop + 1 - view.start = view.elementCount := by
            rw [SpanView.elementCount]
            ring
          have fromStop := @total_inside size (view.stop + 1) fromSize view equal startNonneg
            (by omega) (Int.le_refl _)
          have toStop := @total_inside size (view.stop + 1) toSize view equal startNonneg
            (by omega) (Int.le_refl _)
          rw [count] at fromStop toStop
          have more := @total_mono size last fromSize nonneg (view.stop + 1) found.start foundBehind
            (by omega)
          have enough : ((fromSize view.size * view.elementCount : Int) : ℚ) ≤
              (total fromSize size found.start - total fromSize size view.start : Int) + rest := by
            have grows : fromSize view.size * view.elementCount ≤
                total fromSize size found.start - total fromSize size view.start := by
              omega
            exact le_add_of_le_of_nonneg (Int.cast_le.mpr grows) restNonneg
          have isReached := reached rest restNonneg
          have isWhole := @convertSpan_whole (fromSize view.size) (toSize view.size) view.elementCount
            ⟨total toSize size view.start,
              (total fromSize size found.start - total fromSize size view.start : Int) + rest⟩
            viewNonneg (SpanView.elementCount_pos ordered) enough
          rw [convertAll, List.foldl_cons, isWhole]
          dsimp only
          rw [← isReached, convertAll, toStop, fromStop]
          congr 2
          push_cast
          ring
      · refine ⟨view, List.mem_cons_self, isBehind, isHere, spans, ?_, ?_⟩
        · intro span isSpan
          exact ⟨List.mem_cons_of_mem _ isSpan, others.behind isSpan⟩
        · intro rest _
          rw [Int.sub_self, Int.cast_zero, zero_add]
          rfl

/-- The value is that behind the span of the element, where the spans behind it take nothing that
counts. -/
theorem convertAll_reach_value (consecutive : Consecutive size last 0 spans)
    (nonneg : ∀ i, 0 ≤ i → i ≤ last → 0 ≤ fromSize (size i)) (isBehind : 0 ≤ i)
    (isInside : i ≤ last) {offset factor : ℚ}
    (keeps : ∀ j, i < j → j ≤ last →
      offset < fromSize (size j) ∨ (fromSize (size j) : ℚ) * factor = toSize (size j)) :
    ∃ view ∈ spans, view.start ≤ i ∧ i ≤ view.stop ∧ ∀ (rest : ℚ) (converted : Int), 0 ≤ rest →
      convertSpan (fromSize view.size) (toSize view.size) view.elementCount
        ⟨total toSize size view.start, rest⟩ = ⟨converted, offset⟩ →
      (convertAll fromSize toSize spans ⟨0, total fromSize size view.start + rest⟩).value factor =
        converted + offset * factor := by
  obtain ⟨view, member, isStart, isStop, later, isLater, reached⟩ :=
    @convertAll_reach fromSize toSize size last 0 i spans consecutive (Int.le_refl 0) nonneg isBehind
      isInside
  refine ⟨view, member, isStart, isStop, ?_⟩
  intro rest converted restNonneg inSpan
  have isReached := reached rest restNonneg
  have laterSpec {span : SpanView} (isSpan : span ∈ later) :=
    consecutive.member_spec (isLater span isSpan).1
  rw [inSpan, total_zero, total_zero, Int.sub_zero] at isReached
  rw [isReached, convertAll_value]
  · rfl
  · intro span isSpan
    exact (laterSpec isSpan).1
  · intro span isSpan
    obtain ⟨spanOrdered, spanInside, spanEqual⟩ := laterSpec isSpan
    rw [← spanEqual span.start (Int.le_refl _) spanOrdered]
    exact nonneg _ (consecutive.behind (isLater span isSpan).1) (by omega)
  · intro span isSpan
    obtain ⟨spanOrdered, spanInside, spanEqual⟩ := laterSpec isSpan
    have isBehindView := (isLater span isSpan).2
    rw [← spanEqual span.start (Int.le_refl _) spanOrdered]
    exact keeps span.start (by omega) (by omega)

/-- The value at an offset in an element. -/
theorem convertAll_at (consecutive : Consecutive size last 0 spans)
    (nonneg : ∀ i, 0 ≤ i → i ≤ last → 0 ≤ fromSize (size i)) (isBehind : 0 ≤ i)
    (isInside : i ≤ last) {offset factor : ℚ} (offsetNonneg : 0 ≤ offset)
    (isOffset : offset < fromSize (size i) ∨
      offset = 0 ∧ fromSize (size i) = 0 ∧ toSize (size i) = 0)
    (keeps : ∀ j, i < j → j ≤ last →
      offset < fromSize (size j) ∨ (fromSize (size j) : ℚ) * factor = toSize (size j)) :
    (convertAll fromSize toSize spans ⟨0, total fromSize size i + offset⟩).value factor =
      total toSize size i + offset * factor := by
  obtain ⟨view, member, isStart, isStop, reached⟩ :=
    convertAll_reach_value consecutive nonneg isBehind isInside keeps
  obtain ⟨ordered, bound, equal⟩ := consecutive.member_spec member
  have startNonneg := consecutive.behind member
  have fromInside := @total_inside size i fromSize view equal startNonneg isStart (by omega)
  have toInside := @total_inside size i toSize view equal startNonneg isStart (by omega)
  have sizeNonneg := nonneg i isBehind isInside
  rw [equal i isStart isStop] at isOffset sizeNonneg
  have inSpan : convertSpan (fromSize view.size) (toSize view.size) view.elementCount
      ⟨total toSize size view.start, (fromSize view.size * (i - view.start) : Int) + offset⟩ =
        ⟨total toSize size i, offset⟩ := by
    rw [toInside]
    rcases isOffset with isOffset | ⟨isZero, noFrom, noTo⟩
    · apply convertSpan_part (by omega) _ offsetNonneg isOffset
      rw [SpanView.elementCount]
      omega
    · rw [noFrom, noTo, isZero, convertSpan_whole (Int.le_refl 0) (SpanView.elementCount_pos ordered)]
      · dsimp only
        rw [zero_mul, zero_mul, Int.cast_zero, add_zero, sub_zero, add_zero]
      · dsimp only
        rw [zero_mul, zero_mul, add_zero]
  have isReached := reached _ _
    (add_nonneg (Int.cast_nonneg (mul_nonneg sizeNonneg (by omega))) offsetNonneg) inSpan
  rw [← add_assoc, ← Int.cast_add, ← fromInside] at isReached
  exact isReached

/-- The value at the end of an element. -/
theorem convertAll_end (consecutive : Consecutive size last 0 spans)
    (nonneg : ∀ i, 0 ≤ i → i ≤ last → 0 ≤ fromSize (size i)) (isBehind : 0 ≤ i)
    (isInside : i ≤ last) {factor : ℚ} (positive : 0 < fromSize (size i))
    (proportional : ∀ j, i < j → j ≤ last → (fromSize (size j) : ℚ) * factor = toSize (size j)) :
    (convertAll fromSize toSize spans ⟨0, total fromSize size (i + 1)⟩).value factor =
      total toSize size (i + 1) := by
  obtain ⟨view, member, isStart, isStop, reached⟩ :=
    @convertAll_reach_value fromSize toSize size last i spans consecutive nonneg isBehind isInside 0
      factor (fun j isLater inside => .inr (proportional j isLater inside))
  obtain ⟨ordered, bound, equal⟩ := consecutive.member_spec member
  have startNonneg := consecutive.behind member
  have fromInside := @total_inside size (i + 1) fromSize view equal startNonneg (by omega) (by omega)
  have toInside := @total_inside size (i + 1) toSize view equal startNonneg (by omega) (by omega)
  rw [equal i isStart isStop] at positive
  have inSpan : convertSpan (fromSize view.size) (toSize view.size) view.elementCount
      ⟨total toSize size view.start, (fromSize view.size * (i + 1 - view.start) : Int)⟩ =
        ⟨total toSize size (i + 1), 0⟩ := by
    rw [toInside]
    rcases lt_or_eq_of_le isStop with isBefore | isLast
    · have part := @convertSpan_part (fromSize view.size) (toSize view.size) view.elementCount
        (i + 1 - view.start) (total toSize size view.start) 0 (by omega)
        (by rw [SpanView.elementCount]; omega) (le_refl 0) (Int.cast_pos.mpr positive)
      rw [add_zero] at part
      exact part
    · have count : i + 1 - view.start = view.elementCount := by
        rw [SpanView.elementCount, isLast]
        ring
      rw [count, convertSpan_whole positive.le (SpanView.elementCount_pos ordered) (le_refl _)]
      dsimp only
      rw [sub_self]
  have isReached := reached _ _ (Int.cast_nonneg (mul_nonneg positive.le (by omega))) inSpan
  rw [← Int.cast_add, ← fromInside, zero_mul, add_zero] at isReached
  exact isReached

/-- Where nothing is out of proportion, the value is the position by the factor. -/
theorem convertAll_proportional (consecutive : Consecutive size last 0 spans)
    (nonneg : ∀ i, 0 ≤ i → i ≤ last → 0 ≤ fromSize (size i)) {factor : ℚ}
    (proportional : ∀ i, 0 ≤ i → i ≤ last → (fromSize (size i) : ℚ) * factor = toSize (size i))
    (pos : ℚ) : (convertAll fromSize toSize spans ⟨0, pos⟩).value factor = pos * factor := by
  rw [convertAll_value]
  · rw [ConvertState.value, Int.cast_zero, zero_add]
  · intro span isSpan
    exact (consecutive.member_spec isSpan).1
  · intro span isSpan
    obtain ⟨ordered, inside, equal⟩ := consecutive.member_spec isSpan
    rw [← equal span.start (Int.le_refl _) ordered]
    exact nonneg _ (consecutive.behind isSpan) (by omega)
  · intro span isSpan
    obtain ⟨ordered, inside, equal⟩ := consecutive.member_spec isSpan
    rw [← equal span.start (Int.le_refl _) ordered]
    exact .inr (proportional _ (consecutive.behind isSpan) (by omega))

/-- A conversion that never decreases does not shrink an element, where all behind it is
proportional. -/
theorem size_le_of_monotone (consecutive : Consecutive size last 0 spans)
    (nonneg : ∀ i, 0 ≤ i → i ≤ last → 0 ≤ fromSize (size i)) (isBehind : 0 ≤ i)
    (isInside : i ≤ last) {factor : ℚ} (factorPositive : 0 < factor)
    (toNonneg : 0 ≤ toSize (size i))
    (proportional : ∀ j, i < j → j ≤ last → (fromSize (size j) : ℚ) * factor = toSize (size j))
    (monotone : MonotoneOn (fun pos => (convertAll fromSize toSize spans ⟨0, pos⟩).value factor)
      (Set.Ici 0)) :
    (fromSize (size i) : ℚ) * factor ≤ toSize (size i) := by
  rcases eq_or_lt_of_le (nonneg i isBehind isInside) with isZero | positive
  · rw [← isZero, Int.cast_zero, zero_mul]
    exact Int.cast_nonneg toNonneg
  · by_contra notLess
    have tooSmall := not_le.mp notLess
    have isBefore : (toSize (size i) : ℚ) / factor < fromSize (size i) :=
      (div_lt_iff₀ factorPositive).mpr tooSmall
    obtain ⟨offset, isAbove, isInElement⟩ := exists_between isBefore
    have offsetNonneg : 0 ≤ offset :=
      le_trans (div_nonneg (Int.cast_nonneg toNonneg) factorPositive.le) isAbove.le
    have fromNonneg : (0 : ℚ) ≤ total fromSize size i := by
      have grows := @total_mono size last fromSize nonneg 0 i isBehind (by omega)
      rw [total_zero] at grows
      exact Int.cast_nonneg grows
    have atOffset := @convertAll_at fromSize toSize size last i spans consecutive nonneg isBehind
      isInside offset factor offsetNonneg (.inl isInElement)
      (fun j isLater inside => .inr (proportional j isLater inside))
    have atEnd := convertAll_end consecutive nonneg isBehind isInside positive proportional
    have ordered : (total fromSize size i : ℚ) + offset ≤ total fromSize size (i + 1) := by
      rw [total_succ fromSize isBehind]
      push_cast
      linarith
    have grows := monotone (Set.mem_Ici.mpr (add_nonneg fromNonneg offsetNonneg))
      (Set.mem_Ici.mpr (le_trans (add_nonneg fromNonneg offsetNonneg) ordered)) ordered
    dsimp only at grows
    rw [atOffset, atEnd, total_succ toSize isBehind] at grows
    have isLarger := (div_lt_iff₀ factorPositive).mp isAbove
    push_cast at grows
    linarith

end

/-!
## Zooming
-/

theorem TileGeometry.coreZoomFactor_pos (tile : TileGeometry) : 0 < tile.coreZoomFactor :=
  div_pos (mul_pos tile.pixelsPositive (by decide)) tile.twipsPositive

theorem zoomSize_nonneg {zoomScale : ℚ} (positive : 0 < zoomScale) {size : Int} (nonneg : 0 ≤ size) :
    0 ≤ zoomSize zoomScale size :=
  Int.floor_nonneg.mpr
    (div_nonneg (mul_nonneg (Int.cast_nonneg nonneg) positive.le) (by decide))

theorem sizeAtZoom_eq (view : SpanView) (zoomScale : ℚ) :
    view.sizeAtZoom zoomScale = zoomSize zoomScale view.size := by
  rw [SpanView.sizeAtZoom, zoomSize, div_mul_eq_mul_div]

/-- The rounded sizes of an element are in the proportion of the zooms. -/
def Proportional (tile : TileGeometry) (zoomScale : ℚ) (size : Int) : Prop :=
  (coreSize tile size : ℚ) * zoomScale = zoomSize zoomScale size * tile.coreZoomFactor

theorem proportional_iff_atZoom {tile : TileGeometry} {zoomScale : ℚ} {size : Int} :
    Proportional tile zoomScale size ↔
      (coreSize tile size : ℚ) * (zoomScale / tile.coreZoomFactor) = zoomSize zoomScale size := by
  rw [Proportional, ← mul_div_assoc, div_eq_iff tile.coreZoomFactor_pos.ne']

theorem proportional_iff_fromZoom {tile : TileGeometry} {zoomScale : ℚ} {size : Int}
    (positive : 0 < zoomScale) :
    Proportional tile zoomScale size ↔
      (zoomSize zoomScale size : ℚ) * (tile.coreZoomFactor / zoomScale) = coreSize tile size := by
  rw [Proportional, ← mul_div_assoc, div_eq_iff positive.ne']
  exact eq_comm

section

variable {dimension : SheetDimension} {size : Int → Int} {last : Int} {spans : List SpanData}

theorem Measured.getCorePixelsAtZoom_eq (measured : Measured dimension size last spans)
    (pos zoomScale : ℚ) :
    dimension.getCorePixelsAtZoom pos zoomScale =
      some ((convertAll (coreSize dimension.tile) (zoomSize zoomScale) (views spans) ⟨0, pos⟩).value
        (zoomScale / dimension.tile.coreZoomFactor)) := by
  rw [SheetDimension.getCorePixelsAtZoom, measured.visible, Option.map_some, Option.some.injEq,
    ConvertState.value, convertAll, ← mul_div_assoc]
  have sameLoop := @List.foldl_ext _ _
    (fun state span =>
      convertSpan span.data.sizecore (span.sizeAtZoom zoomScale) span.elementCount state)
    (fun state span => convertSpan (coreSize dimension.tile span.size) (zoomSize zoomScale span.size)
      span.elementCount state) (⟨0, pos⟩ : ConvertState) (views spans) (by
        intro state span member
        rw [(measured.positioned span member).sizecore, sizeAtZoom_eq])
  rw [sameLoop]

theorem Measured.getCorePixelsFromZoom_eq (measured : Measured dimension size last spans)
    (pos zoomScale : ℚ) :
    dimension.getCorePixelsFromZoom pos zoomScale =
      some ((convertAll (zoomSize zoomScale) (coreSize dimension.tile) (views spans) ⟨0, pos⟩).value
        (dimension.tile.coreZoomFactor / zoomScale)) := by
  rw [SheetDimension.getCorePixelsFromZoom, measured.visible, Option.map_some, Option.some.injEq,
    ConvertState.value, convertAll, ← mul_div_assoc]
  have sameLoop := @List.foldl_ext _ _
    (fun state span =>
      convertSpan (span.sizeAtZoom zoomScale) span.data.sizecore span.elementCount state)
    (fun state span => convertSpan (zoomSize zoomScale span.size) (coreSize dimension.tile span.size)
      span.elementCount state) (⟨0, pos⟩ : ConvertState) (views spans) (by
        intro state span member
        rw [(measured.positioned span member).sizecore, sizeAtZoom_eq])
  rw [sameLoop]

theorem Measured.getElementData_eq (measured : Measured dimension size last spans) {i : Int}
    (nonneg : 0 ≤ i) (isInside : i ≤ last) :
    dimension.getElementData i none =
      some ⟨total (coreSize dimension.tile) size i, coreSize dimension.tile (size i)⟩ := by
  have data := measured.getElementDataAny_eq nonneg isInside .corepixels
  unfold SheetDimension.getElementData
  rw [measured.visible]
  exact data

end

section

variable {dimension : SheetDimension} {size : Int → Int} {last : Int} {spans : List SpanData}
  {zoomScale : ℚ}

/-- What a zoom has to keep. -/
structure Zooms (size : Int → Int) (last : Int) (zoomScale : ℚ) : Prop where
  positive : 0 < zoomScale
  visible : ∀ i, 0 ≤ i → i ≤ last → size i ≠ 0 → 1 ≤ zoomSize zoomScale (size i)

theorem Zooms.hidden {tile : TileGeometry} (zooms : Zooms size last zoomScale) {i : Int}
    (nonneg : 0 ≤ i) (isInside : i ≤ last) :
    0 < zoomSize zoomScale (size i) ∨
      zoomSize zoomScale (size i) = 0 ∧ coreSize tile (size i) = 0 := by
  by_cases isHidden : size i = 0
  · right
    rw [isHidden, zoomSize, coreSize, Int.cast_zero, zero_mul, zero_div, zero_div, Int.floor_zero]
    exact ⟨rfl, rfl⟩
  · exact .inl (zooms.visible i nonneg isInside isHidden)

theorem Valid.coreSize_nonneg (valid : Valid dimension size last spans) :
    ∀ i, 0 ≤ i → i ≤ last → 0 ≤ coreSize dimension.tile (size i) :=
  fun i nonneg isInside =>
    FreeOnline.Browser.SheetGeometry.coreSize_nonneg dimension.tile (valid.sizeNonneg i nonneg isInside)

theorem Valid.zoomSize_nonneg (valid : Valid dimension size last spans)
    (zooms : Zooms size last zoomScale) :
    ∀ i, 0 ≤ i → i ≤ last → 0 ≤ zoomSize zoomScale (size i) :=
  fun i nonneg isInside =>
    FreeOnline.Browser.SheetGeometry.zoomSize_nonneg zooms.positive (valid.sizeNonneg i nonneg isInside)

/-- The start of every element is converted back. -/
theorem Valid.fromZoom_start (valid : Valid dimension size last spans)
    (zooms : Zooms size last zoomScale) {i : Int} (nonneg : 0 ≤ i) (isInside : i ≤ last) :
    dimension.getCorePixelsFromZoom (positionAtZoom zoomScale size i) zoomScale =
      some (total (coreSize dimension.tile) size i) := by
  have isOffset : (0 : ℚ) < zoomSize zoomScale (size i) ∨
      (0 : ℚ) = 0 ∧ zoomSize zoomScale (size i) = 0 ∧ coreSize dimension.tile (size i) = 0 := by
    rcases @Zooms.hidden _ _ _ dimension.tile zooms i nonneg isInside with isVisible | isHidden
    · exact .inl (Int.cast_pos.mpr isVisible)
    · exact .inr ⟨rfl, isHidden⟩
  have atStart := @convertAll_at (zoomSize zoomScale) (coreSize dimension.tile) size last i
    (views spans) valid.consecutive (valid.zoomSize_nonneg zooms) nonneg isInside 0
    (dimension.tile.coreZoomFactor / zoomScale) (le_refl 0) isOffset (by
      intro j isLater inside
      rcases @Zooms.hidden _ _ _ dimension.tile zooms j (by omega) inside with isVisible | isHidden
      · exact .inl (Int.cast_pos.mpr isVisible)
      · right
        rw [isHidden.1, isHidden.2, Int.cast_zero, zero_mul])
  rw [add_zero, zero_mul, add_zero] at atStart
  rw [valid.getCorePixelsFromZoom_eq]
  exact congrArg some atStart

/-- A position in an element keeps its offset where later elements are larger than the offset, or in
proportion. -/
theorem Valid.atZoom_offset (valid : Valid dimension size last spans) {i : Int} (nonneg : 0 ≤ i)
    (isInside : i ≤ last) {offset : ℚ} (offsetNonneg : 0 ≤ offset)
    (isOffset : offset < coreSize dimension.tile (size i))
    (keeps : ∀ j, i < j → j ≤ last →
      offset < coreSize dimension.tile (size j) ∨ Proportional dimension.tile zoomScale (size j)) :
    dimension.getCorePixelsAtZoom (total (coreSize dimension.tile) size i + offset) zoomScale =
      some (positionAtZoom zoomScale size i + offset * zoomScale / dimension.tile.coreZoomFactor) := by
  have atOffset := @convertAll_at (coreSize dimension.tile) (zoomSize zoomScale) size last i
    (views spans) valid.consecutive valid.coreSize_nonneg nonneg isInside offset
    (zoomScale / dimension.tile.coreZoomFactor) offsetNonneg (.inl isOffset)
    (fun j isLater inside => (keeps j isLater inside).imp_right proportional_iff_atZoom.mp)
  rw [valid.getCorePixelsAtZoom_eq, atOffset, mul_div_assoc]
  rfl

/-- Where both conversions never decrease, an element is in proportion as all behind it are. -/
theorem Valid.proportional_of_later (valid : Valid dimension size last spans)
    (zooms : Zooms size last zoomScale) {i : Int} (nonneg : 0 ≤ i) (isInside : i ≤ last)
    (later : ∀ j, i < j → j ≤ last → Proportional dimension.tile zoomScale (size j))
    (atZoom : MonotoneOn (fun pos =>
      (convertAll (coreSize dimension.tile) (zoomSize zoomScale) (views spans) ⟨0, pos⟩).value
        (zoomScale / dimension.tile.coreZoomFactor)) (Set.Ici 0))
    (fromZoom : MonotoneOn (fun pos =>
      (convertAll (zoomSize zoomScale) (coreSize dimension.tile) (views spans) ⟨0, pos⟩).value
        (dimension.tile.coreZoomFactor / zoomScale)) (Set.Ici 0)) :
    Proportional dimension.tile zoomScale (size i) := by
  have zoomPositive := dimension.tile.coreZoomFactor_pos
  have notSmaller := size_le_of_monotone valid.consecutive valid.coreSize_nonneg nonneg isInside
    (div_pos zooms.positive zoomPositive) (valid.zoomSize_nonneg zooms i nonneg isInside)
    (fun j isLater inside => proportional_iff_atZoom.mp (later j isLater inside)) atZoom
  have notLarger := size_le_of_monotone valid.consecutive (valid.zoomSize_nonneg zooms) nonneg isInside
    (div_pos zoomPositive zooms.positive) (valid.coreSize_nonneg i nonneg isInside)
    (fun j isLater inside =>
      (proportional_iff_fromZoom zooms.positive).mp (later j isLater inside)) fromZoom
  rw [← mul_div_assoc, div_le_iff₀ zoomPositive] at notSmaller
  rw [← mul_div_assoc, div_le_iff₀ zooms.positive] at notLarger
  exact le_antisymm notSmaller notLarger

theorem Valid.monotone_iff (valid : Valid dimension size last spans)
    (zooms : Zooms size last zoomScale) :
    (MonotoneOn (fun pos =>
      (convertAll (coreSize dimension.tile) (zoomSize zoomScale) (views spans) ⟨0, pos⟩).value
        (zoomScale / dimension.tile.coreZoomFactor)) (Set.Ici 0) ∧
      MonotoneOn (fun pos =>
      (convertAll (zoomSize zoomScale) (coreSize dimension.tile) (views spans) ⟨0, pos⟩).value
        (dimension.tile.coreZoomFactor / zoomScale)) (Set.Ici 0)) ↔
      ∀ i, 0 ≤ i → i ≤ last → Proportional dimension.tile zoomScale (size i) := by
  constructor
  · intro ⟨atZoom, fromZoom⟩
    -- The elements behind an element are in proportion, from the last one on.
    have countedBack : ∀ (count : Nat) (i : Int), last < i + count → 0 ≤ i → i ≤ last →
        Proportional dimension.tile zoomScale (size i) := by
      intro count
      induction count with
      | zero =>
          intro i isAfter _ isInside
          omega
      | succ count ih =>
          intro i isAfter nonneg isInside
          apply valid.proportional_of_later zooms nonneg isInside _ atZoom fromZoom
          intro j isLater inside
          exact ih j (by omega) (by omega) inside
    intro i nonneg isInside
    exact countedBack (last + 1).toNat i (by omega) nonneg isInside
  · intro proportional
    have zoomPositive := dimension.tile.coreZoomFactor_pos
    constructor
    · intro pos _ later _ ordered
      dsimp only
      rw [convertAll_proportional valid.consecutive valid.coreSize_nonneg
          (fun i nonneg inside => proportional_iff_atZoom.mp (proportional i nonneg inside)),
        convertAll_proportional valid.consecutive valid.coreSize_nonneg
          (fun i nonneg inside => proportional_iff_atZoom.mp (proportional i nonneg inside))]
      exact mul_le_mul_of_nonneg_right ordered (div_pos zooms.positive zoomPositive).le
    · intro pos _ later _ ordered
      dsimp only
      rw [convertAll_proportional valid.consecutive (valid.zoomSize_nonneg zooms)
          (fun i nonneg inside =>
            (proportional_iff_fromZoom zooms.positive).mp (proportional i nonneg inside)),
        convertAll_proportional valid.consecutive (valid.zoomSize_nonneg zooms)
          (fun i nonneg inside =>
            (proportional_iff_fromZoom zooms.positive).mp (proportional i nonneg inside))]
      exact mul_le_mul_of_nonneg_right ordered (div_pos zoomPositive zooms.positive).le

end

/-- Starts of elements are converted there and back, and offsets in elements as long as what is
behind them is larger or in proportion. Neither conversion decreases anywhere exactly where all
elements are in proportion. -/
theorem zoom_conversion {dimension : SheetDimension} {size : Int → Int} {last : Int}
    {spans : List SpanData} {zoomScale : ℚ} (valid : Valid dimension size last spans)
    (zooms : Zooms size last zoomScale) :
    (∀ i, 0 ≤ i → i ≤ last → ∃ data zoomed,
      dimension.getElementData i none = some data ∧
      dimension.getElementData i (some zoomScale) = some zoomed ∧
      (∀ offset : ℚ, 0 ≤ offset → offset < data.size →
        (∀ j, i < j → j ≤ last → offset < coreSize dimension.tile (size j) ∨
          Proportional dimension.tile zoomScale (size j)) →
        dimension.getCorePixelsAtZoom (data.startpos + offset) zoomScale =
          some (zoomed.startpos + offset * zoomScale / dimension.tile.coreZoomFactor)) ∧
      dimension.getCorePixelsFromZoom zoomed.startpos zoomScale = some data.startpos) ∧
    ∃ atZoom fromZoom : ℚ → ℚ,
      (∀ pos, dimension.getCorePixelsAtZoom pos zoomScale = some (atZoom pos)) ∧
      (∀ pos, dimension.getCorePixelsFromZoom pos zoomScale = some (fromZoom pos)) ∧
      (MonotoneOn atZoom (Set.Ici 0) ∧ MonotoneOn fromZoom (Set.Ici 0) ↔
        ∀ i, 0 ≤ i → i ≤ last → Proportional dimension.tile zoomScale (size i)) := by
  constructor
  · intro i nonneg isInside
    refine ⟨_, _, valid.getElementData_eq nonneg isInside,
      valid.getElementData_zoom nonneg isInside zoomScale, ?_, valid.fromZoom_start zooms nonneg isInside⟩
    intro offset offsetNonneg isOffset keeps
    exact valid.atZoom_offset nonneg isInside offsetNonneg isOffset keeps
  · exact ⟨_, _, fun pos => valid.getCorePixelsAtZoom_eq pos zoomScale,
      fun pos => valid.getCorePixelsFromZoom_eq pos zoomScale, valid.monotone_iff zooms⟩

private def wholeTile : TileGeometry := ⟨3840, 256, tileTwips_positive, tilePixels_positive⟩

/-- At the double zoom the second element gets a pixel more than twice what it has. -/
private def roundedSizes : SizeSpans 1 :=
  ⟨[⟨0, 300⟩, ⟨1, 158⟩], .next (by decide) (.next (by decide) .done)⟩

private def nothingSet : BitSpans 1 := ⟨0, 1, [], endsAt_one⟩

private def roundedUpdate : Option (Bool × SheetDimension) :=
  SheetDimension.update { maxIndex := 1, tile := wholeTile }
    ⟨some roundedSizes.encoding, some nothingSet.encoding, some nothingSet.encoding, none⟩

theorem zoom_conversion_some :
    ∃ updated, roundedUpdate = some (true, updated) ∧
      updated.getCorePixelsAtZoom (20 + 5) 2 = some (40 + 5 * 2 / updated.tile.coreZoomFactor) ∧
      updated.getCorePixelsFromZoom 40 2 = some 20 := by
  have ofElements {P : Int → Prop} (first : P 0) (second : P 1) :
      ∀ i, 0 ≤ i → i ≤ 1 → P i := by
    intro i nonneg isInside
    rcases eq_or_lt_of_le nonneg with isFirst | isLater
    · rw [← isFirst]
      exact first
    · rw [Int.le_antisymm isInside isLater]
      exact second
  obtain ⟨updated, spans, isUpdated, sameTile, valid⟩ :=
    @update_valid 1 roundedSizes nothingSet nothingSet { maxIndex := 1, tile := wholeTile } none
      loads_noGroups (ofElements (by decide) (by decide)) (by decide) (by decide)
  have zooms : Zooms (visibleSize roundedSizes nothingSet nothingSet) 1 2 :=
    ⟨by decide +kernel, ofElements (by decide +kernel) (by decide +kernel)⟩
  obtain ⟨elements, -⟩ := zoom_conversion valid zooms
  obtain ⟨data, zoomed, isData, isZoomed, offsets, starts⟩ := elements 1 (by decide) (by decide)
  have dataIs : some (⟨20, 10⟩ : DimensionPosSize) = some data :=
    (read_updated (·.getElementData 1 none) isUpdated (by decide +kernel)).symm.trans isData
  have zoomedIs : some (⟨40, 21⟩ : DimensionPosSize) = some zoomed :=
    (read_updated (·.getElementData 1 (some 2)) isUpdated (by decide +kernel)).symm.trans isZoomed
  cases dataIs
  cases zoomedIs
  refine ⟨updated, isUpdated, ?_, ?_⟩
  · have atOffset := offsets 5 (by decide +kernel) (by decide +kernel) (fun j isLater inside => by omega)
    exact_mod_cast atOffset
  · exact_mod_cast starts

/-- The second element takes from what remains of a position in the first one. A position at the end
of the second one is converted to less than one before it. -/
theorem not_zoom_conversion :
    ∃ updated, roundedUpdate = some (true, updated) ∧ updated.tile.coreZoomFactor = 1 ∧
      updated.getElementData 0 none = some ⟨0, 20⟩ ∧
      updated.getElementData 0 (some 2) = some ⟨0, 40⟩ ∧
      updated.getElementData 1 none = some ⟨20, 10⟩ ∧
      updated.getElementData 1 (some 2) = some ⟨40, 21⟩ ∧
      updated.getCorePixelsAtZoom 15 2 = some 31 ∧
      updated.getCorePixelsFromZoom (121 / 2) 2 = some (121 / 4) ∧
      updated.getCorePixelsFromZoom 61 2 = some 30 := by
  have isLoaded : roundedUpdate.map Prod.fst = some true := by decide +kernel
  obtain ⟨⟨loaded, updated⟩, isUpdated, isTrue⟩ := Option.map_eq_some_iff.mp isLoaded
  obtain rfl : loaded = true := isTrue
  refine ⟨updated, isUpdated, ?_, ?_, ?_, ?_, ?_, ?_, ?_, ?_⟩
  · exact read_updated (·.tile.coreZoomFactor) isUpdated (by decide +kernel)
  · exact read_updated (·.getElementData 0 none) isUpdated (by decide +kernel)
  · exact read_updated (·.getElementData 0 (some 2)) isUpdated (by decide +kernel)
  · exact read_updated (·.getElementData 1 none) isUpdated (by decide +kernel)
  · exact read_updated (·.getElementData 1 (some 2)) isUpdated (by decide +kernel)
  · exact read_updated (·.getCorePixelsAtZoom 15 2) isUpdated (by decide +kernel)
  · exact read_updated (·.getCorePixelsFromZoom (121 / 2) 2) isUpdated (by decide +kernel)
  · exact read_updated (·.getCorePixelsFromZoom 61 2) isUpdated (by decide +kernel)

end FreeOnline.Browser.SheetGeometry
