import FreeOnline.Net.HttpHead

/-!
# The search of the blank line

The two loops with the offsets they read. The search skips three bytes behind each line feed
that is not the end of a block, and still finds what a plain search finds.
-/

set_option autoImplicit false

namespace FreeOnline.Net.Http

/-- The offset that a search returns, and the offsets it has read. -/
structure Search where
  off : Nat
  reads : List Nat
deriving DecidableEq

/-!
## The line break
-/

def lineBreakFrom (p : Bytes) (len off : Nat) : Search :=
  if off < len then
    if p[off]? = some lf then ⟨off, [off]⟩
    else
      let later := lineBreakFrom p len (off + 1)
      ⟨later.off, off :: later.reads⟩
  else ⟨len, []⟩
termination_by len - off

/-- The first line feed of the range, or its end. -/
structure IsLineBreak (p : Bytes) (len off : Nat) (found : Search) : Prop where
  behind : off ≤ found.off
  inside : found.off ≤ len
  isBreak : found.off < len → p[found.off]? = some lf
  first : ∀ i, off ≤ i → i < found.off → p[i]? ≠ some lf
  reads : ∀ i ∈ found.reads, off ≤ i ∧ i < len

section

variable {p : Bytes} {len off : Nat}

theorem isLineBreak_lineBreakFrom (inside : off ≤ len) :
    IsLineBreak p len off (lineBreakFrom p len off) := by
  fun_induction lineBreakFrom p len off with
  | case1 off below isBreak =>
      refine ⟨Nat.le_refl off, inside, fun _ => isBreak, fun i behind before => ?_, fun i isRead => ?_⟩
      · exact absurd before (Nat.not_lt.mpr behind)
      · cases List.mem_singleton.mp isRead
        exact ⟨Nat.le_refl _, below⟩
  | case2 off below notBreak later ih =>
      obtain ⟨behind, laterInside, isBreak, first, reads⟩ := ih below
      refine ⟨Nat.le_of_succ_le behind, laterInside, isBreak, fun i isBehind before => ?_, ?_⟩
      · by_cases isFirst : i = off
        · exact isFirst ▸ notBreak
        · exact first i (by omega) before
      · refine List.forall_mem_cons.mpr ⟨⟨Nat.le_refl off, below⟩, fun i isRead => ?_⟩
        obtain ⟨isBehind, isInside⟩ := reads i isRead
        exact ⟨Nat.le_of_succ_le isBehind, isInside⟩
  | case3 off outside =>
      refine ⟨inside, Nat.le_refl len, fun below => absurd below (Nat.lt_irrefl len), ?_, ?_⟩
      · exact fun i behind before => absurd (Nat.lt_of_le_of_lt behind before) outside
      · exact List.forall_mem_nil _

theorem findLineBreak_step (below : off < p.length) :
    findLineBreak p off = if p[off]? = some lf then off else findLineBreak p (off + 1) := by
  have isThere : p[off]? = some p[off] := List.getElem?_eq_getElem below
  have isDrop : p.drop off = p[off] :: p.drop (off + 1) := List.drop_eq_getElem_cons below
  unfold findLineBreak findFrom
  rw [if_neg (Nat.not_le.mpr below), isDrop, List.findIdx_cons, isThere]
  by_cases isBreak : p[off] = lf
  · rw [if_pos (congrArg some isBreak), isBreak]
    rfl
  · rw [if_neg fun same => isBreak (Option.some.inj same), decide_eq_false isBreak, cond_false]
    split
    · next atEnd =>
        rw [List.drop_eq_nil_of_le atEnd, List.findIdx_nil]
        omega
    · omega

/-- The loop is the search on the bytes of the range. -/
theorem lineBreakFrom_off (lenInside : len ≤ p.length) :
    (lineBreakFrom p len off).off = findLineBreak (p.take len) off := by
  have length : (p.take len).length = len := List.length_take_of_le lenInside
  fun_induction lineBreakFrom p len off with
  | case1 off below isBreak =>
      rw [findLineBreak_step (length.symm ▸ below), List.getElem?_take_of_lt below, if_pos isBreak]
  | case2 off below notBreak later ih =>
      rw [findLineBreak_step (length.symm ▸ below), List.getElem?_take_of_lt below, if_neg notBreak]
      exact ih
  | case3 off outside =>
      rw [findLineBreak, findFrom, length, if_pos (Nat.not_lt.mp outside)]

end

/-!
## The blank line
-/

def blankLineFrom (p : Bytes) (len off : Nat) : Search :=
  if off < len then
    let lineBreak := lineBreakFrom p len off
    if len ≤ lineBreak.off + 2 then ⟨len, lineBreak.reads⟩
    else if p[lineBreak.off + 1]? = some cr then
      let reads := lineBreak.reads ++ [lineBreak.off + 1, lineBreak.off + 2]
      if p[lineBreak.off + 2]? = some lf then ⟨lineBreak.off + 2, reads⟩
      else
        let later := blankLineFrom p len (lineBreak.off + 3)
        ⟨later.off, reads ++ later.reads⟩
    else
      let later := blankLineFrom p len (lineBreak.off + 3)
      ⟨later.off, lineBreak.reads ++ (lineBreak.off + 1) :: later.reads⟩
  else ⟨len, []⟩
termination_by len - off
decreasing_by
  all_goals
    have below : off < len := by assumption
    have behind := (isLineBreak_lineBreakFrom (p := p) (Nat.le_of_lt below)).behind
    omega

/-- A line feed, a line break and so the end of a block. -/
structure IsBlankLine (p : Bytes) (off : Nat) : Prop where
  lineFeed : p[off]? = some lf
  cr : p[off + 1]? = some cr
  lf : p[off + 2]? = some lf

/-- The bytes that end here are two line breaks. -/
structure EndsBlock (p : Bytes) (stop : Nat) : Prop where
  enough : 3 ≤ stop
  cr : p[stop - 3]? = some cr
  blankLine : IsBlankLine p (stop - 2)

section

variable {p : Bytes} {len off : Nat}

/-- What the search returns: the end of a blank line, or the end of the range. No block ends
before. -/
structure IsFound (p : Bytes) (len off : Nat) (found : Search) : Prop where
  inside : found.off ≤ len
  isBlank : found.off < len → off + 2 ≤ found.off ∧ IsBlankLine p (found.off - 2)
  first : ∀ stop, off + 2 ≤ stop → stop < found.off → ¬EndsBlock p stop
  reads : ∀ i ∈ found.reads, off ≤ i ∧ i < len

/-- Of the bytes that are skipped none ends a block: the line feed has no CR behind it, or the CR
no line feed. -/
theorem not_endsBlock_skipped {lineBreak stop : Nat} (isBreak : p[lineBreak]? = some lf)
    (first : ∀ i, off ≤ i → i < lineBreak → p[i]? ≠ some lf)
    (mismatch : ¬(p[lineBreak + 1]? = some cr ∧ p[lineBreak + 2]? = some lf))
    (behind : off + 2 ≤ stop) (before : stop < lineBreak + 5) : ¬EndsBlock p stop := by
  rintro ⟨enough, isCr, isFeed, isNext, isStop⟩
  by_cases early : stop - 2 < lineBreak
  · exact first (stop - 2) (by omega) early isFeed
  · by_cases atBreak : stop - 2 = lineBreak
    · rw [atBreak] at isNext isStop
      exact mismatch ⟨isNext, isStop⟩
    · by_cases oneBehind : stop - 3 = lineBreak
      · rw [oneBehind, isBreak] at isCr
        cases isCr
      · have twoBehind : stop - 2 = lineBreak + 2 := by omega
        have isBefore : stop - 3 = lineBreak + 1 := by omega
        rw [isBefore] at isCr
        rw [twoBehind] at isFeed
        exact mismatch ⟨isCr, isFeed⟩

/-- Behind a mismatch the search goes on as if it had begun there. -/
theorem IsFound.skip {lineBreak : Search} {later : Search} {next : List Nat}
    (isLineBreak : IsLineBreak p len off lineBreak) (fits : lineBreak.off + 2 < len)
    (mismatch : ¬(p[lineBreak.off + 1]? = some Http.cr ∧ p[lineBreak.off + 2]? = some Http.lf))
    (areNext : ∀ i ∈ next, lineBreak.off < i ∧ i ≤ lineBreak.off + 2)
    (found : IsFound p len (lineBreak.off + 3) later) :
    IsFound p len off ⟨later.off, lineBreak.reads ++ next ++ later.reads⟩ := by
  have behind := isLineBreak.behind
  have isBreak := isLineBreak.isBreak (by omega)
  refine ⟨found.inside, fun below => ?_, fun stop isBehind before => ?_, ?_⟩
  · obtain ⟨isLater, isBlank⟩ := found.isBlank below
    exact ⟨by dsimp only; omega, isBlank⟩
  · by_cases skipped : stop < lineBreak.off + 5
    · exact not_endsBlock_skipped isBreak isLineBreak.first mismatch isBehind skipped
    · have notSkipped : lineBreak.off + 3 + 2 ≤ stop := by omega
      exact found.first stop notSkipped before
  · refine List.forall_mem_append.mpr ⟨List.forall_mem_append.mpr ⟨isLineBreak.reads, ?_⟩, ?_⟩
    · intro i isNext
      have bounds := areNext i isNext
      omega
    · intro i isLater
      have bounds := found.reads i isLater
      omega

theorem isFound_blankLineFrom (p : Bytes) (len off : Nat) : IsFound p len off (blankLineFrom p len off) := by
  fun_induction blankLineFrom p len off with
  | case1 off below lineBreak short =>
      have isLineBreak : IsLineBreak p len off lineBreak :=
        isLineBreak_lineBreakFrom (Nat.le_of_lt below)
      refine ⟨Nat.le_refl len, fun atEnd => absurd atEnd (Nat.lt_irrefl len), ?_, isLineBreak.reads⟩
      rintro stop behind before ⟨-, -, isFeed, -, -⟩
      exact isLineBreak.first (stop - 2) (by omega) (by dsimp only at before; omega) isFeed
  | case2 off below lineBreak fits isCr reads isLf =>
      have isLineBreak : IsLineBreak p len off lineBreak :=
        isLineBreak_lineBreakFrom (Nat.le_of_lt below)
      have behind := isLineBreak.behind
      have isBreak := isLineBreak.isBreak (by omega)
      refine ⟨by dsimp only; omega, fun _ => ⟨by dsimp only; omega, isBreak, isCr, isLf⟩, ?_, ?_⟩
      · rintro stop isBehind before ⟨-, -, isFeed, -, -⟩
        exact isLineBreak.first (stop - 2) (by omega) (by dsimp only at before; omega) isFeed
      · refine List.forall_mem_append.mpr ⟨isLineBreak.reads, ?_⟩
        refine List.forall_mem_cons.mpr ⟨by omega, List.forall_mem_singleton.mpr (by omega)⟩
  | case3 off below lineBreak fits isCr reads notLf later ih =>
      have fit : lineBreak.off + 2 < len := Nat.not_le.mp fits
      refine .skip (isLineBreak_lineBreakFrom (Nat.le_of_lt below)) fit
        (fun both => notLf both.2) ?_ ih
      refine List.forall_mem_cons.mpr ⟨?_, List.forall_mem_singleton.mpr ?_⟩
      · exact ⟨Nat.lt_succ_self _, Nat.le_succ _⟩
      · exact ⟨Nat.lt_add_of_pos_right Nat.two_pos, Nat.le_refl _⟩
  | case4 off below lineBreak fits notCr later ih =>
      have fit : lineBreak.off + 2 < len := Nat.not_le.mp fits
      have isNext : ∀ i ∈ [lineBreak.off + 1], lineBreak.off < i ∧ i ≤ lineBreak.off + 2 :=
        List.forall_mem_singleton.mpr ⟨Nat.lt_succ_self _, Nat.le_succ _⟩
      have skipped := IsFound.skip (isLineBreak_lineBreakFrom (Nat.le_of_lt below)) fit
        (fun both => notCr both.1) isNext ih
      rwa [List.append_assoc, List.singleton_append] at skipped
  | case5 off outside =>
      refine ⟨Nat.le_refl len, fun atEnd => absurd atEnd (Nat.lt_irrefl len), ?_, List.forall_mem_nil _⟩
      intro stop behind before
      dsimp only at before
      omega

theorem findBlankLineFor_step (lenInside : len ≤ p.length) (below : off < len) (fuel : Nat) :
    findBlankLineFor (p.take len) (fuel + 1) off =
      if len ≤ (lineBreakFrom p len off).off + 2 then len
      else if p[(lineBreakFrom p len off).off + 1]? = some Http.cr ∧
          p[(lineBreakFrom p len off).off + 2]? = some Http.lf then
        (lineBreakFrom p len off).off + 2
      else findBlankLineFor (p.take len) fuel ((lineBreakFrom p len off).off + 3) := by
  have length : (p.take len).length = len := List.length_take_of_le lenInside
  rw [findBlankLineFor, length, if_neg (Nat.not_le.mpr below), ← lineBreakFrom_off lenInside]
  dsimp only
  split
  · rfl
  · next fits =>
      rw [List.getElem?_take_of_lt (by omega), List.getElem?_take_of_lt (by omega)]

/-- The loop is the search that the parsers of a head use, on the bytes of the range. -/
theorem blankLineFrom_off (lenInside : len ≤ p.length) (fuel : Nat) (enough : len < fuel + off) :
    (blankLineFrom p len off).off = findBlankLineFor (p.take len) fuel off := by
  fun_induction blankLineFrom p len off generalizing fuel with
  | case1 off below lineBreak short =>
      cases fuel with
      | zero => omega
      | succ fuel => rw [findBlankLineFor_step lenInside below, if_pos short]
  | case2 off below lineBreak fits isCr reads isLf =>
      cases fuel with
      | zero => omega
      | succ fuel => rw [findBlankLineFor_step lenInside below, if_neg fits, if_pos ⟨isCr, isLf⟩]
  | case3 off below lineBreak fits isCr reads notLf later ih =>
      cases fuel with
      | zero => omega
      | succ fuel =>
          have behind : off ≤ lineBreak.off := (isLineBreak_lineBreakFrom (Nat.le_of_lt below)).behind
          rw [findBlankLineFor_step lenInside below, if_neg fits, if_neg fun both => notLf both.2]
          exact ih fuel (by omega)
  | case4 off below lineBreak fits notCr later ih =>
      cases fuel with
      | zero => omega
      | succ fuel =>
          have behind : off ≤ lineBreak.off := (isLineBreak_lineBreakFrom (Nat.le_of_lt below)).behind
          rw [findBlankLineFor_step lenInside below, if_neg fits, if_neg fun both => notCr both.1]
          exact ih fuel (by omega)
  | case5 off outside =>
      have length : (p.take len).length = len := List.length_take_of_le lenInside
      cases fuel with
      | zero => exact length.symm
      | succ fuel => rw [findBlankLineFor, length, if_pos (Nat.not_lt.mp outside)]

end

/-!
## The plain search
-/

instance (p : Bytes) (stop : Nat) : Decidable (EndsBlock p stop) :=
  decidable_of_iff (3 ≤ stop ∧ p[stop - 3]? = some cr ∧ p[stop - 2]? = some lf ∧
      p[stop - 2 + 1]? = some cr ∧ p[stop - 2 + 2]? = some lf)
    ⟨fun ⟨enough, isCr, isFeed, isNext, isStop⟩ => ⟨enough, isCr, isFeed, isNext, isStop⟩,
      fun ⟨enough, isCr, isFeed, isNext, isStop⟩ => ⟨enough, isCr, isFeed, isNext, isStop⟩⟩

/-- The first end of a block from an offset on, looked for byte by byte. -/
def plainSearch (p : Bytes) (first len : Nat) : Nat :=
  ((List.range len).find? fun stop => first ≤ stop ∧ EndsBlock p stop).getD len

theorem plainSearch_eq {p : Bytes} {first len found : Nat} (inside : found ≤ len)
    (isFound : found < len → first ≤ found ∧ EndsBlock p found)
    (isFirst : ∀ stop, first ≤ stop → stop < found → ¬EndsBlock p stop) :
    plainSearch p first len = found := by
  have notFirst (stop : Nat) (before : stop < found) :
      decide (first ≤ stop ∧ EndsBlock p stop) = false :=
    decide_eq_false fun both => isFirst stop both.1 before both.2
  unfold plainSearch
  by_cases atEnd : found = len
  · have noneFound : (List.range len).find? (fun stop => first ≤ stop ∧ EndsBlock p stop) = none := by
      refine List.find?_range_eq_none.mpr fun stop before => ?_
      rw [notFirst stop (atEnd ▸ before)]
      rfl
    rw [noneFound, atEnd]
    rfl
  · have below := Nat.lt_of_le_of_ne inside atEnd
    have someFound : (List.range len).find? (fun stop => first ≤ stop ∧ EndsBlock p stop) =
        some found := by
      refine List.find?_range_eq_some.mpr ⟨?_, List.mem_range.mpr below, fun stop before => ?_⟩
      · simpa using isFound below
      · rw [notFirst stop before]
        rfl
    rw [someFound]
    rfl

/-- The search reads nothing outside its range and stops at the end of a blank line. Where each
line feed of the range has a CR in front, it finds what the plain search finds: if that CR may
stand in front of the range, from the first line feed on; if not, the first block inside it. -/
theorem findBlankLine_plain (p : Bytes) (off len : Nat) (lenInside : len ≤ p.length) :
    findBlankLine (p.take len) off = (blankLineFrom p len off).off ∧
      (∀ i ∈ (blankLineFrom p len off).reads, off ≤ i ∧ i < len) ∧
      (blankLineFrom p len off).off ≤ len ∧
      ((blankLineFrom p len off).off < len →
        off + 2 ≤ (blankLineFrom p len off).off ∧ IsBlankLine p ((blankLineFrom p len off).off - 2)) ∧
      ((∀ i, off ≤ i → i < len → p[i]? = some lf → 0 < i ∧ p[i - 1]? = some cr) →
        (blankLineFrom p len off).off = plainSearch p (off + 2) len) ∧
      ((∀ i, off ≤ i → i < len → p[i]? = some lf → off < i ∧ p[i - 1]? = some cr) →
        (blankLineFrom p len off).off = plainSearch p (off + 3) len) := by
  have found := isFound_blankLineFrom p len off
  have isSearch : findBlankLine (p.take len) off = (blankLineFrom p len off).off := by
    rw [findBlankLine, List.length_take_of_le lenInside]
    exact (blankLineFrom_off lenInside (len + 1) (by omega)).symm
  refine ⟨isSearch, found.reads, found.inside, found.isBlank, fun hasCr => ?_, fun hasCr => ?_⟩
  · refine (plainSearch_eq found.inside (fun below => ?_) found.first).symm
    obtain ⟨behind, isBlank⟩ := found.isBlank below
    obtain ⟨positive, isCr⟩ := hasCr _ (by omega) (by omega) isBlank.lineFeed
    exact ⟨behind, by omega, isCr, isBlank⟩
  · refine (plainSearch_eq found.inside (fun below => ?_) fun stop behind => ?_).symm
    · obtain ⟨behind, isBlank⟩ := found.isBlank below
      obtain ⟨inRange, isCr⟩ := hasCr _ (by omega) (by omega) isBlank.lineFeed
      exact ⟨by omega, by omega, isCr, isBlank⟩
    · exact found.first stop (by omega)

theorem findBlankLine_plain_block :
    findBlankLine ([0x41, cr, lf, cr, lf, 0x42].take 5) 0 = 4 ∧
      plainSearch [0x41, cr, lf, cr, lf, 0x42] 2 5 = 4 := by
  have hasCr : ∀ i, i < 5 → [0x41, cr, lf, cr, lf, 0x42][i]? = some lf →
      0 < i ∧ [0x41, cr, lf, cr, lf, 0x42][i - 1]? = some cr := by decide
  have isPlain : plainSearch [0x41, cr, lf, cr, lf, 0x42] 2 5 = 4 := by decide
  obtain ⟨isSearch, -, -, -, isFirst, -⟩ :=
    findBlankLine_plain [0x41, cr, lf, cr, lf, 0x42] 0 5 (by decide)
  exact ⟨(isSearch.trans (isFirst fun i _ => hasCr i)).trans isPlain, isPlain⟩

end FreeOnline.Net.Http
