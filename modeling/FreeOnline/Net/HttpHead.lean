import FreeOnline.Net.HttpResponse

/-!
# The head of a response

A status line, the lines of the header and a blank line. The parser waits until all of
it is there and finds its end where it is.
-/

set_option autoImplicit false

namespace FreeOnline.Net.Http

open StatusLine (isDigit digitOf)

/-!
## Lines
-/

theorem findLineBreak_none {p : Bytes} {off : Nat} (none : lf ∉ p.drop off) :
    findLineBreak p off = p.length := by
  unfold findLineBreak findFrom
  split
  · rfl
  · next inside =>
      have notFound : (p.drop off).findIdx (· = lf) = (p.drop off).length := by
        refine List.findIdx_eq_length_of_false ?_
        intro ch isMember
        rw [decide_eq_false_iff_not]
        rintro rfl
        exact none isMember
      rw [notFound, List.length_drop]
      omega

theorem findLineBreak_some {p : Bytes} {off : Nat} {line rest : Bytes}
    (isLine : p.drop off = line ++ lf :: rest) (none : lf ∉ line) :
    findLineBreak p off = off + line.length := by
  have notFound : line.findIdx (· = lf) = line.length := by
    refine List.findIdx_eq_length_of_false ?_
    intro ch isMember
    rw [decide_eq_false_iff_not]
    rintro rfl
    exact none isMember
  have inside : ¬ p.length ≤ off := by
    intro outside
    rw [List.drop_eq_nil_of_le outside] at isLine
    simp at isLine
  unfold findLineBreak findFrom
  rw [if_neg inside, isLine, List.findIdx_append, notFound]
  simp [List.findIdx_cons]

def linesText (lines : List Bytes) : Bytes := lines.flatMap fun line => line ++ [cr, lf]

theorem linesText_cons (line : Bytes) (lines : List Bytes) (more : Bytes) :
    linesText (line :: lines) ++ more = line ++ cr :: lf :: (linesText lines ++ more) := by
  simp [linesText]

theorem length_le_linesText (lines : List Bytes) : lines.length ≤ (linesText lines).length := by
  induction lines with
  | nil => exact Nat.zero_le _
  | cons line lines ih =>
      have isText := congrArg List.length (linesText_cons line lines [])
      simp only [List.append_nil, List.length_append, List.length_cons] at isText ⊢
      omega

theorem okReason_inLine : cr ∉ bytesOf "OK" ∧ lf ∉ bytesOf "OK" := by decide

structure ResponseHead where
  major : UInt8
  minor : UInt8
  hundreds : UInt8
  tens : UInt8
  ones : UInt8
  reason : Bytes
  lines : List Bytes
  areDigits : ∀ ch ∈ [major, minor, hundreds, tens, ones], isDigit ch = true
  inRange : 100 ≤ digitOf hundreds * 100 + digitOf tens * 10 + digitOf ones ∧
    digitOf hundreds * 100 + digitOf tens * 10 + digitOf ones ≤ 599
  reasonInLine : cr ∉ reason ∧ lf ∉ reason
  reasonStart : ∀ ch ∈ reason.head?, isWhitespace ch = false
  areLines : ∀ line ∈ lines, line ≠ [] ∧ cr ∉ line ∧ lf ∉ line

namespace ResponseHead

variable (head : ResponseHead)

def statusCode : Nat :=
  digitOf head.hundreds * 100 + digitOf head.tens * 10 + digitOf head.ones

def beforeReason : Bytes :=
  [0x48, 0x54, 0x54, 0x50, 0x2f, head.major, 0x2e, head.minor, 0x20, head.hundreds, head.tens,
    head.ones, 0x20]

def statusText : Bytes := head.beforeReason ++ head.reason

def bytes : Bytes := head.statusText ++ cr :: lf :: (linesText head.lines ++ [cr, lf])

/-!
## The status line
-/

private theorem isWhitespace_of_isDigit {ch : UInt8} (digit : isDigit ch = true) :
    isWhitespace ch = false := by
  cases blank : isWhitespace ch with
  | false => rfl
  | true =>
      simp only [isWhitespace, Bool.or_eq_true, decide_eq_true_eq] at blank
      rcases blank with (rfl | rfl) | rfl
      all_goals exact absurd digit (by decide)

private theorem ne_lf_of_isDigit {ch : UInt8} (digit : isDigit ch = true) : lf ≠ ch := by
  rintro rfl
  exact absurd digit (by decide)

private theorem lf_not_mem_beforeReason : lf ∉ head.beforeReason := by
  have digits := head.areDigits
  simp only [List.forall_mem_cons] at digits
  obtain ⟨major, minor, hundreds, tens, ones, -⟩ := digits
  simp only [beforeReason, List.mem_cons, List.not_mem_nil, or_false, not_or]
  refine ⟨by decide, by decide, by decide, by decide, by decide, ne_lf_of_isDigit major, by decide,
    ne_lf_of_isDigit minor, by decide, ne_lf_of_isDigit hundreds, ne_lf_of_isDigit tens,
    ne_lf_of_isDigit ones, by decide⟩

private theorem safeAtoi_statusCode (tail : Bytes) :
    StatusLine.safeAtoi (head.hundreds :: head.tens :: head.ones :: 0x20 :: tail) =
      head.statusCode := by
  have digits := head.areDigits
  simp only [List.forall_mem_cons] at digits
  obtain ⟨-, -, hundreds, tens, ones, -⟩ := digits
  have blank : isDigit 0x20 = false := by decide
  obtain ⟨-, small⟩ := head.inRange
  simp only [StatusLine.safeAtoi, List.takeWhile_cons, hundreds, tens, ones, blank, ↓reduceIte,
    Bool.false_eq_true, List.foldl_cons, List.foldl_nil, Nat.zero_mul, Nat.zero_add]
  have first : ¬ 2 ^ 31 - 1 ≤ digitOf head.hundreds := by omega
  have second : ¬ 2 ^ 31 - 1 ≤ digitOf head.hundreds * 10 + digitOf head.tens := by omega
  have third : ¬ 2 ^ 31 - 1 ≤
      (digitOf head.hundreds * 10 + digitOf head.tens) * 10 + digitOf head.ones := by omega
  rw [if_neg first, if_neg second, if_neg third, statusCode]
  omega

/-- What is parsed does not depend on what the status line was before. -/
private theorem parse_beforeReason (statusLine : StatusLine) {tail : Bytes}
    (enough : 1 ≤ tail.length) :
    ∃ versioned parsed : StatusLine, parsed.statusCode = head.statusCode ∧
      statusLine.parse (head.beforeReason ++ tail) =
        let p := head.beforeReason ++ tail
        let reasonOff := skipSpaceAndTab p 12
        if tail.length < 2 then (.incomplete, versioned, 0)
        else if StatusLine.maxStatusLineLen ≤ reasonOff then (.invalid, parsed, 0)
        else
          let off := findLineBreak p reasonOff
          if p.length ≤ off then (.incomplete, parsed, 0)
          else
            let stringSize := off - reasonOff - 1
            let parsed :=
              if 0 < stringSize then
                { parsed with reasonPhrase := (p.drop reasonOff).take stringSize }
              else parsed
            (.valid, parsed, skipCRLF p off) := by
  have digits := head.areDigits
  simp only [List.forall_mem_cons] at digits
  obtain ⟨major, minor, hundreds, -, -, -⟩ := digits
  have length : (head.beforeReason ++ tail).length = 13 + tail.length := by
    simp [beforeReason]
    omega
  have noBlank : skipSpaceAndTab (head.beforeReason ++ tail) 0 = 0 := by
    simp [skipSpaceAndTab, findFrom, beforeReason, List.findIdx_cons, isWhitespace, cr]
  have blank : skipSpaceAndTab (head.beforeReason ++ tail) 8 = 9 := by
    have isBlank : isWhitespace 0x20 = true := by decide
    rw [skipSpaceAndTab, findFrom, if_neg (by omega)]
    simp [beforeReason, List.findIdx_cons, isBlank, isWhitespace_of_isDigit hundreds]
  have version : StatusLine.isVersion (head.beforeReason ++ tail) = true := by
    simp [StatusLine.isVersion, beforeReason, StatusLine.http, major, minor, isWhitespace]
  have code : StatusLine.safeAtoi ((head.beforeReason ++ tail).drop 9) = head.statusCode :=
    head.safeAtoi_statusCode tail
  have digit : isDigit ((head.beforeReason ++ tail).getD 9 0) = true := by
    simpa [beforeReason] using hundreds
  obtain ⟨low, high⟩ := head.inRange
  let versioned : StatusLine :=
    { statusLine with
      httpVersion := (head.beforeReason ++ tail).take StatusLine.versionLen
      versionMajor := digitOf ((head.beforeReason ++ tail).getD 5 0)
      versionMinor := digitOf ((head.beforeReason ++ tail).getD 7 0) }
  refine ⟨versioned, { versioned with statusCode := head.statusCode }, rfl, ?_⟩
  have long : ¬ (head.beforeReason ++ tail).length < StatusLine.minStatusLineLen := by
    rw [length, StatusLine.minStatusLineLen]
    omega
  have isShort : (head.beforeReason ++ tail).length - 9 < StatusLine.minStatusLineLen - 8 ↔
      tail.length < 2 := by
    rw [length, StatusLine.minStatusLineLen]
    omega
  have inRange : ¬ (head.statusCode < StatusLine.minValidStatusCode ∨
      StatusLine.maxValidStatusCode < head.statusCode) := by
    rw [statusCode, StatusLine.minValidStatusCode, StatusLine.maxValidStatusCode]
    omega
  unfold StatusLine.parse
  rw [if_neg long]
  simp only [noBlank, Nat.sub_zero, List.drop_zero, version, Nat.zero_add]
  rw [if_neg (by decide), if_neg long, if_neg (by decide)]
  simp only [show StatusLine.versionLen = 8 from rfl, blank]
  rw [if_neg (by decide)]
  simp only [isShort, digit, code, Bool.not_true, Bool.false_eq_true, ↓reduceIte]
  rw [if_neg inRange]
  rfl

private theorem skip_blank {tail : Bytes} (other : ∀ ch ∈ tail.head?, isWhitespace ch = false) :
    skipSpaceAndTab (head.beforeReason ++ tail) 12 = 13 := by
  have blank : isWhitespace 0x20 = true := by decide
  cases tail with
  | nil => simp [skipSpaceAndTab, findFrom, beforeReason, List.findIdx_cons, blank]
  | cons ch tail =>
      simp [skipSpaceAndTab, findFrom, beforeReason, List.findIdx_cons, blank, other ch rfl]

private theorem skip_noReason (rest : Bytes) :
    skipSpaceAndTab (head.beforeReason ++ cr :: lf :: rest) 12 = 14 := by
  have blank : isWhitespace 0x20 = true := by decide
  have returns : isWhitespace cr = true := by decide
  have other : isWhitespace lf = false := by decide
  simp [skipSpaceAndTab, findFrom, beforeReason, List.findIdx_cons, blank, returns, other]

private theorem skipCRLF_pos {p : Bytes} {off : Nat} (inside : off < p.length) (notFirst : 0 < off) :
    0 < skipCRLF p off := by
  unfold skipCRLF findFrom
  rw [if_neg (by omega)]
  omega

private theorem drop_beforeReason (tail : Bytes) : (head.beforeReason ++ tail).drop 13 = tail := rfl

private theorem lf_not_mem_reason : lf ∉ head.reason ++ [cr] := by
  intro isMember
  rcases List.mem_append.mp isMember with inReason | isCr
  · exact head.reasonInLine.2 inReason
  · exact absurd (List.mem_singleton.mp isCr) (by decide)

private theorem reason_found (rest : Bytes) :
    skipSpaceAndTab (head.beforeReason ++ (head.reason ++ cr :: lf :: rest)) 12 ≤ 14 ∧
      findLineBreak (head.beforeReason ++ (head.reason ++ cr :: lf :: rest))
        (skipSpaceAndTab (head.beforeReason ++ (head.reason ++ cr :: lf :: rest)) 12) =
          14 + head.reason.length := by
  cases isReason : head.reason with
  | nil =>
      simp only [List.nil_append]
      rw [head.skip_noReason rest]
      have atBreak : (head.beforeReason ++ cr :: lf :: rest).drop 14 = [] ++ lf :: rest := rfl
      exact ⟨Nat.le_refl _, findLineBreak_some atBreak List.not_mem_nil⟩
  | cons ch reason =>
      have other : ∀ first ∈ (ch :: reason ++ cr :: lf :: rest).head?,
          isWhitespace first = false := by
        intro first isFirst
        exact head.reasonStart first (by rw [isReason]; exact isFirst)
      have none : lf ∉ ch :: reason ++ [cr] := by
        rw [← isReason]
        exact head.lf_not_mem_reason
      have atReason : (head.beforeReason ++ (ch :: reason ++ cr :: lf :: rest)).drop 13 =
          (ch :: reason ++ [cr]) ++ lf :: rest := by
        rw [head.drop_beforeReason]
        simp
      rw [head.skip_blank other, findLineBreak_some atReason none]
      refine ⟨by decide, ?_⟩
      simp
      omega

theorem parse_whole (statusLine : StatusLine) (rest : Bytes) :
    ∃ parsed read, parsed.statusCode = head.statusCode ∧ 0 < read ∧
      statusLine.parse (head.statusText ++ cr :: lf :: rest) = (.valid, parsed, read) := by
  obtain ⟨versioned, parsed, isCode, isParsed⟩ := head.parse_beforeReason statusLine
    (show 1 ≤ (head.reason ++ cr :: lf :: rest).length by simp; omega)
  obtain ⟨reasonOff, isBreak⟩ := head.reason_found rest
  have inside : 14 + head.reason.length <
      (head.beforeReason ++ (head.reason ++ cr :: lf :: rest)).length := by
    simp [beforeReason]
    omega
  have short : ¬ StatusLine.maxStatusLineLen ≤
      skipSpaceAndTab (head.beforeReason ++ (head.reason ++ cr :: lf :: rest)) 12 := by
    have isMax : StatusLine.maxStatusLineLen = 523 := rfl
    omega
  rw [statusText, List.append_assoc, isParsed]
  dsimp only
  rw [if_neg (by simp; omega), if_neg short, isBreak, if_neg (Nat.not_le.mpr inside)]
  refine ⟨_, _, ?_, skipCRLF_pos inside (by omega), rfl⟩
  split <;> exact isCode

theorem parse_part (statusLine : StatusLine) {p : Bytes}
    (isPrefix : p <+: head.statusText ++ [cr, lf])
    (short : p.length < (head.statusText ++ [cr, lf]).length) :
    ∃ parsed, statusLine.parse p = (.incomplete, parsed, 0) := by
  by_cases few : p.length < StatusLine.minStatusLineLen
  · exact ⟨statusLine, if_pos few⟩
  · have isMin : StatusLine.minStatusLineLen = 14 := rfl
    have before : head.beforeReason <+: p := by
      refine List.prefix_of_prefix_length_le ?_ isPrefix (by simp [beforeReason]; omega)
      exact ⟨head.reason ++ [cr, lf], by simp [statusText]⟩
    obtain ⟨tail, rfl⟩ := before
    rw [statusText, List.append_assoc] at isPrefix short
    have tailPrefix := (List.prefix_append_right_inj _).mp isPrefix
    have tailShort : tail.length < head.reason.length + 2 := by
      simpa using short
    have length : (head.beforeReason ++ tail).length = 13 + tail.length := by
      simp [beforeReason]
      omega
    obtain ⟨versioned, parsed, -, isParsed⟩ := head.parse_beforeReason statusLine
      (show 1 ≤ tail.length by omega)
    rw [isParsed]
    dsimp only
    by_cases one : tail.length < 2
    · exact ⟨versioned, if_pos one⟩
    · -- There is a reason, and no line break behind it.
      have inLine : tail <+: head.reason ++ [cr] := by
        have whole : head.reason ++ [cr] <+: head.reason ++ [cr, lf] := ⟨[lf], by simp⟩
        exact List.prefix_of_prefix_length_le tailPrefix whole (by simp; omega)
      have none : lf ∉ tail := fun isMember => head.lf_not_mem_reason (inLine.subset isMember)
      have other : ∀ first ∈ tail.head?, isWhitespace first = false := by
        intro first isFirst
        refine head.reasonStart first ?_
        cases isReason : head.reason with
        | nil =>
            rw [isReason, List.length_nil] at tailShort
            omega
        | cons ch reason =>
            rw [isReason] at inLine
            obtain ⟨rest, isRest⟩ := inLine
            cases tail with
            | nil => cases isFirst
            | cons start tail =>
                rw [List.cons_append, List.cons_append, List.cons.injEq] at isRest
                rw [← isRest.1]
                exact isFirst
      have notFound : findLineBreak (head.beforeReason ++ tail) 13 =
          (head.beforeReason ++ tail).length :=
        findLineBreak_none none
      rw [head.skip_blank other, if_neg one, if_neg (by decide), notFound,
        if_pos (Nat.le_refl _)]
      exact ⟨parsed, rfl⟩

/-!
## The blank line
-/

private theorem findBlankLineFor_none {p : Bytes} {off : Nat} (none : lf ∉ p.drop off)
    (fuel : Nat) : findBlankLineFor p fuel off = p.length := by
  cases fuel with
  | zero => rfl
  | succ fuel =>
      unfold findBlankLineFor
      split
      · rfl
      · rw [findLineBreak_none none]
        exact if_pos (by omega)

private theorem length_of_drop {p : Bytes} {off : Nat} {line tail : Bytes}
    (isLine : p.drop off = line ++ lf :: tail) : p.length = off + line.length + 1 + tail.length := by
  have length := congrArg List.length isLine
  have inside : off < p.length := by
    by_contra outside
    rw [List.drop_eq_nil_of_le (by omega)] at isLine
    simp at isLine
  simp only [List.length_drop, List.length_append, List.length_cons] at length
  omega

private theorem findBlankLineFor_line {p : Bytes} {off : Nat} {line tail : Bytes}
    (isLine : p.drop off = line ++ lf :: tail) (none : lf ∉ line) (fuel : Nat) :
    findBlankLineFor p (fuel + 1) off =
      if tail.length < 2 then p.length
      else if tail[0]? = some cr ∧ tail[1]? = some lf then off + line.length + 2
      else findBlankLineFor p fuel (off + line.length + 3) := by
  have length := length_of_drop isLine
  have behind (index : Nat) : p[off + line.length + 1 + index]? = tail[index]? := by
    have isTail : p.drop (off + line.length + 1) = tail := by
      rw [Nat.add_assoc, ← List.drop_drop, isLine, ← List.drop_drop, List.drop_left]
      rfl
    rw [← isTail, List.getElem?_drop]
  rw [findBlankLineFor, if_neg (by omega), findLineBreak_some isLine none]
  dsimp only
  by_cases short : tail.length < 2
  · rw [if_pos short, if_pos (by omega)]
  · rw [if_neg short, if_neg (by omega)]
    exact if_congr (by rw [← behind 0, ← behind 1]) rfl rfl

private theorem drop_two_line {line : Bytes} (notEmpty : line ≠ []) (more : Bytes) :
    (line ++ cr :: lf :: more).drop 2 = (line ++ [cr]).drop 2 ++ lf :: more := by
  have enough : 2 ≤ (line ++ [cr]).length := by
    have := List.length_pos_of_ne_nil notEmpty
    rw [List.length_append, List.length_singleton]
    omega
  rw [← List.drop_append_of_le_length enough]
  simp

private theorem lf_not_mem_drop {line : Bytes} (none : lf ∉ line) : lf ∉ (line ++ [cr]).drop 2 := by
  intro isMember
  rcases List.mem_append.mp (List.mem_of_mem_drop isMember) with inLine | isCr
  · exact none inLine
  · exact absurd (List.mem_singleton.mp isCr) (by decide)

private theorem not_blank {line tail more : Bytes} (notEmpty : line ≠ []) (none : cr ∉ line)
    (isPrefix : tail <+: line ++ more) : ¬ (tail[0]? = some cr ∧ tail[1]? = some lf) := by
  rintro ⟨isCr, -⟩
  cases tail with
  | nil => cases isCr
  | cons first tail =>
      cases line with
      | nil => exact absurd rfl notEmpty
      | cons ch line =>
          obtain ⟨rfl, -⟩ := List.cons_prefix_cons.mp isPrefix
          have same : first = cr := by simpa using isCr
          exact none (by rw [same]; exact List.mem_cons_self)

private theorem prefix_line {part line more : Bytes} (none : lf ∉ line)
    (isPrefix : part <+: line ++ lf :: more) :
    lf ∉ part ∨ ∃ tail, part = line ++ lf :: tail ∧ tail <+: more := by
  by_cases inLine : part.length ≤ line.length
  · have inside := List.prefix_of_prefix_length_le isPrefix (List.prefix_append _ _) inLine
    exact .inl fun isMember => none (inside.subset isMember)
  · have start : line ++ [lf] <+: line ++ lf :: more := ⟨more, by simp⟩
    obtain ⟨tail, rfl⟩ := List.prefix_of_prefix_length_le start isPrefix (by simp; omega)
    refine .inr ⟨tail, by simp, ?_⟩
    rw [List.append_assoc, List.prefix_append_right_inj] at isPrefix
    exact (List.cons_prefix_cons.mp isPrefix).2

section Lines

variable {p : Bytes} {lines : List Bytes}
  (areLines : ∀ line ∈ lines, line ≠ [] ∧ cr ∉ line ∧ lf ∉ line)
include areLines

theorem findBlankLineFor_whole {rest part : Bytes} {fuel off : Nat}
    (enough : lines.length < fuel) (none : lf ∉ part)
    (isPart : p.drop off = part ++ lf :: (linesText lines ++ cr :: lf :: rest)) :
    findBlankLineFor p fuel off = off + part.length + (linesText lines).length + 2 := by
  induction lines generalizing fuel off part with
  | nil =>
      cases fuel with
      | zero => simp at enough
      | succ fuel =>
          rw [findBlankLineFor_line isPart none]
          simp [linesText]
  | cons line lines ih =>
      cases fuel with
      | zero => simp at enough
      | succ fuel =>
          obtain ⟨notEmpty, noCr, noLf⟩ := areLines line List.mem_cons_self
          rw [linesText_cons] at isPart
          have behind : p.drop (off + part.length + 3) =
              (line ++ [cr]).drop 2 ++ lf :: (linesText lines ++ cr :: lf :: rest) := by
            rw [Nat.add_assoc, ← List.drop_drop, isPart, ← List.drop_drop, List.drop_left,
              List.drop_succ_cons, drop_two_line notEmpty]
          have next := ih (fun other isOther => areLines other (List.mem_cons_of_mem _ isOther))
            (show lines.length < fuel by simpa using enough) (lf_not_mem_drop noLf) behind
          have filled := List.length_pos_of_ne_nil notEmpty
          rw [findBlankLineFor_line isPart none, if_neg (by simp; omega),
            if_neg (not_blank notEmpty noCr (List.prefix_refl _)), next]
          simp only [linesText, List.flatMap_cons, List.length_append, List.length_drop,
            List.length_cons, List.length_nil]
          omega

theorem findBlankLineFor_part {part : Bytes} {fuel off : Nat} (none : lf ∉ part)
    (isPrefix : p.drop off <+: part ++ lf :: (linesText lines ++ [cr, lf]))
    (short : (p.drop off).length < (part ++ lf :: (linesText lines ++ [cr, lf])).length) :
    findBlankLineFor p fuel off = p.length := by
  induction lines generalizing fuel off part with
  | nil =>
      obtain noBreak | ⟨tail, isPart, -⟩ := prefix_line none isPrefix
      · exact findBlankLineFor_none noBreak fuel
      · cases fuel with
        | zero => rfl
        | succ fuel =>
            rw [findBlankLineFor_line isPart none, if_pos]
            rw [isPart] at short
            simp [linesText] at short
            omega
  | cons line lines ih =>
      obtain noBreak | ⟨tail, isPart, isTail⟩ := prefix_line none isPrefix
      · exact findBlankLineFor_none noBreak fuel
      · cases fuel with
        | zero => rfl
        | succ fuel =>
            obtain ⟨notEmpty, noCr, noLf⟩ := areLines line List.mem_cons_self
            rw [findBlankLineFor_line isPart none]
            by_cases few : tail.length < 2
            · exact if_pos few
            · rw [linesText_cons] at isTail
              obtain ⟨rest, isRest⟩ := isTail
              have behind : p.drop (off + part.length + 3) = tail.drop 2 := by
                rw [Nat.add_assoc, ← List.drop_drop, isPart, ← List.drop_drop, List.drop_left,
                  List.drop_succ_cons]
              have isDrop : tail.drop 2 ++ rest =
                  (line ++ [cr]).drop 2 ++ lf :: (linesText lines ++ [cr, lf]) := by
                rw [← List.drop_append_of_le_length (by omega), isRest, drop_two_line notEmpty]
              rw [if_neg few, if_neg (not_blank notEmpty noCr ⟨rest, isRest⟩)]
              refine ih (fun other isOther => areLines other (List.mem_cons_of_mem _ isOther))
                (lf_not_mem_drop noLf) ⟨rest, by rw [behind, isDrop]⟩ ?_
              rw [behind, ← isDrop, List.length_append]
              rw [isPart, linesText_cons, ← isRest] at short
              simp only [List.length_append, List.length_cons] at short
              omega

end Lines

private theorem lf_not_mem_statusText : lf ∉ head.statusText ++ [cr] := by
  rw [statusText, List.append_assoc]
  intro isMember
  rcases List.mem_append.mp isMember with before | inReason
  · exact head.lf_not_mem_beforeReason before
  · exact head.lf_not_mem_reason inReason

private theorem bytes_eq (rest : Bytes) :
    head.bytes ++ rest =
      (head.statusText ++ [cr]) ++ lf :: (linesText head.lines ++ cr :: lf :: rest) := by
  simp [bytes]

theorem findBlankLine_whole (rest : Bytes) :
    findBlankLine (head.bytes ++ rest) 0 + 1 = head.bytes.length := by
  have fewLines := length_le_linesText head.lines
  have enough : head.lines.length < (head.bytes ++ rest).length + 1 := by
    rw [head.bytes_eq]
    simp only [List.length_append, List.length_cons]
    omega
  have start : (head.bytes ++ rest).drop 0 =
      (head.statusText ++ [cr]) ++ lf :: (linesText head.lines ++ cr :: lf :: rest) :=
    head.bytes_eq rest
  have found := findBlankLineFor_whole head.areLines enough head.lf_not_mem_statusText start
  rw [findBlankLine, found]
  simp [bytes]
  omega

theorem findBlankLine_part {p : Bytes} (isPrefix : p <+: head.bytes)
    (short : p.length < head.bytes.length) : findBlankLine p 0 = p.length := by
  have isBytes := head.bytes_eq []
  rw [List.append_nil] at isBytes
  rw [isBytes] at isPrefix short
  exact findBlankLineFor_part head.areLines head.lf_not_mem_statusText isPrefix short

end ResponseHead

end FreeOnline.Net.Http
