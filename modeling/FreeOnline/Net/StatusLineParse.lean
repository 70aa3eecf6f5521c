import FreeOnline.Net.HttpHead
import Mathlib.Data.List.TakeWhile

/-!
# Status lines in pieces

What the parser accepts, and what it does with the first bytes of it. The code is read as soon as
six bytes of it are there.
-/

set_option autoImplicit false

namespace FreeOnline.Net.Http

/-!
## Searching
-/

theorem le_findFrom (stops : UInt8 → Bool) {p : Bytes} {off : Nat} (inside : off ≤ p.length) :
    off ≤ findFrom stops p off := by
  unfold findFrom
  split
  · exact inside
  · exact Nat.le_add_right _ _

theorem findFrom_of_lt {stops : UInt8 → Bool} {p : Bytes} {off i : Nat} {ch : UInt8}
    (behind : off ≤ i) (before : i < findFrom stops p off) (isThere : p[i]? = some ch) :
    stops ch = false := by
  unfold findFrom at before
  obtain ⟨inside, isCh⟩ := List.getElem?_eq_some_iff.mp isThere
  split at before
  · omega
  · have early : i - off < (p.drop off).findIdx stops := by omega
    have notFound := List.not_of_lt_findIdx early
    have same : off + (i - off) = i := by omega
    rw [List.getElem_drop] at notFound
    simp only [same, isCh] at notFound
    exact notFound

/-- In the first bytes the search finds the same place, or their end. -/
theorem findFrom_prefix (stops : UInt8 → Bool) {q p : Bytes} (isPrefix : q <+: p) (off : Nat) :
    findFrom stops q off = min q.length (findFrom stops p off) := by
  obtain ⟨rest, isWhole⟩ := isPrefix
  cases isWhole
  have found := (q.drop off).findIdx_le_length (p := stops)
  rw [List.length_drop] at found
  unfold findFrom
  by_cases outside : q.length ≤ off
  · rw [if_pos outside]
    split
    · rw [List.length_append]
      omega
    · omega
  · rw [if_neg outside, if_neg (by rw [List.length_append]; omega),
      List.drop_append_of_le_length (by omega), List.findIdx_append, List.length_drop]
    split
    · omega
    · omega

namespace StatusLine

/-!
## What is accepted
-/

def versionOff (p : Bytes) : Nat := skipSpaceAndTab p 0

def codeOff (p : Bytes) : Nat := skipSpaceAndTab p (versionOff p + versionLen)

def reasonOff (p : Bytes) : Nat := skipSpaceAndTab p (codeOff p + statusCodeLen)

def lineEnd (p : Bytes) : Nat := findLineBreak p (reasonOff p)

/-- All digits of the status code. -/
def codeDigits (p : Bytes) : Bytes := (p.drop (codeOff p)).takeWhile isDigit

structure Accepts (p : Bytes) : Prop where
  long : ¬ p.length < minStatusLineLen
  versionStart : ¬ maxStatusLineLen ≤ versionOff p
  versionLong : ¬ p.length - versionOff p < minStatusLineLen
  version : isVersion (p.drop (versionOff p)) = true
  codeStart : ¬ maxStatusLineLen ≤ codeOff p
  codeLong : ¬ p.length - codeOff p < minStatusLineLen - versionLen
  digit : isDigit (p.getD (codeOff p) 0) = true
  code : ¬ (safeAtoi (p.drop (codeOff p)) < minValidStatusCode ∨
    maxValidStatusCode < safeAtoi (p.drop (codeOff p)))
  reasonStart : ¬ maxStatusLineLen ≤ reasonOff p
  ends : ¬ p.length ≤ lineEnd p

def versioned (statusLine : StatusLine) (p : Bytes) : StatusLine :=
  { statusLine with
    httpVersion := (p.drop (versionOff p)).take versionLen
    versionMajor := digitOf ((p.drop (versionOff p)).getD 5 0)
    versionMinor := digitOf ((p.drop (versionOff p)).getD 7 0) }

def coded (statusLine : StatusLine) (p : Bytes) : StatusLine :=
  { statusLine.versioned p with statusCode := safeAtoi (p.drop (codeOff p)) }

def parsed (statusLine : StatusLine) (p : Bytes) : StatusLine :=
  let stringSize := lineEnd p - reasonOff p - 1
  if 0 < stringSize then
    { statusLine.coded p with reasonPhrase := (p.drop (reasonOff p)).take stringSize }
  else statusLine.coded p

variable {p q : Bytes}

/-- The parser in terms of these places. -/
theorem parse_eq (statusLine : StatusLine) (p : Bytes) :
    statusLine.parse p =
      if p.length < minStatusLineLen then (.incomplete, statusLine, 0)
      else if maxStatusLineLen ≤ versionOff p then (.invalid, statusLine, 0)
      else if p.length - versionOff p < minStatusLineLen then (.incomplete, statusLine, 0)
      else if !isVersion (p.drop (versionOff p)) then (.invalid, statusLine, 0)
      else if maxStatusLineLen ≤ codeOff p then (.invalid, statusLine.versioned p, 0)
      else if p.length - codeOff p < minStatusLineLen - versionLen then
        (.incomplete, statusLine.versioned p, 0)
      else if !isDigit (p.getD (codeOff p) 0) then (.invalid, statusLine.versioned p, 0)
      else if safeAtoi (p.drop (codeOff p)) < minValidStatusCode ∨
          maxValidStatusCode < safeAtoi (p.drop (codeOff p)) then (.invalid, statusLine.coded p, 0)
      else if maxStatusLineLen ≤ reasonOff p then (.invalid, statusLine.coded p, 0)
      else if p.length ≤ lineEnd p then (.incomplete, statusLine.coded p, 0)
      else (.valid, statusLine.parsed p, skipCRLF p (lineEnd p)) := rfl

theorem Accepts.parse (accepts : Accepts p) (statusLine : StatusLine) :
    statusLine.parse p = (.valid, statusLine.parsed p, skipCRLF p (lineEnd p)) := by
  rw [parse_eq, if_neg accepts.long, if_neg accepts.versionStart, if_neg accepts.versionLong,
    accepts.version, if_neg (by decide), if_neg accepts.codeStart, if_neg accepts.codeLong,
    accepts.digit, if_neg (by decide), if_neg accepts.code, if_neg accepts.reasonStart,
    if_neg accepts.ends]

private theorem of_ite {guard : Prop} [Decidable guard] {state : FieldParseState}
    {statusLine : StatusLine} {rest : FieldParseState × StatusLine × Nat} (refused : state ≠ .valid)
    (accepted : (if guard then (state, statusLine, 0) else rest).1 = .valid) :
    ¬ guard ∧ rest.1 = .valid := by
  split at accepted
  · exact absurd accepted refused
  · next passed => exact ⟨passed, accepted⟩

theorem accepts_of_parse {statusLine : StatusLine}
    (accepted : (statusLine.parse p).1 = .valid) : Accepts p := by
  rw [parse_eq] at accepted
  obtain ⟨long, accepted⟩ := of_ite (by decide) accepted
  obtain ⟨versionStart, accepted⟩ := of_ite (by decide) accepted
  obtain ⟨versionLong, accepted⟩ := of_ite (by decide) accepted
  obtain ⟨version, accepted⟩ := of_ite (by decide) accepted
  obtain ⟨codeStart, accepted⟩ := of_ite (by decide) accepted
  obtain ⟨codeLong, accepted⟩ := of_ite (by decide) accepted
  obtain ⟨digit, accepted⟩ := of_ite (by decide) accepted
  obtain ⟨code, accepted⟩ := of_ite (by decide) accepted
  obtain ⟨reasonStart, accepted⟩ := of_ite (by decide) accepted
  obtain ⟨ends, accepted⟩ := of_ite (by decide) accepted
  rw [Bool.not_eq_true', Bool.not_eq_false] at version digit
  exact ⟨long, versionStart, versionLong, version, codeStart, codeLong, digit, code, reasonStart,
    ends⟩

/-!
## The first bytes of a line
-/

theorem getD_take {bytes : Bytes} {i n : Nat} (inside : i < n) :
    (bytes.take n).getD i 0 = bytes.getD i 0 := by
  rw [List.getD_eq_getElem?_getD, List.getD_eq_getElem?_getD, List.getElem?_take, if_pos inside]

theorem isVersion_take {version : Bytes} {n : Nat} (enough : 9 ≤ n) :
    isVersion (version.take n) = isVersion version := by
  have start : http.isPrefixOf (version.take n) = http.isPrefixOf version := by
    have isStart : http.length ≤ n := Nat.le_trans (by decide) enough
    rw [Bool.eq_iff_iff, List.isPrefixOf_iff_prefix, List.isPrefixOf_iff_prefix,
      List.prefix_take_iff]
    exact and_iff_left isStart
  unfold isVersion
  rw [start, getD_take (by omega), getD_take (by omega), getD_take (by omega),
    getD_take (by omega)]

theorem safeAtoi_take {digits : Bytes} {n : Nat} (enough : (digits.takeWhile isDigit).length ≤ n) :
    safeAtoi (digits.take n) = safeAtoi digits := by
  unfold safeAtoi
  rw [← List.take_takeWhile, List.take_of_length_le enough]

section Take

variable {n : Nat}

theorem skipSpaceAndTab_take (inside : n ≤ p.length) (off : Nat) :
    skipSpaceAndTab (p.take n) off = min n (skipSpaceAndTab p off) := by
  have found := findFrom_prefix (fun ch => !isWhitespace ch) (List.take_prefix n p) off
  rwa [List.length_take_of_le inside] at found

theorem versioned_take (statusLine : StatusLine) (sameVersion : versionOff (p.take n) = versionOff p)
    (enough : 8 ≤ n - versionOff p) : statusLine.versioned (p.take n) = statusLine.versioned p := by
  have isVersion : min versionLen (n - versionOff p) = versionLen := Nat.min_eq_left enough
  unfold versioned
  rw [sameVersion, List.drop_take, getD_take (by omega), getD_take (by omega), List.take_take,
    isVersion]

/-- The first bytes up to the end of the line hold the same status line. -/
theorem parsed_take {statusLine : StatusLine} (inside : n ≤ p.length)
    (sameCoded : statusLine.coded (p.take n) = statusLine.coded p)
    (isReason : reasonOff (p.take n) = min n (reasonOff p))
    (ends : lineEnd (p.take n) < n) : statusLine.parsed (p.take n) = statusLine.parsed p := by
  have length : (p.take n).length = n := List.length_take_of_le inside
  have behind : reasonOff (p.take n) ≤ lineEnd (p.take n) := by
    apply le_findFrom
    rw [length, isReason]
    exact Nat.min_le_left _ _
  have sameReason : reasonOff (p.take n) = reasonOff p := by omega
  have isEnd : lineEnd (p.take n) = min n (lineEnd p) := by
    have found := findFrom_prefix (· = lf) (List.take_prefix n p) (reasonOff p)
    rw [length] at found
    unfold lineEnd
    rw [sameReason]
    exact found
  have sameEnd : lineEnd (p.take n) = lineEnd p := by omega
  have within : lineEnd p - reasonOff p - 1 ≤ n - reasonOff p := by omega
  unfold parsed
  rw [sameCoded, sameReason, sameEnd, List.drop_take]
  dsimp only
  rw [List.take_take, Nat.min_eq_left within]

theorem versionOff_take (inside : n ≤ p.length) :
    versionOff (p.take n) = min n (versionOff p) :=
  skipSpaceAndTab_take inside 0

theorem codeOff_take (inside : n ≤ p.length) (sameVersion : versionOff (p.take n) = versionOff p) :
    codeOff (p.take n) = min n (codeOff p) := by
  unfold codeOff
  rw [sameVersion]
  exact skipSpaceAndTab_take inside _

/-- The parser waits for six bytes of the code. -/
theorem Accepts.parse_short (accepts : Accepts p) (inside : n ≤ p.length)
    (short : n < codeOff p + 6) (statusLine : StatusLine) :
    ∃ next, statusLine.parse (p.take n) = (.incomplete, next, 0) ∧
      next.reasonPhrase = statusLine.reasonPhrase := by
  have length : (p.take n).length = n := List.length_take_of_le inside
  have isVersion := versionOff_take inside
  have isMin : minStatusLineLen = 14 := rfl
  have isVersionLen : versionLen = 8 := rfl
  have versionStart := accepts.versionStart
  have codeStart := accepts.codeStart
  rw [parse_eq, length]
  by_cases few : n < minStatusLineLen
  · exact ⟨statusLine, if_pos few, rfl⟩
  rw [if_neg few, if_neg (by omega)]
  by_cases fewVersion : n - versionOff (p.take n) < minStatusLineLen
  · exact ⟨statusLine, if_pos fewVersion, rfl⟩
  have sameVersion : versionOff (p.take n) = versionOff p := by omega
  have isCode := codeOff_take inside sameVersion
  have sameVersioned := versioned_take statusLine sameVersion (by omega)
  rw [if_neg fewVersion, sameVersion, List.drop_take, isVersion_take (by omega), accepts.version,
    if_neg (by decide), if_neg (by omega), if_pos (by omega)]
  exact ⟨statusLine.versioned (p.take n), rfl, rfl⟩

/-- With six bytes of the code the parser comes to its value, as far as it is there. -/
theorem Accepts.parse_take (accepts : Accepts p) (inside : n ≤ p.length)
    (enough : codeOff p + 6 ≤ n) (statusLine : StatusLine) :
    versionOff (p.take n) = versionOff p ∧ codeOff (p.take n) = codeOff p ∧
      statusLine.parse (p.take n) =
        if safeAtoi ((p.drop (codeOff p)).take (n - codeOff p)) < minValidStatusCode ∨
            maxValidStatusCode < safeAtoi ((p.drop (codeOff p)).take (n - codeOff p)) then
          (.invalid, statusLine.coded (p.take n), 0)
        else if maxStatusLineLen ≤ reasonOff (p.take n) then
          (.invalid, statusLine.coded (p.take n), 0)
        else if n ≤ lineEnd (p.take n) then (.incomplete, statusLine.coded (p.take n), 0)
        else (.valid, statusLine.parsed (p.take n), skipCRLF (p.take n) (lineEnd (p.take n))) := by
  have length : (p.take n).length = n := List.length_take_of_le inside
  have isMin : minStatusLineLen = 14 := rfl
  have isVersionLen : versionLen = 8 := rfl
  have versionStart := accepts.versionStart
  have codeStart := accepts.codeStart
  have codeBehind : versionOff p + 8 ≤ codeOff p := by
    have versionLong := accepts.versionLong
    exact le_findFrom _ (by omega)
  have sameVersion : versionOff (p.take n) = versionOff p := by
    rw [versionOff_take inside]
    omega
  have sameCode : codeOff (p.take n) = codeOff p := by
    rw [codeOff_take inside sameVersion]
    omega
  refine ⟨sameVersion, sameCode, ?_⟩
  rw [parse_eq, length, if_neg (by omega), sameVersion, if_neg versionStart, if_neg (by omega),
    List.drop_take, isVersion_take (by omega), accepts.version, if_neg (by decide), sameCode,
    if_neg codeStart, if_neg (by omega), getD_take (by omega), accepts.digit, if_neg (by decide),
    List.drop_take]

end Take

/-- What the parser says to the first bytes of a line that it accepts, if all digits of the code are
among the six bytes for which it waits. -/
theorem Accepts.parse_prefix (accepts : Accepts p) (fewDigits : (codeDigits p).length ≤ 6)
    (isPrefix : q <+: p) (statusLine : StatusLine) :
    (∃ next, statusLine.parse q = (.incomplete, next, 0) ∧
        next.reasonPhrase = statusLine.reasonPhrase) ∨
      (lf ∈ q ∧ ∃ read, statusLine.parse q = (.valid, statusLine.parsed p, read)) := by
  obtain ⟨n, inside, isTake⟩ : ∃ n, n ≤ p.length ∧ q = p.take n :=
    ⟨q.length, isPrefix.length_le, List.prefix_iff_eq_take.mp isPrefix⟩
  cases isTake
  by_cases enough : codeOff p + 6 ≤ n
  · obtain ⟨sameVersion, sameCode, isParsed⟩ := accepts.parse_take inside enough statusLine
    have sameDigits : safeAtoi ((p.drop (codeOff p)).take (n - codeOff p)) =
        safeAtoi (p.drop (codeOff p)) :=
      safeAtoi_take (Nat.le_trans fewDigits (by omega))
    have isReason : reasonOff (p.take n) = min n (reasonOff p) := by
      unfold reasonOff
      rw [sameCode]
      exact skipSpaceAndTab_take inside _
    have reasonStart := accepts.reasonStart
    rw [isParsed, sameDigits, if_neg accepts.code, if_neg (by omega)]
    by_cases ends : n ≤ lineEnd (p.take n)
    · exact .inl ⟨_, if_pos ends, rfl⟩
    · have codeBehind : versionOff p + 8 ≤ codeOff p := by
        have versionLong := accepts.versionLong
        have isMin : minStatusLineLen = 14 := rfl
        exact le_findFrom _ (by omega)
      have sameCoded : statusLine.coded (p.take n) = statusLine.coded p := by
        unfold coded
        rw [versioned_take statusLine sameVersion (by omega), sameCode, List.drop_take, sameDigits]
      rw [if_neg ends, parsed_take inside sameCoded isReason (Nat.not_le.mp ends)]
      refine .inr ⟨?_, _, rfl⟩
      by_contra none
      apply ends
      rw [lineEnd, findLineBreak_none fun member => none (List.mem_of_mem_drop member),
        List.length_take_of_le inside]
  · exact .inl (accepts.parse_short inside (Nat.not_le.mp enough) statusLine)

/-!
## A line in pieces
-/

/-- The data is presented again with more bytes, until the parser does not wait any more. -/
def parsePieces (statusLine : StatusLine) : List Bytes → FieldParseState × StatusLine
  | [] => (.incomplete, statusLine)
  | piece :: later =>
      match statusLine.parse piece with
      | (.incomplete, next, _) => next.parsePieces later
      | (state, next, _) => (state, next)

/-- The parser waits as long as the line is not terminated, and reads the same of the line however
it arrives. -/
structure Segments (p : Bytes) : Prop where
  waits : ∀ (statusLine : StatusLine) (q : Bytes), q <+: p → lf ∉ q →
    (statusLine.parse q).1 = .incomplete
  same : ∀ (statusLine : StatusLine) (pieces : List Bytes), (∀ q ∈ pieces, q <+: p) →
    statusLine.parsePieces (pieces ++ [p]) = (.valid, (statusLine.parse p).2.1)

/-- Only the reason can be the one from before. -/
theorem parsed_congr {statusLine other : StatusLine}
    (sameReason : statusLine.reasonPhrase = other.reasonPhrase) (p : Bytes) :
    statusLine.parsed p = other.parsed p := by
  have sameCoded : statusLine.coded p = other.coded p := by
    unfold coded versioned
    rw [sameReason]
  unfold parsed
  rw [sameCoded]

theorem Accepts.parsePieces (accepts : Accepts p) (fewDigits : (codeDigits p).length ≤ 6)
    (statusLine : StatusLine) {pieces : List Bytes} (arePrefixes : ∀ q ∈ pieces, q <+: p) :
    statusLine.parsePieces (pieces ++ [p]) = (.valid, statusLine.parsed p) := by
  induction pieces generalizing statusLine with
  | nil => rw [List.nil_append, StatusLine.parsePieces, accepts.parse]
  | cons q pieces ih =>
      rw [List.cons_append, StatusLine.parsePieces]
      cases accepts.parse_prefix fewDigits (arePrefixes q List.mem_cons_self) statusLine with
      | inl waits =>
          obtain ⟨next, isNext, sameReason⟩ := waits
          rw [isNext, ← parsed_congr sameReason p]
          exact ih next fun other member => arePrefixes other (List.mem_cons_of_mem q member)
      | inr valid =>
          obtain ⟨-, read, isValid⟩ := valid
          rw [isValid]

/-!
## Codes of more digits
-/

/-- A digit more of a number. -/
def nextDigit (value : Nat) (ch : UInt8) : Nat :=
  if 2 ^ 31 - 1 ≤ value * 10 + digitOf ch then 2 ^ 31 - 1 else value * 10 + digitOf ch

theorem safeAtoi_eq (digits : Bytes) :
    safeAtoi digits = (digits.takeWhile isDigit).foldl nextDigit 0 := rfl

theorem nextDigit_lower (value : Nat) (ch : UInt8) :
    min (value * 10) (2 ^ 31 - 1) ≤ nextDigit value ch := by
  unfold nextDigit
  split
  · omega
  · omega

theorem foldl_nextDigit_lower (value : Nat) (digits : Bytes) :
    min value (2 ^ 31 - 1) ≤ digits.foldl nextDigit value := by
  induction digits generalizing value with
  | nil => exact Nat.min_le_left _ _
  | cons ch digits ih =>
      have first := nextDigit_lower value ch
      have rest := ih (nextDigit value ch)
      rw [List.foldl_cons]
      omega

/-- A number that fits a code is too small for one without its last digit. -/
theorem safeAtoi_take_lt {digits : Bytes} {n : Nat} (valid : safeAtoi digits ≤ maxValidStatusCode)
    (more : n < (digits.takeWhile isDigit).length) :
    safeAtoi (digits.take n) < minValidStatusCode := by
  rw [safeAtoi_eq, ← List.take_takeWhile]
  rw [safeAtoi_eq, ← List.take_append_drop n (digits.takeWhile isDigit), List.foldl_append,
    List.drop_eq_getElem_cons more, List.foldl_cons] at valid
  generalize ((digits.takeWhile isDigit).take n).foldl nextDigit 0 = value at valid ⊢
  have first := nextDigit_lower value (digits.takeWhile isDigit)[n]
  have rest := foldl_nextDigit_lower (nextDigit value (digits.takeWhile isDigit)[n])
    ((digits.takeWhile isDigit).drop (n + 1))
  rw [maxValidStatusCode] at valid
  rw [minValidStatusCode]
  omega

theorem lf_not_mem_version {version : Bytes} (valid : isVersion version = true) {i : Nat}
    (inside : i < 8) : version[i]? ≠ some lf := by
  simp only [isVersion, Bool.and_eq_true, decide_eq_true_eq] at valid
  obtain ⟨⟨⟨⟨start, major⟩, dot⟩, minor⟩, -⟩ := valid
  have isStart := List.isPrefixOf_iff_prefix.mp start
  intro isLf
  by_cases inName : i < http.length
  · have isName := isStart.getElem inName
    obtain ⟨_, same⟩ := List.getElem?_eq_some_iff.mp isLf
    rw [same] at isName
    have member : lf ∈ http := isName ▸ List.getElem_mem inName
    exact absurd member (by decide)
  · have isGet : version.getD i 0 = lf := by
      rw [List.getD_eq_getElem?_getD, isLf, Option.getD_some]
    have cases : i = 5 ∨ i = 6 ∨ i = 7 := by
      have isLength : http.length = 5 := rfl
      omega
    rcases cases with is | is | is
    · rw [is] at isGet
      rw [isGet] at major
      exact absurd major (by decide)
    · rw [is] at isGet
      rw [isGet] at dot
      exact absurd dot (by decide)
    · rw [is] at isGet
      rw [isGet] at minor
      exact absurd minor (by decide)

/-- The line does not end before its code, nor within the digits of it. -/
theorem Accepts.lf_not_mem_take (accepts : Accepts p) {n : Nat} (digits : n ≤ (codeDigits p).length) :
    lf ∉ p.take (codeOff p + n) := by
  intro member
  obtain ⟨i, isThere⟩ := List.mem_iff_getElem?.mp member
  rw [List.getElem?_take] at isThere
  split at isThere
  · next inside =>
      have whitespace : (!isWhitespace lf) = true := by decide
      by_cases blank : i < versionOff p
      · rw [findFrom_of_lt (Nat.zero_le i) blank isThere] at whitespace
        cases whitespace
      by_cases version : i < versionOff p + versionLen
      · apply lf_not_mem_version accepts.version (i := i - versionOff p)
          (by rw [versionLen] at version; omega)
        rw [List.getElem?_drop, Nat.add_sub_cancel' (Nat.not_lt.mp blank)]
        exact isThere
      by_cases before : i < codeOff p
      · rw [findFrom_of_lt (Nat.not_lt.mp version) before isThere] at whitespace
        cases whitespace
      · have inDigits : i - codeOff p < (codeDigits p).length := by omega
        have start : codeDigits p <+: p.drop (codeOff p) := List.takeWhile_prefix isDigit
        have behind : (p.drop (codeOff p))[i - codeOff p]? = some lf := by
          rw [List.getElem?_drop, Nat.add_sub_cancel' (Nat.not_lt.mp before)]
          exact isThere
        obtain ⟨_, same⟩ := List.getElem?_eq_some_iff.mp behind
        have member := List.getElem_mem inDigits
        rw [start.getElem inDigits, same] at member
        have digit : isDigit lf = true := List.mem_takeWhile_imp member
        exact absurd digit (by decide)
  · cases isThere

/-- Of a code of more than six digits the parser takes the first six for the whole code. -/
theorem Accepts.parse_sixDigits (accepts : Accepts p) (many : 6 < (codeDigits p).length)
    (statusLine : StatusLine) :
    (statusLine.parse (p.take (codeOff p + 6))).1 = .invalid := by
  have within : codeOff p + 6 ≤ p.length := by
    have start : codeDigits p <+: p.drop (codeOff p) := List.takeWhile_prefix isDigit
    have length := start.length_le
    rw [List.length_drop] at length
    omega
  have valid : safeAtoi (p.drop (codeOff p)) ≤ maxValidStatusCode := by
    have code := accepts.code
    omega
  have small : safeAtoi ((p.drop (codeOff p)).take 6) < minValidStatusCode :=
    safeAtoi_take_lt valid many
  obtain ⟨-, -, isParsed⟩ := accepts.parse_take within (Nat.le_refl _) statusLine
  rw [isParsed, Nat.add_sub_cancel_left, if_pos (.inl small)]

/-- A line that is accepted can arrive in pieces if and only if its code has at most six digits. -/
theorem segments_iff {statusLine : StatusLine} (accepted : (statusLine.parse p).1 = .valid) :
    Segments p ↔ (codeDigits p).length ≤ 6 := by
  have accepts := accepts_of_parse accepted
  constructor
  · intro segments
    by_contra many
    have more := Nat.not_le.mp many
    have waits := segments.waits statusLine (p.take (codeOff p + 6)) (List.take_prefix _ p)
      (accepts.lf_not_mem_take (Nat.le_of_lt more))
    rw [accepts.parse_sixDigits more statusLine] at waits
    cases waits
  · intro fewDigits
    constructor
    · intro statusLine q isPrefix noBreak
      cases accepts.parse_prefix fewDigits isPrefix statusLine with
      | inl waits =>
          obtain ⟨next, isNext, -⟩ := waits
          rw [isNext]
      | inr valid => exact absurd valid.1 noBreak
    · intro statusLine pieces arePrefixes
      rw [accepts.parsePieces fewDigits statusLine arePrefixes, accepts.parse]

/-- HTTP/1.1 404 Not Found -/
def notFoundLine : Bytes := bytesOf "HTTP/1.1 404 Not Found\r\n"

theorem segments_notFoundLine :
    (create.parse notFoundLine).1 = .valid ∧ Segments notFoundLine := by
  have accepted : (create.parse notFoundLine).1 = .valid := by decide +kernel
  exact ⟨accepted, (segments_iff accepted).mpr (by decide +kernel)⟩

/-- A code with leading zeros. -/
def longCodeLine : Bytes := bytesOf "HTTP/1.1 0000100 OK\r\n"

theorem not_segments_longCodeLine :
    (create.parse longCodeLine).1 = .valid ∧ ¬ Segments longCodeLine := by
  refine ⟨by decide +kernel, fun segments => ?_⟩
  have waits := segments.waits create (bytesOf "HTTP/1.1 000010") ⟨bytesOf "0 OK\r\n", by decide⟩
    (by decide)
  exact absurd waits (by decide +kernel)

end StatusLine

end FreeOnline.Net.Http
