import FreeOnline.Net.StatusLineParse

/-!
# Texts of status lines

What the parser reads of a status line that was written with its version, its code and its reason,
and how much of the data it takes for the line.
-/

set_option autoImplicit false

namespace FreeOnline.Net.Http

/-- A search passes what it does not stop at. -/
theorem findFrom_eq (stops : UInt8 → Bool) {p : Bytes} {off : Nat} (inside : off ≤ p.length) :
    findFrom stops p off = off + ((p.drop off).takeWhile fun ch => !stops ch).length := by
  have passed : ((p.drop off).takeWhile fun ch => !stops ch).length = (p.drop off).findIdx stops := by
    have found := (p.drop off).findIdx_le_length (p := stops)
    rw [List.takeWhile_eq_take_findIdx_not, List.length_take]
    simp only [Bool.not_not]
    exact Nat.min_eq_left found
  unfold findFrom
  rw [passed]
  split
  · next atEnd =>
      have same : off = p.length := Nat.le_antisymm inside atEnd
      rw [same, List.drop_length]
      rfl
  · rfl

theorem takeWhile_append_stop {passes : UInt8 → Bool} {ch : UInt8} (stops : passes ch = false)
    (passed rest : Bytes) :
    (passed ++ ch :: rest).takeWhile passes = passed.takeWhile passes := by
  induction passed with
  | nil => rw [List.nil_append, List.takeWhile_cons_of_neg (by rw [stops]; decide)]; rfl
  | cons first passed ih =>
      rw [List.cons_append, List.takeWhile_cons, List.takeWhile_cons, ih]

namespace StatusLine

/-- What ends a line. -/
inductive LineBreak where
  | crlf
  | lf
deriving DecidableEq

def LineBreak.bytes : LineBreak → Bytes
  | .crlf => [Http.cr, Http.lf]
  | .lf => [Http.lf]

/-- A status line with a version of two digits, a code and a reason. -/
structure StatusText where
  major : UInt8
  minor : UInt8
  code : Nat
  reason : Bytes
  areDigits : isDigit major = true ∧ isDigit minor = true
  inRange : minValidStatusCode ≤ code ∧ code ≤ maxValidStatusCode
  reasonInLine : cr ∉ reason ∧ lf ∉ reason

namespace StatusText

def version (text : StatusText) : Bytes := http ++ [text.major, 0x2e, text.minor]

def statusLine (text : StatusText) : StatusLine where
  httpVersion := text.version
  versionMajor := digitOf text.major
  versionMinor := digitOf text.minor
  statusCode := text.code
  reasonPhrase := text.reason

def beforeReason (text : StatusText) : Bytes :=
  text.version ++ bytesOf " " ++ bytesOf (toString text.code) ++ bytesOf " "

/-- The line with its line break, as `writeData` appends it where that is CRLF. -/
def bytes (text : StatusText) (lineBreak : LineBreak) : Bytes :=
  text.beforeReason ++ text.reason ++ lineBreak.bytes

end StatusText

/-- The parser gives what the line says, and takes the line and its terminator. -/
def Extracts (statusLine : StatusLine) (text : StatusText) (lineBreak : LineBreak) (rest : Bytes) :
    Prop :=
  statusLine.parse (text.bytes lineBreak ++ rest) =
    (.valid, text.statusLine, (text.bytes lineBreak).length)

/-- The blanks in front of the reason. -/
def blanks (reason : Bytes) : Nat := (reason.takeWhile isWhitespace).length

/-- The reason and what was before let the reason be read. -/
def ReadsReason (former reason rest : Bytes) : LineBreak → Prop
  | .crlf =>
      (∃ ch ∈ reason.head?, isWhitespace ch = false) ∨
        ((∀ ch ∈ reason, isWhitespace ch = true) ∧ former = reason ∧ reason.length < 509)
  | .lf =>
      former = reason ∧ reason.length ≤ blanks reason + 1 ∧ blanks reason < 510 ∧
        (reason = [] → rest ≠ [])

/-- No line break follows. -/
def EndsThere (rest : Bytes) : Prop := ∀ ch ∈ rest.head?, ch ≠ cr ∧ ch ≠ lf

/-!
## The places of a text
-/

/-- The byte of a digit, as it is written. -/
def digitByte (digit : Nat) : UInt8 := digit.digitChar.toNat.toUInt8

theorem digitByte_spec : ∀ digit < 10,
    isDigit (digitByte digit) = true ∧ digitOf (digitByte digit) = digit := by
  decide

theorem bytesOf_code {code : Nat} (low : 100 ≤ code) (high : code ≤ 599) :
    bytesOf (toString code) =
      [digitByte (code / 10 / 10), digitByte (code / 10 % 10), digitByte (code % 10)] := by
  have isText : (toString code).toList = Nat.toDigits 10 code := Nat.toList_repr
  have few : code / 10 / 10 < 10 := by omega
  rw [bytesOf, isText, Nat.toDigits_of_base_le (by decide) (by omega),
    Nat.toDigits_of_base_le (by decide) (by omega), Nat.toDigits_of_lt_base few]
  rfl

theorem nextDigit_digitByte {value digit : Nat} (isDigit : digit < 10) (few : value < 1000) :
    nextDigit value (digitByte digit) = value * 10 + digit := by
  rw [nextDigit, (digitByte_spec digit isDigit).2, if_neg (by omega)]

variable (text : StatusText)

theorem StatusText.code_text :
    ∃ hundreds tens ones, bytesOf (toString text.code) = [hundreds, tens, ones] ∧
      isDigit hundreds = true ∧ isDigit tens = true ∧ isDigit ones = true ∧
      [hundreds, tens, ones].foldl nextDigit 0 = text.code := by
  obtain ⟨low, high⟩ : 100 ≤ text.code ∧ text.code ≤ 599 := text.inRange
  have hundreds : text.code / 10 / 10 < 10 := by omega
  have tens : text.code / 10 % 10 < 10 := Nat.mod_lt _ (by decide)
  have ones : text.code % 10 < 10 := Nat.mod_lt _ (by decide)
  refine ⟨_, _, _, bytesOf_code low high, (digitByte_spec _ hundreds).1,
    (digitByte_spec _ tens).1, (digitByte_spec _ ones).1, ?_⟩
  rw [List.foldl_cons, List.foldl_cons, List.foldl_cons, List.foldl_nil,
    nextDigit_digitByte hundreds (by decide), nextDigit_digitByte tens (by omega),
    nextDigit_digitByte ones (by omega)]
  omega

theorem isWhitespace_of_isDigit {ch : UInt8} (digit : isDigit ch = true) :
    isWhitespace ch = false := by
  cases blank : isWhitespace ch with
  | false => rfl
  | true =>
      simp only [isWhitespace, Bool.or_eq_true, decide_eq_true_eq] at blank
      rcases blank with (is | is) | is
      all_goals
        rw [is] at digit
        exact absurd digit (by decide)

def isBreak (ch : UInt8) : Bool := ch = cr || ch = lf

/-- How many line breaks come first. -/
def breaks (rest : Bytes) : Nat := (rest.takeWhile isBreak).length

theorem blanks_cons_blank {ch : UInt8} (blank : isWhitespace ch = true) (more : Bytes) :
    blanks (ch :: more) = blanks more + 1 := by
  rw [blanks, List.takeWhile_cons, if_pos blank]
  rfl

theorem blanks_cons_other {ch : UInt8} (other : isWhitespace ch = false) (more : Bytes) :
    blanks (ch :: more) = 0 := by
  rw [blanks, List.takeWhile_cons, if_neg (by rw [other]; decide)]
  rfl

theorem skipSpaceAndTab_eq {p : Bytes} {off : Nat} (inside : off ≤ p.length) :
    skipSpaceAndTab p off = off + blanks (p.drop off) := by
  have found := findFrom_eq (fun ch => !isWhitespace ch) inside
  simp only [Bool.not_not] at found
  exact found

theorem skipCRLF_eq {p : Bytes} {off : Nat} (inside : off ≤ p.length) :
    skipCRLF p off = off + breaks (p.drop off) := by
  have same : (fun ch => !(decide (ch ≠ cr) && decide (ch ≠ lf))) = isBreak := by
    funext ch
    simp [isBreak]
  have found := findFrom_eq (fun ch => ch ≠ cr && ch ≠ lf) inside
  rw [same] at found
  exact found

section Places

variable {line rest more : Bytes}

theorem length_beforeReason : text.beforeReason.length = 13 := by
  obtain ⟨hundreds, tens, ones, isText, -⟩ := text.code_text
  rw [StatusText.beforeReason, isText]
  rfl

theorem length_text (more : Bytes) : (text.beforeReason ++ more).length = 13 + more.length := by
  rw [List.length_append, length_beforeReason]

theorem drop_text (n : Nat) (more : Bytes) :
    (text.beforeReason ++ more).drop (13 + n) = more.drop n := by
  rw [← length_beforeReason text, List.drop_length_add_append]

theorem versionOff_text : versionOff (text.beforeReason ++ more) = 0 := by
  have start : isWhitespace 0x48 = false := by decide
  have isRest : (text.beforeReason ++ more).drop 0 = 0x48 :: (text.beforeReason ++ more).drop 1 := rfl
  rw [versionOff, skipSpaceAndTab_eq (Nat.zero_le _), isRest, blanks_cons_other start]

theorem codeOff_text : codeOff (text.beforeReason ++ more) = 9 := by
  obtain ⟨hundreds, tens, ones, isText, isHundreds, -⟩ := text.code_text
  have inside : 0 + versionLen ≤ (text.beforeReason ++ more).length := by
    rw [length_text, versionLen]
    omega
  have isRest : (text.beforeReason ++ more).drop (0 + versionLen) =
      0x20 :: hundreds :: tens :: ones :: 0x20 :: more := by
    rw [StatusText.beforeReason, isText]
    rfl
  rw [codeOff, versionOff_text, skipSpaceAndTab_eq inside, isRest, blanks_cons_blank (by decide),
    blanks_cons_other (isWhitespace_of_isDigit isHundreds)]
  rfl

theorem reasonOff_text : reasonOff (text.beforeReason ++ more) = 13 + blanks more := by
  obtain ⟨hundreds, tens, ones, isText, -⟩ := text.code_text
  have inside : 9 + statusCodeLen ≤ (text.beforeReason ++ more).length := by
    rw [length_text, statusCodeLen]
    omega
  have isRest : (text.beforeReason ++ more).drop (9 + statusCodeLen) = 0x20 :: more := by
    rw [StatusText.beforeReason, isText]
    rfl
  rw [reasonOff, codeOff_text, skipSpaceAndTab_eq inside, isRest, blanks_cons_blank (by decide),
    statusCodeLen]
  omega

theorem safeAtoi_text : safeAtoi ((text.beforeReason ++ more).drop 9) = text.code := by
  obtain ⟨hundreds, tens, ones, isText, isHundreds, isTens, isOnes, isCode⟩ := text.code_text
  have blank : isDigit 0x20 = false := by decide
  rw [StatusText.beforeReason, isText, safeAtoi_eq, ← isCode]
  simp [bytesOf, StatusText.version, http, isHundreds, isTens, isOnes, blank]

theorem coded_text (statusLine : StatusLine) :
    statusLine.coded (text.beforeReason ++ more) =
      { text.statusLine with reasonPhrase := statusLine.reasonPhrase } := by
  obtain ⟨hundreds, tens, ones, isText, -⟩ := text.code_text
  rw [coded, versioned, codeOff_text, versionOff_text, safeAtoi_text, List.drop_zero,
    StatusText.beforeReason, isText]
  rfl

/-- In front of the reason everything is as the parser expects it. -/
theorem parse_text (statusLine : StatusLine) (notEmpty : more ≠ []) :
    statusLine.parse (text.beforeReason ++ more) =
      if more.length < 2 then
        (.incomplete, statusLine.versioned (text.beforeReason ++ more), 0)
      else if 510 ≤ blanks more then
        (.invalid, { text.statusLine with reasonPhrase := statusLine.reasonPhrase }, 0)
      else if 13 + more.length ≤ lineEnd (text.beforeReason ++ more) then
        (.incomplete, { text.statusLine with reasonPhrase := statusLine.reasonPhrase }, 0)
      else
        (.valid, statusLine.parsed (text.beforeReason ++ more),
          skipCRLF (text.beforeReason ++ more) (lineEnd (text.beforeReason ++ more))) := by
  obtain ⟨hundreds, tens, ones, isText, isHundreds, -⟩ := text.code_text
  obtain ⟨low, high⟩ := text.inRange
  obtain ⟨isMajor, isMinor⟩ := text.areDigits
  have filled := List.length_pos_of_ne_nil notEmpty
  have version : isVersion (text.beforeReason ++ more) = true := by
    rw [StatusText.beforeReason, isText]
    simp [isVersion, bytesOf, StatusText.version, http, isMajor, isMinor, isWhitespace]
  have digit : isDigit ((text.beforeReason ++ more).getD 9 0) = true := by
    rw [StatusText.beforeReason, isText]
    exact isHundreds
  have code := @safeAtoi_text text more
  have isMin : minStatusLineLen = 14 := rfl
  have isShort : 13 + more.length - 9 < minStatusLineLen - versionLen ↔ more.length < 2 := by
    rw [isMin, versionLen]
    omega
  have isLong : maxStatusLineLen ≤ 13 + blanks more ↔ 510 ≤ blanks more := by
    have isMax : maxStatusLineLen = 523 := rfl
    omega
  have inRange : ¬ (text.code < minValidStatusCode ∨ maxValidStatusCode < text.code) := by omega
  rw [parse_eq, versionOff_text, codeOff_text, reasonOff_text, code, List.drop_zero, version, digit,
    coded_text, length_text, if_neg (by omega), if_neg (by decide), if_neg (by omega),
    if_neg (by decide), if_neg (by decide), if_congr isShort rfl rfl]
  by_cases few : more.length < 2
  · rw [if_pos few, if_pos few]
  · rw [if_neg few, if_neg few, if_neg (by decide), if_neg inRange, if_congr isLong rfl rfl]

theorem blanks_le (reason : Bytes) : blanks reason ≤ reason.length :=
  (List.takeWhile_prefix isWhitespace).length_le

theorem blanks_line (line rest : Bytes) : blanks (line ++ lf :: rest) = blanks line := by
  rw [blanks, takeWhile_append_stop (by decide), blanks]

theorem lineEnd_text (noBreak : lf ∉ line) :
    lineEnd (text.beforeReason ++ (line ++ lf :: rest)) = 13 + line.length := by
  have isLine : (text.beforeReason ++ (line ++ lf :: rest)).drop (13 + blanks line) =
      line.drop (blanks line) ++ lf :: rest := by
    rw [drop_text, List.drop_append_of_le_length (blanks_le line)]
  have none : lf ∉ line.drop (blanks line) := fun member => noBreak (List.mem_of_mem_drop member)
  have inside := blanks_le line
  rw [lineEnd, reasonOff_text, blanks_line, findLineBreak_some isLine none, List.length_drop]
  omega

/-- The reason that is cut out of the rest of a line, or the former one. -/
def cutReason (former line : Bytes) : Bytes :=
  if 0 < line.length - blanks line - 1 then
    (line.drop (blanks line)).take (line.length - blanks line - 1)
  else former

theorem parsed_text (statusLine : StatusLine) (noBreak : lf ∉ line) :
    statusLine.parsed (text.beforeReason ++ (line ++ lf :: rest)) =
      { text.statusLine with reasonPhrase := cutReason statusLine.reasonPhrase line } := by
  have size : 13 + line.length - (13 + blanks line) - 1 = line.length - blanks line - 1 := by omega
  have within : line.length - blanks line - 1 ≤ (line.drop (blanks line)).length := by
    rw [List.length_drop]
    omega
  rw [parsed, lineEnd_text text noBreak, reasonOff_text, blanks_line, size, coded_text, drop_text,
    List.drop_append_of_le_length (blanks_le line), List.take_append_of_le_length within, cutReason]
  dsimp only
  split
  · rfl
  · rfl

/-- What the parser makes of such a line, whatever its reason is. -/
theorem parse_line (statusLine : StatusLine) (noBreak : lf ∉ line) :
    statusLine.parse (text.beforeReason ++ (line ++ lf :: rest)) =
      if (line ++ lf :: rest).length < 2 then
        (.incomplete, statusLine.versioned (text.beforeReason ++ (line ++ lf :: rest)), 0)
      else if 510 ≤ blanks line then
        (.invalid, { text.statusLine with reasonPhrase := statusLine.reasonPhrase }, 0)
      else
        (.valid, { text.statusLine with reasonPhrase := cutReason statusLine.reasonPhrase line },
          13 + line.length + 1 + breaks rest) := by
  have inside : 13 + line.length ≤ (text.beforeReason ++ (line ++ lf :: rest)).length := by
    rw [length_text, List.length_append]
    omega
  have atBreak : (text.beforeReason ++ (line ++ lf :: rest)).drop (13 + line.length) = lf :: rest := by
    rw [drop_text, List.drop_left]
  have isBreaks : breaks (lf :: rest) = breaks rest + 1 := by
    rw [breaks, List.takeWhile_cons, if_pos (by decide)]
    rfl
  have ends : ¬ 13 + (line ++ lf :: rest).length ≤ 13 + line.length := by
    rw [List.length_append, List.length_cons]
    omega
  have consumed : 13 + line.length + (breaks rest + 1) = 13 + line.length + 1 + breaks rest := by
    omega
  rw [parse_text text statusLine (by simp), blanks_line, lineEnd_text text noBreak, if_neg ends,
    parsed_text text statusLine noBreak, skipCRLF_eq inside, atBreak, isBreaks, consumed]

/-- When the parser gives what the line says. -/
theorem parse_line_iff (statusLine : StatusLine) (noBreak : lf ∉ line) :
    statusLine.parse (text.beforeReason ++ (line ++ lf :: rest)) =
        (.valid, text.statusLine, 13 + line.length + 1) ↔
      2 ≤ (line ++ lf :: rest).length ∧ blanks line < 510 ∧
        cutReason statusLine.reasonPhrase line = text.reason ∧ breaks rest = 0 := by
  rw [parse_line text statusLine noBreak]
  by_cases few : (line ++ lf :: rest).length < 2
  · rw [if_pos few]
    refine ⟨fun same => ?_, fun holds => absurd few (Nat.not_lt.mpr holds.1)⟩
    cases congrArg Prod.fst same
  · rw [if_neg few]
    by_cases many : 510 ≤ blanks line
    · rw [if_pos many]
      refine ⟨fun same => ?_, fun holds => absurd many (Nat.not_le.mpr holds.2.1)⟩
      cases congrArg Prod.fst same
    · rw [if_neg many]
      constructor
      · intro same
        have sameLine := congrArg (fun result => StatusLine.reasonPhrase result.2.1) same
        have sameLength := congrArg (fun result => result.2.2) same
        dsimp only [StatusText.statusLine] at sameLine sameLength
        exact ⟨Nat.not_lt.mp few, Nat.not_le.mp many, sameLine, by omega⟩
      · intro holds
        obtain ⟨-, -, sameReason, noBreaks⟩ := holds
        rw [sameReason, noBreaks]
        rfl

end Places

/-!
## When the reason is read
-/

theorem breaks_eq_zero {rest : Bytes} : breaks rest = 0 ↔ EndsThere rest := by
  unfold breaks EndsThere
  cases rest with
  | nil => simp
  | cons ch rest =>
      rw [List.length_eq_zero_iff, List.takeWhile_cons]
      simp [isBreak]

/-- A text is blank, or has blanks in front of another byte. -/
theorem blank_or_other (reason : Bytes) :
    (∀ ch ∈ reason, isWhitespace ch = true) ∨
      ∃ before ch after, reason = before ++ ch :: after ∧
        (∀ blank ∈ before, isWhitespace blank = true) ∧ isWhitespace ch = false := by
  induction reason with
  | nil => exact .inl fun ch member => absurd member List.not_mem_nil
  | cons first reason ih =>
      cases isBlank : isWhitespace first with
      | false =>
          exact .inr ⟨[], first, reason, rfl, fun ch member => absurd member List.not_mem_nil, isBlank⟩
      | true =>
          cases ih with
          | inl allBlank =>
              refine .inl fun ch member => ?_
              cases member with
              | head => exact isBlank
              | tail _ later => exact allBlank ch later
          | inr other =>
              obtain ⟨before, ch, after, isReason, areBlank, isOther⟩ := other
              refine .inr ⟨first :: before, ch, after, by rw [isReason]; rfl, ?_, isOther⟩
              intro blank member
              cases member with
              | head => exact isBlank
              | tail _ later => exact areBlank blank later

theorem blanks_blank {reason : Bytes} (areBlank : ∀ ch ∈ reason, isWhitespace ch = true) :
    blanks reason = reason.length := by
  rw [blanks, List.takeWhile_eq_self_iff.mpr areBlank]

theorem blanks_other {before : Bytes} {ch : UInt8} (other : isWhitespace ch = false) (after : Bytes)
    (areBlank : ∀ blank ∈ before, isWhitespace blank = true) :
    blanks (before ++ ch :: after) = before.length := by
  rw [blanks, takeWhile_append_stop other, ← blanks, blanks_blank areBlank]

/-- A bare line feed has its reason cut by one byte. -/
theorem cutReason_eq_iff {former reason : Bytes} :
    cutReason former reason = reason ↔ former = reason ∧ reason.length ≤ blanks reason + 1 := by
  unfold cutReason
  split
  · next cut =>
      constructor
      · intro same
        have length := congrArg List.length same
        rw [List.length_take, List.length_drop] at length
        omega
      · intro holds
        omega
  · next uncut =>
      have short : reason.length ≤ blanks reason + 1 := by omega
      exact ⟨fun same => ⟨same, short⟩, fun holds => holds.1⟩

theorem cutReason_cr_iff {former reason : Bytes} :
    blanks (reason ++ [cr]) < 510 ∧ cutReason former (reason ++ [cr]) = reason ↔
      ReadsReason former reason [] .crlf := by
  have returns : isWhitespace cr = true := by decide
  unfold ReadsReason cutReason
  cases blank_or_other reason with
  | inl areBlank =>
      have isBlank : blanks (reason ++ [cr]) = reason.length + 1 := by
        rw [blanks_blank, List.length_append, List.length_singleton]
        intro ch member
        cases List.mem_append.mp member with
        | inl old => exact areBlank ch old
        | inr last =>
            rw [List.mem_singleton.mp last]
            exact returns
      have notFirst : ¬ ∃ ch ∈ reason.head?, isWhitespace ch = false := by
        intro first
        obtain ⟨ch, isFirst, other⟩ := first
        rw [areBlank ch (List.mem_of_mem_head? isFirst)] at other
        cases other
      rw [isBlank, List.length_append, List.length_singleton, if_neg (by omega)]
      constructor
      · intro holds
        exact .inr ⟨areBlank, holds.2, by omega⟩
      · intro holds
        obtain ⟨-, same, short⟩ := holds.resolve_left notFirst
        exact ⟨by omega, same⟩
  | inr hasOther =>
      obtain ⟨before, ch, after, isReason, areBlank, other⟩ := hasOther
      have isBlanks : blanks (reason ++ [cr]) = before.length := by
        rw [isReason, List.append_assoc, List.cons_append, blanks_other other _ areBlank]
      have notBlank : ¬ ∀ ch ∈ reason, isWhitespace ch = true := by
        intro blank
        have isCh := blank ch (by rw [isReason]; simp)
        rw [other] at isCh
        cases isCh
      have size : (reason ++ [cr]).length - before.length - 1 = (ch :: after).length := by
        rw [isReason]
        simp
      have isCut : ((reason ++ [cr]).drop before.length).take (ch :: after).length =
          ch :: after := by
        rw [isReason, List.append_assoc, List.drop_left, List.take_left]
      rw [isBlanks, size, if_pos (List.length_pos_of_ne_nil (List.cons_ne_nil ch after)), isCut,
        isReason]
      cases before with
      | nil => simp [other]
      | cons first before =>
          have isFirst := areBlank first List.mem_cons_self
          constructor
          · intro holds
            have length := congrArg List.length holds.2
            rw [List.cons_append, List.length_cons, List.length_cons, List.length_append,
              List.length_cons] at length
            omega
          · intro holds
            cases holds with
            | inl isOther =>
                obtain ⟨start, isStart, notBlankStart⟩ := isOther
                cases isStart
                rw [isFirst] at notBlankStart
                cases notBlankStart
            | inr blank =>
                rw [isReason] at notBlank
                exact absurd blank.1 notBlank

/-- The version, the code and the reason of a line are read, and the line and its terminator are taken,
if and only if the reason can be read and no further line break follows. -/
theorem extracts_iff (statusLine : StatusLine) (lineBreak : LineBreak) (rest : Bytes) :
    Extracts statusLine text lineBreak rest ↔
      ReadsReason statusLine.reasonPhrase text.reason rest lineBreak ∧ EndsThere rest := by
  obtain ⟨noCr, noLf⟩ := text.reasonInLine
  unfold Extracts
  rw [← breaks_eq_zero]
  cases lineBreak with
  | crlf =>
      have noBreak : lf ∉ text.reason ++ [cr] := by
        intro member
        cases List.mem_append.mp member with
        | inl inReason => exact noLf inReason
        | inr isCr => exact absurd (List.mem_singleton.mp isCr) (by decide)
      have isLine : text.bytes .crlf ++ rest =
          text.beforeReason ++ ((text.reason ++ [cr]) ++ lf :: rest) := by
        simp [StatusText.bytes, LineBreak.bytes]
      have isLength : (text.bytes .crlf).length = 13 + (text.reason ++ [cr]).length + 1 := by
        simp [StatusText.bytes, LineBreak.bytes, length_beforeReason]
        omega
      have enough : 2 ≤ ((text.reason ++ [cr]) ++ lf :: rest).length := by
        simp
        omega
      rw [isLine, isLength, parse_line_iff text statusLine noBreak, and_iff_right enough, ← and_assoc,
        cutReason_cr_iff]
      rfl
  | lf =>
      have isLine : text.bytes .lf ++ rest = text.beforeReason ++ (text.reason ++ lf :: rest) := by
        simp [StatusText.bytes, LineBreak.bytes]
      have isLength : (text.bytes .lf).length = 13 + text.reason.length + 1 := by
        simp [StatusText.bytes, LineBreak.bytes, length_beforeReason]
        omega
      have enough : 2 ≤ (text.reason ++ lf :: rest).length ↔ (text.reason = [] → rest ≠ []) := by
        cases text.reason with
        | nil => cases rest <;> simp
        | cons ch reason =>
            simp
            omega
      rw [isLine, isLength, parse_line_iff text statusLine noLf, enough, cutReason_eq_iff]
      unfold ReadsReason
      constructor
      · intro holds
        exact ⟨⟨holds.2.2.1.1, holds.2.2.1.2, holds.2.1, holds.1⟩, holds.2.2.2⟩
      · intro holds
        exact ⟨holds.1.2.2.2, holds.1.2.2.1, ⟨holds.1.1, holds.1.2.1⟩, holds.2⟩

theorem version_areDigits : isDigit 0x31 = true ∧ isDigit 0x31 = true := by decide

def okText : StatusText where
  major := 0x31
  minor := 0x31
  code := 200
  reason := bytesOf "OK"
  areDigits := version_areDigits
  inRange := by decide
  reasonInLine := okReason_inLine

instance (statusLine : StatusLine) (text : StatusText) (lineBreak : LineBreak) (rest : Bytes) :
    Decidable (Extracts statusLine text lineBreak rest) :=
  inferInstanceAs (Decidable (_ = _))

/-- A line with CRLF in front of a header. -/
example : Extracts create okText .crlf (bytesOf "a: b") := by decide +kernel

/-- A bare line feed takes the last byte of the reason, and a blank line that follows is taken for the
end of the status line. -/
theorem not_extracts_okText :
    ¬ Extracts create okText .lf (bytesOf "a: b") ∧ ¬ Extracts create okText .crlf [cr, lf] := by
  decide +kernel

end StatusLine

end FreeOnline.Net.Http
