import FreeOnline.Net.HeaderMap

/-!
# Requests in pieces

A request that is written by one side arrives in any pieces at the other. The reader waits for the
whole first line, and then for the whole header.
-/

set_option autoImplicit false

namespace FreeOnline.Net.Http

open FreeOnline.Library
open StatusLine (isDigit blanks skipSpaceAndTab_eq blanks_cons_blank blanks_cons_other)

/-- A field as it can stand in a header. -/
structure IsField (field : Bytes × Bytes) : Prop where
  name : field.1 ≠ [] ∧ ∀ ch ∈ field.1, ch ≠ 0x20 ∧ ch ≠ 0x09 ∧ ch ≠ 0x3a ∧ ch ≠ cr ∧ ch ≠ lf
  value : cr ∉ field.2 ∧ lf ∉ field.2
  valueStart : ∀ ch ∈ field.2.head?, ch ≠ 0x20 ∧ ch ≠ 0x09
  valueEnd : ∀ ch ∈ field.2.getLast?, ch ≠ 0x20 ∧ ch ≠ 0x09

/-- A request without a body. -/
structure GetRequest where
  target : Bytes
  major : UInt8
  minor : UInt8
  fields : List (Bytes × Bytes)
  areDigits : isDigit major = true ∧ isDigit minor = true
  areFields : ∀ field ∈ fields, IsField field

namespace GetRequest

variable (sent : GetRequest)

def version : Bytes := StatusLine.http ++ [sent.major, 0x2e, sent.minor]

def request : Request :=
  { Request.create with
    header := ⟨sent.fields, false⟩
    url := sent.target
    version := sent.version }

/-- What is written into an empty buffer. -/
def text : Bytes := (sent.request.writeData [] 0).2.1

def firstLine : Bytes :=
  Request.verbGet ++ 0x20 :: (sent.target ++ 0x20 :: (sent.version ++ [cr, lf]))

def lines : List Bytes := sent.fields.map fun field => field.1 ++ bytesOf ": " ++ field.2

def block : Bytes := linesText sent.lines ++ [cr, lf]

/-- However the text is cut into pieces, no call fails, all of it is consumed, and the request is
read that was written. -/
def IsRead (readFields : Bytes → HeaderRead) : Prop :=
  ∀ pieces : List Bytes, pieces.flatten = sent.text →
    let last := run (Request.Receiving.receive readFields) .start pieces
    last.failed = false ∧ last.consumed = sent.text.length ∧ last.buffer = [] ∧
      last.request.verb = Request.verbGet ∧ last.request.url = sent.target ∧
      last.request.version = sent.version ∧ last.request.header.headers.Perm sent.fields

/-- No byte of the target ends it. -/
def IsToken : Prop :=
  sent.target ≠ [] ∧ ∀ ch ∈ sent.target, isWhitespace ch = false ∧ ch ≠ lf

/-- The target is a token, and there are fields, of which no two have the same name. -/
structure IsReadable : Prop where
  target : sent.IsToken
  hasFields : sent.fields ≠ []
  distinct : (sent.fields.map Prod.fst).Nodup

/-!
## What is written
-/

theorem writeData_fields (fields : List (Bytes × Bytes)) (chunked : Bool) (out : Bytes) :
    Header.writeData ⟨fields, chunked⟩ out =
      out ++ linesText (fields.map fun field => field.1 ++ bytesOf ": " ++ field.2) := by
  induction fields generalizing out with
  | nil => simp [Header.writeData, linesText]
  | cons field fields ih =>
      have rest := ih (out ++ field.1 ++ bytesOf ": " ++ field.2 ++ bytesOf "\r\n")
      simp only [Header.writeData, List.foldl_cons] at rest ⊢
      rw [rest]
      simp [linesText, bytesOf, cr, lf]

theorem text_eq : sent.text = sent.firstLine ++ sent.block := by
  have isHead : sent.text = sent.request.writeHead [] := rfl
  rw [isHead, Request.writeHead, request, writeData_fields]
  simp [Request.create, firstLine, block, lines, bytesOf, cr, lf]

theorem length_firstLine : sent.firstLine.length = 15 + sent.target.length := by
  simp [firstLine, Request.verbGet, bytesOf, version, StatusLine.http]
  omega

/-!
## The places of the first line
-/

variable {sent} {more : Bytes}

theorem firstLine_eq :
    sent.firstLine ++ more =
      0x47 :: 0x45 :: 0x54 :: 0x20 :: (sent.target ++ 0x20 :: (sent.version ++ cr :: lf :: more)) := by
  simp [firstLine, Request.verbGet, bytesOf]

theorem drop_target (n : Nat) :
    (sent.firstLine ++ more).drop (4 + n) =
      (sent.target ++ 0x20 :: (sent.version ++ cr :: lf :: more)).drop n := by
  rw [firstLine_eq, ← List.drop_drop]
  rfl

theorem drop_version (n : Nat) :
    (sent.firstLine ++ more).drop (5 + sent.target.length + n) =
      (sent.version ++ cr :: lf :: more).drop n := by
  have behind : 5 + sent.target.length + n = 4 + (sent.target.length + (1 + n)) := by omega
  rw [behind, drop_target, List.drop_length_add_append, Nat.add_comm 1 n]
  rfl

theorem isVersion_version : StatusLine.isVersion (sent.version ++ cr :: more) = true := by
  obtain ⟨isMajor, isMinor⟩ := sent.areDigits
  simp [StatusLine.isVersion, version, StatusLine.http, isMajor, isMinor, isWhitespace]

theorem verb_places :
    skipSpaceAndTab (sent.firstLine ++ more) 0 = 0 ∧
      findEndOfToken (sent.firstLine ++ more) 0 = 3 := by
  constructor
  · rw [skipSpaceAndTab_eq (Nat.zero_le _), firstLine_eq]
    rfl
  · rw [findEndOfToken, findFrom_eq _ (Nat.zero_le _), firstLine_eq]
    rfl

theorem target_places (isToken : sent.IsToken) :
    skipSpaceAndTab (sent.firstLine ++ more) 3 = 4 ∧
      findEndOfToken (sent.firstLine ++ more) 4 = 4 + sent.target.length ∧
      skipSpaceAndTab (sent.firstLine ++ more) (4 + sent.target.length) = 5 + sent.target.length ∧
      findLineBreak (sent.firstLine ++ more) (13 + sent.target.length) =
        14 + sent.target.length := by
  obtain ⟨notEmpty, areOther⟩ := isToken
  have length := length_firstLine sent
  have within : 15 + sent.target.length ≤ (sent.firstLine ++ more).length := by
    rw [List.length_append, length]
    exact Nat.le_add_right _ _
  have blank : isWhitespace 0x20 = true := by decide
  refine ⟨?_, ?_, ?_, ?_⟩
  · have isRest : (sent.firstLine ++ more).drop 3 =
        0x20 :: (sent.target ++ 0x20 :: (sent.version ++ cr :: lf :: more)) := by
      rw [firstLine_eq]
      rfl
    rw [skipSpaceAndTab_eq (by omega), isRest, blanks_cons_blank blank]
    cases isTarget : sent.target with
    | nil => exact absurd isTarget notEmpty
    | cons first rest =>
        have other := (areOther first (by rw [isTarget]; exact List.mem_cons_self)).1
        rw [List.cons_append, blanks_cons_other other]
  · have isRest := @drop_target sent more 0
    have passes : ∀ ch ∈ sent.target, (!(isWhitespace ch || decide (ch = lf))) = true := by
      intro ch member
      obtain ⟨other, noBreak⟩ := areOther ch member
      simp [other, noBreak]
    rw [Nat.add_zero, List.drop_zero] at isRest
    rw [findEndOfToken, findFrom_eq _ (by omega), isRest, takeWhile_append_stop (by decide),
      List.takeWhile_eq_self_iff.mpr passes]
  · have isRest := @drop_target sent more sent.target.length
    have start : isWhitespace 0x48 = false := by decide
    rw [List.drop_left] at isRest
    rw [skipSpaceAndTab_eq (by omega), isRest, blanks_cons_blank blank, version, StatusLine.http,
      List.append_assoc, List.cons_append, blanks_cons_other start]
    omega
  · have isRest := @drop_version sent more 8
    have isLine : (sent.firstLine ++ more).drop (13 + sent.target.length) = [cr] ++ lf :: more := by
      rw [show 13 + sent.target.length = 5 + sent.target.length + 8 by omega, isRest]
      rfl
    rw [findLineBreak_some isLine (by decide)]
    simp
    omega

theorem verb_take {n : Nat} (enough : 3 ≤ n) :
    (((sent.firstLine ++ more).take n).drop 0).take (3 - 0) = Request.verbGet := by
  rw [List.drop_zero, List.take_take, Nat.min_eq_left enough, firstLine_eq]
  rfl

theorem target_take {n : Nat} (enough : 4 + sent.target.length ≤ n) :
    (((sent.firstLine ++ more).take n).drop 4).take (4 + sent.target.length - 4) =
      sent.target := by
  have isRest := @drop_target sent more 0
  rw [List.drop_take, List.take_take, Nat.min_eq_left (Nat.sub_le_sub_right enough 4)]
  rw [Nat.add_zero, List.drop_zero] at isRest
  rw [isRest, Nat.add_sub_cancel_left, List.take_left]

/-- The version is known by the blank behind it. -/
theorem version_take {n : Nat} (enough : 13 + sent.target.length < n) :
    StatusLine.isVersion (((sent.firstLine ++ more).take n).drop (5 + sent.target.length)) = true ∧
      (((sent.firstLine ++ more).take n).drop (5 + sent.target.length)).take
        Request.versionLen = sent.version := by
  have isRest : (sent.firstLine ++ more).drop (5 + sent.target.length) =
      sent.version ++ cr :: lf :: more := @drop_version sent more 0
  have inside : Request.versionLen < n - (5 + sent.target.length) := by
    rw [Request.versionLen]
    omega
  constructor
  · rw [List.drop_take, StatusLine.isVersion_take inside, isRest]
    exact isVersion_version
  · rw [List.drop_take, List.take_take, Nat.min_eq_left (Nat.le_of_lt inside), isRest]
    rfl

/-- What the reader makes of the first bytes. -/
theorem readFirstLine_take (isToken : sent.IsToken) (request : Request) {n : Nat}
    (inside : n ≤ (sent.firstLine ++ more).length) :
    request.readFirstLine ((sent.firstLine ++ more).take n) =
      if n < 16 then .wait request
      else if n ≤ 4 + sent.target.length then .wait { request with verb := Request.verbGet }
      else if n ≤ 13 + sent.target.length then
        .wait { request with verb := Request.verbGet, url := sent.target }
      else if n ≤ 14 + sent.target.length then
        .wait { request with
          verb := Request.verbGet
          url := sent.target
          version := sent.version }
      else
        .advance
          { request with
            verb := Request.verbGet
            url := sent.target
            version := sent.version
            stage := .body }
          (((sent.firstLine ++ more).take n).drop (15 + sent.target.length)) := by
  obtain ⟨verbOff, verbStop⟩ := @verb_places sent more
  obtain ⟨targetOff, targetStop, versionOff, lineStop⟩ := @target_places sent more isToken
  have isPrefix := List.take_prefix n (sent.firstLine ++ more)
  have length : ((sent.firstLine ++ more).take n).length = n := List.length_take_of_le inside
  have skips (off : Nat) : skipSpaceAndTab ((sent.firstLine ++ more).take n) off =
      min n (skipSpaceAndTab (sent.firstLine ++ more) off) :=
    StatusLine.skipSpaceAndTab_take inside off
  have stops (off : Nat) : findEndOfToken ((sent.firstLine ++ more).take n) off =
      min n (findEndOfToken (sent.firstLine ++ more) off) := by
    have found := findFrom_prefix (fun ch => isWhitespace ch || ch = lf) isPrefix off
    rwa [length] at found
  have ends (off : Nat) : findLineBreak ((sent.firstLine ++ more).take n) off =
      min n (findLineBreak (sent.firstLine ++ more) off) := by
    have found := findFrom_prefix (· = lf) isPrefix off
    rwa [length] at found
  unfold Request.readFirstLine
  rw [length]
  by_cases few : n < 16
  · rw [if_pos few]
    exact if_pos few
  have verbInside : 3 ≤ n := by omega
  have targetInside : 4 ≤ n := by omega
  have enough : ¬ n < Request.minRequestHeaderLen := few
  rw [if_neg enough, if_neg few]
  simp only [skips, stops, ends, verbOff, verbStop, Nat.min_zero, Nat.min_eq_right verbInside,
    verb_take verbInside]
  rw [if_neg (by omega)]
  simp only [targetOff, Nat.min_eq_right targetInside, targetStop]
  by_cases noTarget : n ≤ 4 + sent.target.length
  · rw [if_pos (by omega), if_pos noTarget]
  have targetEnds : 4 + sent.target.length ≤ n := Nat.le_of_not_ge noTarget
  simp only [Nat.min_eq_right targetEnds, target_take targetEnds]
  rw [if_neg (by omega), if_neg noTarget]
  simp only [versionOff]
  by_cases noVersion : n ≤ 13 + sent.target.length
  · rw [if_pos (by rw [Request.versionLen]; omega), if_pos noVersion]
  have versionInside : 5 + sent.target.length ≤ n := by omega
  obtain ⟨isVersion, versionText⟩ :=
    @version_take sent more n (Nat.lt_of_not_ge noVersion)
  have atEnd : 5 + sent.target.length + Request.versionLen = 13 + sent.target.length := by
    rw [Request.versionLen]
    omega
  simp only [Nat.min_eq_right versionInside, isVersion, versionText, atEnd, lineStop]
  rw [if_neg noVersion, if_neg (by decide), if_neg noVersion]
  by_cases noBreak : n ≤ 14 + sent.target.length
  · rw [if_pos (by omega), if_pos noBreak]
  · have lineEnds : min n (14 + sent.target.length) = 14 + sent.target.length := by omega
    have behind : 14 + sent.target.length + 1 = 15 + sent.target.length := by omega
    rw [if_neg (by omega), if_neg noBreak, lineEnds, behind]

/-!
## The header
-/

theorem trimmed_eq {s : Bytes} (start : ∀ ch ∈ s.head?, ch ≠ 0x20)
    (stop : ∀ ch ∈ s.getLast?, ch ≠ 0x20) : trimmed s = s := by
  have dropWhile_eq {bytes : Bytes} (other : ∀ ch ∈ bytes.head?, ch ≠ 0x20) :
      bytes.dropWhile (· = 0x20) = bytes := by
    cases bytes with
    | nil => rfl
    | cons ch rest => exact List.dropWhile_cons_of_neg (by simpa using other ch rfl)
  have last : ∀ ch ∈ s.reverse.head?, ch ≠ 0x20 := by
    rw [List.head?_reverse]
    exact stop
  rw [trimmed, dropWhile_eq start, dropWhile_eq last, List.reverse_reverse]

theorem trimmed_name {field : Bytes × Bytes} (wellFormed : IsField field) :
    trimmed field.1 = field.1 :=
  trimmed_eq (fun ch member => (wellFormed.name.2 ch (List.mem_of_mem_head? member)).1)
    fun ch member => (wellFormed.name.2 ch (List.mem_of_mem_getLast? member)).1

theorem trimmed_value {field : Bytes × Bytes} (wellFormed : IsField field) :
    trimmed field.2 = field.2 :=
  trimmed_eq (fun ch member => (wellFormed.valueStart ch member).1)
    fun ch member => (wellFormed.valueEnd ch member).1

/-- The fields that are read into a header. -/
def setFields (header : Header) (fields : List (Bytes × Bytes)) : Header :=
  fields.foldl (fun header pair => header.set (trimmed pair.1) (trimmed pair.2)) header

/-- Fields of different names are all there in their order. -/
theorem setFields_of_nodup {before fields : List (Bytes × Bytes)} {chunked : Bool}
    (areFields : ∀ field ∈ fields, IsField field)
    (distinct : ((before ++ fields).map Prod.fst).Nodup) :
    setFields ⟨before, chunked⟩ fields = ⟨before ++ fields, chunked⟩ := by
  induction fields generalizing before with
  | nil => rw [List.append_nil]; rfl
  | cons field fields ih =>
      have wellFormed := areFields field List.mem_cons_self
      have new : field.1 ∉ before.map Prod.fst := by
        rw [List.map_append, List.map_cons, List.nodup_middle, List.nodup_cons] at distinct
        exact fun member => distinct.1 (List.mem_append_left _ member)
      have isSet : (Header.mk before chunked).set (trimmed field.1) (trimmed field.2) =
          ⟨before ++ [field], chunked⟩ := by
        rw [trimmed_name wellFormed, trimmed_value wellFormed, set_new new]
      have step : setFields ⟨before, chunked⟩ (field :: fields) =
          setFields ⟨before ++ [field], chunked⟩ fields := by
        rw [setFields, List.foldl_cons, isSet]
        rfl
      have same : before ++ field :: fields = before ++ [field] ++ fields := by simp
      rw [step, same]
      rw [same] at distinct
      exact ih (fun other member => areFields other (List.mem_cons_of_mem _ member)) distinct

theorem nodup_setFields {header : Header} (distinct : (header.headers.map Prod.fst).Nodup)
    (fields : List (Bytes × Bytes)) : ((setFields header fields).headers.map Prod.fst).Nodup := by
  induction fields generalizing header with
  | nil => exact distinct
  | cons field fields ih => exact ih (nodup_set distinct _ _)

/-- The header that is made of the fields. -/
def readIn (fields : List (Bytes × Bytes)) : Header :=
  { setFields ⟨[], false⟩ fields with
    chunked := (setFields ⟨[], false⟩ fields).getTransferEncoding = bytesOf "chunked" }

theorem areLines : ∀ line ∈ sent.lines, line ≠ [] ∧ cr ∉ line ∧ lf ∉ line := by
  intro line member
  obtain ⟨field, isField, rfl⟩ := List.mem_map.mp member
  have wellFormed := sent.areFields field isField
  have separator : cr ∉ bytesOf ": " ∧ lf ∉ bytesOf ": " := by decide
  refine ⟨?_, ?_, ?_⟩
  · simp [wellFormed.name.1]
  · simp only [List.mem_append, not_or]
    exact ⟨⟨fun inName => (wellFormed.name.2 _ inName).2.2.2.1 rfl, separator.1⟩, wellFormed.value.1⟩
  · simp only [List.mem_append, not_or]
    exact ⟨⟨fun inName => (wellFormed.name.2 _ inName).2.2.2.2 rfl, separator.2⟩, wellFormed.value.2⟩

/-- The blank line is found behind the last field and nowhere before. -/
theorem findBlankLine_take (hasFields : sent.fields ≠ []) {n : Nat}
    (inside : n ≤ sent.block.length) :
    findBlankLine (sent.block.take n) 0 = if n < sent.block.length then n else n - 1 := by
  have length : (sent.block.take n).length = n := List.length_take_of_le inside
  have lines := @areLines sent
  have isBlock : sent.block = linesText sent.lines ++ [cr, lf] := rfl
  cases fields : sent.lines with
  | nil => exact absurd (List.map_eq_nil_iff.mp fields) hasFields
  | cons line later =>
      rw [fields] at lines isBlock
      obtain ⟨notEmpty, noCr, noLf⟩ := lines line List.mem_cons_self
      have areLater : ∀ other ∈ later, other ≠ [] ∧ cr ∉ other ∧ lf ∉ other :=
        fun other member => lines other (List.mem_cons_of_mem _ member)
      have noBreak : lf ∉ line ++ [cr] := by
        rw [List.mem_append, not_or]
        exact ⟨noLf, by decide⟩
      have isPart : sent.block = (line ++ [cr]) ++ lf :: (linesText later ++ [cr, lf]) := by
        rw [isBlock, linesText_cons, List.append_assoc]
        rfl
      by_cases short : n < sent.block.length
      · have isPrefix : (sent.block.take n).drop 0 <+:
            (line ++ [cr]) ++ lf :: (linesText later ++ [cr, lf]) := by
          rw [← isPart, List.drop_zero]
          exact List.take_prefix _ _
        have few : ((sent.block.take n).drop 0).length <
            ((line ++ [cr]) ++ lf :: (linesText later ++ [cr, lf])).length := by
          rwa [← isPart, List.drop_zero, length]
        rw [if_pos short, findBlankLine,
          ResponseHead.findBlankLineFor_part areLater noBreak isPrefix few, length]
      · have whole : n = sent.block.length := by omega
        have start : (sent.block.take n).drop 0 =
            (line ++ [cr]) ++ lf :: (linesText later ++ cr :: lf :: []) := by
          rw [whole, List.take_length, ← isPart, List.drop_zero]
        have partLength := congrArg List.length isPart
        have fewLines := length_le_linesText later
        simp only [List.length_append, List.length_cons, List.length_nil] at partLength
        have enough : later.length < (sent.block.take n).length + 1 := by omega
        rw [if_neg short, findBlankLine,
          ResponseHead.findBlankLineFor_whole areLater enough noBreak start]
        simp only [List.length_append, List.length_cons, List.length_nil]
        omega

theorem le_length_block : 2 ≤ sent.block.length := by
  rw [block, List.length_append]
  exact Nat.le_add_left _ _

theorem four_le_length_block (hasFields : sent.fields ≠ []) : 4 ≤ sent.block.length := by
  have lines := @areLines sent
  cases fields : sent.lines with
  | nil => exact absurd (List.map_eq_nil_iff.mp fields) hasFields
  | cons line later =>
      rw [block, fields, linesText_cons]
      simp
      omega

/-- What the header makes of the first bytes. -/
theorem parse_take {readFields : Bytes → HeaderRead} {read : List (Bytes × Bytes)}
    (hasFields : sent.fields ≠ []) (isRead : readFields sent.block = .fields read) {n : Nat}
    (inside : n ≤ sent.block.length) :
    Header.parse readFields ⟨[], false⟩ (sent.block.take n) =
      if n < sent.block.length then (0, ⟨[], false⟩) else ((n : Int), readIn read) := by
  have length : (sent.block.take n).length = n := List.length_take_of_le inside
  have enough := four_le_length_block hasFields
  have found := findBlankLine_take hasFields inside
  rw [Header.parse, length]
  by_cases short : n < sent.block.length
  · rw [if_pos short] at found ⊢
    by_cases few : n < 4
    · exact if_pos few
    · rw [if_neg few]
      exact if_pos found
  · have whole : n = sent.block.length := by omega
    rw [if_neg short] at found ⊢
    rw [if_neg (by omega)]
    dsimp only
    rw [found, if_neg (by omega), whole, List.take_length, isRead]
    refine Prod.ext ?_ rfl
    dsimp only
    omega

theorem parse_noFields {readFields : Bytes → HeaderRead} (noFields : sent.fields = []) :
    Header.parse readFields ⟨[], false⟩ sent.block = (0, ⟨[], false⟩) := by
  rw [block, lines, noFields]
  rfl

/-!
## Pieces that arrive
-/

/-- The first line has been read. -/
structure IsReading (sent : GetRequest) (header : Header) (request : Request) : Prop where
  stage : request.stage = .body
  verb : request.verb = Request.verbGet
  url : request.url = sent.target
  version : request.version = sent.version
  header : request.header = header

/-- What there is when the first `n` bytes have arrived: a part of the first line, or the first line
and a part of the header, or all of it. -/
inductive Arrived (sent : GetRequest) (done : Header) : Nat → Request.Receiving → Prop
  | line {n : Nat} {request : Request} (short : n < sent.firstLine.length)
      (stage : request.stage = .header) (header : request.header = ⟨[], false⟩) :
      Arrived sent done n ⟨request, sent.text.take n, 0, false⟩
  | block {n : Nat} {request : Request} (short : n < sent.block.length)
      (reading : IsReading sent ⟨[], false⟩ request) :
      Arrived sent done (sent.firstLine.length + n)
        ⟨request, sent.block.take n, sent.firstLine.length, false⟩
  | whole {request : Request} (reading : IsReading sent done request) :
      Arrived sent done sent.text.length ⟨request, [], sent.text.length, false⟩

theorem length_text : sent.text.length = sent.firstLine.length + sent.block.length := by
  rw [text_eq, List.length_append]

theorem drop_text (n : Nat) : sent.text.drop (sent.firstLine.length + n) = sent.block.drop n := by
  rw [text_eq, List.drop_length_add_append]

theorem take_append_prefix {p piece : Bytes} {n : Nat} (isPrefix : piece <+: p.drop n) :
    p.take n ++ piece = p.take (n + piece.length) := by
  obtain ⟨rest, isRest⟩ := isPrefix
  rw [List.take_add, ← isRest, List.take_left]

/-- The first line is waited for. -/
theorem readFirstLine_short (isToken : sent.IsToken) (request : Request) {n : Nat}
    (short : n < sent.firstLine.length) :
    ∃ waiting : Request, request.readFirstLine (sent.text.take n) = .wait waiting ∧
      waiting.stage = request.stage ∧ waiting.header = request.header := by
  have inside : n ≤ (sent.firstLine ++ sent.block).length := by
    rw [List.length_append]
    omega
  rw [text_eq, readFirstLine_take isToken request inside]
  rw [length_firstLine] at short
  by_cases few : n < 16
  · exact ⟨_, if_pos few, rfl, rfl⟩
  rw [if_neg few]
  by_cases noTarget : n ≤ 4 + sent.target.length
  · exact ⟨_, if_pos noTarget, rfl, rfl⟩
  rw [if_neg noTarget]
  by_cases noVersion : n ≤ 13 + sent.target.length
  · exact ⟨_, if_pos noVersion, rfl, rfl⟩
  · have noBreak : n ≤ 14 + sent.target.length := by omega
    rw [if_neg noVersion]
    exact ⟨_, if_pos noBreak, rfl, rfl⟩

/-- The first line is read when it is there. -/
theorem readFirstLine_whole (isToken : sent.IsToken) {request : Request}
    (header : request.header = ⟨[], false⟩) {n : Nat} (inside : n ≤ sent.block.length) :
    ∃ reading : Request,
      request.readFirstLine (sent.text.take (sent.firstLine.length + n)) =
        .advance reading (sent.block.take n) ∧
      IsReading sent ⟨[], false⟩ reading := by
  have within : sent.firstLine.length + n ≤ (sent.firstLine ++ sent.block).length := by
    rw [List.length_append]
    omega
  have length := length_firstLine sent
  have notEmpty : 0 < sent.target.length := List.length_pos_of_ne_nil isToken.1
  have read := readFirstLine_take isToken request within
  rw [if_neg (by omega), if_neg (by omega), if_neg (by omega), if_neg (by omega), ← length,
    List.drop_take, Nat.add_sub_cancel_left, List.drop_left, ← text_eq] at read
  exact ⟨_, read, ⟨rfl, rfl, rfl, rfl, header⟩⟩

theorem readHeader_of_parse {readFields : Bytes → HeaderRead} {request : Request} {p : Bytes}
    {read : Nat} {header : Header} (parsed : request.header.parse readFields p = ((read : Int), header))
    (isGet : request.verb = Request.verbGet) (len : Nat) :
    request.readHeader readFields len p =
      ((len : Int) - (p.length - read), { request with header := header }) := by
  have notNegative : ¬ (read : Int) < 0 := by omega
  unfold Request.readHeader
  rw [parsed]
  dsimp only
  rw [if_neg notNegative, isGet]
  exact if_pos rfl

theorem receive_eq {readFields : Bytes → HeaderRead} {request next : Request}
    {buffer piece : Bytes} {read : Nat}
    (isRead : request.readData readFields (buffer ++ piece) = ((read : Int), next)) (consumed : Int) :
    Request.Receiving.receive readFields ⟨request, buffer, consumed, false⟩ piece =
      ⟨next, (buffer ++ piece).drop read, consumed + read, false⟩ := by
  have notNegative : ¬ (read : Int) < 0 := by omega
  simp only [Request.Receiving.receive, isRead, Int.toNat_natCast, notNegative, decide_false,
    Bool.or_false]

section Pieces

variable {readFields : Bytes → HeaderRead} {read : List (Bytes × Bytes)}
  (hasFields : sent.fields ≠ []) (isRead : readFields sent.block = .fields read)
include hasFields isRead

/-- A part of the header is waited for, and all of it is read. -/
theorem readHeader_take {request : Request} (reading : IsReading sent ⟨[], false⟩ request)
    {n : Nat} (inside : n ≤ sent.block.length) (before : Nat) :
    request.readHeader readFields (before + n) (sent.block.take n) =
      if n < sent.block.length then ((before : Int), { request with header := ⟨[], false⟩ })
      else (((before + n : Nat) : Int), { request with header := readIn read }) := by
  have length : (sent.block.take n).length = n := List.length_take_of_le inside
  have parsed := parse_take hasFields isRead inside
  rw [← reading.header] at parsed
  by_cases short : n < sent.block.length
  · rw [if_pos short] at parsed ⊢
    rw [@readHeader_of_parse readFields request _ 0 _ parsed reading.verb, length, reading.header]
    refine Prod.ext ?_ rfl
    dsimp only
    omega
  · rw [if_neg short] at parsed ⊢
    rw [readHeader_of_parse parsed reading.verb, length]
    refine Prod.ext ?_ rfl
    dsimp only
    omega

/-- More of the header arrives, behind the first line when that was not read before. -/
theorem arrived_block {request next : Request} (reading : IsReading sent ⟨[], false⟩ next)
    {buffer piece : Bytes} {before n consumed : Nat}
    (isData : request.readData readFields (buffer ++ piece) =
      next.readHeader readFields (before + n) (sent.block.take n))
    (isRest : (buffer ++ piece).drop before = sent.block.take n)
    (upTo : consumed + before = sent.firstLine.length) (inside : n ≤ sent.block.length) :
    Arrived sent (readIn read) (sent.firstLine.length + n)
      (Request.Receiving.receive readFields ⟨request, buffer, consumed, false⟩ piece) := by
  rw [readHeader_take hasFields isRead reading inside] at isData
  by_cases short : n < sent.block.length
  · rw [if_pos short] at isData
    rw [receive_eq isData, isRest, ← Int.natCast_add, upTo]
    exact .block short { reading with header := rfl }
  · have whole : n = sent.block.length := by omega
    have isAll : consumed + (before + n) = sent.text.length := by
      rw [length_text]
      omega
    rw [if_neg short] at isData
    rw [receive_eq isData, ← List.drop_drop, isRest, whole, List.take_length, List.drop_length,
      ← whole, ← Int.natCast_add, isAll, whole, ← length_text]
    exact .whole { reading with header := rfl }

/-- One more piece arrives. -/
theorem arrived_receive (isToken : sent.IsToken) {n : Nat} {state : Request.Receiving}
    (arrived : Arrived sent (readIn read) n state) {piece : Bytes}
    (isPrefix : piece <+: sent.text.drop n) :
    Arrived sent (readIn read) (n + piece.length)
      (Request.Receiving.receive readFields state piece) := by
  have length := @length_text sent
  have fits := isPrefix.length_le
  rw [List.length_drop] at fits
  cases arrived with
  | line short stage header =>
      rename_i request
      have isPart := take_append_prefix isPrefix
      by_cases still : n + piece.length < sent.firstLine.length
      · obtain ⟨waiting, isWaiting, sameStage, sameHeader⟩ :=
          readFirstLine_short isToken request still
        have isData : request.readData readFields (sent.text.take n ++ piece) = (0, waiting) := by
          rw [isPart, Request.readData, stage, isWaiting]
        rw [@receive_eq _ _ _ _ _ 0 isData, isPart, List.drop_zero, Nat.cast_zero, Int.add_zero]
        exact .line still (sameStage.trans stage) (sameHeader.trans header)
      · obtain ⟨behind, isBehind⟩ := Nat.exists_eq_add_of_le (Nat.le_of_not_lt still)
        have inside : behind ≤ sent.block.length := by omega
        have within : sent.firstLine.length + behind ≤ sent.text.length := by omega
        obtain ⟨reading, isReading, areRead⟩ := readFirstLine_whole isToken header inside
        rw [isBehind] at isPart ⊢
        refine @arrived_block _ _ _ hasFields isRead _ _ areRead _ _ _ _ 0 ?_ ?_
          (Nat.zero_add _) inside
        · rw [isPart, Request.readData, stage, isReading, List.length_take_of_le within]
        · rw [isPart, text_eq, List.take_length_add_append, List.drop_left]
  | block short reading =>
      rename_i behind request
      have isPart := take_append_prefix (drop_text behind ▸ isPrefix)
      have inside : behind + piece.length ≤ sent.block.length := by omega
      rw [Nat.add_assoc]
      refine @arrived_block _ _ _ hasFields isRead _ _ reading _ _ 0 _ _ ?_ ?_
        (Nat.add_zero _) inside
      · rw [isPart, Request.readData, reading.stage, List.length_take_of_le inside, Nat.zero_add]
      · rw [isPart, List.drop_zero]
  | whole reading =>
      rename_i request
      have noMore : piece = [] := List.length_eq_zero_iff.mp (by omega)
      have isData : request.readData readFields ([] ++ piece) =
          (0, { request with header := request.header }) := by
        have parsed : request.header.parse readFields [] = (((0 : Nat) : Int), request.header) := rfl
        rw [noMore, Request.readData, reading.stage]
        exact readHeader_of_parse parsed reading.verb 0
      rw [@receive_eq _ _ _ _ _ 0 isData, noMore, Nat.cast_zero, Int.add_zero]
      exact .whole reading

/-- Pieces of what has not arrived yet. -/
theorem arrived_run (isToken : sent.IsToken) {n : Nat} {state : Request.Receiving}
    (arrived : Arrived sent (readIn read) n state) {pieces : List Bytes}
    (arePieces : pieces.flatten = sent.text.drop n) (inside : n ≤ sent.text.length) :
    Arrived sent (readIn read) sent.text.length
      (run (Request.Receiving.receive readFields) state pieces) := by
  induction pieces generalizing n state with
  | nil =>
      have all := congrArg List.length arePieces
      rw [List.flatten_nil, List.length_nil, List.length_drop] at all
      have same : n = sent.text.length := by omega
      exact same ▸ arrived
  | cons piece pieces ih =>
      rw [List.flatten_cons] at arePieces
      have isPrefix : piece <+: sent.text.drop n := ⟨pieces.flatten, arePieces⟩
      have fits := isPrefix.length_le
      rw [List.length_drop] at fits
      have areLater : pieces.flatten = sent.text.drop (n + piece.length) := by
        rw [← List.drop_drop, ← arePieces, List.drop_left]
      exact ih (arrived_receive hasFields isRead isToken arrived isPrefix) areLater (by omega)

end Pieces

/-!
## Which requests are read
-/

theorem token_noBreak (p : Bytes) (off : Nat) :
    ∀ ch ∈ (p.drop off).take (findEndOfToken p off - off), isWhitespace ch = false ∧ ch ≠ lf := by
  intro ch member
  by_cases inside : off ≤ p.length
  · rw [findEndOfToken, findFrom_eq _ inside, Nat.add_sub_cancel_left] at member
    have isPrefix := @List.takeWhile_prefix _ (p.drop off)
      (fun ch => !(isWhitespace ch || decide (ch = lf)))
    rw [← List.prefix_iff_eq_take.mp isPrefix] at member
    have passes := List.mem_takeWhile_imp member
    simpa using passes
  · rw [List.drop_eq_nil_of_le (by omega)] at member
    simp at member

theorem readHeader_url (readFields : Bytes → HeaderRead) (request : Request) (len : Nat)
    (p : Bytes) : (request.readHeader readFields len p).2.url = request.url := by
  unfold Request.readHeader
  dsimp only
  by_cases negative : (request.header.parse readFields p).1 < 0
  · rw [if_pos negative]
  · rw [if_neg negative]
    by_cases isGet : request.verb = Request.verbGet
    · rw [if_pos isGet]
    · rw [if_neg isGet]

def urlOff (p : Bytes) : Nat := skipSpaceAndTab p (findEndOfToken p (skipSpaceAndTab p 0))

/-- The target is the second token, or it is still the default. -/
theorem readData_url (readFields : Bytes → HeaderRead) {request : Request}
    (stage : request.stage = .header) (p : Bytes) :
    (request.readData readFields p).2.url = request.url ∨
      (request.readData readFields p).2.url =
        (p.drop (urlOff p)).take (findEndOfToken p (urlOff p) - urlOff p) := by
  rw [Request.readData, stage, urlOff]
  unfold Request.readFirstLine
  dsimp only
  by_cases few : p.length < Request.minRequestHeaderLen
  · rw [if_pos few]
    exact .inl rfl
  rw [if_neg few]
  by_cases noVerb : findEndOfToken p (skipSpaceAndTab p 0) = p.length
  · rw [if_pos noVerb]
    exact .inl rfl
  rw [if_neg noVerb]
  generalize skipSpaceAndTab p (findEndOfToken p (skipSpaceAndTab p 0)) = off
  by_cases noUrl : findEndOfToken p off = p.length
  · rw [if_pos noUrl]
    exact .inl rfl
  rw [if_neg noUrl]
  generalize skipSpaceAndTab p (findEndOfToken p off) = versionOff
  by_cases noVersion : p.length ≤ versionOff + Request.versionLen
  · rw [if_pos noVersion]
    exact .inr rfl
  rw [if_neg noVersion]
  by_cases other : (!StatusLine.isVersion (p.drop versionOff)) = true
  · rw [if_pos other]
    exact .inr rfl
  rw [if_neg other]
  by_cases noBreak : p.length ≤ findLineBreak p (versionOff + Request.versionLen)
  · rw [if_pos noBreak]
    exact .inr rfl
  · rw [if_neg noBreak]
    exact .inr (readHeader_url readFields _ _ _)

theorem isToken_of_url {readFields : Bytes → HeaderRead}
    (isUrl : (Request.create.readData readFields sent.text).2.url = sent.target) :
    sent.IsToken := by
  have isDefault : Request.create.url = [0x2f] := rfl
  obtain same | isSecond := @readData_url readFields .create rfl sent.text
  · rw [IsToken, ← isUrl, same, isDefault]
    exact ⟨List.cons_ne_nil _ _, List.forall_mem_singleton.mpr ⟨rfl, by decide⟩⟩
  refine ⟨fun noTarget => ?_, ?_⟩
  · have isText : sent.text = 0x47 :: 0x45 :: 0x54 :: 0x20 :: 0x20 :: (sent.version ++ cr :: lf ::
        sent.block) := by
      rw [text_eq, firstLine_eq, noTarget, List.nil_append]
    have isRest : sent.text.drop 5 = sent.version ++ cr :: lf :: sent.block := by
      rw [isText]
      rfl
    have isBlank : sent.text.drop 3 = 0x20 :: 0x20 :: (sent.version ++ cr :: lf :: sent.block) := by
      rw [isText]
      rfl
    have long : 5 ≤ sent.text.length := by
      rw [isText]
      exact Nat.le_add_left _ _
    have blank : isWhitespace 0x20 = true := by decide
    have start : isWhitespace 0x48 = false := by decide
    have isOff : urlOff sent.text = 5 := by
      obtain ⟨verbOff, verbStop⟩ := @verb_places sent sent.block
      rw [← text_eq] at verbOff verbStop
      rw [urlOff, verbOff, verbStop, skipSpaceAndTab_eq (by omega), isBlank,
        blanks_cons_blank blank, blanks_cons_blank blank, version, StatusLine.http, List.cons_append,
        List.cons_append, blanks_cons_other start]
    rw [isUrl, noTarget, isOff, findEndOfToken, findFrom_eq _ long, isRest, Nat.add_sub_cancel_left,
      version, StatusLine.http, List.cons_append, List.cons_append,
      List.takeWhile_cons_of_pos (by decide)] at isSecond
    exact List.cons_ne_nil _ _ isSecond.symm
  · rw [← isUrl, isSecond]
    exact token_noBreak _ _

section Readable

variable {readFields : Bytes → HeaderRead} {read : List (Bytes × Bytes)}
  (isRead : readFields sent.block = .fields read) (samePairs : read.Perm sent.fields)

include isRead

include samePairs in
theorem isRead_of_isReadable (readable : sent.IsReadable) : sent.IsRead readFields := by
  intro pieces arePieces
  have short : 0 < sent.firstLine.length := by
    rw [length_firstLine]
    omega
  have start : Arrived sent (readIn read) 0 .start :=
    .line short rfl rfl
  have arrived := arrived_run readable.hasFields isRead readable.target start arePieces
    (Nat.zero_le _)
  have areFields : ∀ field ∈ read, IsField field :=
    fun field member => sent.areFields field (samePairs.mem_iff.mp member)
  have distinct : (([] ++ read).map Prod.fst).Nodup :=
    (samePairs.map Prod.fst).nodup_iff.mpr readable.distinct
  have headers : (readIn read).headers = read := by
    rw [readIn, setFields_of_nodup areFields distinct]
    rfl
  generalize run (Request.Receiving.receive readFields) .start pieces = last at arrived
  generalize isAll : sent.text.length = all at arrived
  have length := @length_text sent
  cases arrived with
  | line few => omega
  | block few => omega
  | whole reading =>
      refine ⟨rfl, rfl, rfl, reading.verb, reading.url, reading.version, ?_⟩
      rw [reading.header, headers]
      exact samePairs

theorem isReadable_of_isRead (all : sent.IsRead readFields) : sent.IsReadable := by
  obtain ⟨-, consumed, -, -, url, -, headers⟩ := all [sent.text] List.flatten_singleton
  have isToken : sent.IsToken := isToken_of_url url
  have short : 0 < sent.firstLine.length := by
    rw [length_firstLine]
    omega
  have length := @length_text sent
  have hasFields : sent.fields ≠ [] := by
    intro noFields
    obtain ⟨reading, isReading, areRead⟩ :=
      @readFirstLine_whole sent isToken .create rfl sent.block.length (Nat.le_refl _)
    have parsed : reading.header.parse readFields sent.block = (((0 : Nat) : Int), ⟨[], false⟩) := by
      rw [areRead.header]
      exact parse_noFields noFields
    have isData : Request.create.readData readFields ([] ++ sent.text) =
        (((sent.firstLine.length : Nat) : Int), { reading with header := ⟨[], false⟩ }) := by
      rw [← length, List.take_length, List.take_length] at isReading
      have stage : Request.create.stage = .header := rfl
      rw [List.nil_append, Request.readData, stage, isReading]
      dsimp only
      rw [readHeader_of_parse parsed areRead.verb]
      refine Prod.ext ?_ rfl
      dsimp only
      omega
    have last := receive_eq isData 0
    have isConsumed : (Request.Receiving.receive readFields .start sent.text).consumed =
        sent.text.length := consumed
    have more := @le_length_block sent
    rw [Request.Receiving.start, last] at isConsumed
    dsimp only at isConsumed
    omega
  refine ⟨isToken, hasFields, ?_⟩
  have start : Arrived sent (readIn read) 0 .start := .line short rfl rfl
  have arrived := @arrived_run _ _ _ hasFields isRead isToken _ _ start [sent.text]
    List.flatten_singleton (Nat.zero_le _)
  generalize run (Request.Receiving.receive readFields) .start [sent.text] = last
    at arrived headers
  generalize isAll : sent.text.length = all at arrived
  cases arrived with
  | line few => omega
  | block few => omega
  | whole reading =>
      have distinct : ((readIn read).headers.map Prod.fst).Nodup :=
        @nodup_setFields ⟨[], false⟩ List.nodup_nil read
      rw [reading.header] at headers
      exact (headers.map Prod.fst).nodup_iff.mp distinct

end Readable

/-- A request is read in any pieces exactly when its target is a token, and it has fields, of
which no two have the same name. -/
theorem isRead_iff {readFields : Bytes → HeaderRead}
    (parses : ∃ read, readFields sent.block = .fields read ∧ read.Perm sent.fields) :
    sent.IsRead readFields ↔ sent.IsReadable := by
  obtain ⟨read, isRead, samePairs⟩ := parses
  exact ⟨isReadable_of_isRead isRead, isRead_of_isReadable isRead samePairs⟩

/-- A request with a host. -/
def hostRequest : GetRequest where
  target := bytesOf "/"
  major := 0x31
  minor := 0x31
  fields := [(bytesOf "Host", bytesOf "localhost")]
  areDigits := StatusLine.version_areDigits
  areFields := by
    intro field member
    rw [List.mem_singleton.mp member]
    exact ⟨by decide +kernel, by decide, by decide +kernel, by decide +kernel⟩

theorem isRead_hostRequest : hostRequest.IsRead fun _ => .fields hostRequest.fields :=
  (isRead_iff ⟨hostRequest.fields, rfl, .refl _⟩).mpr
    { target := ⟨by decide, List.forall_mem_singleton.mpr (by decide)⟩
      hasFields := List.cons_ne_nil _ _
      distinct := by decide }

/-- A request of its first line and the blank line. -/
def bareRequest : GetRequest where
  target := bytesOf "/"
  major := 0x31
  minor := 0x31
  fields := []
  areDigits := StatusLine.version_areDigits
  areFields := by
    intro field member
    exact absurd member List.not_mem_nil

/-- The blank line alone is too short to be taken for the end of the header. -/
theorem not_isRead_bareRequest :
    ¬ ∀ (readFields : Bytes → HeaderRead) (sent : GetRequest),
      (∃ read, readFields sent.block = .fields read ∧ read.Perm sent.fields) →
        sent.IsRead readFields := by
  intro all
  have isRead := all (fun _ => .fields []) bareRequest ⟨[], rfl, .refl _⟩
  have consumed := (isRead [bareRequest.text] List.flatten_singleton).2.1
  exact absurd consumed (by decide +kernel)

end GetRequest

end FreeOnline.Net.Http
