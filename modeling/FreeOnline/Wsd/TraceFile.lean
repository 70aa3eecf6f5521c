import FreeOnline.Common.StringVector
import FreeOnline.Library.InputStream
import Mathlib.Data.Bool.AllAny
import Mathlib.Data.List.Forall2

/-!
# Trace files

A record is written as one line whose fields are separated by the character of its direction, and
with the time since the record before. The reader sums the times up again.
-/

set_option autoImplicit false

namespace FreeOnline.Wsd.TraceFile

open FreeOnline.Library FreeOnline.Common

inductive Direction where
  | incoming
  | outgoing
  | event
deriving DecidableEq

def Direction.toChar : Direction → Char
  | .incoming => '>'
  | .outgoing => '<'
  | .event => '~'

/-!
## Writing
-/

/-- What is written, and when. -/
structure Written where
  usec : Nat
  id : Text
  sessionId : Text
  data : Text
  dir : Direction

/-- The line of a record, behind one that was written at the time. -/
def writeLocked (lastTime : Nat) (record : Written) : Text :=
  let delim := record.dir.toChar
  let deltaT : Int := (record.usec : Int) - lastTime
  delim :: '+' :: (printInt deltaT ++ delim :: (record.id ++ delim :: (record.sessionId ++
    delim :: (record.data ++ ['\n']))))

def writeAll (lastTime : Nat) : List Written → Text
  | [] => []
  | record :: records => writeLocked lastTime record ++ writeAll record.usec records

/-!
## Reading
-/

structure TraceFileRecord where
  dir : Char
  timestampUs : UInt32
  pid : UInt32
  sessionId : Text
  payload : Text
deriving DecidableEq

def atol (text : Text) : Int :=
  ((readLong text).map clampLong).getD 0

/-- What a field does, where a plus stands in front of a time that is added. -/
def setField (record : Nat) (rest field : Text) (lastTime : UInt32) (rec : TraceFileRecord) :
    UInt32 × TraceFileRecord :=
  match record with
  | 0 =>
      if rest.head? = some '+' then
        let time := toUInt32 (atol field)
        (lastTime + time, { rec with timestampUs := lastTime + time })
      else (lastTime, { rec with timestampUs := toUInt32 (atol field) })
  | 1 => (lastTime, { rec with pid := toUInt32 (atoi field) })
  | _ => (lastTime, { rec with sessionId := field })

/-- The fields that are left, from the position on behind the last delimiter. -/
def extractFields (delimiter : Char) : Nat → Text → UInt32 → TraceFileRecord →
    Bool × UInt32 × TraceFileRecord
  | 0, _, lastTime, rec => (false, lastTime, rec)
  | left + 1, rest, lastTime, rec =>
      if rest = [] then (false, lastTime, rec)
      else if left = 0 then (true, lastTime, { rec with payload := rest })
      else
        let field := rest.takeWhile (· ≠ delimiter)
        let (lastTime, rec) := setField (3 - left) rest field lastTime rec
        match rest.drop field.length with
        | [] => (false, lastTime, rec)
        | _ :: rest => extractFields delimiter left rest lastTime rec

def extractRecord (s : Text) (lastTime : UInt32) : Bool × UInt32 × TraceFileRecord :=
  match s with
  | [] => (false, lastTime, ⟨'\x00', 0, 0, [], []⟩)
  | delimiter :: rest => extractFields delimiter 4 rest lastTime ⟨delimiter, 0, 0, [], []⟩

/-- The loop over the lines, for some number of turns. -/
def readLines : Nat → InputStream Char → Text → UInt32 → List TraceFileRecord →
    Option (List TraceFileRecord)
  | 0, _, _, _, _ => none
  | fuel + 1, stream, line, lastTime, records =>
      let (line, stream) := stream.getline '\n' line
      if line = [] then some records
      else
        let (valid, lastTime, rec) := extractRecord line lastTime
        readLines fuel stream line lastTime (if valid then records ++ [rec] else records)

inductive Thrown where
  | invalidTraceFile
deriving DecidableEq

def newSession : Text := "NewSession".toList

/-- The first record has to be the event of a new session. -/
def readFile (fuel : Nat) (text : Text) : Option (Except Thrown (List TraceFileRecord)) :=
  (readLines fuel (.ofBytes text) [] 0 []).map fun records =>
    match records.head? with
    | none => .error .invalidTraceFile
    | some first =>
        if first.dir = Direction.event.toChar ∧ newSession.isPrefixOf first.payload then
          .ok records
        else .error .invalidTraceFile

/-!
## What is written
-/

/-- A record with a number as its id and one line of data, where the delimiter does not occur in
the session id. -/
structure IsRecord (record : Written) : Prop where
  id_ne_nil : record.id ≠ []
  id_digits : ∀ ch ∈ record.id, ch.isDigit = true
  sessionId : record.dir.toChar ∉ record.sessionId
  data : '\n' ∉ record.data

def Written.idValue (record : Written) : Nat := Nat.ofDigitChars 10 record.id 0

/-- The record that is read, apart from its time. -/
structure Matches (record : Written) (read : TraceFileRecord) : Prop where
  dir : read.dir = record.dir.toChar
  pid : read.pid.toNat = record.idValue
  sessionId : read.sessionId = record.sessionId
  payload : read.payload = record.data

/-- The times that two records are read with differ as those they were written at. -/
def SameDifference (records : List Written) (read : List TraceFileRecord) : Prop :=
  ∀ (i j : Nat) (first second : Written) (readFirst readSecond : TraceFileRecord),
    records[i]? = some first → records[j]? = some second →
    read[i]? = some readFirst → read[j]? = some readSecond →
      (readSecond.timestampUs.toNat : Int) - readFirst.timestampUs.toNat =
        (second.usec : Int) - first.usec

/-!
## Numbers
-/

section

theorem atol_plus {n : Nat} (small : n < 2 ^ 63) : atol ('+' :: printInt n) = n := by
  have isText : printInt (n : Int) = Nat.toDigits 10 n := rfl
  have digits : leadingDigits (Nat.toDigits 10 n ++ []) = Nat.toDigits 10 n :=
    leadingDigits_append (fun _ => isDigit_of_mem_toDigits) nofun
  rw [List.append_nil] at digits
  have isLong : readLong ('+' :: printInt n) = some (n : Int) := by
    have noSpace : ('+' :: printInt n).dropWhile isSpace = '+' :: printInt n :=
      List.dropWhile_cons_of_neg (by decide)
    unfold readLong
    rw [noSpace, readSign]
    dsimp only
    rw [isText, digits, if_neg Nat.toDigits_ne_nil, Nat.ofDigitChars_ten_toDigits, if_neg (by simp)]
  unfold atol clampLong longMax
  rw [isLong, Option.map_some, Option.getD_some]
  omega

theorem readLong_digits {text : Text} (notNil : text ≠ []) (areDigits : ∀ ch ∈ text, ch.isDigit = true) :
    readLong text = some (Nat.ofDigitChars 10 text 0 : Int) := by
  have digits : leadingDigits (text ++ []) = text := leadingDigits_append areDigits nofun
  rw [List.append_nil] at digits
  cases text with
  | nil => exact absurd rfl notNil
  | cons ch text =>
      have isDigit := areDigits ch List.mem_cons_self
      have noSpace : (ch :: text).dropWhile isSpace = ch :: text :=
        List.dropWhile_cons_of_neg (by rw [isSpace_of_isDigit isDigit]; exact Bool.false_ne_true)
      have noSign : readSign (ch :: text) = (false, ch :: text) := by
        unfold readSign
        split
        · next isText =>
            cases isText
            exact absurd isDigit (by decide)
        · next isText =>
            cases isText
            exact absurd isDigit (by decide)
        · rfl
      unfold readLong
      rw [noSpace, noSign]
      dsimp only
      rw [digits, if_neg notNil, if_neg (by simp)]

theorem toNat_toUInt32 (n : Nat) : (toUInt32 (n : Int)).toNat = n % 2 ^ 32 := by
  have isRest : ((n : Int) % 2 ^ 32).toNat = n % 2 ^ 32 := by omega
  unfold toUInt32 UInt32.ofInt
  rw [isRest, UInt32.toNat_ofNat', Nat.mod_mod]

/-- A number of 32 bits is read as it is. -/
theorem atoi_digits {text : Text} (notNil : text ≠ []) (areDigits : ∀ ch ∈ text, ch.isDigit = true)
    (small : Nat.ofDigitChars 10 text 0 < 2 ^ 32) :
    (toUInt32 (atoi text)).toNat = Nat.ofDigitChars 10 text 0 := by
  have inside : clampLong (Nat.ofDigitChars 10 text 0 : Int) = (Nat.ofDigitChars 10 text 0 : Int) := by
    unfold clampLong longMax
    omega
  unfold atoi strtol
  rw [readLong_digits notNil areDigits, Option.map_some, Option.getD_some, inside, toUInt32_toInt32]
  rw [toNat_toUInt32, Nat.mod_eq_of_lt small]

end

/-!
## One record
-/

/-- The record that is read where nothing is lost. -/
def readAs (epochStart : Nat) (record : Written) : TraceFileRecord where
  dir := record.dir.toChar
  timestampUs := toUInt32 ((record.usec : Int) - epochStart)
  pid := toUInt32 (atoi record.id)
  sessionId := record.sessionId
  payload := record.data

def line (lastTime : Nat) (record : Written) : Text :=
  let delim := record.dir.toChar
  delim :: '+' :: (printInt ((record.usec : Int) - lastTime) ++ delim :: (record.id ++
    delim :: (record.sessionId ++ delim :: record.data)))

theorem writeLocked_eq (lastTime : Nat) (record : Written) :
    writeLocked lastTime record = line lastTime record ++ ['\n'] := by
  unfold writeLocked line
  simp

section

variable {delimiter : Char} {field rest : Text} {lastTime : UInt32} {rec : TraceFileRecord}

theorem extractFields_field (left : Nat) (noDelimiter : delimiter ∉ field) (rest : Text)
    (lastTime : UInt32) (rec : TraceFileRecord) :
    extractFields delimiter (left + 2) (field ++ delimiter :: rest) lastTime rec =
      extractFields delimiter (left + 1) rest
        (setField (2 - left) (field ++ delimiter :: rest) field lastTime rec).1
        (setField (2 - left) (field ++ delimiter :: rest) field lastTime rec).2 := by
  have isField : (field ++ delimiter :: rest).takeWhile (· ≠ delimiter) = field := by
    rw [List.takeWhile_append_of_pos, List.takeWhile_cons_of_neg (by simp), List.append_nil]
    exact fun ch member => decide_eq_true fun same => noDelimiter (same ▸ member)
  have position : 3 - (left + 1) = 2 - left := by omega
  rw [extractFields, if_neg (by simp), if_neg (Nat.succ_ne_zero left)]
  dsimp only
  rw [isField, List.drop_left, position]

theorem setField_time (rest field : Text) (lastTime : UInt32) (rec : TraceFileRecord) :
    setField 0 ('+' :: rest) field lastTime rec = (lastTime + toUInt32 (atol field),
      { rec with timestampUs := lastTime + toUInt32 (atol field) }) := rfl

theorem extractFields_payload (delimiter : Char) (notNil : rest ≠ []) (lastTime : UInt32)
    (rec : TraceFileRecord) :
    extractFields delimiter 1 rest lastTime rec = (true, lastTime, { rec with payload := rest }) := by
  rw [extractFields, if_neg notNil, if_pos rfl]

private theorem notDigit_toChar (dir : Direction) :
    dir.toChar ≠ '-' ∧ dir.toChar ≠ '+' ∧ dir.toChar ≠ '\n' ∧ dir.toChar.isDigit = false := by
  cases dir with
  | incoming => decide
  | outgoing => decide
  | event => decide

theorem extractRecord_line {record : Written} {epochStart last : Nat} (isRecord : IsRecord record)
    (notNil : record.data ≠ []) (ordered : last ≤ record.usec) (small : record.usec < 2 ^ 63) :
    extractRecord (line last record) (toUInt32 ((last : Int) - epochStart)) =
      (true, toUInt32 ((record.usec : Int) - epochStart), readAs epochStart record) := by
  obtain ⟨notMinus, notPlus, -, notDigit⟩ := notDigit_toChar record.dir
  have isDelta : (record.usec : Int) - last = ((record.usec - last : Nat) : Int) := by omega
  have isTime : atol ('+' :: printInt ((record.usec - last : Nat) : Int)) =
      ((record.usec - last : Nat) : Int) := atol_plus (by omega)
  have noDelimiterTime : record.dir.toChar ∉ '+' :: printInt ((record.usec - last : Nat) : Int) :=
    List.not_mem_cons_of_ne_of_not_mem notPlus (notMem_printInt notMinus notDigit)
  have noDelimiterId : record.dir.toChar ∉ record.id := by
    intro member
    rw [isRecord.id_digits _ member] at notDigit
    cases notDigit
  have isSum : toUInt32 ((last : Int) - epochStart) + toUInt32 ((record.usec - last : Nat) : Int) =
      toUInt32 ((record.usec : Int) - epochStart) := by
    have isWhole : (record.usec : Int) - epochStart =
        ((last : Int) - epochStart) + ((record.usec - last : Nat) : Int) := by omega
    rw [isWhole]
    exact (UInt32.ofInt_add _ _).symm
  unfold line extractRecord
  dsimp only
  rw [isDelta, ← List.cons_append, extractFields_field 2 noDelimiterTime,
    extractFields_field 1 noDelimiterId, extractFields_field 0 isRecord.sessionId,
    extractFields_payload _ notNil]
  rw [Nat.sub_self, List.cons_append, setField_time, isTime, isSum]
  rfl

end

/-!
## A whole file
-/

section

variable {epochStart : Nat}

theorem line_ne_nil (lastTime : Nat) (record : Written) : line lastTime record ≠ [] :=
  List.cons_ne_nil _ _

theorem newline_notMem_line (lastTime : Nat) {record : Written} (isRecord : IsRecord record)
    (sessionLine : '\n' ∉ record.sessionId) : '\n' ∉ line lastTime record := by
  obtain ⟨-, -, notNewline, -⟩ := notDigit_toChar record.dir
  have noTime : '\n' ∉ printInt ((record.usec : Int) - lastTime) :=
    notMem_printInt (by decide) (by decide)
  have noId : '\n' ∉ record.id := fun member => absurd (isRecord.id_digits _ member) (by decide)
  have notPlus : '\n' ≠ '+' := by decide
  simp only [line, List.mem_cons, List.mem_append, not_or]
  exact ⟨notNewline.symm, notPlus, noTime, notNewline.symm, noId, notNewline.symm, sessionLine,
    notNewline.symm, isRecord.data⟩

/-- The lines of records of which none is lost. -/
theorem readLines_writeAll (epochStart : Nat) {records : List Written} (areRecords : ∀ record ∈ records, IsRecord record)
    (sessionLines : ∀ record ∈ records, '\n' ∉ record.sessionId)
    (someData : ∀ record ∈ records, record.data ≠ []) {last : Nat}
    (ordered : (last :: records.map Written.usec).Pairwise (· ≤ ·))
    (small : ∀ record ∈ records, record.usec < 2 ^ 63) (fuel : Nat) (enough : records.length < fuel)
    (text : Text) (read : List TraceFileRecord) :
    readLines fuel (.ofBytes (writeAll last records)) text (toUInt32 ((last : Int) - epochStart)) read =
      some (read ++ records.map (readAs epochStart)) := by
  induction records generalizing last fuel text read with
  | nil =>
      cases fuel with
      | zero => exact absurd enough (Nat.not_lt_zero _)
      | succ fuel =>
          rw [writeAll, readLines, InputStream.getline_last List.not_mem_nil]
          dsimp only
          rw [if_pos rfl, List.map_nil, List.append_nil]
  | cons record records ih =>
      obtain ⟨isRecord, areLater⟩ := List.forall_mem_cons.mp areRecords
      obtain ⟨sessionLine, laterLines⟩ := List.forall_mem_cons.mp sessionLines
      obtain ⟨hasData, laterData⟩ := List.forall_mem_cons.mp someData
      obtain ⟨isSmall, laterSmall⟩ := List.forall_mem_cons.mp small
      obtain ⟨isBefore, laterOrdered⟩ := List.pairwise_cons.mp ordered
      cases fuel with
      | zero => exact absurd enough (Nat.not_lt_zero _)
      | succ fuel =>
          rw [writeAll, writeLocked_eq, List.append_assoc, List.singleton_append, readLines,
            InputStream.getline_line (newline_notMem_line last isRecord sessionLine)]
          dsimp only
          rw [if_neg (line_ne_nil last record), extractRecord_line isRecord hasData
            (isBefore _ List.mem_cons_self) isSmall]
          dsimp only
          rw [if_pos rfl, ih areLater laterLines laterData laterOrdered laterSmall fuel
            (Nat.lt_of_succ_lt_succ enough), List.append_assoc, List.singleton_append, List.map_cons]

/-!
## What a reader can return
-/

/-- No record that is read has a session id of two lines or no payload. -/
structure IsRead (read : TraceFileRecord) : Prop where
  sessionId : '\n' ∉ read.sessionId
  payload : read.payload ≠ []

private theorem setField_line {record : Nat} {rest field : Text} {lastTime : UInt32}
    {rec : TraceFileRecord} (fieldLine : '\n' ∉ field) (recLine : '\n' ∉ rec.sessionId) :
    '\n' ∉ (setField record rest field lastTime rec).2.sessionId := by
  unfold setField
  split
  · split <;> exact recLine
  · exact recLine
  · exact fieldLine

theorem isRead_extractFields {delimiter : Char} {left : Nat} {rest : Text} {lastTime : UInt32}
    {rec : TraceFileRecord} (oneLine : '\n' ∉ rest) (recLine : '\n' ∉ rec.sessionId)
    (isValid : (extractFields delimiter left rest lastTime rec).1 = true) :
    IsRead (extractFields delimiter left rest lastTime rec).2.2 := by
  induction left generalizing rest lastTime rec with
  | zero => cases isValid
  | succ left ih =>
      rw [extractFields] at isValid ⊢
      by_cases isNil : rest = []
      · rw [if_pos isNil] at isValid
        cases isValid
      · rw [if_neg isNil] at isValid ⊢
        by_cases isLast : left = 0
        · rw [if_pos isLast]
          exact ⟨recLine, isNil⟩
        · rw [if_neg isLast] at isValid ⊢
          dsimp only at isValid ⊢
          have fieldLine : '\n' ∉ rest.takeWhile (· ≠ delimiter) :=
            fun member => oneLine ((List.takeWhile_prefix _).subset member)
          cases isRest : rest.drop (rest.takeWhile (· ≠ delimiter)).length with
          | nil =>
              rw [isRest] at isValid
              cases isValid
          | cons ch later =>
              rw [isRest] at isValid
              refine ih (fun member => oneLine ?_) (setField_line fieldLine recLine) isValid
              exact List.mem_of_mem_drop (isRest ▸ List.mem_cons_of_mem ch member)

theorem isRead_readLines {fuel : Nat} {stream : InputStream Char} {text : Text} {lastTime : UInt32}
    {read result : List TraceFileRecord} (oneLine : '\n' ∉ text) (areRead : ∀ rec ∈ read, IsRead rec)
    (isResult : readLines fuel stream text lastTime read = some result) :
    ∀ rec ∈ result, IsRead rec := by
  induction fuel generalizing stream text lastTime read with
  | zero => cases isResult
  | succ fuel ih =>
      have lineRead := InputStream.notMem_getline stream oneLine
      rw [readLines] at isResult
      dsimp only at isResult
      cases isLine : (stream.getline '\n' text).1 with
      | nil =>
          rw [if_pos isLine] at isResult
          cases isResult
          exact areRead
      | cons delimiter rest =>
          rw [if_neg (by rw [isLine]; exact List.cons_ne_nil _ _)] at isResult
          refine ih lineRead ?_ isResult
          split
          · next isValid =>
              refine List.forall_mem_append.mpr ⟨areRead, List.forall_mem_singleton.mpr ?_⟩
              rw [isLine] at isValid lineRead ⊢
              exact isRead_extractFields (fun member => lineRead (List.mem_cons_of_mem _ member))
                List.not_mem_nil isValid
          · exact areRead

end

/-!
## When a file is read as it was written
-/

/-- The records begin with a new session, fit the fields of the reader, and no multiple of 2^32
microseconds since the begin of the file lies between them. -/
structure Readable (epochStart : Nat) (records : List Written) : Prop where
  newSession : ∃ first ∈ records.head?, first.dir = .event ∧ newSession <+: first.data
  id : ∀ record ∈ records, record.idValue < 2 ^ 32
  sessionId : ∀ record ∈ records, '\n' ∉ record.sessionId
  data : ∀ record ∈ records, record.data ≠ []
  times : ∀ first ∈ records, ∀ second ∈ records,
    (first.usec - epochStart) / 2 ^ 32 = (second.usec - epochStart) / 2 ^ 32

/-- The file is read, with the same records and the same times between them. -/
def ReadsBack (epochStart : Nat) (records : List Written) (fuel : Nat) : Prop :=
  ∃ read, readFile fuel (writeAll epochStart records) = some (.ok read) ∧
    List.Forall₂ Matches records read ∧ SameDifference records read

section

variable {epochStart : Nat} {records : List Written}

theorem matches_readAs {record : Written} (isRecord : IsRecord record)
    (fits : record.idValue < 2 ^ 32) : Matches record (readAs epochStart record) :=
  ⟨rfl, atoi_digits isRecord.id_ne_nil isRecord.id_digits fits, rfl, rfl⟩

theorem timestampUs_readAs {record : Written} (behind : epochStart ≤ record.usec) :
    (readAs epochStart record).timestampUs.toNat = (record.usec - epochStart) % 2 ^ 32 := by
  have isNat : (record.usec : Int) - epochStart = ((record.usec - epochStart : Nat) : Int) := by omega
  unfold readAs
  dsimp only
  rw [isNat, toNat_toUInt32]

/-- Where the records are read, the times are right as long as they lie in one span of 2^32
microseconds. -/
theorem sameDifference_iff (ordered : ∀ record ∈ records, epochStart ≤ record.usec) :
    SameDifference records (records.map (readAs epochStart)) ↔
      ∀ first ∈ records, ∀ second ∈ records,
        (first.usec - epochStart) / 2 ^ 32 = (second.usec - epochStart) / 2 ^ 32 := by
  constructor
  · intro same first isFirst second isSecond
    obtain ⟨i, atI⟩ := List.mem_iff_getElem?.mp isFirst
    obtain ⟨j, atJ⟩ := List.mem_iff_getElem?.mp isSecond
    have difference := same i j first second (readAs epochStart first) (readAs epochStart second)
      atI atJ (by rw [List.getElem?_map, atI]; rfl) (by rw [List.getElem?_map, atJ]; rfl)
    have firstBehind := ordered first isFirst
    have secondBehind := ordered second isSecond
    rw [timestampUs_readAs firstBehind, timestampUs_readAs secondBehind] at difference
    omega
  · intro oneSpan i j first second readFirst readSecond atI atJ readI readJ
    rw [List.getElem?_map, atI] at readI
    rw [List.getElem?_map, atJ] at readJ
    cases readI
    cases readJ
    have isFirst := List.mem_of_getElem? atI
    have isSecond := List.mem_of_getElem? atJ
    have same := oneSpan first isFirst second isSecond
    have firstBehind := ordered first isFirst
    have secondBehind := ordered second isSecond
    rw [timestampUs_readAs firstBehind, timestampUs_readAs secondBehind]
    omega

/-- What a file is read as that is not rejected. -/
theorem readFile_ok {fuel : Nat} {text : Text} {read : List TraceFileRecord}
    (isOk : readFile fuel text = some (.ok read)) :
    readLines fuel (.ofBytes text) [] 0 [] = some read ∧
      ∃ first ∈ read.head?, first.dir = Direction.event.toChar ∧ newSession <+: first.payload := by
  obtain ⟨result, isResult, isChecked⟩ := Option.map_eq_some_iff.mp isOk
  cases isHead : result.head? with
  | none =>
      rw [isHead] at isChecked
      cases isChecked
  | some first =>
      rw [isHead] at isChecked
      dsimp only at isChecked
      split at isChecked
      · next isSession =>
          cases isChecked
          exact ⟨isResult, first, isHead, isSession.1, List.isPrefixOf_iff_prefix.mp isSession.2⟩
      · cases isChecked

private theorem toChar_event {dir : Direction} (same : dir.toChar = Direction.event.toChar) :
    dir = .event := by
  cases dir with
  | incoming => exact absurd same (by decide)
  | outgoing => exact absurd same (by decide)
  | event => rfl

private theorem behind_epochStart
    (ordered : (epochStart :: records.map Written.usec).Pairwise (· ≤ ·)) :
    ∀ record ∈ records, epochStart ≤ record.usec :=
  fun _ member => (List.pairwise_cons.mp ordered).1 _ (List.mem_map_of_mem member)

private theorem exists_of_forall₂ {read : List TraceFileRecord}
    (areSame : List.Forall₂ Matches records read) {record : Written} (member : record ∈ records) :
    ∃ rec ∈ read, Matches record rec := by
  induction areSame with
  | nil => cases member
  | cons matched later ih =>
      cases member with
      | head => exact ⟨_, List.mem_cons_self, matched⟩
      | tail _ member =>
          obtain ⟨rec, isRec, isMatch⟩ := ih member
          exact ⟨rec, List.mem_cons_of_mem _ isRec, isMatch⟩

section

variable (areRecords : ∀ record ∈ records, IsRecord record)
  (ordered : (epochStart :: records.map Written.usec).Pairwise (· ≤ ·))
  (small : ∀ record ∈ records, record.usec < 2 ^ 63)
include areRecords ordered small

theorem readLines_readable (sessionLines : ∀ record ∈ records, '\n' ∉ record.sessionId)
    (someData : ∀ record ∈ records, record.data ≠ []) {fuel : Nat} (enough : records.length < fuel) :
    readLines fuel (.ofBytes (writeAll epochStart records)) [] 0 [] =
      some (records.map (readAs epochStart)) := by
  have lines := readLines_writeAll epochStart areRecords sessionLines someData ordered small
    fuel enough [] []
  rwa [Int.sub_self] at lines

theorem readable_of_readsBack {fuel : Nat} (enough : records.length < fuel)
    (readsBack : ReadsBack epochStart records fuel) : Readable epochStart records := by
  obtain ⟨read, isOk, areSame, sameDifference⟩ := readsBack
  obtain ⟨isResult, first, isHead, isEvent, isSession⟩ := readFile_ok isOk
  have areRead := isRead_readLines List.not_mem_nil (List.forall_mem_nil _) isResult
  have isReadAs (record : Written) (member : record ∈ records) :
      ∃ rec ∈ read, Matches record rec := exists_of_forall₂ areSame member
  have sessionLines : ∀ record ∈ records, '\n' ∉ record.sessionId := by
    intro record member
    obtain ⟨rec, isRec, matched⟩ := isReadAs record member
    exact matched.sessionId ▸ (areRead rec isRec).sessionId
  have someData : ∀ record ∈ records, record.data ≠ [] := by
    intro record member
    obtain ⟨rec, isRec, matched⟩ := isReadAs record member
    exact matched.payload ▸ (areRead rec isRec).payload
  have isRead : read = records.map (readAs epochStart) := by
    rw [readLines_readable areRecords ordered small sessionLines someData enough] at isResult
    exact (Option.some.inj isResult).symm
  refine ⟨?_, fun record member => ?_, sessionLines, someData, ?_⟩
  · cases areSame with
    | nil => cases isHead
    | cons matched later =>
        cases isHead
        exact ⟨_, rfl, toChar_event (matched.dir ▸ isEvent), matched.payload ▸ isSession⟩
  · obtain ⟨rec, -, matched⟩ := isReadAs record member
    exact matched.pid ▸ rec.pid.toNat_lt
  · rw [isRead] at sameDifference
    exact (sameDifference_iff (behind_epochStart ordered)).mp sameDifference

theorem readsBack_of_readable {fuel : Nat} (enough : records.length < fuel)
    (readable : Readable epochStart records) : ReadsBack epochStart records fuel := by
  have isResult := readLines_readable areRecords ordered small readable.sessionId readable.data enough
  refine ⟨records.map (readAs epochStart), ?_, ?_, ?_⟩
  · obtain ⟨first, isHead, isEvent, isSession⟩ := readable.newSession
    have isFirst : (records.map (readAs epochStart)).head? = some (readAs epochStart first) := by
      rw [List.head?_map, isHead]
      rfl
    have isPrefix : newSession.isPrefixOf (readAs epochStart first).payload = true :=
      List.isPrefixOf_iff_prefix.mpr isSession
    have dir : (readAs epochStart first).dir = Direction.event.toChar :=
      congrArg Direction.toChar isEvent
    rw [readFile, isResult, Option.map_some, isFirst]
    dsimp only
    rw [if_pos ⟨dir, isPrefix⟩]
  · refine List.forall₂_map_right_iff.mpr (List.forall₂_same.mpr fun record member => ?_)
    exact matches_readAs (areRecords record member) (readable.id record member)
  · exact (sameDifference_iff (behind_epochStart ordered)).mpr readable.times

end

end

/-- A file is read as it was written exactly where its records are readable. -/
theorem readFile_writeAll (epochStart : Nat) (records : List Written)
    (areRecords : ∀ record ∈ records, IsRecord record)
    (ordered : (epochStart :: records.map Written.usec).Pairwise (· ≤ ·))
    (small : ∀ record ∈ records, record.usec < 2 ^ 63) (fuel : Nat) (enough : records.length < fuel) :
    ReadsBack epochStart records fuel ↔ Readable epochStart records :=
  ⟨readable_of_readsBack areRecords ordered small enough,
    readsBack_of_readable areRecords ordered small enough⟩

/-- A new session, and a message that comes in at the time. -/
private def twoRecords (usec : Nat) : List Written :=
  [⟨0, ['1'], ['s'], newSession, .event⟩, ⟨usec, ['1'], ['s'], ['x'], .incoming⟩]

private theorem isRecord_twoRecords (usec : Nat) : ∀ record ∈ twoRecords usec, IsRecord record := by
  refine List.forall_mem_cons.mpr ⟨?_, List.forall_mem_singleton.mpr ?_⟩
  · exact ⟨by decide, List.all_iff_forall_prop.mp (by decide), by decide, by decide⟩
  · exact ⟨List.cons_ne_nil _ _, List.forall_mem_singleton.mpr (by decide),
      by simp [Direction.toChar], by simp⟩

private theorem ordered_twoRecords (usec : Nat) :
    (0 :: (twoRecords usec).map Written.usec).Pairwise (· ≤ ·) := by
  simp [twoRecords]

theorem readFile_writeAll_two : ReadsBack 0 (twoRecords 7) 3 := by
  refine (readFile_writeAll 0 (twoRecords 7) (isRecord_twoRecords 7) (ordered_twoRecords 7)
    (by decide) 3 (by decide)).mpr ?_
  exact ⟨⟨_, rfl, rfl, List.prefix_refl _⟩, by decide, by decide, by decide, by decide⟩

/-- A message that comes in 2^32 microseconds later is read with the time of the session. -/
theorem readFile_writeAll_late :
    (∀ record ∈ twoRecords (2 ^ 32), IsRecord record) ∧ ¬ReadsBack 0 (twoRecords (2 ^ 32)) 3 := by
  refine ⟨isRecord_twoRecords _, fun readsBack => ?_⟩
  have readable := readable_of_readsBack (isRecord_twoRecords _) (ordered_twoRecords _) (by decide)
    (by decide) readsBack
  exact absurd readable.times (by decide)

end FreeOnline.Wsd.TraceFile
