import FreeOnline.Library.Hex
import FreeOnline.Library.InputStream

/-!
# The clipboard format

Entries of a mime type, the length of the content and the content itself. What is read of a whole
encoding, and of one that is cut.
-/

set_option autoImplicit false

namespace FreeOnline.Common.Clipboard

open FreeOnline.Library

abbrev Bytes := List UInt8

def newline : UInt8 := 10

/-- The largest size of a string. -/
def maxSize : Nat := 2 ^ 63 - 2

structure ClipboardData where
  mimeTypes : List Bytes
  content : List Bytes
deriving DecidableEq

inductive Thrown where
  | parseError
  | lengthError
deriving DecidableEq

def ClipboardData.push (data : ClipboardData) (mime content : Bytes) : ClipboardData :=
  ⟨data.mimeTypes ++ [mime], data.content ++ [content]⟩

/-!
## Reading
-/

def isSpace (code : Nat) : Bool := code = 32 || (9 ≤ code && code ≤ 13)

/-- `strtoll` to the base 16, as an unsigned number. -/
def parseLength (hexLen : Bytes) : Nat :=
  let value := (Hex.read isSpace (hexLen.map UInt8.toNat)).getD 0
  ((max (-2 ^ 63) (min value (2 ^ 63 - 1))) % 2 ^ 64).toNat

/-- One turn of the loop of `read`: the stream behind it, what has been read, and whether it
throws. -/
def readEntry (stream : InputStream UInt8) (data : ClipboardData) :
    InputStream UInt8 × ClipboardData × Option Thrown :=
  let (mime, stream) := stream.getline newline []
  let (hexLen, stream) := stream.getline newline []
  if mime ≠ [] ∧ hexLen ≠ [] ∧ stream.fail = false then
    let len := parseLength hexLen
    if maxSize < len then (stream, data, some .lengthError)
    else
      let (got, stream) := stream.read len
      let content := got ++ List.replicate (len - got.length) 0x20
      if stream.fail then (stream, data, some .parseError)
      else
        let (_, stream) := stream.getline newline []
        (stream, if mime.length > 0 then data.push mime content else data, none)
  else (stream, data, none)

/-- The loop of `read`, for some number of turns. -/
def readLoop : Nat → InputStream UInt8 → ClipboardData → Option (ClipboardData × Option Thrown)
  | 0, _, _ => none
  | fuel + 1, stream, data =>
      if stream.eof then some (data, none)
      else
        match readEntry stream data with
        | (_, data, some thrown) => some (data, some thrown)
        | (stream, data, none) => readLoop fuel stream data

/-!
## The format
-/

structure Entry where
  mime : Bytes
  content : Bytes
  mime_ne_nil : mime ≠ []
  mime_line : newline ∉ mime
  content_size : content.length ≤ maxSize

def hexLength (content : Bytes) : Bytes :=
  (Hex.write content.length).map UInt8.ofNat

def Entry.encode (entry : Entry) : Bytes :=
  entry.mime ++ newline :: (hexLength entry.content ++ newline :: (entry.content ++ [newline]))

def encode (entries : List Entry) : Bytes :=
  entries.flatMap Entry.encode

/-- The entries, behind those that are there already. -/
def ClipboardData.append (data : ClipboardData) (entries : List Entry) : ClipboardData :=
  ⟨data.mimeTypes ++ entries.map Entry.mime, data.content ++ entries.map Entry.content⟩

section

private theorem toNat_hexLength (content : Bytes) :
    (hexLength content).map UInt8.toNat = Hex.write content.length := by
  have same : ∀ code ∈ Hex.write content.length, (UInt8.ofNat code).toNat = code := by
    intro code isCode
    have bounds := Hex.bounds_of_mem_write isCode
    have small : code < 2 ^ 8 := by omega
    rw [UInt8.toNat_ofNat', Nat.mod_eq_of_lt small]
  unfold hexLength
  rw [List.map_map]
  exact (List.map_congr_left same).trans (List.map_id' _)

theorem hexLength_line (content : Bytes) : newline ∉ hexLength content := by
  intro member
  have isCode : newline.toNat ∈ Hex.write content.length :=
    toNat_hexLength content ▸ List.mem_map_of_mem member
  have bounds := Hex.bounds_of_mem_write isCode
  exact absurd bounds (by decide)

theorem hexLength_ne_nil (content : Bytes) : hexLength content ≠ [] := by
  obtain ⟨digits, isText, notNil, -, -⟩ := Hex.exists_write content.length
  unfold hexLength
  rw [isText]
  simpa using notNil

theorem parseLength_hexLength {content : Bytes} (small : content.length ≤ maxSize) :
    parseLength (hexLength content) = content.length := by
  have notSpace : ∀ code ∈ Hex.write content.length, isSpace code = false := by
    intro code isCode
    have bounds := Hex.bounds_of_mem_write isCode
    simp only [isSpace, Bool.or_eq_false_iff, decide_eq_false_iff_not, Bool.and_eq_false_iff]
    omega
  unfold parseLength
  unfold maxSize at small
  rw [toNat_hexLength, Hex.read_write _ notSpace, Option.getD_some]
  dsimp only
  omega

end

/-!
## One entry
-/

section

variable {entry : Entry} {data : ClipboardData} {part rest : Bytes}

theorem ClipboardData.append_nil (data : ClipboardData) : data.append [] = data := by
  unfold ClipboardData.append
  rw [List.map_nil, List.map_nil, List.append_nil, List.append_nil]

theorem ClipboardData.push_entry (data : ClipboardData) (entry : Entry) :
    data.push entry.mime entry.content = data.append [entry] := rfl

/-- A content that is there is read, whatever stands behind it. -/
theorem readEntry_content (entry : Entry) (rest : Bytes) (data : ClipboardData) :
    readEntry (.ofBytes (entry.mime ++ newline :: (hexLength entry.content ++
        newline :: (entry.content ++ rest)))) data =
      (((InputStream.ofBytes rest).getline newline []).2, data.append [entry], none) := by
  have positive := List.length_pos_of_ne_nil entry.mime_ne_nil
  have fits : ¬maxSize < entry.content.length := Nat.not_lt.mpr entry.content_size
  have noFail (bytes : Bytes) : ¬(InputStream.ofBytes bytes).fail = true := Bool.false_ne_true
  unfold readEntry
  rw [InputStream.getline_line entry.mime_line]
  dsimp only
  rw [InputStream.getline_line (hexLength_line _)]
  dsimp only
  rw [if_pos ⟨entry.mime_ne_nil, hexLength_ne_nil _, rfl⟩, parseLength_hexLength entry.content_size,
    if_neg fits, InputStream.read_enough]
  dsimp only
  rw [if_neg (noFail rest), if_pos positive, Nat.sub_self, List.replicate_zero, List.append_nil,
    ClipboardData.push_entry]

/-- A whole entry is read, and nothing behind it. -/
theorem readEntry_encode (entry : Entry) (rest : Bytes) (data : ClipboardData) :
    readEntry (.ofBytes (entry.encode ++ rest)) data =
      (.ofBytes rest, data.append [entry], none) := by
  have isText : entry.encode ++ rest = entry.mime ++ newline :: (hexLength entry.content ++
      newline :: (entry.content ++ ([] ++ newline :: rest))) := by
    simp [Entry.encode]
  rw [isText, readEntry_content, InputStream.getline_line List.not_mem_nil]

/-- How a turn ends that does not read an entry as it was: the stream is at its end, or it
throws. -/
structure IsCut (data : ClipboardData) (entry : Entry)
    (turn : InputStream UInt8 × ClipboardData × Option Thrown) : Prop where
  kept : turn.2.1 = data ∨ turn.2.1 = data.append [entry]
  ends : turn.2.2 = none → turn.1.eof = true

theorem isCut_mime (inMime : part <+: entry.mime) (data : ClipboardData) :
    IsCut data entry (readEntry (.ofBytes part) data) := by
  have line : newline ∉ part := fun member => entry.mime_line (inMime.subset member)
  unfold readEntry
  rw [InputStream.getline_last line]
  dsimp only
  rw [InputStream.getline_atEnd]
  dsimp only
  rw [if_neg (fun both => absurd rfl both.2.1)]
  exact ⟨.inl rfl, fun _ => rfl⟩

theorem isCut_hexLength (inLength : part <+: hexLength entry.content) (data : ClipboardData) :
    IsCut data entry (readEntry (.ofBytes (entry.mime ++ newline :: part)) data) := by
  have line : newline ∉ part := fun member => hexLength_line _ (inLength.subset member)
  unfold readEntry
  rw [InputStream.getline_line entry.mime_line]
  dsimp only
  rw [InputStream.getline_last line]
  dsimp only
  split
  · split
    · exact ⟨.inl rfl, fun noThrow => nomatch noThrow⟩
    · -- the end was reached with the length, so the content cannot be read, be it empty
      rw [InputStream.read_atEnd]
      exact ⟨.inl rfl, fun noThrow => nomatch noThrow⟩
  · exact ⟨.inl rfl, fun _ => rfl⟩

theorem isCut_content (inContent : part <+: entry.content) (short : part ≠ entry.content)
    (data : ClipboardData) :
    IsCut data entry (readEntry (.ofBytes (entry.mime ++ newline :: (hexLength entry.content ++
      newline :: part))) data) := by
  have fewer : part.length < entry.content.length :=
    Nat.lt_of_le_of_ne inContent.length_le fun same => short (inContent.eq_of_length same)
  have fits : ¬maxSize < entry.content.length := Nat.not_lt.mpr entry.content_size
  unfold readEntry
  rw [InputStream.getline_line entry.mime_line]
  dsimp only
  rw [InputStream.getline_line (hexLength_line _)]
  dsimp only
  rw [if_pos ⟨entry.mime_ne_nil, hexLength_ne_nil _, rfl⟩, parseLength_hexLength entry.content_size,
    if_neg fits, InputStream.read_short fewer]
  exact ⟨.inl rfl, fun noThrow => nomatch noThrow⟩

theorem isCut_end (entry : Entry) (data : ClipboardData) :
    IsCut data entry (readEntry (.ofBytes (entry.mime ++ newline :: (hexLength entry.content ++
      newline :: (entry.content ++ [])))) data) := by
  rw [readEntry_content]
  exact ⟨.inr rfl, fun _ => rfl⟩

/-- What is left of an entry that is cut somewhere is not read, or read as it was. -/
theorem isCut_readEntry (isPart : part <+: entry.encode) (short : part ≠ entry.encode)
    (data : ClipboardData) : IsCut data entry (readEntry (.ofBytes part) data) := by
  cases InputStream.cut_line isPart with
  | inl inMime => exact isCut_mime inMime data
  | inr behindMime =>
      obtain ⟨afterMime, rfl, isAfterMime⟩ := behindMime
      cases InputStream.cut_line isAfterMime with
      | inl inLength => exact isCut_hexLength inLength data
      | inr behindLength =>
          obtain ⟨content, rfl, isContent⟩ := behindLength
          cases InputStream.cut_line isContent with
          | inl inContent =>
              by_cases whole : content = entry.content
              · subst whole
                have cut := isCut_end entry data
                rwa [List.append_nil] at cut
              · exact isCut_content inContent whole data
          | inr behindContent =>
              obtain ⟨tail, rfl, isTail⟩ := behindContent
              cases List.prefix_nil.mp isTail
              exact absurd rfl short

/-!
## The loop
-/

theorem readLoop_end (fuel : Nat) (stream : InputStream UInt8) (atEnd : stream.eof = true)
    (data : ClipboardData) : readLoop (fuel + 1) stream data = some (data, none) := by
  rw [readLoop, if_pos atEnd]

theorem readLoop_nil (fuel : Nat) (data : ClipboardData) :
    readLoop (fuel + 2) (.ofBytes []) data = some (data, none) := rfl

theorem readLoop_entry (fuel : Nat) (entry : Entry) (rest : Bytes) (data : ClipboardData) :
    readLoop (fuel + 1) (.ofBytes (entry.encode ++ rest)) data =
      readLoop fuel (.ofBytes rest) (data.append [entry]) := by
  have notEnd : ¬(InputStream.ofBytes (entry.encode ++ rest)).eof = true := Bool.false_ne_true
  rw [readLoop, if_neg notEnd, readEntry_encode]

/-- A turn that reads a cut entry is the last one. -/
theorem readLoop_cut (isCut : IsCut data entry (readEntry (.ofBytes part) data)) :
    ∃ initial thrown, initial <+: [entry] ∧
      ∀ fuel, readLoop (fuel + 2) (.ofBytes part) data = some (data.append initial, thrown) := by
  obtain ⟨kept, ends⟩ := isCut
  have notEnd : ¬(InputStream.ofBytes part).eof = true := Bool.false_ne_true
  obtain ⟨initial, isInitial, isKept⟩ :
      ∃ initial, initial <+: [entry] ∧ (readEntry (.ofBytes part) data).2.1 = data.append initial := by
    cases kept with
    | inl same => exact ⟨[], List.nil_prefix, by rw [same, ClipboardData.append_nil]⟩
    | inr added => exact ⟨[entry], List.prefix_refl _, added⟩
  cases isTurn : readEntry (.ofBytes part) data with
  | mk stream outcome =>
      obtain ⟨kept, thrown⟩ := outcome
      rw [isTurn] at isKept ends
      cases isKept
      refine ⟨initial, thrown, isInitial, fun fuel => ?_⟩
      rw [readLoop, if_neg notEnd, isTurn]
      cases thrown with
      | none => exact readLoop_end fuel stream (ends rfl) _
      | some thrown => rfl

theorem ClipboardData.append_append (data : ClipboardData) (entry : Entry) (entries : List Entry) :
    (data.append [entry]).append entries = data.append (entry :: entries) := by
  unfold ClipboardData.append
  dsimp only
  rw [List.append_assoc, List.append_assoc]
  rfl

theorem encode_length_pos (entry : Entry) : 0 < entry.encode.length := by
  unfold Entry.encode
  rw [List.length_append, List.length_cons]
  omega

/-- A whole encoding gives back the entries. -/
theorem readLoop_encode (entries : List Entry) (data : ClipboardData) (fuel : Nat)
    (enough : (encode entries).length + 2 ≤ fuel) :
    readLoop fuel (.ofBytes (encode entries)) data = some (data.append entries, none) := by
  induction entries generalizing data fuel with
  | nil =>
      obtain ⟨fuel, rfl⟩ := Nat.exists_eq_add_of_le' enough
      rw [ClipboardData.append_nil]
      exact readLoop_nil fuel data
  | cons entry entries ih =>
      have positive := encode_length_pos entry
      rw [encode, List.flatMap_cons, List.length_append] at enough
      cases fuel with
      | zero => omega
      | succ fuel =>
          have left : (encode entries).length + 2 ≤ fuel := by
            rw [encode]
            omega
          rw [encode, List.flatMap_cons, readLoop_entry, ← encode, ih _ fuel left,
            ClipboardData.append_append]

/-- A part of an encoding gives back the first of the entries, or throws behind them. -/
theorem readLoop_part {entries : List Entry} (isPart : part <+: encode entries)
    (data : ClipboardData) :
    ∃ initial thrown, initial <+: entries ∧ ∀ fuel, part.length + 2 ≤ fuel →
      readLoop fuel (.ofBytes part) data = some (data.append initial, thrown) := by
  induction entries generalizing data part with
  | nil =>
      cases List.prefix_nil.mp isPart
      refine ⟨[], none, List.prefix_refl _, fun fuel enough => ?_⟩
      obtain ⟨fuel, rfl⟩ := Nat.exists_eq_add_of_le' enough
      rw [ClipboardData.append_nil]
      exact readLoop_nil fuel data
  | cons entry entries ih =>
      rw [encode, List.flatMap_cons] at isPart
      by_cases whole : entry.encode <+: part
      · obtain ⟨tail, rfl⟩ := whole
        have isTail : tail <+: encode entries := (List.prefix_append_right_inj _).mp isPart
        have positive := encode_length_pos entry
        obtain ⟨initial, thrown, isInitial, isRead⟩ := ih isTail (data.append [entry])
        refine ⟨entry :: initial, thrown, List.cons_prefix_cons.mpr ⟨rfl, isInitial⟩, ?_⟩
        intro fuel enough
        rw [List.length_append] at enough
        cases fuel with
        | zero => omega
        | succ fuel =>
            rw [readLoop_entry, isRead fuel (by omega), ClipboardData.append_append]
      · have inEntry : part <+: entry.encode :=
          (List.prefix_or_prefix_of_prefix isPart (List.prefix_append _ _)).resolve_right whole
        have short : part ≠ entry.encode := fun same => whole (same ▸ List.prefix_refl _)
        obtain ⟨initial, thrown, isInitial, isRead⟩ := readLoop_cut (isCut_readEntry inEntry short data)
        refine ⟨initial, thrown, isInitial.trans (List.prefix_append [entry] entries), ?_⟩
        intro fuel enough
        obtain ⟨fuel, rfl⟩ := Nat.exists_eq_add_of_le' (Nat.le_of_add_left_le enough)
        exact isRead fuel

end

/-- An encoding is read as the entries, and a part of one ends with the first of them, by itself or
by a throw. -/
theorem read_encode (entries : List Entry) :
    (∀ fuel, (encode entries).length + 2 ≤ fuel →
      readLoop fuel (.ofBytes (encode entries)) ⟨[], []⟩ =
        some (⟨entries.map Entry.mime, entries.map Entry.content⟩, none)) ∧
    ∀ part, part <+: encode entries → ∃ initial thrown, initial <+: entries ∧
      ∀ fuel, part.length + 2 ≤ fuel →
        readLoop fuel (.ofBytes part) ⟨[], []⟩ =
          some (⟨initial.map Entry.mime, initial.map Entry.content⟩, thrown) :=
  ⟨readLoop_encode entries ⟨[], []⟩, fun _ isPart => readLoop_part isPart ⟨[], []⟩⟩

theorem read_encode_text :
    readLoop 12 (.ofBytes [116, 10, 50, 10, 10, 10, 10]) ⟨[], []⟩ =
      some (⟨[[116]], [[10, 10]]⟩, none) := by
  have entries := read_encode [⟨[116], [10, 10], by decide, by decide, by decide⟩]
  exact entries.1 12 (by decide)

end FreeOnline.Common.Clipboard
