import Mathlib.Data.List.Induction
import FreeOnline.Net.WebSocketHandler

/-!
# Reading one frame

What the handler reads of its buffer lies within the frame that stands in front, so
that what comes behind makes no difference.
-/

set_option autoImplicit false

namespace FreeOnline.Net

open FreeOnline.Library

/-!
## Checked reads
-/

theorem byteAt_append {bytes : Bytes} {index : Nat} {byte : UInt8}
    (found : byteAt bytes index = .ok byte) (more : Bytes) :
    byteAt (bytes ++ more) index = .ok byte := by
  unfold byteAt at found ⊢
  split at found
  · next isByte =>
      rw [List.getElem?_append_left (List.getElem?_eq_some_iff.mp isByte).1, isByte]
      exact found
  · cases found

theorem byteAt_ok {bytes : Bytes} {index : Nat} (within : index < bytes.length) :
    ∃ byte, byteAt bytes index = .ok byte := by
  rw [byteAt, List.getElem?_eq_getElem within]
  exact ⟨_, rfl⟩

theorem slice_append {bytes part : Bytes} {start count : Nat}
    (found : slice bytes start count = .ok part) (more : Bytes) :
    slice (bytes ++ more) start count = .ok part := by
  unfold slice at found ⊢
  split at found
  · next within =>
      have longer : start + count ≤ (bytes ++ more).length := by
        rw [List.length_append]
        omega
      rw [if_pos longer, ← found, List.drop_append_of_le_length (by omega),
        List.take_append_of_le_length (by rw [List.length_drop]; omega)]
  · cases found

theorem slice_ok {bytes : Bytes} {start count : Nat} (within : start + count ≤ bytes.length) :
    ∃ part, slice bytes start count = .ok part ∧ part.length = count := by
  rw [slice, if_pos within]
  refine ⟨_, rfl, ?_⟩
  rw [List.length_take, List.length_drop]
  omega

theorem bigEndian_concat (bytes : Bytes) (byte : UInt8) :
    bigEndian (bytes ++ [byte]) = bigEndian bytes * 256 + byte.toNat := by
  rw [bigEndian, List.foldl_append]
  rfl

theorem bigEndian_lt (bytes : Bytes) : bigEndian bytes < 256 ^ bytes.length := by
  induction bytes using List.reverseRecOn with
  | nil => decide
  | append_singleton bytes byte ih =>
      have small : byte.toNat < 256 := byte.toNat_lt
      rw [bigEndian_concat, List.length_append, List.length_singleton, Nat.pow_succ]
      omega

/-!
## Headers
-/

structure FrameHeader.Valid (header : FrameHeader) : Prop where
  payloadLen : header.payloadLen < sizeModulus
  headerLen : 2 ≤ header.headerLen ∧ header.headerLen ≤ 14
  mask : header.hasMask = true → 4 ≤ header.headerLen

private theorem readLength_valid {buffer : Bytes} {short : Nat} (small : short < 128) :
    ∃ lengths?, readLength buffer short = .ok lengths? ∧ ∀ lengths ∈ lengths?,
      lengths.1 < sizeModulus ∧ 2 ≤ lengths.2 ∧ lengths.2 ≤ 10 := by
  have valid : ∀ count, count ≤ 8 → 2 + count ≤ buffer.length →
      ∃ part, slice buffer 2 count = .ok part ∧ bigEndian part < sizeModulus := by
    intro count few within
    obtain ⟨part, isPart, length⟩ := slice_ok within
    refine ⟨part, isPart, Nat.lt_of_lt_of_le (bigEndian_lt part) ?_⟩
    have powers : 256 ^ count ≤ 256 ^ 8 := Nat.pow_le_pow_right (by decide) few
    rw [length, sizeModulus]
    exact powers
  unfold readLength
  split
  · split
    · exact ⟨none, rfl, nofun⟩
    · obtain ⟨part, isPart, fits⟩ := valid 2 (by omega) (by omega)
      refine ⟨some (bigEndian part, 4), by rw [isPart]; rfl, ?_⟩
      intro lengths isLengths
      cases isLengths
      exact ⟨fits, by simp, by simp⟩
  · split
    · split
      · exact ⟨none, rfl, nofun⟩
      · obtain ⟨part, isPart, fits⟩ := valid 8 (by omega) (by omega)
        refine ⟨some (bigEndian part, 10), by rw [isPart]; rfl, ?_⟩
        intro lengths isLengths
        cases isLengths
        exact ⟨fits, by simp, by simp⟩
    · refine ⟨some (short, 2), rfl, ?_⟩
      intro lengths isLengths
      cases isLengths
      refine ⟨Nat.lt_of_lt_of_le small ?_, by simp, by simp⟩
      rw [sizeModulus]
      decide

private theorem readLength_append {buffer : Bytes} {short : Nat} {lengths : Nat × Nat}
    (found : readLength buffer short = .ok (some lengths)) (more : Bytes) :
    readLength (buffer ++ more) short = .ok (some lengths) := by
  have longer : buffer.length ≤ (buffer ++ more).length := by
    rw [List.length_append]
    omega
  unfold readLength at found ⊢
  split at found
  · split at found
    · cases found
    · next isShort arrived =>
        rw [if_pos isShort, if_neg (by omega)]
        cases isPart : slice buffer 2 2 with
        | error fault =>
            rw [isPart] at found
            cases found
        | ok part =>
            rw [isPart] at found
            rw [slice_append isPart more]
            exact found
  · split at found
    · split at found
      · cases found
      · next notShort isLong arrived =>
          rw [if_neg notShort, if_pos isLong, if_neg (by omega)]
          cases isPart : slice buffer 2 8 with
          | error fault =>
              rw [isPart] at found
              cases found
          | ok part =>
              rw [isPart] at found
              rw [slice_append isPart more]
              exact found
    · next notMedium notLong =>
        rw [if_neg notMedium, if_neg notLong]
        exact found

def FrameHeader.ofLengths (flags second : UInt8) (lengths : Nat × Nat) : FrameHeader :=
  let hasMask : Bool := second &&& 0x80 ≠ 0
  ⟨flags, hasMask, lengths.1, lengths.2 + if hasMask then 4 else 0⟩

theorem readHeader_eq {buffer : Bytes} {flags second : UInt8} {lengths? : Option (Nat × Nat)}
    (isFlags : byteAt buffer 0 = .ok flags) (isSecond : byteAt buffer 1 = .ok second)
    (isLength : readLength buffer (second &&& 0x7f).toNat = .ok lengths?) :
    readHeader buffer = .ok (lengths?.map (FrameHeader.ofLengths flags second)) := by
  simp only [readHeader, isFlags, isSecond, isLength, bind, Except.bind]
  cases lengths? <;> rfl

private theorem readHeader_lengths {buffer : Bytes} (arrived : 2 ≤ buffer.length) :
    ∃ flags second lengths?, byteAt buffer 0 = .ok flags ∧ byteAt buffer 1 = .ok second ∧
      readLength buffer (second &&& 0x7f).toNat = .ok lengths? ∧ ∀ lengths ∈ lengths?,
        lengths.1 < sizeModulus ∧ 2 ≤ lengths.2 ∧ lengths.2 ≤ 10 := by
  obtain ⟨flags, isFlags⟩ : ∃ byte, byteAt buffer 0 = .ok byte := byteAt_ok (by omega)
  obtain ⟨second, isSecond⟩ : ∃ byte, byteAt buffer 1 = .ok byte := byteAt_ok (by omega)
  have small : (second &&& 0x7f).toNat < 128 := by
    rw [UInt8.toNat_and]
    exact Nat.lt_of_le_of_lt Nat.and_le_right (by decide)
  obtain ⟨lengths?, isLength, valid⟩ :
      ∃ lengths?, readLength buffer (second &&& 0x7f).toNat = .ok lengths? ∧ _ :=
    readLength_valid small
  exact ⟨flags, second, lengths?, isFlags, isSecond, isLength, valid⟩

theorem readHeader_valid {buffer : Bytes} (arrived : 2 ≤ buffer.length) :
    ∃ header?, readHeader buffer = .ok header? ∧ ∀ header ∈ header?, header.Valid := by
  obtain ⟨flags, second, lengths?, isFlags, isSecond, isLength, valid⟩ := readHeader_lengths arrived
  refine ⟨_, readHeader_eq isFlags isSecond isLength, ?_⟩
  intro header isHeader
  obtain ⟨lengths, isLengths, rfl⟩ := Option.map_eq_some_iff.mp isHeader
  obtain ⟨fits, long, short⟩ := valid lengths isLengths
  refine ⟨fits, ?_, ?_⟩
  · dsimp only [FrameHeader.ofLengths]
    split <;> omega
  · intro hasMask
    dsimp only [FrameHeader.ofLengths] at hasMask ⊢
    rw [if_pos hasMask]
    omega

theorem readHeader_append {buffer : Bytes} {header : FrameHeader} (arrived : 2 ≤ buffer.length)
    (found : readHeader buffer = .ok (some header)) (more : Bytes) :
    readHeader (buffer ++ more) = .ok (some header) := by
  obtain ⟨flags, second, lengths?, isFlags, isSecond, isLength, -⟩ := readHeader_lengths arrived
  rw [readHeader_eq isFlags isSecond isLength] at found
  cases lengths? with
  | none => cases found
  | some lengths =>
      rw [readHeader_eq (byteAt_append isFlags more) (byteAt_append isSecond more)
        (readLength_append isLength more)]
      exact found

theorem byteAt_head {bytes : Bytes} {byte : UInt8} (found : byteAt bytes 0 = .ok byte) :
    bytes.headD 0 = byte := by
  cases bytes with
  | nil => cases found
  | cons first rest =>
      cases found
      rfl

theorem readHeader_flags {buffer : Bytes} {header : FrameHeader} {flags : UInt8}
    (arrived : 2 ≤ buffer.length) (isFlags : byteAt buffer 0 = .ok flags)
    (isHeader : readHeader buffer = .ok (some header)) : header.flags = flags := by
  obtain ⟨other, second, lengths?, isOther, isSecond, isLength, -⟩ := readHeader_lengths arrived
  cases isOther.symm.trans isFlags
  rw [readHeader_eq isFlags isSecond isLength] at isHeader
  cases lengths? with
  | none => cases isHeader
  | some lengths =>
      cases isHeader
      rfl

def frontFrame (buffer : Bytes) : Option FrameHeader :=
  match readHeader buffer with
  | .ok (some header) => if header.frameLen ≤ buffer.length then some header else none
  | _ => none

theorem frontFrame_some {buffer : Bytes} {header : FrameHeader}
    (found : frontFrame buffer = some header) :
    readHeader buffer = .ok (some header) ∧ 2 ≤ buffer.length ∧
      header.frameLen ≤ buffer.length ∧ header.Valid := by
  unfold frontFrame at found
  split at found
  · next other isHeader =>
      split at found
      · next arrived =>
          cases found
          have long : 2 ≤ buffer.length := by
            by_contra short
            match buffer with
            | [] => cases isHeader
            | [_] => cases isHeader
            | _ :: _ :: _ => exact short (Nat.le_add_left _ _)
          obtain ⟨header?, isOther, valid⟩ := readHeader_valid long
          cases isOther.symm.trans isHeader
          exact ⟨isHeader, long, arrived, valid header rfl⟩
      · cases found
  · cases found

theorem frontFrame_append {buffer : Bytes} {header : FrameHeader}
    (found : frontFrame buffer = some header) (more : Bytes) :
    frontFrame (buffer ++ more) = some header := by
  obtain ⟨isHeader, long, arrived, -⟩ := frontFrame_some found
  rw [frontFrame, readHeader_append long isHeader more]
  refine if_pos ?_
  rw [List.length_append]
  omega

/-!
## Payloads
-/

namespace FrameHeader

variable (header : FrameHeader)

def payload (buffer : Bytes) : Bytes :=
  let data := (buffer.drop header.headerLen).take header.payloadLen
  if header.hasMask then applyMask ((buffer.drop (header.headerLen - 4)).take 4) data else data

/-- The size of what is collected wraps around to a size that a vector can have. -/
def Wraps (collected : Bytes) : Prop :=
  header.hasMask = true ∧ sizeModulus ≤ collected.length + header.payloadLen ∧
    (collected.length + header.payloadLen) % sizeModulus ≤ maxSize

instance (collected : Bytes) : Decidable (header.Wraps collected) :=
  inferInstanceAs (Decidable (_ ∧ _ ∧ _))

variable {header}

theorem Valid.frameLen_eq (valid : header.Valid) (fits : header.payloadLen ≤ maxSize) :
    header.frameLen = header.headerLen + header.payloadLen := by
  have short := valid.headerLen.2
  rw [frameLen, Nat.add_comm]
  refine Nat.mod_eq_of_lt ?_
  unfold maxSize at fits
  unfold sizeModulus
  omega

theorem payload_append {buffer : Bytes}
    (arrived : header.headerLen + header.payloadLen ≤ buffer.length)
    (mask : header.hasMask = true → 4 ≤ header.headerLen) (more : Bytes) :
    header.payload (buffer ++ more) = header.payload buffer := by
  have sameSlice : ∀ start count, start + count ≤ buffer.length →
      ((buffer ++ more).drop start).take count = (buffer.drop start).take count := by
    intro start count within
    rw [List.drop_append_of_le_length (by omega),
      List.take_append_of_le_length (by rw [List.length_drop]; omega)]
  unfold payload
  rw [sameSlice _ _ arrived]
  split
  · next hasMask =>
      have long := mask hasMask
      rw [sameSlice _ _ (by omega)]
  · rfl

end FrameHeader

/-- What is read of a frame that has arrived lies within it, or the size wraps around. -/
theorem readPayload_eq {buffer : Bytes} {header : FrameHeader} (valid : header.Valid)
    (arrived : header.frameLen ≤ buffer.length) (collected : Bytes) :
    readPayload buffer header collected =
      if header.payloadLen = 0 then .ok collected
      else if header.Wraps collected then .error .outOfBounds
      else if maxSize < collected.length + header.payloadLen then .error .lengthError
      else .ok (collected ++ header.payload buffer) := by
  have small : maxSize < sizeModulus := by decide
  unfold readPayload FrameHeader.Wraps FrameHeader.payload
  split
  · rfl
  · next notEmpty =>
      by_cases hasMask : header.hasMask = true
      · simp only [hasMask, if_true, true_and]
        generalize total : collected.length + header.payloadLen = size
        by_cases wraps : sizeModulus ≤ size
        · have shorter : size % sizeModulus < size :=
            Nat.lt_of_lt_of_le (Nat.mod_lt _ (by decide)) wraps
          rw [if_pos shorter]
          by_cases allowed : size % sizeModulus ≤ maxSize
          · rw [if_neg (by omega), if_pos ⟨wraps, allowed⟩]
          · rw [if_pos (by omega), if_neg (fun both => allowed both.2), if_pos (by omega)]
        · rw [Nat.mod_eq_of_lt (by omega), if_neg (fun both : _ ∧ _ => wraps both.1)]
          split
          · rfl
          · next fits =>
              have within := valid.frameLen_eq (by omega) ▸ arrived
              have long := valid.mask hasMask
              rw [if_neg (Nat.lt_irrefl _), slice, slice, if_pos (by omega), if_pos within]
              rfl
      · simp only [Bool.not_eq_true] at hasMask
        simp only [hasMask, Bool.false_eq_true, if_false, false_and]
        by_cases fits : maxSize < collected.length + header.payloadLen
        · rw [if_pos fits, if_pos (by omega)]
        · have within := valid.frameLen_eq (by omega) ▸ arrived
          rw [if_neg fits, if_neg (by omega), slice, if_pos within]
          rfl

theorem readPayload_fits {buffer collected payload : Bytes} {header : FrameHeader}
    (valid : header.Valid) (arrived : header.frameLen ≤ buffer.length)
    (read : readPayload buffer header collected = .ok payload) : header.payloadLen ≤ maxSize := by
  rw [readPayload_eq valid arrived] at read
  split at read
  · omega
  · split at read
    · cases read
    · split at read
      · cases read
      · omega

theorem FrameHeader.payload_length {header : FrameHeader} {buffer : Bytes}
    (arrived : header.headerLen + header.payloadLen ≤ buffer.length) :
    (header.payload buffer).length = header.payloadLen := by
  have dataLength :
      ((buffer.drop header.headerLen).take header.payloadLen).length = header.payloadLen := by
    rw [List.length_take, List.length_drop]
    omega
  unfold payload applyMask
  split
  · rw [List.length_mapIdx, dataLength]
  · exact dataLength

theorem readPayload_control {buffer : Bytes} {header : FrameHeader} (valid : header.Valid)
    (arrived : header.frameLen ≤ buffer.length) :
    (maxSize < header.payloadLen ∧ readPayload buffer header [] = .error .lengthError) ∨
      ∃ ctrlPayload, readPayload buffer header [] = .ok ctrlPayload ∧
        ctrlPayload.length = header.payloadLen := by
  have notWraps : ¬ header.Wraps [] := by
    rintro ⟨-, wraps, -⟩
    have small := valid.payloadLen
    rw [List.length_nil] at wraps
    omega
  rw [readPayload_eq valid arrived, if_neg notWraps, List.length_nil, List.nil_append, Nat.zero_add]
  by_cases empty : header.payloadLen = 0
  · right
    rw [if_pos empty, empty]
    exact ⟨[], rfl, rfl⟩
  · rw [if_neg empty]
    by_cases fits : header.payloadLen ≤ maxSize
    · right
      rw [if_neg (by omega)]
      exact ⟨_, rfl, FrameHeader.payload_length (valid.frameLen_eq fits ▸ arrived)⟩
    · left
      rw [if_pos (by omega)]
      exact ⟨by omega, rfl⟩

theorem eraseFirst_eq {buffer : Bytes} {count : Nat} (arrived : count ≤ buffer.length) :
    eraseFirst buffer count = .ok (buffer.drop count) :=
  if_pos arrived

private theorem readPayload_append {buffer : Bytes} {header : FrameHeader} (valid : header.Valid)
    (arrived : header.frameLen ≤ buffer.length) (collected more : Bytes) :
    readPayload (buffer ++ more) header collected = readPayload buffer header collected := by
  have longer : header.frameLen ≤ (buffer ++ more).length := by
    rw [List.length_append]
    omega
  rw [readPayload_eq valid arrived, readPayload_eq valid longer]
  split
  · rfl
  · split
    · rfl
    · split
      · rfl
      · next fits =>
          have within := valid.frameLen_eq (by omega) ▸ arrived
          rw [FrameHeader.payload_append within valid.mask]

/-!
## The handler
-/

namespace WebSocketHandler

variable (handler : WebSocketHandler)

/-- Within a fragmented message come continuations, and only there. -/
def InPlace (header : FrameHeader) : Prop :=
  handler.inFragmentBlock = true ↔ header.code = WSOpCode.continuation

theorem handleDataFrame_misplaced {header : FrameHeader} (misplaced : ¬ handler.InPlace header)
    (buffer : Bytes) : handler.handleDataFrame buffer header = handler.protocolError := by
  unfold handleDataFrame
  unfold InPlace at misplaced
  split
  · rfl
  · next notNew =>
      rw [if_pos]
      simp only [Bool.and_eq_true, Bool.not_eq_true', decide_eq_true_eq] at notNew ⊢
      cases inFragment : handler.inFragmentBlock <;> simp_all

theorem handleDataFrame_inPlace {header : FrameHeader} (inPlace : handler.InPlace header)
    {buffer : Bytes} (arrived : header.frameLen ≤ buffer.length) :
    handler.handleDataFrame buffer header =
      match readPayload buffer header handler.wsPayload with
      | .error fault => .stop (.error fault)
      | .ok payload =>
          .advance (handler.takeDataFrame header.fin payload) (buffer.drop header.frameLen) := by
  unfold InPlace at inPlace
  have notNew : ¬ (handler.inFragmentBlock && header.code ≠ WSOpCode.continuation) = true := by
    simp [← inPlace]
  have notLater : ¬ (!handler.inFragmentBlock && header.code = WSOpCode.continuation) = true := by
    simp [← inPlace]
  unfold handleDataFrame
  rw [if_neg notNew, if_neg notLater]
  cases readPayload buffer header handler.wsPayload with
  | error fault => rfl
  | ok payload => simp only [eraseFirst_eq arrived]

private theorem handleControlFrame_append {buffer : Bytes} {header : FrameHeader}
    (valid : header.Valid) (arrived : header.frameLen ≤ buffer.length) (more : Bytes) :
    handler.handleControlFrame (buffer ++ more) header =
      (handler.handleControlFrame buffer header).append more := by
  have longer : header.frameLen ≤ (buffer ++ more).length := by
    rw [List.length_append]
    omega
  unfold handleControlFrame
  rw [readPayload_append valid arrived, eraseFirst_eq arrived, eraseFirst_eq longer,
    List.drop_append_of_le_length arrived]
  cases readPayload buffer header [] with
  | error fault => rfl
  | ok ctrlPayload =>
      dsimp only
      repeat' split
      all_goals rfl

private theorem handleDataFrame_append {buffer : Bytes} {header : FrameHeader}
    (valid : header.Valid) (arrived : header.frameLen ≤ buffer.length) (more : Bytes) :
    handler.handleDataFrame (buffer ++ more) header =
      (handler.handleDataFrame buffer header).append more := by
  have longer : header.frameLen ≤ (buffer ++ more).length := by
    rw [List.length_append]
    omega
  by_cases inPlace : handler.InPlace header
  · rw [handler.handleDataFrame_inPlace inPlace arrived,
      handler.handleDataFrame_inPlace inPlace longer, readPayload_append valid arrived,
      List.drop_append_of_le_length arrived]
    cases readPayload buffer header handler.wsPayload <;> rfl
  · rw [handler.handleDataFrame_misplaced inPlace, handler.handleDataFrame_misplaced inPlace]
    rfl

theorem handleFrame_append {buffer : Bytes} {header : FrameHeader}
    (valid : header.Valid) (arrived : header.frameLen ≤ buffer.length) (more : Bytes) :
    handler.handleFrame (buffer ++ more) header =
      (handler.handleFrame buffer header).append more := by
  unfold handleFrame
  split
  · rfl
  · split
    · exact handler.handleControlFrame_append valid arrived more
    · exact handler.handleDataFrame_append valid arrived more

private theorem handleFrame_ne_wait (buffer : Bytes) (header : FrameHeader)
    (next : WebSocketHandler) : handler.handleFrame buffer header ≠ .wait next := by
  unfold handleFrame handleControlFrame handleDataFrame protocolError
  intro waits
  repeat' split at waits
  all_goals cases waits

private theorem handleControlFrame_advance {buffer rest : Bytes} {header : FrameHeader}
    {next : WebSocketHandler} (arrived : header.frameLen ≤ buffer.length)
    (progress : handler.handleControlFrame buffer header = .advance next rest) :
    (∃ ctrlPayload, readPayload buffer header [] = .ok ctrlPayload) ∧
      buffer.drop header.frameLen = rest := by
  unfold handleControlFrame at progress
  rw [eraseFirst_eq arrived] at progress
  cases isPayload : readPayload buffer header [] with
  | error fault =>
      rw [isPayload] at progress
      cases progress
  | ok ctrlPayload =>
      rw [isPayload] at progress
      dsimp only [protocolError] at progress
      refine ⟨⟨ctrlPayload, rfl⟩, ?_⟩
      repeat' split at progress
      all_goals cases progress
      all_goals rfl

private theorem handleDataFrame_advance {buffer rest : Bytes} {header : FrameHeader}
    {next : WebSocketHandler} (arrived : header.frameLen ≤ buffer.length)
    (progress : handler.handleDataFrame buffer header = .advance next rest) :
    (∃ payload, readPayload buffer header handler.wsPayload = .ok payload) ∧
      buffer.drop header.frameLen = rest := by
  by_cases inPlace : handler.InPlace header
  · rw [handler.handleDataFrame_inPlace inPlace arrived] at progress
    cases isPayload : readPayload buffer header handler.wsPayload with
    | error fault =>
        rw [isPayload] at progress
        cases progress
    | ok payload =>
        rw [isPayload] at progress
        cases progress
        exact ⟨⟨payload, rfl⟩, rfl⟩
  · rw [handler.handleDataFrame_misplaced inPlace] at progress
    cases progress

/-- A frame that is taken off has not wrapped around to nothing. -/
private theorem handleFrame_shrinks {buffer rest : Bytes} {header : FrameHeader}
    {next : WebSocketHandler} (arrived : frontFrame buffer = some header)
    (progress : handler.handleFrame buffer header = .advance next rest) :
    rest.length < buffer.length := by
  obtain ⟨-, -, arrived, valid⟩ := frontFrame_some arrived
  have taken : (∃ collected payload, readPayload buffer header collected = .ok payload) ∧
      buffer.drop header.frameLen = rest := by
    unfold handleFrame protocolError at progress
    split at progress
    · cases progress
    · split at progress
      · obtain ⟨isPayload, isRest⟩ := handler.handleControlFrame_advance arrived progress
        exact ⟨⟨[], isPayload⟩, isRest⟩
      · obtain ⟨isPayload, isRest⟩ := handler.handleDataFrame_advance arrived progress
        exact ⟨⟨_, isPayload⟩, isRest⟩
  obtain ⟨⟨collected, payload, isPayload⟩, isRest⟩ := taken
  have isLength := valid.frameLen_eq (readPayload_fits valid arrived isPayload)
  have long := valid.headerLen.1
  rw [← isRest, List.length_drop]
  omega

theorem handleTCPStream_wait {buffer : Bytes} (notArrived : frontFrame buffer = none) :
    handler.handleTCPStream buffer =
      .wait { handler with
        lastFlags := if buffer.length < 2 then handler.lastFlags else buffer.headD 0 } := by
  unfold handleTCPStream
  split
  · rfl
  · next long =>
      obtain ⟨flags, isFlags⟩ : ∃ byte, byteAt buffer 0 = .ok byte := byteAt_ok (by omega)
      have arrived : 2 ≤ buffer.length := Nat.not_lt.mp long
      obtain ⟨header?, isHeader, -⟩ := readHeader_valid arrived
      have isHead : buffer.headD 0 = flags := byteAt_head isFlags
      rw [isFlags, isHeader, isHead]
      cases header? with
      | none => rfl
      | some header =>
          rw [frontFrame, isHeader] at notArrived
          dsimp only at notArrived ⊢
          split at notArrived
          · cases notArrived
          · next short => rw [if_pos (by omega)]

theorem handleTCPStream_frame {buffer : Bytes} {header : FrameHeader}
    (arrived : frontFrame buffer = some header) :
    handler.handleTCPStream buffer =
      { handler with lastFlags := header.flags }.handleFrame buffer header := by
  obtain ⟨isHeader, long, arrived⟩ := frontFrame_some arrived
  obtain ⟨flags, isFlags⟩ : ∃ byte, byteAt buffer 0 = .ok byte := byteAt_ok (by omega)
  rw [handleTCPStream, if_neg (by omega), isFlags, isHeader, readHeader_flags long isFlags isHeader]
  exact if_neg (by omega)

theorem handleTCPStream_append {buffer : Bytes} {header : FrameHeader}
    (arrived : frontFrame buffer = some header) (more : Bytes) :
    handler.handleTCPStream (buffer ++ more) = (handler.handleTCPStream buffer).append more := by
  obtain ⟨-, -, within, valid⟩ := frontFrame_some arrived
  rw [handler.handleTCPStream_frame arrived,
    handler.handleTCPStream_frame (frontFrame_append arrived more),
    handleFrame_append _ valid within]

private theorem handleFrame_handled {buffer rest : Bytes} {header : FrameHeader}
    {next : WebSocketHandler}
    (progress : handler.handleFrame buffer header = .advance next rest) :
    handler.handled <+: next.handled := by
  unfold handleFrame handleControlFrame handleDataFrame protocolError at progress
  repeat' split at progress
  all_goals cases progress
  · exact List.prefix_refl _
  · unfold sendPong
    split
    · exact List.prefix_refl _
    · exact List.prefix_refl _
  · unfold takeDataFrame
    split
    · exact List.prefix_append _ _
    · exact List.prefix_refl _

theorem handleTCPStream_handled {buffer rest : Bytes} {next : WebSocketHandler}
    (progress : handler.handleTCPStream buffer = .advance next rest) :
    handler.handled <+: next.handled := by
  cases arrived : frontFrame buffer with
  | none =>
      rw [handler.handleTCPStream_wait arrived] at progress
      cases progress
  | some header =>
      rw [handler.handleTCPStream_frame arrived] at progress
      exact handleFrame_handled { handler with lastFlags := header.flags } progress

theorem handleTCPStream_incremental : Incremental handleTCPStream where
  empty _ := rfl
  shrinks := by
    intro handler buffer next rest progress
    cases arrived : frontFrame buffer with
    | none =>
        rw [handler.handleTCPStream_wait arrived] at progress
        cases progress
    | some header =>
        rw [handler.handleTCPStream_frame arrived] at progress
        exact handleFrame_shrinks _ arrived progress
  advance := by
    intro handler buffer next rest progress more
    cases arrived : frontFrame buffer with
    | none =>
        rw [handler.handleTCPStream_wait arrived] at progress
        cases progress
    | some header =>
        rw [handler.handleTCPStream_append arrived, progress]
        rfl
  stop := by
    intro handler buffer result progress more
    cases arrived : frontFrame buffer with
    | none =>
        rw [handler.handleTCPStream_wait arrived] at progress
        cases progress
    | some header =>
        rw [handler.handleTCPStream_append arrived, progress]
        rfl
  wait := by
    intro handler buffer next progress more
    cases arrived : frontFrame buffer with
    | some header =>
        rw [handler.handleTCPStream_frame arrived] at progress
        exact absurd progress (handleFrame_ne_wait _ _ _ _)
    | none =>
        rw [handler.handleTCPStream_wait arrived] at progress
        cases progress
        -- Only the flags have changed, and these are set again once there are two bytes.
        cases later : frontFrame (buffer ++ more) with
        | some header => rw [handleTCPStream_frame _ later, handleTCPStream_frame _ later]
        | none =>
            rw [handleTCPStream_wait _ later, handleTCPStream_wait _ later]
            by_cases short : (buffer ++ more).length < 2
            · have shorter : buffer.length < 2 := by
                rw [List.length_append] at short
                omega
              simp only [if_pos short, if_pos shorter]
            · simp only [if_neg short]

theorem drain_handled {last : WebSocketHandler} {buffer rest : Bytes}
    (drained : drain handleTCPStream handler buffer = .running last rest) :
    handler.handled <+: last.handled := by
  have kept : (drain handleTCPStream handler buffer).Satisfies
      (fun next => handler.handled <+: next.handled) fun _ => True := by
    refine satisfies_drain ?_ ?_ ?_ ?_ buffer
    · intro state buffer next progress earlier
      cases arrived : frontFrame buffer with
      | none =>
          rw [state.handleTCPStream_wait arrived] at progress
          cases progress
          exact earlier
      | some header =>
          rw [state.handleTCPStream_frame arrived] at progress
          exact absurd progress (handleFrame_ne_wait _ _ _ _)
    · intro state buffer next rest progress earlier
      exact earlier.trans (state.handleTCPStream_handled progress)
    · exact fun _ _ => trivial
    · exact List.prefix_refl _
  rw [drained] at kept
  exact kept

end WebSocketHandler

end FreeOnline.Net
