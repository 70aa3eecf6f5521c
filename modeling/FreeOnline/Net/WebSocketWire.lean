import FreeOnline.Net.WebSocketFrame

/-!
# Frames on the wire

The frames that a peer may send, with any mask and any of the forms of the length
that the payload fits into, and what the handler does with one of them.
-/

set_option autoImplicit false

namespace FreeOnline.Net

open FreeOnline.Library

/-!
## Lengths and masks
-/

def bigEndianBytes : Nat → Nat → Bytes
  | 0, _ => []
  | count + 1, value => bigEndianBytes count (value >>> 8) ++ [value.toUInt8]

@[simp]
theorem bigEndianBytes_length (count value : Nat) : (bigEndianBytes count value).length = count := by
  induction count generalizing value with
  | zero => rfl
  | succ count ih => rw [bigEndianBytes, List.length_append, ih, List.length_singleton]

theorem bigEndian_bigEndianBytes {count value : Nat} (fits : value < 256 ^ count) :
    bigEndian (bigEndianBytes count value) = value := by
  induction count generalizing value with
  | zero =>
      have zero : value = 0 := by simpa using fits
      rw [zero]
      rfl
  | succ count ih =>
      have shifted : value >>> 8 = value / 256 := Nat.shiftRight_eq_div_pow value 8
      have lowByte : value.toUInt8.toNat = value % 256 := rfl
      rw [bigEndianBytes, bigEndian_concat, shifted, lowByte, ih]
      · omega
      · rw [Nat.pow_succ] at fits
        exact Nat.div_lt_of_lt_mul (by omega)

@[simp]
theorem applyMask_length (mask data : Bytes) : (applyMask mask data).length = data.length := by
  rw [applyMask, List.length_mapIdx]

theorem applyMask_applyMask (mask data : Bytes) : applyMask mask (applyMask mask data) = data := by
  refine List.ext_getElem? fun i => ?_
  simp only [applyMask, List.getElem?_mapIdx]
  cases data[i]? with
  | none => rfl
  | some byte =>
      simp only [Option.map_some]
      rw [UInt8.xor_assoc, UInt8.xor_self, UInt8.xor_zero]

abbrev Mask := { bytes : Bytes // bytes.length = 4 }

/-- The forms of the length in a header, by the bits that they have for it. The highest
of 64 bits is not used. -/
inductive LengthForm where
  | seven
  | sixteen
  | sixtyFour
deriving DecidableEq

namespace LengthForm

def code (form : LengthForm) (len : Nat) : Nat :=
  match form with
  | .seven => len
  | .sixteen => 126
  | .sixtyFour => 127

def byteCount : LengthForm → Nat
  | .seven => 0
  | .sixteen => 2
  | .sixtyFour => 8

def bound : LengthForm → Nat
  | .seven => 126
  | .sixteen => 2 ^ 16
  | .sixtyFour => maxSize + 1

theorem code_lt {form : LengthForm} {len : Nat} (fits : len < form.bound) : form.code len < 128 := by
  cases form with
  | seven => exact Nat.lt_trans fits (by decide)
  | sixteen => exact (by decide : 126 < 128)
  | sixtyFour => exact (by decide : 127 < 128)

theorem le_maxSize {form : LengthForm} {len : Nat} (fits : len < form.bound) : len ≤ maxSize := by
  cases form with
  | seven => exact Nat.le_of_lt (Nat.lt_trans fits (by decide))
  | sixteen => exact Nat.le_of_lt (Nat.lt_trans fits (by decide))
  | sixtyFour => exact Nat.le_of_lt_succ fits

theorem readLength_eq {form : LengthForm} {len : Nat} (fits : len < form.bound)
    (flags second : UInt8) (rest : Bytes) :
    readLength (flags :: second :: (bigEndianBytes form.byteCount len ++ rest)) (form.code len) =
      .ok (some (len, 2 + form.byteCount)) := by
  have field : ∀ count, len < 256 ^ count →
      slice (flags :: second :: (bigEndianBytes count len ++ rest)) 2 count =
        .ok (bigEndianBytes count len) := by
    intro count _
    rw [slice, if_pos]
    · simp
    · simp
      omega
  cases form with
  | seven =>
      have small : len < 126 := fits
      rw [readLength, code, if_neg (by omega), if_neg (by omega)]
      rfl
  | sixteen =>
      have small : len < 256 ^ 2 := fits
      rw [readLength, code, byteCount, if_pos rfl, if_neg (by simp), field 2 small]
      simp only [bind, Except.bind, pure, Except.pure, bigEndian_bigEndianBytes small]
  | sixtyFour =>
      have small : len < 256 ^ 8 := Nat.lt_of_lt_of_le fits (by decide)
      rw [readLength, code, byteCount, if_neg (by decide), if_pos rfl, if_neg (by simp),
        field 8 small]
      simp only [bind, Except.bind, pure, Except.pure, bigEndian_bigEndianBytes small]

end LengthForm

/-!
## Frames
-/

/-- A frame for a client or for a server. Clients get no masked frames. -/
structure Frame (isClient : Bool) where
  flags : UInt8
  mask : Option Mask
  form : LengthForm
  payload : Bytes
  fits : payload.length < form.bound
  unmasked : isClient = true → mask = none

namespace Frame

variable {isClient : Bool} (frame : Frame isClient)

def maskBytes : Bytes := (frame.mask.map Subtype.val).getD []

def wirePayload : Bytes :=
  match frame.mask with
  | some mask => applyMask mask.val frame.payload
  | none => frame.payload

def second : UInt8 :=
  (frame.form.code frame.payload.length).toUInt8 ||| if frame.mask.isSome then 0x80 else 0

def bytes : Bytes :=
  frame.flags :: frame.second ::
    (bigEndianBytes frame.form.byteCount frame.payload.length ++
      (frame.maskBytes ++ frame.wirePayload))

def header : FrameHeader where
  flags := frame.flags
  hasMask := frame.mask.isSome
  payloadLen := frame.payload.length
  headerLen := 2 + frame.form.byteCount + if frame.mask.isSome then 4 else 0

theorem maskBytes_length : frame.maskBytes.length = if frame.mask.isSome then 4 else 0 := by
  unfold maskBytes
  cases frame.mask with
  | none => rfl
  | some mask => exact mask.property

theorem wirePayload_length : frame.wirePayload.length = frame.payload.length := by
  unfold wirePayload
  cases frame.mask with
  | none => rfl
  | some mask => exact applyMask_length _ _

theorem bytes_length : frame.bytes.length = frame.header.headerLen + frame.payload.length := by
  simp only [bytes, header, List.length_cons, List.length_append, bigEndianBytes_length,
    maskBytes_length, wirePayload_length]
  omega

private theorem second_bits : ∀ code, code < 128 → ∀ hasMask : Bool,
    ((code.toUInt8 ||| if hasMask then 0x80 else 0) &&& 0x7f).toNat = code ∧
      decide ((code.toUInt8 ||| if hasMask then 0x80 else 0) &&& 0x80 ≠ 0) = hasMask := by
  decide +kernel

theorem second_code :
    (frame.second &&& 0x7f).toNat = frame.form.code frame.payload.length :=
  (second_bits _ (LengthForm.code_lt frame.fits) frame.mask.isSome).1

theorem second_mask : decide (frame.second &&& 0x80 ≠ 0) = frame.mask.isSome :=
  (second_bits _ (LengthForm.code_lt frame.fits) frame.mask.isSome).2

theorem readHeader_front (rest : Bytes) :
    readHeader (frame.flags :: frame.second ::
      (bigEndianBytes frame.form.byteCount frame.payload.length ++ rest)) =
      .ok (some frame.header) := by
  have isLength := LengthForm.readLength_eq frame.fits frame.flags frame.second rest
  rw [← frame.second_code] at isLength
  rw [readHeader_eq rfl rfl isLength, Option.map_some, FrameHeader.ofLengths, frame.second_mask]
  rfl

theorem readHeader_bytes : readHeader frame.bytes = .ok (some frame.header) :=
  frame.readHeader_front _

theorem payload_bytes : frame.header.payload frame.bytes = frame.payload := by
  have wire : frame.bytes.drop frame.header.headerLen = frame.wirePayload := by
    have split : frame.bytes =
        (frame.flags :: frame.second ::
          (bigEndianBytes frame.form.byteCount frame.payload.length ++ frame.maskBytes)) ++
          frame.wirePayload := by
      simp [bytes]
    rw [split]
    refine List.drop_left' ?_
    simp only [header, List.length_cons, List.length_append, bigEndianBytes_length,
      maskBytes_length]
    omega
  have whole : frame.wirePayload.take frame.payload.length = frame.wirePayload :=
    List.take_of_length_le (Nat.le_of_eq frame.wirePayload_length)
  unfold FrameHeader.payload
  rw [wire]
  dsimp only [header]
  rw [whole]
  obtain hasMask | ⟨mask, hasMask⟩ := Option.eq_none_or_eq_some frame.mask
  · simp [wirePayload, hasMask]
  · have isMask : (frame.bytes.drop (2 + frame.form.byteCount)).take 4 = mask.val := by
      have split : frame.bytes =
          (frame.flags :: frame.second ::
            bigEndianBytes frame.form.byteCount frame.payload.length) ++
            (mask.val ++ frame.wirePayload) := by
        simp [bytes, maskBytes, hasMask]
      rw [split, List.drop_left' (by simp; omega), List.take_left' mask.property]
    simp [hasMask, isMask, wirePayload, applyMask_applyMask]

theorem frontFrame_bytes :
    frontFrame frame.bytes = some frame.header ∧ frame.header.Valid ∧
      frame.header.frameLen = frame.bytes.length := by
  have long : 2 ≤ frame.bytes.length := Nat.le_add_left _ _
  obtain ⟨header?, isHeader, valid⟩ := readHeader_valid long
  cases isHeader.symm.trans frame.readHeader_bytes
  have isLength : frame.header.frameLen = frame.bytes.length :=
    ((valid _ rfl).frameLen_eq (LengthForm.le_maxSize frame.fits)).trans frame.bytes_length.symm
  refine ⟨?_, valid _ rfl, isLength⟩
  rw [frontFrame, frame.readHeader_bytes]
  exact if_pos (Nat.le_of_eq isLength)

theorem payload_le : frame.payload.length ≤ maxSize := LengthForm.le_maxSize frame.fits

theorem readPayload_bytes {collected : Bytes}
    (fits : collected.length + frame.payload.length ≤ maxSize) :
    readPayload frame.bytes frame.header collected = .ok (collected ++ frame.payload) := by
  obtain ⟨-, valid, length⟩ := frame.frontFrame_bytes
  rw [readPayload_eq valid (Nat.le_of_eq length)]
  by_cases empty : frame.header.payloadLen = 0
  · have isEmpty : frame.payload = [] := List.eq_nil_of_length_eq_zero empty
    rw [if_pos empty, isEmpty, List.append_nil]
  · have notWraps : ¬ frame.header.Wraps collected := by
      rintro ⟨-, wraps, -⟩
      have small : maxSize < sizeModulus := by decide
      dsimp only [header] at wraps
      omega
    have small : ¬ maxSize < collected.length + frame.header.payloadLen := Nat.not_lt.mpr fits
    rw [if_neg empty, if_neg notWraps, if_neg small, frame.payload_bytes]

end Frame

/-!
## Taking in a frame
-/

namespace WebSocketHandler

/-- The messages that a handler has handled, and what it has collected of the next one. -/
structure Holds (handler : WebSocketHandler) (isClient : Bool) (collected : Option Bytes)
    (handled : List Bytes) : Prop where
  isClient : handler.isClient = isClient
  notShuttingDown : handler.shuttingDown = false
  inFragmentBlock : handler.inFragmentBlock = collected.isSome
  wsPayload : handler.wsPayload = collected.getD []
  handled : handler.handled = handled

theorem create_holds (isClient : Bool) : (create isClient).Holds isClient none [] :=
  ⟨rfl, rfl, rfl, rfl, rfl⟩

variable {isClient : Bool} {handler : WebSocketHandler} {collected : Option Bytes}
  {handled : List Bytes}

theorem Holds.lastFlags (holds : handler.Holds isClient collected handled) (flags : UInt8) :
    { handler with lastFlags := flags }.Holds isClient collected handled :=
  ⟨holds.1, holds.2, holds.3, holds.4, holds.5⟩

def HoldsAfter (handler : WebSocketHandler) (isClient fin : Bool) (payload : Bytes)
    (handled : List Bytes) : Prop :=
  if fin then handler.Holds isClient none (handled ++ [payload])
  else handler.Holds isClient (some payload) handled

end WebSocketHandler

namespace Frame

open WebSocketHandler

variable {isClient : Bool} {handler : WebSocketHandler} {collected : Option Bytes}
  {handled : List Bytes} {frame : Frame isClient}

structure IsPingPong (frame : Frame isClient) : Prop where
  fin : frame.header.fin = true
  code : frame.header.code = WSOpCode.ping ∨ frame.header.code = WSOpCode.pong
  small : frame.payload.length ≤ 125

private theorem not_refused (sameSide : handler.isClient = isClient) :
    ¬ (frame.header.hasMask && handler.isClient) = true := by
  rw [Bool.and_eq_true, sameSide]
  rintro ⟨hasMask, client⟩
  have unmasked := frame.unmasked client
  dsimp only [header] at hasMask
  rw [unmasked] at hasMask
  cases hasMask

theorem handleTCPStream_pingPong (sameSide : handler.isClient = isClient)
    (isPingPong : frame.IsPingPong) :
    ∃ replies, handler.handleTCPStream frame.bytes =
      .advance { handler with lastFlags := frame.flags, replies := replies } [] := by
  obtain ⟨front, valid, length⟩ := frame.frontFrame_bytes
  have isControl : isControlFrame frame.header.code = true := by
    obtain isPing | isPong := isPingPong.code
    · rw [isPing]
      rfl
    · rw [isPong]
      rfl
  have small : ¬ 125 < frame.header.payloadLen := Nat.not_lt.mpr isPingPong.small
  rw [handler.handleTCPStream_frame front, handleFrame, if_neg (not_refused sameSide),
    if_pos isControl, handleControlFrame, frame.readPayload_bytes (by simpa using frame.payload_le),
    eraseFirst_eq (Nat.le_of_eq length), length, List.drop_length]
  dsimp only
  rw [if_neg (by simp [isPingPong.fin]), if_neg small]
  split
  · exact ⟨_, rfl⟩
  · next notPong =>
      rw [if_pos (isPingPong.code.resolve_right notPong), sendPong]
      split
      · exact ⟨_, rfl⟩
      · exact ⟨_, rfl⟩

theorem consumes_pingPong (holds : handler.Holds isClient collected handled)
    (isPingPong : frame.IsPingPong) :
    ∃ next, Consumes handleTCPStream handler frame.bytes next ∧
      next.Holds isClient collected handled := by
  obtain ⟨replies, progress⟩ := handleTCPStream_pingPong holds.isClient isPingPong
  exact ⟨_, handleTCPStream_incremental.consumes_of_advance progress,
    holds.1, holds.2, holds.3, holds.4, holds.5⟩

/-- A data frame in its place is added to what is collected, and the last one of a
message makes it handled. -/
theorem consumes_data (frame : Frame isClient) (holds : handler.Holds isClient collected handled)
    (isData : isControlFrame frame.header.code = false)
    (inPlace : collected.isSome = true ↔ frame.header.code = WSOpCode.continuation)
    (fits : (collected.getD []).length + frame.payload.length ≤ maxSize) :
    ∃ next, Consumes handleTCPStream handler frame.bytes next ∧
      next.HoldsAfter isClient frame.header.fin (collected.getD [] ++ frame.payload) handled := by
  obtain ⟨front, valid, length⟩ := frame.frontFrame_bytes
  have flagged := holds.lastFlags frame.header.flags
  have handlerInPlace :
      { handler with lastFlags := frame.header.flags }.InPlace frame.header := by
    unfold InPlace
    rw [flagged.inFragmentBlock]
    exact inPlace
  have progress : handler.handleTCPStream frame.bytes =
      .advance ({ handler with lastFlags := frame.header.flags }.takeDataFrame frame.header.fin
        (collected.getD [] ++ frame.payload)) [] := by
    rw [handler.handleTCPStream_frame front, handleFrame, if_neg (not_refused flagged.isClient),
      if_neg (by rw [isData]; decide), handleDataFrame_inPlace _ handlerInPlace (Nat.le_of_eq length),
      flagged.wsPayload, frame.readPayload_bytes fits, length, List.drop_length]
  refine ⟨_, handleTCPStream_incremental.consumes_of_advance progress, ?_⟩
  unfold takeDataFrame HoldsAfter
  split
  · exact ⟨holds.1, holds.2, rfl, rfl, congrArg (· ++ [_]) holds.handled⟩
  · exact ⟨holds.1, holds.2, rfl, rfl, holds.handled⟩

theorem stops_misplaced (frame : Frame isClient)
    (holds : handler.Holds isClient collected handled)
    (isData : isControlFrame frame.header.code = false)
    (misplaced : ¬ (collected.isSome = true ↔ frame.header.code = WSOpCode.continuation))
    (rest : Bytes) :
    ∃ last, drain handleTCPStream handler (frame.bytes ++ rest) = .stopped (.ok last) ∧
      last.handled = handled ∧
      last.replies = handler.replies ++ [.close StatusCodes.protocolError []] := by
  obtain ⟨front, valid, length⟩ := frame.frontFrame_bytes
  have flagged := holds.lastFlags frame.header.flags
  have handlerMisplaced :
      ¬ { handler with lastFlags := frame.header.flags }.InPlace frame.header := by
    unfold InPlace
    rw [flagged.inFragmentBlock]
    exact misplaced
  have progress : handler.handleTCPStream frame.bytes =
      protocolError { handler with lastFlags := frame.header.flags } := by
    rw [handler.handleTCPStream_frame front, handleFrame, if_neg (not_refused flagged.isClient),
      if_neg (by rw [isData]; decide), handleDataFrame_misplaced _ handlerMisplaced]
  refine ⟨_, Incremental.drain_stop (handleTCPStream_incremental.stop progress rest),
    holds.handled, ?_⟩
  dsimp only [shutdown]
  rw [if_neg (by rw [holds.notShuttingDown]; decide)]

end Frame

end FreeOnline.Net
