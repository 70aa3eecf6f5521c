import FreeOnline.Library.Hex
import FreeOnline.Library.Stream
import Mathlib.Data.List.Infix

/-!
# The proxy protocol of the server

Messages come in the bodies of posts, one frame after the other: a kind, a serial and a
length in hexadecimal, each on a line, then the content and a newline. The parser takes the
frames off the input buffer of the socket.
-/

set_option autoImplicit false

namespace FreeOnline.Wsd.ProxyProtocol

open FreeOnline.Library

abbrev Bytes := List UInt8

def newline : UInt8 := 0x0a

def IsKind (kind : UInt8) : Prop := kind = 0x54 ∨ kind = 0x42

instance (kind : UInt8) : Decidable (IsKind kind) := inferInstanceAs (Decidable (_ ∨ _))

/-!
## Writing
-/

/-- A number as `std::hex` writes it. -/
def hexBytes (n : Nat) : Bytes := (Hex.write n).map Nat.toUInt8

/-- The constructor of `Message`. -/
def message (msg : Bytes) (text : Bool) (serial : Nat) : Bytes :=
  (if text then 0x54 else 0x42) :: ([0x30, 0x78] ++ hexBytes serial ++ newline ::
    ([0x30, 0x78] ++ hexBytes msg.length ++ newline :: (msg ++ [newline])))

/-!
## Reading
-/

def isspace (code : Nat) : Bool := code = 32 || (9 ≤ code && code ≤ 13)

/-- In base 16, of a line that ends with the terminator that the parser puts there. -/
def strtoll (line : Bytes) : Int :=
  max (-2 ^ 63) (min (2 ^ 63 - 1) ((Hex.read isspace (line.map UInt8.toNat)).getD 0))

def uint64 (n : Int) : Nat := (n % 2 ^ 64).toNat

def numberOf (line : Bytes) : Nat := uint64 (strtoll line)

/-- The line in front and what is behind it, or none where no newline is left. -/
def readLine : Bytes → Option (Bytes × Bytes)
  | [] => none
  | byte :: bytes =>
      if byte = newline then some ([], bytes)
      else (readLine bytes).map fun (line, rest) => (byte :: line, rest)

structure ProxyProtocolHandler where
  inSerial : Nat
  /-- What `handleMessage` was called with. -/
  handled : List Bytes
deriving DecidableEq

def ProxyProtocolHandler.create : ProxyProtocolHandler := ⟨0, []⟩

inductive Fault where
  | outOfBounds
deriving DecidableEq

structure Parsed where
  result : Bool
  handler : ProxyProtocolHandler
  inBuffer : Bytes
deriving DecidableEq

/-- The rest of a round of the loop, behind the line with the length. -/
def readContent (handler : ProxyProtocolHandler) (serial len : Nat) (inBuffer : Bytes) :
    Progress ProxyProtocolHandler UInt8 (Except Fault Parsed) :=
  if inBuffer.length < len then .stop (.ok ⟨false, handler, inBuffer⟩)
  -- one byte more than the length is copied
  else if inBuffer.length < len + 1 then .stop (.error .outOfBounds)
  else
    let data := inBuffer.take (len + 1)
    let inBuffer := inBuffer.drop len
    if inBuffer.head? ≠ some newline then .stop (.ok ⟨false, handler, inBuffer⟩)
    else .advance ⟨serial, handler.handled ++ [data]⟩ (inBuffer.drop 1)

/-- One round of the loop. -/
def readFrame (handler : ProxyProtocolHandler) (inBuffer : Bytes) :
    Progress ProxyProtocolHandler UInt8 (Except Fault Parsed) :=
  match inBuffer with
  | [] => .wait handler
  | kind :: bytes =>
      if ¬ IsKind kind ∨ inBuffer.length < 2 then .stop (.ok ⟨false, handler, inBuffer⟩)
      else
        match readLine bytes with
        -- the terminator is written behind the buffer
        | none => .stop (.error .outOfBounds)
        | some (serial, bytes) =>
            if bytes.length < 2 then .stop (.ok ⟨false, handler, bytes⟩)
            else
              match readLine bytes with
              | none => .stop (.error .outOfBounds)
              | some (length, bytes) =>
                  readContent handler (numberOf serial) (numberOf length) bytes

def parseEmitIncoming (handler : ProxyProtocolHandler) (inBuffer : Bytes) : Except Fault Parsed :=
  match drain readFrame handler inBuffer with
  | .running handler inBuffer => .ok ⟨true, handler, inBuffer⟩
  | .stopped result => result

/-!
## Lines
-/

theorem readLine_line {line : Bytes} (isLine : newline ∉ line) (rest : Bytes) :
    readLine (line ++ newline :: rest) = some (line, rest) := by
  induction line with
  | nil => exact if_pos rfl
  | cons byte line ih =>
      obtain ⟨other, isRest⟩ := not_or.mp (mt List.mem_cons.mpr isLine)
      rw [List.cons_append, readLine, if_neg (Ne.symm other), ih isRest]
      rfl

theorem readLine_none {bytes : Bytes} : readLine bytes = none ↔ newline ∉ bytes := by
  induction bytes with
  | nil => simp [readLine]
  | cons byte bytes ih =>
      rw [readLine, List.mem_cons, not_or, ← ih]
      by_cases isEnd : byte = newline
      · simp [isEnd]
      · simp [isEnd, Ne.symm isEnd]

theorem readLine_some {bytes line rest : Bytes} (isRead : readLine bytes = some (line, rest)) :
    bytes = line ++ newline :: rest ∧ newline ∉ line := by
  induction bytes generalizing line with
  | nil => cases isRead
  | cons byte bytes ih =>
      rw [readLine] at isRead
      by_cases isEnd : byte = newline
      · rw [if_pos isEnd] at isRead
        cases isRead
        exact ⟨by rw [isEnd]; rfl, List.not_mem_nil⟩
      · rw [if_neg isEnd] at isRead
        obtain ⟨⟨front, behind⟩, isFront, isPair⟩ := Option.map_eq_some_iff.mp isRead
        cases isPair
        obtain ⟨rfl, isLine⟩ := ih isFront
        exact ⟨rfl, mt List.mem_cons.mp (not_or.mpr ⟨Ne.symm isEnd, isLine⟩)⟩

/-!
## Frames
-/

/-- A frame as the parser takes it, with the lines as they are. -/
structure Frame where
  kind : UInt8
  serial : Bytes
  length : Bytes
  payload : Bytes
  isKind : IsKind kind
  serialLine : newline ∉ serial
  lengthLine : newline ∉ length
  declared : numberOf length = payload.length

def Frame.bytes (frame : Frame) : Bytes :=
  frame.kind :: (frame.serial ++ newline :: (frame.length ++ newline ::
    (frame.payload ++ [newline])))

/-- What is copied for the message handler: the newline of the frame comes with it. -/
def Frame.data (frame : Frame) : Bytes := frame.payload ++ [newline]

/-- A frame in front of the buffer that makes the parser leave it: one of the two lines does
not end, or the content is there but not the newline behind it. -/
inductive Overruns : Bytes → Prop where
  | serial {kind : UInt8} {line : Bytes} : IsKind kind → line ≠ [] → newline ∉ line →
      Overruns (kind :: line)
  | length {kind : UInt8} {serial line : Bytes} : IsKind kind → newline ∉ serial →
      2 ≤ line.length → newline ∉ line → Overruns (kind :: (serial ++ newline :: line))
  | payload {kind : UInt8} {serial length payload : Bytes} : IsKind kind → newline ∉ serial →
      newline ∉ length → length ++ payload ≠ [] → numberOf length = payload.length →
      Overruns (kind :: (serial ++ newline :: (length ++ newline :: payload)))

/-- What happens to the content depends on what the length is next to it. -/
theorem readContent_cases (handler : ProxyProtocolHandler) (serial len : Nat) (bytes : Bytes) :
    (len ≠ bytes.length ∧ ∃ left, readContent handler serial len bytes =
        .stop (.ok ⟨false, handler, left⟩)) ∨
    (len = bytes.length ∧ readContent handler serial len bytes = .stop (.error .outOfBounds)) ∨
    ∃ payload rest, bytes = payload ++ newline :: rest ∧ len = payload.length ∧
      readContent handler serial len bytes =
        .advance ⟨serial, handler.handled ++ [payload ++ [newline]]⟩ rest := by
  unfold readContent
  by_cases short : bytes.length < len
  · rw [if_pos short]
    exact .inl ⟨by omega, bytes, rfl⟩
  · rw [if_neg short]
    by_cases exactly : bytes.length < len + 1
    · rw [if_pos exactly]
      exact .inr (.inl ⟨by omega, rfl⟩)
    · rw [if_neg exactly]
      dsimp only
      by_cases isEnd : (bytes.drop len).head? = some newline
      · rw [if_neg (not_not_intro isEnd)]
        obtain ⟨rest, isRest⟩ := List.head?_eq_some_iff.mp isEnd
        have isPayload : (bytes.take len).length = len := by
          rw [List.length_take]
          omega
        have isBytes : bytes = bytes.take len ++ newline :: rest := by
          rw [← isRest, List.take_append_drop]
        have isData : bytes.take (len + 1) = bytes.take len ++ [newline] := by
          rw [List.take_add, isRest]
          rfl
        exact .inr (.inr ⟨bytes.take len, rest, isBytes, isPayload.symm, by rw [isData, isRest]; rfl⟩)
      · rw [if_pos isEnd]
        exact .inl ⟨by omega, bytes.drop len, rfl⟩

theorem readContent_payload (handler : ProxyProtocolHandler) (serial : Nat) (payload rest : Bytes) :
    readContent handler serial payload.length (payload ++ newline :: rest) =
      .advance ⟨serial, handler.handled ++ [payload ++ [newline]]⟩ rest := by
  unfold readContent
  have isEnd : (newline :: rest).head? = some newline := rfl
  rw [if_neg (by simp), if_neg (by simp), List.drop_left]
  dsimp only
  rw [if_neg (not_not_intro isEnd), List.take_length_add_append]
  rfl

theorem readFrame_lines {kind : UInt8} (isKind : IsKind kind) {serial length bytes : Bytes}
    (serialLine : newline ∉ serial) (lengthLine : newline ∉ length)
    (enough : length ++ bytes ≠ []) (handler : ProxyProtocolHandler) :
    readFrame handler (kind :: (serial ++ newline :: (length ++ newline :: bytes))) =
      readContent handler (numberOf serial) (numberOf length) bytes := by
  have notEmpty : ¬ (length ++ newline :: bytes).length < 2 := by
    have positive := List.length_pos_of_ne_nil enough
    simp only [List.length_append, List.length_cons] at positive ⊢
    omega
  have twoBytes : ¬ (kind :: (serial ++ newline :: (length ++ newline :: bytes))).length < 2 := by
    simp only [List.length_append, List.length_cons]
    omega
  rw [readFrame, if_neg (not_or.mpr ⟨not_not_intro isKind, twoBytes⟩), readLine_line serialLine]
  dsimp only
  rw [if_neg notEmpty, readLine_line lengthLine]

theorem readFrame_frame (handler : ProxyProtocolHandler) (frame : Frame) (rest : Bytes) :
    readFrame handler (frame.bytes ++ rest) =
      .advance ⟨numberOf frame.serial, handler.handled ++ [frame.data]⟩ rest := by
  have isBytes : frame.bytes ++ rest = frame.kind :: (frame.serial ++ newline ::
      (frame.length ++ newline :: (frame.payload ++ newline :: rest))) := by
    simp [Frame.bytes]
  rw [isBytes, readFrame_lines frame.isKind frame.serialLine frame.lengthLine (by simp),
    frame.declared, readContent_payload]
  rfl

theorem readFrame_overruns (handler : ProxyProtocolHandler) {bytes : Bytes}
    (overruns : Overruns bytes) : readFrame handler bytes = .stop (.error .outOfBounds) := by
  cases overruns with
  | @serial kind line isKind notEmpty isLine =>
      have twoBytes : ¬ (kind :: line).length < 2 := by
        have positive := List.length_pos_of_ne_nil notEmpty
        rw [List.length_cons]
        omega
      rw [readFrame, if_neg (not_or.mpr ⟨not_not_intro isKind, twoBytes⟩), readLine_none.mpr isLine]
  | @length kind serial line isKind serialLine twoBytes isLine =>
      have more : ¬ (kind :: (serial ++ newline :: line)).length < 2 := by
        simp only [List.length_append, List.length_cons]
        omega
      rw [readFrame, if_neg (not_or.mpr ⟨not_not_intro isKind, more⟩), readLine_line serialLine]
      dsimp only
      rw [if_neg (Nat.not_lt.mpr twoBytes), readLine_none.mpr isLine]
  | @payload kind serial length payload isKind serialLine lengthLine enough declared =>
      rw [readFrame_lines isKind serialLine lengthLine enough, declared, readContent,
        if_neg (Nat.lt_irrefl _), if_pos (Nat.lt_succ_self _)]

/-- Everything that a round of the loop does. -/
theorem readFrame_cases (handler : ProxyProtocolHandler) (inBuffer : Bytes) :
    (inBuffer = [] ∧ readFrame handler inBuffer = .wait handler) ∨
    (∃ left, readFrame handler inBuffer = .stop (.ok ⟨false, handler, left⟩)) ∨
    (Overruns inBuffer ∧ readFrame handler inBuffer = .stop (.error .outOfBounds)) ∨
    ∃ (frame : Frame) (rest : Bytes), inBuffer = frame.bytes ++ rest ∧
      readFrame handler inBuffer =
        .advance ⟨numberOf frame.serial, handler.handled ++ [frame.data]⟩ rest := by
  cases inBuffer with
  | nil => exact .inl ⟨rfl, rfl⟩
  | cons kind bytes =>
      by_cases refused : ¬ IsKind kind ∨ (kind :: bytes).length < 2
      · exact .inr (.inl ⟨_, if_pos refused⟩)
      · obtain ⟨isKind, twoBytes⟩ := not_or.mp refused
        have isKind : IsKind kind := not_not.mp isKind
        have isRound : readFrame handler (kind :: bytes) = _ := if_neg refused
        cases isSerial : readLine bytes with
        | none =>
            have notEmpty : bytes ≠ [] := by
              rintro rfl
              exact twoBytes Nat.one_lt_two
            have overruns := Overruns.serial isKind notEmpty (readLine_none.mp isSerial)
            exact .inr (.inr (.inl ⟨overruns, readFrame_overruns handler overruns⟩))
        | some serialAndRest =>
            obtain ⟨serial, bytes⟩ := serialAndRest
            obtain ⟨rfl, serialLine⟩ := readLine_some isSerial
            rw [isSerial] at isRound
            dsimp only at isRound
            by_cases few : bytes.length < 2
            · rw [if_pos few] at isRound
              exact .inr (.inl ⟨_, isRound⟩)
            · cases isLength : readLine bytes with
              | none =>
                  have overruns := Overruns.length isKind serialLine (Nat.not_lt.mp few)
                    (readLine_none.mp isLength)
                  exact .inr (.inr (.inl ⟨overruns, readFrame_overruns handler overruns⟩))
              | some lengthAndRest =>
                  obtain ⟨length, bytes⟩ := lengthAndRest
                  obtain ⟨rfl, lengthLine⟩ := readLine_some isLength
                  have enough : length ++ bytes ≠ [] := by
                    intro empty
                    obtain ⟨rfl, rfl⟩ := List.append_eq_nil_iff.mp empty
                    exact few (by decide)
                  rw [readFrame_lines isKind serialLine lengthLine enough]
                  obtain ⟨-, left, isContent⟩ | ⟨declared, isContent⟩ |
                    ⟨payload, rest, rfl, declared, isContent⟩ :=
                    readContent_cases handler (numberOf serial) (numberOf length) bytes
                  · exact .inr (.inl ⟨left, isContent⟩)
                  · exact .inr (.inr (.inl
                      ⟨.payload isKind serialLine lengthLine enough declared, isContent⟩))
                  · let frame : Frame :=
                      ⟨kind, serial, length, payload, isKind, serialLine, lengthLine, declared⟩
                    have isBytes : kind :: (serial ++ newline :: (length ++ newline ::
                        (payload ++ newline :: rest))) = frame.bytes ++ rest := by
                      simp [frame, Frame.bytes]
                    exact .inr (.inr (.inr ⟨frame, rest, isBytes, isContent⟩))

/-!
## Buffers
-/

def ProxyProtocolHandler.take (handler : ProxyProtocolHandler) (frame : Frame) :
    ProxyProtocolHandler :=
  ⟨numberOf frame.serial, handler.handled ++ [frame.data]⟩

theorem handled_foldl_take (frames : List Frame) (handler : ProxyProtocolHandler) :
    (frames.foldl ProxyProtocolHandler.take handler).handled =
      handler.handled ++ frames.map Frame.data := by
  induction frames generalizing handler with
  | nil => exact (List.append_nil _).symm
  | cons frame frames ih =>
      rw [List.foldl_cons, ih, ProxyProtocolHandler.take, List.append_assoc]
      rfl

theorem shrinks_readFrame : Shrinks readFrame := by
  intro handler inBuffer next rest progress
  obtain ⟨-, isWait⟩ | ⟨left, isStop⟩ | ⟨-, isFault⟩ | ⟨frame, behind, rfl, isRead⟩ :=
    readFrame_cases handler inBuffer
  · rw [isWait] at progress
    cases progress
  · rw [isStop] at progress
    cases progress
  · rw [isFault] at progress
    cases progress
  · rw [isRead] at progress
    cases progress
    simp only [Frame.bytes, List.cons_append, List.length_cons, List.length_append]
    omega

theorem parseEmitIncoming_frame (handler : ProxyProtocolHandler) (frame : Frame) (rest : Bytes) :
    parseEmitIncoming handler (frame.bytes ++ rest) =
      parseEmitIncoming (handler.take frame) rest := by
  unfold parseEmitIncoming
  rw [shrinks_readFrame.drain_advance (readFrame_frame handler frame rest)]
  rfl

/-- Whole frames are taken off one after the other. -/
theorem parseEmitIncoming_frames (frames : List Frame) (handler : ProxyProtocolHandler)
    (rest : Bytes) :
    parseEmitIncoming handler (frames.flatMap Frame.bytes ++ rest) =
      parseEmitIncoming (frames.foldl ProxyProtocolHandler.take handler) rest := by
  induction frames generalizing handler with
  | nil => rfl
  | cons frame frames ih =>
      rw [List.flatMap_cons, List.append_assoc, List.foldl_cons, parseEmitIncoming_frame, ih]

theorem parseEmitIncoming_nil (handler : ProxyProtocolHandler) :
    parseEmitIncoming handler [] = .ok ⟨true, handler, []⟩ := rfl

private theorem parseEmitIncoming_stop {handler : ProxyProtocolHandler} {inBuffer : Bytes}
    {result : Except Fault Parsed} (stops : readFrame handler inBuffer = .stop result) :
    parseEmitIncoming handler inBuffer = result := by
  unfold parseEmitIncoming drain
  rw [drainFor, stops]

theorem parseEmitIncoming_overruns (handler : ProxyProtocolHandler) {inBuffer : Bytes}
    (overruns : Overruns inBuffer) :
    parseEmitIncoming handler inBuffer = .error .outOfBounds :=
  parseEmitIncoming_stop (readFrame_overruns handler overruns)

/-- Whole frames, and behind them nothing, something refused or an overrun. -/
theorem parseEmitIncoming_cases (handler : ProxyProtocolHandler) (inBuffer : Bytes) :
    ∃ (frames : List Frame) (rest : Bytes), inBuffer = frames.flatMap Frame.bytes ++ rest ∧
      ((rest = [] ∧ parseEmitIncoming handler inBuffer =
          .ok ⟨true, frames.foldl ProxyProtocolHandler.take handler, []⟩) ∨
        (∃ left, parseEmitIncoming handler inBuffer =
          .ok ⟨false, frames.foldl ProxyProtocolHandler.take handler, left⟩) ∨
        (Overruns rest ∧ parseEmitIncoming handler inBuffer = .error .outOfBounds)) := by
  induction length : inBuffer.length using Nat.strongRecOn generalizing handler inBuffer with
  | _ n ih =>
      obtain ⟨rfl, -⟩ | ⟨left, isStop⟩ | ⟨overruns, -⟩ | ⟨frame, behind, isBytes, isRead⟩ :=
        readFrame_cases handler inBuffer
      · exact ⟨[], [], rfl, .inl ⟨rfl, rfl⟩⟩
      · exact ⟨[], inBuffer, rfl, .inr (.inl ⟨left, parseEmitIncoming_stop isStop⟩)⟩
      · exact ⟨[], inBuffer, rfl, .inr (.inr ⟨overruns, parseEmitIncoming_overruns handler overruns⟩)⟩
      · have shorter := shrinks_readFrame _ _ _ _ isRead
        obtain ⟨frames, rest, rfl, outcome⟩ :=
          ih behind.length (by omega) (handler.take frame) behind rfl
        have isWhole : parseEmitIncoming handler inBuffer =
            parseEmitIncoming (handler.take frame) (frames.flatMap Frame.bytes ++ rest) := by
          rw [isBytes, parseEmitIncoming_frame]
        refine ⟨frame :: frames, rest, ?_, ?_⟩
        · rw [isBytes, List.flatMap_cons, List.append_assoc]
        · rw [isWhole, List.foldl_cons]
          exact outcome

/-!
## Safety
-/

/-- The parser ends, with `true` only when it is through with the buffer, leaves the buffer
nowhere and hands over nothing that is longer than what came in. -/
def Safe (handler : ProxyProtocolHandler) (inBuffer : Bytes) : Prop :=
  ∃ parsed, parseEmitIncoming handler inBuffer = .ok parsed ∧
    (parsed.result = true → parsed.inBuffer = []) ∧
    ∃ emitted, parsed.handler.handled = handler.handled ++ emitted ∧
      ∀ data ∈ emitted, data.length ≤ inBuffer.length

private theorem length_data_le {frames : List Frame} (rest : Bytes) :
    ∀ data ∈ frames.map Frame.data,
      data.length ≤ (frames.flatMap Frame.bytes ++ rest).length := by
  intro data isData
  obtain ⟨frame, isFrame, rfl⟩ := List.mem_map.mp isData
  have within : frame.bytes.length ≤ (frames.flatMap Frame.bytes).length :=
    (List.sublist_flatten_of_mem (List.mem_map_of_mem isFrame)).length_le
  simp only [Frame.data, Frame.bytes, List.length_cons, List.length_append] at within ⊢
  omega

theorem safe_iff (handler : ProxyProtocolHandler) (inBuffer : Bytes) :
    Safe handler inBuffer ↔ ∀ (frames : List Frame) (rest : Bytes),
      inBuffer = frames.flatMap Frame.bytes ++ rest → ¬ Overruns rest := by
  constructor
  · rintro ⟨parsed, isParsed, -⟩ frames rest rfl overruns
    rw [parseEmitIncoming_frames, parseEmitIncoming_overruns _ overruns] at isParsed
    cases isParsed
  · intro inside
    obtain ⟨frames, rest, rfl, ⟨rfl, isParsed⟩ | ⟨left, isParsed⟩ | ⟨overruns, -⟩⟩ :=
      parseEmitIncoming_cases handler inBuffer
    · exact ⟨_, isParsed, fun _ => rfl, _, handled_foldl_take frames handler, length_data_le []⟩
    · exact ⟨_, isParsed, nofun, _, handled_foldl_take frames handler, length_data_le rest⟩
    · exact absurd overruns (inside frames rest rfl)

end FreeOnline.Wsd.ProxyProtocol
