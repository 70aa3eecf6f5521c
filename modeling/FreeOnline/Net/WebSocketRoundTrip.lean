import FreeOnline.Net.WebSocketFragments

/-!
# Built frames are read back

What one side builds for its messages, with pings and pongs in between, is what the
other side handles, as long as no length gets lost on its way into the output buffer.
-/

set_option autoImplicit false

namespace FreeOnline.Net

open FreeOnline.Library WebSocketHandler

/-!
## Building a frame
-/

theorem toInt_eq {len : Nat} (small : len < 2 ^ 31) : toInt len = len := by
  unfold toInt
  omega

theorem toInt_toNat_lt {len : Nat} (large : 2 ^ 31 ≤ len) : (toInt len).toNat < len := by
  unfold toInt
  omega

theorem append_eq (out data : Bytes) (small : data.length < 2 ^ 31) :
    append out data data.length = .ok (out ++ data) := by
  unfold append slice
  rw [toInt_eq small]
  simp only [Int.toNat_natCast, Nat.zero_add, Nat.le_refl, if_true, List.drop_zero,
    List.take_length]
  rw [if_neg (by omega)]
  rfl

theorem appendMasked_eq (data : Bytes) {fuel sent : Nat} (out : Bytes)
    (enough : data.length < sent + fuel) (within : sent ≤ data.length) :
    appendMasked data fuel sent out = .ok (out ++ (applyMask frameMask data).drop sent) := by
  induction fuel generalizing sent out with
  | zero => omega
  | succ fuel ih =>
      unfold appendMasked
      dsimp only
      generalize isToSend : min 16384 (data.length - sent) = toSend
      by_cases done : toSend = 0
      · have atEnd : (applyMask frameMask data).length ≤ sent := by
          rw [applyMask_length]
          omega
        rw [if_pos done, List.drop_eq_nil_of_le atEnd, List.append_nil]
      · have blockWithin : sent + toSend ≤ (applyMask frameMask data).length := by
          rw [applyMask_length]
          omega
        have blockLength : (((applyMask frameMask data).drop sent).take toSend).length = toSend := by
          rw [List.length_take, List.length_drop]
          omega
        have appended := append_eq out (((applyMask frameMask data).drop sent).take toSend)
          (by rw [blockLength]; omega)
        rw [blockLength] at appended
        rw [if_neg done, slice, if_pos blockWithin]
        simp only [bind, Except.bind, appended]
        rw [ih _ (by omega) (by omega), List.append_assoc, ← List.drop_drop, List.take_append_drop]

def LengthForm.of (len : Nat) : LengthForm :=
  if len < 126 then .seven else if len ≤ 0xffff then .sixteen else .sixtyFour

theorem LengthForm.lt_bound {len : Nat} (fits : len ≤ maxSize) : len < (LengthForm.of len).bound := by
  unfold LengthForm.of
  split
  · assumption
  · split
    · next medium => exact Nat.lt_succ_of_le medium
    · exact Nat.lt_succ_of_le fits

theorem frameLength_eq (len : Nat) (maskFlag : UInt8) :
    frameLength len maskFlag =
      (((LengthForm.of len).code len).toUInt8 ||| maskFlag) ::
        bigEndianBytes (LengthForm.of len).byteCount len := by
  unfold frameLength LengthForm.of
  split
  · rfl
  · split
    · rfl
    · simp only [LengthForm.code, LengthForm.byteCount, bigEndianBytes, ← Nat.shiftRight_add]
      rfl

def builtFrame (isMasking : Bool) (data : Bytes) (flags : UInt8) (fits : data.length ≤ maxSize) :
    Frame (!isMasking) where
  flags := 0x80 ||| flags
  mask := if isMasking then some ⟨frameMask, rfl⟩ else none
  form := .of data.length
  payload := data
  fits := LengthForm.lt_bound fits
  unmasked := by
    intro isClient
    rw [if_neg (by simpa using isClient)]

theorem buildFrame_eq {isMasking : Bool} {data : Bytes} (flags : UInt8)
    (fits : data.length ≤ maxSize) (whole : isMasking = true ∨ data.length < 2 ^ 31) :
    buildFrame isMasking data flags = .ok (builtFrame isMasking data flags fits).bytes := by
  unfold buildFrame
  rw [frameLength_eq]
  cases isMasking with
  | true =>
      rw [if_pos rfl, appendMasked_eq data _ (by omega) (Nat.zero_le _)]
      simp [builtFrame, Frame.bytes, Frame.second, Frame.maskBytes, Frame.wirePayload]
  | false =>
      have small := whole.resolve_left (by decide)
      rw [if_neg (by decide), append_eq _ _ small]
      simp [builtFrame, Frame.bytes, Frame.second, Frame.maskBytes, Frame.wirePayload]

/-!
## Traffic
-/

structure SentMessage where
  code : UInt8
  data : Bytes
  isData : code ≠ WSOpCode.continuation ∧ isControlFrame code = false
  notEmpty : data ≠ []
  fits : data.length ≤ maxSize

structure SentControl where
  code : UInt8
  data : Bytes
  isPingPong : code = WSOpCode.ping ∨ code = WSOpCode.pong
  small : data.length ≤ 125

def SentMessage.send (message : SentMessage) : Bytes × UInt8 := (message.data, message.code)

def SentControl.send (control : SentControl) : Bytes × UInt8 := (control.data, control.code)

abbrev Sent := SentMessage × List SentControl

def Sent.sends (sent : Sent) : List (Bytes × UInt8) :=
  sent.1.send :: sent.2.map SentControl.send

def buildFrames (isMasking : Bool) : List (Bytes × UInt8) → Except Fault Bytes
  | [] => .ok []
  | (data, flags) :: sends => do
      let frame ← buildFrame isMasking data flags
      let frames ← buildFrames isMasking sends
      return frame ++ frames

/-- What is built for these messages is read back: with any control frames in between,
and in any pieces. -/
def RoundTrips (isMasking : Bool) (messages : List SentMessage) : Prop :=
  ∀ (controls : List SentControl) (traffic : List Sent), traffic.map Prod.fst = messages →
    ∃ stream,
      buildFrames isMasking (controls.map SentControl.send ++ traffic.flatMap Sent.sends) =
        .ok stream ∧
      ∀ pieces : List Bytes, pieces.flatten = stream →
        ∃ last, pieces.foldl (feed handleTCPStream) (.running (create (!isMasking)) []) =
            .running last [] ∧
          last.handled = messages.map SentMessage.data

theorem buildFrames_cons {isMasking : Bool} {data frame : Bytes} {flags : UInt8}
    (built : buildFrame isMasking data flags = .ok frame) (sends : List (Bytes × UInt8)) :
    buildFrames isMasking ((data, flags) :: sends) =
      (buildFrames isMasking sends).map (frame ++ ·) := by
  rw [buildFrames, built]
  cases buildFrames isMasking sends <;> rfl

/-- What is sent turns into bytes in front of the rest, from which the other side gets
these payloads. -/
def Carried (isMasking : Bool) (sends : List (Bytes × UInt8)) (payloads : List Bytes) : Prop :=
  ∃ front,
    (∀ rest, buildFrames isMasking (sends ++ rest) =
      (buildFrames isMasking rest).map (front ++ ·)) ∧
    ∀ {handler handled}, Holds handler (!isMasking) none handled →
      ∃ next, Consumes handleTCPStream handler front next ∧
        next.Holds (!isMasking) none (handled ++ payloads)

namespace Carried

variable {isMasking : Bool}

theorem nil : Carried isMasking [] [] := by
  refine ⟨[], ?_, ?_⟩
  · intro rest
    rw [List.nil_append]
    cases buildFrames isMasking rest <;> rfl
  · intro handler handled holds
    refine ⟨handler, .refl handler, ?_⟩
    rwa [List.append_nil]

theorem append {sends others : List (Bytes × UInt8)} {payloads otherPayloads : List Bytes}
    (first : Carried isMasking sends payloads) (second : Carried isMasking others otherPayloads) :
    Carried isMasking (sends ++ others) (payloads ++ otherPayloads) := by
  obtain ⟨front, built, read⟩ := first
  obtain ⟨behind, builtBehind, readBehind⟩ := second
  refine ⟨front ++ behind, ?_, ?_⟩
  · intro rest
    rw [List.append_assoc, built, builtBehind]
    cases buildFrames isMasking rest with
    | error fault => rfl
    | ok bytes => simp [Except.map]
  · intro handler handled holds
    obtain ⟨next, consumes, nextHolds⟩ := read holds
    obtain ⟨last, consumesBehind, lastHolds⟩ := readBehind nextHolds
    refine ⟨last, consumes.trans consumesBehind, ?_⟩
    rwa [List.append_assoc] at lastHolds

theorem frame {data : Bytes} {flags : UInt8} {payloads : List Bytes}
    (fits : data.length ≤ maxSize) (whole : isMasking = true ∨ data.length < 2 ^ 31)
    (read : ∀ {handler handled}, Holds handler (!isMasking) none handled →
      ∃ next, Consumes handleTCPStream handler (builtFrame isMasking data flags fits).bytes next ∧
        next.Holds (!isMasking) none (handled ++ payloads)) :
    Carried isMasking [(data, flags)] payloads :=
  ⟨_, buildFrames_cons (buildFrame_eq flags fits whole), read⟩

end Carried

private theorem finFlag_bits : ∀ code, code < 16 →
    (0x80 ||| Nat.toUInt8 code) &&& 0x0f = code.toUInt8 ∧
      decide ((0x80 ||| code.toUInt8) &&& 0x80 ≠ 0) = true := by
  decide +kernel

theorem builtFrame_flags (isMasking : Bool) {data : Bytes} {flags : UInt8} (small : flags < 16)
    (fits : data.length ≤ maxSize) :
    (builtFrame isMasking data flags fits).header.code = flags ∧
      (builtFrame isMasking data flags fits).header.fin = true := by
  obtain ⟨isCode, isFin⟩ := finFlag_bits flags.toNat (UInt8.lt_iff_toNat_lt.mp small)
  have sameFlags : flags.toNat.toUInt8 = flags := UInt8.ofNat_toNat
  rw [sameFlags] at isCode isFin
  exact ⟨isCode, isFin⟩

variable {isMasking : Bool}

theorem SentControl.fits (control : SentControl) : control.data.length ≤ maxSize :=
  Nat.le_trans control.small (by decide)

theorem SentControl.code_lt (control : SentControl) : control.code < 16 := by
  obtain isPing | isPong := control.isPingPong
  · rw [isPing]
    decide
  · rw [isPong]
    decide

theorem SentControl.carried (control : SentControl) : Carried isMasking [control.send] [] := by
  refine .frame control.fits (.inr (Nat.lt_of_le_of_lt control.small (by decide))) ?_
  intro handler handled holds
  obtain ⟨isCode, isFin⟩ := builtFrame_flags isMasking control.code_lt control.fits
  rw [List.append_nil]
  exact Frame.consumes_pingPong holds ⟨isFin, by rw [isCode]; exact control.isPingPong, control.small⟩

theorem carried_controls (controls : List SentControl) :
    Carried isMasking (controls.map SentControl.send) [] := by
  induction controls with
  | nil => exact .nil
  | cons control controls ih => exact control.carried.append ih

theorem SentMessage.consumes_builtFrame (message : SentMessage) {handler : WebSocketHandler}
    {handled : List Bytes} (holds : handler.Holds (!isMasking) none handled) :
    ∃ next, Consumes handleTCPStream handler
        (builtFrame isMasking message.data message.code message.fits).bytes next ∧
      next.Holds (!isMasking) none (handled ++ [message.data]) := by
  obtain ⟨isNew, isData⟩ := message.isData
  have small : message.code < 16 := by
    have below : message.code.toNat < 8 := by
      simpa [isControlFrame, WSOpCode.close, UInt8.le_iff_toNat_le] using isData
    rw [UInt8.lt_iff_toNat_lt]
    exact Nat.lt_trans below (by decide)
  obtain ⟨isCode, isFin⟩ := builtFrame_flags isMasking small message.fits
  obtain ⟨next, consumes, nextHolds⟩ :=
    (builtFrame isMasking message.data message.code message.fits).consumes_data holds
      (by rw [isCode]; exact isData) (by simpa [isCode] using isNew)
      (by simpa [builtFrame] using message.fits)
  rw [isFin] at nextHolds
  exact ⟨next, consumes, nextHolds⟩

theorem SentMessage.carried (message : SentMessage)
    (whole : isMasking = true ∨ message.data.length < 2 ^ 31) :
    Carried isMasking [message.send] [message.data] :=
  .frame message.fits whole message.consumes_builtFrame

theorem carried_traffic (traffic : List Sent)
    (whole : isMasking = true ∨ ∀ sent ∈ traffic, sent.1.data.length < 2 ^ 31) :
    Carried isMasking (traffic.flatMap Sent.sends) (traffic.map fun sent => sent.1.data) := by
  induction traffic with
  | nil => exact .nil
  | cons sent traffic ih =>
      have first := sent.1.carried (whole.imp_right fun short => short sent List.mem_cons_self)
      have others := ih (whole.imp_right fun short other isOther =>
        short other (List.mem_cons_of_mem _ isOther))
      exact (first.append (carried_controls sent.2)).append others

theorem roundTrips_of_whole {messages : List SentMessage}
    (whole : isMasking = true ∨ ∀ message ∈ messages, message.data.length < 2 ^ 31) :
    RoundTrips isMasking messages := by
  rintro controls traffic rfl
  have ofTraffic := carried_traffic traffic (whole.imp_right fun short sent isSent =>
    short sent.1 (List.mem_map_of_mem isSent))
  obtain ⟨stream, built, read⟩ := (carried_controls controls).append ofTraffic
  obtain ⟨last, consumes, lastHolds⟩ := read (create_holds (!isMasking))
  refine ⟨stream, ?_, ?_⟩
  · have all := built []
    rw [List.append_nil] at all
    rw [all, buildFrames, Except.map, List.append_nil]
  · rintro pieces rfl
    refine ⟨last, handleTCPStream_incremental.foldl_feed_of_consumes consumes, ?_⟩
    rw [lastHolds.handled, List.map_map]
    rfl

/-!
## Truncated frames
-/

theorem buildFrame_long {message : SentMessage} {frame : Bytes}
    (built : buildFrame false message.data message.code = .ok frame) :
    frame = (0x80 ||| message.code) :: (frameLength message.data.length 0 ++
      message.data.take (toInt message.data.length).toNat) := by
  unfold buildFrame append slice at built
  rw [if_neg (by decide)] at built
  split at built
  · cases built
  · split at built
    · cases built
      rfl
    · cases built

private theorem frame_front (message : SentMessage) (body : Bytes) :
    (0x80 ||| message.code) :: (frameLength message.data.length 0 ++ body) =
      let frame := builtFrame false message.data message.code message.fits
      frame.flags :: frame.second ::
        (bigEndianBytes frame.form.byteCount frame.payload.length ++ body) := by
  rw [frameLength_eq]
  rfl

private theorem builtFrame_bytes (message : SentMessage) :
    (builtFrame false message.data message.code message.fits).bytes =
      (0x80 ||| message.code) :: (frameLength message.data.length 0 ++ message.data) := by
  rw [frame_front]
  rfl

private theorem handled_behind {handler last : WebSocketHandler} {handled : List Bytes}
    {message : SentMessage} {body : Bytes} (holds : handler.Holds true none handled)
    (drained : drain handleTCPStream handler
      ((0x80 ||| message.code) :: (frameLength message.data.length 0 ++ body)) = .running last []) :
    handled ++ [body.take message.data.length] <+: last.handled := by
  by_cases arrived : message.data.length ≤ body.length
  · have taken : (body.take message.data.length).length = message.data.length := by
      rw [List.length_take]
      omega
    let received : SentMessage :=
      { message with
        data := body.take message.data.length
        notEmpty := by
          intro empty
          rw [empty] at taken
          exact message.notEmpty (List.eq_nil_of_length_eq_zero taken.symm)
        fits := by
          rw [taken]
          exact message.fits }
    obtain ⟨next, consumes, nextHolds⟩ :=
      @SentMessage.consumes_builtFrame false received handler handled holds
    rw [builtFrame_bytes] at consumes
    have behind := consumes (body.drop message.data.length)
    have rejoined : (0x80 ||| message.code) :: (frameLength message.data.length 0 ++ body) =
        ((0x80 ||| received.code) :: (frameLength received.data.length 0 ++ received.data)) ++
          body.drop message.data.length := by
      rw [taken, List.cons_append, List.append_assoc, List.take_append_drop]
    rw [rejoined, behind] at drained
    rw [← nextHolds.handled]
    exact next.drain_handled drained
  · have notArrived : frontFrame
        ((0x80 ||| message.code) :: (frameLength message.data.length 0 ++ body)) = none := by
      rw [frame_front]
      dsimp only
      obtain ⟨-, -, isLength⟩ :=
        (builtFrame false message.data message.code message.fits).frontFrame_bytes
      rw [frontFrame, Frame.readHeader_front]
      refine if_neg ?_
      rw [isLength, Frame.bytes]
      simp [builtFrame, Frame.maskBytes, Frame.wirePayload]
      omega
    rw [Incremental.drain_wait (handler.handleTCPStream_wait notArrived)] at drained
    cases drained

private theorem stream_of_long {earlier later : List SentMessage} {message : SentMessage}
    (short : ∀ other ∈ earlier, other.data.length < 2 ^ 31)
    (roundTrips : RoundTrips false (earlier ++ message :: later)) (control : SentControl) :
    ∃ front next tail last,
      Consumes handleTCPStream (create true) front next ∧
      next.Holds true none (earlier.map SentMessage.data) ∧
      drain handleTCPStream (create true) (front ++
        ((0x80 ||| message.code) :: (frameLength message.data.length 0 ++
          (message.data.take (toInt message.data.length).toNat ++
            (0x80 ||| control.code) :: tail)))) = .running last [] ∧
      last.handled = (earlier ++ message :: later).map SentMessage.data := by
  obtain ⟨stream, built, read⟩ :=
    roundTrips [] (earlier.map (·, []) ++ (message, [control]) :: later.map (·, [])) (by
      simp [Function.comp_def])
  have ofEarlier : Carried false _ _ :=
    carried_traffic (earlier.map (·, [])) (.inr (by simpa using short))
  obtain ⟨front, builtFront, readFront⟩ := ofEarlier
  obtain ⟨next, consumes, holds⟩ := readFront (create_holds (!false))
  rw [List.map_nil, List.nil_append, List.flatMap_append, builtFront, List.flatMap_cons,
    Sent.sends, List.cons_append] at built
  cases isFrame : buildFrame false message.data message.code with
  | error fault =>
      simp [buildFrames, SentMessage.send, isFrame, bind, Except.bind, Except.map] at built
  | ok frame =>
      let controlFrame := builtFrame false control.data control.code control.fits
      have controlWhole : buildFrame false control.data control.code = .ok controlFrame.bytes :=
        buildFrame_eq control.code control.fits
          (.inr (Nat.lt_of_le_of_lt control.small (by decide)))
      rw [SentMessage.send, buildFrames_cons isFrame, List.map_cons, List.map_nil,
        List.cons_append, List.nil_append, SentControl.send, buildFrames_cons controlWhole] at built
      cases isTail : buildFrames false ((later.map (·, [])).flatMap Sent.sends) with
      | error fault =>
          rw [isTail] at built
          cases built
      | ok tail =>
          rw [isTail] at built
          cases built
          obtain ⟨last, drained, handled⟩ :=
            read [front ++ (frame ++ (controlFrame.bytes ++ tail))] List.flatten_singleton
          rw [handleTCPStream_incremental.foldl_feed, List.flatten_singleton,
            buildFrame_long isFrame] at drained
          refine ⟨front, next, controlFrame.bytes.tail ++ tail, last, consumes, ?_, ?_, handled⟩
          · simpa [Function.comp_def] using holds
          · rw [← drained]
            simp only [List.cons_append, List.append_assoc]
            rfl

private theorem first_long {messages : List SentMessage}
    (notShort : ¬ ∀ message ∈ messages, message.data.length < 2 ^ 31) :
    ∃ earlier message later, messages = earlier ++ message :: later ∧
      (∀ other ∈ earlier, other.data.length < 2 ^ 31) ∧ 2 ^ 31 ≤ message.data.length := by
  induction messages with
  | nil => exact absurd nofun notShort
  | cons message messages ih =>
      by_cases long : 2 ^ 31 ≤ message.data.length
      · exact ⟨[], message, messages, rfl, nofun, long⟩
      · have notShortBehind : ¬ ∀ other ∈ messages, other.data.length < 2 ^ 31 := by
          intro short
          refine notShort (List.forall_mem_cons.mpr ⟨?_, short⟩)
          omega
        obtain ⟨earlier, first, later, rfl, short, isLong⟩ := ih notShortBehind
        refine ⟨message :: earlier, first, later, rfl, List.forall_mem_cons.mpr ⟨?_, short⟩, isLong⟩
        omega

/-- The byte in the place where the data was truncated is one of the frame behind. -/
private theorem byte_of_roundTrips {earlier later : List SentMessage} {message : SentMessage}
    (short : ∀ other ∈ earlier, other.data.length < 2 ^ 31)
    (long : 2 ^ 31 ≤ message.data.length)
    (roundTrips : RoundTrips false (earlier ++ message :: later)) (control : SentControl) :
    message.data[(toInt message.data.length).toNat]? = some (0x80 ||| control.code) := by
  obtain ⟨front, next, tail, last, consumes, holds, drained, handled⟩ :=
    stream_of_long short roundTrips control
  rw [consumes] at drained
  have behind := handled_behind holds drained
  have truncated := toInt_toNat_lt long
  rw [handled, List.map_append, List.map_cons, List.prefix_append_right_inj,
    List.cons_prefix_cons] at behind
  have takenLength : (message.data.take (toInt message.data.length).toNat).length =
      (toInt message.data.length).toNat := by
    rw [List.length_take]
    omega
  have byte : ((message.data.take (toInt message.data.length).toNat ++
      (0x80 ||| control.code) :: tail).take message.data.length)[(toInt message.data.length).toNat]? =
        some (0x80 ||| control.code) := by
    rw [List.getElem?_take_of_lt truncated, List.getElem?_append_right (Nat.le_of_eq takenLength),
      takenLength, Nat.sub_self]
    rfl
  rwa [behind.1] at byte

theorem short_of_roundTrips {messages : List SentMessage} (roundTrips : RoundTrips false messages) :
    ∀ message ∈ messages, message.data.length < 2 ^ 31 := by
  -- The first message that is too long cannot be followed by a ping and by a pong.
  by_contra notShort
  obtain ⟨earlier, message, later, rfl, short, long⟩ := first_long notShort
  have ping := byte_of_roundTrips short long roundTrips ⟨WSOpCode.ping, [0], .inl rfl, by decide⟩
  have pong := byte_of_roundTrips short long roundTrips ⟨WSOpCode.pong, [0], .inr rfl, by decide⟩
  rw [ping] at pong
  exact absurd pong (by decide)

/-- Masked messages are read back always, and the others if their length is an `int`. -/
theorem roundTrips_iff (isMasking : Bool) (messages : List SentMessage) :
    RoundTrips isMasking messages ↔
      isMasking = true ∨ ∀ message ∈ messages, message.data.length < 2 ^ 31 := by
  constructor
  · intro roundTrips
    cases isMasking with
    | true => exact .inl rfl
    | false => exact .inr (short_of_roundTrips roundTrips)
  · exact roundTrips_of_whole

def longMessage : SentMessage where
  code := WSOpCode.binary
  data := List.replicate (2 ^ 31) 0
  isData := by decide
  notEmpty := by
    intro empty
    have length := congrArg List.length empty
    rw [List.length_replicate] at length
    exact absurd length (by decide)
  fits := by
    rw [List.length_replicate]
    decide

theorem longMessage_not_roundTrips : ¬ RoundTrips false [longMessage] := by
  intro roundTrips
  have short := short_of_roundTrips roundTrips longMessage List.mem_cons_self
  rw [longMessage, List.length_replicate] at short
  exact absurd short (by decide)

end FreeOnline.Net
