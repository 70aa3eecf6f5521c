import FreeOnline.Net.WebSocketFrame

/-!
# Memory accesses of the WebSocket handler

The parts of a frame are read after it has arrived as a whole. Two kinds of frames
make the handler read or write outside nevertheless: a close frame with half of a
status, and a fragment with a length that makes the collected size wrap around.
-/

set_option autoImplicit false

namespace FreeOnline.Net

open FreeOnline.Library

theorem readPayload_outOfBounds_iff {buffer : Bytes} {header : FrameHeader} (valid : header.Valid)
    (arrived : header.frameLen ≤ buffer.length) (collected : Bytes) :
    readPayload buffer header collected = .error .outOfBounds ↔
      header.payloadLen ≠ 0 ∧ header.Wraps collected := by
  rw [readPayload_eq valid arrived]
  by_cases empty : header.payloadLen = 0
  · simp [empty]
  · by_cases wraps : header.Wraps collected
    · simp [empty, wraps]
    · rw [if_neg empty, if_neg wraps]
      split <;> simp [wraps]

namespace WebSocketHandler

variable (handler : WebSocketHandler) (header : FrameHeader)

/-- A close frame with one byte of payload, unless it answers our own. -/
def HalfStatus : Prop :=
  header.code = WSOpCode.close ∧ header.fin = true ∧ header.payloadLen = 1 ∧
    handler.shuttingDown = false

/-- A fragment in its place that makes the size of the collected payload wrap around. -/
def WrappingFragment : Prop :=
  isControlFrame header.code = false ∧
    handler.InPlace header ∧ header.payloadLen ≠ 0 ∧ header.Wraps handler.wsPayload

private theorem readClose_outOfBounds_iff (ctrlPayload : Bytes) :
    handler.readClose ctrlPayload = .error .outOfBounds ↔
      handler.shuttingDown = false ∧ ctrlPayload.length = 1 := by
  unfold readClose
  cases handler.shuttingDown with
  | true => simp
  | false =>
      match ctrlPayload with
      | [] => simp
      | [_] => simp [byteAt, bind, Except.bind]
      | _ :: _ :: _ => simp [byteAt, bind, Except.bind, pure, Except.pure]

variable {handler header}

private theorem handleControlFrame_outOfBounds_iff {buffer : Bytes} (valid : header.Valid)
    (arrived : header.frameLen ≤ buffer.length) :
    handler.handleControlFrame buffer header = .stop (.error .outOfBounds) ↔
      handler.HalfStatus header := by
  unfold handleControlFrame HalfStatus
  obtain ⟨long, isError⟩ | ⟨ctrlPayload, isPayload, length⟩ := readPayload_control valid arrived
  · rw [isError]
    constructor
    · nofun
    · rintro ⟨-, -, single, -⟩
      rw [single] at long
      exact absurd long (by decide)
  · rw [isPayload, eraseFirst_eq arrived]
    dsimp only [protocolError]
    cases header.fin with
    | false => simp
    | true =>
        rw [if_neg (by decide)]
        split
        · next long =>
            constructor
            · nofun
            · rintro ⟨-, -, single, -⟩
              omega
        · split
          · next isPong => simp [isPong, WSOpCode.pong, WSOpCode.close]
          · split
            · next isPing => simp [isPing, WSOpCode.ping, WSOpCode.close]
            · split
              · next isClose =>
                  rw [← length]
                  simp only [isClose, true_and]
                  rw [and_comm, ← handler.readClose_outOfBounds_iff]
                  cases handler.readClose ctrlPayload with
                  | error fault => simp
                  | ok close => simp
              · next notClose => simp [notClose]

private theorem handleDataFrame_outOfBounds_iff {buffer : Bytes} (valid : header.Valid)
    (arrived : header.frameLen ≤ buffer.length) (isData : isControlFrame header.code = false) :
    handler.handleDataFrame buffer header = .stop (.error .outOfBounds) ↔
      handler.WrappingFragment header := by
  by_cases inPlace : handler.InPlace header
  · rw [handler.handleDataFrame_inPlace inPlace arrived]
    simp only [WrappingFragment, isData, inPlace, true_and]
    rw [← readPayload_outOfBounds_iff valid arrived]
    cases readPayload buffer header handler.wsPayload with
    | error fault => simp
    | ok payload => simp
  · rw [handler.handleDataFrame_misplaced inPlace]
    constructor
    · nofun
    · rintro ⟨-, isInPlace, -⟩
      exact absurd isInPlace inPlace

/-- The handler stays within its buffers unless a frame of these two kinds is in front. -/
theorem handleTCPStream_inBounds_iff (handler : WebSocketHandler) (buffer : Bytes) :
    handler.handleTCPStream buffer ≠ .stop (.error .outOfBounds) ↔
      ∀ header ∈ frontFrame buffer, (header.hasMask && handler.isClient) = false →
        ¬ handler.HalfStatus header ∧ ¬ handler.WrappingFragment header := by
  cases front : frontFrame buffer with
  | none =>
      rw [handler.handleTCPStream_wait front]
      constructor
      · nofun
      · nofun
  | some header =>
      obtain ⟨-, -, arrived, valid⟩ := frontFrame_some front
      rw [handler.handleTCPStream_frame front]
      simp only [Option.mem_some_iff, forall_eq']
      unfold handleFrame
      cases refused : header.hasMask && handler.isClient with
      | true => simp [protocolError]
      | false =>
          simp only [Bool.false_eq_true, if_false, true_implies]
          cases isControl : isControlFrame header.code with
          | true =>
              have notData : ¬ handler.WrappingFragment header := by
                rintro ⟨isData, -⟩
                rw [isData] at isControl
                cases isControl
              rw [if_pos rfl, ne_eq, handleControlFrame_outOfBounds_iff valid arrived]
              exact ⟨fun whole => ⟨whole, notData⟩, fun both => both.1⟩
          | false =>
              have notClose : ¬ handler.HalfStatus header := by
                rintro ⟨isClose, -⟩
                rw [isClose] at isControl
                cases isControl
              rw [if_neg Bool.false_ne_true, ne_eq,
                handleDataFrame_outOfBounds_iff valid arrived isControl]
              exact ⟨fun fits => ⟨notClose, fits⟩, fun both => both.2⟩

/-- A close frame with half of a status, as a server gets it from a client. -/
theorem handleTCPStream_halfStatus :
    (create false).handleTCPStream [0x88, 0x81, 0x00, 0x00, 0x00, 0x00, 0x03] =
      .stop (.error .outOfBounds) := by
  rfl

-- A fragment with the length 2^64 - 1 behind one of 16 bytes.
example :
    drain handleTCPStream (create false)
      ([0x02, 0x90, 0, 0, 0, 0] ++ List.replicate 16 0 ++
        [0x80, 0xff] ++ List.replicate 8 0xff ++ List.replicate 4 0) =
      .stopped (.error .outOfBounds) := by
  rfl

end WebSocketHandler

end FreeOnline.Net
