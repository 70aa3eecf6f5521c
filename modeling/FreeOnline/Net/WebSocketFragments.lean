import FreeOnline.Net.WebSocketWire

/-!
# Fragmented messages

Messages in fragments, with pings and pongs among them.
-/

set_option autoImplicit false

namespace FreeOnline.Net

open FreeOnline.Library WebSocketHandler

abbrev Control (isClient : Bool) := { frame : Frame isClient // frame.IsPingPong }

structure Fragment (isClient : Bool) where
  controls : List (Control isClient)
  mask : Option Mask
  form : LengthForm
  payload : Bytes
  fits : payload.length < form.bound
  unmasked : isClient = true → mask = none

namespace Fragment

variable {isClient : Bool}

def frame (fragment : Fragment isClient) (fin : Bool) (opcode : UInt8) : Frame isClient where
  flags := (if fin then 0x80 else 0) ||| opcode
  mask := fragment.mask
  form := fragment.form
  payload := fragment.payload
  fits := fragment.fits
  unmasked := fragment.unmasked

def frames (fragment : Fragment isClient) (fin : Bool) (opcode : UInt8) : List (Frame isClient) :=
  fragment.controls.map Subtype.val ++ [fragment.frame fin opcode]

/-- The frames behind the first one. The last one has the final flag if the message is
closed. -/
def laterFrames (closed : Bool) : List (Fragment isClient) → List (Frame isClient)
  | [] => []
  | fragment :: rest =>
      fragment.frames (closed && rest.isEmpty) WSOpCode.continuation ++ laterFrames closed rest

end Fragment

structure Message (isClient : Bool) where
  opcode : UInt8
  first : Fragment isClient
  later : List (Fragment isClient)
  isData : opcode ≠ WSOpCode.continuation ∧ isControlFrame opcode = false
  fits : (first.payload ++ later.flatMap Fragment.payload).length ≤ maxSize

namespace Message

variable {isClient : Bool}

def payload (message : Message isClient) : Bytes :=
  message.first.payload ++ message.later.flatMap Fragment.payload

def frames (closed : Bool) (message : Message isClient) : List (Frame isClient) :=
  message.first.frames (closed && message.later.isEmpty) message.opcode ++
    Fragment.laterFrames closed message.later

end Message

def wire {isClient : Bool} (frames : List (Frame isClient)) : Bytes := frames.flatMap Frame.bytes

variable {isClient : Bool} {handler : WebSocketHandler} {collected : Option Bytes}
  {handled : List Bytes}

theorem wire_append (frames more : List (Frame isClient)) :
    wire (frames ++ more) = wire frames ++ wire more :=
  List.flatMap_append

theorem consumes_controls (holds : handler.Holds isClient collected handled)
    (controls : List (Control isClient)) :
    ∃ next, Consumes handleTCPStream handler (wire (controls.map Subtype.val)) next ∧
      next.Holds isClient collected handled := by
  induction controls generalizing handler with
  | nil => exact ⟨handler, .refl handler, holds⟩
  | cons control controls ih =>
      obtain ⟨next, first, nextHolds⟩ := Frame.consumes_pingPong holds control.property
      obtain ⟨last, others, lastHolds⟩ := ih nextHolds
      exact ⟨last, first.trans others, lastHolds⟩

/-!
## Fragments and messages
-/

namespace Fragment

private theorem flags_bits : ∀ opcode, opcode < 8 → ∀ fin : Bool,
    ((if fin then 0x80 else 0) ||| Nat.toUInt8 opcode) &&& 0x0f = opcode.toUInt8 ∧
      decide (((if fin then 0x80 else 0) ||| opcode.toUInt8) &&& 0x80 ≠ 0) = fin := by
  decide +kernel

theorem frame_flags (fragment : Fragment isClient) (fin : Bool) {opcode : UInt8}
    (isData : isControlFrame opcode = false) :
    (fragment.frame fin opcode).header.code = opcode ∧
      (fragment.frame fin opcode).header.fin = fin := by
  have small : opcode.toNat < 8 := by
    simpa [isControlFrame, WSOpCode.close, UInt8.le_iff_toNat_le] using isData
  obtain ⟨isCode, isFin⟩ := flags_bits opcode.toNat small fin
  have sameOpcode : opcode.toNat.toUInt8 = opcode := UInt8.ofNat_toNat
  rw [sameOpcode] at isCode isFin
  exact ⟨isCode, isFin⟩

theorem consumes_frames (holds : handler.Holds isClient collected handled)
    (fragment : Fragment isClient) (fin : Bool) {opcode : UInt8}
    (isData : isControlFrame opcode = false)
    (inPlace : collected.isSome = true ↔ opcode = WSOpCode.continuation)
    (fits : (collected.getD []).length + fragment.payload.length ≤ maxSize) :
    ∃ next, Consumes handleTCPStream handler (wire (fragment.frames fin opcode)) next ∧
      next.HoldsAfter isClient fin (collected.getD [] ++ fragment.payload) handled := by
  obtain ⟨isCode, isFin⟩ := fragment.frame_flags fin isData
  obtain ⟨next, controls, nextHolds⟩ := consumes_controls holds fragment.controls
  obtain ⟨last, data, lastHolds⟩ :=
    (fragment.frame fin opcode).consumes_data nextHolds (by rw [isCode]; exact isData)
      (by rw [isCode]; exact inPlace) fits
  rw [isFin] at lastHolds
  refine ⟨last, ?_, lastHolds⟩
  rw [frames, wire_append]
  exact controls.trans (data.trans (.refl last))

theorem consumes_laterFrames {collected : Bytes}
    (holds : handler.Holds isClient (some collected) handled) (closed : Bool)
    (later : List (Fragment isClient)) (some : later ≠ [])
    (fits : (collected ++ later.flatMap Fragment.payload).length ≤ maxSize) :
    ∃ next, Consumes handleTCPStream handler (wire (laterFrames closed later)) next ∧
      next.HoldsAfter isClient closed (collected ++ later.flatMap Fragment.payload) handled := by
  induction later generalizing handler collected with
  | nil => exact absurd rfl some
  | cons fragment rest ih =>
      rw [List.flatMap_cons, ← List.append_assoc] at fits ⊢
      obtain ⟨next, first, nextHolds⟩ :=
        fragment.consumes_frames holds (closed && rest.isEmpty)
          (rfl : isControlFrame WSOpCode.continuation = false) (by simp)
          (by simp at fits ⊢; omega)
      rw [laterFrames, wire_append]
      cases rest with
      | nil =>
          rw [List.isEmpty_nil, Bool.and_true] at nextHolds
          simp only [List.flatMap_nil, List.append_nil]
          exact ⟨next, first.trans (.refl next), nextHolds⟩
      | cons second rest =>
          rw [List.isEmpty_cons, Bool.and_false] at nextHolds
          obtain ⟨last, others, lastHolds⟩ := ih nextHolds (List.cons_ne_nil _ _) fits
          exact ⟨last, first.trans others, lastHolds⟩

end Fragment

theorem Message.consumes_frames (holds : handler.Holds isClient none handled) (closed : Bool)
    (message : Message isClient) :
    ∃ next, Consumes handleTCPStream handler (wire (message.frames closed)) next ∧
      next.HoldsAfter isClient closed message.payload handled := by
  obtain ⟨isNew, isData⟩ := message.isData
  obtain ⟨next, first, nextHolds⟩ :=
    message.first.consumes_frames holds (closed && message.later.isEmpty) isData
      (by simpa using isNew) (by have fits := message.fits; simp at fits ⊢; omega)
  rw [frames, wire_append, payload]
  cases isLater : message.later with
  | nil =>
      rw [isLater] at first
      rw [isLater, List.isEmpty_nil, Bool.and_true] at nextHolds
      simp only [List.flatMap_nil, List.append_nil]
      exact ⟨next, first.trans (.refl next), nextHolds⟩
  | cons second rest =>
      have fits := message.fits
      rw [isLater] at first fits
      rw [isLater, List.isEmpty_cons, Bool.and_false] at nextHolds
      obtain ⟨last, others, lastHolds⟩ :=
        Fragment.consumes_laterFrames nextHolds closed (second :: rest) (List.cons_ne_nil _ _) fits
      exact ⟨last, first.trans others, lastHolds⟩

theorem consumes_messages (holds : handler.Holds isClient none handled)
    (messages : List (Message isClient)) :
    ∃ next, Consumes handleTCPStream handler (wire (messages.flatMap (Message.frames true))) next ∧
      next.Holds isClient none (handled ++ messages.map Message.payload) := by
  induction messages generalizing handler handled with
  | nil => exact ⟨handler, .refl handler, by simpa using holds⟩
  | cons message messages ih =>
      obtain ⟨next, first, nextHolds⟩ := message.consumes_frames holds true
      obtain ⟨last, others, lastHolds⟩ := ih nextHolds
      rw [List.flatMap_cons, wire_append]
      refine ⟨last, first.trans others, ?_⟩
      rwa [List.append_assoc] at lastHolds

/-!
## Streams
-/

theorem foldl_feed_messages (messages : List (Message isClient))
    (controls : List (Control isClient)) {pieces : List Bytes}
    (cut : pieces.flatten =
      wire (messages.flatMap (Message.frames true)) ++ wire (controls.map Subtype.val)) :
    ∃ last, pieces.foldl (feed handleTCPStream) (.running (create isClient) []) =
        .running last [] ∧
      last.handled = messages.map Message.payload := by
  obtain ⟨next, whole, nextHolds⟩ := consumes_messages (create_holds isClient) messages
  obtain ⟨last, behind, lastHolds⟩ := consumes_controls nextHolds controls
  refine ⟨last, handleTCPStream_incremental.foldl_feed_of_consumes ?_, lastHolds.handled⟩
  rw [cut]
  exact whole.trans behind

theorem foldl_feed_misplaced (messages : List (Message isClient))
    (unfinished : Option (Message isClient)) (controls : List (Control isClient))
    (frame : Frame isClient) (isData : isControlFrame frame.header.code = false)
    (misplaced : unfinished.isSome = true ↔ frame.header.code ≠ WSOpCode.continuation)
    {rest : Bytes} {pieces : List Bytes}
    (cut : pieces.flatten =
      wire (messages.flatMap (Message.frames true)) ++
        wire (unfinished.toList.flatMap (Message.frames false)) ++
        wire (controls.map Subtype.val) ++ (frame.bytes ++ rest)) :
    ∃ last, pieces.foldl (feed handleTCPStream) (.running (create isClient) []) =
        .stopped (.ok last) ∧
      last.handled = messages.map Message.payload ∧
      last.replies.getLast? = some (.close StatusCodes.protocolError []) := by
  obtain ⟨whole, wholeConsumes, wholeHolds⟩ := consumes_messages (create_holds isClient) messages
  have started : ∃ begun, Consumes handleTCPStream whole
        (wire (unfinished.toList.flatMap (Message.frames false))) begun ∧
      begun.Holds isClient (unfinished.map Message.payload) (messages.map Message.payload) := by
    cases unfinished with
    | none => exact ⟨whole, .refl whole, wholeHolds⟩
    | some message =>
        obtain ⟨begun, consumes, holds⟩ := message.consumes_frames wholeHolds false
        simp only [Option.toList_some, List.flatMap_cons, List.flatMap_nil, List.append_nil]
        exact ⟨begun, consumes, holds⟩
  obtain ⟨begun, begunConsumes, begunHolds⟩ := started
  obtain ⟨next, nextConsumes, nextHolds⟩ := consumes_controls begunHolds controls
  obtain ⟨last, stops, lastHandled, lastReplies⟩ :=
    frame.stops_misplaced nextHolds isData (by rw [Option.isSome_map, misplaced]; simp) rest
  refine ⟨last, ?_, lastHandled, ?_⟩
  · rw [handleTCPStream_incremental.foldl_feed, cut,
      (wholeConsumes.trans begunConsumes).trans nextConsumes]
    exact stops
  · rw [lastReplies, List.getLast?_concat]

/-- Fragmented messages are handled whole and in order whatever comes between the
fragments, and a data frame out of its place ends the connection. -/
theorem handleTCPStream_fragmented (isClient : Bool) :
    (∀ (messages : List (Message isClient)) (controls : List (Control isClient))
        (pieces : List Bytes),
      pieces.flatten =
        wire (messages.flatMap (Message.frames true)) ++ wire (controls.map Subtype.val) →
      ∃ last, pieces.foldl (feed handleTCPStream) (.running (create isClient) []) =
          .running last [] ∧
        last.handled = messages.map Message.payload) ∧
    (∀ (handler : WebSocketHandler) (control : Control handler.isClient), ∃ replies, ∀ rest,
      handler.handleTCPStream (control.val.bytes ++ rest) =
        .advance { handler with lastFlags := control.val.flags, replies := replies } rest) ∧
    (∀ (messages : List (Message isClient)) (unfinished : Option (Message isClient))
        (controls : List (Control isClient)) (frame : Frame isClient) (rest : Bytes)
        (pieces : List Bytes),
      isControlFrame frame.header.code = false →
      (unfinished.isSome = true ↔ frame.header.code ≠ WSOpCode.continuation) →
      pieces.flatten =
        wire (messages.flatMap (Message.frames true)) ++
          wire (unfinished.toList.flatMap (Message.frames false)) ++
          wire (controls.map Subtype.val) ++ (frame.bytes ++ rest) →
      ∃ last, pieces.foldl (feed handleTCPStream) (.running (create isClient) []) =
          .stopped (.ok last) ∧
        last.handled = messages.map Message.payload ∧
        last.replies.getLast? = some (.close StatusCodes.protocolError [])) := by
  refine ⟨?_, ?_, ?_⟩
  · intro messages controls pieces cut
    exact foldl_feed_messages messages controls cut
  · intro handler control
    obtain ⟨replies, progress⟩ := Frame.handleTCPStream_pingPong rfl control.property
    exact ⟨replies, handleTCPStream_incremental.advance progress⟩
  · intro messages unfinished controls frame rest pieces isData misplaced cut
    exact foldl_feed_misplaced messages unfinished controls frame isData misplaced cut

def pingFrame : Control true :=
  ⟨⟨0x89, none, .seven, [7], by decide, fun _ => rfl⟩, by decide, by decide, by decide⟩

def fragmentOf (controls : List (Control true)) (payload : Bytes) (fits : payload.length < 126) :
    Fragment true :=
  ⟨controls, none, .seven, payload, fits, fun _ => rfl⟩

/-- Two fragments with a ping in between, cut within the ping. -/
theorem handleTCPStream_fragmented_ping :
    ∃ last, [[0x02, 0x02, 1, 2, 0x89], [0x01, 7, 0x80, 0x01, 3]].foldl (feed handleTCPStream)
        (.running (create true) []) = .running last [] ∧
      last.handled = [[1, 2, 3]] :=
  (handleTCPStream_fragmented true).1
    [⟨WSOpCode.binary, fragmentOf [] [1, 2] (by decide), [fragmentOf [pingFrame] [3] (by decide)],
      by decide, by decide⟩] [] _ (by decide)

end FreeOnline.Net
