import Mathlib.Algebra.Ring.Int.Defs
import Mathlib.Algebra.Ring.Nat
import FreeOnline.Library.Stream

/-!
# The WebSocket handler

Building frames and reading them from what has arrived on the socket. Reads are
checked against what there is to read, so that a read outside is seen.
-/

set_option autoImplicit false

namespace FreeOnline.Net

open FreeOnline.Library

/-- What ends a call without a return: a vector that would get too long, or an
access outside of a vector. -/
inductive Fault where
  | lengthError
  | outOfBounds
deriving DecidableEq, Repr

def sizeModulus : Nat := 2 ^ 64

def maxSize : Nat := 2 ^ 63 - 1

abbrev Bytes := List UInt8

def byteAt (bytes : Bytes) (index : Nat) : Except Fault UInt8 :=
  match bytes[index]? with
  | some byte => .ok byte
  | none => .error .outOfBounds

def slice (bytes : Bytes) (start count : Nat) : Except Fault Bytes :=
  if start + count ≤ bytes.length then .ok ((bytes.drop start).take count)
  else .error .outOfBounds

def bigEndian (bytes : Bytes) : Nat :=
  bytes.foldl (fun value byte => value * 256 + byte.toNat) 0

/-!
## Frames and their headers
-/

namespace WSOpCode

def continuation : UInt8 := 0x0
def binary : UInt8 := 0x2
def close : UInt8 := 0x8
def ping : UInt8 := 0x9
def pong : UInt8 := 0xa

end WSOpCode

namespace StatusCodes

def normalClose : Nat := 1000
def protocolError : Nat := 1002

end StatusCodes

def isControlFrame (code : UInt8) : Bool := WSOpCode.close ≤ code

structure FrameHeader where
  flags : UInt8
  hasMask : Bool
  payloadLen : Nat
  headerLen : Nat
deriving DecidableEq

namespace FrameHeader

def fin (header : FrameHeader) : Bool := header.flags &&& 0x80 ≠ 0

def code (header : FrameHeader) : UInt8 := header.flags &&& 0x0f

def frameLen (header : FrameHeader) : Nat :=
  (header.payloadLen + header.headerLen) % sizeModulus

end FrameHeader

/-- The length of the payload and that of the header up to there, from the 7 bit
length; `none` if they have not arrived. -/
def readLength (buffer : Bytes) (short : Nat) : Except Fault (Option (Nat × Nat)) :=
  if short = 126 then
    if buffer.length < 2 + 2 then .ok none
    else do return some (bigEndian (← slice buffer 2 2), 2 + 2)
  else if short = 127 then
    if buffer.length < 2 + 8 then .ok none
    else do return some (bigEndian (← slice buffer 2 8), 2 + 8)
  else .ok (some (short, 2))

def readHeader (buffer : Bytes) : Except Fault (Option FrameHeader) := do
  let flags ← byteAt buffer 0
  let second ← byteAt buffer 1
  let hasMask : Bool := second &&& 0x80 ≠ 0
  match ← readLength buffer (second &&& 0x7f).toNat with
  | none => return none
  | some (payloadLen, headerLen) =>
      return some ⟨flags, hasMask, payloadLen, headerLen + if hasMask then 4 else 0⟩

def applyMask (mask data : Bytes) : Bytes :=
  data.mapIdx fun i byte => byte ^^^ mask.getD (i % 4) 0

def readPayload (buffer : Bytes) (header : FrameHeader) (payload : Bytes) : Except Fault Bytes :=
  if header.payloadLen = 0 then .ok payload
  else if header.hasMask then
    -- The new size wraps around, and what is written goes behind the old end.
    let newSize := (payload.length + header.payloadLen) % sizeModulus
    if maxSize < newSize then .error .lengthError
    else if newSize < payload.length + header.payloadLen then .error .outOfBounds
    else do
      let mask ← slice buffer (header.headerLen - 4) 4
      let data ← slice buffer header.headerLen header.payloadLen
      return payload ++ applyMask mask data
  else if maxSize - payload.length < header.payloadLen then .error .lengthError
  else do
    let data ← slice buffer header.headerLen header.payloadLen
    return payload ++ data

def eraseFirst (buffer : Bytes) (count : Nat) : Except Fault Bytes :=
  if count ≤ buffer.length then .ok (buffer.drop count) else .error .outOfBounds

/-!
## The handler
-/

inductive Reply where
  | pong (payload : Bytes)
  | close (statusCode : Nat) (message : Bytes)
deriving DecidableEq

structure WebSocketHandler where
  isClient : Bool
  inFragmentBlock : Bool
  lastFlags : UInt8
  wsPayload : Bytes
  shuttingDown : Bool
  handled : List Bytes
  replies : List Reply
deriving DecidableEq

namespace WebSocketHandler

def create (isClient : Bool) : WebSocketHandler where
  isClient := isClient
  inFragmentBlock := false
  lastFlags := 0
  wsPayload := []
  shuttingDown := false
  handled := []
  replies := []

variable (handler : WebSocketHandler)

/-- Sends a close frame unless it was sent, and closes the connection, which drops
the input that is left and all that comes. -/
def shutdown (statusCode : Nat) (message : Bytes) : WebSocketHandler :=
  { handler with
    inFragmentBlock := false
    wsPayload := []
    shuttingDown := false
    replies :=
      if handler.shuttingDown then handler.replies
      else handler.replies ++ [.close statusCode message] }

def sendPong (payload : Bytes) : WebSocketHandler :=
  if payload.length = 0 then handler
  else { handler with replies := handler.replies ++ [.pong payload] }

def readClose (ctrlPayload : Bytes) : Except Fault (Nat × Bytes) :=
  if handler.shuttingDown then .ok (StatusCodes.normalClose, [])
  else if ctrlPayload.length = 0 then .ok (StatusCodes.normalClose, [])
  else do
    let first ← byteAt ctrlPayload 0
    let second ← byteAt ctrlPayload 1
    return (first.toNat * 256 + second.toNat, ctrlPayload.drop 2)

/-- Waits for more input, goes on behind a frame, or stops: shut down, or by a fault. -/
abbrev Step := Progress WebSocketHandler UInt8 (Except Fault WebSocketHandler)

def protocolError : Step :=
  .stop (.ok (handler.shutdown StatusCodes.protocolError []))

def handleControlFrame (buffer : Bytes) (header : FrameHeader) : Step :=
  match readPayload buffer header [] with
  | .error fault => .stop (.error fault)
  | .ok ctrlPayload =>
      match eraseFirst buffer header.frameLen with
      | .error fault => .stop (.error fault)
      | .ok rest =>
          if !header.fin then handler.protocolError
          else if 125 < header.payloadLen then handler.protocolError
          else if header.code = WSOpCode.pong then .advance handler rest
          else if header.code = WSOpCode.ping then .advance (handler.sendPong ctrlPayload) rest
          else if header.code = WSOpCode.close then
            match handler.readClose ctrlPayload with
            | .error fault => .stop (.error fault)
            | .ok (statusCode, message) => .stop (.ok (handler.shutdown statusCode message))
          else handler.protocolError

def takeDataFrame (fin : Bool) (payload : Bytes) : WebSocketHandler :=
  if fin then
    { handler with
      handled := handler.handled ++ [payload]
      inFragmentBlock := false
      wsPayload := [] }
  else { handler with inFragmentBlock := true, wsPayload := payload }

def handleDataFrame (buffer : Bytes) (header : FrameHeader) : Step :=
  if handler.inFragmentBlock && header.code ≠ WSOpCode.continuation then handler.protocolError
  else if !handler.inFragmentBlock && header.code = WSOpCode.continuation then
    handler.protocolError
  else
    match readPayload buffer header handler.wsPayload with
    | .error fault => .stop (.error fault)
    | .ok payload =>
        match eraseFirst buffer header.frameLen with
        | .error fault => .stop (.error fault)
        | .ok rest => .advance (handler.takeDataFrame header.fin payload) rest

def handleFrame (buffer : Bytes) (header : FrameHeader) : Step :=
  if header.hasMask && handler.isClient then handler.protocolError
  else if isControlFrame header.code then handler.handleControlFrame buffer header
  else handler.handleDataFrame buffer header

def handleTCPStream (buffer : Bytes) : Step :=
  if buffer.length < 2 then .wait handler
  else
    match byteAt buffer 0 with
    | .error fault => .stop (.error fault)
    | .ok flags =>
        let handler := { handler with lastFlags := flags }
        match readHeader buffer with
        | .error fault => .stop (.error fault)
        | .ok none => .wait handler
        | .ok (some header) =>
            if buffer.length < header.frameLen then .wait handler
            else handler.handleFrame buffer header

end WebSocketHandler

/-!
## Building frames
-/

def toInt (len : Nat) : Int :=
  if len % 2 ^ 32 < 2 ^ 31 then (len % 2 ^ 32 : Nat) else (len % 2 ^ 32 : Nat) - 2 ^ 32

/-- `Buffer::append`, which takes the length as an `int`. -/
def append (out data : Bytes) (len : Nat) : Except Fault Bytes :=
  if toInt len < 0 then .error .lengthError
  else do
    let appended ← slice data 0 (toInt len).toNat
    return out ++ appended

def frameMask : Bytes := [0x81, 0x76, 0x81, 0x76]

/-- Masks the data from `sent` on in blocks of the size of the scratch buffer. -/
def appendMasked (data : Bytes) : Nat → Nat → Bytes → Except Fault Bytes
  | 0, _, out => .ok out
  | fuel + 1, sent, out =>
      let toSend := min 16384 (data.length - sent)
      if toSend = 0 then .ok out
      else do
        let block ← slice (applyMask frameMask data) sent toSend
        let out ← append out block toSend
        appendMasked data fuel (sent + toSend) out

def frameLength (len : Nat) (maskFlag : UInt8) : Bytes :=
  if len < 126 then [len.toUInt8 ||| maskFlag]
  else if len ≤ 0xffff then [126 ||| maskFlag, (len >>> 8).toUInt8, len.toUInt8]
  else
    [127 ||| maskFlag, (len >>> 56).toUInt8, (len >>> 48).toUInt8, (len >>> 40).toUInt8,
      (len >>> 32).toUInt8, (len >>> 24).toUInt8, (len >>> 16).toUInt8, (len >>> 8).toUInt8,
      len.toUInt8]

def buildFrame (isMasking : Bool) (data : Bytes) (flags : UInt8) : Except Fault Bytes :=
  let header := (0x80 ||| flags) :: frameLength data.length (if isMasking then 0x80 else 0)
  if isMasking then appendMasked data (data.length + 1) 0 (header ++ frameMask)
  else append header data data.length

end FreeOnline.Net
