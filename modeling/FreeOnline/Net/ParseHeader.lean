import FreeOnline.Net.HttpResponse

/-!
# Requests in the input buffer

`StreamSocket::parseHeader` looks for a whole request at the front of the input buffer,
which `compactChunks` then frees from the framing of its chunks. The fields of the request
come from a parser of their own, which is a parameter.
-/

set_option autoImplicit false

namespace FreeOnline.Net.StreamSocket

open FreeOnline.Library
open FreeOnline.Net.Http (Bytes cr lf bytesOf iequal)
open FreeOnline.Net.Http.Response (hexDigitFromChar)

/-- How the code can leave the buffer: an iterator that goes behind its end, or a byte that
is read or written outside. -/
inductive Fault where
  | moved
  | dereferenced
deriving DecidableEq

def sizeT (n : Int) : Nat := (n % 2 ^ 64).toNat

/-- The index of `Buffer::operator[]`, which is an `int`. -/
def intOf (n : Nat) : Int := if n % 2 ^ 32 < 2 ^ 31 then n % 2 ^ 32 else n % 2 ^ 32 - 2 ^ 32

/-- A `std::vector<char>`, with the size that it can have. -/
structure Buffer where
  bytes : Bytes
  fits : bytes.length < 2 ^ 63

structure MessageMap where
  headerSize : Nat
  messageSize : Nat
  spans : List (Nat × Nat)
deriving DecidableEq

def MessageMap.create : MessageMap := ⟨0, 0, []⟩

structure HTTPRequest where
  contentLength : Int
  inRange : -2 ^ 63 ≤ contentLength ∧ contentLength < 2 ^ 63
  chunkedTransferEncoding : Bool
  expect : Bytes

def unknownContentLength : Int := -1

structure Socket where
  inBuffer : Buffer
  outBuffer : Bytes
  sentHTTPContinue : Bool

/-!
## Chunks
-/

def isSpace (ch : UInt8) : Bool := ch = 0x20 || (0x09 ≤ ch && ch ≤ 0x0d)

def readChunkLen (chunkLen : Nat) : Bytes → Nat × Bytes
  | [] => (chunkLen, [])
  | ch :: rest =>
      match hexDigitFromChar ch with
      | some digit => readChunkLen (sizeT (chunkLen * 16 + digit)) rest
      | none => (chunkLen, ch :: rest)

/-- The length in the line at the iterator, and where this is behind the line. -/
def readChunkLine (itBody : Bytes) : Nat × Bytes :=
  let (chunkLen, itBody) := readChunkLen 0 (itBody.dropWhile isSpace)
  (chunkLen, (itBody.dropWhile (· ≠ lf)).drop 1)

abbrev Parsed := Except Fault (Bool × MessageMap)

/-- The line break behind the data of a chunk. -/
def parseChunkEnd (map : MessageMap) : Bytes → Progress MessageMap UInt8 Parsed
  | [] => .stop (.error .dereferenced)
  | first :: itBody =>
      if first ≠ cr then .stop (.ok (false, map))
      else
        match itBody with
        | [] => .stop (.error .dereferenced)
        | second :: itBody =>
            if second ≠ lf then .stop (.ok (false, map)) else .advance map itBody

/-- One round of the loop over the chunks; `itBody` is what is left of the buffer. -/
def parseChunk (size : Nat) (map : MessageMap) (itBody : Bytes) : Progress MessageMap UInt8 Parsed :=
  if itBody.length = 0 then .wait map
  else
    let (chunkLen, itBody) := readChunkLine itBody
    let chunkOffset := size - itBody.length
    let chunkAvailable := size - chunkOffset
    if chunkLen = 0 then .stop (.ok (true, { map with messageSize := chunkOffset }))
    else if sizeT (chunkAvailable + 2) < chunkLen then .stop (.ok (false, map))
    else if itBody.length < chunkLen then .stop (.error .moved)
    else
      parseChunkEnd { map with spans := map.spans ++ [(chunkOffset, chunkLen)] }
        (itBody.drop chunkLen)

def parseChunks (size : Nat) (map : MessageMap) (itBody : Bytes) : Parsed :=
  match drain (parseChunk size) map itBody with
  | .running map _ => .ok (false, map)
  | .stopped parsed => parsed

/-!
## The request
-/

def marker : Bytes := [cr, lf, cr, lf]

/-- What is behind the first marker. -/
def searchMarker : Bytes → Option Bytes
  | [] => none
  | ch :: rest =>
      if marker.isPrefixOf (ch :: rest) then some ((ch :: rest).drop marker.length)
      else searchMarker rest

def httpContinue : Bytes := bytesOf "HTTP/1.1 100 Continue\r\n\r\n"

def Socket.sendContinue (socket : Socket) (request : HTTPRequest) : Socket :=
  if iequal request.expect (bytesOf "100-continue") ∧ socket.sentHTTPContinue = false then
    { socket with outBuffer := socket.outBuffer ++ httpContinue, sentHTTPContinue := true }
  else socket

/-- Whether there is a whole request. No request is read where the parser of the fields
throws. -/
def Socket.parseHeader (readRequest : Bytes → Option HTTPRequest) (socket : Socket)
    (map : MessageMap) : Except Fault (Bool × Socket × MessageMap) :=
  let inBuffer := socket.inBuffer.bytes
  match searchMarker inBuffer with
  | none => .ok (false, socket, map)
  | some itBody =>
      let offset := inBuffer.length - itBody.length
      let map := { map with headerSize := offset, messageSize := offset }
      match readRequest inBuffer with
      | none => .ok (false, socket, map)
      | some request =>
          let available : Int := inBuffer.length - offset
          if request.contentLength ≠ unknownContentLength ∧ available < request.contentLength then
            .ok (false, socket, map)
          else
            let map := { map with messageSize := sizeT (map.messageSize + request.contentLength) }
            let socket := socket.sendContinue request
            if request.chunkedTransferEncoding then
              let map := { map with spans := map.spans ++ [(0, offset)] }
              match parseChunks inBuffer.length map itBody with
              | .error fault => .error fault
              | .ok (found, map) => .ok (found, socket, map)
            else .ok (true, socket, map)

/-!
## Compaction
-/

/-- `std::memmove` of a span to where the last one ends. -/
def moveSpan (state : Bytes × Nat) (span : Nat × Nat) : Except Fault (Bytes × Nat) :=
  let (inBuffer, dest) := state
  let source := intOf span.1
  if source < 0 ∨ inBuffer.length < source + span.2 ∨ inBuffer.length < dest + span.2 then
    .error .dereferenced
  else
    .ok (inBuffer.take dest ++ (inBuffer.drop source.toNat).take span.2 ++
      inBuffer.drop (dest + span.2), dest + span.2)

def compactChunks (inBuffer : Bytes) (map : MessageMap) : Except Fault (Bool × Bytes × MessageMap) :=
  if map.spans.length = 0 then .ok (false, inBuffer, map)
  else
    match map.spans.foldlM moveSpan (inBuffer, 0) with
    | .error fault => .error fault
    | .ok (inBuffer, newEnd) =>
        let gap := sizeT (map.messageSize - newEnd)
        if map.messageSize < newEnd ∨ inBuffer.length < map.messageSize then .error .moved
        else
          .ok (true, inBuffer.take newEnd ++ inBuffer.drop map.messageSize,
            { map with messageSize := sizeT (map.messageSize - gap) })

end FreeOnline.Net.StreamSocket
