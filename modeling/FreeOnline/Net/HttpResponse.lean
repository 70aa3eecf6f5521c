import Mathlib.Algebra.Ring.Int.Defs
import Mathlib.Algebra.Ring.Nat
import Mathlib.Data.Nat.Digits.Defs
import FreeOnline.Library.Stream

/-!
# Receiving a response

The parser of `http::Response` with its stages, and the session that gives it what
arrives on the socket. The header fields come from a parser of their own, which is a
parameter.
-/

set_option autoImplicit false

namespace FreeOnline.Net.Http

open FreeOnline.Library

abbrev Bytes := List UInt8

def cr : UInt8 := 0x0d
def lf : UInt8 := 0x0a

/-!
## Lines
-/

def isWhitespace (ch : UInt8) : Bool := ch = 0x20 || ch = 0x09 || ch = cr

def findFrom (stops : UInt8 → Bool) (p : Bytes) (off : Nat) : Nat :=
  if p.length ≤ off then p.length else off + (p.drop off).findIdx stops

def skipSpaceAndTab (p : Bytes) (off : Nat) : Nat := findFrom (fun ch => !isWhitespace ch) p off

def skipCRLF (p : Bytes) (off : Nat) : Nat := findFrom (fun ch => ch ≠ cr && ch ≠ lf) p off

def findLineBreak (p : Bytes) (off : Nat) : Nat := findFrom (· = lf) p off

def findBlankLineFor (p : Bytes) : Nat → Nat → Nat
  | 0, _ => p.length
  | fuel + 1, off =>
      if p.length ≤ off then p.length
      else
        let off := findLineBreak p off
        if p.length ≤ off + 2 then p.length
        else if p[off + 1]? = some cr ∧ p[off + 2]? = some lf then off + 2
        else findBlankLineFor p fuel (off + 3)

def findBlankLine (p : Bytes) (off : Nat) : Nat := findBlankLineFor p (p.length + 1) off

/-!
## The status line
-/

inductive FieldParseState where
  | incomplete
  | invalid
  | valid
deriving DecidableEq

inductive StatusCodeClass where
  | invalid
  | informational
  | successful
  | redirection
  | clientError
  | serverError
deriving DecidableEq

structure StatusLine where
  httpVersion : Bytes
  versionMajor : Nat
  versionMinor : Nat
  statusCode : Nat
  reasonPhrase : Bytes
deriving DecidableEq

namespace StatusLine

def versionLen : Nat := 8
def statusCodeLen : Nat := 3
def maxReasonPhraseLen : Nat := 512
def minStatusLineLen : Nat := 14
def maxStatusLineLen : Nat := versionLen + statusCodeLen + maxReasonPhraseLen
def minValidStatusCode : Nat := 100
def maxValidStatusCode : Nat := 599

def create : StatusLine := ⟨[], 1, 1, 0, []⟩

def statusCategory (statusLine : StatusLine) : StatusCodeClass :=
  if 500 ≤ statusLine.statusCode ∧ statusLine.statusCode < 600 then .serverError
  else if 400 ≤ statusLine.statusCode then .clientError
  else if 300 ≤ statusLine.statusCode then .redirection
  else if 200 ≤ statusLine.statusCode then .successful
  else if 100 ≤ statusLine.statusCode then .informational
  else .invalid

def isDigit (ch : UInt8) : Bool := 0x30 ≤ ch && ch ≤ 0x39

def digitOf (ch : UInt8) : Nat := ch.toNat - 0x30

/-- `Util::safe_atoi` from a digit on: the number stays below the maximum of an `int`. -/
def safeAtoi (p : Bytes) : Nat :=
  (p.takeWhile isDigit).foldl
    (fun value ch =>
      if 2 ^ 31 - 1 ≤ value * 10 + digitOf ch then 2 ^ 31 - 1 else value * 10 + digitOf ch) 0

def http : Bytes := [0x48, 0x54, 0x54, 0x50, 0x2f]

def isVersion (version : Bytes) : Bool :=
  http.isPrefixOf version && isDigit (version.getD 5 0) && version.getD 6 0 = 0x2e &&
    isDigit (version.getD 7 0) && isWhitespace (version.getD 8 0)

def parse (statusLine : StatusLine) (p : Bytes) : FieldParseState × StatusLine × Nat :=
  if p.length < minStatusLineLen then (.incomplete, statusLine, 0)
  else
    let off := skipSpaceAndTab p 0
    if maxStatusLineLen ≤ off then (.invalid, statusLine, 0)
    else if p.length - off < minStatusLineLen then (.incomplete, statusLine, 0)
    else
      let version := p.drop off
      if !isVersion version then (.invalid, statusLine, 0)
      else
        let statusLine :=
          { statusLine with
            httpVersion := version.take versionLen
            versionMajor := digitOf (version.getD 5 0)
            versionMinor := digitOf (version.getD 7 0) }
        let off := skipSpaceAndTab p (off + versionLen)
        if maxStatusLineLen ≤ off then (.invalid, statusLine, 0)
        else if p.length - off < minStatusLineLen - versionLen then (.incomplete, statusLine, 0)
        else if !isDigit (p.getD off 0) then (.invalid, statusLine, 0)
        else
          let statusLine := { statusLine with statusCode := safeAtoi (p.drop off) }
          if statusLine.statusCode < minValidStatusCode ∨ maxValidStatusCode < statusLine.statusCode
          then (.invalid, statusLine, 0)
          else
            let reasonOff := skipSpaceAndTab p (off + statusCodeLen)
            if maxStatusLineLen ≤ reasonOff then (.invalid, statusLine, 0)
            else
              let off := findLineBreak p reasonOff
              if p.length ≤ off then (.incomplete, statusLine, 0)
              else
                let stringSize := off - reasonOff - 1
                let statusLine :=
                  if 0 < stringSize then
                    { statusLine with reasonPhrase := (p.drop reasonOff).take stringSize }
                  else statusLine
                (.valid, statusLine, skipCRLF p off)

end StatusLine

/-!
## The header
-/

inductive HeaderRead where
  | exception
  | failed
  | fields (fields : List (Bytes × Bytes))

structure Header where
  headers : List (Bytes × Bytes)
  chunked : Bool
deriving DecidableEq

def trimmed (s : Bytes) : Bytes :=
  ((s.dropWhile (· = 0x20)).reverse.dropWhile (· = 0x20)).reverse

def toLower (ch : UInt8) : UInt8 := if 0x41 ≤ ch ∧ ch ≤ 0x5a then ch + 0x20 else ch

def iequal (lhs rhs : Bytes) : Bool := lhs.map toLower = rhs.map toLower

def bytesOf (s : String) : Bytes := s.toList.map fun ch => ch.toNat.toUInt8

namespace Header

def contentLength : Bytes := bytesOf "Content-Length"

def transferEncoding : Bytes := bytesOf "Transfer-Encoding"

def set (header : Header) (key value : Bytes) : Header :=
  match header.headers.findIdx? (·.1 = key) with
  | some index => { header with headers := header.headers.set index (key, value) }
  | none => { header with headers := header.headers ++ [(key, value)] }

def has (header : Header) (key : Bytes) : Bool := header.headers.any fun pair => iequal pair.1 key

def get (header : Header) (key : Bytes) : Bytes :=
  match header.headers.find? fun pair => iequal pair.1 key with
  | some pair => pair.2
  | none => []

def hasContentLength (header : Header) : Bool := header.has contentLength

def getTransferEncoding (header : Header) : Bytes := header.get transferEncoding

def getContentLength (header : Header) : Int :=
  let value := header.get contentLength
  if !StatusLine.isDigit (value.headD 0) then -1
  else
    let length := (value.takeWhile StatusLine.isDigit).foldl
      (fun length ch => length * 10 + StatusLine.digitOf ch) 0
    if 2 ^ 63 ≤ length then -1 else length

def parse (readFields : Bytes → HeaderRead) (header : Header) (p : Bytes) : Int × Header :=
  if p.length < 4 then (0, header)
  else
    let endPos := findBlankLine p 0
    if endPos = p.length then (0, header)
    else
      match readFields p with
      | .exception => (0, header)
      | .failed => (-1, header)
      | .fields fields =>
          let header := fields.foldl (fun header pair => header.set (trimmed pair.1) (trimmed pair.2))
            header
          let chunked : Bool := header.getTransferEncoding = bytesOf "chunked"
          (endPos + 1, { header with chunked := chunked })

end Header

/-!
## The response
-/

inductive State where
  | new
  | incomplete
  | error
  | timeout
  | complete
deriving DecidableEq

inductive ParserStage where
  | statusLine
  | header
  | body
  | finished
deriving DecidableEq

/-- A response that is received, with what its body callback returns for some data,
the body that this has taken, and the number of calls of the other callback. -/
structure Response where
  statusLine : StatusLine
  header : Header
  state : State
  parserStage : ParserStage
  recvBodySize : Nat
  onBodyWriteCb : Bytes → Int
  body : Bytes
  finishedCalls : Nat

namespace Response

def memoryCb (data : Bytes) : Int := data.length

def create : Response where
  statusLine := .create
  header := ⟨[], false⟩
  state := .new
  parserStage := .statusLine
  recvBodySize := 0
  onBodyWriteCb := memoryCb
  body := []
  finishedCalls := 0

variable (response : Response)

def saveBodyToMemory : Response := { response with onBodyWriteCb := memoryCb }

def done : Bool :=
  response.state = .error || response.state = .timeout || response.state = .complete

def finishWith (newState : State) : Response :=
  if response.done then response
  else { response with state := newState, finishedCalls := response.finishedCalls + 1 }

def complete : Response := response.finishWith .complete

def finish : Response := response.finishWith .error

def writeBody (data : Bytes) : Int × Response :=
  let wrote := response.onBodyWriteCb data
  (wrote, { response with body := response.body ++ data.take wrote.toNat })

def addRecvBodySize (size : Nat) : Response :=
  { response with recvBodySize := response.recvBodySize + size }

/-!
### Chunks
-/

def hexDigitFromChar (ch : UInt8) : Option Nat :=
  if 0x30 ≤ ch ∧ ch ≤ 0x39 then some (ch.toNat - 0x30)
  else if 0x61 ≤ ch ∧ ch ≤ 0x66 then some (ch.toNat - 0x61 + 10)
  else if 0x41 ≤ ch ∧ ch ≤ 0x46 then some (ch.toNat - 0x41 + 10)
  else none

def readChunkLen (chunkLen : Nat) : Bytes → Option Nat
  | [] => some chunkLen
  | ch :: rest =>
      match hexDigitFromChar ch with
      | none => some chunkLen
      | some digit =>
          if (2 ^ 63 - 1) / 16 ≤ chunkLen then none
          else readChunkLen (chunkLen * 16 + digit) rest

inductive ChunkEnd where
  | lastChunk (response : Response)
  | failed (response : Response)

def readChunk (response : Response) (p : Bytes) : Progress Response UInt8 ChunkEnd :=
  if p.length = 0 then .wait response
  else
    let off := findLineBreak p 0
    if off = p.length then .wait response
    else
      let off := off + 1
      match readChunkLen 0 p with
      | none => .stop (.failed response)
      | some chunkLen =>
          if 0 < chunkLen then
            if p.length - off < chunkLen + 2 then .wait response
            else
              let (read, response) := response.writeBody ((p.drop off).take chunkLen)
              if read ≠ chunkLen then .stop (.failed response)
              else
                let rest := p.drop (off + chunkLen)
                .advance (response.addRecvBodySize chunkLen) (rest.drop (skipCRLF rest 0))
          else .stop (.lastChunk response)

/-!
### Reading
-/

abbrev Read := Int × Response

def consumed (len available : Int) (response : Response) : Read :=
  (len - available, if response.parserStage = .finished then response.complete else response)

def readBody (len : Nat) (p : Bytes) : Read :=
  if response.parserStage ≠ .body ∨ p.length = 0 then consumed len p.length response
  else if response.header.chunked then
    match drain readChunk response p with
    | .running response rest => ((len : Int) - rest.length, response)
    | .stopped (.failed response) => (-1, response)
    | .stopped (.lastChunk response) => consumed len 0 { response with parserStage := .finished }
  else
    let (wrote, response) := response.writeBody p
    if wrote < 0 then (wrote, response)
    else if wrote = 0 then consumed len p.length response
    else
      let response := response.addRecvBodySize wrote.toNat
      let response :=
        if response.header.hasContentLength ∧
            response.header.getContentLength ≤ response.recvBodySize then
          { response with parserStage := .finished }
        else response
      consumed len (p.length - wrote) response

/-- What follows the header, which is an error if its fields contradict each other. -/
def afterHeader : Except Response Response :=
  let response := { response with parserStage := .body }
  let status := response.statusLine
  if status.statusCategory = .informational ∨ status.statusCode = 204 ∨ status.statusCode = 304 then
    .ok { response with parserStage := .finished }
  else
    let response :=
      if status.statusCategory ≠ .successful then response.saveBodyToMemory else response
    if response.header.hasContentLength then
      if response.header.getContentLength < 0 ∨ response.header.getTransferEncoding ≠ [] then
        .error response
      else if response.header.getContentLength = 0 then
        .ok { response with parserStage := .finished }
      else .ok response
    else .ok response

def readHeader (readFields : Bytes → HeaderRead) (p : Bytes) : Read :=
  if response.parserStage ≠ .header ∨ p.length = 0 then response.readBody p.length p
  else
    let (read, header) := response.header.parse readFields p
    let response := { response with header := header }
    if read < 0 then (read, response)
    else if read = 0 then response.readBody p.length p
    else
      match response.afterHeader with
      | .error response => (-1, response)
      | .ok response => response.readBody p.length (p.drop read.toNat)

/-- Handles incoming data. The status line is not consumed, since the parser of the
header starts with it. -/
def readData (readFields : Bytes → HeaderRead) (p : Bytes) : Read :=
  let response := { response with state := .incomplete }
  if response.parserStage ≠ .statusLine then response.readHeader readFields p
  else
    match response.statusLine.parse p with
    | (.incomplete, statusLine, _) => (0, { response with statusLine := statusLine })
    | (.invalid, statusLine, _) => (-1, { response with statusLine := statusLine })
    | (.valid, statusLine, read) =>
        let response := { response with statusLine := statusLine }
        if read = 0 then (0, response)
        else { response with parserStage := .header }.readHeader readFields p

/-- A finished response takes nothing and completes once more. -/
theorem readData_finished (readFields : Bytes → HeaderRead) {response : Response}
    (finished : response.parserStage = .finished) (p : Bytes) :
    response.readData readFields p =
      (0, { response with
        state := .complete
        finishedCalls := response.finishedCalls + 1 }) := by
  simp [readData, readHeader, readBody, consumed, complete, finishWith, done, finished]

end Response

/-!
## The session
-/

structure Session where
  response : Response
  inBuffer : Bytes
  connected : Bool

namespace Session

def onDisconnect (session : Session) : Session :=
  { session with connected := false, response := session.response.finish }

def handleIncomingMessage (readFields : Bytes → HeaderRead) (session : Session) : Session :=
  if session.inBuffer.length = 0 then session
  else
    let (read, response) := session.response.readData readFields session.inBuffer
    let session := { session with response := response }
    if 0 ≤ read then { session with inBuffer := session.inBuffer.drop read.toNat }
    else session.onDisconnect

def receive (readFields : Bytes → HeaderRead) (session : Session) (data : Bytes) : Session :=
  if session.connected then
    handleIncomingMessage readFields { session with inBuffer := session.inBuffer ++ data }
  else session

section Receiving

variable {readFields : Bytes → HeaderRead} {session : Session} {data : Bytes}

theorem receive_eq {read : Int} {response : Response}
    (connected : session.connected = true) (notEmpty : (session.inBuffer ++ data).length ≠ 0)
    (isRead : session.response.readData readFields (session.inBuffer ++ data) = (read, response))
    (notNegative : 0 ≤ read) :
    session.receive readFields data =
      { session with
        response := response
        inBuffer := (session.inBuffer ++ data).drop read.toNat } := by
  unfold Session.receive Session.handleIncomingMessage
  rw [if_pos connected, if_neg notEmpty]
  simp only [isRead]
  exact if_pos notNegative

theorem receive_failed (connected : session.connected = true)
    (notEmpty : (session.inBuffer ++ data).length ≠ 0)
    (negative : (session.response.readData readFields (session.inBuffer ++ data)).1 < 0) :
    session.receive readFields data =
      { session with
        response := (session.response.readData readFields (session.inBuffer ++ data)).2
        inBuffer := session.inBuffer ++ data }.onDisconnect := by
  unfold Session.receive Session.handleIncomingMessage
  rw [if_pos connected, if_neg notEmpty]
  exact if_neg (Int.not_le.mpr negative)

theorem receive_disconnected (disconnected : session.connected = false) :
    session.receive readFields data = session :=
  if_neg (by simp [disconnected])

theorem receive_nothing (empty : (session.inBuffer ++ data).length = 0) :
    data = [] ∧ session.receive readFields data = session := by
  obtain ⟨noBuffer, noData⟩ := List.append_eq_nil_iff.mp (List.eq_nil_of_length_eq_zero empty)
  refine ⟨noData, ?_⟩
  unfold Session.receive Session.handleIncomingMessage
  rw [noData, List.append_nil]
  split
  · exact if_pos (by rw [noBuffer]; rfl)
  · rfl

end Receiving

end Session

/-!
## Writing chunks
-/

def hexDigit (digit : Nat) : UInt8 := (if digit < 10 then 0x30 + digit else 0x61 + (digit - 10)).toUInt8

def toHex (n : Nat) : Bytes :=
  if n = 0 then [hexDigit 0] else (Nat.digits 16 n).reverse.map hexDigit

def appendChunk (body chunk : Bytes) : Bytes :=
  body ++ (toHex chunk.length ++ [cr, lf] ++ chunk ++ [cr, lf])

def chunkedBody (chunks : List Bytes) : Bytes := appendChunk (chunks.foldl appendChunk []) []

end FreeOnline.Net.Http
