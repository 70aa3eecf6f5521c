import FreeOnline.Library.Run
import FreeOnline.Net.StatusLineText
import Mathlib.Data.List.Nodup
import Mathlib.Data.List.Perm.Basic

/-!
# Sending and receiving a request

`http::Request` writes its first line, its header and its body, and reads the first line and the
header of a request that arrives. The header fields come from a parser of their own, which is a
parameter.
-/

set_option autoImplicit false

namespace FreeOnline.Net.Http

open FreeOnline.Library

def findEndOfToken (p : Bytes) (off : Nat) : Nat :=
  findFrom (fun ch => isWhitespace ch || ch = lf) p off

def Header.writeData (header : Header) (out : Bytes) : Bytes :=
  header.headers.foldl
    (fun out pair => out ++ pair.1 ++ bytesOf ": " ++ pair.2 ++ bytesOf "\r\n") out

namespace Request

inductive Stage where
  | header
  | body
  | finished
deriving DecidableEq

end Request

/-- A request with the blocks that its body callback still gives, of which none is an error. -/
structure Request where
  header : Header
  url : Bytes
  verb : Bytes
  version : Bytes
  bodyReaderCb : List (Option Bytes)
  stage : Request.Stage

namespace Request

def versionLen : Nat := 8

def minRequestHeaderLen : Nat := 16

def verbGet : Bytes := bytesOf "GET"

/-- The default of all arguments. -/
def create : Request where
  header := ⟨[], false⟩
  url := bytesOf "/"
  verb := verbGet
  version := bytesOf "HTTP/1.1"
  bodyReaderCb := []
  stage := .header

/-!
## Writing
-/

/-- The loop over the blocks of the body. -/
def writeBody (request : Request) (capacity wrote : Nat) (out : Bytes) :
    List (Option Bytes) → Bool × Bytes × Request
  | [] => (true, out, { request with bodyReaderCb := [], stage := .finished })
  | none :: later => (false, out, { request with bodyReaderCb := later })
  | some block :: later =>
      if block = [] then (true, out, { request with bodyReaderCb := later, stage := .finished })
      else if wrote + block.length < capacity then
        request.writeBody capacity (wrote + block.length) (out ++ block) later
      else (true, out ++ block, { request with bodyReaderCb := later })

def writeHead (request : Request) (out : Bytes) : Bytes :=
  request.header.writeData (out ++ request.verb ++ bytesOf " " ++ request.url ++ bytesOf " " ++
    request.version ++ bytesOf "\r\n") ++ bytesOf "\r\n"

/-- Whether all went well, the buffer and the request afterwards. -/
def writeData (request : Request) (out : Bytes) (capacity : Nat) : Bool × Bytes × Request :=
  let (out, request) :=
    if request.stage = .header then (request.writeHead out, { request with stage := .body })
    else (out, request)
  if request.stage = .body then request.writeBody capacity 0 out request.bodyReaderCb
  else (true, out, request)

/-!
## Reading
-/

/-- The first line, which is waited for until it is all there. -/
def readFirstLine (request : Request) (p : Bytes) : Progress Request UInt8 Request :=
  if p.length < minRequestHeaderLen then .wait request
  else
    let off := skipSpaceAndTab p 0
    let stop := findEndOfToken p off
    if stop = p.length then .wait request
    else
      let request := { request with verb := (p.drop off).take (stop - off) }
      let off := skipSpaceAndTab p stop
      let stop := findEndOfToken p off
      if stop = p.length then .wait request
      else
        let request := { request with url := (p.drop off).take (stop - off) }
        let off := skipSpaceAndTab p stop
        if p.length ≤ off + versionLen then .wait request
        else if !StatusLine.isVersion (p.drop off) then .stop request
        else
          let request := { request with version := (p.drop off).take versionLen }
          let stop := findLineBreak p (off + versionLen)
          if p.length ≤ stop then .wait request
          else .advance { request with stage := .body } (p.drop (stop + 1))

/-- The header, with the number of bytes there were at first. -/
def readHeader (readFields : Bytes → HeaderRead) (request : Request) (len : Nat) (p : Bytes) :
    Int × Request :=
  let (read, header) := request.header.parse readFields p
  let request := { request with header := header }
  if read < 0 then (read, request)
  else if request.verb = verbGet then (len - (p.length - read), request)
  else (-1, request)

def readData (readFields : Bytes → HeaderRead) (request : Request) (p : Bytes) : Int × Request :=
  match request.stage with
  | .header =>
      match request.readFirstLine p with
      | .wait request => (0, request)
      | .stop request => (-1, request)
      | .advance request rest => request.readHeader readFields p.length rest
  | .body => request.readHeader readFields p.length p
  | .finished => (0, request)

/-- A request that is received, what is left in the buffer, how much was consumed and whether there
was an error. -/
structure Receiving where
  request : Request
  buffer : Bytes
  consumed : Int
  failed : Bool

def Receiving.start : Receiving := ⟨create, [], 0, false⟩

/-- More data arrives and is presented with what is left. -/
def Receiving.receive (readFields : Bytes → HeaderRead) (state : Receiving) (piece : Bytes) :
    Receiving :=
  let buffer := state.buffer ++ piece
  let (read, request) := state.request.readData readFields buffer
  { request := request
    buffer := buffer.drop read.toNat
    consumed := state.consumed + read
    failed := state.failed || decide (read < 0) }

end Request

end FreeOnline.Net.Http
