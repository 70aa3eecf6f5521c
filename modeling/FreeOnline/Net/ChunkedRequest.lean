import FreeOnline.Net.RequestBounds

/-!
# Requests with a chunked body

What a client sends, against what `parseHeader` and `compactChunks` make of it. The parser
takes the digit zero for the last chunk before its line is complete, and leaves the blank
line behind it in the buffer.
-/

set_option autoImplicit false

namespace FreeOnline.Net.StreamSocket

open FreeOnline.Library
open FreeOnline.Net.Http (Bytes cr lf bytesOf)
open FreeOnline.Net.Http.Response (hexDigitFromChar)

/-!
## What is sent
-/

def IsHex (digits : Bytes) (n : Nat) : Prop :=
  digits ≠ [] ∧ ∃ values, digits.mapM hexDigitFromChar = some values ∧
    values.foldl (fun value digit => value * 16 + digit) 0 = n

structure SentChunk where
  size : Bytes
  data : Bytes
  notEmpty : data ≠ []
  isSize : IsHex size data.length

def SentChunk.bytes (chunk : SentChunk) : Bytes :=
  chunk.size ++ [cr, lf] ++ (chunk.data ++ [cr, lf])

/-- A head that ends with the first blank line, the chunks, the digits of the last one, and
what else is in the buffer. -/
structure ChunkedMessage (readRequest : Bytes → Option HTTPRequest) where
  lines : Bytes
  request : HTTPRequest
  chunks : List SentChunk
  zero : Bytes
  following : Bytes
  noMarker : ¬ marker <:+: lines ++ [cr, lf, cr]
  isRead : ∀ rest, readRequest (lines ++ marker ++ rest) = some request
  chunked : request.chunkedTransferEncoding = true
  isZero : IsHex zero 0
  fits : (lines ++ marker ++ (chunks.flatMap SentChunk.bytes ++ (zero ++ [cr, lf]) ++ [cr, lf]) ++
    following).length < 2 ^ 63

namespace ChunkedMessage

variable {readRequest : Bytes → Option HTTPRequest} (message : ChunkedMessage readRequest)

def head : Bytes := message.lines ++ marker

def untilLastLine : Bytes :=
  message.head ++ (message.chunks.flatMap SentChunk.bytes ++ (message.zero ++ [cr, lf]))

def bytes : Bytes := message.untilLastLine ++ [cr, lf]

def data : Bytes := message.chunks.flatMap SentChunk.data

/-- The request is found when it is there and not before, and then its data is behind its
head, with what follows the request behind it. -/
structure ReadsRequest : Prop where
  waits : ∀ socket : Socket, socket.inBuffer.bytes <+: message.untilLastLine →
    socket.inBuffer.bytes ≠ message.untilLastLine →
    ∃ next map, socket.parseHeader readRequest .create = .ok (false, next, map)
  finds : ∀ socket : Socket, socket.inBuffer.bytes = message.bytes ++ message.following →
    ∃ next map moved last, socket.parseHeader readRequest .create = .ok (true, next, map) ∧
      compactChunks socket.inBuffer.bytes map =
        .ok (moved, message.head ++ message.data ++ message.following, last) ∧
      last.messageSize = (message.head ++ message.data).length

end ChunkedMessage

/-!
## What is parsed
-/

private theorem mapM_cons {ch : UInt8} {digits : Bytes} {values : List Nat}
    (areDigits : (ch :: digits).mapM hexDigitFromChar = some values) :
    ∃ digit others, hexDigitFromChar ch = some digit ∧
      digits.mapM hexDigitFromChar = some others ∧ values = digit :: others := by
  cases isDigit : hexDigitFromChar ch with
  | none => simp [List.mapM_cons, isDigit] at areDigits
  | some digit =>
      cases areOthers : digits.mapM hexDigitFromChar with
      | none => simp [List.mapM_cons, isDigit, areOthers] at areDigits
      | some others =>
          simp [List.mapM_cons, isDigit, areOthers] at areDigits
          exact ⟨digit, others, rfl, rfl, areDigits.symm⟩

private theorem readChunkLen_digits {digits : Bytes} {values : List Nat} {chunkLen start : Nat}
    (areDigits : digits.mapM hexDigitFromChar = some values) (isStart : chunkLen = start % 2 ^ 64) :
    (readChunkLen chunkLen digits).1 =
        values.foldl (fun value digit => value * 16 + digit) start % 2 ^ 64 ∧
      ∀ ch ∈ digits, hexDigitFromChar ch ≠ none := by
  induction digits generalizing values chunkLen start with
  | nil =>
      cases areDigits
      exact ⟨isStart, nofun⟩
  | cons ch digits ih =>
      obtain ⟨digit, others, isDigit, areOthers, rfl⟩ := mapM_cons areDigits
      have next : sizeT ((chunkLen : Int) * 16 + digit) = (start * 16 + digit) % 2 ^ 64 := by
        unfold sizeT
        omega
      obtain ⟨value, allDigits⟩ := ih areOthers next
      refine ⟨?_, ?_⟩
      · rw [readChunkLen, isDigit]
        exact value
      · intro other isMember
        rcases List.mem_cons.mp isMember with rfl | isMember
        · simp [isDigit]
        · exact allDigits other isMember

theorem IsHex.readChunkLine {digits : Bytes} {n : Nat} (isHex : IsHex digits n) (small : n < 2 ^ 64)
    (more : Bytes) : readChunkLine (digits ++ [cr, lf] ++ more) = (n, more) := by
  obtain ⟨notEmpty, values, areDigits, isValue⟩ := isHex
  obtain ⟨value, allDigits⟩ := readChunkLen_digits areDigits (Nat.zero_mod _).symm
  have other : StartsOther [cr] := by
    intro ch isFirst
    cases isFirst
    decide
  have isLine := @readChunkLine_eq [] digits [cr] nofun notEmpty allDigits other (by decide) more
  rw [value, isValue, Nat.mod_eq_of_lt small] at isLine
  simpa using isLine

/-- The parser takes the chunks as they are sent. -/
private theorem exists_requestChunks {chunks : List SentChunk}
    (small : ∀ chunk ∈ chunks, chunk.data.length < 2 ^ 64) :
    ∃ parsed : List RequestChunk,
      parsed.flatMap RequestChunk.bytes = chunks.flatMap SentChunk.bytes ∧
      parsed.flatMap RequestChunk.data = chunks.flatMap SentChunk.data := by
  induction chunks with
  | nil => exact ⟨[], rfl, rfl⟩
  | cons chunk chunks ih =>
      obtain ⟨parsed, sameBytes, sameData⟩ :=
        ih fun other isMember => small other (List.mem_cons_of_mem _ isMember)
      have isLine := chunk.isSize.readChunkLine (small chunk List.mem_cons_self)
      refine ⟨⟨chunk.size ++ [cr, lf], chunk.data, chunk.notEmpty, isLine⟩ :: parsed, ?_, ?_⟩
      · rw [List.flatMap_cons, List.flatMap_cons, sameBytes]
        rfl
      · rw [List.flatMap_cons, List.flatMap_cons, sameData]

theorem searchMarker_head {lines : Bytes} (noMarker : ¬ marker <:+: lines ++ [cr, lf, cr])
    (rest : Bytes) : searchMarker (lines ++ marker ++ rest) = some rest := by
  induction lines with
  | nil => rfl
  | cons ch lines ih =>
      have notHere : ¬ marker.isPrefixOf (ch :: (lines ++ marker ++ rest)) = true := by
        intro isHere
        have whole : ch :: lines ++ [cr, lf, cr] <+: ch :: (lines ++ marker ++ rest) := by
          refine ⟨lf :: rest, ?_⟩
          simp [marker]
        exact noMarker (List.prefix_of_prefix_length_le (List.isPrefixOf_iff_prefix.mp isHere) whole
          (by simp [marker])).isInfix
      have noneBehind : ¬ marker <:+: lines ++ [cr, lf, cr] := fun behind =>
        noMarker (behind.trans (List.suffix_cons ch _).isInfix)
      rw [List.cons_append, List.cons_append, searchMarker, if_neg notHere]
      exact ih noneBehind

namespace ChunkedMessage

variable {readRequest : Bytes → Option HTTPRequest} (message : ChunkedMessage readRequest)

private theorem small : ∀ chunk ∈ message.chunks, chunk.data.length < 2 ^ 64 := by
  intro chunk isMember
  have fits := message.fits
  obtain ⟨before, after, isSplit⟩ := List.append_of_mem isMember
  have inChunk : chunk.data.length ≤ chunk.bytes.length := by
    simp only [SentChunk.bytes, List.length_append]
    omega
  rw [isSplit] at fits
  simp only [List.flatMap_append, List.flatMap_cons, List.length_append] at fits
  omega

def lastBytes : Bytes := message.zero ++ [cr, lf] ++ ([cr, lf] ++ message.following)

theorem bytes_following :
    message.bytes ++ message.following =
      message.head ++ (message.chunks.flatMap SentChunk.bytes ++ message.lastBytes) := by
  simp [bytes, untilLastLine, lastBytes]

theorem readChunkLine_lastBytes :
    readChunkLine message.lastBytes = (0, [cr, lf] ++ message.following) :=
  message.isZero.readChunkLine (by decide) _

theorem isLast_lastBytes : IsLast message.lastBytes := by
  constructor
  · simp [lastBytes]
  · rw [message.readChunkLine_lastBytes]

/-- What the parser finds in a buffer with the whole request. -/
theorem parseHeader_whole {socket : Socket}
    (isWhole : socket.inBuffer.bytes = message.bytes ++ message.following)
    {next : Socket} {map : MessageMap}
    (isFound : socket.parseHeader readRequest .create = .ok (true, next, map)) :
    ∃ chunks : List RequestChunk,
      chunks.flatMap RequestChunk.bytes = message.chunks.flatMap SentChunk.bytes ∧
      chunks.flatMap RequestChunk.data = message.data ∧
      map.messageSize = message.untilLastLine.length ∧
      map.spans = (0, message.head.length) :: spansFrom message.head.length chunks := by
  obtain ⟨chunks, sameBytes, sameData⟩ := exists_requestChunks message.small
  refine ⟨chunks, sameBytes, sameData, ?_⟩
  rw [message.bytes_following, ← sameBytes] at isWhole
  generalize isBody : chunks.flatMap RequestChunk.bytes ++ message.lastBytes = body at isWhole
  have found : searchMarker socket.inBuffer.bytes = some body := by
    rw [isWhole]
    exact searchMarker_head message.noMarker body
  have isRead : readRequest socket.inBuffer.bytes = some message.request := by
    rw [isWhole]
    exact message.isRead body
  by_cases enough : message.request.contentLength = unknownContentLength ∨
      message.request.contentLength ≤ body.length
  · have isOffset : socket.inBuffer.bytes.length - body.length = message.head.length := by
      rw [isWhole, List.length_append]
      omega
    have isSize : message.head.length + body.length = socket.inBuffer.bytes.length := by
      rw [isWhole, List.length_append]
    have isParsed := parseHeader_eq found isRead enough
    dsimp only at isParsed
    rw [if_pos message.chunked, isOffset, isFound] at isParsed
    rw [← isBody] at isSize isParsed
    have ended := walkEnd_of_chunks socket.inBuffer.fits
      ⟨message.head.length, sizeT (message.head.length + message.request.contentLength),
        [(0, message.head.length)]⟩ isSize (.inr message.isLast_lastBytes)
    generalize parseChunks _ _ _ = parsed at ended isParsed
    cases ended with
    | overstep oversteps =>
        exact absurd message.isLast_lastBytes (not_isLast_of_oversteps oversteps)
    | incomplete _ notLast => exact absurd message.isLast_lastBytes notLast
    | last _ =>
        cases isParsed
        refine ⟨?_, rfl⟩
        dsimp only
        rw [message.readChunkLine_lastBytes, ← isSize, sameBytes]
        simp only [untilLastLine, lastBytes, List.length_append]
        omega
  · have waits : ∀ other request, searchMarker socket.inBuffer.bytes = some other →
        readRequest socket.inBuffer.bytes = some request →
        ¬ (request.contentLength = unknownContentLength ∨
          request.contentLength ≤ other.length) := by
      intro other request otherFound otherRead
      rw [found] at otherFound
      rw [isRead] at otherRead
      cases otherFound
      cases otherRead
      exact enough
    obtain ⟨_, _, notFound⟩ := parseHeader_waits waits
    rw [notFound] at isFound
    cases isFound

/-- The blank line at the end stays in the buffer. -/
theorem not_readsRequest : ¬ message.ReadsRequest := by
  intro reads
  let socket : Socket :=
    { inBuffer := ⟨message.bytes ++ message.following, by
        simpa [bytes, untilLastLine, head] using message.fits⟩
      outBuffer := []
      sentHTTPContinue := false }
  obtain ⟨next, map, moved, last, isFound, isCompact, isSize⟩ := reads.finds socket rfl
  obtain ⟨chunks, sameBytes, sameData, messageSize, isSpans⟩ :=
    message.parseHeader_whole rfl isFound
  by_cases indexed : ∀ span ∈ spansFrom message.head.length chunks, 0 ≤ intOf span.1
  · have inMessage : message.head.length + (chunks.flatMap RequestChunk.bytes).length ≤
        map.messageSize := by
      rw [messageSize, sameBytes]
      simp only [untilLastLine, List.length_append]
      omega
    have whole : socket.inBuffer.bytes.length =
        message.untilLastLine.length + (2 + message.following.length) := by
      simp [socket, bytes]
      omega
    obtain ⟨buffer, isBuffer, length⟩ := compactChunks_ok socket.inBuffer.fits isSpans indexed
      inMessage (by omega)
    rw [isCompact] at isBuffer
    cases isBuffer
    rw [sameData, whole, messageSize] at length
    simp only [List.length_append] at length
    omega
  · obtain ⟨span, notIndexed⟩ := not_forall.mp indexed
    obtain ⟨isMember, negative⟩ := Classical.not_imp.mp notIndexed
    obtain ⟨fault, isFault⟩ := moveSpans_error (socket.inBuffer.bytes, 0)
      ⟨span, List.mem_cons_of_mem _ isMember, Int.not_le.mp negative⟩
    rw [compactChunks, if_neg (by simp [isSpans]), isSpans, isFault] at isCompact
    cases isCompact

private theorem noMarker_of_drop {p : Bytes}
    (nowhere : ∀ count < p.length, marker.isPrefixOf (p.drop count) = false) : ¬ marker <:+: p := by
  rintro ⟨front, back, rfl⟩
  have inside : front.length < (front ++ marker ++ back).length := by
    simp [marker]
  have isHere := nowhere front.length inside
  rw [List.append_assoc, List.drop_left] at isHere
  have prefixed := List.isPrefixOf_iff_prefix.mpr (List.prefix_append marker back)
  rw [prefixed] at isHere
  cases isHere

/-- One chunk of one byte. -/
def letter : ChunkedMessage fun _ => some chunkedRequest where
  lines := bytesOf "POST / HTTP/1.1\r\nTransfer-Encoding: chunked"
  request := chunkedRequest
  chunks := [⟨bytesOf "1", bytesOf "A", by decide, by decide, [1], by decide, by decide⟩]
  zero := bytesOf "0"
  following := []
  noMarker := noMarker_of_drop (by decide)
  isRead := fun _ => rfl
  chunked := rfl
  isZero := ⟨by decide, [0], by decide, by decide⟩
  fits := by decide

/-- With the digit of the last chunk the request is found, without the line breaks behind it. -/
theorem not_readsRequest_letter : ¬ letter.ReadsRequest := by
  intro reads
  let socket : Socket :=
    { inBuffer := ⟨letter.head ++ bytesOf "1\r\nA\r\n0", by decide⟩
      outBuffer := []
      sentHTTPContinue := false }
  obtain ⟨next, map, notFound⟩ := reads.waits socket (by decide) (by decide)
  have found : socket.parseHeader (fun _ => some chunkedRequest) .create =
      .ok (true, socket, ⟨47, 54, [(0, 47), (50, 1)]⟩) := rfl
  rw [found] at notFound
  cases notFound

end ChunkedMessage

end FreeOnline.Net.StreamSocket
