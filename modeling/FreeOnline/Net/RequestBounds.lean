import FreeOnline.Net.RequestChunks

/-!
# Requests and the bounds of the buffer

When the parser of requests stays inside the input buffer: the length is known, no chunk
ends within two bytes of the end of the buffer, and the spans can be indexed.
-/

set_option autoImplicit false

namespace FreeOnline.Net.StreamSocket

open FreeOnline.Library
open FreeOnline.Net.Http (Bytes cr lf bytesOf)

/-!
## Spans
-/

theorem spansFrom_inside {offset : Nat} {chunks : List RequestChunk} :
    ∀ span ∈ spansFrom offset chunks,
      span.1 + span.2 ≤ offset + (chunks.flatMap RequestChunk.bytes).length := by
  induction chunks generalizing offset with
  | nil => exact nofun
  | cons chunk chunks ih =>
      have length : ((chunk :: chunks).flatMap RequestChunk.bytes).length =
          chunk.bytes.length + (chunks.flatMap RequestChunk.bytes).length := by simp
      intro span isMember
      rcases List.mem_cons.mp isMember with rfl | isMember
      · simp only [length, RequestChunk.bytes, List.length_append]
        omega
      · have inside := ih span isMember
        omega

theorem intOf_le {n : Nat} : intOf n ≤ n := by
  unfold intOf
  split
  · omega
  · omega

theorem moveSpan_ok {inBuffer : Bytes} {dest : Nat} {span : Nat × Nat} (indexed : 0 ≤ intOf span.1)
    (sourceInside : span.1 + span.2 ≤ inBuffer.length) (before : dest ≤ span.1) :
    ∃ moved, moveSpan (inBuffer, dest) span = .ok (moved, dest + span.2) ∧
      moved.length = inBuffer.length := by
  have source : intOf span.1 ≤ span.1 := intOf_le
  unfold moveSpan
  dsimp only
  rw [if_neg (by omega)]
  refine ⟨_, rfl, ?_⟩
  simp only [List.length_append, List.length_take, List.length_drop]
  omega

/-- The data of the chunks, one after the other, ends before they do. -/
theorem length_data_le (chunks : List RequestChunk) :
    (chunks.flatMap RequestChunk.data).length ≤ (chunks.flatMap RequestChunk.bytes).length := by
  induction chunks with
  | nil => exact Nat.le_refl _
  | cons chunk chunks ih =>
      simp only [List.flatMap_cons, List.length_append, RequestChunk.bytes]
      omega

theorem moveSpans_ok {inBuffer : Bytes} {offset dest : Nat} {chunks : List RequestChunk}
    (indexed : ∀ span ∈ spansFrom offset chunks, 0 ≤ intOf span.1)
    (inside : offset + (chunks.flatMap RequestChunk.bytes).length ≤ inBuffer.length)
    (before : dest ≤ offset) :
    ∃ moved, (spansFrom offset chunks).foldlM moveSpan (inBuffer, dest) =
        .ok (moved, dest + (chunks.flatMap RequestChunk.data).length) ∧
      moved.length = inBuffer.length := by
  induction chunks generalizing inBuffer offset dest with
  | nil => exact ⟨inBuffer, rfl, rfl⟩
  | cons chunk chunks ih =>
      simp only [List.flatMap_cons, List.length_append] at inside
      have bytes : chunk.bytes.length = chunk.line.length + (chunk.data.length + 2) := by
        simp [RequestChunk.bytes]
      have sourceInside : offset + chunk.line.length + chunk.data.length ≤ inBuffer.length := by omega
      obtain ⟨moved, isMoved, same⟩ := moveSpan_ok (indexed _ List.mem_cons_self) sourceInside
        (Nat.le_trans before (Nat.le_add_right _ _))
      rw [← same] at inside
      have behindInside : offset + chunk.bytes.length +
          (chunks.flatMap RequestChunk.bytes).length ≤ moved.length := by omega
      have behind : dest + chunk.data.length ≤ offset + chunk.bytes.length := by omega
      obtain ⟨last, isLast, lastSame⟩ := ih
        (fun span isMember => indexed span (List.mem_cons_of_mem _ isMember)) behindInside behind
      refine ⟨last, ?_, lastSame.trans same⟩
      rw [spansFrom, List.foldlM_cons, isMoved, List.flatMap_cons, List.length_append, ← Nat.add_assoc]
      exact isLast

/-- A span that can not be indexed is a fault. -/
theorem moveSpans_error {spans : List (Nat × Nat)} (state : Bytes × Nat)
    (outside : ∃ span ∈ spans, intOf span.1 < 0) :
    ∃ fault, spans.foldlM moveSpan state = .error fault := by
  induction spans generalizing state with
  | nil =>
      obtain ⟨span, isMember, -⟩ := outside
      cases isMember
  | cons first spans ih =>
      rw [List.foldlM_cons]
      cases isMoved : moveSpan state first with
      | error fault => exact ⟨fault, rfl⟩
      | ok next =>
          obtain ⟨span, isMember, negative⟩ := outside
          rcases List.mem_cons.mp isMember with rfl | isMember
          · unfold moveSpan at isMoved
            dsimp only at isMoved
            rw [if_pos (.inl negative)] at isMoved
            cases isMoved
          · exact ih next ⟨span, isMember, negative⟩

theorem compactChunks_ok {inBuffer : Bytes} {map : MessageMap} {offset : Nat}
    {chunks : List RequestChunk} (fits : inBuffer.length < 2 ^ 63)
    (isSpans : map.spans = (0, offset) :: spansFrom offset chunks)
    (indexed : ∀ span ∈ spansFrom offset chunks, 0 ≤ intOf span.1)
    (inMessage : offset + (chunks.flatMap RequestChunk.bytes).length ≤ map.messageSize)
    (inside : map.messageSize ≤ inBuffer.length) :
    ∃ buffer, compactChunks inBuffer map =
        .ok (true, buffer,
          { map with messageSize := offset + (chunks.flatMap RequestChunk.data).length }) ∧
      buffer.length = offset + (chunks.flatMap RequestChunk.data).length +
        (inBuffer.length - map.messageSize) := by
  have shorter := length_data_le chunks
  have headInside : 0 + offset ≤ inBuffer.length := by omega
  have atStart : 0 ≤ intOf 0 := by decide
  obtain ⟨head, isHead, same⟩ : ∃ head, moveSpan (inBuffer, 0) (0, offset) = .ok (head, 0 + offset) ∧
      head.length = inBuffer.length := moveSpan_ok atStart headInside (Nat.le_refl 0)
  obtain ⟨moved, isMoved, movedSame⟩ := moveSpans_ok indexed
    (by omega : _ ≤ head.length) (Nat.le_of_eq (Nat.zero_add offset))
  have isAll : map.spans.foldlM moveSpan (inBuffer, 0) =
      .ok (moved, 0 + offset + (chunks.flatMap RequestChunk.data).length) := by
    rw [isSpans, List.foldlM_cons, isHead]
    exact isMoved
  have newSize : sizeT ((map.messageSize : Int) -
      (sizeT ((map.messageSize : Int) -
        ((0 + offset + (chunks.flatMap RequestChunk.data).length : Nat) : Int)) : Nat)) =
      offset + (chunks.flatMap RequestChunk.data).length := by
    unfold sizeT
    omega
  rw [compactChunks, if_neg (by simp [isSpans]), isAll]
  dsimp only
  rw [if_neg (by omega), newSize]
  refine ⟨_, rfl, ?_⟩
  rw [List.length_append, List.length_take, List.length_drop]
  omega

/-!
## Requests
-/

def HTTPRequest.HasNoBody (request : HTTPRequest) : Prop :=
  request.chunkedTransferEncoding = false ∧
    (request.contentLength = unknownContentLength ∨ request.contentLength = 0)

structure MapInside (inBuffer : Bytes) (map : MessageMap) : Prop where
  spans : ∀ span ∈ map.spans, span.1 + span.2 ≤ map.messageSize
  message : map.messageSize ≤ inBuffer.length
  header : map.headerSize ≤ map.messageSize

/-- The parser does not leave the buffer, nor does what it has found make `compactChunks`
or `eraseFirstInputBytes` do so. -/
def StaysInside (readRequest : Bytes → Option HTTPRequest) (socket : Socket) : Prop :=
  ∃ found next map, socket.parseHeader readRequest .create = .ok (found, next, map) ∧
    (found = true →
      MapInside socket.inBuffer.bytes map ∧
      (∀ request, readRequest socket.inBuffer.bytes = some request → request.HasNoBody →
        map.messageSize = map.headerSize) ∧
      ∃ moved buffer last, compactChunks socket.inBuffer.bytes map = .ok (moved, buffer, last) ∧
        last.headerSize ≤ buffer.length)

/-- No chunk that the parser comes to ends within two bytes of the end of the buffer, and
those before a last one are at offsets that an `int` can hold. -/
structure ChunksInside (offset : Nat) (body : Bytes) : Prop where
  complete : ∀ (chunks : List RequestChunk) (rest : Bytes),
    body = chunks.flatMap RequestChunk.bytes ++ rest → ¬ Oversteps rest
  indexed : ∀ (chunks : List RequestChunk) (rest : Bytes),
    body = chunks.flatMap RequestChunk.bytes ++ rest → IsLast rest →
      ∀ span ∈ spansFrom offset chunks, 0 ≤ intOf span.1

def RequestInside (readRequest : Bytes → Option HTTPRequest) (inBuffer : Bytes) : Prop :=
  ∀ body request, searchMarker inBuffer = some body → readRequest inBuffer = some request →
    (request.contentLength = unknownContentLength ∨ request.contentLength ≤ body.length) →
    if request.chunkedTransferEncoding then ChunksInside (inBuffer.length - body.length) body
    else 0 ≤ request.contentLength

theorem length_searchMarker {p body : Bytes} (found : searchMarker p = some body) :
    body.length + 4 ≤ p.length := by
  induction p with
  | nil => cases found
  | cons ch rest ih =>
      unfold searchMarker at found
      split at found
      · next isMarker =>
          cases found
          have long := (List.isPrefixOf_iff_prefix.mp isMarker).length_le
          have four : marker.length = 4 := rfl
          rw [List.length_drop]
          omega
      · have shorter := ih found
        rw [List.length_cons]
        omega

section Parsing

variable {readRequest : Bytes → Option HTTPRequest} {socket : Socket} {body : Bytes}
  {request : HTTPRequest}

theorem parseHeader_eq (found : searchMarker socket.inBuffer.bytes = some body)
    (isRead : readRequest socket.inBuffer.bytes = some request)
    (enough : request.contentLength = unknownContentLength ∨
      request.contentLength ≤ body.length) :
    let offset := socket.inBuffer.bytes.length - body.length
    let messageSize := sizeT (offset + request.contentLength)
    socket.parseHeader readRequest .create =
      if request.chunkedTransferEncoding then
        match parseChunks socket.inBuffer.bytes.length ⟨offset, messageSize, [(0, offset)]⟩ body with
        | .error fault => .error fault
        | .ok (found, map) => .ok (found, socket.sendContinue request, map)
      else .ok (true, socket.sendContinue request, ⟨offset, messageSize, []⟩) := by
  have shorter := length_searchMarker found
  dsimp only
  unfold Socket.parseHeader
  dsimp only
  rw [found]
  dsimp only
  rw [isRead]
  dsimp only
  rw [if_neg (by omega)]
  rfl

theorem parseHeader_waits
    (waits : ∀ body request, searchMarker socket.inBuffer.bytes = some body →
      readRequest socket.inBuffer.bytes = some request →
      ¬ (request.contentLength = unknownContentLength ∨ request.contentLength ≤ body.length)) :
    ∃ next map, socket.parseHeader readRequest .create = .ok (false, next, map) := by
  unfold Socket.parseHeader
  dsimp only
  cases found : searchMarker socket.inBuffer.bytes with
  | none => exact ⟨_, _, rfl⟩
  | some body =>
      dsimp only
      cases isRead : readRequest socket.inBuffer.bytes with
      | none => exact ⟨_, _, rfl⟩
      | some request =>
          have shorter := length_searchMarker found
          have missing := waits body request found isRead
          dsimp only
          rw [if_pos (by omega)]
          exact ⟨_, _, rfl⟩

section Chunked

variable {offset messageSize : Nat} {sent : Socket}
  (isOffset : offset + body.length = socket.inBuffer.bytes.length)
  (isParsed : socket.parseHeader readRequest .create =
    match parseChunks socket.inBuffer.bytes.length ⟨offset, messageSize, [(0, offset)]⟩ body with
    | .error fault => .error fault
    | .ok (found, map) => .ok (found, sent, map))
include isOffset isParsed

private theorem chunksInside_of_staysInside (stays : StaysInside readRequest socket) :
    ChunksInside offset body := by
  obtain ⟨isFound, next, map, isMap, inside⟩ := stays
  rw [isParsed] at isMap
  constructor
  · intro chunks rest isBody oversteps
    rw [isBody] at isOffset isMap
    have ended := walkEnd_of_chunks socket.inBuffer.fits ⟨offset, messageSize, [(0, offset)]⟩
      isOffset (.inl oversteps)
    generalize parseChunks _ _ _ = parsed at ended isMap
    cases ended with
    | last isLast => exact not_isLast_of_oversteps oversteps isLast
    | overstep _ => cases isMap
    | incomplete stops _ => exact stops oversteps
  · intro chunks rest isBody isLast
    rw [isBody] at isOffset isMap
    have ended := walkEnd_of_chunks socket.inBuffer.fits ⟨offset, messageSize, [(0, offset)]⟩
      isOffset (.inr isLast)
    generalize parseChunks _ _ _ = parsed at ended isMap
    cases ended with
    | overstep oversteps => exact absurd isLast (not_isLast_of_oversteps oversteps)
    | incomplete _ notLast => exact absurd isLast notLast
    | last _ =>
        cases isMap
        obtain ⟨-, -, moved, buffer, last, isCompact, -⟩ := inside rfl
        intro span isMember
        by_contra negative
        obtain ⟨fault, isFault⟩ := moveSpans_error (socket.inBuffer.bytes, 0)
          ⟨span, List.mem_append_right [(0, offset)] isMember, Int.not_le.mp negative⟩
        rw [compactChunks, if_neg (by simp), isFault] at isCompact
        cases isCompact

private theorem staysInside_of_chunksInside
    (isRead : readRequest socket.inBuffer.bytes = some request)
    (chunked : request.chunkedTransferEncoding = true) (inside : ChunksInside offset body) :
    StaysInside readRequest socket := by
  obtain ⟨chunks, rest, isBody, ended⟩ :=
    exists_walk socket.inBuffer.fits ⟨offset, messageSize, [(0, offset)]⟩ isOffset
  generalize parseChunks _ _ _ = parsed at ended isParsed
  cases ended with
  | overstep oversteps => exact absurd oversteps (inside.complete chunks rest isBody)
  | incomplete _ _ => exact ⟨false, sent, _, isParsed, nofun⟩
  | last isLast =>
      have behindLine := length_readChunkLine rest
      have length : offset + (chunks.flatMap RequestChunk.bytes).length + rest.length =
          socket.inBuffer.bytes.length := by
        rw [isBody, List.length_append] at isOffset
        omega
      refine ⟨true, sent, _, isParsed, fun _ => ⟨⟨?_, ?_, ?_⟩, ?_, ?_⟩⟩
      · intro span isMember
        dsimp only
        rcases List.mem_append.mp isMember with isMember | isMember
        · rw [List.mem_singleton.mp isMember]
          dsimp only
          omega
        · have inChunks := spansFrom_inside span isMember
          omega
      · dsimp only
        omega
      · dsimp only
        omega
      · intro other otherRead hasNoBody
        rw [isRead] at otherRead
        cases otherRead
        exact absurd hasNoBody.1 (by simp [chunked])
      · obtain ⟨buffer, isCompact, isLength⟩ := @compactChunks_ok _
          ⟨offset, socket.inBuffer.bytes.length - (readChunkLine rest).2.length,
            [(0, offset)] ++ spansFrom offset chunks⟩
          offset chunks socket.inBuffer.fits rfl (inside.indexed chunks rest isBody isLast)
          (by dsimp only; omega) (by dsimp only; omega)
        refine ⟨_, _, _, isCompact, ?_⟩
        dsimp only
        omega

end Chunked

section Found

variable (found : searchMarker socket.inBuffer.bytes = some body)
  (isRead : readRequest socket.inBuffer.bytes = some request)
  (enough : request.contentLength = unknownContentLength ∨ request.contentLength ≤ body.length)
include found isRead enough

theorem requestInside_iff :
    RequestInside readRequest socket.inBuffer.bytes ↔
      if request.chunkedTransferEncoding then
        ChunksInside (socket.inBuffer.bytes.length - body.length) body
      else 0 ≤ request.contentLength := by
  constructor
  · intro inside
    exact inside body request found isRead enough
  · intro inside other otherRequest otherFound otherRead _
    rw [found] at otherFound
    rw [isRead] at otherRead
    cases otherFound
    cases otherRead
    exact inside

/-- Without chunks, the message ends behind the length that is announced. -/
theorem staysInside_iff_of_length (notChunked : request.chunkedTransferEncoding = false) :
    StaysInside readRequest socket ↔ 0 ≤ request.contentLength := by
  have isParsed := parseHeader_eq found isRead enough
  have shorter := length_searchMarker found
  have fits := socket.inBuffer.fits
  have inRange := request.inRange
  dsimp only at isParsed
  rw [if_neg (by simp [notChunked])] at isParsed
  constructor
  · rintro ⟨isFound, next, map, isMap, inside⟩
    rw [isParsed] at isMap
    cases isMap
    obtain ⟨⟨-, message, header⟩, -, -⟩ := inside rfl
    unfold sizeT at message header
    dsimp only at message header
    omega
  · intro known
    have noWrap : sizeT (((socket.inBuffer.bytes.length - body.length : Nat) : Int) +
        request.contentLength) =
        socket.inBuffer.bytes.length - body.length + request.contentLength.toNat := by
      unfold sizeT
      unfold unknownContentLength at enough
      omega
    refine ⟨true, _, _, isParsed, fun _ => ⟨⟨nofun, ?_, ?_⟩, ?_, false, _, _, rfl, ?_⟩⟩
    · dsimp only
      rw [noWrap]
      unfold unknownContentLength at enough
      omega
    · dsimp only
      omega
    · intro other otherRead hasNoBody
      rw [isRead] at otherRead
      cases otherRead
      have nothing := hasNoBody.2
      unfold unknownContentLength at nothing
      dsimp only
      rw [noWrap]
      omega
    · dsimp only
      omega

theorem staysInside_iff_of_chunks (chunked : request.chunkedTransferEncoding = true) :
    StaysInside readRequest socket ↔
      ChunksInside (socket.inBuffer.bytes.length - body.length) body := by
  have isParsed := parseHeader_eq found isRead enough
  have shorter := length_searchMarker found
  have isOffset : socket.inBuffer.bytes.length - body.length + body.length =
      socket.inBuffer.bytes.length := by omega
  dsimp only at isParsed
  rw [if_pos chunked] at isParsed
  constructor
  · exact chunksInside_of_staysInside isOffset isParsed
  · exact staysInside_of_chunksInside isOffset isParsed isRead chunked

end Found

theorem staysInside_iff (readRequest : Bytes → Option HTTPRequest) (socket : Socket) :
    StaysInside readRequest socket ↔ RequestInside readRequest socket.inBuffer.bytes := by
  by_cases reads : ∃ body request, searchMarker socket.inBuffer.bytes = some body ∧
      readRequest socket.inBuffer.bytes = some request ∧
      (request.contentLength = unknownContentLength ∨ request.contentLength ≤ body.length)
  · obtain ⟨body, request, found, isRead, enough⟩ := reads
    rw [requestInside_iff found isRead enough]
    cases chunked : request.chunkedTransferEncoding with
    | true =>
        rw [staysInside_iff_of_chunks found isRead enough chunked]
        simp
    | false =>
        rw [staysInside_iff_of_length found isRead enough chunked]
        simp
  · have waits : ∀ body request, searchMarker socket.inBuffer.bytes = some body →
        readRequest socket.inBuffer.bytes = some request →
        ¬ (request.contentLength = unknownContentLength ∨ request.contentLength ≤ body.length) :=
      fun body request found isRead enough => reads ⟨body, request, found, isRead, enough⟩
    obtain ⟨next, map, isParsed⟩ := parseHeader_waits waits
    refine iff_of_true ⟨false, next, map, isParsed, nofun⟩ ?_
    intro body request found isRead enough
    exact absurd enough (waits body request found isRead)

end Parsing

def chunkedRequest : HTTPRequest := ⟨unknownContentLength, by decide, true, []⟩

/-- A chunk of two bytes of which nothing has arrived. -/
def emptyChunk : Socket where
  inBuffer := ⟨bytesOf "POST / HTTP/1.1\r\nTransfer-Encoding: chunked\r\n\r\n2\r\n", by decide⟩
  outBuffer := []
  sentHTTPContinue := false

/-- The parser goes two bytes behind the end of the buffer. -/
theorem not_staysInside_emptyChunk : ¬ StaysInside (fun _ => some chunkedRequest) emptyChunk := by
  rintro ⟨found, next, map, isMap, -⟩
  have fault : emptyChunk.parseHeader (fun _ => some chunkedRequest) .create = .error .moved := rfl
  rw [fault] at isMap
  cases isMap

end FreeOnline.Net.StreamSocket
