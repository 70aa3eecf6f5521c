import FreeOnline.Net.HttpHead

/-!
# Chunked bodies

What the parser makes of a prefix of a chunked body: it has taken the chunks that
have arrived as a whole and waits for the others. The last chunk it takes for complete
before the blank line behind it is there.
-/

set_option autoImplicit false

namespace FreeOnline.Net.Http

open FreeOnline.Library Response

/-!
## The length of a chunk
-/

theorem hexDigitFromChar_hexDigit : ∀ digit, digit < 16 →
    hexDigitFromChar (hexDigit digit) = some digit := by
  decide

theorem hexDigit_ne : ∀ digit, digit < 16 → hexDigit digit ≠ cr ∧ hexDigit digit ≠ lf := by
  decide

theorem exists_of_mem_toHex {n : Nat} {ch : UInt8} (isDigit : ch ∈ toHex n) :
    ∃ digit, digit < 16 ∧ hexDigit digit = ch := by
  unfold toHex at isDigit
  split at isDigit
  · exact ⟨0, by decide, (List.mem_singleton.mp isDigit).symm⟩
  · obtain ⟨digit, isMember, isChar⟩ := List.mem_map.mp isDigit
    exact ⟨digit, Nat.digits_lt_base (by decide) (List.mem_reverse.mp isMember), isChar⟩

theorem toHex_ne_nil (n : Nat) : toHex n ≠ [] := by
  unfold toHex
  split
  · exact List.cons_ne_nil _ _
  · next positive =>
      intro empty
      rw [List.map_eq_nil_iff, List.reverse_eq_nil_iff, Nat.digits_eq_nil_iff_eq_zero] at empty
      exact positive empty

private theorem le_foldl_digits (digits : List Nat) (value : Nat) :
    value ≤ digits.foldl (fun value digit => value * 16 + digit) value := by
  induction digits generalizing value with
  | nil => exact Nat.le_refl _
  | cons digit digits ih => exact Nat.le_trans (by omega) (ih (value * 16 + digit))

/-- The check of the range does not fire for the sizes that a string can have. -/
private theorem readChunkLen_digits {digits : List Nat} {value : Nat} (rest : Bytes)
    (areDigits : ∀ digit ∈ digits, digit < 16)
    (fits : digits.foldl (fun value digit => value * 16 + digit) value < 2 ^ 62) :
    readChunkLen value (digits.map hexDigit ++ cr :: rest) =
      some (digits.foldl (fun value digit => value * 16 + digit) value) := by
  induction digits generalizing value with
  | nil => rfl
  | cons digit digits ih =>
      have isDigit := hexDigitFromChar_hexDigit digit (areDigits digit List.mem_cons_self)
      have grows := le_foldl_digits digits (value * 16 + digit)
      rw [List.foldl_cons] at fits
      rw [List.map_cons, List.cons_append, readChunkLen, isDigit, List.foldl_cons]
      dsimp only
      rw [if_neg (by omega)]
      exact ih (fun other isOther => areDigits other (List.mem_cons_of_mem _ isOther)) fits

theorem readChunkLen_toHex {n : Nat} (fits : n < 2 ^ 62) (rest : Bytes) :
    readChunkLen 0 (toHex n ++ cr :: rest) = some n := by
  unfold toHex
  split
  · next zero =>
      rw [zero]
      rfl
  · have isValue : (Nat.digits 16 n).reverse.foldl (fun value digit => value * 16 + digit) 0 = n := by
      rw [List.foldl_reverse]
      have ofDigits := Nat.ofDigits_digits 16 n
      rw [Nat.ofDigits_eq_foldr] at ofDigits
      simpa [Nat.mul_comm, Nat.add_comm] using ofDigits
    have areDigits : ∀ digit ∈ (Nat.digits 16 n).reverse, digit < 16 := by
      intro digit isDigit
      exact Nat.digits_lt_base (by decide) (List.mem_reverse.mp isDigit)
    rw [readChunkLen_digits rest areDigits (by rw [isValue]; exact fits), isValue]

/-!
## Lines
-/

def StartsOther (rest : Bytes) : Prop := ∀ ch ∈ rest.head?, ch ≠ cr ∧ ch ≠ lf

def IsBreak (ch : UInt8) : Prop := ch = cr ∨ ch = lf

theorem skipCRLF_eq {breaks rest : Bytes} (areBreaks : ∀ ch ∈ breaks, IsBreak ch)
    (startsOther : StartsOther rest) : skipCRLF (breaks ++ rest) 0 = breaks.length := by
  have isStop : (rest.findIdx fun ch => ch ≠ cr && ch ≠ lf) = 0 := by
    cases rest with
    | nil => rfl
    | cons ch rest =>
        obtain ⟨notCr, notLf⟩ := startsOther ch rfl
        simp [List.findIdx_cons, notCr, notLf]
  have noStop : (breaks.findIdx fun ch => ch ≠ cr && ch ≠ lf) = breaks.length := by
    refine List.findIdx_eq_length_of_false ?_
    intro ch isMember
    rcases areBreaks ch isMember with rfl | rfl
    · rfl
    · rfl
  unfold skipCRLF findFrom
  split
  · next empty =>
      rw [List.length_append] at empty ⊢
      omega
  · rw [List.drop_zero, List.findIdx_append, noStop, isStop, if_neg (Nat.lt_irrefl _)]
    omega

private theorem skipCRLF_line {rest : Bytes} (startsOther : StartsOther rest) :
    (cr :: lf :: rest).drop (skipCRLF (cr :: lf :: rest) 0) = rest := by
  have areBreaks : ∀ ch ∈ [cr, lf], IsBreak ch := by simp [IsBreak]
  have skipped : skipCRLF (cr :: lf :: rest) 0 = 2 := skipCRLF_eq areBreaks startsOther
  rw [skipped]
  rfl

/-!
## One chunk
-/

structure Chunk where
  data : Bytes
  notEmpty : data ≠ []
  fits : data.length < 2 ^ 62

def Chunk.line (chunk : Chunk) : Bytes := toHex chunk.data.length ++ [cr]

def Chunk.bytes (chunk : Chunk) : Bytes := chunk.line ++ lf :: (chunk.data ++ [cr, lf])

def lastChunk : Bytes := [0x30, cr, lf, cr, lf]

def encode (chunks : List Chunk) : Bytes := chunks.flatMap Chunk.bytes ++ lastChunk

theorem chunkedBody_eq (chunks : List Chunk) :
    chunkedBody (chunks.map Chunk.data) = encode chunks := by
  have appended : ∀ (chunks : List Chunk) (body : Bytes),
      (chunks.map Chunk.data).foldl appendChunk body = body ++ chunks.flatMap Chunk.bytes := by
    intro chunks
    induction chunks with
    | nil => simp
    | cons chunk chunks ih =>
        intro body
        rw [List.map_cons, List.foldl_cons, ih]
        simp [appendChunk, Chunk.bytes, Chunk.line]
  rw [chunkedBody, appended, appendChunk, encode]
  rfl

theorem encode_startsOther (chunks : List Chunk) : StartsOther (encode chunks) := by
  intro ch isHead
  cases chunks with
  | nil =>
      cases isHead
      decide
  | cons chunk chunks =>
      have isDigit : ch ∈ toHex chunk.data.length := by
        simp only [encode, List.flatMap_cons, Chunk.bytes, Chunk.line, List.append_assoc,
          List.head?_append_of_ne_nil _ (toHex_ne_nil _)] at isHead
        exact List.mem_of_mem_head? isHead
      obtain ⟨digit, small, rfl⟩ := exists_of_mem_toHex isDigit
      exact hexDigit_ne digit small

theorem StartsOther.front {part whole : Bytes} (startsOther : StartsOther whole)
    (isPrefix : part <+: whole) : StartsOther part := by
  obtain ⟨rest, rfl⟩ := isPrefix
  intro ch isHead
  refine startsOther ch ?_
  cases part with
  | nil => cases isHead
  | cons first part => exact isHead

/-- A response in the midst of a chunked body with a callback that takes all data. -/
structure Receives (response : Response) (body : Bytes) : Prop where
  state : response.state = .incomplete
  parserStage : response.parserStage = .body
  chunked : response.header.chunked = true
  takesAll : ∀ data, response.onBodyWriteCb data = data.length
  body : response.body = body

/-- A response in the midst of a chunked body, with any callback. -/
structure ReadsChunked (response : Response) : Prop where
  state : response.state = .incomplete
  parserStage : response.parserStage = .body
  chunked : response.header.chunked = true

theorem Receives.readsChunked {response : Response} {body : Bytes}
    (receives : Receives response body) : ReadsChunked response :=
  ⟨receives.state, receives.parserStage, receives.chunked⟩

theorem readChunk_line {line : Bytes} (none : lf ∉ line) (response : Response) :
    readChunk response line = .wait response := by
  unfold readChunk
  split
  · rfl
  · exact if_pos (findLineBreak_none (show lf ∉ line.drop 0 from none))

theorem readChunk_eq {line tail : Bytes} {chunkLen : Nat} (none : lf ∉ line)
    (isLength : readChunkLen 0 (line ++ lf :: tail) = some chunkLen) (response : Response) :
    readChunk response (line ++ lf :: tail) =
      if 0 < chunkLen then
        if tail.length < chunkLen + 2 then .wait response
        else
          let (read, response) := response.writeBody (tail.take chunkLen)
          if read ≠ chunkLen then .stop (.failed response)
          else
            let rest := tail.drop chunkLen
            .advance (response.addRecvBodySize chunkLen) (rest.drop (skipCRLF rest 0))
      else .stop (.lastChunk response) := by
  have behindLine : (line ++ lf :: tail).drop (line.length + 1) = tail := by
    rw [← List.drop_drop, List.drop_left]
    rfl
  have start : (line ++ lf :: tail).drop 0 = line ++ lf :: tail := rfl
  have atBreak : findLineBreak (line ++ lf :: tail) 0 = line.length := by
    rw [findLineBreak_some start none, Nat.zero_add]
  have tailLength : (line ++ lf :: tail).length - (line.length + 1) = tail.length := by
    rw [List.length_append, List.length_cons]
    omega
  unfold readChunk
  rw [atBreak, isLength, if_neg (by simp), if_neg (by simp)]
  dsimp only
  rw [tailLength, behindLine, ← List.drop_drop, behindLine]

theorem Chunk.lf_not_mem_line (chunk : Chunk) : lf ∉ chunk.line := by
  intro isMember
  obtain isDigit | isCr := List.mem_append.mp isMember
  · obtain ⟨digit, small, isLf⟩ := exists_of_mem_toHex isDigit
    exact (hexDigit_ne digit small).2 isLf
  · exact absurd (List.mem_singleton.mp isCr) (by decide)

private theorem Chunk.readChunkLen_line (chunk : Chunk) (tail : Bytes) :
    readChunkLen 0 (chunk.line ++ lf :: tail) = some chunk.data.length := by
  rw [Chunk.line, List.append_assoc]
  exact readChunkLen_toHex chunk.fits _

theorem readChunk_wait {chunk : Chunk} {arrived : Bytes} (isPrefix : arrived <+: chunk.bytes)
    (short : arrived.length < chunk.bytes.length) (response : Response) :
    readChunk response arrived = .wait response := by
  rw [List.prefix_iff_eq_take, Chunk.bytes, List.take_append] at isPrefix
  by_cases inLine : arrived.length ≤ chunk.line.length
  · -- Some of the length is missing.
    rw [Nat.sub_eq_zero_of_le inLine, List.take_zero, List.append_nil] at isPrefix
    refine readChunk_line ?_ response
    intro isMember
    rw [isPrefix] at isMember
    exact chunk.lf_not_mem_line (List.mem_of_mem_take isMember)
  · obtain ⟨count, isCount⟩ : ∃ count, arrived.length - chunk.line.length = count + 1 :=
      ⟨arrived.length - chunk.line.length - 1, by omega⟩
    rw [List.take_of_length_le (by omega), isCount, List.take_succ_cons] at isPrefix
    rw [isPrefix, readChunk_eq chunk.lf_not_mem_line (chunk.readChunkLen_line _),
      if_pos (List.length_pos_of_ne_nil chunk.notEmpty), if_pos]
    have few := List.length_take_le count (chunk.data ++ [cr, lf])
    rw [Chunk.bytes, List.length_append, List.length_cons, List.length_append] at short
    simp only [List.length_cons, List.length_nil] at short
    omega

theorem readChunk_advance {response : Response} {body : Bytes} (receives : Receives response body)
    (chunk : Chunk) {rest : Bytes} (startsOther : StartsOther rest) :
    ∃ next, readChunk response (chunk.bytes ++ rest) = .advance next rest ∧
      Receives next (body ++ chunk.data) := by
  have isBytes : chunk.bytes ++ rest = chunk.line ++ lf :: (chunk.data ++ cr :: lf :: rest) := by
    simp [Chunk.bytes]
  have written : response.writeBody chunk.data =
      ((chunk.data.length : Int), { response with body := body ++ chunk.data }) := by
    rw [writeBody, receives.takesAll, receives.body, Int.toNat_natCast, List.take_length]
  rw [isBytes, readChunk_eq chunk.lf_not_mem_line (chunk.readChunkLen_line _),
    if_pos (List.length_pos_of_ne_nil chunk.notEmpty), if_neg (by simp), List.take_left,
    List.drop_left, written]
  dsimp only
  rw [if_neg (by simp), skipCRLF_line startsOther]
  exact ⟨_, rfl, receives.1, receives.2, receives.3, receives.4, rfl⟩

theorem readChunk_lastChunk {arrived : Bytes} (isPrefix : arrived <+: lastChunk)
    (response : Response) :
    readChunk response arrived =
      if arrived.length < 3 then .wait response else .stop (.lastChunk response) := by
  have few : arrived.length ≤ 5 := isPrefix.length_le
  rw [List.prefix_iff_eq_take] at isPrefix
  rw [isPrefix]
  generalize arrived.length = count at few
  match count, few with
  | 0, _ => rfl
  | 1, _ => rfl
  | 2, _ => rfl
  | 3, _ => rfl
  | 4, _ => rfl
  | 5, _ => rfl

theorem readChunk_shrinks : Shrinks readChunk := by
  intro response p next rest progress
  unfold readChunk at progress
  split at progress
  · cases progress
  · next notEmpty =>
      dsimp only at progress
      repeat' split at progress
      all_goals cases progress
      rw [List.length_drop, List.length_drop]
      omega

/-!
## Prefixes of a body
-/

/-- What has arrived of a body: some chunks that are taken and less than one chunk
behind them, or all but the blank line at the end. -/
theorem drain_readChunk {response : Response} {body : Bytes} (receives : Receives response body)
    {chunks : List Chunk} {arrived : Bytes} (isPrefix : arrived <+: encode chunks) :
    (∃ taken left buffer next, chunks = taken ++ left ∧
      arrived = taken.flatMap Chunk.bytes ++ buffer ∧
      arrived.length + 2 < (encode chunks).length ∧
      drain readChunk response arrived = .running next buffer ∧
      Receives next (body ++ taken.flatMap Chunk.data)) ∨
    (∃ next, (encode chunks).length ≤ arrived.length + 2 ∧
      drain readChunk response arrived = .stopped (.lastChunk next) ∧
      Receives next (body ++ chunks.flatMap Chunk.data)) := by
  induction chunks generalizing response body arrived with
  | nil =>
      have step := readChunk_lastChunk isPrefix response
      by_cases short : arrived.length < 3
      · left
        rw [if_pos short] at step
        refine ⟨[], [], arrived, response, rfl, rfl, ?_, Incremental.drain_wait step, ?_⟩
        · have total : (encode []).length = 5 := rfl
          omega
        · simpa using receives
      · right
        rw [if_neg short] at step
        refine ⟨response, ?_, Incremental.drain_stop step, by simpa using receives⟩
        have total : (encode []).length = 5 := rfl
        omega
  | cons chunk chunks ih =>
      have isEncode : encode (chunk :: chunks) = chunk.bytes ++ encode chunks := by
        simp [encode]
      rw [isEncode] at isPrefix ⊢
      by_cases short : arrived.length < chunk.bytes.length
      · left
        have inChunk : arrived <+: chunk.bytes :=
          List.prefix_of_prefix_length_le isPrefix (List.prefix_append _ _) (Nat.le_of_lt short)
        refine ⟨[], chunk :: chunks, arrived, response, rfl, rfl, ?_,
          Incremental.drain_wait (readChunk_wait inChunk short response), by simpa using receives⟩
        have last : lastChunk.length = 5 := rfl
        simp only [encode, List.length_append]
        omega
      · obtain ⟨behind, rfl⟩ : chunk.bytes <+: arrived :=
          List.prefix_of_prefix_length_le (List.prefix_append _ _) isPrefix (Nat.not_lt.mp short)
        have behindPrefix := (List.prefix_append_right_inj _).mp isPrefix
        obtain ⟨next, step, nextReceives⟩ := readChunk_advance receives chunk
          ((encode_startsOther chunks).front behindPrefix)
        rw [readChunk_shrinks.drain_advance step]
        obtain ⟨taken, left, buffer, last, rfl, rfl, notAll, drained, lastReceives⟩ |
            ⟨last, all, drained, lastReceives⟩ := ih nextReceives behindPrefix
        · left
          refine ⟨chunk :: taken, left, buffer, last, rfl, ?_, ?_, drained, ?_⟩
          · simp
          · simp only [List.length_append] at notAll ⊢
            omega
          · simpa using lastReceives
        · right
          refine ⟨last, ?_, drained, by simpa using lastReceives⟩
          rw [List.length_append, List.length_append]
          omega

/-!
## Sessions
-/

structure InBody (chunks : List Chunk) (body arrived : Bytes) (session : Session) : Prop where
  connected : session.connected = true
  notAll : arrived.length + 2 < (encode chunks).length
  parts : ∃ taken left, chunks = taken ++ left ∧
    arrived = taken.flatMap Chunk.bytes ++ session.inBuffer ∧
    Receives session.response (body ++ taken.flatMap Chunk.data)

structure AtEnd (chunks : List Chunk) (body arrived : Bytes) (session : Session) : Prop where
  connected : session.connected = true
  all : (encode chunks).length ≤ arrived.length + 2
  state : session.response.state = .complete
  parserStage : session.response.parserStage = .finished
  body : session.response.body = body ++ chunks.flatMap Chunk.data

variable {readFields : Bytes → HeaderRead} {chunks : List Chunk} {body arrived : Bytes}
  {session : Session}

theorem readData_body (readFields : Bytes → HeaderRead) {response : Response}
    (reads : ReadsChunked response) {p : Bytes} (notEmpty : p.length ≠ 0) :
    response.readData readFields p =
      match drain readChunk response p with
      | .running response rest => ((p.length : Int) - rest.length, response)
      | .stopped (.failed response) => (-1, response)
      | .stopped (.lastChunk response) =>
          consumed p.length 0 { response with parserStage := .finished } := by
  have same : { response with state := .incomplete } = response := by
    rw [← reads.state]
  unfold readData
  rw [same]
  dsimp only
  rw [if_pos (by rw [reads.parserStage]; decide), readHeader,
    if_pos (.inl (by rw [reads.parserStage]; decide)), readBody,
    if_neg (by simp [reads.parserStage, notEmpty])]
  exact if_pos reads.chunked

theorem drop_consumed {p front rest : Bytes} (isWhole : p = front ++ rest) :
    0 ≤ (p.length : Int) - rest.length ∧ p.drop ((p.length : Int) - rest.length).toNat = rest := by
  have isFront : ((p.length : Int) - rest.length).toNat = front.length := by
    rw [isWhole, List.length_append]
    omega
  constructor
  · rw [isWhole, List.length_append]
    omega
  · rw [isFront, isWhole, List.drop_left]

theorem InBody.receive (inBody : InBody chunks body arrived session) {data : Bytes}
    (isPrefix : arrived ++ data <+: encode chunks) :
    InBody chunks body (arrived ++ data) (session.receive readFields data) ∨
      AtEnd chunks body (arrived ++ data) (session.receive readFields data) := by
  by_cases empty : (session.inBuffer ++ data).length = 0
  · obtain ⟨noData, same⟩ := Session.receive_nothing empty
    rw [same, noData, List.append_nil]
    exact .inl inBody
  obtain ⟨taken, left, rfl, rfl, receives⟩ := inBody.parts
  have isEncode : encode (taken ++ left) = taken.flatMap Chunk.bytes ++ encode left := by
    simp [encode]
  rw [isEncode, List.append_assoc, List.prefix_append_right_inj] at isPrefix
  have isRead := readData_body readFields receives.readsChunked empty
  obtain ⟨more, others, buffer, next, rfl, isBuffer, notAll, drained, nextReceives⟩ |
      ⟨next, all, drained, nextReceives⟩ := drain_readChunk receives isPrefix
  · left
    obtain ⟨notNegative, isRest⟩ := drop_consumed isBuffer
    rw [drained] at isRead
    rw [Session.receive_eq inBody.connected empty isRead notNegative, isRest]
    refine ⟨inBody.connected, ?_, taken ++ more, others, (List.append_assoc _ _ _).symm, ?_, ?_⟩
    · simp only [isEncode, List.length_append] at notAll ⊢
      omega
    · rw [List.append_assoc, isBuffer, List.flatMap_append, List.append_assoc]
    · simpa using nextReceives
  · right
    have notDone : { next with parserStage := .finished }.done = false := by
      simp [done, nextReceives.state]
    rw [drained] at isRead
    dsimp only [consumed] at isRead
    rw [if_pos rfl, complete, finishWith, if_neg (by rw [notDone]; decide)] at isRead
    rw [Session.receive_eq inBody.connected empty isRead (by omega)]
    refine ⟨inBody.connected, ?_, rfl, rfl, ?_⟩
    · simp only [isEncode, List.length_append] at all ⊢
      omega
    · simpa using nextReceives.body

theorem AtEnd.receive (atEnd : AtEnd chunks body arrived session) (data : Bytes) :
    AtEnd chunks body (arrived ++ data) (session.receive readFields data) := by
  have longer : (encode chunks).length ≤ (arrived ++ data).length + 2 := by
    have all := atEnd.all
    rw [List.length_append]
    omega
  by_cases empty : (session.inBuffer ++ data).length = 0
  · obtain ⟨-, same⟩ := Session.receive_nothing empty
    rw [same]
    exact ⟨atEnd.connected, longer, atEnd.state, atEnd.parserStage, atEnd.body⟩
  · rw [Session.receive_eq atEnd.connected empty (readData_finished readFields atEnd.parserStage _)
      (Int.le_refl 0)]
    exact ⟨atEnd.connected, longer, rfl, atEnd.parserStage, atEnd.body⟩

theorem foldl_receive (readFields : Bytes → HeaderRead) {pieces : List Bytes}
    (reached : InBody chunks body arrived session ∨ AtEnd chunks body arrived session)
    (isPrefix : arrived ++ pieces.flatten <+: encode chunks) :
    InBody chunks body (arrived ++ pieces.flatten)
        (pieces.foldl (Session.receive readFields) session) ∨
      AtEnd chunks body (arrived ++ pieces.flatten)
        (pieces.foldl (Session.receive readFields) session) := by
  induction pieces generalizing arrived session with
  | nil => simpa using reached
  | cons data pieces ih =>
      rw [List.flatten_cons, ← List.append_assoc] at isPrefix ⊢
      refine ih ?_ isPrefix
      obtain inBody | atEnd := reached
      · exact inBody.receive ((List.prefix_append _ _).trans isPrefix)
      · exact .inr (atEnd.receive data)

/-- A session that waits for a chunked body, behind the header. -/
structure Session.AwaitsBody (session : Session) : Prop where
  connected : session.connected = true
  inBuffer : session.inBuffer = []
  receives : Receives session.response session.response.body

/-- The body is taken as it was sent, and the response is complete when the last chunk has
arrived as a whole, but not before. -/
def ReadsChunks (readFields : Bytes → HeaderRead) (session : Session) (chunks : List Chunk)
    (pieces : List Bytes) : Prop :=
  (pieces.foldl (Session.receive readFields) session).response.body =
      session.response.body ++ chunks.flatMap Chunk.data ∧
    ∀ count,
      ((pieces.take count).foldl (Session.receive readFields) session).response.state =
          .complete ↔
        (pieces.take count).flatten = chunkedBody (chunks.map Chunk.data)

/-- After some of the pieces, the last chunk has arrived but for its last line break. -/
def CutInLastLine (chunks : List Chunk) (pieces : List Bytes) : Prop :=
  ∃ count, (pieces.take count).flatten.length + 1 = (chunkedBody (chunks.map Chunk.data)).length ∨
    (pieces.take count).flatten.length + 2 = (chunkedBody (chunks.map Chunk.data)).length

theorem Session.AwaitsBody.inBody (awaits : session.AwaitsBody) (chunks : List Chunk) :
    InBody chunks session.response.body [] session := by
  refine ⟨awaits.connected, ?_, [], chunks, rfl, ?_, ?_⟩
  · simp [encode, lastChunk]
  · simp [awaits.inBuffer]
  · simpa using awaits.receives

/-- The response is complete from the last chunk on, without the line break behind it. -/
theorem complete_iff (readFields : Bytes → HeaderRead) (awaits : session.AwaitsBody)
    {pieces : List Bytes}
    (isPrefix : pieces.flatten <+: encode chunks) :
    ((pieces.foldl (Session.receive readFields) session).response.state = .complete ↔
        (encode chunks).length ≤ pieces.flatten.length + 2) ∧
      (pieces.flatten = encode chunks →
        (pieces.foldl (Session.receive readFields) session).response.body =
          session.response.body ++ chunks.flatMap Chunk.data) := by
  obtain inBody | atEnd :=
    foldl_receive readFields (.inl (awaits.inBody chunks)) isPrefix
  · obtain ⟨taken, left, -, -, receives⟩ := inBody.parts
    have notAll := inBody.notAll
    rw [List.nil_append] at notAll
    refine ⟨?_, ?_⟩
    · rw [receives.state]
      exact ⟨nofun, fun all => absurd all (by omega)⟩
    · intro isAll
      rw [isAll] at notAll
      omega
  · exact ⟨⟨fun _ => atEnd.all, fun _ => atEnd.state⟩, fun _ => atEnd.body⟩

theorem readsChunks_iff (readFields : Bytes → HeaderRead) {session : Session}
    (awaits : session.AwaitsBody) {chunks : List Chunk} {pieces : List Bytes}
    (cut : pieces.flatten = chunkedBody (chunks.map Chunk.data)) :
    ReadsChunks readFields session chunks pieces ↔ ¬ CutInLastLine chunks pieces := by
  unfold ReadsChunks CutInLastLine
  rw [chunkedBody_eq] at cut ⊢
  have arrivedPrefix : ∀ count, (pieces.take count).flatten <+: encode chunks := by
    intro count
    refine ⟨(pieces.drop count).flatten, ?_⟩
    rw [← List.flatten_append, List.take_append_drop, cut]
  have allArrived : ∀ count, (pieces.take count).flatten = encode chunks ↔
      (encode chunks).length ≤ (pieces.take count).flatten.length := by
    intro count
    refine ⟨fun isAll => by rw [isAll], fun long => (arrivedPrefix count).eq_of_length_le long⟩
  have completes := fun count => (complete_iff readFields awaits (arrivedPrefix count)).1
  constructor
  · rintro ⟨-, exact⟩ ⟨count, isCut⟩
    have isComplete := (completes count).mpr (by omega)
    have isAll := (allArrived count).mp ((exact count).mp isComplete)
    omega
  · intro notCut
    refine ⟨(complete_iff readFields awaits ⟨[], by rw [cut, List.append_nil]⟩).2 cut, ?_⟩
    intro count
    have notHere := not_exists.mp notCut count
    rw [completes, allArrived]
    omega

def chunkedSession : Session where
  response :=
    { Response.create with
      header := ⟨[(Header.transferEncoding, bytesOf "chunked")], true⟩
      state := .incomplete
      parserStage := .body }
  inBuffer := []
  connected := true

theorem chunkedSession_awaitsBody : chunkedSession.AwaitsBody :=
  ⟨rfl, rfl, rfl, rfl, rfl, fun _ => rfl, rfl⟩

def letterChunk : Chunk := ⟨[0x41], by decide, by decide⟩

/-- Cut within the chunk. -/
theorem readsChunks_letter :
    ReadsChunks (fun _ => .exception) chunkedSession [letterChunk]
      [[0x31, cr, lf, 0x41], [cr, lf, 0x30, cr, lf, cr, lf]] := by
  refine (readsChunks_iff _ chunkedSession_awaitsBody (by decide)).mpr ?_
  rintro ⟨count, isCut⟩
  match count with
  | 0 => exact absurd isCut (by decide)
  | 1 => exact absurd isCut (by decide)
  | count + 2 =>
      rw [List.take_of_length_le (by simp)] at isCut
      exact absurd isCut (by decide)

/-- Cut behind the line of the last chunk, which makes the response complete. -/
theorem not_readsChunks_cutInLastLine :
    [[0x31, cr, lf, 0x41, cr, lf, 0x30, cr, lf], [cr, lf]].flatten =
        chunkedBody [letterChunk.data] ∧
      ¬ ReadsChunks (fun _ => .exception) chunkedSession [letterChunk]
        [[0x31, cr, lf, 0x41, cr, lf, 0x30, cr, lf], [cr, lf]] := by
  refine ⟨by decide, ?_⟩
  rintro ⟨-, exact⟩
  have isAll := (exact 1).mp (by decide)
  exact absurd isAll (by decide)

end FreeOnline.Net.Http
