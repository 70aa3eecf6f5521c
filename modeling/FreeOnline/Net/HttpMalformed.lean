import Mathlib.Data.List.TakeWhile
import FreeOnline.Net.HttpChunks

/-!
# Malformed chunked bodies

A size line without a hexadecimal digit has the value of the last chunk for the parser.
Which byte strings it takes for a whole body, in some segmentation, is said here without
the parser's state.
-/

set_option autoImplicit false

namespace FreeOnline.Net.Http

open FreeOnline.Library
open Response

/-!
## Well-formed bodies
-/

/-- Optional blanks and what follows a semicolon. -/
def IsExtension (extension : Bytes) : Prop :=
  extension = [] ∨ ∃ blanks more, extension = blanks ++ 0x3b :: more ∧
    (∀ ch ∈ blanks, ch = 0x20 ∨ ch = 0x09) ∧ cr ∉ more ∧ lf ∉ more

/-- A hexadecimal number with an optional extension. -/
def IsSizeLine (line : Bytes) (size : Nat) : Prop :=
  ∃ digits values extension, line = digits ++ extension ∧ digits ≠ [] ∧
    digits.mapM hexDigitFromChar = some values ∧
    values.foldl (fun value digit => value * 16 + digit) 0 = size ∧ IsExtension extension

/-- Chunks with their sizes, up to the line of the last one. -/
inductive WellFormed : Bytes → Prop where
  | last {line rest : Bytes} (isSize : IsSizeLine line 0) : WellFormed (line ++ cr :: lf :: rest)
  | chunk {line data rest : Bytes} (isSize : IsSizeLine line data.length) (notEmpty : data ≠ [])
      (wellFormed : WellFormed rest) :
      WellFormed (line ++ cr :: lf :: (data ++ cr :: lf :: rest))

private theorem IsSizeLine.head {line : Bytes} {size : Nat} (isSize : IsSizeLine line size) :
    ∃ ch rest, line = ch :: rest ∧ hexDigitFromChar ch ≠ none := by
  obtain ⟨digits, values, extension, rfl, notEmpty, areDigits, -, -⟩ := isSize
  cases digits with
  | nil => exact absurd rfl notEmpty
  | cons ch digits =>
      refine ⟨ch, digits ++ extension, rfl, ?_⟩
      intro isNone
      simp [List.mapM_cons, isNone] at areDigits

theorem WellFormed.head {s : Bytes} (wellFormed : WellFormed s) :
    ∃ ch rest, s = ch :: rest ∧ hexDigitFromChar ch ≠ none := by
  cases wellFormed with
  | last isSize =>
      obtain ⟨ch, rest, rfl, isDigit⟩ := isSize.head
      exact ⟨ch, _, rfl, isDigit⟩
  | chunk isSize _ _ =>
      obtain ⟨ch, rest, rfl, isDigit⟩ := isSize.head
      exact ⟨ch, _, rfl, isDigit⟩

/-!
## What the parser takes for a body
-/

/-- Lines with the value of their leading digits, data of that length and line breaks behind
it, up to a line with the value zero. Of the line breaks the parser may skip less than there
are, since it skips those that have arrived. -/
inductive Ends : Bytes → Prop where
  | last {line rest : Bytes} (oneLine : lf ∉ line) (isZero : readChunkLen 0 line = some 0) :
      Ends (line ++ lf :: rest)
  | chunk {line data breaks rest : Bytes} (oneLine : lf ∉ line) (notEmpty : data ≠ [])
      (isLength : readChunkLen 0 line = some data.length)
      (areBreaks : ∀ ch ∈ breaks, IsBreak ch) (enough : 2 ≤ (breaks ++ rest).length)
      (stops : breaks.length < 2 → StartsOther rest) (ends : Ends rest) :
      Ends (line ++ lf :: (data ++ (breaks ++ rest)))

/-- With two bytes behind the data, it shows where the line breaks end if they are less. -/
private theorem stops_append {breaks rest : Bytes} (enough : 2 ≤ (breaks ++ rest).length)
    (stops : breaks.length < 2 → StartsOther rest) (more : Bytes) (few : breaks.length < 2) :
    StartsOther (rest ++ more) := by
  intro ch isHead
  rw [List.length_append] at enough
  cases rest with
  | nil =>
      rw [List.length_nil] at enough
      omega
  | cons first rest => exact stops few ch isHead

/-- A chunk before what the parser takes for a body, also if less of this has arrived. -/
private theorem Ends.behind {line data breaks rest more : Bytes} (oneLine : lf ∉ line)
    (notEmpty : data ≠ []) (isLength : readChunkLen 0 line = some data.length)
    (areBreaks : ∀ ch ∈ breaks, IsBreak ch) (enough : 2 ≤ (breaks ++ rest).length)
    (stops : breaks.length < 2 → StartsOther rest) (ends : Ends (rest ++ more)) :
    Ends (line ++ lf :: (data ++ (breaks ++ rest)) ++ more) := by
  have isWhole : line ++ lf :: (data ++ (breaks ++ rest)) ++ more =
      line ++ lf :: (data ++ (breaks ++ (rest ++ more))) := by simp
  rw [isWhole]
  refine .chunk oneLine notEmpty isLength areBreaks ?_ (stops_append enough stops more) ends
  simp only [List.length_append] at enough ⊢
  omega

theorem Ends.append {s : Bytes} (ends : Ends s) (more : Bytes) : Ends (s ++ more) := by
  induction ends with
  | last oneLine isZero =>
      rw [List.append_assoc, List.cons_append]
      exact .last oneLine isZero
  | chunk oneLine notEmpty isLength areBreaks enough stops _ ih =>
      exact Ends.behind oneLine notEmpty isLength areBreaks enough stops ih

theorem readChunkLen_line (chunkLen : Nat) (line tail : Bytes) :
    readChunkLen chunkLen (line ++ lf :: tail) = readChunkLen chunkLen line := by
  induction line generalizing chunkLen with
  | nil => rfl
  | cons ch line ih =>
      rw [List.cons_append, readChunkLen, readChunkLen]
      cases hexDigitFromChar ch with
      | none => rfl
      | some digit =>
          dsimp only
          rw [ih]

/-!
## One step
-/

private theorem exists_breaks (p : Bytes) :
    ∃ breaks rest, p = breaks ++ rest ∧ (∀ ch ∈ breaks, IsBreak ch) ∧ StartsOther rest := by
  refine ⟨p.takeWhile fun ch => ch = cr || ch = lf, p.dropWhile fun ch => ch = cr || ch = lf,
    List.takeWhile_append_dropWhile.symm, ?_, ?_⟩
  · intro ch isMember
    have isBreak := List.mem_takeWhile_imp isMember
    simpa [IsBreak] using isBreak
  · intro ch isHead
    have isOther := List.head?_dropWhile_not (fun ch => ch = cr || ch = lf) p
    rw [Option.mem_def.mp isHead] at isOther
    simpa using isOther

/-- What the parser does with the front of its buffer. -/
inductive ChunkStep (response : Response) (p : Bytes) :
    Progress Response UInt8 ChunkEnd → Prop where
  | wait : ChunkStep response p (.wait response)
  | failed {failed : Response} (reads : ReadsChunked response → ReadsChunked failed) :
      ChunkStep response p (.stop (.failed failed))
  | last {line rest : Bytes} (isFront : p = line ++ lf :: rest) (oneLine : lf ∉ line)
      (isZero : readChunkLen 0 line = some 0) : ChunkStep response p (.stop (.lastChunk response))
  | advance {line data breaks rest : Bytes} {next : Response}
      (isFront : p = line ++ lf :: (data ++ (breaks ++ rest))) (oneLine : lf ∉ line)
      (notEmpty : data ≠ []) (isLength : readChunkLen 0 line = some data.length)
      (areBreaks : ∀ ch ∈ breaks, IsBreak ch) (enough : 2 ≤ (breaks ++ rest).length)
      (startsOther : StartsOther rest) (reads : ReadsChunked response → ReadsChunked next) :
      ChunkStep response p (.advance next rest)

theorem chunkStep_readChunk (response : Response) (p : Bytes) :
    ChunkStep response p (readChunk response p) := by
  by_cases hasLine : lf ∈ p
  · obtain ⟨line, tail, rfl, oneLine⟩ := List.eq_append_cons_of_mem hasLine
    cases isLength : readChunkLen 0 (line ++ lf :: tail) with
    | none =>
        have atBreak : findLineBreak (line ++ lf :: tail) 0 = 0 + line.length :=
          findLineBreak_some rfl oneLine
        rw [readChunk, atBreak, isLength, if_neg (by simp), if_neg (by simp)]
        exact .failed id
    | some chunkLen =>
        rw [readChunk_eq oneLine isLength]
        rw [readChunkLen_line] at isLength
        by_cases positive : 0 < chunkLen
        · rw [if_pos positive]
          by_cases short : tail.length < chunkLen + 2
          · rw [if_pos short]
            exact .wait
          · rw [if_neg short]
            dsimp only [writeBody]
            split
            · exact .failed fun reads => ⟨reads.state, reads.parserStage, reads.chunked⟩
            · obtain ⟨breaks, rest, isRest, areBreaks, startsOther⟩ := exists_breaks (tail.drop chunkLen)
              have taken : (tail.take chunkLen).length = chunkLen := by
                rw [List.length_take]
                omega
              have enough : 2 ≤ (breaks ++ rest).length := by
                rw [← isRest, List.length_drop]
                omega
              rw [isRest, skipCRLF_eq areBreaks startsOther, List.drop_left]
              refine .advance ?_ oneLine ?_ (isLength.trans (congrArg some taken.symm)) areBreaks
                enough startsOther fun reads => ⟨reads.state, reads.parserStage, reads.chunked⟩
              · rw [← isRest, List.take_append_drop]
              · exact List.length_pos_iff.mp (by omega)
        · rw [if_neg positive]
          exact .last rfl oneLine (isLength.trans (congrArg some (by omega)))
  · rw [readChunk_line hasLine]
    exact .wait

theorem readChunk_chunk {response : Response}
    (takesAll : ∀ data, response.onBodyWriteCb data = data.length)
    {line data breaks rest : Bytes} (oneLine : lf ∉ line) (notEmpty : data ≠ [])
    (isLength : readChunkLen 0 line = some data.length) (areBreaks : ∀ ch ∈ breaks, IsBreak ch)
    (enough : 2 ≤ (breaks ++ rest).length) (startsOther : StartsOther rest) :
    ∃ next, (∀ data, next.onBodyWriteCb data = data.length) ∧
      readChunk response (line ++ lf :: (data ++ (breaks ++ rest))) = .advance next rest := by
  have positive := List.length_pos_of_ne_nil notEmpty
  have long : ¬ (data ++ (breaks ++ rest)).length < data.length + 2 := by
    rw [List.length_append]
    omega
  rw [← readChunkLen_line 0 line (data ++ (breaks ++ rest))] at isLength
  rw [readChunk_eq oneLine isLength, if_pos positive, if_neg long, List.take_left, List.drop_left]
  dsimp only [writeBody]
  rw [takesAll, if_neg (by simp), skipCRLF_eq areBreaks startsOther, List.drop_left]
  refine ⟨_, ?_, rfl⟩
  exact takesAll

/-!
## The pieces of a stream
-/

/-- Where the parser stands in what has arrived: in a part that leads to what it waits for,
behind a last chunk, or nowhere. -/
def Leads (arrived : Bytes) : Fed Response UInt8 ChunkEnd → Prop
  | .running response buffer =>
      ReadsChunked response ∧ ∀ more, Ends (buffer ++ more) → Ends (arrived ++ more)
  | .stopped (.lastChunk response) => ReadsChunked response ∧ Ends arrived
  | .stopped (.failed response) => ReadsChunked response

theorem leads_drain {response : Response} (reads : ReadsChunked response) (p : Bytes) :
    Leads p (drain readChunk response p) := by
  induction length : p.length using Nat.strongRecOn generalizing response p with
  | _ n ih =>
      have step := chunkStep_readChunk response p
      cases progress : readChunk response p with
      | wait next =>
          rw [progress] at step
          cases step
          rw [Incremental.drain_wait progress]
          exact ⟨reads, fun _ ends => ends⟩
      | stop result =>
          rw [progress] at step
          rw [Incremental.drain_stop progress]
          cases step with
          | failed same => exact same reads
          | last isFront oneLine isZero =>
              rw [isFront]
              exact ⟨reads, .last oneLine isZero⟩
      | advance next rest =>
          have shorter := readChunk_shrinks _ _ _ _ progress
          rw [progress] at step
          rw [readChunk_shrinks.drain_advance progress]
          cases step with
          | advance isFront oneLine notEmpty isLength areBreaks enough startsOther same =>
              have behind (more : Bytes) (ends : Ends (rest ++ more)) : Ends (p ++ more) := by
                rw [isFront]
                exact Ends.behind oneLine notEmpty isLength areBreaks enough (fun _ => startsOther) ends
              have leads := ih rest.length (by omega) (same reads) rest rfl
              cases drained : drain readChunk next rest with
              | running last buffer =>
                  rw [drained] at leads
                  exact ⟨leads.1, fun more ends => behind more (leads.2 more ends)⟩
              | stopped result =>
                  rw [drained] at leads
                  cases result with
                  | failed last => exact leads
                  | lastChunk last =>
                      have ends := behind [] (by rw [List.append_nil]; exact leads.2)
                      rw [List.append_nil] at ends
                      exact ⟨leads.1, ends⟩

theorem Leads.feed {arrived : Bytes} {fed : Fed Response UInt8 ChunkEnd} (leads : Leads arrived fed)
    (data : Bytes) : Leads (arrived ++ data) (feed readChunk fed data) := by
  cases fed with
  | stopped result =>
      cases result with
      | failed response => exact leads
      | lastChunk response => exact ⟨leads.1, leads.2.append data⟩
  | running response buffer =>
      obtain ⟨reads, before⟩ := leads
      have next := leads_drain reads (buffer ++ data)
      rw [Library.feed]
      cases drained : drain readChunk response (buffer ++ data) with
      | running last rest =>
          rw [drained] at next
          refine ⟨next.1, fun more ends => ?_⟩
          have onward := next.2 more ends
          rw [List.append_assoc] at onward ⊢
          exact before _ onward
      | stopped result =>
          rw [drained] at next
          cases result with
          | failed last => exact next
          | lastChunk last => exact ⟨next.1, before data next.2⟩

private theorem feed_chunk {response : Response}
    (takesAll : ∀ data, response.onBodyWriteCb data = data.length)
    {line data breaks rest : Bytes} (oneLine : lf ∉ line) (notEmpty : data ≠ [])
    (isLength : readChunkLen 0 line = some data.length) (areBreaks : ∀ ch ∈ breaks, IsBreak ch)
    (enough : 2 ≤ (breaks ++ rest).length) (startsOther : StartsOther rest) :
    ∃ next, (∀ data, next.onBodyWriteCb data = data.length) ∧
      feed readChunk (.running response []) (line ++ lf :: (data ++ (breaks ++ rest))) =
        feed readChunk (.running next []) rest := by
  obtain ⟨next, nextTakesAll, step⟩ :=
    readChunk_chunk takesAll oneLine notEmpty isLength areBreaks enough startsOther
  refine ⟨next, nextTakesAll, ?_⟩
  rw [feed, feed, List.nil_append, List.nil_append, readChunk_shrinks.drain_advance step]

/-- Some segmentation ends with a last chunk, with a first piece that is long enough to
show where the line breaks before it end. -/
theorem Ends.exists_pieces {s : Bytes} (ends : Ends s) :
    ∃ piece pieces, (piece :: pieces).flatten = s ∧ (2 ≤ piece.length ∨ piece = s) ∧
      ∀ response : Response, (∀ data, response.onBodyWriteCb data = data.length) →
        ∃ last, (piece :: pieces).foldl (feed readChunk) (.running response []) =
          .stopped (.lastChunk last) := by
  induction ends with
  | @last line rest oneLine isZero =>
      refine ⟨line ++ lf :: rest, [], by simp, .inr rfl, ?_⟩
      intro response takesAll
      rw [← readChunkLen_line 0 line rest] at isZero
      have stop := readChunk_eq oneLine isZero response
      rw [if_neg (Nat.lt_irrefl 0)] at stop
      refine ⟨response, ?_⟩
      rw [List.foldl_cons, List.foldl_nil, feed, List.nil_append, Incremental.drain_stop stop]
  | @chunk line data breaks rest oneLine notEmpty isLength areBreaks enough stops ends ih =>
      obtain ⟨piece, pieces, isRest, long, completes⟩ := ih
      have positive := List.length_pos_of_ne_nil notEmpty
      by_cases few : breaks.length < 2
      · -- The next piece has to arrive together with the breaks.
        have startsOther : StartsOther piece := by
          refine (stops few).front ?_
          rw [← isRest, List.flatten_cons]
          exact List.prefix_append _ _
        have pieceEnough : 2 ≤ (breaks ++ piece).length := by
          rcases long with long | rfl
          · rw [List.length_append]
            omega
          · exact enough
        refine ⟨line ++ lf :: (data ++ (breaks ++ piece)), pieces, ?_, .inl ?_, ?_⟩
        · rw [List.flatten_cons] at isRest ⊢
          rw [← isRest]
          simp
        · rw [List.length_append, List.length_cons, List.length_append]
          omega
        · intro response takesAll
          obtain ⟨next, nextTakesAll, same⟩ :=
            feed_chunk takesAll oneLine notEmpty isLength areBreaks pieceEnough startsOther
          rw [List.foldl_cons, same]
          exact completes next nextTakesAll
      · have breaksEnough : 2 ≤ (breaks ++ []).length := by
          rw [List.append_nil]
          omega
        refine ⟨line ++ lf :: (data ++ (breaks ++ [])), piece :: pieces, ?_, .inl ?_, ?_⟩
        · rw [List.flatten_cons, isRest]
          simp
        · rw [List.length_append, List.length_cons, List.length_append]
          omega
        · intro response takesAll
          obtain ⟨next, nextTakesAll, same⟩ :=
            feed_chunk takesAll oneLine notEmpty isLength areBreaks breaksEnough
              (by simp [StartsOther])
          have waits : feed readChunk (.running next []) [] = .running next [] := rfl
          rw [List.foldl_cons, same, waits]
          exact completes next nextTakesAll

/-!
## Sessions
-/

/-- The session is where the parser of chunks is. -/
inductive Follows : Fed Response UInt8 ChunkEnd → Session → Prop where
  | running {session : Session} (connected : session.connected = true)
      (reads : ReadsChunked session.response) :
      Follows (.running session.response session.inBuffer) session
  | complete {session : Session} {response : Response} (connected : session.connected = true)
      (state : session.response.state = .complete)
      (parserStage : session.response.parserStage = .finished) :
      Follows (.stopped (.lastChunk response)) session
  | failed {session : Session} {response : Response} (disconnected : session.connected = false)
      (state : session.response.state = .error) :
      Follows (.stopped (.failed response)) session

private theorem readChunk_suffix {response next : Response} {p rest : Bytes}
    (progress : readChunk response p = .advance next rest) : rest <:+ p := by
  have step := chunkStep_readChunk response p
  rw [progress] at step
  cases step with
  | @advance line data breaks _ _ isFront =>
      refine ⟨line ++ lf :: (data ++ breaks), ?_⟩
      rw [isFront]
      simp

theorem Follows.receive (readFields : Bytes → HeaderRead) {fed : Fed Response UInt8 ChunkEnd}
    {session : Session} (follows : Follows fed session) (data : Bytes) :
    Follows (feed readChunk fed data) (session.receive readFields data) := by
  by_cases empty : (session.inBuffer ++ data).length = 0
  · obtain ⟨rfl, same⟩ : data = [] ∧ session.receive readFields data = session :=
      Session.receive_nothing empty
    rw [same]
    cases follows with
    | complete connected state parserStage => exact .complete connected state parserStage
    | failed disconnected state => exact .failed disconnected state
    | running connected reads =>
        have noBuffer : session.inBuffer = [] := by simpa using empty
        have waits : feed readChunk (.running session.response session.inBuffer) [] =
            .running session.response session.inBuffer := by
          rw [noBuffer]
          rfl
        rw [waits]
        exact .running connected reads
  cases follows with
  | complete connected state parserStage =>
      rw [Session.receive_eq connected empty (readData_finished readFields parserStage _)
        (Int.le_refl 0)]
      exact .complete connected rfl parserStage
  | failed disconnected state =>
      rw [Session.receive_disconnected disconnected]
      exact .failed disconnected state
  | running connected reads =>
      have isRead := readData_body readFields reads empty
      have leads := leads_drain reads (session.inBuffer ++ data)
      rw [feed]
      cases drained : drain readChunk session.response (session.inBuffer ++ data) with
      | running next rest =>
          obtain ⟨front, isFront⟩ := suffix_drain readChunk_suffix drained
          obtain ⟨notNegative, isRest⟩ := drop_consumed isFront.symm
          rw [drained] at isRead leads
          rw [Session.receive_eq connected empty isRead notNegative, isRest]
          exact @Follows.running { session with response := next, inBuffer := rest } connected leads.1
      | stopped result =>
          rw [drained] at isRead leads
          cases result with
          | failed next =>
              have negative : (session.response.readData readFields (session.inBuffer ++ data)).1 < 0 := by
                rw [isRead]
                exact Int.negSucc_lt_zero 0
              rw [Session.receive_failed connected empty negative, isRead]
              refine .failed rfl ?_
              simp [Session.onDisconnect, finish, finishWith, done, ReadsChunked.state leads]
          | lastChunk next =>
              have notDone : { next with parserStage := .finished }.done = false := by
                simp [done, leads.1.state]
              dsimp only [consumed] at isRead
              rw [if_pos rfl, Response.complete, finishWith, if_neg (by rw [notDone]; decide)] at isRead
              rw [Session.receive_eq connected empty isRead (by omega)]
              exact .complete connected rfl rfl

theorem Follows.foldl_receive (readFields : Bytes → HeaderRead)
    {fed : Fed Response UInt8 ChunkEnd} {session : Session} (follows : Follows fed session)
    (pieces : List Bytes) :
    Follows (pieces.foldl (feed readChunk) fed)
      (pieces.foldl (Session.receive readFields) session) := by
  induction pieces generalizing fed session with
  | nil => exact follows
  | cons piece pieces ih => exact ih (follows.receive readFields piece)

theorem Leads.foldl_feed {arrived : Bytes} {fed : Fed Response UInt8 ChunkEnd}
    (leads : Leads arrived fed) (pieces : List Bytes) :
    Leads (arrived ++ pieces.flatten) (pieces.foldl (Library.feed readChunk) fed) := by
  induction pieces generalizing arrived fed with
  | nil =>
      rw [List.flatten_nil, List.append_nil]
      exact leads
  | cons piece pieces ih =>
      rw [List.flatten_cons, ← List.append_assoc]
      exact ih (leads.feed piece)

/-- A session behind the header of a response with a chunked body. -/
structure Session.AwaitsChunks (session : Session) : Prop where
  connected : session.connected = true
  inBuffer : session.inBuffer = []
  reads : ReadsChunked session.response

theorem Session.AwaitsChunks.follows {session : Session} (awaits : session.AwaitsChunks) :
    Follows (.running session.response []) session := by
  have running := Follows.running awaits.connected awaits.reads
  rwa [awaits.inBuffer] at running

/-- In every segmentation, after each of the pieces, the response waits for more or has
failed. -/
def NeverAccepted (readFields : Bytes → HeaderRead) (s : Bytes) : Prop :=
  ∀ session : Session, session.AwaitsChunks → ∀ pieces : List Bytes, pieces.flatten = s →
    ∀ first, first <+: pieces →
      (first.foldl (Session.receive readFields) session).response.state = .incomplete ∨
        (first.foldl (Session.receive readFields) session).response.state = .error

theorem neverAccepted_iff_not_ends (readFields : Bytes → HeaderRead) (s : Bytes) :
    NeverAccepted readFields s ↔ ¬ Ends s := by
  constructor
  · intro never ends
    obtain ⟨piece, pieces, isWhole, -, completes⟩ := ends.exists_pieces
    obtain ⟨last, isLast⟩ := completes chunkedSession.response fun _ => rfl
    have awaits : chunkedSession.AwaitsChunks :=
      ⟨rfl, rfl, chunkedSession_awaitsBody.receives.readsChunked⟩
    have follows := awaits.follows.foldl_receive readFields (piece :: pieces)
    have notComplete := never chunkedSession awaits (piece :: pieces) isWhole _ (List.prefix_refl _)
    rw [isLast] at follows
    cases follows with
    | complete _ state _ =>
        rw [state] at notComplete
        simp at notComplete
  · intro notEnds session awaits pieces isWhole first isFirst
    obtain ⟨rest, rfl⟩ := isFirst
    have start : Leads [] (.running session.response []) := ⟨awaits.reads, fun _ ends => ends⟩
    have leads := start.foldl_feed first
    have follows := awaits.follows.foldl_receive readFields first
    generalize first.foldl (Library.feed readChunk) _ = fed at leads follows
    cases follows with
    | running _ reads => exact .inl reads.state
    | failed _ state => exact .inr state
    | complete _ _ _ =>
        have ends := leads.2.append rest.flatten
        rw [List.nil_append, ← List.flatten_append, isWhole] at ends
        exact absurd ends notEnds

/-- Malformed bodies are not accepted but for those that have a size line of value zero
where the parser looks for one. -/
theorem malformed_neverAccepted_iff (readFields : Bytes → HeaderRead) (s : Bytes) :
    (¬ WellFormed s → NeverAccepted readFields s) ↔ (WellFormed s ∨ ¬ Ends s) := by
  rw [neverAccepted_iff_not_ends]
  exact or_iff_not_imp_left.symm

/-- A line that is no number at all. -/
theorem malformed_accepted :
    ¬ WellFormed (bytesOf "XYZ\r\n") ∧
      ¬ NeverAccepted (fun _ => .exception) (bytesOf "XYZ\r\n") := by
  constructor
  · intro wellFormed
    obtain ⟨ch, rest, isFirst, isDigit⟩ := wellFormed.head
    have isX : ch = 0x58 := (List.cons.inj isFirst).1.symm
    rw [isX] at isDigit
    exact isDigit (by decide)
  · intro never
    have awaits : chunkedSession.AwaitsChunks :=
      ⟨rfl, rfl, chunkedSession_awaitsBody.receives.readsChunked⟩
    have notComplete := never chunkedSession awaits [bytesOf "XYZ\r\n"] (by simp) _
      (List.prefix_refl _)
    revert notComplete
    decide

end FreeOnline.Net.Http
