import Mathlib.Data.List.Induction
import FreeOnline.Net.HttpHead

/-!
# Bodies with a Content-Length

The parser counts what it has given to the callback and is finished when this reaches the
announced length. It gives it all that has arrived, also what comes behind the body.
-/

set_option autoImplicit false

namespace FreeOnline.Net.Http

open Response

def headerOf (fields : List (Bytes × Bytes)) : Header :=
  fields.foldl (fun header pair => header.set (trimmed pair.1) (trimmed pair.2)) ⟨[], false⟩

/-- Informational responses and those without new content end with their head. -/
def ResponseHead.HasBody (head : ResponseHead) : Prop :=
  200 ≤ head.statusCode ∧ head.statusCode ≠ 204 ∧ head.statusCode ≠ 304

instance (head : ResponseHead) : Decidable head.HasBody :=
  inferInstanceAs (Decidable (_ ∧ _ ∧ _))

structure FixedLength (readFields : Bytes → HeaderRead) where
  head : ResponseHead
  fields : List (Bytes × Bytes)
  content : Bytes
  isRead : ∀ rest, readFields (head.bytes ++ rest) = .fields fields
  hasContentLength : (headerOf fields).hasContentLength = true
  contentLength : (headerOf fields).getContentLength = content.length

namespace FixedLength

variable {readFields : Bytes → HeaderRead} (message : FixedLength readFields)

def bytes : Bytes := message.head.bytes ++ message.content

def header : Header :=
  { headerOf message.fields with
    chunked := (headerOf message.fields).getTransferEncoding = bytesOf "chunked" }

/-- The length is that of the body: the response may have one, and nothing else in the
header says how it ends. -/
structure Framed : Prop where
  hasBody : message.content ≠ [] → message.head.HasBody
  noTransferEncoding : message.head.HasBody → message.header.getTransferEncoding = []

/-!
## The head
-/

structure AwaitsHead (response : Response) : Prop where
  notComplete : response.state ≠ .complete
  parserStage : response.parserStage = .statusLine ∨
    response.parserStage = .header ∧
      response.statusLine.statusCode = message.head.statusCode
  header : response.header = ⟨[], false⟩
  recvBodySize : response.recvBodySize = 0
  body : response.body = []
  takesAll : ∀ data, response.onBodyWriteCb data = data.length

/-- The response reads the header of `p` next. -/
structure ReadsHeader (response : Response) : Prop where
  state : response.state = .incomplete
  parserStage : response.parserStage = .header
  statusCode : response.statusLine.statusCode = message.head.statusCode
  header : response.header = ⟨[], false⟩
  recvBodySize : response.recvBodySize = 0
  body : response.body = []
  takesAll : ∀ data, response.onBodyWriteCb data = data.length

variable {message}

theorem AwaitsHead.readHeader_of_statusLine {response : Response}
    (awaits : message.AwaitsHead response) (rest : Bytes) :
    ∃ next, message.ReadsHeader next ∧
      response.readData readFields (message.head.statusText ++ cr :: lf :: rest) =
        next.readHeader readFields (message.head.statusText ++ cr :: lf :: rest) := by
  rcases awaits.parserStage with atStart | ⟨atHeader, statusCode⟩
  · obtain ⟨parsed, read, isCode, positive, isParsed⟩ :=
      message.head.parse_whole response.statusLine rest
    refine ⟨{ response with state := .incomplete, statusLine := parsed, parserStage := .header },
      ⟨rfl, rfl, isCode, awaits.header, awaits.recvBodySize, awaits.body, awaits.takesAll⟩, ?_⟩
    unfold readData
    simp only [atStart, ne_eq, not_true_eq_false, ↓reduceIte, isParsed]
    exact if_neg (by omega)
  · refine ⟨{ response with state := .incomplete },
      ⟨rfl, atHeader, statusCode, awaits.header, awaits.recvBodySize, awaits.body,
        awaits.takesAll⟩, ?_⟩
    unfold readData
    exact if_pos (by simp [atHeader])

theorem ReadsHeader.awaitsHead {response : Response} (reads : message.ReadsHeader response) :
    message.AwaitsHead response where
  notComplete := by simp [reads.state]
  parserStage := .inr ⟨reads.parserStage, reads.statusCode⟩
  header := reads.header
  recvBodySize := reads.recvBodySize
  body := reads.body
  takesAll := reads.takesAll

private theorem ReadsHeader.consumed {response : Response} (reads : message.ReadsHeader response)
    (p : Bytes) : response.readBody p.length p = (0, response) := by
  have notFinished : response.parserStage ≠ .finished := by simp [reads.parserStage]
  rw [readBody, if_pos (.inl (by simp [reads.parserStage])), Response.consumed,
    if_neg notFinished, Int.sub_self]

theorem ReadsHeader.readHeader_part {response : Response} (reads : message.ReadsHeader response)
    {p : Bytes} (isPrefix : p <+: message.head.bytes)
    (short : p.length < message.head.bytes.length) :
    response.readHeader readFields p = (0, response) := by
  have unparsed : response.header.parse readFields p = (0, response.header) := by
    unfold Header.parse
    split
    · rfl
    · exact if_pos (message.head.findBlankLine_part isPrefix short)
  unfold readHeader
  split
  · exact reads.consumed p
  · rw [unparsed]
    exact reads.consumed p

theorem AwaitsHead.readData_part {response : Response} (awaits : message.AwaitsHead response)
    {p : Bytes} (isPrefix : p <+: message.head.bytes)
    (short : p.length < message.head.bytes.length) :
    (response.readData readFields p).1 = 0 ∧
      message.AwaitsHead (response.readData readFields p).2 := by
  have inHead {next : Response} (reads : message.ReadsHeader next)
      (same : response.readData readFields p = next.readHeader readFields p) :
      (response.readData readFields p).1 = 0 ∧
        message.AwaitsHead (response.readData readFields p).2 := by
    rw [same, reads.readHeader_part isPrefix short]
    exact ⟨rfl, reads.awaitsHead⟩
  have isHead : message.head.bytes =
      (message.head.statusText ++ [cr, lf]) ++ (linesText message.head.lines ++ [cr, lf]) := by
    simp [ResponseHead.bytes]
  by_cases inStatus : p.length < (message.head.statusText ++ [cr, lf]).length
  · have statusPrefix : p <+: message.head.statusText ++ [cr, lf] := by
      rw [isHead] at isPrefix
      exact List.prefix_of_prefix_length_le isPrefix (List.prefix_append _ _)
        (Nat.le_of_lt inStatus)
    obtain ⟨parsed, isParsed⟩ := message.head.parse_part response.statusLine statusPrefix inStatus
    rcases awaits.parserStage with atStart | ⟨atHeader, statusCode⟩
    · have waits : response.readData readFields p =
          (0, { response with state := .incomplete, statusLine := parsed }) := by
        simp [readData, atStart, isParsed]
      rw [waits]
      exact ⟨rfl, by simp, .inl atStart, awaits.header, awaits.recvBodySize, awaits.body,
        awaits.takesAll⟩
    · have reads : message.ReadsHeader { response with state := .incomplete } :=
        ⟨rfl, atHeader, statusCode, awaits.header, awaits.recvBodySize, awaits.body,
          awaits.takesAll⟩
      exact inHead reads (if_pos (by simp [atHeader]))
  · have whole : message.head.statusText ++ [cr, lf] <+: p := by
      rw [isHead] at isPrefix
      exact List.prefix_of_prefix_length_le (List.prefix_append _ _) isPrefix
        (Nat.not_lt.mp inStatus)
    obtain ⟨rest, rfl⟩ := whole
    rw [List.append_assoc] at inHead ⊢
    obtain ⟨next, reads, same⟩ := awaits.readHeader_of_statusLine rest
    exact inHead reads same

/-!
## The body
-/

/-- The response has got a part of the content. -/
structure Gets (message : FixedLength readFields) (got : Bytes) (response : Response) : Prop where
  state : response.state = .incomplete
  parserStage : response.parserStage = .body
  header : response.header = message.header
  notChunked : message.header.chunked = false
  recvBodySize : response.recvBodySize = got.length
  body : response.body = got
  takesAll : ∀ data, response.onBodyWriteCb data = data.length
  notAll : got.length < message.content.length

structure IsComplete (body : Bytes) (response : Response) : Prop where
  state : response.state = .complete
  parserStage : response.parserStage = .finished
  body : response.body = body

theorem Gets.readBody {got : Bytes} {response : Response} (gets : message.Gets got response)
    (len : Nat) {p : Bytes} (some : p ≠ []) :
    (response.readBody len p).1 = len ∧
      (message.content.length ≤ (got ++ p).length ∧
          IsComplete (got ++ p) (response.readBody len p).2 ∨
        message.Gets (got ++ p) (response.readBody len p).2) := by
  have filled : 0 < p.length := List.length_pos_of_ne_nil some
  have written : response.writeBody p =
      ((p.length : Int), { response with body := got ++ p }) := by
    rw [writeBody, gets.takesAll, gets.body, Int.toNat_natCast, List.take_length]
  have chunked : response.header.chunked = false := by
    rw [gets.header]
    exact gets.notChunked
  have announced : response.header.hasContentLength = true := by
    rw [gets.header]
    exact message.hasContentLength
  have length : response.header.getContentLength = message.content.length := by
    rw [gets.header]
    exact message.contentLength
  have inBody : ¬ (response.parserStage ≠ .body ∨ p.length = 0) := by
    simp [gets.parserStage, some]
  have counted : response.recvBodySize + p.length = (got ++ p).length := by
    rw [gets.recvBodySize, List.length_append]
  rw [Response.readBody, if_neg inBody, if_neg (by simp [chunked]), written]
  dsimp only
  rw [if_neg (by omega), if_neg (by omega), Int.toNat_natCast, Int.sub_self]
  simp only [addRecvBodySize, announced, length, counted, true_and, Nat.cast_le]
  by_cases all : message.content.length ≤ (got ++ p).length
  · rw [if_pos all]
    refine ⟨by simp [Response.consumed], .inl ⟨all, ?_⟩⟩
    simp only [Response.consumed, ↓reduceIte, Response.complete, finishWith, done, gets.state]
    exact ⟨rfl, rfl, rfl⟩
  · rw [if_neg all]
    refine ⟨by simp [Response.consumed], .inr ?_⟩
    simp only [Response.consumed, gets.parserStage, reduceCtorEq, ↓reduceIte]
    exact ⟨gets.state, rfl, gets.header, gets.notChunked, rfl, rfl, gets.takesAll,
      Nat.not_le.mp all⟩

private theorem ReadsHeader.parse_whole {response : Response} (reads : message.ReadsHeader response)
    (rest : Bytes) :
    response.header.parse readFields (message.head.bytes ++ rest) =
      ((message.head.bytes.length : Int), message.header) := by
  have found := message.head.findBlankLine_whole rest
  have length : (message.head.bytes ++ rest).length = message.head.bytes.length + rest.length :=
    List.length_append
  have long : ¬ (message.head.bytes ++ rest).length < 4 := by
    have least : 13 ≤ message.head.bytes.length := by
      simp [ResponseHead.bytes, ResponseHead.statusText, ResponseHead.beforeReason]
    omega
  rw [reads.header, Header.parse, if_neg long]
  dsimp only
  rw [if_neg (by omega), message.isRead rest]
  dsimp only
  rw [← headerOf, ← found]
  rfl

/-- The parser looks for a body as the status has one. -/
private theorem bodyless_iff {statusLine : StatusLine}
    (isCode : statusLine.statusCode = message.head.statusCode) :
    (statusLine.statusCategory = .informational ∨ statusLine.statusCode = 204 ∨
      statusLine.statusCode = 304) ↔ ¬ message.head.HasBody := by
  have least : 100 ≤ statusLine.statusCode := by
    rw [isCode]
    exact message.head.inRange.1
  have informational : statusLine.statusCategory = .informational ↔ statusLine.statusCode < 200 := by
    unfold StatusLine.statusCategory
    repeat' split
    all_goals simp only [reduceCtorEq, true_iff, false_iff]
    all_goals omega
  rw [informational, ResponseHead.HasBody, ← isCode]
  omega

/-- The response has ended with its head. -/
structure EndsWithHead (response : Response) : Prop where
  state : response.state = .incomplete
  parserStage : response.parserStage = .finished
  body : response.body = []

/-- What follows the head: nothing, the body, or an error where two fields contradict each
other. -/
private theorem ReadsHeader.afterHeader {response : Response}
    (reads : message.ReadsHeader response) :
    let parsed := { response with header := message.header }
    (∃ next, parsed.afterHeader = .ok next ∧
      ((message.Framed ↔ message.content = []) ∧ EndsWithHead next ∨
        message.Framed ∧ message.Gets [] next)) ∨
    ¬ message.Framed ∧ ∃ next, parsed.afterHeader = .error next ∧ next.body = [] ∧
      next.state = .incomplete := by
  have announced : message.header.hasContentLength = true := message.hasContentLength
  have length : message.header.getContentLength = message.content.length := message.contentLength
  unfold Response.afterHeader
  dsimp only
  by_cases hasBody : message.head.HasBody
  · rw [if_neg (mt (bodyless_iff reads.statusCode).mp (not_not.mpr hasBody))]
    generalize isSaved : (if response.statusLine.statusCategory ≠ .successful then _ else _) = saved
    have saves : saved.state = .incomplete ∧ saved.parserStage = .body ∧
        saved.header = message.header ∧ saved.recvBodySize = 0 ∧ saved.body = [] ∧
        ∀ data, saved.onBodyWriteCb data = data.length := by
      rw [← isSaved]
      split
      · exact ⟨reads.state, rfl, rfl, reads.recvBodySize, reads.body, fun _ => rfl⟩
      · exact ⟨reads.state, rfl, rfl, reads.recvBodySize, reads.body, reads.takesAll⟩
    obtain ⟨state, parserStage, header, recvBodySize, body, takesAll⟩ := saves
    rw [header, if_pos announced, length]
    by_cases noEncoding : message.header.getTransferEncoding = []
    · have framed : message.Framed := ⟨fun _ => hasBody, fun _ => noEncoding⟩
      rw [if_neg (by simp [noEncoding])]
      by_cases nothing : message.content = []
      · rw [if_pos (by simp [nothing])]
        exact .inl ⟨_, rfl, .inl ⟨iff_of_true framed nothing, ⟨state, rfl, body⟩⟩⟩
      · have notChunked : message.header.chunked = false := by
          have isEncoding : message.header.chunked =
            decide (message.header.getTransferEncoding = bytesOf "chunked") := rfl
          rw [isEncoding, noEncoding]
          decide
        rw [if_neg (by simpa using nothing)]
        exact .inl ⟨saved, rfl, .inr ⟨framed, state, parserStage, header, notChunked, recvBodySize,
          body, takesAll, List.length_pos_of_ne_nil nothing⟩⟩
    · rw [if_pos (.inr noEncoding)]
      exact .inr ⟨fun framed => noEncoding (framed.noTransferEncoding hasBody), saved, rfl, body,
        state⟩
  · have framed_iff : message.Framed ↔ message.content = [] := by
      constructor
      · intro framed
        by_contra some
        exact hasBody (framed.hasBody some)
      · intro nothing
        exact ⟨fun some => absurd nothing some, fun has => absurd has hasBody⟩
    rw [if_pos ((bodyless_iff reads.statusCode).mpr hasBody)]
    exact .inl ⟨_, rfl, .inl ⟨framed_iff, ⟨reads.state, rfl, reads.body⟩⟩⟩

/-- What the response makes of its whole head and of what has arrived behind it. -/
inductive AfterHead (message : FixedLength readFields) (rest : Bytes) (read : Read) : Prop where
  | nothing (framed_iff : message.Framed ↔ message.content = [])
      (consumed : read.1 = message.head.bytes.length) (complete : IsComplete [] read.2)
  | body (framed : message.Framed) (some : message.content ≠ [])
      (consumed : read.1 = (message.head.bytes ++ rest).length)
      (took : message.content.length ≤ rest.length ∧ IsComplete rest read.2 ∨
        message.Gets rest read.2)
  | failed (unframed : ¬ message.Framed) (negative : read.1 = -1)
      (state : read.2.state = .incomplete)

private theorem ReadsHeader.readHeader_whole {response : Response}
    (reads : message.ReadsHeader response) (rest : Bytes) :
    message.AfterHead rest (response.readHeader readFields (message.head.bytes ++ rest)) := by
  have positive : 0 < message.head.bytes.length := by simp [ResponseHead.bytes]
  rw [readHeader, if_neg (by simp [reads.parserStage, ResponseHead.bytes]), reads.parse_whole]
  dsimp only
  rw [if_neg (by omega), if_neg (by omega), Int.toNat_natCast, List.drop_left]
  rcases reads.afterHeader with ⟨next, isNext, follows⟩ | ⟨unframed, next, isNext, body, state⟩
  · rw [isNext]
    rcases follows with ⟨framed_iff, ended⟩ | ⟨framed, gets⟩
    · have finished : next.readBody (message.head.bytes ++ rest).length rest =
          ((message.head.bytes.length : Int), next.complete) := by
        rw [Response.readBody, if_pos (.inl (by simp [ended.parserStage])), Response.consumed,
          if_pos ended.parserStage]
        simp
      dsimp only
      rw [finished]
      refine .nothing framed_iff rfl ?_
      simp only [Response.complete, finishWith, done, ended.state]
      exact ⟨rfl, ended.parserStage, ended.body⟩
    · have some : message.content ≠ [] := List.length_pos_iff.mp gets.notAll
      by_cases empty : rest = []
      · have waits : next.readBody (message.head.bytes ++ rest).length rest =
            (((message.head.bytes ++ rest).length : Int), next) := by
          rw [Response.readBody, if_pos (.inr (by simp [empty])), Response.consumed,
            if_neg (by simp [gets.parserStage]), empty]
          simp
        dsimp only
        rw [waits, empty]
        exact .body framed some rfl (.inr gets)
      · obtain ⟨consumed, took⟩ := gets.readBody (message.head.bytes ++ rest).length empty
        exact .body framed some consumed took
  · rw [isNext]
    exact .failed unframed rfl state

/-- With the whole head, the response takes it and as much of the body as there is. -/
theorem AwaitsHead.readData_whole {response : Response} (awaits : message.AwaitsHead response)
    (rest : Bytes) :
    message.AfterHead rest (response.readData readFields (message.head.bytes ++ rest)) := by
  have isHead : message.head.bytes ++ rest = message.head.statusText ++
      cr :: lf :: (linesText message.head.lines ++ cr :: lf :: rest) := by
    simp [ResponseHead.bytes]
  obtain ⟨reader, reads, same⟩ :=
    awaits.readHeader_of_statusLine (linesText message.head.lines ++ cr :: lf :: rest)
  rw [← isHead] at same
  rw [same]
  exact reads.readHeader_whole rest

/-!
## Sessions
-/

/-- How far a session has come with the response when `arrived` has arrived of it. -/
inductive Reached (message : FixedLength readFields) (arrived : Bytes) (session : Session) : Prop where
  | inHead (connected : session.connected = true)
      (short : arrived.length < message.head.bytes.length) (inBuffer : session.inBuffer = arrived)
      (awaits : message.AwaitsHead session.response)
  | inBody {got : Bytes} (connected : session.connected = true) (framed : message.Framed)
      (isGot : arrived = message.head.bytes ++ got)
      (inBuffer : session.inBuffer = []) (gets : message.Gets got session.response)
  | atEnd (connected : session.connected = true) (framed : message.Framed)
      (isAll : arrived = message.bytes ++ session.inBuffer)
      (complete : IsComplete message.content session.response)
  | withoutBody (connected : session.connected = true) (unframed : ¬ message.Framed)
      (some : message.content ≠ []) (complete : IsComplete [] session.response)
  | failed (disconnected : session.connected = false) (unframed : ¬ message.Framed)
      (state : session.response.state = .error)

/-- A piece of the stream that starts before the end of the message and goes on behind it. -/
def Crosses (message : FixedLength readFields) (arrived data : Bytes) : Prop :=
  arrived.length < message.bytes.length ∧ message.bytes.length < (arrived ++ data).length

/-- What a session can do with more data: it gets on, or it takes for the body all that has
arrived behind the head. -/
inductive Outcome (message : FixedLength readFields) (arrived data : Bytes) (next : Session) :
    Prop where
  | reached (reached : message.Reached (arrived ++ data) next)
      (inTime : message.Framed → message.content ≠ [] → ¬ message.Crosses arrived data)
  | took {got : Bytes} (framed : message.Framed) (some : message.content ≠ [])
      (crosses : message.Crosses arrived data)
      (isGot : arrived ++ data = message.head.bytes ++ got) (complete : IsComplete got next.response)

theorem length_bytes (message : FixedLength readFields) :
    message.bytes.length = message.head.bytes.length + message.content.length :=
  List.length_append

section Receiving

variable {arrived data trailing : Bytes} {session next : Session}

/-- All that is behind the head has been given to the callback, and it is the body or more. -/
private theorem outcome_of_took {got : Bytes} (isPrefix : arrived ++ data <+: message.bytes ++ trailing)
    (connected : next.connected = true) (framed : message.Framed) (some : message.content ≠ [])
    (short : arrived.length < message.bytes.length)
    (isGot : arrived ++ data = message.head.bytes ++ got) (inBuffer : next.inBuffer = [])
    (took : message.content.length ≤ got.length ∧ IsComplete got next.response ∨
      message.Gets got next.response) :
    message.Outcome arrived data next := by
  have total := message.length_bytes
  have length : (arrived ++ data).length = message.head.bytes.length + got.length := by
    rw [isGot, List.length_append]
  rcases took with ⟨enough, complete⟩ | gets
  · rcases Nat.lt_or_eq_of_le enough with more | same
    · exact .took framed some ⟨short, by omega⟩ isGot complete
    · have whole : arrived ++ data = message.bytes := by
        have whole := List.prefix_of_prefix_length_le isPrefix (List.prefix_append _ trailing)
          (by omega)
        exact whole.eq_of_length (by omega)
      have isContent : got = message.content := by
        rw [isGot, bytes] at whole
        exact List.append_cancel_left whole
      refine .reached (.atEnd connected framed ?_ ?_) ?_
      · rw [whole, inBuffer, List.append_nil]
      · rw [← isContent]
        exact complete
      · intro _ _ crosses
        have beyond := crosses.2
        omega
  · have notAll := gets.notAll
    refine .reached (.inBody connected framed isGot inBuffer gets) ?_
    intro _ _ crosses
    have beyond := crosses.2
    omega

private theorem outcome_inHead (isPrefix : arrived ++ data <+: message.bytes ++ trailing)
    (connected : session.connected = true)
    (notEmpty : (arrived ++ data).length ≠ 0) (short : arrived.length < message.head.bytes.length)
    (inBuffer : session.inBuffer = arrived) (awaits : message.AwaitsHead session.response) :
    message.Outcome arrived data (session.receive readFields data) := by
  have total := message.length_bytes
  have inStream : arrived ++ data <+: message.head.bytes ++ (message.content ++ trailing) := by
    rwa [← List.append_assoc]
  have filled : (session.inBuffer ++ data).length ≠ 0 := by rwa [inBuffer]
  by_cases stillShort : (arrived ++ data).length < message.head.bytes.length
  · have inHead := List.prefix_of_prefix_length_le inStream (List.prefix_append _ _)
      (Nat.le_of_lt stillShort)
    obtain ⟨nothing, stillAwaits⟩ := awaits.readData_part inHead stillShort
    rw [← inBuffer] at nothing stillAwaits
    rw [Session.receive_eq connected filled (Prod.eta _).symm (by rw [nothing])]
    refine .reached (.inHead connected stillShort ?_ stillAwaits) ?_
    · rw [nothing, inBuffer]
      rfl
    · intro _ _ crosses
      have beyond := crosses.2
      omega
  · obtain ⟨rest, isRest⟩ : message.head.bytes <+: arrived ++ data :=
      List.prefix_of_prefix_length_le (List.prefix_append _ _) inStream (Nat.not_lt.mp stillShort)
    have read := awaits.readData_whole rest
    rw [isRest, ← inBuffer] at read
    cases read with
    | nothing framed_iff consumed complete =>
        rw [Session.receive_eq connected filled (Prod.eta _).symm (by omega), consumed]
        by_cases noContent : message.content = []
        · refine .reached (.atEnd connected (framed_iff.mpr noContent) ?_ ?_) ?_
          · simp [bytes, noContent, inBuffer, ← isRest]
          · rw [noContent]
            exact complete
          · exact fun _ some => absurd noContent some
        · have unframed := mt framed_iff.mp noContent
          exact .reached (.withoutBody connected unframed noContent complete)
            fun framed => absurd framed unframed
    | body framed some consumed took =>
        rw [Session.receive_eq connected filled (Prod.eta _).symm (by omega)]
        refine outcome_of_took isPrefix connected framed some (by omega) isRest.symm ?_ took
        rw [consumed, isRest, inBuffer, Int.toNat_natCast, List.drop_length]
    | failed unframed negative state =>
        rw [Session.receive_failed connected filled (by omega)]
        refine .reached (.failed rfl unframed ?_) fun framed => absurd framed unframed
        simp [Session.onDisconnect, Response.finish, finishWith, done, state]

private theorem outcome_inBody {got : Bytes}
    (isPrefix : arrived ++ data <+: message.bytes ++ trailing) (connected : session.connected = true)
    (framed : message.Framed) (some : data ≠ []) (isGot : arrived = message.head.bytes ++ got)
    (inBuffer : session.inBuffer = []) (gets : message.Gets got session.response) :
    message.Outcome arrived data (session.receive readFields data) := by
  have isRead : session.response.readData readFields (session.inBuffer ++ data) =
      session.response.readBody data.length data := by
    have unchanged : { session.response with state := .incomplete } = session.response := by
      rw [← gets.state]
    rw [readData, unchanged, inBuffer, List.nil_append]
    dsimp only
    rw [if_pos (by simp [gets.parserStage]), readHeader, if_pos (.inl (by simp [gets.parserStage]))]
  obtain ⟨consumed, took⟩ := gets.readBody data.length some
  have filled : (session.inBuffer ++ data).length ≠ 0 := by simpa [inBuffer] using some
  have notAll := gets.notAll
  rw [← isRead] at consumed took
  rw [Session.receive_eq connected filled (Prod.eta _).symm (by omega)]
  refine outcome_of_took isPrefix connected framed (List.length_pos_iff.mp (by omega)) ?_ ?_ ?_ took
  · rw [isGot, List.length_append, message.length_bytes]
    omega
  · rw [isGot, List.append_assoc]
  · rw [consumed, inBuffer, Int.toNat_natCast, List.nil_append, List.drop_length]

private theorem not_crosses_nothing : ¬ message.Crosses arrived [] := by
  intro crosses
  have short := crosses.1
  have long := crosses.2
  rw [List.append_nil] at long
  omega

theorem Reached.outcome (isPrefix : arrived ++ data <+: message.bytes ++ trailing)
    (reached : message.Reached arrived session) :
    message.Outcome arrived data (session.receive readFields data) := by
  by_cases empty : (session.inBuffer ++ data).length = 0
  · obtain ⟨rfl, same⟩ : data = [] ∧ session.receive readFields data = session :=
      Session.receive_nothing empty
    rw [same]
    refine .reached ?_ fun _ _ => not_crosses_nothing
    rwa [List.append_nil]
  · cases reached with
    | inHead connected short inBuffer awaits =>
        rw [inBuffer] at empty
        exact outcome_inHead isPrefix connected empty short inBuffer awaits
    | inBody connected framed isGot inBuffer gets =>
        have some : data ≠ [] := by simpa [inBuffer] using empty
        exact outcome_inBody isPrefix connected framed some isGot inBuffer gets
    | atEnd connected framed isAll complete =>
        rw [Session.receive_eq connected empty
          (readData_finished readFields complete.parserStage _) (Int.le_refl 0)]
        refine .reached (.atEnd connected framed ?_ ⟨rfl, complete.parserStage, complete.body⟩) ?_
        · rw [isAll, List.append_assoc]
          rfl
        · intro _ _ crosses
          have short := crosses.1
          rw [isAll, List.length_append] at short
          omega
    | withoutBody connected unframed some complete =>
        rw [Session.receive_eq connected empty
          (readData_finished readFields complete.parserStage _) (Int.le_refl 0)]
        exact .reached (.withoutBody connected unframed some ⟨rfl, complete.parserStage, complete.body⟩)
          fun framed => absurd framed unframed
    | failed disconnected unframed state =>
        rw [Session.receive_disconnected disconnected]
        exact .reached (.failed disconnected unframed state) fun framed => absurd framed unframed

end Receiving

/-!
## Streams
-/

/-- After every piece, the callback has got the part of the content that has arrived, the
response is complete if this is all of it, and nothing behind the message has been taken. -/
structure DeliversContent (message : FixedLength readFields) (session : Session)
    (pieces : List Bytes) : Prop where
  body : ∀ first, first <+: pieces →
    (first.foldl (Session.receive readFields) session).response.body =
      (first.flatten.drop message.head.bytes.length).take message.content.length
  complete : ∀ first, first <+: pieces →
    ((first.foldl (Session.receive readFields) session).response.state = .complete ↔
      message.bytes.length ≤ first.flatten.length)
  trailing : ∀ first, first <+: pieces → message.bytes.length ≤ first.flatten.length →
    (first.foldl (Session.receive readFields) session).inBuffer =
      first.flatten.drop message.bytes.length

/-- No piece holds the end of the message and the start of what comes behind it. -/
def CutAtEnd (message : FixedLength readFields) (pieces : List Bytes) : Prop :=
  ∀ first piece, first ++ [piece] <+: pieces → ¬ message.Crosses first.flatten piece

/-- The session of a request that has been sent. -/
def started (onBodyWriteCb : Bytes → Int) : Session where
  response := { Response.create with onBodyWriteCb := onBodyWriteCb }
  inBuffer := []
  connected := true

section Stream

variable {onBodyWriteCb : Bytes → Int} (takesAll : ∀ data, onBodyWriteCb data = data.length)
  {trailing : Bytes} {pieces : List Bytes}
include takesAll

private theorem reached_started (message : FixedLength readFields) :
    message.Reached [] (started onBodyWriteCb) := by
  refine .inHead rfl ?_ rfl ⟨nofun, .inl rfl, rfl, rfl, rfl, takesAll⟩
  simp [ResponseHead.bytes]

theorem reached_of_cutAtEnd {first : List Bytes}
    (isPrefix : first.flatten <+: message.bytes ++ trailing)
    (cut : message.Framed → message.content ≠ [] → message.CutAtEnd first) :
    message.Reached first.flatten
      (first.foldl (Session.receive readFields) (started onBodyWriteCb)) := by
  -- Piece by piece, from the first one.
  induction first using List.reverseRecOn with
  | nil => exact reached_started takesAll message
  | append_singleton first piece ih =>
      rw [List.flatten_append, List.flatten_singleton] at isPrefix
      have reached := ih ((List.prefix_append _ _).trans isPrefix) fun framed some before next more =>
        cut framed some before next (more.trans (List.prefix_append _ _))
      rw [List.foldl_append, List.foldl_cons, List.foldl_nil, List.flatten_append,
        List.flatten_singleton]
      cases reached.outcome isPrefix with
      | reached next _ => exact next
      | took framed some crosses _ _ =>
          exact absurd crosses (cut framed some first piece (List.prefix_refl _))

private theorem delivers_of_cutAtEnd (isStream : pieces.flatten = message.bytes ++ trailing)
    (framed : message.Framed) (cut : message.content = [] ∨ message.CutAtEnd pieces) :
    message.DeliversContent (started onBodyWriteCb) pieces := by
  have total := message.length_bytes
  have reached {first : List Bytes} (isFirst : first <+: pieces) :
      message.Reached first.flatten
        (first.foldl (Session.receive readFields) (started onBodyWriteCb)) := by
    have inStream : first.flatten <+: message.bytes ++ trailing := by
      obtain ⟨rest, rfl⟩ := isFirst
      rw [← isStream, List.flatten_append]
      exact List.prefix_append _ _
    refine reached_of_cutAtEnd takesAll inStream ?_
    intro _ some before next more
    exact cut.resolve_left some before next (more.trans isFirst)
  constructor
  · intro first isFirst
    cases reached isFirst with
    | inHead _ short _ awaits =>
        rw [awaits.body, List.drop_eq_nil_of_le (Nat.le_of_lt short), List.take_nil]
    | inBody _ _ isGot _ gets =>
        rw [gets.body, isGot, List.drop_left, List.take_of_length_le (Nat.le_of_lt gets.notAll)]
    | atEnd _ _ isAll complete =>
        rw [complete.body, isAll, bytes, List.append_assoc, List.drop_left, List.take_left]
    | withoutBody _ unframed _ _ => exact absurd framed unframed
    | failed _ unframed _ => exact absurd framed unframed
  · intro first isFirst
    cases reached isFirst with
    | inHead _ short _ awaits => exact iff_of_false awaits.notComplete (by omega)
    | inBody _ _ isGot _ gets =>
        have notAll := gets.notAll
        refine iff_of_false (by simp [gets.state]) ?_
        rw [isGot, List.length_append]
        omega
    | atEnd _ _ isAll complete =>
        refine iff_of_true complete.state ?_
        rw [isAll, List.length_append]
        omega
    | withoutBody _ unframed _ _ => exact absurd framed unframed
    | failed _ unframed _ => exact absurd framed unframed
  · intro first isFirst long
    cases reached isFirst with
    | inHead _ short _ _ => omega
    | inBody _ _ isGot _ gets =>
        have notAll := gets.notAll
        rw [isGot, List.length_append] at long
        omega
    | atEnd _ _ isAll _ => rw [isAll, List.drop_left]
    | withoutBody _ unframed _ _ => exact absurd framed unframed
    | failed _ unframed _ => exact absurd framed unframed

private theorem framed_of_delivers (isStream : pieces.flatten = message.bytes ++ trailing)
    (delivers : message.DeliversContent (started onBodyWriteCb) pieces) : message.Framed := by
  by_contra unframed
  have total := message.length_bytes
  have long : message.bytes.length ≤ pieces.flatten.length := by
    rw [isStream, List.length_append]
    omega
  have inStream : pieces.flatten <+: message.bytes ++ trailing := by
    exact isStream ▸ List.prefix_refl _
  have reached := reached_of_cutAtEnd takesAll inStream fun framed =>
    absurd framed unframed
  have complete := (delivers.complete pieces (List.prefix_refl _)).mpr long
  have body := delivers.body pieces (List.prefix_refl _)
  cases reached with
  | inHead _ short _ _ => omega
  | inBody _ framed _ _ _ => exact unframed framed
  | atEnd _ framed _ _ => exact unframed framed
  | withoutBody _ _ some ended =>
      rw [ended.body, isStream, bytes, List.append_assoc, List.drop_left, List.take_left] at body
      exact some body.symm
  | failed _ _ state => simp [state] at complete

private theorem cutAtEnd_of_delivers (isStream : pieces.flatten = message.bytes ++ trailing)
    (some : message.content ≠ [])
    (delivers : message.DeliversContent (started onBodyWriteCb) pieces) :
    message.CutAtEnd pieces := by
  intro first piece isFirst crosses
  have inStream : first.flatten ++ piece <+: message.bytes ++ trailing := by
    obtain ⟨rest, rfl⟩ := isFirst
    rw [← isStream, List.flatten_append, List.flatten_append, List.flatten_singleton]
    exact List.prefix_append _ _
  -- Up to this piece, all that has arrived is part of the message.
  have cut : message.CutAtEnd first := by
    intro before next more earlier
    obtain ⟨rest, rfl⟩ := more
    have short := crosses.1
    have long := earlier.2
    simp only [List.flatten_append, List.flatten_singleton, List.length_append] at short long
    omega
  have reached := reached_of_cutAtEnd takesAll ((List.prefix_append _ _).trans inStream)
    fun _ _ => cut
  have body := delivers.body _ isFirst
  rw [List.foldl_append, List.foldl_cons, List.foldl_nil, List.flatten_append,
    List.flatten_singleton] at body
  cases reached.outcome inStream with
  | reached _ inTime => exact inTime (framed_of_delivers takesAll isStream delivers) some crosses
  | took _ _ _ isGot complete =>
      have long := crosses.2
      rw [complete.body, isGot, List.drop_left] at body
      have short := congrArg List.length body
      rw [isGot, List.length_append, message.length_bytes] at long
      rw [List.length_take] at short
      omega

/-- The response gets its content, and only this, exactly if the length is that of the body
and the stream is cut at its end. -/
theorem deliversContent_iff (isStream : pieces.flatten = message.bytes ++ trailing) :
    message.DeliversContent (started onBodyWriteCb) pieces ↔
      message.Framed ∧ (message.content = [] ∨ message.CutAtEnd pieces) := by
  constructor
  · intro delivers
    refine ⟨framed_of_delivers takesAll isStream delivers, ?_⟩
    by_cases nothing : message.content = []
    · exact .inl nothing
    · exact .inr (cutAtEnd_of_delivers takesAll isStream nothing delivers)
  · rintro ⟨framed, cut⟩
    exact delivers_of_cutAtEnd takesAll isStream framed cut

end Stream

/-- A response with the one byte that its header announces. -/
def oneByte : FixedLength fun _ => .fields [(Header.contentLength, bytesOf "1")] where
  head :=
    { major := 0x31, minor := 0x31, hundreds := 0x32, tens := 0x30, ones := 0x30
      reason := bytesOf "OK"
      lines := [bytesOf "Content-Length: 1"]
      areDigits := by decide +kernel
      inRange := by decide
      reasonInLine := okReason_inLine
      reasonStart := by decide +kernel
      areLines := by decide }
  fields := [(Header.contentLength, bytesOf "1")]
  content := bytesOf "A"
  isRead := fun _ => rfl
  hasContentLength := by decide
  contentLength := by decide

theorem deliversContent_oneByte :
    oneByte.Framed ∧ oneByte.DeliversContent (started memoryCb) [oneByte.bytes, bytesOf "H"] := by
  have framed : oneByte.Framed := ⟨fun _ => by decide, fun _ => by decide⟩
  have isStream : [oneByte.bytes, bytesOf "H"].flatten = oneByte.bytes ++ bytesOf "H" := rfl
  refine ⟨framed, (deliversContent_iff (fun _ => rfl) isStream).mpr ⟨framed, .inr ?_⟩⟩
  intro first piece isFirst crosses
  have notBefore := crosses.1
  have beyond := crosses.2
  match first with
  | [] =>
      obtain ⟨rfl, -⟩ := List.cons_prefix_cons.mp isFirst
      exact absurd beyond (by decide)
  | first :: more =>
      obtain ⟨rfl, -⟩ := List.cons_prefix_cons.mp isFirst
      rw [List.flatten_cons, List.length_append] at notBefore
      omega

/-- With the start of the next response in the same piece, this is taken for the body. -/
theorem not_deliversContent_oneByte :
    ¬ oneByte.DeliversContent (started memoryCb) [oneByte.bytes ++ bytesOf "H"] := by
  intro delivers
  have body := delivers.body _ (List.prefix_refl _)
  revert body
  decide

end FixedLength

end FreeOnline.Net.Http
