import FreeOnline.Library.Run
import FreeOnline.Net.ParseHeader

/-!
# Downloads of files

`http::server::Session` reads a file into the output buffer of its socket, which the poll
loop writes out as far as the kernel takes it. What the kernel answers to the reads of the
file and to the writes to the socket is part of the state, in the order of the calls.
-/

set_option autoImplicit false

namespace FreeOnline.Net.Http.Server

open FreeOnline.Library
open FreeOnline.Net.StreamSocket (intOf)

inductive ReadAnswer where
  | upTo (len : Nat)
  | interrupted
  | failed
deriving DecidableEq

/-- An answer to `write`: `broken` is EPIPE or ECONNRESET, other errors are as `wouldBlock`. -/
inductive WriteAnswer where
  | accepts (len : Nat)
  | wouldBlock
  | interrupted
  | broken
deriving DecidableEq

/-- The session with its socket, and what the kernel has of them: the part of the file that
is not read yet, what it has taken from the socket, and whether the connection is open. -/
structure Session where
  fd : Bool
  size : Int
  mimeType : Bytes
  connected : Bool
  hasSocket : Bool
  sendBufferSize : Nat
  outBuffer : Bytes
  shutdownSignalled : Bool
  closed : Bool
  opened : Bool
  unread : Bytes
  accepted : Bytes
  reads : List ReadAnswer
  writes : List WriteAnswer
  finished : Bool
deriving DecidableEq

namespace Session

variable (session : Session)

/-!
## The socket
-/

/-- The number of bytes that one call of `write` is given. -/
def writeSize : Nat := min session.outBuffer.length session.sendBufferSize

/-- Whether writing ended with a broken connection, which one that is closed is. -/
def writeWith : List WriteAnswer → Session → Session × Bool
  | [], session => ({ session with writes := [] }, 0 < session.writeSize && !session.opened)
  | answer :: answers, session =>
      if session.writeSize = 0 then ({ session with writes := answer :: answers }, false)
      else if session.opened = false then ({ session with writes := answer :: answers }, true)
      else
        match answer with
        | .interrupted => writeWith answers session
        | .wouldBlock => ({ session with writes := answers }, false)
        | .broken => ({ session with writes := answers }, true)
        | .accepts len =>
            let len := min len session.writeSize
            if len = 0 then ({ session with writes := answers }, false)
            else
              let session :=
                { session with
                  accepted := session.accepted ++ session.outBuffer.take len
                  outBuffer := session.outBuffer.drop len }
              if session.outBuffer = [] then ({ session with writes := answers }, false)
              else writeWith answers session

def writeOutgoingData : Session × Bool := writeWith session.writes session

def flush : Session := if session.outBuffer = [] then session else session.writeOutgoingData.1

def send (data : Bytes) : Session :=
  if data = [] then session
  else { session with outBuffer := session.outBuffer ++ data }.flush

def closeConnection : Session := { session with opened := false }

def shutdown : Session := { session with shutdownSignalled := true }

def getSendBufferCapacity : Nat := session.sendBufferSize - session.outBuffer.length

/-!
## The handler
-/

def decimal (n : Int) : Bytes := bytesOf (toString n)

def field (key : String) (value : Bytes) : Bytes := bytesOf key ++ bytesOf ": " ++ value ++ [cr, lf]

/-- The head of a response with the time and the server of the moment. -/
def responseHead (date server : Bytes) (status : String) (fields : List (String × Bytes)) : Bytes :=
  bytesOf "HTTP/1.1 " ++ bytesOf status ++ [cr, lf] ++ field "Date" date ++ field "Server" server ++
    (fields.flatMap fun pair => field pair.1 pair.2) ++ [cr, lf]

def fileFields (size : Int) (mimeType : Bytes) : List (String × Bytes) :=
  [("Content-Length", decimal size), ("Content-Type", mimeType), ("accept-ranges", bytesOf "bytes"),
    ("Content-Range", bytesOf "bytes 0-" ++ decimal (size - 1) ++ bytesOf "/" ++ decimal size)]

/-- `_size` is an `int`. -/
def asyncUpload (file : Option Bytes) (mimeType : Bytes) : Session :=
  match file with
  | none => { session with fd := false }
  | some file =>
      { session with fd := true, size := intOf file.length, mimeType := mimeType, unread := file }

def onConnect (date server : Bytes) : Session :=
  let session := { session with connected := false, hasSocket := true }
  if session.fd then
    let head := responseHead date server "200 OK" (fileFields session.size session.mimeType)
    { session with connected := true, outBuffer := session.outBuffer ++ head }.flush
  else
    let head := responseHead date server "400 Bad Request"
      [("Content-Length", bytesOf "0"), ("Connection", bytesOf "close")]
    { session with outBuffer := session.outBuffer ++ head }.flush.shutdown

def onDisconnect : Session :=
  let session :=
    if session.hasSocket then { session.shutdown.closeConnection with hasSocket := false }
    else session
  { session with connected := false }

inductive FileRead where
  | failed
  | data (buffer : Bytes)

/-- `read` on the file, again when it is interrupted. A regular file gives at least one
byte unless it is at its end. -/
def readWith (size : Nat) : List ReadAnswer → Session → FileRead × Session
  | [], session =>
      (.data (session.unread.take size), { session with reads := [], unread := session.unread.drop size })
  | .interrupted :: answers, session => readWith size answers session
  | .failed :: answers, session => (.failed, { session with reads := answers })
  | .upTo len :: answers, session =>
      let size := min (max len 1) size
      (.data (session.unread.take size),
        { session with reads := answers, unread := session.unread.drop size })

def bufferSize : Nat := 64 * 1024

/-- One round of the loop of `performWrites`, with the capacity that is left. -/
def writeStep : Nat × Session → Option (Nat × Session)
  | (capacity, session) =>
      if session.fd = false ∨ capacity = 0 then none
      else
        match readWith (min bufferSize capacity) session.reads session with
        | (.failed, session) => some (capacity, { session with fd := false }.onDisconnect)
        | (.data [], session) =>
            some (capacity, { session with fd := false, finished := true }.onDisconnect)
        | (.data (ch :: buffer), session) =>
            some (capacity - (ch :: buffer).length, session.send (ch :: buffer))

/-- Every round but the last takes something off the capacity. -/
def performWrites (capacity : Nat) : Session :=
  if session.hasSocket then (loop writeStep (capacity + 2) (capacity, session)).2 else session

/-!
## The poll loop
-/

/-- What a poll has found: that the socket can be written to, and that the peer has closed
the connection. -/
structure Poll where
  pollOut : Bool
  peerClosed : Bool
deriving DecidableEq

/-- The writing part of `handlePoll`: whether the connection is closed, and whether there
is another round. -/
structure Round where
  session : Session
  closed : Bool
  again : Bool

def writeRound (pollOut : Bool) (round : Round) : Option Round :=
  if round.again = false then none
  else
    let session := round.session
    let session :=
      if pollOut ∧ 0 < session.getSendBufferCapacity then
        session.performWrites session.getSendBufferCapacity
      else session
    if session.shutdownSignalled ∧ session.outBuffer = [] then
      some ⟨session.closeConnection, true, false⟩
    else
      let oldSize := session.outBuffer.length
      let (session, broken) :=
        if pollOut ∧ session.outBuffer ≠ [] then session.writeOutgoingData else (session, false)
      if broken then some ⟨session, true, false⟩
      else some ⟨session, false, oldSize ≠ session.outBuffer.length⟩

/-- A round that is followed by another one has used an answer of the kernel. -/
def pollRounds : Nat := session.writes.length + 2

def handlePoll (poll : Poll) : Session :=
  if session.closed then session
  else
    let round := loop (writeRound poll.pollOut) session.pollRounds ⟨session, false, true⟩
    if poll.peerClosed ∨ round.closed then { round.session with closed := true }.onDisconnect
    else round.session

/-!
## What is kept
-/

/-- Bytes have gone from the buffer to the kernel, as long as the connection is open. -/
def Writes (session next : Session) : Prop :=
  ∃ len left, (session.opened = false → len = 0) ∧
    next =
      { session with
        accepted := session.accepted ++ session.outBuffer.take len
        outBuffer := session.outBuffer.drop len
        writes := left }

theorem Writes.nothing (session : Session) (left : List WriteAnswer) :
    Writes session { session with writes := left } :=
  ⟨0, left, fun _ => rfl, by simp⟩

theorem writes_writeWith (answers : List WriteAnswer) (session : Session) :
    Writes session (writeWith answers session).1 := by
  induction answers generalizing session with
  | nil => exact Writes.nothing session []
  | cons answer answers ih =>
      unfold writeWith
      split
      · exact Writes.nothing session _
      · split
        · exact Writes.nothing session _
        · next isOpen =>
            cases answer with
            | interrupted => exact ih session
            | wouldBlock => exact Writes.nothing session _
            | broken => exact Writes.nothing session _
            | accepts len =>
                dsimp only
                split
                · exact Writes.nothing session _
                · split
                  · exact ⟨_, _, fun closed => absurd closed isOpen, rfl⟩
                  · obtain ⟨more, left, -, isNext⟩ := ih
                      { session with
                        accepted := session.accepted ++
                          session.outBuffer.take (min len session.writeSize)
                        outBuffer := session.outBuffer.drop (min len session.writeSize) }
                    refine ⟨min len session.writeSize + more, left,
                      fun closed => absurd closed isOpen, ?_⟩
                    rw [isNext]
                    simp [List.take_add, List.drop_drop]

theorem writes_flush (session : Session) : Writes session session.flush := by
  unfold flush
  split
  · exact Writes.nothing session session.writes
  · exact writes_writeWith session.writes session

/-- As long as it has its socket, the session has all of the response: in the kernel, in the
buffer or in the file. -/
structure Streams (size : Int) (whole : Bytes) (session : Session) : Prop where
  announced : session.size = size
  kept : session.hasSocket = true →
    session.finished = false ∧ session.accepted ++ (session.outBuffer ++ session.unread) = whole
  ended : session.hasSocket = false → session.opened = false
  complete : session.finished = true → session.accepted = whole

section Streaming

variable {size : Int} {whole : Bytes} {session next : Session}

theorem Streams.writes (streams : Streams size whole session) (writes : Writes session next) :
    Streams size whole next := by
  obtain ⟨len, left, closed, rfl⟩ := writes
  constructor
  · exact streams.announced
  · intro hasSocket
    obtain ⟨notFinished, isWhole⟩ := streams.kept hasSocket
    refine ⟨notFinished, ?_⟩
    dsimp only
    rw [← isWhole, List.append_assoc, ← List.append_assoc (session.outBuffer.take len),
      List.take_append_drop]
  · exact streams.ended
  · intro finished
    have noSocket : session.hasSocket = false := by
      cases hasSocket : session.hasSocket with
      | false => rfl
      | true =>
          obtain ⟨notFinished, -⟩ := streams.kept hasSocket
          exact absurd finished (by simp [notFinished])
    dsimp only
    rw [closed (streams.ended noSocket), List.take_zero, List.append_nil]
    exact streams.complete finished

theorem Streams.onDisconnect (streams : Streams size whole session) :
    Streams size whole session.onDisconnect := by
  unfold Session.onDisconnect
  cases hasSocket : session.hasSocket with
  | true => exact ⟨streams.announced, nofun, fun _ => rfl, streams.complete⟩
  | false =>
      refine ⟨streams.announced, ?_, fun _ => streams.ended hasSocket, streams.complete⟩
      intro has
      simp [hasSocket] at has

theorem fd_onDisconnect (session : Session) : session.onDisconnect.fd = session.fd := by
  unfold Session.onDisconnect
  cases session.hasSocket with
  | true => rfl
  | false => rfl

theorem Streams.closeConnection (streams : Streams size whole session) :
    Streams size whole session.closeConnection :=
  ⟨streams.announced, streams.kept, fun _ => rfl, streams.complete⟩

/-!
## Reading
-/

/-- A read fails, or gives the next part of the file, which is empty only at its end. -/
theorem readWith_spec {size : Nat} (positive : 0 < size) (answers : List ReadAnswer)
    (session : Session) :
    ∃ left, (readWith size answers session = (.failed, { session with reads := left }) ∨
      ∃ buffer unread, readWith size answers session =
          (.data buffer, { session with reads := left, unread := unread }) ∧
        session.unread = buffer ++ unread ∧ (buffer = [] → session.unread = [])) := by
  induction answers with
  | nil =>
      refine ⟨[], .inr ⟨_, _, rfl, (List.take_append_drop _ _).symm, ?_⟩⟩
      intro empty
      rcases List.take_eq_nil_iff.mp empty with zero | empty
      · omega
      · exact empty
  | cons answer answers ih =>
      cases answer with
      | interrupted => exact ih
      | failed => exact ⟨answers, .inl rfl⟩
      | upTo len =>
          refine ⟨answers, .inr ⟨_, _, rfl, (List.take_append_drop _ _).symm, ?_⟩⟩
          intro empty
          rcases List.take_eq_nil_iff.mp empty with zero | empty
          · omega
          · exact empty

/-- The end of the file with nothing left in the buffer. -/
theorem Streams.finish (streams : Streams size whole session) (hasSocket : session.hasSocket = true)
    (noBuffer : session.outBuffer = []) (noFile : session.unread = [])
    (sameSocket : next.hasSocket = session.hasSocket) (sameAccepted : next.accepted = session.accepted)
    (sameSize : next.size = session.size) :
    Streams size whole next.onDisconnect := by
  obtain ⟨-, isWhole⟩ := streams.kept hasSocket
  rw [noBuffer, noFile, List.append_nil, List.append_nil] at isWhole
  unfold Session.onDisconnect
  rw [if_pos (sameSocket.trans hasSocket)]
  exact ⟨sameSize.trans streams.announced, nofun, fun _ => rfl, fun _ => sameAccepted.trans isWhole⟩

theorem hasSocket_send (session : Session) (data : Bytes) :
    (session.send data).hasSocket = session.hasSocket := by
  unfold Session.send
  split
  · rfl
  · obtain ⟨len, left, -, isNext⟩ :=
      writes_flush { session with outBuffer := session.outBuffer ++ data }
    rw [isNext]

theorem Streams.send (streams : Streams size whole session) {buffer unread : Bytes}
    (isFront : session.unread = buffer ++ unread) (hasSocket : session.hasSocket = true)
    (filled : buffer ≠ []) (left : List ReadAnswer) :
    Streams size whole ({ session with reads := left, unread := unread }.send buffer) := by
  unfold Session.send
  rw [if_neg filled]
  refine Streams.writes ?_ (writes_flush _)
  obtain ⟨notFinished, isWhole⟩ := streams.kept hasSocket
  refine ⟨streams.announced, fun _ => ⟨notFinished, ?_⟩, streams.ended, streams.complete⟩
  dsimp only
  rw [← isWhole, isFront, List.append_assoc]

/-- Nothing is in the buffer when the end of the file is found. -/
def DrainedAtEnd (state : Nat × Session) : Prop :=
  state.2.unread = [] → state.2.outBuffer = []

instance (state : Nat × Session) : Decidable (DrainedAtEnd state) :=
  inferInstanceAs (Decidable (_ → _))

/-- In the loop, a session that has its file also has its socket. -/
structure Reads (size : Int) (whole : Bytes) (state : Nat × Session) : Prop where
  streams : Streams size whole state.2
  hasSocket : state.2.fd = true → state.2.hasSocket = true

theorem Reads.step {state next : Nat × Session} (reads : Reads size whole state)
    (drained : DrainedAtEnd state) (step : writeStep state = some next) : Reads size whole next := by
  obtain ⟨capacity, session⟩ := state
  obtain ⟨streams, hasSocket⟩ := reads
  dsimp only at streams hasSocket
  unfold writeStep at step
  dsimp only at step
  split at step
  · cases step
  · next going =>
      have isOpen : session.fd = true := by
        simpa using (not_or.mp going).1
      have positive : 0 < min bufferSize capacity := by
        have some := (not_or.mp going).2
        have large : 0 < bufferSize := by decide
        omega
      obtain ⟨left, failed | ⟨buffer, unread, isRead, isFront, atEnd⟩⟩ :=
        readWith_spec positive session.reads session
      · rw [failed] at step
        cases step
        have ended : Streams size whole { session with reads := left, fd := false } :=
          ⟨streams.announced, streams.kept, streams.ended, streams.complete⟩
        refine ⟨ended.onDisconnect, ?_⟩
        intro stillOpen
        rw [fd_onDisconnect] at stillOpen
        cases stillOpen
      · rw [isRead] at step
        cases buffer with
        | nil =>
            cases step
            have empty := atEnd rfl
            refine ⟨streams.finish (hasSocket isOpen) (drained empty) empty rfl rfl rfl, ?_⟩
            intro stillOpen
            rw [fd_onDisconnect] at stillOpen
            cases stillOpen
        | cons ch buffer =>
            cases step
            refine ⟨streams.send isFront (hasSocket isOpen) nofun left, ?_⟩
            intro _
            dsimp only
            rw [hasSocket_send]
            exact hasSocket isOpen

/-- The states in which `performWrites` reads the file. -/
def readsOf (session : Session) (capacity : Nat) : List (Nat × Session) :=
  if session.hasSocket then visited writeStep (capacity + 2) (capacity, session) else []

theorem Streams.performWrites (streams : Streams size whole session) {capacity : Nat}
    (drained : ∀ state ∈ session.readsOf capacity, DrainedAtEnd state) :
    Streams size whole (session.performWrites capacity) := by
  unfold Session.performWrites
  unfold readsOf at drained
  split
  · next hasSocket =>
      rw [if_pos hasSocket] at drained
      exact (loop_invariant (Reads size whole) (fun _ _ reads => reads.step)
        ⟨streams, fun _ => hasSocket⟩ drained).streams
  · exact streams

/-!
## Polls
-/

/-- In a round, nothing is in the buffer when the end of the file is found. -/
def RoundDrained (pollOut : Bool) (round : Round) : Prop :=
  pollOut = true → ∀ state ∈ round.session.readsOf round.session.getSendBufferCapacity,
    DrainedAtEnd state

instance (pollOut : Bool) (round : Round) : Decidable (RoundDrained pollOut round) :=
  inferInstanceAs (Decidable (_ → _))

theorem Streams.writeRound {pollOut : Bool} {round next : Round}
    (streams : Streams size whole round.session) (drained : RoundDrained pollOut round)
    (step : writeRound pollOut round = some next) : Streams size whole next.session := by
  unfold Session.writeRound at step
  dsimp only at step
  split at step
  · cases step
  · generalize isWritten : (if pollOut = true ∧
        0 < round.session.getSendBufferCapacity then
        round.session.performWrites round.session.getSendBufferCapacity else round.session) =
      session at step
    have written : Streams size whole session := by
      rw [← isWritten]
      split
      · next writable => exact streams.performWrites (drained writable.1)
      · exact streams
    split at step
    · cases step
      exact written.closeConnection
    · have flushed : Streams size whole
          (if pollOut = true ∧ session.outBuffer ≠ [] then session.writeOutgoingData
            else (session, false)).1 := by
        split
        · exact written.writes (writes_writeWith session.writes session)
        · exact written
      generalize (if pollOut = true ∧ session.outBuffer ≠ [] then session.writeOutgoingData
        else (session, false)) = writing at step flushed
      split at step
      · cases step
        exact flushed
      · cases step
        exact flushed

/-- In a poll, nothing is in the buffer when the end of the file is found. -/
def PollDrained (session : Session) (poll : Poll) : Prop :=
  session.closed = false →
    ∀ round ∈ visited (Session.writeRound poll.pollOut) session.pollRounds ⟨session, false, true⟩,
      RoundDrained poll.pollOut round

instance (session : Session) (poll : Poll) : Decidable (PollDrained session poll) :=
  inferInstanceAs (Decidable (_ → _))

theorem Streams.handlePoll (streams : Streams size whole session) {poll : Poll}
    (drained : PollDrained session poll) : Streams size whole (session.handlePoll poll) := by
  unfold Session.handlePoll
  cases isClosed : session.closed with
  | true => exact streams
  | false =>
      have rounds : Streams size whole (loop (Session.writeRound poll.pollOut) session.pollRounds
          ⟨session, false, true⟩).session :=
        loop_invariant (fun round => Streams size whole round.session)
          (fun _ _ => Streams.writeRound) streams (drained isClosed)
      dsimp only
      rw [if_neg (by decide)]
      split
      · refine Streams.onDisconnect ?_
        exact ⟨rounds.announced, rounds.kept, rounds.ended, rounds.complete⟩
      · exact rounds

end Streaming

/-!
## Downloads
-/

/-- The head of the response to a request for a file of this size. -/
def fileHead (date server mimeType : Bytes) (size : Int) : Bytes :=
  responseHead date server "200 OK" (fileFields size mimeType)

/-- The socket of a request, with what the kernel is going to answer. -/
structure Connection where
  sendBufferSize : Nat
  reads : List ReadAnswer
  writes : List WriteAnswer

def create (connection : Connection) : Session where
  fd := false
  size := 0
  mimeType := []
  connected := false
  hasSocket := false
  sendBufferSize := connection.sendBufferSize
  outBuffer := []
  shutdownSignalled := false
  closed := false
  opened := true
  unread := []
  accepted := []
  reads := connection.reads
  writes := connection.writes
  finished := false

/-- What `handleMediaRequest` starts. -/
def download (connection : Connection) (file mimeType date server : Bytes) : Session :=
  ((create connection).asyncUpload (some file) mimeType).onConnect date server

/-- The length that is announced is the file's, and when the session has finished, the
kernel has got the head and the whole file. -/
structure Downloads (file mimeType date server : Bytes) (session : Session) : Prop where
  announced : session.size = file.length
  complete : session.finished = true →
    session.accepted = fileHead date server mimeType file.length ++ file

theorem streams_download (connection : Connection) (file mimeType date server : Bytes) :
    Streams (intOf file.length) (fileHead date server mimeType (intOf file.length) ++ file)
      (download connection file mimeType date server) := by
  unfold download asyncUpload onConnect
  dsimp only
  rw [if_pos rfl]
  refine Streams.writes ?_ (writes_flush _)
  refine ⟨rfl, fun _ => ⟨rfl, ?_⟩, nofun, nofun⟩
  simp [create, fileHead]

theorem downloads_of_drained {connection : Connection} {file mimeType date server : Bytes}
    {polls : List Poll} (small : file.length < 2 ^ 31)
    (drained : Permitted handlePoll PollDrained (download connection file mimeType date server) polls) :
    Downloads file mimeType date server
      (run handlePoll (download connection file mimeType date server) polls) := by
  have isSize : intOf file.length = file.length := by
    unfold intOf
    split
    · omega
    · omega
  have start := streams_download connection file mimeType date server
  have streams := run_invariant
    (Streams (intOf file.length) (fileHead date server mimeType (intOf file.length) ++ file))
    (fun _ _ streams drained => streams.handlePoll drained) start drained
  rw [isSize] at streams
  exact ⟨streams.announced, streams.complete⟩

/-- A download of one byte, the head of which the kernel takes at once. -/
def letterDownload (writes : List WriteAnswer) : Session :=
  download ⟨1024, [], .accepts 1024 :: writes⟩ (bytesOf "A") (bytesOf "video/mp4") [] []

theorem downloads_letter :
    Downloads (bytesOf "A") (bytesOf "video/mp4") [] []
      (run handlePoll (letterDownload [.accepts 1]) [⟨true, false⟩]) ∧
    (run handlePoll (letterDownload [.accepts 1]) [⟨true, false⟩]).finished = true :=
  ⟨downloads_of_drained (by decide +kernel) (by decide +kernel), by decide +kernel⟩

/-- The kernel does not take the byte before the end of the file is found. -/
theorem not_downloads_letter :
    ¬ Downloads (bytesOf "A") (bytesOf "video/mp4") [] []
      (run handlePoll (letterDownload [.wouldBlock]) [⟨true, false⟩]) := by
  intro downloads
  have isWhole := downloads.complete (by decide +kernel)
  revert isWhole
  decide +kernel

end Session

end FreeOnline.Net.Http.Server
