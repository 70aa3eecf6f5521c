import FreeOnline.Library.Run
import FreeOnline.Net.FakeSocket
import Mathlib.Data.List.Infix

/-!
# Streams over fake sockets

What is read at one end of a connected pair is what was written at the other. An end that is
shut down while the other one has nothing to read leaves it waiting.
-/

set_option autoImplicit false

namespace FreeOnline.Net.FakeSocket

open FreeOnline.Library

inductive Call where
  | write (fd : Int) (data : Record)
  | read (fd : Int) (nbytes : Nat)
  | shutdown (fd : Int)
  | close (fd : Int)
deriving DecidableEq

def Call.fd : Call → Int
  | .write fd _ => fd
  | .read fd _ => fd
  | .shutdown fd => fd
  | .close fd => fd

/-- The sockets, with the records that went in and out and where. -/
structure Traffic where
  fds : List FakeSocketPair
  written : List (Int × Record)
  received : List (Int × Record)
deriving DecidableEq

/-- The record that a write adds to the buffer of the other end. -/
def given (data : Record) (answer : Except Failure Nat) : List Record :=
  if answer.isOk then [data] else []

/-- The record that a read takes out. -/
def taken : Except Failure (Option Record) → List Record
  | .ok (some record) => [record]
  | _ => []

def step (traffic : Traffic) : Call → Traffic
  | .write fd data =>
      let (answer, fds) := fakeSocketWrite traffic.fds fd data
      { traffic with fds, written := traffic.written ++ (given data answer).map (fd, ·) }
  | .read fd nbytes =>
      let (answer, fds) := fakeSocketRead traffic.fds fd nbytes
      { traffic with fds, received := traffic.received ++ (taken answer).map (fd, ·) }
  | .shutdown fd => { traffic with fds := (fakeSocketShutdown traffic.fds fd).2 }
  | .close fd => { traffic with fds := (fakeSocketClose traffic.fds fd).2 }

/-- The records of one descriptor. -/
def recordsAt (log : List (Int × Record)) (fd : Int) : List Record :=
  log.filterMap fun entry => if entry.1 = fd then some entry.2 else none

theorem recordsAt_same (log : List (Int × Record)) (fd : Int) (records : List Record) :
    recordsAt (log ++ records.map (fd, ·)) fd = recordsAt log fd ++ records := by
  simp [recordsAt, List.filterMap_map]

theorem recordsAt_other {fd other : Int} (different : other ≠ fd) (log : List (Int × Record))
    (records : List Record) :
    recordsAt (log ++ records.map (other, ·)) fd = recordsAt log fd := by
  simp [recordsAt, List.filterMap_map, different]

/-!
## One direction
-/

/-- One end of a pair as the reader of what is written at the other. -/
structure Direction where
  reader : FakeSocketEnd
  writerFd : Int
  writerShutdown : Bool
  written : List Record
  received : List Record

def Direction.Open (direction : Direction) : Prop :=
  direction.reader.fd ≠ -1 ∧ direction.reader.shutdown = false

/-- The writer is closed or shut down. -/
def Direction.Down (direction : Direction) : Prop :=
  direction.writerFd = -1 ∨ direction.writerShutdown = true

def FakeSocketPair.direction (pair : FakeSocketPair) (K : Bool) (written received : List Record) :
    Direction :=
  ⟨pair.side K, (pair.side (!K)).fd, (pair.side (!K)).shutdown, written, received⟩

def Traffic.direction (traffic : Traffic) (i : Nat) (K : Bool) (pair : FakeSocketPair) :
    Direction :=
  pair.direction K (recordsAt traffic.written (descriptor i (!K)))
    (recordsAt traffic.received (descriptor i K))

/-- Whether an end is readable behind a read that leaves these records. -/
def Direction.readableAfter (direction : Direction) (records : List Record) : Bool :=
  if direction.writerFd = -1 ∨ direction.writerShutdown then true
  else if records = [] then false
  else direction.reader.readable

theorem Direction.readableAfter_down {direction : Direction} (isDown : direction.Down)
    (records : List Record) : direction.readableAfter records = true :=
  if_pos isDown

theorem Direction.readableAfter_nil {direction : Direction} (up : ¬ direction.Down) :
    direction.readableAfter [] = false :=
  (if_neg up).trans (if_pos rfl)

theorem Direction.readableAfter_more {direction : Direction} {records : List Record}
    (isReadable : direction.reader.readable = true) (notEmpty : records ≠ []) :
    direction.readableAfter records = true := by
  rw [readableAfter, if_neg notEmpty, isReadable, ite_self]

/-- What a call does to one direction. `shuts` is set where it is the shutdown of the writer. -/
inductive Moves (direction : Direction) : (shuts : Bool) → Direction → Prop where
  | none : Moves direction false direction
  | write (data : Record) : ¬ direction.Down →
      Moves direction false
        { direction with
          reader := { direction.reader with
            buffer := direction.reader.buffer ++ [data], readable := true }
          written := direction.written ++ [data] }
  | read (record : Record) (records : List Record) : direction.Open →
      direction.reader.readable = true → direction.reader.buffer = record :: records →
      Moves direction false
        { direction with
          reader := { direction.reader with
            buffer := records, readable := direction.readableAfter records }
          received := direction.received ++ [record] }
  | readNone : direction.Open → direction.reader.readable = true → direction.reader.buffer = [] →
      Moves direction false
        { direction with
          reader := { direction.reader with readable := direction.readableAfter [] } }
  | shutdownReader :
      Moves direction false
        { direction with
          reader := { direction.reader with shutdown := true, readable := true } }
  | shutdownWriter : direction.writerFd ≠ -1 → direction.reader.fd ≠ -1 →
      Moves direction true { direction with writerShutdown := true }
  | closeReader :
      Moves direction false
        { direction with reader := { direction.reader with fd := -1, buffer := [] } }
  | closeWriter :
      Moves direction false
        { direction with
          reader := { direction.reader with readable := true }
          writerFd := -1 }

/-- What holds in one direction after all calls. -/
structure Sound (direction : Direction) : Prop where
  inOrder : direction.received <+: direction.written
  stream : direction.reader.fd ≠ -1 →
    direction.received ++ direction.reader.buffer = direction.written
  waiting : direction.reader.fd ≠ -1 → direction.reader.buffer ≠ [] →
    direction.reader.readable = true
  idle : direction.Open → ¬ direction.Down → direction.reader.readable = true →
    direction.reader.buffer ≠ []

/-- An end that waits for nothing more is readable. -/
def Ends (direction : Direction) : Prop :=
  direction.Open → direction.Down → direction.reader.readable = true

theorem Sound.moves {direction next : Direction} {shuts : Bool} (sound : Sound direction)
    (moves : Moves direction shuts next) : Sound next := by
  obtain ⟨inOrder, stream, waiting, idle⟩ := sound
  cases moves with
  | none => exact ⟨inOrder, stream, waiting, idle⟩
  | write data up =>
      refine ⟨inOrder.trans (List.prefix_append _ _), fun isOpen => ?_, fun _ _ => rfl,
        fun _ _ _ => by simp⟩
      rw [← stream isOpen, List.append_assoc]
  | read record records isOpen isReadable isBuffer =>
      have isStream := stream isOpen.1
      rw [isBuffer] at isStream
      refine ⟨⟨records, ?_⟩, fun _ => ?_, fun _ => Direction.readableAfter_more isReadable,
        fun _ up readable => ?_⟩
      · rw [← isStream, List.append_assoc]
        rfl
      · rw [← isStream, List.append_assoc]
        rfl
      · rintro rfl
        cases (Direction.readableAfter_nil up).symm.trans readable
  | readNone isOpen isReadable isBuffer =>
      refine ⟨inOrder, stream, fun _ notEmpty => absurd isBuffer notEmpty, fun _ up readable => ?_⟩
      cases (Direction.readableAfter_nil up).symm.trans readable
  | shutdownReader => exact ⟨inOrder, stream, fun _ _ => rfl, fun isOpen => nomatch isOpen.2⟩
  | shutdownWriter =>
      exact ⟨inOrder, stream, waiting, fun _ up => absurd (.inr rfl) up⟩
  | closeReader =>
      exact ⟨inOrder, fun isOpen => absurd rfl isOpen, fun isOpen => absurd rfl isOpen,
        fun isOpen => absurd rfl isOpen.1⟩
  | closeWriter =>
      exact ⟨inOrder, stream, fun _ _ => rfl, fun _ up => absurd (.inl rfl) up⟩

theorem Ends.moves {direction next : Direction} {shuts : Bool} (sound : Sound direction)
    (ends : Ends direction)
    (timely : shuts = true → direction.Open → ¬ direction.Down → direction.reader.buffer ≠ [])
    (moves : Moves direction shuts next) : Ends next := by
  cases moves with
  | none => exact ends
  | write data up => exact fun _ _ => rfl
  | read record records isOpen isReadable isBuffer =>
      exact fun _ isDown => @Direction.readableAfter_down direction isDown records
  | readNone isOpen isReadable isBuffer =>
      exact fun _ isDown => @Direction.readableAfter_down direction isDown []
  | shutdownReader => exact fun _ _ => rfl
  | shutdownWriter writerOpen readerOpen =>
      intro isOpen _
      by_cases isDown : direction.Down
      · exact ends isOpen isDown
      · exact sound.waiting isOpen.1 (timely rfl isOpen isDown)
  | closeReader => exact fun isOpen => absurd rfl isOpen.1
  | closeWriter => exact fun _ _ => rfl

/-!
## Calls and directions
-/

namespace FakeSocketPair

variable (pair : FakeSocketPair) (K : Bool) (written received : List Record)

/-- What a write at the other end adds. -/
theorem moves_write (data : Record) :
    Moves (pair.direction K written received) false
      ((pair.write (!K) data).2.direction K
        (written ++ given data (pair.write (!K) data).1) received) := by
  unfold write
  split
  · simpa [given, Except.isOk, Except.toBool] using Moves.none
  · next isOpen =>
      split
      · simpa [given, Except.isOk, Except.toBool] using Moves.none
      · next notShut =>
          have up : ¬ (pair.direction K written received).Down := not_or.mpr ⟨isOpen, notShut⟩
          have moves := Moves.write data up
          simpa [given, Except.isOk, Except.toBool, direction] using moves

theorem direction_write (data : Record) :
    (pair.write K data).2.direction K written received = pair.direction K written received := by
  unfold write
  split
  · rfl
  · split
    · rfl
    · simp [direction]

theorem direction_afterRead :
    (pair.afterRead K).direction K written received =
      { pair.direction K written received with
        reader := { pair.side K with
          readable := (pair.direction K written received).readableAfter (pair.side K).buffer } } := by
  have isAfter : (pair.direction K written received).readableAfter (pair.side K).buffer =
      if (pair.side (!K)).fd = -1 ∨ (pair.side (!K)).shutdown then true
      else if (pair.side K).buffer = [] then false
      else (pair.side K).readable := rfl
  rw [isAfter]
  unfold afterRead
  split
  · simp [direction]
  · split
    · simp [direction]
    · rfl

theorem moves_read (nbytes : Nat) :
    Moves (pair.direction K written received) false
      ((pair.read K nbytes).2.direction K written (received ++ taken (pair.read K nbytes).1)) := by
  have nothing : Moves (pair.direction K written received) false
      (pair.direction K written (received ++ [])) := by
    rw [List.append_nil]
    exact .none
  unfold read
  split
  · exact nothing
  · next isOpen =>
      split
      · exact nothing
      · next notShut =>
          have isOpen : (pair.direction K written received).Open :=
            ⟨isOpen, Bool.not_eq_true _ ▸ notShut⟩
          split
          · exact nothing
          · next isReadable =>
              have isReadable : (pair.side K).readable = true := Bool.not_eq_false _ ▸ isReadable
              split
              · next isBuffer =>
                  have moves := Moves.readNone isOpen isReadable isBuffer
                  dsimp only [taken]
                  rw [List.append_nil, direction_afterRead, isBuffer]
                  exact moves
              · next record records isBuffer =>
                  split
                  · exact nothing
                  · have moves := Moves.read record records isOpen isReadable isBuffer
                    rw [taken, direction_afterRead]
                    simpa [direction, Direction.readableAfter] using moves

theorem direction_read (nbytes : Nat) :
    (pair.read (!K) nbytes).2.direction K written received =
      pair.direction K written received := by
  have afterRead_same (pair : FakeSocketPair) :
      (pair.afterRead (!K)).direction K written received = pair.direction K written received := by
    unfold afterRead
    split
    · simp [direction]
    · split
      · simp [direction]
      · rfl
  unfold read
  split
  · rfl
  · split
    · rfl
    · split
      · rfl
      · split
        · exact afterRead_same pair
        · split
          · rfl
          · rw [afterRead_same]
            simp [direction]

theorem moves_shutdown (J : Bool) :
    ∃ shuts, Moves (pair.direction K written received) shuts
        ((pair.shutdown J).2.direction K written received) ∧ (shuts = true → J = !K) := by
  unfold shutdown
  split
  · exact ⟨false, .none, nofun⟩
  · next isOpen =>
      split
      · exact ⟨false, .none, nofun⟩
      · next peerOpen =>
          by_cases isReader : J = K
          · subst isReader
            have moves := @Moves.shutdownReader (pair.direction J written received)
            exact ⟨false, by simpa [direction] using moves, nofun⟩
          · have isWriter : J = !K := Bool.eq_not.mpr isReader
            subst isWriter
            rw [Bool.not_not] at peerOpen
            have moves := @Moves.shutdownWriter (pair.direction K written received) isOpen peerOpen
            exact ⟨true, by simpa [direction] using moves, fun _ => rfl⟩

theorem moves_close (J : Bool) (fd : Int) :
    Moves (pair.direction K written received) false
      ((pair.close J fd).2.direction K written received) := by
  unfold close
  split
  · exact .none
  · split
    · exact .none
    · by_cases isReader : J = K
      · subst isReader
        have moves := @Moves.closeReader (pair.direction J written received)
        simpa [direction] using moves
      · have isWriter : J = !K := Bool.eq_not.mpr isReader
        subst isWriter
        have moves := @Moves.closeWriter (pair.direction K written received)
        simpa [direction] using moves

end FakeSocketPair

theorem descriptor_inj {i : Nat} {K J : Bool} (same : descriptor i K = descriptor i J) : K = J := by
  rw [← isOdd_descriptor i K, same, isOdd_descriptor]

private theorem getElem?_set_pair {fds : List FakeSocketPair} {i : Nat} {pair : FakeSocketPair}
    (isPair : fds[i]? = some pair) (next : FakeSocketPair) : (fds.set i next)[i]? = some next := by
  obtain ⟨inside, -⟩ := List.getElem?_eq_some_iff.mp isPair
  exact List.getElem?_set_self inside

private theorem step_other {traffic : Traffic} {i : Nat} {call : Call}
    (other : ∀ J, call.fd ≠ descriptor i J) :
    (step traffic call).fds[i]? = traffic.fds[i]? ∧
      ∀ J, recordsAt (step traffic call).written (descriptor i J) =
          recordsAt traffic.written (descriptor i J) ∧
        recordsAt (step traffic call).received (descriptor i J) =
          recordsAt traffic.received (descriptor i J) := by
  cases call with
  | write fd data =>
      exact ⟨onPair_other other fun pair K => pair.write K data,
        fun J => ⟨recordsAt_other (other J) _ _, rfl⟩⟩
  | read fd nbytes =>
      exact ⟨onPair_other other fun pair K => pair.read K nbytes,
        fun J => ⟨rfl, recordsAt_other (other J) _ _⟩⟩
  | shutdown fd => exact ⟨onPair_other other _, fun _ => ⟨rfl, rfl⟩⟩
  | close fd => exact ⟨onPair_other other _, fun _ => ⟨rfl, rfl⟩⟩

/-- What every call does to one direction of a pair. -/
theorem step_moves {traffic : Traffic} {i : Nat} {pair : FakeSocketPair}
    (isPair : traffic.fds[i]? = some pair) (K : Bool) (call : Call) :
    ∃ next shuts, (step traffic call).fds[i]? = some next ∧
      Moves (traffic.direction i K pair) shuts ((step traffic call).direction i K next) ∧
      (shuts = true → call = .shutdown (descriptor i (!K))) := by
  by_cases other : ∀ J, call.fd ≠ descriptor i J
  · obtain ⟨sameFds, sameRecords⟩ := step_other other
    refine ⟨pair, false, sameFds.trans isPair, ?_, nofun⟩
    rw [Traffic.direction, Traffic.direction, (sameRecords (!K)).1, (sameRecords K).2]
    exact .none
  · obtain ⟨J, isDescriptor⟩ := not_forall_not.mp other
    have isSide : J = K ∨ J = !K := by
      by_cases same : J = K
      · exact .inl same
      · exact .inr (Bool.eq_not.mpr same)
    have peer : descriptor i K ≠ descriptor i (!K) := fun same =>
      absurd (descriptor_inj same) (by cases K <;> decide)
    cases call with
    | write fd data =>
        obtain rfl : fd = descriptor i J := isDescriptor
        have isCall := onPair_descriptor isPair J fun pair K => pair.write K data
        refine ⟨(pair.write J data).2, false, ?_, ?_, nofun⟩
        · simp only [step, fakeSocketWrite, isCall, getElem?_set_pair isPair]
        · simp only [Traffic.direction, step, fakeSocketWrite, isCall]
          rcases isSide with rfl | rfl
          · rw [recordsAt_other peer, pair.direction_write]
            exact .none
          · rw [recordsAt_same]
            exact pair.moves_write K _ _ data
    | read fd nbytes =>
        obtain rfl : fd = descriptor i J := isDescriptor
        have isCall := onPair_descriptor isPair J fun pair K => pair.read K nbytes
        refine ⟨(pair.read J nbytes).2, false, ?_, ?_, nofun⟩
        · simp only [step, fakeSocketRead, isCall, getElem?_set_pair isPair]
        · simp only [Traffic.direction, step, fakeSocketRead, isCall]
          rcases isSide with rfl | rfl
          · rw [recordsAt_same]
            exact pair.moves_read J _ _ nbytes
          · rw [recordsAt_other peer.symm, pair.direction_read]
            exact .none
    | shutdown fd =>
        obtain rfl : fd = descriptor i J := isDescriptor
        have isCall := onPair_descriptor isPair J FakeSocketPair.shutdown
        obtain ⟨shuts, moves, isWriter⟩ := pair.moves_shutdown K
          (recordsAt traffic.written (descriptor i (!K)))
          (recordsAt traffic.received (descriptor i K)) J
        refine ⟨(pair.shutdown J).2, shuts, ?_, moves, fun isShut => by rw [isWriter isShut]⟩
        simp only [step, fakeSocketShutdown, isCall, getElem?_set_pair isPair]
    | close fd =>
        obtain rfl : fd = descriptor i J := isDescriptor
        have isCall := onPair_descriptor isPair J fun pair K => pair.close K (descriptor i J)
        refine ⟨(pair.close J (descriptor i J)).2, false, ?_, pair.moves_close K _ _ J _, nofun⟩
        simp only [step, fakeSocketClose, isCall, getElem?_set_pair isPair]

/-!
## Runs
-/

/-- A pair as `fakeSocketPipe2` and `fakeSocketAccept4` leave it, with nothing written yet. -/
def connected (i : Nat) : FakeSocketPair :=
  ⟨⟨descriptor i false, false, false, []⟩, ⟨descriptor i true, false, false, []⟩, false, -1⟩

/-- The records read at one end are a prefix of those written at the other. -/
def InOrder (traffic : Traffic) (i : Nat) : Prop :=
  ∀ K, recordsAt traffic.received (descriptor i K) <+:
    recordsAt traffic.written (descriptor i (!K))

/-- Where the writer is closed or shut down, an open end that is not shut down gets the
remaining records with a large enough buffer, and then 0. -/
def ReadsToEnd (traffic : Traffic) (i : Nat) : Prop :=
  ∀ K pair, traffic.fds[i]? = some pair → (pair.side K).fd ≠ -1 → (pair.side K).shutdown = false →
    ((pair.side (!K)).fd = -1 ∨ (pair.side (!K)).shutdown = true) → ∀ nbytes,
      match (recordsAt traffic.written (descriptor i (!K))).drop
          (recordsAt traffic.received (descriptor i K)).length with
      | [] => (fakeSocketRead traffic.fds (descriptor i K) nbytes).1 = .ok none
      | record :: _ => record.length ≤ nbytes →
          (fakeSocketRead traffic.fds (descriptor i K) nbytes).1 = .ok (some record)

/-- The call is not the shutdown of an end while the other one has nothing to read; where
that is closed or shut down, or the end itself was before, there is nothing to wait for. -/
def Timely (i : Nat) (traffic : Traffic) (call : Call) : Prop :=
  ∀ K pair, traffic.fds[i]? = some pair → call = .shutdown (descriptor i (!K)) →
    (pair.side K).fd ≠ -1 → (pair.side K).shutdown = false → (pair.side (!K)).fd ≠ -1 →
    (pair.side (!K)).shutdown = false → (pair.side K).buffer ≠ []

/-- What holds of a pair after all calls. -/
def SoundPair (traffic : Traffic) (i : Nat) : Prop :=
  ∃ pair, traffic.fds[i]? = some pair ∧ ∀ K, Sound (traffic.direction i K pair)

/-- And what holds after timely ones. -/
def EndsPair (traffic : Traffic) (i : Nat) : Prop :=
  ∃ pair, traffic.fds[i]? = some pair ∧ ∀ K, Ends (traffic.direction i K pair)

theorem SoundPair.step {traffic : Traffic} {i : Nat} (sound : SoundPair traffic i) (call : Call) :
    SoundPair (step traffic call) i := by
  obtain ⟨pair, isPair, sound⟩ := sound
  obtain ⟨next, -, isNext, -, -⟩ := step_moves isPair true call
  refine ⟨next, isNext, fun K => ?_⟩
  obtain ⟨other, shuts, isOther, moves, -⟩ := step_moves isPair K call
  cases isNext.symm.trans isOther
  exact (sound K).moves moves

theorem EndsPair.step {traffic : Traffic} {i : Nat} (sound : SoundPair traffic i)
    (ends : EndsPair traffic i) {call : Call} (timely : Timely i traffic call) :
    EndsPair (FakeSocket.step traffic call) i := by
  obtain ⟨pair, isPair, sound⟩ := sound
  obtain ⟨same, isSame, ends⟩ := ends
  cases isPair.symm.trans isSame
  obtain ⟨next, -, isNext, -, -⟩ := step_moves isPair true call
  refine ⟨next, isNext, fun K => ?_⟩
  obtain ⟨other, shuts, isOther, moves, isShutdown⟩ := step_moves isPair K call
  cases isNext.symm.trans isOther
  refine (ends K).moves (sound K) (fun isShut isOpen up => ?_) moves
  obtain ⟨writerOpen, notShut⟩ := not_or.mp up
  exact timely K pair isPair (isShutdown isShut) isOpen.1 isOpen.2 writerOpen
    (Bool.not_eq_true _ ▸ notShut)

theorem SoundPair.inOrder {traffic : Traffic} {i : Nat} (sound : SoundPair traffic i) :
    InOrder traffic i := by
  obtain ⟨pair, -, sound⟩ := sound
  exact fun K => (sound K).inOrder

/-- What is left to be read of a stream is in the buffer. -/
private theorem Sound.drop {direction : Direction} (sound : Sound direction)
    (isOpen : direction.reader.fd ≠ -1) :
    direction.written.drop direction.received.length = direction.reader.buffer := by
  rw [← sound.stream isOpen, List.drop_left]

private theorem read_waits {pair : FakeSocketPair} {K : Bool} (isOpen : (pair.side K).fd ≠ -1)
    (notShut : (pair.side K).shutdown = false) (waits : (pair.side K).readable = false)
    (nbytes : Nat) : (pair.read K nbytes).1 = .error (.errno .again) := by
  rw [FakeSocketPair.read, if_neg isOpen, if_neg (by simp [notShut]), if_pos waits]

private theorem read_empty {pair : FakeSocketPair} {K : Bool} (isOpen : (pair.side K).fd ≠ -1)
    (notShut : (pair.side K).shutdown = false) (isReadable : (pair.side K).readable = true)
    (isBuffer : (pair.side K).buffer = []) (nbytes : Nat) :
    (pair.read K nbytes).1 = .ok none := by
  rw [FakeSocketPair.read, if_neg isOpen, if_neg (by simp [notShut]), if_neg (by simp [isReadable]),
    isBuffer]

private theorem read_record {pair : FakeSocketPair} {K : Bool} (isOpen : (pair.side K).fd ≠ -1)
    (notShut : (pair.side K).shutdown = false) (isReadable : (pair.side K).readable = true)
    {record : Record} {records : List Record} (isBuffer : (pair.side K).buffer = record :: records)
    {nbytes : Nat} (enough : record.length ≤ nbytes) :
    (pair.read K nbytes).1 = .ok (some record) := by
  have cast : record.length % 2 ^ 32 ≤ record.length := Nat.mod_le _ _
  rw [FakeSocketPair.read, if_neg isOpen, if_neg (by simp [notShut]), if_neg (by simp [isReadable]),
    isBuffer]
  dsimp only
  rw [if_neg (by omega)]

/-- Reading to the end is being readable where the writer is done. -/
theorem readsToEnd_iff {traffic : Traffic} {i : Nat} (sound : SoundPair traffic i) :
    ReadsToEnd traffic i ↔ EndsPair traffic i := by
  obtain ⟨pair, isPair, sound⟩ := sound
  have answer (K : Bool) (nbytes : Nat) :
      (fakeSocketRead traffic.fds (descriptor i K) nbytes).1 = (pair.read K nbytes).1 := by
    rw [fakeSocketRead, onPair_descriptor isPair]
  have remaining (K : Bool) (isOpen : (pair.side K).fd ≠ -1) :
      (recordsAt traffic.written (descriptor i (!K))).drop
        (recordsAt traffic.received (descriptor i K)).length = (pair.side K).buffer :=
    (sound K).drop isOpen
  constructor
  · intro reads
    refine ⟨pair, isPair, fun K isOpen isDown => ?_⟩
    obtain ⟨isOpen, notShut⟩ := isOpen
    refine Bool.not_eq_false _ ▸ fun waits => ?_
    have fails := read_waits isOpen notShut waits
    have isRead := reads K pair isPair isOpen notShut isDown
    rw [remaining K isOpen] at isRead
    cases isBuffer : (pair.side K).buffer with
    | nil =>
        simp only [isBuffer, answer, fails] at isRead
        cases isRead 0
    | cons record records =>
        simp only [isBuffer, answer, fails] at isRead
        cases isRead record.length (Nat.le_refl _)
  · rintro ⟨same, isSame, ends⟩ K other isOther isOpen notShut isDown nbytes
    cases isPair.symm.trans isSame
    cases isPair.symm.trans isOther
    have isReadable : (pair.side K).readable = true := ends K ⟨isOpen, notShut⟩ isDown
    rw [remaining K isOpen, answer]
    cases isBuffer : (pair.side K).buffer with
    | nil => exact read_empty isOpen notShut isReadable isBuffer nbytes
    | cons record records => exact read_record isOpen notShut isReadable isBuffer

/-- A shutdown that comes too early leaves the other end waiting. -/
private theorem timely_of_ends {traffic : Traffic} {i : Nat} {call : Call}
    (sound : SoundPair traffic i) (ends : EndsPair (step traffic call) i) :
    Timely i traffic call := by
  rintro K pair isPair rfl isOpen notShut writerOpen writerNotShut
  obtain ⟨same, isSame, sound⟩ := sound
  cases isPair.symm.trans isSame
  obtain ⟨next, isNext, ends⟩ := ends
  have isCall := onPair_descriptor isPair (!K) FakeSocketPair.shutdown
  have isAfter : next = pair.setSide (!K) { pair.side (!K) with shutdown := true, readable := true } := by
    simp only [step, fakeSocketShutdown, isCall, getElem?_set_pair isPair, Option.some.injEq] at isNext
    rw [← isNext, FakeSocketPair.shutdown, if_neg writerOpen, Bool.not_not, if_neg isOpen]
  have isReader : next.side K = pair.side K := by rw [isAfter, FakeSocketPair.side_peer_setSide]
  have isReadable : (next.side K).readable = true := by
    refine ends K ⟨?_, ?_⟩ (.inr ?_)
    · show (next.side K).fd ≠ -1
      rw [isReader]
      exact isOpen
    · show (next.side K).shutdown = false
      rw [isReader]
      exact notShut
    · show (next.side (!K)).shutdown = true
      rw [isAfter, FakeSocketPair.side_setSide]
  rw [isReader] at isReadable
  refine (sound K).idle ⟨isOpen, notShut⟩ (not_or.mpr ⟨writerOpen, ?_⟩) isReadable
  exact fun isShut => absurd (writerNotShut.symm.trans isShut) Bool.false_ne_true

private theorem initially {fds : List FakeSocketPair} {i : Nat}
    (isPair : fds[i]? = some (connected i)) :
    SoundPair ⟨fds, [], []⟩ i ∧ EndsPair ⟨fds, [], []⟩ i := by
  have isConnected (K : Bool) : (connected i).side K = ⟨descriptor i K, false, false, []⟩ := by
    cases K <;> rfl
  have isOpen (K : Bool) : descriptor i K ≠ -1 := by
    have nonneg := descriptor_nonneg i K
    omega
  have isDirection (K : Bool) : Traffic.direction ⟨fds, [], []⟩ i K (connected i) =
      ⟨⟨descriptor i K, false, false, []⟩, descriptor i (!K), false, [], []⟩ := by
    rw [Traffic.direction, FakeSocketPair.direction, isConnected, isConnected]
    rfl
  constructor
  · refine ⟨connected i, isPair, fun K => ?_⟩
    rw [isDirection]
    exact ⟨List.prefix_refl _, fun _ => rfl, fun _ notEmpty => absurd rfl notEmpty, fun _ _ => nofun⟩
  · refine ⟨connected i, isPair, fun K => ?_⟩
    rw [isDirection]
    exact fun _ isDown => absurd isDown (not_or.mpr ⟨isOpen _, Bool.false_ne_true⟩)

/-- The law of a stream between the ends of a connected pair, among calls on any descriptors:
the records come in order, and each reader gets to the end exactly if every shutdown is timely. -/
theorem stream_law {fds : List FakeSocketPair} {i : Nat} (isPair : fds[i]? = some (connected i))
    (calls : List Call) :
    InOrder (run step ⟨fds, [], []⟩ calls) i ∧
      ((∀ before, before <+: calls → ReadsToEnd (run step ⟨fds, [], []⟩ before) i) ↔
        Permitted step (Timely i) ⟨fds, [], []⟩ calls) := by
  obtain ⟨startSound, startEnds⟩ := initially isPair
  have sound (calls : List Call) : SoundPair (run step ⟨fds, [], []⟩ calls) i := by
    refine run_invariant (fun traffic => SoundPair traffic i) ?_ startSound
      (permitted_of_forall (fun _ _ => trivial) _ calls)
    exact fun traffic call sound _ => sound.step call
  refine ⟨(sound calls).inOrder, ?_, ?_⟩
  · intro reads
    rw [permitted_iff_forall]
    rintro before call after rfl
    have isPrefix : before ++ [call] <+: before ++ call :: after := ⟨after, by simp⟩
    have ends := (readsToEnd_iff (sound _)).mp (reads _ isPrefix)
    rw [run, List.foldl_append] at ends
    exact timely_of_ends (sound before) ends
  · rintro permitted before ⟨after, rfl⟩
    have both : SoundPair (run step ⟨fds, [], []⟩ before) i ∧
        EndsPair (run step ⟨fds, [], []⟩ before) i := by
      refine run_invariant (fun traffic => SoundPair traffic i ∧ EndsPair traffic i) ?_
        ⟨startSound, startEnds⟩ (permitted_append.mp permitted).1
      exact fun traffic call holds timely => ⟨holds.1.step call, holds.2.step holds.1 timely⟩
    exact (readsToEnd_iff both.1).mpr both.2

theorem timely_of_ne {i : Nat} {traffic : Traffic} {call : Call}
    (isOther : ∀ fd, call ≠ .shutdown fd) : Timely i traffic call :=
  fun _ _ _ isShutdown => absurd isShutdown (isOther _)

/-- Two records are written, the first is read, and the writer is shut down before the second is. -/
theorem stream_law_pipe :
    let calls := [.write 0 [1, 2], .read 1 1024, .write 0 [3], .shutdown 0, .read 1 1024]
    InOrder (run step ⟨[connected 0], [], []⟩ calls) 0 ∧
      ∀ before, before <+: calls → ReadsToEnd (run step ⟨[connected 0], [], []⟩ before) 0 := by
  intro calls
  obtain ⟨inOrder, reads_iff⟩ := @stream_law [connected 0] 0 rfl calls
  have isTimely : Timely 0
      (run step ⟨[connected 0], [], []⟩ [.write 0 [1, 2], .read 1 1024, .write 0 [3]])
      (.shutdown 0) := by
    intro K pair isPair isShutdown
    have isWritten : (run step ⟨[connected 0], [], []⟩
        [.write 0 [1, 2], .read 1 1024, .write 0 [3]]).fds[0]? =
          some ⟨⟨0, false, false, []⟩, ⟨1, false, true, [[3]]⟩, false, -1⟩ := by decide
    cases isWritten.symm.trans isPair
    cases K with
    | false => cases isShutdown
    | true => exact fun _ _ _ _ => List.cons_ne_nil _ _
  exact ⟨inOrder, reads_iff.mpr ⟨timely_of_ne nofun, timely_of_ne nofun, timely_of_ne nofun, isTimely,
    timely_of_ne nofun, trivial⟩⟩

/-- An end is shut down before anything was written: the other one gets EAGAIN, not 0. -/
theorem not_stream_law :
    ¬ ReadsToEnd (run step ⟨[connected 0], [], []⟩ [.shutdown 0]) 0 := by
  intro reads
  have isPair : (run step ⟨[connected 0], [], []⟩ [.shutdown 0]).fds[0]? =
      some ⟨⟨0, true, true, []⟩, ⟨1, false, false, []⟩, false, -1⟩ := by decide
  have isRead : (fakeSocketRead (run step ⟨[connected 0], [], []⟩ [.shutdown 0]).fds 1 1).1 =
      .ok none := reads true _ isPair (by decide) rfl (.inr rfl) 1
  have fails : (fakeSocketRead (run step ⟨[connected 0], [], []⟩ [.shutdown 0]).fds 1 1).1 =
      .error (.errno .again) := rfl
  cases isRead.symm.trans fails

end FreeOnline.Net.FakeSocket
