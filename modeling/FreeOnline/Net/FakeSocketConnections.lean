import FreeOnline.Library.Run
import FreeOnline.Net.FakeSocket
import Mathlib.Data.List.Count

/-!
# Connections between fake sockets

Calls of several threads, which give up the lock where they wait. A connection is queued at the
listening pair and made when it is accepted; what happens to the connecting pair in between
decides whether the assertions hold then.
-/

set_option autoImplicit false

namespace FreeOnline.Net.FakeSocket

open FreeOnline.Library

/-- A call that does not hold the lock: a pipe between its two steps, or one that waits. -/
inductive Waiting where
  | pipe2 (fd : Int)
  | connect (fd1 : Int)
  | accept (fd : Int)
deriving DecidableEq

structure State where
  fds : List FakeSocketPair
  calls : List Waiting
  /-- The calls that hold a reference to where the vector was before it moved. -/
  stale : List Waiting
  /-- An assertion has failed, or such a reference was used. -/
  broken : Bool
  /-- The pairs of which both ends were given out, by an accept or as a pipe. -/
  handedOut : List Nat
deriving DecidableEq

def State.create : State := ⟨[], [], [], false, []⟩

/-- A step of a thread. Growing, the vector moves its elements or not. -/
inductive Event where
  | socket (moves : Bool)
  | pipe2 (moves : Bool)
  | listen (fd : Int)
  | connect (fd1 fd2 : Int)
  | accept (fd : Int)
  | close (fd : Int)
  | dumpState
  | resume (call : Waiting)
deriving DecidableEq

namespace State

def allocate (state : State) (moves : Bool) : State :=
  let (_, fds) := fakeSocketAllocate state.fds
  if moves then { state with fds, calls := [], stale := state.calls ++ state.stale }
  else { state with fds }

def dump (state : State) : State :=
  { state with broken := state.broken || !fakeSocketDumpState state.fds }

/-- A call goes on under the lock: it waits again or comes to its end. -/
def proceed (state : State) (call : Waiting) : State :=
  match call with
  | .pipe2 fd =>
      match connectPipe state.fds fd with
      | (.ok _, fds) => { state with fds, handedOut := pairOf fd :: state.handedOut }
      | (.error _, _) => { state with broken := true }
  | .connect fd1 =>
      match connectWait state.fds fd1 with
      | none => { state with calls := call :: state.calls }
      | some (.ok _) => state
      | some (.error _) => { state with broken := true }
  | .accept fd =>
      match acceptWait state.fds fd with
      | none => { state with calls := call :: state.calls }
      | some (.ok new, fds) =>
          ({ state with fds, handedOut := pairOf new :: state.handedOut } : State).dump
      | some (.error _, _) => { state with broken := true }

def step (state : State) (event : Event) : State :=
  if state.broken then state
  else
    match event with
    | .socket moves => state.allocate moves
    | .pipe2 moves =>
        let (fd, _) := fakeSocketAllocate state.fds
        let state := state.allocate moves
        { state with calls := .pipe2 fd :: state.calls }
    | .listen fd => { state with fds := (fakeSocketListen state.fds fd).2 }
    | .connect fd1 fd2 =>
        match fakeSocketConnect state.fds fd1 fd2 with
        | (.ok _, fds) => ({ state with fds } : State).proceed (.connect fd1)
        | (.error _, _) => state
    | .accept fd =>
        match fakeSocketAccept4 state.fds fd with
        | (.ok _, _) => state.proceed (.accept fd)
        | (.error _, _) => state
    | .close fd =>
        match fakeSocketClose state.fds fd with
        | (.ok _, fds) => ({ state with fds } : State).dump
        | (.error .assertion, _) => { state with broken := true }
        | (.error _, _) => state
    | .dumpState => state.dump
    | .resume call =>
        if call ∈ state.stale then { state with broken := true }
        else if call ∈ state.calls then
          ({ state with calls := state.calls.erase call } : State).proceed call
        else state

end State

/-!
## What holds between the steps
-/

/-- The descriptors of a pair are its own, and a pair with both ends does not listen. -/
def EndsFit (i : Nat) (pair : FakeSocketPair) : Prop :=
  (pair.lower.fd = -1 ∨ pair.lower.fd = i * 2) ∧
    (pair.higher.fd = -1 ∨ pair.higher.fd = i * 2 + 1 ∧ pair.listening = false)

/-- A pair that can still be handed out. -/
def Free (state : State) (j : Nat) : Prop :=
  j ∉ state.handedOut ∧
    ∃ pair, state.fds[j]? = some pair ∧ pair.lower.fd = j * 2 ∧ pair.listening = false

structure Valid (state : State) : Prop where
  unbroken : state.broken = false
  noStale : state.stale = []
  ends : ∀ i pair, state.fds[i]? = some pair → EndsFit i pair
  single : ∀ i pair, state.fds[i]? = some pair → i ∉ state.handedOut → pair.higher.fd = -1
  inRange : ∀ i ∈ state.handedOut, i < state.fds.length
  once : state.handedOut.Nodup
  queued : ∀ (i : Nat) (pair : FakeSocketPair), state.fds[i]? = some pair → pair.connectingFd ≠ -1 →
    ∃ j : Nat, pair.connectingFd = j * 2 ∧ Free state j ∧
      .connect (j * 2) ∈ state.calls ∧ .pipe2 (j * 2) ∉ state.calls
  distinct : ∀ (i k : Nat) (pair other : FakeSocketPair), state.fds[i]? = some pair →
    state.fds[k]? = some other → pair.connectingFd = other.connectingFd →
    pair.connectingFd ≠ -1 → i = k
  pipes : ∀ fd : Int, .pipe2 fd ∈ state.calls → ∃ j : Nat, fd = j * 2 ∧ Free state j
  pipesOnce : ∀ fd : Int, state.calls.count (.pipe2 fd) ≤ 1
  connects : ∀ fd : Int, .connect fd ∈ state.calls →
    ∃ (j : Nat) (pair : FakeSocketPair), fd = j * 2 ∧ state.fds[j]? = some pair ∧
      pair.lower.fd = j * 2

theorem valid_create : Valid .create := by
  constructor <;> simp [State.create]

theorem pairOf_even (j : Nat) : pairOf (j * 2) = j := by
  unfold pairOf
  omega

theorem isOdd_even (j : Nat) : isOdd (j * 2) = false := by
  simp [isOdd]

theorem Free.inside {state : State} {j : Nat} (free : Free state j) : j < state.fds.length := by
  obtain ⟨-, pair, isPair, -, -⟩ := free
  exact (List.getElem?_eq_some_iff.mp isPair).1

theorem Free.single {state : State} {j : Nat} (free : Free state j) (valid : Valid state) :
    ∃ pair, state.fds[j]? = some pair ∧ pair.lower.fd = j * 2 ∧ pair.higher.fd = -1 ∧
      pair.listening = false := by
  obtain ⟨notOut, pair, isPair, isLower, notListening⟩ := free
  exact ⟨pair, isPair, isLower, valid.single j pair isPair notOut, notListening⟩

private theorem dumpPair_of_endsFit {i : Nat} {pair : FakeSocketPair} (fits : EndsFit i pair) :
    dumpPair i pair = true := by
  obtain ⟨isLower, isHigher⟩ := fits
  unfold dumpPair
  split
  · next isOpen =>
      rcases isHigher with isClosed | ⟨isHigher, notListening⟩
      · simp [isLower.resolve_left isOpen, isClosed]
      · simp [isLower.resolve_left isOpen, isHigher, notListening]
  · rcases isHigher with isClosed | ⟨isHigher, notListening⟩
    · simp [isClosed]
    · simp [isHigher, notListening]

theorem Valid.dumpState {state : State} (valid : Valid state) :
    fakeSocketDumpState state.fds = true := by
  unfold fakeSocketDumpState
  rw [List.all_eq_true]
  rintro ⟨pair, i⟩ isMember
  have isPair : state.fds[i]? = some pair := by
    exact List.mk_mem_zipIdx_iff_getElem?.mp isMember
  exact dumpPair_of_endsFit (valid.ends i pair isPair)

theorem Valid.dump {state : State} (valid : Valid state) : Valid state.dump := by
  have same : state.dump = state := by
    unfold State.dump
    rw [valid.dumpState, Bool.not_true, Bool.or_false]
  rw [same]
  exact valid

/-- A call that is done: a connection is not queued any more by then. -/
theorem Valid.drop {state : State} {call : Waiting}
    (valid : Valid { state with calls := call :: state.calls })
    (isDone : ∀ (i : Nat) (pair : FakeSocketPair), state.fds[i]? = some pair → pair.connectingFd ≠ -1 →
      call ≠ .connect pair.connectingFd) : Valid state where
  unbroken := valid.unbroken
  noStale := valid.noStale
  ends := valid.ends
  single := valid.single
  inRange := valid.inRange
  once := valid.once
  queued := by
    intro i pair isPair isQueued
    obtain ⟨j, isFd, free, isCall, notPipe⟩ := valid.queued i pair isPair isQueued
    have other : call ≠ .connect (j * 2) := isFd ▸ isDone i pair isPair isQueued
    exact ⟨j, isFd, free, (List.mem_cons.mp isCall).resolve_left other.symm,
      fun isPipe => notPipe (List.mem_cons_of_mem _ isPipe)⟩
  distinct := valid.distinct
  pipes := fun fd isPipe => valid.pipes fd (List.mem_cons_of_mem _ isPipe)
  pipesOnce := fun fd => Nat.le_trans (List.count_le_count_cons ..) (valid.pipesOnce fd)
  connects := fun fd isCall => valid.connects fd (List.mem_cons_of_mem _ isCall)

/-- A pair that is about to be handed out: a connection of it is queued, or it becomes a pipe. -/
def Reserved (state : State) (j : Nat) : Prop :=
  (∃ (k : Nat) (pair : FakeSocketPair), state.fds[k]? = some pair ∧ pair.connectingFd = j * 2) ∨
    .pipe2 (j * 2) ∈ state.calls

private theorem getElem?_set_cases {fds : List FakeSocketPair} {i k : Nat}
    {next other : FakeSocketPair} (isOther : (fds.set i next)[k]? = some other) :
    (k = i ∧ other = next) ∨ (k ≠ i ∧ fds[k]? = some other) := by
  by_cases same : k = i
  · subst same
    have inside : k < fds.length := by
      have bound := (List.getElem?_eq_some_iff.mp isOther).1
      rwa [List.length_set] at bound
    rw [List.getElem?_set_self inside] at isOther
    exact .inl ⟨rfl, (Option.some.inj isOther).symm⟩
  · rw [List.getElem?_set_ne (Ne.symm same)] at isOther
    exact .inr ⟨same, isOther⟩

/-- What the steps do to a single pair: what is reserved stays as it is, and a connection that is
queued there stays or goes. -/
theorem Valid.set {state : State} (valid : Valid state) {i : Nat} {pair next : FakeSocketPair}
    (isPair : state.fds[i]? = some pair) (fits : EndsFit i next)
    (single : i ∉ state.handedOut → next.higher.fd = -1)
    (reserved : Reserved state i → next.lower.fd = i * 2 ∧ next.listening = false)
    (connects : .connect (i * 2) ∈ state.calls → next.lower.fd = i * 2)
    (queue : next.connectingFd = pair.connectingFd ∨ next.connectingFd = -1) :
    Valid { state with fds := state.fds.set i next } := by
  have inside : i < state.fds.length := (List.getElem?_eq_some_iff.mp isPair).1
  have before {k : Nat} {other : FakeSocketPair}
      (isOther : (state.fds.set i next)[k]? = some other) (isQueued : other.connectingFd ≠ -1) :
      ∃ old, state.fds[k]? = some old ∧ old.connectingFd = other.connectingFd := by
    rcases getElem?_set_cases isOther with ⟨rfl, rfl⟩ | ⟨-, isOther⟩
    · exact ⟨pair, isPair, (queue.resolve_right isQueued).symm⟩
    · exact ⟨other, isOther, rfl⟩
  have stillFree {j : Nat} (free : Free state j) (isReserved : Reserved state j) :
      Free { state with fds := state.fds.set i next } j := by
    obtain ⟨notOut, old, isOld, isLower, notListening⟩ := free
    by_cases same : j = i
    · subst same
      exact ⟨notOut, next, List.getElem?_set_self inside, reserved isReserved⟩
    · exact ⟨notOut, old, (List.getElem?_set_ne (Ne.symm same)).trans isOld, isLower, notListening⟩
  refine ⟨valid.unbroken, valid.noStale, ?_, ?_, ?_, valid.once, ?_, ?_, ?_, valid.pipesOnce, ?_⟩
  · intro k other isOther
    rcases getElem?_set_cases isOther with ⟨rfl, rfl⟩ | ⟨-, isOther⟩
    · exact fits
    · exact valid.ends k other isOther
  · intro k other isOther notOut
    rcases getElem?_set_cases isOther with ⟨rfl, rfl⟩ | ⟨-, isOther⟩
    · exact single notOut
    · exact valid.single k other isOther notOut
  · intro k isOut
    have inside := valid.inRange k isOut
    rwa [← List.length_set (i := i) (a := next)] at inside
  · intro k other isOther isQueued
    obtain ⟨old, isOld, same⟩ := before isOther isQueued
    obtain ⟨j, isFd, free, isCall, notPipe⟩ := valid.queued k old isOld (same ▸ isQueued)
    exact ⟨j, same.symm.trans isFd, stillFree free (.inl ⟨k, old, isOld, isFd⟩), isCall, notPipe⟩
  · intro k l other another isOther isAnother same isQueued
    obtain ⟨old, isOld, sameOld⟩ := before isOther isQueued
    obtain ⟨older, isOlder, sameOlder⟩ := before isAnother (same ▸ isQueued)
    exact valid.distinct k l old older isOld isOlder
      (sameOld.trans (same.trans sameOlder.symm)) (sameOld ▸ isQueued)
  · intro fd isPipe
    obtain ⟨j, rfl, free⟩ := valid.pipes fd isPipe
    exact ⟨j, rfl, stillFree free (.inr isPipe)⟩
  · intro fd isCall
    obtain ⟨j, old, rfl, isOld, isLower⟩ := valid.connects fd isCall
    by_cases same : j = i
    · subst same
      exact ⟨j, next, rfl, List.getElem?_set_self inside, connects isCall⟩
    · exact ⟨j, old, rfl, (List.getElem?_set_ne (Ne.symm same)).trans isOld, isLower⟩

/-- A free pair that is not reserved any more is handed out. -/
theorem Valid.handOut {state : State} (valid : Valid state) {j : Nat} (free : Free state j)
    (notReserved : ¬ Reserved state j) :
    Valid { state with handedOut := j :: state.handedOut } := by
  have stillFree {k : Nat} (free : Free state k) (isReserved : Reserved state k) :
      Free { state with handedOut := j :: state.handedOut } k := by
    refine ⟨fun isOut => ?_, free.2⟩
    rcases List.mem_cons.mp isOut with rfl | isOut
    · exact notReserved isReserved
    · exact free.1 isOut
  refine ⟨valid.unbroken, valid.noStale, valid.ends, ?_, ?_, ?_, ?_, valid.distinct, ?_,
    valid.pipesOnce, valid.connects⟩
  · exact fun k other isOther notOut =>
      valid.single k other isOther fun isOut => notOut (List.mem_cons_of_mem _ isOut)
  · intro k isOut
    rcases List.mem_cons.mp isOut with rfl | isOut
    · exact free.inside
    · exact valid.inRange k isOut
  · exact List.nodup_cons.mpr ⟨free.1, valid.once⟩
  · intro k other isOther isQueued
    obtain ⟨l, isFd, free, isCall, notPipe⟩ := valid.queued k other isOther isQueued
    exact ⟨l, isFd, stillFree free (.inl ⟨k, other, isOther, isFd⟩), isCall, notPipe⟩
  · intro fd isPipe
    obtain ⟨k, rfl, free⟩ := valid.pipes fd isPipe
    exact ⟨k, rfl, stillFree free (.inr isPipe)⟩

/-- The other end of a pair that is handed out. -/
theorem Valid.connect {state : State} (valid : Valid state) {j : Nat} {pair : FakeSocketPair}
    (isPair : state.fds[j]? = some pair) (isLower : pair.lower.fd = j * 2)
    (notListening : pair.listening = false) (isOut : j ∈ state.handedOut) :
    Valid { state with
      fds := state.fds.set j { pair with higher := { pair.higher with fd := pair.lower.fd + 1 } } } :=
  valid.set isPair ⟨.inr isLower, .inr ⟨by rw [isLower], notListening⟩⟩
    (fun notOut => absurd isOut notOut) (fun _ => ⟨isLower, notListening⟩) (fun _ => isLower)
    (.inl rfl)

theorem Valid.free {state : State} (valid : Valid state) {j : Nat} (reserved : Reserved state j) :
    Free state j := by
  rcases reserved with ⟨k, pair, isPair, isFd⟩ | isPipe
  · have isQueued : pair.connectingFd ≠ -1 := by omega
    obtain ⟨l, isLow, free, -, -⟩ := valid.queued k pair isPair isQueued
    obtain rfl : l = j := by omega
    exact free
  · obtain ⟨l, isLow, free⟩ := valid.pipes _ isPipe
    obtain rfl : l = j := by omega
    exact free

private theorem Valid.reserved {state : State} (valid : Valid state) {j : Nat}
    {pair : FakeSocketPair} (isPair : state.fds[j]? = some pair) (reserved : Reserved state j) :
    pair.lower.fd = j * 2 ∧ pair.listening = false := by
  obtain ⟨-, same, isSame, isLower, notListening⟩ := valid.free reserved
  cases isPair.symm.trans isSame
  exact ⟨isLower, notListening⟩

private theorem Valid.connecting {state : State} (valid : Valid state) {j : Nat}
    {pair : FakeSocketPair} (isPair : state.fds[j]? = some pair)
    (isCall : .connect (j * 2) ∈ state.calls) : pair.lower.fd = j * 2 := by
  obtain ⟨l, same, isLow, isSame, isLower⟩ := valid.connects _ isCall
  obtain rfl : l = j := by omega
  cases isPair.symm.trans isSame
  exact isLower

/-!
## Calls that go on
-/

private theorem modify_of_getElem? {fds : List FakeSocketPair} {j : Nat} {pair : FakeSocketPair}
    (isPair : fds[j]? = some pair) (change : FakeSocketPair → FakeSocketPair) :
    fds.modify j change = fds.set j (change pair) := by
  refine List.ext_getElem? fun k => ?_
  by_cases same : j = k
  · subst same
    rw [List.getElem?_modify_eq, isPair, List.getElem?_set_self (List.getElem?_eq_some_iff.mp isPair).1]
    rfl
  · simp [same]

private theorem onPair_even {Answer : Type} {fds : List FakeSocketPair} {j : Nat}
    {pair : FakeSocketPair} (isPair : fds[j]? = some pair)
    (call : FakeSocketPair → Bool → Except Failure Answer × FakeSocketPair) :
    onPair fds (j * 2) call = ((call pair false).1, fds.set j (call pair false).2) := by
  have isEven : ((j : Int) * 2) = descriptor j false := by
    simp [descriptor, Int.mul_comm]
  rw [isEven, onPair_descriptor isPair]

private theorem Valid.proceed_pipe2 {state : State} {fd : Int}
    (valid : Valid { state with calls := .pipe2 fd :: state.calls }) :
    Valid (state.proceed (.pipe2 fd)) := by
  obtain ⟨j, rfl, free⟩ := valid.pipes fd List.mem_cons_self
  have notOther : .pipe2 (j * 2) ∉ state.calls := by
    intro isOther
    have once := valid.pipesOnce (j * 2)
    have positive := List.count_pos_iff.mpr isOther
    rw [List.count_cons_self] at once
    omega
  have dropped : Valid state := valid.drop fun _ _ _ _ => nofun
  have notReserved : ¬ Reserved state j := by
    rintro (⟨k, other, isOther, isFd⟩ | isPipe)
    · have isQueued : other.connectingFd ≠ -1 := by omega
      obtain ⟨l, isLow, -, -, notPipe⟩ := valid.queued k other isOther isQueued
      rw [← isLow, isFd] at notPipe
      exact notPipe List.mem_cons_self
    · exact notOther isPipe
  have freeDropped : Free state j := free
  obtain ⟨pair, isPair, isLower, -, notListening⟩ := freeDropped.single dropped
  have connected := (dropped.handOut freeDropped notReserved).connect isPair isLower notListening
    List.mem_cons_self
  have isPipe : connectPipe state.fds (j * 2) =
      (.ok (), state.fds.set j { pair with higher := { pair.higher with fd := pair.lower.fd + 1 } }) := by
    rw [connectPipe, onPair_even isPair, if_neg (not_not_intro isLower)]
  unfold State.proceed
  dsimp only
  rw [isPipe]
  dsimp only
  rw [pairOf_even]
  exact connected

private theorem Valid.proceed_connect {state : State} {fd1 : Int}
    (valid : Valid { state with calls := .connect fd1 :: state.calls }) :
    Valid (state.proceed (.connect fd1)) := by
  obtain ⟨j, pair, rfl, isPair, isLower⟩ := valid.connects fd1 List.mem_cons_self
  have isPair : state.fds[j]? = some pair := isPair
  have isWait : connectWait state.fds (j * 2) =
      if pair.higher.fd = -1 then none
      else if pair.higher.fd ≠ pair.lower.fd + 1 then some (.error .assertion)
      else some (.ok ()) := by
    rw [connectWait, pairOf_even, isPair]
  unfold State.proceed
  dsimp only
  by_cases waits : pair.higher.fd = -1
  · rw [isWait, if_pos waits]
    exact valid
  · have isHigher : pair.higher.fd = pair.lower.fd + 1 := by
      rw [isLower]
      exact ((valid.ends j pair isPair).2.resolve_left waits).1
    rw [isWait, if_neg waits, if_neg (not_not_intro isHigher)]
    refine valid.drop fun k other isOther isQueued isCall => ?_
    obtain ⟨l, isFd, free, -, -⟩ := valid.queued k other isOther isQueued
    injection isCall with isFd'
    obtain rfl : j = l := by omega
    exact waits (valid.single j pair isPair free.1)

private theorem Valid.proceed_accept {state : State} {fd : Int}
    (valid : Valid { state with calls := .accept fd :: state.calls }) :
    Valid (state.proceed (.accept fd)) := by
  unfold State.proceed
  dsimp only
  cases isPair : state.fds[pairOf fd]? with
  | none =>
      rw [acceptWait, isPair]
      exact valid
  | some pair =>
      by_cases waits : pair.connectingFd = -1
      · rw [acceptWait, isPair]
        dsimp only
        rw [if_pos waits]
        exact valid
      · have dropped : Valid state := valid.drop fun _ _ _ _ => nofun
        obtain ⟨j, isFd, free, -, notPipe⟩ := dropped.queued _ pair isPair waits
        obtain ⟨pair2, isPair2, isLower, isSingle, notListening⟩ := free.single dropped
        have isWait : acceptWait state.fds fd = some (.ok (pair2.lower.fd + 1),
            (state.fds.set (pairOf fd) { pair with connectingFd := -1 }).modify j fun pair2 =>
              { pair2 with higher := { pair2.higher with fd := pair2.lower.fd + 1 } }) := by
          have inOrder : ¬ (pair.connectingFd < 0 ∨ isOdd pair.connectingFd = true) := by
            rw [isFd, isOdd_even]
            exact not_or.mpr ⟨by omega, Bool.false_ne_true⟩
          have agrees : ¬ (pair2.higher.fd ≠ -1 ∨ pair2.lower.fd ≠ pair.connectingFd) := by
            rw [isFd, isLower, isSingle]
            simp
          rw [acceptWait, isPair]
          dsimp only
          rw [if_neg waits, if_neg inOrder, isFd, pairOf_even, isPair2]
          dsimp only
          rw [← isFd, if_neg agrees]
        have reserved := dropped.reserved isPair
        have connects := dropped.connecting isPair
        have unqueued : Valid { state with
            fds := state.fds.set (pairOf fd) { pair with connectingFd := -1 } } :=
          dropped.set isPair (dropped.ends _ pair isPair) (dropped.single _ pair isPair)
            reserved connects (.inr rfl)
        obtain ⟨pair3, isPair3, sameLower, sameListening⟩ : ∃ pair3,
            (state.fds.set (pairOf fd) { pair with connectingFd := -1 })[j]? = some pair3 ∧
              pair3.lower.fd = j * 2 ∧ pair3.listening = false := by
          by_cases same : j = pairOf fd
          · subst same
            cases isPair.symm.trans isPair2
            exact ⟨_, List.getElem?_set_self free.inside, isLower, notListening⟩
          · exact ⟨pair2, (List.getElem?_set_ne (Ne.symm same)).trans isPair2, isLower, notListening⟩
        have notReserved : ¬ Reserved { state with
            fds := state.fds.set (pairOf fd) { pair with connectingFd := -1 } } j := by
          rintro (⟨k, other, isOther, isAlso⟩ | isPipe)
          · rcases getElem?_set_cases isOther with ⟨rfl, rfl⟩ | ⟨different, isOther⟩
            · have isNone : (-1 : Int) = j * 2 := isAlso
              omega
            · exact different (dropped.distinct k _ other pair isOther isPair
                (isAlso.trans isFd.symm) (by omega))
          · exact notPipe isPipe
        have out := unqueued.handOut ⟨free.1, pair3, isPair3, sameLower, sameListening⟩ notReserved
        have connected := out.connect isPair3 sameLower sameListening List.mem_cons_self
        have isOut : pairOf (pair2.lower.fd + 1) = j := by
          rw [isLower]
          unfold pairOf
          omega
        rw [isWait]
        dsimp only
        rw [isOut, modify_of_getElem? isPair3]
        exact connected.dump

theorem Valid.proceed {state : State} {call : Waiting}
    (valid : Valid { state with calls := call :: state.calls }) : Valid (state.proceed call) := by
  cases call with
  | pipe2 fd => exact valid.proceed_pipe2
  | connect fd1 => exact valid.proceed_connect
  | accept fd => exact valid.proceed_accept

/-!
## Steps
-/

/-- What `fakeSocketConnect` checks. -/
def Connectable (state : State) (fd1 fd2 : Int) : Prop :=
  0 ≤ fd1 ∧ 0 ≤ fd2 ∧ pairOf fd1 < state.fds.length ∧ pairOf fd1 ≠ pairOf fd2 ∧
    isOdd fd1 = false ∧ isOdd fd2 = false ∧
    ∃ pair, state.fds[pairOf fd2]? = some pair ∧ pair.listening = true ∧ pair.connectingFd = -1

/-- The step does not interfere with a connection or a pipe that is being made: the vector does
not move under a call that waits, a descriptor is not listened on or closed in the midst of it,
and only a pair is connected that is open, does not listen and was not connected before. -/
def Undisturbed (state : State) : Event → Prop
  | .socket moves => moves = true → state.calls = []
  | .pipe2 moves => moves = true → state.calls = []
  | .listen fd => 0 ≤ fd → isOdd fd = false → ¬ Reserved state (pairOf fd)
  | .connect fd1 fd2 => Connectable state fd1 fd2 →
      Free state (pairOf fd1) ∧ ¬ Reserved state (pairOf fd1)
  | .close fd => .connect fd ∉ state.calls ∧ .pipe2 fd ∉ state.calls
  | _ => True

instance (state : State) (j : Nat) : Decidable (Free state j) :=
  inferInstanceAs (Decidable (_ ∧ ∃ pair ∈ state.fds[j]?, pair.lower.fd = j * 2 ∧ _))

private theorem reserved_iff {state : State} {j : Nat} :
    (∃ pair ∈ state.fds, pair.connectingFd = j * 2) ∨ .pipe2 (j * 2) ∈ state.calls ↔
      Reserved state j := by
  refine or_congr_left ⟨?_, ?_⟩
  · rintro ⟨pair, isMember, isFd⟩
    obtain ⟨k, isPair⟩ := List.mem_iff_getElem?.mp isMember
    exact ⟨k, pair, isPair, isFd⟩
  · rintro ⟨k, pair, isPair, isFd⟩
    exact ⟨pair, List.mem_of_getElem? isPair, isFd⟩

instance (state : State) (j : Nat) : Decidable (Reserved state j) :=
  decidable_of_iff _ reserved_iff

instance (state : State) (fd1 fd2 : Int) : Decidable (Connectable state fd1 fd2) :=
  inferInstanceAs (Decidable (_ ∧ _ ∧ _ ∧ _ ∧ _ ∧ _ ∧
    ∃ pair ∈ state.fds[pairOf fd2]?, pair.listening = true ∧ _))

instance (state : State) (event : Event) : Decidable (Undisturbed state event) :=
  match event with
  | .socket _ | .pipe2 _ => inferInstanceAs (Decidable (_ → _))
  | .listen _ => inferInstanceAs (Decidable (_ → _ → ¬ _))
  | .connect _ _ => inferInstanceAs (Decidable (_ → _ ∧ ¬ _))
  | .close _ => inferInstanceAs (Decidable (_ ∧ _))
  | .accept _ | .dumpState | .resume _ => inferInstanceAs (Decidable True)

private theorem Valid.push {state : State} (valid : Valid state) :
    Valid { state with fds := (fakeSocketAllocate state.fds).2 } ∧
      Free { state with fds := (fakeSocketAllocate state.fds).2 } state.fds.length ∧
      ¬ Reserved { state with fds := (fakeSocketAllocate state.fds).2 } state.fds.length := by
  have isNew : (fakeSocketAllocate state.fds).2[state.fds.length]? =
      some { FakeSocketPair.create with
        lower := { FakeSocketEnd.create with fd := state.fds.length * 2 } } := by
    simp [fakeSocketAllocate]
  have isOld {k : Nat} (inside : k < state.fds.length) :
      (fakeSocketAllocate state.fds).2[k]? = state.fds[k]? :=
    List.getElem?_append_left inside
  have cases_ {k : Nat} {pair : FakeSocketPair}
      (isPair : (fakeSocketAllocate state.fds).2[k]? = some pair) :
      state.fds[k]? = some pair ∨ (k = state.fds.length ∧ pair.lower.fd = k * 2 ∧
        pair.higher.fd = -1 ∧ pair.connectingFd = -1) := by
    have bound := (List.getElem?_eq_some_iff.mp isPair).1
    simp only [fakeSocketAllocate, List.length_append, List.length_singleton] at bound
    by_cases inside : k < state.fds.length
    · exact .inl ((isOld inside).symm.trans isPair)
    · obtain rfl : k = state.fds.length := by omega
      cases isNew.symm.trans isPair
      exact .inr ⟨rfl, rfl, rfl, rfl⟩
  have stillFree {j : Nat} (free : Free state j) :
      Free { state with fds := (fakeSocketAllocate state.fds).2 } j := by
    obtain ⟨pair, isPair, holds⟩ := free.2
    exact ⟨free.1, pair, (isOld free.inside).trans isPair, holds⟩
  refine ⟨⟨valid.unbroken, valid.noStale, ?_, ?_, ?_, valid.once, ?_, ?_, ?_, valid.pipesOnce, ?_⟩,
    ⟨fun isOut => Nat.lt_irrefl _ (valid.inRange _ isOut), _, isNew, rfl, rfl⟩, ?_⟩
  · intro k pair isPair
    rcases cases_ isPair with isPair | ⟨-, isLower, isHigher, -⟩
    · exact valid.ends k pair isPair
    · exact ⟨.inr isLower, .inl isHigher⟩
  · intro k pair isPair notOut
    rcases cases_ isPair with isPair | ⟨-, -, isHigher, -⟩
    · exact valid.single k pair isPair notOut
    · exact isHigher
  · intro k isOut
    have inside := valid.inRange k isOut
    simp only [fakeSocketAllocate, List.length_append]
    omega
  · intro k pair isPair isQueued
    rcases cases_ isPair with isPair | ⟨-, -, -, notQueued⟩
    · obtain ⟨j, isFd, free, isCall⟩ := valid.queued k pair isPair isQueued
      exact ⟨j, isFd, stillFree free, isCall⟩
    · exact absurd notQueued isQueued
  · intro k l pair other isPair isOther same isQueued
    rcases cases_ isPair with isPair | ⟨-, -, -, notQueued⟩
    · rcases cases_ isOther with isOther | ⟨-, -, -, notQueued⟩
      · exact valid.distinct k l pair other isPair isOther same isQueued
      · exact absurd (same.trans notQueued) isQueued
    · exact absurd notQueued isQueued
  · intro fd isPipe
    obtain ⟨j, isFd, free⟩ := valid.pipes fd isPipe
    exact ⟨j, isFd, stillFree free⟩
  · intro fd isCall
    obtain ⟨j, pair, isFd, isPair, isLower⟩ := valid.connects fd isCall
    exact ⟨j, pair, isFd, (isOld (List.getElem?_eq_some_iff.mp isPair).1).trans isPair, isLower⟩
  · rintro (⟨k, pair, isPair, isFd⟩ | isPipe)
    · rcases cases_ isPair with isPair | ⟨-, -, -, notQueued⟩
      · exact Nat.lt_irrefl _ (valid.free (.inl ⟨k, pair, isPair, isFd⟩)).inside
      · have isNone : (-1 : Int) = state.fds.length * 2 := notQueued.symm.trans isFd
        omega
    · exact Nat.lt_irrefl _ (valid.free (.inr isPipe)).inside

/-- Where no call waits, it makes no difference that the vector moves. -/
private theorem allocate_eq {state : State} (valid : Valid state) {moves : Bool}
    (undisturbed : moves = true → state.calls = []) :
    state.allocate moves = { state with fds := (fakeSocketAllocate state.fds).2 } := by
  unfold State.allocate
  dsimp only
  cases moves with
  | false => rfl
  | true => simp [undisturbed rfl, valid.noStale]

private theorem Valid.pipe2 {state : State} (valid : Valid state) {j : Nat} (free : Free state j)
    (notReserved : ¬ Reserved state j) :
    Valid { state with calls := .pipe2 (j * 2) :: state.calls } := by
  refine ⟨valid.unbroken, valid.noStale, valid.ends, valid.single, valid.inRange, valid.once,
    ?_, valid.distinct, ?_, ?_, ?_⟩
  · intro i pair isPair isQueued
    obtain ⟨l, isFd, free, isCall, notPipe⟩ := valid.queued i pair isPair isQueued
    refine ⟨l, isFd, free, List.mem_cons_of_mem _ isCall, fun isPipe => ?_⟩
    rcases List.mem_cons.mp isPipe with isPipe | isPipe
    · injection isPipe with isSame
      exact notReserved (.inl ⟨i, pair, isPair, isFd.trans isSame⟩)
    · exact notPipe isPipe
  · intro fd isPipe
    rcases List.mem_cons.mp isPipe with isPipe | isPipe
    · injection isPipe with isSame
      exact ⟨j, isSame, free⟩
    · exact valid.pipes fd isPipe
  · intro fd
    rw [List.count_cons]
    split
    · next isPipe =>
        have isPipe : Waiting.pipe2 (j * 2) = .pipe2 fd := beq_iff_eq.mp isPipe
        have none := List.count_eq_zero.mpr (fun isOther => notReserved (.inr isOther))
        rw [← isPipe, none]
    · exact valid.pipesOnce fd
  · intro fd isCall
    rcases List.mem_cons.mp isCall with isCall | isCall
    · cases isCall
    · exact valid.connects fd isCall

/-- A connection is queued, and the call waits. -/
private theorem Valid.queue {state : State} (valid : Valid state) {i j : Nat}
    {pair : FakeSocketPair} (isPair : state.fds[i]? = some pair) (free : Free state j)
    (notReserved : ¬ Reserved state j) :
    Valid { state with
      fds := state.fds.set i { pair with connectingFd := j * 2 }
      calls := .connect (j * 2) :: state.calls } := by
  have inside : i < state.fds.length := (List.getElem?_eq_some_iff.mp isPair).1
  have stillPair {k : Nat} {other : FakeSocketPair} (isOther : state.fds[k]? = some other) :
      ∃ next, (state.fds.set i { pair with connectingFd := j * 2 })[k]? = some next ∧
        next.lower = other.lower ∧ next.listening = other.listening := by
    by_cases same : k = i
    · subst same
      cases isPair.symm.trans isOther
      exact ⟨_, List.getElem?_set_self inside, rfl, rfl⟩
    · exact ⟨other, (List.getElem?_set_ne (Ne.symm same)).trans isOther, rfl, rfl⟩
  have stillFree {k : Nat} (free : Free state k) :
      Free { state with
        fds := state.fds.set i { pair with connectingFd := j * 2 }
        calls := .connect (j * 2) :: state.calls } k := by
    obtain ⟨notOut, other, isOther, isLower, notListening⟩ := free
    obtain ⟨next, isNext, sameLower, sameListening⟩ := stillPair isOther
    exact ⟨notOut, next, isNext, sameLower ▸ isLower, sameListening ▸ notListening⟩
  have notAlso {k : Nat} {other : FakeSocketPair} (isOther : state.fds[k]? = some other) :
      other.connectingFd ≠ j * 2 := fun isAlso => notReserved (.inl ⟨k, other, isOther, isAlso⟩)
  refine ⟨valid.unbroken, valid.noStale, ?_, ?_, ?_, valid.once, ?_, ?_, ?_, ?_, ?_⟩
  · intro k other isOther
    rcases getElem?_set_cases isOther with ⟨rfl, rfl⟩ | ⟨-, isOther⟩
    · exact valid.ends k pair isPair
    · exact valid.ends k other isOther
  · intro k other isOther notOut
    rcases getElem?_set_cases isOther with ⟨rfl, rfl⟩ | ⟨-, isOther⟩
    · exact valid.single k pair isPair notOut
    · exact valid.single k other isOther notOut
  · intro k isOut
    have inRange := valid.inRange k isOut
    rwa [← List.length_set (i := i) (a := { pair with connectingFd := j * 2 })] at inRange
  · intro k other isOther isQueued
    rcases getElem?_set_cases isOther with ⟨rfl, rfl⟩ | ⟨-, isOther⟩
    · exact ⟨j, rfl, stillFree free, List.mem_cons_self, fun isPipe => notReserved
        (.inr ((List.mem_cons.mp isPipe).resolve_left nofun))⟩
    · obtain ⟨l, isFd, free, isCall, notPipe⟩ := valid.queued k other isOther isQueued
      exact ⟨l, isFd, stillFree free, List.mem_cons_of_mem _ isCall, fun isPipe => notPipe
        ((List.mem_cons.mp isPipe).resolve_left nofun)⟩
  · intro k l other another isOther isAnother same isQueued
    rcases getElem?_set_cases isOther with ⟨rfl, rfl⟩ | ⟨-, isOld⟩
    · rcases getElem?_set_cases isAnother with ⟨rfl, rfl⟩ | ⟨-, isOlder⟩
      · rfl
      · exact absurd same.symm (notAlso isOlder)
    · rcases getElem?_set_cases isAnother with ⟨rfl, rfl⟩ | ⟨-, isOlder⟩
      · exact absurd same (notAlso isOld)
      · exact valid.distinct k l other another isOld isOlder same isQueued
  · intro fd isPipe
    obtain ⟨l, isFd, free⟩ := valid.pipes fd ((List.mem_cons.mp isPipe).resolve_left nofun)
    exact ⟨l, isFd, stillFree free⟩
  · intro fd
    have isOther : Waiting.connect (j * 2) ≠ .pipe2 fd := nofun
    rw [List.count_cons_of_ne isOther]
    exact valid.pipesOnce fd
  · intro fd isCall
    rcases List.mem_cons.mp isCall with isCall | isCall
    · injection isCall with isSame
      obtain ⟨-, other, isOther, isLower, -⟩ := free
      obtain ⟨next, isNext, sameLower, -⟩ := stillPair isOther
      exact ⟨j, next, isSame, isNext, sameLower ▸ isLower⟩
    · obtain ⟨l, other, isFd, isOther, isLower⟩ := valid.connects fd isCall
      obtain ⟨next, isNext, sameLower, -⟩ := stillPair isOther
      exact ⟨l, next, isFd, isNext, sameLower ▸ isLower⟩

private theorem descriptor_even (j : Nat) : descriptor j false = j * 2 := by
  simp [descriptor, Int.mul_comm]

/-- A call on a pair that is valid behind it. -/
private theorem Valid.called {Answer : Type} {state : State} (valid : Valid state) {fd : Int}
    {call : FakeSocketPair → Bool → Except Failure Answer × FakeSocketPair}
    (called : ∀ (i : Nat) (K : Bool) (pair : FakeSocketPair), fd = descriptor i K →
      state.fds[i]? = some pair → Valid { state with fds := state.fds.set i (call pair K).2 }) :
    Valid { state with fds := (FakeSocket.onPair state.fds fd call).2 } := by
  unfold FakeSocket.onPair
  split
  · exact valid
  · next nonneg =>
      split
      · exact valid
      · next pair isPair =>
          exact called _ _ pair (descriptor_eq (Int.not_lt.mp nonneg)).symm isPair

private theorem Valid.same {state : State} (valid : Valid state) {i : Nat} {pair : FakeSocketPair}
    (isPair : state.fds[i]? = some pair) :
    Valid { state with fds := state.fds.set i pair } :=
  valid.set isPair (valid.ends i pair isPair) (valid.single i pair isPair) (valid.reserved isPair)
    (valid.connecting isPair) (.inl rfl)

private theorem Valid.listen {state : State} (valid : Valid state) {fd : Int}
    (undisturbed : Undisturbed state (.listen fd)) :
    Valid { state with fds := (fakeSocketListen state.fds fd).2 } := by
  refine valid.called fun i K pair isFd isPair => ?_
  unfold FakeSocketPair.listen
  split
  · exact valid.same isPair
  · split
    · exact valid.same isPair
    · next single =>
        split
        · exact valid.same isPair
        · obtain ⟨notOdd, isSingle⟩ := not_or.mp single
          have isSingle : pair.higher.fd = -1 := not_not.mp isSingle
          obtain rfl : K = false := Bool.not_eq_true _ ▸ notOdd
          have notReserved := undisturbed (isFd ▸ descriptor_nonneg i false)
            (isFd ▸ isOdd_descriptor i false)
          rw [isFd, pairOf_descriptor] at notReserved
          have connects := valid.connecting isPair
          exact valid.set isPair ⟨(valid.ends i pair isPair).1, .inl isSingle⟩ (fun _ => isSingle)
            (fun reserved => absurd reserved notReserved) connects (.inr rfl)

private theorem Valid.close {state : State} (valid : Valid state) {fd : Int}
    (undisturbed : Undisturbed state (.close fd)) :
    Valid { state with fds := (fakeSocketClose state.fds fd).2 } := by
  refine valid.called fun i K pair isFd isPair => ?_
  obtain ⟨isLower, isHigher⟩ := valid.ends i pair isPair
  have reserved := valid.reserved isPair
  have connects := valid.connecting isPair
  unfold FakeSocketPair.close
  split
  · exact valid.same isPair
  · split
    · exact valid.same isPair
    · obtain ⟨notConnecting, notPipe⟩ := undisturbed
      cases K with
      | true =>
          exact valid.set isPair ⟨isLower, .inl rfl⟩ (fun _ => rfl) reserved connects (.inl rfl)
      | false =>
          rw [isFd, descriptor_even] at notConnecting notPipe
          have notReserved : ¬ Reserved state i := by
            rintro (⟨k, other, isOther, isAlso⟩ | isPipe)
            · have isQueued : other.connectingFd ≠ -1 := by omega
              obtain ⟨l, isLow, -, isCall, -⟩ := valid.queued k other isOther isQueued
              rw [← isLow, isAlso] at isCall
              exact notConnecting isCall
            · exact notPipe isPipe
          exact valid.set isPair ⟨.inl rfl, isHigher⟩ (valid.single i pair isPair)
            (fun reserved => absurd reserved notReserved)
            (fun isCall => absurd isCall notConnecting) (.inl rfl)

private theorem Valid.close_error {state : State} (valid : Valid state) (fd : Int) :
    (fakeSocketClose state.fds fd).1 ≠ .error .assertion := by
  unfold fakeSocketClose
  by_cases isNegative : fd < 0
  · simp [onPair, isNegative]
  · have isFd := descriptor_eq (Int.not_lt.mp isNegative)
    cases isPair : state.fds[pairOf fd]? with
    | none => simp [onPair, isNegative, isPair]
    | some pair =>
        rw [← isFd, onPair_descriptor isPair, isFd]
        obtain ⟨isLower, isHigher⟩ := valid.ends _ pair isPair
        unfold FakeSocketPair.close
        dsimp only
        split
        · intro same
          cases same
        · next isOpen =>
            have isOwn : (pair.side (isOdd fd)).fd = fd := by
              cases odd : isOdd fd with
              | false =>
                  rw [odd] at isOpen isFd
                  rw [← isFd, descriptor_even]
                  exact isLower.resolve_left isOpen
              | true =>
                  rw [odd] at isOpen isFd
                  rw [← isFd]
                  exact (isHigher.resolve_left isOpen).1.trans (by simp [descriptor, Int.mul_comm])
            rw [if_neg (not_not_intro isOwn)]
            intro same
            cases same

private theorem connectable {state : State} {fd1 fd2 : Int} {fds : List FakeSocketPair}
    (isOk : fakeSocketConnect state.fds fd1 fd2 = (.ok (), fds)) :
    Connectable state fd1 fd2 ∧ ∃ pair, state.fds[pairOf fd2]? = some pair ∧
      fds = state.fds.set (pairOf fd2) { pair with connectingFd := fd1 } := by
  unfold fakeSocketConnect at isOk
  split at isOk
  · cases isOk
  · next inRange =>
      split at isOk
      · cases isOk
      · next different =>
          split at isOk
          · cases isOk
          · next lower =>
              obtain ⟨nonneg1, nonneg2, inside1, inside2⟩ : 0 ≤ fd1 ∧ 0 ≤ fd2 ∧
                  pairOf fd1 < state.fds.length ∧ pairOf fd2 < state.fds.length := by
                omega
              obtain ⟨isLower1, isLower2⟩ := not_or.mp lower
              have isLower1 : isOdd fd1 = false := Bool.not_eq_true _ ▸ isLower1
              have isLower2 : isOdd fd2 = false := Bool.not_eq_true _ ▸ isLower2
              have isPair := List.getElem?_eq_getElem inside2
              have isFd := descriptor_eq nonneg2
              rw [← isFd, onPair_descriptor isPair] at isOk
              by_cases refused : state.fds[pairOf fd2].listening = false ∨
                  state.fds[pairOf fd2].connectingFd ≠ -1
              · rw [if_pos refused] at isOk
                cases isOk
              · rw [if_neg refused] at isOk
                obtain ⟨isListening, isIdle⟩ := not_or.mp refused
                cases isOk
                exact ⟨⟨nonneg1, nonneg2, inside1, different, isLower1, isLower2, _, isPair,
                  Bool.not_eq_false _ ▸ isListening, not_not.mp isIdle⟩, _, isPair, rfl⟩

/-- Threads take their turns in any order. -/
private theorem Valid.perm {state : State} (valid : Valid state) {calls : List Waiting}
    (perm : state.calls.Perm calls) : Valid { state with calls } := by
  refine ⟨valid.unbroken, valid.noStale, valid.ends, valid.single, valid.inRange, valid.once,
    ?_, valid.distinct, ?_, ?_, ?_⟩
  · intro i pair isPair isQueued
    obtain ⟨j, isFd, free, isCall, notPipe⟩ := valid.queued i pair isPair isQueued
    exact ⟨j, isFd, free, perm.mem_iff.mp isCall, fun isPipe => notPipe (perm.mem_iff.mpr isPipe)⟩
  · exact fun fd isPipe => valid.pipes fd (perm.mem_iff.mpr isPipe)
  · exact fun fd => perm.count_eq (.pipe2 fd) ▸ valid.pipesOnce fd
  · exact fun fd isCall => valid.connects fd (perm.mem_iff.mpr isCall)

private theorem Valid.accept {state : State} (valid : Valid state) (fd : Int) :
    Valid { state with calls := .accept fd :: state.calls } := by
  refine ⟨valid.unbroken, valid.noStale, valid.ends, valid.single, valid.inRange, valid.once,
    ?_, valid.distinct, ?_, ?_, ?_⟩
  · intro i pair isPair isQueued
    obtain ⟨j, isFd, free, isCall, notPipe⟩ := valid.queued i pair isPair isQueued
    exact ⟨j, isFd, free, List.mem_cons_of_mem _ isCall,
      fun isPipe => notPipe ((List.mem_cons.mp isPipe).resolve_left nofun)⟩
  · exact fun other isPipe => valid.pipes other ((List.mem_cons.mp isPipe).resolve_left nofun)
  · intro other
    have different : Waiting.accept fd ≠ .pipe2 other := nofun
    rw [List.count_cons_of_ne different]
    exact valid.pipesOnce other
  · exact fun other isCall => valid.connects other ((List.mem_cons.mp isCall).resolve_left nofun)

/-- A step that does not interfere with what the others are about. -/
theorem Valid.step {state : State} (valid : Valid state) {event : Event}
    (undisturbed : Undisturbed state event) : Valid (state.step event) := by
  unfold State.step
  rw [if_neg (Bool.not_eq_true _ ▸ valid.unbroken)]
  cases event with
  | socket moves =>
      dsimp only
      rw [allocate_eq valid undisturbed]
      exact valid.push.1
  | pipe2 moves =>
      dsimp only
      rw [allocate_eq valid undisturbed]
      obtain ⟨pushed, free, notReserved⟩ := valid.push
      exact pushed.pipe2 free notReserved
  | listen fd => exact valid.listen undisturbed
  | connect fd1 fd2 =>
      dsimp only
      split
      · next fds isOk =>
          obtain ⟨connectable, pair, isPair, rfl⟩ := connectable isOk
          have isFd := descriptor_eq connectable.1
          rw [connectable.2.2.2.2.1, descriptor_even] at isFd
          obtain ⟨free, notReserved⟩ := undisturbed connectable
          have queued := valid.queue isPair free notReserved
          rw [isFd] at queued
          exact queued.proceed
      · exact valid
  | accept fd =>
      dsimp only
      split
      · exact (valid.accept fd).proceed
      · exact valid
  | close fd =>
      dsimp only
      have isClosed := valid.close undisturbed
      have noAssertion := valid.close_error fd
      split
      · next fds isOk =>
          rw [isOk] at isClosed
          exact isClosed.dump
      · next fds isError =>
          rw [isError] at noAssertion
          exact absurd rfl noAssertion
      · exact valid
  | dumpState => exact valid.dump
  | resume call =>
      dsimp only
      split
      · next isStale =>
          rw [valid.noStale] at isStale
          cases isStale
      · split
        · next isCall => exact (valid.perm (List.perm_cons_erase isCall)).proceed
        · exact valid

/-!
## Runs
-/

/-- Threads that do not interfere with a connection or a pipe in the making never see an
assertion fail, and no pair of ends is handed out twice. -/
theorem connections_hold {events : List Event}
    (permitted : Permitted State.step Undisturbed .create events) :
    (run State.step .create events).broken = false ∧
      (run State.step .create events).handedOut.Nodup := by
  have valid := run_invariant Valid (fun _ _ valid => valid.step) valid_create permitted
  exact ⟨valid.unbroken, valid.once⟩

theorem connections_hold_pair :
    (run State.step .create [.socket false, .socket true, .listen 0, .connect 2 0, .pipe2 false,
      .accept 0, .resume (.pipe2 4), .resume (.connect 2), .close 2, .close 3]).broken = false ∧
    (run State.step .create [.socket false, .socket true, .listen 0, .connect 2 0, .pipe2 false,
      .accept 0, .resume (.pipe2 4), .resume (.connect 2), .close 2, .close 3]).handedOut.Nodup :=
  connections_hold (by decide +kernel)

/-- A socket that was closed is still taken for a connection. -/
theorem not_connections_hold : ¬ ∀ events : List Event,
    (run State.step .create events).broken = false ∧
      (run State.step .create events).handedOut.Nodup := by
  intro always
  have isBroken := (always [.socket false, .socket false, .listen 0, .close 2, .connect 2 0,
    .accept 0]).1
  revert isBroken
  decide

end FreeOnline.Net.FakeSocket
