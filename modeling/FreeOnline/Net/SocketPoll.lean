import FreeOnline.Library.Rounds
import FreeOnline.Library.Run
import Mathlib.Data.List.Perm.Basic

/-!
# Polling of sockets

The thread of a poll waits for events of its sockets and of a pipe over which other threads wake
it, who leave new sockets and callbacks for it. A step is what one thread does under the mutex, one
system call, or one part of the loop.
-/

set_option autoImplicit false

namespace FreeOnline.Net

open FreeOnline.Library

universe u v

structure Pollfd where
  fd : Int
  revents : Nat
deriving DecidableEq

/-- `wakeupPipe` has the number of bytes that are in the pipe. -/
structure SocketPoll (Socket : Type u) (Callback : Type v) where
  pollSockets : List Socket
  pollStartIndex : Nat
  newSockets : List Socket
  newCallbacks : List Callback
  wakeupPipe : Nat
  stop : Bool

namespace SocketPoll

variable {Socket : Type u} {Callback : Type v}

/-- What fits into a pipe. A write to a full one fails, which is no error here. -/
def pipeCapacity : Nat := 65536

/-- The buffer into which the pipe is read. -/
def dumpSize : Nat := 128

variable (poll : SocketPoll Socket Callback)

def wakeup : SocketPoll Socket Callback :=
  { poll with
    wakeupPipe := if poll.wakeupPipe < pipeCapacity then poll.wakeupPipe + 1 else poll.wakeupPipe }

def insertNewSocket (newSocket : Socket) : SocketPoll Socket Callback :=
  { poll with newSockets := poll.newSockets ++ [newSocket] }.wakeup

def addCallback (fn : Callback) : SocketPoll Socket Callback :=
  let wasEmpty := poll.newCallbacks.isEmpty
  let added := { poll with newCallbacks := poll.newCallbacks ++ [fn] }
  if wasEmpty then added.wakeup else added

def removeSockets : SocketPoll Socket Callback :=
  { poll with pollSockets := [], newSockets := [] }

/-- The sockets come to those that are polled, and the callbacks are left to be invoked. -/
def takeNew : List Callback × SocketPoll Socket Callback :=
  (poll.newCallbacks,
    { poll with
      pollSockets := poll.pollSockets ++ poll.newSockets, newSockets := [], newCallbacks := [] })

def setupPollFds (getFD : Socket → Int) : List Pollfd :=
  poll.pollSockets.map fun socket => ⟨getFD socket, 0⟩

def sortDescending (places : List Nat) : List Nat :=
  places.mergeSort fun a b => decide (a ≥ b)

/-- The sockets whose `handlePoll` is called, with their index and events. -/
def handled (getFD : Socket → Int) (pollFds : List Pollfd) (start : Nat) :
    List (Nat × Socket × Nat) :=
  (backwards pollFds.length pollFds.length start).filterMap fun i =>
    match pollFds[i]?, poll.pollSockets[i]? with
    | some pollFd, some socket =>
        if pollFd.fd = getFD socket then some (i, socket, pollFd.revents) else none
    | _, _ => none

/-- The loop over the sockets. `isContinue` says at which index the disposition is to go on. -/
def handleSockets (getFD : Socket → Int) (pollFds : List Pollfd) (isContinue : Nat → Bool) :
    List (Nat × Socket × Nat) × SocketPoll Socket Callback :=
  if pollFds.length > 0 then
    let start := nextStart pollFds.length poll.pollStartIndex
    let handled := poll.handled getFD pollFds start
    let toErase := (handled.map Prod.fst).filter fun i => !isContinue i
    (handled,
      { poll with
        pollStartIndex := start
        pollSockets := eraseAll (sortDescending toErase) poll.pollSockets })
  else ([], poll)

end SocketPoll

/-- Where the polling thread is. -/
inductive PollPhase (Callback : Type v) where
  /-- At the head of its loop. -/
  | checking
  /-- In `ppoll`. -/
  | polling (pollFds : List Pollfd)
  | polled (pollFds : List Pollfd) (woken : Bool)
  /-- The pipe is read, and the mutex not yet taken. -/
  | drained (pollFds : List Pollfd)
  | invoking (pollFds : List Pollfd) (invoke : List Callback)
  | handling (pollFds : List Pollfd)
  | finished

namespace PollPhase

variable {Callback : Type v}

def pollFds : PollPhase Callback → Option (List Pollfd)
  | .checking | .finished => none
  | .polling pollFds | .polled pollFds _ | .drained pollFds | .invoking pollFds _
  | .handling pollFds => some pollFds

/-- The callbacks that are taken and not yet invoked. -/
def invoke : PollPhase Callback → List Callback
  | .invoking _ invoke => invoke
  | .checking | .polling _ | .polled _ _ | .drained _ | .handling _ | .finished => []

/-- Between the read of the pipe and the look at what is new. -/
def isDrained : PollPhase Callback → Bool
  | .drained _ => true
  | .checking | .polling _ | .polled _ _ | .invoking _ _ | .handling _ | .finished => false

def isPolling : PollPhase Callback → Bool
  | .polling _ => true
  | .checking | .polled _ _ | .drained _ | .invoking _ _ | .handling _ | .finished => false

end PollPhase

/-- One call of `poll`: each socket that was polled, with its index and its events, and those
whose `handlePoll` was called. -/
structure PollRound (Socket : Type u) where
  polled : List (Nat × Socket × Nat)
  handled : List (Nat × Socket × Nat)
deriving DecidableEq

/-- A poll with its thread. All but these two is not in the code: what was left for the thread and
what it did, the sockets of the call under way, and whether a stop is still to wake the thread. -/
structure PollThread (Socket : Type u) (Callback : Type v) where
  poll : SocketPoll Socket Callback
  phase : PollPhase Callback
  added : List Callback
  invoked : List Callback
  inserted : List Socket
  removed : List Socket
  polled : List Socket
  rounds : List (PollRound Socket)
  stopping : Bool

inductive PollEvent (Socket : Type u) (Callback : Type v) where
  | insertNewSocket (newSocket : Socket)
  | addCallback (fn : Callback)
  | wakeup
  /-- The first half of `stop`. The second one is a wake-up. -/
  | setStop
  /-- The polling thread checks whether to go on. -/
  | continuePolling
  | ppoll (revents : Nat → Nat)
  | readPipe
  | takeNew
  | invoke
  | handleSockets (isContinue : Nat → Bool)

namespace PollThread

variable {Socket : Type u} {Callback : Type v}

def start : PollThread Socket Callback where
  poll := ⟨[], 0, [], [], 0, false⟩
  phase := .checking
  added := []
  invoked := []
  inserted := []
  removed := []
  polled := []
  rounds := []
  stopping := false

def entry (pollFds : List Pollfd) (i : Nat) (socket : Socket) : Nat × Socket × Nat :=
  (i, socket, (pollFds[i]?.map Pollfd.revents).getD 0)

/-- A step of the thread in another phase does not happen. -/
def step (getFD : Socket → Int) (thread : PollThread Socket Callback) :
    PollEvent Socket Callback → PollThread Socket Callback
  | .insertNewSocket newSocket =>
      { thread with
        poll := thread.poll.insertNewSocket newSocket
        inserted := thread.inserted ++ [newSocket] }
  | .addCallback fn =>
      { thread with poll := thread.poll.addCallback fn, added := thread.added ++ [fn] }
  | .wakeup => { thread with poll := thread.poll.wakeup, stopping := false }
  | .setStop => { thread with poll := { thread.poll with stop := true }, stopping := true }
  | .continuePolling =>
      match thread.phase with
      | .checking =>
          if thread.poll.stop then
            { thread with
              poll := thread.poll.removeSockets
              phase := .finished
              removed := thread.removed ++ (thread.poll.pollSockets ++ thread.poll.newSockets) }
          else
            { thread with
              phase := .polling (thread.poll.setupPollFds getFD)
              polled := thread.poll.pollSockets }
      | _ => thread
  | .ppoll revents =>
      match thread.phase with
      | .polling pollFds =>
          { thread with
            phase := .polled (pollFds.mapIdx fun i pollFd => { pollFd with revents := revents i })
              (thread.poll.wakeupPipe > 0) }
      | _ => thread
  | .readPipe =>
      match thread.phase with
      | .polled pollFds true =>
          { thread with
            poll := { thread.poll with
              wakeupPipe := thread.poll.wakeupPipe - SocketPoll.dumpSize }
            phase := .drained pollFds }
      | .polled pollFds false => { thread with phase := .handling pollFds }
      | _ => thread
  | .takeNew =>
      match thread.phase with
      | .drained pollFds =>
          let (invoke, poll) := thread.poll.takeNew
          { thread with poll, phase := .invoking pollFds invoke }
      | _ => thread
  | .invoke =>
      match thread.phase with
      | .invoking pollFds (callback :: invoke) =>
          { thread with
            phase := .invoking pollFds invoke, invoked := thread.invoked ++ [callback] }
      | .invoking pollFds [] => { thread with phase := .handling pollFds }
      | _ => thread
  | .handleSockets isContinue =>
      match thread.phase with
      | .handling pollFds =>
          let (handled, poll) := thread.poll.handleSockets getFD pollFds isContinue
          { thread with
            poll
            phase := .checking
            removed := thread.removed ++
              handled.filterMap fun entry => if isContinue entry.1 then none else some entry.2.1
            rounds := thread.rounds ++
              [⟨thread.polled.mapIdx (entry pollFds), handled⟩] }
      | _ => thread

end PollThread

/-!
## Callbacks and wake-ups
-/

namespace SocketPoll

variable {Socket : Type u} {Callback : Type v} {poll : SocketPoll Socket Callback}

theorem wakeupPipe_wakeup (poll : SocketPoll Socket Callback) : 0 < poll.wakeup.wakeupPipe := by
  rw [wakeup]
  dsimp only
  split
  · exact Nat.succ_pos _
  · next isFull => exact Nat.lt_of_lt_of_le (by decide) (Nat.not_lt.mp isFull)

theorem newCallbacks_addCallback (poll : SocketPoll Socket Callback) (fn : Callback) :
    (poll.addCallback fn).newCallbacks = poll.newCallbacks ++ [fn] := by
  rw [addCallback]
  split <;> rfl

theorem newSockets_addCallback (poll : SocketPoll Socket Callback) (fn : Callback) :
    (poll.addCallback fn).newSockets = poll.newSockets := by
  rw [addCallback]
  split <;> rfl

theorem stop_addCallback (poll : SocketPoll Socket Callback) (fn : Callback) :
    (poll.addCallback fn).stop = poll.stop := by
  rw [addCallback]
  split <;> rfl

theorem pollSockets_addCallback (poll : SocketPoll Socket Callback) (fn : Callback) :
    (poll.addCallback fn).pollSockets = poll.pollSockets := by
  rw [addCallback]
  split <;> rfl

theorem pollStartIndex_addCallback (poll : SocketPoll Socket Callback) (fn : Callback) :
    (poll.addCallback fn).pollStartIndex = poll.pollStartIndex := by
  rw [addCallback]
  split <;> rfl

theorem wakeupPipe_addCallback (poll : SocketPoll Socket Callback) (fn : Callback) :
    0 < (poll.addCallback fn).wakeupPipe ∨
      (poll.newCallbacks ≠ [] ∧ (poll.addCallback fn).wakeupPipe = poll.wakeupPipe) := by
  rw [addCallback]
  split
  · exact .inl (wakeupPipe_wakeup _)
  · next notEmpty => exact .inr ⟨fun isEmpty => notEmpty (isEmpty ▸ rfl), rfl⟩

/-- Something was left for the thread. -/
def HasNew (poll : SocketPoll Socket Callback) : Prop :=
  poll.newCallbacks ≠ [] ∨ poll.newSockets ≠ []

/-- A callback that does not wake the thread finds another one that did. -/
theorem awake_addCallback (awake : poll.HasNew → 0 < poll.wakeupPipe) (fn : Callback) :
    0 < (poll.addCallback fn).wakeupPipe := by
  obtain isAwake | ⟨notEmpty, same⟩ := poll.wakeupPipe_addCallback fn
  · exact isAwake
  · rw [same]
    exact awake (.inl notEmpty)

/-- The pipe does not get empty but by a read. -/
theorem wakeupPipe_addCallback_of_pos (isAwake : 0 < poll.wakeupPipe) (fn : Callback) :
    0 < (poll.addCallback fn).wakeupPipe :=
  awake_addCallback (fun _ => isAwake) fn

end SocketPoll

namespace PollThread

variable {Socket : Type u} {Callback : Type v} {getFD : Socket → Int}
  {thread : PollThread Socket Callback}

/-- What holds of the callbacks and the wake-ups after all steps. -/
structure Awake (thread : PollThread Socket Callback) : Prop where
  inOrder : thread.invoked ++ (thread.phase.invoke ++ thread.poll.newCallbacks) = thread.added
  awake : thread.phase.isDrained = false → thread.poll.HasNew → 0 < thread.poll.wakeupPipe
  stops : thread.phase.isPolling = true → thread.poll.stop = true →
    0 < thread.poll.wakeupPipe ∨ thread.stopping = true

theorem Awake.step (awake : Awake thread) (event : PollEvent Socket Callback) :
    Awake (thread.step getFD event) := by
  obtain ⟨inOrder, isAwake, stops⟩ := awake
  cases event with
  | insertNewSocket newSocket =>
      exact ⟨inOrder, fun _ _ => SocketPoll.wakeupPipe_wakeup _,
        fun _ _ => .inl (SocketPoll.wakeupPipe_wakeup _)⟩
  | addCallback fn =>
      refine ⟨?_, fun notDrained _ => SocketPoll.awake_addCallback (isAwake notDrained) fn, ?_⟩
      · dsimp only [PollThread.step]
        rw [SocketPoll.newCallbacks_addCallback, ← inOrder, List.append_assoc, List.append_assoc]
      · intro isPolling isStop
        rw [PollThread.step] at isPolling isStop ⊢
        dsimp only at isPolling isStop ⊢
        rw [SocketPoll.stop_addCallback] at isStop
        exact (stops isPolling isStop).imp_left
          fun isAwake => SocketPoll.wakeupPipe_addCallback_of_pos isAwake fn
  | wakeup =>
      exact ⟨inOrder, fun _ _ => SocketPoll.wakeupPipe_wakeup _,
        fun _ _ => .inl (SocketPoll.wakeupPipe_wakeup _)⟩
  | setStop => exact ⟨inOrder, isAwake, fun _ _ => .inr rfl⟩
  | continuePolling =>
      unfold PollThread.step
      dsimp only
      split
      · next isChecking =>
          rw [isChecking] at inOrder isAwake
          split
          · next isStop =>
              refine ⟨inOrder, fun _ hasNew => isAwake rfl (.inl ?_), nofun⟩
              exact hasNew.resolve_right fun notEmpty => notEmpty rfl
          · next goesOn =>
              exact ⟨inOrder, fun _ => isAwake rfl, fun _ isStop => absurd isStop goesOn⟩
      · exact ⟨inOrder, isAwake, stops⟩
  | ppoll revents =>
      unfold PollThread.step
      dsimp only
      split
      · next pollFds isPolling =>
          rw [isPolling] at inOrder isAwake
          exact ⟨inOrder, fun _ => isAwake rfl, nofun⟩
      · exact ⟨inOrder, isAwake, stops⟩
  | readPipe =>
      unfold PollThread.step
      dsimp only
      split
      · next pollFds isPolled =>
          rw [isPolled] at inOrder
          exact ⟨inOrder, nofun, nofun⟩
      · next pollFds isPolled =>
          rw [isPolled] at inOrder isAwake
          exact ⟨inOrder, fun _ => isAwake rfl, nofun⟩
      · exact ⟨inOrder, isAwake, stops⟩
  | takeNew =>
      unfold PollThread.step
      dsimp only
      split
      · next pollFds isDrained =>
          rw [isDrained] at inOrder
          refine ⟨?_, ?_, nofun⟩
          · rw [← inOrder]
            exact congrArg (thread.invoked ++ ·) (List.append_nil _)
          · rintro - (notEmpty | notEmpty)
            · exact absurd rfl notEmpty
            · exact absurd rfl notEmpty
      · exact ⟨inOrder, isAwake, stops⟩
  | invoke =>
      unfold PollThread.step
      dsimp only
      split
      · next pollFds callback invoke isInvoking =>
          rw [isInvoking] at inOrder isAwake
          refine ⟨?_, fun _ => isAwake rfl, nofun⟩
          rw [← inOrder]
          exact List.append_assoc _ _ _
      · next pollFds isInvoking =>
          rw [isInvoking] at inOrder isAwake
          exact ⟨inOrder, fun _ => isAwake rfl, nofun⟩
      · exact ⟨inOrder, isAwake, stops⟩
  | handleSockets isContinue =>
      unfold PollThread.step
      dsimp only
      split
      · next pollFds isHandling =>
          rw [isHandling] at inOrder isAwake
          rw [SocketPoll.handleSockets]
          split
          · exact ⟨inOrder, fun _ => isAwake rfl, nofun⟩
          · exact ⟨inOrder, fun _ => isAwake rfl, nofun⟩
      · exact ⟨inOrder, isAwake, stops⟩

/-- In every run the callbacks are invoked in the order in which they were added, each once, and
the thread does not go to sleep over something that was left for it, nor over a stop. -/
theorem run_awake (getFD : Socket → Int) (events : List (PollEvent Socket Callback)) :
    let thread := run (step getFD) start events
    thread.invoked ++ (thread.phase.invoke ++ thread.poll.newCallbacks) = thread.added ∧
      (thread.phase.isPolling = true →
        (thread.poll.HasNew → 0 < thread.poll.wakeupPipe) ∧
          (thread.poll.stop = true → 0 < thread.poll.wakeupPipe ∨ thread.stopping = true)) := by
  have awake : Awake (run (step getFD) start events) :=
    run_invariant Awake (fun _ event awake _ => awake.step event)
      ⟨rfl, fun _ hasNew => absurd hasNew (by simp [SocketPoll.HasNew, start]), nofun⟩
      (@permitted_of_forall _ _ (step getFD) (fun _ _ => True) (fun _ _ => trivial) start events)
  refine ⟨awake.inOrder, fun isPolling => ⟨awake.awake ?_, awake.stops isPolling⟩⟩
  cases isPhase : (run (step getFD) start events).phase with
  | drained pollFds => cases isPhase ▸ isPolling
  | checking => rfl
  | polling pollFds => rfl
  | polled pollFds woken => rfl
  | invoking pollFds invoke => rfl
  | handling pollFds => rfl
  | finished => rfl

end PollThread

/-!
## Sockets
-/

namespace SocketPoll

variable {Socket : Type u} {Callback : Type v} {poll : SocketPoll Socket Callback}
  {getFD : Socket → Int} {pollFds : List Pollfd} {polled : List Socket}

/-- The sockets of a call are still in their places. -/
structure IsSetup (poll : SocketPoll Socket Callback) (getFD : Socket → Int)
    (pollFds : List Pollfd) (polled : List Socket) : Prop where
  inPlace : polled <+: poll.pollSockets
  isFds : pollFds.map Pollfd.fd = polled.map getFD

theorem IsSetup.length_eq (isSetup : poll.IsSetup getFD pollFds polled) :
    pollFds.length = polled.length := by
  have lengths := congrArg List.length isSetup.isFds
  rwa [List.length_map, List.length_map] at lengths

theorem isSetup_setupPollFds (poll : SocketPoll Socket Callback) (getFD : Socket → Int) :
    poll.IsSetup getFD (poll.setupPollFds getFD) poll.pollSockets where
  inPlace := List.prefix_refl _
  isFds := by
    rw [setupPollFds, List.map_map]
    rfl

/-- At each place that was polled the socket is found that was polled there. -/
theorem handled_eq (isSetup : poll.IsSetup getFD pollFds polled) {start : Nat}
    (inside : start < polled.length) :
    poll.handled getFD pollFds start =
      (backwards polled.length polled.length start).filterMap fun i =>
        (polled.mapIdx (PollThread.entry pollFds))[i]? := by
  rw [handled, isSetup.length_eq]
  refine List.filterMap_congr fun i member => ?_
  have isPlace : i < polled.length := List.mem_range.mp ((backwards_perm inside).subset member)
  have isPolled : polled[i]? = some polled[i] := List.getElem?_eq_getElem isPlace
  have isSocket : poll.pollSockets[i]? = some polled[i] := by
    obtain ⟨after, isAppend⟩ := isSetup.inPlace
    rw [← isAppend, List.getElem?_append_left isPlace, isPolled]
  have isFd : pollFds[i]?.map Pollfd.fd = some (getFD polled[i]) := by
    rw [← List.getElem?_map, isSetup.isFds, List.getElem?_map, isPolled]
    rfl
  obtain ⟨pollFd, isPollFd, same⟩ := Option.map_eq_some_iff.mp isFd
  rw [isPollFd, isSocket, List.getElem?_mapIdx, isPolled]
  dsimp only
  rw [if_pos same, Option.map_some, PollThread.entry, isPollFd]
  rfl

/-- Every socket that was polled is handled, each once. -/
theorem handled_perm (isSetup : poll.IsSetup getFD pollFds polled) {start : Nat}
    (inside : start < polled.length) :
    (poll.handled getFD pollFds start).Perm (polled.mapIdx (PollThread.entry pollFds)) := by
  rw [handled_eq isSetup inside]
  refine ((backwards_perm inside).filterMap _).trans (List.Perm.of_eq ?_)
  have round := filterMap_getElem?_range (polled.mapIdx (PollThread.entry pollFds))
  rwa [List.length_mapIdx] at round

theorem head?_handled (isSetup : poll.IsSetup getFD pollFds polled) {start : Nat}
    (inside : start < polled.length) :
    (poll.handled getFD pollFds start).head?.map Prod.fst = some start := by
  rw [handled_eq isSetup inside]
  cases isLength : polled.length with
  | zero => exact absurd (isLength ▸ inside) (Nat.not_lt_zero start)
  | succ count =>
      have isPolled : polled[start]? = some polled[start] := List.getElem?_eq_getElem inside
      rw [backwards, List.filterMap_cons, List.getElem?_mapIdx, isPolled]
      rfl

theorem map_fst_mapIdx (polled : List Socket) :
    (polled.mapIdx (PollThread.entry pollFds)).map Prod.fst = List.range polled.length := by
  refine List.ext_getElem? fun i => ?_
  rw [List.getElem?_map, List.getElem?_mapIdx, Option.map_map]
  by_cases inside : i < polled.length
  · rw [List.getElem?_eq_getElem inside, List.getElem?_range inside]
    rfl
  · have outside := Nat.not_lt.mp inside
    rw [List.getElem?_eq_none outside, List.getElem?_eq_none (by rwa [List.length_range])]
    rfl

theorem mem_sortDescending {places : List Nat} {place : Nat} :
    place ∈ sortDescending places ↔ place ∈ places :=
  (List.mergeSort_perm places _).mem_iff

theorem pairwise_sortDescending {places : List Nat} (different : places.Nodup) :
    (sortDescending places).Pairwise (· > ·) := by
  have sorted : (sortDescending places).Pairwise fun a b => decide (a ≥ b) :=
    @List.pairwise_mergeSort Nat (fun a b => decide (a ≥ b))
      (fun a b c first second =>
        decide_eq_true (Nat.le_trans (of_decide_eq_true second) (of_decide_eq_true first)))
      (fun a b => by simp [Nat.le_total b a])
      places
  have nodup : (sortDescending places).Nodup := (List.mergeSort_perm places _).nodup_iff.mpr different
  refine (sorted.and nodup).imp fun both => ?_
  exact Nat.lt_of_le_of_ne (of_decide_eq_true both.1) (Ne.symm both.2)

/-- The sockets that go, in the order of their places. -/
theorem filterMap_mapIdx (polled : List Socket) (isContinue : Nat → Bool) {toErase : List Nat}
    (isErased : ∀ i < polled.length, (i ∈ toErase ↔ isContinue i = false)) :
    ((polled.mapIdx (PollThread.entry pollFds)).filterMap fun entry =>
      if isContinue entry.1 then none else some entry.2.1) = taken toErase polled := by
  rw [List.mapIdx_eq_zipIdx_map, List.filterMap_map, taken, ← List.filterMap_eq_map,
    ← List.filterMap_eq_filter, List.filterMap_filterMap]
  refine List.filterMap_congr ?_
  rintro ⟨socket, i⟩ member
  have inside : i < polled.length := by
    have isPlace := List.snd_lt_of_mem_zipIdx member
    rwa [Nat.add_zero] at isPlace
  have isErased := isErased i inside
  cases goesOn : isContinue i with
  | true =>
      have stays : i ∉ toErase := fun isPlace => by
        rw [isErased.mp isPlace] at goesOn
        cases goesOn
      simp [PollThread.entry, Option.guard, goesOn, stays]
  | false =>
      have goes : i ∈ toErase := isErased.mpr goesOn
      simp [PollThread.entry, Option.guard, goesOn, goes]

end SocketPoll

namespace PollThread

variable {Socket : Type u} {Callback : Type v} {getFD : Socket → Int}
  {thread : PollThread Socket Callback}

/-- The rounds start one place after another. -/
def Turns : Nat → List (PollRound Socket) → Nat → Prop
  | first, [], last => first = last
  | first, round :: rounds, last =>
      if round.polled = [] then Turns first rounds last
      else
        round.handled.head?.map Prod.fst = some (nextStart round.polled.length first) ∧
          Turns (nextStart round.polled.length first) rounds last

theorem turns_append {first last : Nat} (before after : List (PollRound Socket)) :
    Turns first (before ++ after) last ↔
      ∃ middle, Turns first before middle ∧ Turns middle after last := by
  induction before generalizing first with
  | nil => exact ⟨fun turns => ⟨first, rfl, turns⟩, fun ⟨_, same, turns⟩ => same ▸ turns⟩
  | cons round before ih =>
      rw [List.cons_append]
      by_cases isEmpty : round.polled = []
      · simp only [Turns, if_pos isEmpty]
        exact ih
      · simp only [Turns, if_neg isEmpty]
        constructor
        · rintro ⟨isStart, turns⟩
          obtain ⟨middle, turns, others⟩ := ih.mp turns
          exact ⟨middle, ⟨isStart, turns⟩, others⟩
        · rintro ⟨middle, ⟨isStart, turns⟩, others⟩
          exact ⟨isStart, ih.mpr ⟨middle, turns, others⟩⟩

/-- What holds of the sockets after all steps. -/
structure Keeps (getFD : Socket → Int) (thread : PollThread Socket Callback) : Prop where
  isSetup : ∀ pollFds, thread.phase.pollFds = some pollFds →
    thread.poll.IsSetup getFD pollFds thread.polled
  isKept : (thread.removed ++ (thread.poll.pollSockets ++ thread.poll.newSockets)).Perm
    thread.inserted
  inOrder : (thread.poll.pollSockets ++ thread.poll.newSockets).Sublist thread.inserted
  isRound : ∀ round ∈ thread.rounds, round.handled.Perm round.polled
  turns : Turns 0 thread.rounds thread.poll.pollStartIndex

/-- The places that a round leaves. -/
theorem handleSockets_spec {pollFds : List Pollfd} {polled : List Socket}
    {poll : SocketPoll Socket Callback} (isSetup : poll.IsSetup getFD pollFds polled)
    (isContinue : Nat → Bool) (notEmpty : 0 < pollFds.length) :
    ∃ toErase,
      (poll.handleSockets getFD pollFds isContinue).2 =
        { poll with
          pollStartIndex := nextStart polled.length poll.pollStartIndex
          pollSockets := without toErase poll.pollSockets } ∧
      (((poll.handleSockets getFD pollFds isContinue).1.filterMap fun entry =>
        if isContinue entry.1 then none else some entry.2.1).Perm
          (taken toErase poll.pollSockets)) ∧
      (poll.handleSockets getFD pollFds isContinue).1 =
        poll.handled getFD pollFds (nextStart polled.length poll.pollStartIndex) := by
  have isLength := isSetup.length_eq
  have inside : nextStart polled.length poll.pollStartIndex < polled.length :=
    nextStart_lt (isLength ▸ notEmpty) _
  have round := SocketPoll.handled_perm isSetup inside
  rw [SocketPoll.handleSockets, if_pos notEmpty, isLength]
  dsimp only
  generalize poll.handled getFD pollFds (nextStart polled.length poll.pollStartIndex) = handled
    at round ⊢
  have places : (handled.map Prod.fst).Perm (List.range polled.length) := by
    rw [← SocketPoll.map_fst_mapIdx]
    exact round.map Prod.fst
  have nodup : ((handled.map Prod.fst).filter fun i => !isContinue i).Nodup :=
    (places.nodup_iff.mpr List.nodup_range).filter _
  have isErased : ∀ i < polled.length,
      (i ∈ (handled.map Prod.fst).filter fun i => !isContinue i) ↔ isContinue i = false := by
    intro i inside
    rw [List.mem_filter, places.mem_iff, List.mem_range, Bool.not_eq_true']
    exact and_iff_right inside
  have isInside : ∀ i ∈ (handled.map Prod.fst).filter fun i => !isContinue i,
      i < polled.length :=
    fun i member => List.mem_range.mp (places.subset (List.mem_filter.mp member).1)
  refine ⟨(handled.map Prod.fst).filter fun i => !isContinue i, ?_, ?_, rfl⟩
  · rw [eraseAll_eq_without (SocketPoll.pairwise_sortDescending nodup),
      without_congr fun place => SocketPoll.mem_sortDescending]
  · obtain ⟨after, isAppend⟩ := isSetup.inPlace
    rw [← isAppend, taken_append_of_lt after isInside,
      ← SocketPoll.filterMap_mapIdx polled isContinue isErased]
    exact round.filterMap _

theorem Keeps.addCallback (keeps : Keeps getFD thread) (fn : Callback) :
    Keeps getFD (thread.step getFD (.addCallback fn)) := by
  obtain ⟨isSetup, isKept, inOrder, isRound, turns⟩ := keeps
  have sockets := SocketPoll.pollSockets_addCallback thread.poll fn
  have newSockets := SocketPoll.newSockets_addCallback thread.poll fn
  have index := SocketPoll.pollStartIndex_addCallback thread.poll fn
  refine ⟨fun pollFds isPolled => ⟨?_, (isSetup pollFds isPolled).isFds⟩, ?_, ?_, isRound, ?_⟩
  · exact sockets ▸ (isSetup pollFds isPolled).inPlace
  · dsimp only [PollThread.step]
    rwa [sockets, newSockets]
  · dsimp only [PollThread.step]
    rwa [sockets, newSockets]
  · dsimp only [PollThread.step]
    rwa [index]

theorem Keeps.ppoll (keeps : Keeps getFD thread) (revents : Nat → Nat) :
    Keeps getFD (thread.step getFD (.ppoll revents)) := by
  obtain ⟨isSetup, isKept, inOrder, isRound, turns⟩ := keeps
  unfold PollThread.step
  dsimp only
  split
  · next pollFds isPolling =>
      refine ⟨fun others isPolled => ?_, isKept, inOrder, isRound, turns⟩
      cases isPolled
      obtain ⟨inPlace, isFds⟩ := isSetup pollFds (congrArg PollPhase.pollFds isPolling)
      refine ⟨inPlace, ?_⟩
      rw [← isFds, List.mapIdx_eq_zipIdx_map, List.map_map]
      calc
        pollFds.zipIdx.map _
        _ = (pollFds.zipIdx.map Prod.fst).map Pollfd.fd := by
            rw [List.map_map]
            rfl
        _ = pollFds.map Pollfd.fd := by rw [List.zipIdx_map_fst]
  · exact ⟨isSetup, isKept, inOrder, isRound, turns⟩

/-- The sockets that are erased are those whose places are in the round. -/
theorem Keeps.handleSockets (keeps : Keeps getFD thread) (isContinue : Nat → Bool) :
    Keeps getFD (thread.step getFD (.handleSockets isContinue)) := by
  obtain ⟨isSetup, isKept, inOrder, isRound, turns⟩ := keeps
  unfold PollThread.step
  dsimp only
  split
  · next pollFds isHandling =>
      have isSetup := isSetup pollFds (congrArg PollPhase.pollFds isHandling)
      by_cases notEmpty : 0 < pollFds.length
      · obtain ⟨toErase, isPoll, goes, isHandled⟩ := handleSockets_spec isSetup isContinue notEmpty
        have inside := nextStart_lt (isSetup.length_eq ▸ notEmpty) thread.poll.pollStartIndex
        have pollSockets :
            ((thread.poll.handleSockets getFD pollFds isContinue).2).pollSockets =
              without toErase thread.poll.pollSockets := by rw [isPoll]
        have newSockets :
            ((thread.poll.handleSockets getFD pollFds isContinue).2).newSockets =
              thread.poll.newSockets := by rw [isPoll]
        have index :
            ((thread.poll.handleSockets getFD pollFds isContinue).2).pollStartIndex =
              nextStart thread.polled.length thread.poll.pollStartIndex := by rw [isPoll]
        refine ⟨nofun, ?_, ?_, ?_, ?_⟩
        · dsimp only
          rw [pollSockets, newSockets]
          refine List.Perm.trans ?_ isKept
          have split := goes.append_right (without toErase thread.poll.pollSockets)
          have kept := split.trans (taken_append_without_perm toErase thread.poll.pollSockets)
          rw [List.append_assoc]
          refine List.Perm.append_left _ ?_
          rw [← List.append_assoc]
          exact kept.append_right _
        · dsimp only
          rw [pollSockets, newSockets]
          exact ((without_sublist toErase _).append (List.Sublist.refl _)).trans inOrder
        · intro round member
          cases List.mem_append.mp member with
          | inl before => exact isRound round before
          | inr isLast =>
              rw [List.mem_singleton.mp isLast]
              dsimp only
              rw [isHandled]
              exact SocketPoll.handled_perm isSetup inside
        · dsimp only
          rw [index]
          refine (turns_append _ _).mpr ⟨_, turns, ?_⟩
          have notNone : thread.polled.mapIdx (entry pollFds) ≠ [] := fun isNone => by
            rw [List.mapIdx_eq_nil_iff.mp isNone] at inside
            exact absurd inside (Nat.not_lt_zero _)
          rw [Turns, if_neg notNone, List.length_mapIdx]
          refine ⟨?_, rfl⟩
          rw [isHandled]
          exact SocketPoll.head?_handled isSetup inside
      · have isEmpty : thread.polled = [] := by
          rw [isSetup.length_eq] at notEmpty
          exact List.length_eq_zero_iff.mp (Nat.eq_zero_of_not_pos notEmpty)
        rw [SocketPoll.handleSockets, if_neg notEmpty]
        dsimp only
        rw [List.filterMap_nil, List.append_nil, isEmpty]
        refine ⟨nofun, isKept, inOrder, ?_, ?_⟩
        · intro round member
          cases List.mem_append.mp member with
          | inl before => exact isRound round before
          | inr isLast =>
              rw [List.mem_singleton.mp isLast]
              exact List.Perm.refl _
        · exact (turns_append _ _).mpr ⟨_, turns, rfl⟩
  · exact ⟨isSetup, isKept, inOrder, isRound, turns⟩

theorem Keeps.step (keeps : Keeps getFD thread) (event : PollEvent Socket Callback) :
    Keeps getFD (thread.step getFD event) := by
  have ⟨isSetup, isKept, inOrder, isRound, turns⟩ := keeps
  cases event with
  | insertNewSocket newSocket =>
      refine ⟨fun pollFds isPolled => ⟨(isSetup pollFds isPolled).1, (isSetup pollFds isPolled).2⟩,
        ?_, ?_, isRound, turns⟩
      · have more := isKept.append_right [newSocket]
        rwa [List.append_assoc, List.append_assoc] at more
      · have more := inOrder.append (List.Sublist.refl [newSocket])
        rwa [List.append_assoc] at more
  | addCallback fn => exact keeps.addCallback fn
  | wakeup =>
      exact ⟨fun pollFds isPolled => ⟨(isSetup pollFds isPolled).1, (isSetup pollFds isPolled).2⟩,
        isKept, inOrder, isRound, turns⟩
  | setStop =>
      exact ⟨fun pollFds isPolled => ⟨(isSetup pollFds isPolled).1, (isSetup pollFds isPolled).2⟩,
        isKept, inOrder, isRound, turns⟩
  | continuePolling =>
      unfold PollThread.step
      dsimp only
      split
      · split
        · refine ⟨nofun, ?_, List.nil_sublist _, isRound, turns⟩
          dsimp only [SocketPoll.removeSockets]
          rwa [List.append_nil, List.append_nil]
        · refine ⟨fun pollFds isPolled => ?_, isKept, inOrder, isRound, turns⟩
          cases isPolled
          exact SocketPoll.isSetup_setupPollFds thread.poll getFD
      · exact ⟨isSetup, isKept, inOrder, isRound, turns⟩
  | ppoll revents => exact keeps.ppoll revents
  | readPipe =>
      unfold PollThread.step
      dsimp only
      split
      · next pollFds isPolled =>
          refine ⟨fun others same => ?_, isKept, inOrder, isRound, turns⟩
          cases same
          obtain ⟨inPlace, isFds⟩ := isSetup pollFds (congrArg PollPhase.pollFds isPolled)
          exact ⟨inPlace, isFds⟩
      · next pollFds isPolled =>
          refine ⟨fun others same => ?_, isKept, inOrder, isRound, turns⟩
          cases same
          exact isSetup pollFds (congrArg PollPhase.pollFds isPolled)
      · exact ⟨isSetup, isKept, inOrder, isRound, turns⟩
  | takeNew =>
      unfold PollThread.step
      dsimp only
      split
      · next pollFds isDrained =>
          refine ⟨fun others same => ?_, ?_, ?_, isRound, turns⟩
          · cases same
            obtain ⟨inPlace, isFds⟩ := isSetup pollFds (congrArg PollPhase.pollFds isDrained)
            exact ⟨inPlace.trans (List.prefix_append _ _), isFds⟩
          · dsimp only [SocketPoll.takeNew]
            rwa [List.append_nil]
          · dsimp only [SocketPoll.takeNew]
            rwa [List.append_nil]
      · exact ⟨isSetup, isKept, inOrder, isRound, turns⟩
  | invoke =>
      unfold PollThread.step
      dsimp only
      split
      · next pollFds callback invoke isInvoking =>
          refine ⟨fun others same => ?_, isKept, inOrder, isRound, turns⟩
          cases same
          exact isSetup pollFds (congrArg PollPhase.pollFds isInvoking)
      · next pollFds isInvoking =>
          refine ⟨fun others same => ?_, isKept, inOrder, isRound, turns⟩
          cases same
          exact isSetup pollFds (congrArg PollPhase.pollFds isInvoking)
      · exact ⟨isSetup, isKept, inOrder, isRound, turns⟩
  | handleSockets isContinue => exact keeps.handleSockets isContinue

theorem sockets_run (getFD : Socket → Int) (events : List (PollEvent Socket Callback)) :
    Keeps getFD (run (step getFD) start events) :=
  run_invariant (Keeps getFD) (fun _ event keeps _ => keeps.step event)
    ⟨nofun, List.Perm.refl _, List.Sublist.refl _, nofun, rfl⟩
    (@permitted_of_forall _ _ (step getFD) (fun _ _ => True) (fun _ _ => trivial) start events)

/-- In every run each call handles every socket that it polled, once and with the events of its
own place. No socket is lost or kept twice: those that did not go are there in their order. -/
theorem run_rounds (getFD : Socket → Int) (events : List (PollEvent Socket Callback)) :
    let thread := run (step getFD) start events
    (∀ round ∈ thread.rounds, round.handled.Perm round.polled) ∧
      (thread.removed ++ (thread.poll.pollSockets ++ thread.poll.newSockets)).Perm
        thread.inserted ∧
      (thread.poll.pollSockets ++ thread.poll.newSockets).Sublist thread.inserted := by
  have keeps := sockets_run getFD events
  exact ⟨keeps.isRound, keeps.isKept, keeps.inOrder⟩

/-- Rounds over as many sockets start at one place after another. -/
theorem turns_starts {size first last : Nat} (notEmpty : 0 < size)
    {rounds : List (PollRound Socket)} (turns : Turns first rounds last)
    (same : ∀ round ∈ rounds, round.polled.length = size) :
    rounds.map (fun round => round.handled.head?.map Prod.fst) =
      (starts size rounds.length first).map some := by
  induction rounds generalizing first with
  | nil => rfl
  | cons round rounds ih =>
      have isSize : round.polled.length = size := same round List.mem_cons_self
      have notNone : round.polled ≠ [] := fun isNone => by
        rw [isNone] at isSize
        exact Nat.ne_of_lt notEmpty isSize
      rw [Turns, if_neg notNone, isSize] at turns
      rw [List.map_cons, List.length_cons, starts, List.map_cons, turns.1]
      exact congrArg _ (ih turns.2 fun other member => same other (List.mem_cons_of_mem _ member))

/-- In every run, among as many successive calls over some number of sockets, each of the sockets
is the first one in exactly one. -/
theorem run_starts (getFD : Socket → Int) (events : List (PollEvent Socket Callback))
    {before rounds after : List (PollRound Socket)}
    (isRounds : (run (step getFD) start events).rounds = before ++ (rounds ++ after))
    (same : ∀ round ∈ rounds, round.polled.length = rounds.length) :
    (rounds.map fun round => round.handled.head?.map Prod.fst).Perm
      ((List.range rounds.length).map some) := by
  have turns := (sockets_run getFD events).turns
  rw [isRounds] at turns
  obtain ⟨first, _, turns⟩ := (turns_append _ _).mp turns
  obtain ⟨last, turns, _⟩ := (turns_append _ _).mp turns
  cases isLength : rounds.length with
  | zero =>
      rw [List.length_eq_zero_iff.mp isLength]
      exact List.Perm.refl _
  | succ count =>
      rw [isLength] at same
      rw [turns_starts (Nat.succ_pos count) turns same, isLength]
      refine List.Perm.map some ?_
      by_cases inside : first < count + 1
      · exact starts_perm inside
      · -- A place behind the last one is followed by the first one, like the last one.
        have isFirst : nextStart (count + 1) first = nextStart (count + 1) count := by
          rw [nextStart, nextStart, if_pos (by omega), if_pos (by omega)]
        rw [starts, isFirst]
        exact starts_perm (Nat.lt_succ_self count)

/-- Two sockets come to the poll, and three calls follow. -/
def twoSockets : List (PollEvent Int Unit) :=
  [.insertNewSocket 5, .insertNewSocket 6, .continuePolling, .ppoll fun _ => 0, .readPipe, .takeNew,
    .invoke, .handleSockets fun _ => true, .continuePolling, .ppoll fun _ => 1, .readPipe,
    .handleSockets fun _ => true, .continuePolling, .ppoll fun _ => 1, .readPipe,
    .handleSockets fun _ => true]

theorem run_starts_two_sockets :
    [some 1, some 0].Perm ((List.range 2).map some) :=
  @run_starts Int Unit id twoSockets [⟨[], []⟩]
    [⟨[(0, 5, 1), (1, 6, 1)], [(1, 6, 1), (0, 5, 1)]⟩,
      ⟨[(0, 5, 1), (1, 6, 1)], [(0, 5, 1), (1, 6, 1)]⟩] [] (by decide +kernel) (by decide)

end PollThread

end FreeOnline.Net
