import FreeOnline.Library.Run
import FreeOnline.Net.HttpResponse

/-!
# Completion of a response

A response reports that it has finished through a callback and through its state. Both
start over when it is given more data, whether or not it expects any.
-/

set_option autoImplicit false

namespace FreeOnline.Net.Http

open FreeOnline.Library Response

/-!
## What reading does to the state
-/

def Response.ChunkEnd.response : ChunkEnd → Response
  | .lastChunk response => response
  | .failed response => response

structure Reading (before response : Response) : Prop where
  state : response.state = .incomplete
  finishedCalls : response.finishedCalls = before.finishedCalls

inductive HasRead (before response : Response) : Prop where
  | incomplete (reading : Reading before response)
  | complete (state : response.state = .complete)
      (finishedCalls : response.finishedCalls = before.finishedCalls + 1)

section Reading

variable {before response : Response} (reading : Reading before response)
include reading

private theorem hasRead_complete : HasRead before response.complete := by
  have notDone : response.done = false := by simp [done, reading.state]
  have finished : response.complete =
      { response with state := .complete, finishedCalls := response.finishedCalls + 1 } := by
    simp [Response.complete, finishWith, notDone]
  rw [finished]
  exact .complete rfl (congrArg (· + 1) reading.finishedCalls)

private theorem hasRead_consumed (len available : Int) :
    HasRead before (consumed len available response).2 := by
  by_cases parserStage : response.parserStage = .finished
  · simpa [consumed, parserStage] using hasRead_complete reading
  · simpa [consumed, parserStage] using HasRead.incomplete reading

private theorem reading_writeBody (data : Bytes) :
    Reading before (response.writeBody data).2 :=
  ⟨reading.state, reading.finishedCalls⟩

private theorem reading_addRecvBodySize (size : Nat) :
    Reading before (response.addRecvBodySize size) :=
  ⟨reading.state, reading.finishedCalls⟩

end Reading

private theorem readChunk_cases (response : Response) (p : Bytes) :
    readChunk response p = .wait response ∨
      readChunk response p = .stop (.lastChunk response) ∨
      readChunk response p = .stop (.failed response) ∨
      ∃ data, readChunk response p = .stop (.failed (response.writeBody data).2) ∨
        ∃ size rest, readChunk response p =
          .advance ((response.writeBody data).2.addRecvBodySize size) rest := by
  unfold readChunk
  dsimp only
  split
  · exact .inl rfl
  · split
    · exact .inl rfl
    · split
      · exact .inr (.inr (.inl rfl))
      · split
        · split
          · exact .inl rfl
          · split
            · exact .inr (.inr (.inr ⟨_, .inl rfl⟩))
            · exact .inr (.inr (.inr ⟨_, .inr ⟨_, _, rfl⟩⟩))
        · exact .inr (.inl rfl)

private theorem reading_drain {before response : Response} (reading : Reading before response)
    (p : Bytes) :
    (drain readChunk response p).Satisfies (Reading before)
      (fun ended => Reading before ended.response) := by
  refine satisfies_drain ?_ ?_ ?_ reading p
  · intro state buffer next progress reading
    obtain same | same | same | ⟨data, same | ⟨size, rest, same⟩⟩ := readChunk_cases state buffer
    all_goals
      rw [same] at progress
      cases progress
    exact reading
  · intro state buffer next rest progress reading
    obtain same | same | same | ⟨data, same | ⟨size, rest, same⟩⟩ := readChunk_cases state buffer
    all_goals
      rw [same] at progress
      cases progress
    exact reading_addRecvBodySize (reading_writeBody reading data) size
  · intro state buffer ended progress reading
    obtain same | same | same | ⟨data, same | ⟨size, rest, same⟩⟩ := readChunk_cases state buffer
    all_goals
      rw [same] at progress
      cases progress
    · exact reading
    · exact reading
    · exact reading_writeBody reading data

private theorem hasRead_readBody {before response : Response} (reading : Reading before response)
    (len : Nat) (p : Bytes) : HasRead before (response.readBody len p).2 := by
  unfold readBody
  split
  · exact hasRead_consumed reading _ _
  · split
    · have drained := reading_drain reading p
      revert drained
      cases drain readChunk response p with
      | running last rest => exact .incomplete
      | stopped ended =>
          cases ended with
          | failed last => exact .incomplete
          | lastChunk last =>
              intro lastReading
              have finished : Reading before { last with parserStage := .finished } :=
                ⟨lastReading.state, lastReading.finishedCalls⟩
              exact hasRead_consumed finished _ _
    · have written := reading_writeBody reading p
      dsimp only
      split
      · exact .incomplete written
      · split
        · exact hasRead_consumed written _ _
        · have counted := reading_addRecvBodySize written (response.writeBody p).1.toNat
          refine hasRead_consumed ?_ _ _
          split
          · exact ⟨counted.state, counted.finishedCalls⟩
          · exact counted

private theorem reading_afterHeader {before response : Response}
    (reading : Reading before response) :
    ∃ last, (response.afterHeader = .ok last ∨ response.afterHeader = .error last) ∧
      Reading before last := by
  have same {last : Response} (state : last.state = response.state)
      (finishedCalls : last.finishedCalls = response.finishedCalls) : Reading before last :=
    ⟨state.trans reading.state, finishedCalls.trans reading.finishedCalls⟩
  unfold afterHeader
  dsimp only
  split
  · exact ⟨_, .inl rfl, same rfl rfl⟩
  · by_cases successful : response.statusLine.statusCategory ≠ .successful
    · simp only [if_pos successful]
      repeat' split
      all_goals first
        | exact ⟨_, .inl rfl, same rfl rfl⟩
        | exact ⟨_, .inr rfl, same rfl rfl⟩
    · simp only [if_neg successful]
      repeat' split
      all_goals first
        | exact ⟨_, .inl rfl, same rfl rfl⟩
        | exact ⟨_, .inr rfl, same rfl rfl⟩

private theorem hasRead_readHeader (readFields : Bytes → HeaderRead) {before response : Response}
    (reading : Reading before response) (p : Bytes) :
    HasRead before (response.readHeader readFields p).2 := by
  unfold readHeader
  split
  · exact hasRead_readBody reading _ _
  · have parsed : Reading before
        { response with header := (response.header.parse readFields p).2 } :=
      ⟨reading.state, reading.finishedCalls⟩
    dsimp only
    split
    · exact .incomplete parsed
    · split
      · exact hasRead_readBody parsed _ _
      · obtain ⟨last, ok | failed, lastReading⟩ := reading_afterHeader parsed
        · rw [ok]
          exact hasRead_readBody lastReading _ _
        · rw [failed]
          exact .incomplete lastReading

theorem hasRead_readData (readFields : Bytes → HeaderRead) (response : Response) (p : Bytes) :
    HasRead response (response.readData readFields p).2 := by
  have reading {next : Response} (state : next.state = .incomplete)
      (finishedCalls : next.finishedCalls = response.finishedCalls) : Reading response next :=
    ⟨state, finishedCalls⟩
  unfold readData
  dsimp only
  split
  · exact hasRead_readHeader readFields (by exact reading rfl rfl) p
  · split
    · exact .incomplete (reading rfl rfl)
    · exact .incomplete (reading rfl rfl)
    · split
      · exact .incomplete (reading rfl rfl)
      · exact hasRead_readHeader readFields (by exact reading rfl rfl) p

/-!
## Sequences of calls
-/

inductive Call where
  | readData (p : Bytes)
  | finish

def Response.call (readFields : Bytes → HeaderRead) (response : Response) : Call → Response
  | .readData p => (response.readData readFields p).2
  | .finish => response.finish

/-- A response as it is constructed, with any callback for the body. -/
def Response.fresh (onBodyWriteCb : Bytes → Int) : Response :=
  { create with onBodyWriteCb := onBodyWriteCb }

def Response.called (readFields : Bytes → HeaderRead) (onBodyWriteCb : Bytes → Int)
    (calls : List Call) : Response :=
  run (call readFields) (fresh onBodyWriteCb) calls

def CompletesOnce (readFields : Bytes → HeaderRead) (onBodyWriteCb : Bytes → Int)
    (calls : List Call) : Prop :=
  ∀ earlier later, earlier ++ later <+: calls →
    (called readFields onBodyWriteCb (earlier ++ later)).finishedCalls ≤ 1 ∧
    ((called readFields onBodyWriteCb earlier).state = .complete ∨
        (called readFields onBodyWriteCb earlier).state = .error →
      (called readFields onBodyWriteCb (earlier ++ later)).state ≠ .incomplete)

def ReadsUnfinished (response : Response) : Call → Prop
  | .readData _ => response.state ≠ .complete ∧ response.state ≠ .error
  | .finish => True

structure Tracked (response : Response) : Prop where
  finishedCalls : response.finishedCalls = if response.done then 1 else 0
  state : response.state ≠ .timeout

theorem Tracked.notDone {response : Response} (tracked : Tracked response)
    (notComplete : response.state ≠ .complete) (notError : response.state ≠ .error) :
    response.done = false := by
  simp [done, notComplete, notError, tracked.state]

theorem Tracked.call (readFields : Bytes → HeaderRead) {response : Response}
    (tracked : Tracked response) {call : Call} (allowed : ReadsUnfinished response call) :
    Tracked (response.call readFields call) := by
  cases call with
  | readData p =>
      obtain ⟨notComplete, notError⟩ := allowed
      have none : response.finishedCalls = 0 := by
        simp [tracked.finishedCalls, tracked.notDone notComplete notError]
      show Tracked (response.readData readFields p).2
      cases hasRead_readData readFields response p with
      | incomplete reading =>
          refine ⟨?_, ?_⟩
          · simp [reading.finishedCalls, none, done, reading.state]
          · simp [reading.state]
      | complete state finishedCalls =>
          refine ⟨?_, ?_⟩
          · simp [finishedCalls, none, done, state]
          · simp [state]
  | finish =>
      show Tracked (response.finishWith .error)
      cases isDone : response.done with
      | true => simpa [finishWith, isDone] using tracked
      | false =>
          have none : response.finishedCalls = 0 := by simp [tracked.finishedCalls, isDone]
          simp only [finishWith, isDone, Bool.false_eq_true, ↓reduceIte, none]
          exact ⟨rfl, by simp⟩

/-- A response that is read again is reported once more, or is incomplete again. -/
private theorem Tracked.readAgain (readFields : Bytes → HeaderRead) {response : Response}
    (tracked : Tracked response) (ended : response.state = .complete ∨ response.state = .error)
    (p : Bytes) :
    (response.call readFields (.readData p)).finishedCalls = 2 ∨
      (response.call readFields (.readData p)).state = .incomplete := by
  have once : response.finishedCalls = 1 := by
    rcases ended with state | state
    · simp [tracked.finishedCalls, done, state]
    · simp [tracked.finishedCalls, done, state]
  cases hasRead_readData readFields response p with
  | incomplete reading => exact .inr reading.state
  | complete state finishedCalls =>
      refine .inl ?_
      rw [Response.call, finishedCalls, once]

theorem tracked_fresh (onBodyWriteCb : Bytes → Int) : Tracked (fresh onBodyWriteCb) :=
  ⟨rfl, nofun⟩

private theorem called_append (readFields : Bytes → HeaderRead) (onBodyWriteCb : Bytes → Int)
    (earlier later : List Call) :
    called readFields onBodyWriteCb (earlier ++ later) =
      run (call readFields) (called readFields onBodyWriteCb earlier) later :=
  List.foldl_append

private theorem run_ended (readFields : Bytes → HeaderRead) {response : Response}
    (ended : response.state = .complete ∨ response.state = .error) {calls : List Call}
    (permitted : Permitted (call readFields) ReadsUnfinished response calls) :
    (run (call readFields) response calls).state ≠ .incomplete := by
  have kept : (run (call readFields) response calls).state = .complete ∨
      (run (call readFields) response calls).state = .error := by
    refine run_invariant (fun response => response.state = .complete ∨ response.state = .error)
      ?_ ended permitted
    intro response call ended allowed
    cases call with
    | readData p => exact absurd ended (not_or.mpr allowed)
    | finish =>
        have isDone : response.done = true := by
          rcases ended with state | state
          · simp [done, state]
          · simp [done, state]
        simpa [Response.call, Response.finish, finishWith, isDone] using ended
  rcases kept with state | state
  · simp [state]
  · simp [state]

private theorem completesOnce_of_permitted {readFields : Bytes → HeaderRead}
    {onBodyWriteCb : Bytes → Int} {calls : List Call}
    (permitted : Permitted (call readFields) ReadsUnfinished (fresh onBodyWriteCb) calls) :
    CompletesOnce readFields onBodyWriteCb calls := by
  rintro earlier later ⟨rest, rfl⟩
  have reached := (permitted_append.mp permitted).1
  have tracked : Tracked (called readFields onBodyWriteCb (earlier ++ later)) :=
    run_invariant Tracked (fun response _ tracked allowed => tracked.call readFields allowed)
      (tracked_fresh onBodyWriteCb) reached
  refine ⟨?_, fun ended => ?_⟩
  · rw [tracked.finishedCalls]
    split <;> omega
  · rw [called_append]
    exact run_ended readFields ended (permitted_append.mp reached).2

private theorem permitted_of_completesOnce {readFields : Bytes → HeaderRead}
    {onBodyWriteCb : Bytes → Int} {calls : List Call}
    (once : CompletesOnce readFields onBodyWriteCb calls) (earlier later : List Call)
    (parts : earlier ++ later = calls)
    (tracked : Tracked (called readFields onBodyWriteCb earlier)) :
    Permitted (call readFields) ReadsUnfinished (called readFields onBodyWriteCb earlier) later := by
  induction later generalizing earlier with
  | nil => trivial
  | cons call later ih =>
      have next := called_append readFields onBodyWriteCb earlier [call]
      have isPart : earlier ++ [call] <+: calls := ⟨later, by simp [← parts]⟩
      have allowed : ReadsUnfinished (called readFields onBodyWriteCb earlier) call := by
        cases call with
        | finish => trivial
        | readData p =>
            refine not_or.mp fun ended => ?_
            obtain ⟨atMostOnce, stays⟩ := once earlier [.readData p] isPart
            rw [next] at atMostOnce stays
            rcases tracked.readAgain readFields ended p with twice | again
            · exact absurd atMostOnce (by rw [run, List.foldl_cons, List.foldl_nil, twice]; omega)
            · exact stays ended again
      refine ⟨allowed, ?_⟩
      have rest := ih (earlier ++ [call]) (by simp [← parts])
        (by rw [next]; exact tracked.call readFields allowed)
      rwa [next] at rest

theorem completesOnce_iff (readFields : Bytes → HeaderRead) (onBodyWriteCb : Bytes → Int)
    (calls : List Call) :
    CompletesOnce readFields onBodyWriteCb calls ↔
      Permitted (call readFields) ReadsUnfinished (fresh onBodyWriteCb) calls :=
  ⟨fun once => permitted_of_completesOnce once [] calls rfl (tracked_fresh onBodyWriteCb),
    completesOnce_of_permitted⟩

/-- A response without a body, in the second buffer the first byte of another one. -/
def noContent : List Call :=
  [.readData (bytesOf "HTTP/1.1 204 No Content\r\n\r\n"), .readData (bytesOf "H")]

/-- The callback is invoked for each of the buffers. -/
theorem not_completesOnce_noContent :
    ¬ CompletesOnce (fun _ => .fields []) memoryCb noContent := by
  intro once
  have atMostOnce := (once noContent [] (by simp)).1
  have twice : (called (fun _ => .fields []) memoryCb noContent).finishedCalls = 2 := by
    decide
  rw [List.append_nil, twice] at atMostOnce
  exact absurd atMostOnce (by decide)

end FreeOnline.Net.Http
