import FreeOnline.Library.Run
import Mathlib.Data.List.Perm.Basic

/-!
# The thread pool of the renderer

The caller pushes functions and runs them, alone or with the threads of the pool. A step is what
one thread does from where it gets the mutex to where it gives it up. The destructor is left out:
nothing is shut down while the caller renders.
-/

set_option autoImplicit false

namespace FreeOnline.Kit

open FreeOnline.Library

universe u

/-- A thread of the pool: before its first wait, in the wait, out of it but without the mutex, or at
a function. `shared` is not in the code: whether the caller was in a run that uses the threads when
the function was taken. -/
inductive Thread (Fn : Type u) where
  | starting
  | waiting
  | woken
  | running (fn : Fn) (shared : Bool)
deriving DecidableEq

/-- The thread that owns the pool: outside of `run`, at a function of its own, or waiting for the
others. -/
inductive Caller (Fn : Type u) where
  | outside
  | running (fn : Fn) (useThreads : Bool)
  | completing (notified : Bool)
deriving DecidableEq

/-- `pushed` and `finished` are not in the code: all functions of the past. -/
structure ThreadPool (Fn : Type u) where
  work : List Fn
  threads : List (Thread Fn)
  working : Nat
  caller : Caller Fn
  pushed : List Fn
  finished : List Fn
deriving DecidableEq

variable {Fn : Type u}

def Thread.fns : Thread Fn → List Fn
  | .starting | .waiting | .woken => []
  | .running fn _ => [fn]

def Thread.notify : Thread Fn → Thread Fn
  | .waiting => .woken
  | .starting => .starting
  | .woken => .woken
  | .running fn shared => .running fn shared

namespace Caller

def fns : Caller Fn → List Fn
  | .outside | .completing _ => []
  | .running fn _ => [fn]

def usesThreads : Caller Fn → Bool
  | .outside => false
  | .running _ useThreads => useThreads
  | .completing _ => true

def notify : Caller Fn → Caller Fn
  | .outside => .outside
  | .running fn useThreads => .running fn useThreads
  | .completing _ => .completing true

end Caller

/-- What comes of a step: whether the assertions on the way held, and whether `run` returned. -/
structure Outcome (Fn : Type u) where
  asserted : Bool
  returned : Bool
  pool : ThreadPool Fn

namespace ThreadPool

def create (maxConcurrency : Int) : ThreadPool Fn where
  work := []
  threads := List.replicate (maxConcurrency - 1).toNat .starting
  working := 0
  caller := .outside
  pushed := []
  finished := []

variable (pool : ThreadPool Fn)

/-- Nothing is asserted and `run` does not return. -/
def goesOn : Outcome Fn := ⟨true, false, pool⟩

def setThread (i : Nat) (thread : Thread Fn) : ThreadPool Fn :=
  { pool with threads := pool.threads.set i thread }

def pushWork (fn : Fn) : Outcome Fn where
  asserted := pool.working = 0
  returned := false
  pool := { pool with work := pool.work ++ [fn], pushed := pool.pushed ++ [fn] }

/-- The second half of `runOne`. -/
def finishOne (fn : Fn) : ThreadPool Fn :=
  { pool with
    working := pool.working - 1
    finished := pool.finished ++ [fn]
    caller :=
      if pool.work.isEmpty && pool.working - 1 = 0 then pool.caller.notify else pool.caller }

/-- The end of `run`. -/
def leave : Outcome Fn where
  asserted := pool.working = 0 && pool.work.isEmpty
  returned := true
  pool := { pool with caller := .outside }

def waitComplete : Outcome Fn :=
  if pool.working = 0 && pool.work.isEmpty then pool.leave
  else { pool with caller := .completing false }.goesOn

/-- `run` from the head of its loop, with the first half of `runOne`. -/
def runLoop (useThreads : Bool) : Outcome Fn :=
  match pool.work with
  | fn :: later =>
      { pool with
        work := later
        working := pool.working + 1
        caller := .running fn useThreads }.goesOn
  | [] =>
      if useThreads && (0 < pool.working || !pool.work.isEmpty) then pool.waitComplete
      else pool.leave

def run : Outcome Fn :=
  let useThreads := 1 < pool.threads.length && 1 < pool.work.length
  let notified :=
    if useThreads then { pool with threads := pool.threads.map Thread.notify } else pool
  let outcome := notified.runLoop useThreads
  { outcome with asserted := pool.working = 0 && outcome.asserted }

/-- The loop of a thread from where its wait returns, with the first half of `runOne`. -/
def threadWork (i : Nat) : ThreadPool Fn :=
  match pool.work with
  | fn :: later =>
      { pool with
        work := later
        working := pool.working + 1 }.setThread i (.running fn pool.caller.usesThreads)
  | [] => pool.setThread i .waiting

/-!
## Steps
-/

/-- A thread may wake without having been notified, and get the mutex late. -/
inductive Event (Fn : Type u) where
  | pushWork (fn : Fn)
  | run
  | callerFinishes
  | callerWakes
  | threadStarts (i : Nat)
  | threadWakes (i : Nat)
  | threadLocks (i : Nat)
  | threadFinishes (i : Nat)

/-- What cannot happen leaves all as it is. -/
def outcome : Event Fn → Outcome Fn
  | .pushWork fn =>
      match pool.caller with
      | .outside => pool.pushWork fn
      | .running _ _ | .completing _ => pool.goesOn
  | .run =>
      match pool.caller with
      | .outside => pool.run
      | .running _ _ | .completing _ => pool.goesOn
  | .callerFinishes =>
      match pool.caller with
      | .running fn useThreads => (pool.finishOne fn).runLoop useThreads
      | .outside | .completing _ => pool.goesOn
  | .callerWakes =>
      match pool.caller with
      | .completing _ => pool.waitComplete
      | .outside | .running _ _ => pool.goesOn
  | .threadStarts i =>
      match pool.threads[i]? with
      | some .starting => (pool.setThread i .waiting).goesOn
      | some .waiting | some .woken | some (.running _ _) | none => pool.goesOn
  | .threadWakes i =>
      match pool.threads[i]? with
      | some .waiting => (pool.setThread i .woken).goesOn
      | some .starting | some .woken | some (.running _ _) | none => pool.goesOn
  | .threadLocks i =>
      match pool.threads[i]? with
      | some .woken => (pool.threadWork i).goesOn
      | some .starting | some .waiting | some (.running _ _) | none => pool.goesOn
  | .threadFinishes i =>
      match pool.threads[i]? with
      | some (.running fn _) => ((pool.finishOne fn).setThread i .waiting).goesOn
      | some .starting | some .waiting | some .woken | none => pool.goesOn

def step (pool : ThreadPool Fn) (event : Event Fn) : ThreadPool Fn := (pool.outcome event).pool

/-!
## What the pool is for
-/

def threadFns : List Fn := pool.threads.flatMap Thread.fns

/-- The functions that are being executed. -/
def running : List Fn := pool.caller.fns ++ pool.threadFns

/-- In a step the assertions hold, and when `run` returns everything that was pushed has finished.
Each function that was pushed is waiting, running or finished, once; and a caller that waits without
having been notified waits for a thread that is still running. -/
structure Completes (pool : ThreadPool Fn) (event : Event Fn) : Prop where
  asserted : (pool.outcome event).asserted = true
  returned : (pool.outcome event).returned = true →
    (pool.step event).finished.Perm (pool.step event).pushed
  once : (pool.step event).pushed.Perm
    ((pool.step event).finished ++ ((pool.step event).running ++ (pool.step event).work))
  awaited : (pool.step event).caller = .completing false → (pool.step event).threadFns ≠ []

/-- No thread is at a function that it took outside of a run that uses the threads. -/
def NoStray : Prop := ∀ thread ∈ pool.threads, ∀ fn, thread ≠ .running fn false

/-- No function is pushed, no run begins, and no run that does not use the threads ends while a
thread is at a function that it took outside of a run that uses them. -/
def Settled (pool : ThreadPool Fn) (event : Event Fn) : Prop :=
  match event, pool.caller with
  | .pushWork _, .outside | .run, .outside => pool.NoStray
  | .callerFinishes, .running _ false => pool.work = [] → pool.NoStray
  | _, _ => True

/-!
## What holds between the steps
-/

/-- The threads that are at a function that they took in a run that uses the threads. -/
def NoShared : Prop := ∀ thread ∈ pool.threads, ∀ fn, thread ≠ .running fn true

structure Consistent (pool : ThreadPool Fn) : Prop where
  working : pool.working = pool.running.length
  once : pool.pushed.Perm (pool.finished ++ (pool.running ++ pool.work))
  shared : pool.caller.usesThreads = false → pool.NoShared
  awaited : ∀ notified, pool.caller = .completing notified →
    pool.work = [] ∧ (notified = false → pool.threadFns ≠ [])

variable {pool}

theorem threadFns_eq_nil_iff :
    pool.threadFns = [] ↔ ∀ thread ∈ pool.threads, ∀ fn shared, thread ≠ .running fn shared := by
  rw [threadFns, List.flatMap_eq_nil_iff]
  constructor
  · intro noFns thread member fn shared isRunning
    have none := noFns thread member
    rw [isRunning] at none
    exact List.cons_ne_nil _ _ none
  · intro noneRuns thread member
    cases thread with
    | starting => rfl
    | waiting => rfl
    | woken => rfl
    | running fn shared => exact absurd rfl (noneRuns _ member fn shared)

/-- Where the threads are not used, every function that a thread runs is a stray one. -/
theorem noStray_iff (noShared : pool.NoShared) : pool.NoStray ↔ pool.threadFns = [] := by
  rw [threadFns_eq_nil_iff]
  constructor
  · intro noStray thread member fn shared
    cases shared with
    | true => exact noShared thread member fn
    | false => exact noStray thread member fn
  · intro noneRuns thread member fn
    exact noneRuns thread member fn false

/-- What holds at the head of the loop of `run`. -/
structure Ready (pool : ThreadPool Fn) (useThreads : Bool) : Prop where
  working : pool.working = pool.threadFns.length
  once : pool.pushed.Perm (pool.finished ++ (pool.threadFns ++ pool.work))
  shared : useThreads = false → pool.NoShared

/-- When `run` returns and its assertions hold, everything has finished. -/
theorem Consistent.finished (consistent : pool.Consistent) (idle : pool.working = 0)
    (noWork : pool.work = []) : pool.finished.Perm pool.pushed := by
  have none : pool.running = [] := List.length_eq_zero_iff.mp (consistent.working ▸ idle)
  have once := consistent.once
  rw [none, noWork, List.append_nil, List.append_nil] at once
  exact once.symm

theorem leave_spec {useThreads : Bool} (ready : pool.Ready useThreads)
    (stays : useThreads = true → pool.working = 0) : pool.leave.pool.Consistent := by
  have noShared : pool.NoShared := by
    cases useThreads with
    | false => exact ready.shared rfl
    | true =>
        have none : pool.threadFns = [] :=
          List.length_eq_zero_iff.mp (ready.working ▸ stays rfl)
        exact fun thread member fn => threadFns_eq_nil_iff.mp none thread member fn true
  exact {
    working := ready.working
    once := ready.once
    shared := fun _ => noShared
    awaited := fun notified isCompleting => by cases isCompleting }

/-- The loop either takes a function, waits for a thread that is still running, or leaves. -/
theorem runLoop_cases (useThreads : Bool) :
    (∃ fn later, pool.work = fn :: later ∧
      pool.runLoop useThreads =
        { pool with
          work := later
          working := pool.working + 1
          caller := .running fn useThreads }.goesOn) ∨
    (pool.work = [] ∧ useThreads = true ∧ 0 < pool.working ∧
      pool.runLoop useThreads = { pool with caller := .completing false }.goesOn) ∨
    (pool.work = [] ∧ (useThreads = true → pool.working = 0) ∧
      pool.runLoop useThreads = pool.leave) := by
  unfold runLoop
  cases isWork : pool.work with
  | cons fn later => exact .inl ⟨fn, later, rfl, rfl⟩
  | nil =>
      refine .inr ?_
      cases useThreads with
      | false => exact .inr ⟨rfl, fun uses => Bool.noConfusion uses, rfl⟩
      | true =>
          by_cases idle : pool.working = 0
          · have skips : ¬ (true && (decide (0 < pool.working) || !([] : List Fn).isEmpty)) = true := by
              simp [idle]
            exact .inr ⟨rfl, fun _ => idle, if_neg skips⟩
          · have others : 0 < pool.working := Nat.pos_of_ne_zero idle
            have stays : ¬ (decide (pool.working = 0) && pool.work.isEmpty) = true := by
              simp [idle]
            refine .inl ⟨rfl, rfl, others, ?_⟩
            dsimp only
            rw [if_pos (by simp [others]), waitComplete, if_neg stays, isWork]

theorem runLoop_consistent {useThreads : Bool} (ready : pool.Ready useThreads) :
    (pool.runLoop useThreads).pool.Consistent := by
  obtain ⟨fn, later, isWork, takes⟩ | ⟨noWork, uses, others, waits⟩ | ⟨noWork, stays, leaves⟩ :=
    @runLoop_cases _ pool useThreads
  · rw [takes]
    have once := ready.once
    rw [isWork] at once
    exact {
      working := by
        have working := ready.working
        simp only [goesOn, running, Caller.fns, threadFns, List.length_append, List.length_cons,
          List.length_nil] at working ⊢
        omega
      once := once.trans (List.perm_middle.append_left pool.finished)
      shared := ready.shared
      awaited := fun notified isCompleting => by cases isCompleting }
  · rw [waits]
    exact {
      working := ready.working
      once := ready.once
      shared := fun usesNot => by cases usesNot
      awaited := fun notified _ =>
        ⟨noWork, fun _ none => Nat.ne_of_gt others
          (ready.working.trans (List.length_eq_zero_iff.mpr none))⟩ }
  · rw [leaves]
    exact leave_spec ready stays

theorem leave_asserted : pool.leave.asserted = true ↔ pool.working = 0 ∧ pool.work = [] := by
  simp [leave]

theorem runLoop_asserted (useThreads : Bool) :
    (pool.runLoop useThreads).asserted = true ↔
      (useThreads = false → pool.work = [] → pool.working = 0) := by
  obtain ⟨fn, later, isWork, takes⟩ | ⟨noWork, uses, others, waits⟩ | ⟨noWork, stays, leaves⟩ :=
    @runLoop_cases _ pool useThreads
  · rw [takes, isWork]
    exact iff_of_true rfl fun _ isEmpty => absurd isEmpty (List.cons_ne_nil _ _)
  · rw [waits, uses]
    exact iff_of_true rfl fun usesNot => by cases usesNot
  · rw [leaves, leave_asserted, noWork]
    cases useThreads with
    | true => exact iff_of_true ⟨stays rfl, rfl⟩ fun usesNot => by cases usesNot
    | false =>
        constructor
        · intro ⟨idle, _⟩ _ _
          exact idle
        · intro idle
          exact ⟨idle rfl rfl, rfl⟩

/-- `run` is left from the head of its loop, with nothing to do. -/
theorem runLoop_returned {useThreads : Bool}
    (returned : (pool.runLoop useThreads).returned = true)
    (asserted : (pool.runLoop useThreads).asserted = true) :
    (pool.runLoop useThreads).pool.working = 0 ∧ (pool.runLoop useThreads).pool.work = [] := by
  obtain ⟨fn, later, isWork, takes⟩ | ⟨noWork, uses, others, waits⟩ | ⟨noWork, stays, leaves⟩ :=
    @runLoop_cases _ pool useThreads
  · rw [takes] at returned
    cases returned
  · rw [waits] at returned
    cases returned
  · rw [leaves] at asserted ⊢
    exact leave_asserted.mp asserted

/-!
## Steps of the caller
-/

theorem consistent_pushWork (consistent : pool.Consistent) (outside : pool.caller = .outside)
    (fn : Fn) : (pool.pushWork fn).pool.Consistent where
  working := consistent.working
  once := by
    have more := consistent.once.append_right [fn]
    simpa only [pushWork, running, threadFns, List.append_assoc] using more
  shared := consistent.shared
  awaited := fun notified isCompleting => by
    rw [pushWork, outside] at isCompleting
    cases isCompleting

/-- Outside of `run` the caller can enter the loop. -/
theorem ready_outside (consistent : pool.Consistent) (outside : pool.caller = .outside)
    (useThreads : Bool) : pool.Ready useThreads where
  working := by
    rw [consistent.working, running, outside]
    rfl
  once := by
    have once := consistent.once
    rw [running, outside] at once
    exact once
  shared := fun _ => consistent.shared (by rw [outside]; rfl)

theorem fns_notify (thread : Thread Fn) : thread.notify.fns = thread.fns := by
  cases thread with
  | starting => rfl
  | waiting => rfl
  | woken => rfl
  | running => rfl

theorem ready_notify {useThreads : Bool} (ready : pool.Ready useThreads) :
    { pool with threads := pool.threads.map Thread.notify }.Ready useThreads := by
  have same : { pool with threads := pool.threads.map Thread.notify }.threadFns =
      pool.threadFns := by
    simp only [threadFns, List.flatMap_map, fns_notify]
  exact {
    working := same ▸ ready.working
    once := same ▸ ready.once
    shared := by
      intro usesNot thread member fn isShared
      obtain ⟨before, isThread, isNotified⟩ := List.mem_map.mp member
      have noShared := ready.shared usesNot before isThread fn
      cases before with
      | starting =>
          rw [← isNotified] at isShared
          cases isShared
      | waiting =>
          rw [← isNotified] at isShared
          cases isShared
      | woken =>
          rw [← isNotified] at isShared
          cases isShared
      | running other shared =>
          rw [← isNotified] at isShared
          exact noShared isShared }

/-- A function that the caller has run brings it back to the head of the loop. -/
theorem ready_finishOne (consistent : pool.Consistent) {fn : Fn} {useThreads : Bool}
    (isRunning : pool.caller = .running fn useThreads) :
    (pool.finishOne fn).Ready useThreads where
  working := by
    have working := consistent.working
    rw [running, isRunning] at working
    simp only [finishOne, threadFns, Caller.fns, List.length_append, List.length_cons,
      List.length_nil] at working ⊢
    omega
  once := by
    have once := consistent.once
    rw [running, isRunning] at once
    have same : (pool.finishOne fn).finished ++ ((pool.finishOne fn).threadFns ++
        (pool.finishOne fn).work) =
        pool.finished ++ (Caller.fns (.running fn useThreads) ++ pool.threadFns ++ pool.work) := by
      simp [finishOne, threadFns, Caller.fns]
    rw [same]
    exact once
  shared := fun usesNot => consistent.shared (by rw [isRunning]; exact usesNot)

/-!
## Steps of the threads
-/

theorem set_split {threads : List (Thread Fn)} {i : Nat} {thread : Thread Fn}
    (isThread : threads[i]? = some thread) :
    ∃ before after, threads = before ++ thread :: after ∧
      ∀ other, threads.set i other = before ++ other :: after := by
  obtain ⟨inside, isAt⟩ := List.getElem?_eq_some_iff.mp isThread
  refine ⟨threads.take i, threads.drop (i + 1), ?_, fun other => ?_⟩
  · rw [← isAt, List.getElem_cons_drop, List.take_append_drop]
  · exact List.set_eq_take_append_cons_drop.trans (if_pos inside)

/-- The functions of the threads, when one thread is replaced. -/
theorem threadFns_split {i : Nat} {thread : Thread Fn}
    (isThread : pool.threads[i]? = some thread) :
    ∃ before after, pool.threadFns = before ++ (thread.fns ++ after) ∧
      ∀ (next : ThreadPool Fn) (other : Thread Fn), next.threads = pool.threads.set i other →
        next.threadFns = before ++ (other.fns ++ after) := by
  obtain ⟨before, after, isBefore, isAfter⟩ := set_split isThread
  refine ⟨before.flatMap Thread.fns, after.flatMap Thread.fns, ?_, fun next other isNext => ?_⟩
  · rw [threadFns, isBefore, List.flatMap_append, List.flatMap_cons]
  · rw [threadFns, isNext, isAfter, List.flatMap_append, List.flatMap_cons]

/-- A thread that runs nothing, before and after, changes nothing. -/
theorem consistent_setThread (consistent : pool.Consistent) {i : Nat} {thread other : Thread Fn}
    (isThread : pool.threads[i]? = some thread) (idle : thread.fns = []) (stays : other.fns = []) :
    (pool.setThread i other).Consistent := by
  obtain ⟨before, after, isBefore, isAfter⟩ := threadFns_split isThread
  have same : (pool.setThread i other).threadFns = pool.threadFns := by
    rw [isAfter _ other rfl, isBefore, idle, stays]
  have sameRunning : (pool.setThread i other).running = pool.running := by
    rw [running, same]
    rfl
  exact {
    working := by
      rw [sameRunning]
      exact consistent.working
    once := by
      rw [sameRunning]
      exact consistent.once
    shared := by
      intro usesNot current member fn isShared
      obtain old | isNew := List.mem_or_eq_of_mem_set member
      · exact consistent.shared usesNot current old fn isShared
      · rw [← isNew, isShared] at stays
        exact List.cons_ne_nil _ _ stays
    awaited := by
      intro notified isCompleting
      rw [same]
      exact consistent.awaited notified isCompleting }

theorem perm_taken (finished own before after later : List Fn) (fn : Fn) :
    (finished ++ (own ++ (before ++ after) ++ fn :: later)).Perm
      (finished ++ (own ++ (before ++ fn :: after) ++ later)) := by
  refine List.Perm.append_left finished ?_
  have taken : (own ++ (before ++ after) ++ fn :: later).Perm
      (fn :: (own ++ (before ++ after) ++ later)) := List.perm_middle
  have held : (own ++ before ++ fn :: (after ++ later)).Perm
      (fn :: (own ++ before ++ (after ++ later))) := List.perm_middle
  simp only [List.append_assoc, List.cons_append] at taken held ⊢
  exact taken.trans held.symm

theorem perm_finished (finished own before after work : List Fn) (fn : Fn) :
    (finished ++ (own ++ (before ++ fn :: after) ++ work)).Perm
      (finished ++ [fn] ++ (own ++ (before ++ after) ++ work)) := by
  have held : (finished ++ own ++ before ++ fn :: (after ++ work)).Perm
      (fn :: (finished ++ own ++ before ++ (after ++ work))) := List.perm_middle
  have ended : (finished ++ fn :: (own ++ (before ++ after) ++ work)).Perm
      (fn :: (finished ++ (own ++ (before ++ after) ++ work))) := List.perm_middle
  simp only [List.append_assoc, List.cons_append, List.nil_append] at held ended ⊢
  exact held.trans ended.symm

theorem consistent_threadWork (consistent : pool.Consistent) {i : Nat}
    (isThread : pool.threads[i]? = some .woken) : (pool.threadWork i).Consistent := by
  unfold threadWork
  cases isWork : pool.work with
  | nil => exact consistent_setThread consistent isThread rfl rfl
  | cons fn later =>
      obtain ⟨before, after, isBefore, isAfter⟩ := threadFns_split isThread
      have working := consistent.working
      have once := consistent.once
      rw [running, isBefore] at working once
      rw [isWork] at once
      have taken : ({ pool with
          work := later
          working := pool.working + 1 }.setThread i
            (.running fn pool.caller.usesThreads)).running =
          pool.caller.fns ++ (before ++ fn :: after) := by
        rw [running, isAfter _ _ rfl]
        rfl
      exact {
        working := by
          rw [taken]
          simp only [setThread, Thread.fns, List.length_append, List.length_cons,
            List.length_nil] at working ⊢
          omega
        once := by
          rw [taken]
          exact once.trans (perm_taken _ _ _ _ _ _)
        shared := by
          intro usesNot current member other isShared
          obtain old | isNew := List.mem_or_eq_of_mem_set member
          · exact consistent.shared usesNot current old other isShared
          · rw [isShared] at isNew
            have usesThreads := (Thread.running.inj isNew).2
            exact Bool.noConfusion (usesThreads.trans usesNot)
        awaited := by
          intro notified isCompleting
          have noWork := (consistent.awaited notified isCompleting).1
          rw [isWork] at noWork
          exact absurd noWork (List.cons_ne_nil _ _) }

theorem fns_notify_caller (caller : Caller Fn) : caller.notify.fns = caller.fns := by
  cases caller with
  | outside => rfl
  | running => rfl
  | completing => rfl

theorem usesThreads_notify (caller : Caller Fn) :
    caller.notify.usesThreads = caller.usesThreads := by
  cases caller with
  | outside => rfl
  | running => rfl
  | completing => rfl

/-- The caller is notified by the last one. -/
theorem caller_finishOne (fn : Fn) :
    ((pool.finishOne fn).caller = pool.caller ∧ ¬ (pool.work = [] ∧ pool.working - 1 = 0)) ∨
      (pool.finishOne fn).caller = pool.caller.notify := by
  by_cases last : (pool.work.isEmpty && decide (pool.working - 1 = 0)) = true
  · exact .inr (if_pos last)
  · refine .inl ⟨if_neg last, ?_⟩
    rwa [Bool.and_eq_true, List.isEmpty_iff, decide_eq_true_eq] at last

theorem caller_finishOne_same (fn : Fn) :
    (pool.finishOne fn).caller.fns = pool.caller.fns ∧
      (pool.finishOne fn).caller.usesThreads = pool.caller.usesThreads := by
  obtain ⟨same, -⟩ | notified := @caller_finishOne _ pool fn
  · rw [same]
    exact ⟨rfl, rfl⟩
  · rw [notified]
    exact ⟨fns_notify_caller _, usesThreads_notify _⟩

/-- A caller that still waits without having been notified waits for more than this function. -/
theorem completing_finishOne {fn : Fn} {notified : Bool}
    (isCompleting : (pool.finishOne fn).caller = .completing notified) :
    ∃ before, pool.caller = .completing before ∧
      (notified = false → ¬ (pool.work = [] ∧ pool.working - 1 = 0)) := by
  obtain ⟨same, notLast⟩ | isNotified := @caller_finishOne _ pool fn
  · exact ⟨notified, same.symm.trans isCompleting, fun _ => notLast⟩
  · rw [isNotified] at isCompleting
    cases isCaller : pool.caller with
    | outside =>
        rw [isCaller] at isCompleting
        cases isCompleting
    | running =>
        rw [isCaller] at isCompleting
        cases isCompleting
    | completing before =>
        rw [isCaller] at isCompleting
        cases isCompleting
        exact ⟨before, rfl, fun notNotified => by cases notNotified⟩

theorem consistent_threadFinishes (consistent : pool.Consistent) {i : Nat} {fn : Fn}
    {shared : Bool} (isThread : pool.threads[i]? = some (.running fn shared)) :
    ((pool.finishOne fn).setThread i .waiting).Consistent := by
  obtain ⟨before, after, isBefore, isAfter⟩ := threadFns_split isThread
  obtain ⟨sameFns, sameUse⟩ := @caller_finishOne_same _ pool fn
  have ended : ((pool.finishOne fn).setThread i .waiting).threadFns = before ++ after :=
    isAfter _ .waiting rfl
  have isLeft : ((pool.finishOne fn).setThread i .waiting).running =
      pool.caller.fns ++ (before ++ after) := by
    rw [running, ended, ← sameFns]
    rfl
  have working := consistent.working
  have once := consistent.once
  rw [running, isBefore] at working once
  simp only [Thread.fns, List.length_append, List.length_cons, List.length_nil] at working
  exact {
    working := by
      rw [isLeft]
      simp only [setThread, finishOne, List.length_append]
      omega
    once := by
      rw [isLeft]
      exact once.trans (perm_finished _ _ _ _ _ _)
    shared := by
      intro usesNot current member other isShared
      obtain old | isNew := List.mem_or_eq_of_mem_set member
      · exact consistent.shared (sameUse.symm.trans usesNot) current old other isShared
      · rw [isShared] at isNew
        cases isNew
    awaited := by
      intro notified isNow
      obtain ⟨was, isCompleting, notLast⟩ := @completing_finishOne _ pool fn notified isNow
      have noWork := (consistent.awaited was isCompleting).1
      refine ⟨noWork, fun notNotified none => notLast notNotified ⟨noWork, ?_⟩⟩
      have noneLeft := congrArg List.length (ended.symm.trans none)
      rw [isCompleting] at working
      simp only [Caller.fns, List.length_append, List.length_nil] at working noneLeft
      omega }

/-!
## Every step
-/

theorem consistent_create (maxConcurrency : Int) :
    (create maxConcurrency : ThreadPool Fn).Consistent := by
  have noFns : (create maxConcurrency : ThreadPool Fn).threadFns = [] := by
    rw [threadFns, List.flatMap_eq_nil_iff]
    intro thread member
    rw [List.eq_of_mem_replicate member]
    rfl
  have noneRuns : (create maxConcurrency : ThreadPool Fn).running = [] := by
    rw [running, noFns]
    rfl
  exact {
    working := by
      rw [noneRuns]
      rfl
    once := by
      rw [noneRuns]
      exact .refl _
    shared := fun _ thread member fn => threadFns_eq_nil_iff.mp noFns thread member fn true
    awaited := fun notified isCompleting => by cases isCompleting }

theorem waitComplete_cases :
    (pool.working = 0 ∧ pool.work = [] ∧ pool.waitComplete = pool.leave) ∨
      (¬ (pool.working = 0 ∧ pool.work = []) ∧
        pool.waitComplete = { pool with caller := .completing false }.goesOn) := by
  unfold waitComplete
  by_cases isOver : (decide (pool.working = 0) && pool.work.isEmpty) = true
  · rw [if_pos isOver]
    rw [Bool.and_eq_true, decide_eq_true_eq, List.isEmpty_iff] at isOver
    exact .inl ⟨isOver.1, isOver.2, rfl⟩
  · rw [if_neg isOver]
    rw [Bool.and_eq_true, decide_eq_true_eq, List.isEmpty_iff] at isOver
    exact .inr ⟨isOver, rfl⟩

/-- The caller that waits leaves when nothing is running any more. -/
theorem consistent_waitComplete (consistent : pool.Consistent) {notified : Bool}
    (isCompleting : pool.caller = .completing notified) : pool.waitComplete.pool.Consistent := by
  have noWork := (consistent.awaited notified isCompleting).1
  have ready : pool.Ready true := {
    working := by
      rw [consistent.working, running, isCompleting]
      rfl
    once := by
      have once := consistent.once
      rw [running, isCompleting] at once
      exact once
    shared := fun usesNot => by cases usesNot }
  obtain ⟨idle, -, leaves⟩ | ⟨others, waits⟩ := @waitComplete_cases _ pool
  · rw [leaves]
    exact leave_spec ready fun _ => idle
  · rw [waits]
    exact {
      working := ready.working
      once := ready.once
      shared := fun usesNot => by cases usesNot
      awaited := fun _ _ => ⟨noWork, fun _ none =>
        others ⟨ready.working.trans (List.length_eq_zero_iff.mpr none), noWork⟩⟩ }

theorem consistent_run (consistent : pool.Consistent) (outside : pool.caller = .outside) :
    pool.run.pool.Consistent := by
  have ready (useThreads : Bool) := ready_outside consistent outside useThreads
  unfold run
  dsimp only
  split
  · exact runLoop_consistent (ready_notify (ready _))
  · exact runLoop_consistent (ready _)

/-- An event does nothing, or what the caller or a thread does. -/
inductive Happens (pool : ThreadPool Fn) : Event Fn → Outcome Fn → Prop
  | nothing {event : Event Fn} (settled : pool.Settled event) : Happens pool event pool.goesOn
  | pushWork (outside : pool.caller = .outside) (fn : Fn) :
      Happens pool (.pushWork fn) (pool.pushWork fn)
  | run (outside : pool.caller = .outside) : Happens pool .run pool.run
  | callerFinishes {fn : Fn} {useThreads : Bool}
      (isRunning : pool.caller = .running fn useThreads) :
      Happens pool .callerFinishes ((pool.finishOne fn).runLoop useThreads)
  | callerWakes {notified : Bool} (isCompleting : pool.caller = .completing notified) :
      Happens pool .callerWakes pool.waitComplete
  | threadMoves {event : Event Fn} {i : Nat} {thread other : Thread Fn}
      (settled : pool.Settled event) (isThread : pool.threads[i]? = some thread)
      (idle : thread.fns = []) (stays : other.fns = []) :
      Happens pool event (pool.setThread i other).goesOn
  | threadLocks {i : Nat} (isThread : pool.threads[i]? = some .woken) :
      Happens pool (.threadLocks i) (pool.threadWork i).goesOn
  | threadFinishes {i : Nat} {fn : Fn} {shared : Bool}
      (isThread : pool.threads[i]? = some (.running fn shared)) :
      Happens pool (.threadFinishes i) ((pool.finishOne fn).setThread i .waiting).goesOn

theorem happens_outcome (pool : ThreadPool Fn) (event : Event Fn) :
    Happens pool event (pool.outcome event) := by
  have nothing (settled : pool.Settled event) : Happens pool event pool.goesOn := .nothing settled
  unfold Settled at nothing
  unfold outcome
  cases event with
  | pushWork fn =>
      cases isCaller : pool.caller with
      | outside => exact .pushWork isCaller fn
      | running =>
          rw [isCaller] at nothing
          exact nothing trivial
      | completing =>
          rw [isCaller] at nothing
          exact nothing trivial
  | run =>
      cases isCaller : pool.caller with
      | outside => exact .run isCaller
      | running =>
          rw [isCaller] at nothing
          exact nothing trivial
      | completing =>
          rw [isCaller] at nothing
          exact nothing trivial
  | callerFinishes =>
      cases isCaller : pool.caller with
      | running fn useThreads => exact .callerFinishes isCaller
      | outside =>
          rw [isCaller] at nothing
          exact nothing trivial
      | completing =>
          rw [isCaller] at nothing
          exact nothing trivial
  | callerWakes =>
      cases isCaller : pool.caller with
      | completing => exact .callerWakes isCaller
      | outside => exact nothing trivial
      | running => exact nothing trivial
  | threadStarts i =>
      dsimp only
      split
      · next isThread => exact .threadMoves trivial isThread rfl rfl
      all_goals exact nothing trivial
  | threadWakes i =>
      dsimp only
      split
      · next isThread => exact .threadMoves trivial isThread rfl rfl
      all_goals exact nothing trivial
  | threadLocks i =>
      dsimp only
      split
      · next isThread => exact .threadLocks isThread
      all_goals exact nothing trivial
  | threadFinishes i =>
      dsimp only
      split
      · next isThread => exact .threadFinishes isThread
      all_goals exact nothing trivial

theorem consistent_step (consistent : pool.Consistent) (event : Event Fn) :
    (pool.step event).Consistent := by
  have happens := happens_outcome pool event
  unfold step
  generalize pool.outcome event = outcome at happens ⊢
  cases happens with
  | nothing => exact consistent
  | pushWork outside fn => exact consistent_pushWork consistent outside fn
  | run outside => exact consistent_run consistent outside
  | callerFinishes isRunning => exact runLoop_consistent (ready_finishOne consistent isRunning)
  | callerWakes isCompleting => exact consistent_waitComplete consistent isCompleting
  | threadMoves _ isThread idle stays => exact consistent_setThread consistent isThread idle stays
  | threadLocks isThread => exact consistent_threadWork consistent isThread
  | threadFinishes isThread => exact consistent_threadFinishes consistent isThread

/-!
## When the assertions hold
-/

theorem working_outside (consistent : pool.Consistent) (outside : pool.caller = .outside) :
    pool.working = 0 ↔ pool.NoStray := by
  have ready := ready_outside consistent outside false
  rw [noStray_iff (ready.shared rfl), ready.working, List.length_eq_zero_iff]

theorem asserted_pushWork (consistent : pool.Consistent) (outside : pool.caller = .outside)
    (fn : Fn) : (pool.pushWork fn).asserted = true ↔ pool.NoStray := by
  rw [← working_outside consistent outside]
  exact decide_eq_true_iff

theorem asserted_run (consistent : pool.Consistent) (outside : pool.caller = .outside) :
    pool.run.asserted = true ↔ pool.NoStray := by
  rw [← working_outside consistent outside, run]
  dsimp only
  rw [Bool.and_eq_true, decide_eq_true_iff, and_iff_left_iff_imp]
  intro idle
  split
  · exact (runLoop_asserted _).mpr fun _ _ => idle
  · exact (runLoop_asserted _).mpr fun _ _ => idle

theorem asserted_callerFinishes (consistent : pool.Consistent) {fn : Fn} {useThreads : Bool}
    (isRunning : pool.caller = .running fn useThreads) :
    ((pool.finishOne fn).runLoop useThreads).asserted = true ↔
      (useThreads = false → pool.work = [] → pool.NoStray) := by
  have ready := ready_finishOne consistent isRunning
  rw [runLoop_asserted]
  refine forall_congr' fun usesNot => ?_
  have noShared : pool.NoShared := consistent.shared (by rw [isRunning]; exact usesNot)
  rw [noStray_iff noShared, ready.working, List.length_eq_zero_iff]
  exact Iff.rfl

theorem asserted_waitComplete : pool.waitComplete.asserted = true := by
  obtain ⟨idle, noWork, leaves⟩ | ⟨others, waits⟩ := @waitComplete_cases _ pool
  · rw [leaves]
    exact leave_asserted.mpr ⟨idle, noWork⟩
  · rw [waits]
    rfl

/-- The assertions of a step hold exactly when it is settled. -/
theorem asserted_iff (consistent : pool.Consistent) (event : Event Fn) :
    (pool.outcome event).asserted = true ↔ pool.Settled event := by
  have happens := happens_outcome pool event
  generalize pool.outcome event = outcome at happens ⊢
  cases happens with
  | nothing settled => exact iff_of_true rfl settled
  | pushWork outside fn =>
      unfold Settled
      rw [outside]
      exact asserted_pushWork consistent outside fn
  | run outside =>
      unfold Settled
      rw [outside]
      exact asserted_run consistent outside
  | @callerFinishes fn useThreads isRunning =>
      have asserted := asserted_callerFinishes consistent isRunning
      unfold Settled
      rw [isRunning]
      cases useThreads with
      | true => exact asserted.trans (iff_of_true (fun uses => by cases uses) trivial)
      | false => exact asserted.trans (forall_prop_of_true rfl)
  | callerWakes => exact iff_of_true asserted_waitComplete trivial
  | threadMoves settled => exact iff_of_true rfl settled
  | threadLocks => exact iff_of_true rfl trivial
  | threadFinishes => exact iff_of_true rfl trivial

theorem returned_idle {event : Event Fn} (returned : (pool.outcome event).returned = true)
    (asserted : (pool.outcome event).asserted = true) :
    (pool.step event).working = 0 ∧ (pool.step event).work = [] := by
  have happens := happens_outcome pool event
  unfold step
  generalize pool.outcome event = outcome at happens returned asserted ⊢
  cases happens with
  | nothing => cases returned
  | pushWork => cases returned
  | run =>
      rw [run, Bool.and_eq_true] at asserted
      exact runLoop_returned returned asserted.2
  | callerFinishes => exact runLoop_returned returned asserted
  | callerWakes =>
      obtain ⟨idle, noWork, leaves⟩ | ⟨-, waits⟩ := @waitComplete_cases _ pool
      · rw [leaves]
        exact ⟨idle, noWork⟩
      · rw [waits] at returned
        cases returned
  | threadMoves => cases returned
  | threadLocks => cases returned
  | threadFinishes => cases returned

/-- A step does what it should exactly when it is settled. -/
theorem completes_iff (consistent : pool.Consistent) (event : Event Fn) :
    pool.Completes event ↔ pool.Settled event := by
  rw [← asserted_iff consistent event]
  constructor
  · exact Completes.asserted
  · intro asserted
    have after := consistent_step consistent event
    exact {
      asserted := asserted
      returned := fun returned => by
        obtain ⟨idle, noWork⟩ := returned_idle returned asserted
        exact after.finished idle noWork
      once := after.once
      awaited := fun isCompleting => (after.awaited false isCompleting).2 rfl }

/-- For any number of threads, the steps of a run do what they should exactly when they are
settled. -/
theorem run_completes_iff (maxConcurrency : Int) (events : List (Event Fn)) :
    Permitted step Completes (create maxConcurrency) events ↔
      Permitted step Settled (create maxConcurrency) events :=
  permitted_congr Consistent (fun _ event consistent _ => consistent_step consistent event)
    (fun _ event consistent => completes_iff consistent event) (consistent_create maxConcurrency)

/-- Two rounds with two threads, of which one is late: it is notified in the first round, and takes
a function of the second one while the caller is still pushing. -/
def lateThread : List (Event Nat) :=
  [.threadStarts 0, .threadStarts 1, .pushWork 1, .pushWork 2, .run, .callerFinishes,
    .callerFinishes, .pushWork 3, .threadLocks 0]

theorem not_completes_lateThread :
    ¬ ∀ (maxConcurrency : Int) (events : List (Event Nat)),
      Permitted step Completes (create maxConcurrency) events := by
  intro all
  have permitted := permitted_append.mp (all 3 (lateThread ++ [.pushWork 4]))
  have asserted := permitted.2.1.asserted
  have fails : ((Library.run step (create 3) lateThread).outcome (.pushWork 4)).asserted = false := by
    decide
  rw [fails] at asserted
  cases asserted

/-!
## Threads that take functions only when they should
-/

end ThreadPool

end FreeOnline.Kit
