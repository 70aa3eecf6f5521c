import Mathlib.Data.List.Basic

/-!
# Reading a stream in pieces

A reader looks at the front of what has arrived so far and waits for more, takes
some of it off, or stops. If more data behind what it looks at makes no difference,
then it makes no difference either how the stream is cut into pieces.
-/

set_option autoImplicit false

namespace FreeOnline.Library

universe u v w

variable {State : Type u} {Symbol : Type v} {Result : Type w}

/-- What a reader does with the front of its buffer. -/
inductive Progress (State : Type u) (Symbol : Type v) (Result : Type w) where
  | wait (state : State)
  | advance (state : State) (rest : List Symbol)
  | stop (result : Result)

def Progress.append (progress : Progress State Symbol Result) (more : List Symbol) :
    Progress State Symbol Result :=
  match progress with
  | .advance state rest => .advance state (rest ++ more)
  | .wait state => .wait state
  | .stop result => .stop result

inductive Fed (State : Type u) (Symbol : Type v) (Result : Type w) where
  | running (state : State) (buffer : List Symbol)
  | stopped (result : Result)
deriving DecidableEq

abbrev Reader (State : Type u) (Symbol : Type v) (Result : Type w) :=
  State → List Symbol → Progress State Symbol Result

def drainFor (read : Reader State Symbol Result) : Nat → State → List Symbol →
    Fed State Symbol Result
  | 0, state, buffer => .running state buffer
  | fuel + 1, state, buffer =>
      match read state buffer with
      | .wait state => .running state buffer
      | .advance state rest => drainFor read fuel state rest
      | .stop result => .stopped result

def drain (read : Reader State Symbol Result) (state : State) (buffer : List Symbol) :
    Fed State Symbol Result :=
  drainFor read (buffer.length + 1) state buffer

def feed (read : Reader State Symbol Result) (fed : Fed State Symbol Result)
    (piece : List Symbol) : Fed State Symbol Result :=
  match fed with
  | .running state buffer => drain read state (buffer ++ piece)
  | .stopped result => .stopped result

def Fed.Satisfies (Inv : State → Prop) (Ends : Result → Prop) : Fed State Symbol Result → Prop
  | .running state _ => Inv state
  | .stopped result => Ends result

/-- The rule for what every step of a reader preserves. -/
theorem satisfies_drain {read : Reader State Symbol Result} {Inv : State → Prop}
    {Ends : Result → Prop}
    (waits : ∀ {state buffer next}, read state buffer = .wait next → Inv state → Inv next)
    (advances : ∀ {state buffer next rest}, read state buffer = .advance next rest →
      Inv state → Inv next)
    (stops : ∀ {state buffer result}, read state buffer = .stop result → Inv state → Ends result)
    {state : State} (inv : Inv state) (buffer : List Symbol) :
    (drain read state buffer).Satisfies Inv Ends := by
  have steps : ∀ (fuel : Nat) (state : State) (buffer : List Symbol), Inv state →
      (drainFor read fuel state buffer).Satisfies Inv Ends := by
    intro fuel
    induction fuel with
    | zero =>
        intro state buffer inv
        exact inv
    | succ fuel ih =>
        intro state buffer inv
        rw [drainFor]
        cases progress : read state buffer with
        | wait next => exact waits progress inv
        | advance next rest => exact ih next rest (advances progress inv)
        | stop result => exact stops progress inv
  exact steps (buffer.length + 1) state buffer inv

def Shrinks (read : Reader State Symbol Result) : Prop :=
  ∀ state buffer next rest, read state buffer = .advance next rest → rest.length < buffer.length

private theorem Shrinks.drainFor_eq {read : Reader State Symbol Result} (shrinks : Shrinks read)
    {fuel other : Nat} {buffer : List Symbol} (enough : buffer.length < fuel)
    (otherEnough : buffer.length < other) (state : State) :
    drainFor read fuel state buffer = drainFor read other state buffer := by
  induction fuel generalizing other state buffer with
  | zero => exact absurd enough (Nat.not_lt_zero _)
  | succ fuel ih =>
      cases other with
      | zero => exact absurd otherEnough (Nat.not_lt_zero _)
      | succ other =>
          simp only [drainFor]
          cases progress : read state buffer with
          | wait next => rfl
          | stop result => rfl
          | advance next rest =>
              have shorter := shrinks _ _ _ _ progress
              exact ih (by omega) (by omega) next

theorem Shrinks.drain_advance {read : Reader State Symbol Result} (shrinks : Shrinks read)
    {state next : State} {buffer rest : List Symbol}
    (progress : read state buffer = .advance next rest) :
    drain read state buffer = drain read next rest := by
  have shorter := shrinks _ _ _ _ progress
  rw [drain, drainFor, progress]
  exact shrinks.drainFor_eq shorter (Nat.lt_succ_self _) next

/-- What a reader leaves is the end of what it had. -/
theorem suffix_drain {read : Reader State Symbol Result}
    (advances : ∀ {state buffer next rest}, read state buffer = .advance next rest → rest <:+ buffer)
    {state next : State} {buffer rest : List Symbol}
    (drained : drain read state buffer = .running next rest) : rest <:+ buffer := by
  have steps : ∀ (fuel : Nat) (state : State) (buffer : List Symbol),
      drainFor read fuel state buffer = .running next rest → rest <:+ buffer := by
    intro fuel
    induction fuel with
    | zero =>
        intro state buffer drained
        cases drained
        exact List.suffix_refl _
    | succ fuel ih =>
        intro state buffer drained
        rw [drainFor] at drained
        cases progress : read state buffer with
        | wait waiting =>
            rw [progress] at drained
            cases drained
            exact List.suffix_refl _
        | advance behind left =>
            rw [progress] at drained
            exact (ih behind left drained).trans (advances progress)
        | stop result =>
            rw [progress] at drained
            cases drained
  exact steps (buffer.length + 1) state buffer drained

/-- What comes behind makes no difference to what a reader does. -/
structure Incremental (read : Reader State Symbol Result) : Prop where
  empty : ∀ state, read state [] = .wait state
  shrinks : Shrinks read
  advance : ∀ {state buffer next rest}, read state buffer = .advance next rest →
    ∀ more, read state (buffer ++ more) = .advance next (rest ++ more)
  stop : ∀ {state buffer result}, read state buffer = .stop result →
    ∀ more, read state (buffer ++ more) = .stop result
  wait : ∀ {state buffer next}, read state buffer = .wait next →
    ∀ more, read next (buffer ++ more) = read state (buffer ++ more)

/-- With these symbols in front, the reader gets to another state and goes on behind them. -/
def Consumes (read : Reader State Symbol Result) (state : State) (front : List Symbol)
    (next : State) : Prop :=
  ∀ rest, drain read state (front ++ rest) = drain read next rest

namespace Consumes

variable {read : Reader State Symbol Result} {state next last : State}

theorem refl (state : State) : Consumes read state [] state := fun _ => rfl

theorem trans {front more : List Symbol} (first : Consumes read state front next)
    (second : Consumes read next more last) : Consumes read state (front ++ more) last := by
  intro rest
  rw [List.append_assoc, first, second]

end Consumes

namespace Incremental

variable {read : Reader State Symbol Result} (incremental : Incremental read)
include incremental

theorem drain_advance {state next : State} {buffer rest : List Symbol}
    (progress : read state buffer = .advance next rest) :
    drain read state buffer = drain read next rest :=
  incremental.shrinks.drain_advance progress

omit incremental in
theorem drain_wait {state next : State} {buffer : List Symbol}
    (progress : read state buffer = .wait next) :
    drain read state buffer = .running next buffer := by
  rw [drain, drainFor, progress]

omit incremental in
theorem drain_stop {state : State} {buffer : List Symbol} {result : Result}
    (progress : read state buffer = .stop result) :
    drain read state buffer = .stopped result := by
  rw [drain, drainFor, progress]

theorem drain_nil (state : State) : drain read state [] = .running state [] :=
  drain_wait (incremental.empty state)

omit incremental in
private theorem drain_congr {state other : State} {buffer : List Symbol}
    (same : read other buffer = read state buffer) :
    drain read other buffer = drain read state buffer := by
  rw [drain, drain, drainFor, drainFor, same]

theorem drain_append (state : State) (buffer more : List Symbol) :
    drain read state (buffer ++ more) = feed read (drain read state buffer) more := by
  induction length : buffer.length using Nat.strongRecOn generalizing state buffer with
  | _ n ih =>
      cases progress : read state buffer with
      | wait next =>
          rw [drain_wait progress, feed]
          exact (drain_congr (incremental.wait progress more)).symm
      | stop result =>
          rw [drain_stop progress, drain_stop (incremental.stop progress more), feed]
      | advance next rest =>
          have shorter := incremental.shrinks _ _ _ _ progress
          rw [incremental.drain_advance progress,
            incremental.drain_advance (incremental.advance progress more)]
          exact ih rest.length (by omega) next rest rfl

theorem consumes_of_advance {state next : State} {front : List Symbol}
    (progress : read state front = .advance next []) : Consumes read state front next := by
  intro rest
  exact incremental.drain_advance (incremental.advance progress rest)

/-- How the stream is cut into pieces makes no difference. -/
theorem foldl_feed (state : State) (pieces : List (List Symbol)) :
    pieces.foldl (feed read) (.running state []) = drain read state pieces.flatten := by
  have pieceByPiece : ∀ (pieces : List (List Symbol)) (read' : List Symbol),
      pieces.foldl (feed read) (drain read state read') =
        drain read state (read' ++ pieces.flatten) := by
    intro pieces
    induction pieces with
    | nil =>
        intro read'
        rw [List.foldl_nil, List.flatten_nil, List.append_nil]
    | cons piece pieces ih =>
        intro read'
        rw [List.foldl_cons, ← incremental.drain_append, ih, List.flatten_cons,
          List.append_assoc]
  have all := pieceByPiece pieces []
  rwa [incremental.drain_nil] at all

theorem foldl_feed_of_consumes {state next : State} {pieces : List (List Symbol)}
    (consumes : Consumes read state pieces.flatten next) :
    pieces.foldl (feed read) (.running state []) = .running next [] := by
  rw [incremental.foldl_feed, ← List.append_nil pieces.flatten, consumes, incremental.drain_nil]

end Incremental

end FreeOnline.Library
