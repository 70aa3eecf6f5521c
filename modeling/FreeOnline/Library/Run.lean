import Mathlib.Data.List.Basic

/-!
# Runs of a state machine

A machine takes one event after the other. What a permitted step preserves holds
after every run of permitted steps, and what the body of a loop preserves holds behind it.
-/

set_option autoImplicit false

namespace FreeOnline.Library

universe u v

variable {State : Type u} {Event : Type v}

def run (step : State → Event → State) (state : State) (events : List Event) : State :=
  events.foldl step state

/-- Every event of the run is permitted in the state in which it happens. -/
def Permitted (step : State → Event → State) (allowed : State → Event → Prop) :
    State → List Event → Prop
  | _, [] => True
  | state, event :: events =>
      allowed state event ∧ Permitted step allowed (step state event) events

instance (step : State → Event → State) (allowed : State → Event → Prop)
    [∀ state event, Decidable (allowed state event)] (state : State) (events : List Event) :
    Decidable (Permitted step allowed state events) :=
  match events with
  | [] => .isTrue trivial
  | event :: events =>
      have := instDecidablePermitted step allowed (step state event) events
      inferInstanceAs (Decidable (_ ∧ _))

theorem permitted_append {step : State → Event → State} {allowed : State → Event → Prop}
    {state : State} {events more : List Event} :
    Permitted step allowed state (events ++ more) ↔
      Permitted step allowed state events ∧ Permitted step allowed (run step state events) more := by
  induction events generalizing state with
  | nil => simp [Permitted, run]
  | cons event events ih => simp [Permitted, run, ih, and_assoc]

theorem permitted_of_forall {step : State → Event → State} {allowed : State → Event → Prop}
    (always : ∀ state event, allowed state event) (state : State) (events : List Event) :
    Permitted step allowed state events := by
  induction events generalizing state with
  | nil => trivial
  | cons event events ih => exact ⟨always state event, ih (step state event)⟩

theorem permitted_mono {step : State → Event → State} {allowed other : State → Event → Prop}
    (weaker : ∀ state event, allowed state event → other state event) {state : State}
    {events : List Event} (permitted : Permitted step allowed state events) :
    Permitted step other state events := by
  induction events generalizing state with
  | nil => trivial
  | cons event events ih => exact ⟨weaker state event permitted.1, ih permitted.2⟩

theorem permitted_iff_forall {step : State → Event → State} {allowed : State → Event → Prop}
    {state : State} {events : List Event} :
    Permitted step allowed state events ↔ ∀ before event after, events = before ++ event :: after →
      allowed (run step state before) event := by
  induction events generalizing state with
  | nil => simp [Permitted]
  | cons first events ih =>
      constructor
      · rintro ⟨allowedFirst, permitted⟩ before event after split
        cases before with
        | nil =>
            cases split
            exact allowedFirst
        | cons head before =>
            obtain ⟨rfl, rfl⟩ := List.cons.inj split
            exact ih.mp permitted before event after rfl
      · intro everywhere
        refine ⟨everywhere [] first events rfl, ih.mpr ?_⟩
        rintro before event after rfl
        exact everywhere (first :: before) event after rfl

/-- Two events of a run are the same one, or one of them comes before the other. -/
theorem split_cases {before after before' after' : List Event} {event event' : Event}
    (same : before ++ event :: after = before' ++ event' :: after') :
    (before = before' ∧ event = event') ∨ (∃ between, before' = before ++ event :: between) ∨
      ∃ between, before = before' ++ event' :: between := by
  obtain ⟨between, isBefore, rest⟩ | ⟨between, isBefore, rest⟩ := List.append_eq_append_iff.mp same
  · cases between with
    | nil =>
        rw [List.append_nil] at isBefore
        exact .inl ⟨isBefore.symm, (List.cons.inj rest).1⟩
    | cons head between =>
        obtain ⟨rfl, -⟩ := List.cons.inj rest
        exact .inr (.inl ⟨between, isBefore⟩)
  · cases between with
    | nil =>
        rw [List.append_nil] at isBefore
        exact .inl ⟨isBefore, (List.cons.inj rest).1.symm⟩
    | cons head between =>
        obtain ⟨rfl, -⟩ := List.cons.inj rest
        exact .inr (.inr ⟨between, isBefore⟩)

/-- Conditions that mean the same wherever an invariant of the permitted runs holds permit
the same runs. -/
theorem permitted_congr (invariant : State → Prop) {step : State → Event → State}
    {allowed other : State → Event → Prop}
    (preserved : ∀ state event, invariant state → allowed state event →
      invariant (step state event))
    (same : ∀ state event, invariant state → (allowed state event ↔ other state event))
    {state : State} {events : List Event} (initially : invariant state) :
    Permitted step allowed state events ↔ Permitted step other state events := by
  induction events generalizing state with
  | nil => exact Iff.rfl
  | cons event events ih =>
      have sameFirst := same state event initially
      constructor
      · rintro ⟨allowedFirst, permitted⟩
        exact ⟨sameFirst.mp allowedFirst,
          (ih (preserved state event initially allowedFirst)).mp permitted⟩
      · rintro ⟨otherFirst, permitted⟩
        have allowedFirst := sameFirst.mpr otherFirst
        exact ⟨allowedFirst, (ih (preserved state event initially allowedFirst)).mpr permitted⟩

/-- The rule for invariants of permitted runs. -/
theorem run_invariant (invariant : State → Prop) {step : State → Event → State}
    {allowed : State → Event → Prop}
    (preserved : ∀ state event, invariant state → allowed state event →
      invariant (step state event))
    {state : State} {events : List Event} (initially : invariant state)
    (permitted : Permitted step allowed state events) :
    invariant (run step state events) := by
  induction events generalizing state with
  | nil => exact initially
  | cons event events ih =>
      exact ih (preserved state event initially permitted.1) permitted.2

/-!
## Loops
-/

/-- A loop whose body says how to go on, or that it is over. -/
def loop (body : State → Option State) : Nat → State → State
  | 0, state => state
  | fuel + 1, state =>
      match body state with
      | none => state
      | some next => loop body fuel next

/-- The states in which the body of the loop is run. -/
def visited (body : State → Option State) : Nat → State → List State
  | 0, _ => []
  | fuel + 1, state =>
      match body state with
      | none => []
      | some next => state :: visited body fuel next

/-- A loop that is over stays where it is. -/
theorem loop_of_none {body : State → Option State} {state : State} (isOver : body state = none)
    (fuel : Nat) : loop body fuel state = state := by
  cases fuel with
  | zero => rfl
  | succ fuel => rw [loop, isOver]

/-- The rule for invariants of loops, with what holds where the body is run. -/
theorem loop_invariant (invariant : State → Prop) {body : State → Option State} {fuel : Nat}
    {state : State} {allowed : State → Prop}
    (preserved : ∀ state next, invariant state → allowed state → body state = some next →
      invariant next)
    (initially : invariant state) (inside : ∀ other ∈ visited body fuel state, allowed other) :
    invariant (loop body fuel state) := by
  induction fuel generalizing state with
  | zero => exact initially
  | succ fuel ih =>
      unfold loop
      unfold visited at inside
      cases isNext : body state with
      | none => exact initially
      | some next =>
          rw [isNext] at inside
          exact ih (preserved state next initially (inside state List.mem_cons_self) isNext)
            fun other isMember => inside other (List.mem_cons_of_mem _ isMember)

end FreeOnline.Library
