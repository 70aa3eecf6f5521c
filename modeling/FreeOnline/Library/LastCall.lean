import Mathlib.Data.List.Basic

/-!
# Functions that remember their last call

The argument and the result of the last call are kept, and a call with the same argument is
answered from there. What is kept at first need not be what the function would compute.
-/

set_option autoImplicit false

namespace FreeOnline.Library

universe u v

structure LastCall (Arg : Type u) (Result : Type v) where
  previous : Arg
  cached : Result

namespace LastCall

variable {Arg : Type u} {Result : Type v} [DecidableEq Arg] (compute : Arg → Result)

def call (last : LastCall Arg Result) (arg : Arg) : Result × LastCall Arg Result :=
  if arg = last.previous then (last.cached, last) else (compute arg, ⟨arg, compute arg⟩)

def after (last : LastCall Arg Result) (args : List Arg) : LastCall Arg Result :=
  args.foldl (fun last arg => (last.call compute arg).2) last

/-- What is kept is what would be computed. -/
def Valid (last : LastCall Arg Result) : Prop := last.cached = compute last.previous

variable {compute} {last : LastCall Arg Result} {arg : Arg}

theorem call_same (same : arg = last.previous) : last.call compute arg = (last.cached, last) :=
  if_pos same

theorem call_other (other : arg ≠ last.previous) :
    last.call compute arg = (compute arg, ⟨arg, compute arg⟩) :=
  if_neg other

theorem previous_call : (last.call compute arg).2.previous = arg := by
  by_cases same : arg = last.previous
  · rw [call_same same]
    exact same.symm
  · rw [call_other same]

/-- A call is answered as if it were the first one, unless it is answered from a wrong result. -/
theorem call_eq_iff :
    (last.call compute arg).1 = compute arg ↔ (arg = last.previous → last.Valid compute) := by
  by_cases same : arg = last.previous
  · rw [call_same same, Valid, ← same]
    exact ⟨fun isResult _ => isResult, fun isResult => isResult rfl⟩
  · rw [call_other same]
    exact iff_of_true rfl fun isSame => absurd isSame same

theorem previous_after (args : List Arg) :
    (last.after compute args).previous = args.getLast?.getD last.previous := by
  induction args generalizing last with
  | nil => rfl
  | cons arg args ih =>
      have next : last.after compute (arg :: args) = (last.call compute arg).2.after compute args :=
        rfl
      rw [next, ih, previous_call, List.getLast?_cons]
      rfl

/-- After one call with another argument than the first one the result is never wrong. -/
theorem valid_after_iff (args : List Arg) :
    (last.after compute args).Valid compute ↔
      last.Valid compute ∨ ∃ arg ∈ args, arg ≠ last.previous := by
  induction args generalizing last with
  | nil =>
      constructor
      · exact .inl
      · intro valid
        obtain valid | ⟨arg, member, -⟩ := valid
        · exact valid
        · exact absurd member List.not_mem_nil
  | cons arg args ih =>
      have next : last.after compute (arg :: args) = (last.call compute arg).2.after compute args :=
        rfl
      rw [next, ih, List.exists_mem_cons_iff]
      by_cases same : arg = last.previous
      · rw [call_same same]
        exact or_congr_right (or_iff_right (not_not_intro same)).symm
      · rw [call_other same]
        exact iff_of_true (.inl rfl) (.inr (.inl same))

end LastCall

end FreeOnline.Library
