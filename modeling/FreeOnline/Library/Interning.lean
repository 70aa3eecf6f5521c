import Mathlib.Data.List.Basic
import Mathlib.Data.List.Nodup

/-!
# Numbers for values

A value gets the next number when it is first met, and keeps it. The table has the values in the
order of their numbers.
-/

set_option autoImplicit false

namespace FreeOnline.Library

universe u

variable {Value : Type u} [DecidableEq Value]

def intern (table : List Value) (value : Value) : List Value :=
  if value ∈ table then table else table ++ [value]

variable {table later : List Value} {value other : Value} {first number : Nat}

theorem intern_keeps (table : List Value) (value : Value) : table <+: intern table value := by
  unfold intern
  split
  next => exact List.prefix_refl table
  next => exact List.prefix_append table [value]

theorem nodup_intern (distinct : table.Nodup) : (intern table value).Nodup := by
  unfold intern
  split
  next => exact distinct
  next absent =>
    apply List.nodup_append'.mpr
    exact ⟨distinct, List.nodup_singleton value, List.disjoint_singleton.mpr absent⟩

omit [DecidableEq Value] in
/-- The numbers that were given stay. -/
theorem numbered_mono (isLater : table <+: later) (isNumbered : (value, number) ∈ table.zipIdx first) :
    (value, number) ∈ later.zipIdx first := by
  obtain ⟨more, rfl⟩ := isLater
  rw [List.zipIdx_append]
  exact List.mem_append_left _ isNumbered

omit [DecidableEq Value] in
/-- No two values have one number. -/
theorem numbered_unique (isNumbered : (value, number) ∈ table.zipIdx first)
    (isOther : (other, number) ∈ table.zipIdx first) : value = other := by
  rw [List.mk_mem_zipIdx_iff_le_and_getElem?_sub] at isNumbered isOther
  exact Option.some.inj (isNumbered.2.symm.trans isOther.2)

omit [DecidableEq Value] in
/-- No value has two numbers. -/
theorem numbered_once (distinct : table.Nodup) {second : Nat}
    (isNumbered : (value, number) ∈ table.zipIdx first)
    (isOther : (value, second) ∈ table.zipIdx first) : number = second := by
  rw [List.mk_mem_zipIdx_iff_le_and_getElem?_sub] at isNumbered isOther
  have inside : number - first < table.length :=
    (List.getElem?_eq_some_iff.mp isNumbered.2).1
  have samePlace := (List.getElem?_inj inside distinct).mp (isNumbered.2.trans isOther.2.symm)
  omega

end FreeOnline.Library
