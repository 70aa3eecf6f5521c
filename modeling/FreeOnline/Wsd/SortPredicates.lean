import FreeOnline.Library.WeakOrder
import FreeOnline.Wsd.QuarantineNames

/-!
# Comparisons given to a sort

Documents are sorted by how long they have been idle, and quarantined files by the time in their
names.
-/

set_option autoImplicit false

namespace FreeOnline.Wsd.Admin

open FreeOnline.Library

structure DocBasicInfo where
  docKey : Text
  idleTime : Int
  mem : Int
  saved : Bool

/-- The comparison of `getDocumentsSortedByIdle`. -/
def idleLonger (a b : DocBasicInfo) : Bool := a.idleTime ≥ b.idleTime

theorem idleLonger_self (a : DocBasicInfo) : idleLonger a a = true :=
  decide_eq_true (Int.le_refl a.idleTime)

end FreeOnline.Wsd.Admin

namespace FreeOnline.Wsd.QuarantineUtil

open FreeOnline.Library FreeOnline.Common FreeOnline.Wsd.Admin

/-- The name begins with a number that no 64 bits hold. -/
def OutOfRange (name : Text) : Prop :=
  ∃ value ∈ readLong (splitFirst name), 2 ^ 64 ≤ value.natAbs

/-- The name begins with a number that is a time, and not the epoch. -/
def IsTimed (name : Text) : Prop :=
  ∃ value ∈ readLong (splitFirst name), value ≠ 0 ∧ value.natAbs < 2 ^ 64

theorem timestamp_failed_iff (name : Text) :
    (timestamp name).1 ≠ 0 ∧ (timestamp name).2 = false ↔ OutOfRange name := by
  unfold timestamp u64FromString OutOfRange
  cases readLong (splitFirst name) with
  | none => simp
  | some value =>
      by_cases inside : value.natAbs < 2 ^ 64
      · simp only [inside, if_true, Bool.true_eq_false, and_false, Option.mem_some_iff,
          exists_eq_left', Nat.not_le.mpr inside]
      · simp only [inside, if_false, Option.mem_some_iff, exists_eq_left', Nat.not_lt.mp inside]
        decide

theorem timestamp_read_iff (name : Text) :
    (timestamp name).1 ≠ 0 ∧ (timestamp name).2 = true ↔ IsTimed name := by
  unfold timestamp u64FromString IsTimed
  cases readLong (splitFirst name) with
  | none => simp
  | some value =>
      by_cases inside : value.natAbs < 2 ^ 64
      · simp only [inside, if_true, and_true, Option.mem_some_iff, exists_eq_left']
        omega
      · simp only [inside, if_false, Bool.false_eq_true, and_false, Option.mem_some_iff,
          exists_eq_left']

/-- The comparison takes a number that could not be read for one that could. -/
theorem less_iff (lhs rhs : Text) : less lhs rhs = true ↔ OutOfRange lhs ∧ IsTimed rhs := by
  rw [← timestamp_failed_iff, ← timestamp_read_iff]
  simp only [less, Bool.and_eq_true, decide_eq_true_eq, Bool.not_eq_true']
  tauto

theorem OutOfRange.not_isTimed {name : Text} (outOfRange : OutOfRange name) : ¬IsTimed name := by
  obtain ⟨value, isRead, large⟩ := outOfRange
  rintro ⟨other, isOther, -, small⟩
  cases Option.mem_unique isRead isOther
  exact Nat.not_lt.mpr large small

/-- The comparisons are strict weak orders exactly if there is no document, and if the names are
not of all three classes. -/
theorem sort_predicates_strict_weak (docs : List DocBasicInfo) (names : List Text) :
    StrictWeakOn idleLonger docs ∧ StrictWeakOn less names ↔
      docs = [] ∧ ¬((∃ name ∈ names, OutOfRange name) ∧ (∃ name ∈ names, IsTimed name) ∧
        ∃ name ∈ names, ¬OutOfRange name ∧ ¬IsTimed name) := by
  rw [strictWeakOn_of_reflexive idleLonger_self,
    strictWeakOn_of_classes less_iff fun _ => OutOfRange.not_isTimed]

/-- One document stands before itself. Of three names the first comes before the second, and none
of the two is comparable with the third. -/
theorem sort_predicates_not_strict :
    ¬StrictWeakOn idleLonger [⟨[], 60, 0, true⟩] ∧
      ¬StrictWeakOn less
        ["99999999999999999999_1_a_b".toList, "1700000000_1_a_b".toList, "lost+found".toList] := by
  constructor
  · intro isOrder
    exact absurd (isOrder.irreflexive _ List.mem_cons_self) (by decide)
  · intro isOrder
    have same := isOrder.incomparable "99999999999999999999_1_a_b".toList (by decide)
      "lost+found".toList (by decide) "1700000000_1_a_b".toList (by decide) (by decide) (by decide)
    exact absurd same.1 (by decide)

end FreeOnline.Wsd.QuarantineUtil
