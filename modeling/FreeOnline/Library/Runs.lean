import Mathlib.Algebra.BigOperators.Group.Finset.Basic
import Mathlib.Algebra.BigOperators.Intervals
import Mathlib.Algebra.Module.NatInt
import Mathlib.Algebra.Order.BigOperators.Group.Finset

/-!
# Functions given by runs

A function on the integers given by runs of equal values, each with its last index. Sums of the
function go along the runs.
-/

set_option autoImplicit false

namespace FreeOnline.Library

/-- The runs give the function behind the previous index, up to the last one. -/
inductive Describes {α : Type} (f : Int → α) (last : Int) : Int → List (Int × α) → Prop where
  | done : Describes f last last []
  | run {previous stop : Int} {value : α} {rest : List (Int × α)} :
      previous < stop → (∀ i, previous < i → i ≤ stop → f i = value) →
      Describes f last stop rest → Describes f last previous ((stop, value) :: rest)

namespace Describes

variable {α : Type} {f : Int → α} {last previous later stop : Int} {value : α}
  {runs rest : List (Int × α)}

theorem bound (described : Describes f last previous runs) : previous ≤ last := by
  induction described with
  | done => exact Int.le_refl _
  | run before _ _ ih => exact Int.le_of_lt (Int.lt_of_lt_of_le before ih)

theorem atLast (described : Describes f last last runs) : runs = [] := by
  cases described with
  | done => rfl
  | run before _ others => exact absurd (Int.lt_of_lt_of_le before others.bound) (Int.lt_irrefl _)

/-- A run without its first elements. -/
theorem shrink (described : Describes f last previous ((stop, value) :: rest))
    (behind : previous ≤ later) (inside : later < stop) :
    Describes f last later ((stop, value) :: rest) := by
  cases described with
  | run _ equal others =>
      exact .run inside (fun i isLater => equal i (Int.lt_of_le_of_lt behind isLater)) others

theorem congr {g : Int → α} (described : Describes f last previous runs)
    (same : ∀ i, previous < i → i ≤ last → f i = g i) : Describes g last previous runs := by
  induction described with
  | done => exact .done
  | run before equal others ih =>
      apply Describes.run before _ (ih fun i isBehind => same i (Int.lt_trans before isBehind))
      intro i isBehind isInside
      rw [← same i isBehind (Int.le_trans isInside others.bound), equal i isBehind isInside]

end Describes

/-- The sum over the indices from zero up to the one before this. -/
def sumBefore {M : Type} [AddCommMonoid M] (f : Int → M) (i : Int) : M :=
  ∑ k ∈ Finset.range i.toNat, f k

theorem sumBefore_zero {M : Type} [AddCommMonoid M] (f : Int → M) : sumBefore f 0 = 0 := rfl

theorem sumBefore_congr {M : Type} [AddCommMonoid M] {f g : Int → M} (same : ∀ i, f i = g i)
    (i : Int) : sumBefore f i = sumBefore g i :=
  Finset.sum_congr rfl fun k _ => same k

/-- A sum ends with what a run adds to it. -/
theorem sumBefore_run {M : Type} [AddCommGroup M] {f : Int → M} {middle stop : Int} {value : M}
    (nonneg : 0 ≤ middle) (ordered : middle ≤ stop)
    (equal : ∀ i, middle ≤ i → i < stop → f i = value) :
    sumBefore f stop = sumBefore f middle + (stop - middle) • value := by
  obtain ⟨before, rfl⟩ := Int.eq_ofNat_of_zero_le nonneg
  obtain ⟨count, rfl⟩ := Int.le.dest ordered
  have total : ((before : Int) + count).toNat = before + count := by omega
  have run : ∑ k ∈ Finset.range count, f (before + k : Nat) = ∑ _k ∈ Finset.range count, value := by
    apply Finset.sum_congr rfl
    intro k member
    have isBefore := Finset.mem_range.mp member
    exact equal _ (by omega) (by omega)
  rw [sumBefore, sumBefore, total, Int.toNat_natCast, Finset.sum_range_add, run, Finset.sum_const,
    Finset.card_range, add_sub_cancel_left, natCast_zsmul]

theorem sumBefore_mono {M : Type} [AddCommMonoid M] [PartialOrder M] [IsOrderedAddMonoid M]
    {f : Int → M} {start stop : Int} (nonneg : ∀ i, 0 ≤ i → i < stop → 0 ≤ f i)
    (ordered : start ≤ stop) : sumBefore f start ≤ sumBefore f stop := by
  apply Finset.sum_le_sum_of_subset_of_nonneg
  · intro k member
    have isBefore := Finset.mem_range.mp member
    exact Finset.mem_range.mpr (by omega)
  · intro k member _
    have isBefore := Finset.mem_range.mp member
    exact nonneg k (Int.natCast_nonneg k) (by omega)

end FreeOnline.Library
