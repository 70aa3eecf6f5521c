import FreeOnline.Kit.Delta

/-!
# Rebalancing the cache

When there are more previous bitmaps than the limit, those with the smallest wire ids go. What
stays, for any order in which the sort leaves equal ids.
-/

set_option autoImplicit false

namespace FreeOnline.Kit

open FreeOnline.Library

/-- The generator with the limit that it is given, if it is given one. -/
def DeltaGenerator.limited (generator : DeltaGenerator) (limit : Int) : DeltaGenerator :=
  if 0 < limit then { generator with maxEntries := limit.toNat } else generator

/-- An order in which the sort may leave the entries. -/
structure IsSorted (generator : DeltaGenerator) (entries : List DeltaData) : Prop where
  perm : entries.Perm generator.deltaEntries.entries
  sorted : entries.Pairwise fun left right => left.wid ≤ right.wid

/-- The generator without the first of the entries in their order, up to three quarters of the
limit. -/
def DeltaGenerator.removeFirst (generator : DeltaGenerator) (entries : List DeltaData) :
    DeltaGenerator :=
  let toRemove := generator.deltaEntries.entries.length - generator.maxEntries * 3 / 4
  let removed := (entries.take toRemove).map DeltaData.loc
  { generator with
    deltaEntries := generator.deltaEntries.filter fun entry => entry.loc ∉ removed }

/-- The newest entries are kept, as many as three quarters of the limit. -/
structure KeepsNewest (before after : DeltaGenerator) : Prop where
  sublist : after.deltaEntries.entries.Sublist before.deltaEntries.entries
  size : after.deltaEntries.entries.length = before.maxEntries * 3 / 4
  newest : ∀ removed ∈ before.deltaEntries, removed ∉ after.deltaEntries →
    ∀ kept ∈ after.deltaEntries, removed.wid ≤ kept.wid

section

variable {generator : DeltaGenerator} {entries : List DeltaData}

/-- What the order leaves. -/
theorem removeFirst_perm (isSorted : IsSorted generator entries) :
    (generator.removeFirst entries).deltaEntries.entries.Perm
      (entries.drop (generator.deltaEntries.entries.length - generator.maxEntries * 3 / 4)) := by
  refine generator.deltaEntries.filter_append_perm ?_
  rw [List.take_append_drop]
  exact isSorted.perm

theorem keepsNewest_removeFirst (isSorted : IsSorted generator entries)
    (exceeded : generator.maxEntries < generator.deltaEntries.entries.length) :
    KeepsNewest generator (generator.removeFirst entries) := by
  have left := removeFirst_perm isSorted
  generalize isCount : generator.deltaEntries.entries.length - generator.maxEntries * 3 / 4 = count
    at left
  refine ⟨List.filter_sublist, ?_, fun removed member gone kept isKept => ?_⟩
  · rw [left.length_eq, List.length_drop, isSorted.perm.length_eq, ← isCount]
    omega
  · have sorted := isSorted.sorted
    have inOrder := isSorted.perm.mem_iff.mpr member
    rw [← List.take_append_drop count entries] at sorted inOrder
    cases List.mem_append.mp inOrder with
    | inl isFirst =>
        exact (List.pairwise_append.mp sorted).2.2 removed isFirst kept (left.mem_iff.mp isKept)
    | inr isLast => exact absurd (left.mem_iff.mpr isLast) gone

theorem isSorted_mergeSort (generator : DeltaGenerator) :
    IsSorted generator
      (generator.deltaEntries.entries.mergeSort fun left right => left.wid ≤ right.wid) := by
  refine ⟨List.mergeSort_perm _ _, ?_⟩
  have transitive : ∀ first second third : DeltaData, decide (first.wid ≤ second.wid) = true →
      decide (second.wid ≤ third.wid) = true → decide (first.wid ≤ third.wid) = true := by
    intro first second third isBefore isNext
    exact decide_eq_true (UInt32.le_trans (of_decide_eq_true isBefore) (of_decide_eq_true isNext))
  have total : ∀ first second : DeltaData,
      (decide (first.wid ≤ second.wid) || decide (second.wid ≤ first.wid)) = true := by
    intro first second
    cases UInt32.le_total first.wid second.wid with
    | inl isBefore => rw [decide_eq_true isBefore, Bool.true_or]
    | inr isBefore => rw [decide_eq_true isBefore, Bool.or_true]
  have sorted := List.pairwise_mergeSort transitive total generator.deltaEntries.entries
  exact sorted.imp of_decide_eq_true

end

/-- When there are more entries than the limit, the newest are kept, as many as three quarters of
the limit, in whichever order the sort leaves equal wire ids. -/
theorem rebalanceDeltas_newest (generator : DeltaGenerator) (limit : Int)
    (exceeded : (generator.limited limit).maxEntries < generator.deltaEntries.entries.length) :
    KeepsNewest (generator.limited limit) (generator.rebalanceDeltas limit) ∧
      4 * (generator.rebalanceDeltas limit).deltaEntries.entries.length ≤
        3 * (generator.limited limit).maxEntries ∧
      ∀ entries, IsSorted (generator.limited limit) entries →
        KeepsNewest (generator.limited limit) ((generator.limited limit).removeFirst entries) := by
  have sameEntries : (generator.limited limit).deltaEntries = generator.deltaEntries := by
    unfold DeltaGenerator.limited
    split <;> rfl
  rw [← sameEntries] at exceeded
  have isRemoved : generator.rebalanceDeltas limit =
      (generator.limited limit).removeFirst ((generator.limited limit).deltaEntries.entries.mergeSort
        fun left right => left.wid ≤ right.wid) := by
    have isLimited : generator.rebalanceDeltas limit =
        (generator.limited limit).rebalanceDeltasT false := rfl
    rw [isLimited, DeltaGenerator.rebalanceDeltasT]
    exact if_pos (.inl exceeded)
  have keeps := keepsNewest_removeFirst (isSorted_mergeSort (generator.limited limit)) exceeded
  rw [isRemoved]
  refine ⟨keeps, ?_, fun entries isSorted => keepsNewest_removeFirst isSorted exceeded⟩
  rw [keeps.size]
  omega

private def emptyEntry (left : Int) (wid : TileWireId) : DeltaData :=
  ⟨⟨left, 0, 0, 0, 0⟩, wid, 0, 0, [], rfl, List.forall_mem_nil _⟩

private def threeEntries : DeltaGenerator :=
  ⟨⟨[emptyEntry 0 5, emptyEntry 1 3, emptyEntry 2 4], by decide⟩, 1⟩

theorem rebalanceDeltas_newest_three :
    KeepsNewest (threeEntries.limited 2) (threeEntries.rebalanceDeltas 2) :=
  (rebalanceDeltas_newest threeEntries 2 (by decide)).1

end FreeOnline.Kit
