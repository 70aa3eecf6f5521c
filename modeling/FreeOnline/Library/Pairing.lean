import Mathlib.Data.List.Basic
import Mathlib.Data.List.Nodup
import Mathlib.Order.Lattice
import Mathlib.Tactic.ByContra
import FreeOnline.Library.OrderedMap

/-!
# Neighbours in pairs

The elements of a list are paired two at a time. In a list that is sorted by some value, in which
every value occurs an even number of times, both of a pair have the same value.
-/

set_option autoImplicit false

namespace FreeOnline.Library

universe u v

variable {Vertex : Type u}

/-- The first stands somewhere before the second. -/
def Before (line : List Vertex) (a b : Vertex) : Prop := [a, b].Sublist line

section

variable {line : List Vertex} {a b c : Vertex}

theorem Before.mem (isBefore : Before line a b) : a ∈ line ∧ b ∈ line :=
  ⟨isBefore.subset List.mem_cons_self, isBefore.subset (List.mem_cons_of_mem _ List.mem_cons_self)⟩

theorem Before.pairwise {relation : Vertex → Vertex → Prop} (isBefore : Before line a b)
    (sorted : line.Pairwise relation) : relation a b :=
  List.pairwise_pair.mp (sorted.sublist isBefore)

theorem before_cons {first : Vertex} :
    Before (first :: line) a b ↔ Before line a b ∨ a = first ∧ b ∈ line := by
  unfold Before
  rw [List.cons_sublist_cons', List.singleton_sublist]

theorem Before.asymm (distinct : line.Nodup) (isBefore : Before line a b) : ¬Before line b a := by
  induction line with
  | nil => exact nofun
  | cons first line ih =>
      obtain ⟨absent, distinct⟩ := List.nodup_cons.mp distinct
      rw [before_cons] at isBefore ⊢
      intro isBehind
      cases isBefore with
      | inl later =>
          cases isBehind with
          | inl alsoLater => exact ih distinct later alsoLater
          | inr atFront => exact absent (atFront.1 ▸ later.mem.2)
      | inr atFront =>
          cases isBehind with
          | inl later => exact absent (atFront.1 ▸ later.mem.2)
          | inr alsoFront => exact absent (alsoFront.1 ▸ atFront.2)

theorem before_or_before (inLine : a ∈ line) (alsoIn : b ∈ line) (different : a ≠ b) :
    Before line a b ∨ Before line b a := by
  induction line with
  | nil => cases inLine
  | cons first line ih =>
      simp only [before_cons]
      cases inLine with
      | head =>
          cases alsoIn with
          | head => exact absurd rfl different
          | tail _ later => exact .inl (.inr ⟨rfl, later⟩)
      | tail _ later =>
          cases alsoIn with
          | head => exact .inr (.inr ⟨rfl, later⟩)
          | tail _ alsoLater =>
              cases ih later alsoLater with
              | inl isBefore => exact .inl (.inl isBefore)
              | inr isBehind => exact .inr (.inl isBehind)

/-- What is first of those that are kept stands before all others that are. -/
theorem before_of_filter {keep : Vertex → Bool} {first : Vertex} {others : List Vertex}
    (kept : line.filter keep = first :: others) (inLine : a ∈ line) (isKept : keep a = true)
    (different : a ≠ first) : Before line first a := by
  have member : a ∈ first :: others := kept ▸ List.mem_filter.mpr ⟨inLine, isKept⟩
  have later := (List.mem_cons.mp member).resolve_left different
  have inKept : [first, a].Sublist (line.filter keep) := by
    rw [kept]
    exact (List.singleton_sublist.mpr later).cons_cons first
  exact inKept.trans List.filter_sublist

/-- A sort keeps the order of two elements that may stand in it. -/
theorem Before.mergeSort {le : Vertex → Vertex → Bool}
    (trans : ∀ a b c, le a b = true → le b c = true → le a c = true)
    (total : ∀ a b, (le a b || le b a) = true) (isBefore : Before line a b)
    (inOrder : le a b = true) : Before (line.mergeSort le) a b :=
  List.pair_sublist_mergeSort trans total inOrder isBefore

end

/-- Each with the other of its pair. -/
def pairs : List Vertex → OrderedMap Vertex Vertex
  | a :: b :: rest => (a, b) :: (b, a) :: pairs rest
  | _ => []

section

variable {line : List Vertex} {a b c : Vertex}

theorem keys_pairs (even : line.length % 2 = 0) : OrderedMap.keys (pairs line) = line := by
  induction line using pairs.induct with
  | case1 a b rest ih =>
      have restEven : rest.length % 2 = 0 := by
        simp only [List.length_cons] at even
        omega
      rw [pairs, OrderedMap.keys, List.map_cons, List.map_cons, ← OrderedMap.keys, ih restEven]
  | case2 line small =>
      match line, small, even with
      | [], _, _ => rfl
      | [_], _, odd => cases odd
      | a :: b :: rest, small, _ => exact absurd rfl (small a b rest)

theorem mem_of_mem_pairs (member : (a, b) ∈ pairs line) : a ∈ line ∧ b ∈ line := by
  induction line using pairs.induct with
  | case1 first second rest ih =>
      rw [pairs] at member
      cases member with
      | head => simp
      | tail _ member =>
          cases member with
          | head => simp
          | tail _ later =>
              have isLater := ih later
              simp [isLater.1, isLater.2]
  | case2 line small =>
      rw [pairs] at member
      · cases member
      · exact small

theorem swap_mem_pairs (member : (a, b) ∈ pairs line) : (b, a) ∈ pairs line := by
  induction line using pairs.induct with
  | case1 first second rest ih =>
      rw [pairs] at member ⊢
      cases member with
      | head => simp
      | tail _ member =>
          cases member with
          | head => simp
          | tail _ later => simp [ih later]
  | case2 line small =>
      rw [pairs] at member
      · cases member
      · exact small

theorem ne_of_mem_pairs (distinct : line.Nodup) (member : (a, b) ∈ pairs line) : a ≠ b := by
  induction line using pairs.induct with
  | case1 first second rest ih =>
      rw [pairs] at member
      have different : first ≠ second := by
        rintro rfl
        exact (List.nodup_cons.mp distinct).1 List.mem_cons_self
      cases member with
      | head => exact different
      | tail _ member =>
          cases member with
          | head => exact different.symm
          | tail _ later => exact ih distinct.tail.tail later
  | case2 line small =>
      rw [pairs] at member
      · cases member
      · exact small

/-- Nothing stands between the two of a pair. -/
theorem not_between_of_mem_pairs (distinct : line.Nodup) (member : (a, b) ∈ pairs line)
    (isBehind : Before line a c) : ¬Before line c b := by
  induction line using pairs.induct with
  | case1 first second rest ih =>
      rw [pairs] at member
      obtain ⟨firstAbsent, restDistinct⟩ := List.nodup_cons.mp distinct
      obtain ⟨secondAbsent, restDistinct⟩ := List.nodup_cons.mp restDistinct
      intro isBefore
      cases member with
      | head =>
          -- behind the first, and before the second
          rw [before_cons, before_cons] at isBefore
          rcases isBefore with (inRest | atSecond) | atFirst
          · exact secondAbsent inRest.mem.2
          · exact secondAbsent atSecond.2
          · exact (isBehind.asymm distinct) (atFirst.1 ▸ isBehind)
      | tail _ member =>
          cases member with
          | head =>
              rw [before_cons] at isBefore
              cases isBefore with
              | inl later => exact firstAbsent later.mem.2
              | inr atFirst => exact firstAbsent atFirst.2
          | tail _ later =>
              have inRest := mem_of_mem_pairs later
              have notFirst : a ≠ first := by
                rintro rfl
                exact firstAbsent (List.mem_cons_of_mem _ inRest.1)
              have notSecond : a ≠ second := by
                rintro rfl
                exact secondAbsent inRest.1
              rw [before_cons, before_cons] at isBehind
              have behind := (isBehind.resolve_right fun same => notFirst same.1).resolve_right
                fun same => notSecond same.1
              have middle := behind.mem.2
              rw [before_cons, before_cons] at isBefore
              have before := (isBefore.resolve_right fun same =>
                firstAbsent (List.mem_cons_of_mem _ (same.1 ▸ middle))).resolve_right fun same =>
                  secondAbsent (same.1 ▸ middle)
              exact ih restDistinct later behind before
  | case2 line small =>
      rw [pairs] at member
      · cases member
      · exact small

end

/-!
## Partners
-/

section

variable [DecidableEq Vertex] {line : List Vertex} {a b : Vertex}

/-- The other one of a vertex's pair. -/
def partner (line : List Vertex) (vertex : Vertex) : Vertex :=
  (OrderedMap.get (pairs line) vertex).getD vertex

theorem get_pairs_of_mem (distinct : line.Nodup) (even : line.length % 2 = 0)
    (member : (a, b) ∈ pairs line) : OrderedMap.get (pairs line) a = some b := by
  refine OrderedMap.get_of_mem ?_ member
  rw [keys_pairs even]
  exact distinct

theorem partner_eq (distinct : line.Nodup) (even : line.length % 2 = 0)
    (member : (a, b) ∈ pairs line) : partner line a = b := by
  rw [partner, get_pairs_of_mem distinct even member, Option.getD_some]

theorem mem_pairs_partner (distinct : line.Nodup) (even : line.length % 2 = 0)
    (member : a ∈ line) : (a, partner line a) ∈ pairs line := by
  rw [← keys_pairs even] at member
  obtain ⟨pair, isPair, rfl⟩ := List.mem_map.mp member
  rw [partner_eq distinct even isPair]
  exact isPair

theorem get_pairs (distinct : line.Nodup) (even : line.length % 2 = 0) (member : a ∈ line) :
    OrderedMap.get (pairs line) a = some (partner line a) :=
  get_pairs_of_mem distinct even (mem_pairs_partner distinct even member)

end

/-!
## Pairs of the same value
-/

section

variable {Value : Type v} [LinearOrder Value] {value : Vertex → Value} {line : List Vertex}

/-- How often a value occurs. -/
def occurrences (value : Vertex → Value) (line : List Vertex) (level : Value) : Nat :=
  line.countP fun vertex => value vertex = level

theorem same_of_mem_pairs (sorted : line.Pairwise fun a b => value a ≤ value b)
    (even : ∀ level, occurrences value line level % 2 = 0) {a b : Vertex}
    (member : (a, b) ∈ pairs line) : value a = value b := by
  induction line using pairs.induct with
  | case1 first second rest ih =>
      obtain ⟨firstLeast, restSorted⟩ := List.pairwise_cons.mp sorted
      obtain ⟨secondLeast, restSorted⟩ := List.pairwise_cons.mp restSorted
      have same : value first = value second := by
        by_contra different
        -- then the first one's value would occur once only
        have below : value first < value second :=
          lt_of_le_of_ne (firstLeast second List.mem_cons_self) different
        have noOther : rest.countP (fun vertex => value vertex = value first) = 0 := by
          refine List.countP_eq_zero.mpr fun vertex inRest isSame => ?_
          have above := secondLeast vertex inRest
          rw [of_decide_eq_true isSame] at above
          exact absurd below (not_lt.mpr above)
        have once := even (value first)
        simp [occurrences, noOther, Ne.symm different] at once
      rw [pairs] at member
      cases member with
      | head => exact same
      | tail _ member =>
          cases member with
          | head => exact same.symm
          | tail _ later =>
              refine ih restSorted (fun level => ?_) later
              have isEven := even level
              unfold occurrences at isEven ⊢
              rw [List.countP_cons, List.countP_cons, same] at isEven
              split at isEven
              · omega
              · omega
  | case2 line small =>
      rw [pairs] at member
      · cases member
      · exact small

end

end FreeOnline.Library
