import Mathlib.Data.List.Induction
import Mathlib.Data.List.Nodup
import Mathlib.Data.List.Sort

/-!
# Rounds over the places of a list

All places of a list are visited, backwards and around from a place that moves on with every
round, and the elements at some of them are taken out.
-/

set_option autoImplicit false

namespace FreeOnline.Library

universe u

/-!
## The places of a round
-/

/-- `count` places from `i` on, backwards and around. -/
def backwards (size : Nat) : Nat → Nat → List Nat
  | 0, _ => []
  | count + 1, i => i :: backwards size count (if i = 0 then size - 1 else i - 1)

theorem backwards_of_le (size : Nat) {count i : Nat} (fits : count ≤ i + 1) :
    backwards size count i = (List.range' (i + 1 - count) count).reverse := by
  induction count generalizing i with
  | zero => rfl
  | succ count ih =>
      rw [backwards, List.range'_concat, List.reverse_append]
      have isLast : i + 1 - (count + 1) + 1 * count = i := by omega
      rw [isLast]
      refine congrArg (i :: ·) ?_
      cases i with
      | zero =>
          have none : count = 0 := by omega
          subst none
          rfl
      | succ i =>
          rw [if_neg (Nat.succ_ne_zero i), Nat.add_sub_cancel, ih (by omega)]
          congr 2
          omega

/-- The places before `i` come first, and then those from the last one on. -/
theorem backwards_add (size count i : Nat) :
    backwards size (i + 1 + count) i = backwards size (i + 1) i ++ backwards size count (size - 1) := by
  induction i with
  | zero =>
      rw [Nat.zero_add, Nat.add_comm]
      rfl
  | succ i ih =>
      have isBack : (if i + 1 = 0 then size - 1 else i + 1 - 1) = i := if_neg (Nat.succ_ne_zero i)
      calc
        backwards size (i + 1 + 1 + count) (i + 1)
        _ = backwards size (i + 1 + count + 1) (i + 1) := by rw [Nat.add_right_comm]
        _ = (i + 1) :: backwards size (i + 1 + count) i := by rw [backwards, isBack]
        _ = (i + 1) :: backwards size (i + 1) i ++ backwards size count (size - 1) := by
            rw [ih, List.cons_append]
        _ = backwards size (i + 1 + 1) (i + 1) ++ backwards size count (size - 1) := by
            rw [backwards.eq_def size (i + 1 + 1)]
            dsimp only
            rw [isBack]

theorem range_split {size start : Nat} (inside : start < size) :
    List.range' 0 (start + 1) ++ List.range' (start + 1) (size - start - 1) = List.range size := by
  have isSize : start + 1 + (size - start - 1) = size := by omega
  have both := @List.range'_append_1 0 (start + 1) (size - start - 1)
  rw [Nat.zero_add, isSize] at both
  rw [both, List.range_eq_range']

/-- A round comes to every place once. -/
theorem backwards_perm {size start : Nat} (inside : start < size) :
    (backwards size size start).Perm (List.range size) := by
  have isSize : size = start + 1 + (size - start - 1) := by omega
  have first : backwards size (start + 1) start = (List.range' 0 (start + 1)).reverse := by
    rw [backwards_of_le size (Nat.le_refl _), Nat.sub_self]
  have second : backwards size (size - start - 1) (size - 1) =
      (List.range' (start + 1) (size - start - 1)).reverse := by
    rw [backwards_of_le size (by omega)]
    congr 2
    omega
  have round : backwards size size start = _ :=
    (congrArg (backwards size · start) isSize).trans (backwards_add size (size - start - 1) start)
  rw [round, first, second, ← range_split inside]
  exact (List.reverse_perm _).append (List.reverse_perm _)

/-- Where the next round starts. -/
def nextStart (size start : Nat) : Nat :=
  if start + 1 > size - 1 then 0 else start + 1

theorem nextStart_lt {size : Nat} (notEmpty : 0 < size) (start : Nat) :
    nextStart size start < size := by
  unfold nextStart
  split <;> omega

/-- Where the next rounds start. -/
def starts (size : Nat) : Nat → Nat → List Nat
  | 0, _ => []
  | rounds + 1, start => nextStart size start :: starts size rounds (nextStart size start)

theorem starts_of_lt {size rounds start : Nat} (inside : start + rounds < size) :
    starts size rounds start = List.range' (start + 1) rounds := by
  induction rounds generalizing start with
  | zero => rfl
  | succ rounds ih =>
      have isNext : nextStart size start = start + 1 := if_neg (by omega)
      rw [starts, isNext, ih (by omega), List.range'_succ]

theorem starts_add (size first second start : Nat) :
    starts size (first + second) start =
      starts size first start ++
        starts size second ((starts size first start).getLast?.getD start) := by
  induction first generalizing start with
  | zero => simp [starts]
  | succ first ih =>
      rw [Nat.add_right_comm, starts, ih, starts, List.cons_append, List.getLast?_cons]
      rfl

theorem getLast?_range' (start count : Nat) :
    (List.range' (start + 1) count).getLast?.getD start = start + count := by
  cases count with
  | zero => rfl
  | succ count =>
      rw [List.range'_concat, List.getLast?_concat, Option.getD_some]
      omega

/-- In as many rounds as there are places each place is the start of one. -/
theorem starts_perm {size start : Nat} (inside : start < size) :
    (starts size size start).Perm (List.range size) := by
  -- Up to the last place, over to the first one, and on from there.
  have upTo : starts size (size - start - 1) start = List.range' (start + 1) (size - start - 1) :=
    starts_of_lt (by omega)
  have isLast : start + (size - start - 1) = size - 1 := by omega
  have isFirst : nextStart size (size - 1) = 0 := if_pos (by omega)
  have isSize : size = size - start - 1 + (start + 1) := by omega
  have rounds : starts size size start =
      List.range' (start + 1) (size - start - 1) ++ 0 :: List.range' 1 start := by
    calc
      starts size size start
      _ = starts size (size - start - 1 + (start + 1)) start :=
          congrArg (starts size · start) isSize
      _ = List.range' (start + 1) (size - start - 1) ++ starts size (start + 1) (size - 1) := by
          rw [starts_add, upTo, getLast?_range', isLast]
      _ = List.range' (start + 1) (size - start - 1) ++ 0 :: List.range' 1 start := by
          rw [starts, isFirst, starts_of_lt (by omega)]
  rw [rounds, ← range_split inside]
  exact List.perm_append_comm

variable {Element : Type u}

theorem filterMap_getElem?_range (list : List Element) :
    ((List.range list.length).filterMap fun i => list[i]?) = list := by
  induction list using List.reverseRecOn with
  | nil => rfl
  | append_singleton list last ih =>
      rw [List.length_append, List.length_singleton, List.range_succ, List.filterMap_append]
      have before : ∀ i ∈ List.range list.length, (list ++ [last])[i]? = list[i]? :=
        fun i inside => List.getElem?_append_left (List.mem_range.mp inside)
      rw [List.filterMap_congr before, ih]
      simp

/-!
## Taking elements out
-/

/-- The elements at other places. -/
def without (places : List Nat) (list : List Element) : List Element :=
  (list.zipIdx.filter fun entry => entry.2 ∉ places).map Prod.fst

/-- The elements at the places. -/
def taken (places : List Nat) (list : List Element) : List Element :=
  (list.zipIdx.filter fun entry => entry.2 ∈ places).map Prod.fst

def eraseAll (places : List Nat) (list : List Element) : List Element :=
  places.foldl List.eraseIdx list

theorem taken_append_without_perm (places : List Nat) (list : List Element) :
    (taken places list ++ without places list).Perm list := by
  have both := (List.filter_append_perm (fun entry => decide (entry.2 ∈ places)) list.zipIdx).map
    Prod.fst
  rw [List.map_append, List.zipIdx_map_fst] at both
  simpa [taken, without] using both

theorem without_sublist (places : List Nat) (list : List Element) :
    (without places list).Sublist list := by
  have isSublist : (without places list).Sublist (list.zipIdx.map Prod.fst) :=
    List.filter_sublist.map Prod.fst
  rw [List.zipIdx_map_fst] at isSublist
  exact isSublist

theorem without_congr {places others : List Nat} (same : ∀ place, place ∈ places ↔ place ∈ others)
    (list : List Element) : without places list = without others list := by
  simp [without, same]

/-- Nothing is taken from behind the places. -/
theorem taken_append_of_lt {places : List Nat} {before : List Element} (after : List Element)
    (inside : ∀ place ∈ places, place < before.length) :
    taken places (before ++ after) = taken places before := by
  rw [taken, List.zipIdx_append, List.filter_append, List.map_append, Nat.zero_add]
  have none : ((after.zipIdx before.length).filter fun entry => entry.2 ∈ places) = [] := by
    refine List.filter_eq_nil_iff.mpr ?_
    rintro ⟨element, place⟩ member isPlace
    have isBehind := List.le_snd_of_mem_zipIdx member
    exact Nat.not_lt.mpr isBehind (inside place (of_decide_eq_true isPlace))
  rw [none, List.map_nil, List.append_nil]
  rfl

theorem without_append (places : List Nat) (before after : List Element) :
    without places (before ++ after) =
      without places before ++
        ((after.zipIdx before.length).filter fun entry => entry.2 ∉ places).map Prod.fst := by
  rw [without, List.zipIdx_append, List.filter_append, List.map_append, Nat.zero_add]
  rfl

/-- Nothing is taken out behind the places. -/
theorem filter_zipIdx_of_lt {places : List Nat} {start : Nat} (list : List Element)
    (before : ∀ place ∈ places, place < start) :
    ((list.zipIdx start).filter fun entry => entry.2 ∉ places).map Prod.fst = list := by
  rw [List.filter_eq_self.mpr, List.zipIdx_map_fst]
  rintro ⟨element, place⟩ member
  have isBehind := List.le_snd_of_mem_zipIdx member
  exact decide_eq_true fun isPlace => Nat.not_lt.mpr isBehind (before place isPlace)

/-- A further place makes no difference before it. -/
theorem without_cons_of_le {places : List Nat} {place : Nat} {list : List Element}
    (isBehind : list.length ≤ place) : without (place :: places) list = without places list := by
  refine congrArg (List.map Prod.fst) (List.filter_congr ?_)
  rintro ⟨element, other⟩ member
  have inside := List.snd_lt_of_mem_zipIdx member
  rw [Nat.add_zero] at inside
  have different : other ≠ place := by omega
  simp [different]

/-- Elements are taken out from the back on without moving those that are still to come. -/
theorem eraseAll_eq_without {places : List Nat} (descending : places.Pairwise (· > ·))
    (list : List Element) : eraseAll places list = without places list := by
  induction places generalizing list with
  | nil => simp [eraseAll, without]
  | cons place places ih =>
      obtain ⟨before, descending⟩ := List.pairwise_cons.mp descending
      have isErased : eraseAll (place :: places) list = without places (list.eraseIdx place) :=
        ih descending _
      rw [isErased, List.eraseIdx_eq_take_drop_succ]
      by_cases inside : place < list.length
      · have isLength : (list.take place).length = place :=
          List.length_take_of_le (Nat.le_of_lt inside)
        have split : list = list.take place ++ list[place] :: list.drop (place + 1) := by
          rw [List.getElem_cons_drop, List.take_append_drop]
        have rest : without (place :: places) list =
            without places (list.take place) ++ list.drop (place + 1) := by
          calc
            without (place :: places) list
            _ = without (place :: places) (list.take place) ++ _ :=
                (congrArg _ split).trans (without_append _ _ _)
            _ = without places (list.take place) ++ list.drop (place + 1) := by
                rw [without_cons_of_le (Nat.le_of_eq isLength), isLength]
                refine congrArg (without places (list.take place) ++ ·) ?_
                rw [List.zipIdx_cons, List.filter_cons_of_neg (by simp)]
                refine filter_zipIdx_of_lt _ fun other member => ?_
                cases List.mem_cons.mp member with
                | inl same => exact same ▸ Nat.lt_succ_self place
                | inr isPlace => exact Nat.lt_succ_of_lt (before other isPlace)
        rw [rest, without_append, isLength]
        exact congrArg (without places (list.take place) ++ ·) (filter_zipIdx_of_lt _ before)
      · have outside : list.length ≤ place := Nat.not_lt.mp inside
        rw [List.take_of_length_le outside, List.drop_eq_nil_of_le (Nat.le_succ_of_le outside),
          List.append_nil, without_cons_of_le outside]

end FreeOnline.Library
