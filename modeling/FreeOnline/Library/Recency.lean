import Mathlib.Data.List.Nodup

/-!
# Keys in the order in which they were last set

A map from keys to values and a list of its keys, the one that was set last at the end. What
stands in both is said by the history of the changes.
-/

set_option autoImplicit false

namespace FreeOnline.Library

universe u v

/-- A change of a map. -/
inductive Change (Key : Type u) (Value : Type v) where
  | set (key : Key) (value : Value)
  | remove (key : Key)

namespace Change

variable {Key : Type u} {Value : Type v}

def key : Change Key Value → Key
  | .set key _ => key
  | .remove key => key

def value : Change Key Value → Option Value
  | .set _ value => some value
  | .remove _ => none

variable [DecidableEq Key]

/-- The latest change of the key among these, which stand with the last one first. -/
def latest (wanted : Key) : List (Change Key Value) → Option (Change Key Value)
  | [] => none
  | change :: earlier => if change.key = wanted then some change else latest wanted earlier

/-- The value the key has after these changes. -/
def latestValue (wanted : Key) (changes : List (Change Key Value)) : Option Value :=
  (latest wanted changes).bind value

/-- How many changes there are up to the one that changed the key last. -/
def latestAt (wanted : Key) : List (Change Key Value) → Nat
  | [] => 0
  | change :: earlier =>
      if change.key = wanted then earlier.length + 1 else latestAt wanted earlier

theorem latestAt_le (wanted : Key) (changes : List (Change Key Value)) :
    latestAt wanted changes ≤ changes.length := by
  induction changes with
  | nil => exact Nat.le_refl 0
  | cons change earlier ih =>
      simp only [latestAt, List.length_cons]
      split
      · exact Nat.le_refl _
      · exact Nat.le_succ_of_le ih

theorem latestValue_cons (wanted : Key) (change : Change Key Value)
    (changes : List (Change Key Value)) :
    latestValue wanted (change :: changes) =
      if change.key = wanted then change.value else latestValue wanted changes := by
  simp only [latestValue, latest]
  split
  · rfl
  · rfl

theorem latestAt_cons_of_ne {wanted : Key} {change : Change Key Value}
    (other : wanted ≠ change.key) (changes : List (Change Key Value)) :
    latestAt wanted (change :: changes) = latestAt wanted changes :=
  if_neg other.symm

end Change

variable {Key : Type u} {Value : Type v} [DecidableEq Key]

/-- The map and the list are as the changes left them. -/
structure IsRecent (changes : List (Change Key Value)) (values : Key → Option Value)
    (order : List Key) : Prop where
  distinct : order.Nodup
  member : ∀ key, key ∈ order ↔ (values key).isSome = true
  ordered : order.Pairwise fun key later =>
    Change.latestAt key changes < Change.latestAt later changes
  latest : ∀ key, values key = Change.latestValue key changes

namespace IsRecent

variable {changes : List (Change Key Value)} {values : Key → Option Value} {order : List Key}

theorem empty : IsRecent ([] : List (Change Key Value)) (fun _ => none) [] where
  distinct := .nil
  member := by simp
  ordered := .nil
  latest := fun _ => rfl

/-- The keys without this one stay in their order. -/
theorem ordered_erase (isRecent : IsRecent changes values order) (change : Change Key Value) :
    (order.erase change.key).Pairwise fun key later =>
      Change.latestAt key (change :: changes) < Change.latestAt later (change :: changes) := by
  have ordered := isRecent.ordered.sublist (List.erase_sublist (a := change.key))
  apply ordered.imp_of_mem
  intro key later keyMember laterMember before
  have keyOther := (isRecent.distinct.mem_erase_iff.mp keyMember).1
  have laterOther := (isRecent.distinct.mem_erase_iff.mp laterMember).1
  rwa [Change.latestAt_cons_of_ne keyOther, Change.latestAt_cons_of_ne laterOther]

theorem latest_cons (isRecent : IsRecent changes values order) (change : Change Key Value)
    (wanted : Key) :
    (if change.key = wanted then change.value else values wanted) =
      Change.latestValue wanted (change :: changes) := by
  rw [Change.latestValue_cons, isRecent.latest wanted]

theorem set (isRecent : IsRecent changes values order) (key : Key) (value : Value) :
    IsRecent (.set key value :: changes)
      (fun wanted => if key = wanted then some value else values wanted)
      (order.erase key ++ [key]) where
  distinct := by
    rw [List.nodup_append_comm]
    exact List.nodup_cons.mpr ⟨isRecent.distinct.not_mem_erase, isRecent.distinct.erase key⟩
  member := by
    intro wanted
    rw [List.mem_append, List.mem_singleton, isRecent.distinct.mem_erase_iff,
      isRecent.member wanted]
    by_cases same : key = wanted
    · simp [same]
    · simp [same, Ne.symm same]
  ordered := by
    rw [List.pairwise_append]
    refine ⟨isRecent.ordered_erase (.set key value), List.pairwise_singleton _ _, ?_⟩
    intro earlier earlierMember last lastMember
    cases List.mem_singleton.mp lastMember
    have other := (isRecent.distinct.mem_erase_iff.mp earlierMember).1
    have bound := Change.latestAt_le earlier changes
    rw [Change.latestAt_cons_of_ne other]
    simp only [Change.latestAt, Change.key, if_pos]
    exact Nat.lt_succ_of_le bound
  latest := isRecent.latest_cons (.set key value)

theorem remove (isRecent : IsRecent changes values order) (key : Key) :
    IsRecent (.remove key :: changes)
      (fun wanted => if key = wanted then none else values wanted) (order.erase key) where
  distinct := isRecent.distinct.erase key
  member := by
    intro wanted
    rw [isRecent.distinct.mem_erase_iff, isRecent.member wanted]
    by_cases same : key = wanted
    · simp [same]
    · simp [same, Ne.symm same]
  ordered := isRecent.ordered_erase (.remove key)
  latest := isRecent.latest_cons (.remove key)

end IsRecent

end FreeOnline.Library
