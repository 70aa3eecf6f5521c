import Mathlib.Data.List.Basic
import Mathlib.Data.List.Nodup

/-!
# Maps that keep an order

The entries stand in the order in which their keys were first set.
-/

set_option autoImplicit false

namespace FreeOnline.Library

universe u v

abbrev OrderedMap (Key : Type u) (Value : Type v) := List (Key × Value)

namespace OrderedMap

variable {Key : Type u} {Value : Type v}

def keys (map : OrderedMap Key Value) : List Key := map.map Prod.fst

section

variable [DecidableEq Key]

def get (map : OrderedMap Key Value) (key : Key) : Option Value :=
  (map.find? fun entry => entry.1 = key).map Prod.snd

/-- A key that is there keeps its place. -/
def set (map : OrderedMap Key Value) (key : Key) (value : Value) : OrderedMap Key Value :=
  if key ∈ keys map then map.map fun entry => if entry.1 = key then (key, value) else entry
  else map ++ [(key, value)]

def delete (map : OrderedMap Key Value) (key : Key) : OrderedMap Key Value :=
  map.filter fun entry => entry.1 ≠ key

def deleteAll (map : OrderedMap Key Value) (gone : List Key) : OrderedMap Key Value :=
  gone.foldl delete map

/-- Without the entries of these keys. -/
def without (map : OrderedMap Key Value) (gone : List Key) : OrderedMap Key Value :=
  map.filter fun entry => entry.1 ∉ gone

variable {map other : OrderedMap Key Value} {key : Key} {gone : List Key}

theorem set_new (absent : key ∉ keys map) (value : Value) :
    set map key value = map ++ [(key, value)] :=
  if_neg absent

theorem get_of_mem {value : Value} (distinct : (keys map).Nodup) (member : (key, value) ∈ map) :
    get map key = some value := by
  induction map with
  | nil => cases member
  | cons entry map ih =>
      obtain ⟨absent, distinct⟩ := List.nodup_cons.mp distinct
      unfold get
      cases member with
      | head => simp
      | tail _ later =>
          have different : entry.1 ≠ key := by
            intro same
            exact absent (same ▸ List.mem_map_of_mem later)
          rw [List.find?_cons_of_neg (by simpa using different)]
          exact ih distinct later

@[simp] theorem without_nil (map : OrderedMap Key Value) : without map [] = map :=
  List.filter_eq_self.mpr fun _ _ => decide_eq_true List.not_mem_nil

theorem without_cons (map : OrderedMap Key Value) (key : Key) (gone : List Key) :
    without map (key :: gone) = delete (without map gone) key := by
  unfold without delete
  rw [List.filter_filter]
  refine List.filter_congr fun entry _ => ?_
  simp only [List.mem_cons, not_or, ne_eq, Bool.decide_and]

theorem without_append (map : OrderedMap Key Value) (gone more : List Key) :
    without map (gone ++ more) = without (without map more) gone := by
  unfold without
  rw [List.filter_filter]
  refine List.filter_congr fun entry _ => ?_
  simp only [List.mem_append, not_or, Bool.decide_and]

theorem without_delete (map : OrderedMap Key Value) (key : Key) (gone : List Key) :
    without (delete map key) (key :: gone) = without map (key :: gone) := by
  unfold without delete
  rw [List.filter_filter]
  refine List.filter_congr fun entry _ => ?_
  simp only [List.mem_cons, not_or, ne_eq, Bool.decide_and]
  cases decide (¬entry.1 = key) with
  | false => rfl
  | true => exact Bool.and_true _

theorem deleteAll_eq (map : OrderedMap Key Value) (gone : List Key) :
    deleteAll map gone = without map gone := by
  induction gone generalizing map with
  | nil => exact (without_nil map).symm
  | cons key gone ih =>
      have step : deleteAll map (key :: gone) = deleteAll (delete map key) gone := rfl
      rw [step, ih]
      unfold without delete
      rw [List.filter_filter]
      refine List.filter_congr fun entry _ => ?_
      simp only [List.mem_cons, not_or, ne_eq, Bool.decide_and, Bool.and_comm]

theorem get_without (notGone : key ∉ gone) : get (without map gone) key = get map key := by
  unfold get without
  rw [List.find?_filter]
  refine congrArg (fun test => (map.find? test).map Prod.snd) (funext fun entry => ?_)
  by_cases same : entry.1 = key
  · simp [same, notGone]
  · simp [same]

theorem without_reverse (map : OrderedMap Key Value) (gone : List Key) :
    without map gone.reverse = without map gone := by
  unfold without
  simp only [List.mem_reverse]

theorem keys_without (map : OrderedMap Key Value) (gone : List Key) :
    keys (without map gone) = (keys map).filter (· ∉ gone) := by
  unfold keys without
  rw [List.filter_map]
  rfl

/-- Where two maps differ in keys that are gone only, they do so in one more. -/
theorem without_cons_congr (same : without map gone = without other gone) (key : Key) :
    without map (key :: gone) = without other (key :: gone) := by
  rw [without_cons, without_cons, same]

theorem get_congr (same : without map gone = without other gone) (notGone : key ∉ gone) :
    get map key = get other key := by
  rw [← get_without notGone, same, get_without notGone]

end

end OrderedMap

end FreeOnline.Library
