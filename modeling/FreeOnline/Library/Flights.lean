import Mathlib.Data.List.Nodup
import Mathlib.Data.List.Perm.Basic

/-!
# Messages in flight

Messages are answered in the order in which they were sent, by an answer that names the label
of the message. Some of the messages are tracked: a list has an entry with their label.
-/

set_option autoImplicit false

namespace FreeOnline.Library

universe u

structure Flight (Label : Type u) where
  serial : Nat
  label : Label
deriving DecidableEq

namespace Flight

variable {Label : Type u}

/-- The entries there should be for the tracked messages, which are given by their numbers. -/
def owed (tracked : List Nat) (flights : List (Flight Label)) : List Label :=
  (flights.filter fun flight => decide (flight.serial ∈ tracked)).map (·.label)

def forget (tracked : List Nat) (serial : Nat) : List Nat :=
  tracked.filter (· ≠ serial)

/-- The oldest tracked message with the label is not tracked any more. -/
def untrack [DecidableEq Label] (flights : List (Flight Label)) (tracked : List Nat) (label : Label) :
    List Nat :=
  match flights.find? fun flight => decide (flight.serial ∈ tracked) && flight.label = label with
  | none => tracked
  | some flight => forget tracked flight.serial

/-- A new message is tracked in the place of an old one. -/
def retrack (tracked : List Nat) (old new : Nat) : List Nat :=
  if old ∈ tracked then new :: forget tracked old else tracked

theorem mem_forget {tracked : List Nat} {serial other : Nat} :
    other ∈ forget tracked serial ↔ other ∈ tracked ∧ other ≠ serial := by
  simp [forget]

theorem mem_of_mem_untrack [DecidableEq Label] {flights : List (Flight Label)}
    {tracked : List Nat} {label : Label} {serial : Nat}
    (member : serial ∈ untrack flights tracked label) : serial ∈ tracked := by
  unfold untrack at member
  split at member
  · exact member
  · exact (mem_forget.mp member).1

theorem owed_append (tracked : List Nat) (before after : List (Flight Label)) :
    owed tracked (before ++ after) = owed tracked before ++ owed tracked after := by
  simp [owed]

theorem owed_cons_of_mem {tracked : List Nat} {flight : Flight Label}
    (isTracked : flight.serial ∈ tracked) (flights : List (Flight Label)) :
    owed tracked (flight :: flights) = flight.label :: owed tracked flights := by
  simp [owed, isTracked]

theorem owed_cons_of_notMem {tracked : List Nat} {flight : Flight Label}
    (notTracked : flight.serial ∉ tracked) (flights : List (Flight Label)) :
    owed tracked (flight :: flights) = owed tracked flights := by
  simp [owed, notTracked]

theorem owed_congr {tracked other : List Nat} {flights : List (Flight Label)}
    (same : ∀ flight ∈ flights, flight.serial ∈ tracked ↔ flight.serial ∈ other) :
    owed tracked flights = owed other flights := by
  unfold owed
  rw [List.filter_congr]
  intro flight member
  simp [same flight member]

theorem owed_nil (flights : List (Flight Label)) : owed [] flights = [] := by
  simp [owed]

theorem owed_forget {tracked : List Nat} {serial : Nat} {flights : List (Flight Label)}
    (other : ∀ flight ∈ flights, flight.serial ≠ serial) :
    owed (forget tracked serial) flights = owed tracked flights := by
  apply owed_congr
  intro flight member
  rw [mem_forget]
  exact and_iff_left (other flight member)

theorem owed_track {tracked : List Nat} {serial : Nat} {flights : List (Flight Label)}
    (other : ∀ flight ∈ flights, flight.serial ≠ serial) :
    owed (serial :: tracked) flights = owed tracked flights := by
  apply owed_congr
  intro flight member
  rw [List.mem_cons]
  exact or_iff_right (other flight member)

theorem push_perm {entries : List Label} {tracked : List Nat} {flights : List (Flight Label)}
    {new : Flight Label} (accounts : entries.Perm (owed tracked flights))
    (fresh : ∀ flight ∈ flights, flight.serial ≠ new.serial) :
    (entries ++ [new.label]).Perm (owed (new.serial :: tracked) (flights ++ [new])) := by
  rw [owed_append, owed_track fresh, owed_cons_of_mem List.mem_cons_self]
  exact accounts.append_right _

/-- A message that replaces one with its label needs no other entry. -/
theorem replace_perm {entries : List Label} {tracked : List Nat}
    {before after : List (Flight Label)} {old new : Flight Label}
    (accounts : entries.Perm (owed tracked (before ++ old :: after)))
    (sameLabel : new.label = old.label) (notTracked : new.serial ∉ tracked)
    (distinct : ∀ flight ∈ before ++ after, flight.serial ≠ old.serial)
    (fresh : ∀ flight ∈ before ++ after, flight.serial ≠ new.serial) :
    entries.Perm (owed (retrack tracked old.serial new.serial) (before ++ after ++ [new])) := by
  unfold retrack
  split
  · next isTracked =>
      rw [owed_append, owed_track fresh, owed_forget distinct, owed_cons_of_mem List.mem_cons_self,
        owed_append]
      rw [owed_append, owed_cons_of_mem isTracked, ← sameLabel] at accounts
      exact accounts.trans (List.perm_middle.trans (List.perm_append_singleton ..).symm)
  · next oldNotTracked =>
      rw [owed_append, owed_cons_of_notMem oldNotTracked] at accounts
      rw [owed_append, owed_cons_of_notMem notTracked, owed_append]
      simpa [owed] using accounts

/-- The entry of the answered message goes, unless it was not tracked and another entry has
its label. -/
theorem answer_iff [DecidableEq Label] {entries : List Label} {tracked : List Nat}
    {flight : Flight Label} {flights : List (Flight Label)}
    (accounts : entries.Perm (owed tracked (flight :: flights)))
    (distinct : ∀ other ∈ flights, other.serial ≠ flight.serial) :
    (entries.erase flight.label).Perm (owed (forget tracked flight.serial) flights) ↔
      flight.serial ∈ tracked ∨ flight.label ∉ entries := by
  rw [owed_forget distinct]
  by_cases isTracked : flight.serial ∈ tracked
  · rw [owed_cons_of_mem isTracked] at accounts
    refine iff_of_true ?_ (.inl isTracked)
    have erased := accounts.erase flight.label
    rwa [List.erase_cons_head] at erased
  · rw [owed_cons_of_notMem isTracked] at accounts
    rw [or_iff_right isTracked]
    constructor
    · intro erased isEntry
      have sameLength := (erased.trans accounts.symm).length_eq
      rw [List.length_erase_of_mem isEntry] at sameLength
      have positive := List.length_pos_of_mem isEntry
      omega
    · intro noEntry
      rwa [List.erase_of_not_mem noEntry]

/-- Dropping an entry means not to track its message any more. -/
theorem untrack_perm [DecidableEq Label] {entries : List Label} {label : Label} {tracked : List Nat}
    {flights : List (Flight Label)} (distinct : (flights.map (·.serial)).Nodup)
    (accounts : (label :: entries).Perm (owed tracked flights)) :
    entries.Perm (owed (untrack flights tracked label) flights) := by
  have isOwed : label ∈ owed tracked flights := accounts.mem_iff.mp List.mem_cons_self
  obtain ⟨flight, member, isLabel⟩ := List.mem_map.mp isOwed
  obtain ⟨inFlight, isTracked⟩ := List.mem_filter.mp member
  rw [decide_eq_true_eq] at isTracked
  unfold untrack
  cases found : flights.find? fun flight =>
      decide (flight.serial ∈ tracked) && flight.label = label with
  | none =>
      have notFound := List.find?_eq_none.mp found flight inFlight
      simp [isTracked, isLabel] at notFound
  | some oldest =>
      dsimp only
      obtain ⟨satisfies, before, after, split, -⟩ := List.find?_eq_some_iff_append.mp found
      simp only [Bool.and_eq_true, decide_eq_true_eq] at satisfies
      obtain ⟨oldestTracked, oldestLabel⟩ := satisfies
      rw [split] at accounts distinct ⊢
      rw [List.map_append, List.map_cons, List.nodup_middle, List.nodup_cons, ← List.map_append]
        at distinct
      have others : ∀ other ∈ before ++ after, other.serial ≠ oldest.serial := by
        intro other isOther same
        exact distinct.1 (List.mem_map.mpr ⟨other, isOther, same⟩)
      have notTracked : oldest.serial ∉ forget tracked oldest.serial := by
        simp [mem_forget]
      rw [owed_append, owed_cons_of_mem oldestTracked, oldestLabel] at accounts
      rw [owed_append, owed_cons_of_notMem notTracked, ← owed_append, owed_forget others,
        owed_append]
      exact (accounts.trans List.perm_middle).cons_inv

end Flight

end FreeOnline.Library
