import Mathlib.Algebra.BigOperators.Group.List.Basic

/-!
# Outboxes

Items wait to be sent, and all that wait are sent together. What was sent waits again, before
what came later, if it does not arrive. A program may hold nothing but the product of those
that wait and the product of those that were sent.
-/

set_option autoImplicit false

namespace FreeOnline.Library

universe u

structure Outbox (Item : Type u) where
  waiting : List Item
  sent : List Item
deriving DecidableEq

namespace Outbox

variable {Item : Type u}

def empty : Outbox Item := ⟨[], []⟩

def add (outbox : Outbox Item) (item : Item) : Outbox Item :=
  { outbox with waiting := outbox.waiting ++ [item] }

def send (outbox : Outbox Item) : Outbox Item := ⟨[], outbox.waiting⟩

def succeed (outbox : Outbox Item) : Outbox Item := { outbox with sent := [] }

def fail (outbox : Outbox Item) : Outbox Item := ⟨outbox.sent ++ outbox.waiting, []⟩

end Outbox

/-- What is left of an outbox: the product of what waits and of what was sent last. -/
structure Slots (Item : Type u) where
  current : Item
  last : Item

namespace Slots

variable {Item : Type u} [Monoid Item]

/-- What was sent counts only while it is under way, and else there is none. -/
structure Summarises (slots : Slots Item) (outbox : Outbox Item) (underWay : Bool) : Prop where
  current : slots.current = outbox.waiting.prod
  last : underWay = true → slots.last = outbox.sent.prod
  idle : underWay = false → outbox.sent = []

instance [DecidableEq Item] (slots : Slots Item) (outbox : Outbox Item) (underWay : Bool) :
    Decidable (slots.Summarises outbox underWay) :=
  decidable_of_iff (slots.current = outbox.waiting.prod ∧
      (underWay = true → slots.last = outbox.sent.prod) ∧ (underWay = false → outbox.sent = []))
    ⟨fun ⟨current, last, idle⟩ => ⟨current, last, idle⟩,
      fun ⟨current, last, idle⟩ => ⟨current, last, idle⟩⟩

namespace Summarises

variable {slots : Slots Item} {outbox : Outbox Item} {underWay : Bool}

/-- Another item may be merged than the one that is added. -/
theorem add_iff (summarises : slots.Summarises outbox underWay) (merged added : Item) :
    Summarises ⟨slots.current * merged, slots.last⟩ (outbox.add added) underWay ↔
      slots.current * merged = slots.current * added := by
  have isProduct : (outbox.add added).waiting.prod = slots.current * added := by
    rw [Outbox.add, List.prod_append, List.prod_singleton, summarises.current]
  constructor
  · intro added
    exact added.current.trans isProduct
  · intro same
    exact ⟨same.trans isProduct.symm, summarises.last, summarises.idle⟩

theorem add (summarises : slots.Summarises outbox underWay) (item : Item) :
    Summarises ⟨slots.current * item, slots.last⟩ (outbox.add item) underWay :=
  (summarises.add_iff item item).mpr rfl

theorem send (summarises : slots.Summarises outbox underWay) :
    Summarises ⟨1, slots.current⟩ outbox.send true :=
  ⟨rfl, fun _ => summarises.current, nofun⟩

/-- Moving the slots without sending anything loses what they hold. -/
theorem move_iff (summarises : slots.Summarises outbox underWay) :
    Summarises ⟨1, slots.current⟩ outbox underWay ↔
      slots.current = 1 ∧ (underWay = true → slots.last = 1) := by
  constructor
  · intro moved
    have isNone : slots.current = 1 := summarises.current.trans moved.current.symm
    refine ⟨isNone, ?_⟩
    intro isUnderWay
    exact (summarises.last isUnderWay).trans ((moved.last isUnderWay).symm.trans isNone)
  · rintro ⟨isNone, lastIsNone⟩
    refine ⟨isNone.symm.trans summarises.current, ?_, summarises.idle⟩
    intro isUnderWay
    exact isNone.trans ((lastIsNone isUnderWay).symm.trans (summarises.last isUnderWay))

/-- The same if something else is sent than what waits. -/
theorem divert_iff (summarises : slots.Summarises outbox false) :
    Summarises ⟨1, slots.current⟩ outbox true ↔ slots.current = 1 := by
  have nothingSent : outbox.sent.prod = 1 := by
    rw [summarises.idle rfl, List.prod_nil]
  constructor
  · intro diverted
    exact summarises.current.trans diverted.current.symm
  · intro isNone
    exact ⟨isNone.symm.trans summarises.current, fun _ => isNone.trans nothingSent.symm, nofun⟩

theorem succeed (summarises : slots.Summarises outbox underWay) (last : Item) :
    Summarises ⟨slots.current, last⟩ outbox.succeed false :=
  ⟨summarises.current, nofun, fun _ => rfl⟩

/-- What was sent goes before what waits, which matters if the slots are merged the other
way round. -/
theorem fail_iff (summarises : slots.Summarises outbox true) (last : Item) :
    Summarises ⟨slots.current * slots.last, last⟩ outbox.fail false ↔
      slots.current * slots.last = slots.last * slots.current := by
  have isProduct : outbox.fail.waiting.prod = slots.last * slots.current := by
    rw [Outbox.fail, List.prod_append, summarises.current, summarises.last rfl]
  constructor
  · intro failed
    exact failed.current.trans isProduct
  · intro commutes
    exact ⟨commutes.trans isProduct.symm, nofun, fun _ => rfl⟩

end Summarises

end Slots

end FreeOnline.Library
