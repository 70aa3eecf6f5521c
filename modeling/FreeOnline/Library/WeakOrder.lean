/-!
# Strict weak orders

What a sort asks of the comparison that it is given, on the entries that it sorts.
-/

set_option autoImplicit false

namespace FreeOnline.Library

universe u

variable {Entry : Type u}

/-- Neither comes before the other. -/
def Incomparable (before : Entry → Entry → Bool) (a b : Entry) : Prop :=
  before a b = false ∧ before b a = false

instance (before : Entry → Entry → Bool) (a b : Entry) : Decidable (Incomparable before a b) :=
  inferInstanceAs (Decidable (_ ∧ _))

structure StrictWeakOn (before : Entry → Entry → Bool) (entries : List Entry) : Prop where
  irreflexive : ∀ a ∈ entries, before a a = false
  asymmetric : ∀ a ∈ entries, ∀ b ∈ entries, before a b = true → before b a = false
  transitive : ∀ a ∈ entries, ∀ b ∈ entries, ∀ c ∈ entries,
    before a b = true → before b c = true → before a c = true
  incomparable : ∀ a ∈ entries, ∀ b ∈ entries, ∀ c ∈ entries,
    Incomparable before a b → Incomparable before b c → Incomparable before a c

variable {before : Entry → Entry → Bool} {entries : List Entry}

/-- What stands before itself can only sort nothing. -/
theorem strictWeakOn_of_reflexive (reflexive : ∀ a, before a a = true) :
    StrictWeakOn before entries ↔ entries = [] := by
  constructor
  · intro isOrder
    cases entries with
    | nil => rfl
    | cons a entries =>
        have notBefore := isOrder.irreflexive a List.mem_cons_self
        rw [reflexive a] at notBefore
        cases notBefore
  · rintro rfl
    exact ⟨nofun, nofun, nofun, nofun⟩

section

variable {low high : Entry → Prop}

/-- Where low entries come before high ones, any other entry is incomparable to both. -/
theorem strictWeakOn_of_classes (isBefore : ∀ a b, before a b = true ↔ low a ∧ high b)
    (disjoint : ∀ a, low a → ¬high a) :
    StrictWeakOn before entries ↔
      ¬((∃ a ∈ entries, low a) ∧ (∃ b ∈ entries, high b) ∧ ∃ c ∈ entries, ¬low c ∧ ¬high c) := by
  have notBefore (a b : Entry) : before a b = false ↔ (low a → ¬high b) := by
    rw [← Bool.not_eq_true, isBefore, not_and]
  constructor
  · rintro isOrder ⟨⟨a, isEntry, isLow⟩, ⟨b, isOther, isHigh⟩, c, isThird, notLow, notHigh⟩
    have lowMiddle : Incomparable before a c :=
      ⟨(notBefore a c).mpr fun _ => notHigh, (notBefore c a).mpr fun isLow => absurd isLow notLow⟩
    have middleHigh : Incomparable before c b :=
      ⟨(notBefore c b).mpr fun isLow => absurd isLow notLow, (notBefore b c).mpr fun _ => notHigh⟩
    have same := isOrder.incomparable a isEntry c isThird b isOther lowMiddle middleHigh
    exact (notBefore a b).mp same.1 isLow isHigh
  · intro notAll
    -- an entry between two incomparable ones would have to be of neither class
    have chain (a b c : Entry) (isEntry : a ∈ entries) (isMiddle : b ∈ entries)
        (isLast : c ∈ entries) (first : Incomparable before a b)
        (second : Incomparable before b c) : before a c = false := by
      rw [notBefore]
      intro isLow isHigh
      refine notAll ⟨⟨a, isEntry, isLow⟩, ⟨c, isLast, isHigh⟩, b, isMiddle, ?_, ?_⟩
      · exact fun middleLow => (notBefore b c).mp second.1 middleLow isHigh
      · exact (notBefore a b).mp first.1 isLow
    refine ⟨fun a _ => ?_, fun a _ b _ isLess => ?_, fun a _ b _ c _ first second => ?_, ?_⟩
    · exact (notBefore a a).mpr (disjoint a)
    · have ⟨isLow, isHigh⟩ := (isBefore a b).mp isLess
      exact (notBefore b a).mpr fun otherLow => absurd isHigh (disjoint b otherLow)
    · have isHigh := ((isBefore a b).mp first).2
      exact absurd isHigh (disjoint b ((isBefore b c).mp second).1)
    · intro a isEntry b isMiddle c isLast first second
      exact ⟨chain a b c isEntry isMiddle isLast first second,
        chain c b a isLast isMiddle isEntry ⟨second.2, second.1⟩ ⟨first.2, first.1⟩⟩

end

end FreeOnline.Library
