import Mathlib.Data.List.Basic

/-!
# Maps whose keys are patterns

A subject is looked up as it stands, and if it is no key, by the first key in the order of the map
that matches it. What is found in a larger map and is in a smaller one is found there as well.
-/

set_option autoImplicit false

namespace FreeOnline.Library

open Std

universe u v

variable {Key : Type u} {Value : Type v} {cmp : Key → Key → Ordering} (fits : Key → Key → Bool)

def matching? (map : TreeMap Key Value cmp) (subject : Key) : Option (Key × Value) :=
  match map[subject]? with
  | some value => some (subject, value)
  | none => map.toList.find? fun entry => fits entry.1 subject

/-- The key comes before those of the map, when a subject is looked up. -/
structure Precedes (map : TreeMap Key Value cmp) (subject key : Key) : Prop where
  absent : map[subject]? = none
  isFit : fits key subject = true
  first : ∀ (other : Key) (value : Value), map[other]? = some value →
    fits other subject = true → cmp key other ≠ .gt

variable {fits} {map : TreeMap Key Value cmp} {subject key : Key} {value : Value}

theorem absent_of_within {smaller : TreeMap Key Value cmp}
    (within : ∀ (key : Key) (value : Value), smaller[key]? = some value → map[key]? = some value)
    (absent : map[subject]? = none) : smaller[subject]? = none := by
  cases isThere : smaller[subject]? with
  | none => rfl
  | some value =>
      rw [within subject value isThere] at absent
      cases absent

theorem Precedes.of_within {smaller : TreeMap Key Value cmp}
    (within : ∀ (key : Key) (value : Value), smaller[key]? = some value → map[key]? = some value)
    (precedes : Precedes fits map subject key) : Precedes fits smaller subject key where
  absent := absent_of_within within precedes.absent
  isFit := precedes.isFit
  first := fun other value isEntry => precedes.first other value (within other value isEntry)

variable [TransCmp cmp] [LawfulEqCmp cmp]

/-- What is found is the subject itself, or the first key that matches it. -/
theorem matching?_some_iff :
    matching? fits map subject = some (key, value) ↔
      map[key]? = some value ∧ (key = subject ∨ Precedes fits map subject key) := by
  unfold matching?
  cases isThere : map[subject]? with
  | some found =>
      dsimp only
      constructor
      · intro same
        obtain ⟨sameKey, sameValue⟩ := Prod.mk.inj (Option.some.inj same)
        rw [← sameKey, ← sameValue]
        exact ⟨isThere, .inl rfl⟩
      · intro ⟨isEntry, reason⟩
        cases reason with
        | inl same =>
            rw [same, isThere] at isEntry
            rw [same, Option.some.inj isEntry]
        | inr precedes =>
            have absent := precedes.absent
            rw [isThere] at absent
            cases absent
  | none =>
      dsimp only
      rw [List.find?_eq_some_iff_append]
      constructor
      · intro ⟨isFit, before, after, isList, noneBefore⟩
        have sorted := @TreeMap.ordered_keys_toList _ _ cmp map _
        have member : (key, value) ∈ map.toList := by
          rw [isList]
          exact List.mem_append_right before List.mem_cons_self
        refine ⟨TreeMap.mem_toList_iff_getElem?_eq_some.mp member, .inr ⟨isThere, isFit, ?_⟩⟩
        intro other old isEntry otherFits
        have otherMember := TreeMap.mem_toList_iff_getElem?_eq_some.mpr isEntry
        rw [isList] at otherMember sorted
        rw [List.pairwise_append, List.pairwise_cons] at sorted
        cases List.mem_append.mp otherMember with
        | inl earlier =>
            have skipped := noneBefore _ earlier
            rw [otherFits] at skipped
            cases skipped
        | inr notEarlier =>
            cases notEarlier with
            | head =>
                have same : cmp key key = .eq := ReflCmp.compare_self
                rw [same]
                decide
            | tail _ later =>
                rw [sorted.2.1.1 _ later]
                decide
      · intro ⟨isEntry, reason⟩
        cases reason with
        | inl same =>
            rw [same, isThere] at isEntry
            cases isEntry
        | inr precedes =>
            have member := TreeMap.mem_toList_iff_getElem?_eq_some.mpr isEntry
            have sorted := @TreeMap.ordered_keys_toList _ _ cmp map _
            obtain ⟨before, after, isList⟩ := List.append_of_mem member
            refine ⟨precedes.isFit, before, after, isList, fun entry earlier => ?_⟩
            have otherMember : entry ∈ map.toList := by
              rw [isList]
              exact List.mem_append_left _ earlier
            rw [isList, List.pairwise_append] at sorted
            have before := sorted.2.2 _ earlier _ List.mem_cons_self
            rw [Bool.not_eq_true']
            by_contra passes
            rw [Bool.not_eq_false] at passes
            exact precedes.first entry.1 entry.2
              (TreeMap.mem_toList_iff_getElem?_eq_some.mp otherMember) passes
              (OrientedCmp.gt_of_lt before)

theorem matching?_none_iff :
    matching? fits map subject = none ↔
      map[subject]? = none ∧
        ∀ (key : Key) (value : Value), map[key]? = some value → fits key subject = false := by
  unfold matching?
  cases isThere : map[subject]? with
  | some found => exact iff_of_false (fun isNone => by cases isNone) fun isNone => by cases isNone.1
  | none =>
      dsimp only
      rw [List.find?_eq_none]
      constructor
      · intro noneFits
        refine ⟨rfl, fun key value isEntry => ?_⟩
        exact Bool.not_eq_true _ ▸
          noneFits _ (TreeMap.mem_toList_iff_getElem?_eq_some.mpr isEntry)
      · intro ⟨_, noneFits⟩ entry member
        rw [noneFits entry.1 entry.2 (TreeMap.mem_toList_iff_getElem?_eq_some.mp member)]
        decide

/-!
## Smaller maps
-/

section Smaller

variable {smaller : TreeMap Key Value cmp}
  (within : ∀ (key : Key) (value : Value), smaller[key]? = some value → map[key]? = some value)

include within

theorem matching?_of_within (found : matching? fits map subject = some (key, value))
    (isEntry : smaller[key]? = some value) :
    matching? fits smaller subject = some (key, value) := by
  obtain ⟨-, reason⟩ := matching?_some_iff.mp found
  exact matching?_some_iff.mpr ⟨isEntry, reason.imp_right (.of_within within)⟩

theorem matching?_none_of_within (notFound : matching? fits map subject = none) :
    matching? fits smaller subject = none := by
  obtain ⟨absent, noneFits⟩ := matching?_none_iff.mp notFound
  exact matching?_none_iff.mpr ⟨absent_of_within within absent,
    fun key value isEntry => noneFits key value (within key value isEntry)⟩

end Smaller

end FreeOnline.Library
