import Mathlib.Data.List.Chain

/-!
# Runs of linked elements

The longest run at the start of a list in which each element is linked to the one before it.
-/

set_option autoImplicit false

namespace FreeOnline.Library

variable {α : Type} (linked : α → α → Bool)

def linkedRun : α → List α → List α
  | current, [] => [current]
  | current, next :: rest =>
      if linked current next then current :: linkedRun next rest else [current]

variable {linked}

theorem linkedRun_atStart (current : α) (rest : List α) :
    linkedRun linked current rest <+: current :: rest := by
  induction rest generalizing current with
  | nil => exact List.prefix_rfl
  | cons next rest ih =>
      rw [linkedRun]
      split
      · exact List.cons_prefix_cons.mpr ⟨rfl, ih next⟩
      · exact ⟨next :: rest, rfl⟩

/-- What is taken from the list is taken from the run, as long as the run lasts. -/
theorem take_of_le_linkedRun_length {current : α} {rest : List α} {count : Nat}
    (short : count ≤ (linkedRun linked current rest).length) :
    (current :: rest).take count = (linkedRun linked current rest).take count := by
  obtain ⟨behind, isList⟩ := @linkedRun_atStart α linked current rest
  rw [← isList, List.take_append_of_le_length short]

theorem linkedRun_head (current : α) (rest : List α) :
    ∃ others, linkedRun linked current rest = current :: others := by
  cases rest with
  | nil => exact ⟨[], rfl⟩
  | cons next rest =>
      rw [linkedRun]
      split
      · exact ⟨_, rfl⟩
      · exact ⟨[], rfl⟩

theorem linkedRun_length_pos (current : α) (rest : List α) :
    0 < (linkedRun linked current rest).length := by
  obtain ⟨others, isRun⟩ := @linkedRun_head α linked current rest
  rw [isRun]
  exact Nat.succ_pos _

/-- No element is linked to the one before it, so a run has one element. -/
theorem linkedRun_of_unlinked {current : α} {rest : List α}
    (unlinked : (current :: rest).IsChain fun a b => linked a b = false) :
    linkedRun linked current rest = [current] := by
  cases rest with
  | nil => rfl
  | cons next rest =>
      rw [linkedRun, (List.isChain_cons_cons.mp unlinked).1]
      rfl

variable {R : α → α → Prop}

/-- The elements of a run are linked, and related as those of the list. -/
theorem linkedRun_isChain {current : α} {rest : List α} (chain : (current :: rest).IsChain R) :
    (linkedRun linked current rest).IsChain fun a b => linked a b = true ∧ R a b := by
  induction rest generalizing current with
  | nil => exact .singleton _
  | cons next rest ih =>
      obtain ⟨related, later⟩ := List.isChain_cons_cons.mp chain
      rw [linkedRun]
      split
      · next isLinked =>
          refine List.isChain_cons.mpr ⟨fun second isSecond => ?_, ih later⟩
          -- The second element of the run is the second one of the list.
          obtain ⟨others, isRun⟩ := @linkedRun_head α linked next rest
          rw [isRun] at isSecond
          cases isSecond
          exact ⟨isLinked, related⟩
      · exact .singleton _

/-- A relation that holds up to each element of the run, and where there is no link, is one behind the
run. -/
theorem isChain_iff_behind_run {current : α} {rest : List α}
    (ofUnlinked : ∀ a b, linked a b = false → R a b)
    (ofRun : ∀ a, ∀ b ∈ linkedRun linked current rest, R a b) :
    (current :: rest).IsChain R ↔
      ((current :: rest).drop (linkedRun linked current rest).length).IsChain R := by
  induction rest generalizing current with
  | nil => exact iff_of_true (.singleton _) .nil
  | cons next rest ih =>
      rw [List.isChain_cons_cons]
      rw [linkedRun] at ofRun ⊢
      cases isLinked : linked current next with
      | false => exact and_iff_right (ofUnlinked current next isLinked)
      | true =>
          rw [isLinked, if_pos rfl] at ofRun
          rw [if_pos rfl, List.length_cons, List.drop_succ_cons,
            ← ih fun a b member => ofRun a b (List.mem_cons_of_mem _ member)]
          refine and_iff_right (ofRun current next (List.mem_cons_of_mem _ ?_))
          obtain ⟨behind, isRest⟩ := @linkedRun_atStart α linked next rest
          obtain ⟨others, run⟩ := @linkedRun_head α linked next rest
          rw [run]
          exact List.mem_cons_self

section

variable {p : α → Bool}

theorem filter_eq_nil_of_isChain {first : α} {l : List α}
    (chain : (first :: l).IsChain fun a b => p b = true → p a = true) (isNot : p first = false) :
    l.filter p = [] := by
  induction l generalizing first with
  | nil => rfl
  | cons second l ih =>
      obtain ⟨related, later⟩ := List.isChain_cons_cons.mp chain
      have secondNot : p second = false := by
        rw [Bool.eq_false_iff]
        intro isSecond
        rw [related isSecond] at isNot
        cases isNot
      rw [List.filter_cons_of_neg (ne_true_of_eq_false secondNot)]
      exact ih later secondNot

/-- As many elements with a property as are taken are at the start where all that are taken have it. -/
theorem length_filter_take_eq_iff {l : List α} {count : Nat} (short : count ≤ l.length) :
    ((l.take count).filter p).length = count ↔ ∀ a ∈ l.take count, p a = true := by
  rw [← List.length_filter_eq_length_iff, List.length_take_of_le short]

theorem length_filter_take_le (l : List α) (count : Nat) :
    ((l.take count).filter p).length ≤ count :=
  (List.length_filter_le _ _).trans (List.length_take_le _ _)

/-- Where the elements with a property come first, there are as many of them as at the start. -/
theorem forall_mem_take_filter_length {l : List α}
    (chain : l.IsChain fun a b => p b = true → p a = true) :
    ∀ a ∈ l.take (l.filter p).length, p a = true := by
  induction l with
  | nil => nofun
  | cons first l ih =>
      cases isFirst : p first with
      | true =>
          rw [List.filter_cons_of_pos isFirst, List.length_cons, List.take_succ_cons]
          exact List.forall_mem_cons.mpr ⟨isFirst, ih chain.of_cons⟩
      | false =>
          rw [List.filter_cons_of_neg (ne_true_of_eq_false isFirst),
            filter_eq_nil_of_isChain chain isFirst]
          nofun

end

end FreeOnline.Library
