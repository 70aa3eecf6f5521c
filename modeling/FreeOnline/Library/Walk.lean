import Mathlib.Data.Set.Finite.Basic
import Mathlib.Logic.Relation

/-!
# Walks that come back

Where only finitely many places lead on, a walk ends exactly if it meets no place twice.
-/

set_option autoImplicit false

namespace FreeOnline.Library

open Relation

universe u

variable {Place : Type u} {leads : Place → Place → Prop}

/-- There is no endless walk from here. -/
def EndsFrom (leads : Place → Place → Prop) (place : Place) : Prop :=
  Acc (fun next place => leads place next) place

/-- No walk from here meets a place twice. -/
def NeverReturns (leads : Place → Place → Prop) (place : Place) : Prop :=
  ∀ other, ReflTransGen leads place other → ¬ TransGen leads other other

theorem EndsFrom.next {place next : Place} (ends : EndsFrom leads place)
    (isNext : leads place next) : EndsFrom leads next :=
  ends.inv isNext

theorem endsFrom_intro {place : Place} (ends : ∀ next, leads place next → EndsFrom leads next) :
    EndsFrom leads place :=
  .intro place ends

private theorem EndsFrom.not_transGen {place : Place} (ends : EndsFrom leads place) :
    ¬ TransGen leads place place := by
  unfold EndsFrom at ends
  induction ends with
  | intro place _ ih =>
      intro returns
      obtain ⟨next, isNext, back⟩ := TransGen.head'_iff.mp returns
      rcases (ReflTransGen.cases_tail_iff ..).mp back with isSame | ⟨last, isWalk, isLast⟩
      · subst isSame
        exact ih _ isNext returns
      · exact ih next isNext ((TransGen.tail' isWalk isLast).tail isNext)

theorem EndsFrom.neverReturns {place : Place} (ends : EndsFrom leads place) :
    NeverReturns leads place := by
  intro other reached
  have otherEnds : EndsFrom leads other := by
    induction reached with
    | refl => exact ends
    | tail _ isNext ih => exact ih.next isNext
  exact otherEnds.not_transGen

theorem NeverReturns.endsFrom {places : Set Place} (finite : places.Finite)
    (leadsOn : ∀ {place next}, leads place next → place ∈ places) {start : Place}
    (never : NeverReturns leads start) : EndsFrom leads start := by
  have isFinite : Finite {place // place ∈ places ∧ ReflTransGen leads start place} :=
    (finite.subset fun _ reached => reached.1).to_subtype
  let behind (next place : {place // place ∈ places ∧ ReflTransGen leads start place}) : Prop :=
    TransGen leads place.val next.val
  have transitive : IsTrans _ behind := ⟨fun _ _ _ first second => second.trans first⟩
  have irreflexive : Std.Irrefl behind := ⟨fun place => never place.val place.property.2⟩
  have isWellFounded := Finite.wellFounded_of_trans_of_irrefl behind
  have reachedEnds (place : {place // place ∈ places ∧ ReflTransGen leads start place}) :
      EndsFrom leads place.val := by
    induction place using isWellFounded.induction with
    | h place ih =>
        refine endsFrom_intro fun next isNext => ?_
        by_cases member : next ∈ places
        · exact ih ⟨next, member, place.property.2.tail isNext⟩ (.single isNext)
        · exact endsFrom_intro fun _ isFurther => absurd (leadsOn isFurther) member
  by_cases member : start ∈ places
  · exact reachedEnds ⟨start, member, .refl⟩
  · exact endsFrom_intro fun _ isNext => absurd (leadsOn isNext) member

end FreeOnline.Library
