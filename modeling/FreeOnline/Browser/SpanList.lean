import FreeOnline.Browser.SpanEncoding
import FreeOnline.Library.Runs

/-!
# Span lists

The spans of two lists are merged border by border. A new span starts only where the result
changes.
-/

set_option autoImplicit false

namespace FreeOnline.Browser.SheetGeometry

open FreeOnline.Library

/-- What is left of two lists of bits behind the next border. -/
structure UnionState where
  thisBit : Bool
  thisSpans : List Int
  otherBit : Bool
  otherSpans : List Int

/-- The last element before the next border, and what is left behind it. -/
def unionAdvance (thisBit otherBit : Bool) (thisElement otherElement : Int)
    (thisSpans otherSpans : List Int) : Int × UnionState :=
  if thisElement < otherElement then
    (thisElement, ⟨!thisBit, thisSpans, otherBit, otherElement :: otherSpans⟩)
  else if otherElement < thisElement then
    (otherElement, ⟨thisBit, thisElement :: thisSpans, !otherBit, otherSpans⟩)
  else (otherElement, ⟨!thisBit, thisSpans, !otherBit, otherSpans⟩)

def unionLoop (maxElement : Int) : Nat → Bool → UnionState → List Int
  | fuel + 1, resultBit, ⟨thisBit, thisElement :: thisSpans, otherBit, otherElement :: otherSpans⟩ =>
      let (lastElement, next) :=
        unionAdvance thisBit otherBit thisElement otherElement thisSpans otherSpans
      let nextResultBit := next.thisBit || next.otherBit
      if resultBit ≠ nextResultBit ∨ maxElement ≤ lastElement then
        lastElement :: unionLoop maxElement fuel nextResultBit next
      else unionLoop maxElement fuel resultBit next
  | _, _, _ => []

/-- `BoolSpanList.union`, none where it is undefined. -/
def BoolSpanList.union (this other : BoolSpanList) : Option BoolSpanList :=
  if this.spanlist.getLast? ≠ other.spanlist.getLast? then none
  else
    let resultBit := this.startBit || other.startBit
    some ⟨resultBit, unionLoop (this.spanlist.getLast?.getD 0)
      (this.spanlist.length + other.spanlist.length) resultBit
      ⟨this.startBit, this.spanlist, other.startBit, other.spanlist⟩⟩

/-- What is left of a list of sizes and one of bits behind the next border. -/
structure ApplyState where
  thisSpans : List ParsedSpan
  zeroBit : Bool
  otherSpans : List Int

def applyAdvance (zeroBit : Bool) (thisSpan : ParsedSpan) (otherElement : Int)
    (thisSpans : List ParsedSpan) (otherSpans : List Int) : Int × ApplyState :=
  if thisSpan.index < otherElement then
    (thisSpan.index, ⟨thisSpans, zeroBit, otherElement :: otherSpans⟩)
  else if otherElement < thisSpan.index then
    (otherElement, ⟨thisSpan :: thisSpans, !zeroBit, otherSpans⟩)
  else (otherElement, ⟨thisSpans, !zeroBit, otherSpans⟩)

/-- The value behind the border. It stays where there are no more sizes. -/
def nextResultValue (resultValue : Int) : ApplyState → Int
  | ⟨[], _, _⟩ => resultValue
  | ⟨span :: _, zeroBit, _⟩ => if zeroBit then 0 else span.value

def applyLoop (maxElement : Int) : Nat → Int → ApplyState → List ParsedSpan
  | fuel + 1, resultValue, ⟨thisSpan :: thisSpans, zeroBit, otherElement :: otherSpans⟩ =>
      let (lastElement, next) :=
        applyAdvance zeroBit thisSpan otherElement thisSpans otherSpans
      let nextValue := nextResultValue resultValue next
      if resultValue ≠ nextValue ∨ maxElement ≤ lastElement then
        ⟨lastElement, resultValue⟩ :: applyLoop maxElement fuel nextValue next
      else applyLoop maxElement fuel resultValue next
  | _, _, _ => []

/-- `SpanList.applyZeroValues`, none where it is undefined or reads a property of undefined. -/
def applyZeroValues (this : List ParsedSpan) (other : BoolSpanList) : Option (List ParsedSpan) :=
  match this, this.getLast? with
  | first :: _, some last =>
      if some last.index ≠ other.spanlist.getLast? then none
      else
        some (applyLoop last.index (this.length + other.spanlist.length)
          (if other.startBit then 0 else first.value) ⟨this, other.startBit, other.spanlist⟩)
  | _, _ => none

/-!
## What is merged
-/

/-- The runs of bits that change behind each of the elements. -/
def alternate : Bool → List Int → List (Int × Bool)
  | _, [] => []
  | bit, element :: elements => (element, bit) :: alternate (!bit) elements

private theorem alternate_eq_nil {bit : Bool} {elements : List Int}
    (isEmpty : alternate bit elements = []) : elements = [] := by
  cases elements with
  | nil => rfl
  | cons => cases isEmpty

def runs (spans : List ParsedSpan) : List (Int × Int) := spans.map fun span => (span.index, span.value)

section

variable {f g : Int → Bool} {last previous : Int}

private theorem unionAdvance_describes {thisBit otherBit : Bool} {thisElement otherElement : Int}
    {thisSpans otherSpans : List Int}
    (this : Describes f last previous (alternate thisBit (thisElement :: thisSpans)))
    (other : Describes g last previous (alternate otherBit (otherElement :: otherSpans))) :
    ∃ lastElement next,
      unionAdvance thisBit otherBit thisElement otherElement thisSpans otherSpans =
        (lastElement, next) ∧ previous < lastElement ∧
      (∀ i, previous < i → i ≤ lastElement → (f i || g i) = (thisBit || otherBit)) ∧
      Describes f last lastElement (alternate next.thisBit next.thisSpans) ∧
      Describes g last lastElement (alternate next.otherBit next.otherSpans) ∧
      next.thisSpans.length + next.otherSpans.length ≤ thisSpans.length + otherSpans.length + 1 := by
  have thisLater {i : Int} := @Describes.shrink _ f last previous i _ _ _ this
  have otherLater {i : Int} := @Describes.shrink _ g last previous i _ _ _ other
  cases this with
  | run thisBehind thisEqual thisRest =>
      cases other with
      | run otherBehind otherEqual otherRest =>
          unfold unionAdvance
          split
          · next isBefore =>
              refine ⟨_, _, rfl, thisBehind, ?_, thisRest,
                otherLater (Int.le_of_lt thisBehind) isBefore, ?_⟩
              · intro i isBehind isInside
                rw [thisEqual i isBehind isInside,
                  otherEqual i isBehind (Int.le_of_lt (Int.lt_of_le_of_lt isInside isBefore))]
              · exact Nat.le_refl _
          · next notBefore =>
              split
              · next isAfter =>
                  refine ⟨_, _, rfl, otherBehind, ?_,
                    thisLater (Int.le_of_lt otherBehind) isAfter, otherRest, ?_⟩
                  · intro i isBehind isInside
                    rw [otherEqual i isBehind isInside,
                      thisEqual i isBehind (Int.le_of_lt (Int.lt_of_le_of_lt isInside isAfter))]
                  · exact Nat.le_of_eq (Nat.succ_add _ _)
              · next notAfter =>
                  obtain rfl : thisElement = otherElement := by omega
                  refine ⟨_, _, rfl, thisBehind, ?_, thisRest, otherRest, Nat.le_succ _⟩
                  intro i isBehind isInside
                  rw [thisEqual i isBehind isInside, otherEqual i isBehind isInside]

/-- The result span that is not closed yet has started behind `start`. -/
private theorem unionLoop_describes {fuel : Nat} {resultBit : Bool} {state : UnionState}
    {start : Int} (this : Describes f last previous (alternate state.thisBit state.thisSpans))
    (other : Describes g last previous (alternate state.otherBit state.otherSpans))
    (enough : state.thisSpans.length + state.otherSpans.length ≤ fuel)
    (behind : start ≤ previous) (closed : previous = last → start = last)
    (current : ∀ i, start < i → i ≤ previous → (f i || g i) = resultBit)
    (isResult : resultBit = (state.thisBit || state.otherBit)) :
    Describes (fun i => f i || g i) last start
      (alternate resultBit (unionLoop last fuel resultBit state)) := by
  induction fuel generalizing previous start resultBit state with
  | zero =>
      obtain ⟨thisBit, thisSpans, otherBit, otherSpans⟩ := state
      obtain rfl : thisSpans = [] := List.length_eq_zero_iff.mp (by dsimp only at enough; omega)
      cases this with
      | done =>
          rw [closed rfl]
          exact .done
  | succ fuel ih =>
      obtain ⟨thisBit, thisSpans, otherBit, otherSpans⟩ := state
      cases thisSpans with
      | nil =>
          cases this with
          | done =>
              rw [closed rfl]
              exact .done
      | cons thisElement thisSpans =>
          cases otherSpans with
          | nil =>
              cases other with
              | done =>
                  rw [closed rfl]
                  exact .done
          | cons otherElement otherSpans =>
              obtain ⟨lastElement, next, isNext, isBehind, equal, thisNext, otherNext, shorter⟩ :=
                unionAdvance_describes this other
              have spanEqual : ∀ i, start < i → i ≤ lastElement → (f i || g i) = resultBit := by
                intro i isAfter isInside
                rcases lt_or_ge previous i with isLater | notLater
                · rw [isResult]
                  exact equal i isLater isInside
                · exact current i isAfter notLater
              have enoughNext : next.thisSpans.length + next.otherSpans.length ≤ fuel := by
                rw [List.length_cons, List.length_cons] at enough
                omega
              rw [unionLoop, isNext]
              dsimp only
              split
              · next isChange =>
                  have others := ih thisNext otherNext enoughNext (Int.le_refl _) id
                    (fun i isLater notLater => absurd isLater (Int.not_lt.mpr notLater)) rfl
                  apply Describes.run (Int.lt_of_le_of_lt behind isBehind) spanEqual
                  cases isChange with
                  | inl changes =>
                      rw [← Bool.eq_not.mpr (Ne.symm changes)]
                      exact others
                  | inr atLast =>
                      obtain rfl := Int.le_antisymm atLast thisNext.bound
                      rw [alternate_eq_nil others.atLast]
                      exact .done
              · next noChange =>
                  obtain ⟨same, notLast⟩ := not_or.mp noChange
                  exact ih thisNext otherNext enoughNext
                    (Int.le_of_lt (Int.lt_of_le_of_lt behind isBehind))
                    (fun isLast => absurd (Int.le_of_eq isLast.symm) notLast) spanEqual
                    (not_not.mp same)

end

section

variable {f : Int → Int} {g : Int → Bool} {last previous : Int}

private theorem applyAdvance_describes {zeroBit : Bool} {thisSpan : ParsedSpan}
    {otherElement : Int} {thisSpans : List ParsedSpan} {otherSpans : List Int}
    (this : Describes f last previous (runs (thisSpan :: thisSpans)))
    (other : Describes g last previous (alternate zeroBit (otherElement :: otherSpans))) :
    ∃ lastElement next,
      applyAdvance zeroBit thisSpan otherElement thisSpans otherSpans = (lastElement, next) ∧
      previous < lastElement ∧
      (∀ i, previous < i → i ≤ lastElement → f i = thisSpan.value ∧ g i = zeroBit) ∧
      Describes f last lastElement (runs next.thisSpans) ∧
      Describes g last lastElement (alternate next.zeroBit next.otherSpans) ∧
      next.thisSpans.length + next.otherSpans.length ≤ thisSpans.length + otherSpans.length + 1 := by
  have thisLater {i : Int} := @Describes.shrink _ f last previous i _ _ _ this
  have otherLater {i : Int} := @Describes.shrink _ g last previous i _ _ _ other
  cases this with
  | run thisBehind thisEqual thisRest =>
      cases other with
      | run otherBehind otherEqual otherRest =>
          unfold applyAdvance
          split
          · next isBefore =>
              refine ⟨_, _, rfl, thisBehind, ?_, thisRest,
                otherLater (Int.le_of_lt thisBehind) isBefore, Nat.le_refl _⟩
              intro i isBehind isInside
              exact ⟨thisEqual i isBehind isInside,
                otherEqual i isBehind (Int.le_of_lt (Int.lt_of_le_of_lt isInside isBefore))⟩
          · next notBefore =>
              split
              · next isAfter =>
                  refine ⟨_, _, rfl, otherBehind, ?_,
                    thisLater (Int.le_of_lt otherBehind) isAfter, otherRest,
                    Nat.le_of_eq (Nat.succ_add _ _)⟩
                  intro i isBehind isInside
                  exact ⟨thisEqual i isBehind (Int.le_of_lt (Int.lt_of_le_of_lt isInside isAfter)),
                    otherEqual i isBehind isInside⟩
              · next notAfter =>
                  have sameElement : otherElement = thisSpan.index := by omega
                  refine ⟨_, _, rfl, otherBehind, ?_, sameElement ▸ thisRest, otherRest,
                    Nat.le_succ _⟩
                  intro i isBehind isInside
                  exact ⟨thisEqual i isBehind (sameElement ▸ isInside),
                    otherEqual i isBehind isInside⟩

/-- The result span that is not closed yet has started behind `start`. -/
private theorem applyLoop_describes {fuel : Nat} {resultValue : Int} {state : ApplyState}
    {start : Int} (this : Describes f last previous (runs state.thisSpans))
    (other : Describes g last previous (alternate state.zeroBit state.otherSpans))
    (enough : state.thisSpans.length + state.otherSpans.length ≤ fuel)
    (behind : start ≤ previous) (closed : previous = last → start = last)
    (current : ∀ i, start < i → i ≤ previous → (if g i then 0 else f i) = resultValue)
    (isResult : nextResultValue resultValue state = resultValue) :
    Describes (fun i => if g i then 0 else f i) last start
      (runs (applyLoop last fuel resultValue state)) := by
  induction fuel generalizing previous start resultValue state with
  | zero =>
      obtain ⟨thisSpans, zeroBit, otherSpans⟩ := state
      obtain rfl : thisSpans = [] := List.length_eq_zero_iff.mp (by dsimp only at enough; omega)
      cases this with
      | done =>
          rw [closed rfl]
          exact .done
  | succ fuel ih =>
      obtain ⟨thisSpans, zeroBit, otherSpans⟩ := state
      cases thisSpans with
      | nil =>
          cases this with
          | done =>
              rw [closed rfl]
              exact .done
      | cons thisSpan thisSpans =>
          cases otherSpans with
          | nil =>
              cases other with
              | done => exact absurd this.atLast (List.cons_ne_nil _ _)
          | cons otherElement otherSpans =>
              obtain ⟨lastElement, next, isNext, isBehind, equal, thisNext, otherNext, shorter⟩ :=
                applyAdvance_describes this other
              have spanEqual : ∀ i, start < i → i ≤ lastElement →
                  (if g i then 0 else f i) = resultValue := by
                intro i isAfter isInside
                rcases lt_or_ge previous i with isLater | notLater
                · obtain ⟨isValue, isBit⟩ := equal i isLater isInside
                  rw [isValue, isBit]
                  exact isResult
                · exact current i isAfter notLater
              have enoughNext : next.thisSpans.length + next.otherSpans.length ≤ fuel := by
                rw [List.length_cons, List.length_cons] at enough
                omega
              rw [applyLoop, isNext]
              dsimp only
              split
              · have isNextResult : nextResultValue (nextResultValue resultValue next) next =
                    nextResultValue resultValue next := by
                  obtain ⟨nextSpans, nextBit, nextElements⟩ := next
                  cases nextSpans with
                  | nil => rfl
                  | cons => rfl
                exact .run (Int.lt_of_le_of_lt behind isBehind) spanEqual
                  (ih thisNext otherNext enoughNext (Int.le_refl _) id
                    (fun i isLater notLater => absurd isLater (Int.not_lt.mpr notLater))
                    isNextResult)
              · next noChange =>
                  obtain ⟨same, notLast⟩ := not_or.mp noChange
                  exact ih thisNext otherNext enoughNext
                    (Int.le_of_lt (Int.lt_of_le_of_lt behind isBehind))
                    (fun isLast => absurd (Int.le_of_eq isLast.symm) notLast) spanEqual
                    (not_not.mp same).symm

end

/-!
## Lists with the same last index
-/

/-- The elements end at strictly increasing indices, the last of them at the last index. -/
inductive EndsAt (last : Int) : Int → List Int → Prop where
  | done : EndsAt last last []
  | next {previous element : Int} {elements : List Int} : previous < element →
      EndsAt last element elements → EndsAt last previous (element :: elements)

theorem EndsAt.getLast {last previous : Int} {elements : List Int}
    (ends : EndsAt last previous elements) (notEmpty : elements ≠ []) :
    elements.getLast? = some last := by
  induction ends with
  | done => exact absurd rfl notEmpty
  | next _ others ih =>
      cases others with
      | done => rfl
      | next => exact ih (List.cons_ne_nil _ _)

/-- The bit of an element. -/
def bitAt : Bool → List Int → Int → Bool
  | bit, [], _ => bit
  | bit, element :: elements, i => if i ≤ element then bit else bitAt (!bit) elements i

/-- The size of an element. -/
def valueAt : List ParsedSpan → Int → Int
  | [], _ => 0
  | span :: spans, i => if i ≤ span.index then span.value else valueAt spans i

theorem describes_bitAt {last previous : Int} {elements : List Int}
    (ends : EndsAt last previous elements) (bit : Bool) :
    Describes (bitAt bit elements) last previous (alternate bit elements) := by
  induction ends generalizing bit with
  | done => exact .done
  | next before others ih =>
      apply Describes.run before
      · intro i _ isInside
        exact if_pos isInside
      · apply (ih !bit).congr
        intro i isBehind _
        exact (if_neg (Int.not_le.mpr isBehind)).symm

theorem describes_valueAt {last previous : Int} {spans : List ParsedSpan}
    (ends : EndsAt last previous (spans.map ParsedSpan.index)) :
    Describes (valueAt spans) last previous (runs spans) := by
  induction spans generalizing previous with
  | nil =>
      cases ends with
      | done => exact .done
  | cons span spans ih =>
      cases ends with
      | next before others =>
          apply Describes.run before
          · intro i _ isInside
            exact if_pos isInside
          · apply (ih others).congr
            intro i isBehind _
            exact (if_neg (Int.not_le.mpr isBehind)).symm

/-- Spans that give a function give the size of each element. -/
theorem valueAt_of_describes {f : Int → Int} {last previous : Int} {spans : List ParsedSpan}
    (described : Describes f last previous (runs spans)) {i : Int} (isBehind : previous < i)
    (isInside : i ≤ last) : valueAt spans i = f i := by
  induction spans generalizing previous with
  | nil =>
      cases described with
      | done => exact absurd isBehind (Int.not_lt.mpr isInside)
  | cons span spans ih =>
      cases described with
      | run before equal others =>
          rw [valueAt]
          split
          · next isHere => exact (equal i isBehind isHere).symm
          · next notHere => exact ih others (Int.not_le.mp notHere)

private theorem endsAt_of_describes {h : Int → Bool} {last previous : Int} {bit : Bool}
    {elements : List Int} (described : Describes h last previous (alternate bit elements)) :
    EndsAt last previous elements := by
  induction elements generalizing previous bit with
  | nil =>
      cases described with
      | done => exact .done
  | cons element elements ih =>
      cases described with
      | run before _ others => exact .next before (ih others)

private theorem endsAt_of_runs {f : Int → Int} {last previous : Int} {spans : List ParsedSpan}
    (described : Describes f last previous (runs spans)) :
    EndsAt last previous (spans.map ParsedSpan.index) := by
  induction spans generalizing previous with
  | nil =>
      cases described with
      | done => exact .done
  | cons span spans ih =>
      cases described with
      | run before _ others => exact .next before (ih others)

private theorem EndsAt.nonempty {last previous : Int} {elements : List Int}
    (ends : EndsAt last previous elements) (before : previous < last) : elements ≠ [] := by
  cases ends with
  | done => exact absurd before (Int.lt_irrefl _)
  | next => exact List.cons_ne_nil _ _

theorem union_describes {last : Int} {this other : BoolSpanList}
    (thisEnds : EndsAt last (-1) this.spanlist) (otherEnds : EndsAt last (-1) other.spanlist)
    (notEmpty : -1 < last) :
    ∃ united, this.union other = some united ∧
      Describes (fun i => bitAt this.startBit this.spanlist i || bitAt other.startBit other.spanlist i)
        last (-1) (alternate united.startBit united.spanlist) := by
  have thisLast := thisEnds.getLast (thisEnds.nonempty notEmpty)
  have otherLast := otherEnds.getLast (otherEnds.nonempty notEmpty)
  unfold BoolSpanList.union
  rw [thisLast, otherLast, if_neg (not_not.mpr rfl)]
  refine ⟨_, rfl, ?_⟩
  exact unionLoop_describes (describes_bitAt thisEnds _) (describes_bitAt otherEnds _)
    (Nat.le_refl _) (Int.le_refl _) id
    (fun i isLater notLater => absurd isLater (Int.not_lt.mpr notLater)) rfl

theorem applyZeroValues_describes {f : Int → Int} {g : Int → Bool} {last : Int}
    {this : List ParsedSpan} {other : BoolSpanList} (notEmpty : -1 < last)
    (described : Describes f last (-1) (runs this))
    (isOther : Describes g last (-1) (alternate other.startBit other.spanlist)) :
    ∃ applied, applyZeroValues this other = some applied ∧
      Describes (fun i => if g i then 0 else f i) last (-1) (runs applied) := by
  have thisEnds := endsAt_of_runs described
  have otherEnds := endsAt_of_describes isOther
  have otherLast := otherEnds.getLast (otherEnds.nonempty notEmpty)
  have thisLast := thisEnds.getLast (thisEnds.nonempty notEmpty)
  rw [List.getLast?_map] at thisLast
  obtain ⟨lastSpan, isLastSpan, isLast⟩ := Option.map_eq_some_iff.mp thisLast
  cases this with
  | nil => cases isLastSpan
  | cons first rest =>
      unfold applyZeroValues
      rw [isLastSpan]
      dsimp only
      rw [isLast, otherLast, if_neg (not_not.mpr rfl)]
      refine ⟨_, rfl, ?_⟩
      exact applyLoop_describes described isOther (Nat.le_refl _) (Int.le_refl _) id
        (fun i isLater notLater => absurd isLater (Int.not_lt.mpr notLater)) rfl

end FreeOnline.Browser.SheetGeometry
