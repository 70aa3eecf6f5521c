import FreeOnline.Common.Invalidations

/-!
# What stays invalid

The callbacks of invalidations, the points they invalidate for those who receive them, and
when none of these points is lost in the queue.
-/

set_option autoImplicit false

namespace FreeOnline.Common

open FreeOnline.Library

/-!
## Callbacks
-/

inductive TargetView where
  | all
  | view (id : Int)
deriving DecidableEq

def TargetView.print : TargetView → Text
  | .all => "all".toList
  | .view id => printInt id

/-- An area of a part, all of a part, or everything. -/
inductive Invalidation where
  | rectangle (area : Area) (part : Int) (mode : Option Int)
  | emptyPart (part : Int) (mode : Option Int)
  | empty
deriving DecidableEq

namespace Invalidation

def partTokens (part : Int) : Option Int → List Text
  | none => [printInt part]
  | some mode => [printInt part ++ [','], printInt mode]

def tokens : Invalidation → List Text
  | .rectangle area part mode =>
      [printInt area.x ++ [','], printInt area.y ++ [','], printInt area.w ++ [','],
        printInt area.h ++ [',']] ++ partTokens part mode
  | .emptyPart part mode => "EMPTY,".toList :: partTokens part mode
  | .empty => ["EMPTY".toList]

/-- What `extractRectangle` makes of it. -/
def read : Invalidation → Option (Area × Int × Int)
  | .rectangle area part mode => some (area, part, mode.getD 0)
  | .emptyPart part _ => some (Invalidations.whole, part, 0)
  | .empty => none

/-- The mode the receivers read. With a rectangle it is sent on if it is positive. -/
def mode : Invalidation → Int
  | .rectangle _ _ mode => max (mode.getD 0) 0
  | .emptyPart _ mode => mode.getD 0
  | .empty => 0

def HasInts : Invalidation → Prop
  | .rectangle area part mode =>
      Invalidations.HasInts area ∧ (-intMax - 1 ≤ part ∧ part ≤ intMax) ∧
        ∀ n ∈ mode, -intMax - 1 ≤ n ∧ n ≤ intMax
  | .emptyPart part mode =>
      (-intMax - 1 ≤ part ∧ part ≤ intMax) ∧ ∀ n ∈ mode, -intMax - 1 ≤ n ∧ n ≤ intMax
  | .empty => True

end Invalidation

structure InvalidationCallback where
  view : TargetView
  invalidation : Invalidation
deriving DecidableEq

def InvalidationCallback.print (callback : InvalidationCallback) : Payload :=
  "callback".toList ++
    (callback.view.print :: "0".toList :: callback.invalidation.tokens).flatMap (' ' :: ·)

/-- The messages of a queue. -/
inductive QueuedMessage where
  | invalidation (callback : InvalidationCallback)
  | other (message : Payload)

def QueuedMessage.print : QueuedMessage → Payload
  | .invalidation callback => callback.print
  | .other message => message

def QueuedMessage.IsQueued : QueuedMessage → Prop
  | .invalidation callback => callback.invalidation.HasInts
  | .other message =>
      ¬((tokenize message ' ').getD 0 [] = "callback".toList ∧
        (tokenize message ' ').getD 2 [] = "0".toList)

example : (InvalidationCallback.mk .all (.rectangle ⟨284, 1418, 11105, 275⟩ 0 none)).print =
    "callback all 0 284, 1418, 11105, 275, 0".toList := by
  decide +kernel

/-!
## Tokens of the callbacks
-/

theorem printInt_injective {n m : Int} (same : printInt n = printInt m) : n = m := by
  have first := @readLong_printInt n [] nofun
  have second := @readLong_printInt m [] nofun
  rw [same, second] at first
  exact (Option.some.inj first).symm

theorem TargetView.print_injective {view other : TargetView} (same : view.print = other.print) :
    view = other := by
  have notAll (id : Int) : printInt id ≠ "all".toList := by
    intro isAll
    have member : 'a' ∈ printInt id := isAll ▸ List.mem_cons_self
    exact notMem_printInt (by decide) (by decide) member
  cases view with
  | all =>
      cases other with
      | all => rfl
      | view id => exact absurd same.symm (notAll id)
  | view id =>
      cases other with
      | all => exact absurd same (notAll id)
      | view otherId => exact congrArg _ (printInt_injective same)

theorem isWord_number (n : Int) : IsWord ' ' (printInt n) where
  notNil := printInt_ne_nil n
  notDelimiter := notMem_printInt (by decide) (by decide)
  notNewline := notMem_printInt (by decide) (by decide)

theorem isWord_numberComma (n : Int) : IsWord ' ' (printInt n ++ [',']) where
  notNil := by simp
  notDelimiter := by simpa using (isWord_number n).notDelimiter
  notNewline := by simpa using (isWord_number n).notNewline

theorem TargetView.isWord_print (view : TargetView) : IsWord ' ' view.print := by
  cases view with
  | all => exact ⟨by decide, by decide, by decide⟩
  | view id => exact isWord_number id

namespace Invalidation

theorem isWord_tokens (invalidation : Invalidation) :
    ∀ token ∈ invalidation.tokens, IsWord ' ' token := by
  have parts (part : Int) (mode : Option Int) : ∀ token ∈ partTokens part mode, IsWord ' ' token := by
    cases mode with
    | none => simpa [partTokens] using isWord_number part
    | some mode => simpa [partTokens] using ⟨isWord_numberComma part, isWord_number mode⟩
  cases invalidation with
  | rectangle area part mode =>
      simp only [tokens, List.cons_append, List.nil_append, List.forall_mem_cons]
      exact ⟨isWord_numberComma _, isWord_numberComma _, isWord_numberComma _,
        isWord_numberComma _, parts part mode⟩
  | emptyPart part mode =>
      rw [tokens, List.forall_mem_cons]
      exact ⟨⟨by decide, by decide, by decide⟩, parts part mode⟩
  | empty =>
      rw [tokens, List.forall_mem_singleton]
      exact ⟨by decide, by decide, by decide⟩

end Invalidation

namespace InvalidationCallback

theorem tokenize_print (callback : InvalidationCallback) :
    tokenize callback.print ' ' = "callback".toList :: callback.view.print :: "0".toList ::
      callback.invalidation.tokens := by
  have areWords : ∀ word ∈ callback.view.print :: "0".toList :: callback.invalidation.tokens,
      IsWord ' ' word := by
    rw [List.forall_mem_cons, List.forall_mem_cons]
    exact ⟨callback.view.isWord_print, ⟨by decide, by decide, by decide⟩,
      callback.invalidation.isWord_tokens⟩
  unfold print
  rw [tokenize_words areWords (.inr ⟨by decide, by decide, by decide⟩) (by decide),
    if_neg (by decide)]

theorem atoi_comma {n : Int} (fits : -intMax - 1 ≤ n ∧ n ≤ intMax) :
    atoi (printInt n ++ [',']) = n :=
  atoi_printInt fits (by rintro ch ⟨⟩; decide)

theorem atoi_number {n : Int} (fits : -intMax - 1 ≤ n ∧ n ≤ intMax) : atoi (printInt n) = n := by
  have isRead := @atoi_printInt n fits [] nofun
  rwa [List.append_nil] at isRead

private theorem extractRectangle_rectangle {first second third x y w h part : Text}
    (notEmpty : x ≠ "EMPTY,".toList) (modes : List Text) :
    Invalidations.extractRectangle (first :: second :: third :: x :: y :: w :: h :: part :: modes) =
      some (⟨atoi x, atoi y, atoi w, atoi h⟩, atoi part,
        if modes.length = 1 then atoi (modes.getD 0 []) else 0) := by
  have notThird : (first :: second :: third :: x :: y :: w :: h :: part :: modes)[3]? ≠
      some "EMPTY,".toList :=
    fun same => notEmpty (Option.some.inj same)
  unfold Invalidations.extractRectangle
  dsimp only
  rw [if_neg (by simp), if_neg notThird, if_neg (by simp)]
  simp

private theorem extractRectangle_empty {first second third part : Text} (modes : List Text) :
    Invalidations.extractRectangle (first :: second :: third :: "EMPTY,".toList :: part :: modes) =
      some (Invalidations.whole, atoi part, 0) := by
  have isThird : (first :: second :: third :: "EMPTY,".toList :: part :: modes)[3]? =
      some "EMPTY,".toList :=
    rfl
  unfold Invalidations.extractRectangle
  dsimp only
  rw [if_neg (by simp), if_pos isThird]
  rfl

theorem extractRectangle_tokens {callback : InvalidationCallback}
    (hasInts : callback.invalidation.HasInts) :
    Invalidations.extractRectangle (tokenize callback.print ' ') = callback.invalidation.read := by
  rw [tokenize_print]
  cases isInvalidation : callback.invalidation with
  | rectangle area part mode =>
      rw [isInvalidation] at hasInts
      obtain ⟨⟨xFits, yFits, wFits, hFits⟩, partFits, modeFits⟩ := hasInts
      have notEmpty : printInt area.x ++ [','] ≠ "EMPTY,".toList := by
        intro isEmpty
        have member : 'E' ∈ printInt area.x ++ [','] := isEmpty ▸ List.mem_cons_self
        rcases List.mem_append.mp member with inNumber | isComma
        · exact notMem_printInt (by decide) (by decide) inNumber
        · exact absurd isComma (by decide)
      cases mode with
      | none =>
          refine (extractRectangle_rectangle notEmpty []).trans ?_
          rw [atoi_comma xFits, atoi_comma yFits, atoi_comma wFits, atoi_comma hFits,
            atoi_number partFits]
          rfl
      | some mode =>
          refine (extractRectangle_rectangle notEmpty [printInt mode]).trans ?_
          rw [atoi_comma xFits, atoi_comma yFits, atoi_comma wFits, atoi_comma hFits,
            atoi_comma partFits, if_pos List.length_singleton, List.getD_cons_zero, atoi_number (modeFits mode rfl)]
          rfl
  | emptyPart part mode =>
      rw [isInvalidation] at hasInts
      obtain ⟨partFits, -⟩ := hasInts
      cases mode with
      | none =>
          refine (extractRectangle_empty []).trans ?_
          rw [atoi_number partFits]
          rfl
      | some mode =>
          refine (extractRectangle_empty [printInt mode]).trans ?_
          rw [atoi_comma partFits]
          rfl
  | empty => rfl

/-!
## Putting a callback
-/

/-- The area of a queued callback of the same view, part and mode. -/
def compared (callback : InvalidationCallback) (part mode : Int) : QueuedMessage → Option Area
  | .other _ => none
  | .invalidation queued =>
      if queued.view ≠ callback.view then none
      else
        match queued.invalidation.read with
        | none => none
        | some (area, queuedPart, queuedMode) =>
            if part ≠ queuedPart then none else if mode ≠ queuedMode then none else some area

def moved (callback : InvalidationCallback) (area : Area) : InvalidationCallback :=
  { callback with
    invalidation :=
      match callback.invalidation with
      | .rectangle _ part mode => .rectangle area part mode
      | invalidation => invalidation }

def put (queue : List QueuedMessage) (callback : InvalidationCallback) : List QueuedMessage :=
  match callback.invalidation.read with
  | none => queue ++ [.invalidation callback]
  | some (msg, part, mode) =>
      let absorbed := Invalidations.absorb (callback.compared part mode) msg false queue
      absorbed.queue ++
        [.invalidation (if absorbed.performedMerge then callback.moved absorbed.area else callback)]

/-- Comparing areas takes no sum that is not an int, and what the callback covers is of its mode. -/
def Unharmed (queue : List QueuedMessage) (callback : InvalidationCallback) : Prop :=
  ∀ msg part mode, callback.invalidation.read = some (msg, part, mode) →
    (queue.filterMap (callback.compared part mode) ≠ [] →
      ∀ area ∈ msg :: queue.filterMap (callback.compared part mode),
        ∀ other ∈ msg :: queue.filterMap (callback.compared part mode),
          Invalidations.Fits area other) ∧
    ∀ queued area, QueuedMessage.invalidation queued ∈ queue →
      callback.compared part mode (.invalidation queued) = some area → area.Within msg →
      queued.invalidation.mode = callback.invalidation.mode

theorem comparedArea_print (callback : InvalidationCallback) (part mode : Int)
    {queued : QueuedMessage} (isQueued : queued.IsQueued) :
    Invalidations.comparedArea (tokenize callback.print ' ') part mode queued.print =
      callback.compared part mode queued := by
  cases queued with
  | other message =>
      unfold Invalidations.comparedArea
      rw [tokenize_print]
      dsimp only [QueuedMessage.print, compared, List.getD_cons_zero, List.getD_cons_succ]
      split
      · rfl
      · rw [if_pos]
        by_contra same
        rw [not_or, not_or, not_not, not_not, not_not] at same
        exact isQueued ⟨same.1, same.2.2⟩
  | invalidation other =>
      have extracted := extractRectangle_tokens isQueued
      rw [tokenize_print] at extracted
      unfold Invalidations.comparedArea
      rw [QueuedMessage.print, tokenize_print, tokenize_print]
      dsimp only [compared, List.getD_cons_zero, List.getD_cons_succ]
      rw [if_neg (by simp), extracted]
      by_cases sameView : other.view = callback.view
      · refine (if_neg (by simp [sameView])).trans
          (Eq.trans ?_ (if_neg (not_not_intro sameView)).symm)
        cases other.invalidation.read with
        | none => rfl
        | some read => rfl
      · have otherView : other.view.print ≠ callback.view.print :=
          mt TargetView.print_injective sameView
        rw [if_pos (.inr (.inl otherView)), if_pos sameView]

theorem compared_spec {callback : InvalidationCallback} {part mode : Int} {queued : QueuedMessage}
    {area : Area} (isCompared : callback.compared part mode queued = some area) :
    ∃ other, queued = .invalidation other ∧ other.view = callback.view ∧
      other.invalidation.read = some (area, part, mode) := by
  cases queued with
  | other message => cases isCompared
  | invalidation other =>
      unfold compared at isCompared
      dsimp only at isCompared
      split at isCompared
      · cases isCompared
      · next sameView =>
          split at isCompared
          · cases isCompared
          · next queuedArea queuedPart queuedMode isRead =>
              split at isCompared
              · cases isCompared
              · next samePart =>
                  split at isCompared
                  · cases isCompared
                  · next sameMode =>
                      cases isCompared
                      cases not_not.mp samePart
                      cases not_not.mp sameMode
                      exact ⟨other, rfl, not_not.mp sameView, isRead⟩

theorem hasInts_of_read {invalidation : Invalidation} (hasInts : invalidation.HasInts) {area : Area}
    {part mode : Int} (isRead : invalidation.read = some (area, part, mode)) :
    Invalidations.HasInts area := by
  cases invalidation with
  | rectangle area part mode =>
      cases isRead
      exact hasInts.1
  | emptyPart part mode =>
      cases isRead
      constructor
      all_goals decide
  | empty => cases isRead

section

variable {queue : List QueuedMessage} (areQueued : ∀ queued ∈ queue, queued.IsQueued)
  {callback : InvalidationCallback} (unharmed : callback.Unharmed queue) {msg : Area}
  {part mode : Int} (isRead : callback.invalidation.read = some (msg, part, mode))

include areQueued unharmed isRead

theorem absorbs_put :
    Invalidations.Absorbs (callback.compared part mode) msg false queue
      (Invalidations.absorb (callback.compared part mode) msg false queue) := by
  by_cases noneCompared : queue.filterMap (callback.compared part mode) = []
  · exact Invalidations.absorbs_of_none noneCompared false
  · have fits := (unharmed msg part mode isRead).1 noneCompared
    refine Invalidations.absorbs_absorb fits ?_
      (Invalidations.edgesOf_of_mem List.mem_cons_self) false
    intro queued member area isCompared
    obtain ⟨other, rfl, -, isOther⟩ := compared_spec isCompared
    exact ⟨List.mem_cons_of_mem _ (List.mem_filterMap.mpr ⟨_, member, isCompared⟩),
      hasInts_of_read (areQueued _ member) isOther⟩

/-- Only rectangles are merged. -/
theorem rectangle_of_merged
    (merged : (Invalidations.absorb (callback.compared part mode) msg false queue).performedMerge =
      true) : ∃ modes, callback.invalidation = .rectangle msg part modes ∧ mode = modes.getD 0 := by
  have absorbs := absorbs_put areQueued unharmed isRead
  cases isInvalidation : callback.invalidation with
  | rectangle area ofPart modes =>
      rw [isInvalidation] at isRead
      cases isRead
      exact ⟨modes, rfl, rfl⟩
  | emptyPart ofPart modes =>
      rw [isInvalidation] at isRead
      cases isRead
      rcases absorbs.merged with unchanged | ⟨-, small, -⟩
      · rw [unchanged] at merged
        cases merged
      · have larger := Int.le_trans absorbs.within.w_le small
        exact absurd larger (by decide)
  | empty =>
      rw [isInvalidation] at isRead
      cases isRead

end

end InvalidationCallback

/-!
## Printing what is put
-/

/-- A message to a view is put as it is. -/
theorem MessageQueue.putImpl_toView (queue : List Payload) {message : Payload} {view : TargetView}
    (isView : (tokenize message ' ')[1]? = some view.print) :
    MessageQueue.putImpl queue message = queue ++ [message] := by
  have notType {type : Text} (isType : 'e' ∈ type) : view.print ≠ type := by
    cases view with
    | all =>
        rintro rfl
        exact absurd isType (by decide)
    | view id =>
        rintro rfl
        exact notMem_printInt (by decide) (by decide) isType
  have second {type : Text} (isType : 'e' ∈ type) : (tokenize message ' ')[1]? ≠ some type := by
    rw [isView]
    exact fun same => notType isType (Option.some.inj same)
  unfold MessageQueue.putImpl
  dsimp only
  rw [if_neg (second (by decide)), if_neg (second (by decide))]

theorem MessageQueue.putImpl_callback (queue : List Payload) (callback : InvalidationCallback) :
    MessageQueue.putImpl queue callback.print = queue ++ [callback.print] := by
  refine putImpl_toView queue (@Eq.trans _ _ (some callback.view.print) _ ?_ rfl)
  rw [callback.tokenize_print]
  rfl

namespace InvalidationCallback

/-- What stands in front of the area in a rectangle's callback. -/
def viewText (view : TargetView) : Text :=
  "callback".toList ++ ' ' :: view.print ++ ' ' :: "0".toList ++ [' ']

def areaText (area : Area) : Text :=
  printInt area.x ++ [','] ++ ' ' :: (printInt area.y ++ [',']) ++
    ' ' :: (printInt area.w ++ [',']) ++ ' ' :: (printInt area.h ++ [',']) ++ [' ']

/-- What stands behind the area. -/
def partText (part : Int) : Option Int → Text
  | none => printInt part
  | some mode => printInt part ++ ',' :: ' ' :: printInt mode

theorem print_rectangle (view : TargetView) (area : Area) (part : Int) (mode : Option Int) :
    (InvalidationCallback.mk view (.rectangle area part mode)).print =
      viewText view ++ areaText area ++ partText part mode := by
  unfold print viewText areaText
  rw [Invalidation.tokens]
  cases mode with
  | none =>
      rw [Invalidation.partTokens, partText]
      simp only [List.flatMap_cons, List.flatMap_nil, List.cons_append, List.nil_append,
        List.append_assoc, List.append_nil]
  | some mode =>
      rw [Invalidation.partTokens, partText]
      simp only [List.flatMap_cons, List.flatMap_nil, List.cons_append, List.nil_append,
        List.append_assoc, List.append_nil]

theorem mergeResult_print (view : TargetView) (msg area : Area) (part : Int) (mode : Option Int) :
    Invalidations.mergeResult (InvalidationCallback.mk view (.rectangle msg part mode)).print
        (tokenize (InvalidationCallback.mk view (.rectangle msg part mode)).print ' ') area =
      (InvalidationCallback.mk view (.rectangle area part mode)).print := by
  have comma : ", ".toList = [',', ' '] := by decide
  have spaced (first second third : Text) :
      (first ++ ' ' :: second ++ ' ' :: third ++ [' ']).length =
        first.length + second.length + third.length + 3 := by
    simp only [List.length_append, List.length_cons, List.length_nil]
    omega
  have viewLength : (viewText view).length =
      "callback".toList.length + view.print.length + "0".toList.length + 3 :=
    spaced _ _ _
  have areaLength : (viewText view ++ areaText msg).length = (viewText view).length +
      (printInt msg.x ++ [',']).length + (printInt msg.y ++ [',']).length +
      (printInt msg.w ++ [',']).length + (printInt msg.h ++ [',']).length + 4 := by
    simp only [areaText, List.length_append, List.length_cons, List.length_nil]
    omega
  have sizes : Invalidations.mergeResult (viewText view ++ areaText msg ++ partText part mode)
      (tokenize (InvalidationCallback.mk view (.rectangle msg part mode)).print ' ') area =
      (viewText view ++ areaText msg ++ partText part mode).take (viewText view).length ++
        printInt area.x ++ ", ".toList ++ printInt area.y ++ ", ".toList ++ printInt area.w ++
        ", ".toList ++ printInt area.h ++ ", ".toList ++
        (viewText view ++ areaText msg ++ partText part mode).drop
          (viewText view ++ areaText msg).length := by
    rw [tokenize_print, areaLength, viewLength]
    rfl
  rw [print_rectangle] at sizes
  rw [print_rectangle, print_rectangle, sizes, List.drop_left,
    List.append_assoc (viewText view) (areaText msg), List.take_left, comma]
  simp only [areaText, List.append_assoc, List.cons_append, List.nil_append]

section

variable {queue : List QueuedMessage} (areQueued : ∀ queued ∈ queue, queued.IsQueued)
  {callback : InvalidationCallback} (hasInts : callback.invalidation.HasInts)
  (unharmed : callback.Unharmed queue)

include areQueued hasInts unharmed

theorem isQueued_put : ∀ queued ∈ put queue callback, queued.IsQueued := by
  unfold put
  split
  · rw [List.forall_mem_append, List.forall_mem_singleton]
    exact ⟨areQueued, hasInts⟩
  · next msg part mode isRead =>
      have absorbs := absorbs_put areQueued unharmed isRead
      rw [List.forall_mem_append, List.forall_mem_singleton]
      refine ⟨fun queued member => areQueued queued (absorbs.kept queued member), ?_⟩
      split
      · next merged =>
          obtain ⟨modes, isRectangle, -⟩ := rectangle_of_merged areQueued unharmed isRead merged
          rw [isRectangle] at hasInts
          unfold QueuedMessage.IsQueued moved
          rw [isRectangle]
          exact ⟨absorbs.hasInts hasInts.1, hasInts.2⟩
      · exact hasInts

theorem putInvalidation_print :
    Invalidations.putInvalidation (queue.map QueuedMessage.print) callback.print =
      (put queue callback).map QueuedMessage.print := by
  have areas (part mode : Int) (msg : Area) :
      Invalidations.absorb (Invalidations.comparedArea (tokenize callback.print ' ') part mode) msg
          false (queue.map QueuedMessage.print) =
        (Invalidations.absorb (callback.compared part mode) msg false queue).map
          QueuedMessage.print :=
    Invalidations.absorb_map QueuedMessage.print fun queued member =>
      comparedArea_print callback part mode (areQueued queued member)
  unfold Invalidations.putInvalidation Invalidations.removeInvalidationDuplicate put
  dsimp only
  rw [extractRectangle_tokens hasInts]
  cases isRead : callback.invalidation.read with
  | none =>
      dsimp only
      rw [MessageQueue.putImpl_callback, List.map_append]
      rfl
  | some read =>
      obtain ⟨msg, part, mode⟩ := read
      dsimp only
      rw [areas, Invalidations.Absorbed.map]
      dsimp only
      cases merged : (Invalidations.absorb (callback.compared part mode) msg false
          queue).performedMerge with
      | false =>
          rw [if_neg Bool.false_ne_true, if_neg Bool.false_ne_true]
          dsimp only
          rw [MessageQueue.putImpl_callback, List.map_append]
          rfl
      | true =>
          obtain ⟨modes, isRectangle, -⟩ := rectangle_of_merged areQueued unharmed isRead merged
          have sameText : callback = ⟨callback.view, .rectangle msg part modes⟩ := by
            rw [← isRectangle]
          rw [if_pos rfl, if_pos rfl]
          dsimp only
          rw [sameText, mergeResult_print, MessageQueue.putImpl_callback, List.map_append]
          rfl

end

end InvalidationCallback

/-!
## What is invalid
-/

/-- A point of a document, as a view shows it. -/
structure DocumentPoint where
  view : Int
  part : Int
  mode : Int
  px : Int
  py : Int

def TargetView.Includes (view : TargetView) (id : Int) : Prop :=
  match view with
  | .all => True
  | .view other => other = id

/-- What an invalidation is taken for by those who receive it. Part -1 are all parts. -/
def Invalidation.Invalidates (invalidation : Invalidation) (point : DocumentPoint) : Prop :=
  match invalidation with
  | .rectangle area part mode =>
      (part = -1 ∨ part = point.part) ∧ max (mode.getD 0) 0 = point.mode ∧
        area.Has point.px point.py
  | .emptyPart part mode =>
      (part = -1 ∨ part = point.part) ∧ mode.getD 0 = point.mode ∧
        Invalidations.whole.Has point.px point.py
  | .empty => 0 = point.mode ∧ Invalidations.whole.Has point.px point.py

def QueuedMessage.Invalidates (message : QueuedMessage) (point : DocumentPoint) : Prop :=
  match message with
  | .invalidation callback =>
      callback.view.Includes point.view ∧ callback.invalidation.Invalidates point
  | .other _ => False

namespace InvalidationCallback

theorem invalidates_of_read {invalidation : Invalidation} {area : Area} {part mode : Int}
    (isRead : invalidation.read = some (area, part, mode)) (point : DocumentPoint) :
    invalidation.Invalidates point ↔ (part = -1 ∨ part = point.part) ∧
      invalidation.mode = point.mode ∧ area.Has point.px point.py := by
  cases invalidation with
  | rectangle area part mode =>
      cases isRead
      exact Iff.rfl
  | emptyPart part mode =>
      cases isRead
      exact Iff.rfl
  | empty => cases isRead

/-- The mode of a small area is not misread. -/
theorem mode_of_small {invalidation : Invalidation} {area : Area} {part mode : Int}
    (isRead : invalidation.read = some (area, part, mode))
    (small : area.w ≤ Invalidations.reasonableSizeX) : invalidation.mode = max mode 0 := by
  cases invalidation with
  | rectangle area part mode =>
      cases isRead
      rfl
  | emptyPart part mode =>
      cases isRead
      exact absurd small (by decide)
  | empty => cases isRead

section

variable {queue : List QueuedMessage} (areQueued : ∀ queued ∈ queue, queued.IsQueued)
  {callback : InvalidationCallback} (unharmed : callback.Unharmed queue) {point : DocumentPoint}

include areQueued unharmed

/-- What is put instead of the callback covers what it covers, and what left the queue. -/
theorem invalidates_put (invalidates : ∃ message ∈ queue ++ [.invalidation callback],
      QueuedMessage.Invalidates message point) :
    ∃ message ∈ put queue callback, message.Invalidates point := by
  unfold put
  split
  · exact invalidates
  · next msg part mode isRead =>
      have absorbs := absorbs_put areQueued unharmed isRead
      have merged := @rectangle_of_merged queue areQueued callback unharmed msg part mode isRead
      have sameModes := (unharmed msg part mode isRead).2
      dsimp only
      revert absorbs merged
      generalize Invalidations.absorb (callback.compared part mode) msg false queue = absorbed
      intro absorbs merged
      obtain ⟨put, isPut, sameView, putRead, putMode⟩ : ∃ put : InvalidationCallback,
          put = (if absorbed.performedMerge then callback.moved absorbed.area else callback) ∧
          put.view = callback.view ∧
          put.invalidation.read = some (absorbed.area, part, mode) ∧
          put.invalidation.mode = callback.invalidation.mode := by
        refine ⟨_, rfl, ?_⟩
        split
        · next isMerged =>
            obtain ⟨modes, isRectangle, rfl⟩ := merged isMerged
            unfold moved
            rw [isRectangle]
            exact ⟨rfl, rfl, rfl⟩
        · next notMerged =>
            rcases absorbs.merged with unchanged | ⟨isMerged, -⟩
            · rw [unchanged]
              exact ⟨rfl, isRead, rfl⟩
            · exact absurd isMerged notMerged
      rw [← isPut]
      have ofPut (isIn : callback.view.Includes point.view)
          (covered : (part = -1 ∨ part = point.part) ∧
            callback.invalidation.mode = point.mode ∧ absorbed.area.Has point.px point.py) :
          ∃ message ∈ absorbed.queue ++ [.invalidation put],
            QueuedMessage.Invalidates message point := by
        refine ⟨.invalidation put, List.mem_append_right _ List.mem_cons_self, ?_, ?_⟩
        · exact sameView ▸ isIn
        · rw [invalidates_of_read putRead, putMode]
          exact covered
      obtain ⟨message, member, isInvalid⟩ := invalidates
      rcases List.mem_append.mp member with inQueue | isCallback
      · rcases absorbs.dropped message inQueue with kept | ⟨area, isCompared, within, small⟩
        · exact ⟨message, List.mem_append_left _ kept, isInvalid⟩
        · obtain ⟨queued, rfl, queuedView, queuedRead⟩ := compared_spec isCompared
          obtain ⟨included, covered⟩ := isInvalid
          rw [invalidates_of_read queuedRead] at covered
          have queuedMode : queued.invalidation.mode = callback.invalidation.mode := by
            rcases small with inMsg | small
            · exact sameModes queued area inQueue isCompared inMsg
            · rcases absorbs.merged with unchanged | ⟨isMerged, -⟩
              · rw [unchanged] at within
                exact sameModes queued area inQueue isCompared within
              · obtain ⟨modes, isRectangle, rfl⟩ := merged isMerged
                rw [mode_of_small queuedRead small, isRectangle]
                rfl
          exact ofPut (queuedView ▸ included)
            ⟨covered.1, queuedMode ▸ covered.2.1, covered.2.2.of_within within⟩
      · cases List.mem_singleton.mp isCallback
        obtain ⟨included, covered⟩ := isInvalid
        rw [invalidates_of_read isRead] at covered
        exact ofPut included ⟨covered.1, covered.2.1, covered.2.2.of_within absorbs.within⟩

end

/-- In every run in which no callback harms the queue, whatever was invalid by the messages of the
queue or by the callbacks put since is invalid by the messages of the queue. -/
theorem invalid_points_kept (queue : List QueuedMessage) (callbacks : List InvalidationCallback)
    (areQueued : ∀ queued ∈ queue, queued.IsQueued)
    (haveInts : ∀ callback ∈ callbacks, callback.invalidation.HasInts)
    (unharmed : Permitted put (fun queue callback => callback.Unharmed queue) queue callbacks) :
    ∃ after : List QueuedMessage,
      run Invalidations.putInvalidation (queue.map QueuedMessage.print) (callbacks.map print) =
        after.map QueuedMessage.print ∧
      ∀ point, (∃ message ∈ queue ++ callbacks.map QueuedMessage.invalidation,
          message.Invalidates point) →
        ∃ message ∈ after, message.Invalidates point := by
  induction callbacks generalizing queue with
  | nil => exact ⟨queue, rfl, fun point invalid => by rwa [List.map_nil, List.append_nil] at invalid⟩
  | cons callback callbacks ih =>
      rw [List.forall_mem_cons] at haveInts
      obtain ⟨hasInts, laterInts⟩ := haveInts
      obtain ⟨unharmedNow, unharmedLater⟩ := unharmed
      obtain ⟨after, isAfter, kept⟩ := ih (put queue callback)
        (isQueued_put areQueued hasInts unharmedNow) laterInts unharmedLater
      refine ⟨after, ?_, fun point invalid => kept point ?_⟩
      · rw [← putInvalidation_print areQueued hasInts unharmedNow] at isAfter
        exact isAfter
      · obtain ⟨message, member, isInvalid⟩ := invalid
        rw [List.map_cons, ← List.singleton_append, ← List.append_assoc] at member
        rcases List.mem_append.mp member with now | later
        · obtain ⟨other, isPut, otherInvalid⟩ :=
            invalidates_put areQueued unharmedNow ⟨message, now, isInvalid⟩
          exact ⟨other, List.mem_append_left _ isPut, otherInvalid⟩
        · exact ⟨message, List.mem_append_right _ later, isInvalid⟩

def smallRectangle : InvalidationCallback :=
  ⟨.all, .rectangle ⟨0, 0, 100, 100⟩ 0 none⟩

def allOfPart (mode : Option Int) : InvalidationCallback :=
  ⟨.all, .emptyPart 0 mode⟩

theorem invalid_points_kept_allOfPart :
    ∃ after : List QueuedMessage,
      run Invalidations.putInvalidation [] ([smallRectangle, allOfPart none].map print) =
        after.map QueuedMessage.print ∧
      ∀ point, (∃ message ∈ [] ++ [smallRectangle, allOfPart none].map QueuedMessage.invalidation,
          message.Invalidates point) →
        ∃ message ∈ after, message.Invalidates point := by
  have haveInts : ∀ callback ∈ [smallRectangle, allOfPart none], callback.invalidation.HasInts := by
    rw [List.forall_mem_cons, List.forall_mem_singleton]
    refine ⟨⟨?_, by decide, nofun⟩, by decide, nofun⟩
    constructor
    all_goals decide
  refine invalid_points_kept [] _ (by simp) haveInts ⟨?_, ?_, trivial⟩
  · exact fun msg part mode _ => ⟨by simp, by simp⟩
  · rintro msg part mode ⟨⟩
    have queued : (put [] smallRectangle).filterMap ((allOfPart none).compared 0 0) =
        [⟨0, 0, 100, 100⟩] := rfl
    rw [queued]
    constructor
    · intro _ area member other otherMember
      simp only [List.mem_cons, List.not_mem_nil, or_false] at member otherMember
      rcases member with rfl | rfl
      all_goals rcases otherMember with rfl | rfl
      all_goals constructor
      all_goals decide
    · intro queued area member _ _
      cases QueuedMessage.invalidation.inj (List.mem_singleton.mp member)
      rfl

/-- All of a part in another mode takes a rectangle out of the queue, and so does a rectangle
if the right edge of a queued one is no int. -/
theorem not_invalid_points_kept :
    (run Invalidations.putInvalidation [smallRectangle.print] [(allOfPart (some 1)).print] =
        [(allOfPart (some 1)).print] ∧
      (QueuedMessage.invalidation smallRectangle).Invalidates ⟨0, 0, 0, 5, 5⟩ ∧
      ¬(QueuedMessage.invalidation (allOfPart (some 1))).Invalidates ⟨0, 0, 0, 5, 5⟩) ∧
    run Invalidations.putInvalidation ["callback all 0 2147483000, 0, 1000, 100, 0".toList]
      ["callback all 0 0, 0, 100, 100, 0".toList] = ["callback all 0 0, 0, 100, 100, 0".toList] := by
  refine ⟨⟨by decide +kernel, ⟨trivial, .inr rfl, rfl, ⟨by decide, by decide⟩, by decide, by decide⟩,
    ?_⟩, by decide +kernel⟩
  rintro ⟨-, -, sameMode, -⟩
  exact absurd sameMode (by decide)

end InvalidationCallback

end FreeOnline.Common
