import FreeOnline.Common.InvalidationCallbacks
import FreeOnline.Common.TileQueueOrder
import FreeOnline.Library.LatestQueue

/-!
# Superseded callbacks

A callback about a state or a cursor takes the place of the queued one about the same. Which
ones are about the same is found out from their texts.
-/

set_option autoImplicit false

namespace FreeOnline.Common

open FreeOnline.Library
open TileQueue (CallbackReader CallbackType extractUnoCommand extractViewId modifiedStatus)

/-!
## Callbacks
-/

/-- The type is an int. -/
structure Callback where
  view : TargetView
  type : Int
  payload : Text
  isInt : -intMax - 1 ≤ type ∧ type ≤ intMax
deriving DecidableEq

/-- The tokens of what stands behind a space. -/
def payloadTokens (payload : Text) : List Text :=
  tokenizeFrom ' ' [' '] payload

/-- What two callbacks about the same have in common. -/
structure CallbackClass where
  view : TargetView
  type : Int
  /-- The command whose state has changed, or the view whose cursor has moved. -/
  detail : Option Text
deriving DecidableEq

/-- Whether a new state is all that counts. A modified document is announced every time. -/
def CallbackClass.supersedes (reader : CallbackReader) (kind : CallbackClass) : Bool :=
  match reader.callbackType kind.type with
  | .stateChanged => kind.detail ≠ some [] && kind.detail ≠ some modifiedStatus
  | .invalidateTiles | .other => false
  | _ => true

namespace Callback

def print (callback : Callback) : Payload :=
  "callback".toList ++
    ' ' :: (callback.view.print ++ ' ' :: (printInt callback.type ++ ' ' :: callback.payload))

def unoCommand (callback : Callback) : Text :=
  extractUnoCommand ((payloadTokens callback.payload).getD 0 [])

def isViewCallback (reader : CallbackReader) (callback : Callback) : Bool :=
  match reader.callbackType callback.type with
  | .invalidateViewCursor | .cellViewCursor | .viewCursorVisible => true
  | _ => false

def classOf (reader : CallbackReader) (callback : Callback) : CallbackClass where
  view := callback.view
  type := callback.type
  detail :=
    if reader.callbackType callback.type = .stateChanged then some callback.unoCommand
    else if callback.isViewCallback reader then reader.parsedViewId callback.payload
    else none

def classes (reader : CallbackReader) : Classes Callback CallbackClass where
  classOf := classOf reader
  supersedes := fun callback => (callback.classOf reader).supersedes reader
  uniform := by
    intro callback other same
    rw [same]

/-- The parser finds the view a view callback is about. -/
def IsReadable (reader : CallbackReader) (callback : Callback) : Prop :=
  callback.isViewCallback reader = true → (reader.parsedViewId callback.payload).isSome = true

/-- A state change of this command is meant to reach the client every time. -/
def isModifiedStatus (reader : CallbackReader) (callback : Callback) : Bool :=
  reader.callbackType callback.type = .stateChanged && callback.unoCommand = modifiedStatus

/-!
## Tokens of the callbacks
-/

theorem tokenize_print (callback : Callback) :
    tokenize callback.print ' ' = "callback".toList :: callback.view.print ::
      printInt callback.type :: payloadTokens callback.payload := by
  have isWord : IsWord ' ' "callback".toList := ⟨by decide, by decide, by decide⟩
  have noNul : callback.print.head? ≠ some '\x00' := by
    have isHead : "callback".toList.head? = some 'c' := by decide
    unfold print
    rw [List.head?_append, isHead]
    exact fun same => absurd (Option.some.inj same) (by decide)
  unfold tokenize
  rw [if_neg noNul]
  unfold print
  rw [tokenizeFrom_begin isWord,
    tokenizeFrom_word_delimiter isWord (by decide), tokenizeFrom_delimiter callback.view.isWord_print,
    tokenizeFrom_word_delimiter callback.view.isWord_print (by decide),
    tokenizeFrom_delimiter (isWord_number _), tokenizeFrom_word_delimiter (isWord_number _) (by decide)]
  rfl

theorem getFirstToken_print (callback : Callback) :
    getFirstToken callback.print = "callback".toList :=
  getFirstToken_append (by decide) _

/-- The text behind the first three tokens is the payload. -/
theorem extractViewId_print (reader : CallbackReader) (callback : Callback) :
    extractViewId reader callback.print (tokenize callback.print ' ') =
      reader.parsedViewId callback.payload := by
  have front : callback.print = ("callback".toList ++ ' ' :: (callback.view.print ++
      ' ' :: (printInt callback.type ++ [' ']))) ++ callback.payload := by
    unfold print
    generalize "callback".toList = word
    simp
  have size : ("callback".toList ++ ' ' :: (callback.view.print ++
      ' ' :: (printInt callback.type ++ [' ']))).length =
      "callback".toList.length + callback.view.print.length + (printInt callback.type).length + 3 := by
    simp only [List.length_append, List.length_cons, List.length_nil]
    omega
  unfold extractViewId
  rw [callback.tokenize_print]
  simp only [List.getD_cons_zero, List.getD_cons_succ]
  rw [← size, front, List.drop_left, if_neg]
  rw [List.length_append]
  exact Nat.not_lt.mpr (Nat.le_add_right _ _)

theorem isSameCallback_print (callback queued : Callback) :
    TileQueue.isSameCallback (tokenize callback.print ' ') queued.print = true ↔
      queued.view = callback.view ∧ queued.type = callback.type := by
  have isPrefix : matchPrefix "callback".toList queued.print = true :=
    List.isPrefixOf_iff_prefix.mpr ⟨_, rfl⟩
  have same (index : Nat) {token other : Text} (isToken : (tokenize queued.print ' ')[index]? = some token)
      (isOther : (tokenize callback.print ' ')[index]? = some other) :
      tokenEquals (tokenize queued.print ' ') index (tokenize callback.print ' ') index = true ↔
        token = other := by
    simp [tokenEquals, isToken, isOther]
  have views := @same 1 queued.view.print callback.view.print (by rw [tokenize_print]; rfl)
    (by rw [tokenize_print]; rfl)
  have types := @same 2 (printInt queued.type) (printInt callback.type) (by rw [tokenize_print]; rfl)
    (by rw [tokenize_print]; rfl)
  have long : ¬(tokenize queued.print ' ').length < 3 := by
    rw [tokenize_print]
    simp only [List.length_cons]
    omega
  unfold TileQueue.isSameCallback
  dsimp only
  rw [isPrefix, Bool.not_true, if_neg Bool.false_ne_true, if_neg long, Bool.and_eq_true, views, types]
  constructor
  · exact fun both => ⟨TargetView.print_injective both.1, printInt_injective both.2⟩
  · exact fun both => ⟨congrArg _ both.1, congrArg _ both.2⟩

theorem isSameState_print (callback queued : Callback) (notEmpty : callback.unoCommand ≠ []) :
    TileQueue.isSameState (tokenize callback.print ' ') callback.unoCommand queued.print = true ↔
      queued.view = callback.view ∧ queued.type = callback.type ∧
        queued.unoCommand = callback.unoCommand := by
  unfold TileQueue.isSameState
  rw [callback.tokenize_print, queued.tokenize_print]
  cases payload : payloadTokens queued.payload with
  | nil =>
      have noCommand : queued.unoCommand = [] := by
        rw [unoCommand, payload]
        rfl
      refine iff_of_false ?_ fun both => notEmpty (both.2.2.symm.trans noCommand)
      simp
  | cons command rest =>
      have isCommand : extractUnoCommand command = queued.unoCommand := by
        rw [unoCommand, payload]
        rfl
      simp only [List.length_cons, List.getD_cons_zero, List.getD_cons_succ, isCommand]
      rw [if_neg (by omega)]
      by_cases sameView : queued.view = callback.view
      · by_cases sameType : queued.type = callback.type
        · rw [if_neg (by simp [sameView, sameType])]
          by_cases noCommand : queued.unoCommand = []
          · rw [if_pos noCommand]
            exact iff_of_false Bool.false_ne_true fun both =>
              notEmpty (both.2.2.symm.trans noCommand)
          · rw [if_neg noCommand, decide_eq_true_iff]
            exact ⟨fun same => ⟨sameView, sameType, same.symm⟩, fun both => both.2.2.symm⟩
        · have otherType := mt printInt_injective sameType
          rw [if_pos (.inr (.inr otherType))]
          exact iff_of_false Bool.false_ne_true fun both => sameType both.2.1
      · have otherView := mt TargetView.print_injective sameView
        rw [if_pos (.inr (.inl otherView))]
        exact iff_of_false Bool.false_ne_true fun both => sameView both.1

/-!
## Putting a callback
-/

variable {reader : CallbackReader} {callback queued : Callback} {queue : List Callback}

theorem eraseP_print {isSame : Payload → Bool} {isOf : Callback → Bool}
    (same : ∀ queued, isSame (print queued) = isOf queued) (queue : List Callback) :
    (queue.map print).eraseP isSame = (queue.eraseP isOf).map print := by
  have composed : isSame ∘ print = isOf := funext same
  rw [List.eraseP_map, composed]

theorem eraseFirst_print {isSame : Payload → Option Bool} {isOf : Callback → Bool}
    (same : ∀ queued ∈ queue, isSame queued.print = some (isOf queued)) :
    TileQueue.eraseFirst isSame (queue.map print) = some ((queue.eraseP isOf).map print) := by
  induction queue with
  | nil => rfl
  | cons queued rest ih =>
      have later := ih fun other member => same other (List.mem_cons_of_mem _ member)
      rw [List.map_cons, TileQueue.eraseFirst, same queued List.mem_cons_self, later]
      cases isSame : isOf queued with
      | true => simp [isSame]
      | false => simp [isSame]

theorem classOf_eq_iff_of_state (isState : reader.callbackType callback.type = .stateChanged) :
    queued.classOf reader = callback.classOf reader ↔ queued.view = callback.view ∧
      queued.type = callback.type ∧ queued.unoCommand = callback.unoCommand := by
  simp only [classOf, CallbackClass.mk.injEq, isState, ↓reduceIte]
  refine and_congr_right fun _ => and_congr_right fun sameType => ?_
  rw [sameType, isState]
  simp

theorem classOf_eq_iff_of_view (isView : callback.isViewCallback reader = true) :
    queued.classOf reader = callback.classOf reader ↔ (queued.view = callback.view ∧
      queued.type = callback.type) ∧
        reader.parsedViewId queued.payload = reader.parsedViewId callback.payload := by
  have noState : reader.callbackType callback.type ≠ .stateChanged := by
    intro isState
    simp [isViewCallback, isState] at isView
  simp only [classOf, CallbackClass.mk.injEq, noState, isView, ↓reduceIte, and_assoc]
  refine and_congr_right fun _ => and_congr_right fun sameType => ?_
  have queuedView : queued.isViewCallback reader = true := by
    rwa [isViewCallback, sameType]
  simp [sameType, noState, queuedView]

theorem classOf_eq_iff_of_other (noState : reader.callbackType callback.type ≠ .stateChanged)
    (noView : callback.isViewCallback reader = false) :
    queued.classOf reader = callback.classOf reader ↔
      queued.view = callback.view ∧ queued.type = callback.type := by
  simp only [classOf, CallbackClass.mk.injEq, noState, noView, ↓reduceIte, Bool.false_eq_true]
  refine and_congr_right fun _ => and_iff_left_of_imp fun sameType => ?_
  have queuedView : queued.isViewCallback reader = false := by
    rwa [isViewCallback, sameType]
  simp [sameType, noState, queuedView]

theorem supersedes_of_state (isState : reader.callbackType callback.type = .stateChanged) :
    (classes reader).supersedes callback =
      !decide (callback.unoCommand = [] ∨ callback.unoCommand = modifiedStatus) := by
  simp only [classes, CallbackClass.supersedes, classOf, isState, ↓reduceIte, ne_eq,
    Option.some.injEq]
  by_cases noCommand : callback.unoCommand = []
  · simp [noCommand]
  · simp [noCommand]

theorem eraseP_state (isState : reader.callbackType callback.type = .stateChanged)
    (notEmpty : callback.unoCommand ≠ []) (queue : List Callback) :
    (queue.map print).eraseP
        (TileQueue.isSameState (tokenize callback.print ' ') callback.unoCommand) =
      (queue.eraseP ((classes reader).isOf (callback.classOf reader))).map print := by
  refine eraseP_print (fun queued => Bool.eq_iff_iff.mpr ?_) queue
  rw [isSameState_print callback queued notEmpty, Classes.isOf_iff]
  exact (classOf_eq_iff_of_state isState).symm

theorem eraseP_callback (noState : reader.callbackType callback.type ≠ .stateChanged)
    (noView : callback.isViewCallback reader = false) (queue : List Callback) :
    (queue.map print).eraseP (TileQueue.isSameCallback (tokenize callback.print ' ')) =
      (queue.eraseP ((classes reader).isOf (callback.classOf reader))).map print := by
  refine eraseP_print (fun queued => Bool.eq_iff_iff.mpr ?_) queue
  rw [isSameCallback_print callback queued, Classes.isOf_iff]
  exact (classOf_eq_iff_of_other noState noView).symm

theorem eraseFirst_view (isView : callback.isViewCallback reader = true) {viewId : Text}
    (isViewId : reader.parsedViewId callback.payload = some viewId)
    (readable : ∀ queued ∈ queue, queued.IsReadable reader) :
    TileQueue.eraseFirst
        (TileQueue.isSameViewCallback reader (tokenize callback.print ' ') viewId)
        (queue.map print) =
      some ((queue.eraseP ((classes reader).isOf (callback.classOf reader))).map print) := by
  refine eraseFirst_print fun queued member => ?_
  have same := isSameCallback_print callback queued
  have isClass := @classOf_eq_iff_of_view reader callback queued isView
  unfold TileQueue.isSameViewCallback
  rw [← same, isViewId] at isClass
  cases isSame : TileQueue.isSameCallback (tokenize callback.print ' ') queued.print with
  | false =>
      rw [isSame] at isClass
      have different : (classes reader).isOf (callback.classOf reader) queued = false :=
        Bool.eq_false_iff.mpr fun isOf =>
          Bool.false_ne_true (isClass.mp (Classes.isOf_iff.mp isOf)).1
      rw [if_neg Bool.false_ne_true, different]
  | true =>
      have sameType := (same.mp isSame).2
      have queuedView : queued.isViewCallback reader = true := by
        rwa [isViewCallback, sameType]
      obtain ⟨queuedId, isQueuedId⟩ := Option.isSome_iff_exists.mp (readable queued member queuedView)
      rw [isSame, isQueuedId, and_iff_right rfl, Option.some.injEq] at isClass
      rw [if_pos rfl, extractViewId_print, isQueuedId, Option.map_some, Option.some.injEq]
      refine Bool.eq_iff_iff.mpr ?_
      rw [decide_eq_true_iff, Classes.isOf_iff]
      exact eq_comm.trans isClass.symm

theorem length_tokenize_print (callback : Callback) :
    (tokenize callback.print ' ').length = (payloadTokens callback.payload).length + 3 := by
  rw [tokenize_print]
  rfl

theorem type_print (callback : Callback) :
    i32FromString ((tokenize callback.print ' ').getD 2 []) = some callback.type := by
  have inside : inLong callback.type := by
    have isInt := callback.isInt
    simp only [inLong, longMax]
    simp only [intMax] at isInt
    omega
  rw [tokenize_print]
  exact (i32FromString_printInt inside).trans (congrArg some (toInt32_of_fits callback.isInt))

/-- Exactly the callback is removed that the new one supersedes. -/
theorem removeCallbackDuplicate_print
    (notInvalidation : reader.callbackType callback.type ≠ .invalidateTiles)
    (isReadable : callback.IsReadable reader)
    (readable : ∀ queued ∈ queue, queued.IsReadable reader) :
    TileQueue.removeCallbackDuplicate reader (queue.map print) callback.print =
      some (none, ((classes reader).removeObsolete queue callback).map print) := by
  have long : ¬(tokenize callback.print ' ').length < 3 := by
    rw [length_tokenize_print]
    omega
  unfold TileQueue.removeCallbackDuplicate
  dsimp only
  rw [if_neg long, type_print]
  unfold Classes.removeObsolete
  cases kind : reader.callbackType callback.type with
  | invalidateTiles => exact absurd kind notInvalidation
  | stateChanged =>
      have command : extractUnoCommand ((tokenize callback.print ' ').getD 3 []) =
          callback.unoCommand := by
        rw [tokenize_print]
        rfl
      simp only [kind, command, supersedes_of_state kind]
      by_cases short : (tokenize callback.print ' ').length < 4
      · have noTokens : payloadTokens callback.payload = [] := by
          rw [length_tokenize_print] at short
          exact List.length_eq_zero_iff.mp (by omega)
        have noCommand : callback.unoCommand = [] := by
          rw [unoCommand, noTokens]
          rfl
        rw [if_pos short, decide_eq_true (.inl noCommand), if_neg (by decide)]
      · rw [if_neg short]
        by_cases stays : callback.unoCommand = [] ∨ callback.unoCommand = modifiedStatus
        · rw [if_pos stays, decide_eq_true stays, if_neg (by decide)]
        · rw [if_neg stays, decide_eq_false stays, Bool.not_false, if_pos rfl,
            eraseP_state kind (fun empty => stays (.inl empty))]
          rfl
  | invalidateVisibleCursor | cursorVisible | statusIndicatorSetValue | documentSizeChanged
  | cellCursor =>
      have noState : reader.callbackType callback.type ≠ .stateChanged := by simp [kind]
      have noView : callback.isViewCallback reader = false := by simp [isViewCallback, kind]
      have supersedes : (classes reader).supersedes callback = true := by
        simp [classes, CallbackClass.supersedes, classOf, kind]
      simp only [kind]
      rw [eraseP_callback noState noView, if_pos supersedes]
      rfl
  | invalidateViewCursor | cellViewCursor | viewCursorVisible =>
      have isView : callback.isViewCallback reader = true := by simp [isViewCallback, kind]
      have supersedes : (classes reader).supersedes callback = true := by
        simp [classes, CallbackClass.supersedes, classOf, kind]
      obtain ⟨viewId, isViewId⟩ := Option.isSome_iff_exists.mp (isReadable isView)
      simp only [kind, extractViewId_print, isViewId, Option.bind_eq_bind, Option.bind_some,
        eraseFirst_view isView isViewId readable]
      rw [if_pos supersedes]
      rfl
  | other =>
      have stays : (classes reader).supersedes callback = false := by
        simp [classes, CallbackClass.supersedes, classOf, kind]
      simp only [kind]
      rw [if_neg (Bool.eq_false_iff.mp stays)]

/-- The exception of the parser. -/
theorem removeCallbackDuplicate_unreadable (notReadable : ¬callback.IsReadable reader)
    (queue : List Payload) :
    TileQueue.removeCallbackDuplicate reader queue callback.print = none := by
  have long : ¬(tokenize callback.print ' ').length < 3 := by
    rw [length_tokenize_print]
    omega
  unfold IsReadable at notReadable
  obtain ⟨isView, noViewId⟩ := Classical.not_imp.mp notReadable
  have isNone := Option.not_isSome_iff_eq_none.mp noViewId
  unfold TileQueue.removeCallbackDuplicate
  dsimp only
  rw [if_neg long, type_print]
  unfold isViewCallback at isView
  cases kind : reader.callbackType callback.type with
  | invalidateViewCursor | cellViewCursor | viewCursorVisible =>
      simp only [kind, extractViewId_print, isNone, Option.bind_eq_bind, Option.bind_none]
  | invalidateTiles | stateChanged | invalidateVisibleCursor | cursorVisible
  | statusIndicatorSetValue | documentSizeChanged | cellCursor | other =>
      rw [kind] at isView
      cases isView

/-- What is put behind the others, unless there is an exception. -/
theorem putImpl_print (notInvalidation : reader.callbackType callback.type ≠ .invalidateTiles)
    (isReadable : callback.IsReadable reader)
    (readable : ∀ queued ∈ queue, queued.IsReadable reader) :
    TileQueue.putImpl reader (queue.map print) callback.print =
      some (((classes reader).put queue callback).map print) := by
  have appended := fun queue => @MessageQueue.putImpl_toView queue callback.print callback.view (by
    rw [tokenize_print]
    rfl)
  unfold TileQueue.putImpl
  dsimp only
  rw [getFirstToken_print, if_neg (by decide), if_neg (by decide), if_neg (by decide), if_pos rfl,
    removeCallbackDuplicate_print notInvalidation isReadable readable, Option.map_some,
    Option.getD_none, appended, Classes.put, List.map_append]
  rfl

theorem putImpl_unreadable (notReadable : ¬callback.IsReadable reader) (queue : List Payload) :
    TileQueue.putImpl reader queue callback.print = none := by
  unfold TileQueue.putImpl
  dsimp only
  rw [getFirstToken_print, if_neg (by decide), if_neg (by decide), if_neg (by decide), if_pos rfl,
    removeCallbackDuplicate_unreadable notReadable, Option.map_none]

/-- A callback is no tile, so it is taken as it is. -/
theorem getImpl_print {tileQueue : TileQueue} {rest : List Callback}
    (isQueue : tileQueue.queue = (callback :: rest).map print) :
    tileQueue.getImpl = some (callback.print, rest.map print) := by
  have noTile : TileQueue.isTile callback.print = false := by
    rw [TileQueue.isTile, matchPrefix, ← Bool.not_eq_true, List.isPrefixOf_iff_prefix]
    rintro ⟨others, same⟩
    have heads := congrArg List.head? same
    have isTile : "tile".toList.head? = some 't' := by decide
    have isCallback : "callback".toList.head? = some 'c' := by decide
    unfold print at heads
    rw [List.head?_append, List.head?_append, isTile, isCallback] at heads
    exact absurd (Option.some.inj heads) (by decide)
  simp only [TileQueue.getImpl, isQueue, List.map_cons, TileQueue.isPlain, TileQueue.isPreview, noTile,
    Bool.false_and, Bool.false_eq_true, ↓reduceIte]

end Callback

/-!
## Runs
-/

/-- A queue with the callbacks that were put into it and the messages that were taken. -/
structure CallbackRun where
  given : List Callback
  taken : List Payload
  tileQueue : TileQueue

namespace CallbackRun

open Callback (classes print)

/-- A callback that makes the parser throw is not put. -/
def step (reader : CallbackReader) (state : CallbackRun) : QueueEvent Callback → CallbackRun
  | .put callback =>
      match TileQueue.putImpl reader state.tileQueue.queue callback.print with
      | none => state
      | some queue =>
          { state with
            given := state.given ++ [callback]
            tileQueue := { state.tileQueue with queue } }
  | .get =>
      match state.tileQueue.getImpl with
      | none => state
      | some (message, queue) =>
          { state with
            taken := state.taken ++ [message]
            tileQueue := { state.tileQueue with queue } }

/-- Any callback but an invalidation. -/
def Allowed (reader : CallbackReader) (_ : CallbackRun) : QueueEvent Callback → Prop
  | .put callback => reader.callbackType callback.type ≠ .invalidateTiles
  | .get => True

/-- The texts are those of a queue of states. -/
structure Shows (reader : CallbackReader) (state : CallbackRun) (shown : MergingQueue Callback) :
    Prop where
  given : state.given = shown.given
  taken : state.taken = shown.taken.map print
  queue : state.tileQueue.queue = shown.queue.map print
  readable : ∀ queued ∈ shown.queue, queued.IsReadable reader
  isLatest : (classes reader).IsLatest shown

variable {reader : CallbackReader} {state : CallbackRun} {shown : MergingQueue Callback}

theorem shows_put (shows : Shows reader state shown) {callback : Callback}
    (notInvalidation : reader.callbackType callback.type ≠ .invalidateTiles) :
    ∃ next, Shows reader (state.step reader (.put callback)) next := by
  by_cases isReadable : callback.IsReadable reader
  · have put := Callback.putImpl_print notInvalidation isReadable shows.readable
    refine ⟨(classes reader).step shown (.put callback), ?_⟩
    simp only [step, shows.queue, put]
    exact
      { given := congrArg (· ++ [callback]) shows.given
        taken := shows.taken
        queue := rfl
        readable := by
          intro queued member
          cases List.mem_append.mp member with
          | inl old =>
              exact shows.readable queued ((Classes.removeObsolete_sublist _ _).subset old)
          | inr new => exact List.mem_singleton.mp new ▸ isReadable
        isLatest := Classes.isLatest_put shows.isLatest callback }
  · refine ⟨shown, ?_⟩
    simp only [step, Callback.putImpl_unreadable isReadable]
    exact shows

theorem shows_get (shows : Shows reader state shown) :
    ∃ next, Shows reader (state.step reader .get) next := by
  obtain ⟨given, taken, queue⟩ := shown
  cases queue with
  | nil =>
      have nothing : state.tileQueue.getImpl = none := by
        simp only [TileQueue.getImpl, shows.queue, List.map_nil]
      refine ⟨⟨given, taken, []⟩, ?_⟩
      simp only [step, nothing]
      exact shows
  | cons callback rest =>
      have get := Callback.getImpl_print shows.queue
      have isLatest := Classes.isLatest_get shows.isLatest
      refine ⟨⟨given, taken ++ [callback], rest⟩, ?_⟩
      simp only [step, get]
      exact
        { given := shows.given
          taken := by
            rw [shows.taken, List.map_append]
            rfl
          queue := rfl
          readable := fun queued member => shows.readable queued (List.mem_cons_of_mem _ member)
          isLatest := isLatest }

theorem shows_run {tileQueue : TileQueue} (empty : tileQueue.queue = [])
    {events : List (QueueEvent Callback)}
    (permitted : Permitted (step reader) (Allowed reader) ⟨[], [], tileQueue⟩ events) :
    ∃ shown, Shows reader (run (step reader) ⟨[], [], tileQueue⟩ events) shown := by
  refine run_invariant (fun state => ∃ shown, Shows reader state shown) ?_ ⟨.empty, ?_⟩ permitted
  · rintro state event ⟨shown, shows⟩ allowed
    cases event with
    | put callback => exact shows_put shows allowed
    | get => exact shows_get shows
  · exact
      { given := rfl
        taken := rfl
        queue := empty
        readable := fun _ member => absurd member List.not_mem_nil
        isLatest := Classes.isLatest_empty }

/-- The next callback removes none of another class. -/
theorem filter_put (shows : Shows reader state shown) {callback : Callback}
    (notInvalidation : reader.callbackType callback.type ≠ .invalidateTiles) {left : List Payload}
    (isPut : TileQueue.putImpl reader state.tileQueue.queue callback.print = some left) :
    ∃ next : List Callback, left = next.map print ∧ ∀ kind, kind ≠ callback.classOf reader →
      next.filter ((classes reader).isOf kind) = shown.queue.filter ((classes reader).isOf kind) := by
  by_cases isReadable : callback.IsReadable reader
  · rw [shows.queue, Callback.putImpl_print notInvalidation isReadable shows.readable] at isPut
    refine ⟨_, (Option.some.inj isPut).symm, fun kind other => ?_⟩
    have notOf : ¬(classes reader).isOf kind callback = true :=
      fun isOf => other (Classes.isOf_iff.mp isOf).symm
    rw [Classes.put, List.filter_append, List.filter_cons_of_neg notOf, List.filter_nil, List.append_nil]
    refine Classes.filter_removeObsolete (fun queued _ same => ?_) shown.queue
    exact Bool.eq_false_iff.mpr fun isOf => other ((Classes.isOf_iff.mp isOf).symm.trans same)
  · rw [Callback.putImpl_unreadable isReadable] at isPut
    cases isPut

/-- A modified document is never superseded. -/
theorem filter_isModifiedStatus {shown : MergingQueue Callback}
    (isLatest : (classes reader).IsLatest shown) :
    (shown.taken ++ shown.queue).filter (Callback.isModifiedStatus reader) =
      shown.given.filter (Callback.isModifiedStatus reader) := by
  have stays : Callback.isModifiedStatus reader = fun callback =>
      Callback.isModifiedStatus reader callback && !(classes reader).supersedes callback := by
    funext callback
    cases modified : callback.isModifiedStatus reader with
    | false => rfl
    | true =>
        obtain ⟨isState, isCommand⟩ := Bool.and_eq_true_iff.mp modified
        have command := of_decide_eq_true isCommand
        rw [Callback.supersedes_of_state (of_decide_eq_true isState),
          decide_eq_true (.inr command)]
        rfl
  rw [stays, ← List.filter_filter, ← List.filter_filter, isLatest.kept]

/-- At any moment the queue is one of states: of every class the last callback is the one that was
put last, the next one that is put removes none of another class, and none that says that the
document was modified is ever removed. -/
theorem latest_kept {tileQueue : TileQueue} (empty : tileQueue.queue = [])
    {events : List (QueueEvent Callback)}
    (permitted : Permitted (step reader) (Allowed reader) ⟨[], [], tileQueue⟩ events) :
    let state := run (step reader) ⟨[], [], tileQueue⟩ events
    ∃ taken queued : List Callback, state.taken = taken.map print ∧
      state.tileQueue.queue = queued.map print ∧
      (classes reader).IsLatest ⟨state.given, taken, queued⟩ ∧
      (∀ kind, queued.filter ((classes reader).isOf kind) ≠ [] →
        (queued.filter ((classes reader).isOf kind)).getLast? =
          (state.given.filter ((classes reader).isOf kind)).getLast?) ∧
      (taken ++ queued).filter (Callback.isModifiedStatus reader) =
        state.given.filter (Callback.isModifiedStatus reader) ∧
      ∀ (callback : Callback) (left : List Payload),
        reader.callbackType callback.type ≠ .invalidateTiles →
        TileQueue.putImpl reader state.tileQueue.queue callback.print = some left →
        ∃ next : List Callback, left = next.map print ∧ ∀ kind, kind ≠ callback.classOf reader →
          next.filter ((classes reader).isOf kind) = queued.filter ((classes reader).isOf kind) := by
  obtain ⟨shown, shows⟩ := shows_run empty permitted
  obtain ⟨given, taken, queue⟩ := shown
  have sameGiven : given = (run (step reader) ⟨[], [], tileQueue⟩ events).given := shows.given.symm
  cases sameGiven
  have isLatest := shows.isLatest
  exact ⟨taken, queue, shows.taken, shows.queue, isLatest, fun _ => isLatest.latest_queued,
    filter_isModifiedStatus isLatest,
    fun _ _ notInvalidation isPut => filter_put shows notInvalidation isPut⟩

/-- The numbers of the callbacks, and a parser that reads payloads that begin with the view. -/
def cursorReader : CallbackReader where
  callbackType := fun number =>
    if number = 0 then .invalidateTiles
    else if number = 1 then .invalidateVisibleCursor
    else if number = 5 then .cursorVisible
    else if number = 8 then .stateChanged
    else if number = 10 then .statusIndicatorSetValue
    else if number = 13 then .documentSizeChanged
    else if number = 17 then .cellCursor
    else if number = 24 then .invalidateViewCursor
    else if number = 26 then .cellViewCursor
    else if number = 28 then .viewCursorVisible
    else .other
  parsedViewId := fun payload =>
    let start := "\x7b \"viewId\": \"".toList
    if start.isPrefixOf payload then some ((payload.drop start.length).takeWhile (· ≠ '"')) else none

/-- The cursor of another view has moved. -/
def viewCursor (viewId : String) : Callback where
  view := .all
  type := 24
  payload := "\x7b \"viewId\": \"".toList ++ viewId.toList ++ "\" \x7d".toList
  isInt := by decide

theorem latest_kept_viewCursor :
    ∃ taken queued : List Callback,
      (run (step cursorReader) ⟨[], [], ⟨[], fun _ => .none, []⟩⟩
        [.put (viewCursor "1"), .put (viewCursor "2"), .put (viewCursor "1"), .get]).taken =
          taken.map print ∧
      (classes cursorReader).IsLatest ⟨(run (step cursorReader) ⟨[], [], ⟨[], fun _ => .none, []⟩⟩
        [.put (viewCursor "1"), .put (viewCursor "2"), .put (viewCursor "1"), .get]).given,
          taken, queued⟩ := by
  have permitted : Permitted (step cursorReader) (Allowed cursorReader)
      ⟨[], [], ⟨[], fun _ => .none, []⟩⟩
      [.put (viewCursor "1"), .put (viewCursor "2"), .put (viewCursor "1"), .get] :=
    ⟨nofun, nofun, nofun, trivial, trivial⟩
  obtain ⟨taken, queued, isTaken, -, isLatest, -⟩ := latest_kept rfl permitted
  exact ⟨taken, queued, isTaken, isLatest⟩

end CallbackRun

end FreeOnline.Common
