import FreeOnline.Browser.ProxySocket
import FreeOnline.Library.Run

/-!
# Slurped messages

Incoming messages are queued and handled together as soon as the browser is idle. A message whose
image is still being loaded holds up the ones behind it.
-/

set_option autoImplicit false

namespace FreeOnline.Browser

open FreeOnline.Library

/-!
## Messages
-/

/-- What the page is shown in. -/
inductive Window
  | browser
  | iOSApp
  | emscriptenApp
deriving DecidableEq

def startsWith (text start : Text) : Bool :=
  start.isPrefixOf text

/-- A message as it arrives. -/
structure SlurpEvent where
  window : Window
  data : Data
deriving DecidableEq

namespace SlurpEvent

/-- The apps split these messages as if they were binary. -/
def isSplit (window : Window) (data : Text) : Bool :=
  match window with
  | .browser => false
  | .emscriptenApp => true
  | .iOSApp =>
      ["tile:".toList, "tilecombine:".toList, "delta:".toList, "renderfont:".toList,
        "rendersearchlist:".toList, "windowpaint:".toList].any (startsWith data)

/-- The message, which is cut at the first newline if there are bytes behind it. -/
def textMsg (evt : SlurpEvent) : Text :=
  match evt.data with
  | .text data => if isSplit evt.window data then data.takeWhile (· ≠ '\n') else data
  | .binary data => (data.takeWhile (· ≠ 10)).map fun byte => Char.ofNat byte.toNat

/-- The bytes of the image. -/
def imgBytes (evt : SlurpEvent) : Option Bytes :=
  match evt.data with
  | .text data =>
      if isSplit evt.window data then
        some (((data.dropWhile (· ≠ '\n')).drop 1).map fun ch => UInt8.ofNat ch.toNat)
      else none
  | .binary data => some ((data.dropWhile (· ≠ 10)).drop 1)

/-- What `_extractTextImg` finds out about the image. -/
inductive Image
  | none
  | complete
  /-- It is complete once it has loaded, or failed to. -/
  | loading
deriving DecidableEq

/-- An exception, if there has to be an image and there are no bytes. -/
def extractTextImg (evt : SlurpEvent) : Option Image :=
  let isTile := startsWith evt.textMsg "tile:".toList
  let isDelta := startsWith evt.textMsg "delta:".toList
  if !isTile && !isDelta && !startsWith evt.textMsg "renderfont:".toList &&
      !startsWith evt.textMsg "windowpaint:".toList then some .none
  else if " nopng".toList <:+: evt.textMsg then some .none
  else
    match evt.imgBytes with
    | none => none
    | some bytes =>
        if (isTile || isDelta) && bytes.head? ≠ some 80 then some .complete
        else if isTile then some .complete
        else some .loading

end SlurpEvent

/-!
## The queue
-/

/-- A message and how many arrived before it. -/
structure Slurped where
  arrival : Nat
  evt : SlurpEvent
deriving DecidableEq

structure SlurpState where
  slurpQueue : List Slurped
  slurpTimer : Bool
  /-- The messages whose images have loaded or failed. -/
  imagesDone : List Nat
  /-- What `_slurpMessage` was called with. -/
  arrived : List Slurped
  /-- What `_onMessage` was called with. -/
  handled : List Slurped
deriving DecidableEq

namespace SlurpState

def initial : SlurpState := ⟨[], false, [], [], []⟩

def isComplete (state : SlurpState) (message : Slurped) : Bool :=
  match message.evt.extractTextImg with
  | some .loading => message.arrival ∈ state.imagesDone
  | _ => true

def queueSlurpEventEmission (state : SlurpState) : SlurpState :=
  { state with slurpTimer := true }

/-- An exception leaves the message out of the queue. -/
def slurpMessage (state : SlurpState) (evt : SlurpEvent) : SlurpState :=
  let message : Slurped := ⟨state.arrived.length, evt⟩
  let state :=
    if state.slurpQueue = [] then { state.queueSlurpEventEmission with slurpQueue := [] } else state
  let state := { state with arrived := state.arrived ++ [message] }
  match evt.extractTextImg with
  | none => state
  | some _ => { state with slurpQueue := state.slurpQueue ++ [message] }

/-- One call of `_onMessage`, whose exceptions are caught. It may slurp messages itself. -/
def onMessage (state : SlurpState) (message : Slurped) (slurps : List SlurpEvent) : SlurpState :=
  slurps.foldl slurpMessage { state with handled := state.handled ++ [message] }

/-- The loop over the messages that are queued when it starts, from this one on. -/
def emitFrom (slurps : List (List SlurpEvent)) (queueLength i : Nat) :
    Nat → SlurpState → SlurpState
  | 0, state => { state with slurpQueue := [] }
  | remaining + 1, state =>
      match state.slurpQueue[i]? with
      | none => state
      | some evt =>
          if state.isComplete evt then
            emitFrom slurps queueLength (i + 1) remaining (state.onMessage evt (slurps.getD i []))
          -- Stop emitting, it starts again when the image has loaded.
          else { state with slurpQueue := (state.slurpQueue.take queueLength).drop i }

/-- What is slurped meanwhile is given for every message. -/
def emitSlurpedEvents (state : SlurpState) (slurps : List (List SlurpEvent)) : SlurpState :=
  emitFrom slurps state.slurpQueue.length 0 state.slurpQueue.length state

end SlurpState

inductive SlurpStep
  | message (evt : SlurpEvent)
  /-- The image of a message has loaded or failed. -/
  | imageDone (message : Slurped)
  | timer (slurps : List (List SlurpEvent))

namespace SlurpState

/-- An image is done once, and a timer that is not pending does not call back. -/
def step (state : SlurpState) : SlurpStep → SlurpState
  | .message evt => state.slurpMessage evt
  | .imageDone message =>
      if message ∈ state.arrived ∧ state.isComplete message = false then
        { state.queueSlurpEventEmission with imagesDone := message.arrival :: state.imagesDone }
      else state
  | .timer slurps =>
      if state.slurpTimer then { state with slurpTimer := false }.emitSlurpedEvents slurps else state

/-!
## What is expected
-/

/-- The messages in front of the first one that is not complete. -/
def ready (state : SlurpState) : List Slurped :=
  state.slurpQueue.takeWhile state.isComplete

/-- No message is lost, repeated or overtaken, and if there is one to be handled a timer is pending. -/
structure Lossless (state : SlurpState) : Prop where
  inOrder : state.handled ++ state.slurpQueue = state.arrived
  armed : state.ready ≠ [] → state.slurpTimer = true

/-- Only a message whose image is not complete holds up others, and only those behind it. -/
def Handles (state : SlurpState) (slurps : List (List SlurpEvent)) : Prop :=
  (state.step (.timer slurps)).handled =
    state.handled ++ if state.slurpTimer then state.ready else []

/-- Every message has its image, and none is slurped while one is handled. -/
def Allowed (state : SlurpState) : SlurpStep → Prop
  | .message evt => evt.extractTextImg ≠ none
  | .imageDone _ => True
  | .timer slurps =>
      state.slurpTimer = true → ∀ i < state.ready.length, slurps.getD i [] = []

variable {state : SlurpState}

/-!
## What a step does
-/

theorem isComplete_congr {other : SlurpState} (same : state.imagesDone = other.imagesDone) :
    state.isComplete = other.isComplete := by
  funext message
  simp only [isComplete, same]

/-- While there are messages in the queue, others are put behind them. -/
theorem slurpMessage_spec (state : SlurpState) (evt : SlurpEvent) :
    (state.slurpMessage evt).arrived = state.arrived ++ [⟨state.arrived.length, evt⟩] ∧
      (state.slurpMessage evt).handled = state.handled ∧
      (state.slurpMessage evt).imagesDone = state.imagesDone ∧
      ((state.slurpMessage evt).slurpQueue = if evt.extractTextImg = none then state.slurpQueue else
        state.slurpQueue ++ [⟨state.arrived.length, evt⟩]) ∧
      (state.slurpMessage evt).slurpTimer = (state.slurpQueue.isEmpty || state.slurpTimer) := by
  by_cases empty : state.slurpQueue = []
  · cases extracted : evt.extractTextImg with
    | none => simp [slurpMessage, empty, extracted, queueSlurpEventEmission]
    | some image => simp [slurpMessage, empty, extracted, queueSlurpEventEmission]
  · cases extracted : evt.extractTextImg with
    | none => simp [slurpMessage, empty, extracted]
    | some image => simp [slurpMessage, empty, extracted]

/-- What messages that are slurped behind others do. -/
theorem foldl_slurpMessage (notEmpty : state.slurpQueue ≠ []) (slurps : List SlurpEvent) :
    let last := slurps.foldl slurpMessage state
    state.slurpQueue <+: last.slurpQueue ∧ last.handled = state.handled ∧
      last.imagesDone = state.imagesDone ∧ last.slurpTimer = state.slurpTimer ∧
      last.arrived.length = state.arrived.length + slurps.length ∧
      (slurps = [] → last.arrived = state.arrived) := by
  induction slurps generalizing state with
  | nil => exact ⟨List.prefix_rfl, rfl, rfl, rfl, rfl, fun _ => rfl⟩
  | cons evt slurps ih =>
      obtain ⟨arrived, handled, imagesDone, queue, timer⟩ := slurpMessage_spec state evt
      have behind : state.slurpQueue <+: (state.slurpMessage evt).slurpQueue := by
        rw [queue]
        split
        · exact List.prefix_rfl
        · exact List.prefix_append _ _
      have stillNotEmpty : (state.slurpMessage evt).slurpQueue ≠ [] :=
        fun empty => notEmpty (List.prefix_nil.mp (empty ▸ behind))
      obtain ⟨queueLast, handledLast, imagesLast, timerLast, arrivedLast, -⟩ := ih stillNotEmpty
      have sameTimer : (state.slurpMessage evt).slurpTimer = state.slurpTimer := by
        rw [timer, List.isEmpty_eq_false_iff.mpr notEmpty, Bool.false_or]
      refine ⟨behind.trans queueLast, handledLast.trans handled, imagesLast.trans imagesDone,
        timerLast.trans sameTimer, ?_, fun empty => nomatch empty⟩
      rw [List.foldl_cons, arrivedLast, arrived, List.length_append, List.length_singleton,
        List.length_cons]
      omega

/-- What the loop does, which has handled `before` and goes on with `rest`. -/
structure Emits (slurps : List (List SlurpEvent)) (start : Nat) (rest : List Slurped)
    (state last : SlurpState) : Prop where
  handled : last.handled = state.handled ++ rest.takeWhile state.isComplete
  slurpQueue : last.slurpQueue = rest.dropWhile state.isComplete
  imagesDone : last.imagesDone = state.imagesDone
  slurpTimer : last.slurpTimer = state.slurpTimer
  length_arrived : state.arrived.length ≤ last.arrived.length
  arrived_iff : last.arrived = state.arrived ↔
    ∀ i < (rest.takeWhile state.isComplete).length, slurps.getD (start + i) [] = []

/-- What `onMessage` does before the loop goes on. -/
theorem onMessage_spec (notEmpty : state.slurpQueue ≠ []) (message : Slurped)
    (slurps : List SlurpEvent) :
    let called := state.onMessage message slurps
    state.slurpQueue <+: called.slurpQueue ∧ called.handled = state.handled ++ [message] ∧
      called.imagesDone = state.imagesDone ∧ called.slurpTimer = state.slurpTimer ∧
      called.arrived.length = state.arrived.length + slurps.length ∧
      (slurps = [] → called.arrived = state.arrived) := by
  let calling : SlurpState := { state with handled := state.handled ++ [message] }
  exact @foldl_slurpMessage calling notEmpty slurps

theorem Emits.cons {slurps : List (List SlurpEvent)} {start : Nat} {message : Slurped}
    {rest : List Slurped} {last : SlurpState} (notEmpty : state.slurpQueue ≠ [])
    (complete : state.isComplete message = true)
    (emits : Emits slurps (start + 1) rest (state.onMessage message (slurps.getD start [])) last) :
    Emits slurps start (message :: rest) state last := by
  obtain ⟨-, handled, imagesDone, slurpTimer, length, none⟩ :=
    onMessage_spec notEmpty message (slurps.getD start [])
  have sameImages := isComplete_congr imagesDone
  have grown := emits.length_arrived
  rw [length] at grown
  have isReady : (message :: rest).takeWhile state.isComplete =
      message :: rest.takeWhile state.isComplete := by
    rw [List.takeWhile_cons, if_pos complete]
  refine
    { handled := ?_
      slurpQueue := ?_
      imagesDone := emits.imagesDone.trans imagesDone
      slurpTimer := emits.slurpTimer.trans slurpTimer
      length_arrived := Nat.le_trans (Nat.le_add_right _ _) grown
      arrived_iff := ?_ }
  · rw [emits.handled, handled, sameImages, isReady, List.append_assoc]
    rfl
  · rw [emits.slurpQueue, sameImages, List.dropWhile_cons, if_pos complete]
  · rw [isReady, List.length_cons]
    have later := emits.arrived_iff
    rw [sameImages] at later
    constructor
    · intro same
      have noneHere : slurps.getD start [] = [] := by
        rw [same] at grown
        exact List.length_eq_zero_iff.mp (Nat.le_zero.mp (Nat.le_of_add_le_add_left grown))
      intro i short
      cases i with
      | zero => exact noneHere
      | succ i =>
          rw [Nat.add_comm i, ← Nat.add_assoc]
          exact later.mp (same.trans (none noneHere).symm) i (Nat.lt_of_succ_lt_succ short)
    · intro noneSlurped
      refine Eq.trans (later.mpr fun i short => ?_) (none (noneSlurped 0 (Nat.succ_pos _)))
      rw [Nat.add_assoc, Nat.add_comm 1]
      exact noneSlurped (i + 1) (Nat.succ_lt_succ short)

theorem emitFrom_spec (slurps : List (List SlurpEvent)) {before rest : List Slurped}
    (queued : before ++ rest <+: state.slurpQueue) :
    Emits slurps before.length rest state
      (emitFrom slurps (before.length + rest.length) before.length rest.length state) := by
  induction rest generalizing state before with
  | nil =>
      exact
        { handled := (List.append_nil _).symm
          slurpQueue := rfl
          imagesDone := rfl
          slurpTimer := rfl
          length_arrived := Nat.le_refl _
          arrived_iff := iff_of_true rfl fun i short => absurd short (Nat.not_lt_zero i) }
  | cons message rest ih =>
      obtain ⟨behind, isQueue⟩ := queued
      have next : state.slurpQueue[before.length]? = some message := by
        rw [← isQueue, List.append_assoc, List.getElem?_append_right (Nat.le_refl _), Nat.sub_self]
        rfl
      have notEmpty : state.slurpQueue ≠ [] := by
        intro empty
        rw [empty] at next
        cases next
      rw [List.length_cons, emitFrom, next]
      cases complete : state.isComplete message with
      | false =>
          simp only [complete, Bool.false_eq_true, ↓reduceIte]
          have cut : (state.slurpQueue.take (before.length + (rest.length + 1))).drop before.length =
              message :: rest := by
            rw [← isQueue, List.take_left' (by simp), List.drop_left]
          exact
            { handled := by simp [complete]
              slurpQueue := by simpa [complete] using cut
              imagesDone := rfl
              slurpTimer := rfl
              length_arrived := Nat.le_refl _
              arrived_iff := by simp [complete] }
      | true =>
          simp only [complete, ↓reduceIte]
          refine .cons notEmpty complete ?_
          obtain ⟨queueNext, -⟩ :=
            onMessage_spec notEmpty message (slurps.getD before.length [])
          have stillQueued : (before ++ [message]) ++ rest <+:
              (state.onMessage message (slurps.getD before.length [])).slurpQueue := by
            refine List.IsPrefix.trans ⟨behind, ?_⟩ queueNext
            rw [← isQueue, List.append_assoc before, List.singleton_append]
          have emits := ih stillQueued
          rwa [List.length_append, List.length_singleton, Nat.add_assoc, Nat.add_comm 1] at emits

/-!
## What a step preserves
-/

theorem ready_ne_nil_iff :
    state.ready ≠ [] ↔ ∃ message ∈ state.slurpQueue.head?, state.isComplete message = true := by
  unfold ready
  cases state.slurpQueue with
  | nil => simp
  | cons message rest =>
      cases complete : state.isComplete message with
      | false => simp [complete]
      | true => simp [complete]

/-- A timer that calls back. -/
theorem step_timer (slurps : List (List SlurpEvent)) (pending : state.slurpTimer = true) :
    Emits slurps 0 state.slurpQueue { state with slurpTimer := false }
      (state.step (.timer slurps)) := by
  simp only [step, pending, ↓reduceIte]
  have emits := @emitFrom_spec { state with slurpTimer := false } slurps [] state.slurpQueue
    List.prefix_rfl
  rw [List.length_nil, Nat.zero_add] at emits
  exact emits

/-- Messages that are complete are handled up to the first one that is not. -/
theorem handles (state : SlurpState) (slurps : List (List SlurpEvent)) :
    state.Handles slurps := by
  unfold Handles
  cases pending : state.slurpTimer with
  | false => simp [step, pending]
  | true => exact (step_timer slurps pending).handled

theorem lossless_initial : initial.Lossless where
  inOrder := rfl
  armed := fun isThere => absurd rfl isThere

theorem lossless_message_iff (lossless : state.Lossless) (evt : SlurpEvent) :
    (state.slurpMessage evt).Lossless ↔ evt.extractTextImg ≠ none := by
  obtain ⟨arrived, handled, imagesDone, queue, timer⟩ := slurpMessage_spec state evt
  constructor
  · intro after noImage
    have order := after.inOrder
    rw [handled, queue, if_pos noImage, lossless.inOrder, arrived] at order
    exact List.cons_ne_nil _ _ (List.self_eq_append_right.mp order)
  · intro extracted
    rw [if_neg extracted] at queue
    refine ⟨?_, fun isReady => ?_⟩
    · rw [handled, queue, arrived, ← List.append_assoc, lossless.inOrder]
    · obtain ⟨message, isHead, complete⟩ := ready_ne_nil_iff.mp isReady
      rw [timer]
      cases old : state.slurpQueue with
      | nil => rfl
      | cons first rest =>
          rw [queue, old] at isHead
          cases isHead
          rw [isComplete_congr imagesDone] at complete
          exact lossless.armed (ready_ne_nil_iff.mpr ⟨message, by rw [old]; rfl, complete⟩)

theorem lossless_imageDone (lossless : state.Lossless) (message : Slurped) :
    (state.step (.imageDone message)).Lossless := by
  simp only [step]
  split
  · exact ⟨lossless.inOrder, fun _ => rfl⟩
  · exact lossless

theorem lossless_timer_iff (lossless : state.Lossless) (slurps : List (List SlurpEvent)) :
    (state.step (.timer slurps)).Lossless ↔ state.Allowed (.timer slurps) := by
  cases pending : state.slurpTimer with
  | false =>
      refine iff_of_true ?_ fun isPending => ?_
      · simpa only [step, pending, Bool.false_eq_true, ↓reduceIte] using lossless
      · rw [pending] at isPending
        cases isPending
  | true =>
      have emits := step_timer slurps pending
      have unhandled : (state.step (.timer slurps)).handled ++
          (state.step (.timer slurps)).slurpQueue = state.arrived := by
        rw [emits.handled, emits.slurpQueue, List.append_assoc, List.takeWhile_append_dropWhile]
        exact lossless.inOrder
      have noneReady : (state.step (.timer slurps)).ready = [] := by
        by_contra isReady
        obtain ⟨message, isHead, complete⟩ := ready_ne_nil_iff.mp isReady
        have stopped :=
          List.head?_dropWhile_not { state with slurpTimer := false }.isComplete state.slurpQueue
        rw [emits.slurpQueue] at isHead
        rw [isComplete_congr emits.imagesDone] at complete
        rw [Option.mem_def.mp isHead] at stopped
        exact Bool.false_ne_true (stopped.symm.trans complete)
      have kept : (state.step (.timer slurps)).arrived = state.arrived ↔
          state.Allowed (.timer slurps) := by
        refine emits.arrived_iff.trans ?_
        simp only [Nat.zero_add]
        exact ⟨fun none _ => none, fun none => none pending⟩
      constructor
      · intro after
        exact kept.mp (after.inOrder.symm.trans unhandled)
      · intro allowed
        exact ⟨unhandled.trans (kept.mpr allowed).symm, fun isReady => absurd noneReady isReady⟩

theorem lossless_step_iff (lossless : state.Lossless) (event : SlurpStep) :
    (state.step event).Lossless ↔ state.Allowed event := by
  cases event with
  | message evt => exact lossless_message_iff lossless evt
  | imageDone message => exact iff_of_true (lossless_imageDone lossless message) trivial
  | timer slurps => exact lossless_timer_iff lossless slurps

/-- A run loses nothing exactly if no message is slurped while another one is handled and none
lacks its image; and whatever it loses, only messages with images to come hold up others. -/
theorem lossless_iff (events : List SlurpStep) :
    ((∀ before after, events = before ++ after → (run step initial before).Lossless) ↔
      Permitted step Allowed initial events) ∧
    ∀ before slurps after, events = before ++ .timer slurps :: after →
      (run step initial before).Handles slurps := by
  refine ⟨⟨fun always => ?_, fun permitted => ?_⟩, fun before slurps _ _ => handles _ slurps⟩
  · rw [permitted_iff_forall]
    rintro before event after rfl
    have lossless := always before (event :: after) rfl
    have next := always (before ++ [event]) after (by simp)
    rw [run, List.foldl_append] at next
    exact (lossless_step_iff lossless event).mp next
  · rintro before after rfl
    exact run_invariant Lossless
      (fun state event lossless allowed => (lossless_step_iff lossless event).mpr allowed)
      lossless_initial (permitted_append.mp permitted).1

/-- A message without an image. -/
def plainMessage (text : String) : SlurpEvent := ⟨.browser, .text text.toList⟩

/-- A saved copy is loaded at once, and what was queued for the socket is slurped meanwhile. -/
theorem not_lossless_saveas :
    ¬ (run step initial [.message (plainMessage "saveas: url=copy"),
      .timer [[plainMessage "loolserver"]]]).Lossless := by
  intro lossless
  have order := lossless.inOrder
  revert order
  decide

end SlurpState

end FreeOnline.Browser
