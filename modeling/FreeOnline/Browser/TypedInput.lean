import FreeOnline.Browser.TextInput

/-!
# What is typed, in the kit

What the text input sends waits in a queue of the kit, among what others send, and parts of it are
combined there. The window ends up the same.
-/

set_option autoImplicit false

namespace FreeOnline.Browser

open FreeOnline.Common
open FreeOnline.Library
open HexString
open InputMessage (Combines concerns look)

/-!
## Texts
-/

/-- What the text input makes of a text. -/
def IsEncoded (encoded : Text) : Prop :=
  ∃ text : Text, '\x00' ∉ text ∧ encodeURIComponent (Utf16.encode text) = some encoded

section

variable {text encoded more : Text}

theorem encodeURIComponent_encode (text : Text) :
    encodeURIComponent (Utf16.encode text) =
      some (PercentCoding.encode isUnescaped (Utf8.encode text)) := by
  have isWellFormed : Utf16.isWellFormed (Utf16.encode text) = true :=
    (Utf16.encode_decode_iff _).mp (congrArg Utf16.encode (Utf16.decode_encode text))
  rw [encodeURIComponent, if_pos isWellFormed, encodeBytes, Utf16.decode_encode]

/-- An encoded text has neither blanks nor line breaks. -/
theorem notMem_encoded (isEncoded : IsEncoded encoded) : ' ' ∉ encoded ∧ '\n' ∉ encoded := by
  obtain ⟨text, -, isText⟩ := isEncoded
  rw [encodeURIComponent_encode] at isText
  obtain rfl := Option.some.inj isText
  constructor
  · exact @PercentCoding.notMem_encode isUnescaped ' ' 32 rfl (by decide) (by decide) (by decide) _
  · exact @PercentCoding.notMem_encode isUnescaped '\n' 10 rfl (by decide) (by decide) (by decide) _

@[simp] theorem typed_encoded (isEncoded : IsEncoded encoded) :
    InputMessage.typed encoded = encoded := by
  apply List.takeWhile_eq_self_iff.mpr
  intro ch isThere
  apply decide_eq_true
  intro isNewline
  exact (notMem_encoded isEncoded).2 (isNewline ▸ isThere)

/-- Encoded texts one behind the other are the encoded texts one behind the other. -/
theorem append_encoded (isEncoded : IsEncoded encoded) (isMore : IsEncoded more) :
    IsEncoded (encoded ++ more) ∧
      receivedText (encoded ++ more) = receivedText encoded ++ receivedText more := by
  obtain ⟨text, noNul, isText⟩ := isEncoded
  obtain ⟨other, alsoNoNul, isOther⟩ := isMore
  have noneNul : '\x00' ∉ text ++ other := List.not_mem_append noNul alsoNoNul
  have isBoth : encodeURIComponent (Utf16.encode (text ++ other)) = some (encoded ++ more) := by
    rw [encodeURIComponent_encode] at isText isOther ⊢
    rw [← Option.some.inj isText, ← Option.some.inj isOther, ← PercentCoding.encode_append]
    congr 2
    exact List.flatMap_append
  have isReceived : ∀ {text encoded : Text}, '\x00' ∉ text →
      encodeURIComponent (Utf16.encode text) = some encoded → receivedText encoded = text := by
    intro text encoded noNul isText
    obtain ⟨same, isSame, isReceived⟩ := receivedText_encodeURIComponent noNul
    obtain rfl := Option.some.inj (isText.symm.trans isSame)
    exact isReceived
  refine ⟨⟨text ++ other, noneNul, isBoth⟩, ?_⟩
  rw [isReceived noneNul isBoth, isReceived noNul isText, isReceived alsoNoNul isOther]

end

/-!
## Messages in the kit
-/

/-- What is behind the type of a key. -/
def keyArguments (mode : InputMode) (type : KeyType) (charCode unoKeyCode : Option Nat) : Text :=
  (if mode.editorHasFocus then " type=".toList
    else " id=".toList ++ printInt mode.winId ++ " type=".toList) ++ type.name ++
    " char=".toList ++ printCode charCode ++ " key=".toList ++ printCode unoKeyCode ++ ['\n']

/-- A message of a session, as the kit gets it. -/
def TypedMessage.toInput (mode : InputMode) (session : Text) : TypedMessage → InputMessage
  | .textinput text => .textinput session (printInt mode.winId) text
  | .removetextcontext before after => .removetextcontext session (printInt mode.winId) before after
  | .key type charCode unoKeyCode =>
      .event (if mode.editorHasFocus then .key else .windowkey) session
        (keyArguments mode type charCode unoKeyCode)

/-- What the kit makes of the input of a window, where `act` is what keys and the mouse do. -/
def performInput (act : InputMessage → WindowText → WindowText) (window : WindowText) :
    InputMessage → WindowText
  | .textinput _ _ text => window.insert (receivedText (InputMessage.typed text))
  | .removetextcontext _ _ before after => window.remove before.toNat after.toNat
  | .event type session arguments => act (.event type session arguments) window

/-- A message as the text input sends it. -/
def IsTyped : InputMessage → Prop
  | .textinput _ _ text => IsEncoded text
  | .removetextcontext _ _ before after => 0 ≤ before ∧ 0 ≤ after
  | .event _ _ _ => True

/-- How many characters a message removes. -/
def removedCount : InputMessage → Int
  | .removetextcontext _ _ before after => before + after
  | _ => 0

def removedCounts (messages : List InputMessage) : Int := (messages.map removedCount).sum

section

variable {act : InputMessage → WindowText → WindowText} {mode : InputMode} {session : Text}
  {message queued merged : InputMessage} {given kept messages : List InputMessage}

theorem performInput_toInput (typed : TypedMessage) (isTyped : IsTyped (typed.toInput mode session))
    (window : WindowText) :
    performInput act window (typed.toInput mode session) =
      typed.perform (fun message => act (message.toInput mode session)) window := by
  cases typed with
  | textinput text => exact congrArg (fun text => window.insert (receivedText text)) (typed_encoded isTyped)
  | removetextcontext before after => rfl
  | key type charCode unoKeyCode => rfl

theorem removedCount_nonneg (isTyped : IsTyped message) : 0 ≤ removedCount message := by
  cases message with
  | textinput session id text => exact Int.le_refl 0
  | removetextcontext session id before after => exact Int.add_nonneg isTyped.1 isTyped.2
  | event type session arguments => exact Int.le_refl 0

theorem removedCounts_nonneg (areTyped : ∀ message ∈ messages, IsTyped message) :
    0 ≤ removedCounts messages := by
  induction messages with
  | nil => exact Int.le_refl 0
  | cons message messages ih =>
      rw [List.forall_mem_cons] at areTyped
      have isNonneg := removedCount_nonneg areTyped.1
      exact Int.add_nonneg isNonneg (ih areTyped.2)

theorem removedCounts_append (messages more : List InputMessage) :
    removedCounts (messages ++ more) = removedCounts messages + removedCounts more := by
  rw [removedCounts, List.map_append, List.sum_append]
  rfl

theorem removedCounts_singleton (message : InputMessage) :
    removedCounts [message] = removedCount message := by
  simp [removedCounts]

theorem removedCount_le (areTyped : ∀ message ∈ messages, IsTyped message)
    (isThere : message ∈ messages) : removedCount message ≤ removedCounts messages := by
  obtain ⟨before, behind, rfl⟩ := List.append_of_mem isThere
  rw [List.forall_mem_append, List.forall_mem_cons] at areTyped
  have beforeNonneg := removedCounts_nonneg areTyped.1
  have behindNonneg := removedCounts_nonneg areTyped.2.2
  have isSum : removedCounts (message :: behind) = removedCount message + removedCounts behind := by
    rw [removedCounts, List.map_cons, List.sum_cons]
    rfl
  rw [removedCounts_append, isSum]
  omega

theorem isInput_toInput {typed : TypedMessage} (isSession : IsSession session)
    (isTyped : IsTyped (typed.toInput mode session))
    (fits : removedCount (typed.toInput mode session) ≤ intMax) :
    (typed.toInput mode session).IsInput := by
  have isId : ' ' ∉ printInt mode.winId ∧ '\n' ∉ printInt mode.winId :=
    ⟨notMem_printInt (by decide) (by decide), notMem_printInt (by decide) (by decide)⟩
  cases typed with
  | textinput text => exact ⟨isSession, isId, (notMem_encoded isTyped).1⟩
  | removetextcontext before after =>
      obtain ⟨beforeNonneg, afterNonneg⟩ := isTyped
      simp only [TypedMessage.toInput, removedCount] at fits
      have isLow : -intMax - 1 ≤ 0 := by decide
      exact ⟨isSession, isId, ⟨by omega, by omega⟩, by omega, by omega⟩
  | key type charCode unoKeyCode =>
      refine ⟨isSession, .inr ?_⟩
      unfold keyArguments
      cases mode.editorHasFocus with
      | true => rfl
      | false => rfl

/-- Two messages that are combined do as one what they do, where the counts are an int. -/
theorem typed_of_combines (combines : Combines message queued merged) (queuedTyped : IsTyped queued)
    (isTyped : IsTyped message) (fits : removedCount queued + removedCount message ≤ intMax) :
    IsTyped merged ∧ removedCount merged = removedCount queued + removedCount message ∧
      ∀ window, performInput act window merged =
        performInput act (performInput act window queued) message := by
  cases combines with
  | textinput session id text queuedText =>
      obtain ⟨isEncoded, isReceived⟩ := append_encoded queuedTyped isTyped
      have isMerged : InputMessage.typed queuedText ++ InputMessage.typed text =
          queuedText ++ text := by
        rw [typed_encoded queuedTyped, typed_encoded isTyped]
      rw [isMerged]
      refine ⟨isEncoded, rfl, fun window => ?_⟩
      simp only [performInput]
      rw [typed_encoded isEncoded, typed_encoded queuedTyped, typed_encoded isTyped, isReceived,
        WindowText.insert_insert]
  | removetextcontext session id before after queuedBefore queuedAfter =>
      obtain ⟨beforeNonneg, afterNonneg⟩ := isTyped
      obtain ⟨queuedBeforeNonneg, queuedAfterNonneg⟩ := queuedTyped
      simp only [removedCount] at fits
      have isBefore : toInt32 (queuedBefore + before) = queuedBefore + before :=
        toInt32_of_fits ⟨by unfold intMax; omega, by omega⟩
      have isAfter : toInt32 (queuedAfter + after) = queuedAfter + after :=
        toInt32_of_fits ⟨by unfold intMax; omega, by omega⟩
      rw [isBefore, isAfter]
      refine ⟨⟨by omega, by omega⟩, by simp only [removedCount]; omega, fun window => ?_⟩
      simp only [performInput]
      rw [WindowText.remove_remove, Int.toNat_add queuedBeforeNonneg beforeNonneg,
        Int.toNat_add queuedAfterNonneg afterNonneg]

/-- What is left after some neighbours were combined does what all did. -/
theorem merged_foldl
    (merges : Merges (fun queued message merged => Combines message queued merged) given kept)
    (areTyped : ∀ message ∈ given, IsTyped message) (fits : removedCounts given ≤ intMax) :
    (∀ message ∈ kept, IsTyped message) ∧ removedCounts kept = removedCounts given ∧
      ∀ window, kept.foldl (performInput act) window = given.foldl (performInput act) window := by
  induction merges with
  | nil => exact ⟨areTyped, rfl, fun _ => rfl⟩
  | @keep given kept entry merges ih =>
      rw [List.forall_mem_append, List.forall_mem_singleton] at areTyped
      have isNonneg := removedCount_nonneg areTyped.2
      rw [removedCounts_append, removedCounts_singleton] at fits
      obtain ⟨keptTyped, sameCounts, sameWindow⟩ := ih areTyped.1 (by omega)
      refine ⟨?_, ?_, fun window => ?_⟩
      · rw [List.forall_mem_append, List.forall_mem_singleton]
        exact ⟨keptTyped, areTyped.2⟩
      · rw [removedCounts_append, removedCounts_append, sameCounts]
      · rw [List.foldl_append, List.foldl_append, sameWindow]
  | @join given kept last entry joined merges combines ih =>
      rw [List.forall_mem_append, List.forall_mem_singleton] at areTyped
      have isNonneg := removedCount_nonneg areTyped.2
      rw [removedCounts_append, removedCounts_singleton] at fits
      obtain ⟨keptTyped, sameCounts, sameWindow⟩ := ih areTyped.1 (by omega)
      rw [List.forall_mem_append, List.forall_mem_singleton] at keptTyped
      have keptNonneg := removedCounts_nonneg keptTyped.1
      rw [removedCounts_append, removedCounts_singleton] at sameCounts
      obtain ⟨joinedTyped, joinedCount, joinedWindow⟩ :=
        @typed_of_combines act _ _ _ combines keptTyped.2 areTyped.2 (by omega)
      refine ⟨?_, ?_, fun window => ?_⟩
      · rw [List.forall_mem_append, List.forall_mem_singleton]
        exact ⟨keptTyped.1, joinedTyped⟩
      · rw [removedCounts_append, removedCounts_append, removedCounts_singleton,
          removedCounts_singleton, joinedCount, ← sameCounts, Int.add_assoc]
      · have same := sameWindow window
        rw [List.foldl_append, List.foldl_cons, List.foldl_nil] at same
        rw [List.foldl_append, List.foldl_append, ← same]
        exact joinedWindow _

end

/-!
## What is sent
-/

section

variable {mode : InputMode} {state : TextInput} {session : Text} {text : JsString}
  {message : TypedMessage}

theorem typed_sendCompositionEvent (noZero : 0 ∉ text)
    (isSent : message ∈ sendCompositionEvent mode text) : IsTyped (message.toInput mode session) := by
  unfold sendCompositionEvent at isSent
  split at isSent
  next =>
    rw [List.mem_cons, List.mem_singleton] at isSent
    cases isSent with
    | inl isKey =>
        rw [isKey]
        trivial
    | inr isKey =>
        rw [isKey]
        trivial
  next =>
    obtain ⟨encoded, isEncoded, rfl⟩ := Option.map_eq_some_iff.mp (Option.mem_toList.mp isSent)
    have isWellFormed : Utf16.isWellFormed text = true := by
      by_contra isBroken
      rw [encodeURIComponent, if_neg isBroken] at isEncoded
      cases isEncoded
    have isText := (Utf16.encode_decode_iff text).mpr isWellFormed
    refine ⟨Utf16.decode text, ?_, by rw [isText]; exact isEncoded⟩
    intro isNul
    apply noZero
    rw [← isText]
    exact List.mem_flatMap.mpr ⟨'\x00', isNul, by decide⟩

theorem typed_sendParts {parts : List JsString} (noZero : ∀ part ∈ parts, 0 ∉ part)
    (isSent : message ∈ sendParts mode parts) : IsTyped (message.toInput mode session) := by
  have isPart : ∀ part ∈ parts, message ∈ (if part = [] then [] else sendCompositionEvent mode part) →
      IsTyped (message.toInput mode session) := by
    intro part isThere isSent
    split at isSent
    next => exact absurd isSent List.not_mem_nil
    next => exact typed_sendCompositionEvent (noZero part isThere) isSent
  cases parts with
  | nil => exact absurd isSent List.not_mem_nil
  | cons part parts =>
      cases List.mem_append.mp isSent with
      | inl isFirst => exact isPart part List.mem_cons_self isFirst
      | inr isLater =>
          obtain ⟨later, isThere, isSent⟩ := List.mem_flatMap.mp isLater
          cases List.mem_cons.mp isSent with
          | inl isKey =>
              rw [isKey]
              trivial
          | inr isSent => exact isPart later (List.mem_cons_of_mem _ isThere) isSent

theorem typed_sendNewlineEvent (isSent : message ∈ state.sendNewlineEvent.1) :
    IsTyped (message.toInput mode session) := by
  rw [List.mem_singleton.mp isSent]
  trivial

theorem typed_sendText (noZero : 0 ∉ text) (isSent : message ∈ (state.sendText mode text).1) :
    IsTyped (message.toInput mode session) := by
  unfold TextInput.sendText at isSent
  split at isSent
  next => exact typed_sendNewlineEvent isSent
  next =>
    apply typed_sendParts _ isSent
    intro part isPart isZero
    exact noZero (mem_of_mem_splitOnP isPart isZero)

theorem typed_sendNew {newText content : List Nat} (noZero : 0 ∉ codePointsToString newText)
    (inputType : Option InputType)
    (isSent : message ∈ (state.sendNew mode inputType content newText).1) :
    IsTyped (message.toInput mode session) := by
  unfold TextInput.sendNew at isSent
  split at isSent
  next => exact absurd isSent List.not_mem_nil
  next =>
    split at isSent
    next =>
      rw [List.mem_singleton.mp isSent]
      trivial
    next => exact typed_sendText noZero isSent
  next => exact typed_sendText noZero isSent

theorem zero_notMem_encode {text : Text} (noNul : '\x00' ∉ text) : 0 ∉ Utf16.encode text := by
  intro isZero
  have positive : ∀ ch ∈ Utf16.decode (Utf16.encode text), 1 ≤ ch.toNat := by
    intro ch isChar
    rw [Utf16.decode_encode] at isChar
    apply Nat.one_le_iff_ne_zero.mpr
    intro isNul
    have same : ch = '\x00' := Char.toNat_inj.mp isNul
    exact noNul (same ▸ isChar)
  have units := (Utf16.forall_le_decode_iff (by decide) (Utf16.encode text)).mp positive 0 isZero
  exact absurd units (by decide)

theorem typed_compare {text : Text} (noNul : '\x00' ∉ text) (inputType : Option InputType)
    (isSent : message ∈ (state.compare mode inputType (text.map Char.toNat)).1) :
    IsTyped (message.toInput mode session) := by
  have within := matchTo_le (text.map Char.toNat) state.lastContent
  have alsoWithin : matchTo (text.map Char.toNat) state.lastContent ≤ (text.map Char.toNat).length := by
    have same := congrArg List.length (matchTo_take (text.map Char.toNat) state.lastContent)
    rw [List.length_take, List.length_take] at same
    omega
  unfold TextInput.compare at isSent
  dsimp only at isSent
  revert within alsoWithin isSent
  generalize matchTo (text.map Char.toNat) state.lastContent = shared
  intro isSent within alsoWithin
  cases List.mem_append.mp isSent with
  | inl isRemoval =>
      have isSame : ∀ {condition : Prop} [Decidable condition] {removal : TypedMessage},
          message ∈ (if condition then [removal] else []) → message = removal := by
        intro condition _ removal isThere
        split at isThere
        next => exact List.mem_singleton.mp isThere
        next => exact absurd isThere List.not_mem_nil
      rw [isSame isRemoval]
      refine ⟨?_, ?_⟩
      · split
        next isDelete =>
          rw [Bool.and_eq_true, decide_eq_true_eq] at isDelete
          omega
        next => omega
      · split
        next => decide
        next => exact Int.le_refl 0
  | inr isInserted =>
      apply typed_sendNew _ inputType isInserted
      rw [← List.map_drop, codePointsToString_map]
      exact zero_notMem_encode fun isThere => noNul (List.mem_of_mem_drop isThere)

theorem typed_onInput {event : InputEvent} {text : Text} (isValue : event.value = Utf16.encode text)
    (noNul : '\x00' ∉ text) (isSent : message ∈ (state.onInput mode event).1) :
    IsTyped (message.toInput mode session) := by
  unfold TextInput.onInput at isSent
  dsimp only at isSent
  split at isSent
  next => exact typed_sendNewlineEvent isSent
  next =>
    split at isSent
    next =>
      split at isSent
      next => exact absurd isSent List.not_mem_nil
      next =>
        rw [List.mem_singleton.mp isSent]
        exact ⟨by decide, by decide⟩
    next =>
      split at isSent
      next =>
        rw [List.mem_singleton.mp isSent]
        exact ⟨by decide, by decide⟩
      next =>
        rw [isValue, getValueAsCodePoints_encode] at isSent
        exact typed_compare noNul event.inputType isSent

theorem typed_handle {typing : Typing} {event : TypeEvent} (isAllowed : typing.Allowed mode event)
    (isSent : message ∈ (typing.input.handle mode event).1) :
    IsTyped (message.toInput mode session) := by
  cases event with
  | keyDown keyCode shiftKey => exact absurd isSent List.not_mem_nil
  | keyUp isNavigation => exact absurd isSent List.not_mem_nil
  | compositionStart => exact absurd isSent List.not_mem_nil
  | abortComposition => exact absurd isSent List.not_mem_nil
  | beforeInput selection inputType =>
      unfold TextInput.handle TextInput.onBeforeInput at isSent
      dsimp only at isSent
      split at isSent
      next => exact absurd isSent List.not_mem_nil
      next =>
        split at isSent
        next => exact absurd isSent List.not_mem_nil
        next =>
          split at isSent
          next => exact absurd isSent List.not_mem_nil
          next =>
            split at isSent
            next =>
              rw [List.mem_singleton.mp isSent]
              exact ⟨by decide, by decide⟩
            next => exact absurd isSent List.not_mem_nil
  | compositionEnd endsLine event =>
      obtain ⟨text, isValue, noNul, -⟩ := isAllowed
      exact typed_onInput isValue noNul isSent
  | input event =>
      obtain ⟨text, isValue, noNul, -⟩ := isAllowed
      exact typed_onInput isValue noNul isSent

end

/-!
## Through the queue
-/

namespace TextInput

/-- What is sent in the course of the events. -/
def sent (mode : InputMode) (state : TextInput) : List TypeEvent → List TypedMessage
  | [] => []
  | event :: events =>
      (state.handle mode event).1 ++ (state.handle mode event).2.sent mode events

end TextInput

namespace Typing

variable {act : InputMessage → WindowText → WindowText} {mode : InputMode} {session : Text}
  {typing : Typing} {events : List TypeEvent} {queued : List (QueueEvent InputMessage)}

theorem run_window (act : TypedMessage → WindowText → WindowText) (mode : InputMode)
    (events : List TypeEvent) (typing : Typing) :
    (run (step mode act) typing events).window =
      performAll act typing.window (typing.input.sent mode events) := by
  induction events generalizing typing with
  | nil => rfl
  | cons event events ih =>
      have isLater := ih (typing.step mode act event)
      rw [performAll, TextInput.sent, List.foldl_append]
      exact isLater

theorem typed_sent {act : TypedMessage → WindowText → WindowText}
    (permitted : Permitted (step mode act) (Allowed mode) typing events) :
    ∀ message ∈ typing.input.sent mode events, IsTyped (message.toInput mode session) := by
  induction events generalizing typing with
  | nil => exact fun _ isSent => absurd isSent List.not_mem_nil
  | cons event events ih =>
      intro message isSent
      cases List.mem_append.mp isSent with
      | inl isFirst => exact typed_handle permitted.1 isFirst
      | inr isLater => exact ih permitted.2 message isLater

theorem foldl_toInput {messages : List TypedMessage}
    (areTyped : ∀ message ∈ messages, IsTyped (message.toInput mode session)) (window : WindowText) :
    (messages.map (·.toInput mode session)).foldl (performInput act) window =
      performAll (fun message => act (message.toInput mode session)) window messages := by
  induction messages generalizing window with
  | nil => rfl
  | cons message messages ih =>
      rw [List.forall_mem_cons] at areTyped
      rw [List.map_cons, List.foldl_cons, ih areTyped.2, performInput_toInput message areTyped.1]
      rfl

/-- However the messages of the text input get in between those of others, and whatever of them is
combined before the kit takes it, the kit makes of the window what they make of it one by one. -/
theorem run_queued (isSession : IsSession session) (window : WindowText)
    (permitted : Permitted (step mode fun message => act (message.toInput mode session))
      (Allowed mode) ⟨.start, window⟩ events)
    (isSent : (queued.filterMap QueueEvent.entry?).filter (concerns session (printInt mode.winId)) =
      (TextInput.start.sent mode events).map (·.toInput mode session))
    (others : ∀ message, .put message ∈ queued →
      concerns session (printInt mode.winId) message = false → message.IsInput)
    (fits : removedCounts ((TextInput.start.sent mode events).map (·.toInput mode session)) ≤ intMax) :
    ∃ state : MergingQueue InputMessage,
      run MessageQueue.step .empty (queued.map (QueueEvent.map InputMessage.print)) =
          state.map InputMessage.print ∧
        ((state.taken ++ state.queue).filter (concerns session (printInt mode.winId))).foldl
            (performInput act) window =
          (run (step mode fun message => act (message.toInput mode session)) ⟨.start, window⟩
            events).window := by
  have areSent := @typed_sent mode session _ _ _ permitted
  have areTyped : ∀ message ∈ (TextInput.start.sent mode events).map (·.toInput mode session),
      IsTyped message := by
    intro message isThere
    obtain ⟨typed, isTyped, rfl⟩ := List.mem_map.mp isThere
    exact areSent typed isTyped
  have areInputs : AreInputs queued := by
    intro message isPut
    cases isConcerned : concerns session (printInt mode.winId) message with
    | false => exact others message isPut isConcerned
    | true =>
        have isThere : message ∈ (TextInput.start.sent mode events).map (·.toInput mode session) := by
          rw [← isSent, List.mem_filter]
          exact ⟨List.mem_filterMap.mpr ⟨_, isPut, rfl⟩, isConcerned⟩
        have isSmall := removedCount_le areTyped isThere
        obtain ⟨typed, isTyped, rfl⟩ := List.mem_map.mp isThere
        exact isInput_toInput isSession (areSent typed isTyped) (isSmall.trans fits)
  have joinable : Permitted (MergingQueue.step look) (MergingQueue.Joinable look
      fun queued message merged => Combines message queued merged) .empty queued := by
    apply permitted_of_forall
    intro state event
    cases event with
    | get => trivial
    | put message =>
        intro earlier queued later merged _ _ isFound
        exact InputMessage.combines_of_found isFound
  refine ⟨run (MergingQueue.step look) .empty queued, ?_, ?_⟩
  · exact @MessageQueue.run_print queued areInputs .empty (by simp [MergingQueue.empty])
  · have merges := MergingQueue.merges_run
      (InputMessage.separates_look session (printInt mode.winId)) joinable
    rw [MergingQueue.given_run, isSent] at merges
    obtain ⟨-, -, sameWindow⟩ := @merged_foldl act _ _ merges areTyped fits
    rw [sameWindow, foldl_toInput areSent, run_window]

/-- Characters in two steps, of which most are deleted. -/
def typedTwice : List TypeEvent := [.input (typed "abc"), .input (typed "abcdef"), .input (typed "a")]

/-- Someone else deletes a character in between, and the two steps are joined. -/
def amongOthers : List (QueueEvent InputMessage) :=
  [.put (.textinput "child-1".toList "0".toList "abc".toList),
    .put (.removetextcontext "child-2".toList "0".toList 1 0),
    .put (.textinput "child-1".toList "0".toList "def".toList), .get,
    .put (.removetextcontext "child-1".toList "0".toList 5 0)]

theorem run_queued_typedTwice :
    (run MessageQueue.step .empty
        ((amongOthers.take 3).map (QueueEvent.map InputMessage.print))).queue.length = 2 ∧
    ∃ state : MergingQueue InputMessage,
      run MessageQueue.step .empty (amongOthers.map (QueueEvent.map InputMessage.print)) =
          state.map InputMessage.print ∧
        ((state.taken ++ state.queue).filter (concerns "child-1".toList (printInt 0))).foldl
            (performInput fun _ => id) ⟨[], []⟩ =
          (run (step desktop fun _ => id) ⟨.start, ⟨[], []⟩⟩ typedTwice).window := by
  have isSession : IsSession "child-1".toList :=
    ⟨⟨by decide, by decide, by decide⟩, by decide, by decide⟩
  have otherSession : IsSession "child-2".toList :=
    ⟨⟨by decide, by decide, by decide⟩, by decide, by decide⟩
  refine ⟨by decide +kernel, @run_queued (fun _ => id) desktop _ typedTwice amongOthers isSession
    ⟨[], []⟩ ?_ (by decide +kernel) ?_ (by decide +kernel)⟩
  · exact ⟨⟨"abc".toList, rfl, by decide, fun isInherited => absurd isInherited.2 (by decide)⟩,
      ⟨"abcdef".toList, rfl, by decide, fun isInherited => absurd isInherited.2 (by decide)⟩,
      ⟨"a".toList, rfl, by decide, fun isInherited => absurd isInherited.2 (by decide)⟩, trivial⟩
  · intro message isPut notConcerned
    simp only [amongOthers, List.mem_cons, QueueEvent.put.injEq, reduceCtorEq, List.not_mem_nil,
      or_false, false_or] at isPut
    obtain rfl | rfl | rfl | rfl := isPut
    · exact absurd notConcerned (by decide)
    · exact ⟨otherSession, by decide, by decide, by decide⟩
    · exact absurd notConcerned (by decide)
    · exact absurd notConcerned (by decide)

end Typing

end FreeOnline.Browser
