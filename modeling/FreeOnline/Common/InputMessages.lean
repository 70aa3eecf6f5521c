import Mathlib.Data.List.TakeWhile
import FreeOnline.Common.MessageQueue

/-!
# What is typed

The messages of the input of a window, and what the queue makes of them: nothing is combined
across other input of the same window, and the window's text ends up the same.
-/

set_option autoImplicit false

namespace FreeOnline.Common

open FreeOnline.Library

/-!
## Messages
-/

inductive InputEventType where
  | key
  | mouse
  | windowkey
deriving DecidableEq

def InputEventType.name : InputEventType → Text
  | .key => "key".toList
  | .mouse => "mouse".toList
  | .windowkey => "windowkey".toList

inductive InputMessage where
  | textinput (session id text : Text)
  | removetextcontext (session id : Text) (before after : Int)
  | event (type : InputEventType) (session arguments : Text)
deriving DecidableEq

namespace InputMessage

def session : InputMessage → Text
  | .textinput session _ _ => session
  | .removetextcontext session _ _ _ => session
  | .event _ session _ => session

def print : InputMessage → Payload
  | .textinput session id text =>
      session ++ " textinput id=".toList ++ id ++ " text=".toList ++ text
  | .removetextcontext session id before after =>
      session ++ " removetextcontext id=".toList ++ id ++ " before=".toList ++ printInt before ++
        " after=".toList ++ printInt after
  | .event type session arguments => session ++ ' ' :: type.name ++ arguments

/-- A message ends with its line. -/
def typed (text : Text) : Text :=
  text.takeWhile (· ≠ '\n')

end InputMessage

/-- The session in front of a message. -/
structure IsSession (session : Text) : Prop where
  isWord : IsWord ' ' session
  noEquals : '=' ∉ session
  noNul : session.head? ≠ some '\x00'

/-- The messages as the clients send them. -/
def InputMessage.IsInput : InputMessage → Prop
  | .textinput session id text =>
      IsSession session ∧ (' ' ∉ id ∧ '\n' ∉ id) ∧ ' ' ∉ text
  | .removetextcontext session id before after =>
      IsSession session ∧ (' ' ∉ id ∧ '\n' ∉ id) ∧
        (-intMax - 1 ≤ before ∧ before ≤ intMax) ∧ (-intMax - 1 ≤ after ∧ after ≤ intMax)
  | .event _ session arguments =>
      IsSession session ∧ (arguments = [] ∨ arguments.head? = some ' ')

/-!
## Combining messages
-/

namespace InputMessage

def lookTextInput (session id text : Text) (queued : InputMessage) : Look InputMessage :=
  if queued.session ≠ session then .passed
  else
    match queued with
    | .textinput _ queuedId queuedText =>
        if queuedId = id then .found (.textinput session id (typed queuedText ++ typed text))
        else .passed
    | _ => .barred

def lookRemoveText (session id : Text) (before after : Int) (queued : InputMessage) :
    Look InputMessage :=
  if queued.session ≠ session then .passed
  else
    match queued with
    | .removetextcontext _ queuedId queuedBefore queuedAfter =>
        if queuedId = id then
          .found (.removetextcontext session id (toInt32 (queuedBefore + before))
            (toInt32 (queuedAfter + after)))
        else .passed
    | _ => .barred

/-- What a new message makes of a queued one. -/
def look : InputMessage → InputMessage → Look InputMessage
  | .textinput session id text, queued => lookTextInput session id text queued
  | .removetextcontext session id before after, queued =>
      lookRemoveText session id before after queued
  | .event _ _ _, _ => .barred

/-- What a message is combined with, and the combined one. -/
inductive Combines : InputMessage → InputMessage → InputMessage → Prop
  | textinput (session id text queuedText : Text) :
      Combines (.textinput session id text) (.textinput session id queuedText)
        (.textinput session id (typed queuedText ++ typed text))
  | removetextcontext (session id : Text) (before after queuedBefore queuedAfter : Int) :
      Combines (.removetextcontext session id before after)
        (.removetextcontext session id queuedBefore queuedAfter)
        (.removetextcontext session id (toInt32 (queuedBefore + before))
          (toInt32 (queuedAfter + after)))

theorem combines_of_found {message queued merged : InputMessage}
    (isFound : look message queued = .found merged) : Combines message queued merged := by
  cases message with
  | textinput session id text =>
      change lookTextInput session id text queued = .found merged at isFound
      unfold lookTextInput at isFound
      split at isFound
      · cases isFound
      · next sameSession =>
          cases queued with
          | textinput queuedSession queuedId queuedText =>
              cases not_not.mp sameSession
              dsimp only at isFound
              split at isFound
              · next sameId =>
                  cases isFound
                  cases sameId
                  exact .textinput _ _ _ _
              · cases isFound
          | removetextcontext => cases isFound
          | event => cases isFound
  | removetextcontext session id before after =>
      change lookRemoveText session id before after queued = .found merged at isFound
      unfold lookRemoveText at isFound
      split at isFound
      · cases isFound
      · next sameSession =>
          cases queued with
          | removetextcontext queuedSession queuedId queuedBefore queuedAfter =>
              cases not_not.mp sameSession
              dsimp only at isFound
              split at isFound
              · next sameId =>
                  cases isFound
                  cases sameId
                  exact .removetextcontext _ _ _ _ _ _
              · cases isFound
          | textinput => cases isFound
          | event => cases isFound
  | event => cases isFound

/-- Only messages for other windows are passed. -/
theorem window_ne_of_passed {message queued : InputMessage} (isPassed : look message queued = .passed) :
    queued.session ≠ message.session ∨
      (∃ session id text otherId other, message = .textinput session id text ∧
        queued = .textinput session otherId other ∧ otherId ≠ id) ∨
      ∃ session id before after otherId otherBefore otherAfter,
        message = .removetextcontext session id before after ∧
        queued = .removetextcontext session otherId otherBefore otherAfter ∧ otherId ≠ id := by
  cases message with
  | textinput session id text =>
      change lookTextInput session id text queued = .passed at isPassed
      unfold lookTextInput at isPassed
      split at isPassed
      · next otherSession => exact .inl otherSession
      · next sameSession =>
          cases queued with
          | textinput queuedSession queuedId queuedText =>
              cases not_not.mp sameSession
              dsimp only at isPassed
              split at isPassed
              · cases isPassed
              · next otherId => exact .inr (.inl ⟨_, _, _, _, _, rfl, rfl, otherId⟩)
          | removetextcontext => cases isPassed
          | event => cases isPassed
  | removetextcontext session id before after =>
      change lookRemoveText session id before after queued = .passed at isPassed
      unfold lookRemoveText at isPassed
      split at isPassed
      · next otherSession => exact .inl otherSession
      · next sameSession =>
          cases queued with
          | removetextcontext queuedSession queuedId queuedBefore queuedAfter =>
              cases not_not.mp sameSession
              dsimp only at isPassed
              split at isPassed
              · cases isPassed
              · next otherId => exact .inr (.inr ⟨_, _, _, _, _, _, _, rfl, rfl, otherId⟩)
          | textinput => cases isPassed
          | event => cases isPassed
  | event => cases isPassed

end InputMessage

/-!
## Tokens of the messages
-/

namespace InputMessage

variable {session id text arguments : Text}

private theorem tokenize_session (isSession : IsSession session) (rest : Text) :
    tokenize (session ++ ' ' :: rest) ' ' = session :: tokenizeFrom ' ' [' '] rest := by
  have head : (session ++ ' ' :: rest).head? ≠ some '\x00' := by
    rw [List.head?_append_of_ne_nil _ isSession.isWord.notNil]
    exact isSession.noNul
  unfold tokenize
  rw [if_neg head, tokenizeFrom_begin isSession.isWord,
    tokenizeFrom_word_delimiter isSession.isWord (by decide)]

theorem typed_append (text : Text) :
    ∃ rest, text = typed text ++ rest ∧ (rest = [] ∨ rest.head? = some '\n') := by
  refine ⟨text.dropWhile (· ≠ '\n'), List.takeWhile_append_dropWhile.symm, ?_⟩
  cases isRest : text.dropWhile (· ≠ '\n') with
  | nil => exact .inl rfl
  | cons ch rest =>
      have stopped := List.head?_dropWhile_not (fun ch => decide (ch ≠ '\n')) text
      rw [isRest] at stopped
      simpa using stopped

theorem notMem_typed (noSpace : ' ' ∉ text) : ' ' ∉ typed text ∧ '\n' ∉ typed text := by
  refine ⟨fun member => noSpace ((List.takeWhile_prefix _).subset member), fun member => ?_⟩
  simpa using List.mem_takeWhile_imp member

theorem tokenize_textinput (isSession : IsSession session) (isId : ' ' ∉ id ∧ '\n' ∉ id)
    (noSpace : ' ' ∉ text) :
    tokenize (print (.textinput session id text)) ' ' =
      [session, "textinput".toList, nameValue "id".toList id,
        nameValue "text".toList (typed text)] := by
  obtain ⟨rest, isText, endsLine⟩ := typed_append text
  have printed : print (.textinput session id text) = session ++ ' ' :: ("textinput".toList ++
      ([nameValue "id".toList id, nameValue "text".toList (typed text)].flatMap (' ' :: ·) ++
        rest)) := by
    rw [print]
    nth_rewrite 1 [isText]
    simp [nameValue]
  have isWord : IsWord ' ' "textinput".toList := ⟨by decide, by decide, by decide⟩
  rw [printed, tokenize_session isSession, tokenizeFrom_delimiter isWord,
    tokenizeFrom_line _ isWord (by decide) endsLine]
  simp only [List.forall_mem_cons, List.not_mem_nil, false_implies, implies_true, and_true]
  exact ⟨isWord_nameValue (by decide) (by decide) isId, isWord_nameValue (by decide) (by decide) (notMem_typed noSpace)⟩

theorem tokenize_removetextcontext (isSession : IsSession session) (isId : ' ' ∉ id ∧ '\n' ∉ id)
    (before after : Int) :
    tokenize (print (.removetextcontext session id before after)) ' ' =
      [session, "removetextcontext".toList, nameValue "id".toList id,
        nameValue "before".toList (printInt before), nameValue "after".toList (printInt after)] := by
  have printed : print (.removetextcontext session id before after) =
      session ++ ' ' :: ("removetextcontext".toList ++ [nameValue "id".toList id,
        nameValue "before".toList (printInt before),
        nameValue "after".toList (printInt after)].flatMap (' ' :: ·)) := by
    simp [print, nameValue]
  have isWord : IsWord ' ' "removetextcontext".toList := ⟨by decide, by decide, by decide⟩
  have number (n : Int) : ' ' ∉ printInt n ∧ '\n' ∉ printInt n :=
    ⟨notMem_printInt (by decide) (by decide), notMem_printInt (by decide) (by decide)⟩
  rw [printed, tokenize_session isSession, tokenizeFrom_delimiter isWord,
    tokenizeFrom_words _ isWord (by decide)]
  simp only [List.forall_mem_cons, List.not_mem_nil, false_implies, implies_true, and_true]
  exact ⟨isWord_nameValue (by decide) (by decide) isId, isWord_nameValue (by decide) (by decide) (number before),
    isWord_nameValue (by decide) (by decide) (number after)⟩

theorem tokenize_event (type : InputEventType) (isSession : IsSession session)
    (isRest : arguments = [] ∨ arguments.head? = some ' ') :
    ∃ others, tokenize (print (.event type session arguments)) ' ' =
      session :: type.name :: others := by
  have isWord : IsWord ' ' type.name := by
    cases type with
    | key => exact ⟨by decide, by decide, by decide⟩
    | mouse => exact ⟨by decide, by decide, by decide⟩
    | windowkey => exact ⟨by decide, by decide, by decide⟩
  have printed : print (.event type session arguments) =
      session ++ ' ' :: (type.name ++ arguments) := by
    simp [print]
  rw [printed, tokenize_session isSession, tokenizeFrom_delimiter isWord]
  rcases isRest with rfl | isSpace
  · exact ⟨[], by rw [tokenizeFrom_word isWord]⟩
  · obtain ⟨later, rfl⟩ := List.head?_eq_some_iff.mp isSpace
    exact ⟨_, by rw [tokenizeFrom_word_delimiter isWord (by decide)]⟩

/-!
## What the queue reads of its messages
-/

theorem getTokensString_textinput (isSession : IsSession session) :
    getTokensString [session, "textinput".toList, nameValue "id".toList id,
        nameValue "text".toList text] "id".toList = some id ∧
      getTokensString [session, "textinput".toList, nameValue "id".toList id,
        nameValue "text".toList text] "text".toList = some text := by
  have noSession := getTokenString_of_notMem isSession.noEquals
  have noType := @getTokenString_of_notMem "textinput".toList (by decide)
  have isId := @getTokenString_nameValue "id".toList "id".toList id (by decide) (by decide)
  have notId := @getTokenString_nameValue "id".toList "text".toList id (by decide) (by decide)
  have isText := @getTokenString_nameValue "text".toList "text".toList text (by decide) (by decide)
  rw [if_pos rfl] at isId isText
  rw [if_neg (by decide)] at notId
  unfold getTokensString
  constructor
  · rw [List.findSome?_cons, noSession, List.findSome?_cons, noType, List.findSome?_cons, isId]
  · rw [List.findSome?_cons, noSession, List.findSome?_cons, noType, List.findSome?_cons, notId,
      List.findSome?_cons, isText]

/-- The tokens of a removal. -/
def removalTokens (session id : Text) (before after : Int) : List Text :=
  [session, "removetextcontext".toList, nameValue "id".toList id,
    nameValue "before".toList (printInt before), nameValue "after".toList (printInt after)]

theorem getTokens_removal (isSession : IsSession session) {before after : Int}
    (beforeFits : -intMax - 1 ≤ before ∧ before ≤ intMax)
    (afterFits : -intMax - 1 ≤ after ∧ after ≤ intMax) :
    getTokensString (removalTokens session id before after) "id".toList = some id ∧
      getTokensInteger (removalTokens session id before after) "before".toList = some before ∧
      getTokensInteger (removalTokens session id before after) "after".toList = some after := by
  have noSession := getTokenString_of_notMem isSession.noEquals
  have noType := @getTokenString_of_notMem "removetextcontext".toList (by decide)
  have isId := @getTokenString_nameValue "id".toList "id".toList id (by decide) (by decide)
  rw [if_pos rfl] at isId
  have noSessionInteger := getTokenInteger_of_notMem isSession.noEquals
  have noTypeInteger := @getTokenInteger_of_notMem "removetextcontext".toList (by decide)
  have notBefore := @getTokenInteger_of_ne "id".toList "before".toList id (by decide) (by decide)
    (by decide)
  have notAfter := @getTokenInteger_of_ne "id".toList "after".toList id (by decide) (by decide)
    (by decide)
  have beforeNotAfter := @getTokenInteger_of_ne "before".toList "after".toList (printInt before)
    (by decide) (by decide) (by decide)
  have isBefore := @getTokenInteger_printInt "before".toList (by decide) before beforeFits
  have isAfter := @getTokenInteger_printInt "after".toList (by decide) after afterFits
  unfold getTokensString getTokensInteger removalTokens
  refine ⟨?_, ?_, ?_⟩
  · rw [List.findSome?_cons, noSession, List.findSome?_cons, noType, List.findSome?_cons, isId]
  · rw [List.findSome?_cons, noSessionInteger, List.findSome?_cons, noTypeInteger,
      List.findSome?_cons, notBefore, List.findSome?_cons, isBefore]
  · rw [List.findSome?_cons, noSessionInteger, List.findSome?_cons, noTypeInteger,
      List.findSome?_cons, notAfter, List.findSome?_cons, beforeNotAfter, List.findSome?_cons,
      isAfter]

theorem getTokenStringFromMessage_removal (isSession : IsSession session)
    (isId : ' ' ∉ id ∧ '\n' ∉ id) (before after : Int) :
    getTokenStringFromMessage (print (.removetextcontext session id before after)) "id".toList =
      some id := by
  have noToken {word : Text} (noEquals : '=' ∉ word) : ¬"id".toList ++ ['='] <+: word :=
    fun isPrefix => noEquals (isPrefix.subset (by decide))
  have printed : print (.removetextcontext session id before after) =
      session ++ ' ' :: ("removetextcontext".toList ++ ' ' :: (nameValue "id".toList id ++
        ' ' :: (nameValue "before".toList (printInt before) ++
          ' ' :: nameValue "after".toList (printInt after)))) := by
    simp [print, nameValue]
  have longer : (print (.removetextcontext session id before after)).length >
      "id".toList.length + 1 := by
    rw [printed]
    simp only [List.length_append, List.length_cons, show "removetextcontext".toList.length = 17
      from rfl, show "id".toList.length = 2 from rfl]
    omega
  unfold getTokenStringFromMessage
  rw [if_pos longer, printed,
    findTokenString_word (by decide) (by decide) isSession.isWord.notDelimiter (Nat.zero_le _)
      (.inr (noToken isSession.noEquals)),
    findTokenString_word (by decide) (by decide) (by decide) (Nat.zero_le _)
      (.inr (noToken (by decide)))]
  exact findTokenString_here (by decide) isId (.inr rfl)

/-!
## The queue of printed messages
-/

theorem tokenize_print {message : InputMessage} (isInput : message.IsInput) :
    ∃ type others, tokenize message.print ' ' = message.session :: type :: others := by
  cases message with
  | textinput session id text =>
      obtain ⟨isSession, isId, noSpace⟩ := isInput
      exact ⟨_, _, tokenize_textinput isSession isId noSpace⟩
  | removetextcontext session id before after =>
      obtain ⟨isSession, isId, -, -⟩ := isInput
      exact ⟨_, _, tokenize_removetextcontext isSession isId before after⟩
  | event type session arguments =>
      obtain ⟨isSession, isRest⟩ := isInput
      obtain ⟨others, tokens⟩ := tokenize_event type isSession isRest
      exact ⟨_, _, tokens⟩

variable {queued : InputMessage} (isInput : queued.IsInput) (others : List Text)

include isInput

theorem lookTextInput_print (session id text : Text) :
    MessageQueue.lookTextInput (session :: others) id (typed text) queued.print =
      (lookTextInput session id text queued).map print := by
  unfold lookTextInput MessageQueue.lookTextInput
  by_cases same : queued.session = session
  · rw [if_neg (not_not_intro same)]
    cases queued with
    | textinput queuedSession queuedId queuedText =>
        obtain ⟨isSession, isId, noSpace⟩ := isInput
        have tokens := tokenize_textinput isSession isId noSpace
        obtain ⟨readId, readText⟩ := @getTokensString_textinput queuedSession queuedId
          (typed queuedText) isSession
        rw [MessageQueue.lookBack_of_type tokens same (by decide) rfl, readId, readText]
        cases same
        dsimp only
        by_cases sameId : queuedId = id
        · rw [if_pos sameId, if_pos sameId]
          simp only [Look.map, print, List.append_assoc, List.getD_cons_zero]
          rfl
        · rw [if_neg sameId, if_neg sameId]
          rfl
    | removetextcontext queuedSession queuedId before after =>
        obtain ⟨isSession, isId, -, -⟩ := isInput
        have tokens := tokenize_removetextcontext isSession isId before after
        exact MessageQueue.lookBack_of_barring tokens same (by decide)
    | event type queuedSession arguments =>
        obtain ⟨isSession, isRest⟩ := isInput
        obtain ⟨more, tokens⟩ := tokenize_event type isSession isRest
        exact MessageQueue.lookBack_of_barring tokens same (by cases type <;> decide)
  · obtain ⟨type, queuedOthers, tokens⟩ := tokenize_print isInput
    rw [if_pos same, MessageQueue.lookBack_of_ne tokens same]
    rfl

theorem lookRemoveText_print (session id : Text) (before after : Int) :
    MessageQueue.lookRemoveText (session :: others) id before after queued.print =
      (lookRemoveText session id before after queued).map print := by
  unfold lookRemoveText MessageQueue.lookRemoveText
  by_cases same : queued.session = session
  · rw [if_neg (not_not_intro same)]
    cases queued with
    | textinput queuedSession queuedId queuedText =>
        obtain ⟨isSession, isId, noSpace⟩ := isInput
        have tokens := tokenize_textinput isSession isId noSpace
        exact MessageQueue.lookBack_of_barring tokens same (by decide)
    | removetextcontext queuedSession queuedId queuedBefore queuedAfter =>
        obtain ⟨isSession, isId, beforeFits, afterFits⟩ := isInput
        have tokens := tokenize_removetextcontext isSession isId queuedBefore queuedAfter
        obtain ⟨-, readBefore, readAfter⟩ := @getTokens_removal queuedSession queuedId isSession
          queuedBefore queuedAfter beforeFits afterFits
        rw [MessageQueue.lookBack_of_type tokens same (by decide) rfl,
          getTokenStringFromMessage_removal isSession isId queuedBefore queuedAfter,
          getTokenIntegerFromMessage, getTokenIntegerFromMessage, tokens]
        unfold removalTokens at readBefore readAfter
        rw [readBefore, readAfter]
        cases same
        dsimp only
        by_cases sameId : queuedId = id
        · rw [if_pos sameId, if_pos sameId]
          simp only [Look.map, print, List.append_assoc, List.getD_cons_zero]
          rfl
        · rw [if_neg sameId, if_neg sameId]
          rfl
    | event type queuedSession arguments =>
        obtain ⟨isSession, isRest⟩ := isInput
        obtain ⟨more, tokens⟩ := tokenize_event type isSession isRest
        exact MessageQueue.lookBack_of_barring tokens same (by cases type <;> decide)
  · obtain ⟨type, queuedOthers, tokens⟩ := tokenize_print isInput
    rw [if_pos same, MessageQueue.lookBack_of_ne tokens same]
    rfl

omit isInput

theorem isInput_of_found {message merged : InputMessage} (isInput : message.IsInput)
    (queuedIsInput : queued.IsInput) (isFound : look message queued = .found merged) :
    merged.IsInput := by
  have int (n : Int) : -intMax - 1 ≤ toInt32 n ∧ toInt32 n ≤ intMax := by
    have low : -(2 ^ 32 / 2 : Int) ≤ Int.bmod n (2 ^ 32) := Int.le_bmod (by decide)
    have high : Int.bmod n (2 ^ 32) < (2 ^ 32 + 1) / 2 := Int.bmod_lt (by decide)
    unfold toInt32 intMax
    omega
  cases combines_of_found isFound with
  | textinput session id text queuedText =>
      obtain ⟨isSession, isId, noSpace⟩ := isInput
      obtain ⟨-, -, queuedNoSpace⟩ := queuedIsInput
      exact ⟨isSession, isId, List.not_mem_append (notMem_typed queuedNoSpace).1
        (notMem_typed noSpace).1⟩
  | removetextcontext session id before after queuedBefore queuedAfter =>
      obtain ⟨isSession, isId, -, -⟩ := isInput
      exact ⟨isSession, isId, int _, int _⟩

end InputMessage

private theorem second_eq {first second : Text} {others : List Text} :
    (first :: second :: others)[1]? = some second :=
  rfl

private theorem second_ne {first second name : Text} {others : List Text}
    (different : second ≠ name) : (first :: second :: others)[1]? ≠ some name :=
  fun same => different (Option.some.inj same)

section

variable {queue : List InputMessage} {message : InputMessage}
  (areInputs : ∀ queued ∈ queue, queued.IsInput) (isInput : message.IsInput)

include areInputs isInput

theorem InputMessage.forall_isInput_put :
    ∀ queued ∈ MergingQueue.put look queue message, queued.IsInput := by
  unfold MergingQueue.put
  split
  · next merged others isFound =>
      obtain ⟨earlier, queued, later, rfl, rfl, queuedFound, -⟩ := split_of_search_found isFound
      rw [List.forall_mem_append, List.forall_mem_cons] at areInputs
      obtain ⟨earlierInputs, queuedIsInput, laterInputs⟩ := areInputs
      rw [List.forall_mem_append, List.forall_mem_append, List.forall_mem_singleton]
      exact ⟨⟨earlierInputs, laterInputs⟩, isInput_of_found isInput queuedIsInput queuedFound⟩
  · rw [List.forall_mem_append, List.forall_mem_singleton]
    exact ⟨areInputs, isInput⟩

/-- The queue of printed messages is the printed queue of messages. -/
theorem MessageQueue.putImpl_print :
    MessageQueue.putImpl (queue.map InputMessage.print) message.print =
      (MergingQueue.put InputMessage.look queue message).map InputMessage.print := by
  unfold MessageQueue.putImpl MergingQueue.put
  cases message with
  | textinput session id text =>
      obtain ⟨isSession, isId, noSpace⟩ := isInput
      obtain ⟨readId, readText⟩ := @InputMessage.getTokensString_textinput session id
        (InputMessage.typed text) isSession
      rw [InputMessage.tokenize_textinput isSession isId noSpace]
      dsimp only
      rw [if_pos second_eq, combineTextInput, readId, readText]
      dsimp only
      rw [search_map InputMessage.print fun queued member =>
        InputMessage.lookTextInput_print (areInputs queued member) _ session id text]
      have sameLook : InputMessage.look (.textinput session id text) =
          InputMessage.lookTextInput session id text := funext fun _ => rfl
      rw [sameLook]
      cases search (InputMessage.lookTextInput session id text) queue with
      | barred => simp [Search.map]
      | nothing => simp [Search.map]
      | found merged others => simp [Search.map]
  | removetextcontext session id before after =>
      obtain ⟨isSession, isId, beforeFits, afterFits⟩ := isInput
      obtain ⟨readId, readBefore, readAfter⟩ := @InputMessage.getTokens_removal session id isSession
        before after beforeFits afterFits
      unfold InputMessage.removalTokens at readId readBefore readAfter
      rw [InputMessage.tokenize_removetextcontext isSession isId before after]
      dsimp only
      have notText : "removetextcontext".toList ≠ "textinput".toList := by decide
      rw [if_neg (second_ne notText), if_pos second_eq, combineRemoveText, readId,
        readBefore, readAfter]
      dsimp only
      rw [search_map InputMessage.print fun queued member =>
        InputMessage.lookRemoveText_print (areInputs queued member) _ session id before after]
      have sameLook : InputMessage.look (.removetextcontext session id before after) =
          InputMessage.lookRemoveText session id before after := funext fun _ => rfl
      rw [sameLook]
      cases search (InputMessage.lookRemoveText session id before after) queue with
      | barred => simp [Search.map]
      | nothing => simp [Search.map]
      | found merged others => simp [Search.map]
  | event type session arguments =>
      obtain ⟨isSession, isRest⟩ := isInput
      obtain ⟨others, tokens⟩ := InputMessage.tokenize_event type isSession isRest
      have noText : type.name ≠ "textinput".toList := by cases type <;> decide
      have noRemoval : type.name ≠ "removetextcontext".toList := by cases type <;> decide
      rw [tokens]
      dsimp only
      rw [if_neg (second_ne noText), if_neg (second_ne noRemoval)]
      split
      · next isFound => cases isFound
      · split
        · next isFound =>
            obtain ⟨_, _, _, _, _, impossible, _⟩ := split_of_search_found isFound
            cases impossible
        · simp

end

theorem InputMessage.print_ne_nil {message : InputMessage} (isInput : message.IsInput) :
    message.print ≠ [] := by
  intro isNil
  obtain ⟨type, others, tokens⟩ := tokenize_print isInput
  rw [isNil] at tokens
  cases tokens

/-- The events of which the messages are input. -/
def AreInputs (events : List (QueueEvent InputMessage)) : Prop :=
  ∀ message, QueueEvent.put message ∈ events → message.IsInput

theorem MessageQueue.run_print {events : List (QueueEvent InputMessage)}
    (areInputs : AreInputs events) {state : MergingQueue InputMessage}
    (queued : ∀ message ∈ state.queue, message.IsInput) :
    run MessageQueue.step (state.map InputMessage.print)
        (events.map (QueueEvent.map InputMessage.print)) =
      (run (MergingQueue.step InputMessage.look) state events).map InputMessage.print := by
  induction events generalizing state with
  | nil => rfl
  | cons event events ih =>
      have laterInputs : AreInputs events :=
        fun message member => areInputs message (List.mem_cons_of_mem _ member)
      cases event with
      | put message =>
          have isInput := areInputs message List.mem_cons_self
          have stepped : MessageQueue.step (state.map InputMessage.print) (.put message.print) =
              (MergingQueue.step InputMessage.look state (.put message)).map InputMessage.print := by
            unfold MessageQueue.step
            dsimp only [MergingQueue.map]
            rw [if_neg (InputMessage.print_ne_nil isInput), MessageQueue.putImpl_print queued isInput]
            simp [MergingQueue.step]
          have queuedAfter := InputMessage.forall_isInput_put queued isInput
          have rest := @ih laterInputs (MergingQueue.step InputMessage.look state (.put message))
            queuedAfter
          rw [← stepped] at rest
          exact rest
      | get =>
          obtain ⟨given, taken, queue⟩ := state
          cases queue with
          | nil => exact ih laterInputs queued
          | cons message queue =>
              have rest := @ih laterInputs ⟨given, taken ++ [message], queue⟩
                fun other member => queued other (List.mem_cons_of_mem _ member)
              rw [MergingQueue.map, List.map_append] at rest
              exact rest

/-!
## The text of a window
-/

/-- The text in front of the cursor of a window, and the text behind it. -/
structure WindowText where
  before : Text
  after : Text
deriving DecidableEq

namespace WindowText

def insert (window : WindowText) (text : Text) : WindowText :=
  { window with before := window.before ++ text }

def remove (window : WindowText) (before after : Nat) : WindowText where
  before := window.before.take (window.before.length - before)
  after := window.after.drop after

theorem insert_insert (window : WindowText) (text more : Text) :
    (window.insert text).insert more = window.insert (text ++ more) := by
  simp [insert]

theorem remove_remove (window : WindowText) (before after moreBefore moreAfter : Nat) :
    (window.remove before after).remove moreBefore moreAfter =
      window.remove (before + moreBefore) (after + moreAfter) := by
  have counted : min (window.before.length - before - moreBefore) (window.before.length - before) =
      window.before.length - (before + moreBefore) := by
    omega
  have shorter : (window.before.take (window.before.length - before)).length =
      window.before.length - before := by
    rw [List.length_take]
    omega
  simp only [remove, List.take_take, List.drop_drop, shorter, counted]

end WindowText

namespace InputMessage

/-- What a message does to a window it concerns, where `act` is what the other input does. -/
def edit (act : InputMessage → WindowText → WindowText) (window : WindowText) :
    InputMessage → WindowText
  | .textinput _ _ text => window.insert (typed text)
  | .removetextcontext _ _ before after => window.remove before.toNat after.toNat
  | .event type session arguments => act (.event type session arguments) window

/-- A window is one of a session. Keys and the mouse may concern every window of theirs. -/
def concerns (session id : Text) : InputMessage → Bool
  | .textinput ofSession ofId _ => ofSession = session && ofId = id
  | .removetextcontext ofSession ofId _ _ => ofSession = session && ofId = id
  | .event _ ofSession _ => ofSession = session

/-- What two edits of one window are as one. -/
inductive Joins : InputMessage → InputMessage → InputMessage → Prop
  | textinput (session id text more : Text) :
      Joins (.textinput session id text) (.textinput session id more)
        (.textinput session id (typed text ++ typed more))
  | removetextcontext (session id : Text) {before after moreBefore moreAfter : Int} :
      0 ≤ before → 0 ≤ after → 0 ≤ moreBefore → 0 ≤ moreAfter →
      Joins (.removetextcontext session id before after)
        (.removetextcontext session id moreBefore moreAfter)
        (.removetextcontext session id (before + moreBefore) (after + moreAfter))

theorem edit_of_joins {last message joined : InputMessage} (joins : Joins last message joined)
    (act : InputMessage → WindowText → WindowText) (window : WindowText) :
    edit act window joined = edit act (edit act window last) message := by
  cases joins with
  | textinput session id text more =>
      have once : typed (typed text ++ typed more) = typed text ++ typed more := by
        unfold typed
        rw [List.takeWhile_append_of_pos fun _ => List.mem_takeWhile_imp, List.takeWhile_idem]
      simp only [edit]
      rw [once, WindowText.insert_insert]
  | removetextcontext session id beforeNonneg afterNonneg moreBeforeNonneg moreAfterNonneg =>
      simp only [edit]
      rw [WindowText.remove_remove, Int.toNat_add beforeNonneg moreBeforeNonneg,
        Int.toNat_add afterNonneg moreAfterNonneg]

/-- The counts of two removals are not negative, and their sums are ints. -/
def CountsFit : InputMessage → InputMessage → Prop
  | .removetextcontext _ _ before after, .removetextcontext _ _ moreBefore moreAfter =>
      (0 ≤ before ∧ 0 ≤ moreBefore ∧ before + moreBefore ≤ intMax) ∧
        0 ≤ after ∧ 0 ≤ moreAfter ∧ after + moreAfter ≤ intMax
  | _, _ => True

theorem joins_of_found {queued message merged : InputMessage} (fit : CountsFit queued message)
    (isFound : look message queued = .found merged) : Joins queued message merged := by
  cases combines_of_found isFound with
  | textinput session id text queuedText => exact .textinput _ _ _ _
  | removetextcontext session id before after queuedBefore queuedAfter =>
      obtain ⟨⟨nonneg, moreNonneg, fits⟩, afterNonneg, moreAfterNonneg, afterFits⟩ := fit
      have small : -intMax - 1 ≤ 0 := by decide
      rw [toInt32_of_fits ⟨by omega, fits⟩, toInt32_of_fits ⟨by omega, afterFits⟩]
      exact .removetextcontext _ _ nonneg afterNonneg moreNonneg moreAfterNonneg

theorem session_of_concerns {session id : Text} {message : InputMessage}
    (concerned : concerns session id message = true) : message.session = session := by
  cases message with
  | textinput => exact of_decide_eq_true (Bool.and_eq_true_iff.mp concerned).1
  | removetextcontext => exact of_decide_eq_true (Bool.and_eq_true_iff.mp concerned).1
  | event => exact of_decide_eq_true concerned

theorem separates_look (session id : Text) :
    MergingQueue.Separates look (concerns session id) where
  found message queued merged isFound := by
    cases combines_of_found isFound with
    | textinput => exact ⟨rfl, rfl⟩
    | removetextcontext => exact ⟨rfl, rfl⟩
  passed message queued isPassed concerned := by
    rw [Bool.eq_false_iff]
    intro queuedConcerned
    have sessions := session_of_concerns concerned
    have queuedSessions := session_of_concerns queuedConcerned
    obtain other | ⟨ofSession, ofId, text, otherId, more, rfl, rfl, otherId⟩ |
      ⟨ofSession, ofId, before, after, otherId, moreBefore, moreAfter, rfl, rfl, otherId⟩ :=
      window_ne_of_passed isPassed
    · exact other (queuedSessions.trans sessions.symm)
    · exact otherId ((of_decide_eq_true (Bool.and_eq_true_iff.mp queuedConcerned).2).trans
        (of_decide_eq_true (Bool.and_eq_true_iff.mp concerned).2).symm)
    · exact otherId ((of_decide_eq_true (Bool.and_eq_true_iff.mp queuedConcerned).2).trans
        (of_decide_eq_true (Bool.and_eq_true_iff.mp concerned).2).symm)

/-- In every run, what is taken out of the queue and what is still in it are for every window the
input that was put, with some neighbours of one kind joined, and does the same to the text. -/
theorem typing_preserved (events : List (QueueEvent InputMessage)) (areInputs : AreInputs events)
    (fit : Permitted (MergingQueue.step look)
      (MergingQueue.Joinable look fun queued message _ => CountsFit queued message) .empty events) :
    ∃ state : MergingQueue InputMessage,
      run MessageQueue.step .empty (events.map (QueueEvent.map print)) = state.map print ∧
      state.given = events.filterMap QueueEvent.entry? ∧
      ∀ session id,
        Merges Joins (state.given.filter (concerns session id))
          ((state.taken ++ state.queue).filter (concerns session id)) ∧
        ∀ act window,
          ((state.taken ++ state.queue).filter (concerns session id)).foldl (edit act) window =
            (state.given.filter (concerns session id)).foldl (edit act) window := by
  have joinable : Permitted (MergingQueue.step look) (MergingQueue.Joinable look Joins) .empty
      events := by
    refine permitted_mono (fun state event fits => ?_) fit
    refine MergingQueue.joinable_mono ?_ fits
    exact fun message queued merged fit isFound => joins_of_found fit isFound
  refine ⟨run (MergingQueue.step look) .empty events, ?_, MergingQueue.given_run look events, ?_⟩
  · exact @MessageQueue.run_print events areInputs .empty (by simp [MergingQueue.empty])
  · intro session id
    have merges := MergingQueue.merges_run (separates_look session id) joinable
    refine ⟨merges, fun act window => merges.foldl_eq ?_ window⟩
    exact fun last message joined joins state => edit_of_joins joins act state

/-- Someone deletes three characters. -/
def deletions : List (QueueEvent InputMessage) :=
  [.put (.removetextcontext "child-1".toList "0".toList 1 0),
    .put (.removetextcontext "child-1".toList "0".toList 2 0), .get]

theorem typing_preserved_deletions :
    ∃ state : MergingQueue InputMessage,
      run MessageQueue.step .empty (deletions.map (QueueEvent.map print)) = state.map print ∧
      state.given = deletions.filterMap QueueEvent.entry? ∧
      ∀ session id,
        Merges Joins (state.given.filter (concerns session id))
          ((state.taken ++ state.queue).filter (concerns session id)) ∧
        ∀ act window,
          ((state.taken ++ state.queue).filter (concerns session id)).foldl (edit act) window =
            (state.given.filter (concerns session id)).foldl (edit act) window := by
  have isSession : IsSession "child-1".toList :=
    ⟨⟨by decide, by decide, by decide⟩, by decide, by decide⟩
  have areInputs : AreInputs deletions := by
    intro message member
    simp only [deletions, List.mem_cons, QueueEvent.put.injEq, reduceCtorEq, List.not_mem_nil,
      or_false] at member
    rcases member with rfl | rfl
    · exact ⟨isSession, by decide, by decide, by decide⟩
    · exact ⟨isSession, by decide, by decide, by decide⟩
  refine typing_preserved deletions areInputs ⟨?_, ?_, trivial, trivial⟩
  · intro earlier queued later merged isQueue
    simp [MergingQueue.empty] at isQueue
  · intro earlier queued later merged isQueue _ _
    change [removetextcontext "child-1".toList "0".toList 1 0] = _ at isQueue
    have member : queued ∈ [removetextcontext "child-1".toList "0".toList 1 0] :=
      isQueue ▸ List.mem_append_right earlier List.mem_cons_self
    cases List.mem_singleton.mp member
    exact ⟨by decide, by decide⟩

/-- What one session types goes past what another one typed into the window of the same id, the sum
of two counts may be no int, and a negative count takes from the one that it is added to. -/
theorem not_typing_preserved :
    (run MessageQueue.step .empty
        [.put "child-1 textinput id=0 text=a".toList, .put "child-2 textinput id=0 text=b".toList,
          .put "child-1 textinput id=0 text=c".toList]).queue =
      ["child-2 textinput id=0 text=b".toList, "child-1 textinput id=0 text=ac".toList] ∧
    [textinput "child-2".toList "0".toList "b".toList,
        textinput "child-1".toList "0".toList "ac".toList].foldl (edit fun _ => id) ⟨[], []⟩ ≠
      [textinput "child-1".toList "0".toList "a".toList,
        textinput "child-2".toList "0".toList "b".toList,
        textinput "child-1".toList "0".toList "c".toList].foldl (edit fun _ => id) ⟨[], []⟩ ∧
    (run MessageQueue.step .empty
        [.put "child-1 removetextcontext id=0 before=2147483647 after=0".toList,
          .put "child-1 removetextcontext id=0 before=1 after=0".toList]).queue =
      ["child-1 removetextcontext id=0 before=-2147483648 after=0".toList] ∧
    (run MessageQueue.step .empty
        [.put "child-1 removetextcontext id=0 before=-1 after=0".toList,
          .put "child-1 removetextcontext id=0 before=2 after=0".toList]).queue =
      ["child-1 removetextcontext id=0 before=1 after=0".toList] ∧
    [removetextcontext "child-1".toList "0".toList 1 0].foldl (edit fun _ => id) ⟨['a', 'b'], []⟩ ≠
      [removetextcontext "child-1".toList "0".toList (-1) 0,
        removetextcontext "child-1".toList "0".toList 2 0].foldl (edit fun _ => id)
          ⟨['a', 'b'], []⟩ := by
  decide +kernel

end InputMessage

end FreeOnline.Common
