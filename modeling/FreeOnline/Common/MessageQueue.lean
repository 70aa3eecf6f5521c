import FreeOnline.Common.Protocol
import FreeOnline.Library.MergingQueue

/-!
# The queue of messages

What is typed into a window is combined with what was typed into it before and is still
queued, and so is what is removed.
-/

set_option autoImplicit false

namespace FreeOnline.Common

open FreeOnline.Library

abbrev Payload := Text

/-- `StringVector::equals`, of two tokens that have to be there. -/
def tokenEquals (tokens : List Text) (index : Nat) (others : List Text) (otherIndex : Nat) : Bool :=
  match tokens[index]?, others[otherIndex]? with
  | some token, some other => token = other
  | _, _ => false

namespace MessageQueue

/-- A look at a queued message while one of that type is combined. Messages of the barring types
in front of it, and single tokens, make it wrong to combine. -/
def lookBack (tokens : List Text) (type : Text) (barring : List Text)
    (combine : Payload → List Text → Option Payload) (queuedMessage : Payload) : Look Payload :=
  let queuedTokens := tokenize queuedMessage ' '
  if queuedTokens.length = 1 ∨ (tokenEquals queuedTokens 0 tokens 0 = true ∧
      queuedTokens[1]? ∈ barring.map some) then .barred
  else if tokenEquals queuedTokens 0 tokens 0 = true ∧ queuedTokens[1]? = some type then
    match combine queuedMessage queuedTokens with
    | some newMsg => .found newMsg
    | none => .passed
  else .passed

def lookTextInput (tokens : List Text) (id text : Text) : Payload → Look Payload :=
  lookBack tokens "textinput".toList
    ["key".toList, "mouse".toList, "removetextcontext".toList, "windowkey".toList]
    fun _ queuedTokens =>
      match getTokensString queuedTokens "id".toList, getTokensString queuedTokens "text".toList with
      | some queuedId, some queuedText =>
          if queuedId = id then
            some (queuedTokens.getD 0 [] ++ " textinput id=".toList ++ id ++ " text=".toList ++
              queuedText ++ text)
          else none
      | _, _ => none

/-- The combined message, and the queue without the one it was combined with. -/
def combineTextInput (queue : List Payload) (tokens : List Text) : Search Payload Payload :=
  match getTokensString tokens "id".toList, getTokensString tokens "text".toList with
  | some id, some text => search (lookTextInput tokens id text) queue
  | _, _ => .nothing

def lookRemoveText (tokens : List Text) (id : Text) (before after : Int) :
    Payload → Look Payload :=
  lookBack tokens "removetextcontext".toList
    ["key".toList, "mouse".toList, "textinput".toList, "windowkey".toList]
    fun queuedMessage queuedTokens =>
      match getTokenStringFromMessage queuedMessage "id".toList,
        getTokenIntegerFromMessage queuedMessage "before".toList,
        getTokenIntegerFromMessage queuedMessage "after".toList with
      | some queuedId, some queuedBefore, some queuedAfter =>
          if queuedId = id then
            some (queuedTokens.getD 0 [] ++ " removetextcontext id=".toList ++ id ++
              " before=".toList ++ printInt (toInt32 (queuedBefore + before)) ++
              " after=".toList ++ printInt (toInt32 (queuedAfter + after)))
          else none
      | _, _, _ => none

def combineRemoveText (queue : List Payload) (tokens : List Text) : Search Payload Payload :=
  match getTokensString tokens "id".toList, getTokensInteger tokens "before".toList,
    getTokensInteger tokens "after".toList with
  | some id, some before, some after => search (lookRemoveText tokens id before after) queue
  | _, _, _ => .nothing

def putImpl (queue : List Payload) (value : Payload) : List Payload :=
  let tokens := tokenize value ' '
  let combined :=
    if tokens[1]? = some "textinput".toList then combineTextInput queue tokens
    else if tokens[1]? = some "removetextcontext".toList then combineRemoveText queue tokens
    else .nothing
  match combined with
  | .found newMsg others => others ++ [newMsg]
  | _ => queue ++ [value]

/-- An empty message is refused by an exception, and nothing is taken of an empty queue. -/
def step (state : MergingQueue Payload) : QueueEvent Payload → MergingQueue Payload
  | .put value =>
      if value = [] then state
      else { state with given := state.given ++ [value], queue := putImpl state.queue value }
  | .get =>
      match state.queue with
      | [] => state
      | value :: rest => { state with taken := state.taken ++ [value], queue := rest }

section

variable {session queuedSession queuedType type : Text} {others queuedOthers barring : List Text}
  {combine : Payload → List Text → Option Payload} {queuedMessage : Payload}
  (isQueued : tokenize queuedMessage ' ' = queuedSession :: queuedType :: queuedOthers)

private theorem tokenEquals_session :
    tokenEquals (queuedSession :: queuedOthers) 0 (session :: others) 0 = true ↔
      queuedSession = session := by
  simp [tokenEquals]

include isQueued

/-- Messages of other sessions are passed. -/
theorem lookBack_of_ne (otherSession : queuedSession ≠ session) :
    lookBack (session :: others) type barring combine queuedMessage = .passed := by
  have notSame := mt (@tokenEquals_session session queuedSession others
    (queuedType :: queuedOthers)).mp otherSession
  unfold lookBack
  rw [isQueued]
  dsimp only
  rw [if_neg, if_neg fun both => notSame both.1]
  rintro (single | ⟨same, -⟩)
  · rw [List.length_cons, List.length_cons] at single
    omega
  · exact notSame same

theorem lookBack_of_barring (sameSession : queuedSession = session) (bars : queuedType ∈ barring) :
    lookBack (session :: others) type barring combine queuedMessage = .barred := by
  unfold lookBack
  rw [isQueued]
  exact if_pos (.inr ⟨tokenEquals_session.mpr sameSession, List.mem_map_of_mem bars⟩)

theorem lookBack_of_type (sameSession : queuedSession = session) (notBarring : queuedType ∉ barring)
    (sameType : queuedType = type) :
    lookBack (session :: others) type barring combine queuedMessage =
      match combine queuedMessage (queuedSession :: queuedType :: queuedOthers) with
      | some newMsg => .found newMsg
      | none => .passed := by
  unfold lookBack
  rw [isQueued]
  dsimp only
  rw [if_neg, if_pos ⟨tokenEquals_session.mpr sameSession, congrArg some sameType⟩]
  rintro (single | ⟨-, bars⟩)
  · rw [List.length_cons, List.length_cons] at single
    omega
  · obtain ⟨name, member, same⟩ := List.mem_map.mp bars
    cases Option.some.inj same
    exact notBarring member

end

end MessageQueue

end FreeOnline.Common
