import FreeOnline.Common.StringVector
import FreeOnline.Common.TileQueue

/-!
# Forwarding from the kit to the server

Over one connection go the messages of all sessions. Each has a token in front that says which of
the sessions it is for.
-/

set_option autoImplicit false

namespace FreeOnline.Wsd

open FreeOnline.Common
open FreeOnline.Library

/-- `LOOLProtocol::parseNameValuePair` with another sign than that of equality. -/
def parsePairAt (delimiter : Char) (token : Text) : Option (Text × Text) :=
  if delimiter ∈ token then
    let name := token.takeWhile (· ≠ delimiter)
    some (name, token.drop (name.length + 1))
  else none

def trimStart (text : Text) : Text := text.dropWhile (· = ' ')

/-!
## To the server
-/

def clientToken (sessionId : Text) : Text := "client-".toList ++ sessionId

/-- `ChildSession::sendTextFrame`. -/
def clientMessage (sessionId text : Text) : Text :=
  clientToken sessionId ++ ' ' :: text

def getForwardToken (message : Text) : Text :=
  let forward := getFirstToken message
  if '-' ∈ forward then forward else []

/-- The data of a message. -/
def copyDataAfterOffset (message : Text) (offset : Nat) : Text := trimStart (message.drop offset)

/-- The session and what it is handed, or none where the broker handles the message itself. -/
def clientPayload (message : Text) : Option (Text × Text) :=
  let forwardToken := getForwardToken message
  if forwardToken.takeWhile (· ≠ '-') = "client".toList then
    (parsePairAt '-' forwardToken).map fun pair =>
      (pair.2, copyDataAfterOffset message forwardToken.length)
  else none

/-!
## There and back
-/

section

variable {sessionId : Text}

theorem parsePairAt_append {delimiter : Char} {name : Text} (isName : delimiter ∉ name)
    (value : Text) : parsePairAt delimiter (name ++ delimiter :: value) = some (name, value) := by
  have isThere : delimiter ∈ name ++ delimiter :: value := by simp
  have isFront : (name ++ delimiter :: value).takeWhile (· ≠ delimiter) = name := by
    rw [List.takeWhile_append_of_pos]
    · simp
    · intro ch member
      have different : ch ≠ delimiter := fun same => isName (same ▸ member)
      simpa using different
  have isRest : (name ++ delimiter :: value).drop (name.length + 1) = value := by
    rw [List.drop_length_add_append]
    rfl
  rw [parsePairAt, if_pos isThere, isFront]
  dsimp only
  rw [isRest]

theorem mem_clientToken {ch : Char} :
    ch ∈ clientToken sessionId ↔ ch ∈ "client-".toList ∨ ch ∈ sessionId :=
  List.mem_append

/-- The broker hands a message of the kit's session to the client's session of the same id. -/
theorem clientPayload_clientMessage (noSpace : ' ' ∉ sessionId) (text : Text) :
    clientPayload (clientMessage sessionId text) = some (sessionId, trimStart text) := by
  have isFirst : getFirstToken (clientMessage sessionId text) = clientToken sessionId :=
    getFirstToken_append (by simp [mem_clientToken, noSpace]) text
  have isForward : getForwardToken (clientMessage sessionId text) = clientToken sessionId := by
    rw [getForwardToken, isFirst]
    exact if_pos (by simp [mem_clientToken])
  have isPair : parsePairAt '-' (clientToken sessionId) = some ("client".toList, sessionId) :=
    @parsePairAt_append _ "client".toList (by decide) sessionId
  have isClient : (clientToken sessionId).takeWhile (· ≠ '-') = "client".toList :=
    rfl
  have isData : copyDataAfterOffset (clientMessage sessionId text) (clientToken sessionId).length =
      trimStart text := by
    rw [copyDataAfterOffset, clientMessage, List.drop_left]
    rfl
  rw [clientPayload, isForward, if_pos isClient, isPair, Option.map_some, isData]

end

end FreeOnline.Wsd
