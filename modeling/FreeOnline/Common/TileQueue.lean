import FreeOnline.Common.Invalidations
import FreeOnline.Wsd.TileCombinedText

/-!
# The queue of the kit

A message queue that knows tiles and callbacks. Requests of the same tile and superseded callbacks
are removed when a message is put, and tiles near a cursor are taken first, together with
those that can be rendered at once.
-/

set_option autoImplicit false

namespace FreeOnline.Common

open FreeOnline.Library
open FreeOnline.Wsd (TileCombined TileDesc)

/-!
## Texts
-/

def getFirstToken (message : Payload) : Text :=
  message.takeWhile (· ≠ ' ')

theorem getFirstToken_append {word : Text} (isWord : ' ' ∉ word) (rest : Text) :
    getFirstToken (word ++ ' ' :: rest) = word := by
  unfold getFirstToken
  rw [List.takeWhile_append_of_pos]
  · simp
  · intro ch member
    have different : ch ≠ ' ' := fun same => isWord (same ▸ member)
    simpa using different

def matchPrefix (start message : Text) : Bool :=
  start.isPrefixOf message

/-!
## Putting tiles
-/

namespace TileQueue

/-- Tiles with an id are for thumbnails and not cancelled. -/
def isCancelled (tokens : List Text) (message : Payload) : Bool :=
  if (findText "id=".toList message).isSome then false
  else tokens.any fun token => (findText ("ver=".toList ++ token) message).isSome

def cancelTiles (queue : List Payload) (tokens : List Text) : List Payload :=
  queue.filter fun message => !isCancelled tokens message

/-- `strncmp`, which does not look behind a zero character. -/
def sameStart (size : Nat) (message queued : Payload) : Bool :=
  (message.take size).takeWhile (· ≠ '\x00') = (queued.take size).takeWhile (· ≠ '\x00')

/-- Versions are irrelevant, so the text in front of them is compared. -/
def removeTileDuplicate (queue : List Payload) (tileMsg : Payload) : List Payload :=
  let newMsgPos := (findText " ver".toList tileMsg).getD (tileMsg.length - 1)
  queue.eraseP fun queued => queued.length > newMsgPos && sameStart newMsgPos tileMsg queued

def putTile (queue : List Payload) (tileMsg : Payload) : List Payload :=
  MessageQueue.putImpl (removeTileDuplicate queue tileMsg) tileMsg

/-!
## Putting callbacks
-/

/-- What the numbers of callbacks stand for. -/
inductive CallbackType
  | invalidateTiles
  | stateChanged
  | invalidateVisibleCursor
  | cursorVisible
  | statusIndicatorSetValue
  | documentSizeChanged
  | cellCursor
  | invalidateViewCursor
  | cellViewCursor
  | viewCursorVisible
  | other
deriving DecidableEq

/-- The numbers of the callbacks, and the JSON parser's way to the value of `viewId`, which throws
on a text that is no object with one. -/
structure CallbackReader where
  callbackType : Int → CallbackType
  parsedViewId : Text → Option Text

/-- The text behind the first three tokens is JSON. -/
def extractViewId (reader : CallbackReader) (origMsg : Payload) (tokens : List Text) :
    Option Text :=
  let size := fun index => (tokens.getD index []).length
  let nonJson := size 0 + size 1 + size 2 + 3
  if origMsg.length < nonJson then none else reader.parsedViewId (origMsg.drop nonJson)

/-- The command, without what it is set to. -/
def extractUnoCommand (command : Text) : Text :=
  if matchPrefix ".uno:".toList command then command.takeWhile (· ≠ '=') else []

def modifiedStatus : Text := ".uno:ModifiedStatus".toList

/-- A state of the same command and target. -/
def isSameState (tokens : List Text) (unoCommand : Text) (queuedMessage : Payload) : Bool :=
  let queuedTokens := tokenize queuedMessage ' '
  if queuedTokens.length < 4 then false
  else if queuedTokens.getD 0 [] ≠ tokens.getD 0 [] ∨ queuedTokens.getD 1 [] ≠ tokens.getD 1 [] ∨
      queuedTokens.getD 2 [] ≠ tokens.getD 2 [] then false
  else
    let queuedUnoCommand := extractUnoCommand (queuedTokens.getD 3 [])
    if queuedUnoCommand = [] then false else unoCommand = queuedUnoCommand

/-- A callback of the same type and target. -/
def isSameCallback (tokens : List Text) (queuedMessage : Payload) : Bool :=
  let queuedTokens := tokenize queuedMessage ' '
  if !matchPrefix "callback".toList queuedMessage then false
  else if queuedTokens.length < 3 then false
  else tokenEquals queuedTokens 1 tokens 1 && tokenEquals queuedTokens 2 tokens 2

/-- The payload of a view callback has to be about the same view also. -/
def isSameViewCallback (reader : CallbackReader) (tokens : List Text) (viewId : Text)
    (queuedMessage : Payload) : Option Bool :=
  if isSameCallback tokens queuedMessage then
    (extractViewId reader queuedMessage (tokenize queuedMessage ' ')).map fun queuedViewId =>
      viewId = queuedViewId
  else some false

/-- The queue without the first such message, unless an exception comes first. -/
def eraseFirst (isSame : Payload → Option Bool) : List Payload → Option (List Payload)
  | [] => some []
  | queued :: rest => do
      if ← isSame queued then some rest else return queued :: (← eraseFirst isSame rest)

/-- What is put instead of the message, if anything, and the queue. -/
def removeCallbackDuplicate (reader : CallbackReader) (queue : List Payload)
    (callbackMsg : Payload) : Option (Option Payload × List Payload) :=
  let tokens := tokenize callbackMsg ' '
  if tokens.length < 3 then some (none, queue)
  else
    match i32FromString (tokens.getD 2 []) with
    | none => some (none, queue)
    | some number =>
        match reader.callbackType number with
        | .invalidateTiles => some (Invalidations.removeInvalidationDuplicate queue callbackMsg)
        | .stateChanged =>
            if tokens.length < 4 then some (none, queue)
            else
              let unoCommand := extractUnoCommand (tokens.getD 3 [])
              -- Otherwise a save while a cell is still edited creates problems.
              if unoCommand = [] ∨ unoCommand = modifiedStatus then some (none, queue)
              else some (none, queue.eraseP (isSameState tokens unoCommand))
        | .invalidateVisibleCursor | .cursorVisible | .statusIndicatorSetValue
        | .documentSizeChanged | .cellCursor => some (none, queue.eraseP (isSameCallback tokens))
        | .invalidateViewCursor | .cellViewCursor | .viewCursorVisible => do
            let viewId ← extractViewId reader callbackMsg tokens
            return (none, ← eraseFirst (isSameViewCallback reader tokens viewId) queue)
        | .other => some (none, queue)

/-- Nothing is put if this throws. -/
def putImpl (reader : CallbackReader) (queue : List Payload) (value : Payload) :
    Option (List Payload) :=
  let firstToken := getFirstToken value
  if firstToken = "canceltiles".toList then
    if value.length < 12 then none else some (cancelTiles queue (tokenize (value.drop 12) ','))
  else if firstToken = "tilecombine".toList then
    (TileCombined.parseMessage value).map fun tileCombined =>
      tileCombined.tiles.foldl (fun queue tile => putTile queue (tile.serialize "tile".toList)) queue
  else if firstToken = "tile".toList then some (putTile queue value)
  else if firstToken = "callback".toList then
    (removeCallbackDuplicate reader queue value).map fun removed =>
      MessageQueue.putImpl removed.2 (removed.1.getD value)
  else some (MessageQueue.putImpl queue value)

end TileQueue

end FreeOnline.Common
