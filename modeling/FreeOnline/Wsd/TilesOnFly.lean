import FreeOnline.Library.Flights
import FreeOnline.Wsd.TileRequests

/-!
# Tiles on the fly

A session keeps a list of the tiles that it was sent and that its client has not yet answered
to have processed. The client answers every tile and every delta, in the order in which they
come, and names but the tile.
-/

set_option autoImplicit false

namespace FreeOnline.Wsd

open FreeOnline.Kit (TileWireId)
open FreeOnline.Library

/-!
## What the browser answers
-/

/-- The fields of a parsed `tile:` or `delta:` message that name the tile. The mode is not
sent if it is the default. -/
structure TileMsgObj where
  part : Int
  mode : Option Int
  x : Int
  y : Int
  tileWidth : Int
  tileHeight : Int
  nviewid : Int

def parseServerCmd (message : TileMessage) : TileMsgObj where
  part := message.desc.part
  mode := if message.desc.mode ≠ 0 then some message.desc.mode else none
  x := message.desc.tilePosX
  y := message.desc.tilePosY
  tileWidth := message.desc.tileWidth
  tileHeight := message.desc.tileHeight
  nviewid := message.desc.normalizedViewId

/-- The tile that the browser acknowledges to have processed. -/
def TileMsgObj.tileID (tileMsgObj : TileMsgObj) : TileId where
  part := tileMsgObj.part
  mode := tileMsgObj.mode.getD 0
  tilePosX := tileMsgObj.x
  tilePosY := tileMsgObj.y
  tileWidth := tileMsgObj.tileWidth
  tileHeight := tileMsgObj.tileHeight
  normalizedViewId := tileMsgObj.nviewid

/-- Browser and server call a tile the same. -/
theorem tileID_parseServerCmd (message : TileMessage) :
    (parseServerCmd message).tileID = message.desc.generateID := by
  have mode : (if message.desc.mode ≠ 0 then some message.desc.mode else none).getD 0 =
      message.desc.mode := by
    by_cases default : message.desc.mode = 0
    · simp [default]
    · simp [default]
  unfold TileMsgObj.tileID parseServerCmd TileDesc.generateID
  dsimp only
  rw [mode]

/-- A tile or delta message on its way. -/
def QueueItem.flight? (item : QueueItem) : Option (Flight TileId) :=
  match item.message with
  | .tile message => some ⟨item.serial, (parseServerCmd message).tileID⟩
  | .last .. | .invalidateViewCursor .. | .other _ => none

namespace TileSession

def tileprocessed (session : TileSession) (tileID : TileId) : TileSession :=
  { session with tilesOnFly := session.tilesOnFly.eraseP (·.1 = tileID) }

/-- `cancelTileRequests`, as far as the session is concerned. -/
def cancelTiles (session : TileSession) : TileSession :=
  { session with tilesOnFly := [], requestedTiles := [], oldWireIds := fun _ => none }

/-- Messages that are no tiles go to the queue as well. -/
def enqueueOther (session : TileSession) (message : SenderMessage) : TileSession :=
  if session.isCloseFrame then session
  else { session with senderQueue := session.senderQueue.enqueue message }

/-- The tile is not the one that was sent last. -/
def acceptsTile (session : TileSession) (message : TileMessage) : Bool :=
  !session.isCloseFrame && !session.senderQueue.terminationFlag &&
    !(session.oldWireIds message.desc.generateID = some message.desc.wireId &&
      message.desc.wireId ≠ 0)

def entries (session : TileSession) : List TileId :=
  session.tilesOnFly.map (·.1)

end TileSession

/-!
## A session and its browser
-/

inductive OnFlyEvent where
  | enqueue (message : TileMessage) (now : Nat)
  | enqueueOther (message : SenderMessage) (notTile : ∀ tile, message ≠ .tile tile)
  | dequeue
  | receive
  | messagesDone
  | tileprocessed
  | removeOutdated (now : Nat)
  | cancelTiles
  | terminate
  | other (changed : TileSession)

/-- The session, the messages on the way to the browser, what the browser has queued to
acknowledge, and the acknowledgements on the way back. `tracked` is not in the code: the
messages with an entry among the tiles on the fly, given by their serial numbers. -/
structure OnFly where
  session : TileSession
  onWire : List QueueItem
  queuedProcessed : List (Flight TileId)
  acknowledgements : List (Flight TileId)
  tracked : List Nat

namespace OnFly

/-- The tiles and deltas enqueued and not yet acknowledged, in the order of the answers. -/
def flights (state : OnFly) : List (Flight TileId) :=
  state.acknowledgements ++ state.queuedProcessed ++
    (state.onWire ++ state.session.senderQueue.queue).filterMap QueueItem.flight?

/-- A tile is tracked from when it is enqueued, or in the place of the queued one that it
replaces, until it is acknowledged, times out or is cancelled. -/
def trackEnqueued (state : OnFly) (message : TileMessage) : List Nat :=
  let queue := state.session.senderQueue
  if message.command = .tile ∧ state.session.acceptsTile message = true then
    match queue.queue.find? (SenderMessage.tile message).supersedes with
    | none => queue.enqueued.length :: state.tracked
    | some old => Flight.retrack state.tracked old.serial queue.enqueued.length
  else state.tracked

def step (state : OnFly) : OnFlyEvent → OnFly
  | .enqueue message now =>
      { state with
        session := state.session.enqueueSendMessage message now
        tracked := state.trackEnqueued message }
  | .enqueueOther message _ => { state with session := state.session.enqueueOther message }
  | .dequeue =>
      { state with
        session := { state.session with senderQueue := state.session.senderQueue.dequeue }
        onWire :=
          if state.session.senderQueue.terminationFlag then state.onWire
          else state.onWire ++ state.session.senderQueue.queue.head?.toList }
  | .receive =>
      { state with
        onWire := state.onWire.tail
        queuedProcessed :=
          state.queuedProcessed ++ (state.onWire.head?.bind QueueItem.flight?).toList }
  | .messagesDone =>
      { state with
        queuedProcessed := []
        acknowledgements := state.acknowledgements ++ state.queuedProcessed }
  | .tileprocessed =>
      match state.acknowledgements with
      | [] => state
      | flight :: acknowledgements =>
          { state with
            session := state.session.tileprocessed flight.label
            acknowledgements := acknowledgements
            tracked := Flight.forget state.tracked flight.serial }
  | .removeOutdated now =>
      { state with
        session := state.session.removeOutdatedTilesOnFly now
        tracked := ((state.session.tilesOnFly.takeWhile fun tile =>
            decide (now - tile.2 > commandTimeoutMs)).map (·.1)).foldl
          (Flight.untrack state.flights) state.tracked }
  | .cancelTiles => { state with session := state.session.cancelTiles, tracked := [] }
  | .terminate =>
      { state with
        session := { state.session with
          senderQueue := { state.session.senderQueue with terminationFlag := true } } }
  | .other changed =>
      { state with
        session := { changed with
          tilesOnFly := state.session.tilesOnFly
          senderQueue := state.session.senderQueue } }

/-- For each tile there are as many entries as tracked messages that are not acknowledged. -/
def Accounts (state : OnFly) : Prop :=
  ∀ tileID, state.session.entries.count tileID =
    (Flight.owed state.tracked state.flights).count tileID

/-- The browser acknowledges a tracked message, or one for whose tile there is no entry. -/
def AnswersTracked (state : OnFly) : OnFlyEvent → Prop
  | .tileprocessed => ∀ flight ∈ state.acknowledgements.head?,
      flight.serial ∈ state.tracked ∨ flight.label ∉ state.session.entries
  | _ => True

theorem accounts_iff (state : OnFly) :
    state.Accounts ↔ state.session.entries.Perm (Flight.owed state.tracked state.flights) :=
  List.perm_iff_count.symm

instance (state : OnFly) : Decidable state.Accounts :=
  decidable_of_iff _ state.accounts_iff.symm

instance (state : OnFly) : (event : OnFlyEvent) → Decidable (state.AnswersTracked event)
  | .tileprocessed => inferInstanceAs (Decidable (∀ _ ∈ _, _))
  | .enqueue .. | .enqueueOther .. | .dequeue | .receive | .messagesDone | .removeOutdated _
  | .cancelTiles | .terminate | .other _ => .isTrue trivial

/-!
## What is on the way
-/

/-- The messages on the way have different numbers, and a new one gets another. -/
structure Sound (state : OnFly) : Prop where
  distinct : (state.flights.map (·.serial)).Nodup
  serials : ∀ flight ∈ state.flights, flight.serial < state.session.senderQueue.enqueued.length
  tracked : ∀ serial ∈ state.tracked, serial < state.session.senderQueue.enqueued.length

section

variable {state : OnFly} {session : TileSession} {message : TileMessage}

private theorem flight?_tile (serial : Nat) (message : TileMessage) :
    QueueItem.flight? ⟨serial, .tile message⟩ = some ⟨serial, message.desc.generateID⟩ := by
  show some (Flight.mk serial (parseServerCmd message).tileID) = _
  rw [tileID_parseServerCmd]

private theorem flight?_other {message : SenderMessage}
    (notTile : ∀ tile, message ≠ .tile tile) (serial : Nat) :
    QueueItem.flight? ⟨serial, message⟩ = none := by
  cases message with
  | tile tile => exact absurd rfl (notTile tile)
  | last | invalidateViewCursor | other => rfl

/-- A tile replaces a queued message for the same tile. -/
private theorem flight?_superseded {item : QueueItem}
    (supersedes : (SenderMessage.tile message).supersedes item = true) :
    message.command = .tile ∧
      QueueItem.flight? item = some ⟨item.serial, message.desc.generateID⟩ := by
  obtain ⟨serial, old⟩ := item
  cases old with
  | tile old =>
      simp only [SenderMessage.supersedes, Bool.and_eq_true, beq_iff_eq, TileDesc.beq_iff] at supersedes
      obtain ⟨⟨command, -⟩, sameKey, -⟩ := supersedes
      refine ⟨command, ?_⟩
      rw [flight?_tile]
      simp only [TileDesc.cacheKey, TileKey.mk.injEq] at sameKey
      simp [TileDesc.generateID, sameKey]
  | last | invalidateViewCursor | other => cases supersedes

private theorem notSuperseded_other {new : SenderMessage} (notTile : ∀ tile, new ≠ .tile tile)
    {item : QueueItem} (supersedes : new.supersedes item = true) : item.flight? = none := by
  obtain ⟨serial, old⟩ := item
  cases old with
  | tile old =>
      cases new with
      | tile new => exact absurd rfl (notTile new)
      | last | invalidateViewCursor | other => cases supersedes
  | last | invalidateViewCursor | other => rfl

private theorem traceTileBySend_same (desc : TileDesc) (deduplicated : Bool) (now : Nat) :
    (session.traceTileBySend desc deduplicated now).senderQueue = session.senderQueue ∧
      (session.traceTileBySend desc deduplicated now).tilesOnFly =
        if deduplicated then session.tilesOnFly
        else session.tilesOnFly ++ [(desc.generateID, now)] := by
  unfold TileSession.traceTileBySend TileSession.addTileOnFly
  by_cases known : (session.oldWireIds desc.generateID).isSome = true ∨ session.isVisible desc = true
  · cases deduplicated <;> simp [known]
  · cases deduplicated <;> simp [known]

/-- What a tile or delta message does to the queue and to the tiles on the fly. -/
private inductive Enqueues (session : TileSession) (message : TileMessage) (now : Nat)
    (after : TileSession) : Prop where
  | refused (same : after.senderQueue = session.senderQueue)
      (onFly : after.tilesOnFly = session.tilesOnFly)
      (notTile : ¬(message.command = .tile ∧ session.acceptsTile message = true))
  | delta (notTile : message.command = .delta)
      (accepted : session.senderQueue.terminationFlag = false)
      (queue : after.senderQueue = session.senderQueue.enqueue (.tile message))
      (onFly : after.tilesOnFly = session.tilesOnFly)
  | tile (isTile : message.command = .tile) (accepted : session.acceptsTile message = true)
      (queue : after.senderQueue = session.senderQueue.enqueue (.tile message))
      (onFly : after.tilesOnFly =
        if session.senderQueue.queue.length = after.senderQueue.queue.length then session.tilesOnFly
        else session.tilesOnFly ++ [(message.desc.generateID, now)])

private theorem enqueues (session : TileSession) (message : TileMessage) (now : Nat) :
    Enqueues session message now (session.enqueueSendMessage message now) := by
  unfold TileSession.enqueueSendMessage
  dsimp only
  split
  · next closed =>
      refine .refused rfl rfl ?_
      simp [TileSession.acceptsTile, closed]
  · next opened =>
      cases terminated : session.senderQueue.terminationFlag with
      | true =>
          have same : session.senderQueue.enqueue (.tile message) = session.senderQueue := by
            simp [SenderQueue.enqueue, terminated]
          have notTile : ¬(message.command = .tile ∧ session.acceptsTile message = true) := by
            simp [TileSession.acceptsTile, terminated]
          rw [same]
          split
          · exact .refused rfl rfl notTile
          · split
            · exact .refused rfl rfl notTile
            · obtain ⟨queue, onFly⟩ := @traceTileBySend_same session message.desc
                (session.senderQueue.queue.length == session.senderQueue.queue.length) now
              refine .refused queue ?_ notTile
              simpa using onFly
      | false =>
          split
          · next command => exact .delta command terminated rfl rfl
          · next command =>
              split
              · next filtered =>
                  refine .refused rfl rfl ?_
                  simp [TileSession.acceptsTile, filtered]
              · next accepted =>
                  have accepts : session.acceptsTile message = true := by
                    simp [TileSession.acceptsTile, opened, terminated]
                    tauto
                  obtain ⟨queue, onFly⟩ := @traceTileBySend_same { session with
                      senderQueue := session.senderQueue.enqueue (.tile message) } message.desc
                    (session.senderQueue.queue.length ==
                      (session.senderQueue.enqueue (.tile message)).queue.length) now
                  refine .tile command accepts queue ?_
                  rw [queue]
                  simpa using onFly

/-- The tiles and deltas of a list of messages. -/
private def tilesOf (items : List QueueItem) : List (Flight TileId) :=
  items.filterMap QueueItem.flight?

private theorem tilesOf_append (before after : List QueueItem) :
    tilesOf (before ++ after) = tilesOf before ++ tilesOf after :=
  List.filterMap_append

private theorem tilesOf_cons_of_some {item : QueueItem} {flight : Flight TileId}
    (isFlight : item.flight? = some flight) (items : List QueueItem) :
    tilesOf (item :: items) = flight :: tilesOf items :=
  List.filterMap_cons_some isFlight

private theorem tilesOf_cons_of_none {item : QueueItem} (notFlight : item.flight? = none)
    (items : List QueueItem) : tilesOf (item :: items) = tilesOf items :=
  List.filterMap_cons_none notFlight

/-- The messages that have left the queue. -/
private def sent (state : OnFly) : List (Flight TileId) :=
  state.acknowledgements ++ state.queuedProcessed ++ tilesOf state.onWire

private theorem flights_eq (state : OnFly) :
    state.flights = state.sent ++ tilesOf state.session.senderQueue.queue := by
  simp only [flights, sent, tilesOf, List.filterMap_append, List.append_assoc]

private theorem deduplicate_found {queue before after : List QueueItem} {old : QueueItem}
    {message : SenderMessage} (split : queue = before ++ old :: after)
    (supersedes : message.supersedes old = true)
    (others : ∀ item ∈ before, (!message.supersedes item) = true) :
    SenderQueue.deduplicate queue message = before ++ after := by
  unfold SenderQueue.deduplicate
  rw [split, List.eraseP_append_right, List.eraseP_cons_of_pos supersedes]
  intro item member
  simpa using others item member

/-- A tile takes the place of a queued one, or is added. -/
private theorem tilesOf_enqueue_tile (queue : List QueueItem) (message : TileMessage)
    (serial : Nat) :
    let after := SenderQueue.deduplicate queue (.tile message) ++ [⟨serial, .tile message⟩]
    match queue.find? (SenderMessage.tile message).supersedes with
    | none => after.length ≠ queue.length ∧
        tilesOf after = tilesOf queue ++ [⟨serial, message.desc.generateID⟩]
    | some old => message.command = .tile ∧ after.length = queue.length ∧ ∃ before rest,
        tilesOf queue = before ++ ⟨old.serial, message.desc.generateID⟩ :: rest ∧
          tilesOf after = before ++ rest ++ [⟨serial, message.desc.generateID⟩] := by
  intro after
  have isNew : tilesOf [⟨serial, .tile message⟩] = [⟨serial, message.desc.generateID⟩] :=
    tilesOf_cons_of_some (flight?_tile ..) []
  split
  · next notFound =>
      have same : SenderQueue.deduplicate queue (.tile message) = queue := by
        apply List.eraseP_of_forall_not
        intro item member supersedes
        exact List.find?_eq_none.mp notFound item member supersedes
      have isAfter : after = queue ++ [⟨serial, .tile message⟩] := by rw [← same]
      rw [isAfter, tilesOf_append, isNew]
      exact ⟨by simp, rfl⟩
  · next old found =>
      obtain ⟨supersedes, before, rest, split, others⟩ := List.find?_eq_some_iff_append.mp found
      have isAfter : after = before ++ rest ++ [⟨serial, .tile message⟩] := by
        rw [← deduplicate_found split supersedes others]
      obtain ⟨command, isOld⟩ := flight?_superseded supersedes
      refine ⟨command, ?_, tilesOf before, tilesOf rest, ?_, ?_⟩
      · rw [isAfter, split]
        simp
      · rw [split, tilesOf_append, tilesOf_cons_of_some isOld]
      · rw [isAfter, tilesOf_append, tilesOf_append, isNew]

private theorem tilesOf_enqueue_other (queue : List QueueItem) {message : SenderMessage}
    (notTile : ∀ tile, message ≠ .tile tile) (serial : Nat) :
    tilesOf (SenderQueue.deduplicate queue message ++ [⟨serial, message⟩]) = tilesOf queue := by
  rw [tilesOf_append, tilesOf_cons_of_none (flight?_other notTile serial)]
  cases found : queue.find? message.supersedes with
  | none =>
      have same : SenderQueue.deduplicate queue message = queue := by
        apply List.eraseP_of_forall_not
        intro item member supersedes
        exact List.find?_eq_none.mp found item member supersedes
      rw [same]
      exact List.append_nil _
  | some old =>
      obtain ⟨supersedes, before, rest, split, others⟩ := List.find?_eq_some_iff_append.mp found
      rw [deduplicate_found split supersedes others, split, tilesOf_append, tilesOf_append,
        tilesOf_cons_of_none (notSuperseded_other notTile supersedes)]
      exact List.append_nil _

/-!
## What one step keeps
-/

private def serial (state : OnFly) : Nat := state.session.senderQueue.enqueued.length

/-- Nothing new is on the way, and no more is tracked. -/
private theorem Sound.of_subset {after : OnFly} (sound : state.Sound)
    (flights : after.flights.Sublist state.flights)
    (enqueued : state.serial ≤ after.serial)
    (tracked : ∀ serial ∈ after.tracked, serial ∈ state.tracked) : after.Sound where
  distinct := sound.distinct.sublist (flights.map _)
  serials := by
    intro flight member
    exact Nat.lt_of_lt_of_le (sound.serials flight (flights.subset member)) enqueued
  tracked := by
    intro serial member
    exact Nat.lt_of_lt_of_le (sound.tracked serial (tracked serial member)) enqueued

/-- A new message is on the way, perhaps in the place of another one. -/
private theorem Sound.of_push {after : OnFly} {flights : List (Flight TileId)} {label : TileId}
    (sound : state.Sound) (sublist : flights.Sublist state.flights)
    (pushed : after.flights = flights ++ [⟨state.serial, label⟩])
    (enqueued : after.session.senderQueue.enqueued.length = state.serial + 1)
    (tracked : ∀ serial ∈ after.tracked, serial = state.serial ∨ serial ∈ state.tracked) :
    after.Sound := by
  have below : ∀ flight ∈ flights, flight.serial < state.serial :=
    fun flight member => sound.serials flight (sublist.subset member)
  refine ⟨?_, ?_, ?_⟩
  · rw [pushed, List.map_append, List.nodup_append]
    refine ⟨sound.distinct.sublist (sublist.map _), List.nodup_singleton _, ?_⟩
    intro old member new isNew
    obtain ⟨flight, isFlight, rfl⟩ := List.mem_map.mp member
    cases List.mem_singleton.mp isNew
    exact Nat.ne_of_lt (below flight isFlight)
  · intro flight member
    rw [pushed] at member
    rw [enqueued]
    rcases List.mem_append.mp member with old | new
    · exact Nat.lt_succ_of_lt (below flight old)
    · cases List.mem_singleton.mp new
      exact Nat.lt_succ_self _
  · intro serial member
    rw [enqueued]
    rcases tracked serial member with rfl | old
    · exact Nat.lt_succ_self _
    · exact Nat.lt_succ_of_lt (sound.tracked serial old)

private def Balanced (state : OnFly) : Prop :=
  state.session.entries.Perm (Flight.owed state.tracked state.flights)

private theorem queue_enqueue {queue : SenderQueue} (running : queue.terminationFlag = false)
    (message : SenderMessage) :
    (queue.enqueue message).queue =
        SenderQueue.deduplicate queue.queue message ++ [⟨queue.enqueued.length, message⟩] ∧
      (queue.enqueue message).enqueued.length = queue.enqueued.length + 1 := by
  simp [SenderQueue.enqueue, running]

private theorem fresh_serial (sound : state.Sound) {flights : List (Flight TileId)}
    (sublist : flights.Sublist state.flights) :
    ∀ flight ∈ flights, flight.serial ≠ state.serial :=
  fun flight member => Nat.ne_of_lt (sound.serials flight (sublist.subset member))

private theorem notTracked_serial (sound : state.Sound) : state.serial ∉ state.tracked :=
  fun isTracked => Nat.lt_irrefl _ (sound.tracked _ isTracked)

private theorem distinct_middle {before after : List (Flight TileId)} {flight : Flight TileId}
    (distinct : ((before ++ flight :: after).map (·.serial)).Nodup) :
    ∀ other ∈ before ++ after, other.serial ≠ flight.serial := by
  rw [List.map_append, List.map_cons, List.nodup_middle, List.nodup_cons, ← List.map_append]
    at distinct
  intro other member same
  exact distinct.1 (List.mem_map.mpr ⟨other, member, same⟩)

/-- The same messages are on the way, with the same entries. -/
private theorem kept {after : OnFly} (sound : state.Sound) (balanced : state.Balanced)
    (flights : after.flights = state.flights) (enqueued : state.serial ≤ after.serial)
    (onFly : after.session.tilesOnFly = state.session.tilesOnFly)
    (tracked : after.tracked = state.tracked) : after.Sound ∧ after.Balanced := by
  refine ⟨sound.of_subset ?_ enqueued (by simp [tracked]), ?_⟩
  · rw [flights]
  · unfold Balanced TileSession.entries
    rw [flights, onFly, tracked]
    exact balanced

private theorem step_refused {now : Nat} {after : OnFly}
    (isAfter : after = state.step (.enqueue message now)) (sound : state.Sound)
    (balanced : state.Balanced)
    (same : after.session.senderQueue = state.session.senderQueue)
    (onFly : after.session.tilesOnFly = state.session.tilesOnFly)
    (tracked : after.tracked = state.tracked) : after.Sound ∧ after.Balanced := by
  refine kept sound balanced ?_ ?_ onFly tracked
  · rw [flights_eq, flights_eq, same, isAfter]
    rfl
  · unfold serial
    rw [same]

private theorem step_delta {now : Nat} {after : OnFly}
    (isAfter : after = state.step (.enqueue message now)) (sound : state.Sound)
    (balanced : state.Balanced) (notTile : message.command = .delta)
    (running : state.session.senderQueue.terminationFlag = false)
    (queue : after.session.senderQueue = state.session.senderQueue.enqueue (.tile message))
    (onFly : after.session.tilesOnFly = state.session.tilesOnFly)
    (tracked : after.tracked = state.tracked) : after.Sound ∧ after.Balanced := by
  obtain ⟨isQueue, enqueued⟩ := queue_enqueue running (.tile message)
  have tiles := tilesOf_enqueue_tile state.session.senderQueue.queue message state.serial
  cases found : state.session.senderQueue.queue.find? (SenderMessage.tile message).supersedes with
  | some old =>
      rw [found] at tiles
      cases notTile.symm.trans tiles.1
  | none =>
      rw [found] at tiles
      have pushed : after.flights = state.flights ++ [⟨state.serial, message.desc.generateID⟩] := by
        rw [flights_eq, flights_eq, queue, isQueue, List.append_assoc]
        have sameSent : after.sent = state.sent := by rw [isAfter]; rfl
        rw [sameSent]
        exact congrArg _ tiles.2
      refine ⟨sound.of_push (.refl _) pushed ?_ ?_, ?_⟩
      · rw [queue]
        exact enqueued
      · rw [tracked]
        exact fun _ member => .inr member
      · unfold Balanced TileSession.entries at balanced ⊢
        rw [pushed, onFly, tracked, Flight.owed_append,
          Flight.owed_cons_of_notMem (notTracked_serial sound)]
        simpa [Flight.owed] using balanced

private theorem step_tile {now : Nat} {after : OnFly}
    (isAfter : after = state.step (.enqueue message now)) (sound : state.Sound)
    (balanced : state.Balanced)
    (running : state.session.senderQueue.terminationFlag = false)
    (queue : after.session.senderQueue = state.session.senderQueue.enqueue (.tile message))
    (onFly : after.session.tilesOnFly =
      if state.session.senderQueue.queue.length = after.session.senderQueue.queue.length then
        state.session.tilesOnFly
      else state.session.tilesOnFly ++ [(message.desc.generateID, now)])
    (tracked : after.tracked =
      match state.session.senderQueue.queue.find? (SenderMessage.tile message).supersedes with
      | none => state.serial :: state.tracked
      | some old => Flight.retrack state.tracked old.serial state.serial) :
    after.Sound ∧ after.Balanced := by
  obtain ⟨isQueue, enqueued⟩ := queue_enqueue running (.tile message)
  have sameSent : after.sent = state.sent := by rw [isAfter]; rfl
  have tiles := tilesOf_enqueue_tile state.session.senderQueue.queue message state.serial
  rw [queue, isQueue] at onFly
  cases found : state.session.senderQueue.queue.find? (SenderMessage.tile message).supersedes with
  | none =>
      rw [found] at tiles tracked
      dsimp only at tiles tracked
      obtain ⟨longer, tiles⟩ := tiles
      have onFly := onFly.trans (if_neg fun same => longer same.symm)
      have pushed : after.flights = state.flights ++ [⟨state.serial, message.desc.generateID⟩] := by
        rw [flights_eq, flights_eq, queue, isQueue, sameSent, List.append_assoc]
        exact congrArg _ tiles
      refine ⟨sound.of_push (.refl _) pushed ?_ ?_, ?_⟩
      · rw [queue]
        exact enqueued
      · rw [tracked]
        exact fun _ member => List.mem_cons.mp member
      · unfold Balanced TileSession.entries
        rw [pushed, onFly, tracked, List.map_append]
        exact @Flight.push_perm _ _ _ _ ⟨state.serial, message.desc.generateID⟩ balanced
          (fresh_serial sound (.refl _))
  | some old =>
      rw [found] at tiles tracked
      dsimp only at tiles tracked
      obtain ⟨-, sameLength, before, rest, isOld, isNew⟩ := tiles
      have onFly := onFly.trans (if_pos sameLength.symm)
      have isState : state.flights =
          (state.sent ++ before) ++ ⟨old.serial, message.desc.generateID⟩ :: rest := by
        rw [flights_eq, isOld, List.append_assoc]
      have pushed : after.flights =
          ((state.sent ++ before) ++ rest) ++ [⟨state.serial, message.desc.generateID⟩] := by
        rw [flights_eq, queue, isQueue, sameSent, List.append_assoc, List.append_assoc,
          ← List.append_assoc before]
        exact congrArg _ isNew
      have sublist : ((state.sent ++ before) ++ rest).Sublist state.flights := by
        rw [isState]
        exact (List.sublist_cons_self ..).append_left _
      have distinct := sound.distinct
      rw [isState] at distinct
      refine ⟨sound.of_push sublist pushed ?_ ?_, ?_⟩
      · rw [queue]
        exact enqueued
      · rw [tracked]
        intro serial member
        unfold Flight.retrack at member
        split at member
        · rcases List.mem_cons.mp member with isNew | isOld
          · exact .inl isNew
          · exact .inr (Flight.mem_forget.mp isOld).1
        · exact .inr member
      · unfold Balanced TileSession.entries
        rw [pushed, onFly, tracked]
        unfold Balanced at balanced
        rw [isState] at balanced
        exact @Flight.replace_perm _ _ _ _ _ _ ⟨state.serial, message.desc.generateID⟩ balanced rfl
          (notTracked_serial sound) (distinct_middle distinct) (fresh_serial sound sublist)

private theorem step_enqueue (sound : state.Sound) (balanced : state.Balanced) (now : Nat) :
    (state.step (.enqueue message now)).Sound ∧ (state.step (.enqueue message now)).Balanced := by
  have isTracked : (state.step (.enqueue message now)).tracked = state.trackEnqueued message := rfl
  unfold trackEnqueued at isTracked
  cases enqueues state.session message now with
  | refused same onFly notTile =>
      exact step_refused rfl sound balanced same onFly (isTracked.trans (if_neg notTile))
  | delta notTile running queue onFly =>
      have isDelta : ¬(message.command = .tile ∧ state.session.acceptsTile message = true) := by
        simp [notTile]
      exact step_delta rfl sound balanced notTile running queue onFly
        (isTracked.trans (if_neg isDelta))
  | tile isTile accepted queue onFly =>
      have running : state.session.senderQueue.terminationFlag = false := by
        simp only [TileSession.acceptsTile, Bool.and_eq_true, Bool.not_eq_true'] at accepted
        exact accepted.1.2
      exact step_tile rfl sound balanced running queue onFly
        (isTracked.trans (if_pos ⟨isTile, accepted⟩))

private theorem step_enqueueOther (sound : state.Sound) (balanced : state.Balanced)
    {message : SenderMessage} (notTile : ∀ tile, message ≠ .tile tile) :
    (state.step (.enqueueOther message notTile)).Sound ∧
      (state.step (.enqueueOther message notTile)).Balanced := by
  cases closed : state.session.isCloseFrame with
  | true =>
      have same : state.session.enqueueOther message = state.session := by
        simp [TileSession.enqueueOther, closed]
      simp only [step, same]
      exact ⟨sound, balanced⟩
  | false =>
      have opened : state.session.enqueueOther message =
          { state.session with senderQueue := state.session.senderQueue.enqueue message } := by
        simp [TileSession.enqueueOther, closed]
      cases running : state.session.senderQueue.terminationFlag with
      | true =>
          have same : state.session.senderQueue.enqueue message = state.session.senderQueue := by
            simp [SenderQueue.enqueue, running]
          simp only [step, opened, same]
          exact ⟨sound, balanced⟩
      | false =>
          obtain ⟨isQueue, enqueued⟩ := queue_enqueue running message
          have isSession : (state.step (.enqueueOther message notTile)).session =
              { state.session with senderQueue := state.session.senderQueue.enqueue message } :=
            opened
          refine kept sound balanced ?_ ?_ (by rw [isSession]) rfl
          · rw [flights_eq, flights_eq, isSession, isQueue, tilesOf_enqueue_other _ notTile]
            rfl
          · unfold serial
            rw [isSession, enqueued]
            exact Nat.le_succ _

private theorem step_dequeue (sound : state.Sound) (balanced : state.Balanced) :
    (state.step .dequeue).Sound ∧ (state.step .dequeue).Balanced := by
  refine kept sound balanced ?_ ?_ rfl rfl
  · simp only [step, flights, SenderQueue.dequeue]
    split
    · rfl
    · cases isQueue : state.session.senderQueue.queue with
      | nil => simp [isQueue]
      | cons item queue => simp
  · simp only [step, serial, SenderQueue.dequeue]
    split
    · exact le_rfl
    · cases state.session.senderQueue.queue with
      | nil => exact le_rfl
      | cons item queue => exact le_rfl

private theorem step_receive (sound : state.Sound) (balanced : state.Balanced) :
    (state.step .receive).Sound ∧ (state.step .receive).Balanced := by
  refine kept sound balanced ?_ le_rfl rfl rfl
  simp only [step, flights]
  cases state.onWire with
  | nil => simp
  | cons item onWire =>
      cases isFlight : item.flight? with
      | none => simp [isFlight]
      | some flight => simp [isFlight]

private theorem step_messagesDone (sound : state.Sound) (balanced : state.Balanced) :
    (state.step .messagesDone).Sound ∧ (state.step .messagesDone).Balanced := by
  refine kept sound balanced ?_ le_rfl rfl rfl
  simp [step, flights]

private theorem step_cancelTiles (sound : state.Sound) :
    (state.step .cancelTiles).Sound ∧ (state.step .cancelTiles).Balanced := by
  refine ⟨sound.of_subset (.refl _) le_rfl (by simp [step]), ?_⟩
  show List.Perm [] (Flight.owed [] _)
  rw [Flight.owed_nil]

private theorem mem_untracked {flights : List (Flight TileId)} {tracked : List Nat}
    {dropped : List TileId} {serial : Nat}
    (member : serial ∈ dropped.foldl (Flight.untrack flights) tracked) : serial ∈ tracked := by
  induction dropped generalizing tracked with
  | nil => exact member
  | cons label dropped ih => exact Flight.mem_of_mem_untrack (ih member)

/-- The entries are dropped from the front, one after the other. -/
private theorem untracked_perm {flights : List (Flight TileId)} {tracked : List Nat}
    {dropped entries : List TileId} (distinct : (flights.map (·.serial)).Nodup)
    (accounts : (dropped ++ entries).Perm (Flight.owed tracked flights)) :
    entries.Perm (Flight.owed (dropped.foldl (Flight.untrack flights) tracked) flights) := by
  induction dropped generalizing tracked with
  | nil => exact accounts
  | cons label dropped ih => exact ih (Flight.untrack_perm distinct accounts)

private theorem step_removeOutdated (sound : state.Sound) (balanced : state.Balanced) (now : Nat) :
    (state.step (.removeOutdated now)).Sound ∧ (state.step (.removeOutdated now)).Balanced := by
  refine ⟨sound.of_subset (.refl _) le_rfl fun _ member => mem_untracked member, ?_⟩
  have dropped : ((state.session.tilesOnFly.takeWhile fun tile =>
      decide (now - tile.2 > commandTimeoutMs)).map (·.1)) ++
        (state.session.removeOutdatedTilesOnFly now).entries = state.session.entries := by
    unfold TileSession.entries TileSession.removeOutdatedTilesOnFly
    rw [← List.map_append, List.takeWhile_append_dropWhile]
  unfold Balanced at balanced
  rw [← dropped] at balanced
  exact untracked_perm sound.distinct balanced

private theorem entries_tileprocessed (tileID : TileId) :
    (session.tileprocessed tileID).entries = session.entries.erase tileID := by
  unfold TileSession.tileprocessed TileSession.entries
  rw [List.erase_eq_eraseP', List.eraseP_map]
  rfl

private theorem step_tileprocessed (sound : state.Sound) (balanced : state.Balanced) :
    (state.step .tileprocessed).Sound ∧
      ((state.step .tileprocessed).Balanced ↔ state.AnswersTracked .tileprocessed) := by
  unfold step AnswersTracked
  cases isFirst : state.acknowledgements with
  | nil => exact ⟨sound, iff_of_true balanced (by simp)⟩
  | cons flight acknowledgements =>
      dsimp only
      let after : OnFly :=
        { state with
          session := state.session.tileprocessed flight.label
          acknowledgements := acknowledgements
          tracked := Flight.forget state.tracked flight.serial }
      have isState : state.flights = flight :: after.flights := by
        unfold flights
        rw [isFirst]
        rfl
      have distinct := sound.distinct
      rw [isState] at distinct
      have sublist : after.flights.Sublist state.flights := by
        rw [isState]
        exact List.sublist_cons_self ..
      refine ⟨@Sound.of_subset _ after sound sublist le_rfl
        fun _ member => (Flight.mem_forget.mp member).1, ?_⟩
      unfold Balanced at balanced ⊢
      rw [isState] at balanced
      rw [entries_tileprocessed]
      have answered := Flight.answer_iff balanced (@distinct_middle [] after.flights flight distinct)
      simpa using answered

/-- The messages on the way stay different, and the accounts stay right but for an answer to
a message that is not tracked. -/
private theorem step_iff (sound : state.Sound) (balanced : state.Balanced) (event : OnFlyEvent) :
    (state.step event).Sound ∧ ((state.step event).Balanced ↔ state.AnswersTracked event) := by
  have always {event : OnFlyEvent} (trivially : state.AnswersTracked event)
      (keeps : (state.step event).Sound ∧ (state.step event).Balanced) :
      (state.step event).Sound ∧
        ((state.step event).Balanced ↔ state.AnswersTracked event) :=
    ⟨keeps.1, iff_of_true keeps.2 trivially⟩
  cases event with
  | enqueue message now => exact always trivial (step_enqueue sound balanced now)
  | enqueueOther message notTile => exact always trivial (step_enqueueOther sound balanced notTile)
  | dequeue => exact always trivial (step_dequeue sound balanced)
  | receive => exact always trivial (step_receive sound balanced)
  | messagesDone => exact always trivial (step_messagesDone sound balanced)
  | tileprocessed => exact step_tileprocessed sound balanced
  | removeOutdated now => exact always trivial (step_removeOutdated sound balanced now)
  | cancelTiles => exact always trivial (step_cancelTiles sound)
  | terminate => exact always trivial (kept sound balanced rfl le_rfl rfl rfl)
  | other changed => exact always trivial (kept sound balanced rfl le_rfl rfl rfl)

end

/-- A session that has just begun. -/
def start (session : TileSession) : OnFly where
  session := { session with tilesOnFly := [], senderQueue := .empty }
  onWire := []
  queuedProcessed := []
  acknowledgements := []
  tracked := []

/-- After every step there are as many entries for each tile as tracked messages not yet
acknowledged in exactly the runs in which no message that is not tracked is acknowledged
while there is an entry for its tile. -/
theorem run_accounts_iff (session : TileSession) (events : List OnFlyEvent) :
    (∀ before event after, events = before ++ event :: after →
        ((run step (start session) before).step event).Accounts) ↔
      Permitted step AnswersTracked (start session) events := by
  rw [← @permitted_iff_forall _ _ step fun state event => (state.step event).Accounts]
  refine permitted_congr (fun state => state.Sound ∧ state.Accounts) ?_ ?_ ?_
  · rintro state event ⟨sound, accounts⟩ accountsAfter
    exact ⟨(step_iff sound (state.accounts_iff.mp accounts) event).1, accountsAfter⟩
  · rintro state event ⟨sound, accounts⟩
    rw [accounts_iff]
    exact (step_iff sound (state.accounts_iff.mp accounts) event).2
  · exact ⟨⟨List.nodup_nil, List.forall_mem_nil _, nofun⟩, (accounts_iff _).mpr (.refl [])⟩

def slideSession : TileSession where
  id := 1
  canonicalViewId := 0
  isCloseFrame := false
  tracker := ⟨.empty⟩
  requestedTiles := []
  tilesOnFly := []
  oldWireIds := fun _ => none
  isVisible := fun _ => true
  senderQueue := .empty

def slideMessage (command : TileCommand) (wireId : TileWireId) : TileMessage where
  command := command
  desc :=
    { normalizedViewId := 0
      part := 0
      mode := 0
      width := 256
      height := 256
      tilePosX := 0
      tilePosY := 0
      tileWidth := 3840
      tileHeight := 3840
      ver := 0
      imgSize := 0
      id := -1
      broadcast := false
      oldWireId := 0
      wireId := wireId
      valid := ⟨by decide, by decide, by decide⟩ }
  data := [90, 7]

/-- The client answers to a delta, and the keyframe of the same tile sent behind it is not
on the fly any more. -/
theorem run_answered_delta_removes :
    let state := run step (start slideSession) [.enqueue (slideMessage .tile 1) 0, .dequeue,
      .receive, .messagesDone, .tileprocessed, .enqueue (slideMessage .delta 2) 0,
      .enqueue (slideMessage .tile 3) 0, .dequeue, .dequeue, .receive, .receive, .messagesDone,
      .tileprocessed]
    ¬state.Accounts ∧ state.session.entries = [] ∧
      Flight.owed state.tracked state.flights = [(slideMessage .tile 3).desc.generateID] := by
  decide

end OnFly

end FreeOnline.Wsd
