import FreeOnline.Wsd.TileRequests
import FreeOnline.Wsd.TileSubscriptions

/-!
# Sending the requested tiles

The loop over the list of requested tiles visits a first part of it. What it does to a tile
depends only on the state before the loop, since no two tiles of the list are the same.
-/

set_option autoImplicit false

namespace FreeOnline.Wsd

open FreeOnline.Kit (TileWireId)
open FreeOnline.Library

/-!
## Lookups
-/

namespace TileCache

variable {tileCache other : TileCache} {desc same : TileDesc}

def rendering? (tileCache : TileCache) (key : TileKey) : Option TileBeingRendered :=
  tileCache.tilesBeingRendered.find? key

theorem lookupTile_congr (cache : tileCache.cache = other.cache)
    (dontCache : tileCache.dontCache = other.dontCache) (key : desc.cacheKey = same.cacheKey) :
    tileCache.lookupTile desc = other.lookupTile same := by
  have viewId : desc.normalizedViewId = same.normalizedViewId :=
    congrArg TileKey.normalizedViewId key
  unfold lookupTile findTile
  rw [cache, dontCache, key, viewId]

@[simp] theorem lookupTile_setVersion (tileCache : TileCache) (desc : TileDesc) (ver : Int) :
    tileCache.lookupTile (desc.setVersion ver) = tileCache.lookupTile desc := rfl

@[simp] theorem lookupTile_setOldWireId (tileCache : TileCache) (desc : TileDesc)
    (oldWireId : TileWireId) :
    tileCache.lookupTile (desc.setOldWireId oldWireId) = tileCache.lookupTile desc := rfl

theorem isValid_congr (cache : tileCache.cache = other.cache)
    (dontCache : tileCache.dontCache = other.dontCache) (key : desc.cacheKey = same.cacheKey) :
    tileCache.isValid desc = other.isValid same := by
  unfold isValid
  rw [lookupTile_congr cache dontCache key]

theorem needsRendering_eq (tileCache : TileCache) (desc : TileDesc) (now : Nat) :
    tileCache.needsRendering desc now =
      match tileCache.rendering? desc.cacheKey with
      | none => true
      | some rendering => isStale rendering now || decide (rendering.tile.ver < desc.ver) := by
  unfold needsRendering hasTileBeingRendered getTileBeingRenderedVersion findTileBeingRendered
    rendering?
  cases tileCache.tilesBeingRendered.find? desc.cacheKey with
  | none => rfl
  | some rendering => simp

theorem needsRendering_congr {now : Nat}
    (rendering : tileCache.rendering? desc.cacheKey = other.rendering? desc.cacheKey) :
    tileCache.needsRendering desc now = other.needsRendering desc now := by
  rw [needsRendering_eq, needsRendering_eq, rendering]

theorem rendering?_subscribeToTileRendering (tileCache : TileCache) (tile : TileDesc)
    (session : SessionId) (now : Nat) (key : TileKey) :
    (tileCache.subscribeToTileRendering tile session now).rendering? key =
      if key = tile.cacheKey then
        some (subscribed tile session now (tileCache.rendering? tile.cacheKey))
      else tileCache.rendering? key :=
  find?_subscribeToTileRendering tileCache tile session now key

end TileCache

/-- What is being rendered has a version that was given out before. -/
def TileWork.Numbered (work : TileWork) : Prop :=
  ∀ key rendering, work.tileCache.rendering? key = some rendering →
    rendering.tile.ver ≤ work.tileVersion

theorem TileWork.Numbered.subscribe {work next : TileWork} (numbered : work.Numbered)
    {tile : TileDesc} {session : SessionId} {now : Nat} (inTime : tile.ver ≤ next.tileVersion)
    (later : work.tileVersion ≤ next.tileVersion)
    (subscribes : next.tileCache = work.tileCache.subscribeToTileRendering tile session now) :
    next.Numbered := by
  intro key rendering found
  rw [subscribes, TileCache.rendering?_subscribeToTileRendering] at found
  split at found
  · rw [Option.some.injEq] at found
    rw [← found]
    rcases TileCache.ver_subscribed tile session now (work.tileCache.rendering? tile.cacheKey) with
      isNew | ⟨old, isOld, same⟩
    · rw [isNew]
      exact inTime
    · have before := numbered _ old isOld
      rw [same]
      omega
  · have before := numbered key rendering found
    omega

/-!
## What sending changes of the session
-/

namespace TileSession

variable (session : TileSession)

/-- All that sending a tile may change of the list of tiles on the fly. -/
structure Sends (desc : TileDesc) (next : TileSession) : Prop where
  id : next.id = session.id
  requestedTiles : next.requestedTiles = session.requestedTiles
  tilesOnFly : next.tilesOnFly = session.tilesOnFly ∨
    ∃ now, next.tilesOnFly = session.tilesOnFly ++ [(desc.generateID, now)]

variable {session}

theorem sends_enqueueSendMessage (message : TileMessage) (now : Nat) :
    session.Sends message.desc (session.enqueueSendMessage message now) := by
  have traced (other : TileSession) (deduplicated : Bool) (sameId : other.id = session.id)
      (sameTiles : other.requestedTiles = session.requestedTiles)
      (sameOnFly : other.tilesOnFly = session.tilesOnFly) :
      session.Sends message.desc (other.traceTileBySend message.desc deduplicated now) := by
    unfold traceTileBySend addTileOnFly
    dsimp only
    cases deduplicated with
    | true =>
        simp only [↓reduceIte]
        split
        · exact ⟨sameId, sameTiles, .inl sameOnFly⟩
        · exact ⟨sameId, sameTiles, .inl sameOnFly⟩
    | false =>
        simp only [Bool.false_eq_true, ↓reduceIte]
        split
        · exact ⟨sameId, sameTiles, .inr ⟨now, by rw [sameOnFly]⟩⟩
        · exact ⟨sameId, sameTiles, .inr ⟨now, by rw [sameOnFly]⟩⟩
  unfold enqueueSendMessage
  dsimp only
  split
  · exact ⟨rfl, rfl, .inl rfl⟩
  · cases message.command with
    | delta => exact ⟨rfl, rfl, .inl rfl⟩
    | tile =>
        dsimp only
        split
        · exact ⟨rfl, rfl, .inl rfl⟩
        · exact traced _ _ rfl rfl rfl

theorem sends_sendTile (desc : TileDesc) (tile : TileData) (now : Nat) :
    session.Sends desc (session.sendTile desc tile now) := by
  unfold sendTile
  cases sent : Wsd.sendTile session.tracker desc tile with
  | mk message tracker =>
      cases message with
      | none => exact ⟨rfl, rfl, .inl rfl⟩
      | some message =>
          have ofDesc : message.desc = desc := by
            unfold Wsd.sendTile at sent
            dsimp only at sent
            split at sent
            · cases sent
              rfl
            · cases sent
          obtain ⟨id, requestedTiles, tilesOnFly⟩ :=
            @sends_enqueueSendMessage { session with tracker := tracker } message now
          rw [ofDesc] at tilesOnFly
          exact ⟨id, requestedTiles, tilesOnFly⟩

theorem Sends.countIdenticalTilesOnFly {desc other : TileDesc} {next : TileSession}
    (sends : session.Sends desc next) (different : desc.generateID ≠ other.generateID) :
    next.countIdenticalTilesOnFly other = session.countIdenticalTilesOnFly other := by
  unfold TileSession.countIdenticalTilesOnFly
  rcases sends.tilesOnFly with same | ⟨now, added⟩
  · rw [same]
  · rw [added, List.countP_append]
    simp [different]

end TileSession

/-!
## What sending puts on the fly
-/

/-- The tile is sent as a keyframe after what the client was sent last. -/
def TileData.comesWhole (tile : TileData) (lastSent : TileWireId) : Bool :=
  (tile.appendChangesSince [] (if tile.isPng then 0 else lastSent)).1 &&
    (tile.needsKeyframe lastSent || tile.isPng)

theorem TileDesc.generateID_eq_of_beq {desc other : TileDesc} (same : desc.beq other = true) :
    desc.generateID = other.generateID := by
  simp only [TileDesc.beq, Bool.and_eq_true, beq_iff_eq] at same
  simp [TileDesc.generateID, same]

namespace TileSession

variable (session : TileSession)

/-- A keyframe of the tile is queued and counts: it is not the one that the client has, and replaces
none that is queued. -/
def traces (desc : TileDesc) : Bool :=
  !session.isCloseFrame &&
    !decide (session.oldWireIds desc.generateID = some desc.wireId ∧ desc.wireId ≠ 0) &&
    !session.senderQueue.terminationFlag &&
    session.senderQueue.queue.all fun cur => !(SenderMessage.tile ⟨.tile, desc, []⟩).supersedes cur

/-- Sending a cached tile puts it on the list of tiles on the fly. -/
def putsOnFly (desc : TileDesc) (tile : TileData) : Bool :=
  tile.comesWhole (session.tracker.lastSent desc.cacheKey) && session.traces desc

variable {session}

theorem supersedes_congr {desc other : TileDesc} (data : List UInt8)
    (same : ∀ cur, desc.beq cur = other.beq cur) :
    (SenderMessage.tile ⟨.tile, desc, data⟩).supersedes =
      (SenderMessage.tile ⟨.tile, other, []⟩).supersedes := by
  funext ⟨serial, content⟩
  cases content with
  | tile message => simp only [SenderMessage.supersedes, same]
  | last _ _ => rfl
  | invalidateViewCursor _ _ => rfl
  | other _ => rfl

theorem traces_congr {desc other : TileDesc} (sameId : desc.generateID = other.generateID)
    (sameWireId : desc.wireId = other.wireId) (same : ∀ cur, desc.beq cur = other.beq cur) :
    session.traces desc = session.traces other := by
  unfold traces
  simp only [sameId, sameWireId, supersedes_congr [] same]

/-- Nothing that is queued of another tile is replaced. -/
theorem not_supersedes {other : TileDesc} {message : TileMessage} (serial : Nat)
    (different : message.desc.generateID ≠ other.generateID) :
    (SenderMessage.tile ⟨.tile, other, []⟩).supersedes ⟨serial, .tile message⟩ = false := by
  refine Bool.eq_false_iff.mpr fun supersedes => different ?_
  simp only [SenderMessage.supersedes, Bool.and_eq_true] at supersedes
  exact (TileDesc.generateID_eq_of_beq supersedes.2).symm

/-- Queueing a message of another tile changes nothing that counts. -/
theorem all_enqueue {other : TileDesc} {message : TileMessage}
    (different : message.desc.generateID ≠ other.generateID) (queue : SenderQueue) :
    (queue.enqueue (.tile message)).terminationFlag = queue.terminationFlag ∧
      ((queue.enqueue (.tile message)).queue.all fun cur =>
        !(SenderMessage.tile ⟨.tile, other, []⟩).supersedes cur) =
      queue.queue.all fun cur => !(SenderMessage.tile ⟨.tile, other, []⟩).supersedes cur := by
  unfold SenderQueue.enqueue
  split
  · exact ⟨rfl, rfl⟩
  · refine ⟨rfl, ?_⟩
    have isOther := not_supersedes queue.enqueued.length different
    rw [List.all_append, List.all_cons, isOther, List.all_nil, Bool.not_false, Bool.and_true,
      Bool.and_true, SenderQueue.deduplicate]
    rcases List.exists_or_eq_self_of_eraseP (SenderMessage.tile message).supersedes queue.queue with
      same | ⟨replaced, before, after, -, isReplaced, isQueue, isErased⟩
    · rw [same]
    · have unaffected :
          (SenderMessage.tile ⟨.tile, other, []⟩).supersedes replaced = false := by
        obtain ⟨serial, content⟩ := replaced
        cases content with
        | tile queued =>
            simp only [SenderMessage.supersedes, Bool.and_eq_true] at isReplaced
            have sameId := TileDesc.generateID_eq_of_beq isReplaced.2
            exact not_supersedes serial (sameId ▸ different)
        | last _ _ => rfl
        | invalidateViewCursor _ _ => rfl
        | other _ => rfl
      rw [isErased, isQueue, List.all_append, List.all_append, List.all_cons, unaffected,
        Bool.not_false, Bool.true_and]

/-- A queue stays as long as it is where it is closed or the message replaces one. -/
theorem length_enqueue (queue : SenderQueue) (message : SenderMessage) :
    (queue.queue.length == (queue.enqueue message).queue.length) =
      (queue.terminationFlag || !queue.queue.all fun cur => !message.supersedes cur) := by
  unfold SenderQueue.enqueue
  cases queue.terminationFlag with
  | true => simp
  | false =>
      simp only [Bool.false_eq_true, if_false, List.length_append, List.length_singleton,
        SenderQueue.deduplicate, Bool.false_or, List.not_all_eq_any_not, Bool.not_not]
      rw [List.length_eraseP]
      cases found : queue.queue.any message.supersedes with
      | true =>
          obtain ⟨cur, member, -⟩ := List.any_eq_true.mp found
          have nonempty := List.length_pos_of_mem member
          simp only [if_true, beq_iff_eq]
          omega
      | false => simp

theorem traces_traceTileBySend {desc other : TileDesc} (session : TileSession)
    (different : desc.generateID ≠ other.generateID) (deduplicated : Bool) (now : Nat) :
    (session.traceTileBySend desc deduplicated now).traces other = session.traces other := by
  have kept : (if (session.oldWireIds desc.generateID).isSome || session.isVisible desc then
      { session with
        oldWireIds := fun id =>
          if id = desc.generateID then some desc.wireId else session.oldWireIds id }
      else session : TileSession).traces other = session.traces other := by
    split
    · unfold traces
      simp only [if_neg (Ne.symm different)]
    · rfl
  unfold traceTileBySend
  dsimp only
  split
  · exact kept
  · exact kept

theorem traces_enqueueSendMessage {message : TileMessage} {other : TileDesc} (session : TileSession)
    (different : message.desc.generateID ≠ other.generateID) (now : Nat) :
    (session.enqueueSendMessage message now).traces other = session.traces other := by
  obtain ⟨sameFlag, sameAll⟩ := all_enqueue different session.senderQueue
  have queued : ({ session with
      senderQueue := session.senderQueue.enqueue (.tile message) } : TileSession).traces other =
      session.traces other := by
    unfold traces
    dsimp only
    rw [sameFlag, sameAll]
  unfold enqueueSendMessage
  dsimp only
  split
  · rfl
  · cases message.command with
    | delta => exact queued
    | tile =>
        dsimp only
        split
        · rfl
        · rw [traces_traceTileBySend _ different, queued]

theorem tracker_enqueueSendMessage (session : TileSession) (message : TileMessage) (now : Nat) :
    (session.enqueueSendMessage message now).tracker = session.tracker := by
  unfold enqueueSendMessage traceTileBySend addTileOnFly
  dsimp only
  split
  · rfl
  · cases message.command with
    | delta => rfl
    | tile => dsimp only; split_ifs <;> rfl

theorem length_traceTileBySend (session : TileSession) (desc : TileDesc) (deduplicated : Bool)
    (now : Nat) : (session.traceTileBySend desc deduplicated now).tilesOnFly.length =
      session.tilesOnFly.length + if deduplicated = true then 0 else 1 := by
  unfold traceTileBySend addTileOnFly
  cases deduplicated with
  | true =>
      simp only [if_true]
      split
      · rfl
      · rfl
  | false =>
      simp only [Bool.false_eq_true, if_false, List.length_append, List.length_singleton]
      split
      · rfl
      · rfl

theorem length_enqueueSendMessage (session : TileSession) (message : TileMessage) (now : Nat) :
    (session.enqueueSendMessage message now).tilesOnFly.length =
      session.tilesOnFly.length +
        if message.command = .tile ∧ session.traces message.desc = true then 1 else 0 := by
  obtain ⟨command, desc, data⟩ := message
  have sameSupersedes := supersedes_congr data fun cur => (rfl : desc.beq cur = desc.beq cur)
  unfold enqueueSendMessage traces
  dsimp only
  cases session.isCloseFrame with
  | true => simp
  | false =>
      cases command with
      | delta => simp
      | tile =>
          simp only [Bool.false_eq_true, if_false]
          split
          · next isLast => simp [isLast]
          · next notLast =>
              rw [length_traceTileBySend, length_enqueue, sameSupersedes]
              generalize (session.senderQueue.queue.all fun cur =>
                !(SenderMessage.tile ⟨.tile, desc, []⟩).supersedes cur) = noneReplaced
              cases session.senderQueue.terminationFlag with
              | true => simp
              | false =>
                  cases noneReplaced with
                  | true => simp [notLast]
                  | false => simp

section

variable (desc : TileDesc) (tile : TileData) (now : Nat)

theorem length_sendTile : (session.sendTile desc tile now).tilesOnFly.length =
    session.tilesOnFly.length + if session.putsOnFly desc tile = true then 1 else 0 := by
  have lastSent := session.tracker.updateTileSeq_fst desc
  unfold sendTile Wsd.sendTile putsOnFly TileData.comesWhole
  dsimp only
  rw [← lastSent]
  cases appended : tile.appendChangesSince []
      (if tile.isPng then 0 else (session.tracker.updateTileSeq desc).1) with
  | mk hasData data =>
      cases hasData with
      | false => simp
      | true =>
          dsimp only
          rw [length_enqueueSendMessage]
          dsimp only [traces]
          cases tile.needsKeyframe (session.tracker.updateTileSeq desc).1 || tile.isPng with
          | true => simp
          | false => simp

theorem lastSent_sendTile {key : TileKey} (different : desc.cacheKey ≠ key) :
    (session.sendTile desc tile now).tracker.lastSent key = session.tracker.lastSent key := by
  have kept := session.tracker.lastSent_updateTileSeq_other different
  unfold sendTile Wsd.sendTile
  dsimp only
  cases tile.appendChangesSince []
      (if tile.isPng then 0 else (session.tracker.updateTileSeq desc).1) with
  | mk hasData data =>
      cases hasData with
      | false => exact kept
      | true =>
          dsimp only
          rw [tracker_enqueueSendMessage]
          exact kept

theorem traces_sendTile {other : TileDesc} (different : desc.generateID ≠ other.generateID) :
    (session.sendTile desc tile now).traces other = session.traces other := by
  unfold sendTile Wsd.sendTile
  dsimp only
  cases tile.appendChangesSince []
      (if tile.isPng then 0 else (session.tracker.updateTileSeq desc).1) with
  | mk hasData data =>
      cases hasData with
      | false => rfl
      | true => exact traces_enqueueSendMessage _ different now

end

end TileSession

/-!
## What happens to a tile
-/

namespace SendLoop

variable (loop : SendLoop) (now : Nat)

/-- The tile has to wait for its acknowledgement. -/
def delays (tile : TileDesc) : Bool :=
  decide (2 ≤ loop.work.session.countIdenticalTilesOnFly tile)

def serves (tile : TileDesc) : Bool :=
  !loop.delays tile && loop.work.tileCache.isValid tile

def awaits (tile : TileDesc) : Bool :=
  !loop.delays tile && !loop.work.tileCache.isValid tile

def asks (tile : TileDesc) : Bool :=
  loop.awaits tile && loop.work.tileCache.needsRendering tile now

/-- The key and the old wire id with which the kit is asked for a tile. -/
def request (tile : TileDesc) : TileKey × TileWireId :=
  (tile.cacheKey,
    if (loop.work.tileCache.lookupTile tile).isNone then 0 else tile.oldWireId)

/-- How many tiles are on the way. -/
def load : Nat :=
  loop.work.session.tilesOnFly.length + loop.beingRendered

/-- How many more tiles are on the way after a visit. -/
def weight (tile : TileDesc) : Nat :=
  if loop.delays tile then 0
  else
    match (loop.work.tileCache.lookupTile tile).filter TileData.valid with
    | some cachedTile => if loop.work.session.putsOnFly tile cachedTile then 1 else 0
    | none => 1

/-- The loop has visited the first of the tiles. -/
structure Visited (visited unvisited : List TileDesc) (next : SendLoop) : Prop where
  id : next.work.session.id = loop.work.session.id
  cache : next.work.tileCache.cache = loop.work.tileCache.cache
  dontCache : next.work.tileCache.dontCache = loop.work.tileCache.dontCache
  toKit : next.work.toKit = loop.work.toKit
  tileVersion : loop.work.tileVersion ≤ next.work.tileVersion
  requestedTiles : next.work.session.requestedTiles = unvisited ++ visited.filter loop.delays
  delayedTiles : next.delayedTiles = (visited.filter loop.delays).length
  sent : next.work.sent = loop.work.sent ++ visited.filter loop.serves
  asked : next.tilesNeedsRendering.map (fun tile => (tile.cacheKey, tile.oldWireId)) =
    (visited.filter (loop.asks now)).map loop.request
  subscribed : ∀ tile ∈ visited, loop.awaits tile = true →
    ∃ rendering, next.work.tileCache.rendering? tile.cacheKey = some rendering ∧
      loop.work.session.id ∈ rendering.subscribers ∧
      ∀ old, loop.work.tileCache.rendering? tile.cacheKey = some old →
        loop.work.session.id ∈ old.subscribers → tile.ver ≤ loop.work.tileVersion →
          tile.ver ≤ rendering.tile.ver
  others : ∀ key, (∀ tile ∈ visited, loop.awaits tile = true → tile.cacheKey ≠ key) →
    next.work.tileCache.rendering? key = loop.work.tileCache.rendering? key
  onFly : ∀ other : TileDesc, (∀ tile ∈ visited, tile.generateID ≠ other.generateID) →
    next.work.session.countIdenticalTilesOnFly other =
      loop.work.session.countIdenticalTilesOnFly other
  puts : ∀ other : TileDesc, (∀ tile ∈ visited, tile.generateID ≠ other.generateID) →
    ∀ cachedTile, next.work.session.putsOnFly other cachedTile =
      loop.work.session.putsOnFly other cachedTile
  load : next.load = loop.load + (visited.map loop.weight).sum
  numbered : loop.work.Numbered → next.work.Numbered

variable {loop now}

theorem Visited.start {tiles : List TileDesc} (delayedTiles : loop.delayedTiles = 0)
    (requestedTiles : loop.work.session.requestedTiles = tiles)
    (tilesNeedsRendering : loop.tilesNeedsRendering = []) : Visited loop now [] tiles loop where
  id := rfl
  cache := rfl
  dontCache := rfl
  toKit := rfl
  tileVersion := Nat.le_refl _
  requestedTiles := by simpa using requestedTiles
  delayedTiles := delayedTiles
  sent := by simp
  asked := by simp [tilesNeedsRendering]
  subscribed := by simp
  others := fun _ _ => rfl
  onFly := fun _ _ => rfl
  puts := fun _ _ _ => rfl
  load := rfl
  numbered := fun numbered => numbered

theorem cacheKey_ne {tile other : TileDesc} (different : tile.generateID ≠ other.generateID) :
    tile.cacheKey ≠ other.cacheKey := by
  intro same
  apply different
  simp only [TileDesc.cacheKey, TileKey.mk.injEq] at same
  obtain ⟨part, -, -, posX, posY, tileWidth, tileHeight, viewId, mode⟩ := same
  unfold TileDesc.generateID
  rw [part, posX, posY, tileWidth, tileHeight, viewId, mode]

/-- Sending another tile leaves the sending of this one as it is. -/
theorem putsOnFly_sendTile {session : TileSession} {tile other : TileDesc}
    (different : tile.generateID ≠ other.generateID) (sentTile cachedTile : TileData) :
    (session.sendTile tile sentTile now).putsOnFly other cachedTile =
      session.putsOnFly other cachedTile := by
  unfold TileSession.putsOnFly
  rw [TileSession.lastSent_sendTile tile sentTile now (cacheKey_ne different),
    TileSession.traces_sendTile tile sentTile now different]

theorem isValid_eq_true {tileCache : TileCache} {tile : TileDesc} {cachedTile : TileData}
    (found : (tileCache.lookupTile tile).filter TileData.valid = some cachedTile) :
    tileCache.isValid tile = true := by
  obtain ⟨isCached, valid⟩ := Option.filter_eq_some_iff.mp found
  unfold TileCache.isValid
  rw [isCached]
  exact valid

theorem isValid_eq_false {tileCache : TileCache} {tile : TileDesc}
    (missing : (tileCache.lookupTile tile).filter TileData.valid = none) :
    tileCache.isValid tile = false := by
  unfold TileCache.isValid
  cases found : tileCache.lookupTile tile with
  | none => rfl
  | some cachedTile =>
      rw [found] at missing
      simpa [Option.filter] using missing

section Step

variable {visited unvisited : List TileDesc} {tile : TileDesc} {next : SendLoop}
  (before : Visited loop now visited (tile :: unvisited) next)
  (fresh : ∀ other ∈ visited, other.generateID ≠ tile.generateID)

include before fresh

theorem Visited.delays_eq :
    decide (2 ≤ next.work.session.countIdenticalTilesOnFly tile) = loop.delays tile := by
  rw [before.onFly tile fresh]
  rfl

theorem Visited.rendering_eq :
    next.work.tileCache.rendering? tile.cacheKey =
      loop.work.tileCache.rendering? tile.cacheKey :=
  before.others tile.cacheKey fun other member _ => cacheKey_ne (fresh other member)

omit fresh in
theorem Visited.delay (delayed : loop.delays tile = true) :
    Visited loop now (visited ++ [tile]) unvisited
      { next.setRequestedTiles (unvisited ++ visited.filter loop.delays ++ [tile]) with
        delayedTiles := next.delayedTiles + 1 } := by
  obtain ⟨id, cache, dontCache, toKit, tileVersion, -, delayedTiles, sent, asked, subscribed, others,
    onFly, puts, load, numbered⟩ := before
  refine ⟨id, cache, dontCache, toKit, tileVersion, ?_, ?_, ?_, ?_, ?_, ?_, ?_, ?_, ?_, numbered⟩
  · simp [setRequestedTiles, delayed]
  · simp [delayed, delayedTiles]
  · simpa [setRequestedTiles, serves, delayed] using sent
  · simpa [setRequestedTiles, asks, awaits, delayed] using asked
  · intro other member awaits
    rcases List.mem_append.mp member with old | isTile
    · exact subscribed other old awaits
    · rw [List.mem_singleton.mp isTile] at awaits
      simp [SendLoop.awaits, delayed] at awaits
  · intro key different
    exact others key fun other member => different other (List.mem_append_left _ member)
  · intro other different
    exact onFly other fun tile member => different tile (List.mem_append_left _ member)
  · intro other different
    exact puts other fun tile member => different tile (List.mem_append_left _ member)
  · have weightless : loop.weight tile = 0 := if_pos delayed
    rw [List.map_append, List.sum_append, List.map_singleton, List.sum_singleton, weightless]
    exact load

theorem Visited.serve (undelayed : loop.delays tile = false) {cachedTile : TileData}
    (found : (loop.work.tileCache.lookupTile tile).filter TileData.valid = some cachedTile) :
    Visited loop now (visited ++ [tile]) unvisited
      ({ next with work := next.work.sendTile tile cachedTile now }.setRequestedTiles
        (unvisited ++ visited.filter loop.delays)) := by
  have valid := isValid_eq_true found
  have sends := next.work.session.sends_sendTile tile cachedTile now
  have samePuts := before.puts tile fresh cachedTile
  obtain ⟨id, cache, dontCache, toKit, tileVersion, -, delayedTiles, sent, asked, subscribed, others,
    onFly, puts, load, numbered⟩ := before
  refine ⟨sends.id.trans id, cache, dontCache, toKit, tileVersion, ?_, ?_, ?_, ?_, ?_, ?_, ?_, ?_, ?_,
    numbered⟩
  · simp [setRequestedTiles, undelayed]
  · simpa [setRequestedTiles, undelayed] using delayedTiles
  · simp [setRequestedTiles, TileWork.sendTile, sent, serves, undelayed, valid]
  · simpa [setRequestedTiles, asks, awaits, undelayed, valid] using asked
  · intro other member awaits
    rcases List.mem_append.mp member with old | isTile
    · exact subscribed other old awaits
    · rw [List.mem_singleton.mp isTile] at awaits
      simp [SendLoop.awaits, valid] at awaits
  · intro key different
    exact others key fun other member => different other (List.mem_append_left _ member)
  · intro other different
    have isOther : tile.generateID ≠ other.generateID :=
      different tile (List.mem_append_right _ (List.mem_singleton_self tile))
    refine (sends.countIdenticalTilesOnFly isOther).trans ?_
    exact onFly other fun tile member => different tile (List.mem_append_left _ member)
  · intro other different other
    have isOther := different tile (List.mem_append_right _ (List.mem_singleton_self tile))
    refine (putsOnFly_sendTile isOther cachedTile other).trans (puts _ ?_ other)
    exact fun tile member => different tile (List.mem_append_left _ member)
  · have weighs : loop.weight tile =
        if loop.work.session.putsOnFly tile cachedTile = true then 1 else 0 := by
      rw [weight, undelayed, if_neg Bool.false_ne_true, found]
    have onFlyLength := next.work.session.length_sendTile tile cachedTile now
    rw [samePuts, ← weighs] at onFlyLength
    rw [List.map_append, List.sum_append, List.map_singleton, List.sum_singleton]
    simp only [SendLoop.load, setRequestedTiles, TileWork.sendTile] at load ⊢
    omega

/-- The session waits for a tile, which it asks for as `asked`. -/
theorem Visited.subscribe {asked : TileDesc} (sameKey : asked.cacheKey = tile.cacheKey)
    (newer : tile.ver ≤ loop.work.tileVersion → tile.ver ≤ asked.ver) {version : Nat}
    (later : next.work.tileVersion ≤ version)
    (inTime : next.work.Numbered → asked.ver ≤ version) {tiles : List TileDesc}
    (isTiles : tiles.map (fun tile => (tile.cacheKey, tile.oldWireId)) =
      ((visited ++ [tile]).filter (loop.asks now)).map loop.request)
    (undelayed : loop.delays tile = false)
    (missing : (loop.work.tileCache.lookupTile tile).filter TileData.valid = none) :
    Visited loop now (visited ++ [tile]) unvisited
      (SendLoop.setRequestedTiles
        { next with
          work := { next.work with tileVersion := version }.subscribeToTileRendering asked now
          beingRendered := next.beingRendered + 1
          tilesNeedsRendering := tiles }
        (unvisited ++ visited.filter loop.delays)) := by
  have invalid := isValid_eq_false missing
  have sameRendering := before.rendering_eq fresh
  obtain ⟨id, cache, dontCache, toKit, tileVersion, -, delayedTiles, sent, -, subscribed, others,
    onFly, puts, load, numbered⟩ := before
  have awaited : loop.awaits tile = true := by simp [awaits, undelayed, invalid]
  have unserved : loop.serves tile = false := by simp [serves, invalid]
  obtain ⟨sameCache, sameDontCache⟩ := next.work.tileCache.cache_subscribeToTileRendering asked
    next.work.session.id now
  have renderings (key : TileKey) : (next.work.tileCache.subscribeToTileRendering asked
      next.work.session.id now).rendering? key =
        if key = tile.cacheKey then some (TileCache.subscribed asked loop.work.session.id now
          (loop.work.tileCache.rendering? tile.cacheKey))
        else next.work.tileCache.rendering? key := by
    rw [TileCache.rendering?_subscribeToTileRendering, sameKey, sameRendering, id]
  refine ⟨id, sameCache.trans cache, sameDontCache.trans dontCache, toKit, Nat.le_trans tileVersion later,
    ?_, ?_, ?_, isTiles, ?_, ?_, ?_, ?_, ?_, ?_⟩
  · simp [setRequestedTiles, undelayed]
  · simpa [setRequestedTiles, undelayed] using delayedTiles
  · simpa [setRequestedTiles, TileWork.subscribeToTileRendering, unserved] using sent
  · intro other member isAwaited
    rcases List.mem_append.mp member with old | isTile
    · obtain ⟨rendering, found, rest⟩ := subscribed other old isAwaited
      refine ⟨rendering, ?_, rest⟩
      exact (renderings other.cacheKey).trans
        ((if_neg (cacheKey_ne (fresh other old))).trans found)
    · cases List.mem_singleton.mp isTile
      refine ⟨_, (renderings tile.cacheKey).trans (if_pos rfl),
        TileCache.mem_subscribed.mpr (.inl rfl), ?_⟩
      intro old isOld already inTime
      rw [isOld, TileCache.subscribed, if_pos already]
      exact newer inTime
  · intro key different
    refine (renderings key).trans ?_
    rw [if_neg (fun same => different tile (List.mem_append_right _ (List.mem_singleton_self tile))
      awaited same.symm)]
    exact others key fun other member => different other (List.mem_append_left _ member)
  · intro other different
    exact onFly other fun tile member => different tile (List.mem_append_left _ member)
  · intro other different
    exact puts other fun tile member => different tile (List.mem_append_left _ member)
  · have weighs : loop.weight tile = 1 := by
      rw [weight, undelayed, if_neg Bool.false_ne_true, missing]
    rw [List.map_append, List.sum_append, List.map_singleton, List.sum_singleton, weighs]
    simp only [SendLoop.load, setRequestedTiles, TileWork.subscribeToTileRendering] at load ⊢
    omega
  · intro before
    exact (numbered before).subscribe (inTime (numbered before)) later rfl

theorem Visited.render (undelayed : loop.delays tile = false)
    (missing : (loop.work.tileCache.lookupTile tile).filter TileData.valid = none) :
    Visited loop now (visited ++ [tile]) unvisited
      ((next.render tile now).setRequestedTiles (unvisited ++ visited.filter loop.delays)) := by
  have sameNeeds : next.work.tileCache.needsRendering tile now =
      loop.work.tileCache.needsRendering tile now :=
    TileCache.needsRendering_congr (before.rendering_eq fresh)
  have sameLookup : next.work.tileCache.lookupTile tile = loop.work.tileCache.lookupTile tile :=
    TileCache.lookupTile_congr before.cache before.dontCache rfl
  have invalid := isValid_eq_false missing
  have awaited : loop.awaits tile = true := by simp [awaits, undelayed, invalid]
  unfold SendLoop.render
  rw [sameNeeds, sameLookup]
  split
  · next needs =>
      have asks : loop.asks now tile = true := by simp [SendLoop.asks, awaited, needs]
      have inTime (ver : tile.ver ≤ loop.work.tileVersion) :
          tile.ver ≤ ((next.work.tileVersion + 1 : Nat) : Int) := by
        have version := before.tileVersion
        omega
      have version : (if (loop.work.tileCache.lookupTile tile).isNone then
          (tile.setVersion (next.work.tileVersion + 1)).setOldWireId 0
          else tile.setVersion (next.work.tileVersion + 1)).ver =
          ((next.work.tileVersion + 1 : Nat) : Int) := by
        split
        · rfl
        · rfl
      refine before.subscribe fresh ?_ ?_ (Nat.le_succ _) (fun _ => Int.le_of_eq version) ?_ undelayed
        missing
      · split
        · rfl
        · rfl
      · intro ver
        rw [version]
        exact inTime ver
      · rw [List.map_append, before.asked, List.filter_append, List.map_append]
        congr 1
        rw [List.filter_singleton, asks, cond_true, List.map_singleton, List.map_singleton, request]
        split
        · rfl
        · rfl
  · next spared =>
      have silent : loop.asks now tile = false := by simp [SendLoop.asks, spared]
      have inTime (numbered : next.work.Numbered) : tile.ver ≤ next.work.tileVersion := by
        rw [← sameNeeds, TileCache.needsRendering_eq] at spared
        cases found : next.work.tileCache.rendering? tile.cacheKey with
        | none => simp [found] at spared
        | some rendering =>
            have before := numbered _ rendering found
            rw [found] at spared
            simp only [Bool.or_eq_true, decide_eq_true_eq, not_or, Int.not_lt] at spared
            omega
      refine before.subscribe fresh rfl (fun _ => Int.le_refl _) (Nat.le_refl _) inTime ?_ undelayed
        missing
      rw [before.asked, List.filter_append, List.filter_singleton, silent]
      simp

theorem Visited.round {tilesOnFlyUpperLimit : Nat} {after : SendLoop}
    (isRound : next.round tilesOnFlyUpperLimit now = some after) :
    Visited loop now (visited ++ [tile]) unvisited after := by
  have isList := before.requestedTiles
  have delays := before.delays_eq fresh
  have sameLookup : next.work.tileCache.lookupTile tile = loop.work.tileCache.lookupTile tile :=
    TileCache.lookupTile_congr before.cache before.dontCache rfl
  unfold SendLoop.round at isRound
  rw [isList, List.cons_append] at isRound
  dsimp only at isRound
  split at isRound
  · split at isRound
    · next twice =>
        cases isRound
        exact before.delay (delays.symm.trans (decide_eq_true twice))
    · next notTwice =>
        have undelayed : loop.delays tile = false := delays.symm.trans (decide_eq_false notTwice)
        cases found : (next.work.tileCache.lookupTile tile).filter TileData.valid with
        | some cachedTile =>
            rw [found] at isRound
            cases isRound
            rw [sameLookup] at found
            exact before.serve fresh undelayed found
        | none =>
            rw [found] at isRound
            cases isRound
            rw [sameLookup] at found
            exact before.render fresh undelayed found
  · cases isRound

end Step

/-- The loop visits a first part of the tiles: those before which not too many are on the way. -/
theorem Visited.rounds {tilesOnFlyUpperLimit : Nat} {visited unvisited : List TileDesc}
    {next : SendLoop} (before : Visited loop now visited unvisited next)
    (distinct : ((visited ++ unvisited).map TileDesc.generateID).Nodup) :
    ∃ more rest, unvisited = more ++ rest ∧
      Visited loop now (visited ++ more) rest
        (Library.loop (SendLoop.round tilesOnFlyUpperLimit now) unvisited.length next) ∧
      ∀ front tile behind, unvisited = front ++ tile :: behind →
        (loop.load + ((visited ++ front).map loop.weight).sum < tilesOnFlyUpperLimit ↔
          front.length < more.length) := by
  induction unvisited generalizing visited next with
  | nil =>
      refine ⟨[], [], rfl, by simpa [Library.loop] using before, fun front tile behind split => ?_⟩
      exact absurd split (by simp)
  | cons tile unvisited ih =>
      have fresh : ∀ other ∈ visited, other.generateID ≠ tile.generateID := by
        intro other member same
        rw [List.map_append, List.map_cons, List.nodup_append] at distinct
        exact distinct.2.2 other.generateID (List.mem_map_of_mem member) tile.generateID
          List.mem_cons_self same
      have load := before.load
      rw [List.length_cons, Library.loop]
      cases isRound : next.round tilesOnFlyUpperLimit now with
      | none =>
          have reached : tilesOnFlyUpperLimit ≤ next.load := by
            unfold SendLoop.round at isRound
            rw [before.requestedTiles, List.cons_append] at isRound
            dsimp only at isRound
            split at isRound
            · split at isRound
              · cases isRound
              · split at isRound
                · cases isRound
                · cases isRound
            · next stops =>
                rw [before.delayedTiles, List.length_cons, List.length_append] at stops
                unfold SendLoop.load
                omega
          refine ⟨[], tile :: unvisited, rfl, by simpa using before, fun front _ _ _ => ?_⟩
          rw [List.map_append, List.sum_append, List.length_nil]
          omega
      | some after =>
          have inTime : next.load < tilesOnFlyUpperLimit := by
            unfold SendLoop.round at isRound
            rw [before.requestedTiles, List.cons_append] at isRound
            dsimp only at isRound
            split at isRound
            · next goesOn => exact goesOn.1
            · cases isRound
          have visitedTile := before.round fresh isRound
          have same : visited ++ tile :: unvisited = visited ++ [tile] ++ unvisited := by simp
          rw [same] at distinct
          obtain ⟨more, rest, rfl, finished, turns⟩ := ih visitedTile distinct
          refine ⟨tile :: more, rest, rfl, by simpa using finished, ?_⟩
          intro front other behind split
          cases front with
          | nil =>
              rw [List.append_nil, ← load, List.length_nil, List.length_cons]
              exact iff_of_true inTime (Nat.succ_pos _)
          | cons first front =>
              rw [List.cons_append, List.cons.injEq] at split
              rw [← split.1, List.append_cons, List.length_cons, List.length_cons,
                Nat.succ_lt_succ_iff]
              exact turns front other behind split.2

end SendLoop

theorem visited_sendRequestedTiles {work : TileWork} (tilesOnFlyUpperLimit now : Nat)
    (distinct : (work.session.requestedTiles.map TileDesc.generateID).Nodup) :
    ∃ visited rest last, work.session.requestedTiles = visited ++ rest ∧
      SendLoop.Visited (SendLoop.start work now) now visited rest last ∧
      (∀ front tile behind, work.session.requestedTiles = front ++ tile :: behind →
        ((SendLoop.start work now).load + (front.map (SendLoop.start work now).weight).sum <
          tilesOnFlyUpperLimit ↔ front.length < visited.length)) ∧
      sendRequestedTiles work tilesOnFlyUpperLimit now =
        { last.work with toKit := last.work.toKit ++ tilecombineFor last.tilesNeedsRendering } := by
  have started : SendLoop.Visited (SendLoop.start work now) now [] work.session.requestedTiles
      (SendLoop.start work now) := SendLoop.Visited.start rfl rfl rfl
  by_cases empty : work.session.requestedTiles = []
  · rw [empty] at started
    refine ⟨[], [], SendLoop.start work now, empty, started, ?_, ?_⟩
    · intro front tile behind split
      rw [empty] at split
      exact absurd split (by simp)
    · unfold sendRequestedTiles
      rw [if_pos empty]
      simp [SendLoop.start, tilecombineFor]
  · obtain ⟨visited, rest, split, finished, turns⟩ := started.rounds distinct
    refine ⟨visited, rest, _, split, finished, turns, ?_⟩
    unfold sendRequestedTiles
    rw [if_neg empty]

end FreeOnline.Wsd
