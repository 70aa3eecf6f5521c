import FreeOnline.Library.Run
import FreeOnline.Wsd.SenderQueue

/-!
# Requests for tiles

A session asks for single tiles or for combined ones. What is cached is sent, for the rest
the kit is asked, and a list of requested tiles holds back what would be too much at once.
-/

set_option autoImplicit false

namespace FreeOnline.Wsd

open FreeOnline.Kit (TileWireId)
open FreeOnline.Library

/-!
## Descriptors
-/

namespace TileDesc

def setOldWireId (desc : TileDesc) (oldWireId : TileWireId) : TileDesc :=
  { desc with oldWireId := oldWireId }

def forceKeyframe (desc : TileDesc) : TileDesc :=
  desc.setOldWireId 0

def setNormalizedViewId (desc : TileDesc) (normalizedViewId : Nat) : TileDesc :=
  { desc with
    normalizedViewId := normalizedViewId
    valid := ⟨Int.natCast_nonneg _, desc.valid.2⟩ }

end TileDesc

/-- What the client calls a tile. -/
structure TileId where
  part : Int
  mode : Int
  tilePosX : Int
  tilePosY : Int
  tileWidth : Int
  tileHeight : Int
  normalizedViewId : Int
deriving DecidableEq

def TileDesc.generateID (desc : TileDesc) : TileId where
  part := desc.part
  mode := desc.mode
  tilePosX := desc.tilePosX
  tilePosY := desc.tilePosY
  tileWidth := desc.tileWidth
  tileHeight := desc.tileHeight
  normalizedViewId := desc.normalizedViewId

/-- What the tiles of a combined request share. -/
structure TileHeader where
  normalizedViewId : Int
  part : Int
  mode : Int
  width : Int
  height : Int
  tileWidth : Int
  tileHeight : Int
deriving DecidableEq

def TileDesc.header (desc : TileDesc) : TileHeader where
  normalizedViewId := desc.normalizedViewId
  part := desc.part
  mode := desc.mode
  width := desc.width
  height := desc.height
  tileWidth := desc.tileWidth
  tileHeight := desc.tileHeight

structure TileCombined where
  header : TileHeader
  tiles : List TileDesc
  uniform : ∀ tile ∈ tiles, tile.header = header

namespace TileCombined

def position (tile : TileDesc) : Int × Int :=
  (tile.tilePosX, tile.tilePosY)

def hasDuplicates (request : TileCombined) : Bool :=
  !decide (request.tiles.map position).Nodup

/-- The tile as the constructor makes it of its position, its version and its wire ids. -/
def compose (first tile : TileDesc) : TileDesc :=
  { first with
    tilePosX := tile.tilePosX
    tilePosY := tile.tilePosY
    ver := tile.ver
    imgSize := 0
    id := -1
    broadcast := false
    oldWireId := tile.oldWireId
    wireId := tile.wireId
    valid := by
      obtain ⟨viewId, part, mode, width, height, -, -, tileWidth, tileHeight, -⟩ := first.valid
      obtain ⟨-, -, -, -, -, posX, posY, -⟩ := tile.valid
      exact ⟨viewId, part, mode, width, height, posX, posY, tileWidth, tileHeight, Int.le_refl 0⟩ }

/-- The request for these tiles: all but the positions, the versions and the wire ids is
taken from the first one. -/
def create (first : TileDesc) (rest : List TileDesc) : TileCombined where
  header := first.header
  tiles := (first :: rest).map (compose first)
  uniform := by
    intro tile member
    obtain ⟨old, -, rfl⟩ := List.mem_map.mp member
    rfl

end TileCombined

inductive KitRequest where
  | tile (tile : TileDesc)
  | tilecombine (request : TileCombined)

def KitRequest.tiles : KitRequest → List TileDesc
  | .tile desc => [desc]
  | .tilecombine request => request.tiles

/-- The request to the kit, unless there is nothing to render. -/
def tilecombineFor : List TileDesc → List KitRequest
  | [] => []
  | first :: rest => [.tilecombine (TileCombined.create first rest)]

/-!
## The cache
-/

namespace TileCache

def isValid (tileCache : TileCache) (desc : TileDesc) : Bool :=
  (tileCache.lookupTile desc).any TileData.valid

def getTileBeingRenderedVersion (tileCache : TileCache) (desc : TileDesc) : Int :=
  match tileCache.findTileBeingRendered desc with
  | some rendering => rendering.tile.ver
  | none => 0

/-- There is no rendering of the tile in progress, or we need a newer version. -/
def needsRendering (tileCache : TileCache) (desc : TileDesc) (now : Nat) : Bool :=
  !tileCache.hasTileBeingRendered desc (some now) ||
    decide (tileCache.getTileBeingRenderedVersion desc < desc.ver)

def countTilesBeingRenderedForSession (tileCache : TileCache) (session : SessionId) (now : Nat) :
    Nat :=
  ((tileCache.tilesBeingRendered.entries.filter fun rendering => !isStale rendering now).map
    fun rendering => rendering.subscribers.count session).sum

end TileCache

/-!
## The session
-/

/-- What a session knows of its tiles. A tile `isVisible` if the visible area of the client
has a surface and the tile is inside it. -/
structure TileSession where
  id : SessionId
  canonicalViewId : Nat
  isCloseFrame : Bool
  tracker : ClientDeltaTracker
  requestedTiles : List TileDesc
  tilesOnFly : List (TileId × Nat)
  oldWireIds : TileId → Option TileWireId
  isVisible : TileDesc → Bool
  senderQueue : SenderQueue

namespace TileSession

variable (session : TileSession)

def resetTileSeq (desc : TileDesc) : TileSession :=
  { session with tracker := session.tracker.resetTileSeq desc }

def removeOutdatedTilesOnFly (now : Nat) : TileSession :=
  { session with
    tilesOnFly := session.tilesOnFly.dropWhile fun tile =>
      decide (now - tile.2 > commandTimeoutMs) }

def countIdenticalTilesOnFly (desc : TileDesc) : Nat :=
  session.tilesOnFly.countP fun tile => tile.1 = desc.generateID

def addTileOnFly (desc : TileDesc) (now : Nat) : TileSession :=
  { session with tilesOnFly := session.tilesOnFly ++ [(desc.generateID, now)] }

def traceTileBySend (desc : TileDesc) (deduplicated : Bool) (now : Nat) : TileSession :=
  let known := (session.oldWireIds desc.generateID).isSome
  let traced :=
    if known || session.isVisible desc then
      { session with
        oldWireIds := fun id =>
          if id = desc.generateID then some desc.wireId else session.oldWireIds id }
    else session
  if deduplicated then traced else traced.addTileOnFly desc now

def enqueueSendMessage (message : TileMessage) (now : Nat) : TileSession :=
  let queue := session.senderQueue.enqueue (.tile message)
  if session.isCloseFrame then session
  else
    match message.command with
    | .delta => { session with senderQueue := queue }
    | .tile =>
        -- Avoid sending a tile if it has the same wire id as the previously sent one.
        if session.oldWireIds message.desc.generateID = some message.desc.wireId ∧
            message.desc.wireId ≠ 0 then session
        else
          { session with senderQueue := queue }.traceTileBySend message.desc
            (session.senderQueue.queue.length == queue.queue.length) now

def sendTile (desc : TileDesc) (tile : TileData) (now : Nat) : TileSession :=
  match Wsd.sendTile session.tracker desc tile with
  | (some message, tracker) => { session with tracker := tracker }.enqueueSendMessage message now
  | (none, tracker) => { session with tracker := tracker }

end TileSession

/-!
## The broker
-/

/-- The broker and the session while a request is handled, with the tiles that were sent
from the cache and the requests to the kit so far. -/
structure TileWork where
  tileVersion : Nat
  tileCache : TileCache
  session : TileSession
  sent : List TileDesc
  toKit : List KitRequest

namespace TileWork

def subscribeToTileRendering (work : TileWork) (tile : TileDesc) (now : Nat) : TileWork :=
  { work with tileCache := work.tileCache.subscribeToTileRendering tile work.session.id now }

def sendTile (work : TileWork) (desc : TileDesc) (tile : TileData) (now : Nat) : TileWork :=
  { work with
    session := work.session.sendTile desc tile now
    sent := work.sent ++ [desc] }

end TileWork

/-- The state of the loop over the requested tiles. -/
structure SendLoop where
  work : TileWork
  delayedTiles : Nat
  beingRendered : Nat
  tilesNeedsRendering : List TileDesc

namespace SendLoop

def setRequestedTiles (loop : SendLoop) (tiles : List TileDesc) : SendLoop :=
  { loop with
    work := { loop.work with session := { loop.work.session with requestedTiles := tiles } } }

/-- Not cached: the session waits for the tile, and the kit is asked for it unless it is
about to come anyway. -/
def render (loop : SendLoop) (tile : TileDesc) (now : Nat) : SendLoop :=
  if loop.work.tileCache.needsRendering tile now then
    let renewed := tile.setVersion (loop.work.tileVersion + 1)
    let renewed :=
      if (loop.work.tileCache.lookupTile tile).isNone then renewed.setOldWireId 0 else renewed
    { loop with
      work := { loop.work with tileVersion := loop.work.tileVersion + 1 }
        |>.subscribeToTileRendering renewed now
      beingRendered := loop.beingRendered + 1
      tilesNeedsRendering := loop.tilesNeedsRendering ++ [renewed] }
  else
    { loop with
      work := loop.work.subscribeToTileRendering tile now
      beingRendered := loop.beingRendered + 1 }

/-- One round. A tile that was already sent twice has to wait for its acknowledgement. -/
def round (tilesOnFlyUpperLimit now : Nat) (loop : SendLoop) : Option SendLoop :=
  match loop.work.session.requestedTiles with
  | [] => none
  | tile :: rest =>
      if loop.work.session.tilesOnFly.length + loop.beingRendered < tilesOnFlyUpperLimit ∧
          loop.delayedTiles < (tile :: rest).length then
        if loop.work.session.countIdenticalTilesOnFly tile ≥ 2 then
          some { loop.setRequestedTiles (rest ++ [tile]) with delayedTiles := loop.delayedTiles + 1 }
        else
          match (loop.work.tileCache.lookupTile tile).filter TileData.valid with
          | some cachedTile =>
              some ({ loop with work := loop.work.sendTile tile cachedTile now }.setRequestedTiles rest)
          | none => some ((loop.render tile now).setRequestedTiles rest)
      else none

end SendLoop

/-- Tiles for which we have been waiting too long do not count any more. -/
def SendLoop.start (work : TileWork) (now : Nat) : SendLoop where
  work := { work with session := work.session.removeOutdatedTilesOnFly now }
  delayedTiles := 0
  beingRendered := work.tileCache.countTilesBeingRenderedForSession work.session.id now
  tilesNeedsRendering := []

/-- `tilesOnFlyUpperLimit` is what the size of the visible area allows, rounded up. -/
def sendRequestedTiles (work : TileWork) (tilesOnFlyUpperLimit now : Nat) : TileWork :=
  let start := SendLoop.start work now
  if work.session.requestedTiles = [] then start.work
  else
    let loop := loop (SendLoop.round tilesOnFlyUpperLimit now) work.session.requestedTiles.length start
    { loop.work with toKit := loop.work.toKit ++ tilecombineFor loop.tilesNeedsRendering }

/-- The newly requested tiles that were looked at, and those of them that need rendering. -/
structure RequestLoop where
  work : TileWork
  tiles : List TileDesc
  tilesNeedsRendering : List TileDesc

def RequestLoop.request (forceKeyframe : Bool) (now : Nat) (loop : RequestLoop) (tile : TileDesc) :
    RequestLoop :=
  let tile := tile.setVersion (loop.work.tileVersion + 1)
  let work := { loop.work with tileVersion := loop.work.tileVersion + 1 }
  -- The browser may have dropped its cache, so we forget what we last sent it.
  let work := if forceKeyframe then { work with session := work.session.resetTileSeq tile } else work
  let tile := if forceKeyframe then tile.setOldWireId 0 else tile
  if work.tileCache.isValid tile then { loop with work := work, tiles := loop.tiles ++ [tile] }
  else
    let tile := if (work.tileCache.lookupTile tile).isNone then tile.forceKeyframe else tile
    { work := work.subscribeToTileRendering tile now
      tiles := loop.tiles ++ [tile]
      tilesNeedsRendering := loop.tilesNeedsRendering ++ [tile] }

/-- The comparison by which new requests meet old ones. -/
structure TilePlace where
  tilePosX : Int
  tilePosY : Int
  normalizedViewId : Int
deriving DecidableEq

def TileDesc.place (desc : TileDesc) : TilePlace where
  tilePosX := desc.tilePosX
  tilePosY := desc.tilePosY
  normalizedViewId := desc.normalizedViewId

def TileDesc.renewedBy (oldTile newTile : TileDesc) : TileDesc :=
  ((oldTile.setVersion newTile.ver).setOldWireId newTile.oldWireId).setWireId newTile.wireId

/-- Drops a duplicated tile, but uses the newer version number. -/
def accumulateTile (requestedTiles : List TileDesc) (newTile : TileDesc) : List TileDesc :=
  match requestedTiles with
  | [] => [newTile]
  | oldTile :: rest =>
      if oldTile.place = newTile.place then oldTile.renewedBy newTile :: rest
      else oldTile :: accumulateTile rest newTile

def accumulateTiles (requestedTiles tiles : List TileDesc) : List TileDesc :=
  if requestedTiles = [] then tiles else tiles.foldl accumulateTile requestedTiles

def handleTileCombinedRequest (work : TileWork) (tileCombined : TileCombined) (forceKeyframe : Bool)
    (tilesOnFlyUpperLimit now : Nat) : TileWork :=
  let loop := tileCombined.tiles.foldl (RequestLoop.request forceKeyframe now) ⟨work, [], []⟩
  let requestedTiles := accumulateTiles loop.work.session.requestedTiles loop.tiles
  sendRequestedTiles
    { loop.work with
      toKit := loop.work.toKit ++ tilecombineFor loop.tilesNeedsRendering
      session := { loop.work.session with requestedTiles := requestedTiles } }
    tilesOnFlyUpperLimit now

/-- Another session of the document, as far as previews for all of them need it. -/
structure BrokerSession where
  id : SessionId
  canonicalViewId : Nat
  inWaitDisconnected : Bool

/-- Expected to be legacy: about all new requests are combined ones. -/
def handleTileRequest (work : TileWork) (sessions : List BrokerSession) (tile : TileDesc)
    (forceKeyframe : Bool) (now : Nat) : TileWork :=
  let tile := (tile.setNormalizedViewId work.session.canonicalViewId).setVersion (work.tileVersion + 1)
  let tileMsg := tile
  let work := { work with tileVersion := work.tileVersion + 1 }
  let work := if forceKeyframe then { work with session := work.session.resetTileSeq tile } else work
  match (work.tileCache.lookupTile tile).filter TileData.valid with
  | some cachedTile => work.sendTile tile cachedTile now
  | none =>
      let tile := if (work.tileCache.lookupTile tile).isNone then tile.forceKeyframe else tile
      let subscribe := fun (tileCache : TileCache) (session : BrokerSession) =>
        if session.inWaitDisconnected then tileCache
        else tileCache.subscribeToTileRendering (tile.setNormalizedViewId session.canonicalViewId)
          session.id now
      let work :=
        if tile.broadcast then { work with tileCache := sessions.foldl subscribe work.tileCache }
        else work.subscribeToTileRendering tile now
      -- The message was made before the keyframe was forced.
      { work with toKit := work.toKit ++ [.tile tileMsg] }

end FreeOnline.Wsd
