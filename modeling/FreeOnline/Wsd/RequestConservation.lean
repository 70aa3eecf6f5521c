import FreeOnline.Wsd.RequestedTiles

/-!
# No requested tile is lost

What becomes of the tiles of a combined request, and of those that were in the list of
requested tiles before it.
-/

set_option autoImplicit false

namespace FreeOnline.Wsd

open FreeOnline.Kit (TileWireId)
open FreeOnline.Library

/-- A combined request as it may be handled: no position comes twice. -/
structure TileCombineRequest extends TileCombined where
  unique : toTileCombined.hasDuplicates = false

/-- The broker and a session between two calls. No two tiles of the list of requested tiles
meet each other, and a tile is being rendered in a version that was given out before. -/
structure RequestState where
  tileVersion : Nat
  tileCache : TileCache
  session : TileSession
  distinct : (session.requestedTiles.map TileDesc.place).Nodup
  numbered : ∀ rendering ∈ tileCache.tilesBeingRendered, rendering.tile.ver ≤ tileVersion

namespace RequestState

variable (state : RequestState) (request : TileCombineRequest) (forceKeyframe : Bool) (now : Nat)

def work : TileWork where
  tileVersion := state.tileVersion
  tileCache := state.tileCache
  session := state.session
  sent := []
  toKit := []

/-- A tile is held back if two versions of it are on the fly. -/
def holdsBack (tile : TileDesc) : Bool :=
  decide (2 ≤ (state.session.removeOutdatedTilesOnFly now).countIdenticalTilesOnFly tile)

/-- Sending a tile that is cached puts it on the list of tiles on the fly: a keyframe is forced by
forgetting what was sent before. -/
def putsOnFly (tile : TileDesc) (cachedTile : TileData) : Bool :=
  cachedTile.comesWhole
    (if forceKeyframe = true ∧ tile.cacheKey ∈ request.tiles.map TileDesc.cacheKey then 0
    else state.session.tracker.lastSent tile.cacheKey) &&
  state.session.traces (renew request.tiles tile)

/-- How many more tiles are on the way after the loop has come to a tile. -/
def weight (tile : TileDesc) : Nat :=
  if state.holdsBack now tile then 0
  else
    match (state.tileCache.lookupTile tile).filter TileData.valid with
    | some cachedTile => if state.putsOnFly request forceKeyframe tile cachedTile then 1 else 0
    | none => 1

/-- How many tiles are on the way before the loop over the list. -/
def load : Nat :=
  (state.session.removeOutdatedTilesOnFly now).tilesOnFly.length +
    state.tileCache.countTilesBeingRenderedForSession state.session.id now +
    request.tiles.countP (RequestLoop.addsToRendered state.work now)

/-- With these tiles in front of it, a tile still has its turn. -/
def TurnComes (tilesOnFlyUpperLimit : Nat) (front : List TileDesc) : Prop :=
  state.load request now + (front.map (state.weight request forceKeyframe now)).sum <
    tilesOnFlyUpperLimit

def newTiles : List TileDesc :=
  request.tiles.mapIdx (RequestLoop.requested state.work forceKeyframe)

/-- The list of requested tiles when the loop over it begins. -/
def merged : List TileDesc :=
  accumulateTiles state.session.requestedTiles (state.newTiles request forceKeyframe)

def seenLoop : RequestLoop :=
  request.tiles.foldl (RequestLoop.request forceKeyframe now) ⟨state.work, [], []⟩

def sendLoop : SendLoop :=
  let seen := state.seenLoop request forceKeyframe now
  SendLoop.start
    { seen.work with
      toKit := seen.work.toKit ++ tilecombineFor seen.tilesNeedsRendering
      session := { seen.work.session with
        requestedTiles := accumulateTiles seen.work.session.requestedTiles seen.tiles } }
    now

variable {state request forceKeyframe now}

theorem mem_newTiles {tile : TileDesc} :
    tile ∈ state.newTiles request forceKeyframe ↔
      ∃ index old, request.tiles[index]? = some old ∧
        tile = RequestLoop.requested state.work forceKeyframe index old := by
  unfold newTiles
  rw [List.mem_iff_getElem?]
  simp only [List.getElem?_mapIdx, Option.map_eq_some_iff]
  constructor
  · rintro ⟨index, old, found, rfl⟩
    exact ⟨index, old, found, rfl⟩
  · rintro ⟨index, old, found, rfl⟩
    exact ⟨index, old, found, rfl⟩

theorem header_newTile {new : TileDesc} (member : new ∈ state.newTiles request forceKeyframe) :
    new.header = request.header := by
  obtain ⟨index, old, found, rfl⟩ := mem_newTiles.mp member
  exact request.uniform old (List.mem_of_getElem? found)

theorem map_newTiles {View : Type} (view : TileDesc → View)
    (same : ∀ index tile,
      view (RequestLoop.requested state.work forceKeyframe index tile) = view tile) :
    (state.newTiles request forceKeyframe).map view = request.tiles.map view :=
  RequestLoop.map_requested view same request.tiles

/-- The tiles of a request share their view, so they are at distinct places. -/
theorem nodup_place_request : (request.tiles.map TileDesc.place).Nodup := by
  have positions : (request.tiles.map TileCombined.position).Nodup := by
    simpa [TileCombined.hasDuplicates] using request.unique
  have injective : request.tiles.map TileCombined.position =
      (request.tiles.map TileDesc.place).map fun place => (place.tilePosX, place.tilePosY) := by
    rw [List.map_map]
    rfl
  rw [injective] at positions
  exact positions.of_map

theorem cacheKey_eq_of_place {tile other : TileDesc} (header : tile.header = other.header)
    (place : tile.place = other.place) : tile.cacheKey = other.cacheKey := by
  simp only [TileDesc.header, TileHeader.mk.injEq] at header
  simp only [TileDesc.place, TilePlace.mk.injEq] at place
  simp [TileDesc.cacheKey, header, place]

theorem place_eq_of_cacheKey {tile other : TileDesc} (key : tile.cacheKey = other.cacheKey) :
    tile.place = other.place := by
  simp only [TileDesc.cacheKey, TileKey.mk.injEq] at key
  simp [TileDesc.place, key]

theorem header_eq_of_cacheKey {tile other : TileDesc} (key : tile.cacheKey = other.cacheKey) :
    tile.header = other.header := by
  simp only [TileDesc.cacheKey, TileKey.mk.injEq] at key
  simp [TileDesc.header, key]

theorem generateID_eq_of_cacheKey {tile other : TileDesc} (key : tile.cacheKey = other.cacheKey) :
    tile.generateID = other.generateID := by
  simp only [TileDesc.cacheKey, TileKey.mk.injEq] at key
  simp [TileDesc.generateID, key]

theorem nodup_of_place {View : Type} {tiles : List TileDesc} {view : TileDesc → View}
    (distinct : (tiles.map TileDesc.place).Nodup)
    (finer : ∀ tile other, view tile = view other → tile.place = other.place) :
    (tiles.map view).Nodup := by
  refine List.Nodup.map_on ?_ distinct.of_map
  intro tile member other otherMember same
  exact List.inj_on_of_nodup_map distinct member otherMember (finer tile other same)

theorem seen : RequestLoop.Seen state.work forceKeyframe now request.tiles
    (state.seenLoop request forceKeyframe now) :=
  RequestLoop.seen_request
    (nodup_of_place nodup_place_request fun _ _ => place_eq_of_cacheKey)

theorem tiles_seenLoop : (state.seenLoop request forceKeyframe now).tiles =
    state.newTiles request forceKeyframe := seen.tiles

theorem nodup_place_newTiles :
    ((state.newTiles request forceKeyframe).map TileDesc.place).Nodup := by
  rw [map_newTiles TileDesc.place fun _ _ => rfl]
  exact nodup_place_request

theorem nodup_place_merged : ((state.merged request forceKeyframe).map TileDesc.place).Nodup :=
  nodup_accumulateTiles state.distinct nodup_place_newTiles

theorem merged_eq : state.merged request forceKeyframe =
    state.session.requestedTiles.map (renew (state.newTiles request forceKeyframe)) ++
      (state.newTiles request forceKeyframe).filter (isFresh state.session.requestedTiles) :=
  accumulateTiles_eq state.distinct nodup_place_newTiles

/-!
## The state in which the loop over the list begins
-/

theorem requestedTiles_sendLoop :
    (state.sendLoop request forceKeyframe now).work.session.requestedTiles =
      state.merged request forceKeyframe := by
  have seen := @seen state request forceKeyframe now
  change accumulateTiles (state.seenLoop request forceKeyframe now).work.session.requestedTiles
    (state.seenLoop request forceKeyframe now).tiles = _
  rw [seen.requestedTiles, seen.tiles]
  rfl

theorem id_sendLoop :
    (state.sendLoop request forceKeyframe now).work.session.id = state.session.id :=
  seen.id

theorem delays_sendLoop (tile : TileDesc) :
    (state.sendLoop request forceKeyframe now).delays tile = state.holdsBack now tile := by
  have seen := @seen state request forceKeyframe now
  have same : (state.sendLoop request forceKeyframe now).work.session.tilesOnFly =
      (state.session.removeOutdatedTilesOnFly now).tilesOnFly :=
    congrArg (List.dropWhile _) seen.tilesOnFly
  unfold SendLoop.delays holdsBack TileSession.countIdenticalTilesOnFly
  rw [same]

theorem lookupTile_sendLoop (tile : TileDesc) :
    (state.sendLoop request forceKeyframe now).work.tileCache.lookupTile tile =
      state.tileCache.lookupTile tile :=
  TileCache.lookupTile_congr seen.cache seen.dontCache rfl

theorem isValid_sendLoop (tile : TileDesc) :
    (state.sendLoop request forceKeyframe now).work.tileCache.isValid tile =
      state.tileCache.isValid tile :=
  TileCache.isValid_congr seen.cache seen.dontCache rfl

theorem awaits_sendLoop (tile : TileDesc) : (state.sendLoop request forceKeyframe now).awaits tile =
    (!state.holdsBack now tile && !state.tileCache.isValid tile) := by
  unfold SendLoop.awaits
  rw [delays_sendLoop, isValid_sendLoop]

theorem tileVersion_sendLoop :
    (state.sendLoop request forceKeyframe now).work.tileVersion =
      state.tileVersion + request.tiles.length :=
  seen.tileVersion

theorem sent_sendLoop : (state.sendLoop request forceKeyframe now).work.sent = [] :=
  seen.sent

theorem toKit_sendLoop : (state.sendLoop request forceKeyframe now).work.toKit =
    tilecombineFor ((state.newTiles request forceKeyframe).filter fun tile =>
      !state.tileCache.isValid tile) := by
  have seen := @seen state request forceKeyframe now
  change (state.seenLoop request forceKeyframe now).work.toKit ++
    tilecombineFor (state.seenLoop request forceKeyframe now).tilesNeedsRendering = _
  rw [seen.toKit, seen.tilesNeedsRendering, seen.tiles]
  rfl

theorem load_sendLoop :
    (state.sendLoop request forceKeyframe now).load = state.load request now := by
  have seen := @seen state request forceKeyframe now
  have sameOnFly : (state.sendLoop request forceKeyframe now).work.session.tilesOnFly =
      (state.session.removeOutdatedTilesOnFly now).tilesOnFly :=
    congrArg (List.dropWhile _) seen.tilesOnFly
  have sameRendered : (state.sendLoop request forceKeyframe now).beingRendered =
      state.tileCache.countTilesBeingRenderedForSession state.session.id now +
        request.tiles.countP (RequestLoop.addsToRendered state.work now) := by
    refine Eq.trans ?_ seen.beingRendered
    exact congrArg (fun id => (state.seenLoop request forceKeyframe
      now).work.tileCache.countTilesBeingRenderedForSession id now) seen.id
  rw [SendLoop.load, sameOnFly, sameRendered, load, Nat.add_assoc]

theorem putsOnFly_sendLoop (tile : TileDesc) (cachedTile : TileData) :
    (state.sendLoop request forceKeyframe now).work.session.putsOnFly tile cachedTile =
      (cachedTile.comesWhole
        (if forceKeyframe = true ∧ tile.cacheKey ∈ request.tiles.map TileDesc.cacheKey then 0
        else state.session.tracker.lastSent tile.cacheKey) && state.session.traces tile) := by
  have seen := @seen state request forceKeyframe now
  have sameSent : (state.sendLoop request forceKeyframe now).work.session.tracker.lastSent
      tile.cacheKey = _ := seen.lastSent tile.cacheKey
  have sameTraces : (state.sendLoop request forceKeyframe now).work.session.traces tile =
      state.session.traces tile := seen.traces tile
  rw [TileSession.putsOnFly, sameSent, sameTraces]
  rfl

theorem rendering_newTile {tile : TileDesc} (member : tile ∈ state.newTiles request forceKeyframe)
    (invalid : state.tileCache.isValid tile = false) :
    (state.sendLoop request forceKeyframe now).work.tileCache.rendering? tile.cacheKey =
      some (TileCache.subscribed tile state.session.id now
        (state.tileCache.rendering? tile.cacheKey)) := by
  have seen := @seen state request forceKeyframe now
  exact seen.subscribed tile (tiles_seenLoop ▸ member) invalid

theorem rendering_other {key : TileKey}
    (different : ∀ tile ∈ request.tiles, state.tileCache.isValid tile = false →
      tile.cacheKey ≠ key) :
    (state.sendLoop request forceKeyframe now).work.tileCache.rendering? key =
      state.tileCache.rendering? key := by
  have seen := @seen state request forceKeyframe now
  refine seen.others key fun tile member invalid => ?_
  rw [tiles_seenLoop] at member
  obtain ⟨index, old, found, rfl⟩ := mem_newTiles.mp member
  exact different old (List.mem_of_getElem? found) invalid

theorem ver_le_of_rendering? {key : TileKey} {rendering : TileBeingRendered}
    (found : state.tileCache.rendering? key = some rendering) :
    rendering.tile.ver ≤ state.tileVersion :=
  state.numbered rendering (Keyed.find?_some found).1

theorem lt_ver_of_newTile {new : TileDesc} (member : new ∈ state.newTiles request forceKeyframe) :
    (state.tileVersion : Int) < new.ver := by
  obtain ⟨index, old, -, isNew⟩ := mem_newTiles.mp member
  rw [isNew]
  change (state.tileVersion : Int) < state.tileVersion + index + 1
  omega

/-!
## The entry of a requested tile
-/

/-- The list has an entry at the place of every requested tile, of its version. -/
theorem entry_newTile {new : TileDesc} (member : new ∈ state.newTiles request forceKeyframe) :
    new ∈ state.merged request forceKeyframe ∧
        (∀ old ∈ state.session.requestedTiles, old.place ≠ new.place) ∨
      ∃ old ∈ state.session.requestedTiles, old.place = new.place ∧
        old.renewedBy new ∈ state.merged request forceKeyframe := by
  rw [merged_eq]
  by_cases meets : ∃ old ∈ state.session.requestedTiles, old.place = new.place
  · right
    obtain ⟨old, oldMember, same⟩ := meets
    refine ⟨old, oldMember, same, List.mem_append_left _ ?_⟩
    rw [← renew_of_mem nodup_place_newTiles member same]
    exact List.mem_map_of_mem oldMember
  · left
    have alone : ∀ old ∈ state.session.requestedTiles, old.place ≠ new.place :=
      fun old oldMember same => meets ⟨old, oldMember, same⟩
    refine ⟨List.mem_append_right _ (List.mem_filter.mpr ⟨member, ?_⟩), alone⟩
    refine decide_eq_true fun isPlace => ?_
    obtain ⟨old, oldMember, same⟩ := List.mem_map.mp isPlace
    exact alone old oldMember same

/-- A requested tile that meets an old one of another key is nowhere in the list. -/
theorem cacheKey_ne_of_clash {new old entry : TileDesc}
    (member : new ∈ state.newTiles request forceKeyframe)
    (oldMember : old ∈ state.session.requestedTiles) (same : old.place = new.place)
    (clash : old.cacheKey ≠ new.cacheKey)
    (entryMember : entry ∈ state.merged request forceKeyframe) :
    entry.cacheKey ≠ new.cacheKey := by
  intro sameKey
  have renewed : old.renewedBy new ∈ state.merged request forceKeyframe := by
    rw [merged_eq, ← renew_of_mem nodup_place_newTiles member same]
    exact List.mem_append_left _ (List.mem_map_of_mem oldMember)
  have samePlace : entry.place = (old.renewedBy new).place :=
    (place_eq_of_cacheKey sameKey).trans same.symm
  have isRenewed : entry = old.renewedBy new :=
    List.inj_on_of_nodup_map nodup_place_merged entryMember renewed samePlace
  rw [isRenewed] at sameKey
  exact clash sameKey

/-!
## Requests to the kit
-/

theorem cacheKey_compose {first tile : TileDesc} (same : first.header = tile.header) :
    (TileCombined.compose first tile).cacheKey = tile.cacheKey :=
  cacheKey_eq_of_place same (by
    have viewId := congrArg TileHeader.normalizedViewId same
    simp only [TileDesc.header] at viewId
    simp [TileCombined.compose, TileDesc.place, viewId])

theorem mem_tilecombineFor {tiles : List TileDesc} {key : TileKey} :
    (∃ kitRequest ∈ tilecombineFor tiles, ∃ tile ∈ kitRequest.tiles, tile.cacheKey = key) ↔
      ∃ first, tiles.head? = some first ∧
        ∃ tile ∈ tiles, (TileCombined.compose first tile).cacheKey = key := by
  cases tiles with
  | nil => simp [tilecombineFor]
  | cons first rest =>
      simp only [tilecombineFor, List.mem_singleton, exists_eq_left, KitRequest.tiles,
        TileCombined.create, List.head?_cons, Option.some.injEq, exists_eq_left']
      constructor
      · intro asked
        obtain ⟨tile, member, isKey⟩ := asked
        obtain ⟨old, oldMember, rfl⟩ := List.mem_map.mp member
        exact ⟨old, oldMember, isKey⟩
      · intro asked
        obtain ⟨tile, member, isKey⟩ := asked
        exact ⟨_, List.mem_map_of_mem member, isKey⟩

/-- The request of a tile that is not cached is made of it. -/
theorem exists_newTile {tile : TileDesc} (member : tile ∈ request.tiles)
    (invalid : state.tileCache.isValid tile = false) :
    ∃ index, RequestLoop.requested state.work forceKeyframe index tile ∈
      (state.newTiles request forceKeyframe).filter fun tile => !state.tileCache.isValid tile := by
  obtain ⟨index, found⟩ := List.mem_iff_getElem?.mp member
  refine ⟨index, List.mem_filter.mpr ⟨mem_newTiles.mpr ⟨index, tile, found, rfl⟩, ?_⟩⟩
  change (!state.tileCache.isValid tile) = true
  rw [invalid]
  rfl

/-- The request for the new tiles asks for these only. -/
theorem requested_of_mem_newTiles {keeps : TileDesc → Bool} {key : TileKey}
    (asked : ∃ kitRequest ∈ tilecombineFor ((state.newTiles request forceKeyframe).filter keeps),
      ∃ tile ∈ kitRequest.tiles, tile.cacheKey = key) :
    key ∈ request.tiles.map TileDesc.cacheKey := by
  obtain ⟨first, isFirst, tile, member, isKey⟩ := mem_tilecombineFor.mp asked
  have firstMember := List.mem_of_mem_filter (List.mem_of_head? isFirst)
  have tileMember := List.mem_of_mem_filter member
  rw [← isKey, cacheKey_compose ((header_newTile firstMember).trans (header_newTile tileMember).symm),
    ← @map_newTiles state request forceKeyframe _ TileDesc.cacheKey fun _ _ => rfl]
  exact List.mem_map_of_mem tileMember

/-- The call as a whole: the loop visits a first part of the list, as far as the limit lets it. -/
structure Handles (state : RequestState) (request : TileCombineRequest) (forceKeyframe : Bool)
    (tilesOnFlyUpperLimit now : Nat) (visited rest : List TileDesc) (last : SendLoop)
    (after : TileWork) : Prop where
  merged : state.merged request forceKeyframe = visited ++ rest
  visits : SendLoop.Visited (state.sendLoop request forceKeyframe now) now visited rest last
  turns : ∀ front entry behind, state.merged request forceKeyframe = front ++ entry :: behind →
    (state.load request now +
        (front.map (state.sendLoop request forceKeyframe now).weight).sum < tilesOnFlyUpperLimit ↔
      front.length < visited.length)
  isAfter : after =
    { last.work with toKit := last.work.toKit ++ tilecombineFor last.tilesNeedsRendering }

theorem exists_handles (tilesOnFlyUpperLimit : Nat) :
    ∃ visited rest last, Handles state request forceKeyframe tilesOnFlyUpperLimit now visited rest last
      (handleTileCombinedRequest state.work request.toTileCombined forceKeyframe
        tilesOnFlyUpperLimit now) := by
  let seen := state.seenLoop request forceKeyframe now
  let work : TileWork := { seen.work with
    toKit := seen.work.toKit ++ tilecombineFor seen.tilesNeedsRendering
    session := { seen.work.session with
      requestedTiles := accumulateTiles seen.work.session.requestedTiles seen.tiles } }
  have isMerged : work.session.requestedTiles = state.merged request forceKeyframe :=
    @requestedTiles_sendLoop state request forceKeyframe now
  have distinct : (work.session.requestedTiles.map TileDesc.generateID).Nodup := by
    rw [isMerged]
    refine nodup_of_place nodup_place_merged fun tile other same => ?_
    simp only [TileDesc.generateID, TileId.mk.injEq] at same
    simp [TileDesc.place, same]
  obtain ⟨visited, rest, last, split, visits, turns, result⟩ :=
    visited_sendRequestedTiles tilesOnFlyUpperLimit now distinct
  rw [isMerged] at split turns
  refine ⟨visited, rest, last, split, visits, ?_, result⟩
  rw [← @load_sendLoop state request forceKeyframe now]
  exact turns

/-!
## What is promised, and when it is kept
-/

variable (state request forceKeyframe now)

/-- A tile of the request was sent from the cache, or is being rendered for the session in
this version or a newer one, or is in the list. -/
def Settled (after : TileWork) (tile : TileDesc) (ver : Int) : Prop :=
  (∃ sent ∈ after.sent, sent.cacheKey = tile.cacheKey) ∨
    (∃ rendering, after.tileCache.rendering? tile.cacheKey = some rendering ∧
      state.session.id ∈ rendering.subscribers ∧ ver ≤ rendering.tile.ver) ∨
    ∃ listed ∈ after.session.requestedTiles, listed.cacheKey = tile.cacheKey

/-- The kit was asked for the tile, now or before. -/
def Forwarded (after : TileWork) (old : TileDesc) : Prop :=
  (∃ kitRequest ∈ after.toKit, ∃ tile ∈ kitRequest.tiles, tile.cacheKey = old.cacheKey) ∨
    state.tileCache.needsRendering old now = false

/-- A tile of the list is still there, or was sent, forwarded or requested again. -/
def Kept (after : TileWork) (old : TileDesc) : Prop :=
  (∃ listed ∈ after.session.requestedTiles, listed.cacheKey = old.cacheKey) ∨
    (∃ sent ∈ after.sent, sent.cacheKey = old.cacheKey) ∨
    state.Forwarded now after old ∨
    ∃ tile ∈ request.tiles, tile.cacheKey = old.cacheKey

structure NothingLost (after : TileWork) : Prop where
  requested : ∀ (index : Nat) (tile : TileDesc), request.tiles[index]? = some tile →
    state.Settled after tile (state.tileVersion + index + 1)
  listed : ∀ old ∈ state.session.requestedTiles, state.Kept request now after old

/-- Nothing is lost with so many tiles that may be on the fly. -/
def NeverLost (tilesOnFlyUpperLimit : Nat) : Prop :=
  state.NothingLost request now
    (handleTileCombinedRequest state.work request.toTileCombined forceKeyframe
      tilesOnFlyUpperLimit now)

/-- The kit will be asked for the tile when its turn comes. A requested tile is asked for
once, unless its rendering is too old or does not know of the session yet. -/
def asksFor (tile : TileDesc) : Bool :=
  !state.holdsBack now tile && !state.tileCache.isValid tile &&
    if tile.cacheKey ∈ request.tiles.map TileDesc.cacheKey then
      match state.tileCache.rendering? tile.cacheKey with
      | none => false
      | some rendering =>
          TileCache.isStale rendering now || !rendering.subscribers.contains state.session.id
    else
      decide (tile.place ∈ request.tiles.map TileDesc.place) ||
        state.tileCache.needsRendering tile now

/-- The listed tiles, and those of the request that meet none of them. -/
def wantedTiles : List TileDesc :=
  state.session.requestedTiles ++ request.tiles.filter (isFresh state.session.requestedTiles)

/-- The tile whose view, part, mode and sizes the request to the kit will have. -/
def firstAsked : Option TileDesc :=
  (state.wantedTiles request).find? (state.asksFor request now)

structure Mergeable (tilesOnFlyUpperLimit : Nat) : Prop where
  /-- A new tile meets an old one of the same key, or is not cached and no one else waits
  for it. -/
  places : ∀ tile ∈ request.tiles, ∀ old ∈ state.session.requestedTiles,
    old.place = tile.place → old.cacheKey = tile.cacheKey ∨
      state.tileCache.isValid tile = false ∧
        ∀ rendering, state.tileCache.rendering? tile.cacheKey = some rendering →
          state.session.id ∈ rendering.subscribers
  /-- An old tile that is to be rendered, if its turn comes, can be combined with the first one. -/
  headers : ∀ front old behind, state.session.requestedTiles = front ++ old :: behind →
    state.TurnComes request forceKeyframe now tilesOnFlyUpperLimit front →
      old.cacheKey ∉ request.tiles.map TileDesc.cacheKey → state.holdsBack now old = false →
        state.tileCache.isValid old = false → state.tileCache.needsRendering old now = true →
          ∀ first, state.firstAsked request now = some first → first.header = old.header

variable {state request forceKeyframe now}

/-!
## Which tiles the kit is asked for
-/

theorem holdsBack_congr {tile other : TileDesc} (sameKey : tile.cacheKey = other.cacheKey) :
    state.holdsBack now tile = state.holdsBack now other := by
  unfold holdsBack TileSession.countIdenticalTilesOnFly
  rw [generateID_eq_of_cacheKey sameKey]

/-- A requested tile that the session has just subscribed to. -/
theorem needsRendering_newTile {new entry : TileDesc}
    (member : new ∈ state.newTiles request forceKeyframe)
    (invalid : state.tileCache.isValid new = false) (sameKey : entry.cacheKey = new.cacheKey)
    (sameVersion : entry.ver = new.ver) :
    (state.sendLoop request forceKeyframe now).work.tileCache.needsRendering entry now =
      match state.tileCache.rendering? new.cacheKey with
      | none => false
      | some rendering =>
          TileCache.isStale rendering now || !rendering.subscribers.contains state.session.id := by
  rw [TileCache.needsRendering_eq, sameKey, rendering_newTile member invalid, sameVersion]
  cases isOld : state.tileCache.rendering? new.cacheKey with
  | none => simp [TileCache.subscribed, TileCache.isStale]
  | some old =>
      have older := ver_le_of_rendering? isOld
      have newer := lt_ver_of_newTile member
      by_cases waits : state.session.id ∈ old.subscribers
      · simp [TileCache.subscribed, TileCache.isStale, TileDesc.setVersion, waits]
      · have before : old.tile.ver < new.ver := by omega
        simp [TileCache.subscribed, waits, before]

theorem asks_newTile {new entry source : TileDesc}
    (member : new ∈ state.newTiles request forceKeyframe) (sameKey : entry.cacheKey = new.cacheKey)
    (sameVersion : entry.ver = new.ver) (sourceKey : source.cacheKey = new.cacheKey) :
    (state.sendLoop request forceKeyframe now).asks now entry = state.asksFor request now source := by
  have isRequested : source.cacheKey ∈ request.tiles.map TileDesc.cacheKey := by
    rw [sourceKey, ← @map_newTiles state request forceKeyframe _ TileDesc.cacheKey fun _ _ => rfl]
    exact List.mem_map_of_mem member
  have same : entry.cacheKey = source.cacheKey := sameKey.trans sourceKey.symm
  unfold SendLoop.asks asksFor
  rw [awaits_sendLoop, if_pos isRequested, holdsBack_congr same, TileCache.isValid_congr rfl rfl same]
  cases valid : state.tileCache.isValid source with
  | true => simp
  | false =>
      have invalid : state.tileCache.isValid new = false :=
        (TileCache.isValid_congr rfl rfl sourceKey.symm).trans valid
      rw [needsRendering_newTile member invalid sameKey sameVersion, sourceKey]

theorem asks_renew (old : TileDesc) :
    (state.sendLoop request forceKeyframe now).asks now
      (renew (state.newTiles request forceKeyframe) old) = state.asksFor request now old := by
  by_cases isRequested : old.cacheKey ∈ request.tiles.map TileDesc.cacheKey
  · rw [← @map_newTiles state request forceKeyframe _ TileDesc.cacheKey fun _ _ => rfl] at isRequested
    obtain ⟨new, member, sameKey⟩ := List.mem_map.mp isRequested
    have same : old.place = new.place := place_eq_of_cacheKey sameKey.symm
    rw [renew_of_mem nodup_place_newTiles member same]
    exact asks_newTile member sameKey.symm rfl sameKey.symm
  · have untouched : (state.sendLoop request forceKeyframe now).work.tileCache.rendering?
        old.cacheKey = state.tileCache.rendering? old.cacheKey :=
      rendering_other fun tile member _ sameKey =>
        isRequested (sameKey ▸ List.mem_map_of_mem member)
    unfold SendLoop.asks asksFor
    rw [awaits_sendLoop, if_neg isRequested, holdsBack_congr (cacheKey_renew _ old),
      TileCache.isValid_congr rfl rfl (cacheKey_renew _ old)]
    congr 1
    rw [← @map_newTiles state request forceKeyframe _ TileDesc.place fun _ _ => rfl]
    by_cases meets : old.place ∈ (state.newTiles request forceKeyframe).map TileDesc.place
    · obtain ⟨new, member, same⟩ := List.mem_map.mp meets
      have newer := lt_ver_of_newTile member
      rw [decide_eq_true meets, Bool.true_or, renew_of_mem nodup_place_newTiles member same.symm,
        TileCache.needsRendering_eq, cacheKey_renewedBy, untouched]
      cases isOld : state.tileCache.rendering? old.cacheKey with
      | none => rfl
      | some rendering =>
          have older := ver_le_of_rendering? isOld
          have before : rendering.tile.ver < (old.renewedBy new).ver := by
            change rendering.tile.ver < new.ver
            omega
          simp [before]
    · rw [decide_eq_false meets, Bool.false_or, renew_of_not_mem meets]
      exact TileCache.needsRendering_congr untouched

/-- The entry of the merged list that a wanted tile becomes. -/
inductive Becomes (state : RequestState) (request : TileCombineRequest) (forceKeyframe : Bool) :
    TileDesc → TileDesc → Prop where
  | listed {old : TileDesc} :
      Becomes state request forceKeyframe old (renew (state.newTiles request forceKeyframe) old)
  | requested {index : Nat} {tile : TileDesc} : request.tiles[index]? = some tile →
      Becomes state request forceKeyframe tile
        (RequestLoop.requested state.work forceKeyframe index tile)

section

variable {tile entry : TileDesc} (becomes : Becomes state request forceKeyframe tile entry)

include becomes

theorem Becomes.key : entry.cacheKey = tile.cacheKey := by
  cases becomes with
  | listed => exact cacheKey_renew _ tile
  | requested _ => rfl

theorem Becomes.asks : (state.sendLoop request forceKeyframe now).asks now entry =
    state.asksFor request now tile := by
  cases becomes with
  | listed => exact asks_renew tile
  | requested found => exact asks_newTile (mem_newTiles.mpr ⟨_, tile, found, rfl⟩) rfl rfl rfl

/-- Whether the tile counts does not depend on its version and its old wire id. -/
theorem Becomes.traces : state.session.traces entry =
    state.session.traces (renew request.tiles tile) := by
  cases becomes with
  | listed =>
      by_cases meets : tile.place ∈ request.tiles.map TileDesc.place
      · obtain ⟨new, member, same⟩ := List.mem_map.mp meets
        obtain ⟨index, found⟩ := List.mem_iff_getElem?.mp member
        rw [renew_of_mem nodup_place_request member same.symm, renew_of_mem nodup_place_newTiles
          (mem_newTiles.mpr ⟨index, new, found, rfl⟩) same.symm]
        exact TileSession.traces_congr rfl rfl fun _ => rfl
      · have absent : tile.place ∉ (state.newTiles request forceKeyframe).map TileDesc.place := by
          rw [map_newTiles TileDesc.place fun _ _ => rfl]
          exact meets
        rw [renew_of_not_mem meets, renew_of_not_mem absent]
  | requested found =>
      rw [renew_of_mem nodup_place_request (List.mem_of_getElem? found) rfl]
      exact TileSession.traces_congr rfl rfl fun _ => rfl

theorem Becomes.weight : (state.sendLoop request forceKeyframe now).weight entry =
    state.weight request forceKeyframe now tile := by
  have sameKey := becomes.key
  have samePuts (cachedTile : TileData) :
      (state.sendLoop request forceKeyframe now).work.session.putsOnFly entry cachedTile =
        state.putsOnFly request forceKeyframe tile cachedTile := by
    rw [putsOnFly_sendLoop, sameKey, becomes.traces]
    rfl
  rw [SendLoop.weight, RequestState.weight, delays_sendLoop, holdsBack_congr sameKey,
    lookupTile_sendLoop, TileCache.lookupTile_congr rfl rfl sameKey]
  cases (state.tileCache.lookupTile tile).filter TileData.valid with
  | none => rfl
  | some cachedTile => simp only [samePuts]

end

theorem merged_forall₂ : List.Forall₂ (Becomes state request forceKeyframe)
    (state.wantedTiles request) (state.merged request forceKeyframe) := by
  have requested : List.Forall₂ (Becomes state request forceKeyframe) request.tiles
      (state.newTiles request forceKeyframe) := by
    refine List.forall₂_iff_get.mpr ⟨by simp [newTiles], fun index inRequest inside => ?_⟩
    have isNew : (state.newTiles request forceKeyframe).get ⟨index, inside⟩ =
        RequestLoop.requested state.work forceKeyframe index (request.tiles.get ⟨index, inRequest⟩) := by
      simp [newTiles]
    rw [isNew]
    exact .requested (by rw [List.get_eq_getElem, List.getElem?_eq_getElem])
  rw [merged_eq, wantedTiles]
  refine List.rel_append ?_ (List.rel_filter ?_ requested)
  · exact List.forall₂_map_right_iff.mpr (List.forall₂_same.mpr fun old _ => .listed)
  · intro tile entry becomes
    have samePlace := place_eq_of_cacheKey becomes.key
    simp only [isFresh, samePlace]

theorem map_weight {front entries : List TileDesc}
    (areFront : List.Forall₂ (Becomes state request forceKeyframe) front entries) :
    front.map (state.weight request forceKeyframe now) =
      entries.map (state.sendLoop request forceKeyframe now).weight := by
  rw [← List.forall₂_eq_eq_eq, List.forall₂_map_left_iff, List.forall₂_map_right_iff]
  exact areFront.imp fun _ _ becomes => becomes.weight.symm

private theorem find?_forall₂ {related : TileDesc → TileDesc → Prop} {left right : TileDesc → Bool}
    {tiles entries : List TileDesc} (areRelated : List.Forall₂ related tiles entries)
    (same : ∀ tile entry, related tile entry →
      right entry = left tile ∧ entry.cacheKey = tile.cacheKey) :
    (entries.find? right).map TileDesc.cacheKey = (tiles.find? left).map TileDesc.cacheKey := by
  induction areRelated with
  | nil => rfl
  | @cons tile entry _ _ isRelated _ ih =>
      obtain ⟨sameChoice, sameKey⟩ := same tile entry isRelated
      rw [List.find?_cons, List.find?_cons, sameChoice]
      split
      · exact congrArg some sameKey
      · exact ih

/-- The first tile that the loop asks for is the one that the state before foretells. -/
theorem find?_merged :
    ((state.merged request forceKeyframe).find?
        ((state.sendLoop request forceKeyframe now).asks now)).map TileDesc.cacheKey =
      (state.firstAsked request now).map TileDesc.cacheKey :=
  find?_forall₂ merged_forall₂ fun _ _ becomes => ⟨becomes.asks, becomes.key⟩

private theorem forall₂_split {related : TileDesc → TileDesc → Prop} {tiles entries : List TileDesc}
    (areRelated : List.Forall₂ related tiles entries) {front behind : List TileDesc}
    {tile : TileDesc} (split : tiles = front ++ tile :: behind) :
    ∃ first entry later, entries = first ++ entry :: later ∧ List.Forall₂ related front first ∧
      related tile entry := by
  induction areRelated generalizing front with
  | nil => exact absurd split (by simp)
  | @cons other entry tiles entries isRelated areLater ih =>
      cases front with
      | nil =>
          rw [List.nil_append, List.cons.injEq] at split
          exact ⟨[], entry, entries, rfl, .nil, split.1 ▸ isRelated⟩
      | cons head front =>
          rw [List.cons_append, List.cons.injEq] at split
          obtain ⟨first, found, later, rfl, areFront, isFound⟩ := ih split.2
          exact ⟨entry :: first, found, later, rfl, .cons (split.1 ▸ isRelated) areFront, isFound⟩

/-- In a list without repetitions, an element is in the first part if its place is. -/
private theorem mem_first_iff {first rest front behind : List TileDesc} {entry : TileDesc}
    (distinct : (first ++ rest).Nodup) (split : first ++ rest = front ++ entry :: behind) :
    entry ∈ first ↔ front.length < first.length := by
  rcases List.append_eq_append_iff.mp split with ⟨more, rfl, isRest⟩ | ⟨more, rfl, isRest⟩
  · refine iff_of_false (fun isFirst => ?_) (by simp)
    refine (List.nodup_append.mp distinct).2.2 entry isFirst entry ?_ rfl
    rw [isRest]
    exact List.mem_append_right _ List.mem_cons_self
  · cases more with
    | nil =>
        rw [List.append_nil] at distinct ⊢
        refine iff_of_false (fun isFirst => ?_) (lt_irrefl _)
        refine (List.nodup_append.mp distinct).2.2 entry isFirst entry ?_ rfl
        rw [List.nil_append] at isRest
        rw [← isRest]
        exact List.mem_cons_self
    | cons head more =>
        rw [List.cons_append, List.cons.injEq] at isRest
        refine iff_of_true ?_ (by simp)
        rw [isRest.1]
        exact List.mem_append_right _ List.mem_cons_self

namespace Handles

variable {tilesOnFlyUpperLimit : Nat} {visited rest : List TileDesc} {last : SendLoop}
  {after : TileWork}
  (handles : Handles state request forceKeyframe tilesOnFlyUpperLimit now visited rest last after)

include handles

theorem requestedTiles :
    after.session.requestedTiles = rest ++ visited.filter (state.holdsBack now) := by
  rw [handles.isAfter]
  refine handles.visits.requestedTiles.trans ?_
  rw [funext delays_sendLoop]

theorem sent : after.sent = visited.filter fun tile =>
    !state.holdsBack now tile && state.tileCache.isValid tile := by
  rw [handles.isAfter]
  refine handles.visits.sent.trans ?_
  unfold SendLoop.serves
  simp only [sent_sendLoop, List.nil_append, delays_sendLoop, isValid_sendLoop]

/-- What becomes of a tile of the merged list. -/
theorem cases_merged {tile : TileDesc} (member : tile ∈ state.merged request forceKeyframe) :
    (∃ listed ∈ after.session.requestedTiles, listed.cacheKey = tile.cacheKey) ∨
      (∃ sent ∈ after.sent, sent.cacheKey = tile.cacheKey) ∨
      tile ∈ visited ∧ state.holdsBack now tile = false ∧ state.tileCache.isValid tile = false := by
  rw [handles.merged] at member
  rcases List.mem_append.mp member with isVisited | isRest
  · cases held : state.holdsBack now tile with
    | true =>
        left
        refine ⟨tile, ?_, rfl⟩
        rw [handles.requestedTiles]
        exact List.mem_append_right _ (List.mem_filter.mpr ⟨isVisited, held⟩)
    | false =>
        cases valid : state.tileCache.isValid tile with
        | true =>
            right
            left
            refine ⟨tile, ?_, rfl⟩
            rw [handles.sent]
            exact List.mem_filter.mpr ⟨isVisited, by simp [held, valid]⟩
        | false => exact .inr (.inr ⟨isVisited, rfl, rfl⟩)
  · left
    refine ⟨tile, ?_, rfl⟩
    rw [handles.requestedTiles]
    exact List.mem_append_left _ isRest

theorem rendering?_eq (key : TileKey) :
    after.tileCache.rendering? key = last.work.tileCache.rendering? key := by
  rw [handles.isAfter]

theorem mem_merged_of_listed {tile : TileDesc} (listed : tile ∈ after.session.requestedTiles) :
    tile ∈ state.merged request forceKeyframe := by
  rw [handles.merged]
  rw [handles.requestedTiles] at listed
  rcases List.mem_append.mp listed with isRest | isHeld
  · exact List.mem_append_right _ isRest
  · exact List.mem_append_left _ (List.mem_filter.mp isHeld).1

theorem mem_merged_of_sent {tile : TileDesc} (isSent : tile ∈ after.sent) :
    tile ∈ state.merged request forceKeyframe := by
  rw [handles.merged]
  rw [handles.sent] at isSent
  exact List.mem_append_left _ (List.mem_filter.mp isSent).1

/-- Nothing renders a tile that is nowhere in the list. -/
theorem rendering?_of_clash {key : TileKey}
    (nowhere : ∀ entry ∈ state.merged request forceKeyframe, entry.cacheKey ≠ key) :
    after.tileCache.rendering? key =
      (state.sendLoop request forceKeyframe now).work.tileCache.rendering? key := by
  rw [handles.rendering?_eq]
  refine handles.visits.others key fun tile isVisited _ => nowhere tile ?_
  rw [handles.merged]
  exact List.mem_append_left _ isVisited

/-- A requested tile with an entry of its own. -/
theorem settled_of_entry {new entry : TileDesc}
    (member : new ∈ state.newTiles request forceKeyframe)
    (entryMember : entry ∈ state.merged request forceKeyframe)
    (sameKey : entry.cacheKey = new.cacheKey) (sameVersion : entry.ver = new.ver) :
    state.Settled after new new.ver := by
  rcases handles.cases_merged entryMember with listed | sent | ⟨isVisited, unheld, invalid⟩
  · rw [sameKey] at listed
    exact .inr (.inr listed)
  · rw [sameKey] at sent
    exact .inl sent
  · right
    left
    have awaited : (state.sendLoop request forceKeyframe now).awaits entry = true := by
      rw [awaits_sendLoop, unheld, invalid]
      rfl
    obtain ⟨rendering, found, subscribes, newer⟩ :=
      handles.visits.subscribed entry isVisited awaited
    rw [id_sendLoop] at subscribes newer
    have newInvalid : state.tileCache.isValid new = false :=
      (TileCache.isValid_congr rfl rfl sameKey.symm).trans invalid
    have already := @rendering_newTile state request forceKeyframe now new member newInvalid
    rw [← sameKey] at already
    have inTime : entry.ver ≤ (state.sendLoop request forceKeyframe now).work.tileVersion := by
      obtain ⟨index, old, found, isNew⟩ := mem_newTiles.mp member
      have inside : index < request.tiles.length := (List.getElem?_eq_some_iff.mp found).1
      rw [sameVersion, isNew, tileVersion_sendLoop]
      change (state.tileVersion : Int) + index + 1 ≤ _
      omega
    refine ⟨rendering, ?_, subscribes, ?_⟩
    · rw [handles.rendering?_eq, ← sameKey]
      exact found
    · rw [← sameVersion]
      exact newer _ already (TileCache.mem_subscribed.mpr (.inl rfl)) inTime

/-- A requested tile that meets an old one of another key is only waited for. -/
theorem settled_of_clash {new old : TileDesc}
    (member : new ∈ state.newTiles request forceKeyframe)
    (oldMember : old ∈ state.session.requestedTiles) (same : old.place = new.place)
    (clash : old.cacheKey ≠ new.cacheKey) :
    state.Settled after new new.ver ↔ state.tileCache.isValid new = false ∧
      ∀ rendering, state.tileCache.rendering? new.cacheKey = some rendering →
        state.session.id ∈ rendering.subscribers := by
  have nowhere : ∀ entry ∈ state.merged request forceKeyframe, entry.cacheKey ≠ new.cacheKey :=
    fun entry entryMember => cacheKey_ne_of_clash member oldMember same clash entryMember
  have unchanged := handles.rendering?_of_clash nowhere
  have newer := lt_ver_of_newTile member
  constructor
  · intro settled
    obtain ⟨sent, isSent, sameKey⟩ | ⟨rendering, found, subscribes, covers⟩ |
      ⟨listed, isListed, sameKey⟩ := settled
    · exact absurd sameKey (nowhere sent (handles.mem_merged_of_sent isSent))
    · rw [unchanged] at found
      cases valid : state.tileCache.isValid new with
      | true =>
          have untouched : ∀ tile ∈ request.tiles, state.tileCache.isValid tile = false →
              tile.cacheKey ≠ new.cacheKey := by
            intro tile _ invalid isKey
            rw [TileCache.isValid_congr rfl rfl isKey, valid] at invalid
            cases invalid
          rw [rendering_other untouched] at found
          have older := ver_le_of_rendering? found
          omega
      | false =>
          refine ⟨rfl, fun old isOld => ?_⟩
          rw [rendering_newTile member valid, isOld, Option.some.injEq] at found
          by_contra missing
          rw [← found, TileCache.subscribed, if_neg missing] at covers
          dsimp only at covers
          have older := ver_le_of_rendering? isOld
          omega
    · exact absurd sameKey (nowhere listed (handles.mem_merged_of_listed isListed))
  · intro waits
    obtain ⟨invalid, waits⟩ := waits
    right
    left
    refine ⟨_, unchanged.trans (rendering_newTile member invalid),
      TileCache.mem_subscribed.mpr (.inl rfl), ?_⟩
    cases isOld : state.tileCache.rendering? new.cacheKey with
    | none => exact Int.le_refl _
    | some old =>
        rw [TileCache.subscribed, if_pos (waits old isOld)]
        exact Int.le_refl _

theorem requested_iff :
    (∀ (index : Nat) (tile : TileDesc), request.tiles[index]? = some tile →
      state.Settled after tile (state.tileVersion + index + 1)) ↔
    ∀ tile ∈ request.tiles, ∀ old ∈ state.session.requestedTiles,
      old.place = tile.place → old.cacheKey = tile.cacheKey ∨
        state.tileCache.isValid tile = false ∧
          ∀ rendering, state.tileCache.rendering? tile.cacheKey = some rendering →
            state.session.id ∈ rendering.subscribers := by
  constructor
  · intro settled tile member old oldMember same
    obtain ⟨index, found⟩ := List.mem_iff_getElem?.mp member
    by_cases sameKey : old.cacheKey = tile.cacheKey
    · exact .inl sameKey
    · have isNew : RequestLoop.requested state.work forceKeyframe index tile ∈
          state.newTiles request forceKeyframe := mem_newTiles.mpr ⟨index, tile, found, rfl⟩
      exact .inr ((handles.settled_of_clash isNew oldMember same sameKey).mp
        (settled index tile found))
  · intro places index tile found
    have isNew : RequestLoop.requested state.work forceKeyframe index tile ∈
        state.newTiles request forceKeyframe := mem_newTiles.mpr ⟨index, tile, found, rfl⟩
    rcases entry_newTile isNew with ⟨isEntry, -⟩ | ⟨old, oldMember, same, isEntry⟩
    · exact handles.settled_of_entry isNew isEntry rfl rfl
    · by_cases sameKey : old.cacheKey = tile.cacheKey
      · exact handles.settled_of_entry isNew isEntry sameKey rfl
      · have waits := (places tile (List.mem_of_getElem? found) old oldMember same).resolve_left
          sameKey
        exact (handles.settled_of_clash isNew oldMember same sameKey).mpr waits

/-!
### The tiles that were in the list before
-/

theorem toKit : after.toKit =
    tilecombineFor ((state.newTiles request forceKeyframe).filter fun tile =>
      !state.tileCache.isValid tile) ++ tilecombineFor last.tilesNeedsRendering := by
  rw [handles.isAfter]
  dsimp only
  rw [handles.visits.toKit, toKit_sendLoop]

theorem cacheKey_asked : last.tilesNeedsRendering.map TileDesc.cacheKey =
    (visited.filter ((state.sendLoop request forceKeyframe now).asks now)).map
      TileDesc.cacheKey := by
  have asked := congrArg (List.map Prod.fst) handles.visits.asked
  rw [List.map_map, List.map_map] at asked
  exact asked

/-- The request to the kit has the view, the part, the mode and the sizes that were
foretold. -/
theorem header_first {first : TileDesc} (isFirst : last.tilesNeedsRendering.head? = some first) :
    ∃ foretold, state.firstAsked request now = some foretold ∧
      foretold.header = first.header := by
  have heads := congrArg List.head? handles.cacheKey_asked
  rw [List.head?_map, List.head?_map, isFirst, List.head?_filter] at heads
  obtain ⟨tile, found, sameKey⟩ := Option.map_eq_some_iff.mp heads.symm
  have foundMerged : (state.merged request forceKeyframe).find?
      ((state.sendLoop request forceKeyframe now).asks now) = some tile := by
    rw [handles.merged, List.find?_append, found]
    rfl
  have foretells := @find?_merged state request forceKeyframe now
  rw [foundMerged] at foretells
  obtain ⟨foretold, isForetold, foretoldKey⟩ := Option.map_eq_some_iff.mp foretells.symm
  exact ⟨foretold, isForetold, header_eq_of_cacheKey (foretoldKey.trans sameKey)⟩

/-- The loop comes to a wanted tile if and only if it has its turn. -/
theorem exists_entry {front behind : List TileDesc} {tile : TileDesc}
    (split : state.wantedTiles request = front ++ tile :: behind) :
    ∃ entry ∈ state.merged request forceKeyframe, Becomes state request forceKeyframe tile entry ∧
      (entry ∈ visited ↔
        state.TurnComes request forceKeyframe now tilesOnFlyUpperLimit front) := by
  obtain ⟨first, entry, later, isMerged, areFront, becomes⟩ := forall₂_split merged_forall₂ split
  have distinct := (@nodup_place_merged state request forceKeyframe).of_map
  rw [handles.merged] at distinct
  refine ⟨entry, ?_, becomes, ?_⟩
  · rw [isMerged]
    exact List.mem_append_right _ List.mem_cons_self
  · rw [TurnComes, map_weight areFront, handles.turns first entry later isMerged]
    exact mem_first_iff distinct (handles.merged.symm.trans isMerged)

/-- Whatever the tilecombine of the loop asks for has the header of its first tile. -/
theorem header_of_asked {first tile : TileDesc}
    (isFirst : state.firstAsked request now = some first)
    (isAsked : ∃ kitRequest ∈ tilecombineFor last.tilesNeedsRendering,
      ∃ asked ∈ kitRequest.tiles, asked.cacheKey = tile.cacheKey) : first.header = tile.header := by
  obtain ⟨head, isHead, asked, -, isKey⟩ := mem_tilecombineFor.mp isAsked
  obtain ⟨foretold, isForetold, sameHeader⟩ := handles.header_first isHead
  rw [isFirst, Option.some.injEq] at isForetold
  have composed : (TileCombined.compose head asked).header = tile.header :=
    header_eq_of_cacheKey isKey
  rw [isForetold, sameHeader]
  exact composed

/-- A tile that needs to be rendered is in the tilecombine if it has the header of the first one. -/
theorem asked_of_header {entry : TileDesc} (isVisited : entry ∈ visited)
    (asks : (state.sendLoop request forceKeyframe now).asks now entry = true)
    (header : ∀ first, state.firstAsked request now = some first → first.header = entry.header) :
    ∃ kitRequest ∈ tilecombineFor last.tilesNeedsRendering,
      ∃ asked ∈ kitRequest.tiles, asked.cacheKey = entry.cacheKey := by
  have isAsked : entry.cacheKey ∈ last.tilesNeedsRendering.map TileDesc.cacheKey := by
    rw [handles.cacheKey_asked]
    exact List.mem_map_of_mem (List.mem_filter.mpr ⟨isVisited, asks⟩)
  obtain ⟨tile, member, sameKey⟩ := List.mem_map.mp isAsked
  have isFirst := List.head?_eq_some_head (List.ne_nil_of_mem member)
  obtain ⟨foretold, isForetold, sameHeader⟩ := handles.header_first isFirst
  have combines := sameHeader.symm.trans ((header foretold isForetold).trans
    (header_eq_of_cacheKey sameKey.symm))
  exact mem_tilecombineFor.mpr
    ⟨_, isFirst, tile, member, (cacheKey_compose combines).trans sameKey⟩

/-- What the loop comes to was wanted, and had its turn. -/
theorem exists_wanted {entry : TileDesc} (isVisited : entry ∈ visited) :
    ∃ front tile behind, state.wantedTiles request = front ++ tile :: behind ∧
      Becomes state request forceKeyframe tile entry ∧
      state.TurnComes request forceKeyframe now tilesOnFlyUpperLimit front := by
  obtain ⟨first, later, isSplit⟩ := List.append_of_mem isVisited
  have isMerged : state.merged request forceKeyframe = first ++ entry :: (later ++ rest) := by
    rw [handles.merged, isSplit, List.append_assoc, List.cons_append]
  obtain ⟨front, tile, behind, isWanted, areFront, becomes⟩ :=
    forall₂_split (@merged_forall₂ state).flip isMerged
  refine ⟨front, tile, behind, isWanted, becomes, ?_⟩
  rw [TurnComes, map_weight areFront.flip, handles.turns first entry _ isMerged, isSplit,
    List.length_append, List.length_cons]
  omega

theorem kept_of_headers {front behind : List TileDesc} {old : TileDesc}
    (split : state.session.requestedTiles = front ++ old :: behind)
    (headers : state.TurnComes request forceKeyframe now tilesOnFlyUpperLimit front →
      old.cacheKey ∉ request.tiles.map TileDesc.cacheKey →
        state.holdsBack now old = false → state.tileCache.isValid old = false →
          state.tileCache.needsRendering old now = true →
            ∀ first, state.firstAsked request now = some first → first.header = old.header) :
    state.Kept request now after old := by
  by_cases isRequested : old.cacheKey ∈ request.tiles.map TileDesc.cacheKey
  · obtain ⟨tile, member, sameKey⟩ := List.mem_map.mp isRequested
    exact .inr (.inr (.inr ⟨tile, member, sameKey⟩))
  have isWanted : state.wantedTiles request = front ++ old :: (behind ++
      request.tiles.filter (isFresh state.session.requestedTiles)) := by
    rw [wantedTiles, split, List.append_assoc, List.cons_append]
  obtain ⟨entry, entryMember, becomes, hasTurn⟩ := handles.exists_entry isWanted
  have entryKey := becomes.key
  rcases handles.cases_merged entryMember with listed | sent | ⟨isVisited, unheld, invalid⟩
  · rw [entryKey] at listed
    exact .inl listed
  · rw [entryKey] at sent
    exact .inr (.inl sent)
  · right
    right
    left
    rw [holdsBack_congr entryKey] at unheld
    rw [TileCache.isValid_congr rfl rfl entryKey] at invalid
    cases needs : state.tileCache.needsRendering old now with
    | false => exact .inr needs
    | true =>
        left
        have asks : (state.sendLoop request forceKeyframe now).asks now entry = true := by
          rw [becomes.asks]
          simp [asksFor, unheld, invalid, isRequested, needs]
        have combines : ∀ first, state.firstAsked request now = some first →
            first.header = entry.header := fun first isFirst =>
          (headers (hasTurn.mp isVisited) isRequested unheld invalid needs first isFirst).trans
            (header_eq_of_cacheKey entryKey.symm)
        obtain ⟨kitRequest, inKit, isAsked⟩ := handles.asked_of_header isVisited asks combines
        rw [entryKey] at isAsked
        refine ⟨kitRequest, ?_, isAsked⟩
        rw [handles.toKit]
        exact List.mem_append_right _ inKit

/-- When the loop has come to a tile that is to be rendered, the tile is in none of the other
places. -/
theorem headers_of_kept {old entry : TileDesc} (isVisited : entry ∈ visited)
    (becomes : Becomes state request forceKeyframe old entry)
    (kept : state.Kept request now after old)
    (unrequested : old.cacheKey ∉ request.tiles.map TileDesc.cacheKey)
    (unheld : state.holdsBack now old = false) (invalid : state.tileCache.isValid old = false)
    (needs : state.tileCache.needsRendering old now = true) {first : TileDesc}
    (isFirst : state.firstAsked request now = some first) : first.header = old.header := by
  obtain ⟨listed, isListed, sameKey⟩ | ⟨sent, isSent, sameKey⟩ | (isAsked | spared) |
    ⟨tile, member, sameKey⟩ := kept
  · have distinct := @nodup_place_merged state request forceKeyframe
    have isEntry : listed = entry := by
      refine List.inj_on_of_nodup_map distinct (handles.mem_merged_of_listed isListed) ?_
        (place_eq_of_cacheKey (sameKey.trans becomes.key.symm))
      rw [handles.merged]
      exact List.mem_append_left _ isVisited
    rw [handles.requestedTiles, isEntry] at isListed
    rcases List.mem_append.mp isListed with isRest | isHeld
    · have apart := distinct.of_map
      rw [handles.merged] at apart
      exact absurd rfl ((List.nodup_append.mp apart).2.2 entry isVisited entry isRest)
    · have held := (List.mem_filter.mp isHeld).2
      rw [holdsBack_congr becomes.key, unheld] at held
      cases held
  · rw [handles.sent] at isSent
    have valid := (List.mem_filter.mp isSent).2
    rw [TileCache.isValid_congr rfl rfl sameKey, invalid, Bool.and_false] at valid
    cases valid
  · obtain ⟨kitRequest, inKit, rest⟩ := isAsked
    rw [handles.toKit] at inKit
    rcases List.mem_append.mp inKit with isNew | isLast
    · exact absurd (requested_of_mem_newTiles ⟨kitRequest, isNew, rest⟩) unrequested
    · exact handles.header_of_asked isFirst ⟨kitRequest, isLast, rest⟩
  · rw [needs] at spared
    cases spared
  · exact absurd (List.mem_map.mpr ⟨tile, member, sameKey⟩) unrequested

end Handles

/-- Nothing is lost if and only if new tiles meet old ones of the same key and the old ones that have
their turn can be combined. -/
theorem neverLost_iff (tilesOnFlyUpperLimit : Nat) :
    state.NeverLost request forceKeyframe now tilesOnFlyUpperLimit ↔
      state.Mergeable request forceKeyframe now tilesOnFlyUpperLimit := by
  obtain ⟨visited, rest, last, handles⟩ :=
    @exists_handles state request forceKeyframe now tilesOnFlyUpperLimit
  constructor
  · intro ⟨requested, listed⟩
    refine ⟨handles.requested_iff.mp requested, ?_⟩
    intro front old behind split turn unrequested unheld invalid needs first isFirst
    have isWanted : state.wantedTiles request = front ++ old :: (behind ++
        request.tiles.filter (isFresh state.session.requestedTiles)) := by
      rw [wantedTiles, split, List.append_assoc, List.cons_append]
    obtain ⟨entry, -, becomes, hasTurn⟩ := handles.exists_entry isWanted
    have oldMember : old ∈ state.session.requestedTiles := by
      rw [split]
      exact List.mem_append_right _ List.mem_cons_self
    exact handles.headers_of_kept (hasTurn.mpr turn) becomes (listed old oldMember) unrequested unheld
      invalid needs isFirst
  · intro mergeable
    refine ⟨handles.requested_iff.mpr mergeable.places, ?_⟩
    intro old oldMember
    obtain ⟨front, behind, split⟩ := List.append_of_mem oldMember
    exact handles.kept_of_headers split (mergeable.headers front old behind split)

/-- A presentation whose client has just gone from the first slide to the second, which is
cached, while a tile of the first one is still in the list. -/
def slideTile (part : Nat) : TileDesc where
  normalizedViewId := 0
  part := part
  mode := 0
  width := 256
  height := 256
  tilePosX := 0
  tilePosY := 0
  tileWidth := 3840
  tileHeight := 3840
  ver := 0
  imgSize := 0
  id := -1
  broadcast := false
  oldWireId := 0
  wireId := 1
  valid := ⟨by decide, Int.natCast_nonneg part, by decide⟩

def slideRequest : TileCombineRequest where
  header := (slideTile 1).header
  tiles := [slideTile 1]
  uniform := by simp
  unique := by decide

def slideSession : TileSession where
  id := 1
  canonicalViewId := 0
  isCloseFrame := false
  tracker := ⟨.empty⟩
  requestedTiles := [slideTile 0]
  tilesOnFly := []
  oldWireIds := fun _ => none
  isVisible := fun _ => true
  senderQueue := .empty

def slideState : RequestState where
  tileVersion := 1
  tileCache := ((TileCache.initial false).saveTileAndNotify (slideTile 1) [90, 7] fun _ => false).2
  session := slideSession
  distinct := by decide
  numbered := by
    intro rendering member
    cases member

theorem not_neverLost_slideState : ¬ slideState.NeverLost slideRequest true 0 200 := by
  intro never
  have unsent : ∀ sent ∈ (handleTileCombinedRequest slideState.work slideRequest.toTileCombined true
      200 0).sent, sent.cacheKey ≠ (slideTile 1).cacheKey := by decide
  have unrendered : (handleTileCombinedRequest slideState.work slideRequest.toTileCombined true
      200 0).tileCache.rendering? (slideTile 1).cacheKey = none := by decide
  have unlisted : ∀ listed ∈ (handleTileCombinedRequest slideState.work slideRequest.toTileCombined
      true 200 0).session.requestedTiles, listed.cacheKey ≠ (slideTile 1).cacheKey := by decide
  obtain ⟨sent, isSent, sameKey⟩ | ⟨rendering, found, -⟩ | ⟨listed, isListed, sameKey⟩ :=
    never.requested 0 (slideTile 1) rfl
  · exact unsent sent isSent sameKey
  · rw [unrendered] at found
    cases found
  · exact unlisted listed isListed sameKey

end RequestState

end FreeOnline.Wsd
