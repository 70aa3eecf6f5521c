import FreeOnline.Wsd.RequestConservation

/-!
# Asking for keyframes

The kit may answer a request that names an old wire id with a delta, which is of no use
where the cache has nothing to add it to.
-/

set_option autoImplicit false

namespace FreeOnline.Wsd

open FreeOnline.Kit (TileWireId)
open FreeOnline.Library

/-- There is nothing in the cache that a delta could be added to. An invalidated tile still
has its keyframe; strictly, that is not a valid one. -/
def lacksKeyframe (strict : Bool) : Option TileData → Bool
  | none => true
  | some tile => strict && !tile.valid

/-- Whatever the kit is asked for that lacks its keyframe, it is asked for a keyframe. -/
def KeyframesAsked (strict : Bool) (tileCache : TileCache) (after : TileWork) : Prop :=
  ∀ kitRequest ∈ after.toKit, ∀ tile ∈ kitRequest.tiles,
    lacksKeyframe strict (tileCache.lookupTile tile) = true → tile.oldWireId = 0

theorem not_lacksKeyframe_of_isValid {strict : Bool} {tileCache : TileCache} {tile : TileDesc}
    (valid : tileCache.isValid tile = true) :
    lacksKeyframe strict (tileCache.lookupTile tile) = false := by
  unfold TileCache.isValid at valid
  cases found : tileCache.lookupTile tile with
  | none => simp [found] at valid
  | some cachedTile =>
      rw [found, Option.any_some] at valid
      simp [lacksKeyframe, valid]

/-!
## Single tiles
-/

/-- The message to the kit has the old wire id of the client, keyframe or not. -/
theorem toKit_handleTileRequest (work : TileWork) (sessions : List BrokerSession) (tile : TileDesc)
    (forceKeyframe : Bool) (now : Nat) :
    let asked := (tile.setNormalizedViewId work.session.canonicalViewId).setVersion
      (work.tileVersion + 1)
    (handleTileRequest work sessions tile forceKeyframe now).toKit =
      if work.tileCache.isValid asked then work.toKit else work.toKit ++ [.tile asked] := by
  intro asked
  have isAsked : (tile.setNormalizedViewId work.session.canonicalViewId).setVersion
      (work.tileVersion + 1) = asked := rfl
  clear_value asked
  unfold handleTileRequest
  rw [isAsked]
  cases found : (work.tileCache.lookupTile asked).filter TileData.valid with
  | some cachedTile =>
      rw [if_pos (SendLoop.isValid_eq_true found)]
      cases forceKeyframe with
      | true => simp [found, TileWork.sendTile]
      | false => simp [found, TileWork.sendTile]
  | none =>
      rw [SendLoop.isValid_eq_false found, if_neg Bool.false_ne_true]
      cases forceKeyframe with
      | true =>
          simp only [found, ↓reduceIte]
          congr 1
          rw [apply_ite TileWork.toKit]
          exact ite_self _
      | false =>
          simp only [found, Bool.false_eq_true, ↓reduceIte]
          congr 1
          rw [apply_ite TileWork.toKit]
          exact ite_self _

namespace RequestState

variable (state : RequestState)

theorem keyframesAsked_handleTileRequest (strict : Bool) (sessions : List BrokerSession)
    (tile : TileDesc) (forceKeyframe : Bool) (now : Nat) :
    KeyframesAsked strict state.tileCache
        (handleTileRequest state.work sessions tile forceKeyframe now) ↔
      (lacksKeyframe strict (state.tileCache.lookupTile
        (tile.setNormalizedViewId state.session.canonicalViewId)) = true → tile.oldWireId = 0) := by
  generalize isShown : tile.setNormalizedViewId state.session.canonicalViewId = shown
  have sameWireId : shown.oldWireId = tile.oldWireId := by rw [← isShown]; rfl
  have toKit : (handleTileRequest state.work sessions tile forceKeyframe now).toKit =
      if state.tileCache.isValid shown then [] else [.tile (shown.setVersion (state.tileVersion + 1))] := by
    rw [← isShown]
    exact toKit_handleTileRequest state.work sessions tile forceKeyframe now
  unfold KeyframesAsked
  rw [toKit, ← sameWireId]
  cases valid : state.tileCache.isValid shown with
  | true => simp [not_lacksKeyframe_of_isValid valid]
  | false =>
      rw [if_neg Bool.false_ne_true]
      constructor
      · intro asked
        have forwarded := asked (.tile (shown.setVersion (state.tileVersion + 1)))
          (List.mem_singleton_self _) (shown.setVersion (state.tileVersion + 1))
          (List.mem_singleton_self _)
        exact forwarded
      · intro asked kitRequest inKit other member
        cases List.mem_singleton.mp inKit
        cases List.mem_singleton.mp member
        exact asked

/-!
## Combined requests
-/

variable (request : TileCombineRequest) (forceKeyframe : Bool) (now : Nat)

/-- The old wire id of a requested tile as it is forwarded or listed. -/
def requestedWireId (tile : TileDesc) : TileWireId :=
  if forceKeyframe || (state.tileCache.lookupTile tile).isNone then 0 else tile.oldWireId

/-- The old wire id with which the kit is asked for a tile when its turn comes. -/
def askedWireId (tile : TileDesc) : TileWireId :=
  if (state.tileCache.lookupTile tile).isNone then 0
  else
    match request.tiles.find? fun newTile => tile.place = newTile.place with
    | some newTile => state.requestedWireId forceKeyframe newTile
    | none => tile.oldWireId

/-- A tile that is cached, and of which the client has an older version: the newer request says so if
it meets this one, unless it forces a keyframe or is not cached itself. -/
def wantsChanges (tile : TileDesc) : Bool :=
  (state.tileCache.lookupTile tile).isSome &&
    match request.tiles.find? fun newTile => tile.place = newTile.place with
    | some newTile =>
        !forceKeyframe && (state.tileCache.lookupTile newTile).isSome && newTile.oldWireId != 0
    | none => tile.oldWireId != 0

/-- When the cache has the keyframes to which changes are asked for. -/
structure KeyframeSafe (strict : Bool) (tilesOnFlyUpperLimit : Nat) : Prop where
  /-- No changes are requested to an invalidated tile, where it counts as one without keyframe. -/
  requested : strict = true → forceKeyframe = false → ∀ tile ∈ request.tiles, ∀ cachedTile,
    state.tileCache.lookupTile tile = some cachedTile → cachedTile.valid = false → tile.oldWireId = 0
  /-- A tile that has its turn is also cached under the view, part, mode and sizes of the first. -/
  wanted : ∀ front tile behind, state.wantedTiles request = front ++ tile :: behind →
    state.TurnComes request forceKeyframe now tilesOnFlyUpperLimit front →
      state.asksFor request now tile = true →
        state.wantsChanges request forceKeyframe tile = true →
          ∀ first, state.firstAsked request now = some first →
            lacksKeyframe strict
              (state.tileCache.lookupTile (TileCombined.compose first tile)) = false

variable {state request forceKeyframe now}

theorem askedWireId_of_mem {tile newTile : TileDesc} (member : newTile ∈ request.tiles)
    (same : tile.place = newTile.place) :
    state.askedWireId request forceKeyframe tile =
      if (state.tileCache.lookupTile tile).isNone then 0
      else state.requestedWireId forceKeyframe newTile := by
  have found : (request.tiles.find? fun newTile => tile.place = newTile.place) = some newTile := by
    cases isFound : request.tiles.find? fun newTile => tile.place = newTile.place with
    | none => exact absurd (decide_eq_true same) (List.find?_eq_none.mp isFound newTile member)
    | some other =>
        have isOther : tile.place = other.place := by simpa using List.find?_some isFound
        rw [List.inj_on_of_nodup_map nodup_place_request (List.mem_of_find?_eq_some isFound) member
          (isOther.symm.trans same)]
  unfold askedWireId
  rw [found]

theorem askedWireId_of_not_mem {tile : TileDesc}
    (absent : tile.place ∉ request.tiles.map TileDesc.place) :
    state.askedWireId request forceKeyframe tile =
      if (state.tileCache.lookupTile tile).isNone then 0 else tile.oldWireId := by
  have notFound : (request.tiles.find? fun newTile => tile.place = newTile.place) = none := by
    refine List.find?_eq_none.mpr fun newTile member same => absent ?_
    rw [of_decide_eq_true same]
    exact List.mem_map_of_mem member
  unfold askedWireId
  rw [notFound]

theorem askedWireId_eq_zero_iff {tile : TileDesc} :
    state.askedWireId request forceKeyframe tile = 0 ↔
      state.wantsChanges request forceKeyframe tile = false := by
  unfold askedWireId wantsChanges
  cases state.tileCache.lookupTile tile with
  | none => simp
  | some _ =>
      cases request.tiles.find? fun newTile => tile.place = newTile.place with
      | none => simp
      | some newTile =>
          simp only [requestedWireId, Option.isNone_some, Bool.false_eq_true, if_false,
            Option.isSome_some, Bool.true_and]
          cases forceKeyframe with
          | true => simp
          | false =>
              cases state.tileCache.lookupTile newTile with
              | none => simp
              | some _ => simp

theorem requestedWireId_eq_zero_iff {strict : Bool} :
    (∀ tile ∈ request.tiles, lacksKeyframe strict (state.tileCache.lookupTile tile) = true →
        state.requestedWireId forceKeyframe tile = 0) ↔
      (strict = true → forceKeyframe = false → ∀ tile ∈ request.tiles, ∀ cachedTile,
        state.tileCache.lookupTile tile = some cachedTile → cachedTile.valid = false →
          tile.oldWireId = 0) := by
  constructor
  · intro requested isStrict unforced tile member cachedTile found invalid
    have asked := requested tile member (by simp [found, lacksKeyframe, isStrict, invalid])
    simpa [requestedWireId, unforced, found] using asked
  · intro requested tile member lacks
    unfold requestedWireId
    cases found : state.tileCache.lookupTile tile with
    | none => simp
    | some cachedTile =>
        cases forced : forceKeyframe with
        | true => simp
        | false =>
            rw [found, lacksKeyframe, Bool.and_eq_true, Bool.not_eq_true'] at lacks
            simpa using requested lacks.1 forced tile member cachedTile found lacks.2

theorem Becomes.oldWireId {tile entry : TileDesc}
    (becomes : Becomes state request forceKeyframe tile entry) :
    (if (state.tileCache.lookupTile entry).isNone then 0 else entry.oldWireId) =
      state.askedWireId request forceKeyframe tile := by
  rw [TileCache.lookupTile_congr rfl rfl becomes.key]
  cases becomes with
  | listed =>
      by_cases meets : tile.place ∈ request.tiles.map TileDesc.place
      · obtain ⟨new, member, same⟩ := List.mem_map.mp meets
        obtain ⟨index, found⟩ := List.mem_iff_getElem?.mp member
        rw [askedWireId_of_mem member same.symm, renew_of_mem nodup_place_newTiles
          (mem_newTiles.mpr ⟨index, new, found, rfl⟩) same.symm]
        rfl
      · have absent : tile.place ∉ (state.newTiles request forceKeyframe).map TileDesc.place := by
          rw [map_newTiles TileDesc.place fun _ _ => rfl]
          exact meets
        rw [askedWireId_of_not_mem meets, renew_of_not_mem absent]
  | requested found =>
      rw [askedWireId_of_mem (List.mem_of_getElem? found) rfl]
      rfl

theorem cacheKey_compose_congr {first other tile same : TileDesc}
    (header : first.header = other.header) (key : tile.cacheKey = same.cacheKey) :
    (TileCombined.compose first tile).cacheKey = (TileCombined.compose other same).cacheKey := by
  simp only [TileDesc.header, TileHeader.mk.injEq] at header
  simp only [TileDesc.cacheKey, TileKey.mk.injEq] at key
  simp [TileCombined.compose, TileDesc.cacheKey, header, key]

theorem forall_tilecombineFor {tiles : List TileDesc} {asked : TileDesc → Prop} :
    (∀ kitRequest ∈ tilecombineFor tiles, ∀ tile ∈ kitRequest.tiles, asked tile) ↔
      ∀ first, tiles.head? = some first → ∀ tile ∈ tiles, asked (TileCombined.compose first tile) := by
  cases tiles with
  | nil => simp [tilecombineFor]
  | cons first rest => simp [tilecombineFor, KitRequest.tiles, TileCombined.create]

/-- The requested tiles are forwarded under their own keys. -/
theorem keyframesAsked_newTiles {strict : Bool} :
    (∀ kitRequest ∈ tilecombineFor ((state.newTiles request forceKeyframe).filter fun tile =>
        !state.tileCache.isValid tile), ∀ tile ∈ kitRequest.tiles,
      lacksKeyframe strict (state.tileCache.lookupTile tile) = true → tile.oldWireId = 0) ↔
    ∀ tile ∈ request.tiles, lacksKeyframe strict (state.tileCache.lookupTile tile) = true →
      state.requestedWireId forceKeyframe tile = 0 := by
  have own {first new : TileDesc} (isFirst : ((state.newTiles request forceKeyframe).filter
      fun tile => !state.tileCache.isValid tile).head? = some first)
      (isNew : new ∈ (state.newTiles request forceKeyframe).filter
        fun tile => !state.tileCache.isValid tile) :
      state.tileCache.lookupTile (TileCombined.compose first new) =
        state.tileCache.lookupTile new :=
    TileCache.lookupTile_congr rfl rfl (cacheKey_compose
      ((header_newTile (List.mem_of_mem_filter (List.mem_of_head? isFirst))).trans
        (header_newTile (List.mem_of_mem_filter isNew)).symm))
  rw [forall_tilecombineFor]
  constructor
  · intro asked tile member lacks
    have invalid : state.tileCache.isValid tile = false := by
      refine Bool.eq_false_iff.mpr fun valid => ?_
      rw [not_lacksKeyframe_of_isValid valid] at lacks
      cases lacks
    obtain ⟨index, isNew⟩ := @exists_newTile state request forceKeyframe tile member invalid
    have isFirst := List.head?_eq_some_head (List.ne_nil_of_mem isNew)
    exact asked _ isFirst _ isNew ((own isFirst isNew).symm ▸ lacks)
  · intro requested first isFirst new isNew lacks
    rw [own isFirst isNew] at lacks
    obtain ⟨index, tile, found, rfl⟩ := mem_newTiles.mp (List.mem_of_mem_filter isNew)
    exact requested tile (List.mem_of_getElem? found) lacks

namespace Handles

variable {tilesOnFlyUpperLimit : Nat} {visited rest : List TileDesc} {last : SendLoop}
  {after : TileWork}
  (handles : Handles state request forceKeyframe tilesOnFlyUpperLimit now visited rest last after)

include handles

theorem asked_eq : last.tilesNeedsRendering.map (fun tile => (tile.cacheKey, tile.oldWireId)) =
    (visited.filter ((state.sendLoop request forceKeyframe now).asks now)).map fun entry =>
      (entry.cacheKey,
        if (state.tileCache.lookupTile entry).isNone then 0 else entry.oldWireId) := by
  refine handles.visits.asked.trans (List.map_congr_left fun entry _ => ?_)
  unfold SendLoop.request
  rw [lookupTile_sendLoop]

theorem wanted_of_asked {asked : TileDesc} (member : asked ∈ last.tilesNeedsRendering) :
    ∃ front tile behind, state.wantedTiles request = front ++ tile :: behind ∧
      state.TurnComes request forceKeyframe now tilesOnFlyUpperLimit front ∧
      state.asksFor request now tile = true ∧ asked.cacheKey = tile.cacheKey ∧
      asked.oldWireId = state.askedWireId request forceKeyframe tile := by
  have inMap := List.mem_map_of_mem (f := fun tile => (tile.cacheKey, tile.oldWireId)) member
  rw [handles.asked_eq] at inMap
  obtain ⟨entry, isAsked, same⟩ := List.mem_map.mp inMap
  obtain ⟨isVisited, asks⟩ := List.mem_filter.mp isAsked
  obtain ⟨front, tile, behind, isWanted, becomes, turn⟩ := handles.exists_wanted isVisited
  obtain ⟨sameKey, sameWireId⟩ := Prod.mk.inj same
  exact ⟨front, tile, behind, isWanted, turn, becomes.asks.symm.trans asks,
    sameKey.symm.trans becomes.key, sameWireId.symm.trans becomes.oldWireId⟩

theorem asked_of_wanted {front behind : List TileDesc} {tile : TileDesc}
    (isWanted : state.wantedTiles request = front ++ tile :: behind)
    (turn : state.TurnComes request forceKeyframe now tilesOnFlyUpperLimit front)
    (asks : state.asksFor request now tile = true) :
    ∃ asked ∈ last.tilesNeedsRendering, asked.cacheKey = tile.cacheKey ∧
      asked.oldWireId = state.askedWireId request forceKeyframe tile := by
  obtain ⟨entry, -, becomes, hasTurn⟩ := handles.exists_entry isWanted
  have isAsked := List.mem_filter.mpr ⟨hasTurn.mpr turn, becomes.asks.trans asks⟩
  have inMap := List.mem_map_of_mem (f := fun entry : TileDesc => (entry.cacheKey,
    if (state.tileCache.lookupTile entry).isNone then 0 else entry.oldWireId)) isAsked
  rw [← handles.asked_eq] at inMap
  obtain ⟨asked, member, same⟩ := List.mem_map.mp inMap
  obtain ⟨sameKey, sameWireId⟩ := Prod.mk.inj same
  exact ⟨asked, member, sameKey.trans becomes.key, sameWireId.trans becomes.oldWireId⟩

theorem keyframesAsked_iff_parts {strict : Bool} :
    KeyframesAsked strict state.tileCache after ↔
      (∀ tile ∈ request.tiles, lacksKeyframe strict (state.tileCache.lookupTile tile) = true →
        state.requestedWireId forceKeyframe tile = 0) ∧
      ∀ first, last.tilesNeedsRendering.head? = some first → ∀ asked ∈ last.tilesNeedsRendering,
        lacksKeyframe strict (state.tileCache.lookupTile (TileCombined.compose first asked)) = true →
          asked.oldWireId = 0 := by
  unfold KeyframesAsked
  rw [handles.toKit, List.forall_mem_append, keyframesAsked_newTiles, forall_tilecombineFor]
  rfl

theorem keyframesAsked_of_safe {strict : Bool}
    (safe : state.KeyframeSafe request forceKeyframe now strict tilesOnFlyUpperLimit) :
    KeyframesAsked strict state.tileCache after := by
  refine handles.keyframesAsked_iff_parts.mpr ⟨requestedWireId_eq_zero_iff.mpr safe.requested, ?_⟩
  intro first isFirst asked member lacks
  obtain ⟨front, tile, behind, isWanted, turn, asks, sameKey, sameWireId⟩ :=
    handles.wanted_of_asked member
  obtain ⟨foretold, isForetold, sameHeader⟩ := handles.header_first isFirst
  rw [TileCache.lookupTile_congr rfl rfl (cacheKey_compose_congr sameHeader.symm sameKey)] at lacks
  rw [sameWireId, askedWireId_eq_zero_iff]
  refine Bool.eq_false_iff.mpr fun wants => ?_
  rw [safe.wanted front tile behind isWanted turn asks wants foretold isForetold] at lacks
  cases lacks

theorem safe_of_keyframesAsked {strict : Bool} (asked : KeyframesAsked strict state.tileCache after) :
    state.KeyframeSafe request forceKeyframe now strict tilesOnFlyUpperLimit := by
  obtain ⟨requested, forwarded⟩ := handles.keyframesAsked_iff_parts.mp asked
  refine ⟨requestedWireId_eq_zero_iff.mp requested, ?_⟩
  intro front tile behind isWanted turn asks wants foretold isForetold
  obtain ⟨asked, member, sameKey, sameWireId⟩ := handles.asked_of_wanted isWanted turn asks
  have isFirst := List.head?_eq_some_head (List.ne_nil_of_mem member)
  obtain ⟨other, isOther, sameHeader⟩ := handles.header_first isFirst
  rw [isForetold, Option.some.injEq] at isOther
  rw [← isOther] at sameHeader
  refine Bool.eq_false_iff.mpr fun lacks => ?_
  rw [TileCache.lookupTile_congr rfl rfl (cacheKey_compose_congr sameHeader sameKey.symm)] at lacks
  have noChanges := forwarded _ isFirst asked member lacks
  rw [sameWireId, askedWireId_eq_zero_iff, wants] at noChanges
  cases noChanges

end Handles

theorem keyframesAsked_handleTileCombinedRequest (strict : Bool) (tilesOnFlyUpperLimit : Nat) :
    KeyframesAsked strict state.tileCache
        (handleTileCombinedRequest state.work request.toTileCombined forceKeyframe
          tilesOnFlyUpperLimit now) ↔
      state.KeyframeSafe request forceKeyframe now strict tilesOnFlyUpperLimit := by
  obtain ⟨visited, rest, last, handles⟩ :=
    @exists_handles state request forceKeyframe now tilesOnFlyUpperLimit
  exact ⟨handles.safe_of_keyframesAsked, handles.keyframesAsked_of_safe⟩

/-!
## All requests
-/

/-- What makes wsd ask the kit for tiles: requests of a client or, without `forceKeyframe`,
of wsd itself, and acknowledgements, after which more of the list is sent. -/
inductive ClientRequest where
  | tile (tile : TileDesc) (forceKeyframe : Bool)
  | tilecombine (request : TileCombineRequest) (forceKeyframe : Bool)
  | tileprocessed (tileID : TileId)

variable (state)

/-- The acknowledged tile is not on the fly any more. -/
def processed (tileID : TileId) : RequestState :=
  { state with
    session := { state.session with
      tilesOnFly := state.session.tilesOnFly.eraseP fun tile => tile.1 = tileID } }

def handle (sessions : List BrokerSession) (tilesOnFlyUpperLimit now : Nat) :
    ClientRequest → TileWork
  | .tile tile forceKeyframe => handleTileRequest state.work sessions tile forceKeyframe now
  | .tilecombine request forceKeyframe =>
      handleTileCombinedRequest state.work request.toTileCombined forceKeyframe
        tilesOnFlyUpperLimit now
  | .tileprocessed tileID =>
      sendRequestedTiles (state.processed tileID).work tilesOnFlyUpperLimit now

def noTiles : TileCombineRequest where
  header := ⟨0, 0, 0, 0, 0, 0, 0⟩
  tiles := []
  uniform := by simp
  unique := by decide

/-- A single tile that lacks its keyframe is asked for without an old wire id by the client
itself. -/
def AsksSafely (strict : Bool) (tilesOnFlyUpperLimit now : Nat) : ClientRequest → Prop
  | .tile tile _ =>
      lacksKeyframe strict (state.tileCache.lookupTile
        (tile.setNormalizedViewId state.session.canonicalViewId)) = true → tile.oldWireId = 0
  | .tilecombine request forceKeyframe =>
      state.KeyframeSafe request forceKeyframe now strict tilesOnFlyUpperLimit
  | .tileprocessed tileID =>
      (state.processed tileID).KeyframeSafe noTiles false now strict tilesOnFlyUpperLimit

variable {state}

/-- Sending more of the list is like a request for no new tiles. -/
theorem sendRequestedTiles_eq (tilesOnFlyUpperLimit now : Nat) :
    sendRequestedTiles state.work tilesOnFlyUpperLimit now =
      handleTileCombinedRequest state.work noTiles.toTileCombined false tilesOnFlyUpperLimit now := by
  have unchanged (tiles : List TileDesc) : accumulateTiles tiles [] = tiles := by
    unfold accumulateTiles
    split
    · next empty => exact empty.symm
    · rfl
  simp [handleTileCombinedRequest, noTiles, unchanged, tilecombineFor]

theorem keyframesAsked_iff (strict : Bool) (sessions : List BrokerSession)
    (tilesOnFlyUpperLimit now : Nat) (request : ClientRequest) :
    KeyframesAsked strict state.tileCache
        (state.handle sessions tilesOnFlyUpperLimit now request) ↔
      state.AsksSafely strict tilesOnFlyUpperLimit now request := by
  cases request with
  | tile tile forceKeyframe =>
      exact state.keyframesAsked_handleTileRequest strict sessions tile forceKeyframe now
  | tilecombine request forceKeyframe =>
      exact keyframesAsked_handleTileCombinedRequest strict tilesOnFlyUpperLimit
  | tileprocessed tileID =>
      rw [handle, sendRequestedTiles_eq]
      exact keyframesAsked_handleTileCombinedRequest strict tilesOnFlyUpperLimit

/-- A client asks for the changes since wire id 5 of a tile that is not cached. -/
theorem not_keyframesAsked_slideTile :
    ¬ KeyframesAsked false slideState.tileCache
      (slideState.handle [] 200 0 (.tile ((slideTile 0).setOldWireId 5) true)) := by
  intro keyframes
  let asked := ((slideTile 0).setOldWireId 5).setVersion 2
  have forwarded : (slideState.handle [] 200 0 (.tile ((slideTile 0).setOldWireId 5) true)).toKit =
      [.tile asked] := rfl
  have isAsked : (.tile asked : KitRequest) ∈
      (slideState.handle [] 200 0 (.tile ((slideTile 0).setOldWireId 5) true)).toKit := by
    rw [forwarded]
    exact List.mem_singleton_self _
  have keyframe := keyframes (.tile asked) isAsked asked (List.mem_singleton_self _) (by decide)
  exact absurd keyframe (by decide)

end RequestState

end FreeOnline.Wsd
