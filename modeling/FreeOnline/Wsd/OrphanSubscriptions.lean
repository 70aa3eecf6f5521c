import FreeOnline.Wsd.KeyframeRequests

/-!
# Subscriptions that nobody asked for

A new subscription is answered when the kit has rendered its tile, so the tile has to be
requested under its own key.
-/

set_option autoImplicit false

namespace FreeOnline.Wsd

open FreeOnline.Library

namespace TileWork

def Requests (work : TileWork) (key : TileKey) : Prop :=
  ∃ kitRequest ∈ work.toKit, ∃ tile ∈ kitRequest.tiles, tile.cacheKey = key

end TileWork

/-- The kit is asked for every tile that was not being rendered before. -/
def NoOrphans (tileCache : TileCache) (after : TileWork) : Prop :=
  ∀ key, tileCache.rendering? key = none → after.tileCache.rendering? key ≠ none →
    after.Requests key

instance (work : TileWork) (key : TileKey) : Decidable (work.Requests key) :=
  inferInstanceAs (Decidable (∃ _ ∈ _, ∃ _ ∈ _, _))

theorem TileCache.rendering?_subscribe_ne_none {tileCache : TileCache} {tile : TileDesc}
    {session : SessionId} {now : Nat} {key : TileKey} :
    (tileCache.subscribeToTileRendering tile session now).rendering? key ≠ none ↔
      tile.cacheKey = key ∨ tileCache.rendering? key ≠ none := by
  rw [rendering?_subscribeToTileRendering]
  split
  · next same => simp [same]
  · next other => simp [Ne.symm other]

/-!
## Single tiles
-/

/-- `handleTileRequest` subscribes the session, or all sessions to the tile in their views. -/
theorem tileCache_handleTileRequest (work : TileWork) (sessions : List BrokerSession)
    (tile : TileDesc) (forceKeyframe : Bool) (now : Nat) {asked : TileDesc}
    (isAsked : (tile.setNormalizedViewId work.session.canonicalViewId).setVersion
      (work.tileVersion + 1) = asked) :
    (handleTileRequest work sessions tile forceKeyframe now).tileCache =
      if work.tileCache.isValid asked then work.tileCache
      else
        let asked :=
          if (work.tileCache.lookupTile asked).isNone then asked.forceKeyframe else asked
        if tile.broadcast then
          sessions.foldl (fun tileCache session =>
            if session.inWaitDisconnected then tileCache
            else tileCache.subscribeToTileRendering
              (asked.setNormalizedViewId session.canonicalViewId) session.id now) work.tileCache
        else work.tileCache.subscribeToTileRendering asked work.session.id now := by
  have broadcast : asked.broadcast = tile.broadcast := by rw [← isAsked]; rfl
  have forced : (if (work.tileCache.lookupTile asked).isNone then asked.forceKeyframe
      else asked).broadcast = tile.broadcast := by
    split
    · exact broadcast
    · exact broadcast
  unfold handleTileRequest
  rw [isAsked]
  cases found : (work.tileCache.lookupTile asked).filter TileData.valid with
  | some cachedTile =>
      rw [if_pos (SendLoop.isValid_eq_true found)]
      cases forceKeyframe with
      | true => simp [found, TileWork.sendTile]
      | false => simp [found, TileWork.sendTile]
  | none =>
      rw [SendLoop.isValid_eq_false found, if_neg Bool.false_ne_true]
      cases forceKeyframe with
      | true =>
          simp only [found, ↓reduceIte, forced, apply_ite TileWork.tileCache]
          rfl
      | false =>
          simp only [found, Bool.false_eq_true, ↓reduceIte, forced, apply_ite TileWork.tileCache]
          rfl

theorem rendering?_broadcast_ne_none {now : Nat} {asked : TileDesc} {sessions : List BrokerSession}
    {tileCache : TileCache} {key : TileKey} :
    (sessions.foldl (fun tileCache session =>
        if session.inWaitDisconnected then tileCache
        else tileCache.subscribeToTileRendering
          (asked.setNormalizedViewId session.canonicalViewId) session.id now)
        tileCache).rendering? key ≠ none ↔
      tileCache.rendering? key ≠ none ∨ ∃ session ∈ sessions, session.inWaitDisconnected = false ∧
        (asked.setNormalizedViewId session.canonicalViewId).cacheKey = key := by
  induction sessions generalizing tileCache with
  | nil => simp
  | cons session sessions ih =>
      rw [List.foldl_cons, ih]
      cases leaves : session.inWaitDisconnected with
      | true => simp [leaves]
      | false =>
          rw [if_neg Bool.false_ne_true, TileCache.rendering?_subscribe_ne_none]
          simp only [List.mem_cons, exists_eq_or_imp, leaves, true_and]
          tauto

namespace RequestState

variable (state : RequestState)

/-- A tile in the view of another session. -/
def shownTo (tile : TileDesc) (canonicalViewId : Nat) : TileKey :=
  (tile.setNormalizedViewId canonicalViewId).cacheKey

/-- A preview for all sessions that is not cached: those who do not share the view of the
session that asks for it wait for a rendering that is in progress already. -/
def SharesView (sessions : List BrokerSession) (tile : TileDesc) : Prop :=
  tile.broadcast = true →
    state.tileCache.isValid (tile.setNormalizedViewId state.session.canonicalViewId) = false →
      ∀ session ∈ sessions, session.inWaitDisconnected = false →
        state.tileCache.rendering? (shownTo tile session.canonicalViewId) = none →
          session.canonicalViewId = state.session.canonicalViewId

theorem shownTo_inj {tile : TileDesc} {canonicalViewId other : Nat} :
    shownTo tile canonicalViewId = shownTo tile other ↔ canonicalViewId = other := by
  simp [shownTo, TileDesc.cacheKey, TileDesc.setNormalizedViewId]

theorem noOrphans_handleTileRequest (sessions : List BrokerSession) (tile : TileDesc)
    (forceKeyframe : Bool) (now : Nat) :
    NoOrphans state.tileCache (handleTileRequest state.work sessions tile forceKeyframe now) ↔
      state.SharesView sessions tile := by
  generalize isAsked : (tile.setNormalizedViewId state.session.canonicalViewId).setVersion
    (state.tileVersion + 1) = asked
  have sameValid : state.tileCache.isValid (tile.setNormalizedViewId state.session.canonicalViewId) =
      state.tileCache.isValid asked := by rw [← isAsked]; rfl
  have own : asked.cacheKey = shownTo tile state.session.canonicalViewId := by rw [← isAsked]; rfl
  have toKit : (handleTileRequest state.work sessions tile forceKeyframe now).toKit =
      if state.tileCache.isValid asked then [] else [.tile asked] := by
    rw [← isAsked]
    exact toKit_handleTileRequest state.work sessions tile forceKeyframe now
  have tileCache := tileCache_handleTileRequest state.work sessions tile forceKeyframe now isAsked
  have isCache : state.work.tileCache = state.tileCache := rfl
  rw [isCache] at tileCache
  unfold NoOrphans SharesView TileWork.Requests
  rw [toKit, tileCache, sameValid]
  cases valid : state.tileCache.isValid asked with
  | true =>
      rw [if_pos rfl]
      refine iff_of_true ?_ (by simp)
      intro key before after
      exact absurd before after
  | false =>
      rw [if_neg Bool.false_ne_true, if_neg Bool.false_ne_true]
      generalize isForced : (if (state.tileCache.lookupTile asked).isNone then asked.forceKeyframe
        else asked) = forced
      have viewed (canonicalViewId : Nat) :
          (forced.setNormalizedViewId canonicalViewId).cacheKey = shownTo tile canonicalViewId := by
        rw [← isForced, ← isAsked]
        split
        · rfl
        · rfl
      have forcedKey : forced.cacheKey = asked.cacheKey := by
        rw [← isForced]
        split
        · rfl
        · rfl
      cases tile.broadcast with
      | false =>
          refine iff_of_true ?_ (by simp)
          intro key before after
          rw [if_neg Bool.false_ne_true, TileCache.rendering?_subscribe_ne_none] at after
          have isKey := after.resolve_right fun already => already before
          exact ⟨.tile asked, List.mem_singleton_self _, asked, List.mem_singleton_self _,
            forcedKey.symm.trans isKey⟩
      | true =>
          simp only [↓reduceIte, rendering?_broadcast_ne_none, viewed, List.mem_singleton,
            exists_eq_left, KitRequest.tiles, own]
          constructor
          · intro asks _ _ session member stays before
            exact (shownTo_inj.mp (asks _ before (.inr ⟨session, member, stays, rfl⟩))).symm
          · rintro shares key before (already | ⟨session, member, stays, rfl⟩)
            · exact absurd before already
            · exact shownTo_inj.mpr (shares trivial trivial session member stays before).symm

/-!
## Combined requests
-/

variable (request : TileCombineRequest) (forceKeyframe : Bool) (now : Nat)

/-- The listed tiles that no one waits for yet can be combined, if their turn comes, with the first
one that the kit will be asked for. -/
def SharesHeader (tilesOnFlyUpperLimit : Nat) : Prop :=
  ∀ front old behind, state.session.requestedTiles = front ++ old :: behind →
    state.TurnComes request forceKeyframe now tilesOnFlyUpperLimit front →
      old.cacheKey ∉ request.tiles.map TileDesc.cacheKey → state.holdsBack now old = false →
        state.tileCache.isValid old = false → state.tileCache.rendering? old.cacheKey = none →
          ∀ first, state.firstAsked request now = some first → first.header = old.header

variable {state request forceKeyframe now}

/-- The kit is asked for all the requested tiles that are not cached. -/
theorem requested_newTile {tile : TileDesc} (member : tile ∈ request.tiles)
    (invalid : state.tileCache.isValid tile = false) :
    ∃ kitRequest ∈ tilecombineFor ((state.newTiles request forceKeyframe).filter fun tile =>
        !state.tileCache.isValid tile), ∃ asked ∈ kitRequest.tiles,
      asked.cacheKey = tile.cacheKey := by
  obtain ⟨index, isNew⟩ := exists_newTile member invalid
  have isFirst := List.head?_eq_some_head (List.ne_nil_of_mem isNew)
  exact mem_tilecombineFor.mpr ⟨_, isFirst, _, isNew,
    cacheKey_compose ((header_newTile (List.mem_of_mem_filter (List.mem_of_head? isFirst))).trans
      (header_newTile (List.mem_of_mem_filter isNew)).symm)⟩

/-- A tile that is none of the requested ones is in the first part of the wanted ones. -/
theorem listed_of_wanted {front behind : List TileDesc} {tile : TileDesc}
    (isWanted : state.wantedTiles request = front ++ tile :: behind)
    (unrequested : tile.cacheKey ∉ request.tiles.map TileDesc.cacheKey) :
    ∃ more, state.session.requestedTiles = front ++ tile :: more := by
  have notNew : tile ∉ request.tiles.filter (isFresh state.session.requestedTiles) :=
    fun isNew => unrequested (List.mem_map_of_mem (List.mem_of_mem_filter isNew))
  rcases List.append_eq_append_iff.mp isWanted with ⟨more, -, isLater⟩ | ⟨more, isListed, isLater⟩
  · rw [isLater] at notNew
    exact absurd (List.mem_append_right _ List.mem_cons_self) notNew
  · cases more with
    | nil =>
        rw [List.nil_append] at isLater
        rw [← isLater] at notNew
        exact absurd List.mem_cons_self notNew
    | cons head more =>
        rw [List.cons_append, List.cons.injEq] at isLater
        rw [← isLater.1] at isListed
        exact ⟨more, isListed⟩

namespace Handles

variable {tilesOnFlyUpperLimit : Nat} {visited rest : List TileDesc} {last : SendLoop}
  {after : TileWork}
  (handles : Handles state request forceKeyframe tilesOnFlyUpperLimit now visited rest last after)

include handles

/-- Where a new subscription comes from. -/
theorem exists_subscribed {key : TileKey} (before : state.tileCache.rendering? key = none)
    (subscribed : after.tileCache.rendering? key ≠ none) :
    (∃ tile ∈ request.tiles, state.tileCache.isValid tile = false ∧ tile.cacheKey = key) ∨
      ∃ entry ∈ visited, state.holdsBack now entry = false ∧
        state.tileCache.isValid entry = false ∧ entry.cacheKey = key := by
  by_contra none
  rw [not_or] at none
  apply subscribed
  rw [handles.rendering?_eq, handles.visits.others key, rendering_other, before]
  · intro tile member invalid isKey
    exact none.1 ⟨tile, member, invalid, isKey⟩
  · intro entry isVisited awaits isKey
    rw [awaits_sendLoop, Bool.and_eq_true, Bool.not_eq_true', Bool.not_eq_true'] at awaits
    exact none.2 ⟨entry, isVisited, awaits.1, awaits.2, isKey⟩

theorem requests_iff {key : TileKey} : after.Requests key ↔
    (∃ kitRequest ∈ tilecombineFor ((state.newTiles request forceKeyframe).filter fun tile =>
        !state.tileCache.isValid tile), ∃ tile ∈ kitRequest.tiles, tile.cacheKey = key) ∨
      ∃ kitRequest ∈ tilecombineFor last.tilesNeedsRendering, ∃ tile ∈ kitRequest.tiles,
        tile.cacheKey = key := by
  unfold TileWork.Requests
  rw [handles.toKit]
  simp only [List.mem_append, or_and_right, exists_or]

theorem noOrphans_of_header
    (shares : state.SharesHeader request forceKeyframe now tilesOnFlyUpperLimit) :
    NoOrphans state.tileCache after := by
  intro key before subscribed
  by_cases isRequested : ∃ tile ∈ request.tiles,
      state.tileCache.isValid tile = false ∧ tile.cacheKey = key
  · obtain ⟨tile, member, invalid, rfl⟩ := isRequested
    exact handles.requests_iff.mpr (.inl (requested_newTile member invalid))
  · obtain ⟨entry, isVisited, unheld, invalid, rfl⟩ :=
      (handles.exists_subscribed before subscribed).resolve_left isRequested
    obtain ⟨front, tile, behind, isWanted, becomes, turn⟩ := handles.exists_wanted isVisited
    have sameKey := becomes.key
    rw [holdsBack_congr sameKey] at unheld
    rw [TileCache.isValid_congr rfl rfl sameKey] at invalid
    rw [sameKey] at before isRequested
    have unrequested : tile.cacheKey ∉ request.tiles.map TileDesc.cacheKey := by
      intro isNew
      obtain ⟨new, member, isKey⟩ := List.mem_map.mp isNew
      exact isRequested ⟨new, member, (TileCache.isValid_congr rfl rfl isKey).trans invalid, isKey⟩
    have asks : state.asksFor request now tile = true := by
      simp [asksFor, unheld, invalid, unrequested, TileCache.needsRendering_eq, before]
    refine handles.requests_iff.mpr (.inr (handles.asked_of_header isVisited
      (becomes.asks.trans asks) ?_))
    intro first isFirst
    rw [header_eq_of_cacheKey sameKey]
    obtain ⟨more, isListed⟩ := listed_of_wanted isWanted unrequested
    exact shares front tile more isListed turn unrequested unheld invalid before first isFirst

theorem header_of_noOrphans (noOrphans : NoOrphans state.tileCache after) :
    state.SharesHeader request forceKeyframe now tilesOnFlyUpperLimit := by
  intro front old behind isListed turn unrequested unheld invalid before first isFirst
  have isWanted : state.wantedTiles request = front ++ old :: (behind ++
      request.tiles.filter (isFresh state.session.requestedTiles)) := by
    rw [wantedTiles, isListed, List.append_assoc, List.cons_append]
  obtain ⟨entry, -, becomes, hasTurn⟩ := handles.exists_entry isWanted
  have sameKey := becomes.key
  have awaits : (state.sendLoop request forceKeyframe now).awaits entry = true := by
    rw [awaits_sendLoop, holdsBack_congr sameKey, TileCache.isValid_congr rfl rfl sameKey, unheld,
      invalid]
    rfl
  obtain ⟨rendering, found, -⟩ := handles.visits.subscribed entry (hasTurn.mpr turn) awaits
  have subscribed : after.tileCache.rendering? old.cacheKey ≠ none := by
    rw [handles.rendering?_eq, ← sameKey, found]
    exact Option.some_ne_none _
  rcases handles.requests_iff.mp (noOrphans old.cacheKey before subscribed) with isNew | isLast
  · exact absurd (requested_of_mem_newTiles isNew) unrequested
  · exact handles.header_of_asked isFirst isLast

end Handles

theorem noOrphans_handleTileCombinedRequest (tilesOnFlyUpperLimit : Nat) :
    NoOrphans state.tileCache
        (handleTileCombinedRequest state.work request.toTileCombined forceKeyframe
          tilesOnFlyUpperLimit now) ↔
      state.SharesHeader request forceKeyframe now tilesOnFlyUpperLimit := by
  obtain ⟨visited, rest, last, handles⟩ :=
    @exists_handles state request forceKeyframe now tilesOnFlyUpperLimit
  exact ⟨handles.header_of_noOrphans, handles.noOrphans_of_header⟩

/-!
## All requests
-/

variable (state)

/-- What is subscribed to and what is requested have the same key. -/
def AsksForSubscribed (sessions : List BrokerSession) (tilesOnFlyUpperLimit now : Nat) :
    ClientRequest → Prop
  | .tile tile _ => state.SharesView sessions tile
  | .tilecombine request forceKeyframe =>
      state.SharesHeader request forceKeyframe now tilesOnFlyUpperLimit
  | .tileprocessed tileID =>
      (state.processed tileID).SharesHeader noTiles false now tilesOnFlyUpperLimit

/-- No request leaves a subscription behind that nobody asked for if and only if previews for all go
to sessions of one view and the listed tiles that have their turn can be combined. -/
theorem noOrphans_iff (sessions : List BrokerSession) (tilesOnFlyUpperLimit now : Nat)
    (request : ClientRequest) :
    NoOrphans state.tileCache (state.handle sessions tilesOnFlyUpperLimit now request) ↔
      state.AsksForSubscribed sessions tilesOnFlyUpperLimit now request := by
  cases request with
  | tile tile forceKeyframe =>
      exact state.noOrphans_handleTileRequest sessions tile forceKeyframe now
  | tilecombine request forceKeyframe =>
      exact noOrphans_handleTileCombinedRequest tilesOnFlyUpperLimit
  | tileprocessed tileID =>
      rw [handle, sendRequestedTiles_eq]
      exact @noOrphans_handleTileCombinedRequest (state.processed tileID) noTiles false now
        tilesOnFlyUpperLimit

/-- A preview for a session in another view than that of the session that asks for it. -/
theorem not_noOrphans_preview :
    ¬ NoOrphans slideState.tileCache (slideState.handle [⟨1, 0, false⟩, ⟨2, 1, false⟩] 200 0
      (.tile { slideTile 0 with id := 0, broadcast := true } false)) := by
  intro noOrphans
  let key := shownTo (slideTile 0) 1
  have subscribed : (slideState.handle [⟨1, 0, false⟩, ⟨2, 1, false⟩] 200 0
      (.tile { slideTile 0 with id := 0, broadcast := true } false)).tileCache.rendering? key ≠
        none := by decide
  exact absurd (noOrphans key (by decide) subscribed) (by decide)

end RequestState

end FreeOnline.Wsd
