import Mathlib.Data.List.Induction
import FreeOnline.Wsd.SendRequestedTiles

/-!
# Combined requests and the list of requested tiles

A combined request subscribes to what is not cached, meets the list of requested tiles by
position and view only, and lets the loop over the list do the rest.
-/

set_option autoImplicit false

namespace FreeOnline.Wsd

open FreeOnline.Kit (TileWireId)
open FreeOnline.Library

/-!
## Meeting the list
-/

/-- An old tile after the new ones have come. -/
def renew (tiles : List TileDesc) (oldTile : TileDesc) : TileDesc :=
  match tiles.find? fun newTile => oldTile.place = newTile.place with
  | some newTile => oldTile.renewedBy newTile
  | none => oldTile

/-- The new tile is not at the place of an old one. -/
def isFresh (requestedTiles : List TileDesc) (newTile : TileDesc) : Bool :=
  decide (newTile.place ∉ requestedTiles.map TileDesc.place)

@[simp] theorem place_renewedBy (oldTile newTile : TileDesc) :
    (oldTile.renewedBy newTile).place = oldTile.place := rfl

@[simp] theorem cacheKey_renewedBy (oldTile newTile : TileDesc) :
    (oldTile.renewedBy newTile).cacheKey = oldTile.cacheKey := rfl

@[simp] theorem cacheKey_renew (tiles : List TileDesc) (oldTile : TileDesc) :
    (renew tiles oldTile).cacheKey = oldTile.cacheKey := by
  unfold renew
  split
  · rfl
  · rfl

@[simp] theorem place_renew (tiles : List TileDesc) (oldTile : TileDesc) :
    (renew tiles oldTile).place = oldTile.place := by
  unfold renew
  split
  · rfl
  · rfl

theorem renew_of_not_mem {tiles : List TileDesc} {oldTile : TileDesc}
    (absent : oldTile.place ∉ tiles.map TileDesc.place) : renew tiles oldTile = oldTile := by
  have notFound : (tiles.find? fun newTile => oldTile.place = newTile.place) = none := by
    refine List.find?_eq_none.mpr fun newTile member => ?_
    intro same
    apply absent
    rw [of_decide_eq_true same]
    exact List.mem_map_of_mem member
  unfold renew
  rw [notFound]

theorem renew_of_mem {tiles : List TileDesc} {oldTile newTile : TileDesc}
    (distinct : (tiles.map TileDesc.place).Nodup) (member : newTile ∈ tiles)
    (same : oldTile.place = newTile.place) : renew tiles oldTile = oldTile.renewedBy newTile := by
  unfold renew
  cases found : tiles.find? fun newTile => oldTile.place = newTile.place with
  | none => exact absurd (decide_eq_true same) (List.find?_eq_none.mp found newTile member)
  | some other =>
      have isOther : oldTile.place = other.place := by simpa using List.find?_some found
      have isNew : other = newTile := List.inj_on_of_nodup_map distinct
        (List.mem_of_find?_eq_some found) member (isOther.symm.trans same)
      rw [isNew]

theorem renew_cons {newTile : TileDesc} {tiles : List TileDesc}
    (fresh : newTile.place ∉ tiles.map TileDesc.place) (oldTile : TileDesc) :
    renew (newTile :: tiles) oldTile =
      renew tiles (if oldTile.place = newTile.place then oldTile.renewedBy newTile else oldTile) := by
  by_cases same : oldTile.place = newTile.place
  · have renewed : renew (newTile :: tiles) oldTile = oldTile.renewedBy newTile := by
      simp [renew, same]
    have absent : (oldTile.renewedBy newTile).place ∉ tiles.map TileDesc.place := by
      rw [place_renewedBy, same]
      exact fresh
    rw [if_pos same, renewed, renew_of_not_mem absent]
  · rw [if_neg same]
    simp [renew, same]

/-- A new tile changes the old one at its place, or comes last. -/
theorem accumulateTile_eq {requestedTiles : List TileDesc} {newTile : TileDesc}
    (distinct : (requestedTiles.map TileDesc.place).Nodup) :
    accumulateTile requestedTiles newTile =
      (requestedTiles.map fun oldTile =>
        if oldTile.place = newTile.place then oldTile.renewedBy newTile else oldTile) ++
        if isFresh requestedTiles newTile then [newTile] else [] := by
  induction requestedTiles with
  | nil => simp [accumulateTile, isFresh]
  | cons oldTile rest ih =>
      obtain ⟨notInRest, distinctRest⟩ := List.nodup_cons.mp distinct
      unfold accumulateTile
      by_cases same : oldTile.place = newTile.place
      · have untouched : (rest.map fun oldTile =>
            if oldTile.place = newTile.place then oldTile.renewedBy newTile else oldTile) = rest := by
          refine (List.map_congr_left fun other member => ?_).trans (List.map_id rest)
          have different : other.place ≠ newTile.place := by
            intro isSame
            apply notInRest
            rw [same, ← isSame]
            exact List.mem_map_of_mem member
          rw [if_neg different]
          rfl
        simp [same, untouched, isFresh]
      · rw [if_neg same, ih distinctRest]
        have sameFresh : isFresh (oldTile :: rest) newTile = isFresh rest newTile := by
          simp [isFresh, Ne.symm same]
        simp [same, sameFresh]

theorem map_place_accumulateTile {requestedTiles : List TileDesc} {newTile : TileDesc}
    (distinct : (requestedTiles.map TileDesc.place).Nodup) :
    (accumulateTile requestedTiles newTile).map TileDesc.place =
      requestedTiles.map TileDesc.place ++
        if isFresh requestedTiles newTile then [newTile.place] else [] := by
  have unmoved : (TileDesc.place ∘ fun oldTile =>
      if oldTile.place = newTile.place then oldTile.renewedBy newTile else oldTile) =
      TileDesc.place := by
    funext oldTile
    rw [Function.comp_apply]
    split
    · rfl
    · rfl
  rw [accumulateTile_eq distinct, List.map_append, List.map_map, unmoved]
  split
  · rfl
  · rfl

theorem foldl_accumulateTile {requestedTiles tiles : List TileDesc}
    (distinctOld : (requestedTiles.map TileDesc.place).Nodup)
    (distinct : (tiles.map TileDesc.place).Nodup) :
    tiles.foldl accumulateTile requestedTiles =
      requestedTiles.map (renew tiles) ++ tiles.filter (isFresh requestedTiles) := by
  induction tiles generalizing requestedTiles with
  | nil =>
      have unchanged : renew [] = id := rfl
      simp [unchanged]
  | cons newTile tiles ih =>
      obtain ⟨notLater, distinctLater⟩ := List.nodup_cons.mp distinct
      have places := @map_place_accumulateTile requestedTiles newTile distinctOld
      have distinctNext : ((accumulateTile requestedTiles newTile).map TileDesc.place).Nodup := by
        rw [places]
        split
        · next fresh =>
            have absent : newTile.place ∉ requestedTiles.map TileDesc.place := by
              simpa [isFresh] using fresh
            refine List.nodup_append.mpr ⟨distinctOld, List.nodup_singleton _, ?_⟩
            intro place member other isNew same
            rw [List.mem_singleton.mp isNew] at same
            exact absent (same ▸ member)
        · simpa using distinctOld
      have sameFresh : tiles.filter (isFresh (accumulateTile requestedTiles newTile)) =
          tiles.filter (isFresh requestedTiles) := by
        refine List.filter_congr fun other member => ?_
        have different : other.place ≠ newTile.place := by
          intro same
          apply notLater
          rw [← same]
          exact List.mem_map_of_mem member
        unfold isFresh
        rw [places]
        split
        · simp [different]
        · simp
      rw [List.foldl_cons, ih distinctNext distinctLater, sameFresh, accumulateTile_eq distinctOld,
        List.map_append, List.map_map]
      have renewed : renew tiles ∘ (fun oldTile =>
          if oldTile.place = newTile.place then oldTile.renewedBy newTile else oldTile) =
          renew (newTile :: tiles) := by
        funext oldTile
        exact (renew_cons notLater oldTile).symm
      rw [renewed, List.append_assoc, List.filter_cons]
      split
      · rw [List.map_singleton, renew_of_not_mem notLater, List.singleton_append]
      · rw [List.map_nil, List.nil_append]

theorem accumulateTiles_eq {requestedTiles tiles : List TileDesc}
    (distinctOld : (requestedTiles.map TileDesc.place).Nodup)
    (distinct : (tiles.map TileDesc.place).Nodup) :
    accumulateTiles requestedTiles tiles =
      requestedTiles.map (renew tiles) ++ tiles.filter (isFresh requestedTiles) := by
  unfold accumulateTiles
  split
  · next empty =>
      have allFresh : tiles.filter (isFresh []) = tiles :=
        List.filter_eq_self.mpr fun newTile _ => by simp [isFresh]
      rw [empty, List.map_nil, List.nil_append, allFresh]
  · exact foldl_accumulateTile distinctOld distinct

theorem nodup_accumulateTiles {requestedTiles tiles : List TileDesc}
    (distinctOld : (requestedTiles.map TileDesc.place).Nodup)
    (distinct : (tiles.map TileDesc.place).Nodup) :
    ((accumulateTiles requestedTiles tiles).map TileDesc.place).Nodup := by
  have unmoved : TileDesc.place ∘ renew tiles = TileDesc.place := by
    funext oldTile
    exact place_renew tiles oldTile
  rw [accumulateTiles_eq distinctOld distinct, List.map_append, List.map_map, unmoved]
  refine List.nodup_append.mpr ⟨distinctOld, (List.filter_sublist.map _).nodup distinct, ?_⟩
  intro place member other isNew same
  obtain ⟨newTile, inNew, rfl⟩ := List.mem_map.mp isNew
  have absent : newTile.place ∉ requestedTiles.map TileDesc.place := by
    simpa [isFresh] using (List.mem_filter.mp inNew).2
  exact absent (same ▸ member)

/-!
## Looking at the new tiles
-/

namespace TileCache

variable {tileCache : TileCache}

/-- Subscribing to the tile makes the session wait for one more that is not overdue. -/
def startsWaiting (tileCache : TileCache) (key : TileKey) (session : SessionId) (now : Nat) : Bool :=
  match tileCache.rendering? key with
  | none => true
  | some rendering => !isStale rendering now && !rendering.subscribers.contains session

theorem countTilesBeingRendered_eq_sum (session : SessionId) (now : Nat) :
    tileCache.countTilesBeingRenderedForSession session now =
      tileCache.tilesBeingRendered.sum fun rendering =>
        if isStale rendering now then 0 else rendering.subscribers.count session := by
  unfold countTilesBeingRenderedForSession Keyed.sum
  induction tileCache.tilesBeingRendered.entries with
  | nil => rfl
  | cons rendering entries ih =>
      rw [List.map_cons, List.sum_cons, List.filter_cons, ← ih]
      cases isStale rendering now with
      | true => simp
      | false => simp

theorem countTilesBeingRendered_subscribe (tile : TileDesc) (session : SessionId) (now : Nat) :
    (tileCache.subscribeToTileRendering tile session now).countTilesBeingRenderedForSession session
        now =
      tileCache.countTilesBeingRenderedForSession session now +
        if tileCache.startsWaiting tile.cacheKey session now then 1 else 0 := by
  rw [countTilesBeingRendered_eq_sum, countTilesBeingRendered_eq_sum, startsWaiting, rendering?]
  unfold subscribeToTileRendering findTileBeingRendered
  cases found : tileCache.tilesBeingRendered.find? tile.cacheKey with
  | none =>
      have missing : tileCache.tilesBeingRendered.find?
          (TileBeingRendered.key ⟨tile, now, [session]⟩) = none := found
      dsimp only
      rw [Keyed.sum_insert_new missing]
      simp [isStale]
  | some old =>
      obtain ⟨member, isKey⟩ := Keyed.find?_some found
      dsimp only
      refine Nat.add_right_cancel
        ((Keyed.sum_update _ member fun other different => ?_).trans ?_)
      · rw [isKey] at different
        exact if_pos different
      · rw [if_neg (not_not.mpr isKey)]
        have sameStale (changed : List SessionId) :
            isStale { old with subscribers := changed } now = isStale old now := rfl
        rcases Bool.eq_false_or_eq_true (old.subscribers.contains session) with waits | alone
        · simp only [waits, if_true, Bool.not_true, Bool.and_false, Bool.false_eq_true, if_false,
            Nat.add_zero]
          rfl
        · simp only [alone, Bool.false_eq_true, if_false, Bool.not_false, Bool.and_true, sameStale,
            List.count_append, List.count_singleton_self]
          cases isStale old now with
          | true => rfl
          | false =>
              simp only [Bool.false_eq_true, if_false, Bool.not_false, if_true]
              omega

end TileCache

namespace RequestLoop

variable (work : TileWork) (forceKeyframe : Bool) (now : Nat)

/-- The session waits for one more tile after it was requested. -/
def addsToRendered (tile : TileDesc) : Bool :=
  !work.tileCache.isValid tile &&
    work.tileCache.startsWaiting tile.cacheKey work.session.id now

/-- A tile of the request with its version, and as a request for a keyframe if there must
be one. -/
def requested (index : Nat) (tile : TileDesc) : TileDesc :=
  (tile.setVersion (work.tileVersion + index + 1)).setOldWireId
    (if forceKeyframe || (work.tileCache.lookupTile tile).isNone then 0 else tile.oldWireId)

/-- The loop has looked at the first tiles of a request. -/
structure Seen (seen : List TileDesc) (loop : RequestLoop) : Prop where
  id : loop.work.session.id = work.session.id
  requestedTiles : loop.work.session.requestedTiles = work.session.requestedTiles
  tilesOnFly : loop.work.session.tilesOnFly = work.session.tilesOnFly
  traces : ∀ desc, loop.work.session.traces desc = work.session.traces desc
  lastSent : ∀ key, loop.work.session.tracker.lastSent key =
    if forceKeyframe = true ∧ key ∈ seen.map TileDesc.cacheKey then 0
    else work.session.tracker.lastSent key
  beingRendered :
    loop.work.tileCache.countTilesBeingRenderedForSession work.session.id now =
      work.tileCache.countTilesBeingRenderedForSession work.session.id now +
        seen.countP (addsToRendered work now)
  cache : loop.work.tileCache.cache = work.tileCache.cache
  dontCache : loop.work.tileCache.dontCache = work.tileCache.dontCache
  toKit : loop.work.toKit = work.toKit
  sent : loop.work.sent = work.sent
  tileVersion : loop.work.tileVersion = work.tileVersion + seen.length
  tiles : loop.tiles = seen.mapIdx (requested work forceKeyframe)
  tilesNeedsRendering :
    loop.tilesNeedsRendering = loop.tiles.filter fun tile => !work.tileCache.isValid tile
  subscribed : ∀ tile ∈ loop.tiles, work.tileCache.isValid tile = false →
    loop.work.tileCache.rendering? tile.cacheKey =
      some (TileCache.subscribed tile work.session.id now
        (work.tileCache.rendering? tile.cacheKey))
  others : ∀ key, (∀ tile ∈ loop.tiles, work.tileCache.isValid tile = false →
      tile.cacheKey ≠ key) →
    loop.work.tileCache.rendering? key = work.tileCache.rendering? key

variable {work forceKeyframe now}

theorem Seen.start : Seen work forceKeyframe now [] ⟨work, [], []⟩ := by
  constructor <;> simp

theorem request_eq {loop : RequestLoop} {seen : List TileDesc}
    (before : Seen work forceKeyframe now seen loop) (tile : TileDesc) :
    loop.request forceKeyframe now tile =
      let session := if forceKeyframe then
          loop.work.session.resetTileSeq (tile.setVersion (loop.work.tileVersion + 1))
        else loop.work.session
      let next := { loop.work with
        tileVersion := loop.work.tileVersion + 1
        session := session }
      let newTile := requested work forceKeyframe seen.length tile
      if work.tileCache.isValid newTile then
        { loop with work := next, tiles := loop.tiles ++ [newTile] }
      else
        { work := next.subscribeToTileRendering newTile now
          tiles := loop.tiles ++ [newTile]
          tilesNeedsRendering := loop.tilesNeedsRendering ++ [newTile] } := by
  have sameLookup : loop.work.tileCache.lookupTile tile = work.tileCache.lookupTile tile :=
    TileCache.lookupTile_congr before.cache before.dontCache rfl
  have version : (loop.work.tileVersion : Int) + 1 = work.tileVersion + seen.length + 1 := by
    rw [before.tileVersion, Int.natCast_add]
  have again (desc : TileDesc) : (desc.setOldWireId 0).setOldWireId 0 = desc.setOldWireId 0 := rfl
  have kept (ver : Int) : (tile.setVersion ver).setOldWireId tile.oldWireId = tile.setVersion ver :=
    rfl
  cases forceKeyframe with
  | true =>
      simp [request, requested, TileCache.isValid, sameLookup, version, TileDesc.forceKeyframe, again]
  | false =>
      cases found : work.tileCache.lookupTile tile with
      | none =>
          simp [request, requested, TileCache.isValid, sameLookup, version, TileDesc.forceKeyframe,
            found]
      | some cached =>
          simp [request, requested, TileCache.isValid, sameLookup, version, found, kept]

/-- What does not depend on the version and the old wire id is that of the request. -/
theorem map_requested {View : Type} (view : TileDesc → View)
    (same : ∀ index tile, view (requested work forceKeyframe index tile) = view tile)
    (tiles : List TileDesc) :
    (tiles.mapIdx (requested work forceKeyframe)).map view = tiles.map view := by
  apply List.ext_getElem?
  intro index
  rw [List.getElem?_map, List.getElem?_map, List.getElem?_mapIdx, Option.map_map]
  exact congrArg (Option.map · tiles[index]?) (funext (same index))

section Step

variable {loop : RequestLoop} {seen : List TileDesc}
  (before : Seen work forceKeyframe now seen loop)

include before

theorem Seen.tiles_append (tile : TileDesc) :
    loop.tiles ++ [requested work forceKeyframe seen.length tile] =
      (seen ++ [tile]).mapIdx (requested work forceKeyframe) := by
  rw [List.mapIdx_concat, ← before.tiles]

theorem Seen.tileVersion_append (tile : TileDesc) :
    loop.work.tileVersion + 1 = work.tileVersion + (seen ++ [tile]).length := by
  rw [before.tileVersion, List.length_append, List.length_singleton, Nat.add_assoc]

theorem Seen.cacheKey_ne {tile old : TileDesc} (fresh : tile.cacheKey ∉ seen.map TileDesc.cacheKey)
    (member : old ∈ loop.tiles) : old.cacheKey ≠ tile.cacheKey := by
  intro same
  apply fresh
  rw [← map_requested TileDesc.cacheKey (fun _ _ => rfl) seen, ← before.tiles, ← same]
  exact List.mem_map_of_mem member

variable {tile : TileDesc} {session : TileSession} (id : session.id = work.session.id)
  (requestedTiles : session.requestedTiles = work.session.requestedTiles)
  (tilesOnFly : session.tilesOnFly = work.session.tilesOnFly)
  (traces : ∀ desc, session.traces desc = work.session.traces desc)
  (lastSent : ∀ key, session.tracker.lastSent key =
    if forceKeyframe = true ∧ key ∈ (seen ++ [tile]).map TileDesc.cacheKey then 0
    else work.session.tracker.lastSent key)

include id requestedTiles tilesOnFly traces lastSent

/-- A tile that is validly cached is only listed. -/
theorem Seen.serve (valid : work.tileCache.isValid
      (requested work forceKeyframe seen.length tile) = true) :
    Seen work forceKeyframe now (seen ++ [tile])
      { loop with
        work := { loop.work with
          tileVersion := loop.work.tileVersion + 1
          session := session }
        tiles := loop.tiles ++ [requested work forceKeyframe seen.length tile] } := by
  have unwaited : addsToRendered work now tile = false := by
    have sameValid : work.tileCache.isValid tile = true := valid
    rw [addsToRendered, sameValid, Bool.not_true, Bool.false_and]
  refine ⟨id, requestedTiles, tilesOnFly, traces, lastSent, ?_, before.cache, before.dontCache,
    before.toKit, before.sent, before.tileVersion_append tile, before.tiles_append tile, ?_, ?_, ?_⟩
  · rw [List.countP_append, List.countP_singleton, unwaited, if_neg Bool.false_ne_true]
    exact before.beingRendered
  · simpa [valid] using before.tilesNeedsRendering
  · intro other member invalid
    rcases List.mem_append.mp member with old | isTile
    · exact before.subscribed other old invalid
    · rw [List.mem_singleton.mp isTile, valid] at invalid
      cases invalid
  · intro key different
    exact before.others key fun other member => different other (List.mem_append_left _ member)

/-- The session waits for any other tile, and no earlier tile of the request is the same. -/
theorem Seen.subscribe (fresh : tile.cacheKey ∉ seen.map TileDesc.cacheKey)
    (invalid : work.tileCache.isValid
      (requested work forceKeyframe seen.length tile) = false) :
    Seen work forceKeyframe now (seen ++ [tile])
      { work := TileWork.subscribeToTileRendering
          { loop.work with
            tileVersion := loop.work.tileVersion + 1
            session := session }
          (requested work forceKeyframe seen.length tile) now
        tiles := loop.tiles ++ [requested work forceKeyframe seen.length tile]
        tilesNeedsRendering :=
          loop.tilesNeedsRendering ++ [requested work forceKeyframe seen.length tile] } := by
  have tiles := before.tiles_append tile
  have newKey : (requested work forceKeyframe seen.length tile).cacheKey = tile.cacheKey := rfl
  have sameValid : work.tileCache.isValid tile = false := invalid
  generalize requested work forceKeyframe seen.length tile = newTile at newKey tiles invalid ⊢
  have unchanged : loop.work.tileCache.rendering? newTile.cacheKey =
      work.tileCache.rendering? newTile.cacheKey :=
    before.others newTile.cacheKey fun old member _ => newKey ▸ before.cacheKey_ne fresh member
  unfold TileWork.subscribeToTileRendering
  dsimp only
  rw [id]
  obtain ⟨sameCache, sameDontCache⟩ :=
    loop.work.tileCache.cache_subscribeToTileRendering newTile work.session.id now
  have renderings (key : TileKey) : (loop.work.tileCache.subscribeToTileRendering newTile
      work.session.id now).rendering? key =
        if key = newTile.cacheKey then some (TileCache.subscribed newTile work.session.id now
          (work.tileCache.rendering? newTile.cacheKey))
        else loop.work.tileCache.rendering? key := by
    rw [TileCache.rendering?_subscribeToTileRendering, unchanged]
  refine ⟨id, requestedTiles, tilesOnFly, traces, lastSent, ?_, sameCache.trans before.cache,
    sameDontCache.trans before.dontCache, before.toKit, before.sent,
    before.tileVersion_append tile, tiles, ?_, ?_, ?_⟩
  · have sameWaits : loop.work.tileCache.startsWaiting newTile.cacheKey work.session.id now =
        work.tileCache.startsWaiting tile.cacheKey work.session.id now := by
      rw [TileCache.startsWaiting, TileCache.startsWaiting, unchanged, newKey]
    dsimp only
    rw [TileCache.countTilesBeingRendered_subscribe, sameWaits, before.beingRendered,
      List.countP_append, List.countP_singleton, addsToRendered, sameValid, Bool.not_false,
      Bool.true_and, Nat.add_assoc]
  · simpa [invalid] using before.tilesNeedsRendering
  · intro other member otherInvalid
    refine (renderings other.cacheKey).trans ?_
    rcases List.mem_append.mp member with old | isTile
    · rw [if_neg (newKey ▸ before.cacheKey_ne fresh old)]
      exact before.subscribed other old otherInvalid
    · rw [List.mem_singleton.mp isTile, if_pos rfl]
  · intro key different
    refine (renderings key).trans ?_
    have isOther : key ≠ newTile.cacheKey := fun same =>
      different newTile (List.mem_append_right _ (List.mem_singleton_self newTile)) invalid
        same.symm
    rw [if_neg isOther]
    exact before.others key fun other member => different other (List.mem_append_left _ member)

omit id requestedTiles tilesOnFly traces lastSent

theorem Seen.request (fresh : tile.cacheKey ∉ seen.map TileDesc.cacheKey) :
    Seen work forceKeyframe now (seen ++ [tile]) (loop.request forceKeyframe now tile) := by
  rw [request_eq before]
  dsimp only
  generalize isSession : (if forceKeyframe = true then
    loop.work.session.resetTileSeq (tile.setVersion (loop.work.tileVersion + 1))
    else loop.work.session) = session
  have sameSession : session.id = work.session.id ∧
      session.requestedTiles = work.session.requestedTiles ∧
      session.tilesOnFly = work.session.tilesOnFly ∧
      (∀ desc, session.traces desc = work.session.traces desc) ∧
      session.tracker = if forceKeyframe then loop.work.session.tracker.resetTileSeq
        (tile.setVersion (loop.work.tileVersion + 1)) else loop.work.session.tracker := by
    rw [← isSession]
    split
    · exact ⟨before.id, before.requestedTiles, before.tilesOnFly, before.traces, rfl⟩
    · exact ⟨before.id, before.requestedTiles, before.tilesOnFly, before.traces, rfl⟩
  obtain ⟨id, requestedTiles, tilesOnFly, traces, tracker⟩ := sameSession
  have lastSent (key : TileKey) : session.tracker.lastSent key =
      if forceKeyframe = true ∧ key ∈ (seen ++ [tile]).map TileDesc.cacheKey then 0
      else work.session.tracker.lastSent key := by
    have earlier := before.lastSent key
    simp only [tracker, List.map_append, List.map_singleton, List.mem_append, List.mem_singleton]
    cases forceKeyframe with
    | false =>
        rw [if_neg (by simp)] at earlier
        rw [if_neg Bool.false_ne_true, if_neg (by simp)]
        exact earlier
    | true =>
        rw [if_pos rfl]
        by_cases isTile : key = tile.cacheKey
        · rw [if_pos ⟨rfl, .inr isTile⟩, isTile]
          exact ClientDeltaTracker.lastSent_resetTileSeq _ _
        · have isOther : (tile.setVersion (loop.work.tileVersion + 1)).cacheKey ≠ key :=
            fun same => isTile same.symm
          rw [ClientDeltaTracker.resetTileSeq,
            ClientDeltaTracker.lastSent_setSeq_other _ isOther, earlier]
          simp only [true_and, isTile, or_false]
  split
  · next valid => exact before.serve id requestedTiles tilesOnFly traces lastSent valid
  · next invalid =>
      exact before.subscribe id requestedTiles tilesOnFly traces lastSent fresh
        (Bool.eq_false_iff.mpr invalid)

end Step

theorem seen_request {tiles : List TileDesc} (distinct : (tiles.map TileDesc.cacheKey).Nodup) :
    Seen work forceKeyframe now tiles
      (tiles.foldl (RequestLoop.request forceKeyframe now) ⟨work, [], []⟩) := by
  induction tiles using List.reverseRecOn with
  | nil => exact Seen.start
  | append_singleton tiles tile ih =>
      rw [List.map_append, List.map_singleton, List.nodup_append] at distinct
      obtain ⟨distinctBefore, -, fresh⟩ := distinct
      rw [List.foldl_append, List.foldl_cons, List.foldl_nil]
      refine (ih distinctBefore).request fun member => ?_
      exact fresh _ member _ (List.mem_singleton_self _) rfl

end RequestLoop

end FreeOnline.Wsd
