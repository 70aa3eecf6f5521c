import FreeOnline.Library.Run
import FreeOnline.Wsd.TileCache

/-!
# Subscriptions to tiles

A session that asks for a tile waits among the subscribers of the tile being rendered,
which has one version for all of them. What the sessions have asked for is kept beside
the cache, to say what they may expect.
-/

set_option autoImplicit false

namespace FreeOnline.Wsd

open FreeOnline.Library

/-!
## The operations
-/

namespace TileCache

variable {tileCache : TileCache} {tile desc : TileDesc} {session : SessionId} {now : Nat}
  {rendering : TileBeingRendered}

theorem findTileBeingRendered_iff :
    tileCache.findTileBeingRendered desc = some rendering ↔
      rendering ∈ tileCache.tilesBeingRendered ∧ rendering.key = desc.cacheKey :=
  Keyed.find?_eq_some_iff

/-- What is being rendered of a tile once the session has subscribed. -/
def subscribed (tile : TileDesc) (session : SessionId) (now : Nat) :
    Option TileBeingRendered → TileBeingRendered
  | none => ⟨tile, now, [session]⟩
  | some old =>
      if session ∈ old.subscribers then { old with tile := old.tile.setVersion tile.ver }
      else { old with subscribers := old.subscribers ++ [session] }

theorem mem_subscribeToTileRendering :
    rendering ∈ (tileCache.subscribeToTileRendering tile session now).tilesBeingRendered ↔
      rendering ∈ tileCache.tilesBeingRendered ∧ rendering.key ≠ tile.cacheKey ∨
        rendering = subscribed tile session now (tileCache.findTileBeingRendered tile) := by
  unfold subscribeToTileRendering
  cases found : tileCache.findTileBeingRendered tile with
  | none =>
      have missing : tileCache.tilesBeingRendered.find?
          (TileBeingRendered.key ⟨tile, now, [session]⟩) = none := found
      have others : rendering ∈ tileCache.tilesBeingRendered →
          rendering.key ≠ tile.cacheKey := Keyed.find?_none found
      refine (Keyed.mem_insert_new missing).trans (or_congr ?_ Iff.rfl)
      exact (and_iff_left_of_imp others).symm
  | some old =>
      obtain ⟨oldMember, oldKey⟩ := Keyed.find?_some found
      have changed : (if old.key ≠ tile.cacheKey then old
          else if old.subscribers.contains session = true then
            { old with tile := old.tile.setVersion tile.ver }
          else { old with subscribers := old.subscribers ++ [session] }) =
          subscribed tile session now (some old) := by
        simp only [oldKey, ne_eq, not_true_eq_false, ↓reduceIte, subscribed, List.contains_iff_mem]
      simp only [Keyed.mem_update]
      constructor
      · intro isChanged
        obtain ⟨other, otherMember, isChanged⟩ := isChanged
        by_cases same : other.key = tile.cacheKey
        · have isOld : other = old := Keyed.eq_of_key otherMember oldMember (same.trans oldKey.symm)
          right
          rw [← isChanged, ← changed, isOld]
        · left
          rw [if_pos same] at isChanged
          rw [← isChanged]
          exact ⟨otherMember, same⟩
      · intro isNext
        rcases isNext with ⟨member, other⟩ | isNew
        · exact ⟨rendering, member, if_pos other⟩
        · exact ⟨old, oldMember, changed.trans isNew.symm⟩

theorem key_subscribed :
    (subscribed tile session now (tileCache.findTileBeingRendered tile)).key = tile.cacheKey := by
  cases found : tileCache.findTileBeingRendered tile with
  | none => rfl
  | some old =>
      have oldKey : old.key = tile.cacheKey := (Keyed.find?_some found).2
      unfold subscribed
      dsimp only
      split
      · exact oldKey
      · exact oldKey

theorem mem_subscribed {other : SessionId} {found : Option TileBeingRendered} :
    other ∈ (subscribed tile session now found).subscribers ↔
      other = session ∨ ∃ old, found = some old ∧ other ∈ old.subscribers := by
  cases found with
  | none => simp [subscribed]
  | some old =>
      unfold subscribed
      dsimp only
      split
      · next already =>
          simp only [Option.some.injEq, exists_eq_left']
          constructor
          · exact Or.inr
          · intro isSubscriber
            rcases isSubscriber with rfl | isOld
            · exact already
            · exact isOld
      · simp [or_comm]

theorem ver_subscribed (tile : TileDesc) (session : SessionId) (now : Nat)
    (found : Option TileBeingRendered) :
    (subscribed tile session now found).tile.ver = tile.ver ∨
      ∃ old, found = some old ∧ (subscribed tile session now found).tile.ver = old.tile.ver := by
  cases found with
  | none => exact .inl rfl
  | some old =>
      unfold subscribed
      dsimp only
      split
      · exact .inl rfl
      · exact .inr ⟨old, rfl, rfl⟩

theorem nodup_subscribed {found : Option TileBeingRendered}
    (once : ∀ old, found = some old → old.subscribers.Nodup) :
    (subscribed tile session now found).subscribers.Nodup := by
  cases found with
  | none => simp [subscribed]
  | some old =>
      have oldOnce := once old rfl
      unfold subscribed
      dsimp only
      split
      · exact oldOnce
      · next new => exact List.nodup_append.mpr ⟨oldOnce, by simp, by simp; grind⟩

theorem find?_subscribeToTileRendering (tileCache : TileCache) (tile : TileDesc)
    (session : SessionId) (now : Nat) (key : TileKey) :
    (tileCache.subscribeToTileRendering tile session now).tilesBeingRendered.find? key =
      if key = tile.cacheKey then
        some (subscribed tile session now (tileCache.findTileBeingRendered tile))
      else tileCache.tilesBeingRendered.find? key := by
  apply Option.ext
  intro rendering
  rw [Keyed.find?_eq_some_iff, mem_subscribeToTileRendering]
  have newKey : (subscribed tile session now (tileCache.findTileBeingRendered tile)).key =
      tile.cacheKey := key_subscribed
  split
  · next same =>
      rw [Option.some.injEq]
      constructor
      · intro found
        obtain ⟨⟨-, other⟩ | isNew, sameKey⟩ := found
        · exact absurd (sameKey.trans same) other
        · exact isNew.symm
      · intro isNew
        exact ⟨.inr isNew.symm, isNew ▸ newKey.trans same.symm⟩
  · next other =>
      rw [Keyed.find?_eq_some_iff]
      constructor
      · intro found
        obtain ⟨⟨member, -⟩ | isNew, sameKey⟩ := found
        · exact ⟨member, sameKey⟩
        · exact absurd (sameKey.symm.trans (isNew ▸ newKey)) other
      · intro found
        exact ⟨.inl ⟨found.1, fun same => other (found.2.symm.trans same)⟩, found.2⟩

theorem cache_subscribeToTileRendering (tileCache : TileCache) (tile : TileDesc)
    (session : SessionId) (now : Nat) :
    (tileCache.subscribeToTileRendering tile session now).cache = tileCache.cache ∧
      (tileCache.subscribeToTileRendering tile session now).dontCache = tileCache.dontCache := by
  unfold subscribeToTileRendering
  split
  · exact ⟨rfl, rfl⟩
  · exact ⟨rfl, rfl⟩

theorem mem_forgetTileBeingRendered {forgotten : TileBeingRendered} :
    rendering ∈ (tileCache.forgetTileBeingRendered desc forgotten).tilesBeingRendered ↔
      rendering ∈ tileCache.tilesBeingRendered ∧
        (forgotten.tile.ver ≤ desc.ver → rendering.key ≠ forgotten.key) := by
  unfold forgetTileBeingRendered
  split
  · next reached => simp [reached]
  · next reached => simp [reached]

theorem tilesBeingRendered_saveDataToCache (tileCache : TileCache) (desc : TileDesc)
    (data : List UInt8) :
    (tileCache.saveDataToCache desc data).2.tilesBeingRendered = tileCache.tilesBeingRendered := by
  have ensured : tileCache.ensureCacheSize.tilesBeingRendered = tileCache.tilesBeingRendered := by
    unfold ensureCacheSize
    split
    · rfl
    · rfl
  unfold saveDataToCache
  split
  · rfl
  · dsimp only
    split
    · split
      · exact ensured
      · exact ensured
    · exact ensured

/-- After a response, what is being rendered is what was, but for the tile of a response
that is not older. -/
theorem mem_saveTileAndNotify {data : List UInt8} {alive : SessionId → Bool} :
    rendering ∈ (tileCache.saveTileAndNotify desc data alive).2.tilesBeingRendered ↔
      rendering ∈ tileCache.tilesBeingRendered ∧
        (rendering.key = desc.cacheKey → desc.ver < rendering.tile.ver) := by
  have stored := tilesBeingRendered_saveDataToCache tileCache desc data
  unfold saveTileAndNotify
  cases found : tileCache.findTileBeingRendered desc with
  | none =>
      have unchanged : rendering ∈ tileCache.tilesBeingRendered ↔
          rendering ∈ tileCache.tilesBeingRendered ∧
            (rendering.key = desc.cacheKey → desc.ver < rendering.tile.ver) := by
        constructor
        · exact fun member => ⟨member, fun same => absurd same (Keyed.find?_none found member)⟩
        · exact fun kept => kept.1
      by_cases empty : data = []
      · simpa [empty] using unchanged
      · simpa [empty, stored] using unchanged
  | some old =>
      obtain ⟨oldMember, oldKey⟩ := Keyed.find?_some found
      have forgets (saved : TileCache)
          (same : saved.tilesBeingRendered = tileCache.tilesBeingRendered) :
          rendering ∈ (saved.forgetTileBeingRendered desc old).tilesBeingRendered ↔
            rendering ∈ tileCache.tilesBeingRendered ∧
              (rendering.key = desc.cacheKey → desc.ver < rendering.tile.ver) := by
        rw [mem_forgetTileBeingRendered, same, oldKey]
        constructor
        · rintro ⟨member, kept⟩
          refine ⟨member, fun sameKey => ?_⟩
          cases Keyed.eq_of_key member oldMember (sameKey.trans oldKey.symm)
          by_contra reached
          exact kept (Int.not_lt.mp reached) sameKey
        · rintro ⟨member, newer⟩
          refine ⟨member, fun reached sameKey => ?_⟩
          cases Keyed.eq_of_key member oldMember (sameKey.trans oldKey.symm)
          exact absurd (newer sameKey) (Int.not_lt.mpr reached)
      by_cases empty : data = []
      · simpa [empty] using forgets tileCache rfl
      · simpa [empty] using forgets _ stored

def cancelled (session : SessionId) (rendering : TileBeingRendered) : TileBeingRendered :=
  if rendering.tile.id < 0 then
    { rendering with subscribers := rendering.subscribers.erase session }
  else rendering

theorem tile_cancelled (session : SessionId) (rendering : TileBeingRendered) :
    (cancelled session rendering).tile = rendering.tile := by
  unfold cancelled
  split
  · rfl
  · rfl

theorem sublist_cancelled (session : SessionId) (rendering : TileBeingRendered) :
    (cancelled session rendering).subscribers.Sublist rendering.subscribers := by
  unfold cancelled
  split
  · exact List.erase_sublist
  · exact List.Sublist.refl _

theorem mem_cancelTiles :
    rendering ∈ (tileCache.cancelTiles session).2.tilesBeingRendered ↔
      ∃ old ∈ tileCache.tilesBeingRendered, rendering = cancelled session old ∧
        (old.tile.id < 0 → session ∈ old.subscribers → old.subscribers.erase session ≠ []) := by
  have kept_iff (old : TileBeingRendered) :
      (!((decide (old.tile.id < 0) && old.subscribers.contains session) &&
        (old.subscribers.erase session).isEmpty)) = true ↔
      (old.tile.id < 0 → session ∈ old.subscribers → old.subscribers.erase session ≠ []) := by
    by_cases negative : old.tile.id < 0
    · by_cases subscribed : session ∈ old.subscribers
      · simp [negative, subscribed]
      · simp [subscribed]
    · simp [negative]
  have changed (old : TileBeingRendered) :
      (if (decide (old.tile.id < 0) && old.subscribers.contains session) = true then
        { old with subscribers := old.subscribers.erase session } else old) =
      cancelled session old := by
    unfold cancelled
    by_cases negative : old.tile.id < 0
    · by_cases subscribed : session ∈ old.subscribers
      · simp [negative, subscribed]
      · simp [subscribed, List.erase_of_not_mem]
    · simp [negative]
  unfold cancelTiles
  simp only [Keyed.mem_update, Keyed.mem_filter]
  constructor
  · rintro ⟨old, ⟨member, kept⟩, rfl⟩
    exact ⟨old, member, changed old, (kept_iff old).mp kept⟩
  · rintro ⟨old, member, rfl, kept⟩
    exact ⟨old, ⟨member, (kept_iff old).mpr kept⟩, changed old⟩

/-- A tile that is waited for stays in the cache, so that a delta has something to be
appended to. -/
theorem find?_ensureCacheSize {old : TileBeingRendered}
    (found : tileCache.findTileBeingRendered desc = some old) {entry : CacheEntry}
    (cached : tileCache.cache.find? desc.cacheKey = some entry) :
    tileCache.ensureCacheSize.cache.find? desc.cacheKey = some entry := by
  obtain ⟨member, sameKey⟩ := Keyed.find?_some cached
  unfold ensureCacheSize
  split
  · exact cached
  · have waitedFor : (tileCache.findTileBeingRendered entry.1).isNone = false := by
      have same : entry.1.cacheKey = desc.cacheKey := sameKey
      rw [findTileBeingRendered, same, ← findTileBeingRendered, found]
      rfl
    rw [← sameKey]
    refine Keyed.find?_of_mem (Keyed.mem_filter.mpr ⟨member, ?_⟩)
    dsimp only
    rw [waitedFor, Bool.and_false]
    rfl

/-- The response carries a tile for those who wait for it. -/
def Carries (tileCache : TileCache) (desc : TileDesc) (data : List UInt8) : Prop :=
  data ≠ [] ∧ (tileCache.dontCache = true ∨ TileData.isKeyframe data = true ∨
    tileCache.cache.find? desc.cacheKey ≠ none)

theorem mem_notified {old : TileBeingRendered} {data : List UInt8} {alive : SessionId → Bool}
    (found : tileCache.findTileBeingRendered desc = some old)
    (carries : Carries tileCache desc data) (subscribes : session ∈ old.subscribers)
    (isAlive : alive session = true) :
    session ∈ (tileCache.saveTileAndNotify desc data alive).1.map Prod.fst := by
  obtain ⟨filled, source⟩ := carries
  have saved : ∃ tile, (tileCache.saveDataToCache desc data).1 = some tile := by
    unfold saveDataToCache
    by_cases uncached : tileCache.dontCache = true
    · exact ⟨_, by rw [if_pos uncached]⟩
    · rw [if_neg uncached]
      dsimp only
      cases cached : tileCache.ensureCacheSize.cache.find? desc.cacheKey with
      | some entry => exact ⟨_, rfl⟩
      | none =>
          have keyframe : TileData.isKeyframe data = true := by
            rcases source with isUncached | keyframe | isCached
            · exact absurd isUncached uncached
            · exact keyframe
            · obtain ⟨entry, isEntry⟩ := Option.ne_none_iff_exists'.mp isCached
              rw [find?_ensureCacheSize found isEntry] at cached
              cases cached
          exact ⟨_, by dsimp only; rw [if_pos keyframe]⟩
  obtain ⟨tile, isTile⟩ := saved
  unfold saveTileAndNotify
  rw [found]
  dsimp only
  rw [if_neg filled, isTile]
  simp [subscribes, isAlive]

end TileCache

/-!
## What the sessions have asked for
-/

structure TileRequest where
  session : SessionId
  key : TileKey
  ver : Int
deriving DecidableEq

/-- The cache, the requests that are not answered yet, and the version that each session
has last asked for. -/
structure Subscriptions where
  tileCache : TileCache
  asked : List TileRequest
  latest : SessionId → TileKey → Option Int

namespace Subscriptions

inductive Event where
  | subscribe (tile : TileDesc) (session : SessionId) (now : Nat)
  | response (desc : TileDesc) (data : List UInt8) (alive : SessionId → Bool)
  | cancel (session : SessionId)

variable (state : Subscriptions)

def subscribe (tile : TileDesc) (session : SessionId) (now : Nat) : Subscriptions where
  tileCache := state.tileCache.subscribeToTileRendering tile session now
  asked := ⟨session, tile.cacheKey, tile.ver⟩ :: state.asked
  latest := fun other key =>
    if other = session ∧ key = tile.cacheKey then some tile.ver else state.latest other key

/-- A request is answered when its session is sent a tile of that version or a newer one.
Sessions that are gone do not wait any more. -/
def respond (desc : TileDesc) (data : List UInt8) (alive : SessionId → Bool) : Subscriptions :=
  let (notified, tileCache) := state.tileCache.saveTileAndNotify desc data alive
  { state with
    tileCache := tileCache
    asked := state.asked.filter fun request =>
      alive request.session &&
        !(decide (request.key = desc.cacheKey ∧ request.ver ≤ desc.ver) &&
          (notified.map Prod.fst).contains request.session) }

def cancel (session : SessionId) : Subscriptions :=
  { state with
    tileCache := (state.tileCache.cancelTiles session).2
    asked := state.asked.filter fun request => request.session ≠ session }

def step : Event → Subscriptions
  | .subscribe tile session now => state.subscribe tile session now
  | .response desc data alive => state.respond desc data alive
  | .cancel session => state.cancel session

/-- Whoever waits for a tile is among its subscribers, once, and the version of the tile is
not older than what they have last asked for. -/
structure Lawful : Prop where
  subscribed : ∀ request ∈ state.asked, ∃ rendering ∈ state.tileCache.tilesBeingRendered,
    rendering.key = request.key ∧ request.session ∈ rendering.subscribers
  latest : ∀ rendering ∈ state.tileCache.tilesBeingRendered, ∀ session ∈ rendering.subscribers,
    ∀ ver, state.latest session rendering.key = some ver → ver ≤ rendering.tile.ver
  once : ∀ rendering ∈ state.tileCache.tilesBeingRendered, rendering.subscribers.Nodup

/-- The version of a tile that goes on being rendered is not taken back. -/
def VersionsGrow (state next : Subscriptions) : Prop :=
  ∀ rendering ∈ state.tileCache.tilesBeingRendered, ∀ other ∈ next.tileCache.tilesBeingRendered,
    rendering.key = other.key → rendering.tile.ver ≤ other.tile.ver

/-- A new subscriber does not ask for more than the version of the tile, one that asks again
does not ask for less, and a response that ends the rendering carries a tile. -/
def Allowed : Event → Prop
  | .subscribe tile session _ =>
      ∀ rendering ∈ state.tileCache.tilesBeingRendered, rendering.key = tile.cacheKey →
        if session ∈ rendering.subscribers then rendering.tile.ver ≤ tile.ver
        else tile.ver ≤ rendering.tile.ver
  | .response desc data alive =>
      ∀ rendering ∈ state.tileCache.tilesBeingRendered, rendering.key = desc.cacheKey →
        rendering.tile.ver ≤ desc.ver → (∃ session ∈ rendering.subscribers, alive session = true) →
          state.tileCache.Carries desc data
  | .cancel _ => True

instance (desc : TileDesc) (data : List UInt8) (tileCache : TileCache) :
    Decidable (tileCache.Carries desc data) :=
  inferInstanceAs (Decidable (_ ∧ _))

instance (event : Event) : Decidable (Allowed state event) :=
  match event with
  | .subscribe tile session _ =>
      inferInstanceAs (Decidable (∀ rendering ∈ state.tileCache.tilesBeingRendered.entries,
        rendering.key = tile.cacheKey → if session ∈ rendering.subscribers then
          rendering.tile.ver ≤ tile.ver else tile.ver ≤ rendering.tile.ver))
  | .response desc data alive =>
      inferInstanceAs (Decidable (∀ rendering ∈ state.tileCache.tilesBeingRendered.entries,
        rendering.key = desc.cacheKey → rendering.tile.ver ≤ desc.ver →
          (∃ session ∈ rendering.subscribers, alive session = true) →
            state.tileCache.Carries desc data))
  | .cancel _ => .isTrue trivial

/-- No request is newer than the tile being rendered. -/
structure Covered : Prop extends Lawful state where
  asked : ∀ request ∈ state.asked, ∀ rendering ∈ state.tileCache.tilesBeingRendered,
    rendering.key = request.key → request.ver ≤ rendering.tile.ver

variable {state}

section Subscribe

variable {tile : TileDesc} {session : SessionId} {now : Nat}

/-- What stands for the tile once the session has subscribed. -/
theorem mem_subscribe {rendering : TileBeingRendered} :
    rendering ∈ (state.subscribe tile session now).tileCache.tilesBeingRendered ↔
      rendering ∈ state.tileCache.tilesBeingRendered ∧ rendering.key ≠ tile.cacheKey ∨
        rendering = TileCache.subscribed tile session now
          (state.tileCache.findTileBeingRendered tile) :=
  TileCache.mem_subscribeToTileRendering

/-- Its version is neither older than what is asked for nor than before. -/
theorem newer_subscribed (allowed : Allowed state (.subscribe tile session now))
    {new : TileBeingRendered} (isNew : new = TileCache.subscribed tile session now
      (state.tileCache.findTileBeingRendered tile)) :
    tile.ver ≤ new.tile.ver ∧
      ∀ old ∈ state.tileCache.tilesBeingRendered, old.key = tile.cacheKey →
        old.tile.ver ≤ new.tile.ver := by
  cases isOld : state.tileCache.findTileBeingRendered tile with
  | none =>
      refine ⟨by simp [isNew, isOld, TileCache.subscribed], ?_⟩
      intro old member sameKey
      rw [TileCache.findTileBeingRendered_iff.mpr ⟨member, sameKey⟩] at isOld
      cases isOld
  | some found =>
      obtain ⟨member, sameKey⟩ := TileCache.findTileBeingRendered_iff.mp isOld
      have permitted := allowed found member sameKey
      have grows : tile.ver ≤ new.tile.ver ∧ found.tile.ver ≤ new.tile.ver := by
        simp only [isNew, isOld, TileCache.subscribed]
        split at permitted
        · next already => simpa only [if_pos already] using ⟨Int.le_refl _, permitted⟩
        · next other => simpa only [if_neg other] using ⟨permitted, Int.le_refl _⟩
      refine ⟨grows.1, fun old oldMember oldKey => ?_⟩
      obtain rfl := Keyed.eq_of_key member oldMember (sameKey.trans oldKey.symm)
      exact grows.2

theorem Covered.subscribed_subscribe (covered : Covered state) {request : TileRequest}
    (asked : request ∈ (state.subscribe tile session now).asked) :
    ∃ rendering ∈ (state.subscribe tile session now).tileCache.tilesBeingRendered,
      rendering.key = request.key ∧ request.session ∈ rendering.subscribers := by
  rcases List.mem_cons.mp asked with rfl | asked
  · exact ⟨_, mem_subscribe.mpr (.inr rfl), TileCache.key_subscribed,
      TileCache.mem_subscribed.mpr (.inl rfl)⟩
  · obtain ⟨rendering, member, sameKey, subscribes⟩ := covered.subscribed request asked
    by_cases same : rendering.key = tile.cacheKey
    · have isFound := TileCache.findTileBeingRendered_iff.mpr ⟨member, same⟩
      exact ⟨_, mem_subscribe.mpr (.inr rfl),
        (TileCache.key_subscribed.trans same.symm).trans sameKey,
        TileCache.mem_subscribed.mpr (.inr ⟨rendering, isFound, subscribes⟩)⟩
    · exact ⟨rendering, mem_subscribe.mpr (.inl ⟨member, same⟩), sameKey, subscribes⟩

theorem Covered.latest_subscribe (covered : Covered state)
    (allowed : Allowed state (.subscribe tile session now)) {rendering : TileBeingRendered}
    (member : rendering ∈ (state.subscribe tile session now).tileCache.tilesBeingRendered)
    {other : SessionId} (subscribes : other ∈ rendering.subscribers) {ver : Int}
    (isLatest : (state.subscribe tile session now).latest other rendering.key = some ver) :
    ver ≤ rendering.tile.ver := by
  simp only [Subscriptions.subscribe] at isLatest
  rcases mem_subscribe.mp member with ⟨old, otherKey⟩ | isNew
  · rw [if_neg (fun both => otherKey both.2)] at isLatest
    exact covered.latest rendering old other subscribes ver isLatest
  · have newer := newer_subscribed allowed isNew
    have newKey : rendering.key = tile.cacheKey := by rw [isNew, TileCache.key_subscribed]
    by_cases isSession : other = session
    · rw [if_pos ⟨isSession, newKey⟩] at isLatest
      cases isLatest
      exact newer.1
    · rw [if_neg (fun both => isSession both.1), newKey] at isLatest
      rw [isNew] at subscribes
      rcases TileCache.mem_subscribed.mp subscribes with same | ⟨old, isOld, subscribes⟩
      · exact absurd same isSession
      · obtain ⟨oldMember, oldKey⟩ := TileCache.findTileBeingRendered_iff.mp isOld
        rw [← oldKey] at isLatest
        exact Int.le_trans (covered.latest old oldMember other subscribes ver isLatest)
          (newer.2 old oldMember oldKey)

theorem Covered.subscribe (covered : Covered state)
    (allowed : Allowed state (.subscribe tile session now)) :
    Covered (state.subscribe tile session now) ∧
      VersionsGrow state (state.subscribe tile session now) := by
  constructor
  · constructor
    · constructor
      case subscribed => exact fun request asked => covered.subscribed_subscribe asked
      case latest =>
        exact fun rendering member other subscribes ver isLatest =>
          covered.latest_subscribe allowed member subscribes isLatest
      case once =>
        intro rendering member
        rcases mem_subscribe.mp member with ⟨old, -⟩ | rfl
        · exact covered.once rendering old
        · exact TileCache.nodup_subscribed fun old isOld =>
            covered.once old (TileCache.findTileBeingRendered_iff.mp isOld).1
    · intro request asked rendering member sameKey
      rcases mem_subscribe.mp member with ⟨old, otherKey⟩ | isNew
      · rcases List.mem_cons.mp asked with rfl | asked
        · exact absurd sameKey otherKey
        · exact covered.asked request asked rendering old sameKey
      · have newer := newer_subscribed allowed isNew
        have newKey : rendering.key = tile.cacheKey := by rw [isNew, TileCache.key_subscribed]
        rcases List.mem_cons.mp asked with rfl | asked
        · exact newer.1
        · obtain ⟨old, oldMember, oldKey, -⟩ := covered.subscribed request asked
          exact Int.le_trans (covered.asked request asked old oldMember oldKey)
            (newer.2 old oldMember (oldKey.trans (sameKey.symm.trans newKey)))
  · intro rendering member other otherMember sameKey
    rcases mem_subscribe.mp otherMember with ⟨old, -⟩ | isNew
    · obtain rfl := Keyed.eq_of_key member old sameKey
      exact Int.le_refl _
    · have newKey : other.key = tile.cacheKey := by rw [isNew, TileCache.key_subscribed]
      exact (newer_subscribed allowed isNew).2 rendering member (sameKey.trans newKey)

end Subscribe

theorem Covered.respond (covered : Covered state) {desc : TileDesc} {data : List UInt8}
    {alive : SessionId → Bool} (allowed : Allowed state (.response desc data alive)) :
    Covered (state.respond desc data alive) ∧
      VersionsGrow state (state.respond desc data alive) := by
  have cases_mem : ∀ rendering,
      rendering ∈ (state.respond desc data alive).tileCache.tilesBeingRendered ↔
        rendering ∈ state.tileCache.tilesBeingRendered ∧
          (rendering.key = desc.cacheKey → desc.ver < rendering.tile.ver) :=
    fun rendering => TileCache.mem_saveTileAndNotify
  constructor
  · constructor
    · constructor
      case subscribed =>
        intro request asked
        obtain ⟨asked, waits⟩ := List.mem_filter.mp asked
        obtain ⟨isAlive, unanswered⟩ := Bool.and_eq_true_iff.mp waits
        obtain ⟨rendering, member, sameKey, subscribes⟩ := covered.subscribed request asked
        refine ⟨rendering, (cases_mem rendering).mpr ⟨member, fun isTile => ?_⟩, sameKey, subscribes⟩
        by_contra ended
        have reached : rendering.tile.ver ≤ desc.ver := Int.not_lt.mp ended
        have found := TileCache.findTileBeingRendered_iff.mpr ⟨member, isTile⟩
        have carries := allowed rendering member isTile reached ⟨_, subscribes, isAlive⟩
        have notified := TileCache.mem_notified found carries subscribes isAlive
        have covers := Int.le_trans (covered.asked request asked rendering member sameKey) reached
        rw [Bool.not_eq_true', Bool.and_eq_false_iff] at unanswered
        rcases unanswered with other | unsent
        · exact of_decide_eq_false other ⟨sameKey.symm.trans isTile, covers⟩
        · exact absurd (List.contains_iff_mem.mpr notified) (Bool.eq_false_iff.mp unsent)
      case latest =>
        intro rendering member
        exact covered.latest rendering ((cases_mem rendering).mp member).1
      case once =>
        intro rendering member
        exact covered.once rendering ((cases_mem rendering).mp member).1
    · intro request asked rendering member
      exact covered.asked request (List.mem_filter.mp asked).1 rendering
        ((cases_mem rendering).mp member).1
  · intro rendering member other otherMember sameKey
    obtain rfl := Keyed.eq_of_key member ((cases_mem other).mp otherMember).1 sameKey
    exact Int.le_refl _

theorem Covered.cancel (covered : Covered state) (session : SessionId) :
    Covered (state.cancel session) ∧ VersionsGrow state (state.cancel session) := by
  have cases_mem : ∀ rendering,
      rendering ∈ (state.cancel session).tileCache.tilesBeingRendered ↔
        ∃ old ∈ state.tileCache.tilesBeingRendered,
          rendering = TileCache.cancelled session old ∧
            (old.tile.id < 0 → session ∈ old.subscribers → old.subscribers.erase session ≠ []) :=
    fun rendering => TileCache.mem_cancelTiles
  constructor
  · constructor
    · constructor
      case subscribed =>
        intro request asked
        obtain ⟨asked, isOther⟩ := List.mem_filter.mp asked
        have other : request.session ≠ session := of_decide_eq_true isOther
        obtain ⟨old, member, sameKey, subscribes⟩ := covered.subscribed request asked
        have stays : request.session ∈ old.subscribers.erase session :=
          (List.mem_erase_of_ne other).mpr subscribes
        refine ⟨TileCache.cancelled session old, (cases_mem _).mpr ⟨old, member, rfl, ?_⟩, ?_, ?_⟩
        · exact fun _ _ => List.ne_nil_of_mem stays
        · rw [TileBeingRendered.key, TileCache.tile_cancelled]
          exact sameKey
        · unfold TileCache.cancelled
          split
          · exact stays
          · exact subscribes
      case latest =>
        intro rendering member other subscribes ver isLatest
        obtain ⟨old, oldMember, rfl, -⟩ := (cases_mem rendering).mp member
        rw [TileBeingRendered.key, TileCache.tile_cancelled] at isLatest
        rw [TileCache.tile_cancelled]
        exact covered.latest old oldMember other ((TileCache.sublist_cancelled session old).subset subscribes) ver
          isLatest
      case once =>
        intro rendering member
        obtain ⟨old, oldMember, rfl, -⟩ := (cases_mem rendering).mp member
        exact (covered.once old oldMember).sublist (TileCache.sublist_cancelled session old)
    · intro request asked rendering member sameKey
      obtain ⟨old, oldMember, rfl, -⟩ := (cases_mem rendering).mp member
      rw [TileBeingRendered.key, TileCache.tile_cancelled] at sameKey
      rw [TileCache.tile_cancelled]
      exact covered.asked request (List.mem_filter.mp asked).1 old oldMember sameKey
  · intro rendering member other otherMember sameKey
    obtain ⟨old, oldMember, rfl, -⟩ := (cases_mem other).mp otherMember
    rw [TileBeingRendered.key, TileBeingRendered.key, TileCache.tile_cancelled] at sameKey
    obtain rfl := Keyed.eq_of_key member oldMember sameKey
    exact Int.le_of_eq (congrArg TileDesc.ver (TileCache.tile_cancelled _ _).symm)

theorem Covered.step {event : Event} (covered : Covered state) (allowed : Allowed state event) :
    Covered (state.step event) ∧ VersionsGrow state (state.step event) := by
  cases event with
  | subscribe tile session now => exact covered.subscribe allowed
  | response desc data alive => exact covered.respond allowed
  | cancel session => exact covered.cancel session

def start (tileCache : TileCache) : Subscriptions :=
  ⟨tileCache, [], fun _ _ => none⟩

theorem Covered.start {tileCache : TileCache} (idle : tileCache.tilesBeingRendered = .empty) :
    Covered (start tileCache) := by
  have nothing : ∀ rendering, rendering ∉ (Subscriptions.start tileCache).tileCache.tilesBeingRendered := by
    intro rendering member
    rw [Subscriptions.start, idle] at member
    exact Keyed.not_mem_empty rendering member
  constructor
  · constructor
    · exact fun request asked => absurd asked List.not_mem_nil
    · exact fun rendering member => absurd member (nothing rendering)
    · exact fun rendering member => absurd member (nothing rendering)
  · exact fun request asked => absurd asked List.not_mem_nil

/-- The law of subscriptions, in every state that is reached and at every step. -/
theorem lawful_run {tileCache : TileCache} (idle : tileCache.tilesBeingRendered = .empty)
    {events : List Event} (permitted : Permitted step Allowed (start tileCache) events) :
    (∀ before after, events = before ++ after → Lawful (run step (start tileCache) before)) ∧
      ∀ before event after, events = before ++ event :: after →
        VersionsGrow (run step (start tileCache) before)
          ((run step (start tileCache) before).step event) := by
  have reached {before after : List Event} (split : events = before ++ after) :
      Covered (run step (start tileCache) before) ∧
        Permitted step Allowed (run step (start tileCache) before) after := by
    rw [split] at permitted
    obtain ⟨first, rest⟩ := permitted_append.mp permitted
    exact ⟨run_invariant Covered (fun state event covered allowed => (covered.step allowed).1)
      (Covered.start idle) first, rest⟩
  constructor
  · intro before after split
    exact (reached split).1.toLawful
  · intro before event after split
    obtain ⟨covered, allowed, -⟩ := reached split
    exact (covered.step allowed).2

def cornerTile (ver : Int) : TileDesc where
  normalizedViewId := 0
  part := 0
  mode := 0
  width := 256
  height := 256
  tilePosX := 0
  tilePosY := 0
  tileWidth := 3840
  tileHeight := 3840
  ver := ver
  imgSize := 0
  id := -1
  broadcast := false
  oldWireId := 0
  wireId := 1
  valid := TileDesc.valid_origin

/-- Two sessions wait for the first version, one of them for the next one too. -/
def twoSessions : List Event :=
  [.subscribe (cornerTile 1) 1 0, .subscribe (cornerTile 1) 2 0, .subscribe (cornerTile 2) 1 0,
    .response (cornerTile 1) [90, 1] fun _ => true, .cancel 2]

theorem lawful_twoSessions :
    (TileCache.initial false).tilesBeingRendered = .empty ∧
      Permitted step Allowed (start (TileCache.initial false)) twoSessions ∧
      Lawful (run step (start (TileCache.initial false)) twoSessions) ∧
      (run step (start (TileCache.initial false)) twoSessions).asked.map TileRequest.session = [1] := by
  have permitted : Permitted step Allowed (start (TileCache.initial false)) twoSessions := by decide
  refine ⟨rfl, permitted, ?_, by decide⟩
  exact (lawful_run rfl permitted).1 twoSessions [] rfl

/-- The second session asks for a newer version than the first, which ends the rendering. -/
def lateSubscriber : List Event :=
  [.subscribe (cornerTile 1) 1 0, .subscribe (cornerTile 2) 2 0,
    .response (cornerTile 1) [90, 1] fun _ => true]

/-- The second session is not a subscriber any more, though it was not sent what it asked
for; and a session that asks again for an older version takes the version back. -/
theorem not_lawful_lateSubscriber :
    ¬ Lawful (run step (start (TileCache.initial false)) lateSubscriber) ∧
      ¬ Lawful (run step (start (TileCache.initial false)) (lateSubscriber.take 2)) ∧
      ¬ VersionsGrow (run step (start (TileCache.initial false)) [.subscribe (cornerTile 2) 1 0])
        ((run step (start (TileCache.initial false)) [.subscribe (cornerTile 2) 1 0]).step
          (.subscribe (cornerTile 1) 1 0)) := by
  refine ⟨fun lawful => ?_, fun lawful => ?_, fun grow => ?_⟩
  · have lost : ∀ request ∈ (run step (start (TileCache.initial false)) lateSubscriber).asked,
        ¬ ∃ rendering ∈ (run step (start (TileCache.initial false))
          lateSubscriber).tileCache.tilesBeingRendered.entries,
          rendering.key = request.key ∧ request.session ∈ rendering.subscribers := by decide
    have waits : ⟨2, (cornerTile 2).cacheKey, 2⟩ ∈
        (run step (start (TileCache.initial false)) lateSubscriber).asked := by decide
    exact lost _ waits (lawful.subscribed _ waits)
  · have recorded : ⟨cornerTile 1, 0, [1, 2]⟩ ∈ (run step (start (TileCache.initial false))
        (lateSubscriber.take 2)).tileCache.tilesBeingRendered.entries := by decide
    exact absurd (lawful.latest _ recorded 2 (by decide) 2 (by decide)) (by decide)
  · have before : ⟨cornerTile 2, 0, [1]⟩ ∈ (run step (start (TileCache.initial false))
        [.subscribe (cornerTile 2) 1 0]).tileCache.tilesBeingRendered.entries := by decide
    have after : ⟨cornerTile 1, 0, [1]⟩ ∈ ((run step (start (TileCache.initial false))
        [.subscribe (cornerTile 2) 1 0]).step
          (.subscribe (cornerTile 1) 1 0)).tileCache.tilesBeingRendered.entries := by decide
    exact absurd (grow _ before _ after (by decide)) (by decide)

end Subscriptions

end FreeOnline.Wsd
