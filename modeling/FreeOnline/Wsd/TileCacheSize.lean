import FreeOnline.Library.Run
import FreeOnline.Wsd.TileCache

/-!
# The contents and the size of the tile cache

Whatever happens to the cache, an entry is what the kit sent for its tile since the last
keyframe, and the accounted size is that of the entries.
-/

set_option autoImplicit false

namespace FreeOnline.Wsd

open FreeOnline.Library

/-!
## The size
-/

def CacheEntry.size (entry : CacheEntry) : Nat :=
  TileCache.itemCacheSize entry.2

namespace TileCache

variable {tileCache : TileCache}

def contentSize (tileCache : TileCache) : Nat :=
  tileCache.cache.sum CacheEntry.size

def Accounted (tileCache : TileCache) : Prop :=
  tileCache.cacheSize = UInt64.ofNat tileCache.contentSize

theorem Accounted.ensureCacheSize (accounted : Accounted tileCache) :
    Accounted tileCache.ensureCacheSize := by
  unfold TileCache.ensureCacheSize
  split
  · exact accounted
  · have split : ((tileCache.cache.entries.filter fun entry =>
        decide (entry.1.wireId ≤ tileCache.maxToRemove) &&
          (tileCache.findTileBeingRendered entry.1).isNone).map CacheEntry.size).sum + _ =
        tileCache.contentSize := tileCache.cache.sum_filter _
    unfold Accounted at accounted ⊢
    rw [← split, UInt64.ofNat_add, UInt64.add_comm] at accounted
    dsimp only
    rw [accounted]
    exact UInt64.add_sub_cancel _ _

theorem Accounted.saveDataToCache (accounted : Accounted tileCache) (desc : TileDesc)
    (data : List UInt8) : Accounted (tileCache.saveDataToCache desc data).2 := by
  have ensured := accounted.ensureCacheSize
  unfold TileCache.saveDataToCache
  split
  · exact accounted
  · dsimp only
    cases cached : tileCache.ensureCacheSize.cache.find? desc.cacheKey with
    | none =>
        dsimp only
        split
        · have grown : (tileCache.ensureCacheSize.cache.insert
              (desc, TileData.ofBlob desc.wireId data)).sum CacheEntry.size =
              tileCache.ensureCacheSize.contentSize +
                itemCacheSize (TileData.ofBlob desc.wireId data) := Keyed.sum_insert_new cached
          unfold Accounted at ensured ⊢
          rw [contentSize, grown, UInt64.ofNat_add, ensured]
        · exact ensured
    | some entry =>
        obtain ⟨member, sameKey⟩ := Keyed.find?_some cached
        have others : ∀ other : CacheEntry, other.key ≠ entry.key →
            appendTo desc data other = other := by
          intro other otherKey
          rw [appendTo, if_neg (sameKey ▸ otherKey)]
        have appended : (appendTo desc data entry).size =
            itemCacheSize (entry.2.appendBlob desc.wireId data) := by
          rw [appendTo, if_pos sameKey]
          rfl
        have moved : (tileCache.ensureCacheSize.cache.update (appendTo desc data)
              (key_appendTo desc data)).sum CacheEntry.size + entry.2.size =
            tileCache.ensureCacheSize.contentSize +
              (entry.2.appendBlob desc.wireId data).size := by
          have total : (tileCache.ensureCacheSize.cache.update (appendTo desc data)
                (key_appendTo desc data)).sum CacheEntry.size + entry.size =
              tileCache.ensureCacheSize.contentSize + (appendTo desc data entry).size :=
            Keyed.sum_update (key_appendTo desc data) member others
          rw [appended, show entry.size = itemOverhead + entry.2.size from rfl, itemCacheSize] at total
          omega
        have machine := congrArg UInt64.ofNat moved
        rw [UInt64.ofNat_add, UInt64.ofNat_add] at machine
        unfold Accounted at ensured ⊢
        dsimp only
        rw [ensured, ← machine, UInt64.add_sub_cancel]
        rfl

theorem accounted_forgetTileBeingRendered (desc : TileDesc) (rendering : TileBeingRendered) :
    Accounted (tileCache.forgetTileBeingRendered desc rendering) ↔ Accounted tileCache := by
  unfold forgetTileBeingRendered
  split
  · exact Iff.rfl
  · exact Iff.rfl

theorem Accounted.saveTileAndNotify (accounted : Accounted tileCache) (desc : TileDesc)
    (data : List UInt8) (alive : SessionId → Bool) :
    Accounted (tileCache.saveTileAndNotify desc data alive).2 := by
  have saved := accounted.saveDataToCache desc data
  unfold TileCache.saveTileAndNotify
  cases tileCache.findTileBeingRendered desc with
  | none =>
      by_cases empty : data = []
      · simpa [empty] using accounted
      · simpa [empty] using saved
  | some rendering =>
      by_cases empty : data = []
      · simpa [empty, accounted_forgetTileBeingRendered] using accounted
      · simpa [empty, accounted_forgetTileBeingRendered] using saved

theorem Accounted.invalidateTiles (accounted : Accounted tileCache)
    (part mode x y width height normalizedViewId : Int) :
    Accounted (tileCache.invalidateTiles part mode x y width height normalizedViewId) := by
  have unchanged : (tileCache.invalidateTiles part mode x y width height
      normalizedViewId).contentSize = tileCache.contentSize := by
    apply Keyed.sum_update_of_eq
    case same =>
      intro entry
      split
      · rfl
      · rfl
    case unchanged =>
      intro entry
      split
      · rfl
      · rfl
  unfold Accounted
  rw [unchanged]
  exact accounted

end TileCache

/-!
## What the kit has sent
-/

/-- The cache, and all that the kit has sent for each tile. -/
structure CacheHistory where
  tileCache : TileCache
  received : TileKey → List TileData.Blob

namespace CacheHistory

inductive Event where
  | saveTileAndNotify (desc : TileDesc) (data : List UInt8) (alive : SessionId → Bool)
  | invalidateTiles (part mode x y width height normalizedViewId : Int)
  | clear
  | setMaxCacheSize (cacheSize : UInt64)
  | subscribeToTileRendering (tile : TileDesc) (subscriber : SessionId) (now : Nat)
  | cancelTiles (subscriber : SessionId)

def initial : CacheHistory :=
  ⟨TileCache.initial false, fun _ => []⟩

variable (history : CacheHistory)

def save (desc : TileDesc) (data : List UInt8) (alive : SessionId → Bool) : CacheHistory where
  tileCache := (history.tileCache.saveTileAndNotify desc data alive).2
  received := fun key =>
    if key = desc.cacheKey ∧ data ≠ [] then history.received key ++ [(desc.wireId, data)]
    else history.received key

def step : Event → CacheHistory
  | .saveTileAndNotify desc data alive => history.save desc data alive
  | .invalidateTiles part mode x y width height normalizedViewId =>
      { history with tileCache :=
          history.tileCache.invalidateTiles part mode x y width height normalizedViewId }
  | .clear => { history with tileCache := history.tileCache.clear }
  | .setMaxCacheSize cacheSize =>
      { history with tileCache := history.tileCache.setMaxCacheSize cacheSize }
  | .subscribeToTileRendering tile subscriber now =>
      { history with tileCache := history.tileCache.subscribeToTileRendering tile subscriber now }
  | .cancelTiles subscriber =>
      { history with tileCache := (history.tileCache.cancelTiles subscriber).2 }

/-- The tile is a keyframe that the kit has sent, and the deltas it has sent since. The
byte that says which they are is not stored. -/
def SinceKeyframe (received : List TileData.Blob) (tile : TileData) : Prop :=
  ∃ before keyframe deltas, received = before ++ keyframe :: deltas ∧
    TileData.isKeyframe keyframe.2 = true ∧
    (∀ delta ∈ deltas, TileData.isKeyframe delta.2 = false) ∧
    tile.Holds ((keyframe :: deltas).map fun blob => (blob.1, blob.2.tail))

theorem SinceKeyframe.tables {received : List TileData.Blob} {tile : TileData}
    (since : SinceKeyframe received tile) : tile.Tables := by
  obtain ⟨before, keyframe, deltas, -, -, -, holds⟩ := since
  exact holds.tables

theorem sinceKeyframe_keyframe (received : List TileData.Blob) (tile : TileData)
    (id : Kit.TileWireId) {data : List UInt8} (keyframe : TileData.isKeyframe data = true) :
    SinceKeyframe (received ++ [(id, data)]) (tile.appendBlob id data) :=
  ⟨received, (id, data), [], rfl, keyframe, by simp, TileData.holds_keyframe tile id keyframe⟩

theorem SinceKeyframe.append {received : List TileData.Blob} {tile : TileData}
    (since : SinceKeyframe received tile) (id : Kit.TileWireId) (data : List UInt8) :
    SinceKeyframe (received ++ [(id, data)]) (tile.appendBlob id data) := by
  cases isKeyframe : TileData.isKeyframe data with
  | true => exact sinceKeyframe_keyframe received tile id isKeyframe
  | false =>
      obtain ⟨before, keyframe, deltas, rfl, first, rest, holds⟩ := since
      refine ⟨before, keyframe, deltas ++ [(id, data)], by simp, first, ?_, ?_⟩
      · intro delta member
        rcases List.mem_append.mp member with old | new
        · exact rest delta old
        · rw [List.mem_singleton.mp new]
          exact isKeyframe
      · have appended := holds.append id isKeyframe
        rwa [← List.cons_append, List.map_append]

/-- What is said of a cache: the first blob of every entry is a keyframe, the tables fit
the data, and the accounted size is that of the entries; it never wraps below zero, as it is
not above that sum. -/
structure Represents : Prop where
  keyframe : ∀ entry ∈ history.tileCache.cache,
    SinceKeyframe (history.received entry.key) entry.2
  tables : ∀ entry ∈ history.tileCache.cache, entry.2.Tables
  size : history.tileCache.cacheSize = UInt64.ofNat history.tileCache.contentSize
  notWrapped : history.tileCache.cacheSize.toNat ≤ history.tileCache.contentSize
  inRange : history.tileCache.contentSize < 2 ^ 64 →
    history.tileCache.cacheSize.toNat = history.tileCache.contentSize

/-- The invariant of the runs. -/
structure Sound : Prop where
  caching : history.tileCache.dontCache = false
  since : ∀ entry ∈ history.tileCache.cache, SinceKeyframe (history.received entry.key) entry.2
  accounted : history.tileCache.Accounted

variable {history}

theorem Sound.represents (sound : Sound history) : Represents history where
  keyframe := sound.since
  tables := fun entry member => (sound.since entry member).tables
  size := sound.accounted
  notWrapped := by
    rw [sound.accounted, UInt64.toNat_ofNat']
    exact Nat.mod_le _ _
  inRange := by
    intro inside
    rw [sound.accounted, UInt64.toNat_ofNat', Nat.mod_eq_of_lt inside]

theorem Sound.save (sound : Sound history) (desc : TileDesc) (data : List UInt8)
    (alive : SessionId → Bool) : Sound (history.save desc data alive) where
  caching := (TileCache.dontCache_saveTileAndNotify _ _ _ _).trans sound.caching
  accounted := sound.accounted.saveTileAndNotify desc data alive
  since := by
    intro entry member
    simp only [CacheHistory.save, TileCache.cache_saveTileAndNotify] at member ⊢
    by_cases empty : data = []
    · rw [if_pos empty] at member
      rw [if_neg (fun both => both.2 empty)]
      exact sound.since entry member
    · rw [if_neg empty] at member
      rcases TileCache.mem_saveDataToCache sound.caching member with
        ⟨old, otherKey⟩ | ⟨tile, old, sameKey, isAppended⟩ | ⟨keyframe, rfl⟩
      · rw [if_neg (fun both => otherKey both.1)]
        exact sound.since entry old
      · rw [if_pos ⟨sameKey, empty⟩, isAppended]
        exact (sound.since _ old).append desc.wireId data
      · rw [if_pos ⟨rfl, empty⟩]
        exact sinceKeyframe_keyframe _ _ desc.wireId keyframe

theorem Sound.step (sound : Sound history) (event : Event) : Sound (history.step event) := by
  obtain ⟨caching, since, accounted⟩ := sound
  cases event with
  | saveTileAndNotify desc data alive => exact Sound.save ⟨caching, since, accounted⟩ desc data alive
  | invalidateTiles part mode x y width height normalizedViewId =>
      refine ⟨caching, ?_, accounted.invalidateTiles part mode x y width height normalizedViewId⟩
      intro entry member
      simp only [CacheHistory.step, TileCache.invalidateTiles, Keyed.mem_update] at member
      obtain ⟨old, oldMember, rfl⟩ := member
      have before := since old oldMember
      split
      · obtain ⟨first, keyframe, deltas, received, isKeyframe, rest, holds⟩ := before
        exact ⟨first, keyframe, deltas, received, isKeyframe, rest, ⟨holds.1, holds.2, holds.3⟩⟩
      · exact before
  | clear => exact ⟨caching, fun entry member => absurd member (Keyed.not_mem_empty entry), rfl⟩
  | setMaxCacheSize cacheSize =>
      let resized := { history.tileCache with maxCacheSize := cacheSize }
      have unchanged : resized.Accounted := accounted
      refine ⟨(TileCache.dontCache_ensureCacheSize resized).trans caching, ?_,
        unchanged.ensureCacheSize⟩
      intro entry member
      have before : entry ∈ resized.cache := TileCache.mem_ensureCacheSize member
      exact since entry before
  | subscribeToTileRendering tile subscriber now =>
      simp only [CacheHistory.step, TileCache.subscribeToTileRendering]
      split
      · exact ⟨caching, since, accounted⟩
      · exact ⟨caching, since, accounted⟩
  | cancelTiles subscriber => exact ⟨caching, since, accounted⟩

theorem represents_run (events : List Event) : Represents (run step initial events) := by
  have initially : Sound initial :=
    ⟨rfl, fun entry member => absurd member (Keyed.not_mem_empty entry), rfl⟩
  have sound := run_invariant Sound (fun history event sound _ => sound.step event) initially
    (permitted_of_forall (fun _ _ => trivial) initial events)
  exact sound.represents

end CacheHistory

end FreeOnline.Wsd
