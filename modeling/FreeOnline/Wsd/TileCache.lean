import FreeOnline.Library.Keyed
import FreeOnline.Wsd.TileData
import FreeOnline.Wsd.TileDesc

/-!
# The tile cache

The in-memory cache of rendered tiles of one document, with the tiles that are
being rendered and the sessions that wait for them.
-/

set_option autoImplicit false

namespace FreeOnline.Wsd

open FreeOnline.Kit (TileWireId)
open FreeOnline.Library

abbrev SessionId := Nat

structure TileBeingRendered where
  tile : TileDesc
  startTime : Nat
  subscribers : List SessionId
deriving DecidableEq

abbrev CacheEntry := TileDesc × TileData

def CacheEntry.key (entry : CacheEntry) : TileKey :=
  entry.1.cacheKey

def TileBeingRendered.key (rendering : TileBeingRendered) : TileKey :=
  rendering.tile.cacheKey

structure TileCache where
  dontCache : Bool
  cacheSize : UInt64
  maxCacheSize : UInt64
  cache : Keyed CacheEntry.key
  tilesBeingRendered : Keyed TileBeingRendered.key

def itemOverhead : Nat := 16 + 60

def commandTimeoutMs : Nat := 5000

namespace TileCache

def initial (dontCache : Bool) : TileCache where
  dontCache := dontCache
  cacheSize := 0
  maxCacheSize := 512 * 1024
  cache := .empty
  tilesBeingRendered := .empty

def clear (tileCache : TileCache) : TileCache :=
  { tileCache with cache := .empty, cacheSize := 0 }

/-!
## Tiles being rendered
-/

def findTileBeingRendered (tileCache : TileCache) (desc : TileDesc) : Option TileBeingRendered :=
  tileCache.tilesBeingRendered.find? desc.cacheKey

def isStale (rendering : TileBeingRendered) (now : Nat) : Bool :=
  decide (now - rendering.startTime > commandTimeoutMs)

def hasTileBeingRendered (tileCache : TileCache) (desc : TileDesc) (now : Option Nat) : Bool :=
  match tileCache.findTileBeingRendered desc, now with
  | none, _ => false
  | some _, none => true
  | some rendering, some now => !isStale rendering now

def forgetTileBeingRendered (tileCache : TileCache) (descForKitReply : TileDesc)
    (rendering : TileBeingRendered) : TileCache :=
  if rendering.tile.ver ≤ descForKitReply.ver then
    { tileCache with
      tilesBeingRendered := tileCache.tilesBeingRendered.filter fun other =>
        decide (other.key ≠ rendering.key) }
  else tileCache

def subscribeToTileRendering (tileCache : TileCache) (tile : TileDesc) (subscriber : SessionId)
    (now : Nat) : TileCache :=
  match tileCache.findTileBeingRendered tile with
  | some rendering =>
      let change := fun other : TileBeingRendered =>
        if other.key ≠ tile.cacheKey then other
        -- The version stops us unsubscribing when we get there.
        else if rendering.subscribers.contains subscriber then
          { other with tile := other.tile.setVersion tile.ver }
        else { other with subscribers := other.subscribers ++ [subscriber] }
      { tileCache with
        tilesBeingRendered := tileCache.tilesBeingRendered.update change (by
          intro other
          simp only [change]
          split
          · rfl
          · split <;> rfl) }
  | none =>
      { tileCache with
        tilesBeingRendered := tileCache.tilesBeingRendered.insert ⟨tile, now, [subscriber]⟩ }

/-- Cancels all tile requests by the given subscriber, thumbnails apart. Returns
the versions that no one waits for any more. -/
def cancelTiles (tileCache : TileCache) (subscriber : SessionId) : List Int × TileCache :=
  let cancels := fun rendering : TileBeingRendered =>
    decide (rendering.tile.id < 0) && rendering.subscribers.contains subscriber
  let orphaned := fun rendering : TileBeingRendered =>
    cancels rendering && (rendering.subscribers.erase subscriber).isEmpty
  let change := fun rendering : TileBeingRendered =>
    if cancels rendering then
      { rendering with subscribers := rendering.subscribers.erase subscriber }
    else rendering
  let remaining := tileCache.tilesBeingRendered.filter fun rendering => !orphaned rendering
  ((tileCache.tilesBeingRendered.entries.filter orphaned).map fun rendering => rendering.tile.ver,
    { tileCache with
      tilesBeingRendered := remaining.update change (by
        intro rendering
        simp only [change]
        split <;> rfl) })

/-!
## Cached tiles
-/

def findTile (tileCache : TileCache) (desc : TileDesc) : Option TileData :=
  match tileCache.cache.find? desc.cacheKey with
  | some (stored, tile) =>
      if stored.normalizedViewId = desc.normalizedViewId then some tile else none
  | none => none

def lookupTile (tileCache : TileCache) (desc : TileDesc) : Option TileData :=
  if tileCache.dontCache then none else tileCache.findTile desc

def itemCacheSize (tile : TileData) : Nat :=
  itemOverhead + tile.size

def cleanUpTo (limit : Nat) : (total : Nat) → (maxToRemove : TileWireId) →
    List (TileWireId × Nat) → TileWireId
  | _, maxToRemove, [] => maxToRemove
  | total, _, (wid, size) :: wids =>
      if total + size > limit then wid else cleanUpTo limit (total + size) wid wids

def maxToRemove (tileCache : TileCache) : TileWireId :=
  let wids := (tileCache.cache.entries.map fun entry =>
    (entry.1.wireId, itemCacheSize entry.2)).mergeSort fun left right => left.1 ≤ right.1
  let front := (wids.headD (0, 0)).1
  let back := (wids.getLastD (0, 0)).1
  -- Do we have (the very rare) WID wrap-around?
  if back - front > 256 * 256 * 256 then back
  else cleanUpTo (tileCache.maxCacheSize.toNat / 4) 0 front wids

/-- Cleans out the oldest tiles of a full cache, but none that is waited for. -/
def ensureCacheSize (tileCache : TileCache) : TileCache :=
  if tileCache.cacheSize < tileCache.maxCacheSize ∨ tileCache.cache.entries.length < 2 then tileCache
  else
    let cleaned := fun entry : CacheEntry =>
      decide (entry.1.wireId ≤ tileCache.maxToRemove) &&
        (tileCache.findTileBeingRendered entry.1).isNone
    let freed := ((tileCache.cache.entries.filter cleaned).map fun entry =>
      itemCacheSize entry.2).sum
    { tileCache with
      cache := tileCache.cache.filter fun entry => !cleaned entry
      cacheSize := tileCache.cacheSize - UInt64.ofNat freed }

def setMaxCacheSize (tileCache : TileCache) (cacheSize : UInt64) : TileCache :=
  ensureCacheSize { tileCache with maxCacheSize := cacheSize }

def appendTo (desc : TileDesc) (data : List UInt8) (entry : CacheEntry) : CacheEntry :=
  if entry.key = desc.cacheKey then (entry.1, entry.2.appendBlob desc.wireId data) else entry

theorem key_appendTo (desc : TileDesc) (data : List UInt8) (entry : CacheEntry) :
    (appendTo desc data entry).key = entry.key := by
  unfold appendTo
  split <;> rfl

/-- Stores what the kit sent, unless it is a delta for a tile that is no longer
there: canceltiles removes all subscribers, which allows the re-balancing to
remove the underlying keyframe of an in-process delta. -/
def saveDataToCache (tileCache : TileCache) (desc : TileDesc) (data : List UInt8) :
    Option TileData × TileCache :=
  if tileCache.dontCache then (some (TileData.ofBlob desc.wireId data), tileCache)
  else
    let tileCache := tileCache.ensureCacheSize
    match tileCache.cache.find? desc.cacheKey with
    | none =>
        if TileData.isKeyframe data then
          let tile := TileData.ofBlob desc.wireId data
          (some tile,
            { tileCache with
              cache := tileCache.cache.insert (desc, tile)
              cacheSize := tileCache.cacheSize + UInt64.ofNat (itemCacheSize tile) })
        else (none, tileCache)
    | some (_, tile) =>
        let appended := tile.appendBlob desc.wireId data
        (some appended,
          { tileCache with
            cache := tileCache.cache.update (appendTo desc data) (key_appendTo desc data)
            cacheSize := tileCache.cacheSize + UInt64.ofNat appended.size - UInt64.ofNat tile.size })

def saveTileAndNotify (tileCache : TileCache) (desc : TileDesc) (data : List UInt8)
    (alive : SessionId → Bool) : List (SessionId × TileData) × TileCache :=
  let rendering := tileCache.findTileBeingRendered desc
  let forget := fun saved : TileCache =>
    match rendering with
    | some rendering => saved.forgetTileBeingRendered desc rendering
    | none => saved
  if data = [] then ([], forget tileCache)
  else
    let (tile, saved) := tileCache.saveDataToCache desc data
    let notified :=
      match rendering, tile with
      | some rendering, some tile =>
          (rendering.subscribers.filter alive).map fun session => (session, tile)
      | _, _ => []
    (notified, forget saved)

/-- Whether the tile meets the invalidated area; part -1 stands for all parts. -/
def intersectsTile (desc : TileDesc) (part mode x y width height normalizedViewId : Int) : Bool :=
  if part ≠ -1 ∧ desc.part ≠ part then false
  else if mode ≠ desc.mode then false
  else if normalizedViewId ≠ desc.normalizedViewId then false
  else
    let left := max x desc.tilePosX
    let right := min (x + width) (desc.tilePosX + desc.tileWidth)
    let top := max y desc.tilePosY
    let bottom := min (y + height) (desc.tilePosY + desc.tileHeight)
    decide (left ≤ right ∧ top ≤ bottom)

def invalidateTiles (tileCache : TileCache)
    (part mode x y width height normalizedViewId : Int) : TileCache :=
  let change := fun entry : CacheEntry =>
    if intersectsTile entry.1 part mode x y width height normalizedViewId then
      (entry.1, entry.2.invalidate)
    else entry
  { tileCache with
    cache := tileCache.cache.update change (by
      intro entry
      simp only [change]
      split <;> rfl) }

/-!
## What an entry of the cache can be afterwards
-/

theorem mem_ensureCacheSize {tileCache : TileCache} {entry : CacheEntry}
    (member : entry ∈ tileCache.ensureCacheSize.cache) : entry ∈ tileCache.cache := by
  unfold ensureCacheSize at member
  split at member
  · exact member
  · exact (Keyed.mem_filter.mp member).1

/-- After saving, an entry is an old one of another tile, an old one of this tile
with one more blob, or a new one that starts with a keyframe. -/
theorem mem_saveDataToCache {tileCache : TileCache} {desc : TileDesc} {data : List UInt8}
    {entry : CacheEntry} (caching : tileCache.dontCache = false)
    (member : entry ∈ (tileCache.saveDataToCache desc data).2.cache) :
    (entry ∈ tileCache.cache ∧ entry.key ≠ desc.cacheKey) ∨
      (∃ old, (entry.1, old) ∈ tileCache.cache ∧ entry.key = desc.cacheKey ∧
        entry.2 = old.appendBlob desc.wireId data) ∨
      TileData.isKeyframe data = true ∧ entry = (desc, TileData.ofBlob desc.wireId data) := by
  simp only [saveDataToCache, caching, Bool.false_eq_true, ↓reduceIte] at member
  split at member
  · next missing =>
      split at member
      · next keyframe =>
          rcases (Keyed.mem_insert_new missing).mp member with old | rfl
          · exact .inl ⟨mem_ensureCacheSize old, Keyed.find?_none missing old⟩
          · exact .inr (.inr ⟨keyframe, rfl⟩)
      · exact .inl ⟨mem_ensureCacheSize member, Keyed.find?_none missing member⟩
  · obtain ⟨old, oldMember, rfl⟩ := (Keyed.mem_update (key_appendTo desc data)).mp member
    have before := mem_ensureCacheSize oldMember
    unfold appendTo
    split
    · next same => exact .inr (.inl ⟨old.2, before, same, rfl⟩)
    · next other => exact .inl ⟨before, other⟩

theorem cache_forgetTileBeingRendered (tileCache : TileCache) (desc : TileDesc)
    (rendering : TileBeingRendered) :
    (tileCache.forgetTileBeingRendered desc rendering).cache = tileCache.cache := by
  unfold forgetTileBeingRendered
  split <;> rfl

theorem cache_saveTileAndNotify (tileCache : TileCache) (desc : TileDesc) (data : List UInt8)
    (alive : SessionId → Bool) :
    (tileCache.saveTileAndNotify desc data alive).2.cache =
      if data = [] then tileCache.cache else (tileCache.saveDataToCache desc data).2.cache := by
  unfold saveTileAndNotify
  cases tileCache.findTileBeingRendered desc with
  | none => by_cases empty : data = [] <;> simp [empty]
  | some rendering =>
      by_cases empty : data = [] <;> simp [empty, cache_forgetTileBeingRendered]

theorem cache_saveDataToCache_of_dontCache {tileCache : TileCache} (uncached : tileCache.dontCache)
    (desc : TileDesc) (data : List UInt8) :
    (tileCache.saveDataToCache desc data).2 = tileCache := by
  simp [saveDataToCache, uncached]

theorem dontCache_ensureCacheSize (tileCache : TileCache) :
    tileCache.ensureCacheSize.dontCache = tileCache.dontCache := by
  unfold ensureCacheSize
  split <;> rfl

theorem dontCache_saveTileAndNotify (tileCache : TileCache) (desc : TileDesc) (data : List UInt8)
    (alive : SessionId → Bool) :
    (tileCache.saveTileAndNotify desc data alive).2.dontCache = tileCache.dontCache := by
  have forgotten (saved : TileCache) (rendering : TileBeingRendered) :
      (saved.forgetTileBeingRendered desc rendering).dontCache = saved.dontCache := by
    unfold forgetTileBeingRendered
    split <;> rfl
  have stored : (tileCache.saveDataToCache desc data).2.dontCache = tileCache.dontCache := by
    unfold saveDataToCache
    split
    · rfl
    · dsimp only
      split
      · split <;> simp only [dontCache_ensureCacheSize]
      · simp only [dontCache_ensureCacheSize]
  unfold saveTileAndNotify
  cases tileCache.findTileBeingRendered desc with
  | none => by_cases empty : data = [] <;> simp [empty, stored]
  | some rendering => by_cases empty : data = [] <;> simp [empty, forgotten, stored]

end TileCache

end FreeOnline.Wsd
