import Mathlib.Algebra.Order.BigOperators.Group.List
import FreeOnline.Wsd.TileCacheSize

/-!
# What is cleaned out of the tile cache

A full cache loses the tiles of its oldest quarter, counted in bytes, but none that is waited
for. How old a tile is it takes from the wire id in the key, which is the first one of the tile.
-/

set_option autoImplicit false

namespace FreeOnline.Wsd

open FreeOnline.Kit (TileWireId)
open FreeOnline.Library

/-!
## Up to which wire id
-/

/-- What the wire ids below this one hold. -/
def heldBelow (wids : List (TileWireId × Nat)) (wireId : TileWireId) : Nat :=
  ((wids.filter fun wid => wid.1 < wireId).map Prod.snd).sum

theorem heldBelow_cons_of_lt {wid : TileWireId × Nat} {wireId : TileWireId} (older : wid.1 < wireId)
    (wids : List (TileWireId × Nat)) :
    heldBelow (wid :: wids) wireId = wid.2 + heldBelow wids wireId := by
  simp [heldBelow, older]

theorem heldBelow_of_first {wids : List (TileWireId × Nat)} {wireId : TileWireId}
    (first : ∀ wid ∈ wids, wireId ≤ wid.1) : heldBelow wids wireId = 0 := by
  have none : (wids.filter fun wid => wid.1 < wireId) = [] := by
    rw [List.filter_eq_nil_iff]
    intro wid member
    simpa using first wid member
  rw [heldBelow, none]
  rfl

theorem heldBelow_perm {wids others : List (TileWireId × Nat)} (perm : wids.Perm others)
    (wireId : TileWireId) : heldBelow wids wireId = heldBelow others wireId :=
  ((perm.filter _).map _).sum_nat

namespace TileCache

private theorem le_cleanUpTo {limit total : Nat} {bound start : TileWireId}
    {wids : List (TileWireId × Nat)} (first : ∀ wid ∈ wids, bound ≤ wid.1) (begins : bound ≤ start) :
    bound ≤ cleanUpTo limit total start wids := by
  induction wids generalizing total start with
  | nil => exact begins
  | cons wid wids ih =>
      rw [cleanUpTo]
      have here := first wid List.mem_cons_self
      split
      · exact here
      · exact ih (fun other member => first other (List.mem_cons_of_mem _ member)) here

/-- A wire id is reached as long as what is below it is no more than the limit. -/
theorem le_cleanUpTo_iff {limit total : Nat} {start wireId : TileWireId}
    {wids : List (TileWireId × Nat)} (sorted : wids.Pairwise fun left right => left.1 ≤ right.1)
    (within : total ≤ limit) (member : wireId ∈ wids.map Prod.fst) :
    wireId ≤ cleanUpTo limit total start wids ↔ total + heldBelow wids wireId ≤ limit := by
  induction wids generalizing total start with
  | nil => cases member
  | cons wid wids ih =>
      obtain ⟨below, sorted⟩ := List.pairwise_cons.mp sorted
      have oldest : wid.1 ≤ wireId := by
        rcases List.mem_cons.mp member with same | later
        · exact same ▸ UInt32.le_refl _
        · obtain ⟨other, otherMember, rfl⟩ := List.mem_map.mp later
          exact below other otherMember
      cases UInt32.le_iff_lt_or_eq.mp oldest with
      | inl older =>
          have later : wireId ∈ wids.map Prod.fst := by
            rcases List.mem_cons.mp member with rfl | later
            · exact absurd older (UInt32.lt_irrefl _)
            · exact later
          rw [cleanUpTo, heldBelow_cons_of_lt older]
          split
          · next crossed => exact iff_of_false (UInt32.not_le.mpr older) (by omega)
          · next room =>
              rw [ih sorted (by omega) later]
              omega
      | inr same =>
          subst same
          have reached : wid.1 ≤ cleanUpTo limit total start (wid :: wids) := by
            rw [cleanUpTo]
            split
            · exact UInt32.le_refl _
            · exact le_cleanUpTo below (UInt32.le_refl _)
          rw [heldBelow_of_first (List.forall_mem_cons.mpr ⟨UInt32.le_refl _, below⟩)]
          exact iff_of_true reached within

variable (tileCache : TileCache)

/-- The wire ids of the keys, with the sizes of the entries. -/
def widSizes : List (TileWireId × Nat) :=
  tileCache.cache.entries.map fun entry => (entry.1.wireId, itemCacheSize entry.2)

/-- Wire ids that far from each other have wrapped around. -/
def wrapDistance : Nat := 256 * 256 * 256

def WrappedAround : Prop :=
  ∃ entry ∈ tileCache.cache.entries, ∃ other ∈ tileCache.cache.entries,
    entry.1.wireId.toNat + wrapDistance < other.1.wireId.toNat

instance : Decidable tileCache.WrappedAround :=
  inferInstanceAs (Decidable (∃ entry ∈ tileCache.cache.entries, _))

/-- No more than a quarter of what the cache may hold has been there for longer. -/
def InOldQuarter (entry : CacheEntry) : Prop :=
  heldBelow tileCache.widSizes entry.1.wireId ≤ tileCache.maxCacheSize.toNat / 4

instance (entry : CacheEntry) : Decidable (tileCache.InOldQuarter entry) :=
  inferInstanceAs (Decidable (_ ≤ _))

variable {tileCache}

private theorem le_getLast {wids : List (TileWireId × Nat)} {wid : TileWireId × Nat}
    (sorted : wids.Pairwise fun left right => left.1 ≤ right.1) (member : wid ∈ wids) :
    wids.getLastD (0, 0) ∈ wids ∧ wid.1 ≤ (wids.getLastD (0, 0)).1 := by
  obtain rfl | ⟨front, last, rfl⟩ := List.eq_nil_or_concat' wids
  · cases member
  · rw [List.getLastD_concat]
    refine ⟨by simp, ?_⟩
    rcases List.mem_append.mp member with earlier | isLast
    · exact (List.pairwise_append.mp sorted).2.2 wid earlier last (List.mem_singleton_self _)
    · rw [List.mem_singleton.mp isLast]
      exact UInt32.le_refl _

private theorem headD_le {wids : List (TileWireId × Nat)} {wid : TileWireId × Nat}
    (sorted : wids.Pairwise fun left right => left.1 ≤ right.1) (member : wid ∈ wids) :
    wids.headD (0, 0) ∈ wids ∧ (wids.headD (0, 0)).1 ≤ wid.1 := by
  cases wids with
  | nil => cases member
  | cons first wids =>
      refine ⟨List.mem_cons_self, ?_⟩
      rcases List.mem_cons.mp member with rfl | later
      · exact UInt32.le_refl _
      · exact (List.pairwise_cons.mp sorted).1 wid later

/-- Everything goes if the wire ids have wrapped around, and else the oldest quarter. -/
theorem le_maxToRemove_iff {entry : CacheEntry} (member : entry ∈ tileCache.cache) :
    entry.1.wireId ≤ tileCache.maxToRemove ↔
      tileCache.WrappedAround ∨ tileCache.InOldQuarter entry := by
  let wids := tileCache.widSizes.mergeSort fun left right => left.1 ≤ right.1
  have perm : wids.Perm tileCache.widSizes := List.mergeSort_perm _ _
  have sorted : wids.Pairwise fun left right => left.1 ≤ right.1 := by
    refine (List.pairwise_mergeSort ?_ ?_ tileCache.widSizes).imp of_decide_eq_true
    · intro first second third
      simpa using fun older newer => UInt32.le_trans older newer
    · intro first second
      simpa using UInt32.le_total _ _
  have among : ∀ other ∈ tileCache.cache.entries, (other.1.wireId, itemCacheSize other.2) ∈ wids :=
    fun other isOther => perm.mem_iff.mpr (List.mem_map_of_mem isOther)
  have ofEntry : ∀ wid ∈ wids, ∃ other ∈ tileCache.cache.entries, other.1.wireId = wid.1 := by
    intro wid isWid
    obtain ⟨other, isOther, rfl⟩ := List.mem_map.mp (perm.mem_iff.mp isWid)
    exact ⟨other, isOther, rfl⟩
  obtain ⟨frontMember, frontLe⟩ := headD_le sorted (among entry member)
  obtain ⟨backMember, leBack⟩ := le_getLast sorted (among entry member)
  have wraps : (wids.getLastD (0, 0)).1 - (wids.headD (0, 0)).1 > 256 * 256 * 256 ↔
      tileCache.WrappedAround := by
    have distance := UInt32.toNat_sub_of_le _ _ (UInt32.le_trans frontLe leBack)
    rw [gt_iff_lt, UInt32.lt_iff_toNat_lt, distance]
    constructor
    · intro apart
      obtain ⟨oldest, isOldest, first⟩ := ofEntry _ frontMember
      obtain ⟨newest, isNewest, last⟩ := ofEntry _ backMember
      refine ⟨oldest, isOldest, newest, isNewest, ?_⟩
      rw [first, last]
      exact Nat.add_lt_of_lt_sub' apart
    · rintro ⟨older, isOlder, newer, isNewer, apart⟩
      have before := UInt32.le_iff_toNat_le.mp
        (headD_le sorted (among older isOlder)).2
      have behind := UInt32.le_iff_toNat_le.mp
        (le_getLast sorted (among newer isNewer)).2
      have limit : (256 * 256 * 256 : UInt32).toNat = wrapDistance := rfl
      rw [limit]
      dsimp only at before behind
      omega
  have reached : entry.1.wireId ≤
      cleanUpTo (tileCache.maxCacheSize.toNat / 4) 0 (wids.headD (0, 0)).1 wids ↔
      0 + heldBelow wids entry.1.wireId ≤ tileCache.maxCacheSize.toNat / 4 :=
    le_cleanUpTo_iff sorted (Nat.zero_le _)
      (List.mem_map_of_mem (f := Prod.fst) (among entry member))
  rw [heldBelow_perm perm, Nat.zero_add] at reached
  have isMax : tileCache.maxToRemove =
      if (wids.getLastD (0, 0)).1 - (wids.headD (0, 0)).1 > 256 * 256 * 256 then
        (wids.getLastD (0, 0)).1
      else cleanUpTo (tileCache.maxCacheSize.toNat / 4) 0 (wids.headD (0, 0)).1 wids := rfl
  rw [isMax]
  split
  · next apart => exact iff_of_true leBack (.inl (wraps.mp apart))
  · next near =>
      rw [reached]
      exact (or_iff_right (mt wraps.mpr near)).symm

/-!
## Who is cleaned out
-/

variable (tileCache) in
/-- No session waits for the tile. -/
def IsFree (entry : CacheEntry) : Prop :=
  tileCache.findTileBeingRendered entry.1 = none

instance (entry : CacheEntry) : Decidable (tileCache.IsFree entry) :=
  inferInstanceAs (Decidable (_ = _))

variable (tileCache) in
/-- The wire id of the last frame or delta. -/
def lastWireId (entry : CacheEntry) : TileWireId :=
  entry.2.wids.getLastD 0

/-- A larger id that is far away is one from before the ids wrapped around. -/
def UsedNoLater (entry other : CacheEntry) : Prop :=
  lastWireId entry ≤ lastWireId other ∨
    (lastWireId other).toNat + wrapDistance < (lastWireId entry).toNat

instance (entry other : CacheEntry) : Decidable (UsedNoLater entry other) :=
  inferInstanceAs (Decidable (_ ∨ _))

variable (tileCache) in
/-- What the free tiles of the oldest quarter hold. -/
def freeableSize : Nat :=
  ((tileCache.cache.entries.filter fun entry =>
    decide (tileCache.IsFree entry ∧ tileCache.InOldQuarter entry)).map CacheEntry.size).sum

theorem mem_ensureCacheSize_iff (full : tileCache.maxCacheSize ≤ tileCache.cacheSize)
    (several : 2 ≤ tileCache.cache.entries.length) {entry : CacheEntry} :
    entry ∈ tileCache.ensureCacheSize.cache ↔ entry ∈ tileCache.cache ∧
      ¬ (tileCache.IsFree entry ∧ (tileCache.WrappedAround ∨ tileCache.InOldQuarter entry)) := by
  have runs : ¬ (tileCache.cacheSize < tileCache.maxCacheSize ∨
      tileCache.cache.entries.length < 2) := by
    rintro (below | few)
    · exact UInt64.not_le.mpr below full
    · omega
  rw [ensureCacheSize, if_neg runs, Keyed.mem_filter, and_congr_right_iff]
  intro member
  rw [← le_maxToRemove_iff member]
  cases waited : tileCache.findTileBeingRendered entry.1 with
  | none => simp [IsFree, waited]
  | some rendering => simp [IsFree, waited]

theorem ensureCacheSize_of_few (few : tileCache.cache.entries.length < 2) :
    tileCache.ensureCacheSize = tileCache :=
  if_pos (.inr few)

/-- Without a wrap-around the cache gets smaller by what is free in its oldest quarter. -/
theorem contentSize_ensureCacheSize (full : tileCache.maxCacheSize ≤ tileCache.cacheSize)
    (several : 2 ≤ tileCache.cache.entries.length) (near : ¬ tileCache.WrappedAround) :
    tileCache.freeableSize + tileCache.ensureCacheSize.contentSize = tileCache.contentSize := by
  have runs : ¬ (tileCache.cacheSize < tileCache.maxCacheSize ∨
      tileCache.cache.entries.length < 2) := by
    rintro (below | few)
    · exact UInt64.not_le.mpr below full
    · omega
  have cleaned : ∀ entry ∈ tileCache.cache.entries,
      (decide (entry.1.wireId ≤ tileCache.maxToRemove) &&
        (tileCache.findTileBeingRendered entry.1).isNone) =
      decide (tileCache.IsFree entry ∧ tileCache.InOldQuarter entry) := by
    intro entry member
    have cached : entry ∈ tileCache.cache := member
    have reached := le_maxToRemove_iff cached
    rw [or_iff_right near] at reached
    cases waited : tileCache.findTileBeingRendered entry.1 with
    | none => simp [IsFree, reached, waited]
    | some rendering => simp [IsFree, waited]
  have split : _ = tileCache.cache.sum CacheEntry.size := tileCache.cache.sum_filter fun entry =>
    decide (entry.1.wireId ≤ tileCache.maxToRemove) &&
      (tileCache.findTileBeingRendered entry.1).isNone
  rw [List.filter_congr cleaned] at split
  rw [freeableSize, contentSize, contentSize, ensureCacheSize, if_neg runs]
  exact split

/-!
## The oldest go
-/

variable (tileCache) in
/-- What is expected of the cleaning: it makes room or leaves nothing that it could clean out (a
lone entry is never), it spares what is waited for, and it takes the oldest first. -/
structure EvictsOldest : Prop where
  makesRoom : tileCache.cache.entries.length < 2 ∨
    tileCache.ensureCacheSize.contentSize + tileCache.maxCacheSize.toNat / 4 <
      tileCache.contentSize ∨
    ∀ entry ∈ tileCache.ensureCacheSize.cache, ¬ tileCache.IsFree entry
  sparesRendered : ∀ entry ∈ tileCache.cache, ¬ tileCache.IsFree entry →
    entry ∈ tileCache.ensureCacheSize.cache
  oldestFirst : ∀ entry ∈ tileCache.cache, entry ∉ tileCache.ensureCacheSize.cache →
    ∀ other ∈ tileCache.ensureCacheSize.cache, tileCache.IsFree other → UsedNoLater entry other

variable (tileCache) in
/-- The oldest quarter has enough that is free, or nothing is free but it, and no free tile of it
was used later than another free one. -/
def QuarterIsOldest : Prop :=
  (tileCache.maxCacheSize.toNat / 4 < tileCache.freeableSize ∨
      ∀ entry ∈ tileCache.cache.entries, tileCache.IsFree entry → tileCache.InOldQuarter entry) ∧
    ∀ entry ∈ tileCache.cache.entries, tileCache.IsFree entry → tileCache.InOldQuarter entry →
      ∀ other ∈ tileCache.cache.entries, tileCache.IsFree other → ¬ tileCache.InOldQuarter other →
        UsedNoLater entry other

instance : Decidable tileCache.QuarterIsOldest :=
  inferInstanceAs (Decidable ((_ ∨ _) ∧ _))

theorem EvictsOldest.of_few (few : tileCache.cache.entries.length < 2) : EvictsOldest tileCache := by
  have kept : ∀ entry ∈ tileCache.cache, entry ∈ tileCache.ensureCacheSize.cache := by
    intro entry member
    rwa [ensureCacheSize_of_few few]
  exact ⟨.inl few, fun entry member _ => kept entry member,
    fun entry member gone => absurd (kept entry member) gone⟩

section

variable (full : tileCache.maxCacheSize ≤ tileCache.cacheSize)
  (several : 2 ≤ tileCache.cache.entries.length)

include full several

theorem EvictsOldest.of_wrappedAround (wrapped : tileCache.WrappedAround) :
    EvictsOldest tileCache := by
  have kept := @mem_ensureCacheSize_iff tileCache full several
  refine ⟨.inr (.inr ?_), ?_, ?_⟩
  · intro entry member isFree
    exact (kept.mp member).2 ⟨isFree, .inl wrapped⟩
  · intro entry member waited
    exact kept.mpr ⟨member, fun cleaned => waited cleaned.1⟩
  · intro entry _ _ other otherMember isFree
    exact absurd ⟨isFree, .inl wrapped⟩ (kept.mp otherMember).2

theorem evictsOldest_iff_quarter (near : ¬ tileCache.WrappedAround) :
    EvictsOldest tileCache ↔ tileCache.QuarterIsOldest := by
  have kept := @mem_ensureCacheSize_iff tileCache full several
  have sizes := contentSize_ensureCacheSize full several near
  simp only [or_iff_right near] at kept
  constructor
  · rintro ⟨makesRoom, -, oldestFirst⟩
    refine ⟨?_, ?_⟩
    · rcases makesRoom with few | enough | allWaited
      · omega
      · exact .inl (by omega)
      · refine .inr fun entry member isFree => ?_
        by_contra young
        exact allWaited entry (kept.mpr ⟨member, fun cleaned => young cleaned.2⟩) isFree
    · intro entry member isFree old other otherMember otherFree young
      exact oldestFirst entry member (fun stays => (kept.mp stays).2 ⟨isFree, old⟩) other
        (kept.mpr ⟨otherMember, fun cleaned => young cleaned.2⟩) otherFree
  · rintro ⟨enough, oldest⟩
    refine ⟨.inr ?_, ?_, ?_⟩
    · rcases enough with enough | allOld
      · exact .inl (by omega)
      · refine .inr fun entry member isFree => ?_
        obtain ⟨before, notCleaned⟩ := kept.mp member
        exact notCleaned ⟨isFree, allOld entry before isFree⟩
    · intro entry member waited
      exact kept.mpr ⟨member, fun cleaned => waited cleaned.1⟩
    · intro entry member gone other otherMember otherFree
      obtain ⟨before, notCleaned⟩ := kept.mp otherMember
      have cleaned : tileCache.IsFree entry ∧ tileCache.InOldQuarter entry := by
        by_contra stays
        exact gone (kept.mpr ⟨member, stays⟩)
      exact oldest entry member cleaned.1 cleaned.2 other before otherFree
        fun old => notCleaned ⟨otherFree, old⟩

end

/-- A full cache is cleaned as expected exactly if it has one tile only, or its wire ids have
wrapped around, or its oldest quarter has enough that is free and is the oldest by its last
wire ids as well. -/
theorem evictsOldest_iff (full : tileCache.maxCacheSize < tileCache.cacheSize) :
    EvictsOldest tileCache ↔ tileCache.cache.entries.length < 2 ∨ tileCache.WrappedAround ∨
      tileCache.QuarterIsOldest := by
  have full := UInt64.le_of_lt full
  by_cases few : tileCache.cache.entries.length < 2
  · exact iff_of_true (.of_few few) (.inl few)
  · rw [or_iff_right few]
    have several : 2 ≤ tileCache.cache.entries.length := Nat.not_lt.mp few
    by_cases wrapped : tileCache.WrappedAround
    · exact iff_of_true (.of_wrappedAround full several wrapped) (.inl wrapped)
    · rw [or_iff_right wrapped]
      exact evictsOldest_iff_quarter full several wrapped

/-- The tile in that row, as the kit answers with it. -/
def rowTile (row : Nat) (wireId : TileWireId) : TileDesc where
  normalizedViewId := 0
  part := 0
  mode := 0
  width := 256
  height := 256
  tilePosX := 0
  tilePosY := 3840 * row
  tileWidth := 3840
  tileHeight := 3840
  ver := -1
  imgSize := 0
  id := -1
  broadcast := false
  oldWireId := 0
  wireId := wireId
  valid := ⟨by decide, by decide, by decide, by decide, by decide, by decide,
    Int.mul_nonneg (by decide) (Int.natCast_nonneg row), by decide, by decide, by decide⟩

def keyframe (row : Nat) (wireId : TileWireId) : CacheHistory.Event :=
  .saveTileAndNotify (rowTile row wireId) [90, 1, 2, 3] fun _ => true

def delta (row : Nat) (wireId : TileWireId) : CacheHistory.Event :=
  .saveTileAndNotify (rowTile row wireId) [68, 4] fun _ => true

/-- The cache after these events, when its maximum size becomes this one. -/
def resized (events : List CacheHistory.Event) (maxCacheSize : UInt64) : TileCache :=
  { (run CacheHistory.step CacheHistory.initial events).tileCache with maxCacheSize }

theorem evictsOldest_twoRows :
    100 < (resized [keyframe 0 1, keyframe 1 2] 100).cacheSize ∧
      EvictsOldest (resized [keyframe 0 1, keyframe 1 2] 100) :=
  ⟨by decide, (evictsOldest_iff (by decide)).mpr (.inr (.inr (by decide)))⟩

/-- A tile that just got a delta goes before one that has not changed since; and where the oldest
tile is waited for no room is made. -/
theorem not_evictsOldest :
    (100 < (resized [keyframe 0 1, keyframe 1 2, delta 0 3] 100).cacheSize ∧
      ¬ EvictsOldest (resized [keyframe 0 1, keyframe 1 2, delta 0 3] 100)) ∧
    100 < (resized [keyframe 0 1, keyframe 1 2,
        .subscribeToTileRendering (rowTile 0 0) 7 0] 100).cacheSize ∧
      ¬ EvictsOldest (resized [keyframe 0 1, keyframe 1 2,
        .subscribeToTileRendering (rowTile 0 0) 7 0] 100) := by
  refine ⟨⟨by decide, fun evicts => ?_⟩, by decide, fun evicts => ?_⟩
  · have oldest := (evictsOldest_iff_quarter (by decide) (by decide) (by decide)).mp evicts
    revert oldest
    decide
  · have oldest := (evictsOldest_iff_quarter (by decide) (by decide) (by decide)).mp evicts
    revert oldest
    decide

end TileCache

end FreeOnline.Wsd
