import Mathlib.Logic.Function.Basic
import FreeOnline.Kit.RenderTiles
import FreeOnline.Library.Run
import FreeOnline.Wsd.TileCache

/-!
# Delta chains from the kit to the tile cache

The kit renders tiles and keeps their bitmaps under a location; wsd receives the
results in order and stores them under a cache key. The two maps, and the
responses between them, are related by what was last rendered for each key.
-/

set_option autoImplicit false

namespace FreeOnline.Tiles

open FreeOnline.Browser FreeOnline.Kit FreeOnline.Library FreeOnline.Wsd

/-!
## The system
-/

inductive Rendering where
  | tile (bitmap : Bitmap)
  | preview (png : List UInt8)

structure Response where
  desc : TileDesc
  data : List UInt8
  combined : Bool
  rendering : Rendering

def Response.key (response : Response) : TileKey :=
  response.desc.cacheKey

/-- Both processes. `rendered` and `owner` are history: what was last received
for a key, and the key whose last rendering is the one kept at a location. -/
structure ChainState where
  generator : DeltaGenerator
  nextId : TileWireId
  inFlight : List Response
  tileCache : TileCache
  rendered : TileKey → Option Rendering
  owner : TileLocation → Option TileKey

def ChainState.initial (maxEntries : Nat) (dontCache : Bool) : ChainState where
  generator := ⟨.empty, maxEntries⟩
  nextId := 0
  inFlight := []
  tileCache := .initial dontCache
  rendered := fun _ => none
  owner := fun _ => none

inductive ChainEvent where
  /-- The kit renders a tile of a request, combined or not. -/
  | render (desc : TileDesc) (region : TileRegion) (combined : Bool)
      (size : (region.width : Int) = desc.width ∧ (region.height : Int) = desc.height)
  /-- wsd handles the next response. -/
  | receive (alive : SessionId → Bool)
  | rebalanceDeltas (limit : Int)
  | dropCache
  | clear
  | setMaxCacheSize (cacheSize : UInt64)
  | invalidateTiles (part mode x y width height normalizedViewId : Int)
  | subscribe (tile : TileDesc) (subscriber : SessionId) (now : Nat)
  | cancelTiles (subscriber : SessionId)

/-- Who owns the location afterwards: a tile of even width is kept there. Any
other rendering of the owner leaves the kept bitmap behind. -/
def ownerAfter (owner : TileLocation → Option TileKey) (desc : TileDesc) (kept : Bool) :
    TileLocation → Option TileKey :=
  let loc := TileLocation.ofDesc desc
  if kept then Function.update owner loc (some desc.cacheKey)
  else if owner loc = some desc.cacheKey then Function.update owner loc none
  else owner

def renderStep (zstd : Zstd) (png : TileRegion → Option (List UInt8)) (state : ChainState)
    (desc : TileDesc) (region : TileRegion) (combined : Bool) : ChainState :=
  let wireId := state.nextId + 1
  match renderTile zstd png state.generator wireId desc region with
  | (none, generator) => { state with generator := generator, nextId := wireId }
  | (some data, generator) =>
      { state with
        generator := generator
        nextId := wireId
        inFlight := state.inFlight ++
          [{ desc := desc.asRendered wireId data.length
             data := data
             combined := combined
             rendering := if desc.id < 0 then .tile region.bitmap else .preview data }]
        owner := ownerAfter state.owner desc
          (decide (desc.id < 0) && decide (region.width % 2 = 0)) }

/-- `handleTileResponse` drops empty responses, `handleTileCombinedResponse` lets
them free the waiting subscribers. -/
def handleTileResponse (tileCache : TileCache) (response : Response) (alive : SessionId → Bool) :
    TileCache :=
  if response.combined = false ∧ response.data = [] then tileCache
  else (tileCache.saveTileAndNotify response.desc response.data alive).2

def arrive (rendered : TileKey → Option Rendering) (response : Response) :
    TileKey → Option Rendering :=
  Function.update rendered response.key (some response.rendering)

def receiveStep (state : ChainState) (alive : SessionId → Bool) : ChainState :=
  match state.inFlight with
  | [] => state
  | response :: inFlight =>
      { state with
        inFlight := inFlight
        tileCache := handleTileResponse state.tileCache response alive
        rendered := arrive state.rendered response }

def chainStep (zstd : Zstd) (png : TileRegion → Option (List UInt8)) (state : ChainState) :
    ChainEvent → ChainState
  | .render desc region combined _ => renderStep zstd png state desc region combined
  | .receive alive => receiveStep state alive
  | .rebalanceDeltas limit => { state with generator := state.generator.rebalanceDeltas limit }
  | .dropCache => { state with generator := state.generator.dropCache }
  | .clear => { state with tileCache := state.tileCache.clear }
  | .setMaxCacheSize cacheSize =>
      { state with tileCache := state.tileCache.setMaxCacheSize cacheSize }
  | .invalidateTiles part mode x y width height normalizedViewId =>
      { state with
        tileCache :=
          state.tileCache.invalidateTiles part mode x y width height normalizedViewId }
  | .subscribe tile subscriber now =>
      { state with tileCache := state.tileCache.subscribeToTileRendering tile subscriber now }
  | .cancelTiles subscriber =>
      { state with tileCache := (state.tileCache.cancelTiles subscriber).2 }

/-!
## What is claimed of the cache, and when it holds
-/

def decodeTile (zstd : Zstd) (desc : TileDesc) (tile : TileData) : Option (List UInt8) :=
  (zstd.decompress tile.deltas).map (applyKeyframe desc.width.toNat desc.height.toNat)

/-- The entry shows what was last rendered for its key: the bitmap, or the PNG
without its first byte. -/
def ShowsLast (zstd : Zstd) (rendered : TileKey → Option Rendering) (entry : CacheEntry) : Prop :=
  match rendered entry.key with
  | some (.tile bitmap) => decodeTile zstd entry.1 entry.2 = some bitmap.image
  | some (.preview png) => entry.2.deltas = png.tail
  | none => False

instance (zstd : Zstd) (rendered : TileKey → Option Rendering) (entry : CacheEntry) :
    Decidable (ShowsLast zstd rendered entry) := by
  unfold ShowsLast
  split <;> infer_instance

/-- A delta request is served well by the kept bitmap of the same size: it is
the last rendering of the same key, small enough for the byte-sized operands,
and no copied row crosses its end. -/
def GoodBase (state : ChainState) (desc : TileDesc) (region : TileRegion) (prev : DeltaData) :
    Prop :=
  prev.width = region.width → prev.height = region.height →
    state.owner prev.loc = some desc.cacheKey ∧ region.width ≤ 256 ∧ region.height ≤ 256 ∧
      ∀ even, ∀ y < region.height,
        ¬ CrossesEnd prev (region.kept (state.nextId + 1) prev.loc even) y

def ChainSafe (state : ChainState) : ChainEvent → Prop
  | .render desc region _ _ =>
      desc.id < 0 → desc.oldWireId ≠ 0 → region.width % 2 = 0 →
        ∀ prev ∈ state.generator.deltaEntries.find? (TileLocation.ofDesc desc),
          GoodBase state desc region prev
  | _ => True

instance (state : ChainState) (desc : TileDesc) (region : TileRegion) (prev : DeltaData) :
    Decidable (GoodBase state desc region prev) := by
  unfold GoodBase
  infer_instance

instance (state : ChainState) (event : ChainEvent) : Decidable (ChainSafe state event) := by
  cases event <;> unfold ChainSafe <;> infer_instance

/-!
## The joint invariant
-/

/-- The data so far decompresses to a keyframe and deltas that end in the bitmap,
from where further deltas go on. -/
def ShowsBitmap (zstd : Zstd) (tile : TileData) (bitmap : Bitmap) : Prop :=
  ∃ raw, zstd.Stores tile.deltas raw ∧
    ∀ more, applyKeyframe bitmap.width bitmap.height (raw ++ more) =
      applyDeltas bitmap.width more.length more bitmap.image

def Shows (zstd : Zstd) (tile : TileData) : Rendering → Prop
  | .tile bitmap => ShowsBitmap zstd tile bitmap
  | .preview png => tile.deltas = png.tail

def Rendering.Fits (rendering : Rendering) (key : TileKey) : Prop :=
  match rendering with
  | .tile bitmap => (bitmap.width : Int) = key.width ∧ (bitmap.height : Int) = key.height
  | .preview _ => True

/-- The data leads from the rendering before it to its own: it is a keyframe, a
delta, or empty because nothing changed. -/
inductive Extends (zstd : Zstd) : Option Rendering → List UInt8 → Rendering → Prop where
  | png {before : Option Rendering} {png : List UInt8} (signed : TileData.isKeyframe png = true) :
      Extends zstd before png (.preview png)
  | keyframe {before : Option Rendering} {bitmap : Bitmap} {frame : List UInt8}
      (stores : zstd.Stores frame bitmap.image) :
      Extends zstd before (90 :: frame) (.tile bitmap)
  | unchanged {old bitmap : Bitmap} (sameWidth : old.width = bitmap.width)
      (sameHeight : old.height = bitmap.height) (same : old.image = bitmap.image) :
      Extends zstd (some (.tile old)) [] (.tile bitmap)
  | delta {old bitmap : Bitmap} {compressed delta : List UInt8} (sameWidth : old.width = bitmap.width)
      (sameHeight : old.height = bitmap.height) (stores : zstd.Stores compressed delta)
      (nonempty : delta ≠ [])
      (decodes : DecodesTo bitmap.width bitmap.height old.image bitmap.image delta) :
      Extends zstd (some (.tile old)) (68 :: compressed) (.tile bitmap)

def Linked (zstd : Zstd) : (TileKey → Option Rendering) → List Response → Prop
  | _, [] => True
  | rendered, response :: inFlight =>
      Extends zstd (rendered response.key) response.data response.rendering ∧
        response.rendering.Fits response.key ∧ Linked zstd (arrive rendered response) inFlight

/-- What will have been rendered once everything in flight has arrived. -/
def ChainState.latest (state : ChainState) : TileKey → Option Rendering :=
  state.inFlight.foldl arrive state.rendered

def KeepsLast (latest : TileKey → Option Rendering) (owner : TileLocation → Option TileKey)
    (entry : DeltaData) : Prop :=
  ∀ key, owner entry.loc = some key → ∃ bitmap, latest key = some (.tile bitmap) ∧
    entry.image = bitmap.image ∧ entry.width = bitmap.width ∧ entry.height = bitmap.height

def keyLocation (key : TileKey) : TileLocation where
  left := key.tilePosX
  top := key.tilePosY
  size := key.tileWidth
  part := key.part
  canonicalViewId := key.normalizedViewId

structure ChainInvariant (zstd : Zstd) (state : ChainState) : Prop where
  cached : ∀ entry ∈ state.tileCache.cache, ∃ rendering,
    state.rendered entry.key = some rendering ∧ rendering.Fits entry.key ∧
      Shows zstd entry.2 rendering
  uncached : state.tileCache.dontCache = true → ∀ entry, entry ∉ state.tileCache.cache
  linked : Linked zstd state.rendered state.inFlight
  kept : ∀ entry ∈ state.generator.deltaEntries, KeepsLast state.latest state.owner entry
  owned : ∀ loc key, state.owner loc = some key → loc = keyLocation key

/-!
## Storing a response
-/

section Storing

variable {zstd : Zstd} {before : Option Rendering} {data : List UInt8} {rendering : Rendering}

theorem Shows.congr {tile other : TileData} (same : tile.deltas = other.deltas)
    (shown : Shows zstd tile rendering) : Shows zstd other rendering := by
  cases rendering with
  | tile bitmap => simpa only [Shows, ShowsBitmap, same] using shown
  | preview png => simpa only [Shows, same] using shown

theorem Extends.shows_keyframe (extended : Extends zstd before data rendering)
    (keyframe : TileData.isKeyframe data = true) (tile : TileData) (id : TileWireId) :
    Shows zstd (tile.appendBlob id data) rendering := by
  have deltas : (tile.appendBlob id data).deltas = data.tail := by
    simpa using (tile.holds_keyframe id keyframe).deltas
  cases extended with
  | png signed => exact deltas
  | @keyframe _ bitmap frame stores =>
      refine ⟨bitmap.image, ?_, fun more => applyKeyframe_append _ _ more bitmap.length_image⟩
      rw [deltas]
      exact stores
  | unchanged => simp [TileData.isKeyframe] at keyframe
  | delta => simp [TileData.isKeyframe] at keyframe

theorem Extends.shows_append (extended : Extends zstd before data rendering) {tile : TileData}
    {old : Rendering} (last : before = some old) (shown : Shows zstd tile old)
    (nonempty : data ≠ []) (id : TileWireId) :
    Shows zstd (tile.appendBlob id data) rendering := by
  by_cases keyframe : TileData.isKeyframe data = true
  · exact extended.shows_keyframe keyframe tile id
  · cases extended with
    | png signed => exact absurd signed keyframe
    | keyframe => simp [TileData.isKeyframe] at keyframe
    | unchanged => exact absurd rfl nonempty
    | @delta oldBitmap bitmap compressed delta sameWidth sameHeight stores deltaNonempty decodes =>
        cases last
        obtain ⟨raw, storesRaw, image⟩ := shown
        refine ⟨raw ++ delta, ?_, fun more => ?_⟩
        · have deltas : (tile.appendBlob id (68 :: compressed)).deltas =
              tile.deltas ++ compressed := by
            simp [TileData.appendBlob, TileData.isKeyframe]
          rw [deltas]
          exact storesRaw.append stores
        · obtain ⟨newImage, consumed, -⟩ := decodes more
          rw [List.append_assoc, ← sameWidth, ← sameHeight, image]
          rw [← sameWidth] at newImage consumed
          exact applyDeltas_append _ deltaNonempty more newImage consumed

theorem Extends.shows_unchanged (extended : Extends zstd before [] rendering) {tile : TileData}
    {old : Rendering} (last : before = some old) (shown : Shows zstd tile old) :
    Shows zstd tile rendering := by
  cases extended with
  | png signed => simp [TileData.isKeyframe] at signed
  | @unchanged oldBitmap bitmap sameWidth sameHeight same =>
      cases last
      simpa only [Shows, ShowsBitmap, sameWidth, sameHeight, same] using shown

end Storing

theorem arrive_same (rendered : TileKey → Option Rendering) (response : Response) :
    arrive rendered response response.key = some response.rendering := by
  simp [arrive]

theorem arrive_other (rendered : TileKey → Option Rendering) (response : Response) {key : TileKey}
    (other : key ≠ response.key) : arrive rendered response key = rendered key := by
  simp [arrive, other]

theorem Linked.append {zstd : Zstd} {rendered : TileKey → Option Rendering}
    {inFlight : List Response} (linked : Linked zstd rendered inFlight) {response : Response}
    (extended : Extends zstd (inFlight.foldl arrive rendered response.key) response.data
      response.rendering)
    (fits : response.rendering.Fits response.key) :
    Linked zstd rendered (inFlight ++ [response]) := by
  induction inFlight generalizing rendered with
  | nil => exact ⟨extended, fits, trivial⟩
  | cons first inFlight ih =>
      obtain ⟨firstExtended, firstFits, rest⟩ := linked
      exact ⟨firstExtended, firstFits, ih rest extended⟩

/-!
## One step
-/

section Steps

variable {zstd : Zstd} {state : ChainState}

theorem ChainInvariant.with_cache (invariant : ChainInvariant zstd state) {tileCache : TileCache}
    (same : ∀ entry ∈ tileCache.cache, ∃ old ∈ state.tileCache.cache,
      CacheEntry.key old = CacheEntry.key entry ∧ old.2.deltas = entry.2.deltas)
    (dontCache : tileCache.dontCache = state.tileCache.dontCache) :
    ChainInvariant zstd { state with tileCache := tileCache } where
  cached := by
    intro entry member
    obtain ⟨old, oldMember, sameKey, sameDeltas⟩ := same entry member
    obtain ⟨rendering, last, fits, shown⟩ := invariant.cached old oldMember
    rw [sameKey] at last fits
    exact ⟨rendering, last, fits, shown.congr sameDeltas⟩
  uncached := by
    intro off entry member
    obtain ⟨old, oldMember, -⟩ := same entry member
    exact invariant.uncached (dontCache ▸ off) old oldMember
  linked := invariant.linked
  kept := invariant.kept
  owned := invariant.owned

theorem ChainInvariant.with_generator (invariant : ChainInvariant zstd state)
    {generator : DeltaGenerator}
    (fewer : ∀ entry ∈ generator.deltaEntries, entry ∈ state.generator.deltaEntries) :
    ChainInvariant zstd { state with generator := generator } where
  cached := invariant.cached
  uncached := invariant.uncached
  linked := invariant.linked
  kept := fun entry member => invariant.kept entry (fewer entry member)
  owned := invariant.owned

theorem ChainInvariant.with_nextId (invariant : ChainInvariant zstd state) (nextId : TileWireId) :
    ChainInvariant zstd { state with nextId := nextId } :=
  ⟨invariant.cached, invariant.uncached, invariant.linked, invariant.kept, invariant.owned⟩

/-- An entry after the response was stored: it shows the response, or it belongs
to another key and is as before. -/
theorem mem_handleTileResponse {response : Response} {alive : SessionId → Bool}
    (invariant : ChainInvariant zstd state)
    (extended : Extends zstd (state.rendered response.key) response.data response.rendering)
    {entry : CacheEntry} (member : entry ∈ (handleTileResponse state.tileCache response alive).cache) :
    (entry ∈ state.tileCache.cache ∧ entry.key ≠ response.key) ∨
      entry.key = response.key ∧ Shows zstd entry.2 response.rendering ∧
        state.tileCache.dontCache = false := by
  have unsaved (empty : response.data = []) (old : entry ∈ state.tileCache.cache) :
      (entry ∈ state.tileCache.cache ∧ entry.key ≠ response.key) ∨
        entry.key = response.key ∧ Shows zstd entry.2 response.rendering ∧
          state.tileCache.dontCache = false := by
    by_cases same : entry.key = response.key
    · obtain ⟨rendering, last, -, shown⟩ := invariant.cached entry old
      have caching : state.tileCache.dontCache = false :=
        Bool.eq_false_iff.mpr fun off => invariant.uncached off entry old
      rw [empty] at extended
      exact .inr ⟨same, extended.shows_unchanged (same ▸ last) shown, caching⟩
    · exact .inl ⟨old, same⟩
  unfold handleTileResponse at member
  split at member
  · next dropped => exact unsaved dropped.2 member
  · rw [TileCache.cache_saveTileAndNotify] at member
    split at member
    · next empty => exact unsaved empty member
    · next nonempty =>
        cases caching : state.tileCache.dontCache with
        | true =>
            rw [TileCache.cache_saveDataToCache_of_dontCache caching] at member
            exact absurd member (invariant.uncached caching entry)
        | false =>
            rcases TileCache.mem_saveDataToCache caching member with
              other | ⟨old, oldMember, same, appended⟩ | ⟨keyframe, rfl⟩
            · exact .inl other
            · obtain ⟨rendering, last, -, shown⟩ := invariant.cached _ oldMember
              have known : state.rendered response.key = some rendering := by
                rw [← last, show response.key = entry.key from same.symm]
                rfl
              refine .inr ⟨same, ?_, rfl⟩
              rw [appended]
              exact extended.shows_append known shown nonempty _
            · exact .inr ⟨rfl, extended.shows_keyframe keyframe _ _, rfl⟩

theorem ChainInvariant.receive (invariant : ChainInvariant zstd state)
    (alive : SessionId → Bool) : ChainInvariant zstd (receiveStep state alive) := by
  unfold receiveStep
  cases arrived : state.inFlight with
  | nil => exact invariant
  | cons response inFlight =>
      have linked := invariant.linked
      rw [arrived] at linked
      obtain ⟨extended, fits, rest⟩ := linked
      have dontCache : (handleTileResponse state.tileCache response alive).dontCache =
          state.tileCache.dontCache := by
        unfold handleTileResponse
        split
        · rfl
        · exact TileCache.dontCache_saveTileAndNotify _ _ _ _
      have latest : state.latest = inFlight.foldl arrive (arrive state.rendered response) := by
        rw [ChainState.latest, arrived, List.foldl_cons]
      dsimp only
      refine ⟨?_, ?_, rest, ?_, invariant.owned⟩
      · intro entry member
        rcases mem_handleTileResponse invariant extended member with
          ⟨old, other⟩ | ⟨same, shown, -⟩
        · obtain ⟨rendering, last, oldFits, shown⟩ := invariant.cached entry old
          exact ⟨rendering, by rw [← last]; exact arrive_other _ _ other, oldFits, shown⟩
        · exact ⟨response.rendering, same ▸ arrive_same _ _, same ▸ fits, shown⟩
      · intro off entry member
        rw [dontCache] at off
        rcases mem_handleTileResponse invariant extended member with ⟨old, -⟩ | ⟨-, -, caching⟩
        · exact invariant.uncached off entry old
        · rw [off] at caching
          cases caching
      · intro entry member
        have keeps := invariant.kept entry member
        rw [latest] at keeps
        exact keeps

/-!
### Rendering
-/

def PngSigned (png : TileRegion → Option (List UInt8)) : Prop :=
  ∀ region data, png region = some data → data.head? = some 0x89

theorem extends_delta (lossless : zstd.Lossless) (invariant : ChainInvariant zstd state)
    {desc : TileDesc} {region : TileRegion} {data : List UInt8} {prev : DeltaData}
    (made : MadeDelta zstd state.generator region (TileLocation.ofDesc desc) (state.nextId + 1)
      data prev)
    (good : GoodBase state desc region prev) :
    Extends zstd (state.latest desc.cacheKey) data (.tile region.bitmap) := by
  obtain ⟨even, found, emitted⟩ := made
  obtain ⟨member, atLoc⟩ := Keyed.find?_some found
  let cur := region.kept (state.nextId + 1) (TileLocation.ofDesc desc) even
  have sizes : prev.width = cur.width ∧ prev.height = cur.height := by
    unfold makeDelta at emitted
    split at emitted
    · cases emitted
    · next same => simpa [cur] using same
  obtain ⟨sameWidth, sameHeight⟩ := sizes
  have widthEq : cur.width = region.width := rfl
  have heightEq : cur.height = region.height := rfl
  obtain ⟨owner, widthSmall, heightSmall, crossings⟩ :=
    good (sameWidth.trans widthEq) (sameHeight.trans heightEq)
  have free : ∀ y < prev.height, ¬ CrossesEnd prev cur y := by
    intro y inside
    have crossing := crossings even y (by omega)
    rw [atLoc] at crossing
    exact crossing
  obtain ⟨old, last, oldImage, oldWidth, oldHeight⟩ := invariant.kept prev member _ owner
  have image : cur.image = region.bitmap.image := DeltaData.image_ofBitmap _ _ _ _
  have bitmapWidth : old.width = region.bitmap.width := oldWidth.symm.trans sameWidth
  have bitmapHeight : old.height = region.bitmap.height := oldHeight.symm.trans sameHeight
  rw [last]
  rcases makeDelta_cases lossless sameWidth sameHeight with
    ⟨unchanged, nothing⟩ | ⟨compressed, made, stores⟩
  · obtain rfl : data = [] := by simpa [cur] using emitted.symm.trans nothing
    refine .unchanged bitmapWidth bitmapHeight ?_
    rw [← oldImage, ← image]
    exact image_eq_of_unchanged sameWidth sameHeight (by omega) (by omega) free unchanged
  · obtain rfl : data = 68 :: compressed := by simpa [cur] using emitted.symm.trans made
    refine .delta bitmapWidth bitmapHeight stores (by simp) ?_
    rw [← bitmapWidth, ← bitmapHeight, ← oldWidth, ← oldHeight, ← oldImage, ← image]
    exact deltaRows_decodesTo sameWidth sameHeight (by omega) (by omega) free

theorem ownerAfter_kept (owner : TileLocation → Option TileKey) (desc : TileDesc) :
    ownerAfter owner desc true =
      Function.update owner (TileLocation.ofDesc desc) (some desc.cacheKey) := by
  simp [ownerAfter]

theorem ownerAfter_dropped {owner : TileLocation → Option TileKey} {desc : TileDesc}
    (owned : ∀ loc key, owner loc = some key → loc = keyLocation key) {loc : TileLocation}
    {key : TileKey} (after : ownerAfter owner desc false loc = some key) :
    owner loc = some key ∧ key ≠ desc.cacheKey := by
  simp only [ownerAfter, Bool.false_eq_true, ↓reduceIte] at after
  split at after
  · next clears =>
      by_cases here : loc = TileLocation.ofDesc desc
      · simp [here] at after
      · rw [Function.update_of_ne here] at after
        refine ⟨after, ?_⟩
        rintro rfl
        exact here (owned _ _ after)
  · next stays =>
      refine ⟨after, ?_⟩
      rintro rfl
      rw [owned _ _ after] at after
      exact stays after

/-- Both kinds of rendering, once the data is known to extend what was there. -/
theorem ChainInvariant.push (invariant : ChainInvariant zstd state) {generator : DeltaGenerator}
    {response : Response} {kept : Bool} (desc : TileDesc) (sameKey : response.key = desc.cacheKey)
    (nextId : TileWireId)
    (extended : Extends zstd (state.latest response.key) response.data response.rendering)
    (fits : response.rendering.Fits response.key)
    (entries : ∀ entry ∈ generator.deltaEntries, if kept = true then
      (entry ∈ state.generator.deltaEntries ∧ entry.loc ≠ TileLocation.ofDesc desc) ∨
        (entry.loc = TileLocation.ofDesc desc ∧ ∃ bitmap, response.rendering = .tile bitmap ∧
          entry.image = bitmap.image ∧ entry.width = bitmap.width ∧ entry.height = bitmap.height)
      else entry ∈ state.generator.deltaEntries) :
    ChainInvariant zstd { state with
      generator := generator
      nextId := nextId
      inFlight := state.inFlight ++ [response]
      owner := ownerAfter state.owner desc kept } := by
  have latest (key : TileKey) : (state.inFlight ++ [response]).foldl arrive state.rendered key =
      arrive state.latest response key := by
    rw [List.foldl_append]
    rfl
  have keepsOld {entry : DeltaData} (old : entry ∈ state.generator.deltaEntries) {key : TileKey}
      (owner : state.owner entry.loc = some key) (other : key ≠ desc.cacheKey) :
      ∃ bitmap, arrive state.latest response key = some (.tile bitmap) ∧
        entry.image = bitmap.image ∧ entry.width = bitmap.width ∧ entry.height = bitmap.height := by
    rw [arrive_other _ _ (sameKey ▸ other)]
    exact invariant.kept entry old key owner
  refine ⟨invariant.cached, invariant.uncached, invariant.linked.append extended fits, ?_, ?_⟩
  · intro entry member key owner
    have before := entries entry member
    simp only [ChainState.latest, latest]
    cases kept with
    | false =>
        obtain ⟨oldOwner, other⟩ := ownerAfter_dropped invariant.owned owner
        exact keepsOld before oldOwner other
    | true =>
        simp only [ownerAfter_kept] at owner
        rcases before with ⟨old, elsewhere⟩ | ⟨here, bitmap, rendered, same⟩
        · rw [Function.update_of_ne elsewhere] at owner
          refine keepsOld old owner ?_
          rintro rfl
          exact elsewhere (invariant.owned _ _ owner)
        · rw [here, Function.update_self, Option.some_inj] at owner
          refine ⟨bitmap, ?_, same⟩
          rw [← owner, ← sameKey, ← rendered]
          exact arrive_same _ _
  · intro loc key owner
    cases kept with
    | false => exact invariant.owned loc key (ownerAfter_dropped invariant.owned owner).1
    | true =>
        simp only [ownerAfter_kept] at owner
        by_cases here : loc = TileLocation.ofDesc desc
        · rw [here, Function.update_self, Option.some_inj] at owner
          rw [here, ← owner]
          rfl
        · rw [Function.update_of_ne here] at owner
          exact invariant.owned loc key owner

theorem ChainInvariant.render (lossless : zstd.Lossless) {png : TileRegion → Option (List UInt8)}
    (signed : PngSigned png) (invariant : ChainInvariant zstd state) {desc : TileDesc}
    {region : TileRegion} {combined : Bool}
    (size : (region.width : Int) = desc.width ∧ (region.height : Int) = desc.height)
    (safe : ChainSafe state (.render desc region combined size)) :
    ChainInvariant zstd (renderStep zstd png state desc region combined) := by
  by_cases regular : desc.id < 0
  · let result := state.generator.compressOrDelta zstd region (TileLocation.ofDesc desc)
      (state.nextId + 1) (desc.oldWireId == 0)
    have rendered : renderTile zstd png state.generator (state.nextId + 1) desc region =
        (some result.1, result.2) := by
      simp [renderTile, regular, result]
    simp only [renderStep, rendered, regular, decide_true, Bool.true_and, ↓reduceIte]
    refine invariant.push desc rfl (state.nextId + 1) ?_ size ?_
    · rcases compressOrDelta_cases lossless state.generator region (TileLocation.ofDesc desc)
          (state.nextId + 1) (desc.oldWireId == 0) with
        ⟨frame, data, stores⟩ | ⟨allowed, prev, made⟩
      · change Extends zstd _ result.1 _
        rw [data]
        exact .keyframe stores
      · have good := safe regular (by simpa using allowed) made.even prev made.found
        exact extends_delta lossless invariant made good
    · intro entry member
      by_cases even : region.width % 2 = 0
      · simp only [even, decide_true, ↓reduceIte]
        rcases mem_compressOrDelta even member with old | rfl
        · exact .inl old
        · exact .inr ⟨rfl, region.bitmap, rfl, DeltaData.image_ofBitmap _ _ _ _, rfl, rfl⟩
      · simp only [even, decide_false, Bool.false_eq_true, ↓reduceIte]
        rw [compressOrDelta_odd even] at member
        exact member
  · cases encoded : png region with
    | none => simpa [renderStep, renderTile, regular, encoded] using invariant.with_nextId _
    | some data =>
        simp only [renderStep, renderTile, regular, ↓reduceIte, encoded, decide_false,
          Bool.false_and]
        refine invariant.push desc rfl (state.nextId + 1) (.png ?_) trivial ?_
        · have first := signed region data encoded
          cases data with
          | nil => cases first
          | cons byte rest =>
              cases first
              rfl
        · intro entry member
          exact member

theorem ChainInvariant.step (lossless : zstd.Lossless) {png : TileRegion → Option (List UInt8)}
    (signed : PngSigned png) (event : ChainEvent) (invariant : ChainInvariant zstd state)
    (safe : ChainSafe state event) : ChainInvariant zstd (chainStep zstd png state event) := by
  have same {tileCache : TileCache}
      (fewer : ∀ entry ∈ tileCache.cache, entry ∈ state.tileCache.cache) :
      ∀ entry ∈ tileCache.cache, ∃ old ∈ state.tileCache.cache,
        CacheEntry.key old = CacheEntry.key entry ∧ old.2.deltas = entry.2.deltas :=
    fun entry member => ⟨entry, fewer entry member, rfl, rfl⟩
  cases event with
  | render desc region combined size => exact invariant.render lossless signed size safe
  | receive alive => exact invariant.receive alive
  | rebalanceDeltas limit => exact invariant.with_generator fun _ => mem_rebalanceDeltas
  | dropCache => exact invariant.with_generator fun _ => mem_rebalanceDeltasT
  | clear =>
      exact invariant.with_cache (same fun entry member => absurd member (by
        simp [TileCache.clear])) rfl
  | setMaxCacheSize cacheSize =>
      refine invariant.with_cache (same fun entry member => ?_) ?_
      · have old : entry ∈ ({ state.tileCache with maxCacheSize := cacheSize } : TileCache).cache :=
          TileCache.mem_ensureCacheSize member
        exact old
      · exact TileCache.dontCache_ensureCacheSize _
  | invalidateTiles part mode x y width height normalizedViewId =>
      refine invariant.with_cache (fun entry member => ?_) rfl
      simp only [TileCache.invalidateTiles, Keyed.mem_update] at member
      obtain ⟨old, oldMember, rfl⟩ := member
      refine ⟨old, oldMember, ?_⟩
      split <;> exact ⟨rfl, rfl⟩
  | subscribe tile subscriber now =>
      have cache : (state.tileCache.subscribeToTileRendering tile subscriber now).cache =
          state.tileCache.cache := by
        unfold TileCache.subscribeToTileRendering
        split <;> rfl
      have dontCache : (state.tileCache.subscribeToTileRendering tile subscriber now).dontCache =
          state.tileCache.dontCache := by
        unfold TileCache.subscribeToTileRendering
        split <;> rfl
      refine invariant.with_cache (same fun entry member => ?_) dontCache
      rw [cache] at member
      exact member
  | cancelTiles subscriber => exact invariant.with_cache (same fun _ member => member) rfl

end Steps

theorem ChainInvariant.initially (zstd : Zstd) (maxEntries : Nat) (dontCache : Bool) :
    ChainInvariant zstd (ChainState.initial maxEntries dontCache) where
  cached := by simp [ChainState.initial, TileCache.initial]
  uncached := by simp [ChainState.initial, TileCache.initial]
  linked := trivial
  kept := by simp [ChainState.initial]
  owned := by simp [ChainState.initial]

theorem ChainInvariant.showsLast {zstd : Zstd} (lossless : zstd.Lossless) {state : ChainState}
    (invariant : ChainInvariant zstd state) {entry : CacheEntry}
    (member : entry ∈ state.tileCache.cache) : ShowsLast zstd state.rendered entry := by
  obtain ⟨rendering, last, fits, shown⟩ := invariant.cached entry member
  rw [ShowsLast, last]
  cases rendering with
  | preview png => exact shown
  | tile bitmap =>
      obtain ⟨raw, stores, image⟩ := shown
      have width : entry.1.width.toNat = bitmap.width := by
        rw [show entry.1.width = bitmap.width from fits.1.symm]
        rfl
      have height : entry.1.height.toNat = bitmap.height := by
        rw [show entry.1.height = bitmap.height from fits.2.symm]
        rfl
      have whole := image []
      rw [List.append_nil] at whole
      simp only [decodeTile, stores.decompress lossless, Option.map_some, width, height, whole]
      rfl

/-- In every run in which deltas are only made against the last rendering of the
same key, every cached tile shows what was last rendered for its key. -/
theorem deltaChain_showsLast {zstd : Zstd} (lossless : zstd.Lossless)
    {png : TileRegion → Option (List UInt8)} (signed : PngSigned png) (maxEntries : Nat)
    (dontCache : Bool) (events : List ChainEvent)
    (permitted : Permitted (chainStep zstd png) ChainSafe
      (ChainState.initial maxEntries dontCache) events) :
    let state := run (chainStep zstd png) (ChainState.initial maxEntries dontCache) events
    ∀ entry ∈ state.tileCache.cache, ShowsLast zstd state.rendered entry := by
  have invariant := run_invariant (ChainInvariant zstd)
    (fun _ event invariant safe => ChainInvariant.step lossless signed event invariant safe)
    (ChainInvariant.initially zstd maxEntries dontCache) permitted
  exact fun entry member => invariant.showsLast lossless member

def smallDesc (mode : Nat) (oldWireId : TileWireId) : TileDesc where
  normalizedViewId := 0
  part := 0
  mode := mode
  width := 2
  height := 2
  tilePosX := 0
  tilePosY := 0
  tileWidth := 3840
  tileHeight := 3840
  ver := 1
  imgSize := 0
  id := -1
  broadcast := false
  oldWireId := oldWireId
  wireId := 0
  valid := by omega

def stripes (upper lower : UInt32) : TileRegion where
  pixmap := [upper, upper, lower, lower]
  startX := 0
  startY := 0
  width := 2
  height := 2
  bufferWidth := 2
  bufferHeight := 2
  pixmap_length := rfl
  columns_inside := by decide
  rows_inside := by decide

def renderStripes (mode : Nat) (oldWireId : TileWireId) (upper lower : UInt32) : List ChainEvent :=
  [.render (smallDesc mode oldWireId) (stripes upper lower) true ⟨rfl, rfl⟩, .receive fun _ => true]

def signatureOnly (_ : TileRegion) : Option (List UInt8) :=
  some [0x89, 0x50, 0x4e, 0x47, 0x0d, 0x0a, 0x1a, 0x0a]

def redrawnStripes : List ChainEvent :=
  renderStripes 0 0 0xff0000ff 0xff0000ff ++ renderStripes 0 1 0xff0000ff 0xff00ff00

theorem deltaChain_showsLast_redrawn :
    let state := run (chainStep Zstd.stored signatureOnly) (.initial 24 false) redrawnStripes
    state.tileCache.cache.entries.length = 1 ∧
      ∀ entry ∈ state.tileCache.cache, ShowsLast Zstd.stored state.rendered entry :=
  ⟨by decide +kernel, deltaChain_showsLast Zstd.stored_lossless
    (fun _ _ encoded => by cases encoded; rfl) 24 false redrawnStripes (by decide +kernel)⟩

def mixedModes : List ChainEvent :=
  renderStripes 0 0 0xff0000ff 0xff0000ff ++ renderStripes 1 0 0xffff0000 0xffff0000 ++
    renderStripes 0 1 0xffff0000 0xff00ff00

/-- The delta for the first mode is made against the second one, so its upper
stripe is missing. -/
theorem deltaChain_mixedModes_wrong :
    let state := run (chainStep Zstd.stored signatureOnly) (.initial 24 false) mixedModes
    ¬ ∀ entry ∈ state.tileCache.cache.entries, ShowsLast Zstd.stored state.rendered entry := by
  decide +kernel

end FreeOnline.Tiles
