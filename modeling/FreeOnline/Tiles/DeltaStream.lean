import FreeOnline.Kit.DeltaPastEnd
import FreeOnline.Library.Run
import FreeOnline.Wsd.TileData

/-!
# One tile as a stream of frames

The cache stores a keyframe and the deltas behind it without their lengths. The
browser has to stop at the end of each, and a client that has the frames up to a
wire id is sent the bytes behind them.
-/

set_option autoImplicit false

namespace FreeOnline.Tiles

open FreeOnline.Browser FreeOnline.Kit FreeOnline.Library FreeOnline.Wsd

/-!
## The stream
-/

/-- The bitmaps of one tile have its size. -/
abbrev TileBitmap (width height : Nat) :=
  { data : DeltaData // data.width = width ∧ data.height = height }

/-- What `compressOrDelta` writes for a keyframe. -/
def keyframeData (zstd : Zstd) (cur : DeltaData) : List UInt8 :=
  match zstd.compressStream (cur.rows.map fun row => unpremultCopy row.pixels) with
  | none => []
  | some compressed => 90 :: compressed

/-- What `compressOrDelta` writes when `prev` is the bitmap it keeps. -/
def frameData (zstd : Zstd) (prev cur : DeltaData) (forceKeyframe : Bool) : List UInt8 :=
  match if forceKeyframe then (false, []) else makeDelta zstd prev cur [] with
  | (true, data) => data
  | (false, data) => data ++ keyframeData zstd cur

/-- A blob of the tile, without its first byte, and the bitmap it leads to. -/
structure Frame where
  wid : TileWireId
  bytes : List UInt8
  image : List UInt8
deriving DecidableEq, Repr

def Frame.blob (frame : Frame) : TileData.Blob :=
  (frame.wid, frame.bytes)

/-- The cached tile and the bitmap that the kit keeps. `frames` is history: what
was stored since the last keyframe. -/
structure DeltaStream (width height : Nat) where
  tile : TileData
  kept : TileBitmap width height
  frames : List Frame

namespace DeltaStream

variable {width height : Nat}

/-- Whatever was cached before, the keyframe clears it. -/
def start (zstd : Zstd) (tile : TileData) (cur : TileBitmap width height) :
    DeltaStream width height where
  tile := tile.appendBlob cur.1.wid (keyframeData zstd cur.1)
  kept := cur
  frames := [⟨cur.1.wid, (keyframeData zstd cur.1).tail, cur.1.image⟩]

structure RenderEvent (width height : Nat) where
  cur : TileBitmap width height
  forceKeyframe : Bool

/-- The kit renders the tile again, and wsd stores what it made, unless nothing changed. -/
def render (zstd : Zstd) (stream : DeltaStream width height) (event : RenderEvent width height) :
    DeltaStream width height :=
  let cur := event.cur
  let data := frameData zstd stream.kept.1 cur.1 event.forceKeyframe
  if data = [] then { stream with kept := cur }
  else
    let frame : Frame := ⟨cur.1.wid, data.tail, cur.1.image⟩
    { tile := stream.tile.appendBlob cur.1.wid data
      kept := cur
      frames := if TileData.isKeyframe data then [frame] else stream.frames ++ [frame] }

/-!
## What is claimed of it, and when it holds
-/

/-- The turn that the browser should take for the frame: all of its own bytes,
and its bitmap. -/
def turnOf (zstd : Zstd) (frame : Frame) : Option DeltaTurn :=
  (zstd.decompress frame.bytes).map fun own => ⟨own.length, frame.image⟩

def frameBytes (frames : List Frame) : List UInt8 :=
  frames.flatMap Frame.bytes

def upTo (stream : DeltaStream width height) (since : TileWireId) : List Frame :=
  stream.frames.filter fun frame => decide (frame.wid ≤ since)

def after (stream : DeltaStream width height) (since : TileWireId) : List Frame :=
  stream.frames.filter fun frame => decide (since < frame.wid)

/-- The whole stream decodes to the last bitmap, one frame a turn. From a
recorded wire id on, exactly the later frames are sent, and decoding them after
the others is decoding the whole. -/
structure Decodes (zstd : Zstd) (stream : DeltaStream width height) : Prop where
  whole : ∃ bytes raw, stream.tile.appendChangesSince [] 0 = (true, bytes) ∧
    zstd.decompress bytes = some raw ∧
    (keyframeTurns width height raw).map some = stream.frames.map (turnOf zstd) ∧
    applyKeyframe width height raw = stream.kept.1.image
  suffix : ∀ since ∈ stream.tile.wids, ∀ output, stream.tile.appendChangesSince output since =
    (!(stream.after since).isEmpty, output ++ frameBytes (stream.after since))
  cut : ∀ since ∈ stream.tile.wids, ∃ raw first later,
    zstd.decompress (stream.tile.appendChangesSince [] 0).2 = some raw ∧
    zstd.decompress (frameBytes (stream.upTo since)) = some first ∧
    zstd.decompress (stream.tile.appendChangesSince [] since).2 = some later ∧
    raw = first ++ later ∧
    applyDeltas width later.length later (applyKeyframe width height first) =
      applyKeyframe width height raw

/-- The delta reads past the end of the bitmap that it is made against only for
rows that are blank. -/
def StreamSafe (stream : DeltaStream width height) (event : RenderEvent width height) : Prop :=
  event.forceKeyframe = false → BlankPastEnd stream.kept.1 event.cur.1

instance (stream : DeltaStream width height) (event : RenderEvent width height) :
    Decidable (StreamSafe stream event) := by
  unfold StreamSafe
  infer_instance

/-!
## Frames that lead to an image
-/

/-- Each frame is a delta to its image from the one before it, whatever follows. -/
inductive Leads (zstd : Zstd) (width : Nat) : List UInt8 → List Frame → List UInt8 → Prop where
  | nil (image : List UInt8) : Leads zstd width image [] image
  | cons {image last own : List UInt8} {frame : Frame} {frames : List Frame}
      (stores : zstd.Stores frame.bytes own) (more : own ≠ [])
      (decodes : ∀ rest, (applyDeltaChunk image (own ++ rest) image width).imgData = frame.image ∧
        (applyDeltaChunk image (own ++ rest) image width).consumed = own.length)
      (tail : Leads zstd width frame.image frames last) :
      Leads zstd width image (frame :: frames) last

section Leading

variable {zstd : Zstd} {image last : List UInt8} {frames front back : List Frame}

theorem Leads.append {middle : List UInt8} (leads : Leads zstd width image front middle)
    (leadsBack : Leads zstd width middle back last) :
    Leads zstd width image (front ++ back) last := by
  induction leads with
  | nil => exact leadsBack
  | cons stores more decodes _ ih => exact .cons stores more decodes (ih leadsBack)

theorem Leads.split (leads : Leads zstd width image (front ++ back) last) :
    ∃ middle, Leads zstd width image front middle ∧ Leads zstd width middle back last := by
  induction front generalizing image with
  | nil => exact ⟨image, .nil image, leads⟩
  | cons frame front ih =>
      cases leads with
      | cons stores more decodes tail =>
          obtain ⟨middle, leadsFront, leadsBack⟩ := ih tail
          exact ⟨middle, .cons stores more decodes leadsFront, leadsBack⟩

theorem turnOf_eq (lossless : zstd.Lossless) {frame : Frame} {own : List UInt8}
    (stores : zstd.Stores frame.bytes own) :
    turnOf zstd frame = some ⟨own.length, frame.image⟩ := by
  rw [turnOf, stores.decompress lossless]
  rfl

/-- The browser takes the frames one a turn, and goes on behind them from the
last image. -/
theorem Leads.decoded (lossless : zstd.Lossless) (leads : Leads zstd width image frames last) :
    ∃ raw, zstd.Stores (frameBytes frames) raw ∧ ∀ rest,
      (deltaTurns width (raw ++ rest).length (raw ++ rest) image).map some =
        frames.map (turnOf zstd) ++ (deltaTurns width rest.length rest last).map some ∧
      applyDeltas width (raw ++ rest).length (raw ++ rest) image =
        applyDeltas width rest.length rest last := by
  induction leads with
  | nil image => exact ⟨[], fun rest => by simp [frameBytes], fun rest => ⟨rfl, rfl⟩⟩
  | @cons image last own frame frames stores more decodes _ ih =>
      obtain ⟨raw, storesRaw, decoded⟩ := ih
      refine ⟨own ++ raw, stores.append storesRaw, fun rest => ?_⟩
      obtain ⟨newImage, consumed⟩ := decodes (raw ++ rest)
      obtain ⟨turns, shown⟩ := decoded rest
      rw [List.append_assoc]
      constructor
      · rw [deltaTurns_append width more _ newImage consumed, List.map_cons, turns, List.map_cons,
          turnOf_eq lossless stores]
        rfl
      · rw [applyDeltas_append width more _ newImage consumed, shown]

/-- A keyframe, and deltas that lead from it to the image. -/
inductive Chain (zstd : Zstd) (width height : Nat) : List Frame → List UInt8 → Prop where
  | intro {last : List UInt8} {frame : Frame} {frames : List Frame}
      (stores : zstd.Stores frame.bytes frame.image)
      (size : frame.image.length = width * height * 4)
      (deltas : Leads zstd width frame.image frames last) :
      Chain zstd width height (frame :: frames) last

theorem Chain.append {middle : List UInt8} (chain : Chain zstd width height front middle)
    (leads : Leads zstd width middle back last) :
    Chain zstd width height (front ++ back) last := by
  cases chain with
  | intro stores size deltas => exact .intro stores size (deltas.append leads)

theorem Chain.split (chain : Chain zstd width height (front ++ back) last) (keyframe : front ≠ []) :
    ∃ middle, Chain zstd width height front middle ∧ Leads zstd width middle back last := by
  cases front with
  | nil => exact absurd rfl keyframe
  | cons frame front =>
      cases chain with
      | intro stores size deltas =>
          obtain ⟨middle, leadsFront, leadsBack⟩ := deltas.split
          exact ⟨middle, .intro stores size leadsFront, leadsBack⟩

theorem Chain.decoded (lossless : zstd.Lossless) (chain : Chain zstd width height frames last) :
    ∃ raw, zstd.Stores (frameBytes frames) raw ∧
      (keyframeTurns width height raw).map some = frames.map (turnOf zstd) ∧
      ∀ rest, applyKeyframe width height (raw ++ rest) =
        applyDeltas width rest.length rest last := by
  cases chain with
  | @intro last frame frames stores size deltas =>
      obtain ⟨raw, storesRaw, decoded⟩ := deltas.decoded lossless
      refine ⟨frame.image ++ raw, stores.append storesRaw, ?_, fun rest => ?_⟩
      · have turns := (decoded []).1
        rw [List.append_nil] at turns
        rw [keyframeTurns_append width height raw size, List.map_cons, turns, List.map_cons,
          turnOf_eq lossless stores]
        simp [deltaTurns]
      · rw [List.append_assoc, applyKeyframe_append width height _ size, (decoded rest).2]

end Leading

/-!
## What the kit makes
-/

section Making

variable {zstd : Zstd} (lossless : zstd.Lossless)

include lossless

theorem keyframeData_stores (cur : DeltaData) :
    ∃ frame, keyframeData zstd cur = 90 :: frame ∧ zstd.Stores frame cur.image := by
  let lines := cur.rows.map fun row => unpremultCopy row.pixels
  obtain ⟨frame, compressed⟩ := lossless.compressStream_total lines
  have image : lines.flatten = cur.image := by
    simp only [lines, unpremultCopy_eq, DeltaData.image, List.flatMap_def]
  refine ⟨frame, ?_, fun rest => ?_⟩
  · rw [keyframeData, compressed]
  · rw [← image]
    exact lossless.decompress_stream rest compressed

/-- Without a forced keyframe nothing, or a delta to what the browser shows. -/
theorem frameData_cases (prev cur : TileBitmap width height) (widthSmall : width ≤ 256)
    (heightSmall : height ≤ 256) :
    let shown := shownImage prev.1 cur.1 prev.1.height
    frameData zstd prev.1 cur.1 false = [] ∧ prev.1.image = shown ∨
      ∃ compressed delta, frameData zstd prev.1 cur.1 false = 68 :: compressed ∧
        zstd.Stores compressed delta ∧ delta ≠ [] ∧ ∀ rest,
          (applyDeltaChunk prev.1.image (delta ++ rest) prev.1.image width).imgData = shown ∧
          (applyDeltaChunk prev.1.image (delta ++ rest) prev.1.image width).consumed =
            delta.length := by
  obtain ⟨prev, rfl, rfl⟩ := prev
  obtain ⟨cur, sameWidth, sameHeight⟩ := cur
  have shows := deltaRows_shows sameWidth.symm sameHeight.symm widthSmall heightSmall
  rcases makeDelta_cases lossless sameWidth.symm sameHeight.symm with
    ⟨unchanged, made⟩ | ⟨compressed, made, stores⟩
  · have same := (shows []).1
    rw [unchanged] at same
    exact .inl ⟨by simp [frameData, made], same⟩
  · exact .inr ⟨compressed, _, by simp [frameData, made], stores, by simp, shows⟩

end Making

/-!
## The invariant
-/

/-- The tile holds the frames, their wire ids count up, and they lead from a
keyframe to the bitmap that the kit keeps. -/
structure StreamInvariant (zstd : Zstd) (stream : DeltaStream width height) : Prop where
  holds : stream.tile.Holds (stream.frames.map Frame.blob)
  ordered : stream.frames.Pairwise fun left right => left.wid ≤ right.wid
  positive : ∀ frame ∈ stream.frames, 0 < frame.wid
  chain : Chain zstd width height stream.frames stream.kept.1.image

/-- A keyframe with a wire id starts the stream anew, whatever was cached. -/
theorem StreamInvariant.keyframe {zstd : Zstd} (tile : TileData) (cur : TileBitmap width height)
    {frame : List UInt8} (stores : zstd.Stores frame cur.1.image) (positive : 0 < cur.1.wid) :
    StreamInvariant zstd
      { tile := tile.appendBlob cur.1.wid (90 :: frame)
        kept := cur
        frames := [⟨cur.1.wid, frame, cur.1.image⟩] : DeltaStream width height } where
  holds := TileData.holds_keyframe tile cur.1.wid rfl
  ordered := List.pairwise_singleton _ _
  positive := by simpa using positive
  chain := by
    obtain ⟨cur, rfl, rfl⟩ := cur
    exact .intro stores cur.length_image (.nil _)

theorem StreamInvariant.initially {zstd : Zstd} (lossless : zstd.Lossless) (tile : TileData)
    {cur : TileBitmap width height} (positive : 0 < cur.1.wid) :
    StreamInvariant zstd (start zstd tile cur) := by
  obtain ⟨frame, data, stores⟩ := keyframeData_stores lossless cur.1
  rw [start, data]
  exact .keyframe tile cur stores positive

theorem StreamInvariant.delta {zstd : Zstd} {stream : DeltaStream width height}
    (invariant : StreamInvariant zstd stream) {cur : TileBitmap width height}
    {compressed delta : List UInt8} (stores : zstd.Stores compressed delta) (nonempty : delta ≠ [])
    (decodes : ∀ rest, let chunk :=
        applyDeltaChunk stream.kept.1.image (delta ++ rest) stream.kept.1.image width
      chunk.imgData = cur.1.image ∧ chunk.consumed = delta.length)
    (later : ∀ frame ∈ stream.frames, frame.wid ≤ cur.1.wid) (positive : 0 < cur.1.wid) :
    StreamInvariant zstd
      { tile := stream.tile.appendBlob cur.1.wid (68 :: compressed)
        kept := cur
        frames := stream.frames ++ [⟨cur.1.wid, compressed, cur.1.image⟩] :
          DeltaStream width height } where
  holds := by
    rw [List.map_append]
    exact invariant.holds.append cur.1.wid rfl
  ordered := by
    refine List.pairwise_append.mpr ⟨invariant.ordered, List.pairwise_singleton _ _, ?_⟩
    intro frame member added isAdded
    rw [List.mem_singleton.mp isAdded]
    exact later frame member
  positive := by
    intro frame member
    cases List.mem_append.mp member with
    | inl old => exact invariant.positive frame old
    | inr added =>
        rw [List.mem_singleton.mp added]
        exact positive
  chain := invariant.chain.append (.cons stores nonempty decodes (.nil _))

theorem Chain.first {zstd : Zstd} {frames : List Frame} {last : List UInt8}
    (chain : Chain zstd width height frames last) : ∃ frame, frame ∈ frames := by
  cases chain with
  | intro stores size deltas => exact ⟨_, List.mem_cons_self⟩

theorem StreamInvariant.step {zstd : Zstd} (lossless : zstd.Lossless) (widthSmall : width ≤ 256)
    (heightSmall : height ≤ 256) {stream : DeltaStream width height}
    {event : RenderEvent width height} (invariant : StreamInvariant zstd stream)
    (later : ∀ frame ∈ stream.frames, frame.wid ≤ event.cur.1.wid)
    (safe : StreamSafe stream event) : StreamInvariant zstd (render zstd stream event) := by
  have positive : 0 < event.cur.1.wid := by
    obtain ⟨frame, member⟩ := invariant.chain.first
    exact UInt32.lt_of_lt_of_le (invariant.positive frame member) (later frame member)
  obtain ⟨cur, forceKeyframe⟩ := event
  unfold render
  dsimp only at later positive ⊢
  cases forceKeyframe with
  | true =>
      obtain ⟨frame, data, stores⟩ := keyframeData_stores lossless cur.1
      have made : frameData zstd stream.kept.1 cur.1 true = 90 :: frame := by
        simp [frameData, data]
      rw [made]
      exact .keyframe stream.tile cur stores positive
  | false =>
      have right := (shownImage_eq_iff (stream.kept.2.1.trans cur.2.1.symm)
        (stream.kept.2.2.trans cur.2.2.symm)).mpr (safe rfl)
      rcases frameData_cases lossless stream.kept cur widthSmall heightSmall with
        ⟨data, same⟩ | ⟨compressed, delta, data, stores, nonempty, shows⟩
      · rw [data]
        rw [right] at same
        exact ⟨invariant.holds, invariant.ordered, invariant.positive, same ▸ invariant.chain⟩
      · rw [data]
        rw [right] at shows
        exact invariant.delta stores nonempty shows later positive

theorem mem_render {zstd : Zstd} {stream : DeltaStream width height}
    {event : RenderEvent width height} {frame : Frame}
    (member : frame ∈ (render zstd stream event).frames) :
    frame ∈ stream.frames ∨ frame.wid = event.cur.1.wid := by
  unfold render at member
  dsimp only at member
  split at member
  · exact .inl member
  · dsimp only at member
    split at member
    · rw [List.mem_singleton.mp member]
      exact .inr rfl
    · cases List.mem_append.mp member with
      | inl old => exact .inl old
      | inr added =>
          rw [List.mem_singleton.mp added]
          exact .inr rfl

/-!
## Sending the stream
-/

/-- Frames whose wire ids count up are cut in two by a wire id. -/
theorem filter_append_filter {frames : List Frame}
    (ordered : frames.Pairwise fun left right => left.wid ≤ right.wid) (since : TileWireId) :
    frames.filter (fun frame => decide (frame.wid ≤ since)) ++
      frames.filter (fun frame => decide (since < frame.wid)) = frames := by
  induction frames with
  | nil => rfl
  | cons frame frames ih =>
      by_cases old : frame.wid ≤ since
      · simp [old, UInt32.not_lt.mpr old, ih ordered.of_cons]
      · have newer := UInt32.not_le.mp old
        have allNewer : ∀ other ∈ frames, since < other.wid := fun other member =>
          UInt32.lt_of_lt_of_le newer (List.rel_of_pairwise_cons ordered member)
        have noneOld : frames.filter (fun frame => decide (frame.wid ≤ since)) = [] :=
          List.filter_eq_nil_iff.mpr fun other member => by
            simpa using UInt32.not_le.mpr (allNewer other member)
        have allKept : frames.filter (fun frame => decide (since < frame.wid)) = frames :=
          List.filter_eq_self.mpr fun other member => by simpa using allNewer other member
        simp [old, newer, noneOld, allKept]

theorem upTo_append_after {stream : DeltaStream width height}
    (ordered : stream.frames.Pairwise fun left right => left.wid ≤ right.wid)
    (since : TileWireId) : stream.upTo since ++ stream.after since = stream.frames :=
  filter_append_filter ordered since

section Sending

variable {zstd : Zstd} {stream : DeltaStream width height}

theorem blobs_bytes (frames : List Frame) :
    (frames.map Frame.blob).flatMap Prod.snd = frameBytes frames := by
  simp [frameBytes, List.flatMap_map, Frame.blob]

theorem StreamInvariant.changes_all (invariant : StreamInvariant zstd stream) :
    stream.tile.appendChangesSince [] 0 = (true, frameBytes stream.frames) := by
  obtain ⟨frame, member⟩ := invariant.chain.first
  have some : stream.frames.map Frame.blob ≠ [] := by simpa using List.ne_nil_of_mem member
  rw [invariant.holds.appendChangesSince_zero some, blobs_bytes, List.nil_append]

theorem StreamInvariant.changes_since (invariant : StreamInvariant zstd stream)
    {since : TileWireId} (recorded : since ∈ stream.tile.wids) (output : List UInt8) :
    stream.tile.appendChangesSince output since =
      (!(stream.after since).isEmpty, output ++ frameBytes (stream.after since)) := by
  have holds := invariant.holds
  rw [← upTo_append_after invariant.ordered since, List.map_append] at holds
  have nonzero : since ≠ 0 := by
    rw [invariant.holds.wids, List.map_map] at recorded
    obtain ⟨frame, member, rfl⟩ := List.mem_map.mp recorded
    intro zero
    have positive := invariant.positive frame member
    rw [show frame.wid = 0 from zero] at positive
    exact absurd positive (by decide)
  rw [holds.appendChangesSince_split output, blobs_bytes]
  · cases stream.after since with
    | nil => simp [frameBytes]
    | cons frame frames => rfl
  · intro blob member
    obtain ⟨frame, inFront, rfl⟩ := List.mem_map.mp member
    exact ⟨nonzero, of_decide_eq_true (List.mem_filter.mp inFront).2⟩
  · intro blob member
    obtain ⟨frame, inBack, rfl⟩ := List.mem_map.mp member
    exact .inr (of_decide_eq_true (List.mem_filter.mp inBack).2)

theorem StreamInvariant.decodes (lossless : zstd.Lossless)
    (invariant : StreamInvariant zstd stream) : Decodes zstd stream := by
  obtain ⟨raw, stores, turns, shown⟩ := invariant.chain.decoded lossless
  have decompressed := stores.decompress lossless
  refine ⟨⟨_, raw, invariant.changes_all, decompressed, turns, ?_⟩,
    fun since recorded => invariant.changes_since recorded, fun since recorded => ?_⟩
  · have whole := shown []
    rw [List.append_nil] at whole
    exact whole
  · have frames := upTo_append_after invariant.ordered since
    have keyframe : stream.upTo since ≠ [] := by
      rw [invariant.holds.wids, List.map_map] at recorded
      obtain ⟨frame, member, rfl⟩ := List.mem_map.mp recorded
      exact List.ne_nil_of_mem (List.mem_filter.mpr ⟨member, by simp [Frame.blob]⟩)
    have chain := invariant.chain
    rw [← frames] at chain
    obtain ⟨middle, chainFront, leadsBack⟩ := chain.split keyframe
    obtain ⟨first, storesFirst, -, shownFirst⟩ := chainFront.decoded lossless
    obtain ⟨later, storesLater, decodedLater⟩ := leadsBack.decoded lossless
    have both : zstd.Stores (frameBytes stream.frames) (first ++ later) := by
      have appended := storesFirst.append storesLater
      rwa [frameBytes, frameBytes, ← List.flatMap_append, frames] at appended
    refine ⟨first ++ later, first, later, ?_, storesFirst.decompress lossless, ?_, rfl, ?_⟩
    · rw [invariant.changes_all]
      exact both.decompress lossless
    · rw [invariant.changes_since recorded]
      exact storesLater.decompress lossless
    · have whole := shownFirst []
      rw [List.append_nil] at whole
      rw [whole, shownFirst]
      rfl

theorem Decodes.unchanged (lossless : zstd.Lossless) (invariant : StreamInvariant zstd stream)
    {event : RenderEvent width height}
    (data : frameData zstd stream.kept.1 event.cur.1 event.forceKeyframe = [])
    (decodes : Decodes zstd (render zstd stream event)) :
    stream.kept.1.image = event.cur.1.image := by
  obtain ⟨bytes, raw, changes, decompressed, -, image⟩ := decodes.whole
  obtain ⟨whole, stores, -, shown⟩ := invariant.chain.decoded lossless
  simp only [render, data, ↓reduceIte, invariant.changes_all, Prod.mk.injEq, true_and] at changes image
  rw [← changes, stores.decompress lossless, Option.some_inj] at decompressed
  have last := shown []
  rw [List.append_nil, decompressed, image] at last
  exact last.symm

/-- If the stream with a new delta decodes, then the delta leads from the bitmap
it was made against to the new one. -/
theorem Decodes.delta (lossless : zstd.Lossless) (invariant : StreamInvariant zstd stream)
    {event : RenderEvent width height} {compressed delta : List UInt8}
    (data : frameData zstd stream.kept.1 event.cur.1 event.forceKeyframe = 68 :: compressed)
    (stores : zstd.Stores compressed delta) (decodes : Decodes zstd (render zstd stream event)) :
    applyDeltas width delta.length delta stream.kept.1.image = event.cur.1.image := by
  obtain ⟨bytes, raw, changes, decompressed, -, image⟩ := decodes.whole
  obtain ⟨before, storesBefore, -, shown⟩ := invariant.chain.decoded lossless
  have holds : (stream.tile.appendBlob event.cur.1.wid (68 :: compressed)).Holds _ :=
    invariant.holds.append event.cur.1.wid rfl
  have sent : bytes = frameBytes stream.frames ++ compressed := by
    have all := holds.appendChangesSince_zero (by simp) []
    simp only [render, data, List.cons_ne_nil, ↓reduceIte] at changes
    rw [changes, List.flatMap_append, blobs_bytes] at all
    simpa using congrArg Prod.snd all
  have whole := (storesBefore.append stores).decompress lossless
  rw [← sent, decompressed, Option.some_inj] at whole
  rw [← shown, ← whole, image]
  simp only [render, data, List.cons_ne_nil, ↓reduceIte]

end Sending

theorem StreamInvariant.safe_of_decodes {zstd : Zstd} (lossless : zstd.Lossless)
    (widthSmall : width ≤ 256) (heightSmall : height ≤ 256) {stream : DeltaStream width height}
    {event : RenderEvent width height} (invariant : StreamInvariant zstd stream)
    (decodes : Decodes zstd (render zstd stream event)) : StreamSafe stream event := by
  obtain ⟨cur, forceKeyframe⟩ := event
  rintro rfl
  refine (shownImage_eq_iff (stream.kept.2.1.trans cur.2.1.symm)
    (stream.kept.2.2.trans cur.2.2.symm)).mp ?_
  rcases frameData_cases lossless stream.kept cur widthSmall heightSmall with
    ⟨data, same⟩ | ⟨compressed, delta, data, stores, nonempty, shows⟩
  · rw [← same]
    exact decodes.unchanged lossless invariant data
  · obtain ⟨image, consumed⟩ := shows []
    have shown := applyDeltas_append width nonempty [] image consumed
    rw [List.append_nil, decodes.delta lossless invariant data stores] at shown
    exact shown.symm

/-- The step of the run, in both directions, and the run by induction on its events. -/
theorem StreamInvariant.run_iff {zstd : Zstd} (lossless : zstd.Lossless)
    (widthSmall : width ≤ 256) (heightSmall : height ≤ 256) {stream : DeltaStream width height}
    (invariant : StreamInvariant zstd stream) {events : List (RenderEvent width height)}
    (later : ∀ frame ∈ stream.frames, ∀ event ∈ events, frame.wid ≤ event.cur.1.wid)
    (counted : events.Pairwise fun left right => left.cur.1.wid ≤ right.cur.1.wid) :
    (∀ before, before <+: events → Decodes zstd (run (render zstd) stream before)) ↔
      Permitted (render zstd) StreamSafe stream events := by
  induction events generalizing stream with
  | nil =>
      refine ⟨fun _ => trivial, fun _ before isPrefix => ?_⟩
      rw [List.prefix_nil.mp isPrefix]
      exact invariant.decodes lossless
  | cons event events ih =>
      obtain ⟨first, rest⟩ := List.pairwise_cons.mp counted
      have laterFirst : ∀ frame ∈ stream.frames, frame.wid ≤ event.cur.1.wid :=
        fun frame member => later frame member event List.mem_cons_self
      have laterRest : ∀ frame ∈ (render zstd stream event).frames, ∀ other ∈ events,
          frame.wid ≤ other.cur.1.wid := by
        intro frame member other isEvent
        cases mem_render member with
        | inl old => exact later frame old other (List.mem_cons_of_mem _ isEvent)
        | inr new => exact new ▸ first other isEvent
      have next (safe : StreamSafe stream event) :=
        ih (invariant.step lossless widthSmall heightSmall laterFirst safe) laterRest rest
      constructor
      · intro decodes
        have once := decodes [event] (List.cons_prefix_cons.mpr ⟨rfl, List.nil_prefix⟩)
        have safe := invariant.safe_of_decodes lossless widthSmall heightSmall once
        exact ⟨safe, (next safe).mp fun before isPrefix =>
          decodes (event :: before) (List.cons_prefix_cons.mpr ⟨rfl, isPrefix⟩)⟩
      · intro permitted before isPrefix
        cases before with
        | nil => exact invariant.decodes lossless
        | cons head before =>
            obtain ⟨rfl, shorter⟩ := List.cons_prefix_cons.mp isPrefix
            exact (next permitted.1).mpr permitted.2 before shorter

/-- In every run with wire ids that count up, the stream decodes to the last
bitmap on the whole way, however it is cut, if and only if no delta shows a row
past the end that is not blank. -/
theorem run_decodes_iff {zstd : Zstd} (lossless : zstd.Lossless) (widthSmall : width ≤ 256)
    (heightSmall : height ≤ 256) (tile : TileData) (cur : TileBitmap width height)
    (positive : 0 < cur.1.wid) (events : List (RenderEvent width height))
    (counted : (cur :: events.map RenderEvent.cur).Pairwise fun left right =>
      left.1.wid ≤ right.1.wid) :
    (∀ before, before <+: events →
      Decodes zstd (run (render zstd) (start zstd tile cur) before)) ↔
      Permitted (render zstd) StreamSafe (start zstd tile cur) events := by
  obtain ⟨first, rest⟩ := List.pairwise_cons.mp counted
  rw [List.pairwise_map] at rest
  refine StreamInvariant.run_iff lossless widthSmall heightSmall
    (.initially lossless tile positive) ?_ rest
  intro frame member event isEvent
  rw [List.mem_singleton.mp member]
  exact first event.cur (List.mem_map_of_mem isEvent)

def rowsBitmap (rows : List UInt32) : Bitmap where
  width := 2
  height := rows.length
  rows := rows.map (List.replicate 2)
  rows_length := List.length_map _
  row_length := by
    intro pixels member
    obtain ⟨row, _, rfl⟩ := List.mem_map.mp member
    exact List.length_replicate

def rowsTile (wid : TileWireId) (rows : List UInt32) {height : Nat} (length : rows.length = height) :
    TileBitmap 2 height :=
  ⟨DeltaData.ofBitmap wid (rowsBitmap rows) ⟨0, 0, 3840, 0, 0⟩ even_two, rfl, length⟩

def noTile : TileData :=
  ⟨false, [], [], []⟩

def blackLine (wid : TileWireId) (above below : Nat) (length : above + below = 3) :
    TileBitmap 2 4 :=
  rowsTile wid (List.replicate above 0xffffffff ++ 0xff000000 :: List.replicate below 0xffffffff)
    (by simp; omega)

/-- A line moves down, stays, and moves down again. -/
def movingLine : List (RenderEvent 2 4) :=
  [⟨blackLine 2 1 2 rfl, false⟩, ⟨blackLine 3 1 2 rfl, false⟩, ⟨blackLine 5 3 0 rfl, false⟩]

theorem run_decodes_movingLine :
    let first := start Zstd.stored noTile (blackLine 1 0 3 rfl)
    (run (render Zstd.stored) first movingLine).frames.map Frame.wid = [1, 2, 5] ∧
      ∀ before, before <+: movingLine →
        Decodes Zstd.stored (run (render Zstd.stored) first before) :=
  ⟨by decide +kernel, (run_decodes_iff Zstd.stored_lossless (by decide) (by decide) noTile
    (blackLine 1 0 3 rfl) (by decide +kernel) movingLine (by decide +kernel)).mpr
    (by decide +kernel)⟩

/-- A green tile, but for its first two rows and its last one. -/
def bordered (wid : TileWireId) (first second last : UInt32) : TileBitmap 2 256 :=
  rowsTile wid (first :: second :: (List.replicate 253 0xff00ff00 ++ [last])) (by
    rw [List.length_cons, List.length_cons, List.length_append, List.length_replicate]
    rfl)

def framed : TileBitmap 2 256 :=
  bordered 1 0xff0000ff 0xff00ff00 0xffff0000

/-- The last row comes up on top as well, and the first one moves down. -/
def scrolled : TileBitmap 2 256 :=
  bordered 2 0xffff0000 0xff0000ff 0xffff0000

/-- The copy of row 255 is extended to row 0, so the browser finds no pixels for
the second row. -/
theorem not_decodes_scrolled :
    ¬ Decodes Zstd.stored (run (render Zstd.stored) (start Zstd.stored noTile framed)
      [⟨scrolled, false⟩]) := by
  intro decodes
  rw [run, List.foldl_cons, List.foldl_nil] at decodes
  have positive : (0 : TileWireId) < framed.1.wid := UInt32.lt_iff_toNat_lt.mpr Nat.one_pos
  have invariant := StreamInvariant.initially Zstd.stored_lossless noTile positive
  have safe : StreamSafe (start Zstd.stored noTile framed) ⟨scrolled, false⟩ :=
    invariant.safe_of_decodes Zstd.stored_lossless (by decide) (by decide) decodes
  have blank : BlankPastEnd framed.1 scrolled.1 := safe rfl
  have inside : 1 < framed.1.height := by
    rw [framed.2.2]
    omega
  have past : ReadsPastEnd framed.1 scrolled.1 1 := by decide +kernel
  exact absurd (blank 1 inside past) (by decide +kernel)

end DeltaStream

end FreeOnline.Tiles
