import FreeOnline.Kit.Bitmap
import FreeOnline.Library.Keyed

/-!
# The delta generator

`makeDelta` describes a tile by row copies from the previous rendering and by
runs of new pixels. `createDelta` and `compressOrDelta` keep the previous
renderings and choose between a delta and a keyframe.
-/

set_option autoImplicit false

namespace FreeOnline.Kit

open FreeOnline.Library

/-!
## The compressor
-/

/-- The zstd entry points the tile code calls: one-shot compression, streaming
compression of a list of lines ended by `ZSTD_e_end`, and decompression of a
sequence of frames. -/
structure Zstd where
  compress : List UInt8 → Option (List UInt8)
  compressStream : List (List UInt8) → Option (List UInt8)
  decompress : List UInt8 → Option (List UInt8)

/-- What zstd documents: compression into a buffer of `ZSTD_COMPRESSBOUND` bytes
succeeds, and decompressing consecutive frames yields their contents in order. -/
structure Zstd.Lossless (zstd : Zstd) : Prop where
  compress_total : ∀ data, ∃ frame, zstd.compress data = some frame
  compressStream_total : ∀ lines, ∃ frame, zstd.compressStream lines = some frame
  decompress_nil : zstd.decompress [] = some []
  decompress_frame : ∀ {data frame : List UInt8} (rest : List UInt8),
    zstd.compress data = some frame →
      zstd.decompress (frame ++ rest) = (zstd.decompress rest).map (data ++ ·)
  decompress_stream : ∀ {lines : List (List UInt8)} {frame : List UInt8} (rest : List UInt8),
    zstd.compressStream lines = some frame →
      zstd.decompress (frame ++ rest) = (zstd.decompress rest).map (lines.flatten ++ ·)

def Zstd.Stores (zstd : Zstd) (frame data : List UInt8) : Prop :=
  ∀ rest, zstd.decompress (frame ++ rest) = (zstd.decompress rest).map (data ++ ·)

theorem Zstd.Stores.decompress {zstd : Zstd} (lossless : zstd.Lossless) {frame data : List UInt8}
    (stores : zstd.Stores frame data) : zstd.decompress frame = some data := by
  have whole := stores []
  rw [List.append_nil, lossless.decompress_nil] at whole
  simpa using whole

theorem Zstd.Stores.append {zstd : Zstd} {frame data more moreData : List UInt8}
    (stores : zstd.Stores frame data) (storesMore : zstd.Stores more moreData) :
    zstd.Stores (frame ++ more) (data ++ moreData) := by
  intro rest
  rw [List.append_assoc, stores, storesMore, Option.map_map]
  congr 1
  funext later
  simp

def storedFrame (data : List UInt8) : List UInt8 :=
  [0x28, 0xb5, 0x2f, 0xfd, 0x00, 0x58] ++ data.flatMap (fun byte => [0x08, 0, 0, byte]) ++
    [0x01, 0, 0]

def unstored : Bool → List UInt8 → Option (List UInt8)
  | false, [] => some []
  | false, 0x28 :: 0xb5 :: 0x2f :: 0xfd :: 0x00 :: 0x58 :: rest => unstored true rest
  | true, 0x08 :: 0 :: 0 :: byte :: rest => (unstored true rest).map (byte :: ·)
  | true, 0x01 :: 0 :: 0 :: rest => unstored false rest
  | _, _ => none

def Zstd.stored : Zstd where
  compress data := some (storedFrame data)
  compressStream lines := some (storedFrame lines.flatten)
  decompress := unstored false

private theorem unstored_storedFrame (data rest : List UInt8) :
    unstored false (storedFrame data ++ rest) = (unstored false rest).map (data ++ ·) := by
  have blocks : unstored true (data.flatMap (fun byte => [0x08, 0, 0, byte]) ++
      ([0x01, 0, 0] ++ rest)) = (unstored false rest).map (data ++ ·) := by
    induction data with
    | nil => simp [unstored]
    | cons byte data ih =>
        simp only [List.flatMap_cons, List.cons_append, List.nil_append, unstored] at ih ⊢
        rw [ih, Option.map_map]
        rfl
  simpa [storedFrame, unstored] using blocks

theorem Zstd.stored_lossless : Zstd.stored.Lossless where
  compress_total data := ⟨storedFrame data, rfl⟩
  compressStream_total lines := ⟨storedFrame lines.flatten, rfl⟩
  decompress_nil := rfl
  decompress_frame rest compressed := by
    cases compressed
    exact unstored_storedFrame _ rest
  decompress_stream rest compressed := by
    cases compressed
    exact unstored_storedFrame _ rest

/-!
## Making a delta
-/

def charValue (byte : UInt8) : Int :=
  if byte.toNat < 128 then byte.toNat else byte.toNat - 256

structure DeltaState where
  output : List UInt8
  lastMatchOffset : Nat
  lastCopy : Nat
deriving DecidableEq, Repr

def DeltaState.initial : DeltaState := ⟨[], 0, 0⟩

/-- Hunt for a row of `prev` that looks like `curRow`, from the last match on and
around the end. The sum is a `size_t`, and `lastMatchOffset` may have wrapped. -/
def huntRow (prev : DeltaData) (curRow : DeltaBitmapRow) (y lastMatchOffset : Nat) : Option Nat :=
  (List.range prev.height).findSome? fun yn =>
    let found := (y + lastMatchOffset + yn) % 2 ^ 64 % prev.height
    if (prev.getRow found).identical curRow then some found else none

/-- The test for extending the last copy command: all three bytes are signed
chars, promoted to `int` before they are added and compared. -/
def DeltaState.extendsCopy (state : DeltaState) (found y : Nat) : Bool :=
  let count := charValue (state.output.getD state.lastCopy 0)
  decide (0 < state.lastCopy) &&
    (decide (charValue (state.output.getD (state.lastCopy + 1) 0) + count =
        charValue (UInt8.ofNat found)) &&
      decide (charValue (state.output.getD (state.lastCopy + 2) 0) + count =
        charValue (UInt8.ofNat y)))

def DeltaState.pushMatch (state : DeltaState) (found y : Nat) : DeltaState :=
  if state.extendsCopy found y then
    { state with
      output := state.output.set state.lastCopy (state.output.getD state.lastCopy 0 + 1) }
  else
    { output := state.output ++ [99, 1, UInt8.ofNat found, UInt8.ofNat y]
      lastMatchOffset := (found + 2 ^ 64 - y) % 2 ^ 64
      lastCopy := state.output.length + 1 }

def sameRun : List UInt32 → List UInt32 → Nat
  | prevPix :: prevRest, curPix :: curRest =>
      if prevPix = curPix then sameRun prevRest curRest + 1 else 0
  | _, _ => 0

/-- How many pixels go into one run: up to the next equal pixel, but at least
three and at most 254, ending with the row. -/
def diffRun (diff : Nat) : List UInt32 → List UInt32 → Nat
  | prevPix :: prevRest, curPix :: curRest =>
      if (prevPix ≠ curPix ∨ diff < 3) ∧ diff < 254 then diffRun (diff + 1) prevRest curRest
      else diff
  | _, _ => diff

/-- The pixel loop of a row that matches no other, from column `x` on, where
`prevRow` and `curRow` are the remaining pixels. Each turn moves on by at least
one pixel, so the row's width is enough fuel. -/
def pushRow (y : Nat) : (fuel x : Nat) → (prevRow curRow : List UInt32) → List UInt8
  | 0, _, _, _ => []
  | fuel + 1, x, prevRow, curRow =>
      if curRow = [] then []
      else
        let same := sameRun prevRow curRow
        let start := x + same
        let prevRest := prevRow.drop same
        let curRest := curRow.drop same
        let diff := diffRun 0 prevRest curRest
        let run :=
          if 0 < diff then
            [100, UInt8.ofNat y, UInt8.ofNat start, UInt8.ofNat diff] ++
              unpremultCopy (curRest.take diff)
          else []
        run ++ pushRow y fuel (start + diff) (prevRest.drop diff) (curRest.drop diff)

def deltaRow (prev cur : DeltaData) (state : DeltaState) (y : Nat) : DeltaState :=
  let prevRow := prev.getRow y
  let curRow := cur.getRow y
  if prevRow.identical curRow then state
  else
    match huntRow prev curRow y state.lastMatchOffset with
    | some found => state.pushMatch found y
    | none =>
        { state with
          output := state.output ++ pushRow y prev.width 0 prevRow.pixels curRow.pixels }

def deltaRows (prev cur : DeltaData) (y : Nat) : DeltaState :=
  (List.range y).foldl (deltaRow prev cur) DeltaState.initial

/-- `makeDelta`: whether the tile needs no keyframe, and the stream with the
compressed delta appended. Nothing is appended for an unchanged tile. -/
def makeDelta (zstd : Zstd) (prev cur : DeltaData) (outStream : List UInt8) :
    Bool × List UInt8 :=
  if prev.width ≠ cur.width ∨ prev.height ≠ cur.height then (false, outStream)
  else
    let output := (deltaRows prev cur prev.height).output
    if output = [] then (true, outStream)
    else
      -- 't' terminates this delta so that the next one can be detected.
      match zstd.compress (output ++ [116]) with
      | none => (false, outStream)
      | some compressed => (true, outStream ++ 68 :: compressed)

/-!
## The cache of previous bitmaps
-/

structure DeltaGenerator where
  deltaEntries : Keyed DeltaData.loc
  maxEntries : Nat

/-- Removes the entries with the smallest wire ids. The sort order of entries
with equal ids is not specified; here it is their order in the cache. -/
def DeltaGenerator.rebalanceDeltasT (generator : DeltaGenerator) (dropAll : Bool) :
    DeltaGenerator :=
  let size := generator.deltaEntries.entries.length
  if size > generator.maxEntries ∨ dropAll then
    let toRemove := if dropAll then size else size - generator.maxEntries * 3 / 4
    let entries := generator.deltaEntries.entries.mergeSort fun left right => left.wid ≤ right.wid
    let removed := (entries.take toRemove).map DeltaData.loc
    { generator with
      deltaEntries := generator.deltaEntries.filter fun entry => entry.loc ∉ removed }
  else generator

def DeltaGenerator.rebalanceDeltas (generator : DeltaGenerator) (limit : Int) : DeltaGenerator :=
  let limited := if 0 < limit then { generator with maxEntries := limit.toNat } else generator
  limited.rebalanceDeltasT false

def DeltaGenerator.dropCache (generator : DeltaGenerator) : DeltaGenerator :=
  generator.rebalanceDeltasT true

def DeltaGenerator.replace (generator : DeltaGenerator) (update : DeltaData) : DeltaGenerator :=
  { generator with
    deltaEntries := generator.deltaEntries.update
      (fun entry => if entry.loc = update.loc then update else entry) (by
        intro entry
        split
        · next same => exact same.symm
        · rfl) }

def DeltaGenerator.createDelta (generator : DeltaGenerator) (zstd : Zstd) (bitmap : Bitmap)
    (loc : TileLocation) (output : List UInt8) (wid : TileWireId) (forceKeyframe : Bool) :
    Bool × List UInt8 × DeltaGenerator :=
  if even : bitmap.width % 2 = 0 then
    let update := DeltaData.ofBitmap wid bitmap loc even
    match generator.deltaEntries.find? loc with
    | none => (false, output, { generator with deltaEntries := generator.deltaEntries.insert update })
    | some cacheEntry =>
        let (delta, result) :=
          if forceKeyframe then (false, output) else makeDelta zstd cacheEntry update output
        (delta, result, generator.replace update)
  else (false, output, generator)

def DeltaGenerator.compressOrDelta (generator : DeltaGenerator) (zstd : Zstd)
    (region : TileRegion) (loc : TileLocation) (wid : TileWireId) (forceKeyframe : Bool) :
    List UInt8 × DeltaGenerator :=
  match generator.createDelta zstd region.bitmap loc [] wid forceKeyframe with
  | (true, output, kept) => (output, kept)
  | (false, output, kept) =>
      match zstd.compressStream ((List.range region.height).map fun y =>
          unpremultCopy (region.row y)) with
      | none => (output, kept)
      | some compressed => (output ++ 90 :: compressed, kept)

end FreeOnline.Kit
