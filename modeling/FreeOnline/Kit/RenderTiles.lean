import FreeOnline.Kit.DeltaRoundTrip
import FreeOnline.Wsd.TileDesc

/-!
# Rendering a tile in the kit

What `doRender` queues for each tile of a request: previews become a PNG, other
tiles a delta or a keyframe.
-/

set_option autoImplicit false

namespace FreeOnline.Kit

open FreeOnline.Browser FreeOnline.Library FreeOnline.Wsd

/-- The location under which the delta generator keeps the tile. The session is
looked up by the normalized view id, which is its canonical view id. -/
def TileLocation.ofDesc (desc : TileDesc) : TileLocation where
  left := desc.tilePosX
  top := desc.tilePosY
  size := desc.tileWidth
  part := desc.part
  canonicalViewId := desc.normalizedViewId

/-- Renders one tile: its data, unless the PNG encoder fails. A descriptor
without an old wire id asks for a keyframe. -/
def renderTile (zstd : Zstd) (png : TileRegion → Option (List UInt8)) (generator : DeltaGenerator)
    (wireId : TileWireId) (desc : TileDesc) (region : TileRegion) :
    Option (List UInt8) × DeltaGenerator :=
  let forceKeyframe := desc.oldWireId == 0
  if desc.id < 0 then
    let (data, kept) :=
      generator.compressOrDelta zstd region (TileLocation.ofDesc desc) wireId forceKeyframe
    (some data, kept)
  else (png region, generator)

/-!
## What the generator makes and keeps
-/

def TileRegion.kept (region : TileRegion) (wid : TileWireId) (loc : TileLocation)
    (even : region.width % 2 = 0) : DeltaData :=
  DeltaData.ofBitmap wid region.bitmap loc even

theorem keyframe_lines (region : TileRegion) :
    ((List.range region.height).map fun y => unpremultCopy (region.row y)).flatten =
      region.bitmap.image := by
  simp only [unpremultCopy_eq, Bitmap.image, TileRegion.bitmap, List.flatMap_def, List.map_map]
  rfl

/-- A delta, or the empty output for an unchanged tile, is only made against the
entry at the same location. -/
structure MadeDelta (zstd : Zstd) (generator : DeltaGenerator) (region : TileRegion)
    (loc : TileLocation) (wid : TileWireId) (data : List UInt8) (prev : DeltaData) : Prop where
  even : region.width % 2 = 0
  found : generator.deltaEntries.find? loc = some prev
  made : makeDelta zstd prev (region.kept wid loc even) [] = (true, data)

private theorem makeDelta_false {zstd : Zstd} {prev cur : DeltaData} {outStream output : List UInt8}
    (failed : makeDelta zstd prev cur outStream = (false, output)) : output = outStream := by
  unfold makeDelta at failed
  split at failed
  · simpa using failed.symm
  · dsimp only at failed
    split at failed
    · simp at failed
    · split at failed
      · simpa using failed.symm
      · simp at failed

private theorem createDelta_cases (zstd : Zstd) (generator : DeltaGenerator) (region : TileRegion)
    (loc : TileLocation) (wid : TileWireId) (forceKeyframe : Bool) :
    (∃ kept, generator.createDelta zstd region.bitmap loc [] wid forceKeyframe = (false, [], kept)) ∨
      ∃ data kept prev, generator.createDelta zstd region.bitmap loc [] wid forceKeyframe =
          (true, data, kept) ∧ forceKeyframe = false ∧
        MadeDelta zstd generator region loc wid data prev := by
  by_cases even : region.width % 2 = 0
  · have bitmapEven : region.bitmap.width % 2 = 0 := even
    let update := DeltaData.ofBitmap wid region.bitmap loc bitmapEven
    rw [DeltaGenerator.createDelta, dif_pos bitmapEven]
    cases found : generator.deltaEntries.find? loc with
    | none => exact .inl ⟨_, rfl⟩
    | some prev =>
        cases forceKeyframe with
        | true => exact .inl ⟨_, rfl⟩
        | false =>
            cases made : makeDelta zstd prev update [] with
            | mk delta data =>
                cases delta with
                | true =>
                    refine .inr ⟨data, generator.replace update, prev, ?_, rfl, even, found, made⟩
                    simp only [Bool.false_eq_true, ↓reduceIte, made, update]
                | false =>
                    refine .inl ⟨generator.replace update, ?_⟩
                    obtain rfl : data = [] := makeDelta_false made
                    simp only [Bool.false_eq_true, ↓reduceIte, made, update]
  · have bitmapOdd : ¬ region.bitmap.width % 2 = 0 := even
    exact .inl ⟨generator, by rw [DeltaGenerator.createDelta, dif_neg bitmapOdd]⟩

theorem compressOrDelta_cases {zstd : Zstd} (lossless : zstd.Lossless) (generator : DeltaGenerator)
    (region : TileRegion) (loc : TileLocation) (wid : TileWireId) (forceKeyframe : Bool) :
    let data := (generator.compressOrDelta zstd region loc wid forceKeyframe).1
    (∃ frame, data = 90 :: frame ∧ zstd.Stores frame region.bitmap.image) ∨
      forceKeyframe = false ∧ ∃ prev, MadeDelta zstd generator region loc wid data prev := by
  rcases createDelta_cases zstd generator region loc wid forceKeyframe with
    ⟨kept, created⟩ | ⟨data, kept, prev, created, allowed, made⟩
  · obtain ⟨frame, compressing⟩ := lossless.compressStream_total
      ((List.range region.height).map fun y => unpremultCopy (region.row y))
    refine .inl ⟨frame, ?_, fun rest => ?_⟩
    · simp only [DeltaGenerator.compressOrDelta, created, compressing, List.nil_append]
    · rw [← keyframe_lines]
      exact lossless.decompress_stream rest compressing
  · refine .inr ⟨allowed, prev, ?_⟩
    simpa only [DeltaGenerator.compressOrDelta, created] using made

private theorem mem_replace {generator : DeltaGenerator} {update entry : DeltaData}
    (member : entry ∈ (generator.replace update).deltaEntries) :
    (entry ∈ generator.deltaEntries ∧ entry.loc ≠ update.loc) ∨ entry = update := by
  simp only [DeltaGenerator.replace, Keyed.mem_update] at member
  obtain ⟨old, oldMember, rfl⟩ := member
  split
  · exact .inr rfl
  · next other => exact .inl ⟨oldMember, other⟩

private theorem deltaEntries_compressOrDelta (zstd : Zstd) (generator : DeltaGenerator)
    (region : TileRegion) (loc : TileLocation) (wid : TileWireId) (forceKeyframe : Bool) :
    (generator.compressOrDelta zstd region loc wid forceKeyframe).2 =
      (generator.createDelta zstd region.bitmap loc [] wid forceKeyframe).2.2 := by
  unfold DeltaGenerator.compressOrDelta
  split
  · next created => rw [created]
  · next created =>
      rw [created]
      split <;> rfl

theorem mem_compressOrDelta {zstd : Zstd} {generator : DeltaGenerator} {region : TileRegion}
    {loc : TileLocation} {wid : TileWireId} {forceKeyframe : Bool} {entry : DeltaData}
    (even : region.width % 2 = 0)
    (member : entry ∈ (generator.compressOrDelta zstd region loc wid forceKeyframe).2.deltaEntries) :
    (entry ∈ generator.deltaEntries ∧ entry.loc ≠ loc) ∨ entry = region.kept wid loc even := by
  have bitmapEven : region.bitmap.width % 2 = 0 := even
  rw [deltaEntries_compressOrDelta, DeltaGenerator.createDelta, dif_pos bitmapEven] at member
  cases found : generator.deltaEntries.find? loc with
  | none =>
      simp only [found] at member
      rcases (Keyed.mem_insert_new found).mp member with old | new
      · exact .inl ⟨old, Keyed.find?_none found old⟩
      · exact .inr new
  | some prev =>
      simp only [found] at member
      exact mem_replace member

theorem compressOrDelta_odd {zstd : Zstd} {generator : DeltaGenerator} {region : TileRegion}
    {loc : TileLocation} {wid : TileWireId} {forceKeyframe : Bool} (odd : ¬ region.width % 2 = 0) :
    (generator.compressOrDelta zstd region loc wid forceKeyframe).2 = generator := by
  have bitmapOdd : ¬ region.bitmap.width % 2 = 0 := odd
  rw [deltaEntries_compressOrDelta, DeltaGenerator.createDelta, dif_neg bitmapOdd]

theorem mem_rebalanceDeltasT {generator : DeltaGenerator} {dropAll : Bool} {entry : DeltaData}
    (member : entry ∈ (generator.rebalanceDeltasT dropAll).deltaEntries) :
    entry ∈ generator.deltaEntries := by
  unfold DeltaGenerator.rebalanceDeltasT at member
  dsimp only at member
  split at member
  · exact (Keyed.mem_filter.mp member).1
  · exact member

theorem mem_rebalanceDeltas {generator : DeltaGenerator} {limit : Int} {entry : DeltaData}
    (member : entry ∈ (generator.rebalanceDeltas limit).deltaEntries) :
    entry ∈ generator.deltaEntries := by
  unfold DeltaGenerator.rebalanceDeltas at member
  have limited := mem_rebalanceDeltasT member
  split at limited <;> exact limited

end FreeOnline.Kit
