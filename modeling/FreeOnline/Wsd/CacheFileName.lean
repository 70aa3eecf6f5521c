import FreeOnline.Library.Scan
import FreeOnline.Wsd.TileCombinedText

/-!
# File names of cached tiles

What a tile is kept under has its key in it, in one format for the printer and the scanner.
-/

set_option autoImplicit false

namespace FreeOnline.Wsd

open FreeOnline.Common FreeOnline.Library

namespace TileCache

def cacheFileName (tile : TileDesc) : Text :=
  printInt tile.normalizedViewId ++ '_' :: printInt tile.part ++ '_' :: printInt tile.mode ++ '_' ::
    printInt tile.width ++ 'x' :: printInt tile.height ++ '.' ::
    printInt tile.tilePosX ++ ',' :: printInt tile.tilePosY ++ '.' ::
    printInt tile.tileWidth ++ 'x' :: printInt tile.tileHeight ++ ".png".toList

/-- `"%d_%d_%d_%dx%d.%d,%d.%dx%d.png"` -/
def cacheFileFormat : Format :=
  [.number, .literal '_', .number, .literal '_', .number, .literal '_',
    .number, .literal 'x', .number, .literal '.', .number, .literal ',', .number, .literal '.',
    .number, .literal 'x', .number, .literal '.', .literal 'p', .literal 'n', .literal 'g']

/-- A number goes through a long, of which an int is stored. -/
def scanned (fileName : Text) : List Int :=
  (cacheFileFormat.scan fileName).map fun value => toInt32 (clampLong value)

/-- Whether the name was taken for one of a tile, and the variables that the caller handed in.
What is not scanned is left as it was. -/
def parseCacheFileName (fileName : Text) (known : TileKey) : Bool × TileKey :=
  let values := scanned fileName
  (decide (values.length = 8),
    { normalizedViewId := values.getD 0 known.normalizedViewId
      part := values.getD 1 known.part
      mode := values.getD 2 known.mode
      width := values.getD 3 known.width
      height := values.getD 4 known.height
      tilePosX := values.getD 5 known.tilePosX
      tilePosY := values.getD 6 known.tilePosY
      tileWidth := values.getD 7 known.tileWidth
      tileHeight := values.getD 8 known.tileHeight })

/-!
## The numbers of a name
-/

/-- The fields in the order of the format. -/
def cacheFileNumbers (tile : TileDesc) : List Int :=
  [tile.normalizedViewId, tile.part, tile.mode, tile.width, tile.height, tile.tilePosX,
    tile.tilePosY, tile.tileWidth, tile.tileHeight]

theorem separated_cacheFileFormat : cacheFileFormat.Separated := by
  unfold cacheFileFormat
  repeat' constructor

theorem cacheFileName_eq (tile : TileDesc) :
    cacheFileName tile = cacheFileFormat.write (cacheFileNumbers tile) := by
  simp [cacheFileName, cacheFileFormat, cacheFileNumbers, Format.write]

theorem scan_cacheFileName (tile : TileDesc) :
    cacheFileFormat.scan (cacheFileName tile) = cacheFileNumbers tile := by
  rw [cacheFileName_eq]
  exact Format.scan_write separated_cacheFileFormat rfl

theorem cacheFileNumbers_iff (tile other : TileDesc) :
    cacheFileNumbers tile = cacheFileNumbers other ↔ tile.cacheKey = other.cacheKey := by
  simp only [cacheFileNumbers, TileDesc.cacheKey, List.cons.injEq, TileKey.mk.injEq, and_true]
  tauto

theorem cacheFileName_iff (tile other : TileDesc) :
    cacheFileName tile = cacheFileName other ↔ tileDescCacheCompareEq tile other = true := by
  rw [tileDescCacheCompareEq_iff, ← cacheFileNumbers_iff]
  constructor
  · intro same
    rw [← scan_cacheFileName tile, same, scan_cacheFileName]
  · intro same
    rw [cacheFileName_eq, same, cacheFileName_eq]

/-- All nine variables are set to the fields. -/
theorem scanned_cacheFileName {tile : TileDesc} (fits : tile.FitsInt) :
    scanned (cacheFileName tile) = cacheFileNumbers tile := by
  have kept {value : Int} (notNegative : 0 ≤ value) (isInt : value ≤ intMax) :
      toInt32 (clampLong value) = value := by
    have inside : clampLong value = value := by
      unfold clampLong longMax
      unfold intMax at isInt
      omega
    rw [inside, toInt32_of_fits ⟨Int.le_trans (by decide) notNegative, isInt⟩]
  obtain ⟨viewId, part, mode, width, height, posX, posY, tileWidth, tileHeight, -⟩ := tile.valid
  rw [scanned, scan_cacheFileName]
  simp only [cacheFileNumbers, List.map_cons, List.map_nil, kept viewId fits.normalizedViewId,
    kept part fits.part, kept mode fits.mode, kept (Int.le_of_lt width) fits.width,
    kept (Int.le_of_lt height) fits.height, kept posX fits.tilePosX, kept posY fits.tilePosY,
    kept (Int.le_of_lt tileWidth) fits.tileWidth, kept (Int.le_of_lt tileHeight) fits.tileHeight]

/-- Nine numbers are counted, and eight expected. -/
theorem parseCacheFileName_refuses (tile : TileDesc) (known : TileKey) :
    (parseCacheFileName (cacheFileName tile) known).1 = false := by
  simp only [parseCacheFileName, scanned, scan_cacheFileName, List.length_map, cacheFileNumbers,
    List.length_cons, List.length_nil]
  decide

/-!
## The round trip
-/

/-- The name of the tile is read as one, whatever was known before. -/
def ReadsName (tile : TileDesc) (known : TileKey) : Prop :=
  parseCacheFileName (cacheFileName tile) known = (true, tile.cacheKey)

/-- Names are read again, and tiles of one name are the same to the cache. -/
def NamesRoundTrip : Prop :=
  (∀ (tile : TileDesc) (known : TileKey), tile.FitsInt → ReadsName tile known) ∧
    ∀ tile other : TileDesc, cacheFileName tile = cacheFileName other →
      tileDescCacheCompareEq tile other = true

/-- The name of no tile is taken for one, as `sscanf` counts nine numbers in it. They are the
right ones, and tiles have the same name just if they are the same to the cache. -/
theorem names_not_read (tile : TileDesc) (known : TileKey) :
    ¬ ReadsName tile known ∧
      (tile.FitsInt →
        parseCacheFileName (cacheFileName tile) known = (false, tile.cacheKey)) ∧
      ∀ other : TileDesc,
        cacheFileName tile = cacheFileName other ↔ tileDescCacheCompareEq tile other = true := by
  have refuses := parseCacheFileName_refuses tile known
  refine ⟨?_, ?_, cacheFileName_iff tile⟩
  · intro reads
    rw [show parseCacheFileName _ known = _ from reads] at refuses
    cases refuses
  · intro fits
    refine Prod.ext refuses ?_
    simp only [parseCacheFileName, scanned_cacheFileName fits]
    rfl

def namedTile : TileDesc where
  normalizedViewId := 0
  part := 0
  mode := 0
  width := 256
  height := 256
  tilePosX := 0
  tilePosY := 0
  tileWidth := 3840
  tileHeight := 3840
  ver := -1
  imgSize := 0
  id := -1
  broadcast := false
  oldWireId := 0
  wireId := 0
  valid := TileDesc.valid_origin

theorem fitsInt_namedTile : namedTile.FitsInt := by
  constructor <;> decide

theorem names_not_read_namedTile :
    parseCacheFileName (cacheFileName namedTile) namedTile.cacheKey =
      (false, namedTile.cacheKey) :=
  (names_not_read namedTile namedTile.cacheKey).2.1 fitsInt_namedTile

theorem not_namesRoundTrip : ¬ NamesRoundTrip := by
  rintro ⟨reads, -⟩
  have refuses := parseCacheFileName_refuses namedTile namedTile.cacheKey
  rw [show parseCacheFileName _ _ = _ from reads namedTile namedTile.cacheKey fitsInt_namedTile]
    at refuses
  cases refuses

end TileCache

end FreeOnline.Wsd
