import FreeOnline.Kit.Bitmap

/-!
# Tile descriptors

A tile's coordinates and dimensions, and the two notions of "the same tile": the
operator of the descriptor itself and the comparison of the tile cache.
-/

set_option autoImplicit false

namespace FreeOnline.Wsd

open FreeOnline.Kit (TileWireId)

/-- A tile descriptor. The constructor throws on fields outside these bounds. -/
structure TileDesc where
  normalizedViewId : Int
  part : Int
  mode : Int
  width : Int
  height : Int
  tilePosX : Int
  tilePosY : Int
  tileWidth : Int
  tileHeight : Int
  ver : Int
  imgSize : Int
  id : Int
  broadcast : Bool
  oldWireId : TileWireId
  wireId : TileWireId
  valid : 0 ≤ normalizedViewId ∧ 0 ≤ part ∧ 0 ≤ mode ∧ 0 < width ∧ 0 < height ∧ 0 ≤ tilePosX ∧
    0 ≤ tilePosY ∧ 0 < tileWidth ∧ 0 < tileHeight ∧ 0 ≤ imgSize
deriving DecidableEq

/-- What `valid` asks for, for a tile at the origin. -/
theorem TileDesc.valid_origin : (0 : Int) ≤ 0 ∧ (0 : Int) ≤ 0 ∧ (0 : Int) ≤ 0 ∧ (0 : Int) < 256 ∧
    (0 : Int) < 256 ∧ (0 : Int) ≤ 0 ∧ (0 : Int) ≤ 0 ∧ (0 : Int) < 3840 ∧ (0 : Int) < 3840 ∧
    (0 : Int) ≤ 0 := by
  decide

def TileDesc.setVersion (desc : TileDesc) (ver : Int) : TileDesc :=
  { desc with ver := ver }

def TileDesc.asRendered (desc : TileDesc) (wireId : TileWireId) (imgSize : Nat) : TileDesc :=
  { desc with
    wireId := wireId
    imgSize := imgSize
    valid := by
      obtain ⟨viewId, part, mode, width, height, posX, posY, tileWidth, tileHeight, _⟩ := desc.valid
      exact ⟨viewId, part, mode, width, height, posX, posY, tileWidth, tileHeight, by omega⟩ }

def TileDesc.beq (desc other : TileDesc) : Bool :=
  desc.part == other.part &&
    desc.width == other.width &&
    desc.height == other.height &&
    desc.tilePosX == other.tilePosX &&
    desc.tilePosY == other.tilePosY &&
    desc.tileWidth == other.tileWidth &&
    desc.tileHeight == other.tileHeight &&
    desc.id == other.id &&
    desc.broadcast == other.broadcast &&
    desc.normalizedViewId == other.normalizedViewId &&
    desc.mode == other.mode

def tileDescCacheCompareEq (l r : TileDesc) : Bool :=
  l.part == r.part &&
    l.width == r.width &&
    l.height == r.height &&
    l.tilePosX == r.tilePosX &&
    l.tilePosY == r.tilePosY &&
    l.tileWidth == r.tileWidth &&
    l.tileHeight == r.tileHeight &&
    l.normalizedViewId == r.normalizedViewId &&
    l.mode == r.mode

structure TileKey where
  part : Int
  width : Int
  height : Int
  tilePosX : Int
  tilePosY : Int
  tileWidth : Int
  tileHeight : Int
  normalizedViewId : Int
  mode : Int
deriving DecidableEq, Repr

def TileDesc.cacheKey (desc : TileDesc) : TileKey where
  part := desc.part
  width := desc.width
  height := desc.height
  tilePosX := desc.tilePosX
  tilePosY := desc.tilePosY
  tileWidth := desc.tileWidth
  tileHeight := desc.tileHeight
  normalizedViewId := desc.normalizedViewId
  mode := desc.mode

theorem tileDescCacheCompareEq_iff (l r : TileDesc) :
    tileDescCacheCompareEq l r = true ↔ l.cacheKey = r.cacheKey := by
  simp [tileDescCacheCompareEq, TileDesc.cacheKey, and_assoc]

theorem TileDesc.beq_iff (desc other : TileDesc) :
    desc.beq other = true ↔
      desc.cacheKey = other.cacheKey ∧ desc.id = other.id ∧ desc.broadcast = other.broadcast := by
  simp only [TileDesc.beq, TileDesc.cacheKey, Bool.and_eq_true, beq_iff_eq, TileKey.mk.injEq]
  constructor
  · rintro ⟨⟨⟨⟨⟨⟨⟨⟨⟨⟨part, width⟩, height⟩, posX⟩, posY⟩, tileWidth⟩, tileHeight⟩, id⟩, broadcast⟩,
      viewId⟩, mode⟩
    exact ⟨⟨part, width, height, posX, posY, tileWidth, tileHeight, viewId, mode⟩, id, broadcast⟩
  · rintro ⟨⟨part, width, height, posX, posY, tileWidth, tileHeight, viewId, mode⟩, id, broadcast⟩
    exact ⟨⟨⟨⟨⟨⟨⟨⟨⟨⟨part, width⟩, height⟩, posX⟩, posY⟩, tileWidth⟩, tileHeight⟩, id⟩, broadcast⟩,
      viewId⟩, mode⟩

end FreeOnline.Wsd
