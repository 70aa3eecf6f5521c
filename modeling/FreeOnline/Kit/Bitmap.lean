import Mathlib.Algebra.Ring.Int.Defs
import Mathlib.Algebra.Ring.Nat
import Mathlib.Data.List.Basic

/-!
# Tile bitmaps of the kit

Rendered pixels, their conversion to the RGBA bytes the browser draws, and the
annotated copy of a tile that the delta generator keeps between two renderings.
-/

set_option autoImplicit false

namespace FreeOnline.Kit

abbrev TileWireId := UInt32

structure TileLocation where
  left : Int
  top : Int
  size : Int
  part : Int
  canonicalViewId : Int
deriving DecidableEq, Repr

/-!
## Un-premultiplying
-/

/-- The four RGBA bytes of one native-endian premultiplied ARGB pixel. Division
is unsigned and the quotient is cut to a byte, as the store through
`unsigned char *` does. -/
def unpremultPixel (pix : UInt32) : List UInt8 :=
  let alpha := (pix &&& 0xff000000) >>> 24
  let red := (pix &&& 0xff0000) >>> 16
  let green := (pix &&& 0x00ff00) >>> 8
  let blue := pix &&& 0x0000ff
  if alpha = 255 then [red.toUInt8, green.toUInt8, blue.toUInt8, 255]
  else if alpha = 0 then [0, 0, 0, 0]
  else
    [((red * 255 + alpha / 2) / alpha).toUInt8,
      ((green * 255 + alpha / 2) / alpha).toUInt8,
      ((blue * 255 + alpha / 2) / alpha).toUInt8,
      alpha.toUInt8]

/-- The bytes written for `pix` when `last` is the pixel before it with the bytes
written there: a run of equal pixels copies them. -/
def unpremultNext (last : Option (UInt32 × List UInt8)) (pix : UInt32) : List UInt8 :=
  match last with
  | some (lastPix, lastBytes) => if lastPix = pix then lastBytes else unpremultPixel pix
  | none => unpremultPixel pix

def unpremultCopyFrom (last : Option (UInt32 × List UInt8)) : List UInt32 → List UInt8
  | [] => []
  | pix :: rest =>
      unpremultNext last pix ++ unpremultCopyFrom (some (pix, unpremultNext last pix)) rest

def unpremultCopy (src : List UInt32) : List UInt8 :=
  unpremultCopyFrom none src

def unpremultiplied (pixels : List UInt32) : List UInt8 :=
  pixels.flatMap unpremultPixel

@[simp] theorem length_unpremultPixel (pix : UInt32) : (unpremultPixel pix).length = 4 := by
  unfold unpremultPixel
  dsimp only
  split
  · rfl
  · split <;> rfl

@[simp] theorem unpremultiplied_nil : unpremultiplied [] = [] := rfl

@[simp] theorem unpremultiplied_append (left right : List UInt32) :
    unpremultiplied (left ++ right) = unpremultiplied left ++ unpremultiplied right := by
  simp [unpremultiplied]

@[simp] theorem length_unpremultiplied (pixels : List UInt32) :
    (unpremultiplied pixels).length = 4 * pixels.length := by
  induction pixels with
  | nil => rfl
  | cons pix rest ih =>
      simp only [unpremultiplied, List.flatMap_cons, List.length_append,
        length_unpremultPixel, List.length_cons] at ih ⊢
      omega

private theorem unpremultNext_eq {last : Option (UInt32 × List UInt8)} (pix : UInt32)
    (faithful : ∀ entry ∈ last, entry.2 = unpremultPixel entry.1) :
    unpremultNext last pix = unpremultPixel pix := by
  rcases last with _ | ⟨lastPix, lastBytes⟩
  · rfl
  · have carried : lastBytes = unpremultPixel lastPix := faithful _ rfl
    simp only [unpremultNext]
    split
    · next same => rw [carried, same]
    · rfl

private theorem unpremultCopyFrom_eq (src : List UInt32) :
    ∀ last : Option (UInt32 × List UInt8),
      (∀ entry ∈ last, entry.2 = unpremultPixel entry.1) →
      unpremultCopyFrom last src = unpremultiplied src := by
  induction src with
  | nil => intro last _; rfl
  | cons pix rest ih =>
      intro last faithful
      have bytes := unpremultNext_eq pix faithful
      have tail := ih (some (pix, unpremultNext last pix)) (by
        intro entry member
        cases member
        exact bytes)
      rw [unpremultCopyFrom, tail, bytes]
      rfl

theorem unpremultCopy_eq (src : List UInt32) :
    unpremultCopy src = unpremultiplied src :=
  unpremultCopyFrom_eq src none (by simp)

/-!
## Bitmaps and their annotated copies
-/

structure Bitmap where
  width : Nat
  height : Nat
  rows : List (List UInt32)
  rows_length : rows.length = height
  row_length : ∀ row ∈ rows, row.length = width

def Bitmap.image (bitmap : Bitmap) : List UInt8 :=
  bitmap.rows.flatMap unpremultiplied

theorem Bitmap.length_image (bitmap : Bitmap) :
    bitmap.image.length = bitmap.width * bitmap.height * 4 := by
  have total : ∀ rows : List (List UInt32), (∀ row ∈ rows, row.length = bitmap.width) →
      (rows.flatMap unpremultiplied).length = bitmap.width * rows.length * 4 := by
    intro rows
    induction rows with
    | nil => intro _; simp
    | cons row rows ih =>
        intro even
        have here := even row List.mem_cons_self
        have tail := ih fun later member => even later (List.mem_cons_of_mem _ member)
        simp only [List.flatMap_cons, List.length_append, length_unpremultiplied, tail, here,
          List.length_cons, Nat.mul_add]
        omega
  rw [Bitmap.image, total bitmap.rows bitmap.row_length, bitmap.rows_length]

/-- The arguments by which a tile is cut out of a rendered pixmap. The three
bounds are asserted by the constructor of `DeltaData` or hold by allocation. -/
structure TileRegion where
  pixmap : List UInt32
  startX : Nat
  startY : Nat
  width : Nat
  height : Nat
  bufferWidth : Nat
  bufferHeight : Nat
  pixmap_length : pixmap.length = bufferWidth * bufferHeight
  columns_inside : startX + width ≤ bufferWidth
  rows_inside : startY + height ≤ bufferHeight

def TileRegion.row (region : TileRegion) (y : Nat) : List UInt32 :=
  let position := (region.startY + y) * region.bufferWidth + region.startX
  (region.pixmap.drop position).take region.width

theorem TileRegion.length_row (region : TileRegion) {y : Nat} (inside : y < region.height) :
    (region.row y).length = region.width := by
  have below : region.startY + y + 1 ≤ region.bufferHeight := by
    have := region.rows_inside
    omega
  have rowEnd : (region.startY + y) * region.bufferWidth + region.bufferWidth ≤
      region.bufferWidth * region.bufferHeight := by
    calc (region.startY + y) * region.bufferWidth + region.bufferWidth
        = region.bufferWidth * (region.startY + y + 1) := by
          rw [Nat.mul_add, Nat.mul_one, Nat.mul_comm]
      _ ≤ region.bufferWidth * region.bufferHeight := Nat.mul_le_mul_left _ below
  have columns := region.columns_inside
  simp only [TileRegion.row, List.length_take, List.length_drop, region.pixmap_length]
  omega

def TileRegion.bitmap (region : TileRegion) : Bitmap where
  width := region.width
  height := region.height
  rows := (List.range region.height).map region.row
  rows_length := by simp
  row_length := by
    intro row member
    obtain ⟨y, inside, rfl⟩ := List.mem_map.mp member
    exact region.length_row (List.mem_range.mp inside)

/-- The hash of `copyWithCrc`, with the pixels it copied: two at a time, as one
little-endian 64-bit word. -/
def copyWithCrcFrom (crc : UInt64) : List UInt32 → UInt64 × List UInt32
  | low :: high :: rest =>
      let word := low.toUInt64 ||| (high.toUInt64 <<< 32)
      let (final, copied) := copyWithCrcFrom ((crc <<< 7) + crc + word) rest
      (final, low :: high :: copied)
  | _ => (crc, [])

def copyWithCrc (source : List UInt32) : UInt64 × List UInt32 :=
  copyWithCrcFrom (0x7fffffff - 1) source

private theorem copyWithCrcFrom_copies :
    ∀ (source : List UInt32) (crc : UInt64), source.length % 2 = 0 →
      (copyWithCrcFrom crc source).2 = source
  | [], _, _ => rfl
  | [_], _, even => by simp at even
  | low :: high :: rest, crc, even => by
      have restEven : rest.length % 2 = 0 := by
        simp only [List.length_cons] at even
        omega
      simp only [copyWithCrcFrom, copyWithCrcFrom_copies rest _ restEven]

theorem copyWithCrc_copies {source : List UInt32} (even : source.length % 2 = 0) :
    (copyWithCrc source).2 = source :=
  copyWithCrcFrom_copies source _ even

structure DeltaBitmapRow where
  crc : UInt64
  pixels : List UInt32
deriving DecidableEq, Repr

def DeltaBitmapRow.ofPixels (source : List UInt32) : DeltaBitmapRow :=
  let (crc, pixels) := copyWithCrc source
  ⟨crc, pixels⟩

def DeltaBitmapRow.identical (row other : DeltaBitmapRow) : Bool :=
  if row.crc ≠ other.crc then false else row.pixels == other.pixels

/-- A bitmap tile with annotated rows and details on its location. The rows
have the width and height stored beside them and carry the hash of their own
pixels, since only the constructor writes them. -/
structure DeltaData where
  loc : TileLocation
  wid : TileWireId
  width : Nat
  height : Nat
  rows : List DeltaBitmapRow
  rows_length : rows.length = height
  row_valid : ∀ row ∈ rows, row.pixels.length = width ∧ row.crc = (copyWithCrc row.pixels).1

def DeltaData.ofBitmap (wid : TileWireId) (bitmap : Bitmap) (loc : TileLocation)
    (even : bitmap.width % 2 = 0) : DeltaData where
  loc := loc
  wid := wid
  width := bitmap.width
  height := bitmap.height
  rows := bitmap.rows.map DeltaBitmapRow.ofPixels
  rows_length := by simp [bitmap.rows_length]
  row_valid := by
    intro row member
    obtain ⟨pixels, inside, rfl⟩ := List.mem_map.mp member
    have width := bitmap.row_length pixels inside
    have copied : (DeltaBitmapRow.ofPixels pixels).pixels = pixels :=
      copyWithCrc_copies (by rw [width]; exact even)
    exact ⟨by rw [copied, width], by rw [copied]; rfl⟩

def DeltaData.getRow (data : DeltaData) (y : Nat) : DeltaBitmapRow :=
  data.rows.getD y ⟨0, []⟩

def DeltaData.image (data : DeltaData) : List UInt8 :=
  data.rows.flatMap fun row => unpremultiplied row.pixels

theorem DeltaData.getRow_mem (data : DeltaData) {y : Nat} (inside : y < data.height) :
    data.getRow y ∈ data.rows := by
  have bound : y < data.rows.length := by rw [data.rows_length]; exact inside
  simp only [DeltaData.getRow, List.getD_eq_getElem?_getD, List.getElem?_eq_getElem bound,
    Option.getD_some]
  exact List.getElem_mem bound

theorem DeltaData.length_getRow (data : DeltaData) {y : Nat} (inside : y < data.height) :
    (data.getRow y).pixels.length = data.width :=
  (data.row_valid _ (data.getRow_mem inside)).1

/-- The hash never tells equal rows apart, so the row test is equality of pixels. -/
theorem DeltaData.identical_iff (left right : DeltaData) {y z : Nat}
    (leftInside : y < left.height) (rightInside : z < right.height) :
    (left.getRow y).identical (right.getRow z) = true ↔
      (left.getRow y).pixels = (right.getRow z).pixels := by
  have leftCrc := (left.row_valid _ (left.getRow_mem leftInside)).2
  have rightCrc := (right.row_valid _ (right.getRow_mem rightInside)).2
  unfold DeltaBitmapRow.identical
  constructor
  · intro accepted
    split at accepted
    · cases accepted
    · exact beq_iff_eq.mp accepted
  · intro same
    rw [if_neg (by rw [leftCrc, rightCrc, same]; simp), same]
    simp

theorem DeltaData.image_ofBitmap (wid : TileWireId) (bitmap : Bitmap) (loc : TileLocation)
    (even : bitmap.width % 2 = 0) :
    (DeltaData.ofBitmap wid bitmap loc even).image = bitmap.image := by
  simp only [DeltaData.image, DeltaData.ofBitmap, Bitmap.image, List.flatMap_map]
  apply List.flatMap_congr
  intro row member
  have copied : (DeltaBitmapRow.ofPixels row).pixels = row :=
    copyWithCrc_copies (by rw [bitmap.row_length row member]; exact even)
  rw [copied]

end FreeOnline.Kit
