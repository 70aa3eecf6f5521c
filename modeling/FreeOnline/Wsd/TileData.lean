import FreeOnline.Kit.Bitmap

/-!
# Cached tile data

A cached tile is one buffer that holds a keyframe followed by deltas, with the
wire id and the start offset of each. Seen from outside it is a list of blobs.
-/

set_option autoImplicit false

namespace FreeOnline.Wsd

open FreeOnline.Kit (TileWireId)

structure TileData where
  valid : Bool
  wids : List TileWireId
  offsets : List Nat
  deltas : List UInt8
deriving DecidableEq, Repr

namespace TileData

def isKeyframe (data : List UInt8) : Bool :=
  match data with
  | [] => false
  | first :: _ => first == 90 || first == 0x89

def size (tile : TileData) : Nat :=
  tile.deltas.length

/-- Adds a frame or delta. The first byte says which of them the kit made and is
not stored. -/
def appendBlob (tile : TileData) (id : TileWireId) (data : List UInt8) : TileData :=
  let kept := if isKeyframe data then { tile with wids := [], offsets := [], deltas := [] } else tile
  { valid := true
    wids := kept.wids ++ [id]
    offsets := kept.offsets ++ [kept.deltas.length]
    deltas := kept.deltas ++ data.tail }

def ofBlob (start : TileWireId) (data : List UInt8) : TileData :=
  appendBlob ⟨false, [], [], []⟩ start data

def isPng (tile : TileData) : Bool :=
  decide (1 < tile.deltas.length) && tile.deltas.head? == some 0x89

def invalidate (tile : TileData) : TileData :=
  { tile with valid := false }

def needsKeyframe (tile : TileData) (since : TileWireId) : Bool :=
  decide (since < tile.wids.headD 0)

def appendChangesSince (tile : TileData) (output : List UInt8) (since : TileWireId) :
    Bool × List UInt8 :=
  let i := (tile.wids.takeWhile fun wid => since != 0 && decide (wid ≤ since)).length
  if i ≥ tile.wids.length then (false, output)
  else (true, output ++ tile.deltas.drop (tile.offsets.getD i 0))

/-!
## Tiles as lists of blobs
-/

abbrev Blob := TileWireId × List UInt8

def offsetsFrom (offset : Nat) : List Blob → List Nat
  | [] => []
  | (_, bytes) :: blobs => offset :: offsetsFrom (offset + bytes.length) blobs

structure Holds (tile : TileData) (blobs : List Blob) : Prop where
  wids : tile.wids = blobs.map Prod.fst
  offsets : tile.offsets = offsetsFrom 0 blobs
  deltas : tile.deltas = blobs.flatMap Prod.snd

theorem offsetsFrom_append (offset : Nat) (blobs : List Blob) (id : TileWireId)
    (bytes : List UInt8) :
    offsetsFrom offset (blobs ++ [(id, bytes)]) =
      offsetsFrom offset blobs ++ [offset + (blobs.flatMap Prod.snd).length] := by
  induction blobs generalizing offset with
  | nil => simp [offsetsFrom]
  | cons blob blobs ih =>
      simp only [List.cons_append, offsetsFrom, ih, List.flatMap_cons, List.length_append,
        Nat.add_assoc]

theorem Holds.append {tile : TileData} {blobs : List Blob} (holds : tile.Holds blobs)
    (id : TileWireId) {data : List UInt8} (delta : isKeyframe data = false) :
    (tile.appendBlob id data).Holds (blobs ++ [(id, data.tail)]) where
  wids := by simp [appendBlob, delta, holds.wids]
  offsets := by
    rw [offsetsFrom_append]
    simp [appendBlob, delta, holds.offsets, holds.deltas]
  deltas := by simp [appendBlob, delta, holds.deltas]

theorem holds_keyframe (tile : TileData) (id : TileWireId) {data : List UInt8}
    (keyframe : isKeyframe data = true) :
    (tile.appendBlob id data).Holds [(id, data.tail)] where
  wids := by simp [appendBlob, keyframe]
  offsets := by simp [appendBlob, keyframe, offsetsFrom]
  deltas := by simp [appendBlob, keyframe]

theorem holds_ofBlob (id : TileWireId) (data : List UInt8) :
    (ofBlob id data).Holds [(id, data.tail)] where
  wids := by simp [ofBlob, appendBlob]
  offsets := by simp [ofBlob, appendBlob, offsetsFrom]
  deltas := by simp [ofBlob, appendBlob]

theorem mem_offsetsFrom {blobs : List Blob} {offset start : Nat}
    (member : start ∈ offsetsFrom offset blobs) :
    offset ≤ start ∧ start ≤ offset + (blobs.flatMap Prod.snd).length := by
  induction blobs generalizing offset with
  | nil => cases member
  | cons blob blobs ih =>
      rw [List.flatMap_cons, List.length_append]
      rcases List.mem_cons.mp member with rfl | later
      · exact ⟨Nat.le_refl _, by omega⟩
      · have bounds := ih later
        omega

theorem pairwise_offsetsFrom (offset : Nat) (blobs : List Blob) :
    (offsetsFrom offset blobs).Pairwise (· ≤ ·) := by
  induction blobs generalizing offset with
  | nil => exact List.Pairwise.nil
  | cons blob blobs ih =>
      refine List.pairwise_cons.mpr ⟨fun start later => ?_, ih (offset + blob.2.length)⟩
      have bounds := mem_offsetsFrom later
      omega

/-- The tables of the wire ids and of the offsets fit each other and the data. -/
structure Tables (tile : TileData) : Prop where
  length : tile.wids.length = tile.offsets.length
  start : tile.offsets.head? = some 0
  sorted : tile.offsets.Pairwise (· ≤ ·)
  inside : ∀ offset ∈ tile.offsets, offset ≤ tile.deltas.length

theorem Holds.tables {tile : TileData} {first : Blob} {blobs : List Blob}
    (holds : tile.Holds (first :: blobs)) : tile.Tables where
  length := by
    have same (offset : Nat) (blobs : List Blob) :
        (offsetsFrom offset blobs).length = blobs.length := by
      induction blobs generalizing offset with
      | nil => rfl
      | cons blob blobs ih => simp only [offsetsFrom, List.length_cons, ih]
    rw [holds.wids, holds.offsets, List.length_map, same]
  start := by
    rw [holds.offsets]
    rfl
  sorted := by
    rw [holds.offsets]
    exact pairwise_offsetsFrom 0 _
  inside := by
    intro offset member
    rw [holds.offsets] at member
    rw [holds.deltas]
    simpa only [Nat.zero_add] using (mem_offsetsFrom member).2

private theorem le_offsetsFrom {blobs : List Blob} (offset : Nat) {i : Nat}
    (inside : i < blobs.length) : offset ≤ (offsetsFrom offset blobs).getD i 0 := by
  induction blobs generalizing offset i with
  | nil => simp at inside
  | cons blob blobs ih =>
      cases i with
      | zero => simp [offsetsFrom]
      | succ i =>
          have tail := ih (offset + blob.2.length) (i := i) (by simpa using inside)
          simp only [offsetsFrom, List.getD_cons_succ]
          omega

private theorem drop_offset (blobs : List Blob) (offset i : Nat) (inside : i < blobs.length) :
    (blobs.flatMap Prod.snd).drop ((offsetsFrom offset blobs).getD i 0 - offset) =
      (blobs.drop i).flatMap Prod.snd := by
  induction blobs generalizing offset i with
  | nil => simp at inside
  | cons blob blobs ih =>
      cases i with
      | zero => simp [offsetsFrom]
      | succ i =>
          have shorter : i < blobs.length := by simpa using inside
          have tail := ih (offset + blob.2.length) i shorter
          have later := le_offsetsFrom (offset + blob.2.length) shorter
          simp only [offsetsFrom, List.getD_cons_succ, List.flatMap_cons, List.drop_succ_cons]
          rw [← tail, List.drop_append]
          have past : blob.2.drop ((offsetsFrom (offset + blob.2.length) blobs).getD i 0 - offset) =
              [] := List.drop_eq_nil_of_le (by omega)
          rw [past, List.nil_append]
          congr 1
          omega

theorem Holds.appendChangesSince {tile : TileData} {blobs : List Blob} (holds : tile.Holds blobs)
    (output : List UInt8) (since : TileWireId) :
    tile.appendChangesSince output since =
      let later := blobs.dropWhile fun blob => since != 0 && decide (blob.1 ≤ since)
      if later = [] then (false, output) else (true, output ++ later.flatMap Prod.snd) := by
  let skips := fun blob : Blob => since != 0 && decide (blob.1 ≤ since)
  have count : (tile.wids.takeWhile fun wid => since != 0 && decide (wid ≤ since)).length =
      (blobs.takeWhile skips).length := by
    rw [holds.wids, List.takeWhile_map, List.length_map]
    rfl
  have rest : blobs.dropWhile skips = blobs.drop (blobs.takeWhile skips).length := by
    conv_rhs => enter [2]; rw [← List.takeWhile_append_dropWhile (p := skips) (l := blobs)]
    rw [List.drop_left]
  have none : blobs.dropWhile skips = [] ↔ blobs.length ≤ (blobs.takeWhile skips).length := by
    rw [rest, List.drop_eq_nil_iff]
  simp only [TileData.appendChangesSince, count]
  rw [holds.wids, List.length_map]
  by_cases all : blobs.length ≤ (blobs.takeWhile skips).length
  · rw [if_pos all, if_pos (none.mpr all)]
  · have suffix := drop_offset blobs 0 (blobs.takeWhile skips).length (by omega)
    rw [Nat.sub_zero, ← holds.offsets, ← holds.deltas] at suffix
    rw [if_neg all, if_neg (fun empty => all (none.mp empty)), suffix, rest]

/-- What is sent when the blobs up to the wire id are told apart from those behind it. -/
theorem Holds.appendChangesSince_split {tile : TileData} {front back : List Blob}
    (holds : tile.Holds (front ++ back)) (output : List UInt8) {since : TileWireId}
    (old : ∀ blob ∈ front, since ≠ 0 ∧ blob.1 ≤ since)
    (new : ∀ blob ∈ back, since = 0 ∨ since < blob.1) :
    tile.appendChangesSince output since =
      if back = [] then (false, output) else (true, output ++ back.flatMap Prod.snd) := by
  have later : (front ++ back).dropWhile (fun blob => since != 0 && decide (blob.1 ≤ since)) =
      back := by
    rw [List.dropWhile_append_of_pos (fun blob member => by simp [old blob member])]
    cases back with
    | nil => rfl
    | cons blob back =>
        rw [List.dropWhile_cons_of_neg]
        rcases new blob List.mem_cons_self with zero | newer
        · simp [zero]
        · simp [UInt32.not_le.mpr newer]
  rw [holds.appendChangesSince, later]

theorem Holds.appendChangesSince_zero {tile : TileData} {blobs : List Blob}
    (holds : tile.Holds blobs) (some : blobs ≠ []) (output : List UInt8) :
    tile.appendChangesSince output 0 = (true, output ++ blobs.flatMap Prod.snd) := by
  rw [← List.nil_append blobs] at holds
  rw [holds.appendChangesSince_split output (fun _ nothing => absurd nothing List.not_mem_nil)
    (fun _ _ => .inl rfl), if_neg some]

end TileData

end FreeOnline.Wsd
