import FreeOnline.Kit.DeltaCommands

/-!
# Deltas decode to the new bitmap

After `y` rows the commands so far turn the old image into one whose first `y`
rows are new. The one way this fails is a copy command that is extended from the
last row of a 256-row bitmap to row 0, behind which the decoder finds no pixels.
-/

set_option autoImplicit false

namespace FreeOnline.Kit

open FreeOnline.Browser

/-!
## Images of rows
-/

def rowsImage (rows : List DeltaBitmapRow) : List UInt8 :=
  rows.flatMap fun row => unpremultiplied row.pixels

/-- The image in the middle of decoding: the first `y` rows are new. -/
def mixedImage (prev cur : DeltaData) (y : Nat) : List UInt8 :=
  rowsImage (cur.rows.take y) ++ rowsImage (prev.rows.drop y)

theorem length_rowsImage {width : Nat} (rows : List DeltaBitmapRow)
    (even : ∀ row ∈ rows, row.pixels.length = width) :
    (rowsImage rows).length = rows.length * width * 4 := by
  induction rows with
  | nil => simp [rowsImage]
  | cons row rows ih =>
      have tail := ih fun later member => even later (List.mem_cons_of_mem _ member)
      have here := even row List.mem_cons_self
      simp only [rowsImage, List.flatMap_cons, List.length_append, length_unpremultiplied,
        here, List.length_cons] at tail ⊢
      rw [tail, Nat.add_mul, Nat.add_mul]
      omega

theorem DeltaData.length_image (data : DeltaData) :
    data.image.length = data.width * data.height * 4 := by
  rw [show data.image = rowsImage data.rows from rfl,
    length_rowsImage data.rows fun row member => (data.row_valid row member).1,
    data.rows_length, Nat.mul_comm data.height]

theorem drop_rows (data : DeltaData) {y : Nat} (inside : y < data.height) :
    data.rows.drop y = data.getRow y :: data.rows.drop (y + 1) := by
  have bound : y < data.rows.length := by rw [data.rows_length]; exact inside
  rw [List.drop_eq_getElem_cons bound]
  simp [DeltaData.getRow, bound]

theorem take_rows (data : DeltaData) {y : Nat} (inside : y < data.height) :
    data.rows.take (y + 1) = data.rows.take y ++ [data.getRow y] := by
  have bound : y < data.rows.length := by rw [data.rows_length]; exact inside
  rw [List.take_succ_eq_append_getElem bound]
  simp [DeltaData.getRow, bound]

theorem length_takeImage (data : DeltaData) {y : Nat} (inside : y ≤ data.height) :
    (rowsImage (data.rows.take y)).length = y * data.width * 4 := by
  have even : ∀ row ∈ data.rows.take y, row.pixels.length = data.width :=
    fun row member => (data.row_valid row (List.mem_of_mem_take member)).1
  rw [length_rowsImage _ even]
  simp [data.rows_length, inside]

private theorem mixedImage_here (prev cur : DeltaData) {y : Nat} (inside : y < prev.height) :
    mixedImage prev cur y = rowsImage (cur.rows.take y) ++
      unpremultiplied (prev.getRow y).pixels ++ rowsImage (prev.rows.drop (y + 1)) := by
  rw [mixedImage, drop_rows prev inside]
  simp [rowsImage]

private theorem mixedImage_next (prev cur : DeltaData) {y : Nat} (inside : y < cur.height) :
    mixedImage prev cur (y + 1) = rowsImage (cur.rows.take y) ++
      unpremultiplied (cur.getRow y).pixels ++ rowsImage (prev.rows.drop (y + 1)) := by
  rw [mixedImage, take_rows cur inside]
  simp [rowsImage]

theorem drop_image (data : DeltaData) {y : Nat} (inside : y < data.height) :
    (rowsImage data.rows).drop (y * data.width * 4) =
      unpremultiplied (data.getRow y).pixels ++ rowsImage (data.rows.drop (y + 1)) := by
  have split : rowsImage data.rows =
      rowsImage (data.rows.take y) ++ rowsImage (data.rows.drop y) := by
    rw [rowsImage, rowsImage, rowsImage, ← List.flatMap_append, List.take_append_drop]
  rw [split, ← length_takeImage data (Nat.le_of_lt inside), List.drop_left, drop_rows data inside]
  simp [rowsImage]

theorem rowLength (prev : DeltaData) {y : Nat} (inside : y < prev.height) :
    (unpremultiplied (prev.getRow y).pixels).length = prev.width * 4 := by
  rw [length_unpremultiplied, prev.length_getRow inside, Nat.mul_comm]

/-- A row of the old image is written behind the rows that are done. -/
theorem write_row (prev : DeltaData) {front : List UInt8} {y found : Nat}
    (frontLength : front.length = y * prev.width * 4) (inside : y < prev.height)
    (foundInside : found < prev.height) :
    writeBytes (front ++ rowsImage (prev.rows.drop y)) (y * prev.width * 4) (prev.width * 4)
        (prev.image.drop (found * prev.width * 4)) =
      front ++ unpremultiplied (prev.getRow found).pixels ++ rowsImage (prev.rows.drop (y + 1)) := by
  have source : (prev.image.drop (found * prev.width * 4)).take (prev.width * 4) =
      unpremultiplied (prev.getRow found).pixels := by
    rw [show prev.image = rowsImage prev.rows from rfl, drop_image prev foundInside,
      ← rowLength prev foundInside, List.take_left]
  have enough : (unpremultiplied (prev.getRow y).pixels).length ≤
      (prev.image.drop (found * prev.width * 4)).length := by
    rw [show prev.image = rowsImage prev.rows from rfl, drop_image prev foundInside,
      List.length_append, rowLength prev inside, rowLength prev foundInside]
    omega
  have written := writeBytes_append front (unpremultiplied (prev.getRow y).pixels)
    (rowsImage (prev.rows.drop (y + 1))) (prev.image.drop (found * prev.width * 4)) enough
  rw [frontLength, rowLength prev inside, source] at written
  rw [← written, drop_rows prev inside]
  simp [rowsImage]

private theorem copy_row (prev cur : DeltaData) (sameWidth : prev.width = cur.width)
    (sameHeight : prev.height = cur.height) {y found : Nat} (inside : y < prev.height)
    (foundInside : found < prev.height)
    (looksAlike : (prev.getRow found).pixels = (cur.getRow y).pixels) :
    writeBytes (mixedImage prev cur y) (y * prev.width * 4) (prev.width * 4)
        (prev.image.drop (found * prev.width * 4)) =
      mixedImage prev cur (y + 1) := by
  have front : (rowsImage (cur.rows.take y)).length = y * prev.width * 4 := by
    rw [sameWidth]
    exact length_takeImage cur (by omega)
  rw [mixedImage_next prev cur (by omega : y < cur.height), ← looksAlike]
  exact write_row prev front inside foundInside

/-!
## Sources of copied rows
-/

/-- Where the hunt for row `y` starts, relative to `y`: at the distance of the
last row that was found elsewhere. -/
def sourceOffset (prev cur : DeltaData) : Nat → Nat
  | 0 => 0
  | y + 1 =>
      match (if (prev.getRow y).identical (cur.getRow y) then none
        else huntRow prev (cur.getRow y) y (sourceOffset prev cur y)) with
      | some found => (found + 2 ^ 64 - y) % 2 ^ 64
      | none => sourceOffset prev cur y

/-- The row of `prev` that row `y` of `cur` is copied from, if it differs from
its own previous row and looks like another. -/
def rowSource (prev cur : DeltaData) (y : Nat) : Option Nat :=
  if (prev.getRow y).identical (cur.getRow y) then none
  else huntRow prev (cur.getRow y) y (sourceOffset prev cur y)

def lastSource (prev cur : DeltaData) : Nat → Option Nat
  | 0 => none
  | y + 1 => rowSource prev cur y

/-- Row `y` is copied from row 0 right after a row copied from row 255. At row
128 the signed destination byte keeps the two copies apart. -/
def CrossesEnd (prev cur : DeltaData) (y : Nat) : Prop :=
  y ≠ 128 ∧ lastSource prev cur y = some 255 ∧ rowSource prev cur y = some 0

instance (prev cur : DeltaData) (y : Nat) : Decidable (CrossesEnd prev cur y) :=
  inferInstanceAs (Decidable (_ ∧ _ ∧ _))

theorem sourceOffset_found {prev cur : DeltaData} {y found : Nat}
    (source : rowSource prev cur y = some found) :
    sourceOffset prev cur (y + 1) = (found + 2 ^ 64 - y) % 2 ^ 64 := by
  unfold rowSource at source
  rw [sourceOffset, source]

theorem sourceOffset_none {prev cur : DeltaData} {y : Nat}
    (source : rowSource prev cur y = none) :
    sourceOffset prev cur (y + 1) = sourceOffset prev cur y := by
  unfold rowSource at source
  rw [sourceOffset, source]

/-!
## The last copy command
-/

def DeltaState.copyCount (state : DeltaState) : Nat :=
  (state.output.getD state.lastCopy 0).toNat

def DeltaState.copySrc (state : DeltaState) : Nat :=
  (state.output.getD (state.lastCopy + 1) 0).toNat

def DeltaState.copyDest (state : DeltaState) : Nat :=
  (state.output.getD (state.lastCopy + 2) 0).toNat

/-- The copy command that `lastCopy` points into. Its rows lie in one half of the
signed byte range, which is why a count of 128 is never extended. -/
structure OpenCopy (y : Nat) (state : DeltaState) (commands before after : List Emitted)
    (count src dest : Nat) : Prop where
  position : commands = before ++ .copy count src dest :: after
  lastCopy_eq : state.lastCopy = (before.flatMap Emitted.bytes).length + 1
  offset_eq : state.lastMatchOffset = (src + 2 ^ 64 - dest) % 2 ^ 64
  count_pos : 1 ≤ count
  count_le : count ≤ 128
  src_lt : src < 256
  dest_lt : dest < 256
  moved : src ≠ dest
  rows_done : dest + count ≤ y
  after_done : after ≠ [] → dest + count < y
  src_half : src < 128 → src + count ≤ 128
  dest_half : dest < 128 → dest + count ≤ 128

theorem OpenCopy.operands {y : Nat} {state : DeltaState}
    {commands before after : List Emitted} {count src dest : Nat}
    (copy : OpenCopy y state commands before after count src dest)
    (output : state.output = commands.flatMap Emitted.bytes) :
    state.copyCount = count ∧ state.copySrc = src ∧ state.copyDest = dest := by
  have shape : state.output = before.flatMap Emitted.bytes ++
      ([99, UInt8.ofNat count, UInt8.ofNat src, UInt8.ofNat dest] ++
        after.flatMap Emitted.bytes) := by
    rw [output, copy.position]
    simp [Emitted.bytes]
  have operand (k : Nat) : state.output.getD (state.lastCopy + k) 0 =
      ([UInt8.ofNat count, UInt8.ofNat src, UInt8.ofNat dest] ++
        after.flatMap Emitted.bytes).getD k 0 := by
    rw [shape, copy.lastCopy_eq, List.getD_eq_getElem?_getD, List.getD_eq_getElem?_getD,
      List.getElem?_append_right (by omega)]
    have index : (before.flatMap Emitted.bytes).length + 1 + k -
        (before.flatMap Emitted.bytes).length = k + 1 := by omega
    rw [index, List.cons_append, List.getElem?_cons_succ]
  have countByte := operand 0
  have srcByte := operand 1
  have destByte := operand 2
  rw [Nat.add_zero] at countByte
  have countLe := copy.count_le
  refine ⟨?_, ?_, ?_⟩
  · rw [DeltaState.copyCount, countByte]
    exact toNat_ofNat (by omega)
  · rw [DeltaState.copySrc, srcByte]
    exact toNat_ofNat copy.src_lt
  · rw [DeltaState.copyDest, destByte]
    exact toNat_ofNat copy.dest_lt

private theorem charValue_toNat (byte : UInt8) :
    charValue byte = if byte.toNat < 128 then (byte.toNat : Int) else byte.toNat - 256 := rfl

private theorem signedSums_iff {y found count src dest : Nat} (countPos : 1 ≤ count)
    (countLe : count ≤ 128) (srcLt : src < 256) (destLt : dest < 256) (moved : src ≠ dest)
    (rowsDone : dest + count ≤ y) (srcHalf : src < 128 → src + count ≤ 128)
    (destHalf : dest < 128 → dest + count ≤ 128) (ySmall : y < 256) (foundSmall : found < 256) :
    ((if src < 128 then (src : Int) else src - 256) +
          (if count < 128 then (count : Int) else count - 256) =
        (if found < 128 then (found : Int) else found - 256) ∧
      (if dest < 128 then (dest : Int) else dest - 256) +
          (if count < 128 then (count : Int) else count - 256) =
        (if y < 128 then (y : Int) else y - 256)) ↔
      count < 128 ∧ dest + count = y ∧ y ≠ 128 ∧
        (src + count = found ∧ found ≠ 128 ∨ src + count = found + 256) := by
  by_cases countLt : count < 128
  · simp only [countLt, ↓reduceIte, true_and]
    constructor
    · rintro ⟨srcNext, destNext⟩
      split at destNext <;> split at destNext <;>
        refine ⟨by omega, by omega, ?_⟩ <;>
        split at srcNext <;> split at srcNext <;> omega
    · rintro ⟨destNext, notMiddle, srcNext⟩
      constructor <;> split <;> split <;> omega
  · simp only [countLt, ↓reduceIte, false_and, iff_false, not_and]
    intro srcNext destNext
    split at destNext <;> split at destNext <;> split at srcNext <;> split at srcNext <;> omega

/-- The test for extending the last copy, in terms of its operands. A copy is
extended only to the next row, and from a source row that is the next one as
well, unless it wraps from row 255 to row 0. -/
theorem OpenCopy.extendsCopy_iff {y found : Nat} {state : DeltaState}
    {commands before after : List Emitted} {count src dest : Nat}
    (copy : OpenCopy y state commands before after count src dest)
    (output : state.output = commands.flatMap Emitted.bytes)
    (ySmall : y < 256) (foundSmall : found < 256) :
    state.extendsCopy found y = true ↔
      count < 128 ∧ dest + count = y ∧ y ≠ 128 ∧
        (src + count = found ∧ found ≠ 128 ∨ src + count = found + 256) := by
  obtain ⟨countByte, srcByte, destByte⟩ := copy.operands output
  unfold DeltaState.copyCount at countByte
  unfold DeltaState.copySrc at srcByte
  unfold DeltaState.copyDest at destByte
  have positive : 0 < state.lastCopy := by rw [copy.lastCopy_eq]; omega
  have byte {value : Nat} (small : value < 256) : (UInt8.ofNat value).toNat = value :=
    toNat_ofNat small
  have test : state.extendsCopy found y = true ↔
      charValue (state.output.getD (state.lastCopy + 1) 0) +
          charValue (state.output.getD state.lastCopy 0) = charValue (UInt8.ofNat found) ∧
        charValue (state.output.getD (state.lastCopy + 2) 0) +
          charValue (state.output.getD state.lastCopy 0) = charValue (UInt8.ofNat y) := by
    simp [DeltaState.extendsCopy, positive]
  rw [test]
  simp only [charValue_toNat, countByte, srcByte, destByte, byte foundSmall, byte ySmall]
  exact signedSums_iff copy.count_pos copy.count_le copy.src_lt copy.dest_lt copy.moved
    copy.rows_done copy.src_half copy.dest_half ySmall foundSmall

/-!
## One row
-/

structure Encoded (y : Nat) (state : DeltaState) (commands : List Emitted) : Prop where
  output : state.output = commands.flatMap Emitted.bytes
  sized : ∀ command ∈ commands, command.ByteSized
  last : state.lastCopy = 0 ∨ ∃ before after count src dest,
    OpenCopy y state commands before after count src dest

/-- The commands so far stay in the bitmap and make the first `y` rows new, and
the encoder remembers where the last row came from. -/
structure Faithful (prev cur : DeltaData) (y : Nat) (state : DeltaState)
    (commands : List Emitted) : Prop where
  inside : ∀ command ∈ commands, command.command.InBounds prev.width prev.height
  image : commands.foldl (Emitted.apply prev.image prev.width) prev.image = mixedImage prev cur y
  offset : state.lastMatchOffset = sourceOffset prev cur y
  source : ∀ found, lastSource prev cur y = some found ↔
    0 < state.lastCopy ∧ state.copyDest + state.copyCount = y ∧
      state.copySrc + state.copyCount = found + 1

def LeavesBitmap (prev : DeltaData) (commands : List Emitted) : Prop :=
  ∃ command ∈ commands, ¬ command.command.InBounds prev.width prev.height

structure RowStep (prev cur : DeltaData) (y : Nat) (state : DeltaState)
    (commands next : List Emitted) : Prop where
  encoded : Encoded (y + 1) (deltaRow prev cur state y) next
  faithful : ¬ CrossesEnd prev cur y → Faithful prev cur y state commands →
    Faithful prev cur (y + 1) (deltaRow prev cur state y) next
  wrapped : CrossesEnd prev cur y → Faithful prev cur y state commands → LeavesBitmap prev next
  broken : LeavesBitmap prev commands → LeavesBitmap prev next

private theorem OpenCopy.later {y : Nat} {state next : DeltaState}
    {commands before after : List Emitted} {count src dest : Nat}
    (copy : OpenCopy y state commands before after count src dest) (added : List Emitted)
    (lastCopy : next.lastCopy = state.lastCopy)
    (offset : next.lastMatchOffset = state.lastMatchOffset) :
    OpenCopy (y + 1) next (commands ++ added) before (after ++ added) count src dest := by
  have done := copy.rows_done
  refine { copy with
    position := ?_
    lastCopy_eq := by rw [lastCopy, copy.lastCopy_eq]
    offset_eq := by rw [offset, copy.offset_eq]
    rows_done := by omega
    after_done := fun _ => by omega }
  rw [copy.position]
  simp

theorem Encoded.append {y : Nat} {state next : DeltaState} {commands : List Emitted}
    (encoded : Encoded y state commands) {added : List Emitted}
    (output : next.output = state.output ++ added.flatMap Emitted.bytes)
    (lastCopy : next.lastCopy = state.lastCopy)
    (offset : next.lastMatchOffset = state.lastMatchOffset)
    (sized : ∀ command ∈ added, command.ByteSized) :
    Encoded (y + 1) next (commands ++ added) where
  output := by rw [output, encoded.output, List.flatMap_append]
  sized := by
    intro command member
    rcases List.mem_append.mp member with old | new
    · exact encoded.sized command old
    · exact sized command new
  last := by
    rcases encoded.last with none | ⟨before, after, count, src, dest, copy⟩
    · exact .inl (by rw [lastCopy, none])
    · exact .inr ⟨before, after ++ added, count, src, dest, copy.later added lastCopy offset⟩

/-- After a row that was not copied the open copy ends too early to be extended. -/
theorem Encoded.copy_ended {y : Nat} {state next : DeltaState} {commands added : List Emitted}
    (encoded : Encoded y state commands) (appended : Encoded (y + 1) next (commands ++ added))
    (lastCopy : next.lastCopy = state.lastCopy)
    (offset : next.lastMatchOffset = state.lastMatchOffset) (opened : 0 < next.lastCopy) :
    next.copyDest + next.copyCount ≠ y + 1 := by
  rcases encoded.last with none | ⟨before, after, count, src, dest, copy⟩
  · omega
  · have operands := (copy.later added lastCopy offset).operands appended.output
    have done := copy.rows_done
    omega

private theorem Encoded.source_none {prev cur : DeltaData} {y : Nat} {state next : DeltaState}
    {commands added : List Emitted} (encoded : Encoded y state commands)
    (appended : Encoded (y + 1) next (commands ++ added))
    (lastCopy : next.lastCopy = state.lastCopy)
    (offset : next.lastMatchOffset = state.lastMatchOffset)
    (uncopied : rowSource prev cur y = none) (found : Nat) :
    lastSource prev cur (y + 1) = some found ↔
      0 < next.lastCopy ∧ next.copyDest + next.copyCount = y + 1 ∧
        next.copySrc + next.copyCount = found + 1 := by
  constructor
  · intro some
    rw [lastSource, uncopied] at some
    cases some
  · rintro ⟨opened, atRow, -⟩
    exact absurd atRow (encoded.copy_ended appended lastCopy offset opened)

private theorem LeavesBitmap.append {prev : DeltaData} {commands : List Emitted}
    (leaves : LeavesBitmap prev commands) (added : List Emitted) :
    LeavesBitmap prev (commands ++ added) := by
  obtain ⟨command, member, outside⟩ := leaves
  exact ⟨command, List.mem_append_left _ member, outside⟩

theorem huntRow_some {prev : DeltaData} {curRow : DeltaBitmapRow}
    {y lastMatchOffset found : Nat} (hunted : huntRow prev curRow y lastMatchOffset = some found) :
    found < prev.height ∧ (prev.getRow found).identical curRow = true := by
  obtain ⟨yn, member, selected⟩ := List.exists_of_findSome?_eq_some hunted
  have positive : 0 < prev.height := by
    have := List.mem_range.mp member
    omega
  dsimp only at selected
  split at selected
  · next same =>
      cases selected
      exact ⟨Nat.mod_lt _ positive, same⟩
  · cases selected

section Rows

variable {prev cur : DeltaData} (sameWidth : prev.width = cur.width)
  (sameHeight : prev.height = cur.height) (widthSmall : prev.width ≤ 256)
  (heightSmall : prev.height ≤ 256) {y : Nat} (inside : y < prev.height)
  {state : DeltaState} {commands : List Emitted} (encoded : Encoded y state commands)

include sameHeight inside in
private theorem mixedImage_same
    (same : (prev.getRow y).identical (cur.getRow y) = true) :
    mixedImage prev cur y = mixedImage prev cur (y + 1) := by
  have pixels := (prev.identical_iff cur inside (by omega)).mp same
  rw [mixedImage_here prev cur inside, mixedImage_next prev cur (by omega), pixels]

theorem rowSource_hunted
    (different : (prev.getRow y).identical (cur.getRow y) = false) :
    rowSource prev cur y = huntRow prev (cur.getRow y) y (sourceOffset prev cur y) := by
  simp [rowSource, different]

include sameHeight inside encoded in
private theorem rowStep_identical
    (same : (prev.getRow y).identical (cur.getRow y) = true) :
    RowStep prev cur y state commands commands := by
  have row : deltaRow prev cur state y = state := by simp [deltaRow, same]
  have uncopied : rowSource prev cur y = none := by simp [rowSource, same]
  have appended : Encoded (y + 1) state (commands ++ []) :=
    encoded.append (by simp) rfl rfl (by simp)
  refine ⟨by simpa [row] using appended, fun _ faithful => ⟨faithful.inside, ?_, ?_, ?_⟩, ?_, id⟩
  · rw [faithful.image, mixedImage_same sameHeight inside same]
  · rw [row, sourceOffset_none uncopied, faithful.offset]
  · rw [row]
    exact encoded.source_none appended rfl rfl uncopied
  · rintro ⟨_, _, copied⟩
    rw [uncopied] at copied
    cases copied

include sameWidth sameHeight widthSmall heightSmall inside encoded in
private theorem rowStep_draw
    (different : (prev.getRow y).identical (cur.getRow y) = false)
    (unmatched : huntRow prev (cur.getRow y) y state.lastMatchOffset = none) :
    ∃ next, RowStep prev cur y state commands next := by
  have front : (rowsImage (cur.rows.take y)).length = y * prev.width * 4 := by
    rw [sameWidth]
    exact length_takeImage cur (by omega)
  have curLength : (cur.getRow y).pixels.length = prev.width := by
    rw [sameWidth]
    exact cur.length_getRow (by omega)
  obtain ⟨added, emitted, drawn, image⟩ := pushRow_commands prev.image
    (rowsImage (cur.rows.take y)) widthSmall (by omega) front prev.width
    (prev.getRow y).pixels (cur.getRow y).pixels []
    (by rw [prev.length_getRow inside, curLength]) (by omega) (by simp [curLength])
  rw [List.length_nil] at emitted
  have row : deltaRow prev cur state y =
      { state with output := state.output ++ added.flatMap Emitted.bytes } := by
    simp [deltaRow, different, unmatched, emitted]
  have uncopied (faithful : Faithful prev cur y state commands) : rowSource prev cur y = none := by
    rw [rowSource_hunted different, ← faithful.offset, unmatched]
  have appended : Encoded (y + 1) (deltaRow prev cur state y) (commands ++ added) := by
    rw [row]
    exact encoded.append rfl rfl rfl fun command member => (drawn command member).1
  refine ⟨commands ++ added, appended, fun _ faithful => ⟨?_, ?_, ?_, ?_⟩, ?_,
    fun leaves => leaves.append added⟩
  · intro command member
    rcases List.mem_append.mp member with old | new
    · exact faithful.inside command old
    · obtain ⟨_, col, pixels, rfl, fits⟩ := drawn command new
      exact ⟨inside, fits⟩
  · have mixed := image (rowsImage (prev.rows.drop (y + 1)))
    simp only [unpremultiplied_nil, List.append_nil] at mixed
    rw [List.foldl_append, faithful.image, mixedImage_here prev cur inside, mixed,
      mixedImage_next prev cur (by omega)]
  · rw [row, sourceOffset_none (uncopied faithful)]
    exact faithful.offset
  · exact encoded.source_none appended (by rw [row]) (by rw [row]) (uncopied faithful)
  · rintro ⟨_, _, copied⟩ faithful
    rw [uncopied faithful] at copied
    cases copied

private theorem Faithful.rowSource_eq {found : Nat}
    (faithful : Faithful prev cur y state commands)
    (different : (prev.getRow y).identical (cur.getRow y) = false)
    (hunted : huntRow prev (cur.getRow y) y state.lastMatchOffset = some found) :
    rowSource prev cur y = some found := by
  rw [rowSource_hunted different, ← faithful.offset, hunted]

theorem deltaRow_copy {found : Nat}
    (different : (prev.getRow y).identical (cur.getRow y) = false)
    (hunted : huntRow prev (cur.getRow y) y state.lastMatchOffset = some found)
    (fresh : state.extendsCopy found y = false) :
    deltaRow prev cur state y =
      { output := state.output ++ [99, 1, UInt8.ofNat found, UInt8.ofNat y]
        lastMatchOffset := (found + 2 ^ 64 - y) % 2 ^ 64
        lastCopy := state.output.length + 1 } := by
  simp [deltaRow, different, hunted, DeltaState.pushMatch, fresh]

include heightSmall inside encoded in
/-- A source of 0 behind a source of 255 always extends the copy. -/
private theorem extendsCopy_of_crossesEnd (crosses : CrossesEnd prev cur y)
    (faithful : Faithful prev cur y state commands) : state.extendsCopy 0 y = true := by
  obtain ⟨notMiddle, fromEnd, _⟩ := crosses
  obtain ⟨positive, atRow, atEnd⟩ := (faithful.source 255).mp fromEnd
  rcases encoded.last with none | ⟨before, after, count, src, dest, copy⟩
  · omega
  · obtain ⟨countEq, srcEq, destEq⟩ := copy.operands encoded.output
    have destHalf := copy.dest_half
    have countLe := copy.count_le
    exact (copy.extendsCopy_iff encoded.output (by omega) (by omega)).mpr
      ⟨by omega, by omega, notMiddle, .inr (by omega)⟩

include heightSmall inside encoded in
theorem encoded_copy {found : Nat}
    (different : (prev.getRow y).identical (cur.getRow y) = false)
    (hunted : huntRow prev (cur.getRow y) y state.lastMatchOffset = some found)
    (fresh : state.extendsCopy found y = false) :
    Encoded (y + 1) (deltaRow prev cur state y) (commands ++ [.copy 1 found y]) ∧
      OpenCopy (y + 1) (deltaRow prev cur state y) (commands ++ [.copy 1 found y])
        commands [] 1 found y := by
  obtain ⟨foundInside, same⟩ := huntRow_some hunted
  have moved : found ≠ y := by
    rintro rfl
    rw [same] at different
    cases different
  have row := deltaRow_copy different hunted fresh
  have output : (deltaRow prev cur state y).output =
      (commands ++ [Emitted.copy 1 found y]).flatMap Emitted.bytes := by
    rw [row]
    simp [encoded.output, Emitted.bytes]
  have opened : OpenCopy (y + 1) (deltaRow prev cur state y) (commands ++ [.copy 1 found y])
      commands [] 1 found y :=
    { position := rfl
      lastCopy_eq := by rw [row, encoded.output]
      offset_eq := by rw [row]
      count_pos := by omega
      count_le := by omega
      src_lt := by omega
      dest_lt := by omega
      moved := moved
      rows_done := by omega
      after_done := fun more => absurd rfl more
      src_half := by omega
      dest_half := by omega }
  refine ⟨⟨output, ?_, .inr ⟨_, _, _, _, _, opened⟩⟩, opened⟩
  intro command member
  rcases List.mem_append.mp member with old | new
  · exact encoded.sized command old
  · cases List.mem_singleton.mp new
    exact ⟨by omega, by omega, by omega⟩

include sameWidth sameHeight heightSmall inside encoded in
private theorem rowStep_copy {found : Nat}
    (different : (prev.getRow y).identical (cur.getRow y) = false)
    (hunted : huntRow prev (cur.getRow y) y state.lastMatchOffset = some found)
    (fresh : state.extendsCopy found y = false) :
    RowStep prev cur y state commands (commands ++ [.copy 1 found y]) := by
  obtain ⟨foundInside, same⟩ := huntRow_some hunted
  have looksAlike := (prev.identical_iff cur foundInside (by omega)).mp same
  have row := deltaRow_copy different hunted fresh
  obtain ⟨copied, opened⟩ := encoded_copy heightSmall inside encoded different hunted fresh
  refine ⟨copied, fun _ faithful => ⟨?_, ?_, ?_, ?_⟩, ?_, fun leaves => leaves.append _⟩
  · intro command member
    rcases List.mem_append.mp member with old | new
    · exact faithful.inside command old
    · cases List.mem_singleton.mp new
      exact ⟨foundInside, inside⟩
  · have copiedRow := copy_row prev cur sameWidth sameHeight inside foundInside looksAlike
    rw [List.foldl_append, faithful.image, ← copiedRow]
    rfl
  · rw [row, sourceOffset_found (faithful.rowSource_eq different hunted)]
  · intro source
    obtain ⟨countEq, srcEq, destEq⟩ := opened.operands copied.output
    have positive : 0 < (deltaRow prev cur state y).lastCopy := by rw [row]; simp
    rw [lastSource, faithful.rowSource_eq different hunted, countEq, srcEq, destEq]
    simp [positive]
  · intro crosses faithful
    have extending := extendsCopy_of_crossesEnd heightSmall inside encoded crosses faithful
    have atZero : some found = some 0 :=
      (faithful.rowSource_eq different hunted).symm.trans crosses.2.2
    cases atZero
    rw [fresh] at extending
    cases extending

theorem deltaRow_extend {found : Nat}
    (different : (prev.getRow y).identical (cur.getRow y) = false)
    (hunted : huntRow prev (cur.getRow y) y state.lastMatchOffset = some found)
    (extended : state.extendsCopy found y = true) :
    deltaRow prev cur state y =
      { state with
        output := state.output.set state.lastCopy (state.output.getD state.lastCopy 0 + 1) } := by
  simp only [deltaRow, different, Bool.false_eq_true, ↓reduceIte, hunted, DeltaState.pushMatch,
    extended]

section Extend

variable {before : List Emitted} {count src dest found : Nat}
  (copy : OpenCopy y state commands before [] count src dest)
  (destRow : dest + count = y)

include encoded copy in
/-- The count byte is bumped in place: the last command grows by one row. -/
private theorem output_bumped :
    state.output.set state.lastCopy (state.output.getD state.lastCopy 0 + 1) =
      (before ++ [Emitted.copy (count + 1) src dest]).flatMap Emitted.bytes := by
  have shape : state.output = before.flatMap Emitted.bytes ++
      [99, UInt8.ofNat count, UInt8.ofNat src, UInt8.ofNat dest] := by
    rw [encoded.output, copy.position]
    simp [Emitted.bytes]
  rw [copy.lastCopy_eq, shape, List.set_append_right _ _ (by omega),
    List.getD_eq_getElem?_getD, List.getElem?_append_right (by omega)]
  simp [Emitted.bytes]

include copy destRow in
private theorem OpenCopy.extended {next : DeltaState} (countLt : count < 128)
    (notMiddle : y ≠ 128)
    (srcRow : src + count = found ∧ found ≠ 128 ∨ src + count = found + 256)
    (lastCopy : next.lastCopy = state.lastCopy)
    (offset : next.lastMatchOffset = state.lastMatchOffset) :
    OpenCopy (y + 1) next (before ++ [.copy (count + 1) src dest]) before [] (count + 1) src dest := by
  have srcHalf := copy.src_half
  have destHalf := copy.dest_half
  exact
    { position := rfl
      lastCopy_eq := by rw [lastCopy, copy.lastCopy_eq]
      offset_eq := by rw [offset, copy.offset_eq]
      count_pos := by omega
      count_le := by omega
      src_lt := copy.src_lt
      dest_lt := copy.dest_lt
      moved := copy.moved
      rows_done := by omega
      after_done := fun more => absurd rfl more
      src_half := by omega
      dest_half := by omega }

private theorem OpenCopy.member (copy : OpenCopy y state commands before [] count src dest) :
    Emitted.copy count src dest ∈ commands := by
  rw [copy.position]
  simp

include heightSmall encoded copy destRow in
/-- A copy that goes on from row 255 to row 0 crosses the end. -/
private theorem crossesEnd_of_wrapped (notMiddle : y ≠ 128) (wrapped : src + count = found + 256)
    (faithful : Faithful prev cur y state commands) (copied : rowSource prev cur y = some found) :
    CrossesEnd prev cur y := by
  have srcInside : src + count ≤ prev.height := (faithful.inside _ copy.member).1
  have atZero : found = 0 := by omega
  obtain ⟨countEq, srcEq, destEq⟩ := copy.operands encoded.output
  refine ⟨notMiddle, (faithful.source 255).mpr ⟨?_, by omega, by omega⟩, ?_⟩
  · rw [copy.lastCopy_eq]
    omega
  · rw [copied, atZero]

include sameWidth sameHeight inside copy destRow in
private theorem faithful_extend {next : DeltaState} (foundInside : found < prev.height)
    (looksAlike : (prev.getRow found).pixels = (cur.getRow y).pixels)
    (faithful : Faithful prev cur y state commands) (copied : rowSource prev cur y = some found)
    (srcNextRow : src + count = found)
    (opened : OpenCopy (y + 1) next (before ++ [.copy (count + 1) src dest]) before []
      (count + 1) src dest)
    (output : next.output = (before ++ [Emitted.copy (count + 1) src dest]).flatMap Emitted.bytes) :
    Faithful prev cur (y + 1) next (before ++ [.copy (count + 1) src dest]) := by
  refine ⟨?_, ?_, ?_, ?_⟩
  · intro command member
    rcases List.mem_append.mp member with old | new
    · exact faithful.inside command (by rw [copy.position]; exact List.mem_append_left _ old)
    · cases List.mem_singleton.mp new
      exact ⟨by omega, by omega⟩
  · have copiedRow := copy_row prev cur sameWidth sameHeight inside foundInside looksAlike
    have image := faithful.image
    rw [copy.position, List.foldl_append] at image
    rw [List.foldl_append, ← copiedRow, ← image, ← srcNextRow, ← destRow]
    rfl
  · rw [opened.offset_eq, sourceOffset_found copied]
    congr 1
    have destLt := copy.dest_lt
    omega
  · intro source
    obtain ⟨countEq, srcEq, destEq⟩ := opened.operands output
    have positive : 0 < next.lastCopy := by
      rw [opened.lastCopy_eq]
      omega
    rw [lastSource, copied, countEq, srcEq, destEq, Option.some_inj]
    constructor
    · rintro rfl
      exact ⟨positive, by omega, by omega⟩
    · rintro ⟨_, _, atSource⟩
      omega

/-- A longer copy leaves the bitmap if the shorter one does. -/
private theorem leavesBitmap_extend (copy : OpenCopy y state commands before [] count src dest)
    (leaves : LeavesBitmap prev commands) :
    LeavesBitmap prev (before ++ [.copy (count + 1) src dest]) := by
  obtain ⟨command, member, outside⟩ := leaves
  rw [copy.position] at member
  rcases List.mem_append.mp member with old | new
  · exact ⟨command, List.mem_append_left _ old, outside⟩
  · cases List.mem_singleton.mp new
    refine ⟨.copy (count + 1) src dest, by simp, ?_⟩
    rintro ⟨srcInside, destInside⟩
    exact outside ⟨by omega, by omega⟩

end Extend

/-- The open copy that is extended by a row, before and after it. -/
structure Extended (prev cur : DeltaData) (y : Nat) (state : DeltaState) (commands : List Emitted)
    (found : Nat) (before : List Emitted) (count src dest : Nat) : Prop where
  copy : OpenCopy y state commands before [] count src dest
  destRow : dest + count = y
  notMiddle : y ≠ 128
  srcRow : src + count = found ∧ found ≠ 128 ∨ src + count = found + 256
  opened : OpenCopy (y + 1) (deltaRow prev cur state y) (before ++ [.copy (count + 1) src dest])
    before [] (count + 1) src dest
  encoded : Encoded (y + 1) (deltaRow prev cur state y) (before ++ [.copy (count + 1) src dest])

include heightSmall inside encoded in
theorem encoded_extend {found : Nat}
    (different : (prev.getRow y).identical (cur.getRow y) = false)
    (hunted : huntRow prev (cur.getRow y) y state.lastMatchOffset = some found)
    (extended : state.extendsCopy found y = true) :
    ∃ before count src dest, Extended prev cur y state commands found before count src dest := by
  obtain ⟨foundInside, -⟩ := huntRow_some hunted
  rcases encoded.last with none | ⟨before, after, count, src, dest, copy⟩
  · simp [DeltaState.extendsCopy, none] at extended
  obtain ⟨countLt, destRow, notMiddle, srcRow⟩ :=
    (copy.extendsCopy_iff encoded.output (by omega) (by omega)).mp extended
  have nothingAfter : after = [] := by
    by_contra more
    have earlier := copy.after_done more
    omega
  subst nothingAfter
  have row := deltaRow_extend different hunted extended
  have output : (deltaRow prev cur state y).output =
      (before ++ [Emitted.copy (count + 1) src dest]).flatMap Emitted.bytes := by
    rw [row]
    exact output_bumped encoded copy
  have opened : OpenCopy (y + 1) (deltaRow prev cur state y) _ before [] (count + 1) src dest :=
    copy.extended destRow countLt notMiddle srcRow (by rw [row]) (by rw [row])
  refine ⟨before, count, src, dest, copy, destRow, notMiddle, srcRow, opened,
    ⟨output, ?_, .inr ⟨_, _, _, _, _, opened⟩⟩⟩
  intro command member
  rcases List.mem_append.mp member with old | new
  · exact encoded.sized command (by rw [copy.position]; exact List.mem_append_left _ old)
  · cases List.mem_singleton.mp new
    exact ⟨by omega, copy.src_lt, copy.dest_lt⟩

include sameWidth sameHeight heightSmall inside encoded in
private theorem rowStep_extend {found : Nat}
    (different : (prev.getRow y).identical (cur.getRow y) = false)
    (hunted : huntRow prev (cur.getRow y) y state.lastMatchOffset = some found)
    (extended : state.extendsCopy found y = true) :
    ∃ next, RowStep prev cur y state commands next := by
  obtain ⟨foundInside, same⟩ := huntRow_some hunted
  have looksAlike := (prev.identical_iff cur foundInside (by omega)).mp same
  obtain ⟨before, count, src, dest, copy, destRow, notMiddle, srcRow, opened, extendedBytes⟩ :=
    encoded_extend heightSmall inside encoded different hunted extended
  have copied (faithful : Faithful prev cur y state commands) :=
    faithful.rowSource_eq different hunted
  refine ⟨before ++ [.copy (count + 1) src dest], extendedBytes, ?_, ?_, leavesBitmap_extend copy⟩
  · intro noCrossing faithful
    have srcNextRow : src + count = found := by
      rcases srcRow with ⟨next, _⟩ | wrapped
      · exact next
      · exact absurd (crossesEnd_of_wrapped heightSmall encoded copy destRow notMiddle wrapped
          faithful (copied faithful)) noCrossing
    exact faithful_extend sameWidth sameHeight inside copy destRow foundInside looksAlike faithful
      (copied faithful) srcNextRow opened extendedBytes.output
  · rintro ⟨_, _, toStart⟩ faithful
    rw [copied faithful] at toStart
    cases toStart
    have countPos := copy.count_pos
    refine ⟨.copy (count + 1) src dest, by simp, ?_⟩
    rintro ⟨srcInside, _⟩
    omega

include sameWidth sameHeight widthSmall heightSmall inside encoded in
private theorem rowStep : ∃ next, RowStep prev cur y state commands next := by
  cases same : (prev.getRow y).identical (cur.getRow y) with
  | true => exact ⟨commands, rowStep_identical sameHeight inside encoded same⟩
  | false =>
      cases hunted : huntRow prev (cur.getRow y) y state.lastMatchOffset with
      | none =>
          exact rowStep_draw sameWidth sameHeight widthSmall heightSmall inside encoded same hunted
      | some found =>
          cases extended : state.extendsCopy found y with
          | true =>
              exact rowStep_extend sameWidth sameHeight heightSmall inside encoded same hunted
                extended
          | false =>
              exact ⟨_, rowStep_copy sameWidth sameHeight heightSmall inside encoded same hunted
                extended⟩

end Rows

/-!
## All rows
-/

theorem deltaRows_succ (prev cur : DeltaData) (y : Nat) :
    deltaRows prev cur (y + 1) = deltaRow prev cur (deltaRows prev cur y) y := by
  simp [deltaRows, List.range_succ]

/-- The encoder's bytes are commands, and they are right exactly as long as no
row has crossed the end of the previous bitmap. -/
theorem deltaRows_encoded {prev cur : DeltaData} (sameWidth : prev.width = cur.width)
    (sameHeight : prev.height = cur.height) (widthSmall : prev.width ≤ 256)
    (heightSmall : prev.height ≤ 256) (y : Nat) (inside : y ≤ prev.height) :
    ∃ commands, Encoded y (deltaRows prev cur y) commands ∧
      ((∀ z < y, ¬ CrossesEnd prev cur z) →
        Faithful prev cur y (deltaRows prev cur y) commands) ∧
      ((∃ z < y, CrossesEnd prev cur z) → LeavesBitmap prev commands) := by
  induction y with
  | zero =>
      refine ⟨[], ⟨rfl, by simp, .inl rfl⟩, fun _ => ⟨by simp, ?_, rfl, ?_⟩, ?_⟩
      · simp [mixedImage, rowsImage, DeltaData.image]
      · intro found
        simp [lastSource, deltaRows, DeltaState.initial]
      · rintro ⟨z, below, _⟩
        omega
  | succ y ih =>
      obtain ⟨commands, encoded, faithful, broken⟩ := ih (by omega)
      obtain ⟨next, step⟩ :=
        rowStep sameWidth sameHeight widthSmall heightSmall (by omega) encoded
      rw [deltaRows_succ]
      refine ⟨next, step.encoded, ?_, ?_⟩
      · intro free
        exact step.faithful (free y (by omega)) (faithful fun z below => free z (by omega))
      · rintro ⟨z, below, crosses⟩
        by_cases earlier : ∃ z < y, CrossesEnd prev cur z
        · exact step.broken (broken earlier)
        · have here : z = y := by
            by_contra other
            exact earlier ⟨z, by omega, crosses⟩
          subst here
          refine step.wrapped crosses (faithful fun w before => ?_)
          exact fun crossing => earlier ⟨w, before, crossing⟩

/-!
## The round trip
-/

/-- The browser turns `old` into `new` with this delta: it takes the delta up to
its terminator, whatever follows, and stays inside the bitmap. -/
def DecodesTo (width height : Nat) (old new delta : List UInt8) : Prop :=
  ∀ rest, let chunk := applyDeltaChunk old (delta ++ rest) old width
    chunk.imgData = new ∧ chunk.consumed = delta.length ∧
      ∀ command ∈ chunk.commands, command.InBounds width height

/-- Whatever `makeDelta` emits decompresses to a delta, ended by 't', from the
previous image to the new one. -/
def RoundTrips (zstd : Zstd) (prev cur : DeltaData) : Prop :=
  ∀ outStream compressed, makeDelta zstd prev cur outStream = (true, outStream ++ 68 :: compressed) →
    ∃ body, zstd.decompress compressed = some (body ++ [116]) ∧
      DecodesTo prev.width prev.height prev.image cur.image (body ++ [116])

theorem applyDeltaChunk_emitted (imgData oldData rest : List UInt8) (width : Nat)
    (commands : List Emitted) (sized : ∀ command ∈ commands, command.ByteSized) :
    applyDeltaChunk imgData (commands.flatMap Emitted.bytes ++ [116] ++ rest) oldData width =
      ⟨commands.foldl (Emitted.apply oldData width) imgData,
        (commands.flatMap Emitted.bytes ++ [116]).length, commands.map Emitted.command⟩ := by
  have enough : commands.length ≤ (commands.flatMap Emitted.bytes).length := by
    clear sized
    induction commands with
    | nil => simp
    | cons command commands ih =>
        have positive : 1 ≤ command.bytes.length := by cases command <;> simp [Emitted.bytes]
        simp only [List.flatMap_cons, List.length_cons, List.length_append]
        omega
  have decoded := applyCommands_emitted oldData width rest commands sized
    (commands.flatMap Emitted.bytes ++ [116] ++ rest).length 0 imgData (by
      simp only [List.length_append, List.length_cons, List.length_nil]
      omega)
  simpa [applyDeltaChunk] using decoded

private theorem mixedImage_all {prev cur : DeltaData} (sameHeight : prev.height = cur.height) :
    mixedImage prev cur prev.height = cur.image := by
  have allNew : cur.rows.take prev.height = cur.rows := by
    rw [sameHeight, ← cur.rows_length, List.take_length]
  have noneOld : prev.rows.drop prev.height = [] := by
    rw [← prev.rows_length, List.drop_length]
  simp [mixedImage, allNew, noneOld, rowsImage, DeltaData.image]

section RoundTrip

variable {zstd : Zstd} (lossless : zstd.Lossless) {prev cur : DeltaData}
  (sameWidth : prev.width = cur.width) (sameHeight : prev.height = cur.height)

include sameWidth sameHeight in
theorem makeDelta_emits {outStream compressed : List UInt8}
    (emitted : makeDelta zstd prev cur outStream = (true, outStream ++ 68 :: compressed)) :
    zstd.compress ((deltaRows prev cur prev.height).output ++ [116]) = some compressed := by
  rw [makeDelta, if_neg (by simp [sameWidth, sameHeight])] at emitted
  dsimp only at emitted
  split at emitted
  · simp at emitted
  · split at emitted
    · simp at emitted
    · next frame compressing =>
        have same : frame = compressed := by simpa using emitted
        rw [← same, compressing]

include lossless sameWidth sameHeight in
theorem makeDelta_total (written : (deltaRows prev cur prev.height).output ≠ [])
    (outStream : List UInt8) :
    ∃ compressed, makeDelta zstd prev cur outStream = (true, outStream ++ 68 :: compressed) := by
  obtain ⟨frame, compressing⟩ :=
    lossless.compress_total ((deltaRows prev cur prev.height).output ++ [116])
  refine ⟨frame, ?_⟩
  rw [makeDelta, if_neg (by simp [sameWidth, sameHeight])]
  simp only [written, ↓reduceIte, compressing]

include lossless sameWidth sameHeight in
/-- What `makeDelta` writes: nothing for rows without commands, and else the
commands and their terminator. -/
theorem makeDelta_cases :
    (deltaRows prev cur prev.height).output = [] ∧ makeDelta zstd prev cur [] = (true, []) ∨
      ∃ compressed, makeDelta zstd prev cur [] = (true, 68 :: compressed) ∧
        zstd.Stores compressed ((deltaRows prev cur prev.height).output ++ [116]) := by
  by_cases written : (deltaRows prev cur prev.height).output = []
  · refine .inl ⟨written, ?_⟩
    rw [makeDelta, if_neg (by simp [sameWidth, sameHeight])]
    simp only [written, ↓reduceIte]
  · obtain ⟨compressed, emitted⟩ := makeDelta_total lossless sameWidth sameHeight written []
    exact .inr ⟨compressed, emitted, fun rest =>
      lossless.decompress_frame rest (makeDelta_emits sameWidth sameHeight emitted)⟩

section Small

variable (widthSmall : prev.width ≤ 256) (heightSmall : prev.height ≤ 256)

include sameWidth sameHeight widthSmall heightSmall

include lossless in
theorem not_roundTrips_of_crossesEnd {y : Nat} (inside : y < prev.height)
    (crosses : CrossesEnd prev cur y) : ¬ RoundTrips zstd prev cur := by
  intro roundTrips
  obtain ⟨commands, encoded, -, broken⟩ :=
    deltaRows_encoded sameWidth sameHeight widthSmall heightSmall prev.height (Nat.le_refl _)
  obtain ⟨command, member, outside⟩ := broken ⟨y, inside, crosses⟩
  have written : (deltaRows prev cur prev.height).output ≠ [] := by
    rw [encoded.output]
    intro empty
    have noBytes := List.flatMap_eq_nil_iff.mp empty command member
    cases command <;> simp [Emitted.bytes] at noBytes
  obtain ⟨compressed, emitted⟩ := makeDelta_total lossless sameWidth sameHeight written []
  obtain ⟨body, decompressed, decodes⟩ := roundTrips [] compressed emitted
  have stores : zstd.Stores compressed _ := fun rest =>
    lossless.decompress_frame rest (makeDelta_emits sameWidth sameHeight emitted)
  rw [stores.decompress lossless, encoded.output] at decompressed
  obtain rfl : commands.flatMap Emitted.bytes = body := by simpa using decompressed
  obtain ⟨-, -, inBounds⟩ := decodes []
  rw [applyDeltaChunk_emitted _ _ _ _ _ encoded.sized] at inBounds
  exact outside (inBounds _ (List.mem_map_of_mem member))

variable (free : ∀ y < prev.height, ¬ CrossesEnd prev cur y)

include free

theorem deltaRows_decodesTo :
    DecodesTo prev.width prev.height prev.image cur.image
      ((deltaRows prev cur prev.height).output ++ [116]) := by
  obtain ⟨commands, encoded, faithful, -⟩ :=
    deltaRows_encoded sameWidth sameHeight widthSmall heightSmall prev.height (Nat.le_refl _)
  have right := faithful free
  intro rest
  rw [encoded.output, applyDeltaChunk_emitted _ _ _ _ _ encoded.sized]
  refine ⟨?_, rfl, ?_⟩
  · rw [right.image, mixedImage_all sameHeight]
  · intro command member
    obtain ⟨source, emittedBy, rfl⟩ := List.mem_map.mp member
    exact right.inside source emittedBy

theorem image_eq_of_unchanged (unchanged : (deltaRows prev cur prev.height).output = []) :
    prev.image = cur.image := by
  have decoded := deltaRows_decodesTo sameWidth sameHeight widthSmall heightSmall free []
  rw [unchanged] at decoded
  exact decoded.1

include lossless in
theorem roundTrips_of_no_crossesEnd : RoundTrips zstd prev cur := by
  intro outStream compressed emitted
  have stores : zstd.Stores compressed _ := fun rest =>
    lossless.decompress_frame rest (makeDelta_emits sameWidth sameHeight emitted)
  exact ⟨_, stores.decompress lossless,
    deltaRows_decodesTo sameWidth sameHeight widthSmall heightSmall free⟩

end Small

end RoundTrip

/-- Deltas between bitmaps of at most 256 rows and columns decode to the new
bitmap exactly when no row is copied from row 0 right after one from row 255. -/
theorem makeDelta_roundTrips_iff {zstd : Zstd} (lossless : zstd.Lossless) (prev cur : DeltaData)
    (sameWidth : prev.width = cur.width) (sameHeight : prev.height = cur.height)
    (widthSmall : prev.width ≤ 256) (heightSmall : prev.height ≤ 256) :
    RoundTrips zstd prev cur ↔ ∀ y < prev.height, ¬ CrossesEnd prev cur y := by
  constructor
  · intro roundTrips y inside crosses
    exact not_roundTrips_of_crossesEnd lossless sameWidth sameHeight widthSmall heightSmall
      inside crosses roundTrips
  · exact roundTrips_of_no_crossesEnd lossless sameWidth sameHeight widthSmall heightSmall

def shadedBitmap (height shift : Nat) : Bitmap where
  width := 2
  height := height
  rows := (List.range height).map fun y =>
    List.replicate 2 (0xff000000 + UInt32.ofNat ((y + shift) % height))
  rows_length := by simp
  row_length := by
    intro row member
    obtain ⟨y, _, rfl⟩ := List.mem_map.mp member
    simp

theorem even_two : 2 % 2 = 0 := rfl

def shadedTile (wid : TileWireId) (height shift : Nat) : DeltaData :=
  DeltaData.ofBitmap wid (shadedBitmap height shift) ⟨0, 0, 3840, 0, 0⟩ even_two

theorem makeDelta_roundTrips_rotated :
    let prev := shadedTile 1 4 0
    let cur := shadedTile 2 4 3
    (makeDelta Zstd.stored prev cur []).2 ≠ [] ∧ RoundTrips Zstd.stored prev cur :=
  ⟨by decide +kernel, (makeDelta_roundTrips_iff Zstd.stored_lossless (shadedTile 1 4 0)
    (shadedTile 2 4 3) rfl rfl (by decide) (by decide)).mpr (by decide +kernel)⟩

/-- In a tile of 256 rows that move down by one, the last one coming up again,
the copy of row 255 is extended to row 0. -/
theorem makeDelta_rotated_not_roundTrips :
    let prev := shadedTile 1 256 0
    let cur := shadedTile 2 256 255
    prev.width = cur.width ∧ prev.height = cur.height ∧ prev.width % 2 = 0 ∧
      prev.width = 2 ∧ prev.height = 256 ∧ ¬ RoundTrips Zstd.stored prev cur := by
  refine ⟨rfl, rfl, rfl, rfl, rfl, ?_⟩
  have crosses : CrossesEnd (shadedTile 1 256 0) (shadedTile 2 256 255) 1 := by decide +kernel
  exact not_roundTrips_of_crossesEnd Zstd.stored_lossless rfl rfl (by decide) (by decide)
    (by decide) crosses

end FreeOnline.Kit
