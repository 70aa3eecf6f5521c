import FreeOnline.Kit.DeltaRoundTrip

/-!
# Copies past the end

A copy that is extended from row 255 to row 0 goes on behind the old image,
where the browser reads zeros. What it shows is known all the same: the rows
read there are blank, and the others are right.
-/

set_option autoImplicit false

namespace FreeOnline.Kit

open FreeOnline.Browser

/-!
## Rows past the end
-/

/-- The row of the old image that the browser reads for row `y`. A copy command
that crosses the end goes on counting. -/
def readRow (prev cur : DeltaData) : Nat → Option Nat
  | 0 => rowSource prev cur 0
  | y + 1 =>
      (rowSource prev cur (y + 1)).map fun found =>
        if y + 1 ≠ 128 ∧ readRow prev cur y = some (found + 255) then found + 256 else found

def lastRead (prev cur : DeltaData) : Nat → Option Nat
  | 0 => none
  | y + 1 => readRow prev cur y

def ReadsPastEnd (prev cur : DeltaData) (y : Nat) : Prop :=
  ∃ row ∈ readRow prev cur y, prev.height ≤ row

instance (prev cur : DeltaData) (y : Nat) : Decidable (ReadsPastEnd prev cur y) :=
  inferInstanceAs (Decidable (∃ row ∈ readRow prev cur y, prev.height ≤ row))

/-- The rows that are read past the end are blank in the new bitmap. -/
def BlankPastEnd (prev cur : DeltaData) : Prop :=
  ∀ y < prev.height, ReadsPastEnd prev cur y →
    unpremultiplied (cur.getRow y).pixels = List.replicate (prev.width * 4) 0

instance (prev cur : DeltaData) : Decidable (BlankPastEnd prev cur) := by
  unfold BlankPastEnd
  infer_instance

theorem rowSource_some {prev cur : DeltaData} {y found : Nat}
    (source : rowSource prev cur y = some found) :
    found < prev.height ∧ (prev.getRow found).identical (cur.getRow y) = true := by
  unfold rowSource at source
  split at source
  · cases source
  · exact huntRow_some source

theorem readRow_none {prev cur : DeltaData} {y : Nat} (source : rowSource prev cur y = none) :
    readRow prev cur y = none := by
  cases y with
  | zero => exact source
  | succ y => simp only [readRow, source, Option.map_none]

/-- A row is read at its source, unless its copy has crossed the end. -/
theorem readRow_some {prev cur : DeltaData} {y found : Nat}
    (source : rowSource prev cur y = some found) :
    readRow prev cur y = some
      (if y ≠ 128 ∧ lastRead prev cur y = some (found + 255) then found + 256 else found) := by
  cases y with
  | zero => simpa [readRow, lastRead] using source
  | succ y =>
      rw [readRow, source]
      rfl

theorem readRow_cases {prev cur : DeltaData} {y row : Nat} (read : readRow prev cur y = some row) :
    ∃ found, rowSource prev cur y = some found ∧
      (row = found ∨
        row = found + 256 ∧ y ≠ 128 ∧ lastRead prev cur y = some (found + 255)) := by
  cases source : rowSource prev cur y with
  | none =>
      rw [readRow_none source] at read
      cases read
  | some found =>
      rw [readRow_some source, Option.some_inj] at read
      refine ⟨found, rfl, ?_⟩
      split at read
      · next crossed => exact .inr ⟨read.symm, crossed⟩
      · exact .inl read.symm

/-- Only a bitmap of 256 rows has a row 255 to go on from. -/
theorem height_of_readRow {prev cur : DeltaData} (heightSmall : prev.height ≤ 256) {y row : Nat}
    (read : readRow prev cur y = some row) (far : 255 ≤ row) : prev.height = 256 := by
  induction y generalizing row with
  | zero =>
      have inside := (rowSource_some read).1
      omega
  | succ y ih =>
      obtain ⟨found, source, same | ⟨-, -, before⟩⟩ := readRow_cases read
      · have inside := (rowSource_some source).1
        omega
      · exact ih before (by omega)

/-- The hunt in a bitmap of 256 rows sees only the last byte of the offset. -/
theorem huntRow_congr {prev : DeltaData} (height : prev.height = 256) {offset other : Nat}
    (same : offset % 256 = other % 256) (curRow : DeltaBitmapRow) (y : Nat) :
    huntRow prev curRow y offset = huntRow prev curRow y other := by
  have found (yn : Nat) : (y + offset + yn) % 2 ^ 64 % prev.height =
      (y + other + yn) % 2 ^ 64 % prev.height := by
    rw [height]
    omega
  simp only [huntRow, found]

/-!
## What the browser shows
-/

def shownRow (prev cur : DeltaData) (y : Nat) : List UInt8 :=
  if ReadsPastEnd prev cur y then List.replicate (prev.width * 4) 0
  else unpremultiplied (cur.getRow y).pixels

def shownRows (prev cur : DeltaData) (y : Nat) : List UInt8 :=
  (List.range y).flatMap (shownRow prev cur)

/-- The image in the middle of decoding, whatever the copies read. -/
def shownImage (prev cur : DeltaData) (y : Nat) : List UInt8 :=
  shownRows prev cur y ++ rowsImage (prev.rows.drop y)

/-- The commands so far show what they should, and the encoder remembers where
the last row is read. -/
structure Shown (prev cur : DeltaData) (y : Nat) (state : DeltaState)
    (commands : List Emitted) : Prop where
  image : commands.foldl (Emitted.apply prev.image prev.width) prev.image = shownImage prev cur y
  hunts : ∀ curRow z, huntRow prev curRow z state.lastMatchOffset =
    huntRow prev curRow z (sourceOffset prev cur y)
  read : ∀ row, lastRead prev cur y = some row ↔
    0 < state.lastCopy ∧ state.copyDest + state.copyCount = y ∧
      state.copySrc + state.copyCount = row + 1

theorem shownRows_succ (prev cur : DeltaData) (y : Nat) :
    shownRows prev cur (y + 1) = shownRows prev cur y ++ shownRow prev cur y := by
  simp [shownRows, List.range_succ]

section Rows

variable {prev cur : DeltaData} (sameWidth : prev.width = cur.width)
  (sameHeight : prev.height = cur.height)

include sameHeight

theorem shownImage_same {y : Nat} (inside : y < prev.height)
    (same : (prev.getRow y).identical (cur.getRow y) = true) :
    shownImage prev cur y = shownImage prev cur (y + 1) := by
  have pixels := (prev.identical_iff cur inside (by omega)).mp same
  have unread : readRow prev cur y = none := readRow_none (by simp [rowSource, same])
  have shown : shownRow prev cur y = unpremultiplied (prev.getRow y).pixels := by
    simp [shownRow, ReadsPastEnd, unread, pixels]
  rw [shownImage, shownImage, shownRows_succ, shown, drop_rows prev inside]
  simp [rowsImage]

include sameWidth

theorem length_shownRow {y : Nat} (inside : y < prev.height) :
    (shownRow prev cur y).length = prev.width * 4 := by
  unfold shownRow
  split
  · exact List.length_replicate
  · rw [rowLength cur (by omega), sameWidth]

theorem length_shownRows {y : Nat} (inside : y ≤ prev.height) :
    (shownRows prev cur y).length = y * prev.width * 4 := by
  induction y with
  | zero => simp [shownRows]
  | succ y ih =>
      rw [shownRows_succ, List.length_append, ih (by omega),
        length_shownRow sameWidth sameHeight (by omega), Nat.add_mul, Nat.add_mul, Nat.one_mul]

/-- The row that is read is the one that is looked for, or there is none. -/
theorem write_shownRow (heightSmall : prev.height ≤ 256) {y : Nat} (inside : y < prev.height)
    {row : Nat}
    (read : readRow prev cur y = some row) :
    writeBytes (shownImage prev cur y) (y * prev.width * 4) (prev.width * 4)
        (prev.image.drop (row * prev.width * 4)) =
      shownImage prev cur (y + 1) := by
  have front := length_shownRows sameWidth sameHeight (Nat.le_of_lt inside)
  rw [shownImage, shownImage, shownRows_succ]
  by_cases past : prev.height ≤ row
  · have beyond : prev.image.drop (row * prev.width * 4) = [] := by
      refine List.drop_eq_nil_of_le ?_
      rw [prev.length_image, Nat.mul_comm prev.width]
      exact Nat.mul_le_mul_right 4 (Nat.mul_le_mul_right prev.width past)
    have blank : shownRow prev cur y = List.replicate (prev.width * 4) 0 := by
      rw [shownRow, if_pos ⟨row, read, past⟩]
    have written := writeBytes_past (shownRows prev cur y) (unpremultiplied (prev.getRow y).pixels)
      (rowsImage (prev.rows.drop (y + 1)))
    rw [rowLength prev inside, front] at written
    rw [beyond, blank, ← written, drop_rows prev inside]
    simp [rowsImage]
  · obtain ⟨found, source, same | ⟨far, -, -⟩⟩ := readRow_cases read
    · subst same
      obtain ⟨foundInside, identical⟩ := rowSource_some source
      have looksAlike := (prev.identical_iff cur foundInside (by omega)).mp identical
      have right : shownRow prev cur y = unpremultiplied (cur.getRow y).pixels := by
        simp [shownRow, ReadsPastEnd, read, past]
      rw [right, ← looksAlike]
      exact write_row prev front inside foundInside
    · omega

end Rows

/-!
## One row
-/

section Steps

variable {prev cur : DeltaData} (sameWidth : prev.width = cur.width)
  (sameHeight : prev.height = cur.height) (widthSmall : prev.width ≤ 256)
  (heightSmall : prev.height ≤ 256) {y : Nat} (inside : y < prev.height)
  {state : DeltaState} {commands : List Emitted} (encoded : Encoded y state commands)
  (shown : Shown prev cur y state commands)

/-- What a row makes of the commands. -/
def ShownAfter (prev cur : DeltaData) (y : Nat) (state : DeltaState) : Prop :=
  ∃ next, Encoded (y + 1) (deltaRow prev cur state y) next ∧
    Shown prev cur (y + 1) (deltaRow prev cur state y) next

theorem Shown.rowSource_eq (shown : Shown prev cur y state commands)
    (different : (prev.getRow y).identical (cur.getRow y) = false) :
    rowSource prev cur y = huntRow prev (cur.getRow y) y state.lastMatchOffset := by
  rw [rowSource_hunted different, shown.hunts]

include encoded in
/-- A row that is not copied leaves the open copy and the offset as they are. -/
theorem Shown.uncopied (shown : Shown prev cur y state commands) {next : DeltaState}
    {added : List Emitted} (appended : Encoded (y + 1) next (commands ++ added))
    (lastCopy : next.lastCopy = state.lastCopy)
    (offset : next.lastMatchOffset = state.lastMatchOffset)
    (source : rowSource prev cur y = none)
    (image : (commands ++ added).foldl (Emitted.apply prev.image prev.width) prev.image =
      shownImage prev cur (y + 1)) :
    Shown prev cur (y + 1) next (commands ++ added) where
  image := image
  hunts := by
    rw [offset, sourceOffset_none source]
    exact shown.hunts
  read := by
    intro row
    rw [lastRead, readRow_none source]
    constructor
    · intro nothing
      cases nothing
    · intro opened
      exact absurd opened.2.1 (encoded.copy_ended appended lastCopy offset opened.1)

include sameHeight inside encoded shown in
theorem shown_identical (same : (prev.getRow y).identical (cur.getRow y) = true) :
    ShownAfter prev cur y state := by
  have row : deltaRow prev cur state y = state := by simp [deltaRow, same]
  have appended : Encoded (y + 1) (deltaRow prev cur state y) (commands ++ []) := by
    rw [row]
    exact encoded.append (by simp) rfl rfl (by simp)
  refine ⟨_, appended, shown.uncopied encoded appended (by rw [row]) (by rw [row])
    (by simp [rowSource, same]) ?_⟩
  rw [List.append_nil, shown.image, shownImage_same sameHeight inside same]

include sameWidth sameHeight widthSmall heightSmall inside encoded shown in
theorem shown_draw (different : (prev.getRow y).identical (cur.getRow y) = false)
    (unmatched : huntRow prev (cur.getRow y) y state.lastMatchOffset = none) :
    ShownAfter prev cur y state := by
  have front := length_shownRows sameWidth sameHeight (Nat.le_of_lt inside)
  have curLength : (cur.getRow y).pixels.length = prev.width := by
    rw [sameWidth]
    exact cur.length_getRow (by omega)
  obtain ⟨added, emitted, drawn, image⟩ := pushRow_commands prev.image
    (shownRows prev cur y) widthSmall (by omega) front prev.width
    (prev.getRow y).pixels (cur.getRow y).pixels []
    (by rw [prev.length_getRow inside, curLength]) (by omega) (by simp [curLength])
  rw [List.length_nil] at emitted
  have row : deltaRow prev cur state y =
      { state with output := state.output ++ added.flatMap Emitted.bytes } := by
    simp [deltaRow, different, unmatched, emitted]
  have appended : Encoded (y + 1) (deltaRow prev cur state y) (commands ++ added) := by
    rw [row]
    exact encoded.append rfl rfl rfl fun command member => (drawn command member).1
  have source : rowSource prev cur y = none := by rw [shown.rowSource_eq different, unmatched]
  refine ⟨_, appended, shown.uncopied encoded appended (by rw [row]) (by rw [row]) source ?_⟩
  have written := image (rowsImage (prev.rows.drop (y + 1)))
  have here : shownImage prev cur y = shownRows prev cur y ++
      unpremultiplied (prev.getRow y).pixels ++ rowsImage (prev.rows.drop (y + 1)) := by
    rw [shownImage, drop_rows prev inside]
    simp [rowsImage]
  have right : shownRow prev cur y = unpremultiplied (cur.getRow y).pixels := by
    simp [shownRow, ReadsPastEnd, readRow_none source]
  simp only [unpremultiplied_nil, List.append_nil] at written
  rw [List.foldl_append, shown.image, here, written, shownImage, shownRows_succ, right]

include sameWidth sameHeight heightSmall inside encoded shown in
theorem shown_copy {found : Nat}
    (different : (prev.getRow y).identical (cur.getRow y) = false)
    (hunted : huntRow prev (cur.getRow y) y state.lastMatchOffset = some found)
    (fresh : state.extendsCopy found y = false) : ShownAfter prev cur y state := by
  have foundInside := (huntRow_some hunted).1
  have source : rowSource prev cur y = some found := by rw [shown.rowSource_eq different, hunted]
  -- A copy that goes on behind the end would have been extended.
  have read : readRow prev cur y = some found := by
    rw [readRow_some source, if_neg]
    intro crossed
    obtain ⟨notMiddle, before⟩ := crossed
    obtain ⟨positive, atRow, atSource⟩ := (shown.read _).mp before
    rcases encoded.last with none | ⟨front, after, count, src, dest, copy⟩
    · omega
    · obtain ⟨countEq, srcEq, destEq⟩ := copy.operands encoded.output
      have destHalf := copy.dest_half
      have countLe := copy.count_le
      have extended := (copy.extendsCopy_iff encoded.output (by omega) (by omega)).mpr
        ⟨by omega, by omega, notMiddle, .inr (by omega : src + count = found + 256)⟩
      rw [fresh] at extended
      cases extended
  have row := deltaRow_copy different hunted fresh
  obtain ⟨copied, opened⟩ := encoded_copy heightSmall inside encoded different hunted fresh
  refine ⟨_, copied, ?_, ?_, ?_⟩
  · rw [List.foldl_append, shown.image,
      ← write_shownRow sameWidth sameHeight heightSmall inside read]
    rfl
  · rw [row, sourceOffset_found source]
    exact fun _ _ => rfl
  · intro other
    obtain ⟨countEq, srcEq, destEq⟩ := opened.operands copied.output
    have positive : 0 < (deltaRow prev cur state y).lastCopy := by rw [row]; simp
    rw [lastRead, read, countEq, srcEq, destEq]
    simp [positive]

include sameWidth sameHeight heightSmall inside encoded shown in
theorem shown_extend {found : Nat}
    (different : (prev.getRow y).identical (cur.getRow y) = false)
    (hunted : huntRow prev (cur.getRow y) y state.lastMatchOffset = some found)
    (extends_ : state.extendsCopy found y = true) : ShownAfter prev cur y state := by
  have source : rowSource prev cur y = some found := by rw [shown.rowSource_eq different, hunted]
  obtain ⟨before, count, src, dest, extended⟩ :=
    encoded_extend heightSmall inside encoded different hunted extends_
  have copy := extended.copy
  have destRow := extended.destRow
  have countPos := copy.count_pos
  obtain ⟨countEq, srcEq, destEq⟩ := copy.operands encoded.output
  have opened : 0 < state.lastCopy := by
    rw [copy.lastCopy_eq]
    omega
  have beforeRead : lastRead prev cur y = some (src + count - 1) :=
    (shown.read _).mpr ⟨opened, by omega, by omega⟩
  have read : readRow prev cur y = some (src + count) := by
    rw [readRow_some source, beforeRead, Option.some_inj]
    rcases extended.srcRow with ⟨next, -⟩ | wrapped
    · rw [if_neg (by simp only [Option.some_inj]; omega), next]
    · rw [if_pos ⟨extended.notMiddle, by congr 1; omega⟩, wrapped]
  refine ⟨_, extended.encoded, ?_, ?_, ?_⟩
  · have image := shown.image
    rw [copy.position, List.foldl_append] at image
    rw [List.foldl_append, ← write_shownRow sameWidth sameHeight heightSmall inside read, ← image,
      ← destRow]
    rfl
  · have destLt := copy.dest_lt
    intro curRow z
    rw [extended.opened.offset_eq, sourceOffset_found source]
    rcases extended.srcRow with ⟨next, -⟩ | wrapped
    · have same : src + 2 ^ 64 - dest = found + 2 ^ 64 - y := by omega
      rw [same]
    · have height := height_of_readRow heightSmall read (by omega)
      exact huntRow_congr height (by omega) curRow z
  · intro row
    obtain ⟨nextCount, nextSrc, nextDest⟩ := extended.opened.operands extended.encoded.output
    have positive : 0 < (deltaRow prev cur state y).lastCopy := by
      rw [extended.opened.lastCopy_eq]
      omega
    rw [lastRead, read, nextCount, nextSrc, nextDest, Option.some_inj]
    omega

include sameWidth sameHeight widthSmall heightSmall inside encoded shown in
theorem shown_row : ShownAfter prev cur y state := by
  cases same : (prev.getRow y).identical (cur.getRow y) with
  | true => exact shown_identical sameHeight inside encoded shown same
  | false =>
      cases hunted : huntRow prev (cur.getRow y) y state.lastMatchOffset with
      | none =>
          exact shown_draw sameWidth sameHeight widthSmall heightSmall inside encoded shown same
            hunted
      | some found =>
          cases extended : state.extendsCopy found y with
          | true =>
              exact shown_extend sameWidth sameHeight heightSmall inside encoded shown same hunted
                extended
          | false =>
              exact shown_copy sameWidth sameHeight heightSmall inside encoded shown same hunted
                extended

end Steps

/-!
## All rows
-/

section AllRows

variable {prev cur : DeltaData} (sameWidth : prev.width = cur.width)
  (sameHeight : prev.height = cur.height) (widthSmall : prev.width ≤ 256)
  (heightSmall : prev.height ≤ 256)

theorem shownRow_eq_iff (y : Nat) :
    shownRow prev cur y = unpremultiplied (cur.getRow y).pixels ↔
      (ReadsPastEnd prev cur y →
        unpremultiplied (cur.getRow y).pixels = List.replicate (prev.width * 4) 0) := by
  unfold shownRow
  split
  · next past => exact ⟨fun same _ => same.symm, fun blank => (blank past).symm⟩
  · next inside => exact ⟨fun _ past => absurd past inside, fun _ => rfl⟩

include sameWidth sameHeight

theorem shownRows_eq_iff {y : Nat} (inside : y ≤ prev.height) :
    shownRows prev cur y = rowsImage (cur.rows.take y) ↔ ∀ z < y, ReadsPastEnd prev cur z →
      unpremultiplied (cur.getRow z).pixels = List.replicate (prev.width * 4) 0 := by
  induction y with
  | zero => simp [shownRows, rowsImage]
  | succ y ih =>
      have sameLength : (shownRows prev cur y).length = (rowsImage (cur.rows.take y)).length := by
        rw [length_shownRows sameWidth sameHeight (by omega), length_takeImage cur (by omega),
          sameWidth]
      have next : rowsImage (cur.rows.take (y + 1)) =
          rowsImage (cur.rows.take y) ++ unpremultiplied (cur.getRow y).pixels := by
        rw [take_rows cur (by omega)]
        simp [rowsImage]
      rw [shownRows_succ, next]
      constructor
      · intro same z below
        obtain ⟨front, row⟩ := List.append_inj same sameLength
        cases Nat.lt_succ_iff_lt_or_eq.mp below with
        | inl earlier => exact (ih (by omega)).mp front z earlier
        | inr here => exact here ▸ (shownRow_eq_iff y).mp row
      · intro blank
        rw [(ih (by omega)).mpr fun z below => blank z (by omega),
          (shownRow_eq_iff y).mpr (blank y (by omega))]

/-- The image is right if and only if the rows that are read past the end are blank. -/
theorem shownImage_eq_iff :
    shownImage prev cur prev.height = cur.image ↔ BlankPastEnd prev cur := by
  have noneOld : prev.rows.drop prev.height = [] := by
    rw [← prev.rows_length, List.drop_length]
  have allNew : cur.rows.take prev.height = cur.rows := by
    rw [sameHeight, ← cur.rows_length, List.take_length]
  have rows := shownRows_eq_iff sameWidth sameHeight (Nat.le_refl prev.height)
  rw [allNew] at rows
  rw [shownImage, noneOld, show rowsImage [] = [] from rfl, List.append_nil]
  exact rows

include widthSmall heightSmall

theorem deltaRows_shown (y : Nat) (inside : y ≤ prev.height) :
    ∃ commands, Encoded y (deltaRows prev cur y) commands ∧
      Shown prev cur y (deltaRows prev cur y) commands := by
  induction y with
  | zero =>
      refine ⟨[], ⟨rfl, by simp, .inl rfl⟩, ?_, fun _ _ => rfl, fun row => ?_⟩
      · simp [shownImage, shownRows, rowsImage, DeltaData.image]
      · simp [lastRead, deltaRows, DeltaState.initial]
  | succ y ih =>
      obtain ⟨commands, encoded, shown⟩ := ih (by omega)
      rw [deltaRows_succ]
      exact shown_row sameWidth sameHeight widthSmall heightSmall (by omega) encoded shown

/-- The browser takes the delta up to its terminator, whatever follows. -/
theorem deltaRows_shows (rest : List UInt8) :
    let delta := (deltaRows prev cur prev.height).output ++ [116]
    let chunk := applyDeltaChunk prev.image (delta ++ rest) prev.image prev.width
    chunk.imgData = shownImage prev cur prev.height ∧ chunk.consumed = delta.length := by
  obtain ⟨commands, encoded, shown⟩ :=
    deltaRows_shown sameWidth sameHeight widthSmall heightSmall prev.height (Nat.le_refl _)
  dsimp only
  rw [encoded.output, applyDeltaChunk_emitted _ _ _ _ _ encoded.sized]
  exact ⟨shown.image, rfl⟩

end AllRows

end FreeOnline.Kit
