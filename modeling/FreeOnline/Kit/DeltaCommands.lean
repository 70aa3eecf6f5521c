import FreeOnline.Kit.Delta
import FreeOnline.Browser.DeltaChunk

/-!
# Commands behind the bytes of a delta

The encoder's bytes are read as a list of commands, which the decoder runs one
by one; the pixel loop of a row emits runs that together make the row new.
-/

set_option autoImplicit false

namespace FreeOnline.Kit

open FreeOnline.Browser

/-!
## Emitted commands
-/

inductive Emitted where
  | copy (count src dest : Nat)
  | draw (row col : Nat) (pixels : List UInt32)

namespace Emitted

def bytes : Emitted → List UInt8
  | copy count src dest => [99, UInt8.ofNat count, UInt8.ofNat src, UInt8.ofNat dest]
  | draw row col pixels =>
      [100, UInt8.ofNat row, UInt8.ofNat col, UInt8.ofNat pixels.length] ++ unpremultiplied pixels

def command : Emitted → DeltaCommand
  | copy count src dest => .copy count src dest
  | draw row col pixels => .draw row col pixels.length

def ByteSized : Emitted → Prop
  | copy count src dest => count < 256 ∧ src < 256 ∧ dest < 256
  | draw row col pixels => row < 256 ∧ col < 256 ∧ pixels.length < 256

def apply (oldData : List UInt8) (width : Nat) (imgData : List UInt8) : Emitted → List UInt8
  | copy count src dest => copyRows oldData width src dest count imgData
  | draw row col pixels =>
      writeBytes imgData (row * width * 4 + col * 4) (pixels.length * 4) (unpremultiplied pixels)

end Emitted

theorem toNat_ofNat {value : Nat} (small : value < 256) :
    (UInt8.ofNat value).toNat = value := by
  simp [UInt8.toNat_ofNat', Nat.mod_eq_of_lt small]

private theorem writeBytes_source_append (imgData source rest : List UInt8) (offset : Nat)
    {span : Nat} (exact : source.length = span) :
    writeBytes imgData offset span (source ++ rest) = writeBytes imgData offset span source := by
  induction span generalizing imgData offset source with
  | zero => rfl
  | succ span ih =>
      cases source with
      | nil => simp at exact
      | cons first source =>
          simp only [writeBytes, List.cons_append, List.headD_cons, List.tail_cons]
          exact ih _ source _ (by simpa using exact)

/-- The decoder takes exactly the emitted bytes and the terminator, whatever
follows them, and runs exactly the emitted commands. -/
theorem applyCommands_emitted (oldData : List UInt8) (width : Nat) (rest : List UInt8)
    (commands : List Emitted) :
    (∀ command ∈ commands, command.ByteSized) →
    ∀ (fuel i : Nat) (imgData : List UInt8), commands.length < fuel →
      applyCommands oldData width fuel i (commands.flatMap Emitted.bytes ++ 116 :: rest) imgData =
        ⟨commands.foldl (Emitted.apply oldData width) imgData,
          i + (commands.flatMap Emitted.bytes).length + 1,
          commands.map Emitted.command⟩ := by
  induction commands with
  | nil =>
      intro _ fuel i imgData enough
      cases fuel with
      | zero => simp at enough
      | succ fuel => simp [applyCommands]
  | cons command commands ih =>
      intro sized fuel i imgData enough
      have restSized : ∀ later ∈ commands, later.ByteSized :=
        fun later member => sized later (List.mem_cons_of_mem _ member)
      have here : command.ByteSized := sized command List.mem_cons_self
      cases fuel with
      | zero => simp at enough
      | succ fuel =>
          have restEnough : commands.length < fuel := by simpa using enough
          cases command with
          | copy count src dest =>
              obtain ⟨countSmall, srcSmall, destSmall⟩ := here
              have tail := ih restSized fuel (i + 4)
                (copyRows oldData width src dest count imgData) restEnough
              simp [Emitted.bytes, applyCommands, applyCopy, toNat_ofNat countSmall,
                toNat_ofNat srcSmall, toNat_ofNat destSmall, tail, Emitted.apply,
                Emitted.command]
              omega
          | draw row col pixels =>
              obtain ⟨rowSmall, colSmall, lengthSmall⟩ := here
              have tail := ih restSized fuel (i + 4 + pixels.length * 4)
                (writeBytes imgData (row * width * 4 + col * 4) (pixels.length * 4)
                  (unpremultiplied pixels)) restEnough
              have length : (unpremultiplied pixels).length = pixels.length * 4 := by
                rw [length_unpremultiplied, Nat.mul_comm]
              have written := writeBytes_source_append imgData (unpremultiplied pixels)
                (commands.flatMap Emitted.bytes ++ 116 :: rest) (row * width * 4 + col * 4) length
              have dropped : (unpremultiplied pixels ++
                  (commands.flatMap Emitted.bytes ++ 116 :: rest)).drop (pixels.length * 4) =
                    commands.flatMap Emitted.bytes ++ 116 :: rest := by
                rw [← length, List.drop_left]
              simp [Emitted.bytes, applyCommands, toNat_ofNat rowSmall, toNat_ofNat colSmall,
                toNat_ofNat lengthSmall, written, dropped, tail, Emitted.apply, Emitted.command]
              omega

/-!
## Runs of pixels
-/

private theorem sameRun_le (prevRow curRow : List UInt32) :
    sameRun prevRow curRow ≤ curRow.length := by
  induction curRow generalizing prevRow with
  | nil => cases prevRow <;> simp [sameRun]
  | cons curPix curRow ih =>
      cases prevRow with
      | nil => simp [sameRun]
      | cons prevPix prevRow =>
          have tail := ih prevRow
          simp only [sameRun, List.length_cons]
          split <;> omega

private theorem sameRun_take (prevRow curRow : List UInt32) :
    prevRow.take (sameRun prevRow curRow) = curRow.take (sameRun prevRow curRow) := by
  induction curRow generalizing prevRow with
  | nil => cases prevRow <;> simp [sameRun]
  | cons curPix curRow ih =>
      cases prevRow with
      | nil => simp [sameRun]
      | cons prevPix prevRow =>
          simp only [sameRun]
          split
          · next same => simp [same, ih prevRow]
          · simp

private theorem diffRun_bounds (prevRow curRow : List UInt32) (diff : Nat) (small : diff ≤ 254) :
    diff ≤ diffRun diff prevRow curRow ∧ diffRun diff prevRow curRow ≤ 254 ∧
      diffRun diff prevRow curRow ≤ diff + curRow.length := by
  induction curRow generalizing prevRow diff with
  | nil => cases prevRow <;> simp [diffRun, small]
  | cons curPix curRow ih =>
      cases prevRow with
      | nil => simp [diffRun, small]
      | cons prevPix prevRow =>
          simp only [diffRun, List.length_cons]
          split
          · next more =>
              have tail := ih prevRow (diff + 1) (by omega)
              omega
          · omega

private theorem diffRun_pos {prevRow curRow : List UInt32}
    (length : prevRow.length = curRow.length) (more : curRow ≠ []) :
    0 < diffRun 0 prevRow curRow := by
  cases curRow with
  | nil => exact absurd rfl more
  | cons curPix curRow =>
      cases prevRow with
      | nil => simp at length
      | cons prevPix prevRow =>
          have tail := diffRun_bounds prevRow curRow 1 (by omega)
          simp only [diffRun]
          simp
          omega

private theorem apply_draw (oldData front back : List UInt8) (width y col : Nat)
    (done old pixels : List UInt32) (frontLength : front.length = y * width * 4)
    (doneLength : done.length = col) (oldLength : old.length = pixels.length) :
    Emitted.apply oldData width (front ++ unpremultiplied done ++ unpremultiplied old ++ back)
        (.draw y col pixels) =
      front ++ unpremultiplied done ++ unpremultiplied pixels ++ back := by
  have offset : y * width * 4 + col * 4 = (front ++ unpremultiplied done).length := by
    simp only [List.length_append, frontLength, length_unpremultiplied, doneLength]
    omega
  have span : pixels.length * 4 = (unpremultiplied old).length := by
    rw [length_unpremultiplied, oldLength, Nat.mul_comm]
  have enough : (unpremultiplied old).length ≤ (unpremultiplied pixels).length := by
    simp [oldLength]
  have whole : (unpremultiplied pixels).take (unpremultiplied old).length =
      unpremultiplied pixels :=
    List.take_of_length_le (by simp [oldLength])
  simp only [Emitted.apply, offset, span]
  rw [writeBytes_append _ _ _ _ enough, whole]

/-- Runs that stay in row `y` and together make it new. The columns before them, the
pixels `done`, are new already. -/
structure DrawsRow (oldData front : List UInt8) (width y : Nat) (done prevRow curRow : List UInt32)
    (commands : List Emitted) : Prop where
  inside : ∀ command ∈ commands, command.ByteSized ∧
    ∃ col pixels, command = .draw y col pixels ∧ col + pixels.length ≤ width
  image : ∀ back, commands.foldl (Emitted.apply oldData width)
      (front ++ unpremultiplied done ++ unpremultiplied prevRow ++ back) =
    front ++ unpremultiplied done ++ unpremultiplied curRow ++ back

private theorem drawsRow_nil (oldData front : List UInt8) (width y : Nat) (done : List UInt32) :
    DrawsRow oldData front width y done [] [] [] :=
  ⟨nofun, fun _ => rfl⟩

private theorem sameRun_diffRun_pos {prevRow curRow : List UInt32}
    (length : prevRow.length = curRow.length) (notEnded : curRow ≠ []) :
    0 < sameRun prevRow curRow + diffRun 0 (prevRow.drop (sameRun prevRow curRow))
      (curRow.drop (sameRun prevRow curRow)) := by
  have some := List.length_pos_iff.mpr notEnded
  by_cases restEnded : curRow.drop (sameRun prevRow curRow) = []
  · have none : (curRow.drop (sameRun prevRow curRow)).length = 0 := by simp [restEnded]
    rw [List.length_drop] at none
    omega
  · have restLength : (prevRow.drop (sameRun prevRow curRow)).length =
        (curRow.drop (sameRun prevRow curRow)).length := by
      simp [length]
    have run := diffRun_pos restLength restEnded
    omega

section Runs

variable (oldData front : List UInt8) (width y : Nat) {done prevRow curRow : List UInt32}
  {diff : Nat}

/-- The part that is the same counts as done. -/
private theorem prevRow_split (done : List UInt32) (prevRow curRow : List UInt32) (diff : Nat)
    (back : List UInt8) :
    front ++ unpremultiplied done ++ unpremultiplied prevRow ++ back =
      front ++ unpremultiplied (done ++ curRow.take (sameRun prevRow curRow)) ++
        unpremultiplied ((prevRow.drop (sameRun prevRow curRow)).take diff) ++
        (unpremultiplied ((prevRow.drop (sameRun prevRow curRow)).drop diff) ++ back) := by
  have pieces : prevRow = curRow.take (sameRun prevRow curRow) ++
      ((prevRow.drop (sameRun prevRow curRow)).take diff ++
        (prevRow.drop (sameRun prevRow curRow)).drop diff) := by
    rw [List.take_append_drop, ← sameRun_take prevRow curRow, List.take_append_drop]
  calc
    _ = front ++ unpremultiplied done ++ unpremultiplied (curRow.take (sameRun prevRow curRow) ++
          ((prevRow.drop (sameRun prevRow curRow)).take diff ++
            (prevRow.drop (sameRun prevRow curRow)).drop diff)) ++ back := by rw [← pieces]
    _ = _ := by simp only [unpremultiplied_append, List.append_assoc]

private theorem curRow_join (done curRow : List UInt32) (same diff : Nat) (back : List UInt8) :
    front ++ unpremultiplied (done ++ curRow.take same ++ (curRow.drop same).take diff) ++
        unpremultiplied ((curRow.drop same).drop diff) ++ back =
      front ++ unpremultiplied done ++ unpremultiplied curRow ++ back := by
  have pieces : curRow.take same ++ ((curRow.drop same).take diff ++ (curRow.drop same).drop diff) =
      curRow := by
    rw [List.take_append_drop, List.take_append_drop]
  calc
    _ = front ++ unpremultiplied done ++ unpremultiplied
          (curRow.take same ++ ((curRow.drop same).take diff ++ (curRow.drop same).drop diff)) ++
          back := by
        simp only [unpremultiplied_append, List.append_assoc]
    _ = _ := by rw [pieces]

variable (length : prevRow.length = curRow.length)
  (diffLe : diff ≤ (curRow.drop (sameRun prevRow curRow)).length)
  {commands : List Emitted}
  (draws : DrawsRow oldData front width y
    (done ++ curRow.take (sameRun prevRow curRow) ++
      (curRow.drop (sameRun prevRow curRow)).take diff)
    ((prevRow.drop (sameRun prevRow curRow)).drop diff)
    ((curRow.drop (sameRun prevRow curRow)).drop diff) commands)

include draws in
private theorem drawsRow_same (noDiff : diff = 0) :
    DrawsRow oldData front width y done prevRow curRow commands := by
  refine ⟨draws.inside, fun back => ?_⟩
  rw [prevRow_split front done prevRow curRow diff back, ← curRow_join front done curRow
    (sameRun prevRow curRow) diff back, ← draws.image back]
  simp [noDiff]

include length diffLe draws in
private theorem drawsRow_run (widthSmall : width ≤ 256) (ySmall : y < 256)
    (frontLength : front.length = y * width * 4) (inWidth : done.length + curRow.length = width)
    (diffSmall : diff < 256) (run : 0 < diff) :
    DrawsRow oldData front width y done prevRow curRow
      (.draw y (done.length + sameRun prevRow curRow)
        ((curRow.drop (sameRun prevRow curRow)).take diff) :: commands) := by
  have sameLe := sameRun_le prevRow curRow
  have restLength : (curRow.drop (sameRun prevRow curRow)).length =
      curRow.length - sameRun prevRow curRow := List.length_drop
  have runLength : ((curRow.drop (sameRun prevRow curRow)).take diff).length = diff := by
    rw [List.length_take]
    omega
  refine ⟨?_, fun back => ?_⟩
  · intro command member
    rcases List.mem_cons.mp member with rfl | later
    · exact ⟨⟨ySmall, by omega, by omega⟩, _, _, rfl, by omega⟩
    · exact draws.inside command later
  · have drawn := apply_draw oldData front
      (unpremultiplied ((prevRow.drop (sameRun prevRow curRow)).drop diff) ++ back) width y
      (done.length + sameRun prevRow curRow) (done ++ curRow.take (sameRun prevRow curRow))
      ((prevRow.drop (sameRun prevRow curRow)).take diff)
      ((curRow.drop (sameRun prevRow curRow)).take diff) frontLength
      (by simp; omega) (by simp; omega)
    rw [prevRow_split front done prevRow curRow diff back, List.foldl_cons, drawn,
      ← curRow_join front done curRow (sameRun prevRow curRow) diff back, ← draws.image back]
    simp

end Runs

theorem pushRow_commands (oldData front : List UInt8) {width y : Nat} (widthSmall : width ≤ 256)
    (ySmall : y < 256) (frontLength : front.length = y * width * 4) (fuel : Nat)
    (prevRow curRow done : List UInt32) (length : prevRow.length = curRow.length)
    (enough : curRow.length ≤ fuel) (inWidth : done.length + curRow.length = width) :
    ∃ commands : List Emitted,
      pushRow y fuel done.length prevRow curRow = commands.flatMap Emitted.bytes ∧
      DrawsRow oldData front width y done prevRow curRow commands := by
  induction fuel generalizing prevRow curRow done with
  | zero =>
      have curNil : curRow = [] := List.length_eq_zero_iff.mp (by omega)
      have prevNil : prevRow = [] := List.length_eq_zero_iff.mp (by omega)
      rw [curNil, prevNil]
      exact ⟨[], rfl, drawsRow_nil oldData front width y done⟩
  | succ fuel ih =>
      by_cases ended : curRow = []
      · have prevNil : prevRow = [] := List.length_eq_zero_iff.mp (by simp [length, ended])
        rw [ended, prevNil]
        exact ⟨[], by simp [pushRow], drawsRow_nil oldData front width y done⟩
      · have progress := sameRun_diffRun_pos length ended
        have sameLe := sameRun_le prevRow curRow
        obtain ⟨-, diffSmall, diffLe⟩ := diffRun_bounds (prevRow.drop (sameRun prevRow curRow))
          (curRow.drop (sameRun prevRow curRow)) 0 (by omega)
        generalize isDiff : diffRun 0 (prevRow.drop (sameRun prevRow curRow))
          (curRow.drop (sameRun prevRow curRow)) = diff at progress diffSmall diffLe
        rw [Nat.zero_add] at diffLe
        have restLength : (curRow.drop (sameRun prevRow curRow)).length =
            curRow.length - sameRun prevRow curRow := List.length_drop
        have doneLength : (done ++ curRow.take (sameRun prevRow curRow) ++
            (curRow.drop (sameRun prevRow curRow)).take diff).length =
              done.length + sameRun prevRow curRow + diff := by
          simp only [List.length_append, List.length_take]
          omega
        obtain ⟨commands, emitted, draws⟩ := ih
          ((prevRow.drop (sameRun prevRow curRow)).drop diff)
          ((curRow.drop (sameRun prevRow curRow)).drop diff)
          (done ++ curRow.take (sameRun prevRow curRow) ++
            (curRow.drop (sameRun prevRow curRow)).take diff)
          (by simp [length]) (by simp; omega) (by rw [doneLength, List.length_drop]; omega)
        rw [doneLength] at emitted
        simp only [pushRow, if_neg ended, isDiff, emitted]
        by_cases run : 0 < diff
        · have runLength : ((curRow.drop (sameRun prevRow curRow)).take diff).length = diff := by
            rw [List.length_take]
            omega
          refine ⟨_, ?_, drawsRow_run oldData front width y length diffLe draws widthSmall ySmall
            frontLength inWidth (by omega) run⟩
          rw [if_pos run, unpremultCopy_eq, List.flatMap_cons, Emitted.bytes, runLength]
        · refine ⟨commands, ?_, drawsRow_same oldData front width y draws (by omega)⟩
          rw [if_neg run, List.nil_append]

end FreeOnline.Kit
