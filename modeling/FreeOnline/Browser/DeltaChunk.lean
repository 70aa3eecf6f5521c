import Mathlib.Data.List.Basic

/-!
# Applying deltas in the browser

The part of `CanvasTileLayer.js` that turns a decompressed tile message into
canvas bytes. Typed arrays ignore writes outside their bounds and read
`undefined` there, which a clamped array stores as zero.
-/

set_option autoImplicit false

namespace FreeOnline.Browser

inductive DeltaCommand where
  | copy (count srcRow destRow : Nat)
  | draw (destRow destCol span : Nat)
deriving DecidableEq, Repr

def DeltaCommand.InBounds (width height : Nat) : DeltaCommand → Prop
  | .copy count srcRow destRow => srcRow + count ≤ height ∧ destRow + count ≤ height
  | .draw destRow destCol span => destRow < height ∧ destCol + span ≤ width

instance (width height : Nat) (command : DeltaCommand) :
    Decidable (command.InBounds width height) := by
  cases command <;> unfold DeltaCommand.InBounds <;> infer_instance

/-- What `_applyDeltaChunk` leaves behind: the image, the offset it returns, and
the commands it ran, in order. -/
structure ChunkResult where
  imgData : List UInt8
  consumed : Nat
  commands : List DeltaCommand
deriving DecidableEq, Repr

def writeBytes : (imgData : List UInt8) → (offset span : Nat) → (source : List UInt8) → List UInt8
  | imgData, _, 0, _ => imgData
  | imgData, offset, span + 1, source =>
      writeBytes (imgData.set offset (source.headD 0)) (offset + 1) span source.tail

theorem writeBytes_append (front old back source : List UInt8)
    (enough : old.length ≤ source.length) :
    writeBytes (front ++ old ++ back) front.length old.length source =
      front ++ source.take old.length ++ back := by
  induction old generalizing front source with
  | nil => simp [writeBytes]
  | cons byte old ih =>
      cases source with
      | nil => simp at enough
      | cons first source =>
          have shorter : old.length ≤ source.length := by simpa using enough
          have tail := ih (front ++ [first]) source shorter
          simpa [writeBytes, List.append_assoc] using tail

/-- Behind the end of the source there are zeros. -/
theorem writeBytes_past (front old back : List UInt8) :
    writeBytes (front ++ old ++ back) front.length old.length [] =
      front ++ List.replicate old.length 0 ++ back := by
  induction old generalizing front with
  | nil => simp [writeBytes]
  | cons byte old ih =>
      have tail := ih (front ++ [0])
      simpa [writeBytes, List.append_assoc, List.replicate_succ] using tail

def copyRows (oldData : List UInt8) (width srcRow destRow : Nat) :
    (count : Nat) → (imgData : List UInt8) → List UInt8
  | 0, imgData => imgData
  | cnt + 1, imgData =>
      writeBytes (copyRows oldData width srcRow destRow cnt imgData)
        ((destRow + cnt) * width * 4) (width * 4) (oldData.drop ((srcRow + cnt) * width * 4))

/-- A copy command whose operands may be missing at the end of the stream: a
missing count compares as `NaN`, and when an operand is missing so is the
destination row, the last one, without which nothing is written. -/
def applyCopy (oldData : List UInt8) (width : Nat) (imgData : List UInt8) :
    Option UInt8 → Option UInt8 → Option UInt8 → List UInt8
  | some count, some srcRow, some destRow =>
      copyRows oldData width srcRow.toNat destRow.toNat count.toNat imgData
  | _, _, _ => imgData

/-- The command loop. `delta` is the stream from index `i` on; every turn takes
at least one byte, so its length is enough fuel. -/
def applyCommands (oldData : List UInt8) (width : Nat) :
    (fuel : Nat) → (i : Nat) → (delta imgData : List UInt8) → ChunkResult
  | 0, i, _, imgData => ⟨imgData, i, []⟩
  | _ + 1, i, [], imgData => ⟨imgData, i, []⟩
  | fuel + 1, i, code :: operands, imgData =>
      let rest := operands.drop 3
      if code = 99 then
        let next := applyCommands oldData width fuel (i + 4) rest
          (applyCopy oldData width imgData operands[0]? operands[1]? operands[2]?)
        let command := DeltaCommand.copy ((operands[0]?.getD 0).toNat)
          ((operands[1]?.getD 0).toNat) ((operands[2]?.getD 0).toNat)
        { next with commands := command :: next.commands }
      else if code = 100 then
        let destRow := (operands[0]?.getD 0).toNat
        let destCol := (operands[1]?.getD 0).toNat
        let span := (operands[2]?.getD 0).toNat
        let offset := destRow * width * 4 + destCol * 4
        let next := applyCommands oldData width fuel (i + 4 + span * 4) (rest.drop (span * 4))
          (writeBytes imgData offset (span * 4) rest)
        { next with commands := DeltaCommand.draw destRow destCol span :: next.commands }
      else if code = 116 then ⟨imgData, i + 1, []⟩
      else ⟨imgData, i + 1 + operands.length, []⟩

def applyDeltaChunk (imgData delta oldData : List UInt8) (width : Nat) : ChunkResult :=
  applyCommands oldData width delta.length 0 delta imgData

/-- The loop of `_applyDelta` after the keyframe: one chunk after the other, each
working from a copy of the image before it. A chunk that takes nothing would
never end; every chunk takes at least one byte. -/
def applyDeltas (width : Nat) : (fuel : Nat) → (deltas imgData : List UInt8) → List UInt8
  | 0, _, imgData => imgData
  | fuel + 1, deltas, imgData =>
      if deltas = [] then imgData
      else
        let chunk := applyDeltaChunk imgData deltas imgData width
        applyDeltas width fuel (deltas.drop chunk.consumed) chunk.imgData

/-- `_applyDelta` on a message that starts with a keyframe, after decompression:
the first canvas-sized block is the image, the rest are deltas. -/
def applyKeyframe (width height : Nat) (allDeltas : List UInt8) : List UInt8 :=
  let len := width * height * 4
  applyDeltas width allDeltas.length (allDeltas.drop len) (allDeltas.take len)

/-- One turn of the loop of `_applyDelta`: the bytes it takes and the image it leaves. -/
structure DeltaTurn where
  len : Nat
  imgData : List UInt8
deriving DecidableEq, Repr

def deltaTurns (width : Nat) : (fuel : Nat) → (deltas imgData : List UInt8) → List DeltaTurn
  | 0, _, _ => []
  | fuel + 1, deltas, imgData =>
      if deltas = [] then []
      else
        let chunk := applyDeltaChunk imgData deltas imgData width
        ⟨chunk.consumed, chunk.imgData⟩ ::
          deltaTurns width fuel (deltas.drop chunk.consumed) chunk.imgData

def keyframeTurns (width height : Nat) (allDeltas : List UInt8) : List DeltaTurn :=
  let len := width * height * 4
  ⟨len, allDeltas.take len⟩ ::
    deltaTurns width allDeltas.length (allDeltas.drop len) (allDeltas.take len)

/-!
## One chunk after the other
-/

private theorem applyCommands_consumed (oldData : List UInt8) (width : Nat) (fuel : Nat) :
    ∀ (i : Nat) (delta imgData : List UInt8),
      i ≤ (applyCommands oldData width fuel i delta imgData).consumed := by
  induction fuel with
  | zero => intro i delta imgData; simp [applyCommands]
  | succ fuel ih =>
      intro i delta imgData
      cases delta with
      | nil => simp [applyCommands]
      | cons code operands =>
          simp only [applyCommands]
          split
          · exact Nat.le_trans (by omega) (ih _ _ _)
          · split
            · exact Nat.le_trans (by omega) (ih _ _ _)
            · split
              · exact Nat.le_succ i
              · simp only
                omega

theorem applyDeltaChunk_consumed (imgData oldData : List UInt8) (width : Nat) {delta : List UInt8}
    (more : delta ≠ []) : 0 < (applyDeltaChunk imgData delta oldData width).consumed := by
  cases delta with
  | nil => exact absurd rfl more
  | cons code operands =>
      simp only [applyDeltaChunk, List.length_cons, applyCommands]
      split
      · exact Nat.lt_of_lt_of_le (by omega) (applyCommands_consumed _ _ _ _ _ _)
      · split
        · exact Nat.lt_of_lt_of_le (by omega) (applyCommands_consumed _ _ _ _ _ _)
        · split
          · simp
          · simp only
            omega

/-- The loop leaves the image of its last turn. -/
theorem applyDeltas_eq_last (width fuel : Nat) (deltas imgData : List UInt8) :
    applyDeltas width fuel deltas imgData =
      ((deltaTurns width fuel deltas imgData).map DeltaTurn.imgData).getLastD imgData := by
  induction fuel generalizing deltas imgData with
  | zero => rfl
  | succ fuel ih =>
      simp only [applyDeltas, deltaTurns]
      split
      · rfl
      · rw [ih, List.map_cons, List.getLastD_cons]

private theorem deltaTurns_fuel (width : Nat) (fuel : Nat) :
    ∀ (other : Nat) (deltas imgData : List UInt8), deltas.length ≤ fuel → deltas.length ≤ other →
      deltaTurns width fuel deltas imgData = deltaTurns width other deltas imgData := by
  induction fuel with
  | zero =>
      intro other deltas imgData enough _
      have none : deltas = [] := List.length_eq_zero_iff.mp (by omega)
      cases other <;> simp [deltaTurns, none]
  | succ fuel ih =>
      intro other deltas imgData enough otherEnough
      cases other with
      | zero =>
          have none : deltas = [] := List.length_eq_zero_iff.mp (by omega)
          simp [deltaTurns, none]
      | succ other =>
          simp only [deltaTurns]
          split
          · rfl
          · next more =>
              have progress := applyDeltaChunk_consumed imgData imgData width more
              congr 1
              refine ih other _ _ ?_ ?_ <;> simp only [List.length_drop] <;> omega

private theorem applyDeltas_fuel (width : Nat) {fuel other : Nat} {deltas imgData : List UInt8}
    (enough : deltas.length ≤ fuel) (otherEnough : deltas.length ≤ other) :
    applyDeltas width fuel deltas imgData = applyDeltas width other deltas imgData := by
  rw [applyDeltas_eq_last, applyDeltas_eq_last,
    deltaTurns_fuel width fuel other deltas imgData enough otherEnough]

theorem deltaTurns_append (width : Nat) {old new delta : List UInt8} (more : delta ≠ [])
    (rest : List UInt8)
    (image : (applyDeltaChunk old (delta ++ rest) old width).imgData = new)
    (consumed : (applyDeltaChunk old (delta ++ rest) old width).consumed = delta.length) :
    deltaTurns width (delta ++ rest).length (delta ++ rest) old =
      ⟨delta.length, new⟩ :: deltaTurns width rest.length rest new := by
  have nonempty : delta ++ rest ≠ [] := by simp [more]
  obtain ⟨fuel, length⟩ : ∃ fuel, (delta ++ rest).length = fuel + 1 :=
    ⟨(delta ++ rest).length - 1, by
      have := List.length_pos_iff.mpr nonempty
      omega⟩
  rw [length]
  simp only [deltaTurns, nonempty, ↓reduceIte, image, consumed, List.drop_left]
  congr 1
  refine deltaTurns_fuel width fuel rest.length rest new ?_ (Nat.le_refl _)
  have := List.length_pos_iff.mpr more
  simp only [List.length_append] at length
  omega

theorem applyDeltas_append (width : Nat) {old new delta : List UInt8} (more : delta ≠ [])
    (rest : List UInt8)
    (image : (applyDeltaChunk old (delta ++ rest) old width).imgData = new)
    (consumed : (applyDeltaChunk old (delta ++ rest) old width).consumed = delta.length) :
    applyDeltas width (delta ++ rest).length (delta ++ rest) old =
      applyDeltas width rest.length rest new := by
  rw [applyDeltas_eq_last, applyDeltas_eq_last, deltaTurns_append width more rest image consumed,
    List.map_cons, List.getLastD_cons]

theorem applyKeyframe_append (width height : Nat) {image : List UInt8} (rest : List UInt8)
    (size : image.length = width * height * 4) :
    applyKeyframe width height (image ++ rest) = applyDeltas width rest.length rest image := by
  simp only [applyKeyframe, ← size, List.drop_left, List.take_left]
  exact applyDeltas_fuel width (by simp) (Nat.le_refl _)

theorem keyframeTurns_append (width height : Nat) {image : List UInt8} (rest : List UInt8)
    (size : image.length = width * height * 4) :
    keyframeTurns width height (image ++ rest) =
      ⟨image.length, image⟩ :: deltaTurns width rest.length rest image := by
  simp only [keyframeTurns, ← size, List.drop_left, List.take_left]
  rw [deltaTurns_fuel width _ rest.length rest image (by simp) (Nat.le_refl _)]

end FreeOnline.Browser
