import Mathlib.Data.List.Basic
import Mathlib.Data.List.TakeWhile

/-!
# Input streams with flags

A stream of characters with the two flags that its operations set: that the end was reached, and
that an operation failed. Operations on a stream with a flag only fail.
-/

set_option autoImplicit false

namespace FreeOnline.Library

universe u

structure InputStream (Byte : Type u) where
  rest : List Byte
  eof : Bool
  fail : Bool
deriving DecidableEq

namespace InputStream

variable {Byte : Type u}

def ofBytes (bytes : List Byte) : InputStream Byte := ⟨bytes, false, false⟩

def good (stream : InputStream Byte) : Bool := !stream.eof && !stream.fail

/-- The block of this length, or less where the stream ends before. -/
def read (stream : InputStream Byte) (count : Nat) : List Byte × InputStream Byte :=
  if stream.good then
    if count ≤ stream.rest.length then
      (stream.rest.take count, { stream with rest := stream.rest.drop count })
    else (stream.rest, ⟨[], true, true⟩)
  else ([], { stream with fail := true })

/-- The line in front of the newline, which is dropped. The text is not touched where the stream
has a flag already. -/
def getline [DecidableEq Byte] (newline : Byte) (stream : InputStream Byte) (text : List Byte) :
    List Byte × InputStream Byte :=
  if stream.good then
    let line := stream.rest.takeWhile (· ≠ newline)
    match stream.rest.drop line.length with
    | _ :: rest => (line, { stream with rest := rest })
    | [] => (line, ⟨[], true, line = []⟩)
  else (text, { stream with fail := true })

section

variable {bytes : List Byte}

theorem good_ofBytes (bytes : List Byte) : (ofBytes bytes).good = true := rfl

theorem read_enough (bytes rest : List Byte) :
    (ofBytes (bytes ++ rest)).read bytes.length = (bytes, ofBytes rest) := by
  unfold read
  rw [if_pos (good_ofBytes _)]
  have enough : bytes.length ≤ (ofBytes (bytes ++ rest)).rest.length := by
    simp [ofBytes]
  rw [if_pos enough]
  simp [ofBytes]

theorem read_short {count : Nat} (short : bytes.length < count) :
    (ofBytes bytes).read count = (bytes, ⟨[], true, true⟩) := by
  unfold read
  rw [if_pos (good_ofBytes _)]
  exact if_neg (Nat.not_le.mpr short)

theorem read_atEnd (fail : Bool) (rest : List Byte) (count : Nat) :
    (⟨rest, true, fail⟩ : InputStream Byte).read count = ([], ⟨rest, true, true⟩) := rfl

variable [DecidableEq Byte] {newline : Byte} {line text : List Byte}

private theorem takeWhile_line (noNewline : newline ∉ line) (rest : List Byte) :
    (line ++ rest).takeWhile (· ≠ newline) = line ++ rest.takeWhile (· ≠ newline) := by
  refine List.takeWhile_append_of_pos fun byte member => decide_eq_true ?_
  exact fun same => noNewline (same ▸ member)

theorem getline_line (noNewline : newline ∉ line) (rest text : List Byte) :
    (ofBytes (line ++ newline :: rest)).getline newline text = (line, ofBytes rest) := by
  have isLine : (line ++ newline :: rest).takeWhile (· ≠ newline) = line := by
    rw [takeWhile_line noNewline, List.takeWhile_cons_of_neg (by simp), List.append_nil]
  unfold getline
  rw [if_pos (good_ofBytes _)]
  dsimp only [ofBytes]
  rw [isLine, List.drop_left]

/-- The end of the stream ends the line as well. -/
theorem getline_last (noNewline : newline ∉ line) (text : List Byte) :
    (ofBytes line).getline newline text = (line, ⟨[], true, line = []⟩) := by
  have isLine : line.takeWhile (· ≠ newline) = line := by
    have whole := takeWhile_line noNewline []
    rwa [List.append_nil, List.takeWhile_nil, List.append_nil] at whole
  unfold getline
  rw [if_pos (good_ofBytes _)]
  dsimp only [ofBytes]
  rw [isLine, List.drop_length]

theorem getline_atEnd (fail : Bool) (rest text : List Byte) :
    (⟨rest, true, fail⟩ : InputStream Byte).getline newline text = (text, ⟨rest, true, true⟩) := rfl

/-- What is read has no newline in it, unless the text before had. -/
theorem notMem_getline (stream : InputStream Byte) (oneLine : newline ∉ text) :
    newline ∉ (stream.getline newline text).1 := by
  have inLine : newline ∉ stream.rest.takeWhile (· ≠ newline) := by
    intro member
    have notNewline := List.mem_takeWhile_imp member
    exact of_decide_eq_true notNewline rfl
  unfold getline
  split
  · dsimp only
    split <;> exact inLine
  · exact oneLine

omit [DecidableEq Byte] in
/-- Where a stream of lines is cut, the first line is cut, or it is whole and the rest is cut. -/
theorem cut_line {part rest : List Byte} (isPart : part <+: line ++ newline :: rest) :
    part <+: line ∨ ∃ tail, part = line ++ newline :: tail ∧ tail <+: rest := by
  by_cases inLine : part.length ≤ line.length
  · exact .inl (List.prefix_of_prefix_length_le isPart (List.prefix_append _ _) inLine)
  · have behind := List.prefix_of_prefix_length_le (List.prefix_append line (newline :: rest)) isPart
      (by omega)
    obtain ⟨tail, rfl⟩ := behind
    rw [List.prefix_append_right_inj] at isPart
    cases tail with
    | nil => exact absurd (by simp) inLine
    | cons byte tail =>
        obtain ⟨rfl, isTail⟩ := List.cons_prefix_cons.mp isPart
        exact .inr ⟨tail, rfl, isTail⟩

end

end InputStream

end FreeOnline.Library
