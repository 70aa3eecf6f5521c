import FreeOnline.Library.Run
import FreeOnline.Net.WebSocketRoundTrip
import Mathlib.Data.List.Induction

/-!
# The buffer of a socket

A vector of bytes of which the first ones may be erased already. Erasing at the front only moves
the offset of the data while there is a lot of it.
-/

set_option autoImplicit false

namespace FreeOnline.Net

open FreeOnline.Library

structure Buffer where
  offset : Nat
  buffer : List UInt8

namespace Buffer

def new : Buffer := ⟨0, []⟩

def size (buffer : Buffer) : Nat := buffer.buffer.length - buffer.offset

def empty (buffer : Buffer) : Bool := buffer.offset = buffer.buffer.length

/-- What stands where the pointer points to. -/
def data (buffer : Buffer) : List UInt8 := buffer.buffer.drop buffer.offset

def getBlock (buffer : Buffer) : Option (List UInt8) :=
  if !buffer.empty then some (buffer.buffer.drop buffer.offset) else none

def getBlockSize (buffer : Buffer) : Nat := buffer.size

/-- The index operator. Outside of the vector nothing is defined. -/
def index (buffer : Buffer) (index : Int) : Option UInt8 :=
  if 0 ≤ buffer.offset + index then buffer.buffer[(buffer.offset + index).toNat]? else none

def eraseFirst (buffer : Buffer) (len : Nat) : Buffer :=
  if len = 0 then buffer
  else
    -- Avoid accidental damage.
    let len := min len buffer.size
    if buffer.buffer.length > 16384 ∧ len < buffer.size ∧ buffer.offset < 16384 * 64 ∧
        buffer.size > 512 then
      { buffer with offset := buffer.offset + len }
    else ⟨0, buffer.buffer.drop (buffer.offset + len)⟩

/-- A negative length is an exception of the vector. -/
def append (buffer : Buffer) (data : List UInt8) (len : Int) : Option Buffer :=
  if len < 0 then none
  else some { buffer with buffer := buffer.buffer ++ data.take len.toNat }

def appendString (buffer : Buffer) (s : List UInt8) : Option Buffer :=
  buffer.append s (toInt s.length)

/-- The size is a constant, which is narrowed too. -/
def appendLiteral (buffer : Buffer) (s : List UInt8) : Option Buffer :=
  buffer.append s (toInt s.length)

def clear (_ : Buffer) : Buffer := ⟨0, []⟩

/-- The iterators are counted from the beginning, also the one that is returned. -/
def erase (buffer : Buffer) (first last : Nat) : Nat × Buffer :=
  if first = 0 then (0, buffer.eraseFirst last)
  else
    (first, { buffer with
      buffer := buffer.buffer.take (buffer.offset + first) ++
        buffer.buffer.drop (buffer.offset + last) })

end Buffer

/-!
## Operations
-/

inductive BufferOp where
  | append (data : List UInt8) (len : Int)
  | appendString (s : List UInt8)
  | appendLiteral (s : List UInt8)
  | eraseFirst (len : Nat)
  | erase (first last : Nat)
  | clear

inductive BufferResult where
  | done
  | iterator (index : Nat)
  | lengthError

def Buffer.appended (buffer : Buffer) : Option Buffer → BufferResult × Buffer
  | some next => (.done, next)
  | none => (.lengthError, buffer)

def Buffer.call (buffer : Buffer) : BufferOp → BufferResult × Buffer
  | .append data len => buffer.appended (buffer.append data len)
  | .appendString s => buffer.appended (buffer.appendString s)
  | .appendLiteral s => buffer.appended (buffer.appendLiteral s)
  | .eraseFirst len => (.done, buffer.eraseFirst len)
  | .erase first last => ((.iterator (buffer.erase first last).1), (buffer.erase first last).2)
  | .clear => (.done, buffer.clear)

def Buffer.step (buffer : Buffer) (op : BufferOp) : Buffer := (buffer.call op).2

/-!
## What is expected
-/

namespace BufferOp

/-- The same operation on a plain list of bytes. -/
def call (bytes : List UInt8) : BufferOp → BufferResult × List UInt8
  | .append data len => (.done, bytes ++ data.take len.toNat)
  | .appendString s => (.done, bytes ++ s)
  | .appendLiteral s => (.done, bytes ++ s)
  | .eraseFirst len => (.done, bytes.drop len)
  | .erase first last => (.iterator first, bytes.take first ++ bytes.drop last)
  | .clear => (.done, [])

def step (bytes : List UInt8) (op : BufferOp) : List UInt8 := (op.call bytes).2

/-- The data has as many bytes as are to be appended, and what is erased is there. -/
def InBounds (bytes : List UInt8) : BufferOp → Prop
  | .append data len => 0 ≤ len ∧ len ≤ data.length
  | .eraseFirst len => len ≤ bytes.length
  | .erase first last => first ≤ last ∧ last ≤ bytes.length
  | _ => True

/-- No string is too long for an int. -/
def Fits : BufferOp → Prop
  | .appendString s => s.length < 2 ^ 31
  | .appendLiteral s => s.length < 2 ^ 31
  | _ => True

end BufferOp

namespace Buffer

/-- Whatever is read of the buffer is what these bytes give. -/
structure Shows (buffer : Buffer) (bytes : List UInt8) : Prop where
  size : buffer.size = bytes.length
  empty : buffer.empty = bytes.isEmpty
  data : buffer.data = bytes
  getBlock : buffer.getBlock = if bytes.isEmpty then none else some bytes
  getBlockSize : buffer.getBlockSize = bytes.length
  index : ∀ index : Nat, index < bytes.length → buffer.index index = bytes[index]?

/-- After each of the operations the buffer shows what the list has, and each has the same result. -/
structure Refines (ops : List BufferOp) : Prop where
  shows : ∀ before after, ops = before ++ after →
    (run step new before).Shows (run BufferOp.step [] before)
  results : ∀ before op after, ops = before ++ op :: after →
    ((run step new before).call op).1 = (op.call (run BufferOp.step [] before)).1

def WithinVector (buffer : Buffer) : Prop := buffer.offset ≤ buffer.buffer.length

/-!
## Reading
-/

variable {buffer : Buffer}

theorem empty_eq (within : buffer.WithinVector) : buffer.empty = buffer.data.isEmpty := by
  rw [empty, data, Bool.eq_iff_iff, decide_eq_true_iff, List.isEmpty_iff, List.drop_eq_nil_iff]
  exact ⟨fun same => Nat.le_of_eq same.symm, fun atEnd => Nat.le_antisymm within atEnd⟩

theorem shows_data (within : buffer.WithinVector) : buffer.Shows buffer.data where
  size := by rw [size, data, List.length_drop]
  empty := empty_eq within
  data := rfl
  getBlock := by
    rw [getBlock, empty_eq within]
    cases buffer.data.isEmpty with
    | true => rfl
    | false => rfl
  getBlockSize := by rw [getBlockSize, size, data, List.length_drop]
  index := by
    intro index _
    have inVector : (0 : Int) ≤ buffer.offset + index := by omega
    rw [Buffer.index, if_pos inVector, data, List.getElem?_drop]
    rfl

/-!
## What the operations do to the data
-/

theorem withinVector_eraseFirst (within : buffer.WithinVector) (len : Nat) :
    (buffer.eraseFirst len).WithinVector := by
  unfold eraseFirst
  split
  · exact within
  · dsimp only
    split
    · next lazily =>
        have inside := Nat.lt_sub_iff_add_lt'.mp lazily.2.1
        exact Nat.le_of_lt inside
    · exact Nat.zero_le _

theorem data_eraseFirst {len : Nat} (inside : len ≤ buffer.data.length) :
    (buffer.eraseFirst len).data = buffer.data.drop len := by
  have isLen : min len buffer.size = len := by
    rw [data, List.length_drop] at inside
    exact Nat.min_eq_left inside
  unfold eraseFirst
  split
  · next none => rw [none, List.drop_zero]
  · rw [isLen]
    dsimp only
    split
    · simp only [data, List.drop_drop]
    · simp only [data, List.drop_drop, Nat.add_zero]

theorem withinVector_erase (within : buffer.WithinVector) (first last : Nat) :
    (buffer.erase first last).2.WithinVector := by
  unfold erase
  split
  · exact withinVector_eraseFirst within last
  · simp only [WithinVector, List.length_append, List.length_take] at within ⊢
    omega

theorem data_erase (within : buffer.WithinVector) {first last : Nat}
    (inside : last ≤ buffer.data.length) :
    (buffer.erase first last).2.data = buffer.data.take first ++ buffer.data.drop last := by
  unfold erase
  split
  · next isBegin =>
      rw [isBegin, List.take_zero, List.nil_append]
      exact data_eraseFirst inside
  · have start : buffer.offset ≤ (buffer.buffer.take (buffer.offset + first)).length := by
      rw [data, List.length_drop] at inside
      rw [List.length_take]
      exact Nat.le_min.mpr ⟨Nat.le_add_right _ _, within⟩
    simp only [data]
    rw [List.drop_append_of_le_length start, List.drop_take, List.drop_drop,
      Nat.add_sub_cancel_left]

theorem withinVector_appended (within : buffer.WithinVector) (data : List UInt8) (len : Int) :
    (buffer.appended (buffer.append data len)).2.WithinVector := by
  unfold append
  split
  · exact within
  · simp only [appended, WithinVector, List.length_append] at within ⊢
    exact Nat.le_add_right_of_le within

/-- What is appended is as much as the length says. -/
theorem appended_append (within : buffer.WithinVector) (data : List UInt8) {len : Nat} :
    (buffer.appended (buffer.append data len)).1 = .done ∧
      (buffer.appended (buffer.append data len)).2.data = buffer.data ++ data.take len := by
  rw [append, if_neg (Int.not_lt.mpr (Int.natCast_nonneg len))]
  refine ⟨rfl, ?_⟩
  simp only [appended, Buffer.data, Int.toNat_natCast]
  exact List.drop_append_of_le_length within

theorem withinVector_step (within : buffer.WithinVector) (op : BufferOp) :
    (buffer.step op).WithinVector := by
  cases op with
  | append data len => exact withinVector_appended within data len
  | appendString s => exact withinVector_appended within s (toInt s.length)
  | appendLiteral s => exact withinVector_appended within s (toInt s.length)
  | eraseFirst len => exact withinVector_eraseFirst within len
  | erase first last => exact withinVector_erase within first last
  | clear => exact Nat.le_refl 0

/-- An operation in bounds does to the data what it does to a list, if the string fits. -/
theorem call_of_fits (within : buffer.WithinVector) {op : BufferOp}
    (inBounds : op.InBounds buffer.data) (fits : op.Fits) :
    (buffer.call op).1 = (op.call buffer.data).1 ∧
      (buffer.step op).data = op.step buffer.data := by
  cases op with
  | append data len =>
      obtain ⟨size, isSize⟩ := Int.eq_ofNat_of_zero_le inBounds.1
      cases isSize
      exact appended_append within data
  | appendString s =>
      have appended := @appended_append buffer within s s.length
      rw [← toInt_eq fits, List.take_length] at appended
      exact appended
  | appendLiteral s =>
      have appended := @appended_append buffer within s s.length
      rw [← toInt_eq fits, List.take_length] at appended
      exact appended
  | eraseFirst len => exact ⟨rfl, data_eraseFirst inBounds⟩
  | erase first last =>
      refine ⟨?_, data_erase within inBounds.2⟩
      simp only [call, BufferOp.call, erase]
      split
      · next isBegin => rw [isBegin]
      · rfl
  | clear => exact ⟨rfl, rfl⟩

/-- Of a string that is too long less than all of it is appended. -/
theorem length_appended_lt (within : buffer.WithinVector) {s : List UInt8}
    (long : 2 ^ 31 ≤ s.length) :
    (buffer.appended (buffer.append s (toInt s.length))).2.data.length <
      (buffer.data ++ s).length := by
  have shorter := toInt_toNat_lt long
  rw [List.length_append]
  by_cases negative : toInt s.length < 0
  · rw [append, if_pos negative]
    simp only [appended]
    omega
  · obtain ⟨len, isLen⟩ := Int.eq_ofNat_of_zero_le (Int.not_lt.mp negative)
    rw [isLen, Int.toNat_natCast] at shorter
    rw [isLen, (appended_append within s).2, List.length_append, List.length_take]
    omega

theorem not_shows_of_not_fits (within : buffer.WithinVector) {op : BufferOp}
    (tooLong : ¬ op.Fits) : ¬ (buffer.step op).Shows (op.step buffer.data) := by
  intro shows
  have same := congrArg List.length shows.data
  cases op with
  | appendString s =>
      exact absurd same (Nat.ne_of_lt (length_appended_lt within (Nat.not_lt.mp tooLong)))
  | appendLiteral s =>
      exact absurd same (Nat.ne_of_lt (length_appended_lt within (Nat.not_lt.mp tooLong)))
  | append data len => exact tooLong trivial
  | eraseFirst len => exact tooLong trivial
  | erase first last => exact tooLong trivial
  | clear => exact tooLong trivial

/-!
## Runs
-/

theorem withinVector_run (ops : List BufferOp) : (run step new ops).WithinVector :=
  run_invariant WithinVector (fun _ op within _ => withinVector_step within op) (Nat.le_refl 0)
    (@permitted_of_forall _ _ step (fun _ _ => True) (fun _ _ => trivial) new ops)

theorem data_run {ops : List BufferOp}
    (inBounds : Permitted BufferOp.step BufferOp.InBounds [] ops) (fits : ∀ op ∈ ops, op.Fits) :
    (run step new ops).data = run BufferOp.step [] ops := by
  induction ops using List.reverseRecOn with
  | nil => rfl
  | append_singleton ops op ih =>
      obtain ⟨before, last, -⟩ := permitted_append.mp inBounds
      have same := ih before fun other member => fits other (List.mem_append_left _ member)
      rw [← same] at last
      have fitsLast := fits op (List.mem_append_right _ (List.mem_singleton_self op))
      have called := (call_of_fits (withinVector_run ops) last fitsLast).2
      rw [same] at called
      rw [run, run, List.foldl_append, List.foldl_append]
      exact called

/-- The offset is never behind the end of the vector. The buffer is a list of bytes if and only if
no string is appended whose length does not fit an int. -/
theorem refines_iff (ops : List BufferOp)
    (inBounds : Permitted BufferOp.step BufferOp.InBounds [] ops) :
    (∀ before after, ops = before ++ after → (run step new before).WithinVector) ∧
      (Refines ops ↔ ∀ op ∈ ops, op.Fits) := by
  refine ⟨fun before after _ => withinVector_run before, ?_⟩
  constructor
  · intro refines op member
    obtain ⟨before, after, split⟩ := List.append_of_mem member
    by_contra tooLong
    have shown := refines.shows before (op :: after) split
    have shownNext := refines.shows (before ++ [op]) after (by simpa using split)
    rw [run, run, List.foldl_append, List.foldl_append] at shownNext
    apply not_shows_of_not_fits (withinVector_run before) tooLong
    rw [shown.data]
    exact shownNext
  · intro fits
    have same {before after : List BufferOp} (split : ops = before ++ after) :
        (run step new before).data = run BufferOp.step [] before := by
      rw [split] at inBounds fits
      exact data_run (permitted_append.mp inBounds).1 fun op member =>
        fits op (List.mem_append_left _ member)
    refine ⟨fun before after split => ?_, fun before op after split => ?_⟩
    · rw [← same split]
      exact shows_data (withinVector_run before)
    · rw [← same split]
      have inBoundsLast : op.InBounds (run step new before).data := by
        rw [same split]
        rw [split] at inBounds
        exact (permitted_append.mp inBounds).2.1
      have fitsLast : op.Fits := by
        apply fits op
        rw [split]
        exact List.mem_append_right _ List.mem_cons_self
      exact (call_of_fits (withinVector_run before) inBoundsLast fitsLast).1

theorem not_refines_of_long {s : List UInt8} (long : 2 ^ 31 ≤ s.length) :
    ¬ Refines [.appendString s] := by
  intro refines
  have shown := refines.shows [.appendString s] [] rfl
  exact @not_shows_of_not_fits new (Nat.le_refl 0) (.appendString s) (Nat.not_lt.mpr long) shown

/-- A few bytes that are appended, erased in front and in the middle. -/
def fewOps : List BufferOp :=
  [.append [1, 2, 3, 4, 5] 4, .appendString [6], .eraseFirst 1, .erase 1 2]

theorem refines_fewOps :
    Permitted BufferOp.step BufferOp.InBounds [] fewOps ∧ Refines fewOps ∧
      (run step new fewOps).data = [2, 4, 6] := by
  have inBounds : Permitted BufferOp.step BufferOp.InBounds [] fewOps := by
    simp [fewOps, Permitted, BufferOp.InBounds, BufferOp.step, BufferOp.call]
  have fits : ∀ op ∈ fewOps, op.Fits := by simp [fewOps, BufferOp.Fits]
  exact ⟨inBounds, (refines_iff fewOps inBounds).2.mpr fits, rfl⟩

/-- A string of two gigabytes. -/
def longString : List UInt8 := List.replicate (2 ^ 31) 0

theorem not_refines_longString :
    ¬ ∀ ops, Permitted BufferOp.step BufferOp.InBounds [] ops → Refines ops := by
  intro always
  have inBounds : Permitted BufferOp.step BufferOp.InBounds [] [.appendString longString] :=
    ⟨trivial, trivial⟩
  apply not_refines_of_long ?_ (always [.appendString longString] inBounds)
  rw [longString, List.length_replicate]

end Buffer

end FreeOnline.Net
