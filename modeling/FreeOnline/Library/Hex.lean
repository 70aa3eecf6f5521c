import Mathlib.Data.Nat.Digits.Defs

/-!
# Hexadecimal numbers

Numbers are written in lower case without leading zeros. A reader skips blanks, takes a sign
and a preamble, and reads as many digits as there are. Characters are given by their codes.
-/

set_option autoImplicit false

namespace FreeOnline.Library.Hex

def digitCode (digit : Nat) : Nat := if digit < 10 then 48 + digit else 87 + digit

def write (n : Nat) : List Nat :=
  if n = 0 then [48] else (Nat.digits 16 n).reverse.map digitCode

def digitValue (code : Nat) : Option Nat :=
  if 48 ≤ code ∧ code ≤ 57 then some (code - 48)
  else if 65 ≤ code ∧ code ≤ 70 then some (code - 55)
  else if 97 ≤ code ∧ code ≤ 102 then some (code - 87)
  else none

/-- The digits at the front. -/
def leading : List Nat → List Nat
  | [] => []
  | code :: codes =>
      match digitValue code with
      | none => []
      | some digit => digit :: leading codes

def value (digits : List Nat) : Nat := digits.foldl (fun sum digit => sum * 16 + digit) 0

/-- Without `0x` or `0X` in front. -/
def skipPreamble : List Nat → List Nat
  | 48 :: 120 :: codes => codes
  | 48 :: 88 :: codes => codes
  | codes => codes

/-- Whether there is a minus sign, and what is behind the sign. -/
def readSign : List Nat → Bool × List Nat
  | 45 :: codes => (true, codes)
  | 43 :: codes => (false, codes)
  | codes => (false, codes)

/-- The number at the front, or none where there is no digit. -/
def read (isSpace : Nat → Bool) (codes : List Nat) : Option Int :=
  let (negative, unsigned) := readSign (codes.dropWhile isSpace)
  match leading (skipPreamble unsigned) with
  | [] => none
  | digits => some (if negative then -(value digits : Int) else value digits)

/-!
## Reading what was written
-/

theorem digitValue_digitCode {digit : Nat} (small : digit < 16) :
    digitValue (digitCode digit) = some digit := by
  unfold digitCode digitValue
  split
  · rw [if_pos (by omega)]
    congr 1
    omega
  · rw [if_neg (by omega), if_neg (by omega), if_pos (by omega)]
    congr 1
    omega

theorem leading_digitCode {digits : List Nat} (small : ∀ digit ∈ digits, digit < 16) :
    leading (digits.map digitCode) = digits := by
  induction digits with
  | nil => rfl
  | cons digit digits ih =>
      have isDigit := digitValue_digitCode (small digit List.mem_cons_self)
      rw [List.map_cons, leading, isDigit]
      dsimp only
      rw [ih fun other isOther => small other (List.mem_cons_of_mem _ isOther)]

private theorem value_digits (n : Nat) : value (Nat.digits 16 n).reverse = n := by
  unfold value
  rw [List.foldl_reverse]
  have ofDigits := Nat.ofDigits_digits 16 n
  rw [Nat.ofDigits_eq_foldr] at ofDigits
  simpa [Nat.mul_comm, Nat.add_comm] using ofDigits

/-- The digits of a number as they are written. -/
theorem exists_write (n : Nat) :
    ∃ digits, write n = digits.map digitCode ∧ digits ≠ [] ∧ (∀ digit ∈ digits, digit < 16) ∧
      value digits = n := by
  unfold write
  by_cases zero : n = 0
  · subst zero
    exact ⟨[0], rfl, List.cons_ne_nil _ _, by simp, rfl⟩
  · rw [if_neg zero]
    refine ⟨(Nat.digits 16 n).reverse, rfl, ?_, ?_, value_digits n⟩
    · intro empty
      rw [List.reverse_eq_nil_iff, Nat.digits_eq_nil_iff_eq_zero] at empty
      exact zero empty
    · intro digit isDigit
      exact Nat.digits_lt_base (by decide) (List.mem_reverse.mp isDigit)

theorem digitCode_bounds {digit : Nat} (small : digit < 16) :
    48 ≤ digitCode digit ∧ digitCode digit ≤ 57 ∨
      97 ≤ digitCode digit ∧ digitCode digit ≤ 102 := by
  unfold digitCode
  split
  · exact .inl ⟨by omega, by omega⟩
  · exact .inr ⟨by omega, by omega⟩

theorem bounds_of_mem_write {n code : Nat} (isCode : code ∈ write n) :
    48 ≤ code ∧ code ≤ 57 ∨ 97 ≤ code ∧ code ≤ 102 := by
  obtain ⟨digits, isText, -, small, -⟩ := exists_write n
  rw [isText] at isCode
  obtain ⟨digit, isDigit, rfl⟩ := List.mem_map.mp isCode
  exact digitCode_bounds (small digit isDigit)

private theorem skipPreamble_other {first : Nat} {codes : List Nat}
    (other : ∀ second ∈ codes.head?, second ≠ 120 ∧ second ≠ 88) :
    skipPreamble (first :: codes) = first :: codes := by
  unfold skipPreamble
  split
  · next rest isText =>
      obtain ⟨-, rfl⟩ := List.cons.inj isText
      exact absurd rfl (other 120 rfl).1
  · next rest isText =>
      obtain ⟨-, rfl⟩ := List.cons.inj isText
      exact absurd rfl (other 88 rfl).2
  · rfl

theorem skipPreamble_digitCode {digits : List Nat} (small : ∀ digit ∈ digits, digit < 16) :
    skipPreamble (digits.map digitCode) = digits.map digitCode := by
  cases digits with
  | nil => rfl
  | cons first digits =>
      refine skipPreamble_other ?_
      intro second isSecond
      have isMember : second ∈ digits.map digitCode := List.mem_of_mem_head? isSecond
      obtain ⟨digit, isDigit, rfl⟩ := List.mem_map.mp isMember
      have bounds := digitCode_bounds (small digit (List.mem_cons_of_mem _ isDigit))
      omega

theorem readSign_unsigned {first : Nat} {codes : List Nat} (unsigned : 48 ≤ first) :
    readSign (first :: codes) = (false, first :: codes) := by
  unfold readSign
  split
  · next rest isText =>
      injection isText with isFirst
      omega
  · next rest isText =>
      injection isText with isFirst
      omega
  · rfl

private theorem read_unsigned {isSpace : Nat → Bool} {first : Nat} {codes digits : List Nat}
    (unsigned : 48 ≤ first) (notSpace : isSpace first = false)
    (isLeading : leading (skipPreamble (first :: codes)) = digits) (some : digits ≠ []) :
    read isSpace (first :: codes) = .some (value digits : Int) := by
  have kept : (first :: codes).dropWhile isSpace = first :: codes := by
    rw [List.dropWhile_cons, notSpace]
    rfl
  unfold read
  rw [kept, readSign_unsigned unsigned]
  dsimp only
  rw [isLeading]
  cases digits with
  | nil => exact absurd rfl some
  | cons digit digits => rfl

/-- Digits, as many of them zeros in front as there may be. -/
theorem read_digitCode {isSpace : Nat → Bool} {digits : List Nat} (notEmpty : digits ≠ [])
    (small : ∀ digit ∈ digits, digit < 16)
    (notSpace : ∀ code ∈ digits.map digitCode, isSpace code = false) :
    read isSpace (digits.map digitCode) = some (value digits : Int) := by
  have isLeading : leading (skipPreamble (digits.map digitCode)) = digits := by
    rw [skipPreamble_digitCode small, leading_digitCode small]
  cases digits with
  | nil => exact absurd rfl notEmpty
  | cons digit digits =>
      have unsigned : 48 ≤ digitCode digit := by
        have bounds := digitCode_bounds (small digit List.mem_cons_self)
        omega
      rw [List.map_cons] at isLeading notSpace ⊢
      exact read_unsigned unsigned (notSpace _ List.mem_cons_self) isLeading notEmpty

theorem read_write {isSpace : Nat → Bool} (n : Nat)
    (notSpace : ∀ code ∈ write n, isSpace code = false) :
    read isSpace (write n) = some (n : Int) := by
  obtain ⟨digits, isText, notEmpty, small, isValue⟩ := exists_write n
  rw [isText] at notSpace
  rw [isText, read_digitCode notEmpty small notSpace, isValue]

/-- With `0x` in front. -/
theorem read_preamble {isSpace : Nat → Bool} (n : Nat) (notSpace : isSpace 48 = false) :
    read isSpace (48 :: 120 :: write n) = some (n : Int) := by
  obtain ⟨digits, isText, notEmpty, small, isValue⟩ := exists_write n
  have isLeading : leading (skipPreamble (48 :: 120 :: write n)) = digits := by
    rw [skipPreamble, isText, leading_digitCode small]
  rw [read_unsigned (Nat.le_refl 48) notSpace isLeading notEmpty, isValue]

end FreeOnline.Library.Hex
