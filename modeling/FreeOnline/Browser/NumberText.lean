import FreeOnline.Browser.ProxySocket
import FreeOnline.Library.Double
import Mathlib.Data.Bool.AllAny
import Mathlib.Data.List.DropRight
import Mathlib.Tactic.LinearCombination

/-!
# Numbers as texts

How a number becomes a string, with as few digits as tell it from the other doubles, and which
number is made of a string.
-/

set_option autoImplicit false

namespace FreeOnline.Browser

open FreeOnline.Library
open FreeOnline.Browser.ProxySocket (isStrWhiteSpace)

/-- A number, where zeros of both signs are one. -/
inductive JsNumber where
  | finite (value : Double)
  | infinite (negative : Bool)
  | nan

namespace JsNumber

/-- What a mathematical value is rounded to. -/
def ofRat (q : ℚ) : JsNumber :=
  if inside : |roundDigits q| < 2 ^ 1024 then .finite ⟨roundDigits q, isDouble_roundDigits inside⟩
  else .infinite (q < 0)

def neg : JsNumber → JsNumber
  | .finite value => .finite value.neg
  | .infinite negative => .infinite !negative
  | .nan => .nan

/-!
## Decimals
-/

/-- Digits, and the power of ten of the last one. -/
structure Decimal where
  digits : Nat
  exponent : ℤ

def Decimal.value (decimal : Decimal) : ℚ := decimal.digits * 10 ^ decimal.exponent

/-- The power of ten of the last of `k` digits. -/
def lastPower (q : ℚ) (k : Nat) : ℤ := Int.log 10 q + 1 - k

/-- The decimal of `k` digits that is not above a positive number. -/
def decimalBelow (q : ℚ) (k : Nat) : Decimal :=
  ⟨⌊q / 10 ^ lastPower q k⌋.toNat, lastPower q k⟩

/-- The decimal of `k` digits that is next above it. -/
def decimalAbove (q : ℚ) (k : Nat) : Decimal :=
  let next := ⌊q / 10 ^ lastPower q k⌋.toNat + 1
  if next = 10 ^ k then ⟨10 ^ (k - 1), lastPower q k + 1⟩ else ⟨next, lastPower q k⟩

/-- The closest decimal of `k` digits, if one of them is rounded to the number: of two as close
the one that is even. -/
def closest (q : ℚ) (k : Nat) : Option Decimal :=
  let below := decimalBelow q k
  let above := decimalAbove q k
  if roundDigits below.value = q then
    if roundDigits above.value = q then
      if above.value - q < q - below.value then some above
      else if above.value - q = q - below.value ∧ below.digits % 2 = 1 then some above
      else some below
    else some below
  else if roundDigits above.value = q then some above
  else none

/-- The first count of digits, from `k` on, for which there is one. -/
def shortestFrom (q : ℚ) : Nat → Nat → Option Decimal
  | 0, _ => none
  | fuel + 1, k =>
      match closest q k with
      | some decimal => some decimal
      | none => shortestFrom q fuel (k + 1)

/-- All digits of a double are enough. -/
def enoughDigits (q : ℚ) : Nat := (Int.log 10 q + 1).toNat + 1075

def shortest (q : ℚ) : Option Decimal := shortestFrom q (enoughDigits q) 1

/-!
## Printing
-/

def exponentText (n : ℤ) : Text := (if n < 0 then '-' else '+') :: Nat.toDigits 10 n.natAbs

/-- The digits, with the decimal point where it stands, or with an exponent. -/
def decimalText (decimal : Decimal) : Text :=
  let s := Nat.toDigits 10 decimal.digits
  let k := s.length
  let n : ℤ := k + decimal.exponent
  if k ≤ n ∧ n ≤ 21 then s ++ List.replicate (n - k).toNat '0'
  else if 0 < n ∧ n ≤ 21 then s.take n.toNat ++ '.' :: s.drop n.toNat
  else if -6 < n ∧ n ≤ 0 then '0' :: '.' :: (List.replicate (-n).toNat '0' ++ s)
  else if k = 1 then s ++ 'e' :: exponentText (n - 1)
  else s.take 1 ++ '.' :: (s.drop 1 ++ 'e' :: exponentText (n - 1))

def infinityText : Text := ['I', 'n', 'f', 'i', 'n', 'i', 't', 'y']

def positiveText (q : ℚ) : Text :=
  match shortest q with
  | some decimal => decimalText decimal
  | none => []

/-- `Number::toString`. -/
def toText : JsNumber → Text
  | .nan => ['N', 'a', 'N']
  | .infinite negative => if negative then '-' :: infinityText else infinityText
  | .finite number =>
      if number.value = 0 then ['0']
      else if number.value < 0 then '-' :: positiveText (-number.value)
      else positiveText number.value

/-!
## Reading
-/

def readExponent : Text → Option ℤ
  | [] => some 0
  | ch :: rest =>
      if ch = 'e' ∨ ch = 'E' then
        let (negative, digits) := readSign rest
        if digits = [] ∨ ¬ digits.all Char.isDigit then none
        else some (if negative then -(Nat.ofDigitChars 10 digits 0 : ℤ)
          else Nat.ofDigitChars 10 digits 0)
      else none

/-- Digits behind a decimal point, and what is behind them. -/
def readFraction : Text → Text × Text
  | '.' :: rest => (rest.takeWhile Char.isDigit, rest.dropWhile Char.isDigit)
  | rest => ([], rest)

/-- A decimal literal without a sign. -/
def readUnsigned (text : Text) : Option ℚ :=
  let whole := text.takeWhile Char.isDigit
  let (fraction, behind) := readFraction (text.dropWhile Char.isDigit)
  if whole = [] ∧ fraction = [] then none
  else
    (readExponent behind).map fun (exponent : ℤ) =>
      (Nat.ofDigitChars 10 (whole ++ fraction) 0 : ℚ) * 10 ^ (exponent - fraction.length)

def readDecimal (text : Text) : JsNumber :=
  let (negative, unsigned) := readSign text
  if unsigned = infinityText then .infinite negative
  else
    match readUnsigned unsigned with
    | none => .nan
    | some value => if negative then neg (ofRat value) else ofRat value

def radixOf (ch : Char) : Option Nat :=
  if ch = 'x' ∨ ch = 'X' then some 16
  else if ch = 'o' ∨ ch = 'O' then some 8
  else if ch = 'b' ∨ ch = 'B' then some 2
  else none

/-- The digits of a literal with a radix; none where one is no digit. -/
def radixDigits (radix : Nat) : Text → Option (List Nat)
  | [] => some []
  | ch :: rest =>
      match Hex.digitValue ch.toNat with
      | some digit => if digit < radix then (radixDigits radix rest).map (digit :: ·) else none
      | none => none

def readRadix (radix : Nat) (digits : Text) : JsNumber :=
  match radixDigits radix digits with
  | some (digit :: digits) =>
      ofRat ((digit :: digits).foldl (fun sum digit => sum * radix + digit) 0 : Nat)
  | _ => .nan

def isWhite (ch : Char) : Bool := isStrWhiteSpace ch.toNat

/-- `StringToNumber`. -/
def ofText (text : Text) : JsNumber :=
  match (text.dropWhile isWhite).rdropWhile isWhite with
  | [] => ofRat 0
  | '0' :: letter :: rest =>
      match radixOf letter with
      | some radix => readRadix radix rest
      | none => readDecimal ('0' :: letter :: rest)
  | stripped => readDecimal stripped

/-!
## Enough digits
-/

section

variable {q : ℚ} {decimal : Decimal} {fuel k : Nat}

theorem roundDigits_of_closest (isClosest : closest q k = some decimal) :
    roundDigits decimal.value = q := by
  unfold closest at isClosest
  dsimp only at isClosest
  split at isClosest
  · next belowRounds =>
      split at isClosest
      · next aboveRounds =>
          split at isClosest
          · cases isClosest
            exact aboveRounds
          · split at isClosest
            · cases isClosest
              exact aboveRounds
            · cases isClosest
              exact belowRounds
      · cases isClosest
        exact belowRounds
  · split at isClosest
    · next aboveRounds =>
        cases isClosest
        exact aboveRounds
    · cases isClosest

theorem roundDigits_of_shortestFrom (isShortest : shortestFrom q fuel k = some decimal) :
    roundDigits decimal.value = q := by
  induction fuel generalizing k with
  | zero => cases isShortest
  | succ fuel ih =>
      rw [shortestFrom] at isShortest
      cases isClosest : closest q k with
      | some found =>
          rw [isClosest] at isShortest
          cases isShortest
          exact roundDigits_of_closest isClosest
      | none =>
          rw [isClosest] at isShortest
          exact ih isShortest

theorem exists_shortestFrom {target : Nat} (isEnough : closest q target ≠ none) (from_le : k ≤ target)
    (inside : target < k + fuel) : ∃ decimal, shortestFrom q fuel k = some decimal := by
  induction fuel generalizing k with
  | zero => omega
  | succ fuel ih =>
      rw [shortestFrom]
      cases isClosest : closest q k with
      | some found => exact ⟨found, rfl⟩
      | none =>
          have notTarget : k ≠ target := by
            rintro rfl
            exact isEnough isClosest
          exact ih (by omega) (by omega)

/-- With all its digits the decimal below a double is the double. -/
theorem decimalBelow_value (isDouble : IsDouble q) (positive : 0 < q)
    (enough : lastPower q k ≤ -1074) : (decimalBelow q k).value = q := by
  obtain ⟨m, e, -, notBelow, isValue, -⟩ := isDouble
  obtain ⟨twos, isTwos⟩ := Int.le.dest (show lastPower q k ≤ e by omega)
  obtain ⟨fives, isFives⟩ := Int.le.dest (show lastPower q k ≤ 0 by omega)
  have isScaled : q / 10 ^ lastPower q k = ((m * 2 ^ twos * 5 ^ fives : ℤ) : ℚ) := by
    have isExponent : e = lastPower q k + twos := isTwos.symm
    have isPower : lastPower q k = -fives := by omega
    have ten : (10 : ℚ) ^ lastPower q k = 2 ^ lastPower q k * 5 ^ lastPower q k := by
      rw [← mul_zpow]
      norm_num
    have five : (5 : ℚ) ^ lastPower q k * 5 ^ fives = 1 := by
      rw [isPower, zpow_neg, zpow_natCast, inv_mul_cancel₀ (pow_ne_zero _ (by norm_num))]
    rw [div_eq_iff (zpow_ne_zero _ (by norm_num)), ten]
    conv => lhs; rw [isValue, isExponent]
    rw [zpow_add₀ (by norm_num), zpow_natCast]
    push_cast
    linear_combination (-(m : ℚ) * 2 ^ twos * 2 ^ lastPower q k) * five
  have isPositive : 0 < q / 10 ^ lastPower q k := div_pos positive (zpow_pos (by norm_num) _)
  rw [isScaled] at isPositive
  have notNegative : 0 ≤ m * 2 ^ twos * 5 ^ fives := by exact_mod_cast isPositive.le
  have isDigits : (((m * 2 ^ twos * 5 ^ fives).toNat : Nat) : ℚ) =
      ((m * 2 ^ twos * 5 ^ fives : ℤ) : ℚ) := by
    rw [← Int.cast_natCast, Int.toNat_of_nonneg notNegative]
  rw [Decimal.value, decimalBelow, isScaled, Int.floor_intCast, isDigits, ← isScaled,
    div_mul_cancel₀ _ (zpow_ne_zero _ (by norm_num))]

theorem exists_shortest (isDouble : IsDouble q) (positive : 0 < q) :
    ∃ decimal, shortest q = some decimal ∧ roundDigits decimal.value = q := by
  have isEnough : lastPower q (enoughDigits q) ≤ -1074 := by
    unfold lastPower enoughDigits
    omega
  have isExact := decimalBelow_value isDouble positive isEnough
  have isRounded : roundDigits (decimalBelow q (enoughDigits q)).value = q := by
    rw [isExact, roundDigits_of_isDouble isDouble]
  have notNone : closest q (enoughDigits q) ≠ none := by
    unfold closest
    dsimp only
    rw [if_pos isRounded]
    split
    · split
      · nofun
      · split
        · nofun
        · nofun
    · nofun
  have positiveCount : 1 ≤ enoughDigits q := by
    unfold enoughDigits
    omega
  obtain ⟨decimal, isShortest⟩ := exists_shortestFrom notNone positiveCount
    (Nat.lt_add_of_pos_left Nat.one_pos)
  exact ⟨decimal, isShortest, roundDigits_of_shortestFrom isShortest⟩

end

/-!
## Reading what was printed
-/

section

variable {whole fraction behind : Text}

private theorem takeWhile_digits (areDigits : ∀ ch ∈ whole, ch.isDigit = true)
    (stops : StopsDigits behind) : (whole ++ behind).takeWhile Char.isDigit = whole :=
  leadingDigits_append areDigits stops

private theorem dropWhile_digits (areDigits : ∀ ch ∈ whole, ch.isDigit = true)
    (stops : StopsDigits behind) : (whole ++ behind).dropWhile Char.isDigit = behind := by
  rw [List.dropWhile_append_of_pos areDigits]
  cases behind with
  | nil => rfl
  | cons ch rest => rw [List.dropWhile_cons_of_neg (Bool.not_eq_true _ ▸ stops ch rfl)]

/-- With a decimal point. -/
theorem readUnsigned_point (notNil : whole ≠ []) (wholeDigits : ∀ ch ∈ whole, ch.isDigit = true)
    (fractionDigits : ∀ ch ∈ fraction, ch.isDigit = true) (stops : StopsDigits behind) :
    readUnsigned (whole ++ '.' :: (fraction ++ behind)) =
      (readExponent behind).map fun (exponent : ℤ) =>
        (Nat.ofDigitChars 10 (whole ++ fraction) 0 : ℚ) * 10 ^ (exponent - fraction.length) := by
  have pointStops : StopsDigits ('.' :: (fraction ++ behind)) := by
    intro ch isFirst
    cases isFirst
    rfl
  unfold readUnsigned
  rw [takeWhile_digits wholeDigits pointStops, dropWhile_digits wholeDigits pointStops, readFraction,
    takeWhile_digits fractionDigits stops, dropWhile_digits fractionDigits stops]
  exact if_neg fun isNil => notNil isNil.1

/-- Without one. -/
theorem readUnsigned_whole (notNil : whole ≠ []) (wholeDigits : ∀ ch ∈ whole, ch.isDigit = true)
    (stops : StopsDigits behind) (noPoint : behind.head? ≠ some '.') :
    readUnsigned (whole ++ behind) =
      (readExponent behind).map fun (exponent : ℤ) =>
        (Nat.ofDigitChars 10 whole 0 : ℚ) * 10 ^ exponent := by
  have noFraction : readFraction behind = ([], behind) := by
    unfold readFraction
    split
    · exact absurd rfl noPoint
    · rfl
  unfold readUnsigned
  rw [takeWhile_digits wholeDigits stops, dropWhile_digits wholeDigits stops, noFraction]
  dsimp only
  rw [if_neg fun isNil => notNil isNil.1, List.append_nil, List.length_nil]
  simp only [Nat.cast_zero, sub_zero]

theorem readExponent_exponentText (n : ℤ) : readExponent ('e' :: exponentText n) = some n := by
  have isSigned : readSign (exponentText n) = (decide (n < 0), Nat.toDigits 10 n.natAbs) := by
    unfold exponentText
    by_cases negative : n < 0
    · rw [if_pos negative, decide_eq_true negative]
      rfl
    · rw [if_neg negative, decide_eq_false negative]
      rfl
  have areDigits : (Nat.toDigits 10 n.natAbs).all Char.isDigit = true :=
    List.all_eq_true.mpr fun ch member => isDigit_of_mem_toDigits member
  rw [readExponent, if_pos (.inl rfl), isSigned]
  dsimp only
  rw [if_neg (by simp [areDigits]), Nat.ofDigitChars_ten_toDigits, natAbs_of_sign]

private theorem ofDigitChars_zeros (count : Nat) (digits : Text) :
    Nat.ofDigitChars 10 (List.replicate count '0' ++ digits) 0 = Nat.ofDigitChars 10 digits 0 := by
  rw [Nat.ofDigitChars_append, Nat.ofDigitChars_replicate_zero, Nat.mul_zero]

private theorem isDigit_replicate {count : Nat} : ∀ ch ∈ List.replicate count '0', ch.isDigit = true := by
  intro ch member
  rw [List.eq_of_mem_replicate member]
  rfl

private theorem exponent_stops (n : ℤ) : StopsDigits ('e' :: exponentText n) := by
  intro ch isFirst
  cases isFirst
  rfl

/-- The digits of a decimal, as they are printed. -/
structure IsDigits (digits : Nat) (s : Text) : Prop where
  areDigits : ∀ ch ∈ s, ch.isDigit = true
  notNil : s ≠ []
  value : Nat.ofDigitChars 10 s 0 = digits

theorem isDigits_toDigits (digits : Nat) : IsDigits digits (Nat.toDigits 10 digits) :=
  ⟨fun _ member => isDigit_of_mem_toDigits member, Nat.toDigits_ne_nil, Nat.ofDigitChars_ten_toDigits⟩

section

variable {digits : Nat} {s : Text}

/-- All digits in front of the decimal point. -/
theorem IsDigits.read_zeros (isDigits : IsDigits digits s) (count : Nat) :
    readUnsigned (s ++ List.replicate count '0') = some ((digits : ℚ) * 10 ^ (count : ℤ)) := by
  have allDigits : ∀ ch ∈ s ++ List.replicate count '0', ch.isDigit = true := by
    intro ch member
    cases List.mem_append.mp member with
    | inl member => exact isDigits.areDigits ch member
    | inr member => exact isDigit_replicate ch member
  have isRead := @readUnsigned_whole (s ++ List.replicate count '0') [] (by simp [isDigits.notNil])
    allDigits nofun nofun
  rw [List.append_nil, Nat.ofDigitChars_append, isDigits.value,
    Nat.ofDigitChars_replicate_zero] at isRead
  rw [isRead, readExponent, Option.map_some, zpow_zero, mul_one, zpow_natCast]
  push_cast
  rw [mul_comm]

/-- The decimal point between the digits. -/
theorem IsDigits.read_point (isDigits : IsDigits digits s) {count : Nat} (some : 0 < count)
    {behind : Text} (stops : StopsDigits behind) :
    readUnsigned (s.take count ++ '.' :: (s.drop count ++ behind)) =
      (readExponent behind).map fun (exponent : ℤ) =>
        (digits : ℚ) * 10 ^ (exponent - (s.length - count : Nat)) := by
  have notNil : s.take count ≠ [] := by
    intro isNil
    cases List.take_eq_nil_iff.mp isNil with
    | inl isZero => exact absurd isZero (Nat.ne_of_gt some)
    | inr isNil => exact isDigits.notNil isNil
  rw [readUnsigned_point notNil (fun ch member => isDigits.areDigits ch (List.mem_of_mem_take member))
    (fun ch member => isDigits.areDigits ch (List.mem_of_mem_drop member)) stops,
    List.take_append_drop, isDigits.value, List.length_drop]

/-- All digits behind the decimal point. -/
theorem IsDigits.read_fraction (isDigits : IsDigits digits s) (count : Nat) :
    readUnsigned ('0' :: '.' :: (List.replicate count '0' ++ s)) =
      some ((digits : ℚ) * 10 ^ (-(count + s.length : ℤ))) := by
  have allDigits : ∀ ch ∈ List.replicate count '0' ++ s, ch.isDigit = true := by
    intro ch member
    cases List.mem_append.mp member with
    | inl member => exact isDigit_replicate ch member
    | inr member => exact isDigits.areDigits ch member
  have isRead := @readUnsigned_point ['0'] (List.replicate count '0' ++ s) [] (List.cons_ne_nil _ _)
    (List.all_iff_forall_prop.mp (by decide)) allDigits nofun
  have oneMore : ['0'] ++ (List.replicate count '0' ++ s) = List.replicate (count + 1) '0' ++ s := rfl
  rw [oneMore, ofDigitChars_zeros, isDigits.value, List.append_nil, List.singleton_append] at isRead
  rw [isRead, readExponent, Option.map_some, List.length_append, List.length_replicate, zero_sub,
    Nat.cast_add]

/-- One digit in front of an exponent. -/
theorem IsDigits.read_exponent (isDigits : IsDigits digits s) (n : ℤ) :
    readUnsigned (s ++ 'e' :: exponentText n) = some ((digits : ℚ) * 10 ^ n) := by
  rw [readUnsigned_whole isDigits.notNil isDigits.areDigits (exponent_stops n) (by simp),
    readExponent_exponentText, isDigits.value, Option.map_some]

end

theorem readUnsigned_decimalText (decimal : Decimal) :
    readUnsigned (decimalText decimal) = some decimal.value := by
  have isDigits := isDigits_toDigits decimal.digits
  unfold decimalText Decimal.value
  dsimp only
  generalize Nat.toDigits 10 decimal.digits = s at isDigits
  have positive := List.length_pos_of_ne_nil isDigits.notNil
  split
  · next inside =>
      have isCount : (((s.length : ℤ) + decimal.exponent - s.length).toNat : ℤ) =
          decimal.exponent := by omega
      rw [isDigits.read_zeros, isCount]
  · split
    · next inside =>
        have isExponent : 0 - ((s.length - ((s.length : ℤ) + decimal.exponent).toNat : Nat) : ℤ) =
            decimal.exponent := by omega
        have isRead := @IsDigits.read_point _ _ isDigits ((s.length : ℤ) + decimal.exponent).toNat
          (by omega) [] nofun
        rw [List.append_nil] at isRead
        rw [isRead, readExponent, Option.map_some, isExponent]
    · split
      · next inside =>
          have isExponent : -(((-((s.length : ℤ) + decimal.exponent)).toNat : ℤ) + s.length) =
              decimal.exponent := by omega
          rw [isDigits.read_fraction, isExponent]
      · split
        · next isOne =>
            have isExponent : (s.length : ℤ) + decimal.exponent - 1 = decimal.exponent := by omega
            rw [isDigits.read_exponent, isExponent]
        · have isExponent : (s.length : ℤ) + decimal.exponent - 1 - (s.length - 1 : Nat) =
              decimal.exponent := by omega
          rw [isDigits.read_point Nat.one_pos (exponent_stops _), readExponent_exponentText,
            Option.map_some, isExponent]

/-!
## Characters
-/

/-- What the text of a decimal is made of. -/
def InDecimal (ch : Char) : Prop := ch.isDigit = true ∨ ch ∈ ['.', 'e', '+', '-']

theorem inDecimal_of_mem {decimal : Decimal} {ch : Char} (member : ch ∈ decimalText decimal) :
    InDecimal ch := by
  have isDigits := isDigits_toDigits decimal.digits
  have inExponent {n : ℤ} (member : ch ∈ 'e' :: exponentText n) : InDecimal ch := by
    cases member with
    | head => exact .inr (by decide)
    | tail _ member =>
        unfold exponentText at member
        cases member with
        | head =>
            split
            · exact .inr (by decide)
            · exact .inr (by decide)
        | tail _ member => exact .inl (isDigit_of_mem_toDigits member)
  unfold decimalText at member
  dsimp only at member
  split at member
  · cases List.mem_append.mp member with
    | inl member => exact .inl (isDigits.areDigits ch member)
    | inr member => exact .inl (isDigit_replicate ch member)
  · split at member
    · cases List.mem_append.mp member with
      | inl member => exact .inl (isDigits.areDigits ch (List.mem_of_mem_take member))
      | inr member =>
          cases member with
          | head => exact .inr (by decide)
          | tail _ member => exact .inl (isDigits.areDigits ch (List.mem_of_mem_drop member))
    · split at member
      · cases member with
        | head => exact .inl rfl
        | tail _ member =>
            cases member with
            | head => exact .inr (by decide)
            | tail _ member =>
                cases List.mem_append.mp member with
                | inl member => exact .inl (isDigit_replicate ch member)
                | inr member => exact .inl (isDigits.areDigits ch member)
      · split at member
        · cases List.mem_append.mp member with
          | inl member => exact .inl (isDigits.areDigits ch member)
          | inr member => exact inExponent member
        · cases List.mem_append.mp member with
          | inl member => exact .inl (isDigits.areDigits ch (List.mem_of_mem_take member))
          | inr member =>
              cases member with
              | head => exact .inr (by decide)
              | tail _ member =>
                  cases List.mem_append.mp member with
                  | inl member => exact .inl (isDigits.areDigits ch (List.mem_of_mem_drop member))
                  | inr member => exact inExponent member

theorem decimalText_head (decimal : Decimal) :
    ∃ ch rest, decimalText decimal = ch :: rest ∧ ch.isDigit = true := by
  obtain ⟨areDigits, notNil, -⟩ := isDigits_toDigits decimal.digits
  unfold decimalText
  dsimp only
  cases isText : Nat.toDigits 10 decimal.digits with
  | nil => exact absurd isText notNil
  | cons ch rest =>
      have isDigit := areDigits ch (isText ▸ List.mem_cons_self)
      split
      · exact ⟨ch, _, rfl, isDigit⟩
      · split
        · next inside =>
            obtain ⟨count, isCount⟩ := Nat.exists_eq_succ_of_ne_zero
              (show (((ch :: rest).length : ℤ) + decimal.exponent).toNat ≠ 0 by omega)
            rw [isCount, Nat.succ_eq_add_one, List.take_succ_cons]
            exact ⟨ch, _, rfl, isDigit⟩
        · split
          · exact ⟨'0', _, rfl, rfl⟩
          · split
            · exact ⟨ch, _, rfl, isDigit⟩
            · exact ⟨ch, _, rfl, isDigit⟩

end

/-!
## Round trips
-/

section

variable {text : Text} {decimal : Decimal}

private theorem isWhite_inDecimal {ch : Char} (inDecimal : InDecimal ch) : isWhite ch = false := by
  cases inDecimal with
  | inl isDigit =>
      rw [Char.isDigit, Bool.and_eq_true, decide_eq_true_eq, decide_eq_true_eq] at isDigit
      have below : ch.toNat ≤ 57 := isDigit.2
      have above : 48 ≤ ch.toNat := isDigit.1
      simp only [isWhite, isStrWhiteSpace, Bool.or_eq_false_iff, Bool.and_eq_false_iff,
        decide_eq_false_iff_not]
      omega
  | inr isSign =>
      have notWhite : ∀ ch ∈ ['.', 'e', '+', '-'], isWhite ch = false :=
        List.all_iff_forall_prop.mp (by decide)
      exact notWhite ch isSign

private theorem radixOf_inDecimal {ch : Char} (inDecimal : InDecimal ch) : radixOf ch = none := by
  have notLetter : ch ∉ ['x', 'X', 'o', 'O', 'b', 'B'] := by
    intro isLetter
    cases inDecimal with
    | inl isDigit =>
        have noDigit : ∀ ch ∈ ['x', 'X', 'o', 'O', 'b', 'B'], ch.isDigit = false :=
          List.all_iff_forall_prop.mp (by decide)
        rw [noDigit ch isLetter] at isDigit
        cases isDigit
    | inr isSign =>
        have noSign : ∀ ch ∈ ['x', 'X', 'o', 'O', 'b', 'B'], ch ∉ ['.', 'e', '+', '-'] :=
          List.all_iff_forall_prop.mp (by decide)
        exact noSign ch isLetter isSign
  simp only [List.mem_cons, List.not_mem_nil, or_false, not_or] at notLetter
  simp [radixOf, notLetter]

private theorem strip_eq (notWhite : ∀ ch ∈ text, isWhite ch = false) :
    (text.dropWhile isWhite).rdropWhile isWhite = text := by
  have kept (text : Text) (notWhite : ∀ ch ∈ text, isWhite ch = false) :
      text.dropWhile isWhite = text := by
    cases text with
    | nil => rfl
    | cons ch rest =>
        rw [List.dropWhile_cons_of_neg]
        rw [notWhite ch List.mem_cons_self]
        exact Bool.false_ne_true
  rw [kept text notWhite, List.rdropWhile, kept text.reverse, List.reverse_reverse]
  intro ch member
  exact notWhite ch (List.mem_reverse.mp member)

/-- A text without white space that is no literal with a radix. -/
theorem ofText_eq (notNil : text ≠ []) (notWhite : ∀ ch ∈ text, isWhite ch = false)
    (noRadix : ∀ ch ∈ text, radixOf ch = none) : ofText text = readDecimal text := by
  unfold ofText
  rw [strip_eq notWhite]
  split
  · exact absurd rfl notNil
  · next letter rest =>
      rw [noRadix letter (by simp)]
  · rfl

private theorem ofText_inDecimal (notNil : text ≠ []) (inDecimal : ∀ ch ∈ text, InDecimal ch) :
    ofText text = readDecimal text :=
  ofText_eq notNil (fun ch member => isWhite_inDecimal (inDecimal ch member))
    fun ch member => radixOf_inDecimal (inDecimal ch member)

theorem ofRat_value {number : Double} {q : ℚ} (isRounded : roundDigits q = number.value) :
    ofRat q = .finite number := by
  obtain ⟨m, e, digits, notBelow, isValue, inside⟩ := number.isDouble
  unfold ofRat
  rw [dif_pos (by rwa [isRounded])]
  exact congrArg _ (Double.ext isRounded)

private theorem unsigned_ne_infinity (decimal : Decimal) : decimalText decimal ≠ infinityText := by
  obtain ⟨ch, rest, isText, isDigit⟩ := decimalText_head decimal
  rw [isText]
  intro same
  rw [(List.cons.inj same).1] at isDigit
  exact absurd isDigit (by decide)

theorem readDecimal_decimalText (decimal : Decimal) :
    readDecimal (decimalText decimal) = ofRat decimal.value ∧
      readDecimal ('-' :: decimalText decimal) = neg (ofRat decimal.value) := by
  have notInfinity := unsigned_ne_infinity decimal
  have isRead := readUnsigned_decimalText decimal
  have unsigned : readSign (decimalText decimal) = (false, decimalText decimal) := by
    obtain ⟨ch, rest, isText, isDigit⟩ := decimalText_head decimal
    rw [isText]
    unfold readSign
    split
    · next isSign =>
        rw [(List.cons.inj isSign).1] at isDigit
        exact absurd isDigit (by decide)
    · next isSign =>
        rw [(List.cons.inj isSign).1] at isDigit
        exact absurd isDigit (by decide)
    · rfl
  have signed : readSign ('-' :: decimalText decimal) = (true, decimalText decimal) := rfl
  constructor
  · rw [readDecimal, unsigned]
    dsimp only
    rw [if_neg notInfinity, isRead]
    rfl
  · rw [readDecimal, signed]
    dsimp only
    rw [if_neg notInfinity, isRead]
    rfl

theorem exists_positiveText {number : Double} (positive : 0 < number.value) :
    ∃ decimal, positiveText number.value = decimalText decimal ∧
      ofRat decimal.value = .finite number := by
  obtain ⟨decimal, isShortest, isRounded⟩ := exists_shortest number.isDouble positive
  refine ⟨decimal, ?_, ofRat_value isRounded⟩
  rw [positiveText, isShortest]

/-- A number is read again from its text. -/
theorem ofText_toText (number : JsNumber) : ofText number.toText = number := by
  cases number with
  | nan =>
      exact @ofText_eq ['N', 'a', 'N'] (List.cons_ne_nil _ _)
        (List.all_iff_forall_prop.mp (by decide)) (List.all_iff_forall_prop.mp (by decide))
  | infinite negative =>
      cases negative with
      | false =>
          exact @ofText_eq infinityText (List.cons_ne_nil _ _)
            (List.all_iff_forall_prop.mp (by decide)) (List.all_iff_forall_prop.mp (by decide))
      | true =>
          exact @ofText_eq ('-' :: infinityText) (List.cons_ne_nil _ _)
            (List.all_iff_forall_prop.mp (by decide)) (List.all_iff_forall_prop.mp (by decide))
  | finite number =>
      rw [toText]
      by_cases isZero : number.value = 0
      · have isRead := (isDigits_toDigits 0).read_zeros 0
        have isText : Nat.toDigits 10 0 ++ List.replicate 0 '0' = ['0'] := rfl
        rw [isText, Nat.cast_zero, zero_mul, ← isZero] at isRead
        have isDecimal : readDecimal ['0'] = ofRat number.value := by
          rw [readDecimal, show readSign ['0'] = (false, ['0']) from rfl]
          dsimp only
          rw [if_neg (by decide), isRead]
          rfl
        rw [if_pos isZero, ofText_inDecimal (List.cons_ne_nil _ _) (by simp [InDecimal]), isDecimal,
          ofRat_value (roundDigits_of_isDouble number.isDouble)]
      · rw [if_neg isZero]
        by_cases negative : number.value < 0
        · rw [if_pos negative]
          obtain ⟨decimal, isText, isNumber⟩ :=
            @exists_positiveText number.neg (neg_pos.mpr negative)
          have isText : positiveText (-number.value) = decimalText decimal := isText
          have inDecimal : ∀ ch ∈ '-' :: decimalText decimal, InDecimal ch :=
            List.forall_mem_cons.mpr ⟨.inr (by decide), fun ch member => inDecimal_of_mem member⟩
          rw [isText, ofText_inDecimal (List.cons_ne_nil _ _) inDecimal,
            (readDecimal_decimalText decimal).2, isNumber, neg]
          exact congrArg _ (Double.ext (neg_neg _))
        · have positive := lt_of_le_of_ne (not_lt.mp negative) (Ne.symm isZero)
          obtain ⟨decimal, isText, isNumber⟩ := exists_positiveText positive
          obtain ⟨ch, rest, isHead, -⟩ := decimalText_head decimal
          have notNil : decimalText decimal ≠ [] := isHead ▸ List.cons_ne_nil ch rest
          rw [if_neg negative, isText, ofText_inDecimal notNil fun ch member => inDecimal_of_mem member,
            (readDecimal_decimalText decimal).1, isNumber]

end

end JsNumber

end FreeOnline.Browser
