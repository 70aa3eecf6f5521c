import Mathlib.Data.Int.Log
import Mathlib.Data.Rat.Floor
import Mathlib.Tactic.Linarith
import Mathlib.Tactic.NormNum

/-!
# Doubles

The numbers with 53 binary digits and an exponent, and how a rational number is rounded to the
nearest of them.
-/

set_option autoImplicit false

namespace FreeOnline.Library

/-- Of the numbers that a double may be, zeros of both signs are one. -/
def IsDouble (q : ℚ) : Prop :=
  ∃ m e : ℤ, |m| < 2 ^ 53 ∧ -1074 ≤ e ∧ q = m * 2 ^ e ∧ |q| < 2 ^ 1024

/-- To the nearest integer, and to the even one of two. -/
def roundHalfEven (q : ℚ) : ℤ :=
  if q - ⌊q⌋ < 1 / 2 then ⌊q⌋
  else if 1 / 2 < q - ⌊q⌋ then ⌊q⌋ + 1
  else if ⌊q⌋ % 2 = 0 then ⌊q⌋
  else ⌊q⌋ + 1

/-- The exponent of the last binary digit that is kept. -/
def lastExponent (q : ℚ) : ℤ := max (Int.log 2 |q| - 52) (-1074)

/-- To the nearest number with 53 digits, however large. -/
def roundDigits (q : ℚ) : ℚ := roundHalfEven (q / 2 ^ lastExponent q) * 2 ^ lastExponent q

@[ext]
structure Double where
  value : ℚ
  isDouble : IsDouble value

theorem IsDouble.neg {q : ℚ} (isDouble : IsDouble q) : IsDouble (-q) := by
  obtain ⟨m, e, digits, notBelow, rfl, inside⟩ := isDouble
  refine ⟨-m, e, ?_, notBelow, ?_, ?_⟩
  · rwa [abs_neg]
  · rw [Int.cast_neg, neg_mul]
  · rwa [abs_neg]

def Double.neg (number : Double) : Double := ⟨-number.value, number.isDouble.neg⟩

/-!
## Integers
-/

section

variable {q : ℚ} {bound : ℤ}

theorem roundHalfEven_intCast (n : ℤ) : roundHalfEven n = n := by
  unfold roundHalfEven
  rw [Int.floor_intCast, sub_self, if_pos (by norm_num)]

theorem roundHalfEven_cases (q : ℚ) :
    roundHalfEven q = ⌊q⌋ ∨ roundHalfEven q = ⌊q⌋ + 1 ∧ (⌊q⌋ : ℚ) < q := by
  unfold roundHalfEven
  split
  · exact .inl rfl
  · next notBelow =>
      have above : (⌊q⌋ : ℚ) < q := by linarith
      split
      · exact .inr ⟨rfl, above⟩
      · split
        · exact .inl rfl
        · exact .inr ⟨rfl, above⟩

theorem roundHalfEven_le (below : q ≤ bound) : roundHalfEven q ≤ bound := by
  have floorBelow : ⌊q⌋ ≤ bound := by exact_mod_cast (Int.floor_le q).trans below
  cases roundHalfEven_cases q with
  | inl isFloor => rwa [isFloor]
  | inr isNext =>
      have strictly : ⌊q⌋ < bound := by exact_mod_cast lt_of_lt_of_le isNext.2 below
      rw [isNext.1]
      exact strictly

theorem le_roundHalfEven (above : bound ≤ q) : bound ≤ roundHalfEven q := by
  have floorAbove : bound ≤ ⌊q⌋ := Int.le_floor.mpr above
  cases roundHalfEven_cases q with
  | inl isFloor => rwa [isFloor]
  | inr isNext =>
      rw [isNext.1]
      exact floorAbove.trans (Int.le_add_one le_rfl)

theorem abs_roundHalfEven_le (inside : |q| ≤ bound) : |roundHalfEven q| ≤ bound := by
  obtain ⟨above, below⟩ := abs_le.mp inside
  refine abs_le.mpr ⟨le_roundHalfEven ?_, roundHalfEven_le below⟩
  rwa [Int.cast_neg]

theorem le_abs_roundHalfEven (outside : bound ≤ |q|) : bound ≤ |roundHalfEven q| := by
  cases le_abs.mp outside with
  | inl above => exact le_abs.mpr (.inl (le_roundHalfEven above))
  | inr below =>
      have negated : q ≤ (-bound : ℤ) := by
        rw [Int.cast_neg]
        exact le_neg_of_le_neg below
      exact le_abs.mpr (.inr (le_neg_of_le_neg (roundHalfEven_le negated)))

end

/-!
## Rounding
-/

section

variable {q : ℚ}

private theorem two_zpow_pos (e : ℤ) : (0 : ℚ) < 2 ^ e := zpow_pos (by norm_num) e

theorem abs_div_lastExponent (q : ℚ) : |q / 2 ^ lastExponent q| < 2 ^ 53 := by
  have belowNext : |q| < (2 : ℚ) ^ (Int.log 2 |q| + 1) := Int.lt_zpow_succ_log_self (by decide) |q|
  have notAbove : Int.log 2 |q| + 1 ≤ lastExponent q + 53 := by
    have := le_max_left (Int.log 2 |q| - 52) (-1074)
    unfold lastExponent
    omega
  have inside : |q| < (2 : ℚ) ^ (lastExponent q + 53) :=
    belowNext.trans_le (zpow_le_zpow_right₀ (by norm_num) notAbove)
  rw [abs_div, abs_of_pos (two_zpow_pos _), div_lt_iff₀ (two_zpow_pos _), mul_comm]
  rwa [zpow_add₀ (by norm_num)] at inside

/-- The first binary digit is kept, and with it what a number has at least. -/
theorem one_le_abs_roundDigits (outside : 1 ≤ |q|) : 1 ≤ |roundDigits q| := by
  have firstDigit : (2 : ℚ) ^ Int.log 2 |q| ≤ |q| :=
    Int.zpow_log_le_self (by decide) (zero_lt_one.trans_le outside)
  have notNegative : 0 ≤ Int.log 2 |q| := by
    rw [Int.log_of_one_le_right 2 outside]
    exact Int.natCast_nonneg _
  have isKept : lastExponent q ≤ Int.log 2 |q| := max_le (by omega) (by omega)
  obtain ⟨count, isCount⟩ := Int.le.dest isKept
  have scaled : ((2 ^ count : ℤ) : ℚ) ≤ |q / 2 ^ lastExponent q| := by
    rw [abs_div, abs_of_pos (two_zpow_pos _), le_div_iff₀ (two_zpow_pos _)]
    push_cast
    rw [← zpow_natCast, ← zpow_add₀ (by norm_num), add_comm, isCount]
    exact firstDigit
  have rounded : ((2 ^ count : ℤ) : ℚ) ≤ |(roundHalfEven (q / 2 ^ lastExponent q) : ℚ)| := by
    exact_mod_cast le_abs_roundHalfEven scaled
  unfold roundDigits
  rw [abs_mul, abs_of_pos (two_zpow_pos _)]
  calc (1 : ℚ) ≤ 2 ^ Int.log 2 |q| := one_le_zpow₀ (by norm_num) notNegative
    _ = (2 ^ count : ℤ) * 2 ^ lastExponent q := by
      push_cast
      rw [← zpow_natCast, ← zpow_add₀ (by norm_num), add_comm, isCount]
    _ ≤ _ := mul_le_mul_of_nonneg_right rounded (two_zpow_pos _).le

theorem isDouble_roundDigits (inside : |roundDigits q| < 2 ^ 1024) : IsDouble (roundDigits q) := by
  have digits : |roundHalfEven (q / 2 ^ lastExponent q)| ≤ 2 ^ 53 := by
    refine abs_roundHalfEven_le ?_
    exact_mod_cast (abs_div_lastExponent q).le
  have notBelow : -1074 ≤ lastExponent q := le_max_right _ _
  cases digits.lt_or_eq with
  | inl fewer => exact ⟨_, _, fewer, notBelow, rfl, inside⟩
  | inr carried =>
      -- one digit too many: the last one is a zero
      obtain ⟨half, isHalf, short⟩ : ∃ half : ℤ,
          roundHalfEven (q / 2 ^ lastExponent q) = half * 2 ∧ |half| < 2 ^ 53 := by
        cases abs_choice (roundHalfEven (q / 2 ^ lastExponent q)) with
        | inl positive =>
            refine ⟨2 ^ 52, ?_, by norm_num⟩
            rw [← positive, carried]
            norm_num
        | inr negative =>
            refine ⟨-2 ^ 52, ?_, by norm_num⟩
            rw [← neg_neg (roundHalfEven _), ← negative, carried]
            norm_num
      refine ⟨half, lastExponent q + 1, short, by omega, ?_, inside⟩
      rw [roundDigits, isHalf, zpow_add_one₀ (by norm_num)]
      push_cast
      ring

theorem roundDigits_of_isDouble (isDouble : IsDouble q) : roundDigits q = q := by
  obtain ⟨m, e, digits, notBelow, rfl, -⟩ := isDouble
  have isScaled : ∃ n : ℤ, (m : ℚ) * 2 ^ e / 2 ^ lastExponent (m * 2 ^ e) = n := by
    by_cases isZero : m = 0
    · exact ⟨0, by rw [isZero]; norm_num⟩
    · have notZero : 0 < |(m : ℚ) * 2 ^ e| :=
        abs_pos.mpr (mul_ne_zero (by exact_mod_cast isZero) (two_zpow_pos e).ne')
      have inside : |(m : ℚ) * 2 ^ e| < ((2 : ℕ) : ℚ) ^ (53 + e) := by
        rw [abs_mul, abs_of_pos (two_zpow_pos e), Nat.cast_ofNat, zpow_add₀ (by norm_num)]
        refine mul_lt_mul_of_pos_right ?_ (two_zpow_pos e)
        exact_mod_cast digits
      have isBelow := (Int.lt_zpow_iff_log_lt (by decide) notZero).mp inside
      have notAbove : lastExponent (m * 2 ^ e) ≤ e := by
        unfold lastExponent
        omega
      obtain ⟨count, isCount⟩ := Int.le.dest notAbove
      refine ⟨m * 2 ^ count, ?_⟩
      have isDifference : e - lastExponent (m * 2 ^ e) = count := by omega
      rw [mul_div_assoc, ← zpow_sub₀ (by norm_num), isDifference, zpow_natCast]
      push_cast
      rfl
  obtain ⟨n, isInteger⟩ := isScaled
  rw [roundDigits, isInteger, roundHalfEven_intCast, ← isInteger,
    div_mul_cancel₀ _ (two_zpow_pos _).ne']

end

end FreeOnline.Library
