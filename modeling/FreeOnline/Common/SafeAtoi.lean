import FreeOnline.Common.StringVector

/-!
# Numbers in a range of bytes

`safe_atoi` is given bytes and how many there are. No byte behind them may be read, and no
number on the way may be larger than its type.
-/

set_option autoImplicit false

namespace FreeOnline.Common.SafeAtoi

open FreeOnline.Library

def intMin : Int := -2 ^ 31

/-- A number of a signed type with these bits. Nothing else may come out of a computation. -/
def signed (bits : Nat) (value : Int) : Option Int :=
  if -2 ^ (bits - 1) ≤ value ∧ value < 2 ^ (bits - 1) then some value else none

/-- What is behind the spaces, or nothing where there are only spaces. A byte is read, so that
there must be one. -/
def skipSpaces : Text → Option (Option Text)
  | [] => none
  | ch :: rest =>
      if isSpace ch then
        if rest = [] then some none else skipSpaces rest
      else some (some (ch :: rest))

/-- The loop over the digits, from the byte on that is read next. -/
def digitLoop (multiplier ret : Int) : Text → Option Int
  | [] => none
  | ch :: rest =>
      if ch.isDigit then do
        let next ← signed 64 (ret * 10) >>= fun shifted =>
          signed 64 (shifted + ((ch.toNat - '0'.toNat : Nat) : Int))
        if next ≥ intMax then signed 32 (multiplier * intMax)
        else if rest = [] then (signed 64 (multiplier * next)).map toInt32
        else digitLoop multiplier next rest
      else (signed 64 (multiplier * ret)).map toInt32

/-- The bytes are the given ones, as many as the length says. -/
def safeAtoi (p : Option Text) (len : Int) : Option Int :=
  match p with
  | none => some 0
  | some bytes =>
      if len = 0 then some 0
      else
        match skipSpaces (bytes.take len.toNat) with
        | none => none
        | some none => some 0
        | some (some text) =>
            let (negative, rest) := readSign text
            if rest = [] then some 0 else digitLoop (if negative then -1 else 1) 0 rest

section

variable {text : Text} {ret : Int}

theorem signed_of_fits {bits : Nat} {value : Int}
    (fits : -2 ^ (bits - 1) ≤ value ∧ value < 2 ^ (bits - 1)) : signed bits value = some value :=
  if_pos fits

theorem skipSpaces_eq (notNil : text ≠ []) :
    skipSpaces text = some (if text.dropWhile isSpace = [] then none
      else some (text.dropWhile isSpace)) := by
  induction text with
  | nil => exact absurd rfl notNil
  | cons ch rest ih =>
      rw [skipSpaces]
      by_cases spaced : isSpace ch = true
      · rw [if_pos spaced, List.dropWhile_cons_of_pos spaced]
        by_cases isEnd : rest = []
        · rw [if_pos isEnd, isEnd]
          rfl
        · rw [if_neg isEnd, ih isEnd]
      · rw [if_neg spaced, List.dropWhile_cons_of_neg spaced, if_neg (List.cons_ne_nil ch rest)]

/-- What is returned is an int before it is made one. -/
theorem returned_eq {multiplier : Int} (isSign : multiplier = 1 ∨ multiplier = -1)
    (nonneg : 0 ≤ ret) (below : ret ≤ intMax) :
    (signed 64 (multiplier * ret)).map toInt32 = some (multiplier * ret) := by
  have fits : -intMax ≤ multiplier * ret ∧ multiplier * ret ≤ intMax := by
    cases isSign with
    | inl isPlus => rw [isPlus]; omega
    | inr isMinus => rw [isMinus]; omega
  unfold intMax at fits
  rw [signed_of_fits (by omega), Option.map_some, toInt32_of_fits (by unfold intMax; omega)]

/-- The loop reads the given bytes only, and no number is too large for its type. -/
theorem digitLoop_eq {multiplier : Int} (isSign : multiplier = 1 ∨ multiplier = -1)
    (notNil : text ≠ []) (nonneg : 0 ≤ ret) (below : ret < intMax) :
    digitLoop multiplier ret text = some (multiplier * safeDigits ret text) := by
  induction text generalizing ret with
  | nil => exact absurd rfl notNil
  | cons ch rest ih =>
      rw [digitLoop, safeDigits]
      by_cases isDigit : ch.isDigit = true
      · have digitBelow : ch.toNat - '0'.toNat < 10 := by
          have atMost : ch.toNat ≤ 57 := (Char.isDigit_iff_toNat.mp isDigit).2
          have isZero : '0'.toNat = 48 := rfl
          omega
        rw [if_pos isDigit, if_pos isDigit]
        dsimp only
        have isShifted : signed 64 (ret * 10) = some (ret * 10) :=
          signed_of_fits (by unfold intMax at below; omega)
        have isNext : signed 64 (ret * 10 + ((ch.toNat - '0'.toNat : Nat) : Int)) =
            some (ret * 10 + ((ch.toNat - '0'.toNat : Nat) : Int)) :=
          signed_of_fits (by unfold intMax at below; omega)
        simp only [isShifted, isNext, Option.bind_eq_bind, Option.bind_some]
        have nextNonneg : 0 ≤ ret * 10 + ((ch.toNat - '0'.toNat : Nat) : Int) := by omega
        generalize ret * 10 + ((ch.toNat - '0'.toNat : Nat) : Int) = next at nextNonneg
        by_cases reached : next ≥ intMax
        · rw [if_pos reached, if_pos reached]
          refine signed_of_fits ?_
          unfold intMax
          cases isSign with
          | inl isPlus => rw [isPlus]; omega
          | inr isMinus => rw [isMinus]; omega
        · rw [if_neg reached, if_neg reached]
          by_cases isEnd : rest = []
          · rw [if_pos isEnd, returned_eq isSign nextNonneg (by omega), isEnd]
            rfl
          · rw [if_neg isEnd, ih isEnd nextNonneg (by omega)]
      · rw [if_neg isDigit, if_neg isDigit, returned_eq isSign nonneg (by omega)]

end

section

variable {bytes : Text} {len : Int}

/-- Read from memory or from a text, the number is the same. -/
theorem safeAtoi_eq_text (nonneg : 0 ≤ len) (inside : len ≤ bytes.length) :
    safeAtoi (some bytes) len = some (Common.safeAtoi (bytes.take len.toNat)) := by
  rw [safeAtoi, Common.safeAtoi]
  by_cases isZero : len = 0
  · rw [if_pos isZero, isZero]
    rfl
  · have notNil : bytes.take len.toNat ≠ [] := by
      refine List.ne_nil_of_length_pos ?_
      rw [List.length_take]
      omega
    rw [if_neg isZero, skipSpaces_eq notNil]
    by_cases isEnd : (bytes.take len.toNat).dropWhile isSpace = []
    · rw [if_pos isEnd, isEnd]
      rfl
    · rw [if_neg isEnd]
      dsimp only
      cases readSign ((bytes.take len.toNat).dropWhile isSpace) with
      | mk negative rest =>
          dsimp only
          by_cases noRest : rest = []
          · rw [if_pos noRest, noRest]
            cases negative with
            | false => rfl
            | true => rfl
          · rw [if_neg noRest]
            cases negative with
            | false =>
                rw [if_neg Bool.false_ne_true, if_neg Bool.false_ne_true,
                  digitLoop_eq (.inl rfl) noRest (Int.le_refl 0) (by decide), Int.one_mul]
            | true =>
                rw [if_pos rfl, if_pos rfl,
                  digitLoop_eq (.inr rfl) noRest (Int.le_refl 0) (by decide), Int.neg_one_mul]

theorem safeAtoi_negative (notNat : len < 0) : safeAtoi (some bytes) len = none := by
  have isNone : len.toNat = 0 := Int.toNat_of_nonpos (Int.le_of_lt notNat)
  rw [safeAtoi, if_neg (Int.ne_of_lt notNat), isNone]
  rfl

/-- The number in the given bytes is returned, with the range of an int as its bounds, exactly if
the length is not negative and the number is larger than the least int. -/
theorem safeAtoi_clamps_iff (inside : len ≤ bytes.length) :
    safeAtoi (some bytes) len =
        some (max intMin (min ((readLong (bytes.take len.toNat)).getD 0) intMax)) ↔
      0 ≤ len ∧ intMin < (readLong (bytes.take len.toNat)).getD 0 := by
  by_cases nonneg : 0 ≤ len
  · rw [safeAtoi_eq_text nonneg inside, safeAtoi_eq, Option.some_inj]
    generalize (readLong (bytes.take len.toNat)).getD 0 = value
    unfold intMin intMax
    omega
  · rw [safeAtoi_negative (Int.not_le.mp nonneg)]
    simp [nonneg]

theorem safeAtoi_clamps_least_but_one :
    safeAtoi (some "-2147483647 ".toList) 11 =
        some (max intMin (min ((readLong ("-2147483647 ".toList.take 11)).getD 0) intMax)) ↔
      (0 : Int) ≤ 11 ∧ intMin < (readLong ("-2147483647 ".toList.take 11)).getD 0 :=
  @safeAtoi_clamps_iff "-2147483647 ".toList 11 (by decide)

/-- The least int is one less than what is returned for it. -/
theorem safeAtoi_least_int :
    safeAtoi (some "-2147483648".toList) 11 = some (-2147483647) ∧
      safeAtoi (some "-2147483648".toList) 11 ≠
        some (max intMin (min ((readLong ("-2147483648".toList.take 11)).getD 0) intMax)) := by
  decide

end

end FreeOnline.Common.SafeAtoi
