import Mathlib.Data.Bool.AllAny
import Mathlib.Data.List.TakeWhile
import FreeOnline.Common.SafeAtoi
import FreeOnline.Library.Scan

/-!
# Timestamps

A time of the system's clock is a number of nanoseconds. It is written with microseconds, and
read with as many digits behind the point as there are. How dates and texts belong together is
left to the C library.
-/

set_option autoImplicit false

namespace FreeOnline.Common.Timestamps

open FreeOnline.Library
open SafeAtoi (signed signed_of_fits)

/-- The functions of the C library, `strftime` with the format `%FT%T` and `strptime` with
`%Y-%m-%dT%H:%M:%S`. -/
structure Calendar where
  Tm : Type
  gmtime : Int → Tm
  timegm : Tm → Int
  strftime : Tm → Text
  strptime : Text → Option (Tm × Text)

/-- Up to the year 9999, the text of a time is read again as that time. -/
structure Calendar.Lawful (calendar : Calendar) : Prop where
  reads : ∀ seconds : Int, 0 ≤ seconds → seconds < 253402300800 → ∀ rest,
    ∃ tm, calendar.strptime (calendar.strftime (calendar.gmtime seconds) ++ '.' :: rest) =
      some (tm, '.' :: rest) ∧ calendar.timegm tm = seconds
  isText : ∀ tm, '\x00' ∉ calendar.strftime tm

/-- Ticks of the clock in a second. -/
def periodDen : Nat := 1000000000

/-!
## Writing
-/

section

variable (calendar : Calendar)

def getIso8601FracformatTime (time : Int) : Text :=
  let lastModified := time.tdiv periodDen
  let fraction := (time - lastModified * periodDen).tdiv ((periodDen / 1000000 : Nat) : Int)
  calendar.strftime (calendar.gmtime lastModified) ++ '.' ::
    (List.leftpad 6 '0' (printInt fraction) ++ ['Z'])

/-!
## Reading
-/

/-- A number in the type of unsigned words, and whether a number on the way was too large. -/
structure Word where
  value : Nat
  wrapped : Bool
deriving DecidableEq

def Word.mul (word : Word) (n : Nat) : Word :=
  ⟨word.value * n % 2 ^ 64, word.wrapped || decide (2 ^ 64 ≤ word.value * n)⟩

/-- Nothing is divided by zero. -/
def Word.div (word divisor : Word) : Option Word :=
  if divisor.value = 0 then none
  else some ⟨word.value / divisor.value, word.wrapped || divisor.wrapped⟩

/-- The value, which is the largest one where the number is larger, and what is behind it. -/
def strtoul (text : Text) : Word × Text :=
  match scanInt text with
  | none => (⟨0, false⟩, text)
  | some (value, rest) =>
      if value.natAbs < 2 ^ 64 then (⟨(value % 2 ^ 64).toNat, false⟩, rest)
      else (⟨2 ^ 64 - 1, true⟩, rest)

/-- One power of ten for every character that was read. -/
def denominator : Nat → Word
  | 0 => ⟨1, false⟩
  | count + 1 => (denominator count).mul 10

def secondsUs (text : Text) : Option Word :=
  let (us, rest) := strtoul text
  (us.mul periodDen).div (denominator (text.length - rest.length))

/-- A time, and whether an unsigned number on the way was too large. -/
structure Reading where
  timestamp : Int
  wrapped : Bool
deriving DecidableEq

/-- Nothing comes out where a signed number overflows or something is divided by zero. -/
def iso8601ToTimestamp (iso8601Time : Text) : Option Reading :=
  match calendar.strptime (iso8601Time.takeWhile (· ≠ '\x00')) with
  | none => some ⟨0, false⟩
  | some (tm, trailing) => do
      let timestamp ← signed 64 (calendar.timegm tm * (periodDen : Int))
      match trailing with
      | '.' :: text => do
          let ticks ← secondsUs text
          let timestamp ← signed 64 (timestamp + Int.bmod ticks.value (2 ^ 64))
          some ⟨timestamp, ticks.wrapped⟩
      | _ => some ⟨timestamp, false⟩

end

/-!
## What is read of a fraction
-/

/-- The digits as one integer. -/
def digitsValue (digits : Text) : Nat := Nat.ofDigitChars 10 digits 0

/-- What is behind the digits belongs to no number. -/
def EndsNumber (tail : Text) : Prop :=
  ∀ ch ∈ tail.head?, ch.isDigit = false ∧ isSpace ch = false ∧ ch ≠ '+' ∧ ch ≠ '-'

theorem digitsValue_lt {digits : Text} (areDigits : ∀ ch ∈ digits, ch.isDigit = true) :
    digitsValue digits < 10 ^ digits.length := by
  unfold digitsValue
  induction digits with
  | nil => decide
  | cons digit digits ih =>
      have atMost : digit.toNat ≤ 57 := (Char.isDigit_iff_toNat.mp (areDigits digit List.mem_cons_self)).2
      have isZero : '0'.toNat = 48 := rfl
      have later := ih fun ch isMember => areDigits ch (List.mem_cons_of_mem _ isMember)
      rw [Nat.ofDigitChars_cons, Nat.ofDigitChars_eq_ofDigitChars_zero, List.length_cons, Nat.pow_succ]
      have first : 10 ^ digits.length * (10 * 0 + (digit.toNat - '0'.toNat)) ≤
          10 ^ digits.length * 9 := Nat.mul_le_mul_left _ (by omega)
      omega

section

variable {digits tail : Text}

theorem scanInt_digits (areDigits : ∀ ch ∈ digits, ch.isDigit = true) (notNil : digits ≠ [])
    (ends : EndsNumber tail) : scanInt (digits ++ tail) = some ((digitsValue digits : Int), tail) := by
  have isLeading : leadingDigits (digits ++ tail) = digits :=
    leadingDigits_append areDigits fun ch isFirst => (ends ch isFirst).1
  have noSpace : (digits ++ tail).dropWhile isSpace = digits ++ tail := by
    cases digits with
    | nil => exact absurd rfl notNil
    | cons digit digits =>
        refine List.dropWhile_cons_of_neg ?_
        rw [isSpace_of_isDigit (areDigits digit List.mem_cons_self)]
        exact Bool.false_ne_true
  have noSign : readSign (digits ++ tail) = (false, digits ++ tail) := by
    cases digits with
    | nil => exact absurd rfl notNil
    | cons digit digits =>
        have isDigit := areDigits digit List.mem_cons_self
        rw [List.cons_append]
        unfold readSign
        split
        · next isText => cases isText; exact absurd isDigit (by decide)
        · next isText => cases isText; exact absurd isDigit (by decide)
        · rfl
  unfold scanInt
  rw [noSpace, noSign]
  dsimp only
  rw [isLeading, if_neg notNil, List.drop_left]
  rfl

theorem scanInt_none (ends : EndsNumber tail) : scanInt tail = none := by
  cases tail with
  | nil => rfl
  | cons ch tail =>
      obtain ⟨notDigit, notSpace, notPlus, notMinus⟩ := ends ch rfl
      have noSpace : (ch :: tail).dropWhile isSpace = ch :: tail :=
        List.dropWhile_cons_of_neg (by rw [notSpace]; exact Bool.false_ne_true)
      have noSign : readSign (ch :: tail) = (false, ch :: tail) := by
        unfold readSign
        split
        · next isText => cases isText; exact absurd rfl notMinus
        · next isText => cases isText; exact absurd rfl notPlus
        · rfl
      have noDigits : leadingDigits (ch :: tail) = [] :=
        List.takeWhile_cons_of_neg (by rw [notDigit]; exact Bool.false_ne_true)
      unfold scanInt
      rw [noSpace, noSign]
      dsimp only
      rw [noDigits, if_pos rfl]

/-- All digits are read, and their number is the largest one where it does not fit. -/
theorem strtoul_digits (areDigits : ∀ ch ∈ digits, ch.isDigit = true) (ends : EndsNumber tail) :
    strtoul (digits ++ tail) =
      (if digitsValue digits < 2 ^ 64 then ⟨digitsValue digits, false⟩ else ⟨2 ^ 64 - 1, true⟩,
        tail) := by
  unfold strtoul
  by_cases isNil : digits = []
  · rw [isNil, List.nil_append, scanInt_none ends]
    rfl
  · rw [scanInt_digits areDigits isNil ends]
    dsimp only
    rw [Int.natAbs_natCast]
    by_cases inside : digitsValue digits < 2 ^ 64
    · rw [if_pos inside, if_pos inside, Int.emod_eq_of_lt (Int.natCast_nonneg _) (by omega),
        Int.toNat_natCast]
    · rw [if_neg inside, if_neg inside]

theorem denominator_value (count : Nat) : (denominator count).value = 10 ^ count % 2 ^ 64 := by
  induction count with
  | zero => rfl
  | succ count ih =>
      rw [denominator, Word.mul]
      dsimp only
      rw [ih, Nat.mod_mul_mod, Nat.pow_succ 10 count]

/-- Of the powers of ten, nineteen fit. -/
theorem denominator_wrapped (count : Nat) : (denominator count).wrapped = decide (19 < count) := by
  induction count with
  | zero => rfl
  | succ count ih =>
      rw [denominator, Word.mul]
      dsimp only
      rw [ih, denominator_value]
      rcases Nat.lt_trichotomy count 19 with below | rfl | above
      · have small : 10 ^ count ≤ 10 ^ 18 := Nat.pow_le_pow_right (by decide) (by omega)
        rw [Nat.mod_eq_of_lt (by omega), decide_eq_false (by omega), decide_eq_false (by omega),
          decide_eq_false (by omega)]
        rfl
      · rfl
      · rw [decide_eq_true above, Bool.true_or, decide_eq_true (Nat.lt_succ_of_lt above)]

/-- The fraction in ticks of the clock, without what is less than a tick. -/
def ticksOf (digits : Text) : Nat := digitsValue digits * 10 ^ 9 / 10 ^ digits.length

/-- No number on the way to the ticks is too large. -/
def FractionFits (digits : Text) : Prop :=
  digits.length ≤ 19 ∧ digitsValue digits * 10 ^ 9 < 2 ^ 64

instance (digits : Text) : Decidable (FractionFits digits) :=
  inferInstanceAs (Decidable (_ ∧ _))

theorem secondsUs_digits (areDigits : ∀ ch ∈ digits, ch.isDigit = true) (ends : EndsNumber tail) :
    secondsUs (digits ++ tail) =
      Word.div ((if digitsValue digits < 2 ^ 64 then ⟨digitsValue digits, false⟩
        else ⟨2 ^ 64 - 1, true⟩ : Word).mul periodDen) (denominator digits.length) := by
  unfold secondsUs
  rw [strtoul_digits areDigits ends]
  dsimp only
  rw [List.length_append, Nat.add_sub_cancel]

theorem denominator_of_fits {count : Nat} (fits : count ≤ 19) :
    denominator count = ⟨10 ^ count, false⟩ := by
  have small : 10 ^ count ≤ 10 ^ 19 := Nat.pow_le_pow_right (by decide) fits
  have isValue := denominator_value count
  have notWrapped := denominator_wrapped count
  rw [Nat.mod_eq_of_lt (by omega)] at isValue
  rw [decide_eq_false (by omega)] at notWrapped
  cases isWord : denominator count with
  | mk value wrapped =>
      rw [isWord] at isValue notWrapped
      dsimp only at isValue notWrapped
      rw [isValue, notWrapped]

/-- Up to nineteen digits, the product with the ticks of a second is what may be too large. -/
theorem secondsUs_short (areDigits : ∀ ch ∈ digits, ch.isDigit = true) (ends : EndsNumber tail)
    (short : digits.length ≤ 19) :
    secondsUs (digits ++ tail) =
      some ⟨digitsValue digits * 10 ^ 9 % 2 ^ 64 / 10 ^ digits.length,
        decide (2 ^ 64 ≤ digitsValue digits * 10 ^ 9)⟩ := by
  have small : 10 ^ digits.length ≤ 10 ^ 19 := Nat.pow_le_pow_right (by decide) short
  have below := digitsValue_lt areDigits
  have notZero : 10 ^ digits.length ≠ 0 := Nat.ne_of_gt (Nat.pow_pos (by decide))
  rw [secondsUs_digits areDigits ends, if_pos (by omega), denominator_of_fits short, Word.div,
    if_neg notZero, Word.mul]
  simp only [periodDen, Bool.false_or, Bool.or_false]
  rfl

theorem secondsUs_of_fits (areDigits : ∀ ch ∈ digits, ch.isDigit = true) (ends : EndsNumber tail)
    (fits : FractionFits digits) : secondsUs (digits ++ tail) = some ⟨ticksOf digits, false⟩ := by
  rw [secondsUs_short areDigits ends fits.1, Nat.mod_eq_of_lt fits.2,
    decide_eq_false (Nat.not_le.mpr fits.2)]
  rfl

/-- Where nothing was too large, the digits are few and their number is small. -/
theorem fits_of_secondsUs (areDigits : ∀ ch ∈ digits, ch.isDigit = true) (ends : EndsNumber tail)
    {value : Nat} (isRead : secondsUs (digits ++ tail) = some ⟨value, false⟩) :
    FractionFits digits := by
  have isQuotient := isRead
  rw [secondsUs_digits areDigits ends, Word.div] at isQuotient
  split at isQuotient
  · cases isQuotient
  · have notWrapped := congrArg Word.wrapped (Option.some.inj isQuotient)
    dsimp only at notWrapped
    have short : digits.length ≤ 19 := by
      have fits := (Bool.or_eq_false_iff.mp notWrapped).2
      rw [denominator_wrapped] at fits
      exact Nat.not_lt.mp (of_decide_eq_false fits)
    rw [secondsUs_short areDigits ends short] at isRead
    have inside := congrArg Word.wrapped (Option.some.inj isRead)
    exact ⟨short, Nat.not_le.mp (of_decide_eq_false inside)⟩

/-- A product that is too large gives fewer ticks. -/
theorem ticks_lost (short : digits.length ≤ 19)
    (large : 2 ^ 64 ≤ digitsValue digits * 10 ^ 9) :
    digitsValue digits * 10 ^ 9 % 2 ^ 64 / 10 ^ digits.length < ticksOf digits := by
  have small : 10 ^ digits.length ≤ 10 ^ 19 := Nat.pow_le_pow_right (by decide) short
  have positive : 0 < 10 ^ digits.length := Nat.pow_pos (by decide)
  unfold ticksOf
  generalize digitsValue digits * 10 ^ 9 = product at large
  generalize 10 ^ digits.length = power at small positive
  have moved : product % 2 ^ 64 + power ≤ product := by omega
  have counted := Nat.div_le_div_right (c := power) moved
  rw [Nat.add_div_right _ positive] at counted
  omega

theorem ticksOf_lt (areDigits : ∀ ch ∈ digits, ch.isDigit = true) : ticksOf digits < 10 ^ 9 := by
  unfold ticksOf
  rw [Nat.div_lt_iff_lt_mul (Nat.pow_pos (by decide)), Nat.mul_comm (10 ^ 9)]
  exact Nat.mul_lt_mul_of_pos_right (digitsValue_lt areDigits) (by decide)

end

/-!
## The instant
-/

/-- A date and time with a fraction of so many digits. -/
structure FractionText (calendar : Calendar) where
  text : Text
  tm : calendar.Tm
  digits : Text
  tail : Text
  isRead : calendar.strptime (text.takeWhile (· ≠ '\x00')) = some (tm, '.' :: (digits ++ tail))
  areDigits : ∀ ch ∈ digits, ch.isDigit = true
  ends : EndsNumber tail

section

variable {calendar : Calendar}

def FractionText.instant (time : FractionText calendar) : Int :=
  calendar.timegm time.tm * 10 ^ 9 + ticksOf time.digits

/-- The clock can show the instant. -/
def FractionText.InClock (time : FractionText calendar) : Prop :=
  -2 ^ 63 ≤ calendar.timegm time.tm * 10 ^ 9 ∧ time.instant < 2 ^ 63

theorem iso8601ToTimestamp_eq (time : FractionText calendar) :
    iso8601ToTimestamp calendar time.text =
      (signed 64 (calendar.timegm time.tm * 10 ^ 9)).bind fun timestamp =>
        (secondsUs (time.digits ++ time.tail)).bind fun ticks =>
          (signed 64 (timestamp + Int.bmod ticks.value (2 ^ 64))).bind fun timestamp =>
            some ⟨timestamp, ticks.wrapped⟩ := by
  unfold iso8601ToTimestamp
  rw [time.isRead]
  rfl

/-- Few ticks are the same in a signed word. -/
theorem bmod_ticks {value : Nat} (small : value < 10 ^ 9) :
    Int.bmod value (2 ^ 64) = value :=
  Int.bmod_eq_of_le (by omega) (by omega)

theorem read_of_fits (time : FractionText calendar) (inClock : time.InClock)
    (fits : FractionFits time.digits) :
    iso8601ToTimestamp calendar time.text = some ⟨time.instant, false⟩ := by
  have small := ticksOf_lt time.areDigits
  have ⟨notBelow, notAbove⟩ := inClock
  unfold FractionText.instant at notAbove
  rw [iso8601ToTimestamp_eq, signed_of_fits (by omega), Option.bind_some,
    secondsUs_of_fits time.areDigits time.ends fits, Option.bind_some, bmod_ticks small,
    signed_of_fits (by omega)]
  rfl

/-- What is read comes from a time that fits a word, and ticks. -/
theorem exists_ticks (time : FractionText calendar) {reading : Reading}
    (isRead : iso8601ToTimestamp calendar time.text = some reading) :
    ∃ ticks, secondsUs (time.digits ++ time.tail) = some ticks ∧
      reading = ⟨calendar.timegm time.tm * 10 ^ 9 + Int.bmod ticks.value (2 ^ 64), ticks.wrapped⟩ ∧
      -2 ^ 63 ≤ calendar.timegm time.tm * 10 ^ 9 ∧ reading.timestamp < 2 ^ 63 := by
  have signed_some {value given : Int} (isSome : signed 64 value = some given) :
      given = value ∧ -2 ^ 63 ≤ value ∧ value < 2 ^ 63 := by
    unfold signed at isSome
    split at isSome
    · next fits => cases isSome; exact ⟨rfl, fits⟩
    · cases isSome
  rw [iso8601ToTimestamp_eq] at isRead
  obtain ⟨seconds, isSeconds, isRead⟩ := Option.bind_eq_some_iff.mp isRead
  obtain ⟨ticks, isTicks, isRead⟩ := Option.bind_eq_some_iff.mp isRead
  obtain ⟨sum, isSum, isReading⟩ := Option.bind_eq_some_iff.mp isRead
  cases isReading
  obtain ⟨rfl, notBelow, -⟩ := signed_some isSeconds
  obtain ⟨rfl, -, notAbove⟩ := signed_some isSum
  exact ⟨ticks, isTicks, rfl, notBelow, notAbove⟩

theorem read_iff_fits (time : FractionText calendar) :
    iso8601ToTimestamp calendar time.text = some ⟨time.instant, false⟩ ↔
      time.InClock ∧ FractionFits time.digits := by
  constructor
  · intro isRead
    obtain ⟨ticks, isTicks, isReading, notBelow, notAbove⟩ := exists_ticks time isRead
    have notWrapped : false = ticks.wrapped := congrArg Reading.wrapped isReading
    refine ⟨⟨notBelow, notAbove⟩, @fits_of_secondsUs _ time.tail time.areDigits time.ends
      ticks.value ?_⟩
    rw [isTicks, notWrapped]
  · exact fun ⟨inClock, fits⟩ => read_of_fits time inClock fits

/-- Up to nineteen digits, an instant that is right was read without a number too large. -/
theorem short_read_iff_fits (time : FractionText calendar) (short : time.digits.length ≤ 19) :
    (∃ wrapped, iso8601ToTimestamp calendar time.text = some ⟨time.instant, wrapped⟩) ↔
      time.InClock ∧ FractionFits time.digits := by
  constructor
  · rintro ⟨wrapped, isRead⟩
    obtain ⟨ticks, isTicks, isReading, notBelow, notAbove⟩ := exists_ticks time isRead
    refine ⟨⟨notBelow, notAbove⟩, short, ?_⟩
    by_contra tooLarge
    have lost := ticks_lost short (Nat.not_lt.mp tooLarge)
    have small := ticksOf_lt time.areDigits
    rw [secondsUs_short time.areDigits time.ends short] at isTicks
    cases isTicks
    have isInstant : time.instant = _ := congrArg Reading.timestamp isReading
    dsimp only at isInstant
    rw [bmod_ticks (Nat.lt_trans lost small), FractionText.instant] at isInstant
    omega
  · exact fun ⟨inClock, fits⟩ => ⟨false, read_of_fits time inClock fits⟩

end

/-!
## What was written
-/

theorem digitsValue_leftpad (width n : Nat) :
    digitsValue (List.leftpad width '0' (Nat.toDigits 10 n)) = n := by
  unfold digitsValue List.leftpad
  rw [Nat.ofDigitChars_append, Nat.ofDigitChars_replicate_zero, Nat.mul_zero,
    Nat.ofDigitChars_ten_toDigits]

theorem isDigit_of_mem_leftpad {width n : Nat} {ch : Char}
    (member : ch ∈ List.leftpad width '0' (Nat.toDigits 10 n)) : ch.isDigit = true := by
  cases List.mem_append.mp member with
  | inl isZero =>
      rw [(List.mem_replicate.mp isZero).2]
      rfl
  | inr isDigit => exact isDigit_of_mem_toDigits isDigit

theorem length_leftpad {width n : Nat} (positive : 0 < width) (small : n < 10 ^ width) :
    (List.leftpad width '0' (Nat.toDigits 10 n)).length = width := by
  have fits := (Nat.length_toDigits_le_iff (by decide) positive).mpr small
  rw [List.leftpad, List.length_append, List.length_replicate, Nat.sub_add_cancel fits]

section

variable {calendar : Calendar}

/-- The text of a time with these seconds and microseconds. -/
def writtenTime (calendar : Calendar) (seconds micros : Nat) : Text :=
  calendar.strftime (calendar.gmtime seconds) ++
    '.' :: (List.leftpad 6 '0' (Nat.toDigits 10 micros) ++ ['Z'])

theorem getIso8601FracformatTime_eq (calendar : Calendar) {seconds micros : Nat}
    (small : micros < 10 ^ 6) :
    getIso8601FracformatTime calendar ((seconds : Int) * 10 ^ 9 + micros * 1000) =
      writtenTime calendar seconds micros := by
  have isSeconds : Int.tdiv ((seconds : Int) * 10 ^ 9 + micros * 1000) (periodDen : Int) =
      (seconds : Int) := by
    rw [Int.tdiv_eq_ediv_of_nonneg (by omega)]
    unfold periodDen
    omega
  have isRest : (seconds : Int) * 10 ^ 9 + micros * 1000 - seconds * (periodDen : Int) =
      micros * 1000 := by
    unfold periodDen
    omega
  have isMicros : Int.tdiv ((micros : Int) * 1000) ((periodDen / 1000000 : Nat) : Int) =
      (micros : Int) :=
    Int.mul_tdiv_cancel _ (by decide)
  unfold getIso8601FracformatTime
  dsimp only
  rw [isSeconds, isRest, isMicros]
  rfl

theorem nul_notMem_writtenTime (lawful : calendar.Lawful) (seconds micros : Nat) :
    '\x00' ∉ writtenTime calendar seconds micros := by
  intro member
  cases List.mem_append.mp member with
  | inl inDate => exact lawful.isText _ inDate
  | inr inFraction =>
      cases inFraction with
      | tail _ inDigits =>
          cases List.mem_append.mp inDigits with
          | inl isDigit => exact absurd (isDigit_of_mem_leftpad isDigit) (by decide)
          | inr isLast => exact absurd isLast (by decide)

theorem read_written (lawful : calendar.Lawful) {time : Int} (nonneg : 0 ≤ time)
    (inClock : time < 2 ^ 63) (micro : time % 1000 = 0) :
    iso8601ToTimestamp calendar (getIso8601FracformatTime calendar time) = some ⟨time, false⟩ := by
  obtain ⟨seconds, micros, small, rfl⟩ : ∃ seconds micros : Nat, micros < 10 ^ 6 ∧
      time = seconds * 10 ^ 9 + micros * 1000 :=
    ⟨(time / 10 ^ 9).toNat, (time % 10 ^ 9 / 1000).toNat, by omega, by omega⟩
  obtain ⟨tm, isRead, isTime⟩ := lawful.reads seconds (by omega) (by omega)
    (List.leftpad 6 '0' (Nat.toDigits 10 micros) ++ ['Z'])
  have noNul : (writtenTime calendar seconds micros).takeWhile (· ≠ '\x00') =
      writtenTime calendar seconds micros := by
    refine List.takeWhile_eq_self_iff.mpr fun ch member => decide_eq_true fun isNul => ?_
    exact nul_notMem_writtenTime lawful seconds micros (isNul ▸ member)
  let written : FractionText calendar :=
    { text := writtenTime calendar seconds micros
      tm := tm
      digits := List.leftpad 6 '0' (Nat.toDigits 10 micros)
      tail := ['Z']
      isRead := by rw [noNul]; exact isRead
      areDigits := fun ch member => isDigit_of_mem_leftpad member
      ends := by intro ch isFirst; cases isFirst; decide }
  have isLength : written.digits.length = 6 := length_leftpad (by decide) small
  have isValue : digitsValue written.digits = micros := digitsValue_leftpad 6 micros
  have isTicks : ticksOf written.digits = micros * 1000 := by
    unfold ticksOf
    rw [isLength, isValue]
    omega
  have isInstant : written.instant = (seconds : Int) * 10 ^ 9 + micros * 1000 := by
    unfold FractionText.instant
    rw [isTicks, show calendar.timegm written.tm = seconds from isTime]
    omega
  have fits : FractionFits written.digits := by
    unfold FractionFits
    rw [isLength, isValue]
    omega
  have inClock : written.InClock := by
    unfold FractionText.InClock
    rw [isInstant, show calendar.timegm written.tm = seconds from isTime]
    omega
  rw [getIso8601FracformatTime_eq calendar small, ← isInstant]
  exact read_of_fits written inClock fits

end

/-- A time with microseconds is read as it was written. A fraction is cut to the ticks of the
clock, without a number that is too large, exactly if the clock has the instant, and the digits
are no more than nineteen and their number below the largest one with the ticks of a second. -/
theorem iso8601_timestamps {calendar : Calendar} (lawful : calendar.Lawful) :
    (∀ time : Int, 0 ≤ time → time < 2 ^ 63 → time % 1000 = 0 →
      iso8601ToTimestamp calendar (getIso8601FracformatTime calendar time) =
        some ⟨time, false⟩) ∧
    ∀ time : FractionText calendar,
      (iso8601ToTimestamp calendar time.text = some ⟨time.instant, false⟩ ↔
        time.InClock ∧ FractionFits time.digits) ∧
      (time.digits.length ≤ 19 →
        ((∃ wrapped, iso8601ToTimestamp calendar time.text = some ⟨time.instant, wrapped⟩) ↔
          time.InClock ∧ FractionFits time.digits)) :=
  ⟨fun _ => read_written lawful, fun time => ⟨read_iff_fits time, short_read_iff_fits time⟩⟩

def sampleSecond : Int := 1567444337

def sampleDate : Text := "2019-09-02T17:12:17".toList

/-- A calendar that knows the date of one second and writes the number of any other. -/
def sampleCalendar : Calendar where
  Tm := Int
  gmtime := id
  timegm := id
  strftime seconds := if seconds = sampleSecond then sampleDate else 's' :: printInt seconds
  strptime text :=
    if sampleDate.isPrefixOf text then some (sampleSecond, text.drop sampleDate.length)
    else
      match text with
      | 's' :: number => scanInt number
      | _ => none

theorem sampleCalendar_lawful : sampleCalendar.Lawful := by
  constructor
  · intro seconds _ _ rest
    refine ⟨seconds, ?_, rfl⟩
    by_cases isSample : seconds = sampleSecond
    · rw [isSample]
      rfl
    · have stops : StopsDigits ('.' :: rest) := by
        intro ch isFirst
        cases isFirst
        rfl
      have isScanned := scanInt_printInt seconds stops
      simp only [sampleCalendar, id, if_neg isSample]
      exact isScanned
  · intro seconds member
    simp only [sampleCalendar] at member
    split at member
    · exact absurd member (by decide)
    · cases member with
      | tail _ inNumber => exact notMem_printInt (by decide) (by decide) inNumber

/-- Seven digits, as some hosts send them. -/
def sampleTime : FractionText sampleCalendar where
  text := "2019-09-02T17:12:17.8747771Z".toList
  tm := sampleSecond
  digits := "8747771".toList
  tail := ['Z']
  isRead := rfl
  areDigits := List.all_iff_forall_prop.mp (by decide)
  ends := by intro ch isFirst; cases isFirst; decide

theorem iso8601_timestamps_sample :
    iso8601ToTimestamp sampleCalendar
        (getIso8601FracformatTime sampleCalendar 1567444337874777000) =
      some ⟨1567444337874777000, false⟩ ∧
    (iso8601ToTimestamp sampleCalendar sampleTime.text = some ⟨sampleTime.instant, false⟩ ↔
      sampleTime.InClock ∧ FractionFits sampleTime.digits) :=
  ⟨(iso8601_timestamps sampleCalendar_lawful).1 1567444337874777000 (by decide) (by decide)
    (by decide), ((iso8601_timestamps sampleCalendar_lawful).2 sampleTime).1⟩

/-- Eleven digits whose number is too large for the ticks: two tenths of a second are lost. -/
theorem iso8601_fraction_wraps :
    iso8601ToTimestamp sampleCalendar "2019-09-02T17:12:17.20000000000Z".toList =
        some ⟨1567444337015532559, true⟩ ∧
      (1567444337015532559 : Int) ≠ sampleSecond * 10 ^ 9 + ticksOf "20000000000".toList := by
  decide

end FreeOnline.Common.Timestamps
