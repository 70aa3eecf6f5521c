import FreeOnline.Library.Text

/-!
# UTF-16

Texts as code units, and the text that code units stand for, where a surrogate without its other
half becomes a replacement character.
-/

set_option autoImplicit false

namespace FreeOnline.Library.Utf16

def encodeChar (ch : Char) : List UInt16 :=
  if ch.toNat < 0x10000 then [UInt16.ofNat ch.toNat]
  else
    [UInt16.ofNat (0xd800 + (ch.toNat - 0x10000) / 0x400),
      UInt16.ofNat (0xdc00 + (ch.toNat - 0x10000) % 0x400)]

def encode (text : Text) : List UInt16 := text.flatMap encodeChar

def isLead (unit : UInt16) : Bool := 0xd800 ≤ unit.toNat && unit.toNat < 0xdc00

def isTrail (unit : UInt16) : Bool := 0xdc00 ≤ unit.toNat && unit.toNat < 0xe000

/-- The character of two halves. -/
def pairChar (lead trail : UInt16) : Char :=
  Char.ofNat (0x10000 + (lead.toNat - 0xd800) * 0x400 + (trail.toNat - 0xdc00))

/-- The character of a unit that is no half of one. -/
def unitChar (unit : UInt16) : Char :=
  if isLead unit || isTrail unit then '\uFFFD' else Char.ofNat unit.toNat

def decode : List UInt16 → Text
  | [] => []
  | [unit] => [unitChar unit]
  | unit :: next :: rest =>
      if isLead unit && isTrail next then pairChar unit next :: decode rest
      else unitChar unit :: decode (next :: rest)

/-- No surrogate stands alone. -/
def isWellFormed : List UInt16 → Bool
  | [] => true
  | [unit] => !(isLead unit || isTrail unit)
  | unit :: next :: rest =>
      if isLead unit && isTrail next then isWellFormed rest
      else !(isLead unit || isTrail unit) && isWellFormed (next :: rest)

theorem encode_cons (ch : Char) (text : Text) : encode (ch :: text) = encodeChar ch ++ encode text :=
  rfl

/-!
## Texts survive
-/

section

variable {ch : Char} {unit : UInt16} {units : List UInt16}

theorem toNat_ofNat {n : Nat} (small : n < 0x10000) : (UInt16.ofNat n).toNat = n :=
  UInt16.toNat_ofNat_of_lt' small

theorem toNat_bounds (ch : Char) :
    ch.toNat < 0xd800 ∨ 0xe000 ≤ ch.toNat ∧ ch.toNat < 0x110000 := by
  have isValid := ch.valid
  simp only [UInt32.isValidChar, Nat.isValidChar] at isValid
  change ch.val.toNat < 0xd800 ∨ 0xe000 ≤ ch.val.toNat ∧ ch.val.toNat < 0x110000
  omega

/-- Behind a unit that is not the first half of a character. -/
theorem decode_unit (notLead : isLead unit = false) (units : List UInt16) :
    decode (unit :: units) = unitChar unit :: decode units := by
  cases units with
  | nil => rfl
  | cons next rest => rw [decode, notLead, Bool.false_and, if_neg Bool.false_ne_true]

theorem decode_encodeChar (ch : Char) (units : List UInt16) :
    decode (encodeChar ch ++ units) = ch :: decode units := by
  have bounds := toNat_bounds ch
  unfold encodeChar
  split
  · next small =>
      have isUnit : (UInt16.ofNat ch.toNat).toNat = ch.toNat := toNat_ofNat small
      have notLead : isLead (UInt16.ofNat ch.toNat) = false := by
        simp only [isLead, isUnit, Bool.and_eq_false_iff, decide_eq_false_iff_not]
        omega
      have notTrail : isTrail (UInt16.ofNat ch.toNat) = false := by
        simp only [isTrail, isUnit, Bool.and_eq_false_iff, decide_eq_false_iff_not]
        omega
      rw [List.singleton_append, decode_unit notLead, unitChar, notLead, notTrail, Bool.or_false,
        if_neg Bool.false_ne_true, isUnit, Char.ofNat_toNat]
  · next large =>
      have lead := @toNat_ofNat (0xd800 + (ch.toNat - 0x10000) / 0x400) (by omega)
      have trail := @toNat_ofNat (0xdc00 + (ch.toNat - 0x10000) % 0x400) (by omega)
      have isPair : (isLead (UInt16.ofNat (0xd800 + (ch.toNat - 0x10000) / 0x400)) &&
          isTrail (UInt16.ofNat (0xdc00 + (ch.toNat - 0x10000) % 0x400))) = true := by
        simp only [isLead, isTrail, lead, trail, Bool.and_eq_true, decide_eq_true_eq]
        omega
      have isSum : 0x10000 + (0xd800 + (ch.toNat - 0x10000) / 0x400 - 0xd800) * 0x400 +
          (0xdc00 + (ch.toNat - 0x10000) % 0x400 - 0xdc00) = ch.toNat := by omega
      rw [List.cons_append, List.singleton_append, decode, if_pos isPair, pairChar, lead, trail,
        isSum, Char.ofNat_toNat]

theorem decode_encode (text : Text) : decode (encode text) = text := by
  induction text with
  | nil => rfl
  | cons ch text ih => rw [encode_cons, decode_encodeChar, ih]

/-!
## Small units
-/

theorem toNat_unitChar (notHalf : (isLead unit || isTrail unit) = false) :
    (unitChar unit).toNat = unit.toNat := by
  have bound : unit.toNat < 0x10000 := unit.toNat_lt
  have isValid : unit.toNat.isValidChar := by
    simp only [isLead, isTrail, Bool.or_eq_false_iff, Bool.and_eq_false_iff,
      decide_eq_false_iff_not] at notHalf
    rw [Nat.isValidChar]
    omega
  rw [unitChar, notHalf, if_neg Bool.false_ne_true, toNat_charOfNat isValid]

theorem le_toNat_of_half (isHalf : (isLead unit || isTrail unit) = true) : 0xd800 ≤ unit.toNat := by
  simp only [isLead, isTrail, Bool.or_eq_true, Bool.and_eq_true, decide_eq_true_eq] at isHalf
  omega

theorem toNat_pairChar {lead trail : UInt16} (isPair : (isLead lead && isTrail trail) = true) :
    (pairChar lead trail).toNat =
      0x10000 + (lead.toNat - 0xd800) * 0x400 + (trail.toNat - 0xdc00) := by
  simp only [isLead, isTrail, Bool.and_eq_true, decide_eq_true_eq] at isPair
  have isValid : (0x10000 + (lead.toNat - 0xd800) * 0x400 + (trail.toNat - 0xdc00)).isValidChar := by
    rw [Nat.isValidChar]
    omega
  rw [pairChar, toNat_charOfNat isValid]

theorem le_toNat_pairChar {lead trail : UInt16} (isPair : (isLead lead && isTrail trail) = true) :
    0x10000 ≤ (pairChar lead trail).toNat := by
  rw [toNat_pairChar isPair, Nat.add_assoc]
  exact Nat.le_add_right _ _

private theorem le_unitChar_iff {bound : Nat} (low : bound ≤ 0xd800) (unit : UInt16) :
    bound ≤ (unitChar unit).toNat ↔ bound ≤ unit.toNat := by
  cases isHalf : isLead unit || isTrail unit with
  | false => rw [toNat_unitChar isHalf]
  | true =>
      have isUnit := le_toNat_of_half isHalf
      have isReplacement : (unitChar unit).toNat = 0xfffd := by
        rw [unitChar, isHalf, if_pos rfl]
        rfl
      omega

/-- A bound below the surrogates holds of the units and of the characters alike. -/
theorem forall_le_decode_iff {bound : Nat} (low : bound ≤ 0xd800) (units : List UInt16) :
    (∀ ch ∈ decode units, bound ≤ ch.toNat) ↔ ∀ unit ∈ units, bound ≤ unit.toNat := by
  induction units using decode.induct with
  | case1 => exact ⟨fun _ => nofun, fun _ => nofun⟩
  | case2 unit =>
      rw [decode, List.forall_mem_singleton, List.forall_mem_singleton, le_unitChar_iff low]
  | case3 unit next rest isPair ih =>
      rw [decode, if_pos isPair, List.forall_mem_cons, List.forall_mem_cons, List.forall_mem_cons, ih]
      have isChar := le_toNat_pairChar isPair
      rw [Bool.and_eq_true] at isPair
      have isUnit := le_toNat_of_half (Bool.or_eq_true_iff.mpr (.inl isPair.1))
      have isNext := le_toNat_of_half (Bool.or_eq_true_iff.mpr (.inr isPair.2))
      constructor
      · intro inside
        exact ⟨by omega, by omega, inside.2⟩
      · intro inside
        exact ⟨by omega, inside.2.2⟩
  | case4 unit next rest notPair ih =>
      rw [decode, if_neg notPair, List.forall_mem_cons, ih, List.forall_mem_cons (a := unit),
        le_unitChar_iff low]

/-- The first character, where two units or a replacement do not make it. -/
theorem head?_decode_iff (ch : Char) (small : ch.toNat < 0x10000) (notReplacement : ch ≠ '\uFFFD') :
    (decode units).head? = some ch ↔ units.head? = some (UInt16.ofNat ch.toNat) := by
  have isUnit (unit : UInt16) : unitChar unit = ch ↔ unit = UInt16.ofNat ch.toNat := by
    constructor
    · intro same
      cases isHalf : isLead unit || isTrail unit with
      | false =>
          rw [← same, toNat_unitChar isHalf, UInt16.ofNat_toNat]
      | true =>
          rw [unitChar, isHalf, if_pos rfl] at same
          exact absurd same.symm notReplacement
    · rintro rfl
      have decoded := decode_encodeChar ch []
      rw [encodeChar, if_pos small] at decoded
      exact (List.cons.inj decoded).1
  cases units with
  | nil => exact ⟨nofun, nofun⟩
  | cons unit units =>
      cases units with
      | nil => rw [decode, List.head?_cons, List.head?_cons, Option.some_inj, Option.some_inj, isUnit]
      | cons next rest =>
          rw [decode]
          split
          · next isPair =>
              have isChar := le_toNat_pairChar isPair
              rw [Bool.and_eq_true] at isPair
              rw [List.head?_cons, List.head?_cons, Option.some_inj, Option.some_inj, ← isUnit]
              constructor
              · rintro rfl
                exact absurd small (Nat.not_lt_of_le isChar)
              · intro same
                rw [unitChar, isPair.1, Bool.true_or, if_pos rfl] at same
                exact absurd same.symm notReplacement
          · rw [List.head?_cons, List.head?_cons, Option.some_inj, Option.some_inj, isUnit]

/-!
## Units that survive
-/

theorem encodeChar_unitChar (unit : UInt16) :
    encodeChar (unitChar unit) = [if isLead unit || isTrail unit then 0xfffd else unit] := by
  cases isHalf : isLead unit || isTrail unit with
  | false =>
      rw [encodeChar, toNat_unitChar isHalf, if_pos unit.toNat_lt, UInt16.ofNat_toNat,
        if_neg Bool.false_ne_true]
  | true =>
      rw [unitChar, isHalf, if_pos rfl, if_pos rfl]
      rfl

theorem encodeChar_pairChar {lead trail : UInt16} (isPair : (isLead lead && isTrail trail) = true) :
    encodeChar (pairChar lead trail) = [lead, trail] := by
  have isChar := toNat_pairChar isPair
  have large := le_toNat_pairChar isPair
  simp only [isLead, isTrail, Bool.and_eq_true, decide_eq_true_eq] at isPair
  have isFirst : 0xd800 + ((pairChar lead trail).toNat - 0x10000) / 0x400 = lead.toNat := by omega
  have isSecond : 0xdc00 + ((pairChar lead trail).toNat - 0x10000) % 0x400 = trail.toNat := by omega
  rw [encodeChar, if_neg (Nat.not_lt_of_le large), isFirst, isSecond, UInt16.ofNat_toNat,
    UInt16.ofNat_toNat]

private theorem kept_iff (unit : UInt16) :
    (if isLead unit || isTrail unit then 0xfffd else unit) = unit ↔
      (!(isLead unit || isTrail unit)) = true := by
  cases isHalf : isLead unit || isTrail unit with
  | false => exact ⟨fun _ => rfl, fun _ => rfl⟩
  | true =>
      rw [if_pos rfl]
      constructor
      · rintro rfl
        exact absurd isHalf (by decide)
      · nofun

theorem encode_decode_iff (units : List UInt16) :
    encode (decode units) = units ↔ isWellFormed units = true := by
  induction units using decode.induct with
  | case1 => exact ⟨fun _ => rfl, fun _ => rfl⟩
  | case2 unit =>
      rw [decode, encode_cons, encodeChar_unitChar, isWellFormed, ← kept_iff]
      exact ⟨fun same => (List.cons.inj same).1, fun same => congrArg (fun unit => [unit]) same⟩
  | case3 unit next rest isPair ih =>
      rw [decode, if_pos isPair, encode_cons, encodeChar_pairChar isPair, isWellFormed, if_pos isPair,
        ← ih, List.cons_append, List.singleton_append, List.cons_inj_right, List.cons_inj_right]
  | case4 unit next rest notPair ih =>
      rw [decode, if_neg notPair, encode_cons, encodeChar_unitChar, isWellFormed, if_neg notPair,
        Bool.and_eq_true, ← ih, ← kept_iff, List.singleton_append, List.cons.injEq]

end

end FreeOnline.Library.Utf16
