import FreeOnline.Library.Hex
import FreeOnline.Library.Utf8
import Mathlib.Data.Bool.AllAny

/-!
# Bytes as hexadecimal digits

Bytes are written without padding and read in pairs of digits: below 16 they are lost. Reading
what was written of a text never gives the text then, not even where replacement characters
make up for what is lost.
-/

set_option autoImplicit false

namespace FreeOnline.Library.HexBytes

/-- A byte without padding. -/
def byteDigits (byte : UInt8) : List Nat :=
  if byte.toNat < 16 then [byte.toNat] else [byte.toNat / 16, byte.toNat % 16]

def digits (bytes : List UInt8) : List Nat := bytes.flatMap byteDigits

/-- Pairs of digits as bytes; a last digit alone is left out. -/
def pairs : List Nat → List UInt8
  | [] => []
  | [_] => []
  | first :: second :: rest => UInt8.ofNat (16 * first + second) :: pairs rest

/-- Whether each byte takes two digits. -/
def Padded (bytes : List UInt8) : Prop := ∀ byte ∈ bytes, 16 ≤ byte.toNat

instance (bytes : List UInt8) : Decidable (Padded bytes) :=
  inferInstanceAs (Decidable (∀ byte ∈ bytes, 16 ≤ byte.toNat))

section

variable {byte : UInt8} {bytes : List UInt8}

theorem write_toNat (byte : UInt8) : Hex.write byte.toNat = (byteDigits byte).map Hex.digitCode := by
  unfold Hex.write byteDigits
  have bound : byte.toNat < 256 := byte.toNat_lt
  by_cases zero : byte.toNat = 0
  · rw [if_pos zero, if_pos (by omega), zero]
    rfl
  · rw [if_neg zero]
    by_cases small : byte.toNat < 16
    · rw [if_pos small, Nat.digits_of_lt 16 _ zero small]
      rfl
    · have high : Nat.digits 16 (byte.toNat / 16) = [byte.toNat / 16] :=
        Nat.digits_of_lt 16 _ (by omega) (by omega)
      rw [if_neg small, Nat.digits_def' (by decide) (by omega), high]
      rfl

theorem digits_cons (byte : UInt8) (bytes : List UInt8) :
    digits (byte :: bytes) = byteDigits byte ++ digits bytes := rfl

theorem digits_append (bytes more : List UInt8) :
    digits (bytes ++ more) = digits bytes ++ digits more := List.flatMap_append

theorem digits_small (bytes : List UInt8) : ∀ digit ∈ digits bytes, digit < 16 := by
  intro digit member
  obtain ⟨byte, -, isDigit⟩ := List.mem_flatMap.mp member
  have bound : byte.toNat < 256 := byte.toNat_lt
  unfold byteDigits at isDigit
  split at isDigit
  · rw [List.mem_singleton] at isDigit
    omega
  · rcases List.mem_pair.mp isDigit with isDigit | isDigit
    · omega
    · omega

/-!
## Lengths
-/

theorem length_pairs (digits : List Nat) : (pairs digits).length = digits.length / 2 := by
  induction digits using pairs.induct with
  | case1 => rfl
  | case2 first => rw [pairs, List.length_nil, List.length_singleton]
  | case3 first second rest ih =>
      rw [pairs, List.length_cons, ih, List.length_cons, List.length_cons]
      omega

theorem length_byteDigits (byte : UInt8) :
    (byteDigits byte).length = if byte.toNat < 16 then 1 else 2 := by
  unfold byteDigits
  split
  · rfl
  · rfl

theorem length_digits_le (bytes : List UInt8) : (digits bytes).length ≤ 2 * bytes.length := by
  induction bytes with
  | nil => exact Nat.le_refl _
  | cons byte bytes ih =>
      rw [digits_cons, List.length_append, length_byteDigits, List.length_cons]
      split
      · omega
      · omega

theorem length_digits_lt (notPadded : ¬Padded bytes) : (digits bytes).length < 2 * bytes.length := by
  induction bytes with
  | nil => exact absurd (List.forall_mem_nil _) notPadded
  | cons byte bytes ih =>
      rw [digits_cons, List.length_append, length_byteDigits, List.length_cons]
      have others := length_digits_le bytes
      by_cases small : byte.toNat < 16
      · rw [if_pos small]
        omega
      · have shorter := ih fun padded => notPadded
          (List.forall_mem_cons.mpr ⟨Nat.le_of_not_lt small, padded⟩)
        rw [if_neg small]
        omega

theorem length_digits_padded (padded : Padded bytes) : (digits bytes).length = 2 * bytes.length := by
  induction bytes with
  | nil => rfl
  | cons byte bytes ih =>
      obtain ⟨large, padded⟩ := List.forall_mem_cons.mp padded
      rw [digits_cons, List.length_append, length_byteDigits, List.length_cons, ih padded,
        if_neg (Nat.not_lt_of_le large)]
      omega

/-!
## Bytes that take two digits
-/

theorem pairs_byteDigits (large : 16 ≤ byte.toNat) (rest : List Nat) :
    pairs (byteDigits byte ++ rest) = byte :: pairs rest := by
  have isSum : 16 * (byte.toNat / 16) + byte.toNat % 16 = byte.toNat := Nat.div_add_mod _ _
  rw [byteDigits, if_neg (Nat.not_lt_of_le large), List.cons_append, List.singleton_append, pairs,
    isSum, UInt8.ofNat_toNat]

theorem pairs_digits_append (padded : Padded bytes) (rest : List Nat) :
    pairs (digits bytes ++ rest) = bytes ++ pairs rest := by
  induction bytes with
  | nil => rfl
  | cons byte bytes ih =>
      obtain ⟨large, padded⟩ := List.forall_mem_cons.mp padded
      rw [digits_cons, List.append_assoc, pairs_byteDigits large, ih padded, List.cons_append]

theorem pairs_digits (padded : Padded bytes) : pairs (digits bytes) = bytes := by
  have whole := pairs_digits_append padded []
  rw [List.append_nil] at whole
  exact whole.trans (List.append_nil bytes)

theorem pairs_digits_eq_iff (bytes : List UInt8) : pairs (digits bytes) = bytes ↔ Padded bytes := by
  constructor
  · intro same
    by_contra notPadded
    have shorter := length_digits_lt notPadded
    have sameLength := congrArg List.length same
    rw [length_pairs] at sameLength
    omega
  · exact pairs_digits

/-- Of the pairs behind some digits, at most one of these digits is a part. -/
theorem exists_pairs_append (digits : List Nat) :
    ∃ front last, last.length ≤ 1 ∧ ∀ rest, pairs (digits ++ rest) = front ++ pairs (last ++ rest) := by
  induction digits using pairs.induct with
  | case1 => exact ⟨[], [], Nat.zero_le _, fun rest => rfl⟩
  | case2 first => exact ⟨[], [first], Nat.le_refl _, fun rest => rfl⟩
  | case3 first second digits ih =>
      obtain ⟨front, last, short, isPairs⟩ := ih
      refine ⟨UInt8.ofNat (16 * first + second) :: front, last, short, ?_⟩
      intro rest
      rw [List.cons_append, List.cons_append, pairs, isPairs, List.cons_append]
/-!
## Replacement characters
-/

/-- How much of a replacement character the bytes at the front stand for: a fourth for each. A
digit that is lost can make two bytes 0xfb of its encoding. -/
def mark (byte : UInt8) (rest : List UInt8) : Nat :=
  if byte = 0xfb then 2 else if byte = 0xef ∧ rest.take 2 = [0xbf, 0xbd] then 4 else 0

def marks : List UInt8 → Nat
  | [] => 0
  | byte :: rest => mark byte rest + marks rest

theorem marks_le_append (front bytes : List UInt8) : marks bytes ≤ marks (front ++ bytes) := by
  induction front with
  | nil => exact Nat.le_refl _
  | cons byte front ih => exact Nat.le_trans ih (Nat.le_add_left _ _)

private theorem mark_continuation (isContinuation : Utf8.isContinuation byte = true)
    (rest : List UInt8) : mark byte rest = 0 := by
  rw [mark, if_neg, if_neg]
  · rintro ⟨rfl, -⟩
    exact absurd isContinuation (by decide)
  · rintro rfl
    exact absurd isContinuation (by decide)

theorem marks_continuations {front : List UInt8}
    (areContinuations : ∀ byte ∈ front, Utf8.isContinuation byte = true) (bytes : List UInt8) :
    marks (front ++ bytes) = marks bytes := by
  induction front with
  | nil => rfl
  | cons byte front ih =>
      obtain ⟨isContinuation, areContinuations⟩ := List.forall_mem_cons.mp areContinuations
      rw [List.cons_append, marks, mark_continuation isContinuation, ih areContinuations,
        Nat.zero_add]

theorem utf8EncodeChar_replacement : String.utf8EncodeChar '\uFFFD' = [0xef, 0xbf, 0xbd] := by decide

private theorem eq_of_isReplacement {first : UInt8} {rest : List UInt8}
    (isReplacement : first = 0xef ∧ rest.take 2 = [0xbf, 0xbd]) :
    first :: rest = String.utf8EncodeChar '\uFFFD' ++ rest.drop 2 := by
  rw [utf8EncodeChar_replacement, isReplacement.1]
  conv => lhs; rw [← List.take_append_drop 2 rest, isReplacement.2]
  rfl

theorem marks_utf8EncodeChar (ch : Char) (bytes : List UInt8) :
    marks (String.utf8EncodeChar ch ++ bytes) = (if ch = '\uFFFD' then 4 else 0) + marks bytes := by
  by_cases isReplacement : ch = '\uFFFD'
  · rw [if_pos isReplacement, isReplacement, utf8EncodeChar_replacement]
    have others := @marks_continuations [0xbf, 0xbd] (List.all_iff_forall_prop.mp (by decide)) bytes
    rw [List.cons_append, marks, others, mark, if_neg (by decide), if_pos ⟨rfl, rfl⟩]
  · obtain ⟨first, rest, isEncoded, notMark, areContinuations⟩ := Utf8.exists_utf8EncodeChar ch
    rw [if_neg isReplacement, Nat.zero_add, isEncoded, List.cons_append, marks, mark, if_neg notMark,
      if_neg, Nat.zero_add, marks_continuations areContinuations]
    intro inFront
    have same := eq_of_isReplacement inFront
    rw [← List.cons_append, ← isEncoded] at same
    exact isReplacement (Utf8.eq_of_utf8EncodeChar_append same)

/-- A replacement character takes three bytes, and stands for at least one and at most two marks. -/
theorem marks_error (noChar : bytes.toByteArray.utf8DecodeChar? 0 = none) (notEmpty : bytes ≠ []) :
    marks bytes ≤ 2 + marks (bytes.drop (Utf8.errorLength bytes)) ∧
      1 ≤ Utf8.errorLength bytes := by
  cases bytes with
  | nil => exact absurd rfl notEmpty
  | cons first rest =>
      obtain ⟨count, isLength, areContinuations⟩ := Utf8.exists_errorLength first rest
      have others := marks_continuations areContinuations (rest.drop count)
      rw [List.take_append_drop] at others
      have isMark : mark first rest ≤ 2 := by
        unfold mark
        split
        · exact Nat.le_refl _
        · rw [if_neg]
          · exact Nat.zero_le _
          · intro isReplacement
            rw [eq_of_isReplacement isReplacement, Utf8.utf8DecodeChar?_append] at noChar
            cases noChar
      rw [isLength, List.drop_succ_cons, marks, others]
      exact ⟨Nat.add_le_add_right isMark _, Nat.le_add_left _ _⟩

/-- What is decoded is longer than the bytes only for its replacement characters. -/
theorem length_decodeFor {fuel : Nat} (enough : bytes.length ≤ fuel) :
    (Utf8.encode (Utf8.decodeFor fuel bytes)).length + marks bytes ≤
      bytes.length + 4 * (Utf8.decodeFor fuel bytes).count '\uFFFD' := by
  induction fuel generalizing bytes with
  | zero =>
      rw [List.eq_nil_of_length_eq_zero (Nat.le_zero.mp enough)]
      exact Nat.le_refl _
  | succ fuel ih =>
      cases bytes with
      | nil => exact Nat.le_refl _
      | cons byte rest =>
          rw [Utf8.decodeFor]
          · cases isFirst : (byte :: rest).toByteArray.utf8DecodeChar? 0 with
            | some ch =>
                have isBytes := Utf8.eq_of_utf8DecodeChar? isFirst
                have size := String.length_utf8EncodeChar ch
                have positive : 0 < ch.utf8Size := Char.utf8Size_pos ch
                have total := congrArg List.length isBytes
                rw [List.length_append, size] at total
                have step := @ih ((byte :: rest).drop ch.utf8Size) (by omega)
                have isMarks := marks_utf8EncodeChar ch ((byte :: rest).drop ch.utf8Size)
                rw [← isBytes] at isMarks
                dsimp only
                rw [Utf8.encode_cons, List.length_append, size, isMarks, List.count_cons]
                simp only [beq_iff_eq]
                split
                · omega
                · omega
            | none =>
                obtain ⟨isMarks, positive⟩ := marks_error isFirst (List.cons_ne_nil _ _)
                have left := List.length_drop (i := Utf8.errorLength (byte :: rest)) (l := byte :: rest)
                have total : (byte :: rest).length = rest.length + 1 := rfl
                rw [total] at left enough
                have step := @ih ((byte :: rest).drop (Utf8.errorLength (byte :: rest))) (by omega)
                dsimp only
                have three : [(0xef : UInt8), 0xbf, 0xbd].length = 3 := rfl
                rw [Utf8.encode_cons, List.length_append, utf8EncodeChar_replacement, three,
                  List.count_cons_self, total]
                omega
          · exact List.cons_ne_nil byte rest

/-!
## Texts that survive
-/

/-- Where a replacement character is written, its marks are read. -/
theorem count_le_marks (text : Text) {start : List Nat} (short : start.length ≤ 1) :
    4 * text.count '\uFFFD' ≤ marks (pairs (start ++ digits (Utf8.encode text))) := by
  induction text generalizing start with
  | nil => exact Nat.zero_le _
  | cons ch text ih =>
      rw [Utf8.encode_cons, digits_append]
      by_cases isReplacement : ch = '\uFFFD'
      · subst isReplacement
        rw [List.count_cons_self, utf8EncodeChar_replacement]
        have isDigits : digits [0xef, 0xbf, 0xbd] = [14, 15, 11, 15, 11, 13] := by decide
        rw [isDigits]
        cases start with
        | nil =>
            have behind := @ih [] (Nat.zero_le _)
            have others := @marks_continuations [0xbf, 0xbd] (List.all_iff_forall_prop.mp (by decide))
              (pairs (digits (Utf8.encode text)))
            have isFirst : marks (pairs ([] ++ ([14, 15, 11, 15, 11, 13] ++
                digits (Utf8.encode text)))) = 4 + marks ([0xbf, 0xbd] ++
                  pairs (digits (Utf8.encode text))) := rfl
            rw [isFirst, others]
            rw [List.nil_append] at behind
            omega
        | cons digit start =>
            have isStart : start = [] := List.eq_nil_of_length_eq_zero (by
              rw [List.length_cons] at short
              omega)
            subst isStart
            have behind := @ih [13] (Nat.le_refl _)
            have isMarks : marks (pairs ([digit] ++ ([14, 15, 11, 15, 11, 13] ++
                digits (Utf8.encode text)))) =
                mark (UInt8.ofNat (16 * digit + 14)) (0xfb :: 0xfb ::
                  pairs ([13] ++ digits (Utf8.encode text))) +
                (2 + (2 + marks (pairs ([13] ++ digits (Utf8.encode text))))) := rfl
            rw [isMarks]
            omega
      · obtain ⟨front, last, shortLast, isPairs⟩ :=
          exists_pairs_append (start ++ digits (String.utf8EncodeChar ch))
        rw [List.count_cons_of_ne isReplacement, ← List.append_assoc, isPairs]
        exact Nat.le_trans (ih shortLast) (marks_le_append _ _)

/-- Where the digits of a text give the text again, or more, none were lost. -/
theorem padded_of_decode {text more : Text} (notReplacement : '\uFFFD' ∉ more)
    (isDecoded : Utf8.decode (pairs (digits (Utf8.encode text))) = more ++ text) :
    more = [] ∧ Padded (Utf8.encode text) := by
  have longer := @length_decodeFor (pairs (digits (Utf8.encode text))) _ (Nat.le_refl _)
  have written := @count_le_marks text [] (Nat.zero_le _)
  rw [← Utf8.decode, isDecoded, Utf8.encode_append, List.length_append, List.count_append,
    List.count_eq_zero_of_not_mem notReplacement, length_pairs] at longer
  rw [List.nil_append] at written
  have shorter := length_digits_le (Utf8.encode text)
  refine ⟨?_, ?_⟩
  · cases more with
    | nil => rfl
    | cons ch more =>
        have positive : 0 < (Utf8.encode (ch :: more)).length := by
          rw [Utf8.encode_cons, List.length_append, String.length_utf8EncodeChar]
          exact Nat.add_pos_left (Char.utf8Size_pos ch) _
        omega
  · by_contra notPadded
    have lost := length_digits_lt notPadded
    omega

end

end FreeOnline.Library.HexBytes
