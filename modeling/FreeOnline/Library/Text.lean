import Mathlib.Data.Int.Basic
import Mathlib.Data.List.Basic

/-!
# Texts with numbers

How integers are written in decimal, and what is read again.
-/

set_option autoImplicit false

namespace FreeOnline.Library

abbrev Text := List Char

theorem toNat_charOfNat {n : Nat} (isValid : n.isValidChar) : (Char.ofNat n).toNat = n := by
  rw [Char.ofNat, dif_pos isValid]
  rfl

/-!
## Writing
-/

def printInt : Int → Text
  | .ofNat n => Nat.toDigits 10 n
  | .negSucc n => '-' :: Nat.toDigits 10 (n + 1)

theorem isDigit_of_mem_toDigits {n : Nat} {ch : Char} (member : ch ∈ Nat.toDigits 10 n) :
    ch.isDigit = true :=
  Nat.isDigit_of_mem_toDigits (by decide) (by decide) member

theorem mem_printInt {n : Int} {ch : Char} (member : ch ∈ printInt n) :
    ch = '-' ∨ ch.isDigit = true := by
  cases n with
  | ofNat n => exact .inr (isDigit_of_mem_toDigits member)
  | negSucc n =>
      cases member with
      | head => exact .inl rfl
      | tail _ digit => exact .inr (isDigit_of_mem_toDigits digit)

theorem printInt_ne_nil (n : Int) : printInt n ≠ [] := by
  cases n with
  | ofNat n => exact Nat.toDigits_ne_nil
  | negSucc n => exact List.cons_ne_nil _ _

/-- No other character occurs in a number. -/
theorem notMem_printInt {n : Int} {ch : Char} (notSign : ch ≠ '-') (notDigit : ch.isDigit = false) :
    ch ∉ printInt n := by
  intro member
  rcases mem_printInt member with isSign | isDigit
  · exact notSign isSign
  · rw [notDigit] at isDigit
    cases isDigit

theorem exists_toDigits (n : Nat) :
    ∃ digit digits, Nat.toDigits 10 n = digit :: digits ∧ digit.isDigit = true := by
  cases isText : Nat.toDigits 10 n with
  | nil => exact absurd isText Nat.toDigits_ne_nil
  | cons digit digits =>
      refine ⟨digit, digits, rfl, @isDigit_of_mem_toDigits n digit ?_⟩
      rw [isText]
      exact List.mem_cons_self

/-!
## Reading
-/

def isSpace (ch : Char) : Bool :=
  ch = ' ' || ch = '\t' || ch = '\n' || ch = '\x0b' || ch = '\x0c' || ch = '\r'

/-- The sign of a number, and what follows it. -/
def readSign : Text → Bool × Text
  | '-' :: rest => (true, rest)
  | '+' :: rest => (false, rest)
  | text => (false, text)

def leadingDigits (text : Text) : Text :=
  text.takeWhile Char.isDigit

def StopsDigits (rest : Text) : Prop :=
  ∀ ch ∈ rest.head?, ch.isDigit = false

theorem leadingDigits_append {digits rest : Text} (areDigits : ∀ ch ∈ digits, ch.isDigit = true)
    (stops : StopsDigits rest) : leadingDigits (digits ++ rest) = digits := by
  unfold leadingDigits
  rw [List.takeWhile_append_of_pos areDigits]
  cases rest with
  | nil => simp
  | cons ch rest => simp [stops ch rfl]

theorem isSpace_of_isDigit {ch : Char} (isDigit : ch.isDigit = true) : isSpace ch = false := by
  cases spaced : isSpace ch with
  | false => rfl
  | true =>
      simp only [isSpace, Bool.or_eq_true, decide_eq_true_eq] at spaced
      rcases spaced with ((((rfl | rfl) | rfl) | rfl) | rfl) | rfl
      all_goals exact absurd isDigit (by decide)

theorem dropSpaces_printInt (n : Int) (rest : Text) :
    (printInt n ++ rest).dropWhile isSpace = printInt n ++ rest := by
  cases n with
  | ofNat n =>
      obtain ⟨digit, digits, isText, isDigit⟩ := exists_toDigits n
      simp [printInt, isText, isSpace_of_isDigit isDigit]
  | negSucc n =>
      have sign : isSpace '-' = false := by decide
      simp [printInt, sign]

theorem readSign_printInt (n : Int) (rest : Text) :
    readSign (printInt n ++ rest) = (decide (n < 0), Nat.toDigits 10 n.natAbs ++ rest) := by
  cases n with
  | ofNat n =>
      obtain ⟨digit, digits, isText, isDigit⟩ := exists_toDigits n
      have notMinus : digit ≠ '-' := by
        rintro rfl
        exact absurd isDigit (by decide)
      have notPlus : digit ≠ '+' := by
        rintro rfl
        exact absurd isDigit (by decide)
      simp [printInt, isText, readSign, notMinus, notPlus]
  | negSucc n =>
      have negative : Int.negSucc n < 0 := Int.negSucc_lt_zero n
      simp [printInt, readSign, negative]

theorem natAbs_of_sign (n : Int) :
    (if decide (n < 0) = true then -(n.natAbs : Int) else (n.natAbs : Int)) = n := by
  by_cases negative : n < 0
  · rw [if_pos (decide_eq_true negative)]
    omega
  · rw [if_neg (by simpa using negative)]
    omega

theorem le_ofDigitChars (digits : Text) (value : Nat) :
    value ≤ Nat.ofDigitChars 10 digits value := by
  induction digits generalizing value with
  | nil => simp
  | cons digit digits ih =>
      rw [Nat.ofDigitChars_cons]
      exact Nat.le_trans (by omega) (ih _)

/-!
## Searching
-/

/-- `find`, as the number of characters in front of the first occurrence. -/
def findText (word : Text) : Text → Option Nat
  | [] => if word = [] then some 0 else none
  | ch :: rest =>
      if word.isPrefixOf (ch :: rest) then some 0 else (findText word rest).map (· + 1)

theorem findText_eq_none_iff {word text : Text} : findText word text = none ↔ ¬word <:+: text := by
  induction text with
  | nil =>
      unfold findText
      split
      · next empty => simp [empty]
      · next notEmpty => simp [notEmpty]
  | cons ch rest ih =>
      rw [findText, List.infix_cons_iff, not_or, ← List.isPrefixOf_iff_prefix]
      split
      · next isPrefix => simp [isPrefix]
      · next noPrefix => rw [Option.map_eq_none_iff, ih, and_iff_right noPrefix]

theorem findText_isSome_iff {word text : Text} : (findText word text).isSome ↔ word <:+: text := by
  rw [Option.isSome_iff_ne_none, ne_eq, findText_eq_none_iff, not_not]

instance lawfulBEqText : LawfulBEq Text := inferInstance

instance decidableInfix (word text : Text) : Decidable (word <:+: text) :=
  decidable_of_iff _ findText_isSome_iff

theorem findText_lt {word text : Text} {offset : Nat} (notNil : word ≠ [])
    (isFound : findText word text = some offset) : offset + word.length ≤ text.length := by
  induction text generalizing offset with
  | nil =>
      rw [findText, if_neg notNil] at isFound
      cases isFound
  | cons ch rest ih =>
      rw [findText] at isFound
      split at isFound
      · next isPrefix =>
          cases isFound
          simpa using (List.isPrefixOf_iff_prefix.mp isPrefix).length_le
      · obtain ⟨before, isBefore, rfl⟩ := Option.map_eq_some_iff.mp isFound
        have below := ih isBefore
        rw [List.length_cons]
        omega

theorem findText_eq_some {word text : Text} {offset : Nat} (notNil : word ≠ [])
    (isFound : findText word text = some offset) :
    text = text.take offset ++ (word ++ text.drop (offset + word.length)) ∧
      ¬word <:+: text.take offset ++ word.dropLast := by
  induction text generalizing offset with
  | nil =>
      rw [findText, if_neg notNil] at isFound
      cases isFound
  | cons ch rest ih =>
      rw [findText] at isFound
      split at isFound
      · next isPrefix =>
          cases isFound
          rw [Nat.zero_add, List.take_zero, List.nil_append, List.nil_append]
          refine ⟨?_, fun inside => ?_⟩
          · exact (List.prefix_iff_eq_append.mp (List.isPrefixOf_iff_prefix.mp isPrefix)).symm
          · have shorter := inside.length_le
            have positive := List.length_pos_of_ne_nil notNil
            rw [List.length_dropLast] at shorter
            omega
      · next noPrefix =>
          obtain ⟨before, isBefore, rfl⟩ := Option.map_eq_some_iff.mp isFound
          obtain ⟨isRest, noEarlier⟩ := ih isBefore
          rw [Nat.add_right_comm, List.take_succ_cons, List.drop_succ_cons, List.cons_append,
            List.cons_append]
          refine ⟨congrArg (ch :: ·) isRest, fun inside => ?_⟩
          cases List.infix_cons_iff.mp inside with
          | inl isPrefix =>
              -- the word would stand in front of the place where it was found
              have toRest : ch :: (rest.take before ++ word.dropLast) <+: ch :: rest := by
                rw [List.cons_prefix_cons]
                nth_rewrite 2 [isRest]
                exact ⟨rfl, (List.prefix_append_right_inj _).mpr
                  ((List.dropLast_prefix word).trans (List.prefix_append _ _))⟩
              exact noPrefix (List.isPrefixOf_iff_prefix.mpr (isPrefix.trans toRest))
          | inr later => exact noEarlier later

/-- The first place where the word stands. -/
theorem findText_append {word front : Text} (noEarlier : ¬word <:+: front ++ word.dropLast)
    (rest : Text) : findText word (front ++ (word ++ rest)) = some front.length := by
  induction front with
  | nil =>
      cases isText : word ++ rest with
      | nil =>
          rw [List.nil_append, findText, if_pos (List.append_eq_nil_iff.mp isText).1]
          rfl
      | cons ch text =>
          rw [List.nil_append, findText, ← isText,
            if_pos (List.isPrefixOf_iff_prefix.mpr (List.prefix_append word rest))]
          rfl
  | cons ch front ih =>
      rw [List.cons_append] at noEarlier
      have isLater := ih fun inside => noEarlier (inside.trans (List.suffix_cons ch _).isInfix)
      rw [List.cons_append, findText, if_neg, isLater]
      · rfl
      · intro inFront
        have isPrefix := List.isPrefixOf_iff_prefix.mp inFront
        have withFront : ch :: (front ++ word.dropLast) <+: ch :: (front ++ (word ++ rest)) :=
          (List.prefix_cons_inj ch).mpr ((List.prefix_append_right_inj front).mpr
            ((List.dropLast_prefix word).trans (List.prefix_append word rest)))
        refine noEarlier (List.IsPrefix.isInfix (List.prefix_of_prefix_length_le isPrefix withFront ?_))
        rw [List.length_cons, List.length_append, List.length_dropLast]
        omega

/-- `rfind`, as the number of characters in front of the last occurrence. -/
def rfindText (word : Text) : Text → Option Nat
  | [] => if word = [] then some 0 else none
  | ch :: rest =>
      match rfindText word rest with
      | some offset => some (offset + 1)
      | none => if word.isPrefixOf (ch :: rest) then some 0 else none

theorem rfindText_eq_none {word text : Text} (absent : ¬word <:+: text) :
    rfindText word text = none := by
  induction text with
  | nil =>
      refine if_neg ?_
      rintro rfl
      exact absent (List.infix_refl [])
  | cons ch rest ih =>
      rw [rfindText, ih fun inside => absent (inside.trans (List.suffix_cons ch rest).isInfix)]
      exact if_neg fun isPrefix => absent (List.isPrefixOf_iff_prefix.mp isPrefix).isInfix

/-- The last place where the word stands. -/
theorem rfindText_append {word rest : Text} (notNil : word ≠ []) (noLater : ¬word <:+: (word ++ rest).tail)
    (front : Text) : rfindText word (front ++ (word ++ rest)) = some front.length := by
  induction front with
  | nil =>
      have isPrefix := List.isPrefixOf_iff_prefix.mpr (List.prefix_append word rest)
      cases isText : word ++ rest with
      | nil => exact absurd (List.append_eq_nil_iff.mp isText).1 notNil
      | cons ch text =>
          rw [isText] at noLater isPrefix
          rw [List.tail_cons] at noLater
          rw [List.nil_append, rfindText, rfindText_eq_none noLater]
          exact if_pos isPrefix
  | cons ch front ih =>
      rw [List.cons_append, rfindText, ih]
      rfl

/-- What begins with a character begins behind a text without it. -/
theorem infix_append_iff {ch : Char} {word front : Text} (absent : ch ∉ front) (text : Text) :
    ch :: word <:+: front ++ text ↔ ch :: word <:+: text := by
  induction front with
  | nil => rfl
  | cons other front ih =>
      obtain ⟨different, absent⟩ := not_or.mp (List.mem_cons.not.mp absent)
      rw [List.cons_append, List.infix_cons_iff, ih absent, List.cons_prefix_cons]
      exact or_iff_right fun inFront => different inFront.1

/-- What is in a piece is in the whole. -/
theorem mem_of_mem_splitOnP {α : Type} {test : α → Bool} {text piece : List α} {ch : α}
    (isPiece : piece ∈ text.splitOnP test) (member : ch ∈ piece) : ch ∈ text := by
  induction text generalizing piece with
  | nil =>
      rw [List.splitOnP_nil, List.mem_singleton] at isPiece
      rwa [isPiece] at member
  | cons first text ih =>
      rw [List.splitOnP_cons_eq_if_modifyHead] at isPiece
      split at isPiece
      · cases isPiece with
        | head => cases member
        | tail _ isPiece => exact List.mem_cons_of_mem _ (ih isPiece member)
      · cases isSplit : text.splitOnP test with
        | nil => exact absurd isSplit (List.splitOnP_ne_nil _ _)
        | cons begun pieces =>
            rw [isSplit] at ih
            rw [isSplit, List.modifyHead_cons] at isPiece
            cases isPiece with
            | head =>
                cases member with
                | head => exact List.mem_cons_self
                | tail _ member => exact List.mem_cons_of_mem _ (ih List.mem_cons_self member)
            | tail _ isPiece =>
                exact List.mem_cons_of_mem _ (ih (List.mem_cons_of_mem _ isPiece) member)

end FreeOnline.Library
