import FreeOnline.Kit.Bitmap
import FreeOnline.Library.Text

/-!
# Tokens of a message

How messages are cut into tokens, and the three converters that make integers of texts:
`safe_atoi` stops at the largest int, the others go through a long and drop its high bits.
-/

set_option autoImplicit false

namespace FreeOnline.Common

open FreeOnline.Kit (TileWireId)
open FreeOnline.Library

/-!
## Numbers
-/

def intMax : Int := 2 ^ 31 - 1

def longMax : Int := 2 ^ 63 - 1

/-- The low 32 bits, as an int. -/
def toInt32 (value : Int) : Int := Int.bmod value (2 ^ 32)

def toUInt32 (value : Int) : TileWireId := UInt32.ofInt value

/-- The digits from here on, with what was read so far. -/
def safeDigits (ret : Int) : Text → Int
  | [] => ret
  | ch :: rest =>
      if ch.isDigit then
        let next := ret * 10 + ((ch.toNat - '0'.toNat : Nat) : Int)
        if next ≥ intMax then intMax else safeDigits next rest
      else ret

def safeAtoi (text : Text) : Int :=
  let (negative, rest) := readSign (text.dropWhile isSpace)
  if negative then -safeDigits 0 rest else safeDigits 0 rest

/-- The value of the number at the begin of the text, if there is one, not bounded yet. -/
def readLong (text : Text) : Option Int :=
  let (negative, rest) := readSign (text.dropWhile isSpace)
  if leadingDigits rest = [] then none
  else
    let value : Int := Nat.ofDigitChars 10 (leadingDigits rest) 0
    some (if negative then -value else value)

def inLong (value : Int) : Prop := -longMax - 1 ≤ value ∧ value ≤ longMax

instance (value : Int) : Decidable (inLong value) :=
  inferInstanceAs (Decidable (_ ∧ _))

def clampLong (value : Int) : Int :=
  max (-longMax - 1) (min value longMax)

/-- `strtol`, of which an int is made. -/
def strtol (text : Text) : Option Int :=
  (readLong text).map fun value => toInt32 (clampLong value)

/-- The value, unless there is no number or it does not fit a long. -/
def i32FromString (input : Text) : Option Int :=
  match readLong input with
  | none => none
  | some value => if inLong value then some (toInt32 value) else none

def atoi (text : Text) : Int :=
  (strtol text).getD 0

section

variable {n : Int}

theorem toInt32_of_fits (fits : -intMax - 1 ≤ n ∧ n ≤ intMax) : toInt32 n = n := by
  unfold toInt32
  unfold intMax at fits
  exact Int.bmod_eq_of_le (by omega) (by omega)

theorem toUInt32_toInt32 (n : Int) : toUInt32 (toInt32 n) = toUInt32 n := by
  have sameRest : Int.bmod n (2 ^ 32) % 2 ^ 32 = n % 2 ^ 32 := Int.bmod_emod
  unfold toUInt32 toInt32 UInt32.ofInt
  rw [sameRest]

theorem toUInt32_toNat (wireId : TileWireId) : toUInt32 (wireId.toNat : Int) = wireId := by
  have below := wireId.toNat_lt
  have small : ((wireId.toNat : Int) % 2 ^ 32).toNat = wireId.toNat := by omega
  unfold toUInt32 UInt32.ofInt
  rw [small]
  exact UInt32.ofNat_toNat

theorem readLong_printInt (n : Int) {rest : Text} (stops : StopsDigits rest) :
    readLong (printInt n ++ rest) = some n := by
  unfold readLong
  have digits : leadingDigits (Nat.toDigits 10 n.natAbs ++ rest) = Nat.toDigits 10 n.natAbs :=
    leadingDigits_append (fun _ => isDigit_of_mem_toDigits) stops
  rw [dropSpaces_printInt, readSign_printInt]
  dsimp only
  rw [digits, if_neg Nat.toDigits_ne_nil, Nat.ofDigitChars_ten_toDigits, natAbs_of_sign]

theorem strtol_printInt (fits : -intMax - 1 ≤ n ∧ n ≤ intMax) {rest : Text}
    (stops : StopsDigits rest) : strtol (printInt n ++ rest) = some n := by
  have inside : clampLong n = n := by
    unfold clampLong longMax
    unfold intMax at fits
    omega
  unfold strtol
  rw [readLong_printInt n stops, Option.map_some, inside, toInt32_of_fits fits]

theorem atoi_printInt (fits : -intMax - 1 ≤ n ∧ n ≤ intMax) {rest : Text}
    (stops : StopsDigits rest) : atoi (printInt n ++ rest) = n := by
  unfold atoi
  rw [strtol_printInt fits stops]
  rfl

theorem i32FromString_printInt (inside : inLong n) :
    i32FromString (printInt n) = some (toInt32 n) := by
  have isRead := @readLong_printInt n [] nofun
  rw [List.append_nil] at isRead
  unfold i32FromString
  rw [isRead]
  exact if_pos inside

/-- The digits are read to the end, whatever follows them. -/
theorem safeDigits_eq (text : Text) (value : Nat) (below : (value : Int) < intMax) :
    safeDigits value text = min (Nat.ofDigitChars 10 (leadingDigits text) value : Int) intMax := by
  induction text generalizing value with
  | nil =>
      rw [safeDigits, leadingDigits, List.takeWhile_nil, Nat.ofDigitChars_nil]
      omega
  | cons ch rest ih =>
      by_cases isDigit : ch.isDigit = true
      · have isLeading : leadingDigits (ch :: rest) = ch :: leadingDigits rest :=
          List.takeWhile_cons_of_pos isDigit
        have isNext : (value : Int) * 10 + ((ch.toNat - '0'.toNat : Nat) : Int) =
            ((10 * value + (ch.toNat - '0'.toNat) : Nat) : Int) := by
          push_cast
          omega
        rw [safeDigits, if_pos isDigit, isLeading, Nat.ofDigitChars_cons]
        dsimp only
        rw [isNext]
        generalize 10 * value + (ch.toNat - '0'.toNat) = next
        split
        · next reached =>
            have larger := le_ofDigitChars (leadingDigits rest) next
            omega
        · next below => exact ih next (by omega)
      · have isLeading : leadingDigits (ch :: rest) = [] := List.takeWhile_cons_of_neg isDigit
        rw [safeDigits, if_neg isDigit, isLeading, Nat.ofDigitChars_nil]
        omega

/-- Whatever does not fit is the largest int, or the least but one. -/
theorem safeAtoi_eq (text : Text) :
    safeAtoi text = max (-intMax) (min ((readLong text).getD 0) intMax) := by
  unfold safeAtoi readLong
  cases readSign (text.dropWhile isSpace) with
  | mk negative rest =>
      have isValue := safeDigits_eq rest 0 (by decide)
      rw [Int.natCast_zero] at isValue
      dsimp only
      rw [isValue]
      unfold intMax
      by_cases noDigit : leadingDigits rest = []
      · rw [if_pos noDigit, noDigit, Nat.ofDigitChars_nil]
        cases negative with
        | false => rfl
        | true => rfl
      · rw [if_neg noDigit, Option.getD_some]
        cases negative with
        | false =>
            rw [if_neg Bool.false_ne_true, if_neg Bool.false_ne_true]
            omega
        | true =>
            rw [if_pos rfl, if_pos rfl]
            omega

theorem safeAtoi_printInt (n : Int) :
    safeAtoi (printInt n) = max (-intMax) (min n intMax) := by
  have isRead := @readLong_printInt n [] nofun
  rw [List.append_nil] at isRead
  rw [safeAtoi_eq, isRead, Option.getD_some]

end

/-!
## Tokens
-/

/-- `StringVector::tokenize`. The token that has begun may be the delimiter in front of it. -/
def tokenizeFrom (delimiter : Char) (start : Text) : Text → List Text
  | [] => if start ≠ [] ∧ start.head? ≠ some delimiter ∧ start.head? ≠ some '\n' then [start] else []
  | ch :: rest =>
      if ch = '\n' then
        if start ≠ [] ∧ start.head? ≠ some delimiter ∧ start.head? ≠ some '\n' then [start] else []
      else if ch = delimiter then
        if start ≠ [] ∧ start.head? ≠ some delimiter then start :: tokenizeFrom delimiter [ch] rest
        else tokenizeFrom delimiter [ch] rest
      else if (start ++ [ch]).head? = some delimiter then
        tokenizeFrom delimiter (start ++ [ch]).tail rest
      else tokenizeFrom delimiter (start ++ [ch]) rest

def tokenize (data : Text) (delimiter : Char) : List Text :=
  if data.head? = some '\x00' then [] else tokenizeFrom delimiter [] data

/-- The value of a token `key=..`, and whether it counts. -/
def getUInt32 (token key : Text) : Option (TileWireId × Bool) :=
  let offset := key.length + 1
  if token.length > offset ∧ (key ++ ['=']).isPrefixOf token = true then
    let value := toUInt32 (safeAtoi (token.drop offset))
    some (value, value < UInt32.ofNat (2 ^ 32 - 1))
  else none

/-- Name and value of a token, where the largest int stands for what does not fit. -/
def getNameIntegerPair (token : Text) : Option (Text × Int) :=
  if '=' ∉ token then none
  else
    let name := token.takeWhile (· ≠ '=')
    let value := safeAtoi (token.drop (name.length + 1))
    if value > -intMax - 1 ∧ value < intMax then some (name, value) else none

/-- A word has no character at which a text is cut. -/
structure IsWord (delimiter : Char) (word : Text) : Prop where
  notNil : word ≠ []
  notDelimiter : delimiter ∉ word
  notNewline : '\n' ∉ word

section

variable {delimiter : Char} {word rest start : Text}

private theorem tokenizeFrom_append (notDelimiter : delimiter ∉ word) (notNewline : '\n' ∉ word)
    (begun : start.head? ≠ some delimiter) (rest : Text) :
    tokenizeFrom delimiter start (word ++ rest) = tokenizeFrom delimiter (start ++ word) rest := by
  induction word generalizing start with
  | nil => simp
  | cons ch word ih =>
      obtain ⟨chNotDelimiter, wordNotDelimiter⟩ := not_or.mp (fun isIn => notDelimiter (by
        rcases isIn with same | later
        · exact same ▸ List.mem_cons_self
        · exact List.mem_cons_of_mem _ later) : ¬(delimiter = ch ∨ delimiter ∈ word))
      obtain ⟨chNotNewline, wordNotNewline⟩ := not_or.mp (fun isIn => notNewline (by
        rcases isIn with same | later
        · exact same ▸ List.mem_cons_self
        · exact List.mem_cons_of_mem _ later) : ¬('\n' = ch ∨ '\n' ∈ word))
      have goesOn : (start ++ [ch]).head? ≠ some delimiter := by
        cases start with
        | nil => simpa using Ne.symm chNotDelimiter
        | cons first start => exact begun
      rw [List.cons_append, tokenizeFrom, if_neg (Ne.symm chNotNewline),
        if_neg (Ne.symm chNotDelimiter), if_neg goesOn, ih wordNotDelimiter wordNotNewline goesOn]
      simp

/-- A text that begins with a word. -/
theorem tokenizeFrom_begin (isWord : IsWord delimiter word) (rest : Text) :
    tokenizeFrom delimiter [] (word ++ rest) = tokenizeFrom delimiter word rest :=
  tokenizeFrom_append isWord.notDelimiter isWord.notNewline (by simp) rest

/-- A delimiter in front of a word is skipped. -/
theorem tokenizeFrom_delimiter (isWord : IsWord delimiter word) (rest : Text) :
    tokenizeFrom delimiter [delimiter] (word ++ rest) = tokenizeFrom delimiter word rest := by
  obtain ⟨notNil, notDelimiter, notNewline⟩ := isWord
  cases word with
  | nil => exact absurd rfl notNil
  | cons ch word =>
      rw [List.mem_cons, not_or] at notDelimiter notNewline
      have begun : [ch].head? ≠ some delimiter := by
        simpa using Ne.symm notDelimiter.1
      rw [List.cons_append, tokenizeFrom, if_neg (Ne.symm notNewline.1),
        if_neg (Ne.symm notDelimiter.1), List.singleton_append, List.head?_cons, if_pos rfl,
        List.tail_cons]
      exact tokenizeFrom_append notDelimiter.2 notNewline.2 begun rest

private theorem head?_word (isWord : IsWord delimiter word) :
    word ≠ [] ∧ word.head? ≠ some delimiter ∧ word.head? ≠ some '\n' := by
  refine ⟨isWord.notNil, ?_, ?_⟩
  · exact fun isHead => isWord.notDelimiter (List.mem_of_head? isHead)
  · exact fun isHead => isWord.notNewline (List.mem_of_head? isHead)

theorem tokenizeFrom_word (isWord : IsWord delimiter word) :
    tokenizeFrom delimiter word [] = [word] :=
  if_pos (head?_word isWord)

theorem tokenizeFrom_newline (isWord : IsWord delimiter word) (rest : Text) :
    tokenizeFrom delimiter word ('\n' :: rest) = [word] := by
  rw [tokenizeFrom, if_pos rfl]
  exact if_pos (head?_word isWord)

theorem tokenizeFrom_word_delimiter (isWord : IsWord delimiter word) (notNewline : delimiter ≠ '\n')
    (rest : Text) : tokenizeFrom delimiter word (delimiter :: rest) =
      word :: tokenizeFrom delimiter [delimiter] rest := by
  have head := head?_word isWord
  rw [tokenizeFrom, if_neg notNewline, if_pos rfl, if_pos ⟨head.1, head.2.1⟩]

/-- Words with a delimiter in front of each, to the end of the line. -/
theorem tokenizeFrom_line {words : List Text} (areWords : ∀ word ∈ words, IsWord delimiter word)
    (isWord : IsWord delimiter word) (notNewline : delimiter ≠ '\n')
    (endsLine : rest = [] ∨ rest.head? = some '\n') :
    tokenizeFrom delimiter word (words.flatMap (delimiter :: ·) ++ rest) = word :: words := by
  induction words generalizing word with
  | nil =>
      rcases endsLine with rfl | isNewline
      · exact tokenizeFrom_word isWord
      · obtain ⟨later, rfl⟩ := List.head?_eq_some_iff.mp isNewline
        exact tokenizeFrom_newline isWord later
  | cons next words ih =>
      have isNext := areWords next List.mem_cons_self
      rw [List.flatMap_cons, List.cons_append, List.cons_append, List.append_assoc,
        tokenizeFrom_word_delimiter isWord notNewline, tokenizeFrom_delimiter isNext,
        ih (fun other member => areWords other (List.mem_cons_of_mem _ member)) isNext]

theorem tokenizeFrom_words {words : List Text} (areWords : ∀ word ∈ words, IsWord delimiter word)
    (isWord : IsWord delimiter word) (notNewline : delimiter ≠ '\n') :
    tokenizeFrom delimiter word (words.flatMap (delimiter :: ·)) = word :: words := by
  have line := tokenizeFrom_line areWords isWord notNewline (.inl rfl)
  rwa [List.append_nil] at line

/-- Words with a delimiter behind each. -/
theorem tokenizeFrom_closed {words : List Text} (areWords : ∀ word ∈ words, IsWord delimiter word)
    (notNewline : delimiter ≠ '\n') :
    tokenizeFrom delimiter [delimiter] (words.flatMap (· ++ [delimiter])) = words := by
  induction words with
  | nil => simp [tokenizeFrom]
  | cons word words ih =>
      have isWord := areWords word List.mem_cons_self
      rw [List.flatMap_cons, List.append_assoc, tokenizeFrom_delimiter isWord, List.singleton_append,
        tokenizeFrom_word_delimiter isWord notNewline,
        ih fun other member => areWords other (List.mem_cons_of_mem _ member)]

end

end FreeOnline.Common
