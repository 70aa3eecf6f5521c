import FreeOnline.Browser.ProxySocket
import FreeOnline.Common.StringVector

/-!
# Encodings of spans

The sizes of the rows or columns of a sheet come as a text of spans of equal elements, each with
the index of its last element. Whether they are hidden or filtered comes as the first bit and
the indices at which it changes.
-/

set_option autoImplicit false

namespace FreeOnline.Browser.SheetGeometry

open FreeOnline.Library FreeOnline.Common
open FreeOnline.Browser.ProxySocket (isStrWhiteSpace)

/-- Elements of one size, up to the index. -/
structure ParsedSpan where
  index : Int
  value : Int
deriving DecidableEq

structure BoolSpanList where
  startBit : Bool
  spanlist : List Int
deriving DecidableEq

/-- `split` of a text at each occurrence of the character. -/
def split (separator : Char) : Text → List Text
  | [] => [[]]
  | ch :: rest =>
      if ch = separator then [] :: split separator rest
      else
        match split separator rest with
        | [] => [[ch]]
        | part :: parts => (ch :: part) :: parts

/-- `parseInt` without a radix, or none where it is not a number. -/
def parseInt (text : Text) : Option Int :=
  let (negative, rest) := readSign (text.dropWhile fun ch => isStrWhiteSpace ch.toNat)
  match rest with
  | '0' :: 'x' :: _ | '0' :: 'X' :: _ => Hex.read isStrWhiteSpace (text.map Char.toNat)
  | _ =>
      if leadingDigits rest = [] then none
      else
        let value : Int := Nat.ofDigitChars 10 (leadingDigits rest) 0
        some (if negative then -value else value)

def parseSpan (part : Text) : Option ParsedSpan :=
  match split ':' part with
  | [value, index] =>
      match parseInt value, parseInt index with
      | some value, some index => some ⟨index, value⟩
      | _, _ => none
  | _ => none

/-- `parseSpanListEncoding` of sizes. What is behind the last space is not read. -/
def parseSpanList (encoding : Text) : Option (List ParsedSpan) :=
  let splits := split ' ' encoding
  if splits.length < 2 then none else splits.dropLast.mapM parseSpan

/-- `parseSpanListEncoding` of bits. -/
def parseBoolSpanList (encoding : Text) : Option BoolSpanList :=
  match split ' ' encoding with
  | first :: second :: splits =>
      match split ':' first with
      | [startBit, index] =>
          match parseInt startBit, parseInt index with
          | some startBit, some index =>
              match (second :: splits).dropLast.mapM parseInt with
              | some indices => some ⟨startBit ≠ 0, index :: indices⟩
              | none => none
          | _, _ => none
      | _ => none
  | _ => none

/-!
## What is encoded
-/

def encodeSpan (span : ParsedSpan) : Text := printInt span.value ++ ':' :: printInt span.index

def encodeSpanList (spans : List ParsedSpan) : Text :=
  spans.flatMap fun span => encodeSpan span ++ [' ']

def encodeBoolSpanList (startBit : Int) (index : Int) (indices : List Int) : Text :=
  printInt startBit ++ ':' :: (printInt index ++
    ' ' :: indices.flatMap fun index => printInt index ++ [' '])

theorem split_append {separator : Char} {word : Text} (notIn : separator ∉ word) (rest : Text) :
    split separator (word ++ separator :: rest) = word :: split separator rest := by
  induction word with
  | nil => rw [List.nil_append, split, if_pos rfl]
  | cons ch word ih =>
      rw [List.mem_cons, not_or] at notIn
      rw [List.cons_append, split, if_neg (Ne.symm notIn.1), ih notIn.2]

theorem split_word {separator : Char} {word : Text} (notIn : separator ∉ word) :
    split separator word = [word] := by
  induction word with
  | nil => rfl
  | cons ch word ih =>
      rw [List.mem_cons, not_or] at notIn
      rw [split, if_neg (Ne.symm notIn.1), ih notIn.2]

theorem split_closed {separator : Char} {words : List Text}
    (notIn : ∀ word ∈ words, separator ∉ word) :
    split separator (words.flatMap (· ++ [separator])) = words ++ [[]] := by
  induction words with
  | nil => rfl
  | cons word words ih =>
      have isSplit := split_append (notIn word List.mem_cons_self)
        (words.flatMap (· ++ [separator]))
      rw [List.flatMap_cons, List.append_assoc, List.singleton_append, isSplit,
        ih fun other isOther => notIn other (List.mem_cons_of_mem _ isOther), List.cons_append]

private theorem dropWhile_printInt (n : Int) :
    (printInt n).dropWhile (fun ch => isStrWhiteSpace ch.toNat) = printInt n := by
  have first {ch : Char} (isHead : ch = '-' ∨ ch.isDigit = true) :
      isStrWhiteSpace ch.toNat = false := by
    have bounds : 45 ≤ ch.toNat ∧ ch.toNat ≤ 57 := by
      rcases isHead with rfl | isDigit
      · decide
      · obtain ⟨low, high⟩ : 48 ≤ ch.toNat ∧ ch.toNat ≤ 57 := Char.isDigit_iff_toNat.mp isDigit
        exact ⟨by omega, high⟩
    unfold isStrWhiteSpace
    simp only [Bool.or_eq_false_iff, Bool.and_eq_false_iff, decide_eq_false_iff_not]
    omega
  cases isText : printInt n with
  | nil => rfl
  | cons ch rest =>
      have isHead := mem_printInt (isText ▸ List.mem_cons_self : ch ∈ printInt n)
      rw [List.dropWhile_cons, first isHead]
      rfl

theorem parseInt_printInt (n : Int) : parseInt (printInt n) = some n := by
  have unsigned := readSign_printInt n []
  rw [List.append_nil, List.append_nil] at unsigned
  have areDigits : ∀ ch ∈ Nat.toDigits 10 n.natAbs, ch.isDigit = true :=
    fun _ => isDigit_of_mem_toDigits
  have digits : leadingDigits (Nat.toDigits 10 n.natAbs) = Nat.toDigits 10 n.natAbs := by
    have leading : leadingDigits (Nat.toDigits 10 n.natAbs ++ []) = Nat.toDigits 10 n.natAbs :=
      leadingDigits_append areDigits nofun
    rwa [List.append_nil] at leading
  unfold parseInt
  rw [dropWhile_printInt, unsigned]
  dsimp only
  split
  · next isHex => exact absurd (areDigits 'x' (isHex ▸ by simp)) (by decide)
  · next isHex => exact absurd (areDigits 'X' (isHex ▸ by simp)) (by decide)
  · rw [digits, if_neg Nat.toDigits_ne_nil, Nat.ofDigitChars_ten_toDigits, natAbs_of_sign]

theorem notMem_printInt_of {separator : Char} (isSeparator : separator = ' ' ∨ separator = ':')
    (n : Int) : separator ∉ printInt n := by
  rcases isSeparator with rfl | rfl
  · exact notMem_printInt (by decide) (by decide)
  · exact notMem_printInt (by decide) (by decide)

theorem parseSpan_encodeSpan (span : ParsedSpan) : parseSpan (encodeSpan span) = some span := by
  have isSplit := split_append (notMem_printInt_of (.inr rfl) span.value) (printInt span.index)
  have isWord := split_word (notMem_printInt_of (.inr rfl) span.index)
  rw [parseSpan, encodeSpan, isSplit, isWord]
  dsimp only
  rw [parseInt_printInt, parseInt_printInt]

/-- What each word gives by itself, the words give together. -/
private theorem mapM_of_words {α : Type} {encode : α → Text} {read : Text → Option α}
    (roundTrip : ∀ item, read (encode item) = some item) (items : List α) :
    (items.map encode).mapM read = some items := by
  induction items with
  | nil => rfl
  | cons item items ih =>
      rw [List.map_cons, List.mapM_cons, roundTrip, ih]
      rfl

/-- Sizes are read as they were encoded. -/
theorem parseSpanList_encode {spans : List ParsedSpan} (notEmpty : spans ≠ []) :
    parseSpanList (encodeSpanList spans) = some spans := by
  have noSpace : ∀ word ∈ spans.map encodeSpan, ' ' ∉ word := by
    intro word isWord
    obtain ⟨span, -, rfl⟩ := List.mem_map.mp isWord
    rw [encodeSpan, List.mem_append, List.mem_cons, not_or, not_or]
    exact ⟨notMem_printInt_of (.inl rfl) _, by decide, notMem_printInt_of (.inl rfl) _⟩
  have isSplit : split ' ' (encodeSpanList spans) = spans.map encodeSpan ++ [[]] := by
    rw [← split_closed noSpace, List.flatMap_map]
    rfl
  have enough : ¬ (spans.map encodeSpan ++ [[]]).length < 2 := by
    have positive := List.length_pos_iff.mpr notEmpty
    rw [List.length_append, List.length_map, List.length_singleton]
    omega
  rw [parseSpanList, isSplit, if_neg enough, List.dropLast_concat,
    mapM_of_words parseSpan_encodeSpan]

/-- Bits are read as they were encoded. -/
theorem parseBoolSpanList_encode (startBit index : Int) (indices : List Int) :
    parseBoolSpanList (encodeBoolSpanList startBit index indices) =
      some ⟨startBit ≠ 0, index :: indices⟩ := by
  have noSpace : ∀ word ∈ indices.map printInt, ' ' ∉ word := by
    intro word isWord
    obtain ⟨index, -, rfl⟩ := List.mem_map.mp isWord
    exact notMem_printInt_of (.inl rfl) index
  have notInFirst : ' ' ∉ printInt startBit ++ ':' :: printInt index := by
    rw [List.mem_append, List.mem_cons, not_or, not_or]
    exact ⟨notMem_printInt_of (.inl rfl) _, by decide, notMem_printInt_of (.inl rfl) _⟩
  have isSplit : split ' ' (encodeBoolSpanList startBit index indices) =
      (printInt startBit ++ ':' :: printInt index) :: (indices.map printInt ++ [[]]) := by
    have rest := split_closed noSpace
    rw [List.flatMap_map] at rest
    have first := split_append notInFirst (indices.flatMap fun index => printInt index ++ [' '])
    rw [List.append_assoc, List.cons_append] at first
    rw [encodeBoolSpanList, first, rest]
  have firstSplit : split ':' (printInt startBit ++ ':' :: printInt index) =
      [printInt startBit, printInt index] := by
    rw [split_append (notMem_printInt_of (.inr rfl) startBit),
      split_word (notMem_printInt_of (.inr rfl) index)]
  obtain ⟨second, splits, isCons⟩ : ∃ second splits,
      indices.map printInt ++ [[]] = second :: splits :=
    List.exists_cons_of_ne_nil (List.append_ne_nil_of_right_ne_nil _ (List.cons_ne_nil _ _))
  have isRead : (second :: splits).dropLast.mapM parseInt = some indices := by
    rw [← isCons, List.dropLast_concat]
    exact mapM_of_words parseInt_printInt indices
  unfold parseBoolSpanList
  rw [isSplit, isCons]
  dsimp only
  rw [firstSplit]
  dsimp only
  rw [parseInt_printInt, parseInt_printInt]
  dsimp only
  rw [isRead]

end FreeOnline.Browser.SheetGeometry
