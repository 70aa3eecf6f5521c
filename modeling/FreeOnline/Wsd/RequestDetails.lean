import FreeOnline.Common.Tokenizer
import FreeOnline.Library.HexBytes

/-!
# Hexified request URIs

A request URI may carry its document URI in hexadecimal digits, behind `lool/0x` and up to the
next slash. A string holds bytes; each is a character below 256.
-/

set_option autoImplicit false

namespace FreeOnline.Wsd.RequestDetails

open FreeOnline.Library FreeOnline.Common
open FreeOnline.Common.StringVector (findFirstOf findFirstOf_append)

/-!
## Hexadecimal strings
-/

/-- `stream >> value`, and what is left in the stream. Where it holds nothing but blanks, none
is extracted; where no digit is found, zero is. -/
def extract (codes : List Nat) : Option Int × List Nat :=
  match codes.dropWhile fun code => isSpace (Char.ofNat code) with
  | [] => (none, [])
  | first :: rest =>
      let (negative, unsigned) := Hex.readSign (first :: rest)
      let behind := Hex.skipPreamble unsigned
      let digits := Hex.leading behind
      let value : Int := Hex.value digits
      (some (if negative then -value else value), behind.drop digits.length)

/-- `static_cast<char>` of the extracted value. -/
def toChar (value : Int) : Char := Char.ofNat (value % 256).toNat

/-- The loop over pairs of digits: one stream and one variable serve all of them, so that what is
not extracted of one pair stands in front of the next. -/
def dataFrom (value : Int) (pending : List Nat) : Text → Text
  | [] => []
  | [_] => []
  | first :: second :: rest =>
      let (extracted, pending) := extract (pending ++ [first.toNat, second.toNat])
      let value := extracted.getD value
      toChar value :: dataFrom value pending rest

/-- The first value of the variable is not set. -/
def dataFromHexString (unset : Int) (hexString data : Text) : Bool × Text :=
  if hexString.length % 2 ≠ 0 then (false, data) else (true, dataFrom unset [] hexString)

/-- Bytes as a string. -/
def byteText (bytes : List UInt8) : Text := bytes.map fun byte => Char.ofNat byte.toNat

def digitChar (digit : Nat) : Char := Char.ofNat (Hex.digitCode digit)

section

variable {digits : List Nat}

private theorem toNat_digitChar : ∀ digit < 16, (digitChar digit).toNat = Hex.digitCode digit := by
  decide

private theorem isSpace_digitChar : ∀ digit < 16, isSpace (digitChar digit) = false := by decide

theorem extract_digits {digit : Nat} (small : ∀ other ∈ digit :: digits, other < 16) :
    extract ((digit :: digits).map Hex.digitCode) = (some (Hex.value (digit :: digits) : Int), []) := by
  have notSpace : isSpace (Char.ofNat (Hex.digitCode digit)) = false :=
    isSpace_digitChar digit (small digit List.mem_cons_self)
  have unsigned : 48 ≤ Hex.digitCode digit := by
    have bounds := Hex.digitCode_bounds (small digit List.mem_cons_self)
    omega
  have isBehind := Hex.skipPreamble_digitCode small
  have isLeading := Hex.leading_digitCode small
  rw [List.map_cons] at isBehind isLeading ⊢
  unfold extract
  rw [List.dropWhile_cons, notSpace, if_neg Bool.false_ne_true]
  dsimp only
  rw [Hex.readSign_unsigned unsigned]
  dsimp only
  rw [isBehind, isLeading, if_neg Bool.false_ne_true, ← List.map_cons, ← List.map_drop,
    List.drop_length, List.map_nil]

theorem dataFrom_digits (small : ∀ digit ∈ digits, digit < 16) (value : Int) :
    dataFrom value [] (digits.map digitChar) = byteText (HexBytes.pairs digits) := by
  induction digits using HexBytes.pairs.induct generalizing value with
  | case1 => rfl
  | case2 first => rfl
  | case3 first second rest ih =>
      have extracted := @extract_digits [second] first fun digit member =>
        small digit (List.mem_of_mem_take (i := 2) member)
      obtain ⟨firstSmall, small⟩ := List.forall_mem_cons.mp small
      obtain ⟨secondSmall, small⟩ := List.forall_mem_cons.mp small
      have isValue : Hex.value [first, second] = 16 * first + second := by
        change (0 * 16 + first) * 16 + second = 16 * first + second
        omega
      have inside : (((16 * first + second : Nat) : Int) % 256).toNat = 16 * first + second := by omega
      have isByte : (UInt8.ofNat (16 * first + second)).toNat = 16 * first + second := by
        rw [UInt8.toNat_ofNat']
        omega
      rw [isValue] at extracted
      rw [List.map_cons, List.map_cons, dataFrom, List.nil_append, toNat_digitChar first firstSmall,
        toNat_digitChar second secondSmall]
      change toChar ((extract ([first, second].map Hex.digitCode)).1.getD value) ::
          dataFrom ((extract ([first, second].map Hex.digitCode)).1.getD value)
            (extract ([first, second].map Hex.digitCode)).2 (rest.map digitChar) = _
      rw [extracted]
      dsimp only [Option.getD_some]
      rw [ih small, toChar, inside, HexBytes.pairs, byteText, byteText, List.map_cons, isByte]

theorem byteText_injective : Function.Injective byteText := by
  refine List.map_injective_iff.mpr ?_
  intro byte other same
  have isChar (byte : UInt8) : (Char.ofNat byte.toNat).toNat = byte.toNat :=
    toNat_charOfNat (.inl (Nat.lt_trans byte.toNat_lt (by decide)))
  have sameNat := congrArg Char.toNat same
  rw [isChar, isChar] at sameNat
  exact UInt8.toNat_inj.mp sameNat

/-- The digits of bytes give these bytes where none of them is below 16. -/
theorem dataFromHexString_iff (unset : Int) (bytes : List UInt8) :
    (dataFromHexString unset ((HexBytes.digits bytes).map digitChar) []).2 = byteText bytes ↔
      HexBytes.Padded bytes := by
  unfold dataFromHexString
  rw [List.length_map]
  split
  · next odd =>
      constructor
      · intro isNil
        -- no byte at all has an even number of digits
        cases bytes with
        | nil => exact absurd rfl odd
        | cons byte bytes => cases isNil
      · intro padded
        rw [HexBytes.length_digits_padded padded] at odd
        omega
  · rw [dataFrom_digits (HexBytes.digits_small bytes), byteText_injective.eq_iff,
      HexBytes.pairs_digits_eq_iff]

theorem slash_notMem_digits (small : ∀ digit ∈ digits, digit < 16) : '/' ∉ digits.map digitChar := by
  intro member
  obtain ⟨digit, isDigit, isSlash⟩ := List.mem_map.mp member
  have notSlash : ∀ digit < 16, digitChar digit ≠ '/' := by decide
  exact notSlash digit (small digit isDigit) isSlash

end

/-!
## The request URI
-/

/-- The marker, of seven characters: its length is taken as the size of a pointer less one. -/
def hexPrefix : Text := ['l', 'o', 'o', 'l', '/', '0', 'x']

def prefixLen : Nat := 8 - 1

/-- None where `substr` throws `std::out_of_range`. -/
def dehexify (unset : Int) (uriString : Text) : Option Text :=
  match findText hexPrefix uriString with
  | none => some uriString
  | some hexPos =>
      let start := hexPos + prefixLen
      let stop := findFirstOf uriString ['/'] start
      let encoded :=
        match stop with
        | none => uriString.drop start
        | some stop => (uriString.drop start).take (stop - start)
      let decoded := (dataFromHexString unset encoded []).2
      match stop with
      | none => none
      | some stop => some (uriString.take (start - 2) ++ decoded ++ uriString.drop stop)

section

variable {unset : Int} {front token rest : Text}

/-- What the first marker begins is replaced up to the next slash. -/
theorem dehexify_marker (noEarlier : ¬hexPrefix <:+: front ++ hexPrefix.dropLast)
    (noSlash : '/' ∉ token) (rest : Text) :
    dehexify unset (front ++ (hexPrefix ++ (token ++ '/' :: rest))) =
      some (front ++ ['l', 'o', 'o', 'l', '/'] ++ (dataFromHexString unset token []).2 ++
        '/' :: rest) := by
  have behind : (front ++ (hexPrefix ++ (token ++ '/' :: rest))).drop (front.length + prefixLen) =
      token ++ '/' :: rest := by
    rw [← List.append_assoc, ← show (front ++ hexPrefix).length = front.length + prefixLen from
      List.length_append, List.drop_left]
  have isStop : findFirstOf (front ++ (hexPrefix ++ (token ++ '/' :: rest))) ['/']
      (front.length + prefixLen) = some (front.length + prefixLen + token.length) := by
    have noDelimiter : ∀ ch ∈ token, ch ∉ ['/'] := by
      intro ch member isSlash
      exact noSlash (List.mem_singleton.mp isSlash ▸ member)
    have found := findFirstOf_append (List.mem_singleton_self '/') noDelimiter (front ++ hexPrefix) rest
    rw [List.append_assoc, List.length_append] at found
    exact found
  have isFront : (front ++ (hexPrefix ++ (token ++ '/' :: rest))).take (front.length + prefixLen - 2) =
      front ++ ['l', 'o', 'o', 'l', '/'] := by
    have isLength : front.length + prefixLen - 2 = (front ++ ['l', 'o', 'o', 'l', '/']).length := by
      rw [List.length_append]
      rfl
    have split : front ++ (hexPrefix ++ (token ++ '/' :: rest)) =
        (front ++ ['l', 'o', 'o', 'l', '/']) ++ ('0' :: 'x' :: (token ++ '/' :: rest)) := by
      rw [List.append_assoc]
      rfl
    rw [isLength, split, List.take_left]
  have isRest : (front ++ (hexPrefix ++ (token ++ '/' :: rest))).drop
      (front.length + prefixLen + token.length) = '/' :: rest := by
    rw [← List.drop_drop, behind, List.drop_left]
  unfold dehexify
  rw [findText_append noEarlier]
  dsimp only
  rw [isStop]
  dsimp only
  rw [isFront, isRest, behind, Nat.add_sub_cancel_left, List.take_left]

/-- Behind the marker there has to be a slash. -/
theorem dehexify_endless (noEarlier : ¬hexPrefix <:+: front ++ hexPrefix.dropLast)
    (noSlash : '/' ∉ token) : dehexify unset (front ++ (hexPrefix ++ token)) = none := by
  have behind : (front ++ (hexPrefix ++ token)).drop (front.length + prefixLen) = token := by
    rw [← List.append_assoc, ← show (front ++ hexPrefix).length = front.length + prefixLen from
      List.length_append, List.drop_left]
  have noStop : findFirstOf (front ++ (hexPrefix ++ token)) ['/'] (front.length + prefixLen) =
      none := by
    unfold findFirstOf
    rw [behind, List.findIdx?_eq_none_iff.mpr]
    · rfl
    · intro ch member
      simp only [List.mem_singleton, decide_eq_false_iff_not]
      rintro rfl
      exact noSlash member
  unfold dehexify
  rw [findText_append noEarlier]
  dsimp only
  rw [noStop]

end

end FreeOnline.Wsd.RequestDetails
