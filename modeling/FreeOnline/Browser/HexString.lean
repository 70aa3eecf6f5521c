import FreeOnline.Browser.ProxySocket
import FreeOnline.Library.HexBytes
import FreeOnline.Library.Utf16

/-!
# Hexified strings

Strings are sequences of UTF-16 code units. The document URL is sent as the hexadecimal digits of
its UTF-8 bytes, each as `toString` gives it: without a leading zero.
-/

set_option autoImplicit false

namespace FreeOnline.Browser.HexString

open FreeOnline.Library
open FreeOnline.Browser.ProxySocket (isStrWhiteSpace decodeText)

abbrev JsString := List UInt16

/-- What a `TextEncoder` makes of a string. -/
def encodeBytes (string : JsString) : List UInt8 := Utf8.encode (Utf16.decode string)

/-- `toString` in base 16. -/
def toString16 (byte : UInt8) : JsString := (Hex.write byte.toNat).map UInt16.ofNat

def hexEncode (string : JsString) : JsString :=
  [48, 120] ++ (encodeBytes string).flatMap toString16

/-- In base 16; none is NaN. -/
def parseInt (string : JsString) : Option Int :=
  Hex.read isStrWhiteSpace (string.map UInt16.toNat)

/-- What is stored in a `Uint8Array`: zero for NaN. -/
def toUint8 : Option Int → UInt8
  | none => 0
  | some n => UInt8.ofNat (n % 256).toNat

/-- The array that `hexDecode` fills: half of an odd length is rounded down. -/
def hexBytes : JsString → List UInt8
  | [] => []
  | [_] => []
  | first :: second :: rest => toUint8 (parseInt [first, second]) :: hexBytes rest

/-- Without `0x` in front. -/
def skipPrefix : JsString → JsString
  | 48 :: 120 :: rest => rest
  | hex => hex

def hexDecode (hex : JsString) : JsString := Utf16.encode (decodeText (hexBytes (skipPrefix hex)))

/-!
## Digits
-/

section

variable {string : JsString}

/-- The code unit of a digit. -/
def digitUnit (digit : Nat) : UInt16 := UInt16.ofNat (Hex.digitCode digit)

private theorem toNat_digitUnit {digit : Nat} (small : digit < 16) :
    (digitUnit digit).toNat = Hex.digitCode digit := by
  have bounds := Hex.digitCode_bounds small
  exact UInt16.toNat_ofNat_of_lt' (show Hex.digitCode digit < 2 ^ 16 by omega)

theorem hexEncode_eq (string : JsString) :
    hexEncode string = [48, 120] ++ (HexBytes.digits (encodeBytes string)).map digitUnit := by
  unfold hexEncode HexBytes.digits
  rw [List.map_flatMap]
  congr 2
  funext byte
  rw [toString16, HexBytes.write_toNat, List.map_map]
  rfl

theorem isStrWhiteSpace_digitCode {digit : Nat} (small : digit < 16) :
    isStrWhiteSpace (Hex.digitCode digit) = false := by
  have bounds := Hex.digitCode_bounds small
  simp only [isStrWhiteSpace, Bool.or_eq_false_iff, Bool.and_eq_false_iff, decide_eq_false_iff_not]
  omega

theorem parseInt_digits {first second : Nat} (firstSmall : first < 16) (secondSmall : second < 16) :
    parseInt [digitUnit first, digitUnit second] = some ((16 * first + second : Nat) : Int) := by
  have small : ∀ digit ∈ [first, second], digit < 16 :=
    List.forall_mem_cons.mpr ⟨firstSmall, List.forall_mem_singleton.mpr secondSmall⟩
  have isRead := @Hex.read_digitCode isStrWhiteSpace [first, second] (List.cons_ne_nil _ _) small (by
    intro code isCode
    obtain ⟨digit, isDigit, rfl⟩ := List.mem_map.mp isCode
    exact isStrWhiteSpace_digitCode (small digit isDigit))
  have isValue : Hex.value [first, second] = 16 * first + second := by
    change (0 * 16 + first) * 16 + second = 16 * first + second
    omega
  rw [isValue] at isRead
  rw [← isRead, parseInt, List.map_cons, List.map_singleton, toNat_digitUnit firstSmall,
    toNat_digitUnit secondSmall]
  rfl

theorem hexBytes_digits {digits : List Nat} (small : ∀ digit ∈ digits, digit < 16) :
    hexBytes (digits.map digitUnit) = HexBytes.pairs digits := by
  induction digits using HexBytes.pairs.induct with
  | case1 => rfl
  | case2 first => rfl
  | case3 first second rest ih =>
      obtain ⟨firstSmall, small⟩ := List.forall_mem_cons.mp small
      obtain ⟨secondSmall, small⟩ := List.forall_mem_cons.mp small
      have inside : (((16 * first + second : Nat) : Int) % 256).toNat = 16 * first + second := by omega
      rw [List.map_cons, List.map_cons, hexBytes, parseInt_digits firstSmall secondSmall, ih small,
        HexBytes.pairs, toUint8, inside]

theorem hexDecode_hexEncode_eq (string : JsString) :
    hexDecode (hexEncode string) =
      Utf16.encode (decodeText (HexBytes.pairs (HexBytes.digits (encodeBytes string)))) := by
  have isSkipped (rest : JsString) : skipPrefix ([48, 120] ++ rest) = rest := rfl
  rw [hexDecode, hexEncode_eq, isSkipped, hexBytes_digits (HexBytes.digits_small _)]

/-!
## Strings that survive
-/

theorem decodeText_eq_iff {bytes : List UInt8} {text : Text} :
    decodeText bytes = text ↔
      Utf8.decode bytes = '\uFEFF' :: text ∨
        Utf8.decode bytes = text ∧ text.head? ≠ some '\uFEFF' := by
  unfold decodeText
  split
  · next rest isDecoded =>
      rw [isDecoded]
      constructor
      · intro same
        exact .inl (congrArg _ same)
      · rintro (same | ⟨rfl, notFirst⟩)
        · exact (List.cons.inj same).2
        · exact absurd rfl notFirst
  · next notMark =>
      constructor
      · intro same
        refine .inr ⟨same, ?_⟩
        intro isFirst
        obtain ⟨rest, isText⟩ := List.head?_eq_some_iff.mp isFirst
        exact notMark rest (same.trans isText)
      · rintro (same | ⟨same, -⟩)
        · exact absurd same (notMark text)
        · exact same

/-- A text is decoded from the digits that were written of it. -/
theorem decodeText_pairs_iff (text : Text) :
    decodeText (HexBytes.pairs (HexBytes.digits (Utf8.encode text))) = text ↔
      HexBytes.Padded (Utf8.encode text) ∧ text.head? ≠ some '\uFEFF' := by
  rw [decodeText_eq_iff]
  constructor
  · rintro (isDecoded | ⟨isDecoded, notMark⟩)
    · have notMore := @HexBytes.padded_of_decode text ['\uFEFF'] (by decide) isDecoded
      exact absurd notMore.1 (List.cons_ne_nil _ _)
    · exact ⟨(@HexBytes.padded_of_decode text [] (by decide) isDecoded).2, notMark⟩
  · rintro ⟨padded, notMark⟩
    rw [HexBytes.pairs_digits padded, Utf8.decode_encode]
    exact .inr ⟨rfl, notMark⟩

theorem padded_encodeBytes_iff (string : JsString) :
    HexBytes.Padded (encodeBytes string) ↔ ∀ unit ∈ string, 16 ≤ unit.toNat := by
  rw [HexBytes.Padded, encodeBytes, Utf8.forall_le_encode_iff (by decide),
    Utf16.forall_le_decode_iff (by decide)]

theorem hexDecode_hexEncode_iff (string : JsString) :
    hexDecode (hexEncode string) = string ↔
      Utf16.isWellFormed string = true ∧ (∀ unit ∈ string, 16 ≤ unit.toNat) ∧ string.head? ≠ some 0xfeff := by
  have isMark : (Utf16.decode string).head? = some '\uFEFF' ↔ string.head? = some 0xfeff :=
    Utf16.head?_decode_iff '\uFEFF' (by decide) (by decide)
  rw [hexDecode_hexEncode_eq, encodeBytes, ← padded_encodeBytes_iff, encodeBytes, Ne, ← isMark,
    ← decodeText_pairs_iff, ← Utf16.encode_decode_iff]
  constructor
  · intro same
    have isText := congrArg Utf16.decode same
    rw [Utf16.decode_encode] at isText
    refine ⟨?_, isText⟩
    rw [isText] at same
    exact same
  · rintro ⟨wellFormed, isText⟩
    rw [isText]
    exact wellFormed

end

end FreeOnline.Browser.HexString
