import FreeOnline.Browser.HexString
import FreeOnline.Wsd.RequestDetails

/-!
# Hexified URLs between browser and server

What the browser writes loses the leading zero of every byte below 16. Neither its own decoder nor
the server's gives the string back then, and the server's throws where no slash is behind the
digits.
-/

set_option autoImplicit false

namespace FreeOnline.Wsd.HexifiedRequests

open FreeOnline.Library
open FreeOnline.Browser.HexString
open FreeOnline.Wsd.RequestDetails

/-- How a string of ASCII characters is sent. -/
def asciiText (string : JsString) : Text := string.map fun unit => Char.ofNat unit.toNat

/-- The digits of a string as they are sent. -/
def sentDigits (string : JsString) : Text :=
  (HexBytes.digits (encodeBytes string)).map digitChar

section

variable {unset : Int} {string : JsString} {start remainder : Text}

theorem asciiText_hexEncode (string : JsString) :
    asciiText (hexEncode string) = '0' :: 'x' :: sentDigits string := by
  have isDigit : ∀ digit < 16, Char.ofNat (digitUnit digit).toNat = digitChar digit := by decide
  rw [hexEncode_eq, asciiText, List.map_append, List.map_map]
  refine congrArg (fun digits : Text => '0' :: 'x' :: digits) (List.map_congr_left ?_)
  intro digit member
  exact isDigit digit (HexBytes.digits_small _ digit member)

theorem slash_notMem_sentDigits (string : JsString) : '/' ∉ sentDigits string :=
  slash_notMem_digits (HexBytes.digits_small _)

theorem dataFromHexString_sentDigits (unset : Int) (string : JsString) :
    (dataFromHexString unset (sentDigits string) []).2 = byteText (encodeBytes string) ↔
      ∀ unit ∈ string, 16 ≤ unit.toNat := by
  rw [sentDigits, dataFromHexString_iff, padded_encodeBytes_iff]

/-!
## Markers in front
-/

/-- A marker in front of the digits ends in front of them. -/
theorem hexPrefix_infix_iff {front : Text} :
    hexPrefix <:+: front ++ hexPrefix.dropLast ↔ hexPrefix <:+: front ++ ['l', 'o', 'o', 'l', '/'] := by
  have isConcat : front ++ hexPrefix.dropLast = (front ++ ['l', 'o', 'o', 'l', '/']) ++ ['0'] := by
    rw [List.append_assoc]
    rfl
  rw [isConcat, List.infix_concat_iff, or_iff_right]
  rintro ⟨before, same⟩
  have sameLast := congrArg List.getLast? same
  rw [List.getLast?_append, List.getLast?_concat] at sameLast
  cases sameLast

theorem length_dataFrom_le (value : Int) (pending : List Nat) (token : Text) :
    (dataFrom value pending token).length ≤ token.length := by
  induction value, pending, token using dataFrom.induct with
  | case1 value pending => exact Nat.le_refl _
  | case2 value pending first => exact Nat.zero_le _
  | case3 value pending first second rest extracted behind isExtracted next ih =>
      rw [dataFrom, isExtracted, List.length_cons, List.length_cons, List.length_cons]
      exact Nat.succ_le_succ (Nat.le_succ_of_le ih)

theorem length_dataFromHexString_le (unset : Int) (token : Text) :
    (dataFromHexString unset token []).2.length ≤ token.length := by
  unfold dataFromHexString
  split
  · exact Nat.zero_le _
  · exact length_dataFrom_le unset [] token

private theorem le_length_of_slash {text before behind more : Text} (noSlash : '/' ∉ text)
    (same : before ++ '/' :: behind = text ++ more) : text.length ≤ before.length := by
  by_contra shorter
  have isSlash : (text ++ more)[before.length]? = some '/' := by
    rw [← same, List.getElem?_append_right (Nat.le_refl _), Nat.sub_self]
    rfl
  rw [List.getElem?_append_left (Nat.lt_of_not_le shorter)] at isSlash
  exact noSlash (List.mem_of_getElem? isSlash)

/-- Where a marker is in front already, what it begins is replaced instead. -/
theorem dehexify_nested (nested : hexPrefix <:+: start) (isPrefix : ['l', 'o', 'o', 'l', '/'] <:+ start)
    (rest expected : Text) :
    dehexify unset (start ++ rest) ≠ some (start ++ expected) := by
  obtain ⟨place, isFound⟩ := Option.isSome_iff_exists.mp (findText_isSome_iff.mpr nested)
  obtain ⟨isStart, noEarlier⟩ := findText_eq_some (by decide) isFound
  have endsWithSlash : start.getLast? = some '/' := by
    obtain ⟨before, rfl⟩ := isPrefix
    rw [List.getLast?_append]
    rfl
  have hasSlash : '/' ∈ start.drop (place + hexPrefix.length) := by
    cases behind : start.drop (place + hexPrefix.length) with
    | nil =>
        rw [isStart, behind, List.append_nil, List.getLast?_append] at endsWithSlash
        cases endsWithSlash
    | cons ch text =>
        rw [isStart, behind, List.getLast?_append, List.getLast?_append,
          List.getLast?_eq_some_getLast (List.cons_ne_nil ch text)] at endsWithSlash
        rw [← Option.some.inj endsWithSlash]
        exact List.getLast_mem _
  obtain ⟨token, more, isBehind, noSlash⟩ := List.eq_append_cons_of_mem hasSlash
  rw [isBehind] at isStart
  have isText : start ++ rest =
      start.take place ++ (hexPrefix ++ (token ++ '/' :: (more ++ rest))) := by
    conv => lhs; rw [isStart]
    rw [List.append_assoc, List.append_assoc, List.append_assoc, List.cons_append]
  rw [isText, dehexify_marker noEarlier noSlash]
  intro same
  -- what is decoded is too short to bring the slash behind where it was
  have shorter := length_dataFromHexString_le unset token
  have sameText := Option.some.inj same
  have isExpected : start ++ expected =
      (start.take place ++ ['l', 'o', 'o', 'l', '/']) ++
        (('0' :: 'x' :: token) ++ '/' :: (more ++ expected)) := by
    conv => lhs; rw [isStart]
    simp [hexPrefix]
  rw [isExpected, List.append_assoc (start.take place ++ _)] at sameText
  have longer := le_length_of_slash (by simpa using noSlash) (List.append_cancel_left sameText)
  rw [List.length_cons, List.length_cons] at longer
  omega

/-!
## Round trips
-/

theorem dehexify_sent_iff (isPrefix : ['l', 'o', 'o', 'l', '/'] <:+ start)
    (isRemainder : remainder = [] ∨ remainder.head? = some '/') :
    dehexify unset (start ++ asciiText (hexEncode string) ++ remainder) =
        some (start ++ byteText (encodeBytes string) ++ remainder) ↔
      (∀ unit ∈ string, 16 ≤ unit.toNat) ∧ remainder ≠ [] ∧ ¬hexPrefix <:+: start := by
  by_cases nested : hexPrefix <:+: start
  · rw [List.append_assoc, List.append_assoc]
    constructor
    · intro same
      exact absurd same (dehexify_nested nested isPrefix _ _)
    · rintro ⟨-, -, notNested⟩
      exact absurd nested notNested
  · obtain ⟨front, rfl⟩ := isPrefix
    have noEarlier := fun inside => nested (hexPrefix_infix_iff.mp inside)
    have noSlash := slash_notMem_sentDigits string
    have isRequest (rest : Text) :
        front ++ ['l', 'o', 'o', 'l', '/'] ++ asciiText (hexEncode string) ++ rest =
          front ++ (hexPrefix ++ (sentDigits string ++ rest)) := by
      rw [asciiText_hexEncode]
      simp [hexPrefix]
    rw [isRequest, and_iff_left nested]
    cases remainder with
    | nil =>
        rw [List.append_nil, dehexify_endless noEarlier noSlash]
        exact ⟨nofun, fun kept => absurd rfl kept.2⟩
    | cons ch rest =>
        have isSlash : ch = '/' := by
          cases isRemainder with
          | inl isNil => cases isNil
          | inr isFirst => exact Option.some.inj isFirst
        subst isSlash
        rw [dehexify_marker noEarlier noSlash, Option.some_inj, List.append_left_inj,
          List.append_right_inj, dataFromHexString_sentDigits, and_iff_left (List.cons_ne_nil _ _)]

theorem hexified_round_trip (unset : Int) (string : JsString) (start remainder : Text)
    (isPrefix : ['l', 'o', 'o', 'l', '/'] <:+ start)
    (isRemainder : remainder = [] ∨ remainder.head? = some '/') :
    (hexDecode (hexEncode string) = string ↔
      Utf16.isWellFormed string = true ∧ (∀ unit ∈ string, 16 ≤ unit.toNat) ∧
        string.head? ≠ some 0xfeff) ∧
    (dehexify unset (start ++ asciiText (hexEncode string) ++ remainder) =
        some (start ++ byteText (encodeBytes string) ++ remainder) ↔
      (∀ unit ∈ string, 16 ≤ unit.toNat) ∧ remainder ≠ [] ∧ ¬hexPrefix <:+: start) :=
  ⟨hexDecode_hexEncode_iff string, dehexify_sent_iff isPrefix isRemainder⟩

theorem hexified_round_trip_ws :
    hexDecode (hexEncode [0x41]) = [0x41] ∧
    dehexify 0 (['l', 'o', 'o', 'l', '/'] ++ asciiText (hexEncode [0x41]) ++ ['/', 'w', 's']) =
      some (['l', 'o', 'o', 'l', '/'] ++ byteText (encodeBytes [0x41]) ++ ['/', 'w', 's']) := by
  have isRoundTrip := hexified_round_trip 0 [0x41] ['l', 'o', 'o', 'l', '/'] ['/', 'w', 's']
    (List.suffix_refl _) (.inr rfl)
  have large : ∀ unit ∈ ([0x41] : JsString), 16 ≤ unit.toNat :=
    List.forall_mem_singleton.mpr (by decide)
  exact ⟨isRoundTrip.1.mpr ⟨rfl, large, by decide⟩, isRoundTrip.2.mpr ⟨large, by decide, by decide⟩⟩

/-- A newline loses its zero, and no slash behind the digits makes the server throw. -/
theorem hexified_newline_and_end :
    hexDecode (hexEncode [0x0a]) ≠ [0x0a] ∧
    dehexify 0 (['l', 'o', 'o', 'l', '/'] ++ asciiText (hexEncode [0x0a]) ++ ['/', 'w', 's']) ≠
      some (['l', 'o', 'o', 'l', '/'] ++ byteText (encodeBytes [0x0a]) ++ ['/', 'w', 's']) ∧
    dehexify 0 (['l', 'o', 'o', 'l', '/'] ++ asciiText (hexEncode [0x41])) = none := by
  have small : ¬∀ unit ∈ ([0x0a] : JsString), 16 ≤ unit.toNat :=
    List.forall_mem_singleton.not.mpr (by decide)
  refine ⟨?_, ?_, ?_⟩
  · intro same
    exact small ((hexDecode_hexEncode_iff [0x0a]).mp same).2.1
  · intro same
    exact small ((dehexify_sent_iff (List.suffix_refl _) (.inr rfl)).mp same).1
  · have isRequest : ['l', 'o', 'o', 'l', '/'] ++ asciiText (hexEncode [0x41]) =
        [] ++ (hexPrefix ++ sentDigits [0x41]) := by
      rw [asciiText_hexEncode]
      rfl
    rw [isRequest]
    exact dehexify_endless (by decide) (slash_notMem_sentDigits [0x41])

end

end FreeOnline.Wsd.HexifiedRequests
