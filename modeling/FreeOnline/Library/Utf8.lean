import FreeOnline.Library.Text

/-!
# UTF-8

How a text is encoded, and how bytes are decoded that need not be an encoding: a maximal
part of a character, or a byte that starts none, becomes one replacement character.
-/

set_option autoImplicit false

namespace FreeOnline.Library.Utf8

def encode (text : Text) : List UInt8 := text.flatMap String.utf8EncodeChar

/-!
## Decoding
-/

/-- The continuation bytes that a first byte asks for. -/
def bytesNeeded (first : UInt8) : Nat :=
  if 0xc2 ≤ first ∧ first ≤ 0xdf then 1
  else if 0xe0 ≤ first ∧ first ≤ 0xef then 2
  else if 0xf0 ≤ first ∧ first ≤ 0xf4 then 3
  else 0

def lowerBoundary (first : UInt8) : UInt8 :=
  if first = 0xe0 then 0xa0 else if first = 0xf0 then 0x90 else 0x80

def upperBoundary (first : UInt8) : UInt8 :=
  if first = 0xed then 0x9f else if first = 0xf4 then 0x8f else 0xbf

def isContinuation (byte : UInt8) : Bool := 0x80 ≤ byte && byte ≤ 0xbf

/-- How many bytes become one replacement character where no character is in front. -/
def errorLength : List UInt8 → Nat
  | first :: second :: rest =>
      if lowerBoundary first ≤ second ∧ second ≤ upperBoundary first then
        1 + min (bytesNeeded first) (1 + (rest.takeWhile isContinuation).length)
      else 1
  | _ => 1

def decodeFor : Nat → List UInt8 → Text
  | 0, _ => []
  | _, [] => []
  | fuel + 1, bytes =>
      match bytes.toByteArray.utf8DecodeChar? 0 with
      | some ch => ch :: decodeFor fuel (bytes.drop ch.utf8Size)
      | none => '\uFFFD' :: decodeFor fuel (bytes.drop (errorLength bytes))

def decode (bytes : List UInt8) : Text := decodeFor bytes.length bytes

/-!
## Texts survive
-/

theorem encode_nil : encode [] = [] := rfl

theorem encode_cons (ch : Char) (text : Text) :
    encode (ch :: text) = String.utf8EncodeChar ch ++ encode text := rfl

theorem encode_append (text more : Text) : encode (text ++ more) = encode text ++ encode more :=
  List.flatMap_append

private theorem utf8EncodeChar_ascii {ch : Char} (ascii : ch.toNat < 128) :
    String.utf8EncodeChar ch = [ch.toNat.toUInt8] := by
  have small : ch.val.toNat ≤ 127 := Nat.le_of_lt_succ ascii
  unfold String.utf8EncodeChar
  dsimp only
  rw [if_pos small]
  rfl

theorem encode_ascii {text : Text} (ascii : ∀ ch ∈ text, ch.toNat < 128) :
    encode text = text.map fun ch => ch.toNat.toUInt8 := by
  induction text with
  | nil => rfl
  | cons ch text ih =>
      rw [encode_cons, utf8EncodeChar_ascii (ascii ch List.mem_cons_self),
        ih fun other isOther => ascii other (List.mem_cons_of_mem _ isOther)]
      rfl

private theorem eq_of_byte_eq {value : Nat} (fits : value < 256) {byte : UInt8}
    (same : byte = UInt8.ofNat value) : byte.toNat = value := by
  rw [same, UInt8.toNat_ofNat']
  exact Nat.mod_eq_of_lt fits

/-- Only a character below 128 has such bytes, and has itself. -/
theorem toNat_of_mem_utf8EncodeChar {ch : Char} {byte : UInt8} (low : byte.toNat < 128)
    (member : byte ∈ String.utf8EncodeChar ch) : byte.toNat = ch.toNat := by
  have tooHigh {value : Nat} (high : 128 ≤ value ∧ value < 256) : byte ≠ UInt8.ofNat value :=
    fun same => absurd (eq_of_byte_eq high.2 same ▸ low) (Nat.not_lt_of_le high.1)
  unfold String.utf8EncodeChar at member
  dsimp only at member
  split at member
  · next small =>
      exact eq_of_byte_eq (Nat.lt_of_le_of_lt small (by decide)) (List.mem_singleton.mp member)
  · split at member
    · simp only [List.mem_cons, List.not_mem_nil, or_false] at member
      rcases member with same | same
      · exact absurd same (tooHigh (by omega))
      · exact absurd same (tooHigh (by omega))
    · split at member
      · simp only [List.mem_cons, List.not_mem_nil, or_false] at member
        rcases member with same | same | same
        · exact absurd same (tooHigh (by omega))
        · exact absurd same (tooHigh (by omega))
        · exact absurd same (tooHigh (by omega))
      · simp only [List.mem_cons, List.not_mem_nil, or_false] at member
        rcases member with same | same | same | same
        · exact absurd same (tooHigh (by omega))
        · exact absurd same (tooHigh (by omega))
        · exact absurd same (tooHigh (by omega))
        · exact absurd same (tooHigh (by omega))

/-- A newline is encoded as itself, and nothing else is. -/
theorem newline_mem_encode {text : Text} (member : 10 ∈ encode text) : '\n' ∈ text := by
  obtain ⟨ch, isChar, isByte⟩ := List.mem_flatMap.mp member
  have same : '\n'.toNat = ch.toNat := toNat_of_mem_utf8EncodeChar (by decide) isByte
  exact Char.toNat_inj.mp same ▸ isChar

/-- A bound on ASCII characters holds of the bytes and of the characters alike. -/
theorem forall_le_encode_iff {bound : Nat} (low : bound ≤ 128) (text : Text) :
    (∀ byte ∈ encode text, bound ≤ byte.toNat) ↔ ∀ ch ∈ text, bound ≤ ch.toNat := by
  constructor
  · intro inside ch isChar
    by_contra small
    have isByte : ch.toNat.toUInt8 ∈ encode text := by
      refine List.mem_flatMap.mpr ⟨ch, isChar, ?_⟩
      rw [utf8EncodeChar_ascii (by omega)]
      exact List.mem_singleton_self _
    have isValue : ch.toNat.toUInt8.toNat = ch.toNat := eq_of_byte_eq (by omega) rfl
    have isLow := inside _ isByte
    omega
  · intro inside byte isByte
    by_contra small
    obtain ⟨ch, isChar, isByte⟩ := List.mem_flatMap.mp isByte
    have same := toNat_of_mem_utf8EncodeChar (by omega) isByte
    have isLow := inside ch isChar
    omega

private theorem decodeFor_encode {fuel : Nat} {text : Text} (enough : (encode text).length ≤ fuel) :
    decodeFor fuel (encode text) = text := by
  induction text generalizing fuel with
  | nil => cases fuel <;> rfl
  | cons ch text ih =>
      have size : (String.utf8EncodeChar ch).length = ch.utf8Size := String.length_utf8EncodeChar ch
      have positive : 0 < ch.utf8Size := Char.utf8Size_pos ch
      rw [encode_cons, List.length_append, size] at enough
      have isFirst : (encode (ch :: text)).toByteArray.utf8DecodeChar? 0 = some ch := by
        rw [encode_cons, List.toByteArray_append]
        exact ByteArray.utf8DecodeChar?_utf8EncodeChar_append
      have isRest : (encode (ch :: text)).drop ch.utf8Size = encode text := by
        rw [encode_cons, ← size, List.drop_left]
      cases fuel with
      | zero => omega
      | succ fuel =>
          cases isBytes : encode (ch :: text) with
          | nil =>
              rw [encode_cons] at isBytes
              exact absurd (List.append_eq_nil_iff.mp isBytes).1 String.utf8EncodeChar_ne_nil
          | cons byte bytes =>
              rw [isBytes] at isFirst isRest
              rw [decodeFor, isFirst]
              · dsimp only
                rw [isRest, ih (by omega)]
              · nofun

theorem decode_encode (text : Text) : decode (encode text) = text :=
  decodeFor_encode (Nat.le_refl _)

/-!
## What stands in front
-/

section

variable {ch : Char} {first : UInt8} {bytes : List UInt8}

private theorem isContinuation_ofNat {value : Nat} (bounds : 0x80 ≤ value ∧ value ≤ 0xbf) :
    isContinuation (UInt8.ofNat value) = true := by
  have same : (UInt8.ofNat value).toNat = value := eq_of_byte_eq (by omega) rfl
  rw [isContinuation, Bool.and_eq_true, decide_eq_true_eq, decide_eq_true_eq, UInt8.le_iff_toNat_le,
    UInt8.le_iff_toNat_le, same]
  exact bounds

private theorem ofNat_ne {value : Nat} (low : value < 0xf8) : UInt8.ofNat value ≠ 0xfb := by
  intro same
  have isValue : (0xfb : UInt8).toNat = value := eq_of_byte_eq (by omega) same.symm
  exact absurd isValue (Nat.ne_of_gt (Nat.lt_trans low (by decide)))

/-- A first byte, which is not 0xfb for one, and continuation bytes. -/
theorem exists_utf8EncodeChar (ch : Char) :
    ∃ first rest, String.utf8EncodeChar ch = first :: rest ∧ first ≠ 0xfb ∧
      ∀ byte ∈ rest, isContinuation byte = true := by
  unfold String.utf8EncodeChar
  dsimp only
  split
  · exact ⟨_, [], rfl, ofNat_ne (by omega), List.forall_mem_nil _⟩
  · split
    · refine ⟨_, _, rfl, ofNat_ne (by omega), List.forall_mem_singleton.mpr ?_⟩
      exact isContinuation_ofNat (by omega)
    · split
      · refine ⟨_, _, rfl, ofNat_ne (by omega), List.forall_mem_cons.mpr ⟨?_, ?_⟩⟩
        · exact isContinuation_ofNat (by omega)
        · exact List.forall_mem_singleton.mpr (isContinuation_ofNat (by omega))
      · refine ⟨_, _, rfl, ofNat_ne (by omega), List.forall_mem_cons.mpr ⟨?_, ?_⟩⟩
        · exact isContinuation_ofNat (by omega)
        · refine List.forall_mem_cons.mpr ⟨isContinuation_ofNat (by omega), ?_⟩
          exact List.forall_mem_singleton.mpr (isContinuation_ofNat (by omega))

private theorem isContinuation_inside {second : UInt8}
    (inside : lowerBoundary first ≤ second ∧ second ≤ upperBoundary first) :
    isContinuation second = true := by
  rw [isContinuation, Bool.and_eq_true, decide_eq_true_eq, decide_eq_true_eq]
  refine ⟨UInt8.le_trans ?_ inside.1, UInt8.le_trans inside.2 ?_⟩
  · unfold lowerBoundary
    split
    · decide
    · split
      · decide
      · decide
  · unfold upperBoundary
    split
    · decide
    · split
      · decide
      · decide

/-- Only continuation bytes are dropped with a first byte. -/
theorem exists_errorLength (first : UInt8) (bytes : List UInt8) :
    ∃ count, errorLength (first :: bytes) = count + 1 ∧
      ∀ byte ∈ bytes.take count, isContinuation byte = true := by
  cases bytes with
  | nil => exact ⟨0, rfl, nofun⟩
  | cons second rest =>
      rw [errorLength]
      by_cases inside : lowerBoundary first ≤ second ∧ second ≤ upperBoundary first
      · rw [if_pos inside]
        refine ⟨_, Nat.add_comm _ _, ?_⟩
        intro byte member
        have isTaken : (second :: rest).take (1 + (rest.takeWhile isContinuation).length) =
            second :: rest.takeWhile isContinuation := by
          rw [Nat.add_comm, List.take_succ_cons]
          exact congrArg _ (List.prefix_iff_eq_take.mp (List.takeWhile_prefix isContinuation)).symm
        have member : byte ∈ second :: rest.takeWhile isContinuation := by
          rw [← isTaken]
          exact List.take_subset_take_left _ (Nat.min_le_right _ _) member
        cases member with
        | head => exact isContinuation_inside inside
        | tail _ member => exact List.all_eq_true.mp List.all_takeWhile byte member
      · rw [if_neg inside]
        exact ⟨0, rfl, nofun⟩

/-- The bytes that a character is read from. -/
theorem eq_of_utf8DecodeChar? (isFirst : bytes.toByteArray.utf8DecodeChar? 0 = some ch) :
    bytes = String.utf8EncodeChar ch ++ bytes.drop ch.utf8Size := by
  obtain ⟨rest, isBytes⟩ := ByteArray.exists_of_utf8DecodeChar?_eq_some isFirst
  have same : bytes = String.utf8EncodeChar ch ++ rest.data.toList := by
    have whole := congrArg (fun array => array.data.toList) isBytes
    simpa using whole
  have size : (String.utf8EncodeChar ch).length = ch.utf8Size := String.length_utf8EncodeChar ch
  rw [same, ← size, List.drop_left]

theorem utf8DecodeChar?_append (ch : Char) (bytes : List UInt8) :
    (String.utf8EncodeChar ch ++ bytes).toByteArray.utf8DecodeChar? 0 = some ch := by
  rw [List.toByteArray_append]
  exact ByteArray.utf8DecodeChar?_utf8EncodeChar_append

theorem eq_of_utf8EncodeChar_append {other : Char} {rest : List UInt8}
    (same : String.utf8EncodeChar ch ++ bytes = String.utf8EncodeChar other ++ rest) : ch = other := by
  have isFirst := utf8DecodeChar?_append ch bytes
  rw [same, utf8DecodeChar?_append other rest] at isFirst
  exact (Option.some.inj isFirst).symm

end

end FreeOnline.Library.Utf8
