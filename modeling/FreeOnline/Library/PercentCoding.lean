import FreeOnline.Library.Hex
import FreeOnline.Library.Text

/-!
# Percent-encoding

How the triples of a URI are decoded, and how the parameters are read from its query.
-/

set_option autoImplicit false

namespace FreeOnline.Library.PercentCoding

/-- The character of two digits. -/
def tripleChar (high low : Char) : Option Char :=
  match Hex.digitValue high.toNat, Hex.digitValue low.toNat with
  | some high, some low => some (Char.ofNat (16 * high + low))
  | _, _ => none

/-- None where two digits do not follow a percent sign. -/
def decode : Text → Option Text
  | [] => some []
  | ch :: rest =>
      if ch = '%' then
        match rest with
        | high :: low :: behind =>
            match tripleChar high low with
            | some decoded => (decode behind).map (decoded :: ·)
            | none => none
        | _ => none
      else (decode rest).map (ch :: ·)

/-- What is between the question mark and the fragment. -/
def query (uri : Text) : Text :=
  match uri.dropWhile fun ch => ch ≠ '?' && ch ≠ '#' with
  | '?' :: rest => rest.takeWhile (· ≠ '#')
  | _ => []

def plusAsSpace (text : Text) : Text := text.map fun ch => if ch = '+' then ' ' else ch

/-- A name, and a value behind the first equals sign. -/
def readParameter (piece : Text) : Option (Text × Text) := do
  let name ← decode (plusAsSpace (piece.takeWhile (· ≠ '=')))
  let value ← decode (plusAsSpace ((piece.dropWhile (· ≠ '=')).drop 1))
  return (name, value)

def readParameters : List Text → Option (List (Text × Text))
  | [] => some []
  | piece :: pieces => do
      let parameter ← readParameter piece
      let parameters ← readParameters pieces
      return parameter :: parameters

def getQueryParameters (uri : Text) : Option (List (Text × Text)) :=
  readParameters (if query uri = [] then [] else (query uri).splitOn '&')

/-!
## Decoding
-/

section

variable {ch : Char} {text decoded : Text}

theorem decode_other (notPercent : ch ≠ '%') (rest : Text) :
    decode (ch :: rest) = (decode rest).map (ch :: ·) := by
  conv => lhs; unfold decode
  rw [if_neg notPercent]

theorem decode_percent (high low : Char) (rest : Text) :
    decode ('%' :: high :: low :: rest) =
      (tripleChar high low).bind fun triple => (decode rest).map (triple :: ·) := by
  rw [decode, if_pos rfl]
  cases tripleChar high low with
  | none => rfl
  | some triple => rfl

/-- How a text that can be decoded begins. -/
inductive Decodes : Text → Text → Prop where
  | nil : Decodes [] []
  | triple {high low triple rest decoded} (isTriple : tripleChar high low = some triple) :
      Decodes rest decoded → Decodes ('%' :: high :: low :: rest) (triple :: decoded)
  | other {ch rest decoded} (notPercent : ch ≠ '%') :
      Decodes rest decoded → Decodes (ch :: rest) (ch :: decoded)

theorem Decodes.decode_append (decodes : Decodes text decoded) (more : Text) :
    decode (text ++ more) = (decode more).map (decoded ++ ·) := by
  induction decodes with
  | nil =>
      cases isMore : decode more with
      | none => exact isMore
      | some rest => exact isMore
  | triple isTriple later ih =>
      rw [List.cons_append, List.cons_append, List.cons_append, decode_percent, isTriple,
        Option.bind_some, ih, Option.map_map]
      rfl
  | other notPercent later ih =>
      rw [List.cons_append, decode_other notPercent, ih, Option.map_map]
      rfl

theorem Decodes.length_le (decodes : Decodes text decoded) : decoded.length ≤ text.length := by
  induction decodes with
  | nil => exact Nat.le_refl _
  | triple isTriple later ih =>
      exact Nat.succ_le_succ (Nat.le_succ_of_le (Nat.le_succ_of_le ih))
  | other notPercent later ih => exact Nat.succ_le_succ ih

theorem decodes_of_decode (isDecoded : decode text = some decoded) : Decodes text decoded := by
  induction text using decode.induct generalizing decoded with
  | case1 =>
      cases isDecoded
      exact .nil
  | case2 high low behind triple isTriple ih =>
      rw [decode_percent, isTriple, Option.bind_some] at isDecoded
      obtain ⟨rest, isRest, rfl⟩ := Option.map_eq_some_iff.mp isDecoded
      exact .triple isTriple (ih isRest)
  | case3 high low behind noTriple =>
      rw [decode_percent, noTriple] at isDecoded
      cases isDecoded
  | case4 rest short =>
      rw [decode, if_pos rfl] at isDecoded
      · cases isDecoded
      · exact short
  | case5 ch rest notPercent ih =>
      rw [decode_other notPercent] at isDecoded
      obtain ⟨rest, isRest, rfl⟩ := Option.map_eq_some_iff.mp isDecoded
      exact .other notPercent (ih isRest)

theorem decode_append (isDecoded : decode text = some decoded) (more : Text) :
    decode (text ++ more) = (decode more).map (decoded ++ ·) :=
  (decodes_of_decode isDecoded).decode_append more

theorem Decodes.notMem_of_self (decodes : Decodes text decoded) (same : decoded = text) :
    '%' ∉ text := by
  induction decodes with
  | nil => exact List.not_mem_nil
  | triple isTriple later ih =>
      have shorter := later.length_le
      have sameLength := congrArg List.length same
      rw [List.length_cons, List.length_cons, List.length_cons, List.length_cons] at sameLength
      omega
  | other notPercent later ih =>
      intro member
      cases member with
      | head => exact notPercent rfl
      | tail _ member => exact ih (List.cons.inj same).2 member

theorem decode_self_iff (text : Text) : decode text = some text ↔ '%' ∉ text := by
  constructor
  · intro isDecoded
    exact (decodes_of_decode isDecoded).notMem_of_self rfl
  · intro notMem
    induction text with
    | nil => rfl
    | cons ch rest ih =>
        have notPercent : ch ≠ '%' := fun same => notMem (same ▸ List.mem_cons_self)
        rw [decode_other notPercent, ih fun member => notMem (List.mem_cons_of_mem _ member)]
        rfl

end

/-!
## The first parameter
-/

/-- What has a meaning in a path or a query. -/
def reserved : Text := ['/', '?', '#', '&', '=', '+']

section

variable {path name value rest : Text}

private theorem plusAsSpace_of_notMem {text : Text} (noReserved : ∀ ch ∈ text, ch ∉ reserved) :
    plusAsSpace text = text := by
  have kept : ∀ ch ∈ text, (if ch = '+' then ' ' else ch) = id ch := by
    intro ch member
    have notPlus : ch ≠ '+' := fun same => noReserved ch member (same ▸ by decide)
    exact if_neg notPlus
  exact (List.map_congr_left kept).trans (List.map_id text)

theorem query_append (isPath : ∀ ch ∈ path, ch ≠ '?' ∧ ch ≠ '#') (rest : Text) :
    query (path ++ '?' :: rest) = rest.takeWhile (· ≠ '#') := by
  have inPath : ∀ ch ∈ path, (ch ≠ '?' && ch ≠ '#') = true := by
    intro ch member
    rw [Bool.and_eq_true, decide_eq_true_eq, decide_eq_true_eq]
    exact isPath ch member
  unfold query
  rw [List.dropWhile_append_of_pos inPath, List.dropWhile_cons_of_neg (by decide)]
  rfl

theorem readParameter_append (isName : ∀ ch ∈ name, ch ∉ reserved)
    (isValue : ∀ ch ∈ value, ch ∉ reserved) :
    readParameter (name ++ '=' :: value) =
      (decode name).bind fun name => (decode value).map fun value => (name, value) := by
  have inName : ∀ ch ∈ name, decide (ch ≠ '=') = true := by
    intro ch member
    exact decide_eq_true fun same => isName ch member (same ▸ by decide)
  unfold readParameter
  rw [List.takeWhile_append_of_pos inName, List.dropWhile_append_of_pos inName,
    List.takeWhile_cons_of_neg (by decide), List.dropWhile_cons_of_neg (by decide), List.append_nil,
    List.drop_one, List.tail_cons, plusAsSpace_of_notMem isName, plusAsSpace_of_notMem isValue]
  cases decode name with
  | none => rfl
  | some name =>
      cases decode value with
      | none => rfl
      | some value => rfl

theorem query_first (isPath : ∀ ch ∈ path, ch ≠ '?' ∧ ch ≠ '#')
    (isName : ∀ ch ∈ name, ch ∉ reserved) (isValue : ∀ ch ∈ value, ch ∉ reserved) (rest : Text) :
    query (path ++ '?' :: (name ++ '=' :: (value ++ '&' :: rest))) =
      (name ++ '=' :: value) ++ '&' :: rest.takeWhile (· ≠ '#') := by
  have noFragment {text : Text} (noReserved : ∀ ch ∈ text, ch ∉ reserved) :
      ∀ ch ∈ text, decide (ch ≠ '#') = true := by
    intro ch member
    exact decide_eq_true fun same => noReserved ch member (same ▸ by decide)
  rw [query_append isPath, List.takeWhile_append_of_pos (noFragment isName),
    List.takeWhile_cons_of_pos (by decide), List.takeWhile_append_of_pos (noFragment isValue),
    List.takeWhile_cons_of_pos (by decide), List.append_assoc, List.cons_append]

/-- The first parameter of a query that has more of them. -/
theorem getQueryParameters_first {params : List (Text × Text)}
    (isPath : ∀ ch ∈ path, ch ≠ '?' ∧ ch ≠ '#') (isName : ∀ ch ∈ name, ch ∉ reserved)
    (isValue : ∀ ch ∈ value, ch ∉ reserved)
    (isParams : getQueryParameters (path ++ '?' :: (name ++ '=' :: (value ++ '&' :: rest))) =
      some params) :
    ∃ decodedName decodedValue more, decode name = some decodedName ∧
      decode value = some decodedValue ∧ params = (decodedName, decodedValue) :: more := by
  have noSeparator : ∀ ch ∈ name ++ '=' :: value, (ch == '&') = false := by
    intro ch member
    refine beq_eq_false_iff_ne.mpr ?_
    rintro rfl
    rcases List.mem_append.mp member with inName | inValue
    · exact isName '&' inName (by decide)
    · cases inValue with
      | tail _ inValue => exact isValue '&' inValue (by decide)
  rw [getQueryParameters, query_first isPath isName isValue, if_neg (by simp),
    List.splitOn_eq_splitOnP, List.splitOnP_append_cons_of_forall_mem noSeparator '&' rfl,
    readParameters, readParameter_append isName isValue] at isParams
  obtain ⟨first, isFirst, isParams⟩ := Option.bind_eq_some_iff.mp isParams
  obtain ⟨decodedName, isDecodedName, isFirst⟩ := Option.bind_eq_some_iff.mp isFirst
  obtain ⟨decodedValue, isDecodedValue, rfl⟩ := Option.map_eq_some_iff.mp isFirst
  obtain ⟨more, -, isParams⟩ := Option.bind_eq_some_iff.mp isParams
  cases isParams
  exact ⟨decodedName, decodedValue, more, isDecodedName, isDecodedValue, rfl⟩

end

/-!
## Encoding
-/

def upperDigit (digit : Nat) : Char := Char.ofNat (if digit < 10 then 48 + digit else 55 + digit)

/-- A byte as it is, or the triple of it. -/
def escape (isUnescaped : UInt8 → Bool) (byte : UInt8) : Text :=
  if isUnescaped byte then [Char.ofNat byte.toNat]
  else ['%', upperDigit (byte.toNat / 16), upperDigit (byte.toNat % 16)]

def encode (isUnescaped : UInt8 → Bool) (bytes : List UInt8) : Text :=
  bytes.flatMap (escape isUnescaped)

section

variable {isUnescaped : UInt8 → Bool}

theorem tripleChar_upperDigit (byte : UInt8) :
    tripleChar (upperDigit (byte.toNat / 16)) (upperDigit (byte.toNat % 16)) =
      some (Char.ofNat byte.toNat) := by
  have isDigit : ∀ digit : Nat, digit < 16 → Hex.digitValue (upperDigit digit).toNat = some digit := by
    decide
  have small := byte.toNat_lt
  unfold tripleChar
  rw [isDigit (byte.toNat / 16) (by omega), isDigit (byte.toNat % 16) (by omega)]
  dsimp only
  rw [Nat.div_add_mod]

theorem decodes_escape {byte : UInt8} (notPercent : isUnescaped 37 = false) {rest decoded : Text}
    (later : Decodes rest decoded) :
    Decodes (escape isUnescaped byte ++ rest) (Char.ofNat byte.toNat :: decoded) := by
  unfold escape
  split
  next isKept =>
    apply Decodes.other _ later
    intro isPercent
    have isByte : byte = 37 := by
      have isValid : byte.toNat.isValidChar := .inl (Nat.lt_trans byte.toNat_lt (by decide))
      apply UInt8.toNat_inj.mp
      exact (toNat_charOfNat isValid).symm.trans (congrArg Char.toNat isPercent)
    rw [isByte, notPercent] at isKept
    cases isKept
  next => exact .triple (tripleChar_upperDigit byte) later

theorem decode_encode (notPercent : isUnescaped 37 = false) (bytes : List UInt8) :
    decode (encode isUnescaped bytes) = some (bytes.map fun byte => Char.ofNat byte.toNat) := by
  have decodes : Decodes (encode isUnescaped bytes)
      (bytes.map fun byte => Char.ofNat byte.toNat) := by
    induction bytes with
    | nil => exact .nil
    | cons byte bytes ih => exact decodes_escape notPercent ih
  have whole := decodes.decode_append []
  rw [List.append_nil] at whole
  rw [whole, decode, Option.map_some, List.append_nil]

theorem encode_append (bytes more : List UInt8) :
    encode isUnescaped (bytes ++ more) = encode isUnescaped bytes ++ encode isUnescaped more :=
  List.flatMap_append

/-- Only what is kept and triples are in what is encoded. -/
theorem notMem_encode {ch : Char} {byte : UInt8} (isByte : byte.toNat = ch.toNat)
    (notKept : isUnescaped byte = false) (notPercent : ch ≠ '%')
    (notDigit : ∀ digit, digit < 16 → ch ≠ upperDigit digit) (bytes : List UInt8) :
    ch ∉ encode isUnescaped bytes := by
  intro isThere
  obtain ⟨kept, -, isPart⟩ := List.mem_flatMap.mp isThere
  have small := kept.toNat_lt
  unfold escape at isPart
  split at isPart
  next isKept =>
    have isValid : kept.toNat.isValidChar := .inl (Nat.lt_trans small (by decide))
    have same : kept = byte := by
      apply UInt8.toNat_inj.mp
      rw [isByte, List.mem_singleton.mp isPart, toNat_charOfNat isValid]
    rw [same, notKept] at isKept
    cases isKept
  next =>
    rw [List.mem_cons, List.mem_cons, List.mem_singleton] at isPart
    obtain isPercent | isHigh | isLow := isPart
    · exact notPercent isPercent
    · exact notDigit _ (by omega) isHigh
    · exact notDigit _ (by omega) isLow

end

end FreeOnline.Library.PercentCoding
