import FreeOnline.Common.StringVector

/-!
# Names and values

Tokens of the form `name=value`, and how they are looked for among the tokens of a message or
in the message itself.
-/

set_option autoImplicit false

namespace FreeOnline.Common

open FreeOnline.Kit (TileWireId)
open FreeOnline.Library

def stringToInteger (input : Text) : Option Int := i32FromString input

def stringToUInt32 (input : Text) : Option TileWireId := (i32FromString input).map toUInt32

def parseNameValuePair (token : Text) : Option (Text × Text) :=
  if '=' ∈ token then
    let name := token.takeWhile (· ≠ '=')
    some (name, token.drop (name.length + 1))
  else none

def getTokenString (token name : Text) : Option Text :=
  if (name ++ ['=']).isPrefixOf token then some (token.drop (name.length + 1)) else none

/-- The first token of that name. -/
def getTokensString (tokens : List Text) (name : Text) : Option Text :=
  tokens.findSome? fun token => getTokenString token name

def getTokenInteger (token name : Text) : Option Int :=
  if token.length > name.length + 1 then (getTokenString token name).bind strtol else none

def getTokensInteger (tokens : List Text) (name : Text) : Option Int :=
  tokens.findSome? fun token => getTokenInteger token name

/-- The search from here on. So many characters are skipped first, and `previous` is in front. -/
def findTokenString (name : Text) (previous : Option Char) : Nat → Text → Option Text
  | _, [] => none
  | skipped + 1, ch :: rest => findTokenString name (some ch) skipped rest
  | 0, ch :: rest =>
      if name.isPrefixOf (ch :: rest) then
        let after := (ch :: rest).drop name.length
        if (previous = none ∨ previous = some ' ') ∧ after.head? = some '=' then
          some (after.tail.takeWhile fun ch => ch ≠ ' ' && ch ≠ '\n')
        else findTokenString name (some ch) (name.length - 1) rest
      else findTokenString name (some ch) 0 rest

def getTokenStringFromMessage (message name : Text) : Option Text :=
  if message.length > name.length + 1 then findTokenString name none 0 message else none

def getTokenIntegerFromMessage (message name : Text) : Option Int :=
  getTokensInteger (tokenize message ' ') name

/-- The token as it is printed. -/
def nameValue (name value : Text) : Text := name ++ '=' :: value

section

variable {name other value : Text}

private theorem takeWhile_name (noEquals : '=' ∉ name) :
    (nameValue name value).takeWhile (· ≠ '=') = name := by
  unfold nameValue
  rw [List.takeWhile_append_of_pos]
  · simp
  · intro ch member
    have different : ch ≠ '=' := fun same => noEquals (same ▸ member)
    simpa using different

private theorem drop_name : (nameValue name value).drop (name.length + 1) = value := by
  have split : nameValue name value = (name ++ ['=']) ++ value := by simp [nameValue]
  rw [split]
  exact List.drop_left' (by simp)

theorem parseNameValuePair_nameValue (noEquals : '=' ∉ name) :
    parseNameValuePair (nameValue name value) = some (name, value) := by
  have isIn : '=' ∈ nameValue name value := by simp [nameValue]
  unfold parseNameValuePair
  rw [if_pos isIn, takeWhile_name noEquals]
  dsimp only
  rw [drop_name]

theorem getNameIntegerPair_nameValue (noEquals : '=' ∉ name) (n : Int) :
    getNameIntegerPair (nameValue name (printInt n)) =
      if n < intMax then some (name, max (-intMax) n) else none := by
  have isIn : '=' ∈ nameValue name (printInt n) := by simp [nameValue]
  unfold getNameIntegerPair
  rw [if_neg (not_not_intro isIn), takeWhile_name noEquals]
  dsimp only
  rw [drop_name, safeAtoi_printInt]
  have bound : 0 < intMax := by decide
  split
  · next inside =>
      rw [if_pos (by omega)]
      congr 2
      omega
  · next outside => rw [if_neg (by omega)]

/-- The name of a token is all that stands before its first sign of equality. -/
theorem isPrefixOf_nameValue (noEquals : '=' ∉ name) (otherNoEquals : '=' ∉ other) :
    (other ++ ['=']).isPrefixOf (nameValue name value) = true ↔ other = name := by
  rw [List.isPrefixOf_iff_prefix]
  constructor
  · rintro ⟨rest, same⟩
    have names := congrArg (List.takeWhile (· ≠ '=')) same
    rw [takeWhile_name noEquals, List.append_assoc, List.singleton_append] at names
    exact (takeWhile_name otherNoEquals).symm.trans names
  · rintro rfl
    exact ⟨value, by simp [nameValue]⟩

theorem getTokenString_nameValue (noEquals : '=' ∉ name) (otherNoEquals : '=' ∉ other) :
    getTokenString (nameValue name value) other = if other = name then some value else none := by
  unfold getTokenString
  by_cases same : other = name
  · rw [if_pos ((isPrefixOf_nameValue noEquals otherNoEquals).mpr same), if_pos same, same, drop_name]
  · rw [if_neg fun isPrefix => same ((isPrefixOf_nameValue noEquals otherNoEquals).mp isPrefix),
      if_neg same]

theorem getTokenString_of_notMem {token : Text} (noEquals : '=' ∉ token) (name : Text) :
    getTokenString token name = none := by
  refine if_neg fun isPrefix => noEquals ?_
  exact (List.isPrefixOf_iff_prefix.mp isPrefix).subset
    (List.mem_append_right _ (List.mem_singleton_self _))

theorem getTokenInteger_of_notMem {token : Text} (noEquals : '=' ∉ token) (name : Text) :
    getTokenInteger token name = none := by
  unfold getTokenInteger
  rw [getTokenString_of_notMem noEquals]
  split
  · rfl
  · rfl

theorem getTokenInteger_of_ne (noEquals : '=' ∉ name) (otherNoEquals : '=' ∉ other)
    (different : other ≠ name) : getTokenInteger (nameValue name value) other = none := by
  unfold getTokenInteger
  rw [getTokenString_nameValue noEquals otherNoEquals, if_neg different]
  split
  · rfl
  · rfl

theorem getTokenInteger_printInt (noEquals : '=' ∉ name) {n : Int}
    (fits : -intMax - 1 ≤ n ∧ n ≤ intMax) :
    getTokenInteger (nameValue name (printInt n)) name = some n := by
  have isRead := @strtol_printInt n fits [] nofun
  rw [List.append_nil] at isRead
  have longer : (nameValue name (printInt n)).length > name.length + 1 := by
    have positive := List.length_pos_iff.mpr (printInt_ne_nil n)
    simp only [nameValue, List.length_append, List.length_cons]
    omega
  unfold getTokenInteger
  rw [if_pos longer, getTokenString_nameValue noEquals noEquals, if_pos rfl, Option.bind_some, isRead]

theorem getUInt32_nameValue (noEquals : '=' ∉ name) (otherNoEquals : '=' ∉ other)
    (notNil : value ≠ []) :
    getUInt32 (nameValue name value) other =
      if other = name then
        some (toUInt32 (safeAtoi value),
          decide (toUInt32 (safeAtoi value) < UInt32.ofNat (2 ^ 32 - 1)))
      else none := by
  have isPrefix := @isPrefixOf_nameValue name other value noEquals otherNoEquals
  unfold getUInt32
  dsimp only
  by_cases same : other = name
  · subst same
    have longer : (nameValue other value).length > other.length + 1 := by
      have positive := List.length_pos_iff.mpr notNil
      simp only [nameValue, List.length_append, List.length_cons]
      omega
    rw [if_pos ⟨longer, isPrefix.mpr rfl⟩, if_pos rfl, drop_name]
  · rw [if_neg fun both => same (isPrefix.mp both.2), if_neg same]

end

theorem isWord_nameValue {delimiter : Char} {name value : Text} (notEquals : delimiter ≠ '=')
    (name' : delimiter ∉ name ∧ '\n' ∉ name) (value' : delimiter ∉ value ∧ '\n' ∉ value) :
    IsWord delimiter (nameValue name value) where
  notNil := by simp [nameValue]
  notDelimiter := by simp [nameValue, name'.1, value'.1, notEquals]
  notNewline := by simp [nameValue, name'.2, value'.2]

/-- Words with a space in front of each, behind a word or nothing. -/
theorem tokenize_words {start : Text} {words : List Text}
    (areWords : ∀ word ∈ words, IsWord ' ' word) (started : start = [] ∨ IsWord ' ' start)
    (noNul : '\x00' ∉ start) :
    tokenize (start ++ words.flatMap (' ' :: ·)) ' ' =
      (if start = [] then words else start :: words) := by
  have head : (start ++ words.flatMap (' ' :: ·)).head? ≠ some '\x00' := by
    cases start with
    | nil =>
        cases words with
        | nil => simp
        | cons word words => simp
    | cons ch start =>
        rintro isNul
        cases Option.some.inj isNul
        exact noNul List.mem_cons_self
  unfold tokenize
  rw [if_neg head]
  by_cases empty : start = []
  · rw [if_pos empty, empty, List.nil_append]
    cases words with
    | nil => simp [tokenizeFrom]
    | cons word words =>
        have isWord := areWords word List.mem_cons_self
        have later : ∀ other ∈ words, IsWord ' ' other :=
          fun other member => areWords other (List.mem_cons_of_mem _ member)
        rw [List.flatMap_cons, List.cons_append, tokenizeFrom, if_neg (by decide), if_pos rfl,
          if_neg (by simp), tokenizeFrom_delimiter isWord]
        exact tokenizeFrom_words later isWord (by decide)
  · have isWord := started.resolve_left empty
    rw [if_neg empty, tokenizeFrom_begin isWord]
    exact tokenizeFrom_words areWords isWord (by decide)

/-!
## Tokens of a message that is not cut
-/

theorem prefix_of_append {word part rest : Text} {delimiter : Char} (inPart : delimiter ∉ part)
    (isPrefix : part <+: word ++ delimiter :: rest) : part <+: word := by
  rcases List.prefix_or_prefix_of_prefix isPrefix (List.prefix_append word _) with short | long
  · exact short
  · obtain ⟨more, rfl⟩ := long
    rw [List.prefix_append_right_inj] at isPrefix
    cases more with
    | nil => simp
    | cons ch more =>
        obtain ⟨later, same⟩ := isPrefix
        rw [List.cons_append] at same
        obtain ⟨rfl, -⟩ := List.cons.inj same
        exact absurd (List.mem_append_right _ List.mem_cons_self) inPart

section

variable {name : Text} (noSpace : ' ' ∉ name) (notNil : name ≠ [])

include noSpace notNil

/-- A word is passed that is not the token, wherever the name occurs in it. -/
theorem findTokenString_word {word : Text} (isWord : ' ' ∉ word) {previous : Option Char}
    {skipped : Nat} (inside : skipped ≤ word.length)
    (other : (∃ ch, previous = some ch ∧ ch ≠ ' ') ∨ ¬name ++ ['='] <+: word) (rest : Text) :
    findTokenString name previous skipped (word ++ ' ' :: rest) =
      findTokenString name (some ' ') 0 rest := by
  induction word generalizing previous skipped with
  | nil =>
      have noPrefix : ¬name.isPrefixOf (' ' :: rest) = true := by
        intro isPrefix
        rw [List.isPrefixOf_iff_prefix] at isPrefix
        exact notNil (List.prefix_nil.mp (@prefix_of_append [] name rest ' ' noSpace isPrefix))
      rw [Nat.le_zero.mp inside, List.nil_append, findTokenString, if_neg noPrefix]
  | cons ch word ih =>
      rw [List.mem_cons, not_or] at isWord
      have later : (∃ first, some ch = some first ∧ first ≠ ' ') ∨ ¬name ++ ['='] <+: word :=
        .inl ⟨ch, rfl, Ne.symm isWord.1⟩
      cases skipped with
      | succ skipped =>
          exact ih isWord.2 (Nat.le_of_succ_le_succ inside) later
      | zero =>
          rw [List.cons_append, findTokenString]
          split
          · next isPrefix =>
              rw [← List.cons_append, List.isPrefixOf_iff_prefix] at isPrefix
              obtain ⟨after, isAfter⟩ := prefix_of_append noSpace isPrefix
              have length := congrArg List.length isAfter
              rw [List.length_append, List.length_cons] at length
              have notHere : ¬((previous = none ∨ previous = some ' ') ∧
                  ((ch :: (word ++ ' ' :: rest)).drop name.length).head? = some '=') := by
                rintro ⟨spaceBefore, isEquals⟩
                rcases other with ⟨first, rfl, notSpace⟩ | noToken
                · rcases spaceBefore with isNone | isSpace
                  · cases isNone
                  · exact notSpace (Option.some.inj isSpace)
                · rw [← List.cons_append, ← isAfter, List.append_assoc, List.drop_left] at isEquals
                  rw [← isAfter, List.prefix_append_right_inj] at noToken
                  cases after with
                  | nil => simp at isEquals
                  | cons sign after =>
                      rw [List.cons_append, List.head?_cons] at isEquals
                      cases isEquals
                      exact noToken ⟨after, rfl⟩
              dsimp only
              rw [if_neg notHere]
              exact ih isWord.2 (by omega) later
          · exact ih isWord.2 (Nat.zero_le _) later

omit noSpace in
theorem findTokenString_here {value rest : Text} (isValue : ' ' ∉ value ∧ '\n' ∉ value)
    (ends : rest = [] ∨ rest.head? = some ' ') :
    findTokenString name (some ' ') 0 (nameValue name value ++ rest) = some value := by
  obtain ⟨ch, others, rfl⟩ := List.exists_cons_of_ne_nil notNil
  have isPrefix : (ch :: others).isPrefixOf (ch :: (others ++ '=' :: (value ++ rest))) = true :=
    List.isPrefixOf_iff_prefix.mpr ⟨'=' :: (value ++ rest), rfl⟩
  have dropped : (ch :: (others ++ '=' :: (value ++ rest))).drop (ch :: others).length =
      '=' :: (value ++ rest) :=
    List.drop_left' rfl
  have taken : (value ++ rest).takeWhile (fun ch => ch ≠ ' ' && ch ≠ '\n') = value := by
    rw [List.takeWhile_append_of_pos]
    · rcases ends with rfl | isSpace
      · simp
      · obtain ⟨later, rfl⟩ := List.head?_eq_some_iff.mp isSpace
        simp
    · intro ch member
      have notSpace : ch ≠ ' ' := fun same => isValue.1 (same ▸ member)
      have notNewline : ch ≠ '\n' := fun same => isValue.2 (same ▸ member)
      simp [notSpace, notNewline]
  have split : nameValue (ch :: others) value ++ rest =
      ch :: (others ++ '=' :: (value ++ rest)) := by
    simp [nameValue]
  rw [split, findTokenString, if_pos isPrefix]
  dsimp only
  rw [dropped, if_pos ⟨.inr rfl, rfl⟩, List.tail_cons, taken]

end

end FreeOnline.Common
