import FreeOnline.Common.Tokenizer

/-!
# Names of quarantined files

A name is made of the time, the process, the document and the file name, with underscores
between them. The time and the document are read from it again.
-/

set_option autoImplicit false

namespace FreeOnline.Wsd.QuarantineUtil

open FreeOnline.Library FreeOnline.Common

def delimiter : Char := '_'

def fileName (time : Nat) (pid : Int) (docKey docName : Text) : Text :=
  printInt time ++ delimiter :: (printInt pid ++ delimiter :: (docKey ++ delimiter :: docName))

/-- `strtoul`, with whether there was a number that fits. -/
def u64FromString (input : Text) : Nat × Bool :=
  match readLong input with
  | none => (0, false)
  | some value =>
      if value.natAbs < 2 ^ 64 then ((value % 2 ^ 64).toNat, true) else (2 ^ 64 - 1, false)

/-- What is in front of the first delimiter. -/
def splitFirst (name : Text) : Text := name.takeWhile (· ≠ delimiter)

def timestamp (name : Text) : Nat × Bool := u64FromString (splitFirst name)

/-- The comparison by which the files are sorted. It takes the values for the flags. -/
def less (lhs rhs : Text) : Bool :=
  (timestamp lhs).1 ≠ 0 && (timestamp rhs).1 ≠ 0 && (!(timestamp lhs).2 && (timestamp rhs).2)

/-!
## Tokens with their places
-/

/-- `StringVector::tokenize`. The token that has begun at the index may be the delimiter in front
of it. -/
def tokensFrom (index : Nat) (start : Text) : Text → List StringToken
  | [] =>
      if start ≠ [] ∧ start.head? ≠ some delimiter ∧ start.head? ≠ some '\n' then
        [⟨index, start.length⟩]
      else []
  | ch :: rest =>
      if ch = '\n' then
        if start ≠ [] ∧ start.head? ≠ some delimiter ∧ start.head? ≠ some '\n' then
          [⟨index, start.length⟩]
        else []
      else if ch = delimiter then
        if start ≠ [] ∧ start.head? ≠ some delimiter then
          ⟨index, start.length⟩ :: tokensFrom (index + start.length) [ch] rest
        else tokensFrom (index + start.length) [ch] rest
      else if (start ++ [ch]).head? = some delimiter then
        tokensFrom (index + 1) (start ++ [ch]).tail rest
      else tokensFrom index (start ++ [ch]) rest

def tokens (data : Text) : List StringToken :=
  if data.head? = some '\x00' then [] else tokensFrom 0 [] data

/-- The document of a file found at the start: what stands from the third token to the last. -/
def docKeyOf (file : Text) : Option Text :=
  match (tokens file)[2]?, (tokens file).getLast? with
  | some third, some last =>
      -- where the third is the last one, the length wraps and the rest of the name is taken
      if last.index ≤ third.index then some (file.drop third.index)
      else some ((file.drop third.index).take (last.index - third.index - 1))
  | _, _ => none

section

variable {index : Nat} {start word rest : Text}

private theorem tokensFrom_append (notDelimiter : delimiter ∉ word) (notNewline : '\n' ∉ word)
    (begun : start.head? ≠ some delimiter) (rest : Text) :
    tokensFrom index start (word ++ rest) = tokensFrom index (start ++ word) rest := by
  induction word generalizing start with
  | nil => rw [List.nil_append, List.append_nil]
  | cons ch word ih =>
      rw [List.mem_cons, not_or] at notDelimiter notNewline
      have goesOn : (start ++ [ch]).head? ≠ some delimiter := by
        cases start with
        | nil => simpa using Ne.symm notDelimiter.1
        | cons first start => exact begun
      rw [List.cons_append, tokensFrom, if_neg (Ne.symm notNewline.1),
        if_neg (Ne.symm notDelimiter.1), if_neg goesOn,
        ih notDelimiter.2 notNewline.2 goesOn, List.append_assoc, List.singleton_append]

private theorem tokensFrom_delimiter (isWord : IsWord delimiter word) (rest : Text) :
    tokensFrom index [delimiter] (word ++ rest) = tokensFrom (index + 1) word rest := by
  obtain ⟨notNil, notDelimiter, notNewline⟩ := isWord
  cases word with
  | nil => exact absurd rfl notNil
  | cons ch word =>
      rw [List.mem_cons, not_or] at notDelimiter notNewline
      have begun : [ch].head? ≠ some delimiter := by
        simpa using Ne.symm notDelimiter.1
      rw [List.cons_append, tokensFrom, if_neg (Ne.symm notNewline.1),
        if_neg (Ne.symm notDelimiter.1), List.singleton_append, List.head?_cons, if_pos rfl,
        List.tail_cons]
      exact tokensFrom_append notDelimiter.2 notNewline.2 begun rest

private theorem head?_begun (isWord : IsWord delimiter word) :
    word ≠ [] ∧ word.head? ≠ some delimiter ∧ word.head? ≠ some '\n' := by
  refine ⟨isWord.notNil, ?_, ?_⟩
  · exact fun isHead => isWord.notDelimiter (List.mem_of_head? isHead)
  · exact fun isHead => isWord.notNewline (List.mem_of_head? isHead)

private theorem tokensFrom_word (isWord : IsWord delimiter word) (rest : Text) :
    tokensFrom index word (delimiter :: rest) =
      ⟨index, word.length⟩ :: tokensFrom (index + word.length) [delimiter] rest := by
  have begun := head?_begun isWord
  have notNewline : delimiter ≠ '\n' := by decide
  rw [tokensFrom, if_neg notNewline, if_pos rfl, if_pos ⟨begun.1, begun.2.1⟩]

/-- The token that has begun is the first one, wherever it ends. -/
private theorem head?_tokensFrom (notNil : start ≠ []) (begun : start.head? ≠ some delimiter)
    (notNewline : start.head? ≠ some '\n') (rest : Text) :
    ∃ length more, tokensFrom index start rest = ⟨index, length⟩ :: more := by
  induction rest generalizing start with
  | nil => exact ⟨start.length, [], if_pos ⟨notNil, begun, notNewline⟩⟩
  | cons ch rest ih =>
      have goesOn : (start ++ [ch]).head? = start.head? := by
        cases start with
        | nil => exact absurd rfl notNil
        | cons first start => rfl
      rw [tokensFrom, goesOn]
      by_cases isNewline : ch = '\n'
      · rw [if_pos isNewline, if_pos ⟨notNil, begun, notNewline⟩]
        exact ⟨_, _, rfl⟩
      · rw [if_neg isNewline]
        by_cases isDelimiter : ch = delimiter
        · rw [if_pos isDelimiter, if_pos ⟨notNil, begun⟩]
          exact ⟨_, _, rfl⟩
        · rw [if_neg isDelimiter, if_neg begun]
          exact ih (by simp) (goesOn ▸ begun) (goesOn ▸ notNewline)

private theorem third_token (index : Nat) (notNil : word ≠ []) (begun : word.head? ≠ some delimiter)
    (notNewline : '\n' ∉ word) (rest : Text) :
    ∃ length more, tokensFrom index [delimiter] (word ++ rest) = ⟨index + 1, length⟩ :: more := by
  cases word with
  | nil => exact absurd rfl notNil
  | cons ch word =>
      rw [List.mem_cons, not_or] at notNewline
      have notDelimiter : ch ≠ delimiter := fun same => begun (congrArg some same)
      rw [List.cons_append, tokensFrom, if_neg (Ne.symm notNewline.1), if_neg notDelimiter,
        List.singleton_append, List.head?_cons, if_pos rfl, List.tail_cons]
      have isNewline : [ch].head? ≠ some '\n' :=
        fun same => notNewline.1 (Option.some.inj same).symm
      have isBegun : [ch].head? ≠ some delimiter := begun
      exact head?_tokensFrom (List.cons_ne_nil _ _) isBegun isNewline _

/-- A word behind the last delimiter is the last token. -/
private theorem getLast?_tokensFrom (isWord : IsWord delimiter word) {before : Text}
    (notNewline : '\n' ∉ before) :
    (tokensFrom index start (before ++ delimiter :: word)).getLast? =
      some ⟨index + start.length + before.length + 1, word.length⟩ := by
  induction before generalizing index start with
  | nil =>
      have isLast (at_ : Nat) : tokensFrom at_ [delimiter] word = [⟨at_ + 1, word.length⟩] := by
        have begun : tokensFrom at_ [delimiter] (word ++ []) = tokensFrom (at_ + 1) word [] :=
          tokensFrom_delimiter isWord []
        rw [List.append_nil] at begun
        rw [begun, tokensFrom, if_pos (head?_begun isWord)]
      have otherNewline : delimiter ≠ '\n' := by decide
      rw [List.nil_append, tokensFrom, if_neg otherNewline, if_pos rfl, isLast]
      split <;> rfl
  | cons ch before ih =>
      rw [List.mem_cons, not_or] at notNewline
      have place {first second length : Nat} (same : first = second) :
          some (⟨first, length⟩ : StringToken) = some ⟨second, length⟩ := by
        rw [same]
      rw [List.cons_append, tokensFrom, if_neg (Ne.symm notNewline.1), List.length_cons]
      split
      · split
        · rw [List.getLast?_cons, ih notNewline.2, List.length_singleton]
          exact place (by omega)
        · rw [ih notNewline.2, List.length_singleton]
          exact place (by omega)
      · split
        · rw [ih notNewline.2, List.length_tail, List.length_append, List.length_singleton]
          exact place (by omega)
        · rw [ih notNewline.2, List.length_append, List.length_singleton]
          exact place (by omega)

end

/-!
## Reading a name
-/

private theorem isWord_printInt (n : Int) : IsWord delimiter (printInt n) :=
  ⟨printInt_ne_nil n, notMem_printInt (by decide) (by decide),
    notMem_printInt (by decide) (by decide)⟩

theorem timestamp_fileName {time : Nat} (fits : time < 2 ^ 64) (pid : Int)
    (docKey docName : Text) : timestamp (fileName time pid docKey docName) = (time, true) := by
  have isTime := isWord_printInt time
  have first : splitFirst (fileName time pid docKey docName) = printInt time := by
    unfold splitFirst fileName
    rw [List.takeWhile_append_of_pos]
    · simp
    · intro ch member
      have other : ch ≠ delimiter := fun same => isTime.notDelimiter (same ▸ member)
      simpa using other
  have isRead : readLong (printInt time) = some (time : Int) := by
    have isRead := @readLong_printInt time [] nofun
    rwa [List.append_nil] at isRead
  unfold timestamp u64FromString
  rw [first, isRead]
  dsimp only
  rw [Int.natAbs_natCast, if_pos fits]
  have small : ((time : Int) % 2 ^ 64).toNat = time := by omega
  rw [small]

end FreeOnline.Wsd.QuarantineUtil
