import FreeOnline.Common.StringVector
import Mathlib.Data.List.DropRight

/-!
# Tokens as ranges

A `StringVector` keeps the text and a range of it for each token. The three tokenizers, and the
pieces they stand for: between delimiters, between occurrences of a text, between any of some
delimiters.
-/

set_option autoImplicit false

namespace FreeOnline.Common

open FreeOnline.Library

structure StringToken where
  index : Nat
  length : Nat
deriving DecidableEq

structure StringVector where
  string : Text
  tokens : List StringToken
deriving DecidableEq

namespace StringVector

def empty : StringVector := ⟨[], []⟩

/-- `substr`, which takes what there is. -/
def read (string : Text) (token : StringToken) : Text :=
  (string.drop token.index).take token.length

def texts (tokens : StringVector) : List Text :=
  tokens.tokens.map (read tokens.string)

/-- `std::string::npos`. -/
def npos : Nat := 2 ^ 64 - 1

/-!
## The tokenizers
-/

/-- The loop with one character as delimiter. The token that has begun at the index may be the
delimiter in front of it. -/
def rangesFrom (delimiter : Char) (index : Nat) (start : Text) : Text → List StringToken
  | [] =>
      if start ≠ [] ∧ start.head? ≠ some delimiter ∧ start.head? ≠ some '\n' then
        [⟨index, start.length⟩]
      else []
  | ch :: rest =>
      if ch = '\n' then
        if start ≠ [] ∧ start.head? ≠ some delimiter ∧ start.head? ≠ some '\n' then
          [⟨index, start.length⟩]
        else []
      else if ch = delimiter then
        if start ≠ [] ∧ start.head? ≠ some delimiter then
          ⟨index, start.length⟩ :: rangesFrom delimiter (index + start.length) [ch] rest
        else rangesFrom delimiter (index + start.length) [ch] rest
      else if (start ++ [ch]).head? = some delimiter then
        rangesFrom delimiter (index + 1) (start ++ [ch]).tail rest
      else rangesFrom delimiter index (start ++ [ch]) rest

def tokenizeChar (data : Text) (delimiter : Char) : StringVector :=
  if data = [] ∨ data.head? = some '\x00' then empty
  else ⟨data, rangesFrom delimiter 0 [] data⟩

/-- `find` from a position on. -/
def findFrom (s word : Text) (start : Nat) : Option Nat :=
  (findText word (s.drop start)).map (start + ·)

theorem findFrom_lt {s word : Text} {start offset : Nat} (notNil : word ≠ [])
    (isFound : findFrom s word start = some offset) :
    start ≤ offset ∧ offset + word.length ≤ s.length := by
  obtain ⟨before, isBefore, rfl⟩ := Option.map_eq_some_iff.mp isFound
  have below := findText_lt notNil isBefore
  have positive := List.length_pos_of_ne_nil notNil
  rw [List.length_drop] at below
  omega

/-- What is searched for, and how much is skipped behind each occurrence. -/
structure TextDelimiter where
  word : Text
  len : Nat
  notNil : word ≠ []
  positive : 0 < len

/-- The loop with a text as delimiter. -/
def piecesFrom (s : Text) (delimiter : TextDelimiter) (start : Nat) : List StringToken :=
  match _isFound : findFrom s delimiter.word start with
  | none => [⟨start, npos - start⟩]
  | some stop => ⟨start, stop - start⟩ :: piecesFrom s delimiter (stop + delimiter.len)
termination_by s.length - start
decreasing_by
  have inside := findFrom_lt delimiter.notNil _isFound
  have wordPositive := List.length_pos_of_ne_nil delimiter.notNil
  have := delimiter.positive
  omega

theorem piecesFrom_last {s : Text} {delimiter : TextDelimiter} {start : Nat}
    (noneFound : findFrom s delimiter.word start = none) :
    piecesFrom s delimiter start = [⟨start, npos - start⟩] := by
  rw [piecesFrom]
  split
  · rfl
  · next stop isFound =>
      rw [noneFound] at isFound
      cases isFound

theorem piecesFrom_next {s : Text} {delimiter : TextDelimiter} {start : Nat} (stop : Nat)
    (isFound : findFrom s delimiter.word start = some stop) :
    piecesFrom s delimiter start =
      ⟨start, stop - start⟩ :: piecesFrom s delimiter (stop + delimiter.len) := by
  rw [piecesFrom]
  split
  · next noneFound =>
      rw [isFound] at noneFound
      cases noneFound
  · next other isOther =>
      rw [isFound] at isOther
      cases isOther
      rfl

/-- With a text as delimiter. `find` sees what is in front of its first NUL. -/
def tokenizeText (s delimiter : Text) : StringVector :=
  if notEmpty : s = [] ∨ delimiter = [] ∨ delimiter.takeWhile (· ≠ '\x00') = [] then empty
  else ⟨s, piecesFrom s ⟨delimiter.takeWhile (· ≠ '\x00'), delimiter.length,
    fun isNil => notEmpty (.inr (.inr isNil)),
    List.length_pos_of_ne_nil fun isNil => notEmpty (.inr (.inl isNil))⟩ 0⟩

/-- `find_first_of`, from a position on. -/
def findFirstOf (s delimiters : Text) (start : Nat) : Option Nat :=
  ((s.drop start).findIdx? (· ∈ delimiters)).map (start + ·)

theorem le_findFirstOf {s delimiters : Text} {start offset : Nat}
    (isFound : findFirstOf s delimiters start = some offset) : start ≤ offset := by
  obtain ⟨before, -, rfl⟩ := Option.map_eq_some_iff.mp isFound
  exact Nat.le_add_right start before

/-- The first delimiter behind a text without one. -/
theorem findFirstOf_append {delimiters text : Text} {delimiter : Char}
    (isDelimiter : delimiter ∈ delimiters) (noDelimiter : ∀ ch ∈ text, ch ∉ delimiters)
    (front rest : Text) :
    findFirstOf (front ++ (text ++ delimiter :: rest)) delimiters front.length =
      some (front.length + text.length) := by
  have isIndex : (text ++ delimiter :: rest).findIdx? (· ∈ delimiters) = some text.length := by
    rw [List.findIdx?_eq_some_iff_getElem]
    refine ⟨by rw [List.length_append, List.length_cons]; omega, ?_, ?_⟩
    · rw [List.getElem_append_right (Nat.le_refl _)]
      simpa using isDelimiter
    · intro place below
      rw [List.getElem_append_left below]
      simpa using noDelimiter _ (List.getElem_mem below)
  unfold findFirstOf
  rw [List.drop_left, isIndex]
  rfl

/-- The end of the token that begins here. -/
def tokenEnd (s delimiters : Text) (length first : Nat) : Nat :=
  (findFirstOf s delimiters first).getD length

theorem le_tokenEnd {s : Text} {length first : Nat} (delimiters : Text) (inside : first ≤ length) :
    first ≤ tokenEnd s delimiters length first := by
  unfold tokenEnd
  cases isFound : findFirstOf s delimiters first with
  | none => exact inside
  | some offset => exact le_findFirstOf isFound

/-- The spaces in front of a token are skipped. -/
def skipSpaces (s : Text) (length start : Nat) : Nat :=
  start + (((s.take length).drop start).takeWhile (· = ' ')).length

theorem skipSpaces_le {s : Text} {length start : Nat} (inside : start ≤ length) :
    start ≤ skipSpaces s length start ∧ skipSpaces s length start ≤ length := by
  have spaces := (List.takeWhile_prefix (p := (· = ' ')) (l := (s.take length).drop start)).length_le
  unfold skipSpaces
  rw [List.length_drop, List.length_take] at spaces
  omega

/-- The spaces behind a token are left out. -/
def trimEnd (s : Text) (first stop : Nat) : Nat :=
  first + (((s.drop first).take (stop - first)).rdropWhile (· = ' ')).length

/-- The loop with any of some delimiters, on a text without the spaces at its end. -/
def anyOfFrom (s delimiters : Text) (length start : Nat) : List StringToken :=
  if start < length then
    let first := skipSpaces s length start
    if first = length then []
    else
      let stop := tokenEnd s delimiters length first
      if first < trimEnd s first stop then
        ⟨first, trimEnd s first stop - first⟩ :: anyOfFrom s delimiters length (stop + 1)
      else anyOfFrom s delimiters length (stop + 1)
  else []
termination_by length - start
decreasing_by
  all_goals
    have inside : start < length := by assumption
    have skipped := skipSpaces_le (s := s) (Nat.le_of_lt inside)
    have behind := le_tokenEnd (s := s) delimiters skipped.2
    omega

def tokenizeAnyOf (s delimiters : Text) : StringVector :=
  let length := (s.rdropWhile (· = ' ')).length
  if length = 0 ∨ delimiters = [] then empty else ⟨s, anyOfFrom s delimiters length 0⟩

/-!
## Ranges
-/

/-- The ranges are not empty, lie between two positions, and come one behind the other. -/
structure Ordered (first last : Nat) (ranges : List StringToken) : Prop where
  inside : ∀ range ∈ ranges,
    first ≤ range.index ∧ 0 < range.length ∧ range.index + range.length ≤ last
  increasing : ranges.Pairwise fun range later => range.index + range.length ≤ later.index

theorem Ordered.nil {first last : Nat} : Ordered first last [] :=
  ⟨List.forall_mem_nil _, List.Pairwise.nil⟩

theorem Ordered.mono {first earlier last : Nat} {ranges : List StringToken} (le : earlier ≤ first)
    (ordered : Ordered first last ranges) : Ordered earlier last ranges := by
  refine ⟨fun range member => ?_, ordered.increasing⟩
  obtain ⟨behind, notEmpty, below⟩ := ordered.inside range member
  exact ⟨Nat.le_trans le behind, notEmpty, below⟩

theorem Ordered.cons {first next last : Nat} {range : StringToken} {ranges : List StringToken}
    (behind : first ≤ range.index) (notEmpty : 0 < range.length)
    (before : range.index + range.length ≤ next) (inside : range.index + range.length ≤ last)
    (ordered : Ordered next last ranges) : Ordered first last (range :: ranges) := by
  constructor
  · intro other member
    cases member with
    | head => exact ⟨behind, notEmpty, inside⟩
    | tail _ member =>
        obtain ⟨otherBehind, otherNotEmpty, below⟩ := ordered.inside other member
        exact ⟨by omega, otherNotEmpty, below⟩
  · refine List.pairwise_cons.mpr ⟨fun later member => ?_, ordered.increasing⟩
    exact Nat.le_trans before (ordered.inside later member).1

/-!
## One character as delimiter
-/

theorem read_begun {data start rest : Text} {index : Nat} (isRest : data.drop index = start ++ rest) :
    read data ⟨index, start.length⟩ = start := by
  unfold read
  rw [isRest, List.take_left]

/-- The not empty pieces between the delimiters of the first line. -/
def linePieces (delimiter : Char) (data : Text) : List Text :=
  ((data.takeWhile (· ≠ '\n')).splitOn delimiter).filter (· ≠ [])

section

variable {delimiter : Char} {data start word rest : Text} {index : Nat}

/-- The ranges have the texts that are cut. -/
theorem map_read_rangesFrom (isRest : data.drop index = start ++ rest) :
    (rangesFrom delimiter index start rest).map (read data) = tokenizeFrom delimiter start rest := by
  have begun := read_begun isRest
  induction rest generalizing index start with
  | nil =>
      rw [rangesFrom, tokenizeFrom]
      split
      · rw [List.map_singleton, begun]
      · rfl
  | cons ch rest ih =>
      have behind : data.drop (index + start.length) = [ch] ++ rest := by
        rw [← List.drop_drop, isRest, List.drop_left, List.singleton_append]
      have longer : data.drop index = (start ++ [ch]) ++ rest := by
        rw [isRest, List.append_assoc, List.singleton_append]
      rw [rangesFrom, tokenizeFrom]
      split
      · split
        · rw [List.map_singleton, begun]
        · rfl
      · split
        · split
          · rw [List.map_cons, begun, ih behind (read_begun behind)]
          · exact ih behind (read_begun behind)
        · split
          · have shorter : data.drop (index + 1) = (start ++ [ch]).tail ++ rest := by
              rw [← List.drop_drop, longer, List.drop_one, List.tail_append_of_ne_nil (by simp)]
            exact ih shorter (read_begun shorter)
          · exact ih longer (read_begun longer)

theorem rangesFrom_ordered (delimiter : Char) (index : Nat) (start rest : Text) :
    Ordered index (index + start.length + rest.length) (rangesFrom delimiter index start rest) := by
  induction rest generalizing index start with
  | nil =>
      rw [rangesFrom]
      split
      · next isToken =>
          exact .cons (Nat.le_refl _) (List.length_pos_of_ne_nil isToken.1) (Nat.le_refl _)
            (Nat.le_add_right _ _) .nil
      · exact .nil
  | cons ch rest ih =>
      have wholeLength : index + start.length + (ch :: rest).length =
          index + start.length + [ch].length + rest.length := by
        rw [List.length_cons, List.length_singleton]
        omega
      have longerLength : index + start.length + (ch :: rest).length =
          index + (start ++ [ch]).length + rest.length := by
        rw [List.length_cons, List.length_append, List.length_singleton]
        omega
      rw [rangesFrom]
      split
      · split
        · next isToken =>
            exact .cons (Nat.le_refl _) (List.length_pos_of_ne_nil isToken.1) (Nat.le_refl _)
              (Nat.le_add_right _ _) .nil
        · exact .nil
      · split
        · rw [wholeLength]
          split
          · next isToken =>
              refine .cons (Nat.le_refl _) (List.length_pos_of_ne_nil isToken.1) (Nat.le_refl _)
                ?_ (ih (index + start.length) [ch])
              exact Nat.le_trans (Nat.le_add_right _ _) (Nat.le_add_right _ _)
          · exact (ih (index + start.length) [ch]).mono (Nat.le_add_right _ _)
        · split
          · have shorter := ih (index + 1) (start ++ [ch]).tail
            have tailLength : index + 1 + (start ++ [ch]).tail.length =
                index + (start ++ [ch]).length := by
              rw [List.length_tail, List.length_append, List.length_singleton]
              omega
            rw [tailLength, ← longerLength] at shorter
            exact shorter.mono (Nat.le_add_right _ _)
          · rw [longerLength]
            exact ih index (start ++ [ch])

theorem linePieces_delimiter (notNewline : delimiter ≠ '\n') (rest : Text) :
    linePieces delimiter (delimiter :: rest) = linePieces delimiter rest := by
  simp [linePieces, notNewline, List.splitOn_eq_splitOnP,
    List.splitOnP_cons_eq_if_modifyHead]

private theorem notMem_word (isWord : IsWord delimiter word) :
    ∀ ch ∈ word, (ch == delimiter) = false := by
  intro ch member
  exact beq_eq_false_iff_ne.mpr fun same => isWord.notDelimiter (same ▸ member)

private theorem takeWhile_word (isWord : IsWord delimiter word) (rest : Text) :
    (word ++ rest).takeWhile (· ≠ '\n') = word ++ rest.takeWhile (· ≠ '\n') := by
  refine List.takeWhile_append_of_pos fun ch member => ?_
  exact decide_eq_true fun same => isWord.notNewline (same ▸ member)

theorem linePieces_word (isWord : IsWord delimiter word)
    (endsLine : rest = [] ∨ rest.head? = some '\n') :
    linePieces delimiter (word ++ rest) = [word] := by
  have ends : rest.takeWhile (· ≠ '\n') = [] := by
    cases endsLine with
    | inl isNil => rw [isNil, List.takeWhile_nil]
    | inr isNewline =>
        obtain ⟨later, rfl⟩ := List.head?_eq_some_iff.mp isNewline
        rfl
  rw [linePieces, takeWhile_word isWord, ends, List.append_nil, List.splitOn_eq_splitOnP,
    List.splitOnP_eq_singleton (notMem_word isWord)]
  simp [isWord.notNil]

theorem linePieces_word_delimiter (isWord : IsWord delimiter word) (notNewline : delimiter ≠ '\n')
    (rest : Text) :
    linePieces delimiter (word ++ delimiter :: rest) = word :: linePieces delimiter rest := by
  have goesOn : (delimiter :: rest).takeWhile (· ≠ '\n') =
      delimiter :: rest.takeWhile (· ≠ '\n') := by
    simp [notNewline]
  rw [linePieces, takeWhile_word isWord, goesOn, List.splitOn_eq_splitOnP,
    List.splitOnP_append_cons_of_forall_mem (notMem_word isWord) delimiter (beq_self_eq_true _),
    ← List.splitOn_eq_splitOnP]
  exact List.filter_cons_of_pos (decide_eq_true isWord.notNil)

/-- What has begun: nothing, the delimiter, or a word. -/
inductive Begun (delimiter : Char) : Text → Prop where
  | nothing : Begun delimiter []
  | delimiter (notNewline : delimiter ≠ '\n') : Begun delimiter [delimiter]
  | word {start : Text} (isWord : IsWord delimiter start) : Begun delimiter start

private theorem isWord_singleton {ch : Char} (notNewline : ch ≠ '\n') (notDelimiter : ch ≠ delimiter) :
    IsWord delimiter [ch] := by
  refine ⟨List.cons_ne_nil ch [], ?_, ?_⟩
  · simpa using Ne.symm notDelimiter
  · simpa using Ne.symm notNewline

private theorem isWord_concat {ch : Char} (isWord : IsWord delimiter start) (notNewline : ch ≠ '\n')
    (notDelimiter : ch ≠ delimiter) : IsWord delimiter (start ++ [ch]) := by
  refine ⟨by simp, ?_, ?_⟩
  · simpa using ⟨isWord.notDelimiter, Ne.symm notDelimiter⟩
  · simpa using ⟨isWord.notNewline, Ne.symm notNewline⟩

private theorem head?_isWord (isWord : IsWord delimiter word) :
    word.head? ≠ some delimiter ∧ word.head? ≠ some '\n' :=
  ⟨fun isHead => isWord.notDelimiter (List.mem_of_head? isHead),
    fun isHead => isWord.notNewline (List.mem_of_head? isHead)⟩

/-- Exactly the pieces of the first line are cut. -/
theorem tokenizeFrom_eq_linePieces (begun : Begun delimiter start) (rest : Text) :
    tokenizeFrom delimiter start rest = linePieces delimiter (start ++ rest) := by
  induction rest generalizing start with
  | nil =>
      cases begun with
      | nothing => simp [tokenizeFrom, linePieces, List.splitOn_eq_splitOnP]
      | delimiter notNewline =>
          rw [List.singleton_append, linePieces_delimiter notNewline]
          simp [tokenizeFrom, linePieces, List.splitOn_eq_splitOnP]
      | word isWord => rw [tokenizeFrom_word isWord, linePieces_word isWord (.inl rfl)]
  | cons ch rest ih =>
      by_cases isNewline : ch = '\n'
      · subst isNewline
        cases begun with
        | nothing => simp [tokenizeFrom, linePieces, List.splitOn_eq_splitOnP]
        | delimiter notNewline =>
            rw [List.singleton_append, linePieces_delimiter notNewline]
            simp [tokenizeFrom, linePieces, List.splitOn_eq_splitOnP]
        | word isWord => rw [tokenizeFrom_newline isWord, linePieces_word isWord (.inr rfl)]
      · by_cases isDelimiter : ch = delimiter
        · subst isDelimiter
          have later := ih (.delimiter isNewline)
          rw [List.singleton_append, linePieces_delimiter isNewline] at later
          cases begun with
          | nothing =>
              rw [tokenizeFrom, if_neg isNewline, if_pos rfl, if_neg (by simp), later,
                List.nil_append, linePieces_delimiter isNewline]
          | delimiter notNewline =>
              rw [tokenizeFrom, if_neg isNewline, if_pos rfl, if_neg (by simp), later,
                List.singleton_append, linePieces_delimiter isNewline,
                linePieces_delimiter isNewline]
          | word isWord =>
              rw [tokenizeFrom_word_delimiter isWord isNewline, later,
                linePieces_word_delimiter isWord isNewline]
        · rw [tokenizeFrom, if_neg isNewline, if_neg isDelimiter]
          cases begun with
          | nothing =>
              have goesOn : ([] ++ [ch]).head? ≠ some delimiter := by simpa using isDelimiter
              rw [if_neg goesOn]
              exact ih (.word (isWord_singleton isNewline isDelimiter))
          | delimiter notNewline =>
              have isHead : ([delimiter] ++ [ch]).head? = some delimiter := rfl
              have next := ih (.word (isWord_singleton isNewline isDelimiter))
              rw [if_pos isHead, List.singleton_append, List.tail_cons, next,
                List.singleton_append, List.singleton_append, linePieces_delimiter notNewline]
          | word isWord =>
              have longer := isWord_concat isWord isNewline isDelimiter
              rw [if_neg (head?_isWord longer).1, ih (.word longer), List.append_assoc,
                List.singleton_append]

end

/-!
## Any of some delimiters
-/

/-- Without the spaces at both ends. -/
def trimSpaces (text : Text) : Text :=
  (text.dropWhile (· = ' ')).rdropWhile (· = ' ')

/-- The pieces between any of the delimiters, trimmed, as far as something is left of them. -/
def trimmedPieces (delimiters text : Text) : List Text :=
  ((text.splitOnP (· ∈ delimiters)).map trimSpaces).filter (· ≠ [])

section

variable {s delimiters piece rest : Text} {length start : Nat}

theorem trimSpaces_space (text : Text) : trimSpaces (' ' :: text) = trimSpaces text := by
  unfold trimSpaces
  rw [List.dropWhile_cons_of_pos (by decide)]

/-- A space in front makes no difference, be it a delimiter or not. -/
theorem trimmedPieces_space (delimiters text : Text) :
    trimmedPieces delimiters (' ' :: text) = trimmedPieces delimiters text := by
  unfold trimmedPieces
  rw [List.splitOnP_cons_eq_if_modifyHead]
  split
  · exact List.filter_cons_of_neg (by decide)
  · cases isSplit : text.splitOnP (· ∈ delimiters) with
    | nil => rfl
    | cons first pieces => rw [List.modifyHead_cons, List.map_cons, List.map_cons, trimSpaces_space]

theorem trimmedPieces_spaces {spaces : Text} (areSpaces : ∀ ch ∈ spaces, ch = ' ')
    (delimiters text : Text) :
    trimmedPieces delimiters (spaces ++ text) = trimmedPieces delimiters text := by
  induction spaces with
  | nil => rfl
  | cons ch spaces ih =>
      rw [List.cons_append, areSpaces ch List.mem_cons_self, trimmedPieces_space,
        ih fun other member => areSpaces other (List.mem_cons_of_mem _ member)]

theorem trimmedPieces_nil (delimiters : Text) : trimmedPieces delimiters [] = [] := by
  simp [trimmedPieces, trimSpaces]

theorem trimmedPieces_of_spaces {spaces : Text} (areSpaces : ∀ ch ∈ spaces, ch = ' ')
    (delimiters : Text) : trimmedPieces delimiters spaces = [] := by
  have dropped := trimmedPieces_spaces areSpaces delimiters []
  rwa [List.append_nil, trimmedPieces_nil] at dropped

/-- The trimmed piece, unless nothing is left of it. -/
def trimmedPiece (piece : Text) : List Text :=
  if trimSpaces piece = [] then [] else [trimSpaces piece]

theorem trimmedPieces_last (noDelimiter : ∀ ch ∈ piece, ch ∉ delimiters) :
    trimmedPieces delimiters piece = trimmedPiece piece := by
  unfold trimmedPieces trimmedPiece
  rw [List.splitOnP_eq_singleton fun ch member => decide_eq_false (noDelimiter ch member)]
  simp [List.filter_singleton]

theorem trimmedPieces_next (noDelimiter : ∀ ch ∈ piece, ch ∉ delimiters) {delimiter : Char}
    (isDelimiter : delimiter ∈ delimiters) (rest : Text) :
    trimmedPieces delimiters (piece ++ delimiter :: rest) =
      trimmedPiece piece ++ trimmedPieces delimiters rest := by
  unfold trimmedPieces trimmedPiece
  rw [List.splitOnP_append_cons_of_forall_mem
    (fun ch member => decide_eq_false (noDelimiter ch member)) delimiter
    (decide_eq_true isDelimiter), List.map_cons, List.filter_cons]
  by_cases isNil : trimSpaces piece = []
  · rw [if_pos isNil, if_neg (by simpa using isNil), List.nil_append]
  · rw [if_neg isNil, if_pos (by simpa using isNil), List.singleton_append]

theorem trimSpaces_of_head (noSpace : piece.head? ≠ some ' ') :
    trimSpaces piece = piece.rdropWhile (· = ' ') := by
  unfold trimSpaces
  cases piece with
  | nil => rfl
  | cons ch piece =>
      have notSpace : ch ≠ ' ' := fun same => noSpace (congrArg some same)
      rw [List.dropWhile_cons_of_neg (by simpa using notSpace)]

theorem rdropWhile_spaces {spaces : Text} (areSpaces : ∀ ch ∈ spaces, ch = ' ') (text : Text) :
    (text ++ spaces).rdropWhile (· = ' ') = text.rdropWhile (· = ' ') := by
  induction spaces using List.reverseRecOn with
  | nil => rw [List.append_nil]
  | append_singleton spaces ch ih =>
      have isSpace := areSpaces ch (List.mem_append_right _ List.mem_cons_self)
      rw [← List.append_assoc, List.rdropWhile_concat_pos _ _ _ (by simpa using isSpace),
        ih fun other member => areSpaces other (List.mem_append_left _ member)]

theorem head?_take_noSpace (noSpace : rest.head? ≠ some ' ') (count : Nat) :
    (rest.take count).head? ≠ some ' ' := by
  cases count with
  | zero => simp
  | succ count => rwa [List.head?_take, if_neg (Nat.succ_ne_zero count)]

/-- The token that begins here is the piece up to its end, trimmed. -/
theorem read_trimmed {first stop : Nat} (noSpace : (s.drop first).head? ≠ some ' ') :
    (if first < trimEnd s first stop then [read s ⟨first, trimEnd s first stop - first⟩] else []) =
      trimmedPiece ((s.drop first).take (stop - first)) := by
  have headNoSpace := head?_take_noSpace noSpace (stop - first)
  have isPrefix : ((s.drop first).take (stop - first)).rdropWhile (· = ' ') <+: s.drop first :=
    (List.rdropWhile_prefix _ _).trans (List.take_prefix _ _)
  unfold trimmedPiece read trimEnd
  rw [trimSpaces_of_head headNoSpace, Nat.add_sub_cancel_left,
    ← List.prefix_iff_eq_take.mp isPrefix]
  cases ((s.drop first).take (stop - first)).rdropWhile (· = ' ') with
  | nil => rw [if_neg (by simp), if_pos rfl]
  | cons ch text => rw [if_pos (by simp), if_neg (List.cons_ne_nil ch text)]

theorem findFirstOf_eq_some {first stop : Nat} (isFound : findFirstOf s delimiters first = some stop) :
    ∃ delimiter ∈ delimiters,
      s.drop first = (s.drop first).take (stop - first) ++ delimiter :: s.drop (stop + 1) ∧
      ∀ ch ∈ (s.drop first).take (stop - first), ch ∉ delimiters := by
  obtain ⟨offset, isIndex, rfl⟩ := Option.map_eq_some_iff.mp isFound
  obtain ⟨inside, isDelimiter, before⟩ := List.findIdx?_eq_some_iff_getElem.mp isIndex
  rw [Nat.add_sub_cancel_left]
  refine ⟨(s.drop first)[offset], of_decide_eq_true isDelimiter, ?_, fun ch member => ?_⟩
  · rw [Nat.add_assoc, ← List.drop_drop, ← List.drop_eq_getElem_cons inside,
      List.take_append_drop]
  · obtain ⟨place, below, rfl⟩ := List.getElem_of_mem member
    rw [List.length_take] at below
    rw [List.getElem_take]
    exact of_decide_eq_false (Bool.eq_false_iff.mpr (before place (by omega)))

theorem findFirstOf_eq_none {first : Nat} (noneFound : findFirstOf s delimiters first = none) :
    ∀ ch ∈ s.drop first, ch ∉ delimiters := by
  intro ch member
  have isNone := List.findIdx?_eq_none_iff.mp (Option.map_eq_none_iff.mp noneFound) ch member
  exact of_decide_eq_false isNone

/-- From the first character on that is no space. -/
theorem skipSpaces_spec (inside : start ≤ length) (lengthInside : length ≤ s.length) :
    ∃ gap : Text, (∀ ch ∈ gap, ch = ' ') ∧ s.drop start = gap ++ s.drop (skipSpaces s length start) ∧
      (skipSpaces s length start < length →
        (s.drop (skipSpaces s length start)).head? ≠ some ' ') := by
  have cut : (s.take length).drop start ++ s.drop length = s.drop start := by
    rw [← List.drop_append_of_le_length (by rw [List.length_take]; omega), List.take_append_drop]
  generalize isCut : (s.take length).drop start = between at cut
  have skipped : between.dropWhile (· = ' ') ++ s.drop length =
      s.drop (skipSpaces s length start) := by
    unfold skipSpaces
    rw [isCut, ← List.drop_drop, ← cut]
    nth_rewrite 3 [← List.takeWhile_append_dropWhile (p := (· = ' ')) (l := between)]
    rw [List.append_assoc, List.drop_left]
  refine ⟨between.takeWhile (· = ' '), ?_, ?_, ?_⟩
  · intro ch member
    simpa using List.mem_takeWhile_imp member
  · rw [← skipped, ← List.append_assoc, List.takeWhile_append_dropWhile, cut]
  · intro below isSpace
    have notAll : between.dropWhile (· = ' ') ≠ [] := by
      intro allSpaces
      have lengths := congrArg List.length
        (List.takeWhile_append_dropWhile (p := (· = ' ')) (l := between))
      rw [allSpaces, List.append_nil, ← isCut, List.length_drop, List.length_take] at lengths
      unfold skipSpaces at below
      omega
    rw [← skipped, List.head?_append_of_ne_nil _ notAll] at isSpace
    have notSpace := List.head?_dropWhile_not (· = ' ') between
    rw [isSpace] at notSpace
    exact absurd notSpace (by decide)

/-- Behind the last character that is no space there are no pieces. -/
theorem trimmedPieces_behind (delimiters : Text) (areSpaces : ∀ ch ∈ s.drop length, ch = ' ')
    (behind : length ≤ start) : trimmedPieces delimiters (s.drop start) = [] := by
  refine trimmedPieces_of_spaces (fun ch member => areSpaces ch ?_) delimiters
  rw [← Nat.add_sub_cancel' behind, ← List.drop_drop] at member
  exact List.mem_of_mem_drop member

/-- One token: the piece up to its end, then what is behind the delimiter. -/
private theorem trimmedPieces_step (delimiters : Text) (lengthInside : length ≤ s.length)
    (areSpaces : ∀ ch ∈ s.drop length, ch = ' ') (inside : start < length)
    (notAtEnd : skipSpaces s length start ≠ length) :
    (if skipSpaces s length start < trimEnd s (skipSpaces s length start)
          (tokenEnd s delimiters length (skipSpaces s length start)) then
        [read s ⟨skipSpaces s length start, trimEnd s (skipSpaces s length start)
          (tokenEnd s delimiters length (skipSpaces s length start)) -
            skipSpaces s length start⟩]
      else []) ++
        trimmedPieces delimiters
          (s.drop (tokenEnd s delimiters length (skipSpaces s length start) + 1)) =
      trimmedPieces delimiters (s.drop start) := by
  obtain ⟨gap, areGap, isRest, noSpace⟩ := skipSpaces_spec (Nat.le_of_lt inside) lengthInside
  have below := Nat.lt_of_le_of_ne (skipSpaces_le (s := s) (Nat.le_of_lt inside)).2 notAtEnd
  generalize skipSpaces s length start = first at isRest noSpace below
  rw [isRest, trimmedPieces_spaces areGap, read_trimmed (noSpace below)]
  unfold tokenEnd
  cases isFound : findFirstOf s delimiters first with
  | none =>
      have noDelimiter := findFirstOf_eq_none isFound
      have cut : (s.drop first).take (length - first) ++ s.drop length = s.drop first := by
        have behind : (s.drop first).drop (length - first) = s.drop length := by
          rw [List.drop_drop, Nat.add_sub_cancel' (Nat.le_of_lt below)]
        rw [← behind, List.take_append_drop]
      have sameTrimmed : trimSpaces ((s.drop first).take (length - first)) =
          trimSpaces (s.drop first) := by
        rw [trimSpaces_of_head (head?_take_noSpace (noSpace below) _),
          trimSpaces_of_head (noSpace below), ← rdropWhile_spaces areSpaces, cut]
      rw [Option.getD_none, trimmedPieces_last noDelimiter, trimmedPiece, sameTrimmed,
        trimmedPieces_behind delimiters areSpaces (Nat.le_succ length), List.append_nil]
      rfl
  | some stop =>
      obtain ⟨delimiter, isDelimiter, isPiece, noDelimiter⟩ := findFirstOf_eq_some isFound
      rw [Option.getD_some, ← trimmedPieces_next noDelimiter isDelimiter, ← isPiece]

/-- From a position on, exactly the trimmed pieces of what follows are cut. -/
theorem map_read_anyOfFrom (delimiters : Text) (lengthInside : length ≤ s.length)
    (areSpaces : ∀ ch ∈ s.drop length, ch = ' ') (start : Nat) :
    (anyOfFrom s delimiters length start).map (read s) = trimmedPieces delimiters (s.drop start) := by
  fun_induction anyOfFrom s delimiters length start with
  | case1 start inside first atEnd =>
      obtain ⟨gap, areGap, isRest, -⟩ := skipSpaces_spec (Nat.le_of_lt inside) lengthInside
      have firstAtEnd : skipSpaces s length start = length := atEnd
      rw [isRest, trimmedPieces_spaces areGap, firstAtEnd, trimmedPieces_of_spaces areSpaces]
      rfl
  | case2 start inside first notAtEnd stop notEmpty ih =>
      have step := trimmedPieces_step delimiters lengthInside areSpaces inside notAtEnd
      rw [if_pos notEmpty] at step
      rw [List.map_cons, ih, ← step]
      rfl
  | case3 start inside first notAtEnd stop isEmpty ih =>
      have step := trimmedPieces_step delimiters lengthInside areSpaces inside notAtEnd
      rw [if_neg isEmpty] at step
      rw [ih, ← step]
      rfl
  | case4 start outside =>
      rw [trimmedPieces_behind delimiters areSpaces (Nat.le_of_not_lt outside)]
      rfl

theorem trimEnd_le {first stop : Nat} (le : first ≤ stop) : trimEnd s first stop ≤ stop := by
  have short := (List.rdropWhile_prefix (· = ' ') ((s.drop first).take (stop - first))).length_le
  rw [List.length_take] at short
  unfold trimEnd
  omega

theorem tokenEnd_le {first : Nat} (lengthInside : length ≤ s.length) :
    tokenEnd s delimiters length first ≤ s.length := by
  unfold tokenEnd
  cases isFound : findFirstOf s delimiters first with
  | none => exact lengthInside
  | some stop =>
      obtain ⟨offset, isIndex, rfl⟩ := Option.map_eq_some_iff.mp isFound
      obtain ⟨inside, -⟩ := List.findIdx?_eq_some_iff_getElem.mp isIndex
      rw [List.length_drop] at inside
      exact Nat.le_of_lt (Nat.add_lt_of_lt_sub' inside)

theorem anyOfFrom_ordered (delimiters : Text) (lengthInside : length ≤ s.length) (start : Nat) :
    Ordered start s.length (anyOfFrom s delimiters length start) := by
  fun_induction anyOfFrom s delimiters length start with
  | case1 start inside first atEnd => exact .nil
  | case2 start inside first notAtEnd stop notEmpty ih =>
      have skipped := skipSpaces_le (s := s) (Nat.le_of_lt inside)
      have behind : first ≤ stop := le_tokenEnd delimiters skipped.2
      have trimmed : first + (trimEnd s first stop - first) = trimEnd s first stop :=
        Nat.add_sub_cancel' (Nat.le_of_lt notEmpty)
      refine .cons skipped.1 (Nat.sub_pos_of_lt notEmpty) ?_ ?_ ih
      · rw [trimmed]
        exact Nat.le_succ_of_le (trimEnd_le behind)
      · rw [trimmed]
        exact Nat.le_trans (trimEnd_le behind) (tokenEnd_le lengthInside)
  | case3 start inside first notAtEnd stop isEmpty ih =>
      have skipped := skipSpaces_le (s := s) (Nat.le_of_lt inside)
      have behind : first ≤ stop := le_tokenEnd delimiters skipped.2
      exact ih.mono (Nat.le_succ_of_le (Nat.le_trans skipped.1 behind))
  | case4 start outside => exact .nil

end

/-!
## A text as delimiter
-/

/-- The pieces between the occurrences of a word, where each occurrence is the first one behind
the one before it. -/
inductive IsSplit (word : Text) : Text → List Text → Prop where
  | last {text : Text} (noWord : ¬word <:+: text) : IsSplit word text [text]
  | next {piece rest : Text} {pieces : List Text} (noEarlier : ¬word <:+: piece ++ word.dropLast)
      (later : IsSplit word rest pieces) : IsSplit word (piece ++ (word ++ rest)) (piece :: pieces)

section

variable {s : Text} {delimiter : TextDelimiter} {start : Nat}

theorem isSplit_piecesFrom (short : s.length ≤ npos) (sameLength : delimiter.len = delimiter.word.length)
    (inside : start ≤ s.length) :
    IsSplit delimiter.word (s.drop start) ((piecesFrom s delimiter start).map (read s)) := by
  fun_induction piecesFrom s delimiter start with
  | case1 start noneFound =>
      have isRest : read s ⟨start, npos - start⟩ = s.drop start := by
        refine List.take_of_length_le ?_
        rw [List.length_drop]
        exact Nat.sub_le_sub_right short start
      rw [List.map_singleton, isRest]
      exact .last (findText_eq_none_iff.mp (Option.map_eq_none_iff.mp noneFound))
  | case2 start stop isFound ih =>
      have bounds := findFrom_lt delimiter.notNil isFound
      obtain ⟨offset, isOffset, rfl⟩ := Option.map_eq_some_iff.mp isFound
      obtain ⟨isText, noEarlier⟩ := findText_eq_some delimiter.notNil isOffset
      have later := ih (sameLength ▸ bounds.2)
      have isRest : s.drop (start + offset + delimiter.len) =
          (s.drop start).drop (offset + delimiter.word.length) := by
        rw [sameLength, List.drop_drop, Nat.add_assoc]
      rw [List.map_cons, read]
      dsimp only
      rw [Nat.add_sub_cancel_left]
      rw [isRest] at later
      nth_rewrite 1 [isText]
      exact .next noEarlier later

/-- The ranges begin inside and come one behind the other. All but the last one end inside. -/
theorem piecesFrom_increasing (inside : start ≤ s.length)
    (sameLength : delimiter.len = delimiter.word.length) :
    (∀ range ∈ piecesFrom s delimiter start, start ≤ range.index ∧ range.index ≤ s.length) ∧
      (∀ range ∈ (piecesFrom s delimiter start).dropLast, range.index + range.length ≤ s.length) ∧
      (piecesFrom s delimiter start).Pairwise
        fun range later => range.index + range.length ≤ later.index := by
  fun_induction piecesFrom s delimiter start with
  | case1 start noneFound =>
      refine ⟨fun range member => ?_, List.forall_mem_nil _, List.pairwise_singleton _ _⟩
      cases List.mem_singleton.mp member
      exact ⟨Nat.le_refl start, inside⟩
  | case2 start stop isFound ih =>
      have bounds := findFrom_lt delimiter.notNil isFound
      obtain ⟨begins, ends, increasing⟩ := ih (sameLength ▸ bounds.2)
      have ending : start + (stop - start) = stop := Nat.add_sub_cancel' bounds.1
      refine ⟨?_, fun range member => ?_, List.pairwise_cons.mpr ⟨fun later member => ?_, increasing⟩⟩
      · intro range member
        cases member with
        | head => exact ⟨Nat.le_refl start, inside⟩
        | tail _ member =>
            obtain ⟨behind, below⟩ := begins range member
            exact ⟨by omega, below⟩
      · cases isLater : piecesFrom s delimiter (stop + delimiter.len) with
        | nil =>
            rw [isLater, List.dropLast_singleton] at member
            cases member
        | cons next later =>
            rw [isLater] at ends
            rw [isLater, List.dropLast_cons_cons] at member
            cases member with
            | head =>
                have ends : start + (stop - start) ≤ s.length := by omega
                exact ends
            | tail _ member => exact ends range member
      · rw [ending]
        exact Nat.le_trans (Nat.le_add_right _ _) (begins later member).1

end

/-!
## What is cut
-/

theorem texts_tokenizeChar (data : Text) (delimiter : Char) :
    (tokenizeChar data delimiter).texts =
      if data.head? = some '\x00' then [] else linePieces delimiter data := by
  unfold tokenizeChar
  by_cases isNil : data = []
  · subst isNil
    simp [texts, empty, linePieces, List.splitOn_eq_splitOnP]
  · by_cases isNul : data.head? = some '\x00'
    · rw [if_pos (.inr isNul), if_pos isNul]
      rfl
    · rw [if_neg (not_or.mpr ⟨isNil, isNul⟩), if_neg isNul]
      exact (map_read_rangesFrom rfl).trans (tokenizeFrom_eq_linePieces .nothing data)

theorem tokenizeChar_ordered (data : Text) (delimiter : Char) :
    Ordered 0 data.length (tokenizeChar data delimiter).tokens := by
  unfold tokenizeChar
  split
  · exact .nil
  · have ordered := rangesFrom_ordered delimiter 0 [] data
    rwa [List.length_nil, Nat.add_zero, Nat.zero_add] at ordered

section

variable (s : Text)

private theorem drop_rdropWhile : ∀ ch ∈ s.drop (s.rdropWhile (· = ' ')).length, ch = ' ' := by
  intro ch member
  have whole : s.rdropWhile (· = ' ') ++ s.rtakeWhile (· = ' ') = s :=
    List.rdropWhile_append_rtakeWhile
  have behind := congrArg (List.drop (s.rdropWhile (· = ' ')).length) whole
  rw [List.drop_left] at behind
  rw [← behind] at member
  simpa using List.mem_rtakeWhile_imp member

theorem texts_tokenizeAnyOf (delimiters : Text) :
    (tokenizeAnyOf s delimiters).texts =
      if delimiters = [] then [] else trimmedPieces delimiters s := by
  have lengthInside := (List.rdropWhile_prefix (· = ' ') s).length_le
  have cut := map_read_anyOfFrom delimiters lengthInside (drop_rdropWhile s) 0
  unfold tokenizeAnyOf
  dsimp only
  by_cases isNil : delimiters = []
  · rw [if_pos (.inr isNil), if_pos isNil]
    rfl
  · rw [if_neg isNil]
    by_cases noLength : (s.rdropWhile (· = ' ')).length = 0
    · have spaces := trimmedPieces_behind delimiters (drop_rdropWhile s) (Nat.le_of_eq noLength)
      rw [List.drop_zero] at spaces
      rw [if_pos (.inl noLength), spaces]
      rfl
    · rw [if_neg (not_or.mpr ⟨noLength, isNil⟩)]
      exact cut

theorem tokenizeAnyOf_ordered (delimiters : Text) :
    Ordered 0 s.length (tokenizeAnyOf s delimiters).tokens := by
  unfold tokenizeAnyOf
  dsimp only
  split
  · exact .nil
  · exact anyOfFrom_ordered delimiters (List.rdropWhile_prefix (· = ' ') s).length_le 0

def ofText (delimiter : Text) (notNil : delimiter ≠ []) : TextDelimiter :=
  ⟨delimiter, delimiter.length, notNil, List.length_pos_of_ne_nil notNil⟩

theorem tokenizeText_eq {delimiter : Text} (noNul : '\x00' ∉ delimiter) (notNil : s ≠ [])
    (isDelimiter : delimiter ≠ []) :
    tokenizeText s delimiter = ⟨s, piecesFrom s (ofText delimiter isDelimiter) 0⟩ := by
  have whole : delimiter.takeWhile (· ≠ '\x00') = delimiter :=
    List.takeWhile_eq_self_iff.mpr fun ch member =>
      decide_eq_true fun isNul => noNul (isNul ▸ member)
  have notEmpty : ¬(s = [] ∨ delimiter = [] ∨ delimiter.takeWhile (· ≠ '\x00') = []) := by
    rw [whole]
    exact not_or.mpr ⟨notNil, not_or.mpr ⟨isDelimiter, isDelimiter⟩⟩
  unfold tokenizeText
  rw [dif_neg notEmpty]
  unfold ofText
  congr

end

/-- Each tokenizer cuts the pieces it is for, and its ranges lie behind each other in the text.
With a text as delimiter the empty pieces are tokens as well. -/
theorem tokenizers_cut_pieces (s : Text) (short : s.length ≤ npos) :
    (∀ delimiter : Char,
      (tokenizeChar s delimiter).texts =
          (if s.head? = some '\x00' then [] else linePieces delimiter s) ∧
        Ordered 0 s.length (tokenizeChar s delimiter).tokens) ∧
      (∀ delimiters : Text,
        (tokenizeAnyOf s delimiters).texts =
            (if delimiters = [] then [] else trimmedPieces delimiters s) ∧
          Ordered 0 s.length (tokenizeAnyOf s delimiters).tokens) ∧
      ∀ delimiter : Text, '\x00' ∉ delimiter →
        (if s = [] ∨ delimiter = [] then (tokenizeText s delimiter).tokens = []
          else IsSplit delimiter s (tokenizeText s delimiter).texts) ∧
        (∀ range ∈ (tokenizeText s delimiter).tokens, range.index ≤ s.length) ∧
        (∀ range ∈ (tokenizeText s delimiter).tokens.dropLast,
          range.index + range.length ≤ s.length) ∧
        (tokenizeText s delimiter).tokens.Pairwise
          fun range later => range.index + range.length ≤ later.index := by
  refine ⟨fun delimiter => ?_, fun delimiters => ?_, fun delimiter noNul => ?_⟩
  · exact ⟨texts_tokenizeChar s delimiter, tokenizeChar_ordered s delimiter⟩
  · exact ⟨texts_tokenizeAnyOf s delimiters, tokenizeAnyOf_ordered s delimiters⟩
  · by_cases isEmpty : s = [] ∨ delimiter = []
    · have nothing : tokenizeText s delimiter = empty := by
        unfold tokenizeText
        rw [dif_pos (isEmpty.imp_right .inl)]
      rw [if_pos isEmpty, nothing]
      exact ⟨rfl, List.forall_mem_nil _, List.forall_mem_nil _, List.Pairwise.nil⟩
    · obtain ⟨notNil, isDelimiter⟩ := not_or.mp isEmpty
      rw [if_neg isEmpty, tokenizeText_eq s noNul notNil isDelimiter]
      have sameLength : (ofText delimiter isDelimiter).len =
          (ofText delimiter isDelimiter).word.length := rfl
      obtain ⟨begins, ends, increasing⟩ := piecesFrom_increasing (Nat.zero_le s.length) sameLength
      exact ⟨isSplit_piecesFrom short sameLength (Nat.zero_le s.length),
        fun range member => (begins range member).2, ends, increasing⟩

theorem tokenizers_cut_pieces_colons :
    "a::b".toList.length ≤ npos ∧ '\x00' ∉ "::".toList ∧
      IsSplit "::".toList "a::b".toList (tokenizeText "a::b".toList "::".toList).texts := by
  have short : "a::b".toList.length ≤ npos := by decide
  have noNul : '\x00' ∉ "::".toList := by decide
  refine ⟨short, noNul, ?_⟩
  have cut := ((tokenizers_cut_pieces "a::b".toList short).2.2 "::".toList noNul).1
  rwa [if_neg (by decide)] at cut

/-- A text that begins with a NUL has no tokens, and a text between two delimiters that is empty
is a token. -/
theorem tokenizers_nul_and_empty :
    (tokenizeChar "\x00a".toList ' ').texts = [] ∧
      linePieces ' ' "\x00a".toList = ["\x00a".toList] ∧
      (tokenizeText "a::::b".toList "::".toList).texts = ["a".toList, [], "b".toList] := by
  refine ⟨by decide, by decide, ?_⟩
  rw [tokenizeText_eq _ (by decide) (by decide) (by decide), piecesFrom_next 1 (by decide),
    piecesFrom_next 3 (by decide), piecesFrom_last (by decide)]
  rfl

end StringVector

end FreeOnline.Common
