import FreeOnline.Common.Tokenizer

/-!
# Headers of an authorization

An access header is cut into lines, and each line into name and value. What is set on the
request, and when a name can keep its colon.
-/

set_option autoImplicit false

namespace FreeOnline.Common.Authorization

open FreeOnline.Library
open StringVector (trimSpaces trimmedPieces trimmedPiece findFirstOf)

inductive AuthType where
  | none
  | token
  | header
  | expired
deriving DecidableEq

abbrev Header := Text × Text

/-- `find_first_not_of`, from a position on. -/
def findFirstNotOf (token : Text) (ch : Char) (start : Nat) : Option Nat :=
  ((token.drop start).findIdx? (· ≠ ch)).map (start + ·)

/-- `find_last_not_of`, from the end or from a position back. -/
def findLastNotOf (token : Text) (ch : Char) (last : Option Nat) : Option Nat :=
  let searched := match last with
    | none => token
    | some last => token.take (last + 1)
  match (searched.rdropWhile (· = ch)).length with
  | 0 => none
  | length + 1 => some length

/-- The position in front, which is `npos` at the begin of the text. -/
def before : Nat → Option Nat
  | 0 => none
  | position + 1 => some position

def substr (token : Text) (start length : Nat) : Text :=
  (token.drop start).take length

/-- The header that is set for a line, if any. -/
def headerOf (token : Text) : Option Header :=
  match findFirstOf token [':'] 0 with
  | none => none
  | some separator =>
      let headerStart := findFirstNotOf token ' ' 0
      let headerEnd := findLastNotOf token ' ' (before separator)
      let valueStart := findFirstNotOf token ' ' (separator + 1)
      let valueEnd := findLastNotOf token ' ' none
      match headerStart, headerEnd, valueStart, valueEnd with
      | some headerStart, some headerEnd, some valueStart, some valueEnd =>
          let headerLength := headerEnd - headerStart + 1
          let valueLength := valueEnd - valueStart + 1
          some (substr token headerStart headerLength, substr token valueStart valueLength)
      | _, _, _, _ => none

def lineBreaks : Text := ['\n', '\r']

/-- The headers set on the request, in the order of the calls. -/
def authorizeRequest (type : AuthType) (data : Text) : List Header :=
  match type with
  | .token => [("Authorization".toList, "Bearer ".toList ++ data)]
  | .header => (StringVector.tokenizeAnyOf data lineBreaks).texts.filterMap headerOf
  | .none => []
  | .expired => []

/-!
## One line
-/

structure Trimmed (text : Text) : Prop where
  head : text.head? ≠ some ' '
  last : text.getLast? ≠ some ' '

section

variable {text token front rest : Text}

theorem rdropWhile_of_last (noSpace : text.getLast? ≠ some ' ') :
    text.rdropWhile (· = ' ') = text := by
  refine List.rdropWhile_eq_self_iff.mpr fun notNil isSpace => noSpace ?_
  rw [List.getLast?_eq_some_getLast notNil, of_decide_eq_true isSpace]

theorem dropWhile_of_head (noSpace : text.head? ≠ some ' ') :
    text.dropWhile (· = ' ') = text := by
  cases text with
  | nil => rfl
  | cons ch text =>
      have notSpace : ch ≠ ' ' := fun same => noSpace (congrArg some same)
      exact List.dropWhile_cons_of_neg (by simpa using notSpace)

theorem head?_dropWhile_spaces (text : Text) : (text.dropWhile (· = ' ')).head? ≠ some ' ' := by
  intro isSpace
  have notSpace := List.head?_dropWhile_not (· = ' ') text
  rw [isSpace] at notSpace
  exact absurd notSpace (by decide)

theorem trimmed_rdropWhile (noSpace : text.head? ≠ some ' ') :
    Trimmed (text.rdropWhile (· = ' ')) := by
  constructor
  · intro isSpace
    obtain ⟨more, isMore⟩ := List.rdropWhile_prefix (· = ' ') text
    rw [← isMore, List.head?_append, isSpace] at noSpace
    exact noSpace rfl
  · intro isSpace
    have notNil : text.rdropWhile (· = ' ') ≠ [] := fun isNil => by
      rw [isNil] at isSpace
      cases isSpace
    have notSpace := List.rdropWhile_last_not (· = ' ') text notNil
    rw [List.getLast?_eq_some_getLast notNil] at isSpace
    exact notSpace (decide_eq_true (Option.some.inj isSpace))

theorem trimmed_trimSpaces (text : Text) : Trimmed (trimSpaces text) :=
  trimmed_rdropWhile (head?_dropWhile_spaces text)

/-- What is left of a text from its first character on that is no space. -/
theorem findFirstNotOf_eq (token : Text) (start : Nat) :
    findFirstNotOf token ' ' start =
      if (token.drop start).dropWhile (· = ' ') = [] then none
      else some (start + ((token.drop start).takeWhile (· = ' ')).length) := by
  have search (text : Text) : text.findIdx? (· ≠ ' ') =
      if text.dropWhile (· = ' ') = [] then none
      else some (text.takeWhile (· = ' ')).length := by
    induction text with
    | nil => rfl
    | cons ch text ih =>
        by_cases isSpace : ch = ' '
        · subst isSpace
          rw [List.findIdx?_cons, List.dropWhile_cons_of_pos (by decide),
            List.takeWhile_cons_of_pos (by decide), ih, if_neg (by decide), List.length_cons]
          split <;> rfl
        · rw [List.findIdx?_cons, List.dropWhile_cons_of_neg (by simpa using isSpace),
            List.takeWhile_cons_of_neg (by simpa using isSpace), if_neg (List.cons_ne_nil ch text)]
          simp [isSpace]
  unfold findFirstNotOf
  rw [search]
  split <;> rfl

theorem findFirstNotOf_zero (noSpace : token.head? ≠ some ' ') (notNil : token ≠ []) :
    findFirstNotOf token ' ' 0 = some 0 := by
  rw [findFirstNotOf_eq, List.drop_zero, dropWhile_of_head noSpace, if_neg notNil]
  cases token with
  | nil => exact absurd rfl notNil
  | cons ch token =>
      have notSpace : ch ≠ ' ' := fun same => noSpace (congrArg some same)
      rw [List.takeWhile_cons_of_neg (by simpa using notSpace)]
      rfl

theorem findLastNotOf_none (noSpace : token.getLast? ≠ some ' ') (notNil : token ≠ []) :
    findLastNotOf token ' ' none = some (token.length - 1) := by
  have positive := List.length_pos_of_ne_nil notNil
  unfold findLastNotOf
  dsimp only
  rw [rdropWhile_of_last noSpace]
  split
  · omega
  · next length isLength => rw [isLength, Nat.succ_sub_one]

theorem findFirstOf_colon (noColon : ':' ∉ front) (rest : Text) :
    findFirstOf (front ++ ':' :: rest) [':'] 0 = some front.length := by
  have noneFound : front.findIdx? (· ∈ [':']) = none := by
    refine List.findIdx?_eq_none_iff.mpr fun ch member => decide_eq_false fun isColon => noColon ?_
    exact List.mem_singleton.mp isColon ▸ member
  rw [findFirstOf, List.drop_zero, List.findIdx?_append, noneFound, Option.none_or,
    List.findIdx?_cons, if_pos (by decide)]
  simp

theorem headerOf_noColon (noColon : ':' ∉ token) : headerOf token = none := by
  have noneFound : findFirstOf token [':'] 0 = none := by
    refine Option.map_eq_none_iff.mpr (List.findIdx?_eq_none_iff.mpr fun ch member => ?_)
    refine decide_eq_false fun isColon => noColon ?_
    exact List.mem_singleton.mp isColon ▸ member
  rw [headerOf, noneFound]

theorem dropWhile_ne_nil (noSpace : text.getLast? ≠ some ' ') (notNil : text ≠ []) :
    text.dropWhile (· = ' ') ≠ [] := by
  intro allSpaces
  have areSpaces := List.dropWhile_eq_nil_iff.mp allSpaces (text.getLast notNil)
    (List.getLast_mem notNil)
  rw [List.getLast?_eq_some_getLast notNil, of_decide_eq_true areSpaces] at noSpace
  exact noSpace rfl

theorem rdropWhile_ne_nil (noSpace : text.head? ≠ some ' ') (notNil : text ≠ []) :
    text.rdropWhile (· = ' ') ≠ [] := by
  intro allSpaces
  have areSpaces := List.rdropWhile_eq_nil_iff.mp allSpaces (text.head notNil)
    (List.head_mem notNil)
  rw [List.head?_eq_some_head notNil, of_decide_eq_true areSpaces] at noSpace
  exact noSpace rfl

theorem findLastNotOf_front (noSpace : front.head? ≠ some ' ') (notNil : front ≠ []) (rest : Text) :
    findLastNotOf (front ++ rest) ' ' (before front.length) =
      some ((front.rdropWhile (· = ' ')).length - 1) := by
  have someName := rdropWhile_ne_nil noSpace notNil
  have positive := List.length_pos_of_ne_nil someName
  cases isLength : front.length with
  | zero => exact absurd (List.eq_nil_of_length_eq_zero isLength) notNil
  | succ position =>
      unfold findLastNotOf before
      dsimp only
      rw [← isLength, List.take_left]
      split
      · omega
      · next length isLast => rw [isLast, Nat.succ_sub_one]

/-- The value ends with the line. -/
theorem substr_value (front rest : Text) (someValue : rest.dropWhile (· = ' ') ≠ []) :
    substr (front ++ ':' :: rest) (front.length + 1 + (rest.takeWhile (· = ' ')).length)
        ((front ++ ':' :: rest).length - 1 -
          (front.length + 1 + (rest.takeWhile (· = ' ')).length) + 1) =
      rest.dropWhile (· = ' ') := by
  have whole := List.takeWhile_append_dropWhile (p := (· = ' ')) (l := rest)
  have lengths := congrArg List.length whole
  have positive := List.length_pos_of_ne_nil someValue
  rw [List.length_append] at lengths
  have isValue : (front ++ ':' :: rest).drop
      (front.length + 1 + (rest.takeWhile (· = ' ')).length) = rest.dropWhile (· = ' ') := by
    rw [← List.drop_drop, ← List.drop_drop, List.drop_left, List.drop_one, List.tail_cons]
    nth_rewrite 2 [← whole]
    exact List.drop_left
  rw [substr, isValue]
  refine List.take_of_length_le ?_
  rw [List.length_append, List.length_cons]
  omega

theorem Trimmed.nameHead (trimmed : Trimmed (front ++ ':' :: rest)) (notNil : front ≠ []) :
    front.head? ≠ some ' ' := by
  have head := trimmed.head
  rwa [List.head?_append_of_ne_nil _ notNil] at head

theorem Trimmed.valueLast (trimmed : Trimmed (front ++ ':' :: rest)) (notNil : rest ≠ []) :
    rest.getLast? ≠ some ' ' := by
  have last := trimmed.last
  rwa [List.getLast?_append_of_ne_nil _ (List.cons_ne_nil ':' rest),
    List.getLast?_cons_of_ne_nil notNil] at last

/-- What is set for a trimmed line with a colon. Behind a colon at the begin, the end of the name
is searched in the whole line. -/
theorem headerOf_colon (trimmed : Trimmed (front ++ ':' :: rest)) (noColon : ':' ∉ front) :
    headerOf (front ++ ':' :: rest) =
      if rest = [] then none
      else some (if front = [] then ':' :: rest else front.rdropWhile (· = ' '),
        rest.dropWhile (· = ' ')) := by
  have notNil : front ++ ':' :: rest ≠ [] := by simp
  have behind : (front ++ ':' :: rest).drop (front.length + 1) = rest := by
    rw [← List.drop_drop, List.drop_left, List.drop_one, List.tail_cons]
  rw [headerOf, findFirstOf_colon noColon]
  dsimp only
  rw [findFirstNotOf_zero trimmed.head notNil, findLastNotOf_none trimmed.last notNil,
    findFirstNotOf_eq, behind]
  by_cases isNil : rest = []
  · rw [if_pos isNil, isNil]
    cases findLastNotOf (front ++ [':']) ' ' (before front.length) <;> rfl
  · have someValue := dropWhile_ne_nil (trimmed.valueLast isNil) isNil
    rw [if_neg isNil, if_neg someValue]
    by_cases noName : front = []
    · subst noName
      have isEnd : findLastNotOf (':' :: rest) ' ' (before 0) = some (rest.length + 1 - 1) :=
        findLastNotOf_none trimmed.last notNil
      have isValue := substr_value [] rest someValue
      rw [List.nil_append, List.length_nil] at isValue
      rw [List.nil_append, List.length_nil, isEnd, if_pos rfl]
      dsimp only
      rw [isValue]
      have isName : substr (':' :: rest) 0 (rest.length + 1 - 1 - 0 + 1) = ':' :: rest :=
        List.take_of_length_le (Nat.le_refl _)
      rw [isName]
    · have headNoSpace := trimmed.nameHead noName
      have positive := List.length_pos_of_ne_nil (rdropWhile_ne_nil headNoSpace noName)
      rw [findLastNotOf_front headNoSpace noName, if_neg noName]
      dsimp only
      rw [substr_value front rest someValue, Nat.sub_zero, Nat.sub_add_cancel positive, substr,
        List.drop_zero, ← List.prefix_iff_eq_take.mp
          ((List.rdropWhile_prefix _ front).trans (List.prefix_append front _))]

end

/-!
## The headers of a text
-/

/-- A header that stays what it is on a line of its own. -/
structure IsHeader (header : Header) : Prop where
  name : header.1 ≠ []
  noColon : ':' ∉ header.1
  nameOnLine : ∀ ch ∈ header.1, ch ∉ lineBreaks
  trimmed : Trimmed header.1
  value : header.2 ≠ []
  valueOnLine : ∀ ch ∈ header.2, ch ∉ lineBreaks

/-- A line with no colon at its begin, or nothing but that colon. -/
def NamesHeader (line : Text) : Prop :=
  line.head? = some ':' → line = [':']

instance (line : Text) : Decidable (NamesHeader line) :=
  inferInstanceAs (Decidable (_ → _))

section

variable {data line text : Text} {header : Header}

theorem authorizeRequest_header (data : Text) :
    authorizeRequest .header data = (trimmedPieces lineBreaks data).filterMap headerOf := by
  rw [authorizeRequest, StringVector.texts_tokenizeAnyOf, if_neg (by decide)]

private theorem notMem_piece {delimiters piece : Text}
    (member : piece ∈ text.splitOnP (· ∈ delimiters)) : ∀ ch ∈ piece, ch ∉ delimiters := by
  induction text generalizing piece with
  | nil =>
      rw [List.splitOnP_nil, List.mem_singleton] at member
      rw [member]
      exact List.forall_mem_nil _
  | cons first text ih =>
      rw [List.splitOnP_cons_eq_if_modifyHead] at member
      split at member
      · cases member with
        | head => exact List.forall_mem_nil _
        | tail _ member => exact ih member
      · next notDelimiter =>
          cases isSplit : text.splitOnP (· ∈ delimiters) with
          | nil => exact absurd isSplit (List.splitOnP_ne_nil _ _)
          | cons begun pieces =>
              rw [isSplit] at ih
              rw [isSplit, List.modifyHead_cons] at member
              cases member with
              | head =>
                  refine List.forall_mem_cons.mpr ⟨by simpa using notDelimiter, ?_⟩
                  exact ih List.mem_cons_self
              | tail _ member => exact ih (List.mem_cons_of_mem _ member)

/-- What a line is that is cut out of a text. -/
structure IsLine (line : Text) : Prop where
  notNil : line ≠ []
  trimmed : Trimmed line
  noBreak : ∀ ch ∈ line, ch ∉ lineBreaks

theorem isLine_of_mem (member : line ∈ trimmedPieces lineBreaks data) : IsLine line := by
  obtain ⟨isPiece, notNil⟩ := List.mem_filter.mp member
  obtain ⟨piece, isPart, rfl⟩ := List.mem_map.mp isPiece
  refine ⟨of_decide_eq_true notNil, trimmed_trimSpaces piece, fun ch inside => ?_⟩
  refine notMem_piece isPart ch ?_
  exact (List.dropWhile_sublist _).subset ((List.rdropWhile_prefix _ _).subset inside)

/-- The two parts of a line at its first colon. -/
theorem exists_colon (hasColon : ':' ∈ line) : ∃ front rest, line = front ++ ':' :: rest ∧ ':' ∉ front :=
  List.eq_append_cons_of_mem hasColon

theorem isHeader_of_headerOf (isLine : IsLine line) (names : NamesHeader line)
    (isSet : headerOf line = some header) : IsHeader header := by
  by_cases hasColon : ':' ∈ line
  · obtain ⟨front, rest, rfl, noColon⟩ := exists_colon hasColon
    rw [headerOf_colon isLine.trimmed noColon] at isSet
    by_cases isNil : rest = []
    · rw [if_pos isNil] at isSet
      cases isSet
    · have hasName : front ≠ [] := by
        rintro rfl
        have alone := names rfl
        exact isNil (List.cons.inj alone).2
      rw [if_neg isNil, if_neg hasName] at isSet
      cases isSet
      have isPrefix := List.rdropWhile_prefix (· = ' ') front
      constructor
      · exact rdropWhile_ne_nil (isLine.trimmed.nameHead hasName) hasName
      · exact fun member => noColon (isPrefix.subset member)
      · exact fun ch member => isLine.noBreak ch (List.mem_append_left _ (isPrefix.subset member))
      · exact trimmed_rdropWhile (isLine.trimmed.nameHead hasName)
      · exact dropWhile_ne_nil (isLine.trimmed.valueLast isNil) isNil
      · intro ch member
        refine isLine.noBreak ch (List.mem_append_right _ (List.mem_cons_of_mem _ ?_))
        exact (List.dropWhile_sublist _).subset member
  · rw [headerOf_noColon hasColon] at isSet
    cases isSet

/-- A line that begins with its colon becomes the name. -/
theorem headerOf_colon_first (isLine : IsLine line) (noName : ¬NamesHeader line) :
    ∃ header, headerOf line = some header ∧ ':' ∈ header.1 := by
  obtain ⟨isColon, more⟩ := Classical.not_imp.mp noName
  obtain ⟨rest, rfl⟩ := List.head?_eq_some_iff.mp isColon
  have notNil : rest ≠ [] := fun isNil => more (isNil ▸ rfl)
  have isSet := @headerOf_colon [] rest isLine.trimmed List.not_mem_nil
  rw [if_neg notNil, if_pos rfl] at isSet
  exact ⟨_, isSet, List.mem_cons_self⟩

theorem headers_iff (data : Text) :
    (∀ header ∈ authorizeRequest .header data, IsHeader header) ↔
      ∀ line ∈ trimmedPieces lineBreaks data, NamesHeader line := by
  rw [authorizeRequest_header]
  constructor
  · intro areHeaders line member
    by_contra noName
    obtain ⟨header, isSet, hasColon⟩ := headerOf_colon_first (isLine_of_mem member) noName
    exact (areHeaders header (List.mem_filterMap.mpr ⟨line, member, isSet⟩)).noColon hasColon
  · intro named header member
    obtain ⟨line, isPiece, isSet⟩ := List.mem_filterMap.mp member
    exact isHeader_of_headerOf (isLine_of_mem isPiece) (named line isPiece) isSet

end

/-!
## Well-formed lines
-/

/-- A text with spaces around it. -/
inductive Spaced (text : Text) : Text → Prop where
  | intro {front behind : Text} (isFront : ∀ ch ∈ front, ch = ' ') (isBehind : ∀ ch ∈ behind, ch = ' ') :
      Spaced text (front ++ (text ++ behind))

structure IsPlain (header : Header) : Prop extends IsHeader header where
  valueTrimmed : Trimmed header.2

/-- A line `name: value`, with any spaces around both. -/
inductive WritesHeader (header : Header) : Text → Prop where
  | intro {name value : Text} (isName : Spaced header.1 name) (isValue : Spaced header.2 value) :
      WritesHeader header (name ++ ':' :: value)

/-- Lines of headers, with any line breaks between them, and blank lines. -/
inductive HasLines : List Header → Text → Prop where
  | blank {spaces : Text} (areSpaces : ∀ ch ∈ spaces, ch = ' ') : HasLines [] spaces
  | last {header : Header} {line : Text} (plain : IsPlain header) (writes : WritesHeader header line) :
      HasLines [header] line
  | blankLine {headers : List Header} {spaces text : Text} {lineBreak : Char}
      (areSpaces : ∀ ch ∈ spaces, ch = ' ') (breaks : lineBreak ∈ lineBreaks)
      (later : HasLines headers text) : HasLines headers (spaces ++ lineBreak :: text)
  | line {header : Header} {headers : List Header} {line text : Text} {lineBreak : Char}
      (plain : IsPlain header) (writes : WritesHeader header line) (breaks : lineBreak ∈ lineBreaks)
      (later : HasLines headers text) : HasLines (header :: headers) (line ++ lineBreak :: text)

section

variable {header : Header} {line text spaced : Text}

theorem dropWhile_spaces {spaces : Text} (areSpaces : ∀ ch ∈ spaces, ch = ' ') (text : Text) :
    (spaces ++ text).dropWhile (· = ' ') = text.dropWhile (· = ' ') :=
  List.dropWhile_append_of_pos fun ch member => decide_eq_true (areSpaces ch member)

theorem trimSpaces_spaced (trimmed : Trimmed text) (notNil : text ≠ []) (isSpaced : Spaced text spaced) :
    trimSpaces spaced = text := by
  obtain ⟨isFront, isBehind⟩ := isSpaced
  unfold trimSpaces
  rw [dropWhile_spaces isFront, dropWhile_of_head, StringVector.rdropWhile_spaces isBehind,
    rdropWhile_of_last trimmed.last]
  rw [List.head?_append_of_ne_nil _ notNil]
  exact trimmed.head

theorem headerOf_writes (plain : IsPlain header) (writes : WritesHeader header line) :
    headerOf (trimSpaces line) = some header ∧ trimSpaces line ≠ [] := by
  obtain ⟨⟨nameFront, nameBehind⟩, ⟨valueFront, valueBehind⟩⟩ := writes
  next beforeName behindName beforeValue behindValue =>
  have trimmed : Trimmed ((header.1 ++ behindName) ++ ':' :: (beforeValue ++ header.2)) := by
    constructor
    · rw [List.append_assoc, List.head?_append_of_ne_nil _ plain.name]
      exact plain.trimmed.head
    · rw [← List.cons_append, ← List.append_assoc, List.getLast?_append_of_ne_nil _ plain.value]
      exact plain.valueTrimmed.last
  have isSpaced : Spaced ((header.1 ++ behindName) ++ ':' :: (beforeValue ++ header.2))
      (beforeName ++ (header.1 ++ behindName) ++
        ':' :: (beforeValue ++ (header.2 ++ behindValue))) := by
    have spaced : Spaced ((header.1 ++ behindName) ++ ':' :: (beforeValue ++ header.2))
        (beforeName ++ (((header.1 ++ behindName) ++ ':' :: (beforeValue ++ header.2)) ++
          behindValue)) := .intro nameFront valueBehind
    simpa only [List.append_assoc, List.cons_append] using spaced
  have noColon : ':' ∉ header.1 ++ behindName := by
    intro member
    cases List.mem_append.mp member with
    | inl inName => exact plain.noColon inName
    | inr inSpaces => exact absurd (nameBehind ':' inSpaces) (by decide)
  have notNil : beforeValue ++ header.2 ≠ [] := List.append_ne_nil_of_right_ne_nil _ plain.value
  rw [trimSpaces_spaced trimmed (by simp) isSpaced, headerOf_colon trimmed noColon, if_neg notNil,
    if_neg (List.append_ne_nil_of_left_ne_nil plain.name _),
    StringVector.rdropWhile_spaces nameBehind, rdropWhile_of_last plain.trimmed.last,
    dropWhile_spaces valueFront, dropWhile_of_head plain.valueTrimmed.head]
  exact ⟨rfl, by simp⟩

private theorem noBreak_spaces {spaces : Text} (areSpaces : ∀ ch ∈ spaces, ch = ' ') :
    ∀ ch ∈ spaces, ch ∉ lineBreaks := by
  intro ch member
  rw [areSpaces ch member]
  decide

private theorem noBreak_spaced (noBreak : ∀ ch ∈ text, ch ∉ lineBreaks)
    (isSpaced : Spaced text spaced) : ∀ ch ∈ spaced, ch ∉ lineBreaks := by
  obtain ⟨isFront, isBehind⟩ := isSpaced
  refine List.forall_mem_append.mpr ⟨noBreak_spaces isFront, ?_⟩
  exact List.forall_mem_append.mpr ⟨noBreak, noBreak_spaces isBehind⟩

private theorem noBreak_writes (plain : IsPlain header) (writes : WritesHeader header line) :
    ∀ ch ∈ line, ch ∉ lineBreaks := by
  obtain ⟨isName, isValue⟩ := writes
  refine List.forall_mem_append.mpr ⟨noBreak_spaced plain.nameOnLine isName, ?_⟩
  exact List.forall_mem_cons.mpr ⟨by decide, noBreak_spaced plain.valueOnLine isValue⟩

/-- Exactly the headers of the lines are set, in their order. -/
theorem headers_hasLines {headers : List Header} (hasLines : HasLines headers text) :
    authorizeRequest .header text = headers := by
  rw [authorizeRequest_header]
  induction hasLines with
  | blank areSpaces =>
      rw [StringVector.trimmedPieces_of_spaces areSpaces]
      rfl
  | last plain writes =>
      obtain ⟨isHeader, notNil⟩ := headerOf_writes plain writes
      rw [StringVector.trimmedPieces_last (noBreak_writes plain writes), trimmedPiece,
        if_neg notNil, List.filterMap_cons_some isHeader]
      rfl
  | blankLine areSpaces breaks later ih =>
      have next := StringVector.trimmedPieces_next (List.forall_mem_nil (· ∉ lineBreaks)) breaks
      rw [StringVector.trimmedPieces_spaces areSpaces]
      exact (congrArg (List.filterMap headerOf) (next _)).trans ih
  | line plain writes breaks later ih =>
      obtain ⟨isHeader, notNil⟩ := headerOf_writes plain writes
      rw [StringVector.trimmedPieces_next (noBreak_writes plain writes) breaks, trimmedPiece,
        if_neg notNil, List.singleton_append, List.filterMap_cons_some isHeader, ih]

end

/-- Every header that is set stays on its line exactly where no line begins with its colon, and of
well-formed lines exactly the trimmed pairs are set. -/
theorem authorizeRequest_headers (data : Text) :
    ((∀ header ∈ authorizeRequest .header data, IsHeader header) ↔
      ∀ line ∈ trimmedPieces lineBreaks data, NamesHeader line) ∧
    ∀ headers : List Header, HasLines headers data → authorizeRequest .header data = headers :=
  ⟨headers_iff data, fun _ hasLines => headers_hasLines hasLines⟩

theorem authorizeRequest_headers_two :
    authorizeRequest .header "A : b \n\r B:c".toList =
      [("A".toList, "b".toList), ("B".toList, "c".toList)] := by
  have plain (name value : Char) (isName : name ≠ ' ' ∧ name ≠ ':' ∧ name ∉ lineBreaks)
      (isValue : value ≠ ' ' ∧ value ∉ lineBreaks) : IsPlain ([name], [value]) := by
    refine ⟨⟨List.cons_ne_nil _ _, ?_, ?_, ⟨?_, ?_⟩, List.cons_ne_nil _ _, ?_⟩, ⟨?_, ?_⟩⟩
    · simpa using Ne.symm isName.2.1
    · simpa using isName.2.2
    · simpa using isName.1
    · simpa using isName.1
    · simpa using isValue.2
    · simpa using isValue.1
    · simpa using isValue.1
  have space : ∀ ch ∈ [' '], ch = ' ' := List.forall_mem_singleton.mpr rfl
  have none : ∀ ch ∈ ([] : Text), ch = ' ' := List.forall_mem_nil _
  have first : WritesHeader ("A".toList, "b".toList) "A : b ".toList :=
    .intro (.intro none space) (.intro space space)
  refine (authorizeRequest_headers "A : b \n\r B:c".toList).2 _ ?_
  refine .line (plain 'A' 'b' (by decide) (by decide)) first (by decide) ?_
  refine .blankLine none (by decide) ?_
  exact .last (plain 'B' 'c' (by decide) (by decide)) (.intro (.intro space none) (.intro none none))

/-- The colon becomes a part of the name. -/
theorem authorizeRequest_colon_first :
    authorizeRequest .header ":a".toList = [(":a".toList, "a".toList)] ∧
      ¬∀ header ∈ authorizeRequest .header ":a".toList, IsHeader header := by
  have isSet : authorizeRequest .header ":a".toList = [(":a".toList, "a".toList)] := by
    rw [authorizeRequest_header]
    decide
  refine ⟨isSet, fun areHeaders => ?_⟩
  rw [isSet] at areHeaders
  exact (areHeaders _ List.mem_cons_self).noColon List.mem_cons_self

end FreeOnline.Common.Authorization
