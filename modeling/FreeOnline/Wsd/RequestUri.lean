import FreeOnline.Common.Tokenizer
import FreeOnline.Library.PercentCoding
import Mathlib.Data.Bool.AllAny

/-!
# Request URIs

A request URI nests an encoded document URI and an encoded WOPI source, and names a session, a
command and a serial at its end. The URI class is a parameter.
-/

set_option autoImplicit false

namespace FreeOnline.Wsd.RequestUri

open FreeOnline.Library FreeOnline.Common
open FreeOnline.Common.StringVector (findFirstOf findFirstOf_append tokenizeChar linePieces)

/-- What is used of the URI class; none is a syntax exception. -/
structure UriCodec where
  decode : Text → Option Text
  getQueryParameters : Text → Option (List (Text × Text))

/-!
## Processing
-/

/-- The tokens between `/` and `?`; one has begun at `start`. -/
def segmentsFrom (start i : Nat) : Text → List StringToken
  | [] => if 0 < i - start then [⟨start, i - start⟩] else []
  | ch :: rest =>
      if ch = '/' ∨ ch = '?' then
        if 0 < i - start then ⟨start, i - start⟩ :: segmentsFrom (i + 1) (i + 1) rest
        else segmentsFrom (i + 1) (i + 1) rest
      else segmentsFrom start (i + 1) rest

def pathSegments (uriString : Text) : StringVector := ⟨uriString, segmentsFrom 0 0 uriString⟩

def segmentEquals (segments : StringVector) (index : Nat) (string : Text) : Bool :=
  match segments.tokens[index]? with
  | none => false
  | some token => StringVector.read segments.string token = string

/-- The type, and what is behind its slash: without one, all is behind `npos + 1`. -/
def splitType (uriString : Text) : Text × Text :=
  match findFirstOf uriString ['/'] 0 with
  | some 0 =>
      match findFirstOf uriString ['/'] 1 with
      | some posDocUri => ((uriString.drop 1).take (posDocUri - 1), uriString.drop (posDocUri + 1))
      | none => (uriString.drop 1, uriString)
  | some posDocUri => (uriString.take posDocUri, uriString.drop (posDocUri + 1))
  | none => (uriString, uriString)

/-- `substr` from the beginning; none is `npos`. -/
def takeTo (text : Text) : Option Nat → Text
  | none => text
  | some stop => text.take stop

def slashWs : Text := ['/', 'w', 's']

def slashWsQuery : Text := ['/', 'w', 's', '?']

/-- The end of the legacy document URI. -/
def legacyEnd (uriRes : Text) : Option Nat :=
  match rfindText slashWsQuery uriRes with
  | some stop => findFirstOf uriRes ['/', '?'] (stop + 4)
  | none =>
      match rfindText slashWs uriRes with
      | some stop => some stop
      | none =>
          match findFirstOf uriRes ['/'] 0 with
          | some stop => some stop
          | none => findFirstOf uriRes ['?'] 0

/-- The tokens that name the session, the command and the serial. -/
def proxyTokens (uriRes : Text) : List Text :=
  match rfindText slashWs uriRes with
  | none => []
  | some posLastWS => (tokenizeChar (uriRes.drop posLastWS) '/').texts

/-- Fields that are not set are empty. -/
structure Details where
  params : List (Text × Text)
  pathSegs : StringVector
  docUriParams : List (Text × Text)
  type : Text
  legacyDocumentURI : Text
  documentURI : Text
  wopiSrc : Text
  compat : Text
  sessionId : Text
  command : Text
  serial : Text

namespace UriCodec

variable (codec : UriCodec)

def decodeParams : List (Text × Text) → Option (List (Text × Text))
  | [] => some []
  | (name, value) :: params => do
      let key ← codec.decode name
      let value ← codec.decode value
      let decoded ← decodeParams params
      return (key, value) :: decoded

/-- Names and values are decoded after the query was. Of several with one name, the first is kept. -/
def getParams (uri : Text) : Option (List (Text × Text)) := do
  let params ← codec.getQueryParameters uri
  codec.decodeParams params

end UriCodec

def getParam (params : List (Text × Text)) (name : Text) : Text :=
  match params.find? (·.1 = name) with
  | none => []
  | some param => param.2

def wopiSrcName : Text := ['W', 'O', 'P', 'I', 'S', 'r', 'c']

def compatName : Text := ['c', 'o', 'm', 'p', 'a', 't']

section

variable (codec : UriCodec)

/-- The legacy document URI, and the proper one. -/
def documentURIs (uriString uriRes : Text) : Option (Text × Text) :=
  if segmentEquals (pathSegments uriString) 0 ['l', 'o', 'o', 'l'] then do
    let legacy ← codec.decode (takeTo uriRes (legacyEnd uriRes))
    let proper ← codec.decode (takeTo uriRes (findFirstOf uriRes ['/', '?'] 0))
    return (legacy, proper)
  else some (uriString, uriString)

def processURI (uriString : Text) : Option Details := do
  let params ← codec.getParams uriString
  let (type, uriRes) := splitType uriString
  let (legacyDocumentURI, documentURI) ← documentURIs codec uriString uriRes
  let docUriParams ← codec.getParams documentURI
  let names := proxyTokens uriRes
  return {
    params
    pathSegs := pathSegments uriString
    docUriParams
    type
    legacyDocumentURI
    documentURI
    wopiSrc := getParam params wopiSrcName
    compat := getParam params compatName
    sessionId := (names[1]?).getD []
    command := (names[2]?).getD []
    serial := (names[3]?).getD [] }

end

/-!
## The documented form
-/

/-- The rich proxy's names. -/
structure ProxyNames where
  sessionId : Text
  command : Text
  serial : Text
  noSlash : ∀ name ∈ [sessionId, command, serial], '/' ∉ name

def noNames : ProxyNames := ⟨[], [], [], by simp⟩

def ProxyNames.texts (names : ProxyNames) : List Text :=
  [names.sessionId, names.command, names.serial]

def proxyTexts : Option ProxyNames → List Text
  | none => []
  | some names => names.texts

/-- Each name behind a slash. -/
def joined (names : List Text) : Text := names.flatMap ('/' :: ·)

def lool : Text := ['/', 'l', 'o', 'o', 'l', '/']

/-- Behind the question mark, up to the slash of the compatibility path. -/
def queryStart (encodedSrc : Text) : Text :=
  wopiSrcName ++ '=' :: (encodedSrc ++ '&' :: (compatName ++ ['=']))

def documentedURI (encodedDoc encodedSrc : Text) (proxy : Option ProxyNames) : Text :=
  lool ++ (encodedDoc ++ (slashWsQuery ++ (queryStart encodedSrc ++
    joined (['w', 's'] :: proxyTexts proxy))))

/-- How the URI class is documented: triples are decoded where they stand, nothing else changes,
and the names and values of a query are decoded once. -/
structure UriCodec.Lawful (codec : UriCodec) : Prop where
  decode_append {text decoded : Text} : codec.decode text = some decoded → ∀ more,
    codec.decode (text ++ more) = (codec.decode more).map (decoded ++ ·)
  decode_self_iff (text : Text) : codec.decode text = some text ↔ '%' ∉ text
  first_parameter {path name value : Text} {params : List (Text × Text)} :
    path.head? = some '/' → (∀ ch ∈ path, ch ≠ '?' ∧ ch ≠ '#') →
    (∀ ch ∈ name, ch ∉ PercentCoding.reserved) → (∀ ch ∈ value, ch ∉ PercentCoding.reserved) →
    ∀ rest, codec.getQueryParameters (path ++ '?' :: (name ++ '=' :: (value ++ '&' :: rest))) =
      some params →
    ∃ decodedName decodedValue more, codec.decode name = some decodedName ∧
      codec.decode value = some decodedValue ∧ params = (decodedName, decodedValue) :: more

/-- What encodes a text once. -/
structure UriCodec.Encodes (codec : UriCodec) (text encoded : Text) : Prop where
  decoded : codec.decode encoded = some text
  noReserved : ∀ ch ∈ encoded, ch ∉ PercentCoding.reserved

/-!
## Names behind slashes
-/

section

variable {name marker : Text} {names : List Text}

theorem joined_cons (name : Text) (names : List Text) :
    joined (name :: names) = '/' :: (name ++ joined names) := rfl

theorem joined_append (names more : List Text) : joined (names ++ more) = joined names ++ joined more :=
  List.flatMap_append

private theorem prefix_name_iff (noSlash : '/' ∉ marker) (name : Text) (names : List Text) :
    marker <+: name ++ joined names ↔ marker <+: name := by
  constructor
  · intro inFront
    by_cases short : marker.length ≤ name.length
    · exact List.prefix_of_prefix_length_le inFront (List.prefix_append _ _) short
    · -- what is longer than the name has the slash behind it
      obtain ⟨rest, same⟩ := inFront
      cases names with
      | nil =>
          have sameLength := congrArg List.length same
          rw [List.length_append, List.length_append] at sameLength
          exact absurd (show marker.length ≤ name.length from by
            rw [show (joined []).length = 0 from rfl] at sameLength
            omega) short
      | cons next names =>
          have isSlash : (marker ++ rest)[name.length]? = some '/' := by
            rw [same, List.getElem?_append_right (Nat.le_refl _), Nat.sub_self]
            rfl
          rw [List.getElem?_append_left (Nat.lt_of_not_le short)] at isSlash
          exact absurd (List.mem_of_getElem? isSlash) noSlash
  · intro inFront
    exact inFront.trans (List.prefix_append _ _)

/-- A word behind a slash stands in front of a name. -/
theorem infix_joined_iff (noSlash : '/' ∉ marker) (noSlashes : ∀ name ∈ names, '/' ∉ name) :
    '/' :: marker <:+: joined names ↔ ∃ name ∈ names, marker <+: name := by
  induction names with
  | nil =>
      constructor
      · intro inside
        cases List.eq_nil_of_infix_nil inside
      · rintro ⟨name, member, -⟩
        cases member
  | cons name names ih =>
      obtain ⟨nameNoSlash, noSlashes⟩ := List.forall_mem_cons.mp noSlashes
      rw [joined_cons, List.infix_cons_iff, infix_append_iff nameNoSlash, ih noSlashes,
        List.cons_prefix_cons, prefix_name_iff noSlash, List.exists_mem_cons_iff]
      simp only [true_and]

/-- The last of the names that begins with a word. -/
theorem exists_last (some : ∃ name ∈ names, marker <+: name) :
    ∃ before last behind, names = before ++ last :: behind ∧ marker <+: last ∧
      ∀ later ∈ behind, ¬marker <+: later := by
  induction names with
  | nil =>
      obtain ⟨name, member, -⟩ := some
      cases member
  | cons name names ih =>
      by_cases more : ∃ later ∈ names, marker <+: later
      · obtain ⟨before, last, behind, rfl, isLast⟩ := ih more
        exact ⟨name :: before, last, behind, rfl, isLast⟩
      · refine ⟨[], name, names, rfl, ?_, fun later member begins => more ⟨later, member, begins⟩⟩
        obtain ⟨first, member, begins⟩ := some
        cases member with
        | head => exact begins
        | tail _ member => exact absurd ⟨first, member, begins⟩ more

theorem rfindText_joined (noSlash : '/' ∉ marker) {behind : List Text} (isFirst : marker <+: name)
    (noSlashes : ∀ other ∈ name :: behind, '/' ∉ other)
    (noLater : ∀ later ∈ behind, ¬marker <+: later) (front : Text) (before : List Text) :
    rfindText ('/' :: marker) (front ++ joined (before ++ name :: behind)) =
      some (front ++ joined before).length := by
  obtain ⟨nameNoSlash, behindNoSlash⟩ := List.forall_mem_cons.mp noSlashes
  obtain ⟨rest, rfl⟩ := isFirst
  have whole : front ++ joined (before ++ (marker ++ rest) :: behind) =
      (front ++ joined before) ++ (('/' :: marker) ++ (rest ++ joined behind)) := by
    rw [joined_append, joined_cons, List.append_assoc, List.append_assoc, List.cons_append]
  rw [whole]
  refine rfindText_append (List.cons_ne_nil _ _) ?_ _
  rw [List.cons_append, List.tail_cons, ← List.append_assoc, infix_append_iff nameNoSlash,
    infix_joined_iff noSlash behindNoSlash]
  rintro ⟨later, member, begins⟩
  exact noLater later member begins

/-!
## Tokens
-/

/-- Tokens are of the first line. -/
theorem newline_notMem {piece data : Text} (isPiece : piece ∈ linePieces '/' data) :
    '\n' ∉ piece := by
  intro member
  have inLine := mem_of_mem_splitOnP (List.mem_filter.mp isPiece).1 member
  have notNewline := List.all_eq_true.mp List.all_takeWhile _ inLine
  exact absurd notNewline (by decide)

theorem linePieces_joined (noSlashes : ∀ name ∈ names, '/' ∉ name)
    (noNewlines : ∀ name ∈ names, '\n' ∉ name) :
    linePieces '/' (joined names) = names.filter (· ≠ []) := by
  induction names with
  | nil => rfl
  | cons name names ih =>
      obtain ⟨noSlash, noSlashes⟩ := List.forall_mem_cons.mp noSlashes
      obtain ⟨noNewline, noNewlines⟩ := List.forall_mem_cons.mp noNewlines
      have later := ih noSlashes noNewlines
      rw [joined_cons, StringVector.linePieces_delimiter (by decide)]
      by_cases isNil : name = []
      · rw [isNil, List.nil_append, later, List.filter_cons_of_neg (by simp)]
      · have isWord : IsWord '/' name := ⟨isNil, noSlash, noNewline⟩
        have kept : (name :: names).filter (· ≠ []) = name :: names.filter (· ≠ []) :=
          List.filter_cons_of_pos (by simpa using isNil)
        rw [kept]
        cases names with
        | nil =>
            rw [show joined [] = [] from rfl, StringVector.linePieces_word isWord (.inl rfl)]
            rfl
        | cons next names =>
            rw [joined_cons, StringVector.linePieces_delimiter (by decide)] at later
            rw [joined_cons, StringVector.linePieces_word_delimiter isWord (by decide), later]

end

/-- Which names are given back: no later one is taken for the compatibility path, they are on one
line, and an empty one is not skipped. -/
structure ProxyNames.Kept (names : ProxyNames) : Prop where
  notWs : ∀ name ∈ names.texts, ¬['w', 's'] <+: name
  noNewline : ∀ name ∈ names.texts, '\n' ∉ name
  command : names.sessionId = [] → names.command = []
  serial : names.command = [] → names.serial = []

section

variable {tokens : List Text} {front : Text} {proxy : Option ProxyNames}

theorem proxyTokens_joined {before behind : List Text} {last : Text} (isFirst : ['w', 's'] <+: last)
    (noSlashes : ∀ name ∈ last :: behind, '/' ∉ name)
    (noLater : ∀ later ∈ behind, ¬['w', 's'] <+: later) (front : Text) :
    proxyTokens (front ++ joined (before ++ last :: behind)) =
      linePieces '/' (joined (last :: behind)) := by
  have isFound := rfindText_joined (by decide) isFirst noSlashes noLater front before
  have isRest : (front ++ joined (before ++ last :: behind)).drop (front ++ joined before).length =
      joined (last :: behind) := by
    rw [joined_append, ← List.append_assoc, List.drop_left]
  unfold proxyTokens slashWs
  rw [isFound]
  dsimp only
  rw [isRest, StringVector.texts_tokenizeChar, if_neg]
  rw [joined_cons, List.head?_cons]
  decide

theorem noSlash_proxyTexts (proxy : Option ProxyNames) :
    ∀ name ∈ ['w', 's'] :: proxyTexts proxy, '/' ∉ name := by
  refine List.forall_mem_cons.mpr ⟨by decide, ?_⟩
  cases proxy with
  | none => exact List.forall_mem_nil _
  | some names => exact names.noSlash

/-- The tokens are those of the last name that is taken for the compatibility path. -/
theorem exists_proxyTokens (front : Text) (proxy : Option ProxyNames) :
    ∃ before last behind, ['w', 's'] :: proxyTexts proxy = before ++ last :: behind ∧
      ['w', 's'] <+: last ∧ (∀ later ∈ behind, ¬['w', 's'] <+: later) ∧
      proxyTokens (front ++ joined (['w', 's'] :: proxyTexts proxy)) =
        linePieces '/' (joined (last :: behind)) := by
  obtain ⟨before, last, behind, isSplit, isFirst, noLater⟩ :=
    @exists_last ['w', 's'] (['w', 's'] :: proxyTexts proxy)
      ⟨['w', 's'], List.mem_cons_self, List.prefix_refl _⟩
  refine ⟨before, last, behind, isSplit, isFirst, noLater, ?_⟩
  rw [isSplit]
  refine proxyTokens_joined isFirst ?_ noLater front
  intro name member
  refine noSlash_proxyTexts proxy name ?_
  rw [isSplit]
  exact List.mem_append_right _ member

private theorem getD_succ (notNil : ∀ token ∈ tokens, token ≠ []) {place : Nat}
    (isNil : (tokens[place]?).getD [] = []) : (tokens[place + 1]?).getD [] = [] := by
  cases isToken : tokens[place]? with
  | some token =>
      rw [isToken, Option.getD_some] at isNil
      exact absurd isNil (notNil token (List.mem_of_getElem? isToken))
  | none =>
      have beyond := List.getElem?_eq_none_iff.mp isToken
      rw [List.getElem?_eq_none (Nat.le_succ_of_le beyond)]
      rfl

/-- What is read of the tokens: the session, the command and the serial. -/
def ReadsNames (tokens : List Text) (names : ProxyNames) : Prop :=
  (tokens[1]?).getD [] = names.sessionId ∧ (tokens[2]?).getD [] = names.command ∧
    (tokens[3]?).getD [] = names.serial

private theorem getD_eq_nil_or_mem (tokens : List Text) (place : Nat) :
    (tokens[place + 1]?).getD [] = [] ∨ (tokens[place + 1]?).getD [] ∈ tokens.tail := by
  rw [← List.getElem?_tail]
  cases isToken : tokens.tail[place]? with
  | none => exact .inl rfl
  | some token => exact .inr (List.mem_of_getElem? isToken)

theorem ReadsNames.nil_or_mem {names : ProxyNames} (reads : ReadsNames tokens names) :
    ∀ name ∈ names.texts, name = [] ∨ name ∈ tokens.tail := by
  obtain ⟨isSession, isCommand, isSerial⟩ := reads
  intro name member
  cases member with
  | head => exact isSession ▸ getD_eq_nil_or_mem tokens 0
  | tail _ member =>
      cases member with
      | head => exact isCommand ▸ getD_eq_nil_or_mem tokens 1
      | tail _ member =>
          rw [List.mem_singleton.mp member]
          exact isSerial ▸ getD_eq_nil_or_mem tokens 2

theorem kept_of_readsNames
    (reads : ReadsNames (proxyTokens (front ++ joined (['w', 's'] :: proxyTexts proxy)))
      (proxy.getD noNames)) : (proxy.getD noNames).Kept := by
  cases proxy with
  | none => exact ⟨by decide, by decide, fun _ => rfl, fun _ => rfl⟩
  | some names =>
      rw [Option.getD_some] at reads ⊢
      obtain ⟨before, last, behind, isSplit, isFirst, noLater, isTokens⟩ :=
        exists_proxyTokens front (some names)
      rw [isTokens] at reads
      have fromTokens := reads.nil_or_mem
      obtain ⟨isSession, isCommand, isSerial⟩ := reads
      have noNewline : ∀ name ∈ names.texts, '\n' ∉ name := by
        intro name member
        cases fromTokens name member with
        | inl isNil => exact isNil ▸ List.not_mem_nil
        | inr isToken => exact newline_notMem (List.mem_of_mem_tail isToken)
      have isMember : ∀ name ∈ last :: behind, name ∈ ['w', 's'] :: names.texts := by
        intro name member
        have inAll := List.mem_append_right before member
        rw [← isSplit] at inAll
        exact inAll
      have notNil : last ≠ [] := by
        rintro rfl
        exact absurd isFirst (by decide)
      have isTail : (linePieces '/' (joined (last :: behind))).tail = behind.filter (· ≠ []) := by
        have areNames : linePieces '/' (joined (last :: behind)) = (last :: behind).filter (· ≠ []) := by
          refine linePieces_joined ?_ ?_
          · intro name member
            exact noSlash_proxyTexts (some names) name (isMember name member)
          · intro name member
            cases isMember name member with
            | head => decide
            | tail _ member => exact noNewline name member
        rw [areNames, List.filter_cons_of_pos (by simpa using notNil), List.tail_cons]
      have tokensNotNil : ∀ token ∈ linePieces '/' (joined (last :: behind)), token ≠ [] := by
        intro token member
        exact of_decide_eq_true (List.mem_filter.mp member).2
      refine ⟨?_, noNewline, ?_, ?_⟩
      · intro name member begins
        cases fromTokens name member with
        | inl isNil => exact absurd (isNil ▸ begins) (by decide)
        | inr isToken =>
            rw [isTail] at isToken
            exact noLater name (List.mem_filter.mp isToken).1 begins
      · rw [← isSession, ← isCommand]
        exact getD_succ tokensNotNil
      · rw [← isCommand, ← isSerial]
        exact getD_succ tokensNotNil

theorem readsNames_of_kept (kept : (proxy.getD noNames).Kept) (front : Text) :
    ReadsNames (proxyTokens (front ++ joined (['w', 's'] :: proxyTexts proxy)))
      (proxy.getD noNames) := by
  have noLater : ∀ name ∈ proxyTexts proxy, ¬['w', 's'] <+: name := by
    cases proxy with
    | none => exact List.forall_mem_nil _
    | some names => exact kept.notWs
  have noNewline : ∀ name ∈ ['w', 's'] :: proxyTexts proxy, '\n' ∉ name := by
    refine List.forall_mem_cons.mpr ⟨by decide, ?_⟩
    cases proxy with
    | none => exact List.forall_mem_nil _
    | some names => exact kept.noNewline
  have isTokens := @proxyTokens_joined [] (proxyTexts proxy) ['w', 's'] (List.prefix_refl _)
    (noSlash_proxyTexts proxy) noLater front
  rw [List.nil_append, linePieces_joined (noSlash_proxyTexts proxy) noNewline] at isTokens
  rw [isTokens]
  cases proxy with
  | none => exact ⟨rfl, rfl, rfl⟩
  | some names =>
      obtain ⟨-, -, command, serial⟩ := kept
      rw [Option.getD_some] at command serial ⊢
      by_cases noSession : names.sessionId = []
      · have noCommand := command noSession
        have noSerial := serial noCommand
        simp [ReadsNames, proxyTexts, ProxyNames.texts, noSession, noCommand, noSerial]
      · by_cases noCommand : names.command = []
        · have noSerial := serial noCommand
          simp [ReadsNames, proxyTexts, ProxyNames.texts, noSession, noCommand, noSerial]
        · by_cases noSerial : names.serial = []
          · simp [ReadsNames, proxyTexts, ProxyNames.texts, noSession, noCommand, noSerial]
          · simp [ReadsNames, proxyTexts, ProxyNames.texts, noSession, noCommand, noSerial]

end

/-!
## The parts of the documented form
-/

/-- What is behind the type. -/
def documentedRest (encodedDoc encodedSrc : Text) (proxy : Option ProxyNames) : Text :=
  encodedDoc ++ (slashWsQuery ++ (queryStart encodedSrc ++ joined (['w', 's'] :: proxyTexts proxy)))

section

variable {codec : UriCodec} {documentURI wopiSrc encodedDoc encodedSrc : Text}
  {proxy : Option ProxyNames}

/-- The legacy URI is what is in front of the parameters. -/
theorem documentedRest_eq (encodedDoc encodedSrc : Text) (proxy : Option ProxyNames) :
    documentedRest encodedDoc encodedSrc proxy =
      (encodedDoc ++ (slashWsQuery ++ queryStart encodedSrc)) ++
        joined (['w', 's'] :: proxyTexts proxy) := by
  rw [documentedRest, List.append_assoc, List.append_assoc]

theorem splitType_lool (rest : Text) : splitType (lool ++ rest) = (['l', 'o', 'o', 'l'], rest) := rfl

theorem segmentEquals_lool (rest : Text) :
    segmentEquals (pathSegments (lool ++ rest)) 0 ['l', 'o', 'o', 'l'] = true := rfl

theorem properEnd_eq (noReserved : ∀ ch ∈ encodedDoc, ch ∉ PercentCoding.reserved) :
    takeTo (documentedRest encodedDoc encodedSrc proxy)
      (findFirstOf (documentedRest encodedDoc encodedSrc proxy) ['/', '?'] 0) = encodedDoc := by
  have noDelimiter : ∀ ch ∈ encodedDoc, ch ∉ ['/', '?'] := by
    intro ch member isDelimiter
    exact noReserved ch member (List.mem_of_mem_take (i := 2) isDelimiter)
  have isStop := findFirstOf_append (List.mem_cons_self (a := '/') (l := ['?'])) noDelimiter []
    (['w', 's', '?'] ++ (queryStart encodedSrc ++ joined (['w', 's'] :: proxyTexts proxy)))
  rw [List.length_nil, Nat.zero_add, List.nil_append] at isStop
  have same : documentedRest encodedDoc encodedSrc proxy = encodedDoc ++ '/' :: (['w', 's', '?'] ++
      (queryStart encodedSrc ++ joined (['w', 's'] :: proxyTexts proxy))) := rfl
  rw [same, isStop, takeTo, List.take_left]

theorem queryStart_noDelimiter (noReserved : ∀ ch ∈ encodedSrc, ch ∉ PercentCoding.reserved) :
    ∀ ch ∈ queryStart encodedSrc, ch ∉ ['/', '?'] := by
  intro ch member isDelimiter
  have inMiddle : ch ∈ wopiSrcName ++ ['='] ∨ ch ∈ encodedSrc ∨ ch ∈ ('&' :: compatName) ++ ['='] := by
    simpa [queryStart, or_assoc] using member
  have notInName : ∀ ch ∈ wopiSrcName ++ ['='], ch ∉ ['/', '?'] :=
    List.all_iff_forall_prop.mp (by decide)
  have notInCompat : ∀ ch ∈ ('&' :: compatName) ++ ['='], ch ∉ ['/', '?'] :=
    List.all_iff_forall_prop.mp (by decide)
  rcases inMiddle with inName | inSrc | inCompat
  · exact notInName ch inName isDelimiter
  · exact noReserved ch inSrc (List.mem_of_mem_take (i := 2) isDelimiter)
  · exact notInCompat ch inCompat isDelimiter

/-- Where no name begins with it, the first `/ws?` is the last. -/
theorem legacyEnd_eq (noReserved : ∀ ch ∈ encodedSrc, ch ∉ PercentCoding.reserved)
    (notWs : ∀ name ∈ proxyTexts proxy, ¬['w', 's'] <+: name) :
    takeTo (documentedRest encodedDoc encodedSrc proxy)
      (legacyEnd (documentedRest encodedDoc encodedSrc proxy)) =
      encodedDoc ++ (slashWsQuery ++ queryStart encodedSrc) := by
  have noDelimiter := queryStart_noDelimiter noReserved
  have noSlash : '/' ∉ ['w', 's', '?'] ++ queryStart encodedSrc := by
    intro member
    rcases List.mem_append.mp member with member | member
    · exact absurd member (by decide)
    · exact noDelimiter '/' member List.mem_cons_self
  have isFound : rfindText slashWsQuery (documentedRest encodedDoc encodedSrc proxy) =
      some encodedDoc.length := by
    refine rfindText_append (List.cons_ne_nil _ _) ?_ encodedDoc
    change ¬ '/' :: ['w', 's', '?'] <:+: ['w', 's', '?'] ++ (queryStart encodedSrc ++ _)
    rw [← List.append_assoc, infix_append_iff noSlash,
      infix_joined_iff (by decide) (noSlash_proxyTexts proxy)]
    rintro ⟨name, member, begins⟩
    cases member with
    | head => exact absurd begins (by decide)
    | tail _ member =>
        exact notWs name member (List.IsPrefix.trans ⟨['?'], rfl⟩ begins)
  have isStop := findFirstOf_append (List.mem_cons_self (a := '/') (l := ['?'])) noDelimiter
    (encodedDoc ++ slashWsQuery) (['w', 's'] ++ joined (proxyTexts proxy))
  have same : (encodedDoc ++ slashWsQuery) ++ (queryStart encodedSrc ++
      '/' :: (['w', 's'] ++ joined (proxyTexts proxy))) =
        documentedRest encodedDoc encodedSrc proxy := by
    rw [List.append_assoc]
    rfl
  rw [same, List.length_append] at isStop
  have isEnd : legacyEnd (documentedRest encodedDoc encodedSrc proxy) =
      some (encodedDoc ++ (slashWsQuery ++ queryStart encodedSrc)).length := by
    unfold legacyEnd
    rw [isFound]
    refine Eq.trans isStop ?_
    rw [List.length_append, List.length_append, Nat.add_assoc]
  rw [isEnd, takeTo, documentedRest_eq, List.take_left]

/-- The WOPI source is decoded a second time. -/
theorem getParam_wopiSrc (lawful : codec.Lawful) (isDoc : codec.Encodes documentURI encodedDoc)
    (isSrc : codec.Encodes wopiSrc encodedSrc) {params : List (Text × Text)}
    (isParams : codec.getParams (documentedURI encodedDoc encodedSrc proxy) = some params) :
    codec.decode wopiSrc = some (getParam params wopiSrcName) := by
  obtain ⟨decodedOnce, isQuery, isDecoded⟩ := Option.bind_eq_some_iff.mp isParams
  have inPath : ∀ ch ∈ lool ++ (encodedDoc ++ slashWs), ch ≠ '?' ∧ ch ≠ '#' := by
    intro ch member
    have inParts : ch ∈ lool ++ slashWs ∨ ch ∈ encodedDoc := by
      simpa [or_comm, or_left_comm, or_assoc] using member
    rcases inParts with inFixed | inDoc
    · have fixed : ∀ ch ∈ lool ++ slashWs, ch ≠ '?' ∧ ch ≠ '#' :=
        List.all_iff_forall_prop.mp (by decide)
      exact fixed ch inFixed
    · constructor
      · rintro rfl
        exact isDoc.noReserved '?' inDoc (by decide)
      · rintro rfl
        exact isDoc.noReserved '#' inDoc (by decide)
  have same : documentedURI encodedDoc encodedSrc proxy =
      (lool ++ (encodedDoc ++ slashWs)) ++ '?' :: (wopiSrcName ++ '=' :: (encodedSrc ++ '&' ::
        (compatName ++ '=' :: joined (['w', 's'] :: proxyTexts proxy)))) := by
    simp [documentedURI, slashWs, slashWsQuery, queryStart]
  rw [same] at isQuery
  obtain ⟨name, value, more, isName, isValue, rfl⟩ :=
    lawful.first_parameter rfl inPath (List.all_iff_forall_prop.mp (by decide)) isSrc.noReserved _ isQuery
  rw [(lawful.decode_self_iff wopiSrcName).mpr (by decide)] at isName
  rw [isSrc.decoded] at isValue
  cases isName
  cases isValue
  rw [UriCodec.decodeParams, (lawful.decode_self_iff wopiSrcName).mpr (by decide)] at isDecoded
  cases isAgain : codec.decode wopiSrc with
  | none =>
      rw [isAgain] at isDecoded
      cases isDecoded
  | some value =>
      rw [isAgain] at isDecoded
      cases isMore : codec.decodeParams more with
      | none =>
          rw [isMore] at isDecoded
          cases isDecoded
      | some later =>
          rw [isMore] at isDecoded
          cases isDecoded
          rfl

/-- The document URIs of the documented form. -/
theorem documentURIs_documented (isDoc : codec.Encodes documentURI encodedDoc) :
    documentURIs codec (documentedURI encodedDoc encodedSrc proxy)
        (documentedRest encodedDoc encodedSrc proxy) =
      (codec.decode (takeTo (documentedRest encodedDoc encodedSrc proxy)
        (legacyEnd (documentedRest encodedDoc encodedSrc proxy)))).map (·, documentURI) := by
  unfold documentURIs
  rw [show segmentEquals (pathSegments (documentedURI encodedDoc encodedSrc proxy)) 0
      ['l', 'o', 'o', 'l'] = true from segmentEquals_lool _, if_pos rfl, properEnd_eq isDoc.noReserved,
    isDoc.decoded]
  cases codec.decode (takeTo (documentedRest encodedDoc encodedSrc proxy)
      (legacyEnd (documentedRest encodedDoc encodedSrc proxy))) with
  | none => rfl
  | some legacy => rfl

/-- The legacy document URI can be decoded. -/
theorem decode_legacy (lawful : codec.Lawful) (isDoc : codec.Encodes documentURI encodedDoc)
    (isSrc : codec.Encodes wopiSrc encodedSrc) :
    ∃ legacy, codec.decode (encodedDoc ++ (slashWsQuery ++ queryStart encodedSrc)) = some legacy := by
  have isCompat := (lawful.decode_self_iff ('&' :: (compatName ++ ['=']))).mpr (by decide)
  have isName := (lawful.decode_self_iff (slashWsQuery ++ (wopiSrcName ++ ['=']))).mpr (by decide)
  have whole : encodedDoc ++ (slashWsQuery ++ queryStart encodedSrc) =
      encodedDoc ++ ((slashWsQuery ++ (wopiSrcName ++ ['='])) ++
        (encodedSrc ++ '&' :: (compatName ++ ['=']))) := by
    simp [queryStart]
  rw [whole, lawful.decode_append isDoc.decoded, lawful.decode_append isName,
    lawful.decode_append isSrc.decoded, isCompat]
  exact ⟨_, rfl⟩

/-- What processing the documented form comes to. -/
theorem processURI_documented (isDoc : codec.Encodes documentURI encodedDoc) :
    processURI codec (documentedURI encodedDoc encodedSrc proxy) = do
      let params ← codec.getParams (documentedURI encodedDoc encodedSrc proxy)
      let legacyDocumentURI ← codec.decode (takeTo (documentedRest encodedDoc encodedSrc proxy)
        (legacyEnd (documentedRest encodedDoc encodedSrc proxy)))
      let docUriParams ← codec.getParams documentURI
      let names := proxyTokens (documentedRest encodedDoc encodedSrc proxy)
      return {
        params
        pathSegs := pathSegments (documentedURI encodedDoc encodedSrc proxy)
        docUriParams
        type := ['l', 'o', 'o', 'l']
        legacyDocumentURI
        documentURI
        wopiSrc := getParam params wopiSrcName
        compat := getParam params compatName
        sessionId := (names[1]?).getD []
        command := (names[2]?).getD []
        serial := (names[3]?).getD [] } := by
  unfold processURI
  rw [show splitType (documentedURI encodedDoc encodedSrc proxy) =
    (['l', 'o', 'o', 'l'], documentedRest encodedDoc encodedSrc proxy) from splitType_lool _]
  dsimp only
  rw [documentURIs_documented isDoc]
  cases codec.decode (takeTo (documentedRest encodedDoc encodedSrc proxy)
      (legacyEnd (documentedRest encodedDoc encodedSrc proxy))) with
  | none => rfl
  | some legacy => rfl

/-!
## What is given back
-/

/-- What the documented form should be processed to. -/
structure Details.Gives (details : Details) (documentURI wopiSrc : Text) (names : ProxyNames) :
    Prop where
  documentURI : details.documentURI = documentURI
  wopiSrc : details.wopiSrc = wopiSrc
  sessionId : details.sessionId = names.sessionId
  command : details.command = names.command
  serial : details.serial = names.serial

/-- When processing does give it: the WOPI source survives a second decoding, the names are kept,
and the parameters of the request and of the document URI are read without an exception. -/
structure Processable (codec : UriCodec) (documentURI wopiSrc requestURI : Text)
    (names : ProxyNames) : Prop where
  noPercent : '%' ∉ wopiSrc
  kept : names.Kept
  params : ∃ params, codec.getParams requestURI = some params
  docUriParams : ∃ params, codec.getParams documentURI = some params

theorem processable_of_gives (lawful : codec.Lawful) (isDoc : codec.Encodes documentURI encodedDoc)
    (isSrc : codec.Encodes wopiSrc encodedSrc) {details : Details}
    (isProcessed : processURI codec (documentedURI encodedDoc encodedSrc proxy) = some details)
    (gives : details.Gives documentURI wopiSrc (proxy.getD noNames)) :
    Processable codec documentURI wopiSrc (documentedURI encodedDoc encodedSrc proxy)
      (proxy.getD noNames) := by
  rw [processURI_documented isDoc] at isProcessed
  obtain ⟨params, isParams, isProcessed⟩ := Option.bind_eq_some_iff.mp isProcessed
  obtain ⟨legacy, isLegacy, isProcessed⟩ := Option.bind_eq_some_iff.mp isProcessed
  obtain ⟨docUriParams, isDocUriParams, isProcessed⟩ := Option.bind_eq_some_iff.mp isProcessed
  cases isProcessed
  have isAgain := getParam_wopiSrc lawful isDoc isSrc isParams
  have isSame : getParam params wopiSrcName = wopiSrc := gives.wopiSrc
  rw [isSame] at isAgain
  refine ⟨(lawful.decode_self_iff wopiSrc).mp isAgain, ?_, ⟨params, isParams⟩,
    ⟨docUriParams, isDocUriParams⟩⟩
  refine @kept_of_readsNames (encodedDoc ++ (slashWsQuery ++ queryStart encodedSrc)) proxy ?_
  rw [← documentedRest_eq]
  exact ⟨gives.sessionId, gives.command, gives.serial⟩

theorem gives_of_processable (lawful : codec.Lawful) (isDoc : codec.Encodes documentURI encodedDoc)
    (isSrc : codec.Encodes wopiSrc encodedSrc)
    (processable : Processable codec documentURI wopiSrc
      (documentedURI encodedDoc encodedSrc proxy) (proxy.getD noNames)) :
    ∃ details, processURI codec (documentedURI encodedDoc encodedSrc proxy) = some details ∧
      details.Gives documentURI wopiSrc (proxy.getD noNames) := by
  obtain ⟨noPercent, kept, ⟨params, isParams⟩, ⟨docUriParams, isDocUriParams⟩⟩ := processable
  have notWs : ∀ name ∈ proxyTexts proxy, ¬['w', 's'] <+: name := by
    cases proxy with
    | none => exact List.forall_mem_nil _
    | some names => exact kept.notWs
  obtain ⟨legacy, isLegacy⟩ := decode_legacy lawful isDoc isSrc
  rw [← @legacyEnd_eq encodedDoc encodedSrc proxy isSrc.noReserved notWs] at isLegacy
  have isAgain := getParam_wopiSrc lawful isDoc isSrc isParams
  rw [(lawful.decode_self_iff wopiSrc).mpr noPercent] at isAgain
  have reads := readsNames_of_kept kept (encodedDoc ++ (slashWsQuery ++ queryStart encodedSrc))
  rw [← documentedRest_eq] at reads
  rw [processURI_documented isDoc, isParams, isLegacy, isDocUriParams]
  exact ⟨_, rfl, rfl, (Option.some.inj isAgain).symm, reads.1, reads.2.1, reads.2.2⟩

theorem processURI_gives_iff (codec : UriCodec) (lawful : codec.Lawful)
    (documentURI wopiSrc encodedDoc encodedSrc : Text)
    (isDoc : codec.Encodes documentURI encodedDoc) (isSrc : codec.Encodes wopiSrc encodedSrc)
    (proxy : Option ProxyNames) :
    (∃ details, processURI codec (documentedURI encodedDoc encodedSrc proxy) = some details ∧
      details.Gives documentURI wopiSrc (proxy.getD noNames)) ↔
    Processable codec documentURI wopiSrc (documentedURI encodedDoc encodedSrc proxy)
      (proxy.getD noNames) := by
  constructor
  · rintro ⟨details, isProcessed, gives⟩
    exact processable_of_gives lawful isDoc isSrc isProcessed gives
  · exact gives_of_processable lawful isDoc isSrc

end

/-!
## A percent-encoding
-/

def percentCodec : UriCodec := ⟨PercentCoding.decode, PercentCoding.getQueryParameters⟩

theorem percentCodec_lawful : percentCodec.Lawful where
  decode_append isDecoded more := PercentCoding.decode_append isDecoded more
  decode_self_iff := PercentCoding.decode_self_iff
  first_parameter _ isPath isName isValue _ isParams :=
    PercentCoding.getQueryParameters_first isPath isName isValue isParams

theorem percentEncodes {text encoded : Text}
    (decoded : PercentCoding.decode encoded = some text)
    (noReserved : (encoded.all fun ch => ch ∉ PercentCoding.reserved) = true) :
    percentCodec.Encodes text encoded :=
  ⟨decoded, List.all_iff_forall_prop.mp noReserved⟩

theorem processURI_gives_write :
    ∃ details, processURI percentCodec (documentedURI ['d', '%', '3', 'F'] ['%', '2', 'F']
        (some ⟨['1', 'c'], ['w', 'r'], ['2'], by decide⟩)) = some details ∧
      details.Gives ['d', '?'] ['/'] ⟨['1', 'c'], ['w', 'r'], ['2'], by decide⟩ :=
  (processURI_gives_iff percentCodec percentCodec_lawful ['d', '?'] ['/'] ['d', '%', '3', 'F']
    ['%', '2', 'F'] (percentEncodes (by decide) (by decide)) (percentEncodes (by decide) (by decide))
    (some ⟨['1', 'c'], ['w', 'r'], ['2'], by decide⟩)).mpr
    ⟨by decide, ⟨by decide, by decide, by decide, by decide⟩, ⟨_, rfl⟩, ⟨_, rfl⟩⟩

/-- A WOPI source with a triple of its own, and a session whose name begins as the compatibility
path does. -/
theorem processURI_loses_triple_and_session :
    (percentCodec.Encodes ['%', '4', '1'] ['%', '2', '5', '4', '1'] ∧
      ¬∃ details, processURI percentCodec (documentedURI ['d'] ['%', '2', '5', '4', '1'] none) =
          some details ∧ details.Gives ['d'] ['%', '4', '1'] noNames) ∧
    ¬∃ details, processURI percentCodec (documentedURI ['d'] ['e']
        (some ⟨['w', 's', '1'], ['w', 'r'], ['2'], by decide⟩)) = some details ∧
      details.Gives ['d'] ['e'] ⟨['w', 's', '1'], ['w', 'r'], ['2'], by decide⟩ := by
  have isDoc : percentCodec.Encodes ['d'] ['d'] := percentEncodes (by decide) (by decide)
  have isSrc : percentCodec.Encodes ['%', '4', '1'] ['%', '2', '5', '4', '1'] :=
    percentEncodes (by decide) (by decide)
  refine ⟨⟨isSrc, ?_⟩, ?_⟩
  · rintro ⟨details, isProcessed, gives⟩
    have processable := @processable_of_gives percentCodec _ _ _ _ none percentCodec_lawful isDoc
      isSrc details isProcessed gives
    exact absurd processable.noPercent (by decide)
  · rintro ⟨details, isProcessed, gives⟩
    have processable := @processable_of_gives percentCodec _ ['e'] _ _
      (some ⟨['w', 's', '1'], ['w', 'r'], ['2'], by decide⟩) percentCodec_lawful isDoc
      (percentEncodes (by decide) (by decide)) details isProcessed gives
    exact absurd processable.kept.notWs (by decide)

end FreeOnline.Wsd.RequestUri
