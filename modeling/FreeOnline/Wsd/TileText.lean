import Mathlib.Logic.Function.Basic
import FreeOnline.Common.Protocol
import FreeOnline.Wsd.TileDesc

/-!
# Tile descriptors as texts

A descriptor is printed as words `name=value`, the optional ones only if they differ from
what a reader takes for granted.
-/

set_option autoImplicit false

namespace FreeOnline.Wsd

open FreeOnline.Common
open FreeOnline.Kit (TileWireId)
open FreeOnline.Library

/-!
## Printing and parsing
-/

def printWireId (wireId : TileWireId) : Text := printInt wireId.toNat

namespace TileDesc

/-- The constructor, which throws on invalid values. -/
def create? (normalizedViewId part mode width height tilePosX tilePosY tileWidth tileHeight ver
    imgSize id : Int) (broadcast : Bool) (oldWireId wireId : TileWireId) : Option TileDesc :=
  if valid : 0 ≤ normalizedViewId ∧ 0 ≤ part ∧ 0 ≤ mode ∧ 0 < width ∧ 0 < height ∧ 0 ≤ tilePosX ∧
      0 ≤ tilePosY ∧ 0 < tileWidth ∧ 0 < tileHeight ∧ 0 ≤ imgSize then
    some
      { normalizedViewId, part, mode, width, height, tilePosX, tilePosY, tileWidth, tileHeight, ver,
        imgSize, id, broadcast, oldWireId, wireId, valid }
  else none

/-- What is printed in front of the version. -/
def requiredWords (desc : TileDesc) : List Text :=
  [nameValue "nviewid".toList (printInt desc.normalizedViewId),
    nameValue "part".toList (printInt desc.part),
    nameValue "width".toList (printInt desc.width),
    nameValue "height".toList (printInt desc.height),
    nameValue "tileposx".toList (printInt desc.tilePosX),
    nameValue "tileposy".toList (printInt desc.tilePosY),
    nameValue "tilewidth".toList (printInt desc.tileWidth),
    nameValue "tileheight".toList (printInt desc.tileHeight),
    nameValue "oldwid".toList (printWireId desc.oldWireId),
    nameValue "wid".toList (printWireId desc.wireId)]

/-- Anything after the version is optional. -/
def optionalWords (desc : TileDesc) : List Text :=
  (if desc.id ≥ 0 then [nameValue "id".toList (printInt desc.id)] else []) ++
    (if desc.imgSize > 0 then [nameValue "imgsize".toList (printInt desc.imgSize)] else []) ++
    (if desc.broadcast then [nameValue "broadcast".toList "yes".toList] else []) ++
    (if desc.mode ≠ 0 then [nameValue "mode".toList (printInt desc.mode)] else [])

def words (desc : TileDesc) : List Text :=
  desc.requiredWords ++ nameValue "ver".toList (printInt desc.ver) :: desc.optionalWords

def serialize (desc : TileDesc) (start : Text) : Text :=
  start ++ desc.words.flatMap (' ' :: ·)

end TileDesc

/-- What is known while the tokens of a descriptor are looked at. -/
structure TilePairs where
  pairs : Text → Int
  oldWireId : TileWireId
  wireId : TileWireId

namespace TilePairs

def empty : TilePairs where
  pairs := fun name => if name = "ver".toList ∨ name = "id".toList then -1 else 0
  oldWireId := 0
  wireId := 0

def set (known : TilePairs) (name : Text) (value : Int) : TilePairs :=
  { known with pairs := fun other => if other = name then value else known.pairs other }

def parseToken (known : TilePairs) (token : Text) : TilePairs :=
  let oldWireId := getUInt32 token "oldwid".toList
  let known := { known with oldWireId := (oldWireId.map Prod.fst).getD known.oldWireId }
  if oldWireId.any Prod.snd then known
  else
    let wireId := getUInt32 token "wid".toList
    let known := { known with wireId := (wireId.map Prod.fst).getD known.wireId }
    if wireId.any Prod.snd then known
    else
      match getNameIntegerPair token with
      | some (name, value) => known.set name value
      | none => known

end TilePairs

def TileDesc.parse (tokens : List Text) : Option TileDesc :=
  let known := tokens.foldl TilePairs.parseToken .empty
  let pairs := fun name : String => known.pairs name.toList
  let broadcast := getTokensString tokens "broadcast".toList = some "yes".toList
  TileDesc.create? (pairs "nviewid") (pairs "part") (pairs "mode") (pairs "width") (pairs "height")
    (pairs "tileposx") (pairs "tileposy") (pairs "tilewidth") (pairs "tileheight") (pairs "ver")
    (pairs "imgsize") (pairs "id") broadcast known.oldWireId known.wireId

def TileDesc.parseMessage (message : Text) : Option TileDesc :=
  TileDesc.parse (tokenize message ' ')

/-!
## Reading what was printed
-/

/-- No integer of the descriptor is taken for one that does not fit. -/
structure TileDesc.IsReadable (desc : TileDesc) : Prop where
  normalizedViewId : desc.normalizedViewId < intMax
  part : desc.part < intMax
  mode : desc.mode < intMax
  width : desc.width < intMax
  height : desc.height < intMax
  tilePosX : desc.tilePosX < intMax
  tilePosY : desc.tilePosY < intMax
  tileWidth : desc.tileWidth < intMax
  tileHeight : desc.tileHeight < intMax
  ver : -1 ≤ desc.ver ∧ desc.ver < intMax
  imgSize : desc.imgSize < intMax
  id : -1 ≤ desc.id ∧ desc.id < intMax

theorem isWord_printed {name : Text} (isName : ' ' ∉ name ∧ '\n' ∉ name) (n : Int) :
    IsWord ' ' (nameValue name (printInt n)) :=
  isWord_nameValue (by decide) isName
    ⟨notMem_printInt (by decide) (by decide), notMem_printInt (by decide) (by decide)⟩

namespace TilePairs

variable {known : TilePairs} {name : Text}

/-- A wire id that does not fit an int is read as the largest one. -/
def savedWireId (wireId : TileWireId) : TileWireId :=
  toUInt32 (min (wireId.toNat : Int) intMax)

theorem getUInt32_printWireId {key : Text} (isKey : '=' ∉ key) (wireId : TileWireId) :
    getUInt32 (nameValue key (printWireId wireId)) key = some (savedWireId wireId, true) := by
  have value : safeAtoi (printWireId wireId) = min (wireId.toNat : Int) intMax := by
    have bound : 0 < intMax := by decide
    unfold printWireId
    rw [safeAtoi_printInt]
    omega
  have small : savedWireId wireId < UInt32.ofNat (2 ^ 32 - 1) := by
    obtain ⟨n, isNat, below⟩ :
        ∃ n : Nat, min (wireId.toNat : Int) intMax = n ∧ n < 2 ^ 31 := by
      refine ⟨(min (wireId.toNat : Int) intMax).toNat, ?_, ?_⟩
      · unfold intMax
        omega
      · unfold intMax
        omega
    unfold savedWireId
    rw [isNat]
    unfold toUInt32 UInt32.ofInt
    rw [UInt32.lt_iff_toNat_lt, UInt32.toNat_ofNat', UInt32.toNat_ofNat']
    omega
  rw [@getUInt32_nameValue key key (printWireId wireId) isKey isKey (printInt_ne_nil _), if_pos rfl,
    value]
  exact congrArg some (Prod.ext rfl (decide_eq_true small))

theorem parseToken_oldWireId (known : TilePairs) (wireId : TileWireId) :
    known.parseToken (nameValue "oldwid".toList (printWireId wireId)) =
      { known with oldWireId := savedWireId wireId } := by
  unfold parseToken
  rw [getUInt32_printWireId (by decide)]
  simp

theorem parseToken_wireId (known : TilePairs) (wireId : TileWireId) :
    known.parseToken (nameValue "wid".toList (printWireId wireId)) =
      { known with wireId := savedWireId wireId } := by
  have other : getUInt32 (nameValue "wid".toList (printWireId wireId)) "oldwid".toList = none :=
    (getUInt32_nameValue (by decide) (by decide) (printInt_ne_nil _)).trans (if_neg (by decide))
  unfold parseToken
  rw [other, getUInt32_printWireId (by decide)]
  simp

theorem parseToken_pair (known : TilePairs) (noEquals : '=' ∉ name) (notOld : "oldwid".toList ≠ name)
    (notNew : "wid".toList ≠ name) {n : Int} (readable : -1 ≤ n ∧ n < intMax) :
    known.parseToken (nameValue name (printInt n)) = known.set name n := by
  have bound : 0 < intMax := by decide
  have lower : max (-intMax) n = n := by omega
  unfold parseToken
  rw [getUInt32_nameValue noEquals (by decide) (printInt_ne_nil _), if_neg notOld,
    getUInt32_nameValue noEquals (by decide) (printInt_ne_nil _), if_neg notNew,
    getNameIntegerPair_nameValue noEquals, if_pos readable.2, lower]
  simp

theorem pairs_set_of_ne {other : Text} (different : other ≠ name) (n : Int) :
    (known.set name n).pairs other = known.pairs other :=
  if_neg different

theorem set_eq_self {n : Int} (already : known.pairs name = n) : known.set name n = known := by
  unfold set
  congr 1
  funext other
  split
  · next same => rw [same, already]
  · rfl

/-- A word that is left out has the value that is taken for granted. -/
theorem foldl_optional (known : TilePairs) (printed : Prop) [Decidable printed]
    (noEquals : '=' ∉ name) (notOld : "oldwid".toList ≠ name) (notNew : "wid".toList ≠ name) {n : Int}
    (readable : -1 ≤ n ∧ n < intMax) (granted : ¬printed → known.pairs name = n) :
    (if printed then [nameValue name (printInt n)] else []).foldl parseToken known =
      known.set name n := by
  split
  · exact known.parseToken_pair noEquals notOld notNew readable
  · next omitted => exact (set_eq_self (granted omitted)).symm

theorem parseToken_broadcast (known : TilePairs) :
    known.parseToken (nameValue "broadcast".toList "yes".toList) =
      known.set "broadcast".toList 0 := by
  have oldWireId : getUInt32 (nameValue "broadcast".toList "yes".toList) "oldwid".toList = none := by
    decide
  have wireId : getUInt32 (nameValue "broadcast".toList "yes".toList) "wid".toList = none := by
    decide
  have pair : getNameIntegerPair (nameValue "broadcast".toList "yes".toList) =
      some ("broadcast".toList, 0) := by
    decide
  unfold parseToken
  rw [oldWireId, wireId, pair]
  rfl

theorem foldl_requiredWords (desc : TileDesc) (readable : desc.IsReadable) :
    desc.requiredWords.foldl parseToken .empty =
      { empty.set "nviewid".toList desc.normalizedViewId
          |>.set "part".toList desc.part
          |>.set "width".toList desc.width
          |>.set "height".toList desc.height
          |>.set "tileposx".toList desc.tilePosX
          |>.set "tileposy".toList desc.tilePosY
          |>.set "tilewidth".toList desc.tileWidth
          |>.set "tileheight".toList desc.tileHeight with
        oldWireId := savedWireId desc.oldWireId
        wireId := savedWireId desc.wireId } := by
  obtain ⟨viewId, part, mode, width, height, posX, posY, tileWidth, tileHeight, -⟩ := desc.valid
  unfold TileDesc.requiredWords
  simp only [List.foldl_cons, List.foldl_nil]
  rw [parseToken_pair _ (by decide) (by decide) (by decide) ⟨by omega, readable.normalizedViewId⟩,
    parseToken_pair _ (by decide) (by decide) (by decide) ⟨by omega, readable.part⟩,
    parseToken_pair _ (by decide) (by decide) (by decide) ⟨by omega, readable.width⟩,
    parseToken_pair _ (by decide) (by decide) (by decide) ⟨by omega, readable.height⟩,
    parseToken_pair _ (by decide) (by decide) (by decide) ⟨by omega, readable.tilePosX⟩,
    parseToken_pair _ (by decide) (by decide) (by decide) ⟨by omega, readable.tilePosY⟩,
    parseToken_pair _ (by decide) (by decide) (by decide) ⟨by omega, readable.tileWidth⟩,
    parseToken_pair _ (by decide) (by decide) (by decide) ⟨by omega, readable.tileHeight⟩,
    parseToken_oldWireId, parseToken_wireId]

theorem foldl_optionalWords (desc : TileDesc) (readable : desc.IsReadable) {known : TilePairs}
    (id : known.pairs "id".toList = -1) (imgSize : known.pairs "imgsize".toList = 0)
    (mode : known.pairs "mode".toList = 0) :
    desc.optionalWords.foldl parseToken known =
      (if desc.broadcast then
        known.set "id".toList desc.id |>.set "imgsize".toList desc.imgSize
          |>.set "broadcast".toList 0
      else known.set "id".toList desc.id |>.set "imgsize".toList desc.imgSize).set
        "mode".toList desc.mode := by
  have valid := desc.valid
  have sized : 0 ≤ desc.imgSize := by tauto
  have moded : 0 ≤ desc.mode := by tauto
  have idGranted : ¬desc.id ≥ 0 → known.pairs "id".toList = desc.id := by
    have bound := readable.id.1
    omega
  have imgSizeGranted : ¬desc.imgSize > 0 →
      (known.set "id".toList desc.id).pairs "imgsize".toList = desc.imgSize := by
    intro omitted
    have isZero : desc.imgSize = 0 := by omega
    rw [isZero, pairs_set_of_ne (by decide), imgSize]
  unfold TileDesc.optionalWords
  rw [List.foldl_append, List.foldl_append, List.foldl_append,
    foldl_optional _ _ (by decide) (by decide) (by decide) readable.id idGranted,
    foldl_optional _ _ (by decide) (by decide) (by decide) ⟨by omega, readable.imgSize⟩
      imgSizeGranted]
  cases desc.broadcast with
  | false =>
      rw [if_neg Bool.false_ne_true, if_neg Bool.false_ne_true, List.foldl_nil]
      refine foldl_optional _ _ (by decide) (by decide) (by decide) ⟨by omega, readable.mode⟩ ?_
      intro omitted
      rw [not_not.mp omitted, pairs_set_of_ne (by decide), pairs_set_of_ne (by decide), mode]
  | true =>
      rw [if_pos rfl, if_pos rfl, List.foldl_cons, parseToken_broadcast, List.foldl_nil]
      refine foldl_optional _ _ (by decide) (by decide) (by decide) ⟨by omega, readable.mode⟩ ?_
      intro omitted
      rw [not_not.mp omitted, pairs_set_of_ne (by decide), pairs_set_of_ne (by decide),
        pairs_set_of_ne (by decide), mode]

end TilePairs

/-- The descriptor as it is read: the wire ids have gone through an int. -/
def TileDesc.saved (desc : TileDesc) : TileDesc :=
  { desc with
    oldWireId := TilePairs.savedWireId desc.oldWireId
    wireId := TilePairs.savedWireId desc.wireId }

theorem getTokensString_of_notMem {tokens : List Text} {name : Text} (rest : List Text)
    (others : ∀ token ∈ tokens, getTokenString token name = none) :
    getTokensString (tokens ++ rest) name = getTokensString rest name := by
  unfold getTokensString
  rw [List.findSome?_append, List.findSome?_eq_none_iff.mpr others, Option.none_or]

theorem getTokensString_broadcast (desc : TileDesc) :
    (getTokensString desc.words "broadcast".toList = some "yes".toList) ↔ desc.broadcast = true := by
  have other {name : Text} (noEquals : '=' ∉ name) (different : "broadcast".toList ≠ name)
      (value : Text) : getTokenString (nameValue name value) "broadcast".toList = none := by
    rw [getTokenString_nameValue noEquals (by decide), if_neg different]
  have required : ∀ token ∈ desc.requiredWords ++ [nameValue "ver".toList (printInt desc.ver)],
      getTokenString token "broadcast".toList = none := by
    simp only [TileDesc.requiredWords, List.cons_append, List.nil_append, List.forall_mem_cons,
      List.not_mem_nil, false_implies, implies_true, and_true]
    refine ⟨?_, ?_, ?_, ?_, ?_, ?_, ?_, ?_, ?_, ?_, ?_⟩
    all_goals exact other (by decide) (by decide) _
  have id : ∀ token ∈ (if desc.id ≥ 0 then [nameValue "id".toList (printInt desc.id)] else []),
      getTokenString token "broadcast".toList = none := by
    split
    · simpa using other (by decide) (by decide) _
    · simp
  have imgSize : ∀ token ∈ (if desc.imgSize > 0 then
      [nameValue "imgsize".toList (printInt desc.imgSize)] else []),
      getTokenString token "broadcast".toList = none := by
    split
    · simpa using other (by decide) (by decide) _
    · simp
  have mode : ∀ token ∈ (if desc.mode ≠ 0 then
      [nameValue "mode".toList (printInt desc.mode)] else []),
      getTokenString token "broadcast".toList = none := by
    split
    · simpa using other (by decide) (by decide) _
    · simp
  have split : desc.words = (desc.requiredWords ++ [nameValue "ver".toList (printInt desc.ver)]) ++
      desc.optionalWords := by
    simp [TileDesc.words]
  rw [split, getTokensString_of_notMem _ required, TileDesc.optionalWords, List.append_assoc,
    List.append_assoc, getTokensString_of_notMem _ id, getTokensString_of_notMem _ imgSize]
  cases desc.broadcast with
  | false =>
      have nothing := getTokensString_of_notMem [] mode
      rw [List.append_nil] at nothing
      rw [if_neg Bool.false_ne_true, List.nil_append, nothing]
      simp [getTokensString]
  | true =>
      have isYes : getTokenString (nameValue "broadcast".toList "yes".toList) "broadcast".toList =
          some "yes".toList := by decide
      rw [if_pos rfl, getTokensString, List.singleton_append, List.findSome?_cons, isYes]
      simp

theorem TilePairs.parseToken_of_notMem {token : Text} (noEquals : '=' ∉ token) (known : TilePairs) :
    known.parseToken token = known := by
  have noUInt32 (key : Text) : getUInt32 token key = none := by
    refine if_neg fun both => noEquals ?_
    exact (List.isPrefixOf_iff_prefix.mp both.2).subset
      (List.mem_append_right _ (List.mem_singleton_self _))
  have noPair : getNameIntegerPair token = none := if_pos noEquals
  unfold parseToken
  rw [noUInt32, noUInt32, noPair]
  rfl

/-- The words of a descriptor are read as it, behind whatever is no pair. -/
theorem TileDesc.parse_words (desc : TileDesc) (readable : desc.IsReadable) {start : List Text}
    (isStart : ∀ token ∈ start, '=' ∉ token) :
    TileDesc.parse (start ++ desc.words) = some desc.saved := by
  have skipped : start.foldl TilePairs.parseToken .empty = .empty := by
    refine List.foldlRecOn (motive := (· = TilePairs.empty)) start _ rfl ?_
    rintro known rfl token member
    exact TilePairs.parseToken_of_notMem (isStart token member) _
  have noBroadcast : ∀ token ∈ start, getTokenString token "broadcast".toList = none := by
    intro token member
    refine if_neg fun isPrefix => isStart token member ?_
    exact (List.isPrefixOf_iff_prefix.mp isPrefix).subset
      (List.mem_append_right _ (List.mem_singleton_self _))
  have ver : (-1 : Int) ≤ desc.ver ∧ desc.ver < intMax := readable.ver
  have known : (start ++ desc.words).foldl TilePairs.parseToken .empty =
      desc.optionalWords.foldl TilePairs.parseToken
        ((desc.requiredWords.foldl TilePairs.parseToken .empty).set "ver".toList desc.ver) := by
    rw [List.foldl_append, skipped, words, List.foldl_append, List.foldl_cons,
      TilePairs.parseToken_pair _ (by decide) (by decide) (by decide) ver]
  have broadcast : (getTokensString (start ++ desc.words) "broadcast".toList = some "yes".toList) ↔
      desc.broadcast = true := by
    rw [getTokensString_of_notMem _ noBroadcast]
    exact getTokensString_broadcast desc
  unfold TileDesc.parse
  dsimp only
  rw [known, TilePairs.foldl_requiredWords desc readable,
    TilePairs.foldl_optionalWords desc readable (by rfl) (by rfl) (by rfl)]
  have isBroadcast : decide (getTokensString (start ++ desc.words) "broadcast".toList =
      some "yes".toList) = desc.broadcast := by
    rw [Bool.eq_iff_iff, decide_eq_true_iff]
    exact broadcast
  rw [isBroadcast]
  cases isSet : desc.broadcast with
  | false =>
      rw [if_neg Bool.false_ne_true]
      refine (dif_pos desc.valid).trans ?_
      rw [← isSet]
      rfl
  | true =>
      rw [if_pos rfl]
      refine (dif_pos desc.valid).trans ?_
      rw [← isSet]
      rfl

/-- The command in front of the words of a descriptor, if any. -/
structure IsCommand (start : Text) : Prop where
  isWord : start = [] ∨ IsWord ' ' start
  noEquals : '=' ∉ start
  noNul : '\x00' ∉ start

theorem TileDesc.isWord_words (desc : TileDesc) : ∀ word ∈ desc.words, IsWord ' ' word := by
  have required : ∀ word ∈ desc.requiredWords ++ [nameValue "ver".toList (printInt desc.ver)],
      IsWord ' ' word := by
    simp only [requiredWords, printWireId, List.cons_append, List.nil_append, List.forall_mem_cons,
      List.not_mem_nil, false_implies, implies_true, and_true]
    refine ⟨?_, ?_, ?_, ?_, ?_, ?_, ?_, ?_, ?_, ?_, ?_⟩
    all_goals exact isWord_printed (by decide) _
  have optional (printed : Prop) [Decidable printed] {word : Text} (isWord : IsWord ' ' word) :
      ∀ other ∈ (if printed then [word] else []), IsWord ' ' other := by
    split
    · simpa using isWord
    · simp
  have broadcast : IsWord ' ' (nameValue "broadcast".toList "yes".toList) :=
    isWord_nameValue (by decide) (by decide) (by decide)
  have split : desc.words = (desc.requiredWords ++ [nameValue "ver".toList (printInt desc.ver)]) ++
      desc.optionalWords := by
    simp [words]
  rw [split]
  refine List.forall_mem_append.mpr ⟨required, ?_⟩
  unfold optionalWords
  rw [List.forall_mem_append, List.forall_mem_append, List.forall_mem_append]
  exact ⟨⟨⟨optional _ (isWord_printed (by decide) _), optional _ (isWord_printed (by decide) _)⟩,
    optional _ broadcast⟩, optional _ (isWord_printed (by decide) _)⟩

theorem TileDesc.tokenize_serialize (desc : TileDesc) {start : Text} (isStart : IsCommand start) :
    tokenize (desc.serialize start) ' ' = (if start = [] then [] else [start]) ++ desc.words := by
  unfold serialize
  rw [tokenize_words desc.isWord_words isStart.isWord isStart.noNul]
  split
  · rfl
  · rfl

/-- Parsing a printed descriptor gives it back, up to wire ids that do not fit an int. -/
theorem TileDesc.parseMessage_serialize (desc : TileDesc) (readable : desc.IsReadable) {start : Text}
    (isStart : IsCommand start) : parseMessage (desc.serialize start) = some desc.saved := by
  have noPairs : ∀ token ∈ (if start = [] then [] else [start]), '=' ∉ token := by
    split
    · simp
    · simpa using isStart.noEquals
  unfold parseMessage
  rw [desc.tokenize_serialize isStart, desc.parse_words readable noPairs]

theorem TilePairs.savedWireId_of_le {wireId : TileWireId} (small : (wireId.toNat : Int) ≤ intMax) :
    savedWireId wireId = wireId := by
  unfold savedWireId
  rw [Int.min_eq_left small, toUInt32_toNat]

theorem TileDesc.saved_of_le {desc : TileDesc} (oldWireId : (desc.oldWireId.toNat : Int) ≤ intMax)
    (wireId : (desc.wireId.toNat : Int) ≤ intMax) : desc.saved = desc := by
  unfold saved
  rw [TilePairs.savedWireId_of_le oldWireId, TilePairs.savedWireId_of_le wireId]

end FreeOnline.Wsd
