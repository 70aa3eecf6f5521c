import FreeOnline.Wsd.TileRequests
import FreeOnline.Wsd.TileText

/-!
# Combined requests as texts

What differs between the tiles of a combined request is printed as lists, one value a tile.
-/

set_option autoImplicit false

namespace FreeOnline.Wsd

open FreeOnline.Common
open FreeOnline.Kit (TileWireId)
open FreeOnline.Library

/-- Every value with a comma behind it. -/
def commaList (values : List Text) : Text :=
  values.flatMap (· ++ [','])

/-!
## The constructor
-/

namespace TileCombined

/-- The value for a tile, if there are values. -/
def valueAt (values : List Text) (index : Nat) : Option Text :=
  if values = [] then none else some (values.getD index [])

def tileAt (header : TileHeader) (positionXtokens positionYtokens imgSizeTokens verTokens
    oldWireIdTokens wireIdTokens : List Text) (index : Nat) : Option TileDesc := do
  let x ← stringToInteger (positionXtokens.getD index [])
  let y ← stringToInteger (positionYtokens.getD index [])
  let imgSize ← ((valueAt imgSizeTokens index).map stringToInteger).getD (some 0)
  let ver ← (((valueAt verTokens index).filter (· ≠ [])).map stringToInteger).getD (some (-1))
  let oldWireId ← ((valueAt oldWireIdTokens index).map stringToUInt32).getD (some 0)
  let wireId ← ((valueAt wireIdTokens index).map stringToUInt32).getD (some 0)
  TileDesc.create? header.normalizedViewId header.part header.mode header.width header.height x y
    header.tileWidth header.tileHeight ver imgSize (-1) false oldWireId wireId

theorem header_create? {normalizedViewId part mode width height tilePosX tilePosY tileWidth
    tileHeight ver imgSize id : Int} {broadcast : Bool} {oldWireId wireId : TileWireId}
    {tile : TileDesc} (isTile : TileDesc.create? normalizedViewId part mode width height tilePosX
      tilePosY tileWidth tileHeight ver imgSize id broadcast oldWireId wireId = some tile) :
    tile.header = ⟨normalizedViewId, part, mode, width, height, tileWidth, tileHeight⟩ := by
  unfold TileDesc.create? at isTile
  split at isTile
  · cases isTile
    rfl
  · cases isTile

theorem header_tileAt {header : TileHeader} {positionXtokens positionYtokens imgSizeTokens verTokens
    oldWireIdTokens wireIdTokens : List Text} {index : Nat} {tile : TileDesc}
    (isTile : tileAt header positionXtokens positionYtokens imgSizeTokens verTokens oldWireIdTokens
      wireIdTokens index = some tile) : tile.header = header := by
  unfold tileAt at isTile
  simp only [Option.bind_eq_bind, Option.bind_eq_some_iff] at isTile
  obtain ⟨x, -, y, -, imgSize, -, ver, -, oldWireId, -, wireId, -, isTile⟩ := isTile
  exact header_create? isTile

/-- All tiles of a loop over the positions. -/
theorem forall_of_mapM {P : TileDesc → Prop} {tileOf : Nat → Option TileDesc} {indices : List Nat}
    {tiles : List TileDesc} (each : ∀ index tile, tileOf index = some tile → P tile)
    (areTiles : indices.mapM tileOf = some tiles) : ∀ tile ∈ tiles, P tile := by
  induction indices generalizing tiles with
  | nil =>
      cases areTiles
      simp
  | cons index indices ih =>
      rw [List.mapM_cons] at areTiles
      simp only [Option.bind_eq_bind, Option.bind_eq_some_iff, Option.pure_def,
        Option.some.injEq] at areTiles
      obtain ⟨tile, isTile, others, areOthers, rfl⟩ := areTiles
      exact List.forall_mem_cons.mpr ⟨each index tile isTile, ih areOthers⟩

theorem header_of_mapM {header : TileHeader} {tileOf : Nat → Option TileDesc} {indices : List Nat}
    {tiles : List TileDesc} (same : ∀ index tile, tileOf index = some tile → tile.header = header)
    (areTiles : indices.mapM tileOf = some tiles) : ∀ tile ∈ tiles, tile.header = header :=
  forall_of_mapM same areTiles

/-- The constructor of the texts of the lists, which throws if they do not fit together. -/
def create? (header : TileHeader)
    (tilePositionsX tilePositionsY vers imgSizes oldWireIds wireIds : Text) : Option TileCombined :=
  if header.part < 0 ∨ header.mode < 0 ∨ header.width ≤ 0 ∨ header.height ≤ 0 ∨
      header.tileWidth ≤ 0 ∨ header.tileHeight ≤ 0 then none
  else
    let positionXtokens := tokenize tilePositionsX ','
    let positionYtokens := tokenize tilePositionsY ','
    let imgSizeTokens := tokenize imgSizes ','
    let verTokens := tokenize vers ','
    let oldWireIdTokens := tokenize oldWireIds ','
    let wireIdTokens := tokenize wireIds ','
    let numberOfPositions := positionXtokens.length
    if numberOfPositions ≠ positionYtokens.length ∨
        (imgSizes ≠ [] ∧ numberOfPositions ≠ imgSizeTokens.length) ∨
        (vers ≠ [] ∧ numberOfPositions ≠ verTokens.length) ∨
        (oldWireIds ≠ [] ∧ numberOfPositions ≠ oldWireIdTokens.length) ∨
        (wireIds ≠ [] ∧ numberOfPositions ≠ wireIdTokens.length) then none
    else
      match areTiles : (List.range numberOfPositions).mapM (tileAt header positionXtokens
          positionYtokens imgSizeTokens verTokens oldWireIdTokens wireIdTokens) with
      | none => none
      | some tiles => some ⟨header, tiles, header_of_mapM (fun _ _ => header_tileAt) areTiles⟩

/-- The request for these tiles. The image sizes are left out, and everything else but
the lists is taken from the first one. -/
def createOf (first : TileDesc) (rest : List TileDesc) : Option TileCombined :=
  let tiles := first :: rest
  create? first.header (commaList (tiles.map fun tile => printInt tile.tilePosX))
    (commaList (tiles.map fun tile => printInt tile.tilePosY))
    (commaList (tiles.map fun tile => printInt tile.ver)) []
    (commaList (tiles.map fun tile => printWireId tile.oldWireId))
    (commaList (tiles.map fun tile => printWireId tile.wireId))

/-!
## Printing and parsing
-/

/-- A list of values. The comma behind the last one is written over by what follows. -/
def listWord (name : String) (values : List Text) : Text :=
  ' ' :: nameValue name.toList (commaList values)

def serialize (combined : TileCombined) (start : Text) : Text :=
  let tiles := combined.tiles
  let text := start ++ [nameValue "nviewid".toList (printInt combined.header.normalizedViewId),
    nameValue "part".toList (printInt combined.header.part),
    nameValue "width".toList (printInt combined.header.width),
    nameValue "height".toList (printInt combined.header.height)].flatMap (' ' :: ·)
  let text := text ++ listWord "tileposx" (tiles.map fun tile => printInt tile.tilePosX)
  let text := text.dropLast ++ listWord "tileposy" (tiles.map fun tile => printInt tile.tilePosY)
  let text := text.dropLast ++ listWord "imgsize" (tiles.map fun tile => printInt tile.imgSize)
  let text := text.dropLast ++ [nameValue "tilewidth".toList (printInt combined.header.tileWidth),
    nameValue "tileheight".toList (printInt combined.header.tileHeight)].flatMap (' ' :: ·)
  let text := text ++ listWord "ver" (tiles.map fun tile => printInt tile.ver)
  let text := text.dropLast ++ listWord "oldwid" (tiles.map fun tile => printWireId tile.oldWireId)
  let wireIds := [','].intercalate (tiles.map fun tile => printWireId tile.wireId)
  let text := text.dropLast ++ ' ' :: nameValue "wid".toList wireIds
  if combined.header.mode ≠ 0 then
    text ++ ' ' :: nameValue "mode".toList (printInt combined.header.mode)
  else text

/-- What is known while the tokens of a combined request are looked at. -/
structure CombinedPairs where
  pairs : Text → Int
  tilePositionsX : Text
  tilePositionsY : Text
  imgSizes : Text
  versions : Text
  oldwireIds : Text
  wireIds : Text

def CombinedPairs.empty : CombinedPairs := ⟨fun _ => 0, [], [], [], [], [], []⟩

def CombinedPairs.parseToken (known : CombinedPairs) (token : Text) : CombinedPairs :=
  match parseNameValuePair token with
  | none => known
  | some (name, value) =>
      if name = "tileposx".toList then { known with tilePositionsX := value }
      else if name = "tileposy".toList then { known with tilePositionsY := value }
      else if name = "imgsize".toList then { known with imgSizes := value }
      else if name = "ver".toList then { known with versions := value }
      else if name = "oldwid".toList then { known with oldwireIds := value }
      else if name = "wid".toList then { known with wireIds := value }
      else
        match stringToInteger value with
        | some v => { known with pairs := fun other => if other = name then v else known.pairs other }
        | none => known

/-- What is not a list. -/
def CombinedPairs.header (known : CombinedPairs) : TileHeader :=
  let pairs := fun name : String => known.pairs name.toList
  ⟨pairs "nviewid", pairs "part", pairs "mode", pairs "width", pairs "height", pairs "tilewidth",
    pairs "tileheight"⟩

def parse (tokens : List Text) : Option TileCombined :=
  let known := tokens.foldl CombinedPairs.parseToken .empty
  create? known.header known.tilePositionsX known.tilePositionsY known.versions known.imgSizes
    known.oldwireIds known.wireIds

def parseMessage (message : Text) : Option TileCombined :=
  parse (tokenize message ' ')

/-!
## Reading what was printed
-/

end TileCombined

/-- The fields are ints. -/
structure TileDesc.FitsInt (desc : TileDesc) : Prop where
  normalizedViewId : desc.normalizedViewId ≤ intMax
  part : desc.part ≤ intMax
  mode : desc.mode ≤ intMax
  width : desc.width ≤ intMax
  height : desc.height ≤ intMax
  tilePosX : desc.tilePosX ≤ intMax
  tilePosY : desc.tilePosY ≤ intMax
  tileWidth : desc.tileWidth ≤ intMax
  tileHeight : desc.tileHeight ≤ intMax
  ver : -intMax - 1 ≤ desc.ver ∧ desc.ver ≤ intMax
  imgSize : desc.imgSize ≤ intMax
  id : -intMax - 1 ≤ desc.id ∧ desc.id ≤ intMax

namespace TileCombined

theorem stringToInteger_printInt {n : Int} (fits : -intMax - 1 ≤ n ∧ n ≤ intMax) :
    stringToInteger (printInt n) = some n := by
  have inside : inLong n := by
    unfold inLong longMax
    unfold intMax at fits
    omega
  unfold stringToInteger
  rw [i32FromString_printInt inside, toInt32_of_fits fits]

/-- This parser reads every wire id. -/
theorem stringToUInt32_printWireId (wireId : TileWireId) :
    stringToUInt32 (printWireId wireId) = some wireId := by
  have inside : inLong wireId.toNat := by
    have below := wireId.toNat_lt
    unfold inLong longMax
    omega
  unfold stringToUInt32 printWireId
  rw [i32FromString_printInt inside, Option.map_some, toUInt32_toInt32, toUInt32_toNat]

theorem isWord_printInt (n : Int) : IsWord ',' (printInt n) where
  notNil := printInt_ne_nil n
  notDelimiter := notMem_printInt (by decide) (by decide)
  notNewline := notMem_printInt (by decide) (by decide)

theorem intercalate_cons (value : Text) (values : List Text) :
    [','].intercalate (value :: values) = value ++ values.flatMap (',' :: ·) := by
  induction values generalizing value with
  | nil => simp
  | cons next values ih => rw [List.intercalate_cons_cons, ih]; simp

theorem commaList_eq {values : List Text} (notNil : values ≠ []) :
    commaList values = [','].intercalate values ++ [','] := by
  induction values with
  | nil => exact absurd rfl notNil
  | cons value values ih =>
      cases values with
      | nil => simp [commaList]
      | cons next values =>
          have later := ih (List.cons_ne_nil _ _)
          unfold commaList at later ⊢
          rw [List.flatMap_cons, later, List.intercalate_cons_cons]
          simp

private theorem head?_ne_nul {text rest : Text} (isWord : IsWord ',' text) (noNul : '\x00' ∉ text) :
    (text ++ rest).head? ≠ some '\x00' := by
  intro isNul
  rw [List.head?_append_of_ne_nil _ isWord.notNil] at isNul
  exact noNul (List.mem_of_head? isNul)

section

variable {values : List Text} (areWords : ∀ value ∈ values, IsWord ',' value)
  (noNul : ∀ value ∈ values, '\x00' ∉ value)

include areWords noNul

theorem tokenize_commaList : tokenize (commaList values) ',' = values := by
  cases values with
  | nil => rfl
  | cons value values =>
      have isWord := areWords value List.mem_cons_self
      unfold tokenize commaList
      rw [List.flatMap_cons, List.append_assoc,
        if_neg (head?_ne_nul isWord (noNul value List.mem_cons_self)), tokenizeFrom_begin isWord,
        List.singleton_append, tokenizeFrom_word_delimiter isWord (by decide),
        tokenizeFrom_closed (fun other member => areWords other (List.mem_cons_of_mem _ member))
          (by decide)]

theorem tokenize_intercalate : tokenize ([','].intercalate values) ',' = values := by
  cases values with
  | nil => rfl
  | cons value values =>
      have isWord := areWords value List.mem_cons_self
      unfold tokenize
      rw [intercalate_cons, if_neg (head?_ne_nul isWord (noNul value List.mem_cons_self)),
        tokenizeFrom_begin isWord,
        tokenizeFrom_words (fun other member => areWords other (List.mem_cons_of_mem _ member))
          isWord (by decide)]

end

/-- The numbers of a list, one for each tile. -/
theorem areNumbers {tiles : List TileDesc} (number : TileDesc → Int) :
    (∀ value ∈ tiles.map fun tile => printInt (number tile), IsWord ',' value) ∧
      ∀ value ∈ tiles.map fun tile => printInt (number tile), '\x00' ∉ value := by
  constructor
  · rintro value member
    obtain ⟨tile, -, rfl⟩ := List.mem_map.mp member
    exact isWord_printInt _
  · rintro value member
    obtain ⟨tile, -, rfl⟩ := List.mem_map.mp member
    exact notMem_printInt (by decide) (by decide)

/-- The lists of a text have a value for every tile, or none if each has the usual one. -/
structure Lists (tiles : List TileDesc)
    (tilePositionsX tilePositionsY vers imgSizes oldWireIds wireIds : Text) : Prop where
  tilePositionsX : tokenize tilePositionsX ',' = tiles.map fun tile => printInt tile.tilePosX
  tilePositionsY : tokenize tilePositionsY ',' = tiles.map fun tile => printInt tile.tilePosY
  vers : tokenize vers ',' = tiles.map fun tile => printInt tile.ver
  imgSizes : imgSizes = [] ∧ (∀ tile ∈ tiles, tile.imgSize = 0) ∨
    tokenize imgSizes ',' = tiles.map fun tile => printInt tile.imgSize
  oldWireIds : tokenize oldWireIds ',' = tiles.map fun tile => printWireId tile.oldWireId
  wireIds : tokenize wireIds ',' = tiles.map fun tile => printWireId tile.wireId

/-- What a tile of a combined request is like. -/
structure IsTileOf (header : TileHeader) (tile : TileDesc) : Prop where
  header : tile.header = header
  id : tile.id = -1
  broadcast : tile.broadcast = false
  fits : tile.FitsInt

theorem valueAt_map {tiles : List TileDesc} (print : TileDesc → Text) {index : Nat}
    {tile : TileDesc} (isTile : tiles[index]? = some tile) :
    valueAt (tiles.map print) index = some (print tile) ∧
      (tiles.map print).getD index [] = print tile := by
  have value : (tiles.map print)[index]? = some (print tile) := by
    rw [List.getElem?_map, isTile, Option.map_some]
  have notNil : tiles.map print ≠ [] := by
    intro isNil
    rw [isNil] at value
    cases value
  unfold valueAt
  rw [if_neg notNil, List.getD_eq_getElem?_getD, value]
  exact ⟨rfl, rfl⟩

theorem tileAt_eq {header : TileHeader} {tiles : List TileDesc}
    {tilePositionsX tilePositionsY vers imgSizes oldWireIds wireIds : Text}
    (lists : Lists tiles tilePositionsX tilePositionsY vers imgSizes oldWireIds wireIds)
    {index : Nat} {tile : TileDesc} (isTile : tiles[index]? = some tile)
    (ofHeader : IsTileOf header tile) :
    tileAt header (tokenize tilePositionsX ',') (tokenize tilePositionsY ',')
      (tokenize imgSizes ',') (tokenize vers ',') (tokenize oldWireIds ',') (tokenize wireIds ',')
      index = some tile := by
  obtain ⟨sameHeader, id, broadcast, fits⟩ := ofHeader
  have valid := tile.valid
  have small : -intMax - 1 ≤ 0 := by decide
  have x : stringToInteger (printInt tile.tilePosX) = some tile.tilePosX :=
    stringToInteger_printInt ⟨by omega, fits.tilePosX⟩
  have y : stringToInteger (printInt tile.tilePosY) = some tile.tilePosY :=
    stringToInteger_printInt ⟨by omega, fits.tilePosY⟩
  have ver : stringToInteger (printInt tile.ver) = some tile.ver := stringToInteger_printInt fits.ver
  have imgSize : ((valueAt (tokenize imgSizes ',') index).map stringToInteger).getD (some 0) =
      some tile.imgSize := by
    rcases lists.imgSizes with ⟨isNil, allZero⟩ | isList
    · rw [isNil, allZero tile (List.mem_of_getElem? isTile)]
      rfl
    · rw [isList, (valueAt_map (fun tile => printInt tile.imgSize) isTile).1, Option.map_some,
        stringToInteger_printInt ⟨by omega, fits.imgSize⟩]
      rfl
  have isVer : (valueAt (tokenize vers ',') index).filter (· ≠ []) = some (printInt tile.ver) := by
    rw [lists.vers, (valueAt_map (fun tile => printInt tile.ver) isTile).1]
    simp [printInt_ne_nil]
  rw [← sameHeader]
  unfold tileAt
  rw [imgSize, isVer, lists.tilePositionsX, lists.tilePositionsY, lists.oldWireIds, lists.wireIds,
    (valueAt_map (fun tile => printInt tile.tilePosX) isTile).2,
    (valueAt_map (fun tile => printInt tile.tilePosY) isTile).2,
    (valueAt_map (fun tile => printWireId tile.oldWireId) isTile).1,
    (valueAt_map (fun tile => printWireId tile.wireId) isTile).1]
  simp only [x, y, ver, Option.map_some, Option.getD_some, stringToUInt32_printWireId,
    Option.bind_eq_bind, Option.bind_some]
  refine (dif_pos valid).trans ?_
  rw [← id, ← broadcast]
  rfl

theorem mapM_eq_some {indices : List Nat} {tileOf : Nat → Option TileDesc} {tiles : List TileDesc}
    (areTiles : List.Forall₂ (fun index tile => tileOf index = some tile) indices tiles) :
    indices.mapM tileOf = some tiles := by
  induction areTiles with
  | nil => rfl
  | cons isTile _ ih =>
      rw [List.mapM_cons, isTile, ih]
      rfl

theorem uniform_of_isTileOf {header : TileHeader} {tiles : List TileDesc}
    (ofHeader : ∀ tile ∈ tiles, IsTileOf header tile) : ∀ tile ∈ tiles, tile.header = header :=
  fun tile member => (ofHeader tile member).header

/-- The constructor makes the tiles of which the lists were printed. -/
theorem create?_eq {header : TileHeader} {tiles : List TileDesc}
    {tilePositionsX tilePositionsY vers imgSizes oldWireIds wireIds : Text}
    (lists : Lists tiles tilePositionsX tilePositionsY vers imgSizes oldWireIds wireIds)
    (notNil : tiles ≠ []) (ofHeader : ∀ tile ∈ tiles, IsTileOf header tile) :
    create? header tilePositionsX tilePositionsY vers imgSizes oldWireIds wireIds =
      some ⟨header, tiles, uniform_of_isTileOf ofHeader⟩ := by
  have length (print : TileDesc → Text) : (tiles.map print).length = tiles.length :=
    List.length_map _
  have validHeader : ¬(header.part < 0 ∨ header.mode < 0 ∨ header.width ≤ 0 ∨ header.height ≤ 0 ∨
      header.tileWidth ≤ 0 ∨ header.tileHeight ≤ 0) := by
    obtain ⟨first, member⟩ := List.exists_mem_of_ne_nil tiles notNil
    have valid := first.valid
    rw [← (ofHeader first member).header]
    simp only [TileDesc.header]
    omega
  have imgSizes' : ¬(imgSizes ≠ [] ∧ tiles.length ≠ (tokenize imgSizes ',').length) := by
    rintro ⟨printed, different⟩
    rcases lists.imgSizes with ⟨isNil, -⟩ | isList
    · exact printed isNil
    · rw [isList, length] at different
      exact different rfl
  have areTiles : (List.range tiles.length).mapM (tileAt header (tokenize tilePositionsX ',')
      (tokenize tilePositionsY ',') (tokenize imgSizes ',') (tokenize vers ',')
      (tokenize oldWireIds ',') (tokenize wireIds ',')) = some tiles := by
    apply mapM_eq_some
    refine List.forall₂_iff_get.mpr ⟨List.length_range, fun index inRange inTiles => ?_⟩
    rw [List.get_eq_getElem, List.getElem_range]
    refine tileAt_eq lists (List.getElem?_eq_getElem inTiles) (ofHeader _ (List.getElem_mem _))
  have lengthX : (tokenize tilePositionsX ',').length = tiles.length := by
    rw [lists.tilePositionsX, length]
  unfold create?
  rw [if_neg validHeader]
  dsimp only
  rw [if_neg]
  · split
    · next isNone =>
        rw [lengthX, areTiles] at isNone
        cases isNone
    · next isSome =>
        rw [lengthX, areTiles] at isSome
        cases isSome
        rfl
  · rw [lengthX, lists.tilePositionsY, lists.vers, lists.oldWireIds, lists.wireIds, length, length,
      length, length]
    tauto

/-- What is printed of a combined request, word for word. -/
def words (combined : TileCombined) : List Text :=
  let list (print : TileDesc → Text) := [','].intercalate (combined.tiles.map print)
  [nameValue "nviewid".toList (printInt combined.header.normalizedViewId),
    nameValue "part".toList (printInt combined.header.part),
    nameValue "width".toList (printInt combined.header.width),
    nameValue "height".toList (printInt combined.header.height),
    nameValue "tileposx".toList (list fun tile => printInt tile.tilePosX),
    nameValue "tileposy".toList (list fun tile => printInt tile.tilePosY),
    nameValue "imgsize".toList (list fun tile => printInt tile.imgSize),
    nameValue "tilewidth".toList (printInt combined.header.tileWidth),
    nameValue "tileheight".toList (printInt combined.header.tileHeight),
    nameValue "ver".toList (list fun tile => printInt tile.ver),
    nameValue "oldwid".toList (list fun tile => printWireId tile.oldWireId),
    nameValue "wid".toList (list fun tile => printWireId tile.wireId)] ++
  if combined.header.mode ≠ 0 then [nameValue "mode".toList (printInt combined.header.mode)] else []

theorem dropLast_listWord (text : Text) (name : String) {values : List Text} (notNil : values ≠ []) :
    (text ++ listWord name values).dropLast =
      text ++ ' ' :: nameValue name.toList ([','].intercalate values) := by
  have closed : text ++ listWord name values =
      (text ++ ' ' :: nameValue name.toList ([','].intercalate values)) ++ [','] := by
    simp [listWord, nameValue, commaList_eq notNil]
  rw [closed, List.dropLast_concat]

theorem serialize_eq (combined : TileCombined) (notNil : combined.tiles ≠ []) (start : Text) :
    combined.serialize start = start ++ combined.words.flatMap (' ' :: ·) := by
  have values (print : TileDesc → Text) : combined.tiles.map print ≠ [] := by
    simpa using notNil
  unfold serialize words
  dsimp only
  rw [dropLast_listWord _ _ (values _), dropLast_listWord _ _ (values _),
    dropLast_listWord _ _ (values _), dropLast_listWord _ _ (values _),
    dropLast_listWord _ _ (values _)]
  split
  · simp
  · simp

/-!
## Round trips
-/

namespace CombinedPairs

section

variable {name : Text} (pairs : Text → Int)
  (tilePositionsX tilePositionsY imgSizes versions oldwireIds wireIds value : Text)

theorem parseToken_pair (noEquals : '=' ∉ name)
    (isPair : name ∉ ["tileposx".toList, "tileposy".toList, "imgsize".toList, "ver".toList,
      "oldwid".toList, "wid".toList]) {n : Int} (fits : -intMax - 1 ≤ n ∧ n ≤ intMax) :
    parseToken ⟨pairs, tilePositionsX, tilePositionsY, imgSizes, versions, oldwireIds, wireIds⟩
        (nameValue name (printInt n)) =
      ⟨fun other => if other = name then n else pairs other, tilePositionsX, tilePositionsY,
        imgSizes, versions, oldwireIds, wireIds⟩ := by
  simp only [List.mem_cons, List.not_mem_nil, or_false, not_or] at isPair
  obtain ⟨notX, notY, notSize, notVer, notOld, notNew⟩ := isPair
  unfold parseToken
  rw [parseNameValuePair_nameValue noEquals]
  dsimp only
  rw [if_neg notX, if_neg notY, if_neg notSize, if_neg notVer, if_neg notOld, if_neg notNew,
    stringToInteger_printInt fits]

theorem parseToken_tileposx :
    parseToken ⟨pairs, tilePositionsX, tilePositionsY, imgSizes, versions, oldwireIds, wireIds⟩
        (nameValue "tileposx".toList value) =
      ⟨pairs, value, tilePositionsY, imgSizes, versions, oldwireIds, wireIds⟩ := by
  unfold parseToken
  rw [parseNameValuePair_nameValue (by decide)]
  rfl

theorem parseToken_tileposy :
    parseToken ⟨pairs, tilePositionsX, tilePositionsY, imgSizes, versions, oldwireIds, wireIds⟩
        (nameValue "tileposy".toList value) =
      ⟨pairs, tilePositionsX, value, imgSizes, versions, oldwireIds, wireIds⟩ := by
  unfold parseToken
  rw [parseNameValuePair_nameValue (by decide)]
  rfl

theorem parseToken_imgsize :
    parseToken ⟨pairs, tilePositionsX, tilePositionsY, imgSizes, versions, oldwireIds, wireIds⟩
        (nameValue "imgsize".toList value) =
      ⟨pairs, tilePositionsX, tilePositionsY, value, versions, oldwireIds, wireIds⟩ := by
  unfold parseToken
  rw [parseNameValuePair_nameValue (by decide)]
  rfl

theorem parseToken_ver :
    parseToken ⟨pairs, tilePositionsX, tilePositionsY, imgSizes, versions, oldwireIds, wireIds⟩
        (nameValue "ver".toList value) =
      ⟨pairs, tilePositionsX, tilePositionsY, imgSizes, value, oldwireIds, wireIds⟩ := by
  unfold parseToken
  rw [parseNameValuePair_nameValue (by decide)]
  rfl

theorem parseToken_oldwid :
    parseToken ⟨pairs, tilePositionsX, tilePositionsY, imgSizes, versions, oldwireIds, wireIds⟩
        (nameValue "oldwid".toList value) =
      ⟨pairs, tilePositionsX, tilePositionsY, imgSizes, versions, value, wireIds⟩ := by
  unfold parseToken
  rw [parseNameValuePair_nameValue (by decide)]
  rfl

theorem parseToken_wid :
    parseToken ⟨pairs, tilePositionsX, tilePositionsY, imgSizes, versions, oldwireIds, wireIds⟩
        (nameValue "wid".toList value) =
      ⟨pairs, tilePositionsX, tilePositionsY, imgSizes, versions, oldwireIds, value⟩ := by
  unfold parseToken
  rw [parseNameValuePair_nameValue (by decide)]
  rfl

end

theorem parseToken_of_notMem {token : Text} (noEquals : '=' ∉ token) (known : CombinedPairs) :
    known.parseToken token = known := by
  have noPair : parseNameValuePair token = none := if_neg noEquals
  unfold parseToken
  rw [noPair]

end CombinedPairs

/-- The ints of a header. -/
structure FitsHeader (header : TileHeader) : Prop where
  normalizedViewId : -intMax - 1 ≤ header.normalizedViewId ∧ header.normalizedViewId ≤ intMax
  part : -intMax - 1 ≤ header.part ∧ header.part ≤ intMax
  mode : -intMax - 1 ≤ header.mode ∧ header.mode ≤ intMax
  width : -intMax - 1 ≤ header.width ∧ header.width ≤ intMax
  height : -intMax - 1 ≤ header.height ∧ header.height ≤ intMax
  tileWidth : -intMax - 1 ≤ header.tileWidth ∧ header.tileWidth ≤ intMax
  tileHeight : -intMax - 1 ≤ header.tileHeight ∧ header.tileHeight ≤ intMax

theorem fitsHeader {tile : TileDesc} (fits : tile.FitsInt) : FitsHeader tile.header := by
  have valid := tile.valid
  have small : -intMax - 1 ≤ 0 := by decide
  exact
    { normalizedViewId := ⟨by simp only [TileDesc.header]; omega, fits.normalizedViewId⟩
      part := ⟨by simp only [TileDesc.header]; omega, fits.part⟩
      mode := ⟨by simp only [TileDesc.header]; omega, fits.mode⟩
      width := ⟨by simp only [TileDesc.header]; omega, fits.width⟩
      height := ⟨by simp only [TileDesc.header]; omega, fits.height⟩
      tileWidth := ⟨by simp only [TileDesc.header]; omega, fits.tileWidth⟩
      tileHeight := ⟨by simp only [TileDesc.header]; omega, fits.tileHeight⟩ }

/-- A number that was read is an int. -/
theorem fits_stringToInteger {text : Text} {n : Int} (isRead : stringToInteger text = some n) :
    -intMax - 1 ≤ n ∧ n ≤ intMax := by
  unfold stringToInteger i32FromString at isRead
  split at isRead
  · cases isRead
  · next value _ =>
      split at isRead
      · cases isRead
        have lower : -(2 ^ 32 / 2) ≤ toInt32 value := @Int.le_bmod value (2 ^ 32) (by decide)
        have upper : toInt32 value < (2 ^ 32 + 1) / 2 := @Int.bmod_lt value (2 ^ 32) (by decide)
        unfold intMax
        omega
      · cases isRead

theorem isTileOf_tileAt {header : TileHeader} (fits : FitsHeader header) {positionXtokens
    positionYtokens imgSizeTokens verTokens oldWireIdTokens wireIdTokens : List Text} {index : Nat}
    {tile : TileDesc} (isTile : tileAt header positionXtokens positionYtokens imgSizeTokens verTokens
      oldWireIdTokens wireIdTokens index = some tile) : IsTileOf header tile := by
  have small : -intMax - 1 ≤ (-1 : Int) ∧ (-1 : Int) ≤ intMax := by decide
  have unsaid : -intMax - 1 ≤ (0 : Int) ∧ (0 : Int) ≤ intMax := by decide
  have sameHeader := header_tileAt isTile
  unfold tileAt at isTile
  simp only [Option.bind_eq_bind, Option.bind_eq_some_iff] at isTile
  obtain ⟨x, isX, y, isY, imgSize, isSize, ver, isVer, oldWireId, -, wireId, -, isTile⟩ := isTile
  have sizeFits : -intMax - 1 ≤ imgSize ∧ imgSize ≤ intMax := by
    cases value : valueAt imgSizeTokens index with
    | none =>
        rw [value] at isSize
        cases isSize
        exact unsaid
    | some text =>
        rw [value] at isSize
        exact fits_stringToInteger isSize
  have verFits : -intMax - 1 ≤ ver ∧ ver ≤ intMax := by
    cases value : (valueAt verTokens index).filter (· ≠ []) with
    | none =>
        rw [value] at isVer
        cases isVer
        exact small
    | some text =>
        rw [value] at isVer
        exact fits_stringToInteger isVer
  unfold TileDesc.create? at isTile
  split at isTile
  · cases isTile
    exact
      { header := sameHeader
        id := rfl
        broadcast := rfl
        fits :=
          { normalizedViewId := fits.normalizedViewId.2
            part := fits.part.2
            mode := fits.mode.2
            width := fits.width.2
            height := fits.height.2
            tilePosX := (fits_stringToInteger isX).2
            tilePosY := (fits_stringToInteger isY).2
            tileWidth := fits.tileWidth.2
            tileHeight := fits.tileHeight.2
            ver := verFits
            imgSize := sizeFits.2
            id := small } }
  · cases isTile

/-- What the tiles of any combined request are like. -/
theorem isTileOf_create? {header : TileHeader} (fits : FitsHeader header)
    {tilePositionsX tilePositionsY vers imgSizes oldWireIds wireIds : Text}
    {combined : TileCombined} (isCombined : create? header tilePositionsX tilePositionsY vers imgSizes
      oldWireIds wireIds = some combined) :
    ∀ tile ∈ combined.tiles, IsTileOf combined.header tile := by
  unfold create? at isCombined
  split at isCombined
  · cases isCombined
  · dsimp only at isCombined
    split at isCombined
    · cases isCombined
    · split at isCombined
      · cases isCombined
      · next tiles areTiles =>
          cases isCombined
          exact forall_of_mapM (fun _ _ => isTileOf_tileAt fits) areTiles

/-- A list as it is printed in the end. -/
def listOf (combined : TileCombined) (print : TileDesc → Text) : Text :=
  [','].intercalate (combined.tiles.map print)

theorem foldl_words (combined : TileCombined) (fits : FitsHeader combined.header) :
    ∃ pairs, combined.words.foldl CombinedPairs.parseToken .empty =
        { pairs
          tilePositionsX := combined.listOf fun tile => printInt tile.tilePosX
          tilePositionsY := combined.listOf fun tile => printInt tile.tilePosY
          imgSizes := combined.listOf fun tile => printInt tile.imgSize
          versions := combined.listOf fun tile => printInt tile.ver
          oldwireIds := combined.listOf fun tile => printWireId tile.oldWireId
          wireIds := combined.listOf fun tile => printWireId tile.wireId } ∧
      (combined.words.foldl CombinedPairs.parseToken .empty).header = combined.header := by
  unfold words
  dsimp only
  rw [List.foldl_append]
  simp only [List.foldl_cons, List.foldl_nil]
  unfold CombinedPairs.empty
  rw [CombinedPairs.parseToken_pair _ _ _ _ _ _ _ (by decide) (by decide) fits.normalizedViewId,
    CombinedPairs.parseToken_pair _ _ _ _ _ _ _ (by decide) (by decide) fits.part,
    CombinedPairs.parseToken_pair _ _ _ _ _ _ _ (by decide) (by decide) fits.width,
    CombinedPairs.parseToken_pair _ _ _ _ _ _ _ (by decide) (by decide) fits.height,
    CombinedPairs.parseToken_tileposx, CombinedPairs.parseToken_tileposy,
    CombinedPairs.parseToken_imgsize,
    CombinedPairs.parseToken_pair _ _ _ _ _ _ _ (by decide) (by decide) fits.tileWidth,
    CombinedPairs.parseToken_pair _ _ _ _ _ _ _ (by decide) (by decide) fits.tileHeight,
    CombinedPairs.parseToken_ver, CombinedPairs.parseToken_oldwid, CombinedPairs.parseToken_wid]
  split
  · rw [List.foldl_cons, List.foldl_nil,
      CombinedPairs.parseToken_pair _ _ _ _ _ _ _ (by decide) (by decide) fits.mode]
    exact ⟨_, rfl, rfl⟩
  · next isDefault =>
      rw [List.foldl_nil]
      refine ⟨_, rfl, ?_⟩
      obtain ⟨⟨viewId, part, mode, width, height, tileWidth, tileHeight⟩, tiles, uniform⟩ := combined
      cases not_not.mp isDefault
      rfl

theorem isWord_listOf (combined : TileCombined) (notNil : combined.tiles ≠ [])
    {print : TileDesc → Text} (printed : ∀ tile, ∃ n, print tile = printInt n) :
    ' ' ∉ combined.listOf print ∧ '\n' ∉ combined.listOf print := by
  have other {ch : Char} (notComma : ch ≠ ',') (notSign : ch ≠ '-') (notDigit : ch.isDigit = false) :
      ch ∉ combined.listOf print := by
    intro member
    have closed : ch ∈ commaList (combined.tiles.map print) := by
      rw [commaList_eq (by simpa using notNil)]
      exact List.mem_append_left _ member
    simp only [commaList, List.mem_flatMap, List.mem_map, List.mem_append,
      List.mem_singleton] at closed
    obtain ⟨value, ⟨tile, -, rfl⟩, inNumber | isComma⟩ := closed
    · obtain ⟨n, isNumber⟩ := printed tile
      exact notMem_printInt notSign notDigit (isNumber ▸ inNumber)
    · exact notComma isComma
  exact ⟨other (by decide) (by decide) (by decide), other (by decide) (by decide) (by decide)⟩

theorem isWord_words (combined : TileCombined) (notNil : combined.tiles ≠ []) :
    ∀ word ∈ combined.words, IsWord ' ' word := by
  have list {name : Text} (isName : ' ' ∉ name ∧ '\n' ∉ name) {print : TileDesc → Text}
      (printed : ∀ tile, ∃ n, print tile = printInt n) :
      IsWord ' ' (nameValue name (combined.listOf print)) :=
    isWord_nameValue (by decide) isName (combined.isWord_listOf notNil printed)
  unfold words
  dsimp only
  rw [List.forall_mem_append]
  constructor
  · simp only [List.forall_mem_cons, List.not_mem_nil, false_implies, implies_true, and_true]
    refine ⟨isWord_printed (by decide) _, isWord_printed (by decide) _,
      isWord_printed (by decide) _, isWord_printed (by decide) _,
      list (by decide) fun _ => ⟨_, rfl⟩, list (by decide) fun _ => ⟨_, rfl⟩,
      list (by decide) fun _ => ⟨_, rfl⟩, isWord_printed (by decide) _,
      isWord_printed (by decide) _, list (by decide) fun _ => ⟨_, rfl⟩,
      list (by decide) fun _ => ⟨_, rfl⟩, list (by decide) fun _ => ⟨_, rfl⟩⟩
  · split
    · simpa using isWord_printed (by decide) _
    · simp

theorem tokenize_serialize (combined : TileCombined) (notNil : combined.tiles ≠ []) {start : Text}
    (isStart : IsCommand start) :
    tokenize (combined.serialize start) ' ' =
      (if start = [] then [] else [start]) ++ combined.words := by
  rw [combined.serialize_eq notNil, tokenize_words (combined.isWord_words notNil) isStart.isWord
    isStart.noNul]
  split
  · rfl
  · rfl

/-- What was printed is read as it is, wire ids of all sizes included. -/
theorem parseMessage_serialize (combined : TileCombined) (notNil : combined.tiles ≠ [])
    (ofHeader : ∀ tile ∈ combined.tiles, IsTileOf combined.header tile) {start : Text}
    (isStart : IsCommand start) : parseMessage (combined.serialize start) = some combined := by
  obtain ⟨first, member⟩ := List.exists_mem_of_ne_nil _ notNil
  have ofFirst := ofHeader first member
  have fits : FitsHeader combined.header := ofFirst.header ▸ fitsHeader ofFirst.fits
  have skipped : (if start = [] then [] else [start]).foldl CombinedPairs.parseToken .empty =
      .empty := by
    split
    · rfl
    · exact CombinedPairs.parseToken_of_notMem isStart.noEquals _
  have read (number : TileDesc → Int) :
      tokenize (combined.listOf fun tile => printInt (number tile)) ',' =
        combined.tiles.map fun tile => printInt (number tile) :=
    tokenize_intercalate (areNumbers number).1 (areNumbers number).2
  obtain ⟨pairs, known, header⟩ := combined.foldl_words fits
  unfold parseMessage parse
  rw [combined.tokenize_serialize notNil isStart, List.foldl_append, skipped]
  dsimp only
  rw [header, known]
  dsimp only
  exact create?_eq
    { tilePositionsX := read TileDesc.tilePosX
      tilePositionsY := read TileDesc.tilePosY
      vers := read TileDesc.ver
      imgSizes := .inr (read TileDesc.imgSize)
      oldWireIds := read fun tile => tile.oldWireId.toNat
      wireIds := read fun tile => tile.wireId.toNat } notNil ofHeader

theorem isTileOf_compose {first tile : TileDesc} (firstFits : first.FitsInt)
    (fits : tile.FitsInt) : IsTileOf first.header (compose first tile) where
  header := rfl
  id := rfl
  broadcast := rfl
  fits :=
    { firstFits with
      tilePosX := fits.tilePosX
      tilePosY := fits.tilePosY
      ver := fits.ver
      imgSize := (by decide : (0 : Int) ≤ intMax)
      id := (by decide : -intMax - 1 ≤ (-1 : Int) ∧ (-1 : Int) ≤ intMax) }

/-- The constructor of texts makes the request that is spoken of everywhere else. -/
theorem createOf_eq {first : TileDesc} {rest : List TileDesc}
    (fits : ∀ tile ∈ first :: rest, tile.FitsInt) :
    createOf first rest = some (create first rest) := by
  have ofHeader : ∀ tile ∈ (first :: rest).map (compose first), IsTileOf first.header tile := by
    intro tile member
    obtain ⟨old, isOld, rfl⟩ := List.mem_map.mp member
    exact isTileOf_compose (fits first List.mem_cons_self) (fits old isOld)
  have read (number : TileDesc → Int) (kept : ∀ tile, number (compose first tile) = number tile) :
      tokenize (commaList ((first :: rest).map fun tile => printInt (number tile))) ',' =
        ((first :: rest).map (compose first)).map fun tile => printInt (number tile) := by
    have same : ((first :: rest).map (compose first)).map (fun tile => printInt (number tile)) =
        (first :: rest).map fun tile => printInt (number tile) := by
      rw [List.map_map]
      refine List.map_congr_left fun tile _ => ?_
      rw [Function.comp_apply, kept]
    rw [same]
    exact tokenize_commaList (areNumbers number).1 (areNumbers number).2
  exact create?_eq
    { tilePositionsX := read TileDesc.tilePosX fun _ => rfl
      tilePositionsY := read TileDesc.tilePosY fun _ => rfl
      vers := read TileDesc.ver fun _ => rfl
      imgSizes := .inl ⟨rfl, fun tile member => by
        obtain ⟨old, -, rfl⟩ := List.mem_map.mp member
        rfl⟩
      oldWireIds := read (fun tile => tile.oldWireId.toNat) fun _ => rfl
      wireIds := read (fun tile => tile.wireId.toNat) fun _ => rfl }
    (by simp) ofHeader

/-- What a request for these tiles becomes on the way to the kit. -/
def sent (first : TileDesc) (rest : List TileDesc) (start : Text) : Option TileCombined :=
  (createOf first rest).bind fun request => parseMessage (request.serialize start)

theorem sent_eq {first : TileDesc} {rest : List TileDesc}
    (fits : ∀ tile ∈ first :: rest, tile.FitsInt) {start : Text} (isStart : IsCommand start) :
    sent first rest start = some (create first rest) := by
  unfold sent
  rw [createOf_eq fits, Option.bind_some]
  refine parseMessage_serialize _ (by simp [create]) ?_ isStart
  intro tile member
  obtain ⟨old, isOld, rfl⟩ := List.mem_map.mp member
  exact isTileOf_compose (fits first List.mem_cons_self) (fits old isOld)

end TileCombined

/-- What a list of a combined request says about a tile. -/
structure TileEntry where
  tilePosX : Int
  tilePosY : Int
  ver : Int
  oldWireId : TileWireId
  wireId : TileWireId
deriving DecidableEq

def TileDesc.entry (tile : TileDesc) : TileEntry where
  tilePosX := tile.tilePosX
  tilePosY := tile.tilePosY
  ver := tile.ver
  oldWireId := tile.oldWireId
  wireId := tile.wireId

/-- Descriptors of ints that are not the largest one, with wire ids that are ints, are read as they
were. A combined request keeps all its lists but the image sizes, which a request has none of. -/
theorem round_trips :
    (∀ (desc : TileDesc) (start : Text), IsCommand start → desc.IsReadable →
      (desc.oldWireId.toNat : Int) ≤ intMax → (desc.wireId.toNat : Int) ≤ intMax →
      TileDesc.parseMessage (desc.serialize start) = some desc) ∧
    (∀ (first : TileDesc) (rest : List TileDesc) (start : Text), IsCommand start →
      (∀ tile ∈ first :: rest, tile.FitsInt) →
      ∃ request, TileCombined.sent first rest start = some request ∧
        request.header = first.header ∧
        request.tiles.map TileDesc.entry = (first :: rest).map TileDesc.entry ∧
        ∀ tile ∈ request.tiles, tile.imgSize = 0) ∧
    ∀ (wireId : TileWireId) (key : Text), '=' ∉ key → (wireId.toNat : Int) ≤ intMax →
      getUInt32 (nameValue key (printWireId wireId)) key = some (wireId, true) ∧
        stringToUInt32 (printWireId wireId) = some wireId := by
  refine ⟨?_, ?_, ?_⟩
  · intro desc start isStart readable oldWireId wireId
    rw [desc.parseMessage_serialize readable isStart, desc.saved_of_le oldWireId wireId]
  · intro first rest start isStart fits
    refine ⟨TileCombined.create first rest, TileCombined.sent_eq fits isStart, rfl, ?_, ?_⟩
    · exact List.map_map.trans (List.map_congr_left fun _ _ => rfl)
    · intro tile member
      obtain ⟨old, -, rfl⟩ := List.mem_map.mp member
      rfl
  · intro wireId key isKey small
    rw [TilePairs.getUInt32_printWireId isKey, TilePairs.savedWireId_of_le small]
    exact ⟨rfl, TileCombined.stringToUInt32_printWireId wireId⟩

/-- A slide preview that was rendered. -/
def renderedPreview : TileDesc where
  normalizedViewId := 0
  part := 1
  mode := 2
  width := 256
  height := 256
  tilePosX := 0
  tilePosY := 3840
  tileWidth := 3840
  tileHeight := 3840
  ver := 5
  imgSize := 7
  id := 3
  broadcast := true
  oldWireId := 41
  wireId := 42
  valid := by decide

theorem round_trips_renderedPreview :
    TileDesc.parseMessage (renderedPreview.serialize "tile".toList) = some renderedPreview ∧
    (∃ request, TileCombined.sent renderedPreview [renderedPreview] "tilecombine".toList =
        some request ∧
      request.header = renderedPreview.header ∧
      request.tiles.map TileDesc.entry = [renderedPreview, renderedPreview].map TileDesc.entry ∧
      ∀ tile ∈ request.tiles, tile.imgSize = 0) ∧
    getUInt32 (nameValue "wid".toList (printWireId 42)) "wid".toList = some (42, true) ∧
      stringToUInt32 (printWireId 42) = some 42 := by
  have tile : IsCommand "tile".toList :=
    ⟨.inr ⟨by decide, by decide, by decide⟩, by decide, by decide⟩
  have tilecombine : IsCommand "tilecombine".toList :=
    ⟨.inr ⟨by decide, by decide, by decide⟩, by decide, by decide⟩
  have readable : renderedPreview.IsReadable := by
    constructor <;> decide
  have fits : renderedPreview.FitsInt := by
    constructor <;> decide
  refine ⟨round_trips.1 _ _ tile readable (by decide) (by decide), ?_,
    round_trips.2.2 42 "wid".toList (by decide) (by decide)⟩
  exact round_trips.2.1 _ _ _ tilecombine (by simpa using fits)

/-- The image size does not come back from a combined request, a part that is the largest int
is read as none, and the two parsers read the wire id 2147483648 differently. -/
theorem not_round_trips :
    (TileCombined.sent renderedPreview [] []).map (fun request =>
        request.tiles.map TileDesc.imgSize) ≠ some [renderedPreview.imgSize] ∧
      (TileDesc.parseMessage (TileDesc.serialize
        { renderedPreview with part := intMax, valid := by decide } [])).map TileDesc.part = some 0 ∧
      getUInt32 (nameValue "wid".toList (printWireId 2147483648)) "wid".toList =
        some (2147483647, true) ∧
      stringToUInt32 (printWireId 2147483648) = some 2147483648 := by
  decide +kernel

end FreeOnline.Wsd
