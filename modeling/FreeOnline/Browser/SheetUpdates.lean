import FreeOnline.Browser.GridLines
import FreeOnline.Browser.OutlineGroups
import FreeOnline.Browser.SheetRounding

/-!
# Updates of a sheet's geometry

An update gives columns and rows, each with encodings of which some may be missing. What can be
read is stored at once, and the sizes of the visible elements are merged when all was read.
-/

set_option autoImplicit false

namespace FreeOnline.Browser

structure SheetGeometry where
  part : Int
  columns : SheetGeometry.SheetDimension
  rows : SheetGeometry.SheetDimension

end FreeOnline.Browser

namespace FreeOnline.Browser.SheetGeometry

open FreeOnline.Library

/-- The columns or rows of an update. What is falsy counts as missing. -/
inductive DimensionField where
  | missing
  | notObject
  | object (data : SheetDimensionCoreData)

structure SheetGeometryCoreData where
  commandName : Option Text
  maxtiledcolumn : Option Text
  maxtiledrow : Option Text
  columns : DimensionField
  rows : DimensionField

def unoCommand : Text := ".uno:SheetGeometryData".toList

def isDigits (text : Text) : Bool := !text.isEmpty && text.all Char.isDigit

def toNumber (text : Option Text) : Int := Nat.ofDigitChars 10 (text.getD []) 0

def hasEncoding (encoding : Option Text) : Bool := encoding.any fun text => !text.isEmpty

def DimensionField.isComplete : DimensionField → Bool
  | .missing => false
  | .notObject => false
  | .object data => hasEncoding data.sizes && hasEncoding data.hidden && hasEncoding data.filtered

/-- `_testValidity` -/
def testValidity (sheetGeomJSON : SheetGeometryCoreData) (checkCompleteness : Bool) : Bool :=
  sheetGeomJSON.commandName == some unoCommand && sheetGeomJSON.maxtiledcolumn.any isDigits &&
    sheetGeomJSON.maxtiledrow.any isDigits &&
    (!checkCompleteness || sheetGeomJSON.rows.isComplete && sheetGeomJSON.columns.isComplete)

/-- The update of one dimension, if it is given. None where it throws. -/
def SheetDimension.updateField (dimension : SheetDimension) :
    DimensionField → Option (Bool × SheetDimension)
  | .missing => some (true, dimension)
  | .notObject => some (false, dimension)
  | .object data => dimension.update data

/-- None where it throws. -/
def update (geometry : SheetGeometry) (sheetGeomJSON : SheetGeometryCoreData)
    (checkCompleteness : Bool) (part : Int) : Option (Bool × SheetGeometry) :=
  if testValidity sheetGeomJSON checkCompleteness then
    match geometry.columns.updateField sheetGeomJSON.columns with
    | none => none
    | some (columnsOK, columns) =>
        match geometry.rows.updateField sheetGeomJSON.rows with
        | none => none
        | some (rowsOK, rows) =>
            let updateOK := columnsOK && rowsOK
            some (updateOK, {
              part := if updateOK then part else geometry.part
              columns := columns.setMaxIndex (toNumber sheetGeomJSON.maxtiledcolumn)
              rows := rows.setMaxIndex (toNumber sheetGeomJSON.maxtiledrow) })
  else some (false, geometry)

/-!
## Queries
-/

namespace SheetDimension

variable (dimension : SheetDimension)

def getMaxIndex : Int := dimension.maxIndex

def getSize (unitName : GeometryUnit) : Option Int :=
  (dimension.getElementDataAny dimension.maxIndex unitName).map fun posSize =>
    posSize.startpos + posSize.size

def getGroupLevels : Nat := dimension.outlines.length

def groupsInRange (start stop : Int) : List GroupCall :=
  forEachGroupInRange dimension.outlines start stop

/-- Every query is answered alike. -/
structure SameQueries (before after : SheetDimension) : Prop where
  elementData : ∀ index zoomScale,
    before.getElementData index zoomScale = after.getElementData index zoomScale
  elementDataAny : ∀ index unitName,
    before.getElementDataAny index unitName = after.getElementDataAny index unitName
  indexFromPos : ∀ pos unitName,
    before.getIndexFromPos pos unitName = after.getIndexFromPos pos unitName
  snapPos : ∀ pos unitName, before.getSnapPos pos unitName = after.getSnapPos pos unitName
  tileTwips : ∀ pos, before.getTileTwipsPosFromPrint pos = after.getTileTwipsPosFromPrint pos
  tileTwipsAtZoom : ∀ pos zoomScale, before.getTileTwipsPosFromPrintAtZoom pos zoomScale =
    after.getTileTwipsPosFromPrintAtZoom pos zoomScale
  printTwips : ∀ pos, before.getPrintTwipsPosFromTile pos = after.getPrintTwipsPosFromTile pos
  corePixelsAtZoom : ∀ pos zoomScale,
    before.getCorePixelsAtZoom pos zoomScale = after.getCorePixelsAtZoom pos zoomScale
  corePixelsFromZoom : ∀ pos zoomScale,
    before.getCorePixelsFromZoom pos zoomScale = after.getCorePixelsFromZoom pos zoomScale
  gridLines : ∀ fuel startPix endPix, before.forEachInCorePixelRange fuel startPix endPix =
    after.forEachInCorePixelRange fuel startPix endPix
  maxIndex : before.getMaxIndex = after.getMaxIndex
  size : ∀ unitName, before.getSize unitName = after.getSize unitName
  groupLevels : before.getGroupLevels = after.getGroupLevels
  groups : ∀ start stop, before.groupsInRange start stop = after.groupsInRange start stop

theorem SameQueries.refl : SameQueries dimension dimension :=
  ⟨fun _ _ => rfl, fun _ _ => rfl, fun _ _ => rfl, fun _ _ => rfl, fun _ => rfl, fun _ _ => rfl,
    fun _ => rfl, fun _ _ => rfl, fun _ _ => rfl, fun _ _ _ => rfl, rfl, fun _ => rfl, rfl,
    fun _ _ => rfl⟩

variable {dimension}

/-- The queries depend on the spans, the outlines and the highest index, and on nothing else that an
update stores. -/
theorem sameQueries_of {after : SheetDimension} (sameTile : after.tile = dimension.tile)
    (sameMax : after.maxIndex = dimension.maxIndex)
    (sameOutlines : after.outlines = dimension.outlines)
    (sameSpans : after.visibleSizes = dimension.visibleSizes) : SameQueries dimension after := by
  obtain ⟨sizes, hidden, filtered, outlines, visibleSizes, maxIndex, tile⟩ := after
  dsimp only at sameTile sameMax sameOutlines sameSpans
  subst sameTile sameMax sameOutlines sameSpans
  exact ⟨fun _ _ => rfl, fun _ _ => rfl, fun _ _ => rfl, fun _ _ => rfl, fun _ => rfl, fun _ _ => rfl,
    fun _ => rfl, fun _ _ => rfl, fun _ _ => rfl, fun _ _ _ => rfl, rfl, fun _ => rfl, rfl,
    fun _ _ => rfl⟩

end SheetDimension

/-!
## What an update stores
-/

/-- Whether an encoding is missing or can be read. -/
def reads {α : Type} (load : Text → Option α) (encoding : Option Text) : Bool :=
  encoding.all fun text => (load text).isSome

/-- What is stored then, or is left as it was. -/
def stored {α : Type} (load : Text → Option α) (current : α) (encoding : Option Text) : α :=
  (encoding.bind load).getD current

/-- What is given, if it can be read, is what was there. -/
def Repeats {α : Type} (load : Text → Option α) (current : α) (encoding : Option Text) : Prop :=
  ∀ text ∈ encoding, ∀ value ∈ load text, value = current

theorem repeats_of_load {α : Type} {load : Text → Option α} {current : α} {text : Text}
    (loaded : load text = some current) : Repeats load current (some text) := by
  rintro _ ⟨⟩ value isValue
  rw [loaded] at isValue
  exact (Option.some.inj isValue).symm

theorem stored_of_repeats {α : Type} {load : Text → Option α} {current : α} {encoding : Option Text}
    (repeats : Repeats load current encoding) : stored load current encoding = current := by
  rw [stored]
  cases encoding with
  | none => rfl
  | some text =>
      cases loaded : load text with
      | none => rw [Option.bind_some, loaded, Option.getD_none]
      | some value =>
          rw [Option.bind_some, loaded, Option.getD_some]
          exact repeats text rfl value loaded

namespace SheetDimensionCoreData

variable (data : SheetDimensionCoreData)

def Readable : Prop :=
  reads parseSpanList data.sizes ∧ reads parseBoolSpanList data.hidden ∧
    reads parseBoolSpanList data.filtered ∧ reads loadOutlines data.groups

instance : Decidable data.Readable := inferInstanceAs (Decidable (_ ∧ _))

def GivesSpans : Prop := data.sizes.isSome ∨ data.hidden.isSome ∨ data.filtered.isSome

instance : Decidable data.GivesSpans := inferInstanceAs (Decidable (_ ∨ _))

end SheetDimensionCoreData

/-- There are sizes, and all lists end at the same index. -/
def Mergeable (sizes : List ParsedSpan) (hidden filtered : BoolSpanList) : Prop :=
  ∃ last, sizes.getLast?.map ParsedSpan.index = some last ∧
    hidden.spanlist.getLast? = some last ∧ filtered.spanlist.getLast? = some last

/-- The sizes of the visible elements, none where a property of undefined is read. -/
def mergedSpans (tile : TileGeometry) (sizes : List ParsedSpan) (hidden filtered : BoolSpanList) :
    Option (List SpanData) :=
  ((hidden.union filtered).bind (applyZeroValues sizes)).map (positioned tile)

theorem loadEncoding_eq {α : Type} (load : Text → Option α) (current : α) (encoding : Option Text) :
    loadEncoding load current encoding = (reads load encoding, stored load current encoding) := by
  cases encoding with
  | none => rfl
  | some text =>
      cases loaded : load text with
      | none => simp [loadEncoding, reads, stored, loaded]
      | some value => simp [loadEncoding, reads, stored, loaded]

section

variable {maxElement thisElement otherElement : Int} {thisSpans otherSpans : List Int}

/-- Behind a border both lists still have the last element, or one has ended with it. -/
theorem unionAdvance_ends (thisBit otherBit : Bool)
    (thisEnds : (thisElement :: thisSpans).getLast? = some maxElement)
    (otherEnds : (otherElement :: otherSpans).getLast? = some maxElement) :
    let next := unionAdvance thisBit otherBit thisElement otherElement thisSpans otherSpans
    (next.2.thisSpans.getLast? = some maxElement ∧ next.2.otherSpans.getLast? = some maxElement ∧
        next.2.thisSpans.length + next.2.otherSpans.length <
          (thisElement :: thisSpans).length + (otherElement :: otherSpans).length) ∨
      (next.1 = maxElement ∧ (next.2.thisSpans = [] ∨ next.2.otherSpans = [])) := by
  have ends {element : Int} {spans : List Int}
      (isEnd : (element :: spans).getLast? = some maxElement) :
      spans.getLast? = some maxElement ∨ (element = maxElement ∧ spans = []) := by
    cases spans with
    | nil => exact .inr ⟨Option.some.inj isEnd, rfl⟩
    | cons later rest => exact .inl isEnd
  intro next
  unfold next unionAdvance
  split
  · rcases ends thisEnds with thisLater | ⟨thisLast, thisEmpty⟩
    · exact .inl ⟨thisLater, otherEnds, by simp⟩
    · exact .inr ⟨thisLast, .inl thisEmpty⟩
  · split
    · rcases ends otherEnds with otherLater | ⟨otherLast, otherEmpty⟩
      · exact .inl ⟨thisEnds, otherLater, by simp⟩
      · exact .inr ⟨otherLast, .inr otherEmpty⟩
    · rcases ends otherEnds with otherLater | ⟨otherLast, otherEmpty⟩
      · rcases ends thisEnds with thisLater | ⟨thisLast, thisEmpty⟩
        · exact .inl ⟨thisLater, otherLater, by simp; omega⟩
        · exact .inr ⟨by dsimp only; omega, .inl thisEmpty⟩
      · exact .inr ⟨otherLast, .inr otherEmpty⟩

theorem unionLoop_empty {fuel : Nat} {resultBit : Bool} {state : UnionState}
    (isEmpty : state.thisSpans = [] ∨ state.otherSpans = []) :
    unionLoop maxElement fuel resultBit state = [] := by
  obtain ⟨thisBit, thisSpans, otherBit, otherSpans⟩ := state
  cases fuel with
  | zero => rfl
  | succ fuel =>
      rcases isEmpty with isEmpty | isEmpty
      · dsimp only at isEmpty
        rw [isEmpty]
        rfl
      · dsimp only at isEmpty
        rw [isEmpty]
        cases thisSpans with
        | nil => rfl
        | cons _ _ => rfl

theorem unionLoop_ends {fuel : Nat} {resultBit thisBit otherBit : Bool}
    (enough : thisSpans.length + otherSpans.length ≤ fuel)
    (thisEnds : thisSpans.getLast? = some maxElement)
    (otherEnds : otherSpans.getLast? = some maxElement) :
    (unionLoop maxElement fuel resultBit ⟨thisBit, thisSpans, otherBit, otherSpans⟩).getLast? =
      some maxElement := by
  induction fuel generalizing resultBit thisBit otherBit thisSpans otherSpans with
  | zero =>
      have isEmpty : thisSpans = [] := List.length_eq_zero_iff.mp (by omega)
      rw [isEmpty] at thisEnds
      cases thisEnds
  | succ fuel ih =>
      cases thisSpans with
      | nil => cases thisEnds
      | cons thisElement thisSpans =>
          cases otherSpans with
          | nil => cases otherEnds
          | cons otherElement otherSpans =>
              have advanced := unionAdvance_ends thisBit otherBit thisEnds otherEnds
              rw [unionLoop]
              generalize unionAdvance thisBit otherBit thisElement otherElement thisSpans
                otherSpans = next at advanced ⊢
              obtain ⟨lastElement, nextBit, nextThis, nextOtherBit, nextOther⟩ := next
              dsimp only at advanced ⊢
              rcases advanced with ⟨thisLater, otherLater, shorter⟩ | ⟨isLast, isEmpty⟩
              · have rest {bit : Bool} := @ih nextThis nextOther bit nextBit nextOtherBit (by omega)
                  thisLater otherLater
                split
                · rw [List.getLast?_cons, rest]
                  rfl
                · exact rest
              · rw [if_pos (.inr isLast.ge), unionLoop_empty isEmpty, isLast]
                rfl

/-- A union ends where both lists do. -/
theorem union_ends {this other invisible : BoolSpanList} (isUnion : this.union other = some invisible) :
    invisible.spanlist.getLast? = this.spanlist.getLast? ∧
      other.spanlist.getLast? = this.spanlist.getLast? := by
  rw [BoolSpanList.union] at isUnion
  split at isUnion
  · cases isUnion
  · next sameEnd =>
      have same := not_not.mp sameEnd
      obtain rfl := Option.some.inj isUnion
      refine ⟨?_, same.symm⟩
      dsimp only
      cases thisEnd : this.spanlist.getLast? with
      | none =>
          rw [unionLoop_empty (.inl (List.getLast?_eq_none_iff.mp thisEnd))]
          rfl
      | some last =>
          rw [thisEnd] at same
          exact unionLoop_ends (Nat.le_refl _) thisEnd same.symm

end

/-- Spans are merged where the lists allow it. -/
theorem mergedSpans_isSome_iff {tile : TileGeometry} {sizes : List ParsedSpan}
    {hidden filtered : BoolSpanList} :
    (mergedSpans tile sizes hidden filtered).isSome ↔ Mergeable sizes hidden filtered := by
  rw [mergedSpans, Option.isSome_map]
  constructor
  · intro isMerged
    obtain ⟨spans, isSpans⟩ := Option.isSome_iff_exists.mp isMerged
    obtain ⟨invisible, isUnion, isApplied⟩ := Option.bind_eq_some_iff.mp isSpans
    obtain ⟨ends, sameEnd⟩ := union_ends isUnion
    cases sizes with
    | nil => cases isApplied
    | cons first sizes =>
        obtain ⟨last, isLast⟩ : ∃ last, (first :: sizes).getLast? = some last :=
          Option.isSome_iff_exists.mp rfl
        unfold applyZeroValues at isApplied
        rw [isLast] at isApplied
        dsimp only at isApplied
        split at isApplied
        · cases isApplied
        · next matching =>
            have isEnd := not_not.mp matching
            rw [ends] at isEnd
            exact ⟨last.index, by rw [isLast]; rfl, isEnd.symm, sameEnd.trans isEnd.symm⟩
  · intro ⟨last, sizesEnd, hiddenEnd, filteredEnd⟩
    obtain ⟨invisible, isUnion⟩ : ∃ invisible, hidden.union filtered = some invisible :=
      ⟨_, if_neg (by rw [hiddenEnd, filteredEnd]; exact not_not.mpr rfl)⟩
    obtain ⟨ends, -⟩ := union_ends isUnion
    rw [isUnion, Option.bind_some]
    cases sizes with
    | nil => cases sizesEnd
    | cons first sizes =>
        obtain ⟨lastSpan, isLast, isIndex⟩ := Option.map_eq_some_iff.mp sizesEnd
        unfold applyZeroValues
        rw [isLast]
        dsimp only
        rw [if_neg]
        · rfl
        · rw [ends, hiddenEnd, isIndex]
          exact not_not.mpr rfl

/-!
## Updates of a dimension
-/

namespace SheetDimension

variable (dimension : SheetDimension) (data : SheetDimensionCoreData)

/-- The dimension with what could be read stored. -/
def storing : SheetDimension :=
  { dimension with
    sizes := stored parseSpanList dimension.sizes data.sizes
    hidden := stored parseBoolSpanList dimension.hidden data.hidden
    filtered := stored parseBoolSpanList dimension.filtered data.filtered
    outlines := stored loadOutlines dimension.outlines data.groups }

/-- The spans that the stored lists give. -/
def storedSpans : Option (List SpanData) :=
  let storing := dimension.storing data
  mergedSpans dimension.tile storing.sizes storing.hidden storing.filtered

/-- The lists that are given and those that were there go together, if all that is given can be
read. -/
def Matches : Prop :=
  data.Readable → data.GivesSpans →
    Mergeable (dimension.storing data).sizes (dimension.storing data).hidden
      (dimension.storing data).filtered

/-- The groups, if they are given and can be read, are those that were there. -/
def RepeatsGroups : Prop := Repeats loadOutlines dimension.outlines data.groups

/-- If all that is given can be read, it repeats the lists that were there, and the spans are those of
the lists. -/
def RepeatsSpans : Prop :=
  data.Readable → data.GivesSpans →
    Repeats parseSpanList dimension.sizes data.sizes ∧
      Repeats parseBoolSpanList dimension.hidden data.hidden ∧
      Repeats parseBoolSpanList dimension.filtered data.filtered ∧
      dimension.visibleSizes =
        mergedSpans dimension.tile dimension.sizes dimension.hidden dimension.filtered

variable {dimension data}

theorem updateVisible_storing :
    (dimension.storing data).updateVisible = (dimension.storedSpans data).map fun spans =>
      { dimension.storing data with visibleSizes := some spans } := by
  unfold updateVisible storedSpans mergedSpans
  dsimp only
  cases (dimension.storing data).hidden.union (dimension.storing data).filtered with
  | none => rfl
  | some invisible =>
      rw [Option.bind_some, Option.map_map]
      rfl

theorem update_eq :
    dimension.update data =
      if data.Readable ∧ data.GivesSpans then
        (dimension.storedSpans data).map fun spans =>
          (true, { dimension.storing data with visibleSizes := some spans })
      else some (decide data.Readable, dimension.storing data) := by
  have isReadable : (reads parseSpanList data.sizes && reads parseBoolSpanList data.hidden &&
      reads parseBoolSpanList data.filtered && reads loadOutlines data.groups) =
        decide data.Readable := by
    rw [Bool.eq_iff_iff, decide_eq_true_eq]
    simp only [Bool.and_eq_true, SheetDimensionCoreData.Readable, and_assoc]
  have givesSpans : (data.sizes.isSome || data.hidden.isSome || data.filtered.isSome) =
      decide data.GivesSpans := by
    rw [Bool.eq_iff_iff, decide_eq_true_eq]
    simp only [Bool.or_eq_true, SheetDimensionCoreData.GivesSpans, or_assoc]
  have isUpdate : dimension.update data =
      if decide data.Readable && decide data.GivesSpans then
        (dimension.storing data).updateVisible.map fun updated => (true, updated)
      else some (decide data.Readable, dimension.storing data) := by
    rw [← isReadable, ← givesSpans]
    unfold update
    rw [loadEncoding_eq, loadEncoding_eq, loadEncoding_eq, loadEncoding_eq]
    rfl
  rw [isUpdate, updateVisible_storing, Option.map_map]
  simp only [Bool.and_eq_true, decide_eq_true_eq]
  rfl

/-- Where the lists match all that can be read is stored, and the spans if all can be read. -/
theorem update_matches (isMatching : dimension.Matches data) :
    dimension.update data = some (decide data.Readable,
      { dimension.storing data with
        visibleSizes :=
          if data.Readable ∧ data.GivesSpans then dimension.storedSpans data
          else dimension.visibleSizes }) := by
  rw [update_eq]
  by_cases regenerates : data.Readable ∧ data.GivesSpans
  · obtain ⟨spans, isSpans⟩ := Option.isSome_iff_exists.mp
      ((@mergedSpans_isSome_iff dimension.tile _ _ _).mpr
        (isMatching regenerates.1 regenerates.2))
    have isStored : dimension.storedSpans data = some spans := isSpans
    rw [if_pos regenerates, if_pos regenerates, isStored, Option.map_some,
      decide_eq_true regenerates.1]
  · rw [if_neg regenerates, if_neg regenerates]
    rfl

theorem update_throws (notMatching : ¬ dimension.Matches data) : dimension.update data = none := by
  obtain ⟨isReadable, notMerged⟩ := Classical.not_imp.mp notMatching
  obtain ⟨givesSpans, notMergeable⟩ := Classical.not_imp.mp notMerged
  have noSpans : dimension.storedSpans data = none := by
    rw [← Option.not_isSome_iff_eq_none]
    exact fun isMerged => notMergeable (mergedSpans_isSome_iff.mp isMerged)
  rw [update_eq, if_pos ⟨isReadable, givesSpans⟩, noSpans, Option.map_none]

/-- Repeating what was there changes no answer. -/
theorem sameQueries_update {maxIndex : Int} (sameMax : dimension.maxIndex = maxIndex)
    (repeatsGroups : dimension.RepeatsGroups data) (repeatsSpans : dimension.RepeatsSpans data) :
    SameQueries dimension
      ({ dimension.storing data with
        visibleSizes :=
          if data.Readable ∧ data.GivesSpans then dimension.storedSpans data
          else dimension.visibleSizes }.setMaxIndex maxIndex) := by
  refine sameQueries_of rfl sameMax.symm (stored_of_repeats repeatsGroups) ?_
  dsimp only [setMaxIndex]
  by_cases regenerates : data.Readable ∧ data.GivesSpans
  · obtain ⟨sizes, hidden, filtered, isMerged⟩ := repeatsSpans regenerates.1 regenerates.2
    rw [if_pos regenerates, storedSpans, isMerged]
    dsimp only [storing]
    rw [stored_of_repeats sizes, stored_of_repeats hidden, stored_of_repeats filtered]
  · rw [if_neg regenerates]

variable (dimension) (data)

/-- An update goes through, and if it fails it changes no answer. -/
def Atomic (result : Option (Bool × SheetDimension)) : Prop :=
  ∃ ok updated, result = some (ok, updated) ∧ (ok = false → SameQueries dimension updated)

/-- The lists match, and if something cannot be read the groups are those that were there. -/
def Harmless : Prop :=
  dimension.Matches data ∧ (¬ data.Readable → dimension.RepeatsGroups data)

variable {dimension} {data}

theorem update_isSome_iff : (dimension.update data).isSome ↔ dimension.Matches data := by
  by_cases isMatching : dimension.Matches data
  · rw [update_matches isMatching]
    exact iff_of_true rfl isMatching
  · rw [update_throws isMatching]
    exact iff_of_false nofun isMatching

theorem update_atomic (harmless : dimension.Harmless data) :
    dimension.Atomic (dimension.update data) := by
  obtain ⟨isMatching, repeatsGroups⟩ := harmless
  rw [update_matches isMatching]
  refine ⟨_, _, rfl, fun fails => ?_⟩
  have notReadable := of_decide_eq_false fails
  exact sameQueries_update rfl (repeatsGroups notReadable)
    fun isReadable => absurd isReadable notReadable

end SheetDimension

/-!
## Updates of both dimensions
-/

namespace DimensionField

variable (dimension : SheetDimension)

def Matches : DimensionField → Prop
  | .missing => True
  | .notObject => True
  | .object data => dimension.Matches data

/-- Something is given that cannot be read. -/
def Fails : DimensionField → Prop
  | .missing => False
  | .notObject => True
  | .object data => ¬ data.Readable

/-- What can be read is what was there. -/
def RepeatsAll : DimensionField → Prop
  | .missing => True
  | .notObject => True
  | .object data => dimension.RepeatsGroups data ∧ dimension.RepeatsSpans data

end DimensionField

theorem SheetDimension.updateField_spec {dimension : SheetDimension} {field : DimensionField} :
    (¬ field.Matches dimension ∧ dimension.updateField field = none) ∨
      (field.Matches dimension ∧ ∃ ok updated, dimension.updateField field = some (ok, updated) ∧
        (ok = false ↔ field.Fails) ∧
        ∀ maxIndex, dimension.maxIndex = maxIndex → field.RepeatsAll dimension →
          SameQueries dimension (updated.setMaxIndex maxIndex)) := by
  have unchanged (maxIndex : Int) (sameMax : dimension.maxIndex = maxIndex) (_ : True) :
      SameQueries dimension (dimension.setMaxIndex maxIndex) :=
    sameQueries_of rfl sameMax.symm rfl rfl
  cases field with
  | missing => exact .inr ⟨trivial, true, dimension, rfl, ⟨nofun, nofun⟩, unchanged⟩
  | notObject =>
      exact .inr ⟨trivial, false, dimension, rfl, iff_of_true rfl trivial, unchanged⟩
  | object data =>
      by_cases isMatching : dimension.Matches data
      · exact .inr ⟨isMatching, _, _, update_matches isMatching, decide_eq_false_iff_not,
          fun _ sameMax repeats => sameQueries_update sameMax repeats.1 repeats.2⟩
      · exact .inl ⟨isMatching, update_throws isMatching⟩

/-- All queries of both dimensions are answered alike. -/
structure SameAnswers (before after : SheetGeometry) : Prop where
  part : before.part = after.part
  columns : before.columns.SameQueries after.columns
  rows : before.rows.SameQueries after.rows

def Atomic (geometry : SheetGeometry) (result : Option (Bool × SheetGeometry)) : Prop :=
  ∃ ok updated, result = some (ok, updated) ∧ (ok = false → SameAnswers geometry updated)

/-- Nothing is read, or all lists match. -/
def AllMatch (geometry : SheetGeometry) (sheetGeomJSON : SheetGeometryCoreData)
    (checkCompleteness : Bool) : Prop :=
  testValidity sheetGeomJSON checkCompleteness →
    sheetGeomJSON.columns.Matches geometry.columns ∧ sheetGeomJSON.rows.Matches geometry.rows

/-- All lists match, and if something cannot be read, what can be and the highest indices are what
was there. -/
def Harmless (geometry : SheetGeometry) (sheetGeomJSON : SheetGeometryCoreData)
    (checkCompleteness : Bool) : Prop :=
  AllMatch geometry sheetGeomJSON checkCompleteness ∧
    (testValidity sheetGeomJSON checkCompleteness →
      sheetGeomJSON.columns.Fails ∨ sheetGeomJSON.rows.Fails →
        geometry.columns.maxIndex = toNumber sheetGeomJSON.maxtiledcolumn ∧
          geometry.rows.maxIndex = toNumber sheetGeomJSON.maxtiledrow ∧
          sheetGeomJSON.columns.RepeatsAll geometry.columns ∧
          sheetGeomJSON.rows.RepeatsAll geometry.rows)

theorem geometry_update_spec (geometry : SheetGeometry) (sheetGeomJSON : SheetGeometryCoreData)
    (checkCompleteness : Bool) (part : Int) :
    ((geometry.update sheetGeomJSON checkCompleteness part).isSome ↔
        AllMatch geometry sheetGeomJSON checkCompleteness) ∧
      (Harmless geometry sheetGeomJSON checkCompleteness →
        Atomic geometry (geometry.update sheetGeomJSON checkCompleteness part)) := by
  unfold Harmless AllMatch Atomic update
  by_cases isValid : testValidity sheetGeomJSON checkCompleteness
  · rw [if_pos isValid, imp_iff_right isValid, imp_iff_right isValid]
    rcases @SheetDimension.updateField_spec geometry.columns sheetGeomJSON.columns with
      ⟨notMatching, throws⟩ | ⟨columnsMatch, columnsOK, columns, isColumns, columnsFail, sameColumns⟩
    · rw [throws]
      exact ⟨iff_of_false nofun fun matching => notMatching matching.1,
        fun harmless => absurd harmless.1.1 notMatching⟩
    rcases @SheetDimension.updateField_spec geometry.rows sheetGeomJSON.rows with
      ⟨notMatching, throws⟩ | ⟨rowsMatch, rowsOK, rows, isRows, rowsFail, sameRows⟩
    · rw [isColumns, throws]
      exact ⟨iff_of_false nofun fun matching => notMatching matching.2,
        fun harmless => absurd harmless.1.2 notMatching⟩
    rw [isColumns, isRows, ← columnsFail, ← rowsFail, ← Bool.and_eq_false_iff]
    refine ⟨iff_of_true rfl ⟨columnsMatch, rowsMatch⟩, fun harmless => ⟨_, _, rfl, fun fails => ?_⟩⟩
    obtain ⟨columnMax, rowMax, repeatsColumns, repeatsRows⟩ := harmless.2 fails
    refine ⟨?_, sameColumns _ columnMax repeatsColumns, sameRows _ rowMax repeatsRows⟩
    rw [fails]
    rfl
  · rw [if_neg isValid]
    refine ⟨iff_of_true rfl fun valid => absurd valid isValid, fun _ => ⟨_, _, rfl, fun _ => ?_⟩⟩
    exact ⟨rfl, SheetDimension.SameQueries.refl _, SheetDimension.SameQueries.refl _⟩

/-- Updates throw exactly where lists do not match, and are atomic where they repeat what was there. -/
theorem updates_atomic (dimension : SheetDimension) (data : SheetDimensionCoreData)
    (geometry : SheetGeometry) (sheetGeomJSON : SheetGeometryCoreData) (checkCompleteness : Bool)
    (part : Int) :
    ((dimension.update data).isSome ↔ dimension.Matches data) ∧
      (dimension.Harmless data → dimension.Atomic (dimension.update data)) ∧
      ((geometry.update sheetGeomJSON checkCompleteness part).isSome ↔
        AllMatch geometry sheetGeomJSON checkCompleteness) ∧
      (Harmless geometry sheetGeomJSON checkCompleteness →
        Atomic geometry (geometry.update sheetGeomJSON checkCompleteness part)) :=
  ⟨SheetDimension.update_isSome_iff, SheetDimension.update_atomic,
    geometry_update_spec geometry sheetGeomJSON checkCompleteness part⟩

/-- Four rows, of which none is hidden, with a group. -/
private def groupedRows : SheetDimension :=
  { sizes := [⟨3, 300⟩], hidden := ⟨false, [3]⟩, filtered := ⟨false, [3]⟩,
    outlines := [[⟨1, 2, 0, 1⟩]],
    visibleSizes := some (positioned ⟨3840, 256, tileTwips_positive, tilePixels_positive⟩ [⟨3, 300⟩]), maxIndex := 3,
    tile := ⟨3840, 256, tileTwips_positive, tilePixels_positive⟩ }

/-- The encodings that these rows were loaded from. -/
private def repeatedRows : SheetDimensionCoreData :=
  ⟨some "300:3 ".toList, some "0:3 ".toList, some "0:3 ".toList, some "1:2:0:1, ".toList⟩

private def repeatedColumns : SheetGeometryCoreData :=
  { commandName := some unoCommand, maxtiledcolumn := some "3".toList, maxtiledrow := some "3".toList,
    columns := .object repeatedRows, rows := .notObject }

theorem updates_atomic_repeated :
    groupedRows.Atomic (groupedRows.update { repeatedRows with sizes := some "300".toList }) ∧
      Atomic ⟨0, groupedRows, groupedRows⟩
        ((⟨0, groupedRows, groupedRows⟩ : SheetGeometry).update repeatedColumns false 1) := by
  obtain ⟨-, dimension, -, geometry⟩ := updates_atomic groupedRows
    { repeatedRows with sizes := some "300".toList } ⟨0, groupedRows, groupedRows⟩ repeatedColumns
    false 1
  have repeatsGroups : groupedRows.RepeatsGroups repeatedRows := repeats_of_load (by decide)
  have repeatsSpans : groupedRows.RepeatsSpans repeatedRows := fun _ _ =>
    ⟨repeats_of_load (by decide), repeats_of_load (by decide), repeats_of_load (by decide), rfl⟩
  have unreadable : ¬ ({ repeatedRows with sizes := some "300".toList } :
      SheetDimensionCoreData).Readable := by decide
  refine ⟨dimension ⟨fun isReadable => absurd isReadable unreadable, fun _ => repeatsGroups⟩,
    geometry ⟨fun _ => ⟨fun _ _ => ⟨3, rfl, rfl, rfl⟩, trivial⟩, fun _ _ => ?_⟩⟩
  exact ⟨rfl, rfl, ⟨repeatsGroups, repeatsSpans⟩, trivial⟩

/-- Bits that end elsewhere lead to an exception. Sizes that cannot be read do not keep the groups
from being removed. -/
theorem not_updates_atomic :
    ¬ groupedRows.Atomic (groupedRows.update ⟨none, some "0:4 ".toList, none, none⟩) ∧
      ¬ groupedRows.Atomic (groupedRows.update ⟨some "300".toList, none, none, some []⟩) := by
  constructor
  · rintro ⟨ok, updated, isUpdate, -⟩
    have throws : groupedRows.update ⟨none, some "0:4 ".toList, none, none⟩ = none := by decide
    rw [throws] at isUpdate
    cases isUpdate
  · rintro ⟨ok, updated, isUpdate, sameAnswers⟩
    cases isUpdate
    have sameLevels := (sameAnswers rfl).groupLevels
    revert sameLevels
    decide

end FreeOnline.Browser.SheetGeometry
