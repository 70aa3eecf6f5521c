import FreeOnline.Common.StringVector
import FreeOnline.Library.LastCall
import FreeOnline.Library.Run

/-!
# Settings of a page

Three settings of the page that the file server serves are made from texts of the integration. Each
function keeps its last argument and what it made of it, and returns early when it is asked for
the same again. The stringifier of the JSON objects is a parameter.
-/

set_option autoImplicit false

namespace FreeOnline.Wsd

open FreeOnline.Common FreeOnline.Library

/-!
## Objects
-/

/-- Fields in the order of their keys. -/
abbrev JsonFields (Value : Type) := List (Text × Value)

def JsonFields.set {Value : Type} (key : Text) (value : Value) :
    JsonFields Value → JsonFields Value
  | [] => [(key, value)]
  | (other, old) :: rest =>
      if key = other then (key, value) :: rest
      else if key < other then (key, value) :: (other, old) :: rest
      else (other, old) :: JsonFields.set key value rest

/-- The values that the settings have. -/
inductive JsonValue where
  | text (value : Text)
  | bool (value : Bool)
  | defs (fields : JsonFields Bool)

abbrev JsonObject := JsonFields JsonValue

/-!
## The defaults of the user interface
-/

structure UIDefaults where
  json : JsonObject
  textDefs : JsonFields Bool
  spreadsheetDefs : JsonFields Bool
  presentationDefs : JsonFields Bool
  drawingDefs : JsonFields Bool
  uiMode : Text
  uiTheme : Text

namespace UIDefaults

def create : UIDefaults where
  json := []
  textDefs := []
  spreadsheetDefs := []
  presentationDefs := []
  drawingDefs := []
  uiMode := []
  uiTheme := "light".toList

def setUIMode (defaults : UIDefaults) (mode : Text) : UIDefaults :=
  { defaults with
    json := defaults.json.set "uiMode".toList (.text mode)
    uiMode := mode }

def setUITheme (defaults : UIDefaults) (keyValue : List Text) : UIDefaults :=
  { defaults with
    json := defaults.json.set "darkTheme".toList (.bool (keyValue[1]? = some "dark".toList))
    uiTheme := keyValue.getD 1 [] }

/-- A widget that is hidden or shown. -/
def isWidget (key : Text) : Bool :=
  key = "Ruler".toList || key = "Sidebar".toList || key = "Statusbar".toList

def isShown (keyValue : List Text) : Bool :=
  !(keyValue[1]? = some "false".toList || keyValue[1]? = some "False".toList ||
    keyValue[1]? = some "0".toList)

def startsWith (keyValue : List Text) (start : Text) : Bool :=
  start.isPrefixOf (keyValue.getD 0 [])

/-- The branches for the components, which are told by the start of the key. -/
def setComponent (defaults : UIDefaults) (keyValue : List Text) : UIDefaults :=
  let named (start : Text) : Text := (keyValue.getD 0 []).drop start.length
  let setDef (key : Text) (fields : JsonFields Bool) : JsonFields Bool :=
    if isWidget key then fields.set ("Show".toList ++ key) (isShown keyValue) else fields
  if startsWith keyValue "Text".toList then
    { defaults with textDefs := setDef (named "Text".toList) defaults.textDefs }
  else if startsWith keyValue "Spreadsheet".toList then
    { defaults with
      spreadsheetDefs := setDef (named "Spreadsheet".toList) defaults.spreadsheetDefs }
  else if startsWith keyValue "Presentation".toList then
    { defaults with
      presentationDefs := setDef (named "Presentation".toList) defaults.presentationDefs }
  else if startsWith keyValue "Drawing".toList then
    { defaults with drawingDefs := setDef (named "Drawing".toList) defaults.drawingDefs }
  else defaults

def readToken (defaults : UIDefaults) (token : Text) : UIDefaults :=
  let keyValue := tokenize token '='
  if keyValue[0]? = some "UIMode".toList then
    if keyValue[1]? = some "compact".toList || keyValue[1]? = some "classic".toList then
      defaults.setUIMode "classic".toList
    else if keyValue[1]? = some "tabbed".toList || keyValue[1]? = some "notebookbar".toList then
      defaults.setUIMode "notebookbar".toList
    else defaults
  else
    let defaults :=
      if keyValue[0]? = some "UITheme".toList then defaults.setUITheme keyValue else defaults
    if keyValue[0]? = some "SaveAsMode".toList then
      if keyValue[1]? = some "group".toList then
        { defaults with json := defaults.json.set "saveAsMode".toList (.text "group".toList) }
      else defaults
    else defaults.setComponent keyValue

def read (uiDefaults : Text) : UIDefaults :=
  (tokenize uiDefaults ';').foldl readToken create

/-- The object with the components that have fields. -/
def object (defaults : UIDefaults) : JsonObject :=
  let setDefs (key : Text) (defs : JsonFields Bool) (json : JsonObject) : JsonObject :=
    if 0 < defs.length then json.set key (.defs defs) else json
  setDefs "drawing".toList defaults.drawingDefs
    (setDefs "presentation".toList defaults.presentationDefs
      (setDefs "spreadsheet".toList defaults.spreadsheetDefs
        (setDefs "text".toList defaults.textDefs defaults.json)))

end UIDefaults

/-!
## The functions
-/

/-- What a call returns, and the output parameters `uiMode` and `uiTheme` of those that have them. -/
structure Answer where
  returned : Text
  outputs : Option (Text × Text)
deriving DecidableEq

section Functions

variable (stringify : JsonObject → Text)

/-- The JSON and the mode that are kept. -/
def computeUIDefaults (uiDefaults : Text) : Text × Text :=
  let read := UIDefaults.read uiDefaults
  (stringify read.object, read.uiMode)

/-- The early exit leaves `uiTheme` as it is. -/
def uiDefaultsToJSON (last : LastCall Text (Text × Text)) (uiDefaults _uiMode uiTheme : Text) :
    Answer × LastCall Text (Text × Text) :=
  if uiDefaults = last.previous then (⟨last.cached.1, some (last.cached.2, uiTheme)⟩, last)
  else
    let (json, uiMode) := computeUIDefaults stringify uiDefaults
    (⟨json, some (uiMode, (UIDefaults.read uiDefaults).uiTheme)⟩, ⟨uiDefaults, json, uiMode⟩)

def computeCheckFileInfo (checkfileInfo : Text) : Text :=
  stringify ((tokenize checkfileInfo ';').foldl (fun json token =>
    let keyValue := tokenize token '='
    if keyValue[0]? = some "DownloadAsPostMessage".toList then
      let value : Bool := keyValue[1]? = some "true".toList || keyValue[1]? = some "True".toList ||
        keyValue[1]? = some "1".toList
      json.set (keyValue.getD 0 []) (.bool value)
    else json) [])

def checkFileInfoToJSON (last : LastCall Text Text) (checkfileInfo : Text) :
    Answer × LastCall Text Text :=
  let (json, last) := last.call (computeCheckFileInfo stringify) checkfileInfo
  (⟨json, none⟩, last)

def isValidCss (token : Text) : Bool :=
  token.all fun c =>
    !(c.toNat < 0x20 || 0x7f ≤ c.toNat || "<>\x7b\x7d&|\\\"^`'$[]".toList.contains c)

def computeStyle (cssVars : Text) : Text :=
  (tokenize cssVars ';').foldl (fun style token =>
    match tokenize token '=' with
    | [key, value] => if isValidCss token then style ++ key ++ ':' :: value ++ [';'] else style
    | _ => style) "<style>:root \x7b".toList ++ "\x7d</style>".toList

def cssVarsToStyle (last : LastCall Text Text) (cssVars : Text) : Answer × LastCall Text Text :=
  let (style, last) := last.call computeStyle cssVars
  (⟨style, none⟩, last)

/-!
## Calls
-/

/-- The output parameters have values before the call. -/
inductive Call where
  | uiDefaultsToJSON (uiDefaults uiMode uiTheme : Text)
  | checkFileInfoToJSON (checkfileInfo : Text)
  | cssVarsToStyle (cssVars : Text)

/-- The static variables of the functions. -/
structure Statics where
  uiDefaults : LastCall Text (Text × Text)
  checkFileInfo : LastCall Text Text
  cssVars : LastCall Text Text

def Statics.initial : Statics where
  uiDefaults := ⟨[], "\x7b\x7d".toList, []⟩
  checkFileInfo := ⟨[], "\x7b\x7d".toList⟩
  cssVars := ⟨[], []⟩

def answer (statics : Statics) : Call → Answer × Statics
  | .uiDefaultsToJSON uiDefaults uiMode uiTheme =>
      let (answer, last) :=
        uiDefaultsToJSON stringify statics.uiDefaults uiDefaults uiMode uiTheme
      (answer, { statics with uiDefaults := last })
  | .checkFileInfoToJSON checkfileInfo =>
      let (answer, last) := checkFileInfoToJSON stringify statics.checkFileInfo checkfileInfo
      (answer, { statics with checkFileInfo := last })
  | .cssVarsToStyle cssVars =>
      let (answer, last) := cssVarsToStyle statics.cssVars cssVars
      (answer, { statics with cssVars := last })

def nextStatics (statics : Statics) (call : Call) : Statics := (answer stringify statics call).2

/-- The answer to the first call with this argument, computed without an early exit. -/
def freshAnswer : Call → Answer
  | .uiDefaultsToJSON uiDefaults _ _ =>
      let (json, uiMode) := computeUIDefaults stringify uiDefaults
      ⟨json, some (uiMode, (UIDefaults.read uiDefaults).uiTheme)⟩
  | .checkFileInfoToJSON checkfileInfo => ⟨computeCheckFileInfo stringify checkfileInfo, none⟩
  | .cssVarsToStyle cssVars => ⟨computeStyle cssVars, none⟩

/-- The call is answered as in a fresh process. -/
def IsFresh (statics : Statics) (call : Call) : Prop :=
  (answer stringify statics call).1 = freshAnswer stringify call

/-!
## Which calls are answered as in a fresh process
-/

/-- The theme of a token, if it sets one. -/
def themeOfToken (token : Text) : Option Text :=
  if (tokenize token '=')[0]? = some "UITheme".toList then some ((tokenize token '=').getD 1 [])
  else none

/-- The theme that is set last, or else the light one. -/
def themeOf (uiDefaults : Text) : Text :=
  ((tokenize uiDefaults ';').filterMap themeOfToken).getLast?.getD "light".toList

def Call.uiDefaults : Call → Option Text
  | .uiDefaultsToJSON uiDefaults _ _ => some uiDefaults
  | .checkFileInfoToJSON _ | .cssVarsToStyle _ => none

def Call.checkFileInfo : Call → Option Text
  | .checkFileInfoToJSON checkfileInfo => some checkfileInfo
  | .uiDefaultsToJSON _ _ _ | .cssVarsToStyle _ => none

def Call.cssVars : Call → Option Text
  | .cssVarsToStyle cssVars => some cssVars
  | .uiDefaultsToJSON _ _ _ | .checkFileInfoToJSON _ => none

/-- Where the defaults are those of the call before, the theme that is passed in is already the one
that they set; and where there are no variables, there were some before. -/
def AgreesWith (before : List Call) : Call → Prop
  | .uiDefaultsToJSON uiDefaults _ uiTheme =>
      uiDefaults = (before.filterMap Call.uiDefaults).getLast?.getD [] →
        uiTheme = themeOf uiDefaults
  | .checkFileInfoToJSON _ => True
  | .cssVarsToStyle cssVars =>
      cssVars = [] → ∃ other ∈ before.filterMap Call.cssVars, other ≠ []

variable {stringify}

theorem uiTheme_setComponent (defaults : UIDefaults) (keyValue : List Text) :
    (defaults.setComponent keyValue).uiTheme = defaults.uiTheme := by
  unfold UIDefaults.setComponent
  dsimp only
  split
  · rfl
  · split
    · rfl
    · split
      · rfl
      · split <;> rfl

/-- A token sets its theme, or leaves the theme as it is. -/
theorem uiTheme_readToken (defaults : UIDefaults) (token : Text) :
    (defaults.readToken token).uiTheme = (themeOfToken token).getD defaults.uiTheme := by
  have otherKey : some "UIMode".toList ≠ some "UITheme".toList := by decide
  unfold UIDefaults.readToken themeOfToken
  generalize tokenize token '=' = keyValue
  dsimp only
  by_cases isMode : keyValue[0]? = some "UIMode".toList
  · rw [if_pos isMode, isMode, if_neg otherKey]
    split
    · rfl
    · split <;> rfl
  · rw [if_neg isMode]
    have last (set : UIDefaults) :
        (if keyValue[0]? = some "SaveAsMode".toList then
          if keyValue[1]? = some "group".toList then
            { set with json := set.json.set "saveAsMode".toList (.text "group".toList) }
          else set
        else set.setComponent keyValue).uiTheme = set.uiTheme := by
      split
      · split <;> rfl
      · exact uiTheme_setComponent set keyValue
    rw [last]
    by_cases isTheme : keyValue[0]? = some "UITheme".toList
    · rw [if_pos isTheme, if_pos isTheme]
      rfl
    · rw [if_neg isTheme, if_neg isTheme]
      rfl

theorem uiTheme_read (uiDefaults : Text) :
    (UIDefaults.read uiDefaults).uiTheme = themeOf uiDefaults := by
  have folded (tokens : List Text) (defaults : UIDefaults) :
      (tokens.foldl UIDefaults.readToken defaults).uiTheme =
        (tokens.filterMap themeOfToken).getLast?.getD defaults.uiTheme := by
    induction tokens generalizing defaults with
    | nil => rfl
    | cons token tokens ih =>
        rw [List.foldl_cons, ih, uiTheme_readToken, List.filterMap_cons]
        cases themeOfToken token with
        | none => rfl
        | some theme =>
            rw [List.getLast?_cons]
            rfl
  exact folded _ _

/-- What the functions remember is said by the calls so far. -/
theorem run_nextStatics (statics : Statics) (calls : List Call) :
    run (nextStatics stringify) statics calls =
      { uiDefaults := statics.uiDefaults.after (computeUIDefaults stringify)
          (calls.filterMap Call.uiDefaults)
        checkFileInfo := statics.checkFileInfo.after (computeCheckFileInfo stringify)
          (calls.filterMap Call.checkFileInfo)
        cssVars := statics.cssVars.after computeStyle (calls.filterMap Call.cssVars) } := by
  induction calls generalizing statics with
  | nil => rfl
  | cons call calls ih =>
      have next : run (nextStatics stringify) statics (call :: calls) =
          run (nextStatics stringify) (nextStatics stringify statics call) calls := rfl
      rw [next, ih]
      cases call with
      | uiDefaultsToJSON uiDefaults uiMode uiTheme =>
          have same : (uiDefaultsToJSON stringify statics.uiDefaults uiDefaults uiMode uiTheme).2 =
              (statics.uiDefaults.call (computeUIDefaults stringify) uiDefaults).2 := by
            unfold uiDefaultsToJSON LastCall.call
            split <;> rfl
          have isNext : nextStatics stringify statics (.uiDefaultsToJSON uiDefaults uiMode uiTheme) =
              { statics with
                uiDefaults := (statics.uiDefaults.call (computeUIDefaults stringify) uiDefaults).2 } := by
            rw [← same]
            rfl
          rw [isNext]
          rfl
      | checkFileInfoToJSON => rfl
      | cssVarsToStyle => rfl

section Fresh

variable (emptyObject : stringify [] = "\x7b\x7d".toList) (before : List Call)

include emptyObject in
/-- The JSON and the mode are always right, the theme if it was right before the call. -/
theorem uiDefaults_isFresh_iff (uiDefaults uiMode uiTheme : Text) :
    IsFresh stringify (run (nextStatics stringify) .initial before)
        (.uiDefaultsToJSON uiDefaults uiMode uiTheme) ↔
      AgreesWith before (.uiDefaultsToJSON uiDefaults uiMode uiTheme) := by
  rw [run_nextStatics, AgreesWith]
  generalize before.filterMap Call.uiDefaults = args
  have initially : Statics.initial.uiDefaults.Valid (computeUIDefaults stringify) := by
    have nothing : computeUIDefaults stringify [] = (stringify [], []) := rfl
    rw [LastCall.Valid, Statics.initial]
    dsimp only
    rw [nothing, emptyObject]
  have valid := (LastCall.valid_after_iff args).mpr (.inl initially)
  have isPrevious := @LastCall.previous_after _ _ _ (computeUIDefaults stringify)
    Statics.initial.uiDefaults args
  unfold IsFresh answer freshAnswer uiDefaultsToJSON
  dsimp only
  generalize Statics.initial.uiDefaults.after (computeUIDefaults stringify) args = last
    at valid isPrevious
  rw [show args.getLast?.getD [] = last.previous from isPrevious.symm]
  by_cases same : uiDefaults = last.previous
  · rw [if_pos same, valid, ← same, ← uiTheme_read uiDefaults]
    constructor
    · intro isFresh _
      exact (Prod.mk.inj (Option.some.inj (Answer.mk.inj isFresh).2)).2
    · intro isTheme
      rw [isTheme rfl]
  · rw [if_neg same]
    exact iff_of_true rfl fun isSame => absurd isSame same

include emptyObject in
theorem checkFileInfo_isFresh (checkfileInfo : Text) :
    IsFresh stringify (run (nextStatics stringify) .initial before)
      (.checkFileInfoToJSON checkfileInfo) := by
  rw [run_nextStatics]
  have initially : Statics.initial.checkFileInfo.Valid (computeCheckFileInfo stringify) := by
    have nothing : computeCheckFileInfo stringify [] = stringify [] := rfl
    rw [LastCall.Valid, Statics.initial]
    dsimp only
    rw [nothing, emptyObject]
  have valid := (LastCall.valid_after_iff (before.filterMap Call.checkFileInfo)).mpr
    (.inl initially)
  exact congrArg (Answer.mk · none) (LastCall.call_eq_iff.mpr fun _ => valid)

theorem exists_ne_nil {args : List Text} (filled : args.getLast?.getD [] ≠ []) :
    ∃ other ∈ args, other ≠ [] := by
  cases isLast : args.getLast? with
  | none =>
      rw [isLast] at filled
      exact absurd rfl filled
  | some other =>
      rw [isLast] at filled
      exact ⟨other, List.mem_of_getLast? isLast, filled⟩

/-- What is remembered at first is no style. -/
theorem cssVars_isFresh_iff (cssVars : Text) :
    IsFresh stringify (run (nextStatics stringify) .initial before) (.cssVarsToStyle cssVars) ↔
      AgreesWith before (.cssVarsToStyle cssVars) := by
  rw [run_nextStatics, AgreesWith]
  generalize before.filterMap Call.cssVars = args
  have isReturned : IsFresh stringify
      { uiDefaults := Statics.initial.uiDefaults.after (computeUIDefaults stringify)
          (before.filterMap Call.uiDefaults)
        checkFileInfo := Statics.initial.checkFileInfo.after (computeCheckFileInfo stringify)
          (before.filterMap Call.checkFileInfo)
        cssVars := Statics.initial.cssVars.after computeStyle args } (.cssVarsToStyle cssVars) ↔
      ((Statics.initial.cssVars.after computeStyle args).call computeStyle cssVars).1 =
        computeStyle cssVars :=
    ⟨congrArg Answer.returned, congrArg (Answer.mk · none)⟩
  have noStyle : ¬ Statics.initial.cssVars.Valid computeStyle := by
    unfold LastCall.Valid
    decide
  rw [isReturned, LastCall.call_eq_iff, LastCall.previous_after, LastCall.valid_after_iff,
    or_iff_right noStyle]
  constructor
  · intro isKept noVars
    by_cases same : cssVars = args.getLast?.getD []
    · exact isKept same
    · exact exists_ne_nil fun isNil => same (noVars.trans isNil.symm)
  · intro isKept same
    by_cases noVars : cssVars = []
    · exact isKept noVars
    · exact exists_ne_nil fun isNil => noVars (same.trans isNil)

end Fresh

/-- Every call is answered as in a fresh process exactly when each one agrees with those before. -/
theorem isFresh_iff (emptyObject : stringify [] = "\x7b\x7d".toList) (calls : List Call) :
    Permitted (nextStatics stringify) (IsFresh stringify) .initial calls ↔
      ∀ before call after, calls = before ++ call :: after → AgreesWith before call := by
  rw [permitted_iff_forall]
  refine forall₂_congr fun before call => forall₂_congr fun _ _ => ?_
  cases call with
  | uiDefaultsToJSON => exact uiDefaults_isFresh_iff emptyObject before _ _ _
  | checkFileInfoToJSON => exact iff_of_true (checkFileInfo_isFresh emptyObject before _) trivial
  | cssVarsToStyle => exact cssVars_isFresh_iff before _

end Functions

/-!
## Two pages with the same settings
-/

/-- The objects of the settings without blanks. -/
def compactFields {Value : Type} (print : Value → Text) (fields : JsonFields Value) : Text :=
  '\x7b' :: [','].intercalate (fields.map fun field =>
    '"' :: field.1 ++ '"' :: ':' :: print field.2) ++ ['\x7d']

def compact : JsonObject → Text :=
  compactFields fun value =>
    match value with
    | .text value => '"' :: value ++ ['"']
    | .bool value => (toString value).toList
    | .defs fields => compactFields (fun value => (toString value).toList) fields

/-- The dark theme, for a page with this theme so far. -/
def darkTheme (uiTheme : Text) : Call :=
  .uiDefaultsToJSON "UITheme=dark".toList [] uiTheme

theorem isFresh_darkTheme :
    Permitted (nextStatics compact) (IsFresh compact) .initial
      [darkTheme [], darkTheme "dark".toList] := by
  refine (isFresh_iff rfl [darkTheme [], darkTheme "dark".toList]).mpr ?_
  intro before call after split
  cases before with
  | nil =>
      cases split
      intro same
      exact absurd same (by decide)
  | cons first before =>
      obtain ⟨isFirst, split⟩ := List.cons.inj split
      cases before with
      | nil =>
          cases split
          intro _
          decide +kernel
      | cons second before =>
          have noMore := congrArg List.length split
          simp at noMore

/-- The theme is not remembered: the second page gets none. -/
theorem not_isFresh_darkTheme :
    ¬ ∀ (stringify : JsonObject → Text), stringify [] = "\x7b\x7d".toList →
      ∀ calls : List Call, Permitted (nextStatics stringify) (IsFresh stringify) .initial calls := by
  intro all
  have permitted := all compact rfl [darkTheme [], darkTheme []]
  have second : (answer compact (nextStatics compact .initial (darkTheme [])) (darkTheme [])).1 =
      freshAnswer compact (darkTheme []) := permitted.2.1
  have outputs := congrArg Answer.outputs second
  exact absurd outputs (by decide +kernel)

end FreeOnline.Wsd
