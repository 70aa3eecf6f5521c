import FreeOnline.Browser.HexString
import FreeOnline.Common.InputMessages
import FreeOnline.Library.PercentCoding

/-!
# The hidden text area

What is typed goes into a text area of the browser. The text input compares what is there with what
was there before, and sends what has to be removed and what has to be inserted in the document.
-/

set_option autoImplicit false

namespace FreeOnline.Browser

open FreeOnline.Common
open FreeOnline.Library
open HexString

/-!
## Code points
-/

def getValueAsCodePoints : JsString → List Nat
  | [] => []
  | [unit] => [unit.toNat]
  | unit :: next :: rest =>
      if Utf16.isLead unit then
        ((unit.toNat - 0xd800) * 0x400 + 0x10000 + next.toNat - 0xdc00) :: getValueAsCodePoints rest
      else unit.toNat :: getValueAsCodePoints (next :: rest)

def codePointsToString (codePoints : List Nat) : JsString :=
  codePoints.flatMap fun codePoint =>
    if codePoint ≤ 0xffff then [UInt16.ofNat codePoint]
    else
      [UInt16.ofNat ((codePoint - 0x10000) / 0x400 + 0xd800),
        UInt16.ofNat ((codePoint - 0x10000) % 0x400 + 0xdc00)]

/-- Letters, digits and some marks. -/
def isUnescaped (byte : UInt8) : Bool :=
  (48 ≤ byte && byte ≤ 57) || (65 ≤ byte && byte ≤ 90) || (97 ≤ byte && byte ≤ 122) ||
    "-_.!~*'()".toList.any (·.toNat = byte.toNat)

/-- `encodeURIComponent`, which throws at half a surrogate pair. -/
def encodeURIComponent (string : JsString) : Option Text :=
  if Utf16.isWellFormed string then
    some (PercentCoding.encode isUnescaped (encodeBytes string))
  else none

/-!
## Messages
-/

inductive KeyType where
  | input
  | up
deriving DecidableEq

inductive TypedMessage where
  | textinput (text : Text)
  | removetextcontext (before after : Int)
  | key (type : KeyType) (charCode unoKeyCode : Option Nat)
deriving DecidableEq

/-- The browser's device, the type of the document, and where the focus is. -/
structure InputMode where
  /-- a phone or a tablet -/
  isHandheld : Bool
  isSpreadsheet : Bool
  winId : Nat
  editorHasFocus : Bool

def KeyType.name : KeyType → Text
  | .input => "input".toList
  | .up => "up".toList

def printCode : Option Nat → Text
  | some code => printInt code
  | none => "undefined".toList

/-!
## The text area
-/

inductive DeleteHint where
  | none
  | delete
  | backspace
deriving DecidableEq

inductive InputType where
  | deleteContentForward
  | deleteContentBackward
  | insertText
  | other
deriving DecidableEq

/-- The state of the text area at an event, as the browser has left it. -/
structure InputEvent where
  inputType : Option InputType
  value : JsString
  hasPreSpace : Bool
  hasPostSpace : Bool

structure TextInput where
  lastContent : List Nat
  deleteHint : DeleteHint
  newlineHint : Bool
  linebreakHint : Bool
  ignoreNextBackspace : Bool
  isComposing : Bool

/-- What goes as keys where corrections are made automatically: the character and the code of its
key when it is released. -/
def autoCorrectChars : List (UInt16 × Nat) :=
  [(32, 1284), (33, 4353), (34, 4353), (37, 4357), (39, 192), (42, 4360), (44, 1291), (45, 1288),
    (46, 190), (47, 191), (58, 5413), (59, 1317), (63, 4287), (95, 5384)]

/-- What an object of characters has besides them. -/
def inheritedNames : List JsString :=
  ["constructor", "hasOwnProperty", "isPrototypeOf", "propertyIsEnumerable", "toLocaleString",
    "toString", "valueOf", "__defineGetter__", "__defineSetter__", "__lookupGetter__",
    "__lookupSetter__", "__proto__"].map fun name => Utf16.encode name.toList

/-- The codes of the key that types a text, and of the key that is released. -/
def autoCorrectCodes (text : JsString) : Option (Option Nat × Option Nat × Option Nat × Option Nat) :=
  match text with
  | [unit] => (autoCorrectChars.find? (·.1 = unit)).map fun (char, released) =>
      (some char.toNat, some 0, some 0, some released)
  | text => if text ∈ inheritedNames then some (none, none, none, none) else none

/-- Nothing is sent where the text cannot be encoded. -/
def sendCompositionEvent (mode : InputMode) (text : JsString) : List TypedMessage :=
  match if mode.isHandheld then none else autoCorrectCodes text with
  | some (char, key, charUp, keyUp) => [.key .input char key, .key .up charUp keyUp]
  | none => ((encodeURIComponent text).map TypedMessage.textinput).toList

/-- How many code points at the front are the same. -/
def matchTo : List Nat → List Nat → Nat
  | first :: content, last :: lastContent =>
      if first = last then matchTo content lastContent + 1 else 0
  | _, _ => 0

def isBreak (unit : UInt16) : Bool := unit = 10 || unit = 13

/-- The parts of a text that has line breaks, with a key in front of each but the first. -/
def sendParts (mode : InputMode) : List JsString → List TypedMessage
  | [] => []
  | part :: parts =>
      let typed := fun part : JsString => if part = [] then [] else sendCompositionEvent mode part
      typed part ++ parts.flatMap fun part => .key .input (some 13) (some 1280) :: typed part

namespace TextInput

def emptyArea (state : TextInput) : TextInput :=
  { state with lastContent := [] }

def sendNewlineEvent (state : TextInput) : List TypedMessage × TextInput :=
  ([.key .input (some 13) (some (if state.linebreakHint then 5376 else 1280))],
    { state with newlineHint := false }.emptyArea)

def sendText (mode : InputMode) (state : TextInput) (text : JsString) :
    List TypedMessage × TextInput :=
  if text = [10] ∨ text = [13] then state.sendNewlineEvent
  else
    let parts := text.splitOnP isBreak
    (sendParts mode parts, if parts.length > 1 then state.emptyArea else state)

/-- A cell in percent gets its sign with the first digit, which goes as a key. -/
def sendNew (mode : InputMode) (state : TextInput) (inputType : Option InputType)
    (content : List Nat) : List Nat → List TypedMessage × TextInput
  | [] => ([], state)
  | [codePoint] =>
      if mode.isSpreadsheet = true ∧ content.length = 1 ∧ inputType = some .insertText ∧
          (48 ≤ codePoint ∧ codePoint ≤ 57) ∧ mode.isHandheld = false then
        ([.key .input (some codePoint) (some (codePoint + 48))], state)
      else state.sendText mode (codePointsToString [codePoint])
  | newText => state.sendText mode (codePointsToString newText)

/-- The part of `_onInput` that compares the contents. -/
def compare (mode : InputMode) (state : TextInput) (inputType : Option InputType)
    (content : List Nat) : List TypedMessage × TextInput :=
  let shared := matchTo content state.lastContent
  let isDelete := decide (state.lastContent.length > content.length) && state.deleteHint = .delete
  let removeAfter : Int := if isDelete then 1 else 0
  let removeBefore : Int := state.lastContent.length - shared - removeAfter
  let removal := if removeBefore > 0 ∨ removeAfter > 0 then
      [TypedMessage.removetextcontext removeBefore removeAfter] else []
  let sent := { state with lastContent := content }.sendNew mode inputType content
    (content.drop shared)
  (removal ++ sent.1, if removeAfter > 0 then sent.2.emptyArea else sent.2)

def hinted (state : TextInput) : Option InputType → TextInput
  | none => state
  | some .deleteContentForward => { state with deleteHint := .delete }
  | some .deleteContentBackward => { state with deleteHint := .backspace }
  | some _ => { state with deleteHint := .none }

def onInput (mode : InputMode) (state : TextInput) (event : InputEvent) :
    List TypedMessage × TextInput :=
  let ignoreBackspace := state.ignoreNextBackspace
  let state : TextInput := { state.hinted event.inputType with ignoreNextBackspace := false }
  if state.newlineHint = true then state.sendNewlineEvent
  else if event.hasPreSpace = false then
    (if ignoreBackspace then [] else [.removetextcontext 1 0], state.emptyArea)
  else if event.hasPostSpace = false then ([.removetextcontext 0 1], state.emptyArea)
  else state.compare mode event.inputType (getValueAsCodePoints event.value)

end TextInput

/-- Whether the selection of the text area can be asked for, whether it is of any use, and whether
it is at the beginning of an area that has nothing in it. -/
structure SelectionState where
  hasWorkingSelectionStart : Bool
  isSelectionValid : Bool
  isAtBeginning : Bool

inductive TypeEvent where
  | keyDown (keyCode : Nat) (shiftKey : Bool)
  | keyUp (isNavigation : Bool)
  | beforeInput (selection : SelectionState) (inputType : Option InputType)
  | compositionStart
  | compositionEnd (endsLine : Bool) (event : InputEvent)
  | abortComposition
  | input (event : InputEvent)

namespace TextInput

def onBeforeInput (state : TextInput) (selection : SelectionState) (inputType : Option InputType) :
    List TypedMessage × TextInput :=
  let state : TextInput := { state with ignoreNextBackspace := false }
  if selection.hasWorkingSelectionStart = false then ([], state)
  else if selection.isSelectionValid = false then ([], state.emptyArea)
  else if selection.isAtBeginning = false then ([], state)
  else if inputType = some .deleteContentBackward then
    ([.removetextcontext 1 0], { state with ignoreNextBackspace := true }.emptyArea)
  else ([], state.emptyArea)

def handle (mode : InputMode) (state : TextInput) : TypeEvent → List TypedMessage × TextInput
  | .keyDown keyCode shiftKey =>
      ([], { state with
        deleteHint := if keyCode = 8 then .backspace else if keyCode = 46 then .delete else .none
        newlineHint := keyCode = 13
        linebreakHint := keyCode = 13 && shiftKey })
  | .keyUp isNavigation =>
      ([], if state.isComposing = false ∧ isNavigation = true then state.emptyArea else state)
  | .beforeInput selection inputType => state.onBeforeInput selection inputType
  | .compositionStart => ([], { state with isComposing := true })
  | .compositionEnd endsLine event =>
      let ended := { state with isComposing := false }
      (if endsLine then { ended with newlineHint := true } else ended).onInput mode event
  | .abortComposition => ([], { state with isComposing := false }.emptyArea)
  | .input event => state.onInput mode event

def start : TextInput := ⟨[], .none, false, false, false, false⟩

end TextInput

/-!
## What the kit makes of a text
-/

/-- What `ChildSession::extTextInputEvent` inserts: the bytes up to a zero. -/
def receivedText (text : Text) : Text :=
  match PercentCoding.decode text with
  | none => []
  | some chars => Utf8.decode ((chars.map fun ch => UInt8.ofNat ch.toNat).takeWhile (· ≠ 0))

section

variable {text : Text}

theorem codePointsToString_map (text : Text) :
    codePointsToString (text.map Char.toNat) = Utf16.encode text := by
  unfold codePointsToString Utf16.encode
  rw [List.flatMap_map]
  apply List.flatMap_congr
  intro ch _
  unfold Utf16.encodeChar
  simp only [Nat.lt_iff_le_pred (show 0 < 0x10000 by decide), Nat.add_comm]

private theorem getValueAsCodePoints_unit {unit : UInt16} (notLead : Utf16.isLead unit = false)
    (units : JsString) :
    getValueAsCodePoints (unit :: units) = unit.toNat :: getValueAsCodePoints units := by
  cases units with
  | nil => rfl
  | cons next rest => rw [getValueAsCodePoints, notLead, if_neg Bool.false_ne_true]

theorem getValueAsCodePoints_encodeChar (ch : Char) (units : JsString) :
    getValueAsCodePoints (Utf16.encodeChar ch ++ units) =
      ch.toNat :: getValueAsCodePoints units := by
  have bounds := Utf16.toNat_bounds ch
  unfold Utf16.encodeChar
  split
  next small =>
    have isUnit : (UInt16.ofNat ch.toNat).toNat = ch.toNat := Utf16.toNat_ofNat small
    have notLead : Utf16.isLead (UInt16.ofNat ch.toNat) = false := by
      simp only [Utf16.isLead, isUnit, Bool.and_eq_false_iff, decide_eq_false_iff_not]
      omega
    rw [List.singleton_append, getValueAsCodePoints_unit notLead, isUnit]
  next large =>
    have lead := @Utf16.toNat_ofNat (0xd800 + (ch.toNat - 0x10000) / 0x400) (by omega)
    have trail := @Utf16.toNat_ofNat (0xdc00 + (ch.toNat - 0x10000) % 0x400) (by omega)
    have isLead : Utf16.isLead (UInt16.ofNat (0xd800 + (ch.toNat - 0x10000) / 0x400)) = true := by
      simp only [Utf16.isLead, lead, Bool.and_eq_true, decide_eq_true_eq]
      omega
    have isSum : (0xd800 + (ch.toNat - 0x10000) / 0x400 - 0xd800) * 0x400 + 0x10000 +
        (0xdc00 + (ch.toNat - 0x10000) % 0x400) - 0xdc00 = ch.toNat := by omega
    rw [List.cons_append, List.singleton_append, getValueAsCodePoints, if_pos isLead, lead, trail,
      isSum]

theorem getValueAsCodePoints_encode (text : Text) :
    getValueAsCodePoints (Utf16.encode text) = text.map Char.toNat := by
  induction text with
  | nil => rfl
  | cons ch text ih =>
      rw [Utf16.encode_cons, getValueAsCodePoints_encodeChar, ih, List.map_cons]

/-- The kit inserts what was typed. -/
theorem receivedText_encodeURIComponent (noNul : '\x00' ∉ text) :
    ∃ encoded, encodeURIComponent (Utf16.encode text) = some encoded ∧
      receivedText encoded = text := by
  have isWellFormed : Utf16.isWellFormed (Utf16.encode text) = true :=
    (Utf16.encode_decode_iff _).mp (congrArg Utf16.encode (Utf16.decode_encode text))
  refine ⟨_, if_pos isWellFormed, ?_⟩
  have notPercent : isUnescaped 37 = false := by decide
  have areBytes : ((encodeBytes (Utf16.encode text)).map fun byte => Char.ofNat byte.toNat).map
      (fun ch => UInt8.ofNat ch.toNat) = Utf8.encode text := by
    rw [encodeBytes, Utf16.decode_encode, List.map_map]
    apply List.map_id''
    intro byte
    have isValid : byte.toNat.isValidChar := .inl (Nat.lt_trans byte.toNat_lt (by decide))
    dsimp only [Function.comp_apply]
    rw [toNat_charOfNat isValid, UInt8.ofNat_toNat]
  have noZero : (Utf8.encode text).takeWhile (· ≠ 0) = Utf8.encode text := by
    rw [List.takeWhile_eq_self_iff]
    have positive : ∀ ch ∈ text, 1 ≤ ch.toNat := by
      intro ch isChar
      apply Nat.one_le_iff_ne_zero.mpr
      intro isZero
      have isNul : ch = '\x00' := Char.toNat_inj.mp isZero
      exact noNul (isNul ▸ isChar)
    intro byte isByte
    have isPositive := (Utf8.forall_le_encode_iff (by decide) text).mpr positive byte isByte
    apply decide_eq_true
    intro isZero
    rw [isZero] at isPositive
    exact absurd isPositive (by decide)
  rw [receivedText, PercentCoding.decode_encode notPercent]
  dsimp only
  rw [areBytes, noZero, Utf8.decode_encode]

end

/-!
## What the document becomes
-/

/-- What a message does to the window, where `act` is what keys do. -/
def TypedMessage.perform (act : TypedMessage → WindowText → WindowText) (window : WindowText) :
    TypedMessage → WindowText
  | .textinput text => window.insert (receivedText text)
  | .removetextcontext before after => window.remove before.toNat after.toNat
  | .key type charCode unoKeyCode => act (.key type charCode unoKeyCode) window

/-- The keys of characters type them, and no auto-correction changes what was typed. -/
structure KeysType (act : TypedMessage → WindowText → WindowText) : Prop where
  input : ∀ window charCode unoKeyCode, 32 ≤ charCode →
    act (.key .input (some charCode) (some unoKeyCode)) window = window.insert [Char.ofNat charCode]
  up : ∀ window unoKeyCode, act (.key .up (some 0) (some unoKeyCode)) window = window

section

variable {act : TypedMessage → WindowText → WindowText} {mode : InputMode} {state : TextInput}
  {text area front after : Text}

def performAll (act : TypedMessage → WindowText → WindowText) (window : WindowText)
    (messages : List TypedMessage) : WindowText :=
  messages.foldl (TypedMessage.perform act) window

theorem matchTo_take (content lastContent : List Nat) :
    content.take (matchTo content lastContent) = lastContent.take (matchTo content lastContent) := by
  induction content generalizing lastContent with
  | nil => simp [matchTo]
  | cons first content ih =>
      cases lastContent with
      | nil => simp [matchTo]
      | cons last lastContent =>
          unfold matchTo
          split
          next same => rw [List.take_succ_cons, List.take_succ_cons, ih, same]
          next => rfl

theorem matchTo_le (content lastContent : List Nat) :
    matchTo content lastContent ≤ lastContent.length := by
  induction content generalizing lastContent with
  | nil => exact Nat.zero_le _
  | cons first content ih =>
      cases lastContent with
      | nil => exact Nat.le_refl 0
      | cons last lastContent =>
          unfold matchTo
          split
          next => exact Nat.succ_le_succ (ih lastContent)
          next => exact Nat.zero_le _

theorem autoCorrectCodes_some {string : JsString}
    {codes : Option Nat × Option Nat × Option Nat × Option Nat}
    (notInherited : string ∉ inheritedNames) (isKey : autoCorrectCodes string = some codes) :
    ∃ char released, string = [char] ∧ (32 ≤ char.toNat ∧ char.toNat < 128) ∧
      codes = (some char.toNat, some 0, some 0, some released) := by
  have areSmall : ∀ entry ∈ autoCorrectChars, 32 ≤ entry.1.toNat ∧ entry.1.toNat < 128 := by
    decide
  unfold autoCorrectCodes at isKey
  split at isKey
  next unit =>
    obtain ⟨⟨char, released⟩, isFound, isCodes⟩ := Option.map_eq_some_iff.mp isKey
    have same : char = unit := by simpa using List.find?_some isFound
    exact ⟨char, released, congrArg (fun unit => [unit]) same.symm,
      areSmall _ (List.mem_of_find?_eq_some isFound), isCodes.symm⟩
  next =>
    rw [if_neg notInherited] at isKey
    cases isKey

/-- A text that stands for something else where the characters are looked up. -/
def IsInherited (mode : InputMode) (text : Text) : Prop :=
  mode.isHandheld = false ∧ Utf16.encode text ∈ inheritedNames

/-- A text that is sent is inserted, be it with keys or without. -/
theorem performAll_sendCompositionEvent (keysType : KeysType act) (noNul : '\x00' ∉ text)
    (notInherited : ¬IsInherited mode text) (window : WindowText) :
    performAll act window (sendCompositionEvent mode (Utf16.encode text)) = window.insert text := by
  unfold sendCompositionEvent
  split
  next charKey key charUp keyUp isKey =>
    have isCorrected : mode.isHandheld = false ∧
        autoCorrectCodes (Utf16.encode text) = some (charKey, key, charUp, keyUp) := by
      split at isKey
      next => cases isKey
      next notHandheld => exact ⟨Bool.eq_false_iff.mpr notHandheld, isKey⟩
    obtain ⟨char, released, isUnit, ⟨isVisible, isSmall⟩, isCodes⟩ :=
      autoCorrectCodes_some (fun isName => notInherited ⟨isCorrected.1, isName⟩) isCorrected.2
    cases isCodes
    have notHalf : (Utf16.isLead char || Utf16.isTrail char) = false := by
      simp only [Utf16.isLead, Utf16.isTrail, Bool.or_eq_false_iff, Bool.and_eq_false_iff,
        decide_eq_false_iff_not]
      omega
    have isText : text = [Char.ofNat char.toNat] := by
      have isDecoded := Utf16.decode_encode text
      rw [isUnit, Utf16.decode, Utf16.unitChar, notHalf, if_neg Bool.false_ne_true] at isDecoded
      exact isDecoded.symm
    rw [isText]
    simp only [performAll, List.foldl_cons, List.foldl_nil, TypedMessage.perform]
    rw [keysType.up, keysType.input _ _ _ isVisible]
  next =>
    obtain ⟨encoded, isEncoded, isReceived⟩ := receivedText_encodeURIComponent noNul
    rw [isEncoded, Option.map_some, Option.toList_some]
    exact congrArg window.insert isReceived

/-- A text that is not broken into lines. -/
def OneLine (text : Text) : Prop := '\n' ∉ text ∧ '\r' ∉ text

theorem isBreak_of_mem (oneLine : OneLine text) {unit : UInt16}
    (isUnit : unit ∈ Utf16.encode text) : isBreak unit = false := by
  obtain ⟨ch, isChar, isPart⟩ := List.mem_flatMap.mp isUnit
  have bounds := Utf16.toNat_bounds ch
  unfold Utf16.encodeChar at isPart
  unfold isBreak
  rw [Bool.or_eq_false_iff, decide_eq_false_iff_not, decide_eq_false_iff_not]
  split at isPart
  next small =>
    obtain rfl := List.mem_singleton.mp isPart
    have isCode := Utf16.toNat_ofNat small
    constructor
    · intro isNewline
      have same : ch.toNat = '\n'.toNat := isCode.symm.trans (congrArg UInt16.toNat isNewline)
      exact oneLine.1 (Char.toNat_inj.mp same ▸ isChar)
    · intro isReturn
      have same : ch.toNat = '\r'.toNat := isCode.symm.trans (congrArg UInt16.toNat isReturn)
      exact oneLine.2 (Char.toNat_inj.mp same ▸ isChar)
  next =>
    have isLarge : 0xd800 ≤ unit.toNat := by
      rw [List.mem_cons, List.mem_singleton] at isPart
      cases isPart with
      | inl isLead =>
          rw [isLead, Utf16.toNat_ofNat (by omega)]
          omega
      | inr isTrail =>
          rw [isTrail, Utf16.toNat_ofNat (by omega)]
          omega
    constructor
    · rintro rfl
      exact absurd isLarge (by decide)
    · rintro rfl
      exact absurd isLarge (by decide)

theorem sendText_oneLine (oneLine : OneLine text) (notNil : text ≠ []) :
    state.sendText mode (Utf16.encode text) =
      (sendCompositionEvent mode (Utf16.encode text), state) := by
  have noBreak : ∀ unit ∈ Utf16.encode text, isBreak unit = false :=
    fun unit isUnit => isBreak_of_mem oneLine isUnit
  have encodedNotNil : Utf16.encode text ≠ [] := by
    intro isNil
    exact notNil ((Utf16.decode_encode text).symm.trans (congrArg Utf16.decode isNil))
  have notNewline : ¬(Utf16.encode text = [10] ∨ Utf16.encode text = [13]) := by
    rintro (isNewline | isReturn)
    · exact absurd (noBreak 10 (isNewline ▸ List.mem_cons_self)) (by decide)
    · exact absurd (noBreak 13 (isReturn ▸ List.mem_cons_self)) (by decide)
  have isWhole : (Utf16.encode text).splitOnP isBreak = [Utf16.encode text] :=
    List.splitOnP_eq_singleton noBreak
  unfold TextInput.sendText
  rw [if_neg notNewline, isWhole]
  simp [sendParts, encodedNotNil]

/-- After a line break nothing of the area is kept. -/
theorem sendText_lines (notOneLine : ¬OneLine text) :
    (state.sendText mode (Utf16.encode text)).2.lastContent = [] := by
  have isBroken : ∃ unit ∈ Utf16.encode text, isBreak unit = true := by
    by_cases hasNewline : '\n' ∈ text
    · exact ⟨10, List.mem_flatMap.mpr ⟨'\n', hasNewline, by decide⟩, by decide⟩
    · have hasReturn : '\r' ∈ text := by
        by_contra noReturn
        exact notOneLine ⟨hasNewline, noReturn⟩
      exact ⟨13, List.mem_flatMap.mpr ⟨'\r', hasReturn, by decide⟩, by decide⟩
  obtain ⟨unit, isUnit, isBreak⟩ := isBroken
  obtain ⟨before, behind, isSplit⟩ := List.append_of_mem isUnit
  have isLong : ((Utf16.encode text).splitOnP Browser.isBreak).length > 1 := by
    rw [isSplit, List.splitOnP_append_cons before behind isBreak, List.length_append]
    have first := List.length_pos_of_ne_nil (List.splitOnP_ne_nil Browser.isBreak before)
    have second := List.length_pos_of_ne_nil (List.splitOnP_ne_nil Browser.isBreak behind)
    omega
  unfold TextInput.sendText
  split
  next => rfl
  next => exact congrArg TextInput.lastContent (if_pos isLong)

theorem remove_area (shared : Nat) (within : shared ≤ area.length) :
    WindowText.remove ⟨front ++ area, after⟩ (area.length - shared) 0 =
      ⟨front ++ area.take shared, after⟩ := by
  have isLength : (front ++ area).length - (area.length - shared) = front.length + shared := by
    rw [List.length_append]
    omega
  simp only [WindowText.remove, isLength, List.take_length_add_append, List.drop_zero]

theorem sendNew_oneLine (keysType : KeysType act) (noNul : '\x00' ∉ text) (oneLine : OneLine text)
    (notInherited : ¬IsInherited mode text) (inputType : Option InputType) (content : List Nat)
    (window : WindowText) :
    performAll act window (state.sendNew mode inputType content (text.map Char.toNat)).1 =
        window.insert text ∧
      (state.sendNew mode inputType content (text.map Char.toNat)).2 = state := by
  have isSent : text ≠ [] → performAll act window
      (state.sendText mode (codePointsToString (text.map Char.toNat))).1 = window.insert text ∧
      (state.sendText mode (codePointsToString (text.map Char.toNat))).2 = state := by
    intro notNil
    rw [codePointsToString_map, sendText_oneLine oneLine notNil]
    exact ⟨performAll_sendCompositionEvent keysType noNul notInherited window, rfl⟩
  cases text with
  | nil => exact ⟨by simp [TextInput.sendNew, performAll, WindowText.insert], rfl⟩
  | cons ch rest =>
      cases rest with
      | cons next rest => exact isSent (List.cons_ne_nil _ _)
      | nil =>
          simp only [List.map_cons, List.map_nil, TextInput.sendNew] at isSent ⊢
          split
          next isKey =>
            refine ⟨?_, rfl⟩
            have isTyped := keysType.input window ch.toNat (ch.toNat + 48) (by omega)
            rw [Char.ofNat_toNat] at isTyped
            exact isTyped
          next => exact isSent (List.cons_ne_nil _ _)

/-- The text behind what was in the area before. -/
def newText (state : TextInput) (text : Text) : Text :=
  text.drop (matchTo (text.map Char.toNat) state.lastContent)

/-- What the area has is written in the document in the place of what it had. -/
theorem performAll_compare (keysType : KeysType act) (noNul : '\x00' ∉ text)
    (isArea : state.lastContent = area.map Char.toNat) (inputType : Option InputType)
    (notDelete : state.lastContent.length ≤ text.length ∨ state.deleteHint ≠ .delete)
    (oneLine : OneLine (newText state text)) (notInherited : ¬IsInherited mode (newText state text)) :
    performAll act ⟨front ++ area, after⟩
        (state.compare mode inputType (text.map Char.toNat)).1 = ⟨front ++ text, after⟩ ∧
      (state.compare mode inputType (text.map Char.toNat)).2.lastContent = text.map Char.toNat := by
  have isKept : (decide (state.lastContent.length > (text.map Char.toNat).length) &&
      decide (state.deleteHint = .delete)) = false := by
    rw [List.length_map, Bool.and_eq_false_iff, decide_eq_false_iff_not, decide_eq_false_iff_not]
    exact notDelete.imp_left Nat.not_lt.mpr
  have within := matchTo_le (text.map Char.toNat) state.lastContent
  have sameFront := matchTo_take (text.map Char.toNat) state.lastContent
  unfold TextInput.compare
  unfold newText at oneLine notInherited
  revert within sameFront oneLine notInherited
  generalize matchTo (text.map Char.toNat) state.lastContent = shared
  intro oneLine notInherited within sameFront
  have isFront : text.take shared = area.take shared := by
    rw [isArea, ← List.map_take, ← List.map_take] at sameFront
    exact List.map_injective_iff.mpr (fun _ _ => Char.toNat_inj.mp) sameFront
  have noNewNul : '\x00' ∉ text.drop shared := fun isThere => noNul (List.mem_of_mem_drop isThere)
  have isLength : state.lastContent.length = area.length := by rw [isArea, List.length_map]
  rw [isLength] at within
  obtain ⟨isInserted, isState⟩ := @sendNew_oneLine act mode
    { state with lastContent := text.map Char.toNat } _ keysType noNewNul oneLine notInherited
    inputType (text.map Char.toNat) ⟨front ++ area.take shared, after⟩
  simp only [isKept, Bool.false_eq_true, if_false, Int.sub_zero]
  simp only [gt_iff_lt, lt_self_iff_false, or_false, if_false, isLength, ← List.map_drop]
  refine ⟨?_, congrArg TextInput.lastContent isState⟩
  rw [performAll, List.foldl_append]
  have isRemoved : List.foldl (TypedMessage.perform act) ⟨front ++ area, after⟩
      (if (0 : Int) < area.length - shared then
        [TypedMessage.removetextcontext (area.length - shared) 0] else []) =
      ⟨front ++ area.take shared, after⟩ := by
    split
    next =>
      have isCount : ((area.length : Int) - shared).toNat = area.length - shared := by omega
      simp only [List.foldl_cons, List.foldl_nil, TypedMessage.perform, isCount, Int.toNat_zero]
      exact remove_area shared within
    next =>
      have isAll : area.take shared = area := List.take_of_length_le (by omega)
      rw [isAll]
      rfl
  rw [isRemoved]
  refine isInserted.trans ?_
  rw [WindowText.insert, ← isFront, List.append_assoc, List.take_append_drop]

theorem sendNew_lines (notOneLine : ¬OneLine text) (inputType : Option InputType)
    (content : List Nat) :
    (state.sendNew mode inputType content (text.map Char.toNat)).2.lastContent = [] := by
  have isEmpty : (state.sendText mode (codePointsToString (text.map Char.toNat))).2.lastContent = [] := by
    rw [codePointsToString_map]
    exact sendText_lines notOneLine
  cases text with
  | nil => exact absurd ⟨List.not_mem_nil, List.not_mem_nil⟩ notOneLine
  | cons ch rest =>
      cases rest with
      | cons next rest => exact isEmpty
      | nil =>
          simp only [List.map_cons, List.map_nil, TextInput.sendNew] at isEmpty ⊢
          split
          next isKey =>
            refine absurd ⟨?_, ?_⟩ notOneLine
            all_goals
              intro isThere
              obtain rfl := List.mem_singleton.mp isThere
              exact absurd isKey.2.2.2.1.1 (by decide)
          next => exact isEmpty

end

/-!
## Typing
-/

/-- The text input and the window that its messages are for. -/
structure Typing where
  input : TextInput
  window : WindowText

namespace Typing

variable {act : TypedMessage → WindowText → WindowText} {mode : InputMode} {typing : Typing}
  {text : Text} {events : List TypeEvent}

def step (mode : InputMode) (act : TypedMessage → WindowText → WindowText) (typing : Typing)
    (event : TypeEvent) : Typing :=
  let result := typing.input.handle mode event
  ⟨result.2, performAll act typing.window result.1⟩

/-- What the text input knows stands in front of the cursor of the window. -/
def Tracks (typing : Typing) : Prop :=
  ∃ front area : Text, typing.input.lastContent = area.map Char.toNat ∧
    typing.window.before = front ++ area

/-- The value of the text area has no half of a character and no zero, and what is new in it can be
sent. -/
def IsValue (mode : InputMode) (state : TextInput) (value : JsString) : Prop :=
  ∃ text, value = Utf16.encode text ∧ '\x00' ∉ text ∧ ¬IsInherited mode (newText state text)

def Allowed (mode : InputMode) (typing : Typing) : TypeEvent → Prop
  | .input event | .compositionEnd _ event => IsValue mode typing.input event.value
  | _ => True

/-- The text area has this text now, and neither the deletion of what is around it nor a line break
is meant. -/
structure IsPlain (mode : InputMode) (state : TextInput) (event : InputEvent) (text : Text) :
    Prop where
  isValue : event.value = Utf16.encode text
  noNul : '\x00' ∉ text
  noNewline : state.newlineHint = false
  hasPreSpace : event.hasPreSpace = true
  hasPostSpace : event.hasPostSpace = true
  notDelete : state.lastContent.length ≤ text.length ∨
    (state.hinted event.inputType).deleteHint ≠ .delete
  oneLine : OneLine (newText state text)
  notInherited : ¬IsInherited mode (newText state text)

theorem tracks_empty {window : WindowText} {state : TextInput} (isEmpty : state.lastContent = []) :
    Tracks ⟨state, window⟩ :=
  ⟨window.before, [], isEmpty, (List.append_nil _).symm⟩

@[simp] theorem hinted_lastContent (state : TextInput) (inputType : Option InputType) :
    (state.hinted inputType).lastContent = state.lastContent := by
  unfold TextInput.hinted
  split <;> rfl

@[simp] theorem newText_hinted (state : TextInput) (inputType : Option InputType)
    (ignoreNextBackspace : Bool) (text : Text) :
    newText { state.hinted inputType with ignoreNextBackspace := ignoreNextBackspace } text =
      newText state text := by
  unfold newText
  rw [hinted_lastContent]

@[simp] theorem hinted_newlineHint (state : TextInput) (inputType : Option InputType) :
    (state.hinted inputType).newlineHint = state.newlineHint := by
  unfold TextInput.hinted
  split <;> rfl

theorem tracks_compare (keysType : KeysType act) (tracks : typing.Tracks) (noNul : '\x00' ∉ text)
    (notInherited : ¬IsInherited mode (newText typing.input text)) (inputType : Option InputType) :
    Tracks ⟨(typing.input.compare mode inputType (text.map Char.toNat)).2,
      performAll act typing.window
        (typing.input.compare mode inputType (text.map Char.toNat)).1⟩ := by
  obtain ⟨front, area, isArea, isBefore⟩ := tracks
  obtain ⟨state, ⟨before, after⟩⟩ := typing
  dsimp only at isArea isBefore notInherited ⊢
  subst isBefore
  by_cases notDelete : state.lastContent.length ≤ text.length ∨ state.deleteHint ≠ .delete
  · by_cases oneLine : OneLine (newText state text)
    · obtain ⟨isWindow, isContent⟩ := @performAll_compare act mode state text area front after
        keysType noNul isArea inputType notDelete oneLine notInherited
      exact ⟨front, text, isContent, congrArg WindowText.before isWindow⟩
    · apply tracks_empty
      unfold TextInput.compare
      dsimp only
      rw [← List.map_drop]
      split
      next => rfl
      next => exact sendNew_lines oneLine inputType _
  · obtain ⟨isShorter, isDelete⟩ := not_or.mp notDelete
    have isRemoved : (decide (state.lastContent.length > (text.map Char.toNat).length) &&
        decide (state.deleteHint = .delete)) = true := by
      rw [List.length_map, Bool.and_eq_true, decide_eq_true_eq, decide_eq_true_eq]
      exact ⟨Nat.not_le.mp isShorter, not_not.mp isDelete⟩
    apply tracks_empty
    unfold TextInput.compare
    dsimp only
    rw [isRemoved]
    rfl

theorem tracks_onInput (keysType : KeysType act) (tracks : typing.Tracks) {event : InputEvent}
    (isValue : IsValue mode typing.input event.value) :
    Tracks ⟨(typing.input.onInput mode event).2,
      performAll act typing.window (typing.input.onInput mode event).1⟩ := by
  obtain ⟨text, isText, noNul, notInherited⟩ := isValue
  unfold TextInput.onInput
  dsimp only
  split
  next => exact tracks_empty rfl
  next =>
    split
    next => exact tracks_empty rfl
    next =>
      split
      next => exact tracks_empty rfl
      next =>
        rw [isText, getValueAsCodePoints_encode]
        obtain ⟨front, area, isArea, isBefore⟩ := tracks
        exact @tracks_compare act mode
          ⟨{ typing.input.hinted event.inputType with ignoreNextBackspace := false },
            typing.window⟩ _ keysType ⟨front, area, (hinted_lastContent _ _).trans isArea, isBefore⟩
          noNul (by rw [newText_hinted]; exact notInherited) event.inputType

theorem tracks_step (keysType : KeysType act) (tracks : typing.Tracks) (event : TypeEvent)
    (isAllowed : typing.Allowed mode event) : (typing.step mode act event).Tracks := by
  cases event with
  | keyDown keyCode shiftKey => exact tracks
  | keyUp isNavigation =>
      unfold step TextInput.handle
      dsimp only
      split
      next => exact tracks_empty rfl
      next => exact tracks
  | beforeInput selection inputType =>
      unfold step TextInput.handle TextInput.onBeforeInput
      dsimp only
      split
      next => exact tracks
      next =>
        split
        next => exact tracks_empty rfl
        next =>
          split
          next => exact tracks
          next =>
            split
            next => exact tracks_empty rfl
            next => exact tracks_empty rfl
  | compositionStart => exact tracks
  | compositionEnd endsLine event =>
      obtain ⟨front, area, isArea, isBefore⟩ := tracks
      obtain ⟨text, isText, noNul, notInherited⟩ := isAllowed
      have hasEnded : ∀ ended : TextInput, ended.lastContent = typing.input.lastContent →
          Tracks ⟨(ended.onInput mode event).2,
            performAll act typing.window (ended.onInput mode event).1⟩ := by
        intro ended sameContent
        exact @tracks_onInput act mode ⟨ended, typing.window⟩ keysType
          ⟨front, area, sameContent.trans isArea, isBefore⟩ event
          ⟨text, isText, noNul, by unfold newText; rw [sameContent]; exact notInherited⟩
      unfold step TextInput.handle
      apply hasEnded
      split <;> rfl
  | abortComposition => exact tracks_empty rfl
  | input event => exact tracks_onInput keysType tracks isAllowed

/-- Whatever was typed before, in however many steps and with whatever was deleted, when the text
area has another text the document has this text in the place of the one that the text area had
before, and nothing else is changed. The keys that are sent for some characters type these, without
an auto-correction. -/
theorem run_typed (keysType : KeysType act) (window : WindowText)
    (permitted : Permitted (step mode act) (Allowed mode) ⟨.start, window⟩ events)
    {event : InputEvent}
    (isPlain : IsPlain mode (run (step mode act) ⟨.start, window⟩ events).input event text) :
    let typing := run (step mode act) ⟨.start, window⟩ events
    ∃ front area : Text, typing.input.lastContent = area.map Char.toNat ∧
      typing.window.before = front ++ area ∧
      (typing.step mode act (.input event)).window = ⟨front ++ text, typing.window.after⟩ ∧
      (typing.step mode act (.input event)).input.lastContent = text.map Char.toNat := by
  have tracks : Tracks (run (step mode act) ⟨.start, window⟩ events) :=
    run_invariant Tracks (fun _ event tracks isAllowed => tracks_step keysType tracks event isAllowed)
      (tracks_empty rfl) permitted
  revert isPlain tracks
  generalize run (step mode act) ⟨.start, window⟩ events = typing
  intro isPlain ⟨front, area, isArea, isBefore⟩
  refine ⟨front, area, isArea, isBefore, ?_⟩
  have isCompared : typing.input.onInput mode event =
      { typing.input.hinted event.inputType with ignoreNextBackspace := false }.compare mode
        event.inputType (text.map Char.toNat) := by
    unfold TextInput.onInput
    dsimp only
    rw [hinted_newlineHint, isPlain.noNewline, isPlain.hasPreSpace, isPlain.hasPostSpace,
      isPlain.isValue, getValueAsCodePoints_encode]
    rfl
  obtain ⟨isWindow, isContent⟩ := @performAll_compare act mode
    { typing.input.hinted event.inputType with ignoreNextBackspace := false } text area front
    typing.window.after keysType isPlain.noNul ((hinted_lastContent _ _).trans isArea)
    event.inputType (by rw [hinted_lastContent]; exact isPlain.notDelete)
    (by rw [newText_hinted]; exact isPlain.oneLine)
    (by rw [newText_hinted]; exact isPlain.notInherited)
  unfold step TextInput.handle
  dsimp only
  rw [isCompared]
  refine ⟨?_, isContent⟩
  rw [← isWindow, ← isBefore]

/-- Keys that type their characters, and nothing else. -/
def typeChars : TypedMessage → WindowText → WindowText
  | .key .input (some charCode) _, window => window.insert [Char.ofNat charCode]
  | _, window => window

theorem typeChars_keysType : KeysType typeChars where
  input _ _ _ _ := rfl
  up _ _ := rfl

def desktop : InputMode := ⟨false, false, 0, true⟩

/-- The area has these characters, one of them new. -/
def typed (text : String) : InputEvent := ⟨some .insertText, Utf16.encode text.toList, true, true⟩

theorem run_typed_twice :
    let typing := run (step desktop typeChars) ⟨.start, ⟨['('], [')']⟩⟩ [.input (typed "a.c")]
    ∃ front area : Text, typing.input.lastContent = area.map Char.toNat ∧
      typing.window.before = front ++ area ∧
      (typing.step desktop typeChars (.input (typed "abc"))).window =
        ⟨front ++ "abc".toList, typing.window.after⟩ ∧
      (typing.step desktop typeChars (.input (typed "abc"))).input.lastContent =
        "abc".toList.map Char.toNat :=
  @run_typed typeChars desktop "abc".toList [.input (typed "a.c")] typeChars_keysType ⟨['('], [')']⟩
    ⟨⟨"a.c".toList, rfl, by decide, fun isInherited => absurd isInherited.2 (by decide)⟩, trivial⟩
    (typed "abc") ⟨rfl, by decide, rfl, rfl, rfl, .inl (by decide), ⟨by decide, by decide⟩,
      fun isInherited => absurd isInherited.2 (by decide)⟩

end Typing

end FreeOnline.Browser
