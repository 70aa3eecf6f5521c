import FreeOnline.Library.Outbox
import FreeOnline.Wsd.StopSafety

/-!
# The attributes on the way to the storage

The attributes of a save wait for the next upload and go with it. If it fails they have to
wait again. The broker keeps them in slots, those that wait and those of the last attempt.
-/

set_option autoImplicit false

namespace FreeOnline.Wsd

open FreeOnline.Library

universe u

/-- A part of the attributes, and what a save that is answered contributes to it: the
attributes that the broker has noted for the save or the extended data it was asked with. -/
structure AttributePart (Item : Type u) [Monoid Item] where
  part : Attributes → Item
  answered : Attributes → String → Item
  part_reset : part .reset = 1
  part_merge : ∀ attrs lhs, part (attrs.merge lhs) = part attrs * part lhs
  part_uploading : ∀ attrs isExitSave force,
    part { attrs with
      isExitSave := isExitSave
      forced := if force = true then true else attrs.forced } =
      part attrs * part { forced := force }

namespace DocumentBroker

/-!
## Attempts to upload
-/

section

variable (broker : DocumentBroker) (env : Environment) (session : ClientSession)
  (saveAsPath saveAsFilename : String) (isRename force : Bool)

/-- The broker goes as far as to ask its storage. -/
def attemptsUpload : Bool :=
  broker.storage.isSome && session.isEditable && !broker.skipsUploading saveAsPath isRename force

def startsRequest : Bool :=
  broker.storage.any fun storage =>
    storage.uploadHttpSession.isNone && env.outcome = .started &&
      (if saveAsPath ≠ "" && saveAsFilename ≠ "" then env.saveAsFile
        else storage.rootFileUploading).isSome

def passesThrottle : Bool :=
  force || broker.storageManager.lastUploadSuccessful ||
    broker.storageManager.canUploadNow broker.now

end

/-- The attributes that the request under way has in its header. -/
def sentBy (storage : WopiStorage) : Option Attributes :=
  storage.uploadHttpSession.bind fun http => if http.started then http.attributes else none

def sentAttributes (broker : DocumentBroker) : Option Attributes := broker.storage.bind sentBy

/-- The request of a normal save has the attributes in its header. -/
def sendsAttributes (saveAsPath saveAsFilename : String) (isRename : Bool) : Bool :=
  !(saveAsPath ≠ "" && saveAsFilename ≠ "") && !isRename

def answeredAttrs (broker : DocumentBroker) (wasModified : Option Bool) : Attributes :=
  match wasModified with
  | some wasModified => { broker.nextStorageAttrs with isUserModified := wasModified }
  | none => broker.nextStorageAttrs

/-- The session that the uploaded document is renamed for. -/
def renamesAfter (broker : DocumentBroker) (request : UploadRequest) : Option ClientSession :=
  if !request.isSaveAs && !request.isRename && broker.docState.activity = .rename then
    broker.findSession broker.renameSessionId
  else none

end DocumentBroker

/-!
## Saves, uploads and their answers
-/

/-- The kit is asked to save, by the broker or on its own by a client, and answers; an upload
is asked for, and the storage answers; anything else about the broker changes. -/
inductive AttributesEvent where
  | save (isAutosave : Bool) (extendedData : String) (env : Environment)
  | clientSave
  | saveResponse (success unmodified : Bool) (wasModified : Option Bool)
  | responseDropped
  | kitSaved (time : FileTime)
  | templateLoaded
  | upload (session : ClientSession) (force : Bool) (env : Environment)
  | uploadAs (session : ClientSession) (uploadAsPath uploadAsFilename : String)
      (isRename isExport : Bool) (env : Environment)
  | finished (result : UploadResult) (reported : Option String) (env : Environment)
  | other (changed : DocumentBroker)

/-- A broker with the extended data of the saves that the kit was asked for and has not
answered, and with what was to be sent with its uploads. -/
structure AttributesRun (Item : Type u) where
  broker : DocumentBroker
  asked : List String
  outbox : Outbox Item

namespace AttributesRun

variable {Item : Type u} [Monoid Item]

/-- An attempt at an upload of the document is one to send what waits and whether it is
forced. -/
def attempt (kind : AttributePart Item) (outbox : Outbox Item) (force started : Bool) :
    Outbox Item :=
  let forced := outbox.add (kind.part { forced := force })
  if started then forced.send else forced

/-- The kit answers in the order in which it was asked. -/
def step (kind : AttributePart Item) (state : AttributesRun Item) :
    AttributesEvent → AttributesRun Item
  | .save isAutosave extendedData env =>
      { state with
        broker := (state.broker.sendUnoSave env isAutosave extendedData).2
        asked := if env.forwarded then state.asked ++ [extendedData] else state.asked }
  | .clientSave => { state with asked := state.asked ++ [""] }
  | .saveResponse success unmodified wasModified =>
      match state.asked with
      | [] => state
      | data :: asked =>
          { broker := state.broker.recordSaveResponse success unmodified wasModified
            asked := asked
            outbox := state.outbox.add
              (kind.answered (state.broker.answeredAttrs wasModified) data) }
  | .responseDropped => { state with asked := state.asked.tail }
  | .kitSaved time => { state with broker := state.broker.step (.kitSaved time) }
  | .templateLoaded => { state with broker := state.broker.renameToUploading }
  | .upload session force env =>
      { state with
        broker := state.broker.uploadToStorage env session force
        outbox :=
          if state.broker.passesThrottle force &&
              state.broker.attemptsUpload session "" false force then
            attempt kind state.outbox force (state.broker.startsRequest env "" "")
          else state.outbox }
  | .uploadAs session uploadAsPath uploadAsFilename isRename isExport env =>
      { state with
        broker := state.broker.uploadAsToStorage env session uploadAsPath uploadAsFilename isRename
          isExport
        outbox :=
          if state.broker.attemptsUpload session uploadAsPath isRename false &&
              DocumentBroker.sendsAttributes uploadAsPath uploadAsFilename isRename then
            attempt kind state.outbox false
              (state.broker.startsRequest env uploadAsPath uploadAsFilename)
          else state.outbox }
  | .finished result reported env =>
      { state with
        broker := state.broker.uploadFinished env result reported
        outbox :=
          if state.broker.uploadStarted then
            if result = .ok then state.outbox.succeed else state.outbox.fail
          else state.outbox }
  | .other changed =>
      { state with
        broker := { changed with
          storage := state.broker.storage
          uploadRequest := state.broker.uploadRequest
          nextStorageAttrs := state.broker.nextStorageAttrs
          currentStorageAttrs := state.broker.currentStorageAttrs
          lastStorageAttrs := state.broker.lastStorageAttrs } }

def slots (kind : AttributePart Item) (broker : DocumentBroker) : Slots Item :=
  ⟨kind.part broker.currentStorageAttrs, kind.part broker.lastStorageAttrs⟩

/-- An attempt at an upload carries what waits, and what the request under way carries is
still known. -/
def Summarised (kind : AttributePart Item) (state : AttributesRun Item) : Prop :=
  (slots kind state.broker).Summarises state.outbox state.broker.uploadStarted

/-- What is under way is in the header of the request. -/
def Sends (kind : AttributePart Item) (state : AttributesRun Item) : Prop :=
  ∀ attribs ∈ state.broker.sentAttributes, kind.part attribs = state.outbox.sent.prod

def Carries (kind : AttributePart Item) (state : AttributesRun Item) : Prop :=
  state.Summarised kind ∧ state.Sends kind

/-- An attempt sends what it takes out of the slot, or there was nothing in the slots. -/
def KeepsSlots (kind : AttributePart Item) (broker : DocumentBroker) (force sends : Bool) : Prop :=
  sends = true ∨
    kind.part broker.currentStorageAttrs * kind.part { forced := force } = 1 ∧
      (broker.uploadStarted = true → kind.part broker.lastStorageAttrs = 1)

instance [DecidableEq Item] (kind : AttributePart Item) (broker : DocumentBroker)
    (force sends : Bool) : Decidable (KeepsSlots kind broker force sends) :=
  inferInstanceAs (Decidable (_ ∨ _))

instance [DecidableEq Item] (kind : AttributePart Item) (state : AttributesRun Item) :
    Decidable (state.Carries kind) :=
  inferInstanceAs (Decidable (Slots.Summarises .. ∧ ∀ _ ∈ _, _ = _))

/-- A save response adds what the save was asked with; what fails is not older than what
waits by now, unless it makes no difference. -/
def Keeps (kind : AttributePart Item) (state : AttributesRun Item) : AttributesEvent → Prop
  | .saveResponse _ _ wasModified => ∀ data ∈ state.asked.head?,
      let waiting := kind.part state.broker.currentStorageAttrs
      waiting * kind.part (state.broker.answeredAttrs wasModified) =
        waiting * kind.answered (state.broker.answeredAttrs wasModified) data
  | .upload session force env =>
      state.broker.passesThrottle force = true →
        state.broker.attemptsUpload session "" false force = true →
          KeepsSlots kind state.broker force (state.broker.startsRequest env "" "")
  | .uploadAs session uploadAsPath uploadAsFilename isRename _ env =>
      state.broker.attemptsUpload session uploadAsPath isRename false = true →
        KeepsSlots kind state.broker false
          (DocumentBroker.sendsAttributes uploadAsPath uploadAsFilename isRename &&
            state.broker.startsRequest env uploadAsPath uploadAsFilename)
  | .finished result _ _ => state.broker.uploadStarted = true →
      let current := kind.part state.broker.currentStorageAttrs
      let last := kind.part state.broker.lastStorageAttrs
      if result = .ok then
        ∀ request ∈ state.broker.uploadRequest, ∀ session ∈ state.broker.renamesAfter request,
          session.isEditable = true → current = 1
      else current * last = last * current
  | _ => True

end AttributesRun

namespace DocumentBroker

/-!
## What uploading does to the slots
-/

private theorem attrs_uploadCallback (broker : DocumentBroker) (state : AsyncUploadState) :
    (broker.uploadCallback state).currentStorageAttrs = broker.currentStorageAttrs ∧
      (broker.uploadCallback state).lastStorageAttrs = broker.lastStorageAttrs := by
  cases state with
  | running | complete => exact ⟨rfl, rfl⟩
  | none | error =>
      unfold uploadCallback
      dsimp only
      split <;> exact ⟨rfl, rfl⟩

private theorem uploadStarted_of_stored {broker : DocumentBroker} {storage : WopiStorage}
    (stored : broker.storage = some storage) :
    broker.uploadStarted = storage.uploadHttpSession.any (·.started) := by
  unfold uploadStarted
  rw [stored, Option.bind_some]
  cases storage.uploadHttpSession <;> rfl

/-- The request of an attempt is under way after it if it was started or there was one before. -/
private theorem started_uploadLocalFileToStorageAsync (storage : WopiStorage)
    (saveAsPath saveAsFilename : String) (isRename : Bool) (attribs : Attributes)
    (saveAsFile : Option FileTime) (outcome : RequestOutcome) :
    (storage.uploadLocalFileToStorageAsync saveAsPath saveAsFilename isRename attribs saveAsFile
        outcome).1.uploadHttpSession.any (·.started) =
      (storage.uploadHttpSession.any (·.started) ||
        (storage.uploadHttpSession.isNone && outcome = .started &&
          (if saveAsPath ≠ "" && saveAsFilename ≠ "" then saveAsFile
            else storage.rootFileUploading).isSome)) := by
  cases inProgress : storage.uploadHttpSession with
  | some http => simp [WopiStorage.uploadLocalFileToStorageAsync, inProgress]
  | none =>
      simp only [WopiStorage.uploadLocalFileToStorageAsync, inProgress, Option.isSome_none,
        Bool.false_eq_true, if_false]
      generalize (if (decide (saveAsPath ≠ "") && decide (saveAsFilename ≠ "")) = true then
        saveAsFile else storage.rootFileUploading) = file
      cases file with
      | none => simp [inProgress]
      | some time => cases outcome <;> simp [inProgress]

private theorem sentAttributes_of_stored {broker : DocumentBroker} {storage : WopiStorage}
    (stored : broker.storage = some storage) : broker.sentAttributes = sentBy storage := by
  rw [sentAttributes, stored]
  rfl

private theorem sentBy_uploadLocalFileToStorageAsync (storage : WopiStorage)
    (saveAsPath saveAsFilename : String) (isRename : Bool) (attribs : Attributes)
    (saveAsFile : Option FileTime) (outcome : RequestOutcome) :
    sentBy (storage.uploadLocalFileToStorageAsync saveAsPath saveAsFilename isRename attribs
        saveAsFile outcome).1 =
      if storage.uploadHttpSession.isNone && outcome = .started &&
          (if saveAsPath ≠ "" && saveAsFilename ≠ "" then saveAsFile
            else storage.rootFileUploading).isSome then
        (if sendsAttributes saveAsPath saveAsFilename isRename then some attribs else none)
      else sentBy storage := by
  cases inProgress : storage.uploadHttpSession with
  | some http => simp [WopiStorage.uploadLocalFileToStorageAsync, inProgress]
  | none =>
      have noneSent : sentBy storage = none := by
        rw [sentBy, inProgress]
        rfl
      simp only [WopiStorage.uploadLocalFileToStorageAsync, inProgress, Option.isSome_none,
        Bool.false_eq_true, if_false]
      generalize (if (decide (saveAsPath ≠ "") && decide (saveAsFilename ≠ "")) = true then
        saveAsFile else storage.rootFileUploading) = file
      cases file with
      | none => simp
      | some time =>
          cases outcome with
          | throwsEarly => simp
          | throwsLate | unconnected => simp [sentBy, inProgress]
          | started =>
              rw [sendsAttributes, ← Bool.not_or]
              change (if _ then none else some attribs) = if _ then some attribs else none
              cases (saveAsPath ≠ "" && saveAsFilename ≠ "") || isRename <;> rfl

section

variable (broker : DocumentBroker) (env : Environment) (session : ClientSession)
  (saveAsPath saveAsFilename : String) (isRename isExport force : Bool)

/-- What an attempt does to the slots and to the request under way. -/
structure Attempted (before : DocumentBroker) (force sends starts : Bool)
    (after : DocumentBroker) : Prop where
  current : after.currentStorageAttrs = .reset
  last : after.lastStorageAttrs = before.uploadingAttrs force
  started : after.uploadStarted = (before.uploadStarted || starts)
  requested : after.uploadRequest.isSome = true
  sent : after.sentAttributes =
    if starts then (if sends then some (before.uploadingAttrs force) else none)
    else before.sentAttributes

theorem uploadToStorageInternal_attempted
    (attempts : broker.attemptsUpload session saveAsPath isRename force = true) :
    Attempted broker force (sendsAttributes saveAsPath saveAsFilename isRename)
      (broker.startsRequest env saveAsPath saveAsFilename)
      (broker.uploadToStorageInternal env session saveAsPath saveAsFilename isRename isExport
        force) := by
  simp only [attemptsUpload, Bool.and_eq_true, Bool.not_eq_true'] at attempts
  obtain ⟨⟨isStored, editable⟩, notSkipped⟩ := attempts
  obtain ⟨storage, stored⟩ := Option.isSome_iff_exists.mp isStored
  have requested := broker.uploadToStorageInternal_requested env session saveAsPath saveAsFilename
    isRename isExport force stored editable notSkipped
  refine ⟨?_, ?_, ?_, ?_, ?_⟩
  · simp only [uploadToStorageInternal, stored, editable, notSkipped, Bool.not_true,
      Bool.false_eq_true, if_false, attrs_uploadCallback]
  · simp only [uploadToStorageInternal, stored, editable, notSkipped, Bool.not_true,
      Bool.false_eq_true, if_false, attrs_uploadCallback]
  · have after := UploadState.mk.inj requested
    rw [uploadStarted_of_stored after.1, uploadStarted_of_stored stored,
      started_uploadLocalFileToStorageAsync]
    unfold startsRequest
    rw [stored, Option.any_some]
  · have after := UploadState.mk.inj requested
    rw [after.2.1]
    rfl
  · have after := UploadState.mk.inj requested
    rw [sentAttributes_of_stored after.1, sentAttributes_of_stored stored,
      sentBy_uploadLocalFileToStorageAsync, startsRequest, stored, Option.any_some]

theorem uploadToStorageInternal_skipped
    (skipped : broker.attemptsUpload session saveAsPath isRename force = false) :
    broker.uploadToStorageInternal env session saveAsPath saveAsFilename isRename isExport force =
      broker := by
  rcases broker.uploadToStorageInternal_cases env session saveAsPath saveAsFilename isRename isExport
    force with same | ⟨storage, stored, editable, notSkipped⟩
  · exact same
  · simp [attemptsUpload, stored, editable, notSkipped] at skipped

end

private theorem attrs_stopIfUploaded (broker : DocumentBroker) :
    let after := broker.stopIfUploaded
    after.currentStorageAttrs = broker.currentStorageAttrs ∧
      after.lastStorageAttrs = broker.lastStorageAttrs ∧ after.storage = broker.storage ∧
      after.uploadRequest = broker.uploadRequest := by
  unfold stopIfUploaded
  dsimp only
  split <;> split <;> exact ⟨rfl, rfl, rfl, rfl⟩

private theorem attrs_handleUploadFailure (broker : DocumentBroker) (env : Environment)
    (request : UploadRequest) (result : UploadResult) :
    let after := broker.handleUploadFailure env request result
    after.currentStorageAttrs = broker.currentStorageAttrs.merge broker.lastStorageAttrs ∧
      after.storage = broker.storage ∧ after.uploadRequest = broker.uploadRequest := by
  cases result with
  | ok | tooLarge | diskfull | unauthorized | failed => exact ⟨rfl, rfl, rfl⟩
  | docChanged | conflict =>
      unfold handleUploadFailure
      dsimp only
      split <;> exact ⟨rfl, rfl, rfl⟩

private theorem uploadStarted_congr {broker other : DocumentBroker}
    (same : broker.storage = other.storage) : broker.uploadStarted = other.uploadStarted := by
  unfold uploadStarted
  rw [same]

private theorem sentAttributes_congr {broker other : DocumentBroker}
    (same : broker.storage = other.storage) : broker.sentAttributes = other.sentAttributes := by
  unfold sentAttributes
  rw [same]

private theorem startsRequest_idle {broker : DocumentBroker} {env : Environment}
    {saveAsPath saveAsFilename : String}
    (starts : broker.startsRequest env saveAsPath saveAsFilename = true) :
    broker.uploadStarted = false := by
  unfold startsRequest at starts
  unfold uploadStarted
  cases stored : broker.storage with
  | none => rfl
  | some storage =>
      rw [stored, Option.any_some] at starts
      cases inProgress : storage.uploadHttpSession with
      | none => simp [inProgress]
      | some http => simp [inProgress] at starts

private theorem renameInStorage_cases (broker : DocumentBroker) (env : Environment)
    (stored : broker.storage.isSome = true) :
    let after := broker.renameInStorage env
    (∃ session ∈ broker.findSession broker.renameSessionId, session.isEditable = true ∧
        ∃ starts, Attempted broker false false starts after ∧
          (starts = true → broker.uploadStarted = false)) ∨
      (∀ session ∈ broker.findSession broker.renameSessionId, session.isEditable = false) ∧
        after.currentStorageAttrs = broker.currentStorageAttrs ∧
          after.storage = broker.storage ∧ after.uploadRequest = broker.uploadRequest := by
  unfold renameInStorage
  dsimp only
  cases found : broker.findSession broker.renameSessionId with
  | none => exact .inr ⟨nofun, rfl, rfl, rfl⟩
  | some session =>
      dsimp only
      cases editable : session.isEditable with
      | true =>
          refine .inl ⟨session, rfl, editable, broker.startsRequest env "" broker.renameFilename, ?_,
            startsRequest_idle⟩
          have attempted := broker.uploadToStorageInternal_attempted env session "" broker.renameFilename
            true false false (by simp [attemptsUpload, stored, editable, skipsUploading])
          have notSent : sendsAttributes "" broker.renameFilename true = false := Bool.and_false _
          rwa [notSent] at attempted
      | false =>
          have skipped : broker.attemptsUpload session "" true false = false := by
            simp [attemptsUpload, editable]
          rw [uploadToStorageInternal_skipped _ _ _ _ _ _ _ _ skipped]
          refine .inr ⟨?_, rfl, rfl, rfl⟩
          rintro other ⟨⟩
          exact editable

/-- A document that was uploaded may go on to be renamed. -/
private theorem handleUploaded_cases (broker : DocumentBroker) (env : Environment)
    (request : UploadRequest) (stored : broker.storage.isSome = true) :
    let after := broker.handleUploaded env request
    (∃ session ∈ broker.renamesAfter request, session.isEditable = true ∧
        ∃ starts, Attempted (broker.recordUploaded request) false false starts after ∧
          (starts = true → broker.uploadStarted = false)) ∨
      (∀ session ∈ broker.renamesAfter request, session.isEditable = false) ∧
        after.currentStorageAttrs = broker.currentStorageAttrs ∧
          after.storage = broker.storage ∧ after.uploadRequest = broker.uploadRequest := by
  unfold handleUploaded renamesAfter
  cases plain : !request.isSaveAs && !request.isRename with
  | false =>
      simp only [Bool.false_and, Bool.false_eq_true, if_false]
      split <;> exact .inr ⟨fun _ isSession => (nomatch isSession), rfl, rfl, rfl⟩
  | true =>
      have sameActivity : (broker.recordUploaded request).docState.activity =
          broker.docState.activity := rfl
      simp only [Bool.true_and, if_true, decide_eq_true_eq]
      rw [sameActivity]
      cases activity : broker.docState.activity with
      | rename => exact renameInStorage_cases (broker.recordUploaded request) env stored
      | none | saveAs | conflict | save | upload =>
          exact .inr ⟨fun _ isSession => (nomatch isSession), rfl, rfl, rfl⟩

private theorem uploadFinished_noted {broker : DocumentBroker} {request : UploadRequest}
    (started : broker.uploadStarted = true) (isRequest : broker.uploadRequest = some request)
    (env : Environment) (result : UploadResult) (reported : Option String) :
    ∃ noted : DocumentBroker, noted.currentStorageAttrs = broker.currentStorageAttrs ∧
      noted.lastStorageAttrs = broker.lastStorageAttrs ∧ noted.storage.isSome = true ∧
      noted.uploadStarted = false ∧ noted.sentAttributes = none ∧
      noted.renamesAfter request = broker.renamesAfter request ∧
      noted.uploadRequest = some request ∧
      broker.uploadFinished env result reported =
        if result = .ok then (noted.handleUploaded env request).stopIfUploaded
        else noted.handleUploadFailure env request result := by
  obtain ⟨storage, acknowledged, isOver, isStep⟩ :=
    uploadFinished_retires started env result reported
  rw [isStep]
  unfold handleUploadToStorageResponse
  split
  · next none => cases none.symm.trans isRequest
  · next other isOther =>
      cases isOther.symm.trans isRequest
      refine ⟨{ broker with
        storage := some storage
        acknowledged := acknowledged
        storageManager := broker.storageManager.setLastUploadResult broker.now
          (result = UploadResult.ok) }, rfl, rfl, rfl, ?_, ?_, rfl, isRequest, rfl⟩
      · simp [uploadStarted, isOver]
      · simp [sentAttributes, sentBy, isOver]

/-- Neither the slots nor the request under way change. -/
private structure SameSlots (before after : DocumentBroker) : Prop where
  current : after.currentStorageAttrs = before.currentStorageAttrs
  last : after.lastStorageAttrs = before.lastStorageAttrs
  started : after.uploadStarted = before.uploadStarted
  request : after.uploadRequest = before.uploadRequest
  sent : after.sentAttributes = before.sentAttributes

private theorem sameSlots_sendUnoSave (broker : DocumentBroker) (env : Environment)
    (isAutosave : Bool) (extendedData : String) :
    SameSlots broker (broker.sendUnoSave env isAutosave extendedData).2 := by
  unfold sendUnoSave
  dsimp only
  split <;> exact ⟨rfl, rfl, rfl, rfl, rfl⟩

private theorem sameSlots_kitSaved (broker : DocumentBroker) (time : FileTime) :
    SameSlots broker (broker.step (.kitSaved time)) := by
  refine ⟨rfl, rfl, ?_, rfl, ?_⟩
  · cases stored : broker.storage with
    | none => simp [step, uploadStarted, stored]
    | some storage => simp [step, uploadStarted, stored]
  · cases stored : broker.storage with
    | none => simp [step, sentAttributes, stored]
    | some storage => simp [step, sentAttributes, sentBy, stored]

private theorem sameSlots_renameToUploading (broker : DocumentBroker) :
    SameSlots broker broker.renameToUploading := by
  have sameSession (storage : WopiStorage) :
      storage.renameToUploading.uploadHttpSession = storage.uploadHttpSession := by
    unfold WopiStorage.renameToUploading
    split <;> rfl
  refine ⟨rfl, rfl, ?_, rfl, ?_⟩
  · cases stored : broker.storage with
    | none => simp [renameToUploading, uploadStarted, stored]
    | some storage => simp [renameToUploading, uploadStarted, stored, sameSession]
  · cases stored : broker.storage with
    | none => simp [renameToUploading, sentAttributes, stored]
    | some storage => simp [renameToUploading, sentAttributes, sentBy, stored, sameSession]

private theorem recordSaveResponse_attrs (broker : DocumentBroker) (success unmodified : Bool)
    (wasModified : Option Bool) :
    let after := broker.recordSaveResponse success unmodified wasModified
    after.currentStorageAttrs = broker.currentStorageAttrs.merge (broker.answeredAttrs wasModified) ∧
      after.lastStorageAttrs = broker.lastStorageAttrs ∧
      after.uploadStarted = broker.uploadStarted ∧ after.uploadRequest = broker.uploadRequest ∧
      after.sentAttributes = broker.sentAttributes := by
  have same := sameSlots_renameToUploading broker
  exact ⟨rfl, rfl, same.started, rfl, same.sent⟩

end DocumentBroker

/-!
## The slots are what is left of the outbox
-/

namespace AttributesRun

variable {Item : Type u} [Monoid Item] {kind : AttributePart Item}
  {broker after : DocumentBroker} {outbox : Outbox Item} {state : AttributesRun Item}

private theorem slots_attempted {force sends starts : Bool}
    (attempted : broker.Attempted force sends starts after) :
    slots kind after =
      ⟨1, kind.part broker.currentStorageAttrs * kind.part { forced := force }⟩ := by
  unfold slots
  rw [attempted.current, attempted.last, kind.part_reset, DocumentBroker.uploadingAttrs,
    kind.part_uploading]

private theorem part_notForced : kind.part { forced := false } = 1 := kind.part_reset

private theorem summarised_attempt {force starts sends : Bool}
    (carries : (slots kind broker).Summarises outbox broker.uploadStarted)
    (attempted : broker.Attempted force sends starts after)
    (idle : starts = true → broker.uploadStarted = false) (plain : sends = false → force = false) :
    (slots kind after).Summarises (if sends then attempt kind outbox force starts else outbox)
        after.uploadStarted ↔
      KeepsSlots kind broker force (sends && starts) := by
  rw [slots_attempted attempted, attempted.started]
  unfold KeepsSlots
  cases sends with
  | true =>
      have forced := carries.add (kind.part { forced := force })
      cases starts with
      | true =>
          rw [Bool.or_true]
          exact iff_of_true forced.send (.inl rfl)
      | false =>
          rw [Bool.or_false, Bool.and_false, or_iff_right Bool.false_ne_true]
          exact forced.move_iff
  | false =>
      cases plain rfl
      rw [part_notForced, mul_one, Bool.false_and, or_iff_right Bool.false_ne_true]
      cases starts with
      | true =>
          rw [idle rfl] at carries ⊢
          rw [Bool.or_true, and_iff_left nofun]
          exact carries.divert_iff
      | false =>
          rw [Bool.or_false]
          exact carries.move_iff

private theorem summarised_finished (requested : state.broker.uploadStarted = true →
      state.broker.uploadRequest.isSome = true)
    (carries : state.Summarised kind) (result : UploadResult) (reported : Option String)
    (env : Environment) :
    (state.step kind (.finished result reported env)).Summarised kind ↔
      state.Keeps kind (.finished result reported env) := by
  unfold Summarised step Keeps
  dsimp only
  cases started : state.broker.uploadStarted with
  | false =>
      rw [DocumentBroker.uploadFinished_ignored started]
      refine iff_of_true ?_ nofun
      unfold Summarised at carries
      rw [started] at carries ⊢
      exact carries
  | true =>
      obtain ⟨request, isRequest⟩ := Option.isSome_iff_exists.mp (requested started)
      obtain ⟨noted, current, last, stored, isOver, -, renames, -, isStep⟩ :=
        DocumentBroker.uploadFinished_noted started isRequest env result reported
      unfold Summarised at carries
      rw [started] at carries
      rw [isStep, if_pos rfl, imp_iff_right rfl, isRequest]
      by_cases ok : result = .ok
      · rw [if_pos ok, if_pos ok, if_pos ok]
        obtain ⟨sameCurrent, sameLast, sameStorage, -⟩ :=
          (noted.handleUploaded env request).attrs_stopIfUploaded
        have isNext : (∀ other ∈ some request, ∀ session ∈ state.broker.renamesAfter other,
            session.isEditable = true → kind.part state.broker.currentStorageAttrs = 1) ↔
              ∀ session ∈ noted.renamesAfter request,
                session.isEditable = true → kind.part state.broker.currentStorageAttrs = 1 := by
          rw [renames]
          simp
        have sameSlots : slots kind (noted.handleUploaded env request).stopIfUploaded =
            slots kind (noted.handleUploaded env request) := by
          unfold slots
          rw [sameCurrent, sameLast]
        rw [isNext, DocumentBroker.uploadStarted_congr sameStorage, sameSlots]
        rcases noted.handleUploaded_cases env request stored with
          ⟨session, isSession, editable, starts, attempted, idle⟩ |
          ⟨notEditable, unchanged, sameStorage, -⟩
        · have succeeded := carries.succeed 1
          have isCurrent : (noted.recordUploaded request).currentStorageAttrs =
              state.broker.currentStorageAttrs := current
          have notStarted : (noted.recordUploaded request).uploadStarted = false := isOver
          have isRenaming : (∀ session ∈ noted.renamesAfter request, session.isEditable = true →
              kind.part state.broker.currentStorageAttrs = 1) ↔
                kind.part state.broker.currentStorageAttrs = 1 :=
            ⟨fun none => none session isSession editable, fun none _ _ _ => none⟩
          rw [slots_attempted attempted, attempted.started, part_notForced, mul_one, isCurrent,
            notStarted, isRenaming, Bool.false_or]
          cases starts with
          | true => exact succeeded.divert_iff
          | false =>
              have moved := succeeded.move_iff
              rw [and_iff_left nofun] at moved
              exact moved
        · rw [DocumentBroker.uploadStarted_congr sameStorage, isOver]
          unfold slots
          rw [unchanged, current]
          refine iff_of_true (carries.succeed _) ?_
          intro session isSession editable
          cases (notEditable session isSession).symm.trans editable
      · rw [if_neg ok, if_neg ok, if_neg ok]
        obtain ⟨sameCurrent, sameStorage, -⟩ := noted.attrs_handleUploadFailure env request result
        have failed : slots kind (noted.handleUploadFailure env request result) =
            ⟨kind.part state.broker.currentStorageAttrs * kind.part state.broker.lastStorageAttrs,
              kind.part
                (noted.handleUploadFailure env request result).lastStorageAttrs⟩ := by
          unfold slots
          rw [sameCurrent, kind.part_merge, current, last]
        rw [failed, DocumentBroker.uploadStarted_congr sameStorage, isOver]
        exact carries.fail_iff _

/-- The request of an upload under way is that of an upload. -/
def Requested (state : AttributesRun Item) : Prop :=
  state.broker.uploadStarted = true → state.broker.uploadRequest.isSome = true

private theorem summarised_same (carries : (slots kind broker).Summarises outbox broker.uploadStarted)
    (same : broker.SameSlots after) :
    (slots kind after).Summarises outbox after.uploadStarted := by
  unfold slots
  rw [same.current, same.last, same.started]
  exact carries

private theorem summarised_saveResponse (carries : state.Summarised kind) (success unmodified : Bool)
    (wasModified : Option Bool) :
    (state.step kind (.saveResponse success unmodified wasModified)).Summarised kind ↔
      state.Keeps kind (.saveResponse success unmodified wasModified) := by
  unfold Summarised step Keeps
  dsimp only
  cases asked : state.asked with
  | nil => exact iff_of_true carries nofun
  | cons data rest =>
      obtain ⟨current, last, started, -⟩ :=
        state.broker.recordSaveResponse_attrs success unmodified wasModified
      have isNext : ∀ waits : String → Prop,
          (∀ other ∈ (data :: rest).head?, waits other) ↔ waits data := by
        intro waits
        simp
      unfold slots
      rw [isNext, current, last, started, kind.part_merge]
      exact Slots.Summarises.add_iff carries _ _

private theorem summarised_upload (carries : state.Summarised kind) (session : ClientSession)
    (force : Bool) (env : Environment) :
    (state.step kind (.upload session force env)).Summarised kind ↔
      state.Keeps kind (.upload session force env) := by
  have isUpload : state.broker.uploadToStorage env session force =
      if state.broker.passesThrottle force = true then
        state.broker.uploadToStorageInternal env session "" "" false false force
      else state.broker := rfl
  unfold Summarised step Keeps
  dsimp only
  rw [isUpload]
  cases passes : state.broker.passesThrottle force with
  | false => exact iff_of_true carries nofun
  | true =>
      cases attempts : state.broker.attemptsUpload session "" false force with
      | false =>
          rw [if_pos rfl, DocumentBroker.uploadToStorageInternal_skipped _ _ _ _ _ _ _ _ attempts]
          exact iff_of_true carries (fun _ => nofun)
      | true =>
          rw [if_pos rfl, imp_iff_right rfl, imp_iff_right rfl, Bool.true_and]
          exact @summarised_attempt _ _ _ _ _ _ _ _ true carries
            (DocumentBroker.uploadToStorageInternal_attempted _ _ _ _ _ _ _ _ attempts)
            DocumentBroker.startsRequest_idle nofun

private theorem summarised_uploadAs (carries : state.Summarised kind) (session : ClientSession)
    (uploadAsPath uploadAsFilename : String) (isRename isExport : Bool) (env : Environment) :
    (state.step kind
        (.uploadAs session uploadAsPath uploadAsFilename isRename isExport env)).Summarised kind ↔
      state.Keeps kind
        (.uploadAs session uploadAsPath uploadAsFilename isRename isExport env) := by
  unfold Summarised step Keeps DocumentBroker.uploadAsToStorage
  dsimp only
  cases attempts : state.broker.attemptsUpload session uploadAsPath isRename false with
  | false =>
      rw [DocumentBroker.uploadToStorageInternal_skipped _ _ _ _ _ _ _ _ attempts]
      exact iff_of_true carries nofun
  | true =>
      rw [imp_iff_right rfl, Bool.true_and]
      exact summarised_attempt carries
        (DocumentBroker.uploadToStorageInternal_attempted _ _ _ _ _ _ _ _ attempts)
        DocumentBroker.startsRequest_idle fun _ => rfl

private theorem summarised_step (requested : state.Requested)
    (carries : state.Summarised kind) (event : AttributesEvent) :
    (state.step kind event).Summarised kind ↔ state.Keeps kind event := by
  cases event with
  | save isAutosave extendedData env =>
      exact iff_of_true
        (summarised_same carries (state.broker.sameSlots_sendUnoSave env isAutosave extendedData)) trivial
  | clientSave => exact iff_of_true carries trivial
  | saveResponse success unmodified wasModified =>
      exact summarised_saveResponse carries success unmodified wasModified
  | responseDropped => exact iff_of_true carries trivial
  | kitSaved time =>
      exact iff_of_true (summarised_same carries (state.broker.sameSlots_kitSaved time)) trivial
  | templateLoaded =>
      exact iff_of_true (summarised_same carries state.broker.sameSlots_renameToUploading) trivial
  | upload session force env => exact summarised_upload carries session force env
  | uploadAs session uploadAsPath uploadAsFilename isRename isExport env =>
      exact summarised_uploadAs carries session uploadAsPath uploadAsFilename isRename isExport env
  | finished result reported env => exact summarised_finished requested carries result reported env
  | other changed => exact iff_of_true carries trivial

private theorem sends_attempt {force starts sends : Bool}
    (summarised : (slots kind broker).Summarises outbox broker.uploadStarted)
    (carried : ∀ attribs ∈ broker.sentAttributes, kind.part attribs = outbox.sent.prod)
    (attempted : broker.Attempted force sends starts after) :
    ∀ attribs ∈ after.sentAttributes, kind.part attribs =
      (if sends then attempt kind outbox force starts else outbox).sent.prod := by
  rw [attempted.sent]
  cases starts with
  | false =>
      have sameSent : (if sends then attempt kind outbox force false else outbox).sent =
          outbox.sent := by
        cases sends <;> rfl
      rw [sameSent]
      exact carried
  | true =>
      cases sends with
      | false => exact nofun
      | true =>
          intro attribs isSent
          cases isSent
          rw [DocumentBroker.uploadingAttrs, kind.part_uploading]
          exact (summarised.add (kind.part { forced := force })).current

private theorem sends_finished (requested : state.Requested) (carried : state.Sends kind)
    (result : UploadResult) (reported : Option String) (env : Environment) :
    (state.step kind (.finished result reported env)).Sends kind := by
  unfold Sends step
  dsimp only
  cases started : state.broker.uploadStarted with
  | false =>
      rw [DocumentBroker.uploadFinished_ignored started]
      exact carried
  | true =>
      obtain ⟨request, isRequest⟩ := Option.isSome_iff_exists.mp (requested started)
      obtain ⟨noted, -, -, stored, -, noneSent, -, -, isStep⟩ :=
        DocumentBroker.uploadFinished_noted started isRequest env result reported
      have isOver : (state.broker.uploadFinished env result reported).sentAttributes = none := by
        rw [isStep]
        split
        · obtain ⟨-, -, sameStorage, -⟩ := (noted.handleUploaded env request).attrs_stopIfUploaded
          rw [DocumentBroker.sentAttributes_congr sameStorage]
          rcases noted.handleUploaded_cases env request stored with
            ⟨_, _, _, starts, attempted, _⟩ | ⟨-, -, sameStorage, -⟩
          · have recorded : (noted.recordUploaded request).sentAttributes = none := noneSent
            rw [attempted.sent, recorded]
            cases starts <;> rfl
          · rw [DocumentBroker.sentAttributes_congr sameStorage]
            exact noneSent
        · obtain ⟨-, sameStorage, -⟩ := noted.attrs_handleUploadFailure env request result
          rw [DocumentBroker.sentAttributes_congr sameStorage]
          exact noneSent
      rw [isOver]
      exact nofun

private theorem sends_step (requested : state.Requested) (carries : state.Carries kind)
    (event : AttributesEvent) : (state.step kind event).Sends kind := by
  obtain ⟨summarised, carried⟩ := carries
  have same : ∀ {after}, state.broker.SameSlots after →
      ∀ attribs ∈ after.sentAttributes, kind.part attribs = state.outbox.sent.prod := by
    intro after same
    rw [same.sent]
    exact carried
  have ofAttempt : ∀ {force sends starts} {after : DocumentBroker},
      state.broker.Attempted force sends starts after → ∀ attribs ∈ after.sentAttributes,
        kind.part attribs =
          (if sends then attempt kind state.outbox force starts else state.outbox).sent.prod :=
    fun attempted => sends_attempt summarised carried attempted
  cases event with
  | save isAutosave extendedData env => exact same (state.broker.sameSlots_sendUnoSave ..)
  | clientSave => exact carried
  | saveResponse success unmodified wasModified =>
      obtain ⟨-, -, -, -, sent⟩ :=
        state.broker.recordSaveResponse_attrs success unmodified wasModified
      unfold Sends step
      dsimp only
      split
      · exact carried
      · rw [sent]
        exact carried
  | responseDropped => exact carried
  | kitSaved time => exact same (state.broker.sameSlots_kitSaved time)
  | templateLoaded => exact same state.broker.sameSlots_renameToUploading
  | upload session force env =>
      unfold Sends step DocumentBroker.uploadToStorage
      dsimp only
      rw [← DocumentBroker.passesThrottle]
      cases passes : state.broker.passesThrottle force with
      | false => exact carried
      | true =>
          cases attempts : state.broker.attemptsUpload session "" false force with
          | false =>
              rw [if_pos rfl, DocumentBroker.uploadToStorageInternal_skipped _ _ _ _ _ _ _ _ attempts]
              exact carried
          | true =>
              exact ofAttempt
                (DocumentBroker.uploadToStorageInternal_attempted _ _ _ _ _ _ _ _ attempts)
  | uploadAs session uploadAsPath uploadAsFilename isRename isExport env =>
      unfold Sends step DocumentBroker.uploadAsToStorage
      dsimp only
      cases attempts : state.broker.attemptsUpload session uploadAsPath isRename false with
      | false =>
          rw [DocumentBroker.uploadToStorageInternal_skipped _ _ _ _ _ _ _ _ attempts]
          exact carried
      | true =>
          rw [Bool.true_and]
          exact ofAttempt
            (DocumentBroker.uploadToStorageInternal_attempted _ _ _ _ _ _ _ _ attempts)
  | finished result reported env => exact sends_finished requested carried result reported env
  | other changed => exact carried

private theorem carries_step (requested : state.Requested) (carries : state.Carries kind)
    (event : AttributesEvent) : (state.step kind event).Carries kind ↔ state.Keeps kind event := by
  rw [← summarised_step requested carries.1 event]
  exact and_iff_left (sends_step requested carries event)

private theorem requested_attempt
    (requested : broker.uploadStarted = true → broker.uploadRequest.isSome = true)
    (env : Environment) (session : ClientSession) (saveAsPath saveAsFilename : String)
    (isRename isExport force : Bool) :
    let after := broker.uploadToStorageInternal env session saveAsPath saveAsFilename isRename
      isExport force
    after.uploadStarted = true → after.uploadRequest.isSome = true := by
  intro after
  cases attempts : broker.attemptsUpload session saveAsPath isRename force with
  | false =>
      have unchanged : after = broker :=
        DocumentBroker.uploadToStorageInternal_skipped _ _ _ _ _ _ _ _ attempts
      rw [unchanged]
      exact requested
  | true =>
      intro _
      exact (DocumentBroker.uploadToStorageInternal_attempted _ _ _ _ _ _ _ _ attempts).requested

private theorem requested_finished
    (requested : broker.uploadStarted = true → broker.uploadRequest.isSome = true)
    (result : UploadResult) (reported : Option String) (env : Environment) :
    let after := broker.uploadFinished env result reported
    after.uploadStarted = true → after.uploadRequest.isSome = true := by
  intro after
  cases started : broker.uploadStarted with
  | false =>
      have unchanged : after = broker :=
        DocumentBroker.uploadFinished_ignored started env result reported
      rw [unchanged]
      exact requested
  | true =>
      obtain ⟨request, isRequest⟩ := Option.isSome_iff_exists.mp (requested started)
      obtain ⟨noted, -, -, stored, isOver, -, -, isSame, isStep⟩ :=
        DocumentBroker.uploadFinished_noted started isRequest env result reported
      have isAfter : after = _ := isStep
      rw [isAfter]
      split
      · obtain ⟨-, -, sameStorage, sameRequest⟩ :=
          (noted.handleUploaded env request).attrs_stopIfUploaded
        rw [DocumentBroker.uploadStarted_congr sameStorage, sameRequest]
        rcases noted.handleUploaded_cases env request stored with
          ⟨_, _, _, _, attempted, _⟩ | ⟨-, -, -, request⟩
        · exact fun _ => attempted.requested
        · rw [request, isSame]
          exact fun _ => rfl
      · obtain ⟨-, sameStorage, -⟩ := noted.attrs_handleUploadFailure env request result
        rw [DocumentBroker.uploadStarted_congr sameStorage, isOver]
        exact nofun

private theorem requested_step (requested : state.Requested) (event : AttributesEvent) :
    (state.step kind event).Requested := by
  have same : ∀ {after}, state.broker.SameSlots after →
      (after.uploadStarted = true → after.uploadRequest.isSome = true) := by
    intro after same
    rw [same.started, same.request]
    exact requested
  cases event with
  | save isAutosave extendedData env => exact same (state.broker.sameSlots_sendUnoSave ..)
  | clientSave => exact requested
  | saveResponse success unmodified wasModified =>
      obtain ⟨-, -, started, request, -⟩ :=
        state.broker.recordSaveResponse_attrs success unmodified wasModified
      unfold Requested step
      dsimp only
      split
      · exact requested
      · rw [started, request]
        exact requested
  | responseDropped => exact requested
  | kitSaved time => exact same (state.broker.sameSlots_kitSaved time)
  | templateLoaded => exact same state.broker.sameSlots_renameToUploading
  | upload session force env =>
      unfold Requested step DocumentBroker.uploadToStorage
      dsimp only
      split
      · exact requested_attempt requested env session "" "" false false force
      · exact requested
  | uploadAs session uploadAsPath uploadAsFilename isRename isExport env =>
      exact requested_attempt requested env session uploadAsPath uploadAsFilename isRename isExport
        false
  | finished result reported env => exact requested_finished requested result reported env
  | other changed => exact requested

/-- The slots hold what waits and what is under way in exactly the runs whose steps keep it. -/
theorem run_carries_iff (kind : AttributePart Item) (initial : AttributesRun Item)
    (events : List AttributesEvent) (requested : initial.Requested)
    (carries : initial.Carries kind) :
    (∀ before event after, events = before ++ event :: after →
        ((run (step kind) initial before).step kind event).Carries kind) ↔
      Permitted (step kind) (Keeps kind) initial events := by
  have everywhere : Permitted (step kind) (fun state event => (state.step kind event).Carries kind)
      initial events ↔ _ := permitted_iff_forall
  rw [← everywhere]
  refine permitted_congr (fun state => state.Requested ∧ state.Carries kind) ?_ ?_
    ⟨requested, carries⟩
  · rintro state event ⟨requested, -⟩ carries
    exact ⟨requested_step requested event, carries⟩
  · rintro state event ⟨requested, carries⟩
    exact carries_step requested carries event

end AttributesRun

end FreeOnline.Wsd
