import FreeOnline.Wsd.DocumentStatus

/-!
# The activity of renaming

A document is saved and uploaded before it is renamed in the storage. Each answer on the
way has to ask for the next thing or to end the activity, as nothing else ends it.
-/

set_option autoImplicit false

namespace FreeOnline.Wsd

open FreeOnline.Library

namespace DocumentBroker

/-!
## Asking the kit to save
-/

def autoSaves (broker : DocumentBroker) (env : Environment) (force : Bool) : Bool :=
  broker.docState.activity ≠ .save && (broker.autoSave env force).1

def autoSaveAndStopSaves (broker : DocumentBroker) (env : Environment) : Bool :=
  !(broker.saveManager.isSaving || broker.isAsyncUploading) && broker.canStop = some false &&
    broker.saveManager.canSaveNow broker.now && broker.autoSaves env broker.isPossiblyModified

def removalSaves (broker : DocumentBroker) (env : Environment) (session : ClientSession) : Bool :=
  session.isEditable && !broker.haveAnotherEditableSession session.id &&
    !broker.saveManager.isSaving && broker.autoSaves env broker.isPossiblyModified

/-- The activity starts, and the session that asked for it is there. -/
def beginsRename (broker : DocumentBroker) : Bool :=
  broker.renameSessionId ≠ "" && broker.renameFilename ≠ "" && broker.docState.activity = .none &&
    (broker.findSession broker.renameSessionId).isSome

def noteRename (broker : DocumentBroker) (sessionId newFilename : String) : DocumentBroker :=
  { broker with renameFilename := newFilename, renameSessionId := sessionId }

def isPollingIdle (broker : DocumentBroker) : Bool :=
  !(broker.stopped || broker.terminationFlag) && broker.docState.activity = .none

def pollSaves (broker : DocumentBroker) (env : Environment) : Bool :=
  broker.isPollingIdle &&
    match broker.idleAction with
    | .startRename => broker.beginsRename && env.forwarded
    | .autoSaveAndStop _ => broker.autoSaveAndStopSaves env
    | .stopDead => (broker.stop .poll "dead").autoSaveAndStopSaves env
    | .autoSave => broker.autoSaves env false
    | .nothing | .stopFailed | .retryUpload _ => false

def asksToSave (broker : DocumentBroker) : BrokerEvent → Bool
  | .manualSave extendedData env => (broker.manualSave env extendedData).1
  | .renameFile sessionId newFilename env =>
      newFilename ≠ "" && (broker.noteRename sessionId newFilename).beginsRename && env.forwarded
  | .removeSession sessionId env =>
      (broker.findSession sessionId).any (broker.removalSaves env)
  | .poll env => broker.pollSaves env
  | _ => false

def isSaveResponse : BrokerEvent → Bool
  | .saveResponse .. => true
  | _ => false

/-- The response to a save is handled by the session that it is sent to. -/
def handlesSaveResponse (broker : DocumentBroker) : BrokerEvent → Bool
  | .saveResponse sessionId .. => (broker.findSession sessionId).isSome
  | _ => false

end DocumentBroker

/-- A broker and the number of saves that the kit was asked for and whose responses were
not handled yet. -/
structure SavingBroker where
  broker : DocumentBroker
  unansweredSaves : Nat

/-- A client has the kit save on its own, or the broker does something. -/
inductive SavingEvent where
  | clientSave
  | broker (event : DocumentBroker.BrokerEvent)

namespace SavingBroker

/-- The kit only answers what it was asked for. -/
def step (state : SavingBroker) : SavingEvent → SavingBroker
  | .clientSave => { state with unansweredSaves := state.unansweredSaves + 1 }
  | .broker event =>
      if DocumentBroker.isSaveResponse event && state.unansweredSaves = 0 then state
      else
        { broker := state.broker.step event
          unansweredSaves := state.unansweredSaves + (state.broker.asksToSave event).toNat -
            (state.broker.handlesSaveResponse event).toNat }

def outstanding (state : SavingBroker) : Bool :=
  0 < state.unansweredSaves || state.broker.isAsyncUploading

/-- Once all responses were handled, the document is not being renamed any more. -/
def Ends (state : SavingBroker) : Prop :=
  state.broker.docState.activity = .rename → state.outstanding = true

/-!
## What keeps the renaming going
-/

/-- The session that asked for the new name may upload, or it is gone. -/
def mayRename (broker : DocumentBroker) : Bool :=
  (broker.findSession broker.renameSessionId).all (·.isEditable)

/-- After a save, the upload is asked for, or the renaming where there is nothing to upload. -/
def uploadsForRename (broker : DocumentBroker) (session : ClientSession) : Bool :=
  if broker.needToUploadToStorage then
    !(broker.docState.unloadRequested && broker.needToSaveToDisk ≠ .no) &&
      (broker.storageManager.lastUploadSuccessful ||
        broker.storageManager.canUploadNow broker.now) &&
      session.isEditable && !broker.skipsUploading "" false false
  else mayRename broker

def answeredForRename (broker : DocumentBroker) (result : UploadResult) (request : UploadRequest) :
    Bool :=
  result = .ok && (if request.isRename then true else !request.isSaveAs && mayRename broker)

/-- The step takes the next one on the way to the new name, unless a response is to come
that can. -/
def GoesOn (state : SavingBroker) : SavingEvent → Prop
  | .broker (.renameFile sessionId newFilename env) =>
      newFilename ≠ "" →
        (state.broker.noteRename sessionId newFilename).beginsRename = true →
          env.forwarded = true ∨ state.outstanding = true
  | .broker (.poll env) =>
      state.broker.isPollingIdle = true → state.broker.beginsRename = true →
        env.forwarded = true ∨ state.outstanding = true
  | .broker (.saveResponse sessionId success unmodified wasModified _) =>
      ∀ session ∈ state.broker.findSession sessionId, state.broker.docState.activity = .rename →
        state.unansweredSaves = 1 → state.broker.isAsyncUploading = false →
          uploadsForRename (state.broker.recordSaveResponse success unmodified wasModified)
            session = true
  | .broker (.uploadFinished result _ _) =>
      state.broker.docState.activity = .rename → state.unansweredSaves = 0 →
        state.broker.uploadStarted = true → ∀ request ∈ state.broker.uploadRequest,
          answeredForRename state.broker result request = true
  | _ => True

instance (state : SavingBroker) : (event : SavingEvent) → Decidable (state.GoesOn event)
  | .broker (.renameFile ..) => inferInstanceAs (Decidable (_ → _ → _))
  | .broker (.poll _) => inferInstanceAs (Decidable (_ → _ → _))
  | .broker (.saveResponse ..) => inferInstanceAs (Decidable (∀ _ ∈ _, _))
  | .broker (.uploadFinished ..) => inferInstanceAs (Decidable (_ → _ → _ → ∀ _ ∈ _, _))
  | .clientSave | .broker (.tick _) | .broker (.activity ..) | .broker (.setModified _)
  | .broker (.setSessions _) | .broker .addSessionFailed | .broker (.loaded _)
  | .broker (.kitSaved _) | .broker (.saveToStorage ..) | .broker (.uploadAs ..)
  | .broker (.templateLoaded ..) | .broker (.manualSave ..) | .broker (.removeSession ..)
  | .broker (.disconnected _) | .broker (.closeDocument _) | .broker .disconnectedFromKit
  | .broker .shutdown | .broker .terminate => .isTrue trivial

instance (state : SavingBroker) : Decidable state.Ends :=
  inferInstanceAs (Decidable (_ → _))

end SavingBroker

namespace DocumentBroker

/-!
## What the operations do to the activity
-/

/-- An upload in progress goes on, and every upload is that of a request. -/
structure KeepsUpload (before after : DocumentBroker) : Prop where
  uploading : before.isAsyncUploading = true → after.isAsyncUploading = true
  requested : (before.isAsyncUploading = true → before.uploadRequest.isSome = true) →
    after.isAsyncUploading = true → after.uploadRequest.isSome = true

/-- The activity may be ended, but none is started. -/
structure Settles (before after : DocumentBroker) : Prop extends KeepsUpload before after where
  activity : after.docState.activity = before.docState.activity ∨ after.docState.activity = .none

/-- The renaming may be ended, but it is not started. -/
structure Keeps (before after : DocumentBroker) : Prop extends KeepsUpload before after where
  notStarted : after.docState.activity = .rename → before.docState.activity = .rename
  ended : before.docState.activity = .rename →
    after.docState.activity = .rename ∨ after.docState.activity = .none

theorem isAsyncUploading_congr {broker other : DocumentBroker}
    (same : broker.storage.bind (·.uploadHttpSession) = other.storage.bind (·.uploadHttpSession)) :
    broker.isAsyncUploading = other.isAsyncUploading := by
  have bySession : ∀ broker : DocumentBroker, broker.isAsyncUploading =
      (broker.storage.bind (·.uploadHttpSession)).isSome := by
    intro broker
    rw [Bool.eq_iff_iff, isAsyncUploading_iff]
    cases broker.storage <;> simp
  rw [bySession, bySession, same]

theorem isAsyncUploading_of_storage {broker other : DocumentBroker}
    (same : broker.storage = other.storage) : broker.isAsyncUploading = other.isAsyncUploading :=
  isAsyncUploading_congr (congrArg (Option.bind · _) same)

section

variable {broker before middle after : DocumentBroker} {env : Environment}

theorem KeepsUpload.refl : broker.KeepsUpload broker := ⟨id, id⟩

theorem KeepsUpload.of_same (storage : after.storage = before.storage)
    (request : after.uploadRequest = before.uploadRequest) : before.KeepsUpload after := by
  have same := isAsyncUploading_of_storage storage
  constructor
  · rw [same]
    exact id
  · rw [same, request]
    exact id

theorem Settles.refl : broker.Settles broker := ⟨.refl, .inl rfl⟩

theorem Settles.trans (first : before.Settles middle) (second : middle.Settles after) :
    before.Settles after where
  uploading := second.uploading ∘ first.uploading
  requested := second.requested ∘ first.requested
  activity := by
    rcases second.activity with same | none
    · rw [same]
      exact first.activity
    · exact .inr none

theorem Settles.keeps (settles : before.Settles after) : before.Keeps after where
  toKeepsUpload := settles.toKeepsUpload
  notStarted := by
    intro renames
    rcases settles.activity with same | none
    · exact same.symm.trans renames
    · cases none.symm.trans renames
  ended := by
    intro renames
    rcases settles.activity with same | none
    · exact .inl (same.trans renames)
    · exact .inr none

theorem Keeps.settles (first : before.Keeps middle) (second : middle.Settles after) :
    before.Keeps after where
  uploading := second.uploading ∘ first.uploading
  requested := second.requested ∘ first.requested
  notStarted := first.notStarted ∘ second.keeps.notStarted
  ended := by
    intro renames
    rcases first.ended renames with still | none
    · exact second.keeps.ended still
    · rcases second.activity with same | none'
      · exact .inr (same.trans none)
      · exact .inr none'

private theorem settles_of_same (activity : after.docState.activity = before.docState.activity)
    (storage : after.storage = before.storage)
    (request : after.uploadRequest = before.uploadRequest) : before.Settles after :=
  ⟨.of_same storage request, .inl activity⟩

private theorem keeps_of_same (activity : after.docState.activity = before.docState.activity)
    (storage : after.storage = before.storage)
    (request : after.uploadRequest = before.uploadRequest) : before.Keeps after :=
  (settles_of_same activity storage request).keeps

private theorem settles_disconnectSessionInternal (session : ClientSession) :
    broker.Settles (broker.disconnectSessionInternal session) := by
  unfold disconnectSessionInternal setSessions finalRemoveSession
  dsimp only
  split <;> split <;> exact settles_of_same rfl rfl rfl

private theorem activity_uploadCallback (state : AsyncUploadState) :
    (broker.uploadCallback state).docState.activity = broker.docState.activity ∨
      (broker.uploadCallback state).docState.activity = .none := by
  cases state with
  | running => exact .inl rfl
  | complete => exact .inl rfl
  | none =>
      unfold uploadCallback
      dsimp only
      split
      · exact .inr rfl
      all_goals exact .inl rfl
  | error =>
      unfold uploadCallback
      dsimp only
      split
      · exact .inr rfl
      all_goals exact .inl rfl

private theorem notRenaming_uploadCallback_error :
    (broker.uploadCallback .error).docState.activity ≠ .rename := by
  unfold uploadCallback
  dsimp only
  cases activity : broker.docState.activity with
  | rename => exact nofun
  | none | saveAs | conflict | save | upload =>
      dsimp only
      rw [activity]
      exact nofun

/-- Asking for an upload refuses, which ends the renaming, or gets it going. -/
private theorem uploadLocalFileToStorageAsync_running (storage : WopiStorage)
    (saveAsPath saveAsFilename : String) (isRename : Bool) (attribs : Attributes)
    (saveAsFile : Option FileTime) (outcome : RequestOutcome) :
    let uploading := storage.uploadLocalFileToStorageAsync saveAsPath saveAsFilename isRename
      attribs saveAsFile outcome
    (storage.uploadHttpSession.isSome = true → uploading.1.uploadHttpSession.isSome = true) ∧
      (uploading.2 = .error ∨ uploading.2 = .running ∧
        uploading.1.uploadHttpSession.isSome = true) := by
  intro uploading
  cases inProgress : storage.uploadHttpSession with
  | some http => simp [uploading, WopiStorage.uploadLocalFileToStorageAsync, inProgress]
  | none =>
      simp only [uploading, WopiStorage.uploadLocalFileToStorageAsync, inProgress,
        Option.isSome_none, Bool.false_eq_true, if_false]
      split
      · exact ⟨False.elim, .inl rfl⟩
      · cases outcome with
        | throwsEarly => exact ⟨False.elim, .inl rfl⟩
        | throwsLate => exact ⟨False.elim, .inl rfl⟩
        | unconnected => exact ⟨False.elim, .inr ⟨rfl, rfl⟩⟩
        | started => exact ⟨False.elim, .inr ⟨rfl, rfl⟩⟩

section Uploads

variable (env) (session : ClientSession) (saveAsPath saveAsFilename : String)
  (isRename isExport force : Bool)

private theorem isAsyncUploading_of_stored {storage : WopiStorage}
    (stored : broker.storage = some storage) :
    broker.isAsyncUploading = storage.uploadHttpSession.isSome := by
  rw [Bool.eq_iff_iff, isAsyncUploading_iff, stored]
  simp

/-- An upload that is asked for is in progress, or there is no renaming. -/
private theorem uploadToStorageInternal_asked {storage : WopiStorage}
    (stored : broker.storage = some storage) (editable : session.isEditable = true)
    (notSkipped : broker.skipsUploading saveAsPath isRename force = false) :
    let after := broker.uploadToStorageInternal env session saveAsPath saveAsFilename isRename
      isExport force
    broker.Settles after ∧
      (after.docState.activity = .rename → after.isAsyncUploading = true) := by
  intro after
  obtain ⟨goesOn, result⟩ := uploadLocalFileToStorageAsync_running storage saveAsPath
    saveAsFilename isRename (broker.uploadingAttrs force) env.saveAsFile env.outcome
  obtain ⟨asked, isAfter, sameActivity, isStorage, isRequest⟩ : ∃ asked : DocumentBroker,
      after = asked.uploadCallback (storage.uploadLocalFileToStorageAsync saveAsPath
        saveAsFilename isRename (broker.uploadingAttrs force) env.saveAsFile env.outcome).2 ∧
      asked.docState.activity = broker.docState.activity ∧
      asked.storage = some (storage.uploadLocalFileToStorageAsync saveAsPath saveAsFilename
        isRename (broker.uploadingAttrs force) env.saveAsFile env.outcome).1 ∧
      asked.uploadRequest.isSome = true := by
    have isAfter : after = broker.uploadToStorageInternal env session saveAsPath saveAsFilename
      isRename isExport force := rfl
    simp only [uploadToStorageInternal, stored, editable, notSkipped, Bool.not_true,
      Bool.false_eq_true, if_false] at isAfter
    exact ⟨_, isAfter, rfl, rfl, rfl⟩
  have same := UploadState.mk.inj (@uploadState_uploadCallback asked
    (storage.uploadLocalFileToStorageAsync saveAsPath saveAsFilename isRename
      (broker.uploadingAttrs force) env.saveAsFile env.outcome).2)
  rw [← isAfter] at same
  have uploads := isAsyncUploading_of_stored (same.1.trans isStorage)
  refine ⟨⟨⟨?_, ?_⟩, ?_⟩, ?_⟩
  · intro uploading
    rw [isAsyncUploading_of_stored stored] at uploading
    rw [uploads]
    exact goesOn uploading
  · intro _ _
    rw [same.2.1]
    exact isRequest
  · rw [isAfter, ← sameActivity]
    exact activity_uploadCallback _
  · intro renames
    rcases result with refused | ⟨-, inProgress⟩
    · rw [isAfter, refused] at renames
      exact absurd renames notRenaming_uploadCallback_error
    · rw [uploads]
      exact inProgress

private theorem settles_uploadToStorageInternal :
    broker.Settles (broker.uploadToStorageInternal env session saveAsPath saveAsFilename isRename
      isExport force) := by
  rcases broker.uploadToStorageInternal_cases env session saveAsPath saveAsFilename isRename isExport
    force with same | ⟨storage, stored, editable, notSkipped⟩
  · rw [same]
    exact .refl
  · exact (uploadToStorageInternal_asked env session saveAsPath saveAsFilename isRename isExport
      force stored editable notSkipped).1

end Uploads

private theorem settles_uploadToStorage (session : ClientSession) (force : Bool) :
    broker.Settles (broker.uploadToStorage env session force) := by
  unfold uploadToStorage
  split
  · exact settles_uploadToStorageInternal ..
  · exact .refl

private theorem settles_renameInStorage : broker.Settles (broker.renameInStorage env) := by
  unfold renameInStorage
  split
  · exact ⟨.of_same rfl rfl, .inr rfl⟩
  · exact settles_uploadToStorageInternal ..

/-- The renaming in the storage is asked for exactly if the session may upload. -/
private theorem ends_renameInStorage (stored : broker.storage.isSome = true)
    (renames : broker.docState.activity = .rename) (idle : broker.isAsyncUploading = false) :
    ((broker.renameInStorage env).docState.activity = .rename →
        (broker.renameInStorage env).isAsyncUploading = true) ↔
      SavingBroker.mayRename broker = true := by
  obtain ⟨storage, isStorage⟩ := Option.isSome_iff_exists.mp stored
  unfold renameInStorage SavingBroker.mayRename
  cases found : broker.findSession broker.renameSessionId with
  | none => simp [endRenameFileCommand, DocumentState.setActivity]
  | some session =>
      dsimp only
      rw [Option.all_some]
      cases editable : session.isEditable with
      | true =>
          exact iff_of_true (uploadToStorageInternal_asked env session "" broker.renameFilename true
            false false isStorage editable (by simp [skipsUploading])).2 rfl
      | false =>
          simp [uploadToStorageInternal, isStorage, editable, renames, idle]

private theorem settles_stopIfUnloaded (session : ClientSession) :
    broker.Settles (broker.stopIfUnloaded session) := by
  have dropped : broker.Settles (broker.dropSession session) := by
    unfold dropSession
    split
    · exact settles_disconnectSessionInternal session
    · exact .refl
  unfold stopIfUnloaded
  split
  · exact .refl
  · dsimp only
    split
    · exact dropped.trans (settles_of_same rfl rfl rfl)
    · exact dropped

private theorem settles_checkAndUploadToStorage (session : ClientSession) :
    broker.Settles (broker.checkAndUploadToStorage env session) := by
  have uploads : ∀ checked : DocumentBroker, broker.Settles checked → broker.Settles
      (if checked.docState.unloadRequested && checked.needToSaveToDisk ≠ .no then checked
      else
        (if broker.needToUploadToStorage then checked.uploadToStorage env session false
          else checked).stopIfUnloaded session) := by
    intro checked settles
    split
    · exact settles
    · split
      · exact settles.trans ((settles_uploadToStorage ..).trans (settles_stopIfUnloaded session))
      · exact settles.trans (settles_stopIfUnloaded session)
  unfold checkAndUploadToStorage
  dsimp only
  split
  · exact settles_renameInStorage
  · apply uploads
    split
    · exact ⟨.of_same rfl rfl, .inr rfl⟩
    · exact .refl

private theorem activity_stopIfUnloaded (session : ClientSession) :
    (broker.stopIfUnloaded session).docState.activity = broker.docState.activity ∧
      (broker.stopIfUnloaded session).isAsyncUploading = broker.isAsyncUploading := by
  have dropped : (broker.dropSession session).docState.activity = broker.docState.activity ∧
      (broker.dropSession session).storage = broker.storage := by
    unfold dropSession disconnectSessionInternal setSessions finalRemoveSession
    dsimp only
    split
    · split <;> split <;> exact ⟨rfl, rfl⟩
    · exact ⟨rfl, rfl⟩
  unfold stopIfUnloaded
  split
  · exact ⟨rfl, rfl⟩
  · dsimp only
    have same := isAsyncUploading_of_storage dropped.2
    split
    · exact ⟨dropped.1, same⟩
    · exact ⟨dropped.1, same⟩

/-- After a save, the renaming goes on exactly if the next thing is asked for. -/
private theorem ends_checkAndUploadToStorage (stored : broker.storage.isSome = true)
    (renames : broker.docState.activity = .rename) (idle : broker.isAsyncUploading = false)
    (session : ClientSession) :
    ((broker.checkAndUploadToStorage env session).docState.activity = .rename →
        (broker.checkAndUploadToStorage env session).isAsyncUploading = true) ↔
      SavingBroker.uploadsForRename broker session = true := by
  obtain ⟨storage, isStorage⟩ := Option.isSome_iff_exists.mp stored
  unfold checkAndUploadToStorage SavingBroker.uploadsForRename
  rw [renames]
  cases needed : broker.needToUploadToStorage with
  | false => exact ends_renameInStorage stored renames idle
  | true =>
      simp only [decide_true, Bool.not_true, Bool.and_false, Bool.false_eq_true, if_false, if_true,
        reduceCtorEq]
      cases waits : broker.docState.unloadRequested && decide (broker.needToSaveToDisk ≠ .no) with
      | true => simp [renames, idle]
      | false =>
          simp only [Bool.false_eq_true, if_false, Bool.not_false, Bool.true_and]
          rw [(activity_stopIfUnloaded session).1, (activity_stopIfUnloaded session).2]
          unfold uploadToStorage
          rw [Bool.false_or]
          cases canUpload : broker.storageManager.lastUploadSuccessful ||
              broker.storageManager.canUploadNow broker.now with
          | false => simp [renames, idle]
          | true =>
              rw [if_pos rfl, Bool.true_and]
              cases editable : session.isEditable with
              | false => simp [uploadToStorageInternal, isStorage, editable, renames, idle]
              | true =>
                  cases skips : broker.skipsUploading "" false false with
                  | true =>
                      simp [uploadToStorageInternal, isStorage, editable, skips, renames, idle]
                  | false =>
                      exact iff_of_true (uploadToStorageInternal_asked env session "" "" false false
                        false isStorage editable skips).2 rfl

/-!
## What asks for a save
-/

private theorem keeps_sendUnoSave (isAutosave : Bool) (extendedData : String) :
    broker.Keeps (broker.sendUnoSave env isAutosave extendedData).2 := by
  unfold sendUnoSave
  dsimp only
  split
  · split
    · next none =>
        refine ⟨.of_same rfl rfl, nofun, ?_⟩
        intro renames
        cases none.symm.trans renames
    · exact keeps_of_same rfl rfl rfl
  · exact keeps_of_same rfl rfl rfl

private theorem keeps_autoSave (force : Bool) : broker.Keeps (broker.autoSave env force).2 := by
  have checked : broker.Keeps
      { broker with saveManager := broker.saveManager.autoSaveChecked broker.now } :=
    keeps_of_same rfl rfl rfl
  have saved : ∀ isAutosave, broker.Keeps
      (({ broker with
          saveManager := broker.saveManager.autoSaveChecked broker.now } : DocumentBroker).sendUnoSave
        env isAutosave "").2 := by
    intro isAutosave
    obtain ⟨upload, notStarted, ended⟩ := @keeps_sendUnoSave { broker with
      saveManager := broker.saveManager.autoSaveChecked broker.now } env isAutosave ""
    exact ⟨⟨upload.uploading, upload.requested⟩, notStarted, ended⟩
  unfold autoSave
  split
  · exact Settles.refl.keeps
  · dsimp only
    split
    · exact checked
    · split
      · exact checked
      · split
        · exact checked
        · split
          · exact saved false
          · split
            · exact saved true
            · exact checked

private theorem keeps_autoSaveAndStop (reason : String) :
    broker.Keeps (broker.autoSaveAndStop env reason) := by
  unfold autoSaveAndStop
  split
  · exact Settles.refl.keeps
  · split
    · exact Settles.refl.keeps
    · exact keeps_of_same rfl rfl rfl
    · split
      · have saved : broker.Keeps (broker.autoSave env broker.isPossiblyModified).2 :=
          keeps_autoSave _
        split
        · next after same =>
            rw [same] at saved
            exact saved
        · next after same =>
            rw [same] at saved
            split
            · split
              · exact saved.settles (settles_checkAndUploadToStorage _)
              · exact saved.settles (settles_of_same rfl rfl rfl)
            · exact saved.settles (settles_of_same rfl rfl rfl)
      · exact Settles.refl.keeps

private theorem keeps_removeSession (session : ClientSession) :
    broker.Keeps (broker.removeSession env session) := by
  have saved : broker.Keeps (broker.saveOrDisconnect env session) := by
    unfold saveOrDisconnect
    split
    · exact (settles_disconnectSessionInternal session).keeps
    · split
      · exact Settles.refl.keeps
      · have saved : broker.Keeps (broker.autoSave env broker.isPossiblyModified).2 :=
          keeps_autoSave _
        split
        · next after same =>
            rw [same] at saved
            exact saved
        · next after same =>
            rw [same] at saved
            exact saved.settles (settles_disconnectSessionInternal session)
  have unloads : ∀ removed : DocumentBroker, removed.Settles removed.unloadAfterLast := by
    intro removed
    unfold unloadAfterLast
    split
    · exact settles_of_same rfl rfl rfl
    · split <;> exact settles_of_same rfl rfl rfl
  unfold removeSession
  dsimp only
  split
  · exact saved.settles (unloads _)
  · exact saved

private theorem keeps_manualSave (extendedData : String) :
    broker.Keeps (broker.manualSave env extendedData).2 := by
  unfold manualSave
  split
  · exact keeps_sendUnoSave ..
  · exact Settles.refl.keeps

private theorem settles_closeDocument (reason : String) :
    broker.Settles (broker.closeDocument reason) := by
  unfold closeDocument
  dsimp only
  split <;> exact settles_of_same rfl rfl rfl

private theorem recordSaveResponse_same (success unmodified : Bool) (wasModified : Option Bool) :
    let recorded := broker.recordSaveResponse success unmodified wasModified
    recorded.docState = broker.docState ∧ recorded.uploadRequest = broker.uploadRequest ∧
      recorded.storage.isSome = broker.storage.isSome ∧
      recorded.isAsyncUploading = broker.isAsyncUploading := by
  refine ⟨rfl, rfl, ?_, ?_⟩
  · simp [recordSaveResponse, renameToUploading]
  · apply isAsyncUploading_congr
    unfold recordSaveResponse renameToUploading
    cases stored : broker.storage with
    | none => simp
    | some storage =>
        simp only [Option.map_some, Option.bind_some]
        unfold WopiStorage.renameToUploading
        split <;> rfl

/-- What starts the renaming: a session asks for it, or the polling loop finds it queued. -/
def startsRename (broker : DocumentBroker) : BrokerEvent → Bool
  | .renameFile sessionId newFilename _ =>
      newFilename ≠ "" && (broker.noteRename sessionId newFilename).beginsRename
  | .poll _ => broker.isPollingIdle && broker.beginsRename
  | _ => false

private theorem sendUnoSave_renaming (renames : broker.docState.activity = .rename)
    (isAutosave : Bool) (extendedData : String) :
    let after := (broker.sendUnoSave env isAutosave extendedData).2
    after.docState.activity = .rename ∧ after.storage = broker.storage ∧
      after.uploadRequest = broker.uploadRequest := by
  unfold sendUnoSave
  dsimp only
  split
  · split
    · next none => cases none.symm.trans renames
    · exact ⟨renames, rfl, rfl⟩
  · exact ⟨renames, rfl, rfl⟩

private theorem startRenameFileCommand_begins (begins : broker.beginsRename = true) :
    let after := broker.startRenameFileCommand env
    after.docState.activity = .rename ∧ after.storage = broker.storage ∧
      after.uploadRequest = broker.uploadRequest := by
  simp only [beginsRename, ne_eq, decide_not, Bool.and_eq_true, Bool.not_eq_true',
    decide_eq_false_iff_not, decide_eq_true_eq] at begins
  obtain ⟨⟨⟨session, filename⟩, none⟩, isHere⟩ := begins
  obtain ⟨found, isFound⟩ := Option.isSome_iff_exists.mp isHere
  have same : (({ broker with docState := broker.docState.setActivity .rename } :
      DocumentBroker).findSession broker.renameSessionId) = some found := isFound
  unfold startRenameFileCommand
  simp only [session, filename, none, same, decide_false, Bool.or_self, Bool.false_eq_true,
    if_false, ne_eq, not_true_eq_false]
  exact @sendUnoSave_renaming
    { broker with docState := broker.docState.setActivity .rename } env rfl false ""

private theorem settles_startRenameFileCommand (notBegun : broker.beginsRename = false) :
    broker.Settles (broker.startRenameFileCommand env) := by
  unfold startRenameFileCommand
  split
  · exact .refl
  · next named =>
      split
      · exact .refl
      · next none =>
          dsimp only
          split
          · exact ⟨.of_same rfl rfl, .inr rfl⟩
          · next session found =>
              have isHere : (broker.findSession broker.renameSessionId).isSome = true :=
                Option.isSome_iff_exists.mpr ⟨session, found⟩
              simp only [Bool.or_eq_true, decide_eq_true_eq, not_or] at named
              simp [beginsRename, named.1, named.2, Decidable.not_not.mp none, isHere] at notBegun

private theorem idleAction_of_begins (begins : broker.beginsRename = true) :
    broker.idleAction = .startRename := by
  simp only [beginsRename, ne_eq, decide_not, Bool.and_eq_true, Bool.not_eq_true',
    decide_eq_false_iff_not, decide_eq_true_eq] at begins
  simp [idleAction, begins]

private theorem handleRenameFileCommand_starts {sessionId newFilename : String}
    (named : newFilename ≠ "")
    (begins : (broker.noteRename sessionId newFilename).beginsRename = true) :
    broker.handleRenameFileCommand env sessionId newFilename =
      (broker.noteRename sessionId newFilename).startRenameFileCommand env := by
  have idle : broker.docState.activity = .none := by
    simp only [beginsRename, Bool.and_eq_true, decide_eq_true_eq] at begins
    exact begins.1.2
  simp [handleRenameFileCommand, named, idle, noteRename]

private theorem settles_handleRenameFileCommand {sessionId newFilename : String}
    (notStarted : broker.startsRename (.renameFile sessionId newFilename env) = false) :
    broker.Settles (broker.handleRenameFileCommand env sessionId newFilename) := by
  unfold handleRenameFileCommand
  split
  · exact .refl
  · next named =>
      split
      · exact .refl
      · dsimp only
        split
        · have notBegun : (broker.noteRename sessionId newFilename).beginsRename = false := by
            simpa [startsRename, named] using notStarted
          obtain ⟨⟨uploading, requested⟩, activity⟩ :=
            @settles_startRenameFileCommand _ env notBegun
          exact ⟨⟨uploading, requested⟩, activity⟩
        · exact settles_of_same rfl rfl rfl

/-- An event that starts the renaming has the kit save if it gets the message. -/
private structure StartsRename (broker started : DocumentBroker) (event : BrokerEvent)
    (env : Environment) : Prop where
  step : broker.step event = started.startRenameFileCommand env
  begins : started.beginsRename = true
  storage : started.storage = broker.storage
  uploadRequest : started.uploadRequest = broker.uploadRequest
  activity : broker.docState.activity = .none
  asks : broker.asksToSave event = env.forwarded
  notResponse : isSaveResponse event = false
  notHandled : broker.handlesSaveResponse event = false

private theorem renameFile_starts {sessionId newFilename : String}
    (starts : broker.startsRename (.renameFile sessionId newFilename env) = true) :
    StartsRename broker (broker.noteRename sessionId newFilename)
      (.renameFile sessionId newFilename env) env := by
  simp only [startsRename, ne_eq, decide_not, Bool.and_eq_true, Bool.not_eq_true',
    decide_eq_false_iff_not] at starts
  obtain ⟨named, begins⟩ := starts
  have idle : broker.docState.activity = .none := by
    simp only [beginsRename, Bool.and_eq_true, decide_eq_true_eq] at begins
    exact begins.1.2
  exact ⟨handleRenameFileCommand_starts named begins, begins, rfl, rfl, idle,
    by simp [asksToSave, named, begins], rfl, rfl⟩

private theorem poll_starts (starts : broker.startsRename (.poll env) = true) :
    StartsRename broker broker (.poll env) env := by
  simp only [startsRename, Bool.and_eq_true] at starts
  obtain ⟨idle, begins⟩ := starts
  have action := idleAction_of_begins begins
  have asks : broker.asksToSave (.poll env) = env.forwarded := by
    simp [asksToSave, pollSaves, idle, action, begins]
  simp only [isPollingIdle, Bool.and_eq_true, Bool.not_eq_true', decide_eq_true_eq] at idle
  obtain ⟨running, none⟩ := idle
  refine ⟨?_, begins, rfl, rfl, none, asks, rfl, rfl⟩
  simp [step, poll, running, none, pollIdle, action]

private theorem keeps_poll (notStarted : broker.startsRename (.poll env) = false) :
    broker.Keeps (broker.poll env) := by
  unfold poll
  split
  · exact Settles.refl.keeps
  · next running =>
      split
      · next idle =>
          have notBegun : broker.beginsRename = false := by
            simpa [startsRename, isPollingIdle, running, idle] using notStarted
          unfold pollIdle
          cases broker.idleAction with
          | nothing => exact Settles.refl.keeps
          | startRename => exact (settles_startRenameFileCommand notBegun).keeps
          | autoSaveAndStop reason => exact keeps_autoSaveAndStop reason
          | stopDead =>
              obtain ⟨⟨uploading, requested⟩, notStarted, ended⟩ :=
                @keeps_autoSaveAndStop (broker.stop .poll "dead") env "dead"
              exact ⟨⟨uploading, requested⟩, notStarted, ended⟩
          | stopFailed => exact keeps_of_same rfl rfl rfl
          | autoSave => exact keeps_autoSave false
          | retryUpload session => exact (settles_checkAndUploadToStorage session).keeps
      · split
        · exact Settles.keeps ⟨.of_same rfl rfl, .inr rfl⟩
        · exact Settles.refl.keeps
      · split
        · exact Settles.keeps ⟨.of_same rfl rfl, .inr rfl⟩
        · exact Settles.refl.keeps
      all_goals exact keeps_of_same rfl rfl rfl

private theorem settles_withSession (id : String) {operation : ClientSession → DocumentBroker}
    (settles : ∀ session, broker.Settles (operation session)) :
    broker.Settles (broker.withSession id operation) := by
  unfold withSession
  split
  · exact .refl
  · exact settles _

private theorem settles_handleSaveResponse (session : ClientSession) (success unmodified : Bool)
    (wasModified : Option Bool) :
    broker.Settles (broker.handleSaveResponse env session success unmodified wasModified) := by
  obtain ⟨docState, request, -, uploading⟩ :=
    @recordSaveResponse_same broker success unmodified wasModified
  have recorded : broker.Settles (broker.recordSaveResponse success unmodified wasModified) := by
    refine ⟨⟨?_, ?_⟩, .inl (by rw [docState])⟩
    · rw [uploading]
      exact id
    · rw [uploading, request]
      exact id
  exact recorded.trans (settles_checkAndUploadToStorage session)

private theorem settles_renameToUploading : broker.Settles broker.renameToUploading := by
  have same : broker.renameToUploading.isAsyncUploading = broker.isAsyncUploading := by
    apply isAsyncUploading_congr
    unfold renameToUploading
    cases stored : broker.storage with
    | none => simp
    | some storage =>
        simp only [Option.map_some, Option.bind_some]
        unfold WopiStorage.renameToUploading
        split <;> rfl
  refine ⟨⟨?_, ?_⟩, .inl rfl⟩
  · rw [same]
    exact id
  · rw [same]
    exact id

/-- All but what starts the renaming and what the storage answers. -/
private theorem keeps_step (event : BrokerEvent) (notStarted : broker.startsRename event = false)
    (notAnswered : ∀ result reported env, event ≠ .uploadFinished result reported env) :
    broker.Keeps (broker.step event) := by
  cases event with
  | tick | activity | setModified | setSessions | disconnected | shutdown | terminate =>
      exact keeps_of_same rfl rfl rfl
  | addSessionFailed =>
      unfold step addSessionFailed
      dsimp only
      split <;> exact keeps_of_same rfl rfl rfl
  | loaded =>
      unfold step setLoaded
      dsimp only
      split <;> exact keeps_of_same rfl rfl rfl
  | kitSaved time =>
      have same : (broker.step (.kitSaved time)).isAsyncUploading = broker.isAsyncUploading := by
        apply isAsyncUploading_congr
        cases stored : broker.storage <;> simp [step, stored]
      refine Settles.keeps ⟨⟨?_, ?_⟩, .inl rfl⟩
      · rw [same]
        exact id
      · rw [same]
        exact id
  | saveResponse sessionId success unmodified wasModified env =>
      exact (settles_withSession sessionId fun session =>
        settles_handleSaveResponse session success unmodified wasModified).keeps
  | uploadFinished result reported env => exact absurd rfl (notAnswered result reported env)
  | saveToStorage sessionId force env =>
      exact (settles_withSession sessionId fun session => settles_uploadToStorage session force).keeps
  | uploadAs sessionId path filename isRename isExport env =>
      exact (settles_withSession sessionId fun session =>
        settles_uploadToStorageInternal env session path filename isRename isExport false).keeps
  | templateLoaded sessionId env =>
      exact (settles_withSession sessionId fun session =>
        settles_renameToUploading.trans (settles_uploadToStorage session false)).keeps
  | manualSave extendedData env => exact keeps_manualSave extendedData
  | renameFile sessionId newFilename env => exact (settles_handleRenameFileCommand notStarted).keeps
  | removeSession sessionId env =>
      unfold step withSession
      dsimp only
      split
      · exact Settles.refl.keeps
      · exact keeps_removeSession _
  | closeDocument reason => exact (settles_closeDocument reason).keeps
  | disconnectedFromKit =>
      unfold step disconnectedFromKit
      dsimp only
      split
      · obtain ⟨⟨uploading, requested⟩, activity⟩ := @settles_closeDocument { broker with
          docState := { broker.docState with disconnected := true } } "docdisconnected"
        exact Settles.keeps ⟨⟨uploading, requested⟩, activity⟩
      · exact keeps_of_same rfl rfl rfl
  | poll env => exact keeps_poll notStarted

/-!
## What the storage answers
-/

private theorem settles_stopIfUploaded : broker.Settles broker.stopIfUploaded := by
  unfold stopIfUploaded
  dsimp only
  split <;> split <;> exact settles_of_same rfl rfl rfl

private theorem activity_stopIfUploaded :
    broker.stopIfUploaded.docState.activity = broker.docState.activity ∧
      broker.stopIfUploaded.storage = broker.storage := by
  unfold stopIfUploaded
  dsimp only
  split <;> split <;> exact ⟨rfl, rfl⟩

private theorem activity_handleUploadFailure (request : UploadRequest) (result : UploadResult) :
    let after := broker.handleUploadFailure env request result
    after.docState.activity = broker.docState.activity ∧ after.storage = broker.storage ∧
      after.uploadRequest = broker.uploadRequest := by
  cases result with
  | ok | tooLarge | diskfull | unauthorized | failed => exact ⟨rfl, rfl, rfl⟩
  | docChanged | conflict =>
      unfold handleUploadFailure
      dsimp only
      split <;> exact ⟨rfl, rfl, rfl⟩

private theorem settles_handleUploaded (request : UploadRequest) :
    broker.Settles (broker.handleUploaded env request) := by
  have recorded : broker.Settles (broker.recordUploaded request) := settles_of_same rfl rfl rfl
  unfold handleUploaded
  dsimp only
  split
  · split
    · exact recorded.trans settles_renameInStorage
    all_goals exact recorded
  · split
    · exact ⟨.of_same rfl rfl, .inr rfl⟩
    · exact .refl

private theorem settles_handleUploadToStorageResponse (result : UploadResult) :
    broker.Settles (broker.handleUploadToStorageResponse env result) := by
  unfold handleUploadToStorageResponse
  split
  · exact .refl
  · next request _ =>
      have noted : broker.Settles { broker with storageManager :=
          broker.storageManager.setLastUploadResult broker.now (result = UploadResult.ok) } :=
        settles_of_same rfl rfl rfl
      split
      · exact noted.trans ((settles_handleUploaded request).trans settles_stopIfUploaded)
      · obtain ⟨activity, storage, same⟩ := @activity_handleUploadFailure
          { broker with storageManager :=
            broker.storageManager.setLastUploadResult broker.now (result = UploadResult.ok) }
          env request result
        exact noted.trans (settles_of_same activity storage same)

/-- The answer goes on with the renaming, or ends it, exactly if it is OK and was waited
for. -/
private theorem ends_handleUploadToStorageResponse (stored : broker.storage.isSome = true)
    (renames : broker.docState.activity = .rename) (idle : broker.isAsyncUploading = false)
    {request : UploadRequest} (requested : broker.uploadRequest = some request)
    (result : UploadResult) :
    ((broker.handleUploadToStorageResponse env result).docState.activity = .rename →
        (broker.handleUploadToStorageResponse env result).isAsyncUploading = true) ↔
      SavingBroker.answeredForRename broker result request = true := by
  let noted := { broker with storageManager :=
    broker.storageManager.setLastUploadResult broker.now (result = UploadResult.ok) }
  have isNoted : broker.handleUploadToStorageResponse env result =
      if result = UploadResult.ok then (noted.handleUploaded env request).stopIfUploaded
      else noted.handleUploadFailure env request result := by
    unfold handleUploadToStorageResponse
    split
    · next none => cases none.symm.trans requested
    · next other isOther =>
        cases isOther.symm.trans requested
        rfl
  rw [isNoted]
  unfold SavingBroker.answeredForRename
  by_cases ok : result = .ok
  · have stops := @activity_stopIfUploaded (noted.handleUploaded env request)
    rw [if_pos ok, stops.1, isAsyncUploading_of_storage stops.2]
    unfold handleUploaded
    cases isRename : request.isRename with
    | true => simp [ok, endRenameFileCommand, DocumentState.setActivity]
    | false =>
        cases isSaveAs : request.isSaveAs with
        | true =>
            have still : noted.docState.activity = .rename := renames
            have notUploading : noted.isAsyncUploading = false := idle
            simp [still, notUploading]
        | false =>
            have still : (noted.recordUploaded request).docState.activity = .rename := renames
            simp only [ok, decide_true, Bool.not_false, Bool.and_self, if_true, still,
              Bool.false_eq_true, if_false, Bool.true_and]
            exact @ends_renameInStorage (noted.recordUploaded request) env stored renames idle
  · obtain ⟨activity, storage, -⟩ :=
      @activity_handleUploadFailure noted env request result
    have notUploading : (noted.handleUploadFailure env request result).isAsyncUploading = false :=
      (isAsyncUploading_of_storage storage).trans idle
    rw [if_neg ok, activity, notUploading]
    simp [ok, noted, renames]

end

end DocumentBroker

/-!
## The renaming over a run
-/

namespace SavingBroker

/-- There is a document in the storage, and every upload is that of a request. -/
structure Sound (state : SavingBroker) : Prop where
  stored : state.broker.storage.isSome = true
  requested : state.broker.isAsyncUploading = true → state.broker.uploadRequest.isSome = true

/-- After the event the renaming goes on only if a response is to come, and what it was
ended for is that there is no activity. -/
def EndsAt (state : SavingBroker) (event : SavingEvent) : Prop :=
  (state.step event).Ends ∧ (state.broker.docState.activity = .rename →
    (state.step event).broker.docState.activity = .rename ∨
      (state.step event).broker.docState.activity = .none)

instance (state : SavingBroker) (event : SavingEvent) : Decidable (state.EndsAt event) :=
  inferInstanceAs (Decidable (_ ∧ (_ → _)))

variable {state : SavingBroker} {env : Environment}

private theorem outstanding_iff :
    state.outstanding = true ↔
      0 < state.unansweredSaves ∨ state.broker.isAsyncUploading = true := by
  simp [outstanding]

private theorem step_ignored {event : DocumentBroker.BrokerEvent}
    (response : DocumentBroker.isSaveResponse event = true) (none : state.unansweredSaves = 0) :
    state.step (.broker event) = state := by
  simp [step, response, none]

/-- An event that is not ignored ends the renaming or leaves a response to come. -/
private theorem endsAt_iff {event : DocumentBroker.BrokerEvent}
    (taken : DocumentBroker.isSaveResponse event = true → 0 < state.unansweredSaves) :
    state.EndsAt (.broker event) ↔
      ((state.broker.step event).docState.activity = .rename →
          0 < state.unansweredSaves + (state.broker.asksToSave event).toNat -
              (state.broker.handlesSaveResponse event).toNat ∨
            (state.broker.step event).isAsyncUploading = true) ∧
        (state.broker.docState.activity = .rename →
          (state.broker.step event).docState.activity = .rename ∨
            (state.broker.step event).docState.activity = .none) := by
  have isStep : state.step (.broker event) =
      { broker := state.broker.step event
        unansweredSaves := state.unansweredSaves + (state.broker.asksToSave event).toNat -
          (state.broker.handlesSaveResponse event).toNat } := by
    unfold step
    dsimp only
    cases response : DocumentBroker.isSaveResponse event with
    | false => simp
    | true => simp [Nat.pos_iff_ne_zero.mp (taken response)]
  unfold EndsAt Ends
  rw [isStep, outstanding_iff]

/-- What is not a response leaves all responses to come. -/
private theorem kept_step {event : DocumentBroker.BrokerEvent} (ends : state.Ends)
    (keeps : state.broker.Keeps (state.broker.step event))
    (notResponse : DocumentBroker.isSaveResponse event = false)
    (notHandled : state.broker.handlesSaveResponse event = false) :
    state.EndsAt (.broker event) := by
  refine (endsAt_iff (by simp [notResponse])).mpr ⟨?_, keeps.ended⟩
  intro renames
  rw [notHandled, Bool.toNat_false, Nat.sub_zero]
  rcases outstanding_iff.mp (ends (keeps.notStarted renames)) with unanswered | uploading
  · exact .inl (Nat.add_pos_left unanswered _)
  · exact .inr (keeps.uploading uploading)

/-- The renaming starts with asking the kit to save, or with a save that was asked for
before. -/
private theorem started_step {event : DocumentBroker.BrokerEvent} {started : DocumentBroker}
    (starts : state.broker.StartsRename started event env) :
    state.EndsAt (.broker event) ↔ env.forwarded = true ∨ state.outstanding = true := by
  obtain ⟨renames, storage, -⟩ := DocumentBroker.startRenameFileCommand_begins starts.begins
  have uploading := DocumentBroker.isAsyncUploading_of_storage (storage.trans starts.storage)
  rw [endsAt_iff (by simp [starts.notResponse]), starts.notHandled, starts.asks, starts.step,
    renames, uploading, starts.activity, outstanding_iff]
  cases env.forwarded with
  | true => simp
  | false => simp

private theorem endsAt_saveResponse (sound : state.Sound) (ends : state.Ends) (sessionId : String)
    (success unmodified : Bool) (wasModified : Option Bool) :
    let response := DocumentBroker.BrokerEvent.saveResponse sessionId success unmodified
      wasModified env
    state.EndsAt (.broker response) ↔ state.GoesOn (.broker response) := by
  intro response
  rcases Nat.eq_zero_or_pos state.unansweredSaves with none | unanswered
  · refine iff_of_true ?_ ?_
    · unfold EndsAt
      rw [step_ignored rfl none]
      exact ⟨ends, .inl⟩
    · intro session _ _ one
      omega
  have keeps : state.broker.Keeps (state.broker.step response) :=
    DocumentBroker.keeps_step response rfl nofun
  rw [endsAt_iff fun _ => unanswered, and_iff_left keeps.ended]
  cases found : state.broker.findSession sessionId with
  | none =>
      have notHandled : state.broker.handlesSaveResponse response = false := by
        simp [response, DocumentBroker.handlesSaveResponse, found]
      refine iff_of_true ?_ ?_
      · intro _
        rw [notHandled]
        exact .inl (Nat.add_pos_left unanswered _)
      · intro session isFound
        cases found.symm.trans isFound
  | some session =>
      have handled : state.broker.handlesSaveResponse response = true := by
        simp [response, DocumentBroker.handlesSaveResponse, found]
      have isStep : state.broker.step response =
          (state.broker.recordSaveResponse success unmodified wasModified).checkAndUploadToStorage
            env session := by
        simp [response, DocumentBroker.step, DocumentBroker.withSession, found,
          DocumentBroker.handleSaveResponse]
      obtain ⟨docState, -, storage, sameUploading⟩ :=
        @DocumentBroker.recordSaveResponse_same state.broker success unmodified wasModified
      have isLast : state.unansweredSaves + (state.broker.asksToSave response).toNat -
          (state.broker.handlesSaveResponse response).toNat = state.unansweredSaves - 1 := by
        rw [handled]
        rfl
      rw [isLast]
      by_cases renames : state.broker.docState.activity = .rename
      case neg =>
        refine iff_of_true (fun after => absurd (keeps.notStarted after) renames) ?_
        intro _ _ renames'
        exact absurd renames' renames
      by_cases one : state.unansweredSaves = 1
      case neg =>
        refine iff_of_true (fun _ => .inl (by omega)) ?_
        intro _ _ _ one'
        exact absurd one' one
      cases uploading : state.broker.isAsyncUploading with
      | true =>
          refine iff_of_true (fun _ => .inr (keeps.uploading uploading)) ?_
          intro _ _ _ _ idle
          cases uploading.symm.trans idle
      | false =>
          have goesOn : state.GoesOn (.broker response) ↔ uploadsForRename
              (state.broker.recordSaveResponse success unmodified wasModified) session = true := by
            constructor
            · intro goesOn
              exact goesOn session found renames one uploading
            · intro uploads other isFound _ _ _
              cases found.symm.trans isFound
              exact uploads
          rw [goesOn, isStep, one]
          have ends := @DocumentBroker.ends_checkAndUploadToStorage _ env
            (storage.trans sound.stored) ((congrArg (·.activity) docState).trans renames)
            (sameUploading.trans uploading) session
          simpa using ends

private theorem endsAt_uploadFinished (sound : state.Sound) (ends : state.Ends)
    (result : UploadResult) (reported : Option String) :
    let answer := DocumentBroker.BrokerEvent.uploadFinished result reported env
    state.EndsAt (.broker answer) ↔ state.GoesOn (.broker answer) := by
  intro answer
  cases started : state.broker.uploadStarted with
  | false =>
      have ignored := DocumentBroker.uploadFinished_ignored started env result reported
      refine iff_of_true (kept_step ends ?_ rfl rfl) ?_
      · show state.broker.Keeps (state.broker.uploadFinished env result reported)
        rw [ignored]
        exact DocumentBroker.Settles.refl.keeps
      · intro _ _ isStarted
        cases started.symm.trans isStarted
  | true =>
      obtain ⟨storage, acknowledged, isOver, isStep⟩ :=
        DocumentBroker.uploadFinished_retires started env result reported
      let retired := { state.broker with storage := some storage, acknowledged := acknowledged }
      have idle : retired.isAsyncUploading = false := by
        simp [retired, DocumentBroker.isAsyncUploading, isOver,
          WopiStorage.queryLocalFileToStorageAsyncUploadState]
      have settles := @DocumentBroker.settles_handleUploadToStorageResponse retired env result
      have isStep : state.broker.step answer = retired.handleUploadToStorageResponse env result :=
        isStep
      have notResponse : DocumentBroker.isSaveResponse answer = false := rfl
      rw [endsAt_iff (by simp [notResponse]), isStep, and_iff_left settles.keeps.ended]
      have isLast : state.unansweredSaves + (state.broker.asksToSave answer).toNat -
          (state.broker.handlesSaveResponse answer).toNat = state.unansweredSaves := rfl
      rw [isLast]
      by_cases renames : state.broker.docState.activity = .rename
      case neg =>
        refine iff_of_true ?_ (fun renames' => absurd renames' renames)
        intro after
        exact absurd (settles.keeps.notStarted after) renames
      rcases Nat.eq_zero_or_pos state.unansweredSaves with none | unanswered
      case inr => exact iff_of_true (fun _ => .inl unanswered) (fun _ none => by omega)
      have uploading := DocumentBroker.isAsyncUploading_of_started started
      obtain ⟨request, requested⟩ := Option.isSome_iff_exists.mp (sound.requested uploading)
      have goesOn : state.GoesOn (.broker answer) ↔
          answeredForRename retired result request = true := by
        constructor
        · intro goesOn
          exact goesOn renames none started request requested
        · intro answered _ _ _ other isRequest
          cases requested.symm.trans isRequest
          exact answered
      rw [goesOn, none]
      have ends := @DocumentBroker.ends_handleUploadToStorageResponse retired env rfl renames idle
        request requested result
      simpa using ends

private theorem storage_step (event : DocumentBroker.BrokerEvent) :
    (state.broker.step event).storage.isSome = state.broker.storage.isSome := by
  cases keepsSessions : event.keepsSessions with
  | true => exact (DocumentBroker.Ages.step event keepsSessions).storage
  | false =>
      cases event with
      | setSessions => rfl
      | addSessionFailed =>
          unfold DocumentBroker.step DocumentBroker.addSessionFailed
          dsimp only
          split <;> rfl
      | loaded =>
          unfold DocumentBroker.step DocumentBroker.setLoaded
          dsimp only
          split <;> rfl
      | _ => cases keepsSessions

private theorem requested_step (sound : state.Sound) (event : DocumentBroker.BrokerEvent) :
    (state.broker.step event).isAsyncUploading = true →
      (state.broker.step event).uploadRequest.isSome = true := by
  have started : ∀ started env, state.broker.StartsRename started event env →
      (state.broker.step event).isAsyncUploading = true →
        (state.broker.step event).uploadRequest.isSome = true := by
    intro started env starts
    obtain ⟨-, storage, request⟩ := DocumentBroker.startRenameFileCommand_begins starts.begins
    rw [starts.step]
    exact (DocumentBroker.KeepsUpload.of_same (storage.trans starts.storage)
      (request.trans starts.uploadRequest)).requested sound.requested
  cases starts : state.broker.startsRename event with
  | true =>
      cases event with
      | renameFile sessionId newFilename env =>
          exact started _ env (DocumentBroker.renameFile_starts starts)
      | poll env => exact started _ env (DocumentBroker.poll_starts starts)
      | _ => cases starts
  | false =>
      by_cases answered : ∃ result reported env, event = .uploadFinished result reported env
      case neg =>
        exact (DocumentBroker.keeps_step event starts fun result reported env isAnswer =>
          answered ⟨result, reported, env, isAnswer⟩).requested sound.requested
      obtain ⟨result, reported, env, rfl⟩ := answered
      show (state.broker.uploadFinished env result reported).isAsyncUploading = true →
        (state.broker.uploadFinished env result reported).uploadRequest.isSome = true
      cases started : state.broker.uploadStarted with
      | false =>
          rw [DocumentBroker.uploadFinished_ignored started env result reported]
          exact sound.requested
      | true =>
          obtain ⟨storage, acknowledged, isOver, isStep⟩ :=
            DocumentBroker.uploadFinished_retires started env result reported
          rw [isStep]
          refine (DocumentBroker.settles_handleUploadToStorageResponse result).requested ?_
          intro uploading
          simp [DocumentBroker.isAsyncUploading, isOver,
            WopiStorage.queryLocalFileToStorageAsyncUploadState] at uploading

private theorem sound_step (sound : state.Sound) (event : SavingEvent) :
    (state.step event).Sound := by
  cases event with
  | clientSave => exact ⟨sound.stored, sound.requested⟩
  | broker event =>
      unfold step
      dsimp only
      split
      · exact sound
      · exact ⟨(storage_step event).trans sound.stored, requested_step sound event⟩

/-- What the renaming needs is named for exactly the steps that can start or answer it. -/
private theorem endsAt_iff_goesOn (sound : state.Sound) (ends : state.Ends) (event : SavingEvent) :
    state.EndsAt event ↔ state.GoesOn event := by
  cases event with
  | clientSave =>
      refine iff_of_true ⟨?_, .inl⟩ trivial
      intro _
      exact outstanding_iff.mpr (.inl (Nat.succ_pos _))
  | broker event =>
      have kept : state.broker.startsRename event = false →
          (∀ result reported env, event ≠ .uploadFinished result reported env) →
          DocumentBroker.isSaveResponse event = false →
          state.broker.handlesSaveResponse event = false → state.EndsAt (.broker event) :=
        fun notStarted notAnswered => kept_step ends
          (DocumentBroker.keeps_step event notStarted notAnswered)
      cases event with
      | saveResponse sessionId success unmodified wasModified env =>
          exact endsAt_saveResponse sound ends sessionId success unmodified wasModified
      | uploadFinished result reported env => exact endsAt_uploadFinished sound ends result reported
      | renameFile sessionId newFilename env =>
          cases starts : state.broker.startsRename (.renameFile sessionId newFilename env) with
          | false =>
              refine iff_of_true (kept starts (fun _ _ _ same => nomatch same) rfl rfl) ?_
              intro named begins
              simp [DocumentBroker.startsRename, named, begins] at starts
          | true =>
              rw [started_step (DocumentBroker.renameFile_starts starts)]
              simp only [DocumentBroker.startsRename, ne_eq, decide_not, Bool.and_eq_true,
                Bool.not_eq_true', decide_eq_false_iff_not] at starts
              exact ⟨fun asked _ _ => asked, fun goesOn => goesOn starts.1 starts.2⟩
      | poll env =>
          cases starts : state.broker.startsRename (.poll env) with
          | false =>
              refine iff_of_true (kept starts (fun _ _ _ same => nomatch same) rfl rfl) ?_
              intro idle begins
              simp [DocumentBroker.startsRename, idle, begins] at starts
          | true =>
              rw [started_step (DocumentBroker.poll_starts starts)]
              simp only [DocumentBroker.startsRename, Bool.and_eq_true] at starts
              exact ⟨fun asked _ _ => asked, fun goesOn => goesOn starts.1 starts.2⟩
      | _ =>
          exact iff_of_true (kept rfl (fun _ _ _ same => nomatch same) rfl rfl) trivial

/-- Once all responses were handled the activity of renaming is over, and then there is
none, in exactly the runs in which each step takes the next one on the way to the new name
while the renaming depends on it. -/
theorem run_rename_ends_iff (initial : SavingBroker) (events : List SavingEvent)
    (sound : initial.Sound) (ends : initial.Ends) :
    (∀ before event after, events = before ++ event :: after →
        (run step initial before).EndsAt event) ↔
      Permitted step GoesOn initial events := by
  rw [← permitted_iff_forall]
  refine permitted_congr (fun state => state.Sound ∧ state.Ends) ?_ ?_ ⟨sound, ends⟩
  · rintro state event ⟨sound, -⟩ endsAt
    exact ⟨sound_step sound event, endsAt.1⟩
  · rintro state event ⟨sound, ends⟩
    exact endsAt_iff_goesOn sound ends event

/-- A saved and uploaded document is renamed. -/
theorem run_rename_ends_renamed :
    let events := [.broker (.kitSaved 10),
      .broker (.renameFile "1" "b.odt" DocumentBroker.responsive),
      .broker (.saveResponse "1" true false none DocumentBroker.responsive),
      .broker (.uploadFinished .ok none DocumentBroker.responsive),
      .broker (.uploadFinished .ok none DocumentBroker.responsive)]
    let initial : SavingBroker := ⟨DocumentBroker.fresh 1, 0⟩
    ∀ before event after, events = before ++ event :: after →
      (run step initial before).EndsAt event :=
  (run_rename_ends_iff ⟨DocumentBroker.fresh 1, 0⟩ _ ⟨rfl, nofun⟩ nofun).mpr (by decide)

/-- The upload of the document that is to be renamed fails: the renaming is still on and no
response is to come. -/
theorem run_failed_upload_renames :
    let events := [.broker (.kitSaved 10),
      .broker (.renameFile "1" "b.odt" DocumentBroker.responsive),
      .broker (.saveResponse "1" true false none DocumentBroker.responsive),
      .broker (.uploadFinished .failed none DocumentBroker.responsive)]
    let state := run step ⟨DocumentBroker.fresh 1, 0⟩ events
    state.outstanding = false ∧ state.broker.docState.activity = .rename := by
  decide

end SavingBroker

end FreeOnline.Wsd
