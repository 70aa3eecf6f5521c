import FreeOnline.Library.Run
import FreeOnline.Wsd.UploadedVersion

/-!
# Stopping with everything uploaded

A broker stops when there is nothing left to upload, or so it should be: an upload
that it has asked for may not have been started, and the answer that it gets may be
to an upload of an older version.
-/

set_option autoImplicit false

namespace FreeOnline.Wsd

open FreeOnline.Library

def StopCall.Clean (call : StopCall) : Prop :=
  match call.site with
  | .autoSaveAndStop | .checkAndUploadToStorage | .uploadedToStorage => call.outdated = false
  | .noWritableSession | .conflict | .poll | .closeDocument => True

namespace DocumentBroker

/-!
## The events of a broker
-/

inductive BrokerEvent where
  | tick (duration : Nat)
  | activity (sessionId : String) (modifying : Bool)
  | setModified (value : Bool)
  | setSessions (sessions : List ClientSession)
  | addSessionFailed
  | loaded (loadDuration : Nat)
  | kitSaved (time : FileTime)
  | saveResponse (sessionId : String) (success unmodified : Bool) (wasModified : Option Bool)
      (env : Environment)
  | uploadFinished (result : UploadResult) (reported : Option String) (env : Environment)
  | saveToStorage (sessionId : String) (force : Bool) (env : Environment)
  | uploadAs (sessionId uploadAsPath uploadAsFilename : String) (isRename isExport : Bool)
      (env : Environment)
  | templateLoaded (sessionId : String) (env : Environment)
  | manualSave (extendedData : String) (env : Environment)
  | renameFile (sessionId newFilename : String) (env : Environment)
  | removeSession (sessionId : String) (env : Environment)
  | disconnected (sessionId : String)
  | closeDocument (reason : String)
  | disconnectedFromKit
  | shutdown
  | terminate
  | poll (env : Environment)

def withSession (broker : DocumentBroker) (id : String)
    (operation : ClientSession → DocumentBroker) : DocumentBroker :=
  match broker.findSession id with
  | none => broker
  | some session => operation session

def step (broker : DocumentBroker) : BrokerEvent → DocumentBroker
  | .tick duration => { broker with now := broker.now + duration }
  | .activity sessionId modifying =>
      { broker with
        lastActivityTime := broker.now
        lastModifyActivityTime := if modifying then broker.now else broker.lastModifyActivityTime
        lastEditingSessionId := sessionId }
  | .setModified value => { broker with isModified := value }
  | .setSessions sessions => { broker with sessions := sessions }
  | .addSessionFailed => broker.addSessionFailed
  | .loaded loadDuration => broker.setLoaded loadDuration
  | .kitSaved time =>
      { broker with
        storage := broker.storage.map fun storage =>
          { storage with rootFileToUpload := some time } }
  | .saveResponse sessionId success unmodified wasModified env =>
      broker.withSession sessionId
        (broker.handleSaveResponse env · success unmodified wasModified)
  | .uploadFinished result reported env => broker.uploadFinished env result reported
  | .saveToStorage sessionId force env =>
      broker.withSession sessionId (broker.uploadToStorage env · force)
  | .uploadAs sessionId uploadAsPath uploadAsFilename isRename isExport env =>
      broker.withSession sessionId
        (broker.uploadAsToStorage env · uploadAsPath uploadAsFilename isRename isExport)
  | .templateLoaded sessionId env =>
      broker.withSession sessionId (broker.uploadAfterLoadingTemplate env ·)
  | .manualSave extendedData env => (broker.manualSave env extendedData).2
  | .renameFile sessionId newFilename env =>
      broker.handleRenameFileCommand env sessionId newFilename
  | .removeSession sessionId env => broker.withSession sessionId (broker.removeSession env ·)
  | .disconnected sessionId => broker.finalRemoveSession sessionId
  | .closeDocument reason => broker.closeDocument reason
  | .disconnectedFromKit => broker.disconnectedFromKit
  | .shutdown => { broker with shutdownRequestFlag := true }
  | .terminate => { broker with terminationFlag := true }
  | .poll env => broker.poll env

/-!
## When the storage is up to date at a stop
-/

/-- An upload for the session is not throttled, not refused to the session, not
skipped, and its request does not fail at once. -/
def startsUpload (broker : DocumentBroker) (env : Environment) (session : ClientSession) : Bool :=
  (broker.storageManager.lastUploadSuccessful || broker.storageManager.canUploadNow broker.now) &&
    session.isEditable && !broker.skipsUploading "" false false && env.outcome ≠ .throwsEarly

/-- A check for uploading that may stop the broker starts the upload that is needed. -/
def UploadsBeforeStop (broker : DocumentBroker) (env : Environment) (session : ClientSession) :
    Prop :=
  broker.isStorageOutdated = true → broker.isAsyncUploading = false →
    (broker.docState.unloadRequested = true → broker.needToSaveToDisk = .no) →
    (broker.dropSession session).hasUnloaded = true → broker.startsUpload env session = true

def fileOnDisk (broker : DocumentBroker) : Option FileTime :=
  broker.storage.bind (·.rootFileUploading)

def uploadStarted (broker : DocumentBroker) : Bool :=
  match broker.storage.bind (·.uploadHttpSession) with
  | some http => http.started
  | none => false

/-- If the answer OK may stop the broker, the request was to upload the file on disk,
or it was another one and everything was uploaded before. -/
def CoversFileOnDisk (broker : DocumentBroker) (request : UploadRequest) : Prop :=
  (broker.docState.unloadRequested || broker.hasUnloaded) = true →
    broker.isPossiblyModified = false →
      if request.isSaveAs || request.isRename then broker.isStorageOutdated = false
      else ∀ time ∈ broker.fileOnDisk, time = request.newFileModifiedTime

def UploadedBeforeStop (broker : DocumentBroker) (result : UploadResult) : Prop :=
  result = .ok → broker.uploadStarted = true → ∀ request ∈ broker.uploadRequest,
    broker.CoversFileOnDisk request

def autoSaveAndStopChecks (broker : DocumentBroker) (env : Environment) :
    Option (DocumentBroker × ClientSession) :=
  if broker.saveManager.isSaving || broker.isAsyncUploading then none
  else if broker.canStop = some false && broker.saveManager.canSaveNow broker.now then
    match broker.autoSave env broker.isPossiblyModified with
    | (true, _) => none
    | (false, broker) =>
        match broker.getWriteableSession with
        | some session => if !session.isExpired then some (broker, session) else none
        | none => none
  else none

def pollChecks (broker : DocumentBroker) (env : Environment) :
    Option (DocumentBroker × ClientSession) :=
  if broker.stopped || broker.terminationFlag || broker.docState.activity ≠ .none then none
  else
    match broker.idleAction with
    | .autoSaveAndStop _ => broker.autoSaveAndStopChecks env
    | .stopDead => (broker.stop .poll "dead").autoSaveAndStopChecks env
    | .retryUpload session => some (broker, session)
    | .nothing | .startRename | .stopFailed | .autoSave => none

/-- The step does not stop the broker before the version on disk was uploaded. -/
def StopsUploaded (broker : DocumentBroker) : BrokerEvent → Prop
  | .saveResponse sessionId success unmodified wasModified env =>
      ∀ session ∈ broker.findSession sessionId,
        (broker.recordSaveResponse success unmodified wasModified).UploadsBeforeStop env session
  | .uploadFinished result _ _ => broker.UploadedBeforeStop result
  | .poll env => ∀ call ∈ broker.pollChecks env, call.1.UploadsBeforeStop env call.2
  | _ => True

instance (broker : DocumentBroker) (env : Environment) (session : ClientSession) :
    Decidable (broker.UploadsBeforeStop env session) :=
  inferInstanceAs (Decidable (_ → _ → (_ → _) → _ → _))

instance (broker : DocumentBroker) (request : UploadRequest) :
    Decidable (broker.CoversFileOnDisk request) :=
  inferInstanceAs (Decidable (_ → _ → ite _ _ _))

instance (broker : DocumentBroker) (result : UploadResult) :
    Decidable (broker.UploadedBeforeStop result) :=
  inferInstanceAs (Decidable (_ → _ → ∀ _ ∈ _, _))

instance (broker : DocumentBroker) : (event : BrokerEvent) →
    Decidable (broker.StopsUploaded event)
  | .saveResponse .. => inferInstanceAs (Decidable (∀ _ ∈ _, _))
  | .uploadFinished result _ _ => inferInstanceAs (Decidable (broker.UploadedBeforeStop result))
  | .poll _ => inferInstanceAs (Decidable (∀ _ ∈ _, _))
  | .tick _ | .activity .. | .setModified _ | .setSessions _ | .addSessionFailed | .loaded _
  | .kitSaved _ | .saveToStorage .. | .uploadAs .. | .templateLoaded .. | .manualSave ..
  | .renameFile .. | .removeSession .. | .disconnected _ | .closeDocument _
  | .disconnectedFromKit | .shutdown | .terminate => .isTrue trivial

/-!
## What uploading leaves alone
-/

/-- What the decision to stop is about, next to the upload state. -/
structure UnloadState where
  sessions : List ClientSession
  isMarkedToDestroy : Bool
  unloadRequested : Bool
  possiblyModified : Bool
  stops : List StopCall

def unloadState (broker : DocumentBroker) : UnloadState where
  sessions := broker.sessions
  isMarkedToDestroy := broker.docState.isMarkedToDestroy
  unloadRequested := broker.docState.unloadRequested
  possiblyModified := broker.isPossiblyModified
  stops := broker.stops

section Frame

variable {broker : DocumentBroker} {env : Environment}

@[simp] theorem unloadState_endActivity : broker.endActivity.unloadState = broker.unloadState := rfl

@[simp] theorem unloadState_recordUploaded (request : UploadRequest) :
    (broker.recordUploaded request).unloadState = broker.unloadState := rfl

@[simp] theorem unloadState_uploadCallback (state : AsyncUploadState) :
    (broker.uploadCallback state).unloadState = broker.unloadState := by
  cases state with
  | running => rfl
  | complete => rfl
  | none =>
      simp only [uploadCallback]
      split <;> rfl
  | error =>
      simp only [uploadCallback]
      split <;> rfl

@[simp] theorem unloadState_uploadToStorageInternal (session : ClientSession)
    (saveAsPath saveAsFilename : String) (isRename isExport force : Bool) :
    (broker.uploadToStorageInternal env session saveAsPath saveAsFilename isRename isExport
      force).unloadState = broker.unloadState := by
  unfold uploadToStorageInternal
  split
  · rfl
  · split
    · rfl
    · split
      · rfl
      · rw [unloadState_uploadCallback]
        rfl

@[simp] theorem unloadState_uploadToStorage (session : ClientSession) (force : Bool) :
    (broker.uploadToStorage env session force).unloadState = broker.unloadState := by
  unfold uploadToStorage
  split
  · rw [unloadState_uploadToStorageInternal]
  · rfl

@[simp] theorem unloadState_renameInStorage :
    (broker.renameInStorage env).unloadState = broker.unloadState := by
  unfold renameInStorage
  split
  · rfl
  · rw [unloadState_uploadToStorageInternal]

@[simp] theorem unloadState_handleUploaded (request : UploadRequest) :
    (broker.handleUploaded env request).unloadState = broker.unloadState := by
  unfold handleUploaded
  split
  · dsimp only
    split
    · rw [unloadState_renameInStorage, unloadState_recordUploaded]
    all_goals rfl
  · split <;> rfl

theorem stops_congr {other : DocumentBroker} (same : broker.unloadState = other.unloadState) :
    broker.stops = other.stops :=
  congrArg UnloadState.stops same

@[simp] theorem stops_disconnectSessionInternal (session : ClientSession) :
    (broker.disconnectSessionInternal session).stops = broker.stops := by
  unfold disconnectSessionInternal setSessions finalRemoveSession
  dsimp only
  split <;> split <;> rfl

@[simp] theorem stops_sendUnoSave (isAutosave : Bool) (extendedData : String) :
    (broker.sendUnoSave env isAutosave extendedData).2.stops = broker.stops := by
  unfold sendUnoSave
  dsimp only
  split <;> rfl

@[simp] theorem stops_autoSave (force : Bool) :
    (broker.autoSave env force).2.stops = broker.stops := by
  unfold autoSave
  split
  · rfl
  · dsimp only
    split
    · rfl
    · split
      · rfl
      · split
        · rfl
        · split
          · rw [stops_sendUnoSave]
          · split
            · rw [stops_sendUnoSave]
            · rfl

theorem hasUnloaded_dropSession_congr {other : DocumentBroker}
    (same : broker.unloadState = other.unloadState) (session : ClientSession) :
    (broker.dropSession session).hasUnloaded = (other.dropSession session).hasUnloaded := by
  obtain ⟨sessions, marked, unloadRequested, -, -⟩ := UnloadState.mk.inj same
  have dropped : ∀ broker : DocumentBroker, (broker.disconnectSessionInternal session).hasUnloaded =
      (broker.docState.unloadRequested || broker.docState.isMarkedToDestroy ||
        (if session.state = .live then broker.sessions
          else broker.sessions.filter (·.id ≠ session.id)).isEmpty) := by
    intro broker
    unfold disconnectSessionInternal setSessions finalRemoveSession hasUnloaded
    cases isRequested : broker.docState.unloadRequested <;> by_cases live : session.state = .live <;>
      simp [live, isRequested, DocumentState.isMarkedToDestroy, DocumentState.markToDestroy]
  unfold dropSession
  rw [marked]
  split
  · rw [dropped, dropped, sessions, marked, unloadRequested]
  · rw [hasUnloaded, hasUnloaded, sessions, marked]

end Frame

section Outdated

variable {broker : DocumentBroker} {env : Environment}

theorem needToUploadToStorage_of_outdated (outdated : broker.isStorageOutdated = true) :
    broker.needToUploadToStorage = true := by
  unfold needToUploadToStorage
  split
  · next missing =>
      rw [Option.isNone_iff_eq_none] at missing
      simp [isStorageOutdated, missing] at outdated
  · split
    · rfl
    · split
      · rfl
      · exact outdated

private theorem isStorageOutdated_eq_of_file {other : DocumentBroker}
    (sameFile : broker.fileOnDisk = other.fileOnDisk)
    (sameTime : broker.storageManager.lastUploadedFileModifiedTime =
      other.storageManager.lastUploadedFileModifiedTime) :
    broker.isStorageOutdated = other.isStorageOutdated := by
  have byFile : ∀ broker : DocumentBroker, broker.isStorageOutdated =
      broker.fileOnDisk.any
        (decide <| · ≠ broker.storageManager.lastUploadedFileModifiedTime) := by
    intro broker
    unfold isStorageOutdated fileOnDisk
    cases broker.storage with
    | none => rfl
    | some storage => cases isFile : storage.rootFileUploading <;> simp [isFile]
  rw [byFile, byFile, sameFile, sameTime]

theorem isStorageOutdated_uploadToStorageInternal (session : ClientSession)
    (saveAsPath saveAsFilename : String) (isRename isExport force : Bool) :
    (broker.uploadToStorageInternal env session saveAsPath saveAsFilename isRename isExport
      force).isStorageOutdated = broker.isStorageOutdated := by
  rcases broker.uploadToStorageInternal_cases env session saveAsPath saveAsFilename isRename isExport
    force with same | ⟨storage, stored, editable, notSkipped⟩
  · rw [same]
  · obtain ⟨isStorage, -, isTime, -⟩ := UploadState.mk.inj <| uploadToStorageInternal_requested env
      session saveAsPath saveAsFilename isRename isExport force stored editable notSkipped
    apply isStorageOutdated_eq_of_file
    · rw [fileOnDisk, fileOnDisk, isStorage, stored]
      rcases storage.uploadLocalFileToStorageAsync_cases saveAsPath saveAsFilename isRename
        (broker.uploadingAttrs force) env.saveAsFile env.outcome with same | ⟨-, http, changed, -⟩
      · rw [same]
      · rw [changed]
        rfl
    · exact isTime

theorem isStorageOutdated_uploadToStorage (session : ClientSession) (force : Bool) :
    (broker.uploadToStorage env session force).isStorageOutdated = broker.isStorageOutdated := by
  unfold uploadToStorage
  split
  · rw [isStorageOutdated_uploadToStorageInternal]
  · rfl

theorem isAsyncUploading_iff : broker.isAsyncUploading = true ↔
    ∃ storage, broker.storage = some storage ∧ storage.uploadHttpSession.isSome = true := by
  unfold isAsyncUploading WopiStorage.queryLocalFileToStorageAsyncUploadState
  cases broker.storage with
  | none => simp
  | some storage => cases inProgress : storage.uploadHttpSession <;> simp [inProgress]

theorem isAsyncUploading_of_started (started : broker.uploadStarted = true) :
    broker.isAsyncUploading = true := by
  rw [isAsyncUploading_iff]
  unfold uploadStarted at started
  cases stored : broker.storage with
  | none => simp [stored] at started
  | some storage =>
      refine ⟨storage, rfl, ?_⟩
      cases http : storage.uploadHttpSession with
      | none => simp [stored, http] at started
      | some session => rfl

/-- The started request is over before its answer is handled. -/
theorem uploadFinished_retires (started : broker.uploadStarted = true) (env : Environment)
    (result : UploadResult) (reported : Option String) :
    ∃ (storage : WopiStorage) (acknowledged : List FileTime),
      storage.uploadHttpSession = none ∧ broker.uploadFinished env result reported =
        { broker with
          storage := some storage
          acknowledged := acknowledged : DocumentBroker }.handleUploadToStorageResponse env
          result := by
  unfold uploadStarted at started
  cases stored : broker.storage with
  | none => simp [stored] at started
  | some storage =>
      rw [stored, Option.bind_some] at started
      cases http : storage.uploadHttpSession with
      | none => simp [http] at started
      | some session =>
          obtain ⟨version, attributes, isStarted⟩ := session
          rw [http] at started
          cases started
          unfold uploadFinished
          simp only [stored, http]
          exact ⟨_, _, rfl, rfl⟩

theorem uploadFinished_ignored (notStarted : broker.uploadStarted = false) (env : Environment)
    (result : UploadResult) (reported : Option String) :
    broker.uploadFinished env result reported = broker := by
  unfold uploadStarted at notStarted
  unfold uploadFinished
  cases stored : broker.storage with
  | none => rfl
  | some storage =>
      rw [stored, Option.bind_some] at notStarted
      cases http : storage.uploadHttpSession with
      | none => simp only [http]
      | some session =>
          obtain ⟨version, attributes, isStarted⟩ := session
          rw [http] at notStarted
          cases notStarted
          simp only [http]

private theorem isAsyncUploading_uploadToStorage (uploading : broker.isAsyncUploading = true)
    (env : Environment) (session : ClientSession) (force : Bool) :
    (broker.uploadToStorage env session force).isAsyncUploading = true := by
  unfold uploadToStorage
  split
  · rcases broker.uploadToStorageInternal_cases env session "" "" false false force with
      same | ⟨storage, stored, editable, notSkipped⟩
    · rw [same]
      exact uploading
    · obtain ⟨other, isOther, inProgress⟩ := isAsyncUploading_iff.mp uploading
      cases isOther.symm.trans stored
      obtain ⟨isStorage, -, -, -⟩ := UploadState.mk.inj <|
        uploadToStorageInternal_requested env session "" "" false false force stored editable notSkipped
      refine isAsyncUploading_iff.mpr ⟨_, isStorage, ?_⟩
      simp only [WopiStorage.uploadLocalFileToStorageAsync, inProgress, if_true]
  · exact uploading

private theorem isAsyncUploading_of_starts (outdated : broker.isStorageOutdated = true)
    {session : ClientSession} (starts : broker.startsUpload env session = true) :
    (broker.uploadToStorage env session false).isAsyncUploading = true := by
  simp only [startsUpload, Bool.and_eq_true, Bool.not_eq_true', decide_eq_true_eq] at starts
  obtain ⟨⟨⟨notThrottled, editable⟩, notSkipped⟩, notThrown⟩ := starts
  cases stored : broker.storage with
  | none => simp [isStorageOutdated, stored] at outdated
  | some storage =>
      cases onDisk : storage.rootFileUploading with
      | none => simp [isStorageOutdated, stored, onDisk] at outdated
      | some time =>
          rw [uploadToStorage, Bool.false_or, if_pos notThrottled]
          obtain ⟨isStorage, -, -, -⟩ := UploadState.mk.inj <|
            uploadToStorageInternal_requested env session "" "" false false false stored editable
              notSkipped
          exact isAsyncUploading_iff.mpr ⟨_, isStorage,
            WopiStorage.uploadLocalFileToStorageAsync_inProgress onDisk _ env.saveAsFile notThrown⟩

end Outdated

/-!
## Every stop is clean
-/

def AllClean (broker : DocumentBroker) : Prop :=
  ∀ call ∈ broker.stops, call.Clean

section Steps

variable {broker : DocumentBroker} {env : Environment}

private theorem clean_of_stops {other : DocumentBroker} (clean : broker.AllClean)
    (same : other.stops = broker.stops) : other.AllClean := by
  intro call member
  rw [same] at member
  exact clean call member

private theorem clean_stop (clean : broker.AllClean) (site : StopSite) (reason : String)
    (isClean : StopCall.Clean ⟨site, broker.isStorageOutdated⟩) :
    (broker.stop site reason).AllClean := by
  intro call member
  rcases List.mem_append.mp member with before | new
  · exact clean call before
  · cases List.mem_singleton.mp new
    exact isClean

private theorem uploadState_dropSession (session : ClientSession) :
    (broker.dropSession session).uploadState = broker.uploadState := by
  unfold dropSession
  split
  · rw [uploadState_disconnectSessionInternal]
  · rfl

private theorem stops_dropSession (session : ClientSession) :
    (broker.dropSession session).stops = broker.stops := by
  unfold dropSession
  split
  · rw [stops_disconnectSessionInternal]
  · rfl

private theorem clean_stopIfUnloaded (clean : broker.AllClean) {session : ClientSession}
    (uploaded : broker.isAsyncUploading = false → (broker.dropSession session).hasUnloaded = true →
      broker.isStorageOutdated = false) : (broker.stopIfUnloaded session).AllClean := by
  unfold stopIfUnloaded
  split
  · exact clean
  · next notUploading =>
      have dropped : (broker.dropSession session).AllClean :=
        clean_of_stops clean (stops_dropSession session)
      dsimp only
      split
      · next unloaded =>
          apply clean_stop dropped
          rw [isStorageOutdated_congr (uploadState_dropSession session)]
          exact uploaded (by simpa using notUploading) unloaded
      · exact dropped

private theorem clean_afterCheck (clean : broker.AllClean) {session : ClientSession}
    (uploads : broker.UploadsBeforeStop env session)
    (saved : broker.docState.unloadRequested = true → broker.needToSaveToDisk = .no) :
    ((if broker.needToUploadToStorage then broker.uploadToStorage env session false
      else broker).stopIfUnloaded session).AllClean := by
  split
  · apply clean_stopIfUnloaded
    · exact clean_of_stops clean (stops_congr (unloadState_uploadToStorage session false))
    · intro notUploading unloaded
      rw [isStorageOutdated_uploadToStorage]
      rw [hasUnloaded_dropSession_congr (unloadState_uploadToStorage session false)] at unloaded
      by_contra outdated
      rw [Bool.not_eq_false] at outdated
      cases inProgress : broker.isAsyncUploading with
      | true =>
          have stays := isAsyncUploading_uploadToStorage inProgress env session false
          rw [notUploading] at stays
          cases stays
      | false =>
          have starts := uploads outdated inProgress saved unloaded
          have started := isAsyncUploading_of_starts outdated starts
          rw [notUploading] at started
          cases started
  · next noNeed =>
      apply clean_stopIfUnloaded clean
      intro _ _
      by_contra outdated
      rw [Bool.not_eq_false] at outdated
      exact noNeed (needToUploadToStorage_of_outdated outdated)

private theorem uploadsBeforeStop_endActivity {session : ClientSession}
    (uploads : broker.UploadsBeforeStop env session) :
    broker.endActivity.UploadsBeforeStop env session := by
  intro outdated notUploading saved unloaded
  rw [hasUnloaded_dropSession_congr unloadState_endActivity] at unloaded
  exact uploads outdated notUploading saved unloaded

private theorem clean_checkAndUploadToStorage (clean : broker.AllClean) {session : ClientSession}
    (uploads : broker.UploadsBeforeStop env session) :
    (broker.checkAndUploadToStorage env session).AllClean := by
  unfold checkAndUploadToStorage
  dsimp only
  split
  · exact clean_of_stops clean (stops_congr unloadState_renameInStorage)
  · split
    · split
      · exact clean
      · next saved =>
          have ended : broker.endActivity.AllClean := clean
          apply clean_afterCheck ended (uploadsBeforeStop_endActivity uploads)
          intro requested
          by_contra notSaved
          exact saved (by simp [requested, notSaved])
    · split
      · exact clean
      · next saved =>
          apply clean_afterCheck clean uploads
          intro requested
          by_contra notSaved
          exact saved (by simp [requested, notSaved])

private theorem not_outdated_of_canStop (stops : broker.canStop = some true) :
    broker.isStorageOutdated = false := by
  by_contra outdated
  rw [Bool.not_eq_false] at outdated
  have need := needToUploadToStorage_of_outdated outdated
  simp [canStop, need, outdated] at stops

private theorem clean_autoSaveAndStop (clean : broker.AllClean)
    (uploads : ∀ call ∈ broker.autoSaveAndStopChecks env, call.1.UploadsBeforeStop env call.2)
    (reason : String) : (broker.autoSaveAndStop env reason).AllClean := by
  unfold autoSaveAndStop
  split
  · exact clean
  · next idle =>
      split
      · exact clean
      · next stops =>
          exact clean_stop clean .autoSaveAndStop reason (not_outdated_of_canStop stops)
      · next notYet =>
          split
          · next canSave =>
              have saved : (broker.autoSave env broker.isPossiblyModified).2.stops = broker.stops :=
                stops_autoSave _
              split
              · next after sent =>
                  rw [sent] at saved
                  exact clean_of_stops clean saved
              · next after notSent =>
                  rw [notSent] at saved
                  have unchanged := clean_of_stops clean saved
                  split
                  · next session found =>
                      split
                      · next valid =>
                          apply clean_checkAndUploadToStorage unchanged
                          exact uploads (after, session) (by
                            simp [autoSaveAndStopChecks, idle, notYet, canSave, notSent, found,
                              valid])
                      · exact clean_stop unchanged .noWritableSession reason trivial
                  · exact clean_stop unchanged .noWritableSession reason trivial
          · exact clean

private theorem isStorageOutdated_handleUploaded (request : UploadRequest) :
    (broker.handleUploaded env request).isStorageOutdated =
      if request.isSaveAs || request.isRename then broker.isStorageOutdated
      else (broker.recordUploaded request).isStorageOutdated := by
  unfold handleUploaded
  cases saveAs : request.isSaveAs <;> cases rename : request.isRename <;>
    simp only [Bool.not_true, Bool.not_false, Bool.and_true, Bool.and_false, Bool.or_true,
      Bool.or_false, Bool.false_eq_true, if_true, if_false]
  · split
    · unfold renameInStorage
      split
      · rfl
      · rw [isStorageOutdated_uploadToStorageInternal]
    all_goals rfl
  · rfl
  · rfl

private theorem not_outdated_of_recorded {request : UploadRequest}
    (onDisk : ∀ time ∈ broker.fileOnDisk, time = request.newFileModifiedTime) :
    (broker.recordUploaded request).isStorageOutdated = false := by
  unfold isStorageOutdated
  cases stored : (broker.recordUploaded request).storage with
  | none => rfl
  | some storage =>
      cases isFile : storage.rootFileUploading with
      | none => simp only [isFile]
      | some time =>
          have isStored : broker.storage = some storage := stored
          have same := onDisk time (by simp [fileOnDisk, isStored, isFile])
          simp [isFile, same, recordUploaded]

private theorem clean_stopIfUploaded (clean : broker.AllClean)
    (uploaded : (broker.docState.unloadRequested || broker.hasUnloaded) = true →
      broker.isPossiblyModified = false → broker.isStorageOutdated = false) :
    broker.stopIfUploaded.AllClean := by
  unfold stopIfUploaded
  dsimp only
  split
  · next requested =>
      split
      · next stops =>
          apply clean_stop (by exact clean)
          rw [Bool.and_eq_true, Bool.not_eq_true'] at stops
          exact uploaded (by rw [requested]; rfl) stops.2
      · exact clean
  · split
    · next stops =>
        apply clean_stop clean
        rw [Bool.and_eq_true, Bool.not_eq_true'] at stops
        exact uploaded (by rw [stops.1, Bool.or_true]) stops.2
    · exact clean

private theorem clean_handleUploadFailure (clean : broker.AllClean) (request : UploadRequest)
    (result : UploadResult) : (broker.handleUploadFailure env request result).AllClean := by
  have conflicted : ({ broker with documentChangedInStorage := true } : DocumentBroker).AllClean :=
    clean
  unfold handleUploadFailure
  cases result <;> dsimp only
  case docChanged | conflict =>
    split
    · exact clean_stop conflicted .conflict "conflict" trivial
    · exact clean
  all_goals exact clean

private theorem clean_handleUploaded (clean : broker.AllClean) {request : UploadRequest}
    (covers : broker.CoversFileOnDisk request) :
    (broker.handleUploaded env request).stopIfUploaded.AllClean := by
  have same : (broker.handleUploaded env request).unloadState = broker.unloadState :=
    unloadState_handleUploaded request
  obtain ⟨sameSessions, sameMarked, sameRequested, sameModified, sameStops⟩ :=
    UnloadState.mk.inj same
  apply clean_stopIfUploaded (clean_of_stops clean sameStops)
  intro unloads notModified
  rw [hasUnloaded, sameSessions, sameMarked, sameRequested] at unloads
  rw [sameModified] at notModified
  have covered := covers unloads notModified
  rw [isStorageOutdated_handleUploaded]
  split
  · next other => rwa [if_pos other] at covered
  · next plain =>
      rw [if_neg plain] at covered
      exact not_outdated_of_recorded covered

private theorem clean_response (clean : broker.AllClean) {result : UploadResult}
    (covers : result = .ok → ∀ request ∈ broker.uploadRequest, broker.CoversFileOnDisk request) :
    (broker.handleUploadToStorageResponse env result).AllClean := by
  unfold handleUploadToStorageResponse
  split
  · exact clean
  · next request requested =>
      dsimp only
      split
      · next ok =>
          apply clean_handleUploaded
          · exact clean
          · exact covers ok request requested
      · apply clean_handleUploadFailure
        exact clean

private theorem clean_uploadFinished (clean : broker.AllClean) {result : UploadResult}
    (uploaded : broker.UploadedBeforeStop result) (reported : Option String) :
    (broker.uploadFinished env result reported).AllClean := by
  unfold uploadFinished
  split
  · exact clean
  · next storage stored =>
      split
      · next version inProgress =>
          have started : broker.uploadStarted = true := by
            simp [uploadStarted, stored, inProgress]
          apply clean_response
          · exact clean
          · intro ok request requested unloads notModified
            have covered := uploaded ok started request requested unloads notModified
            have sameFile : broker.fileOnDisk = storage.rootFileUploading := by
              rw [fileOnDisk, stored, Option.bind_some]
            split
            · next other =>
                rw [if_pos other] at covered
                rw [← covered]
                exact isStorageOutdated_eq_of_file sameFile.symm rfl
            · next plain =>
                rw [if_neg plain, sameFile] at covered
                exact covered
      all_goals exact clean

private theorem stops_saveOrDisconnect (session : ClientSession) :
    (broker.saveOrDisconnect env session).stops = broker.stops := by
  have saved : (broker.autoSave env broker.isPossiblyModified).2.stops = broker.stops :=
    stops_autoSave _
  unfold saveOrDisconnect
  split
  · rw [stops_disconnectSessionInternal]
  · split
    · rfl
    · split
      · next sent =>
          rw [sent] at saved
          exact saved
      · next notSent =>
          rw [notSent] at saved
          rw [stops_disconnectSessionInternal]
          exact saved

private theorem stops_unloadAfterLast : broker.unloadAfterLast.stops = broker.stops := by
  unfold unloadAfterLast
  split
  · rfl
  · split <;> rfl

private theorem stops_removeSession (session : ClientSession) :
    (broker.removeSession env session).stops = broker.stops := by
  unfold removeSession
  dsimp only
  split
  · rw [stops_unloadAfterLast, stops_saveOrDisconnect]
  · rw [stops_saveOrDisconnect]

private theorem clean_closeDocument (clean : broker.AllClean) (reason : String) :
    (broker.closeDocument reason).AllClean := by
  unfold closeDocument
  dsimp only
  split
  · apply clean_stop
    · exact clean
    · trivial
  · exact clean

private theorem clean_disconnectedFromKit (clean : broker.AllClean) :
    broker.disconnectedFromKit.AllClean := by
  unfold disconnectedFromKit
  dsimp only
  split
  · apply clean_closeDocument
    exact clean
  · exact clean

private theorem stops_addSessionFailed : broker.addSessionFailed.stops = broker.stops := by
  unfold addSessionFailed
  split <;> rfl

private theorem stops_setLoaded (loadDuration : Nat) :
    (broker.setLoaded loadDuration).stops = broker.stops := by
  unfold setLoaded
  split <;> rfl

private theorem stops_manualSave (extendedData : String) :
    (broker.manualSave env extendedData).2.stops = broker.stops := by
  unfold manualSave
  split
  · rw [stops_sendUnoSave]
  · rfl

private theorem stops_startRenameFileCommand :
    (broker.startRenameFileCommand env).stops = broker.stops := by
  unfold startRenameFileCommand
  split
  · rfl
  · split
    · rfl
    · dsimp only
      split
      · rfl
      · rw [stops_sendUnoSave]

private theorem stops_handleRenameFileCommand (sessionId newFilename : String) :
    (broker.handleRenameFileCommand env sessionId newFilename).stops = broker.stops := by
  unfold handleRenameFileCommand
  split
  · rfl
  · split
    · rfl
    · dsimp only
      split
      · rw [stops_startRenameFileCommand]
      · rfl

private theorem clean_pollIdle (clean : broker.AllClean)
    (running : (broker.stopped || broker.terminationFlag) = false)
    (idle : broker.docState.activity = .none)
    (uploads : ∀ call ∈ broker.pollChecks env, call.1.UploadsBeforeStop env call.2) :
    (broker.pollIdle env).AllClean := by
  unfold pollIdle
  unfold pollChecks at uploads
  rw [running, idle] at uploads
  simp only [ne_eq, not_true_eq_false, decide_false, Bool.or_false, Bool.false_eq_true, if_false]
    at uploads
  cases action : broker.idleAction with
  | nothing => exact clean
  | startRename => exact clean_of_stops clean stops_startRenameFileCommand
  | autoSaveAndStop reason =>
      rw [action] at uploads
      exact clean_autoSaveAndStop clean uploads reason
  | stopDead =>
      rw [action] at uploads
      exact clean_autoSaveAndStop (clean_stop clean .poll "dead" trivial) uploads "dead"
  | stopFailed => exact clean_stop clean .poll "storefailed" trivial
  | autoSave => exact clean_of_stops clean (stops_autoSave false)
  | retryUpload session =>
      rw [action] at uploads
      exact clean_checkAndUploadToStorage clean (uploads (broker, session) rfl)

private theorem clean_poll (clean : broker.AllClean)
    (uploads : ∀ call ∈ broker.pollChecks env, call.1.UploadsBeforeStop env call.2) :
    (broker.poll env).AllClean := by
  unfold poll
  split
  · exact clean
  · next running =>
      split
      · next idle => exact clean_pollIdle clean (by simpa using running) idle uploads
      · split <;> exact clean_of_stops clean rfl
      · split <;> exact clean_of_stops clean rfl
      all_goals exact clean_of_stops clean rfl

private theorem clean_withSession (clean : broker.AllClean) (id : String)
    {operation : ClientSession → DocumentBroker}
    (keeps : ∀ session ∈ broker.findSession id, (operation session).AllClean) :
    (broker.withSession id operation).AllClean := by
  unfold withSession
  split
  · exact clean
  · next session found => exact keeps session found

private theorem clean_step (event : BrokerEvent) (clean : broker.AllClean)
    (uploaded : broker.StopsUploaded event) : (broker.step event).AllClean := by
  cases event with
  | tick | activity | setModified | setSessions | kitSaved | disconnected | shutdown | terminate =>
      exact clean
  | addSessionFailed => exact clean_of_stops clean stops_addSessionFailed
  | loaded loadDuration => exact clean_of_stops clean (stops_setLoaded loadDuration)
  | saveResponse sessionId success unmodified wasModified env =>
      apply clean_withSession clean
      intro session found
      have recorded : (broker.recordSaveResponse success unmodified wasModified).AllClean := clean
      exact clean_checkAndUploadToStorage recorded (uploaded session found)
  | uploadFinished result reported env => exact clean_uploadFinished clean uploaded reported
  | saveToStorage sessionId force env =>
      apply clean_withSession clean
      intro session _
      exact clean_of_stops clean (stops_congr (unloadState_uploadToStorage session force))
  | uploadAs sessionId path filename isRename isExport env =>
      apply clean_withSession clean
      intro session _
      exact clean_of_stops clean (stops_congr (unloadState_uploadToStorageInternal session ..))
  | templateLoaded sessionId env =>
      apply clean_withSession clean
      intro session _
      have renamed : broker.renameToUploading.AllClean := clean
      exact clean_of_stops renamed (stops_congr (unloadState_uploadToStorage session false))
  | manualSave extendedData env => exact clean_of_stops clean (stops_manualSave extendedData)
  | renameFile sessionId newFilename env =>
      exact clean_of_stops clean (stops_handleRenameFileCommand sessionId newFilename)
  | removeSession sessionId env =>
      apply clean_withSession clean
      intro session _
      exact clean_of_stops clean (stops_removeSession session)
  | closeDocument reason => exact clean_closeDocument clean reason
  | disconnectedFromKit => exact clean_disconnectedFromKit clean
  | poll env => exact clean_poll clean uploaded

end Steps

/-- In every run in which no check for uploading and no answer from the storage stops
the broker before the file on disk was uploaded, it is up to date at every stop that
is not reported to lose data. -/
theorem run_stops_uploaded (initial : DocumentBroker) (events : List BrokerEvent)
    (notStopped : initial.stops = [])
    (permitted : Permitted step StopsUploaded initial events) :
    ∀ call ∈ (run step initial events).stops,
      call.site = .autoSaveAndStop ∨ call.site = .checkAndUploadToStorage ∨
        call.site = .uploadedToStorage → call.outdated = false := by
  intro call member site
  have initially : initial.AllClean := by
    intro call member
    rw [notStopped] at member
    cases member
  have clean := run_invariant AllClean
    (fun _ event clean uploaded => clean_step event clean uploaded) initially permitted call member
  unfold StopCall.Clean at clean
  rcases site with isSite | isSite | isSite <;> simpa only [isSite] using clean

/-- A save that is uploaded before the last session goes: the broker stops with
nothing left to upload. -/
theorem run_stops_uploaded_dead :
    let events := [.kitSaved 10, .saveResponse "1" true false none responsive,
      .uploadFinished .ok none responsive, .setSessions [{ editor with isCloseFrame := true }],
      .removeSession "1" responsive, .disconnected "1", .poll responsive]
    let broker := run step (fresh 1) events
    broker.stops ≠ [] ∧ ∀ call ∈ broker.stops,
      call.site = .autoSaveAndStop ∨ call.site = .checkAndUploadToStorage ∨
        call.site = .uploadedToStorage → call.outdated = false := by
  have uploaded := run_stops_uploaded (fresh 1)
    [.kitSaved 10, .saveResponse "1" true false none responsive,
      .uploadFinished .ok none responsive, .setSessions [{ editor with isCloseFrame := true }],
      .removeSession "1" responsive, .disconnected "1", .poll responsive] rfl (by decide)
  exact ⟨by decide, uploaded⟩

/-- The upload of a save has failed and the only session is closed: the retry is
throttled, the session removed, and the broker stops without having uploaded. -/
theorem run_throttled_stops_outdated :
    let events := [.kitSaved 10, .saveResponse "1" true false none responsive,
      .uploadFinished .failed none responsive, .setSessions [{ editor with isCloseFrame := true }],
      .removeSession "1" responsive, .poll responsive]
    (run step (fresh 1) events).stops = [⟨.checkAndUploadToStorage, true⟩] := by
  decide

end DocumentBroker

end FreeOnline.Wsd
