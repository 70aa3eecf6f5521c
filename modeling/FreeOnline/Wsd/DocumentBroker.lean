import FreeOnline.Wsd.DocumentState

/-!
# Saving, uploading and stopping

The part of a document broker that decides when to save, when to upload and when
to stop. What it sends to the clients and to the admin console is left out.
-/

set_option autoImplicit false

namespace FreeOnline.Wsd

open DocumentState (Activity)

inductive StopSite where
  | autoSaveAndStop
  | noWritableSession
  | checkAndUploadToStorage
  | uploadedToStorage
  | conflict
  | poll
  | closeDocument
deriving DecidableEq, Repr

/-- A call of `stop`, with whether the storage was outdated at the time. -/
structure StopCall where
  site : StopSite
  outdated : Bool
deriving DecidableEq

/-- What the environment answers to the calls of one event: what comes of the http
request of an upload and which file there is to save as, whether the kit took a
message, and how many clients a broadcast reached. -/
structure Environment where
  outcome : RequestOutcome
  saveAsFile : Option FileTime
  forwarded : Bool
  activeClients : Nat
deriving DecidableEq

/-- A document broker. The sessions are in the order of their map. `acknowledged`
and `stops` are not in the code: the versions that the storage answered OK to, and
the calls of `stop`. -/
structure DocumentBroker where
  now : SteadyTime
  alwaysSaveOnExit : Bool
  isViewFileExtension : Bool
  idleDocTimeoutSecs : Nat
  limitStoreFailures : Nat
  hasKit : Bool
  shutdownRequestFlag : Bool
  terminationFlag : Bool
  docState : DocumentState
  documentChangedInStorage : Bool
  saveManager : SaveManager
  uploadRequest : Option UploadRequest
  storageManager : StorageManager
  sessions : List ClientSession
  storage : Option WopiStorage
  nextStorageAttrs : Attributes
  currentStorageAttrs : Attributes
  lastStorageAttrs : Attributes
  isModified : Bool
  lastActivityTime : SteadyTime
  lastModifyActivityTime : SteadyTime
  lastEditingSessionId : String
  renameFilename : String
  renameSessionId : String
  stopped : Bool
  closeReason : String
  acknowledged : List FileTime
  stops : List StopCall
deriving DecidableEq

namespace DocumentBroker

variable (broker : DocumentBroker) (env : Environment)

/-!
## What needs saving and uploading
-/

def findSession (id : String) : Option ClientSession :=
  broker.sessions.find? (·.id = id)

def isUnloading : Bool :=
  broker.docState.isMarkedToDestroy || broker.stopped || broker.docState.unloadRequested ||
    broker.docState.closeRequested || broker.shutdownRequestFlag || broker.terminationFlag

def haveActivityAfterSaveRequest : Bool :=
  broker.saveManager.request.lastRequestTime < broker.lastActivityTime

def haveModifyActivityAfterSaveRequest : Bool :=
  broker.saveManager.request.lastRequestTime < broker.lastModifyActivityTime

def isPossiblyModified : Bool :=
  if broker.haveActivityAfterSaveRequest then true
  else if broker.isViewFileExtension then !broker.saveManager.lastSaveSuccessful
  else broker.isModified

def isAsyncUploading : Bool :=
  match broker.storage with
  | none => false
  | some storage => storage.queryLocalFileToStorageAsyncUploadState = .running

def isStorageOutdated : Bool :=
  match broker.storage with
  | none => false
  | some storage =>
      match storage.rootFileUploading with
      | none => false
      | some currentModifiedTime =>
          currentModifiedTime ≠ broker.storageManager.lastUploadedFileModifiedTime

def needToUploadToStorage : Bool :=
  if broker.storage.isNone then false
  else if broker.isUnloading && broker.alwaysSaveOnExit then true
  else if !broker.storageManager.lastUploadSuccessful && !broker.documentChangedInStorage then true
  else broker.isStorageOutdated

/-- A session that is loaded, editable and has a valid token, or the first; the
document owner goes before all. -/
def getWriteableSession : Option ClientSession :=
  let rec choose (savingSession : Option ClientSession) :
      List ClientSession → Option ClientSession
    | [] => savingSession
    | session :: sessions =>
        if session.isDocumentOwner then some session
        else if savingSession.isNone ||
            (session.isViewLoaded && session.isEditable && !session.isExpired) then
          choose (some session) sessions
        else choose savingSession sessions
  choose none broker.sessions

inductive CanSave where
  | yes
  | noKit
  | notLoaded
  | noWriteSession
deriving DecidableEq, Repr

def canSaveToDisk : CanSave :=
  if broker.docState.disconnected || !broker.hasKit then .noKit
  else if !broker.docState.loaded then .notLoaded
  else if broker.sessions.isEmpty || broker.getWriteableSession.isNone then .noWriteSession
  else .yes

inductive NeedToSave where
  | no
  | maybe
  | yesModified
  | yesLastSaveFailed
deriving DecidableEq, Repr

def needToSaveToDisk : NeedToSave :=
  if broker.canSaveToDisk = .yes then
    if !broker.saveManager.lastSaveSuccessful then .yesLastSaveFailed
    else if broker.isModified && !broker.isViewFileExtension then .yesModified
    else if broker.haveActivityAfterSaveRequest then .maybe
    else .no
  else .no

def haveAnotherEditableSession (id : String) : Bool :=
  broker.sessions.any fun session => session.id ≠ id && session.isViewLoaded && session.isEditable

def hasUnloaded : Bool :=
  broker.docState.isMarkedToDestroy || broker.sessions.isEmpty

def countActiveSessions : Nat :=
  broker.sessions.countP (·.isLive)

/-!
## Stopping, activities and sessions
-/

def stop (site : StopSite) (reason : String) : DocumentBroker :=
  { broker with
    closeReason :=
      if broker.closeReason = "" || broker.closeReason = reason then reason
      else broker.closeReason
    stopped := true
    stops := broker.stops ++ [⟨site, broker.isStorageOutdated⟩] }

def endActivity : DocumentBroker :=
  { broker with docState := broker.docState.setActivity .none }

def endRenameFileCommand : DocumentBroker :=
  { broker with
    renameSessionId := ""
    renameFilename := ""
    docState := broker.docState.setActivity .none }

def setSessions (change : ClientSession → ClientSession) : DocumentBroker :=
  { broker with sessions := broker.sessions.map change }

def finalRemoveSession (id : String) : DocumentBroker :=
  { broker with sessions := broker.sessions.filter (·.id ≠ id) }

def disconnectSessionInternal (session : ClientSession) : DocumentBroker :=
  let broker :=
    if broker.docState.unloadRequested then
      { broker with docState := broker.docState.markToDestroy }
    else broker
  if session.state = .live then
    broker.setSessions fun other =>
      if other.id = session.id then { other with state := .waitDisconnect } else other
  else broker.finalRemoveSession session.id

/-!
## Uploading
-/

def uploadCallback : AsyncUploadState → DocumentBroker
  | .running | .complete => broker
  | .none | .error =>
      let broker := { broker with
        storageManager := broker.storageManager.setLastUploadResult broker.now false }
      match broker.docState.activity with
      | .rename => broker.endRenameFileCommand
      | .none | .saveAs | .conflict | .save | .upload => broker

def uploadingModifiedTime : FileTime :=
  match broker.storage with
  | none => 0
  | some storage => storage.rootFileUploading.getD 0

def skipsUploading (saveAsPath : String) (isRename force : Bool) : Bool :=
  saveAsPath = "" && broker.uploadingModifiedTime = broker.saveManager.lastModifiedTime &&
    !isRename && !force

/-- The attributes of an attempt at an upload. -/
def uploadingAttrs (force : Bool) : Attributes :=
  { broker.currentStorageAttrs with
    isExitSave := broker.isUnloading
    forced := if force then true else broker.currentStorageAttrs.forced }

def uploadToStorageInternal (session : ClientSession) (saveAsPath saveAsFilename : String)
    (isRename isExport force : Bool) : DocumentBroker :=
  match broker.storage with
  | none => broker
  | some storage =>
      if !session.isEditable then broker
      else if broker.skipsUploading saveAsPath isRename force then broker
      else
        let (uploading, state) := storage.uploadLocalFileToStorageAsync saveAsPath saveAsFilename
          isRename (broker.uploadingAttrs force) env.saveAsFile env.outcome
        uploadCallback
          { broker with
            uploadRequest := some {
              newFileModifiedTime := broker.uploadingModifiedTime
              session := session.id
              isSaveAs := saveAsPath ≠ ""
              isExport := isExport
              isRename := isRename }
            lastStorageAttrs := broker.uploadingAttrs force
            currentStorageAttrs := .reset
            nextStorageAttrs := .reset
            storageManager := broker.storageManager.markLastUploadRequestTime broker.now
            storage := some uploading } state

/-- Upload at once if forced or the last upload had succeeded, and else throttle. -/
def uploadToStorage (session : ClientSession) (force : Bool) : DocumentBroker :=
  if force || broker.storageManager.lastUploadSuccessful ||
      broker.storageManager.canUploadNow broker.now then
    broker.uploadToStorageInternal env session "" "" false false force
  else broker

def uploadAsToStorage (session : ClientSession) (uploadAsPath uploadAsFilename : String)
    (isRename isExport : Bool) : DocumentBroker :=
  broker.uploadToStorageInternal env session uploadAsPath uploadAsFilename isRename isExport false

def renameToUploading : DocumentBroker :=
  { broker with storage := broker.storage.map (·.renameToUploading) }

def uploadAfterLoadingTemplate (session : ClientSession) : DocumentBroker :=
  broker.renameToUploading.uploadToStorage env session false

def renameInStorage : DocumentBroker :=
  match broker.findSession broker.renameSessionId with
  | none => broker.endRenameFileCommand
  | some session =>
      broker.uploadToStorageInternal env session "" broker.renameFilename true false false

def recordUploaded (request : UploadRequest) : DocumentBroker :=
  { broker with
    saveManager := { broker.saveManager with lastModifiedTime := request.newFileModifiedTime }
    storageManager := { broker.storageManager with
      lastModifiedTime := (broker.storage.map (·.lastModifiedTime)).getD ""
      lastUploadedFileModifiedTime := request.newFileModifiedTime }
    documentChangedInStorage := false
    lastStorageAttrs := .reset }

def handleUploaded (request : UploadRequest) : DocumentBroker :=
  if !request.isSaveAs && !request.isRename then
    let broker := broker.recordUploaded request
    match broker.docState.activity with
    | .rename => broker.renameInStorage env
    | .none | .saveAs | .conflict | .save | .upload => broker
  else if request.isRename then broker.endRenameFileCommand
  else broker

def stopIfUploaded : DocumentBroker :=
  let broker :=
    if broker.docState.unloadRequested then
      { broker with docState := broker.docState.markToDestroy }
    else broker
  if broker.hasUnloaded && !broker.isPossiblyModified then
    broker.stop .uploadedToStorage "unloading"
  else broker

def handleUploadFailure (request : UploadRequest) (result : UploadResult) : DocumentBroker :=
  let broker :=
    match result with
    | .tooLarge | .diskfull => broker.setSessions (·.setNotWritable)
    | .unauthorized =>
        broker.setSessions fun session =>
          if session.id = request.session then session.invalidateAuthorizationToken else session
    | .docChanged | .conflict =>
        let broker := { broker with documentChangedInStorage := true }
        if env.activeClients = 0 then broker.stop .conflict "conflict" else broker
    | .ok | .failed => broker
  { broker with
    currentStorageAttrs := broker.currentStorageAttrs.merge broker.lastStorageAttrs
    lastStorageAttrs := .reset }

def handleUploadToStorageResponse (result : UploadResult) : DocumentBroker :=
  match broker.uploadRequest with
  | none => broker
  | some request =>
      let broker := { broker with
        storageManager := broker.storageManager.setLastUploadResult broker.now (result = UploadResult.ok) }
      if result = UploadResult.ok then (broker.handleUploaded env request).stopIfUploaded
      else broker.handleUploadFailure env request result

/-- The finished handler of a started http request: retires the session and hands
the result on; `reported` is the time of the last modification in the answer. -/
def uploadFinished (result : UploadResult) (reported : Option String) : DocumentBroker :=
  match broker.storage with
  | none => broker
  | some storage =>
      match storage.uploadHttpSession with
      | some ⟨version, _, true⟩ =>
          let storage := { storage with
            uploadHttpSession := none
            lastModifiedTime :=
              if result = UploadResult.ok then reported.getD storage.lastModifiedTime
              else storage.lastModifiedTime }
          let broker := { broker with
            storage := some storage
            acknowledged :=
              if result = UploadResult.ok then broker.acknowledged ++ version.toList
              else broker.acknowledged }
          broker.handleUploadToStorageResponse env result
      | some ⟨_, _, false⟩ | none => broker

/-!
## Saving
-/

def sendUnoSave (isAutosave : Bool) (extendedData : String) : Bool × DocumentBroker :=
  let broker := { broker with
    saveManager := { broker.saveManager with lastModifiedTime := 0 }
    nextStorageAttrs := { broker.nextStorageAttrs with
      isUserModified := broker.isModified || broker.haveModifyActivityAfterSaveRequest
      isAutosave := isAutosave
      extendedData := extendedData } }
  if env.forwarded then
    (true, { broker with
      saveManager := broker.saveManager.markLastSaveRequestTime broker.now
      docState :=
        if broker.docState.activity = .none then broker.docState.setActivity .save
        else broker.docState })
  else (false, broker)

def manualSave (extendedData : String) : Bool × DocumentBroker :=
  if broker.docState.activity ≠ .save then broker.sendUnoSave env false extendedData
  else (false, broker)

def autoSavingSession : Option ClientSession :=
  match broker.findSession broker.lastEditingSessionId with
  | some session =>
      if session.isEditable && session.isViewLoaded then some session
      else broker.getWriteableSession
  | none => broker.getWriteableSession

def timeToSave : Bool :=
  let inactivityTime := milliseconds (broker.now - broker.lastActivityTime)
  let timeSinceLastSave :=
    min (broker.saveManager.request.timeSinceLastRequest broker.now)
      (broker.storageManager.request.timeSinceLastResponse broker.now)
  let manager := broker.saveManager
  (0 < manager.idleSaveInterval && manager.idleSaveInterval ≤ inactivityTime &&
      manager.idleSaveInterval ≤ timeSinceLastSave) ||
    (0 < manager.autoSaveInterval && manager.autoSaveInterval ≤ timeSinceLastSave)

def autoSave (force : Bool) : Bool × DocumentBroker :=
  if broker.docState.activity = .save then (true, broker)
  else
    let broker := { broker with saveManager := broker.saveManager.autoSaveChecked broker.now }
    if broker.canSaveToDisk ≠ .yes then (false, broker)
    else if !broker.isModified && !force then (false, broker)
    else
      match broker.autoSavingSession with
      | none => (false, broker)
      | some _ =>
          if force then broker.sendUnoSave env false ""
          else if broker.isModified && broker.timeToSave then broker.sendUnoSave env true ""
          else (false, broker)

def dropSession (session : ClientSession) : DocumentBroker :=
  if broker.docState.isMarkedToDestroy || session.isCloseFrame then
    broker.disconnectSessionInternal session
  else broker

def stopIfUnloaded (session : ClientSession) : DocumentBroker :=
  if broker.isAsyncUploading then broker
  else
    let broker := broker.dropSession session
    if broker.hasUnloaded then broker.stop .checkAndUploadToStorage "unloading" else broker

def checkAndUploadToStorage (session : ClientSession) : DocumentBroker :=
  let needToUpload := broker.needToUploadToStorage
  if broker.docState.activity = .rename && !needToUpload then broker.renameInStorage env
  else
    let broker := if broker.docState.activity = .save then broker.endActivity else broker
    if broker.docState.unloadRequested && broker.needToSaveToDisk ≠ .no then broker
    else
      let broker := if needToUpload then broker.uploadToStorage env session false else broker
      broker.stopIfUnloaded session

def recordSaveResponse (success unmodified : Bool) (wasModified : Option Bool) : DocumentBroker :=
  let next :=
    match wasModified with
    | some wasModified => { broker.nextStorageAttrs with isUserModified := wasModified }
    | none => broker.nextStorageAttrs
  renameToUploading
    { broker with
      currentStorageAttrs := broker.currentStorageAttrs.merge next
      nextStorageAttrs := .reset
      saveManager := broker.saveManager.setLastSaveResult broker.now (success || unmodified) }

def handleSaveResponse (session : ClientSession) (success unmodified : Bool)
    (wasModified : Option Bool) : DocumentBroker :=
  (broker.recordSaveResponse success unmodified wasModified).checkAndUploadToStorage env session

/-!
## Unloading
-/

/-- Whether `autoSaveAndStop` may stop before it saves, `none` if it waits for the
modified flag to clear. -/
def canStop : Option Bool :=
  if broker.needToSaveToDisk = .no && !broker.needToUploadToStorage then some true
  else if broker.needToSaveToDisk = .no && !broker.isStorageOutdated then some true
  else if !broker.needToUploadToStorage then
    if !broker.haveActivityAfterSaveRequest && !broker.saveManager.isSaving &&
        broker.saveManager.lastSaveSuccessful then
      if broker.isModified &&
          broker.saveManager.request.timeSinceLastResponse broker.now < 2000 then none
      else some true
    else some (!broker.isPossiblyModified)
  else some false

def autoSaveAndStop (reason : String) : DocumentBroker :=
  if broker.saveManager.isSaving || broker.isAsyncUploading then broker
  else
    match broker.canStop with
    | none => broker
    | some true => broker.stop .autoSaveAndStop reason
    | some false =>
        if broker.saveManager.canSaveNow broker.now then
          match broker.autoSave env broker.isPossiblyModified with
          | (true, broker) => broker
          | (false, broker) =>
              match broker.getWriteableSession with
              | some session =>
                  if !session.isExpired then broker.checkAndUploadToStorage env session
                  else broker.stop .noWritableSession reason
              | none => broker.stop .noWritableSession reason
        else broker

def saveOrDisconnect (session : ClientSession) : DocumentBroker :=
  if !(session.isEditable && !broker.haveAnotherEditableSession session.id) then
    broker.disconnectSessionInternal session
  else if broker.saveManager.isSaving then broker
  else
    match broker.autoSave env broker.isPossiblyModified with
    | (true, broker) => broker
    | (false, broker) => broker.disconnectSessionInternal session

def unloadAfterLast : DocumentBroker :=
  if broker.saveManager.isSaving || broker.isAsyncUploading then
    { broker with docState := broker.docState.setUnloadRequested }
  else if broker.sessions.isEmpty then
    { broker with docState := broker.docState.markToDestroy }
  else broker

def removeSession (session : ClientSession) : DocumentBroker :=
  let removed := broker.saveOrDisconnect env session
  if broker.countActiveSessions ≤ 1 then removed.unloadAfterLast else removed

def addSessionFailed : DocumentBroker :=
  if broker.sessions.isEmpty then { broker with docState := broker.docState.markToDestroy }
  else broker

def setLoaded (loadDuration : Nat) : DocumentBroker :=
  if broker.docState.loaded then broker
  else
    { broker with
      docState := { broker.docState with status := .live, loaded := true }
      saveManager := { broker.saveManager with
        savingTimeout := max ((loadDuration * 4 + 500) / 1000) 5 } }

def closeDocument (reason : String) : DocumentBroker :=
  let broker := { broker with
    docState := { broker.docState with closeRequested := true }
    closeReason := reason }
  if broker.documentChangedInStorage then broker.stop .closeDocument reason else broker

def disconnectedFromKit : DocumentBroker :=
  let broker := { broker with docState := { broker.docState with disconnected := true } }
  if broker.closeReason = "" then broker.closeDocument "docdisconnected" else broker

def startRenameFileCommand : DocumentBroker :=
  if broker.renameSessionId = "" || broker.renameFilename = "" then broker
  else if broker.docState.activity ≠ .none then broker
  else
    let broker := { broker with docState := broker.docState.setActivity .rename }
    match broker.findSession broker.renameSessionId with
    | none => broker.endRenameFileCommand
    | some _ => (broker.sendUnoSave env false "").2

def handleRenameFileCommand (sessionId newFilename : String) : DocumentBroker :=
  if newFilename = "" then broker
  else if broker.docState.activity = .rename && broker.renameFilename ≠ newFilename then broker
  else
    let broker := { broker with renameFilename := newFilename, renameSessionId := sessionId }
    if broker.docState.activity = .none then broker.startRenameFileCommand env else broker

/-!
## The polling loop
-/

inductive IdleAction where
  | nothing
  | startRename
  | autoSaveAndStop (reason : String)
  | stopDead
  | stopFailed
  | autoSave
  | retryUpload (session : ClientSession)

def idleAction : IdleAction :=
  if broker.renameFilename ≠ "" && broker.renameSessionId ≠ "" then .startRename
  else if broker.docState.loaded &&
      broker.idleDocTimeoutSecs ≤ seconds (broker.now - broker.lastActivityTime) then
    .autoSaveAndStop "idle"
  else if broker.sessions.isEmpty &&
      (broker.docState.loaded || broker.docState.isMarkedToDestroy) then
    if !broker.docState.loaded then .stopDead
    else if broker.saveManager.isSaving || broker.isAsyncUploading then .nothing
    else .autoSaveAndStop "dead"
  else if broker.docState.unloadRequested || broker.shutdownRequestFlag ||
      broker.docState.closeRequested then
    if 0 < broker.limitStoreFailures &&
        (broker.limitStoreFailures ≤ broker.saveManager.request.lastRequestFailureCount ||
          broker.limitStoreFailures ≤ broker.storageManager.request.lastRequestFailureCount) then
      .stopFailed
    else
      .autoSaveAndStop
        (if broker.shutdownRequestFlag then "recycling"
        else if broker.closeReason ≠ "" then broker.closeReason else "unloading")
  else if !broker.stopped && broker.saveManager.needAutoSaveCheck broker.now then .autoSave
  else if !broker.isAsyncUploading && !broker.storageManager.lastUploadSuccessful &&
      broker.needToUploadToStorage then
    match broker.getWriteableSession with
    | some session => if !session.isExpired then .retryUpload session else .nothing
    | none => .nothing
  else .nothing

def pollIdle : DocumentBroker :=
  match broker.idleAction with
  | .nothing => broker
  | .startRename => broker.startRenameFileCommand env
  | .autoSaveAndStop reason => broker.autoSaveAndStop env reason
  | .stopDead => (broker.stop .poll "dead").autoSaveAndStop env "dead"
  | .stopFailed => broker.stop .poll "storefailed"
  | .autoSave => (broker.autoSave env false).2
  | .retryUpload session => broker.checkAndUploadToStorage env session

def poll : DocumentBroker :=
  if broker.stopped || broker.terminationFlag then broker
  else
    match broker.docState.activity with
    | .none => broker.pollIdle env
    | .save | .saveAs =>
        if broker.docState.disconnected || broker.saveManager.hasSavingTimedOut broker.now then
          endActivity
            { broker with saveManager := broker.saveManager.setLastSaveResult broker.now false }
        else broker
    | .rename | .conflict | .upload =>
        { broker with saveManager := broker.saveManager.postponeAutosave broker.now 30 }

/-!
## What uploading is about

Most operations leave alone the files, the upload request and what was uploaded.
-/

structure UploadState where
  storage : Option WopiStorage
  uploadRequest : Option UploadRequest
  lastUploadedFileModifiedTime : FileTime
  acknowledged : List FileTime

def uploadState : UploadState where
  storage := broker.storage
  uploadRequest := broker.uploadRequest
  lastUploadedFileModifiedTime := broker.storageManager.lastUploadedFileModifiedTime
  acknowledged := broker.acknowledged

variable {broker : DocumentBroker} {env : Environment}

theorem isStorageOutdated_congr {other : DocumentBroker}
    (same : broker.uploadState = other.uploadState) :
    broker.isStorageOutdated = other.isStorageOutdated := by
  obtain ⟨sameStorage, -, sameTime, -⟩ := UploadState.mk.inj same
  unfold isStorageOutdated
  rw [sameStorage, sameTime]

@[simp] theorem uploadState_disconnectSessionInternal (session : ClientSession) :
    (broker.disconnectSessionInternal session).uploadState = broker.uploadState := by
  unfold disconnectSessionInternal setSessions finalRemoveSession
  dsimp only
  split <;> split <;> rfl

@[simp] theorem uploadState_uploadCallback (state : AsyncUploadState) :
    (broker.uploadCallback state).uploadState = broker.uploadState := by
  cases state with
  | running => rfl
  | complete => rfl
  | none =>
      simp only [uploadCallback]
      split <;> rfl
  | error =>
      simp only [uploadCallback]
      split <;> rfl

@[simp] theorem uploadState_stopIfUploaded :
    broker.stopIfUploaded.uploadState = broker.uploadState := by
  unfold stopIfUploaded
  dsimp only
  split <;> split <;> rfl

@[simp] theorem uploadState_handleUploadFailure (request : UploadRequest) (result : UploadResult) :
    (broker.handleUploadFailure env request result).uploadState = broker.uploadState := by
  unfold handleUploadFailure
  cases result <;> dsimp only [setSessions]
  all_goals first | rfl | (split <;> rfl)

section Requests

variable (env) (session : ClientSession) (saveAsPath saveAsFilename : String)
  (isRename isExport force : Bool)

theorem uploadToStorageInternal_requested {storage : WopiStorage}
    (stored : broker.storage = some storage) (editable : session.isEditable = true)
    (notSkipped : broker.skipsUploading saveAsPath isRename force = false) :
    (broker.uploadToStorageInternal env session saveAsPath saveAsFilename isRename isExport
        force).uploadState =
      { broker.uploadState with
        storage := some (storage.uploadLocalFileToStorageAsync saveAsPath saveAsFilename isRename
          (broker.uploadingAttrs force) env.saveAsFile env.outcome).1
        uploadRequest := some {
          newFileModifiedTime := broker.uploadingModifiedTime
          session := session.id
          isSaveAs := saveAsPath ≠ ""
          isExport := isExport
          isRename := isRename } } := by
  simp only [uploadToStorageInternal, stored, editable, notSkipped, Bool.not_true,
    Bool.false_eq_true, if_false, uploadState_uploadCallback]
  rfl

theorem uploadToStorageInternal_cases :
    let after := broker.uploadToStorageInternal env session saveAsPath saveAsFilename isRename
      isExport force
    after = broker ∨
      ∃ storage, broker.storage = some storage ∧ session.isEditable = true ∧
        broker.skipsUploading saveAsPath isRename force = false := by
  intro after
  cases stored : broker.storage with
  | none => exact .inl (by simp only [after, uploadToStorageInternal, stored])
  | some storage =>
      by_cases editable : session.isEditable = true
      · cases skips : broker.skipsUploading saveAsPath isRename force with
        | true =>
            exact .inl (by
              simp only [after, uploadToStorageInternal, stored, editable, skips, Bool.not_true,
                Bool.false_eq_true, if_false, if_true])
        | false => exact .inr ⟨storage, rfl, editable, rfl⟩
      · exact .inl (by
          simp only [after, uploadToStorageInternal, stored, editable, Bool.not_false, if_true])

end Requests

end DocumentBroker

end FreeOnline.Wsd
