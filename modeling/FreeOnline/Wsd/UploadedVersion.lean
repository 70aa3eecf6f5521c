import FreeOnline.Library.Run
import FreeOnline.Wsd.DocumentBroker

/-!
# The version that was uploaded last

The storage answers some time after an upload was started, and the broker takes the
answer for the one to its upload request. It matters that the request is not replaced
by one for another version in the meantime.
-/

set_option autoImplicit false

namespace FreeOnline.Wsd

open FreeOnline.Library

namespace DocumentBroker

/-- Saves, uploads and their answers in any order. The kit writes a file, the broker
gets the answer to a save or that a template was loaded, an upload is asked for with
any arguments, the storage answers, and anything else about the broker changes. -/
inductive UploadEvent where
  | kitSaved (time : FileTime)
  | saveResponse (success unmodified : Bool) (wasModified : Option Bool)
  | templateLoaded
  | upload (session : ClientSession) (saveAsPath saveAsFilename : String)
      (isRename isExport force : Bool) (env : Environment)
  | finished (result : UploadResult) (reported : Option String) (env : Environment)
  | other (changed : DocumentBroker)

def uploadStep (broker : DocumentBroker) : UploadEvent → DocumentBroker
  | .kitSaved time =>
      { broker with
        storage := broker.storage.map fun storage =>
          { storage with rootFileToUpload := some time } }
  | .saveResponse success unmodified wasModified =>
      broker.recordSaveResponse success unmodified wasModified
  | .templateLoaded => broker.renameToUploading
  | .upload session saveAsPath saveAsFilename isRename isExport force env =>
      broker.uploadToStorageInternal env session saveAsPath saveAsFilename isRename isExport force
  | .finished result reported env => broker.uploadFinished env result reported
  | .other changed =>
      { changed with
        storage := broker.storage
        uploadRequest := broker.uploadRequest
        storageManager := { changed.storageManager with
          lastUploadedFileModifiedTime := broker.storageManager.lastUploadedFileModifiedTime }
        acknowledged := broker.acknowledged }

def UploadsVersionOnDisk (broker : DocumentBroker) : Prop :=
  ∀ storage ∈ broker.storage, ∀ http ∈ storage.uploadHttpSession, http.started = true →
    http.version = some broker.uploadingModifiedTime

/-- No upload of the document is asked for while another version is on its way. -/
def KeepsVersion (broker : DocumentBroker) : UploadEvent → Prop
  | .upload session saveAsPath _ isRename _ force _ =>
      session.isEditable = true → saveAsPath = "" → isRename = false →
        broker.skipsUploading saveAsPath isRename force = false → broker.UploadsVersionOnDisk
  | _ => True

instance (broker : DocumentBroker) : Decidable broker.UploadsVersionOnDisk :=
  inferInstanceAs (Decidable (∀ storage ∈ broker.storage, _))

instance (broker : DocumentBroker) : (event : UploadEvent) → Decidable (broker.KeepsVersion event)
  | .upload .. => inferInstanceAs (Decidable (_ → _))
  | .kitSaved _ | .saveResponse .. | .templateLoaded | .finished .. | .other _ => .isTrue trivial

/-- What the storage is asked to upload is what the broker takes the answer for, and
the version recorded as uploaded is the one loaded or one that was acknowledged. -/
structure Sound (loaded : FileTime) (state : UploadState) : Prop where
  matching : ∀ storage ∈ state.storage, ∀ http ∈ storage.uploadHttpSession, http.started = true →
    ∀ request ∈ state.uploadRequest, request.isSaveAs = false → request.isRename = false →
      http.version = some request.newFileModifiedTime
  acknowledged : state.lastUploadedFileModifiedTime = loaded ∨
    state.lastUploadedFileModifiedTime ∈ state.acknowledged

section Steps

variable {loaded : FileTime} {broker : DocumentBroker} {env : Environment}

private theorem sound_upload (sound : Sound loaded broker.uploadState) {session : ClientSession}
    {saveAsPath saveAsFilename : String} {isRename isExport force : Bool}
    (keeps : broker.KeepsVersion
      (.upload session saveAsPath saveAsFilename isRename isExport force env)) :
    Sound loaded (broker.uploadToStorageInternal env session saveAsPath saveAsFilename isRename
      isExport force).uploadState := by
  rcases broker.uploadToStorageInternal_cases env session saveAsPath saveAsFilename isRename isExport
    force with same | ⟨storage, stored, editable, skips⟩
  · rw [same]
    exact sound
  · rw [uploadToStorageInternal_requested env session saveAsPath saveAsFilename isRename isExport
      force stored editable skips]
    refine ⟨?_, sound.acknowledged⟩
    intro uploading isUploading http inProgress started request isRequest notSaveAs notRename
    cases isUploading
    cases isRequest
    have noPath : saveAsPath = "" := by simpa using notSaveAs
    rcases storage.uploadLocalFileToStorageAsync_cases saveAsPath saveAsFilename isRename
      (broker.uploadingAttrs force) env.saveAsFile env.outcome with refused | ⟨-, new, accepted, version⟩
    · rw [refused] at inProgress
      exact keeps editable noPath notRename skips storage stored http inProgress started
    · rw [accepted] at inProgress
      cases inProgress
      obtain ⟨time, onDisk, isVersion⟩ := version noPath notRename
      rw [isVersion, uploadingModifiedTime, stored]
      simp only [onDisk, Option.getD_some]

private theorem sound_renameInStorage (sound : Sound loaded broker.uploadState) :
    Sound loaded (broker.renameInStorage env).uploadState := by
  unfold renameInStorage
  split
  · exact sound
  · apply sound_upload sound
    intro _ _ notRename
    cases notRename

private theorem sound_handleUploaded (sound : Sound loaded broker.uploadState)
    {request : UploadRequest}
    (answered : request.isSaveAs = false → request.isRename = false →
      request.newFileModifiedTime ∈ broker.acknowledged) :
    Sound loaded (broker.handleUploaded env request).uploadState := by
  unfold handleUploaded
  split
  · next plain =>
      simp only [Bool.and_eq_true, Bool.not_eq_true'] at plain
      have recorded : Sound loaded (broker.recordUploaded request).uploadState :=
        ⟨sound.matching, .inr (answered plain.1 plain.2)⟩
      dsimp only
      split
      · exact sound_renameInStorage recorded
      all_goals exact recorded
  · split
    · exact sound
    · exact sound

private theorem sound_response {result : UploadResult} (sound : Sound loaded broker.uploadState)
    (answered : result = .ok → ∀ request ∈ broker.uploadRequest, request.isSaveAs = false →
      request.isRename = false → request.newFileModifiedTime ∈ broker.acknowledged) :
    Sound loaded (broker.handleUploadToStorageResponse env result).uploadState := by
  unfold handleUploadToStorageResponse
  split
  · exact sound
  · next request requested =>
      dsimp only
      split
      · next ok =>
          rw [uploadState_stopIfUploaded]
          apply sound_handleUploaded
          · exact sound
          · exact answered ok request requested
      · rw [uploadState_handleUploadFailure]
        exact sound

private theorem sound_finished (sound : Sound loaded broker.uploadState) (result : UploadResult)
    (reported : Option String) :
    Sound loaded (broker.uploadFinished env result reported).uploadState := by
  unfold uploadFinished
  split
  · exact sound
  · next storage stored =>
      split
      · next version attributes inProgress =>
          have matching := sound.matching storage stored _ inProgress rfl
          apply sound_response
          · refine ⟨?_, ?_⟩
            · intro retired isRetired http stillInProgress
              cases isRetired
              cases stillInProgress
            · rcases sound.acknowledged with initial | member
              · exact .inl initial
              · refine .inr ?_
                simp only [uploadState]
                split
                · exact List.mem_append_left _ member
                · exact member
          · intro ok request requested notSaveAs notRename
            have isVersion : version = some request.newFileModifiedTime :=
              matching request requested notSaveAs notRename
            simp only [ok, if_true, isVersion]
            exact List.mem_append_right _ List.mem_cons_self
      all_goals exact sound

private theorem sound_storage (sound : Sound loaded broker.uploadState)
    {change : WopiStorage → WopiStorage}
    (keeps : ∀ storage, (change storage).uploadHttpSession = storage.uploadHttpSession) :
    Sound loaded { broker.uploadState with storage := broker.storage.map change } := by
  refine ⟨?_, sound.acknowledged⟩
  intro changed isChanged http inProgress
  obtain ⟨storage, stored, rfl⟩ := Option.map_eq_some_iff.mp isChanged
  rw [keeps] at inProgress
  exact sound.matching storage stored http inProgress

private theorem renameToUploading_session (storage : WopiStorage) :
    storage.renameToUploading.uploadHttpSession = storage.uploadHttpSession := by
  unfold WopiStorage.renameToUploading
  split <;> rfl

private theorem sound_step (event : UploadEvent) (sound : Sound loaded broker.uploadState)
    (keeps : broker.KeepsVersion event) : Sound loaded (broker.uploadStep event).uploadState := by
  cases event with
  | kitSaved time => exact sound_storage sound fun _ => rfl
  | saveResponse => exact sound_storage sound renameToUploading_session
  | templateLoaded => exact sound_storage sound renameToUploading_session
  | upload => exact sound_upload sound keeps
  | finished result reported env => exact sound_finished sound result reported
  | other changed => exact sound

end Steps

structure JustLoaded (broker : DocumentBroker) : Prop where
  idle : ∀ storage ∈ broker.storage, storage.uploadHttpSession = none
  notRequested : broker.uploadRequest = none
  notAcknowledged : broker.acknowledged = []

/-- In every run in which no upload is asked for while another version is on its
way, the version recorded as uploaded is the one that was loaded or one that the
storage has acknowledged; any other version on disk is reported as not uploaded. -/
theorem run_uploaded_acknowledged (initial : DocumentBroker) (events : List UploadEvent)
    (justLoaded : initial.JustLoaded)
    (permitted : Permitted uploadStep KeepsVersion initial events) :
    let loaded := initial.storageManager.lastUploadedFileModifiedTime
    let broker := run uploadStep initial events
    let uploaded := broker.storageManager.lastUploadedFileModifiedTime
    (uploaded = loaded ∨ uploaded ∈ broker.acknowledged) ∧
      ∀ storage ∈ broker.storage, ∀ time ∈ storage.rootFileUploading,
        time ≠ loaded → time ∉ broker.acknowledged → broker.isStorageOutdated = true := by
  intro loaded broker uploaded
  have sound : Sound loaded broker.uploadState := by
    apply run_invariant (fun broker => Sound loaded broker.uploadState)
      (fun _ event sound keeps => sound_step event sound keeps) _ permitted
    refine ⟨?_, .inl rfl⟩
    intro storage stored http inProgress
    rw [justLoaded.idle storage stored] at inProgress
    cases inProgress
  refine ⟨sound.acknowledged, ?_⟩
  intro storage stored time onDisk notLoaded notAcknowledged
  have other : time ≠ uploaded := by
    rintro rfl
    exact sound.acknowledged.elim notLoaded notAcknowledged
  have isStored : broker.storage = some storage := stored
  have isOnDisk : storage.rootFileUploading = some time := onDisk
  simp only [isStorageOutdated, isStored, isOnDisk]
  exact decide_eq_true other

def editor : ClientSession where
  id := "1"
  state := .live
  isReadOnly := false
  isAllowChangeComments := false
  isCloseFrame := false
  isExpired := false
  isDocumentOwner := false

def fresh (loaded : FileTime) : DocumentBroker where
  now := 0
  alwaysSaveOnExit := false
  isViewFileExtension := false
  idleDocTimeoutSecs := 3600
  limitStoreFailures := 5
  hasKit := true
  shutdownRequestFlag := false
  terminationFlag := false
  docState := ⟨.live, .none, true, false, false, false⟩
  documentChangedInStorage := false
  saveManager := ⟨⟨500, 0, 0, 0, 0⟩, loaded, 30000, 300000, 5, 0⟩
  uploadRequest := none
  storageManager := ⟨⟨5000, 0, 0, 0, 0⟩, loaded, ""⟩
  sessions := [editor]
  storage := some ⟨none, none, none, ""⟩
  nextStorageAttrs := .reset
  currentStorageAttrs := .reset
  lastStorageAttrs := .reset
  isModified := false
  lastActivityTime := 0
  lastModifyActivityTime := 0
  lastEditingSessionId := ""
  renameFilename := ""
  renameSessionId := ""
  stopped := false
  closeReason := ""
  acknowledged := []
  stops := []

theorem fresh_justLoaded (loaded : FileTime) : (fresh loaded).JustLoaded where
  idle storage stored := by
    cases stored
    rfl
  notRequested := rfl
  notAcknowledged := rfl

def responsive : Environment := ⟨.started, none, true, 1⟩

def plainUpload : UploadEvent := .upload editor "" "" false false false responsive

/-- Two saves, each uploaded and acknowledged. -/
theorem run_uploaded_acknowledged_twice :
    let events := [.kitSaved 10, .saveResponse true false none, plainUpload,
      .finished .ok none responsive, .kitSaved 20, .saveResponse true false none, plainUpload,
      .finished .ok none responsive]
    let broker := run uploadStep (fresh 1) events
    let uploaded := broker.storageManager.lastUploadedFileModifiedTime
    uploaded = 20 ∧ (uploaded = 1 ∨ uploaded ∈ broker.acknowledged) := by
  have acknowledged := run_uploaded_acknowledged (fresh 1)
    [.kitSaved 10, .saveResponse true false none, plainUpload, .finished .ok none responsive,
      .kitSaved 20, .saveResponse true false none, plainUpload, .finished .ok none responsive]
    (fresh_justLoaded 1) (by decide)
  exact ⟨by decide, acknowledged.1⟩

/-- A second save is refused as the upload of the first one is in progress; with the
answer to the first, the second one is taken for uploaded. -/
theorem run_refused_taken_for_uploaded :
    let events := [.kitSaved 10, .saveResponse true false none, plainUpload, .kitSaved 20,
      .saveResponse true false none, plainUpload, .finished .ok none responsive]
    let broker := run uploadStep (fresh 1) events
    broker.storageManager.lastUploadedFileModifiedTime = 20 ∧ broker.acknowledged = [10] ∧
      broker.isStorageOutdated = false := by
  decide

end DocumentBroker

end FreeOnline.Wsd
