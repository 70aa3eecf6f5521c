import FreeOnline.Wsd.StopSafety

/-!
# The phases of a document

The phases are meant to be directional: a document is downloaded, loaded, live, and
marked to destroy in the end. The last step is an assignment that nothing guards, and
the kit may report that it has loaded a document after it was marked.
-/

set_option autoImplicit false

namespace FreeOnline.Wsd

open FreeOnline.Library
open DocumentState (Status)

/-- The position of a phase in the order of the enumeration. -/
def DocumentState.Status.phase : Status → Nat
  | .none => 0
  | .downloading => 1
  | .loading => 2
  | .live => 3
  | .destroying => 4
  | .destroyed => 5

/-- What may become of fetching a document: the storage cannot be made, there is no valid
information about the file, the file is not fetched, its conversion fails, or all is well. -/
inductive DownloadOutcome where
  | noStorage
  | noFileInfo
  | notFetched
  | notConverted
  | fetched
deriving DecidableEq, Repr

/-- What is learned of a file: the time that the host reports, and the one of the copy
on disk. -/
structure DownloadedFile where
  lastModifiedTime : String
  fileTime : FileTime
deriving DecidableEq

/-- A broker, and whether its storage has fetched the document. `asserted` is not in the
code: whether the assertion of `setStatus` has held whenever it was checked. -/
structure DocumentLife where
  broker : DocumentBroker
  isDownloaded : Bool
  asserted : Bool

namespace DocumentLife

/-!
## Sessions come, and the document is loaded
-/

def status (life : DocumentLife) : Status := life.broker.docState.status

def setStatus (life : DocumentLife) (newStatus : Status) : DocumentLife :=
  { life with
    broker := { life.broker with docState := { life.broker.docState with status := newStatus } }
    asserted := life.asserted && decide (life.status.phase ≤ newStatus.phase) }

/-- The storage is made for the first session, and later ones find it. -/
def createStorage (life : DocumentLife) (outcome : DownloadOutcome) (file : DownloadedFile) :
    Bool × DocumentLife :=
  if life.broker.storage.isSome then (true, life)
  else
    let life := life.setStatus .downloading
    if outcome = .noStorage then (false, life)
    else
      (true, { life with
        broker := { life.broker with storage := some ⟨none, none, none, file.lastModifiedTime⟩ } })

/-- The time that the host reports tells whether the file was changed behind our back. -/
def noteModifiedTime (life : DocumentLife) (firstInstance : Bool) (file : DownloadedFile) :
    DocumentLife :=
  let known := life.broker.storageManager.lastModifiedTime
  if firstInstance then
    { life with
      broker := { life.broker with
        storageManager := { life.broker.storageManager with
          lastModifiedTime := file.lastModifiedTime } } }
  else if known ≠ "" ∧ file.lastModifiedTime ≠ "" ∧ known ≠ file.lastModifiedTime then
    { life with broker := { life.broker with documentChangedInStorage := true } }
  else life

def fetchFile (life : DocumentLife) (outcome : DownloadOutcome) (file : DownloadedFile) :
    Bool × DocumentLife :=
  if life.isDownloaded then (true, life)
  else if outcome = .notFetched then (false, life)
  else
    let life := life.setStatus .loading
    let broker := { life.broker with
      saveManager := { life.broker.saveManager with lastModifiedTime := file.fileTime }
      storageManager := { life.broker.storageManager with
        lastUploadedFileModifiedTime := file.fileTime } }
    (outcome ≠ .notConverted, { life with broker := broker, isDownloaded := true })

def download (life : DocumentLife) (outcome : DownloadOutcome) (file : DownloadedFile) :
    Bool × DocumentLife :=
  if life.broker.docState.isMarkedToDestroy then (false, life)
  else
    match life.createStorage outcome file with
    | (false, created) => (false, created)
    | (true, created) =>
        if outcome = .noFileInfo then (false, created)
        else
          (created.noteModifiedTime life.broker.storage.isNone file).fetchFile outcome file

/-- Sessions are kept by their ids; an id that is there already keeps its session. -/
def insertSession (session : ClientSession) : List ClientSession → List ClientSession
  | [] => [session]
  | other :: sessions =>
      if other.id = session.id then other :: sessions
      else if session.id < other.id then session :: other :: sessions
      else other :: insertSession session sessions

def addSession (life : DocumentLife) (session : ClientSession) (outcome : DownloadOutcome)
    (file : DownloadedFile) : DocumentLife :=
  match life.download outcome file with
  | (false, life) => { life with broker := life.broker.addSessionFailed }
  | (true, life) =>
      { life with
        broker := { life.broker with
          sessions := insertSession { session with state := .loading } life.broker.sessions } }

def setLoaded (life : DocumentLife) (loadDuration : Nat) : DocumentLife :=
  { life with
    broker := life.broker.setLoaded loadDuration
    asserted := life.asserted &&
      (life.broker.docState.loaded || decide (life.status.phase ≤ Status.live.phase)) }

/-- The kit reports the status of a view that it has loaded. -/
def statusReport (life : DocumentLife) (sessionId : String) (loadDuration : Nat) : DocumentLife :=
  match life.broker.findSession sessionId with
  | none => life
  | some _ =>
      let broker := life.broker.setSessions fun session =>
        if session.id = sessionId ∧ session.state ≠ .waitDisconnect then
          { session with state := .live }
        else session
      { life with broker := broker }.setLoaded loadDuration

end DocumentLife

/-!
## Runs
-/

/-- Not one of the events that sessions come with, which are refined here. -/
def DocumentBroker.BrokerEvent.keepsSessions : DocumentBroker.BrokerEvent → Bool
  | .setSessions _ | .addSessionFailed | .loaded _ => false
  | _ => true

/-- A session is added or changes its flags, the kit reports a loaded view, unloading is
requested, or the broker does anything else. -/
inductive LifeEvent where
  | addSession (session : ClientSession) (outcome : DownloadOutcome) (file : DownloadedFile)
  | setSession (session : ClientSession)
  | statusReport (sessionId : String) (loadDuration : Nat)
  | requestUnload
  | other (event : DocumentBroker.BrokerEvent) (keepsSessions : event.keepsSessions = true)

namespace DocumentLife

def step (life : DocumentLife) : LifeEvent → DocumentLife
  | .addSession session outcome file => life.addSession session outcome file
  | .setSession session =>
      { life with
        broker := life.broker.setSessions fun other =>
          if other.id = session.id then { session with state := other.state } else other }
  | .statusReport sessionId loadDuration => life.statusReport sessionId loadDuration
  | .requestUnload =>
      { life with
        broker := { life.broker with docState := life.broker.docState.setUnloadRequested } }
  | .other event _ => { life with broker := life.broker.step event }

/-- The step takes the document to a later phase, if to another one, and the assertion
of `setStatus` holds in it. -/
def Advances (life : DocumentLife) (event : LifeEvent) : Prop :=
  life.status.phase ≤ (life.step event).status.phase ∧
    (life.asserted = true → (life.step event).asserted = true)

/-- The first report of a loaded view does not come after the document was marked to
destroy, unless its session is gone. -/
def LoadsInTime (life : DocumentLife) : LifeEvent → Prop
  | .statusReport sessionId _ =>
      (life.broker.findSession sessionId).isSome = true → life.broker.docState.loaded = false →
        life.broker.docState.isMarkedToDestroy = false
  | _ => True

instance (life : DocumentLife) (event : LifeEvent) : Decidable (life.Advances event) :=
  inferInstanceAs (Decidable (_ ∧ (_ → _)))

instance (life : DocumentLife) : (event : LifeEvent) → Decidable (life.LoadsInTime event)
  | .statusReport .. => inferInstanceAs (Decidable (_ → _ → _))
  | .addSession .. | .setSession _ | .requestUnload | .other .. => .isTrue trivial

end DocumentLife

/-!
## What the broker does to the phase
-/

/-- The phase stays or the document is marked to destroy, and no session is added. -/
structure DocumentBroker.Ages (before after : DocumentBroker) : Prop where
  status : after.docState.status = before.docState.status ∨ after.docState.status = .destroying
  storage : after.storage.isSome = before.storage.isSome
  sessions : before.sessions = [] → after.sessions = []

namespace DocumentBroker.Ages

variable {broker before middle after : DocumentBroker} {env : Environment}

theorem refl : broker.Ages broker := ⟨.inl rfl, rfl, id⟩

theorem trans (first : before.Ages middle) (second : middle.Ages after) : before.Ages after where
  status := by
    rcases second.status with same | marked
    · rw [same]
      exact first.status
    · exact .inr marked
  storage := second.storage.trans first.storage
  sessions := second.sessions ∘ first.sessions

theorem setSessions (change : ClientSession → ClientSession) :
    broker.Ages (broker.setSessions change) :=
  ⟨.inl rfl, rfl, fun none => by rw [DocumentBroker.setSessions, none, List.map_nil]⟩

private theorem finalRemoveSession (id : String) : broker.Ages (broker.finalRemoveSession id) :=
  ⟨.inl rfl, rfl, fun none => by rw [DocumentBroker.finalRemoveSession, none, List.filter_nil]⟩

private theorem markToDestroy :
    broker.Ages { broker with docState := broker.docState.markToDestroy } :=
  ⟨.inr rfl, rfl, id⟩

theorem setUnloadRequested :
    broker.Ages { broker with docState := broker.docState.setUnloadRequested } :=
  ⟨.inl rfl, rfl, id⟩

private theorem disconnectSessionInternal (session : ClientSession) :
    broker.Ages (broker.disconnectSessionInternal session) := by
  have removed : ∀ marked : DocumentBroker, broker.Ages marked → broker.Ages
      (if session.state = .live then marked.setSessions fun other =>
          if other.id = session.id then { other with state := .waitDisconnect } else other
        else marked.finalRemoveSession session.id) := by
    intro marked ages
    split
    · exact ages.trans (setSessions _)
    · exact ages.trans (finalRemoveSession _)
  unfold DocumentBroker.disconnectSessionInternal
  apply removed
  split
  · exact markToDestroy
  · exact refl

private theorem uploadCallback (state : AsyncUploadState) :
    broker.Ages (broker.uploadCallback state) := by
  cases state with
  | running => exact refl
  | complete => exact refl
  | none =>
      unfold DocumentBroker.uploadCallback
      dsimp only
      split <;> exact ⟨.inl rfl, rfl, id⟩
  | error =>
      unfold DocumentBroker.uploadCallback
      dsimp only
      split <;> exact ⟨.inl rfl, rfl, id⟩

private theorem uploadToStorageInternal (session : ClientSession)
    (saveAsPath saveAsFilename : String) (isRename isExport force : Bool) :
    broker.Ages (broker.uploadToStorageInternal env session saveAsPath saveAsFilename isRename
      isExport force) := by
  unfold DocumentBroker.uploadToStorageInternal
  cases stored : broker.storage with
  | none => exact refl
  | some storage =>
      dsimp only
      split
      · exact refl
      · split
        · exact refl
        · refine trans ?_ (uploadCallback _)
          exact ⟨.inl rfl, by rw [stored]; rfl, id⟩

private theorem uploadToStorage (session : ClientSession) (force : Bool) :
    broker.Ages (broker.uploadToStorage env session force) := by
  unfold DocumentBroker.uploadToStorage
  split
  · exact uploadToStorageInternal ..
  · exact refl

private theorem renameToUploading : broker.Ages broker.renameToUploading :=
  ⟨.inl rfl, by simp [DocumentBroker.renameToUploading], id⟩

private theorem renameInStorage : broker.Ages (broker.renameInStorage env) := by
  unfold DocumentBroker.renameInStorage
  split
  · exact ⟨.inl rfl, rfl, id⟩
  · exact uploadToStorageInternal ..

private theorem stopIfUploaded : broker.Ages broker.stopIfUploaded := by
  have stopped : ∀ marked : DocumentBroker, broker.Ages marked → broker.Ages
      (if marked.hasUnloaded && !marked.isPossiblyModified then
        marked.stop .uploadedToStorage "unloading" else marked) := by
    intro marked ages
    split
    · exact ages.trans ⟨.inl rfl, rfl, id⟩
    · exact ages
  unfold DocumentBroker.stopIfUploaded
  apply stopped
  split
  · exact markToDestroy
  · exact refl

private theorem handleUploaded (request : UploadRequest) :
    broker.Ages (broker.handleUploaded env request) := by
  have recorded : broker.Ages (broker.recordUploaded request) := ⟨.inl rfl, rfl, id⟩
  unfold DocumentBroker.handleUploaded
  split
  · dsimp only
    split
    · exact recorded.trans renameInStorage
    all_goals exact recorded
  · split
    · exact ⟨.inl rfl, rfl, id⟩
    · exact refl

private theorem handleUploadFailure (request : UploadRequest) (result : UploadResult) :
    broker.Ages (broker.handleUploadFailure env request result) := by
  have merged : ∀ {failed : DocumentBroker}, broker.Ages failed → broker.Ages { failed with
      currentStorageAttrs := failed.currentStorageAttrs.merge failed.lastStorageAttrs
      lastStorageAttrs := .reset } :=
    fun ages => ages.trans ⟨.inl rfl, rfl, id⟩
  have conflict : broker.Ages
      (if env.activeClients = 0 then
        { broker with documentChangedInStorage := true }.stop .conflict "conflict"
      else { broker with documentChangedInStorage := true }) := by
    split <;> exact ⟨.inl rfl, rfl, id⟩
  unfold DocumentBroker.handleUploadFailure
  cases result with
  | ok => exact merged refl
  | failed => exact merged refl
  | diskfull => exact merged (setSessions _)
  | tooLarge => exact merged (setSessions _)
  | unauthorized => exact merged (setSessions _)
  | docChanged => exact merged conflict
  | conflict => exact merged conflict

private theorem uploadFinished (result : UploadResult) (reported : Option String) :
    broker.Ages (broker.uploadFinished env result reported) := by
  have handled : ∀ finished : DocumentBroker,
      finished.Ages (finished.handleUploadToStorageResponse env result) := by
    intro finished
    unfold DocumentBroker.handleUploadToStorageResponse
    split
    · exact refl
    · next request _ =>
        have answered : finished.Ages { finished with
            storageManager := finished.storageManager.setLastUploadResult finished.now
              (result = UploadResult.ok) } := ⟨.inl rfl, rfl, id⟩
        dsimp only
        split
        · exact answered.trans ((handleUploaded request).trans stopIfUploaded)
        · exact answered.trans (handleUploadFailure request result)
  unfold DocumentBroker.uploadFinished
  cases stored : broker.storage with
  | none => exact refl
  | some storage =>
      dsimp only
      split
      · refine trans ?_ (handled _)
        exact ⟨.inl rfl, by rw [stored]; rfl, id⟩
      · exact refl
      · exact refl

private theorem sendUnoSave (isAutosave : Bool) (extendedData : String) :
    broker.Ages (broker.sendUnoSave env isAutosave extendedData).2 := by
  unfold DocumentBroker.sendUnoSave
  dsimp only
  split
  · refine ⟨.inl ?_, rfl, id⟩
    dsimp only
    split <;> rfl
  · exact ⟨.inl rfl, rfl, id⟩

private theorem autoSave (force : Bool) : broker.Ages (broker.autoSave env force).2 := by
  have checked : broker.Ages
      { broker with saveManager := broker.saveManager.autoSaveChecked broker.now } :=
    ⟨.inl rfl, rfl, id⟩
  unfold DocumentBroker.autoSave
  split
  · exact refl
  · dsimp only
    split
    · exact checked
    · split
      · exact checked
      · split
        · exact checked
        · split
          · exact checked.trans (sendUnoSave ..)
          · split
            · exact checked.trans (sendUnoSave ..)
            · exact checked

private theorem checkAndUploadToStorage (session : ClientSession) :
    broker.Ages (broker.checkAndUploadToStorage env session) := by
  have stopped : ∀ checked : DocumentBroker, checked.Ages (checked.stopIfUnloaded session) := by
    intro checked
    have dropped : checked.Ages (checked.dropSession session) := by
      unfold DocumentBroker.dropSession
      split
      · exact disconnectSessionInternal session
      · exact refl
    unfold DocumentBroker.stopIfUnloaded
    split
    · exact refl
    · dsimp only
      split
      · exact dropped.trans ⟨.inl rfl, rfl, id⟩
      · exact dropped
  have uploads : ∀ checked : DocumentBroker, broker.Ages checked → broker.Ages
      (if checked.docState.unloadRequested && checked.needToSaveToDisk ≠ .no then checked
      else
        (if broker.needToUploadToStorage then checked.uploadToStorage env session false
          else checked).stopIfUnloaded session) := by
    intro checked ages
    split
    · exact ages
    · split
      · exact ages.trans ((uploadToStorage ..).trans (stopped _))
      · exact ages.trans (stopped _)
  unfold DocumentBroker.checkAndUploadToStorage
  dsimp only
  split
  · exact renameInStorage
  · apply uploads
    split
    · exact ⟨.inl rfl, rfl, id⟩
    · exact refl

private theorem autoSaveAndStop (reason : String) :
    broker.Ages (broker.autoSaveAndStop env reason) := by
  unfold DocumentBroker.autoSaveAndStop
  split
  · exact refl
  · split
    · exact refl
    · exact ⟨.inl rfl, rfl, id⟩
    · split
      · have saved : broker.Ages (broker.autoSave env broker.isPossiblyModified).2 := autoSave _
        split
        · next after same =>
            rw [same] at saved
            exact saved
        · next after same =>
            rw [same] at saved
            split
            · split
              · exact saved.trans (checkAndUploadToStorage _)
              · exact saved.trans ⟨.inl rfl, rfl, id⟩
            · exact saved.trans ⟨.inl rfl, rfl, id⟩
      · exact refl

private theorem removeSession (session : ClientSession) :
    broker.Ages (broker.removeSession env session) := by
  have saved : broker.Ages (broker.saveOrDisconnect env session) := by
    unfold DocumentBroker.saveOrDisconnect
    split
    · exact disconnectSessionInternal session
    · split
      · exact refl
      · have saved : broker.Ages (broker.autoSave env broker.isPossiblyModified).2 := autoSave _
        split
        · next after same =>
            rw [same] at saved
            exact saved
        · next after same =>
            rw [same] at saved
            exact saved.trans (disconnectSessionInternal session)
  have unloads : ∀ removed : DocumentBroker, removed.Ages removed.unloadAfterLast := by
    intro removed
    unfold DocumentBroker.unloadAfterLast
    split
    · exact ⟨.inl rfl, rfl, id⟩
    · split
      · exact markToDestroy
      · exact refl
  unfold DocumentBroker.removeSession
  dsimp only
  split
  · exact saved.trans (unloads _)
  · exact saved

private theorem startRenameFileCommand : broker.Ages (broker.startRenameFileCommand env) := by
  unfold DocumentBroker.startRenameFileCommand
  split
  · exact refl
  · split
    · exact refl
    · dsimp only
      split
      · exact ⟨.inl rfl, rfl, id⟩
      · refine trans ?_ (sendUnoSave ..)
        exact ⟨.inl rfl, rfl, id⟩

private theorem handleRenameFileCommand (sessionId newFilename : String) :
    broker.Ages (broker.handleRenameFileCommand env sessionId newFilename) := by
  unfold DocumentBroker.handleRenameFileCommand
  split
  · exact refl
  · split
    · exact refl
    · dsimp only
      split
      · refine trans ?_ startRenameFileCommand
        exact ⟨.inl rfl, rfl, id⟩
      · exact ⟨.inl rfl, rfl, id⟩

private theorem closeDocument (reason : String) : broker.Ages (broker.closeDocument reason) := by
  unfold DocumentBroker.closeDocument
  dsimp only
  split <;> exact ⟨.inl rfl, rfl, id⟩

private theorem poll : broker.Ages (broker.poll env) := by
  have idle : broker.Ages (broker.pollIdle env) := by
    unfold DocumentBroker.pollIdle
    cases broker.idleAction with
    | nothing => exact refl
    | startRename => exact startRenameFileCommand
    | autoSaveAndStop reason => exact autoSaveAndStop reason
    | stopDead =>
        refine trans ?_ (autoSaveAndStop "dead")
        exact ⟨.inl rfl, rfl, id⟩
    | stopFailed => exact ⟨.inl rfl, rfl, id⟩
    | autoSave => exact autoSave false
    | retryUpload session => exact checkAndUploadToStorage session
  unfold DocumentBroker.poll
  split
  · exact refl
  · split
    · exact idle
    · split <;> exact ⟨.inl rfl, rfl, id⟩
    · split <;> exact ⟨.inl rfl, rfl, id⟩
    all_goals exact ⟨.inl rfl, rfl, id⟩

private theorem withSession (id : String) {operation : ClientSession → DocumentBroker}
    (ages : ∀ session, broker.Ages (operation session)) :
    broker.Ages (broker.withSession id operation) := by
  unfold DocumentBroker.withSession
  split
  · exact refl
  · exact ages _

/-- Of all that the broker does, only the report of a loaded view makes a document live. -/
theorem step (event : BrokerEvent) (keepsSessions : event.keepsSessions = true) :
    broker.Ages (broker.step event) := by
  cases event with
  | tick | activity | setModified | shutdown | terminate => exact ⟨.inl rfl, rfl, id⟩
  | setSessions => cases keepsSessions
  | addSessionFailed => cases keepsSessions
  | loaded => cases keepsSessions
  | kitSaved => exact ⟨.inl rfl, by simp [DocumentBroker.step], id⟩
  | saveResponse =>
      apply withSession
      intro session
      have recorded : ∀ success unmodified wasModified,
          broker.Ages (broker.recordSaveResponse success unmodified wasModified) := by
        intro success unmodified wasModified
        refine trans ?_ renameToUploading
        exact ⟨.inl rfl, rfl, id⟩
      exact (recorded _ _ _).trans (checkAndUploadToStorage session)
  | uploadFinished result reported env => exact uploadFinished result reported
  | saveToStorage sessionId force env => exact withSession sessionId fun _ => uploadToStorage ..
  | uploadAs sessionId => exact withSession sessionId fun _ => uploadToStorageInternal ..
  | templateLoaded sessionId env =>
      exact withSession sessionId fun _ => renameToUploading.trans (uploadToStorage ..)
  | manualSave extendedData env =>
      unfold DocumentBroker.step DocumentBroker.manualSave
      dsimp only
      split
      · exact sendUnoSave ..
      · exact refl
  | renameFile sessionId newFilename env => exact handleRenameFileCommand sessionId newFilename
  | removeSession sessionId env => exact withSession sessionId fun session => removeSession session
  | disconnected sessionId => exact finalRemoveSession sessionId
  | closeDocument reason => exact closeDocument reason
  | disconnectedFromKit =>
      unfold DocumentBroker.step DocumentBroker.disconnectedFromKit
      dsimp only
      split
      · refine trans ?_ (closeDocument "docdisconnected")
        exact ⟨.inl rfl, rfl, id⟩
      · exact ⟨.inl rfl, rfl, id⟩
  | poll env => exact poll

end DocumentBroker.Ages

/-!
## The phase over a run
-/

namespace DocumentLife

/-- Without its file a document has no sessions, and is new or marked to destroy. -/
structure Sound (life : DocumentLife) : Prop where
  notDestroyed : life.status ≠ .destroyed
  notStored : life.broker.storage = none → life.isDownloaded = false ∧
    (life.status = .none ∨ life.status = .destroying)
  notDownloaded : life.isDownloaded = false → life.broker.sessions = [] ∧
    (life.broker.storage.isSome = true → life.status = .destroying)

variable {life : DocumentLife}

private theorem isMarkedToDestroy_iff (sound : life.Sound) :
    life.broker.docState.isMarkedToDestroy = true ↔ life.status = .destroying := by
  have notDestroyed := sound.notDestroyed
  unfold status at notDestroyed ⊢
  unfold DocumentState.isMarkedToDestroy
  cases isStatus : life.broker.docState.status with
  | destroyed => exact absurd isStatus notDestroyed
  | none | downloading | loading | live | destroying => simp

private theorem phase_le_destroying {status : Status} (notDestroyed : status ≠ .destroyed) :
    status.phase ≤ Status.destroying.phase := by
  cases status with
  | destroyed => exact absurd rfl notDestroyed
  | none | downloading | loading | live | destroying => decide

/-- What the broker does without the sessions coming into it. -/
private theorem aged (sound : life.Sound) {after : DocumentBroker} (ages : life.broker.Ages after) :
    let next := { life with broker := after }
    next.Sound ∧ life.status.phase ≤ next.status.phase := by
  intro next
  have phase : next.status = life.status ∨ next.status = .destroying := ages.status
  refine ⟨⟨?_, ?_, ?_⟩, ?_⟩
  · rcases phase with same | marked
    · rw [same]
      exact sound.notDestroyed
    · rw [marked]
      decide
  · intro isNone
    have notStored : life.broker.storage = none := by
      rw [← Option.isNone_iff_eq_none, ← Option.not_isSome, ← ages.storage]
      simpa using isNone
    obtain ⟨notDownloaded, isStatus⟩ := sound.notStored notStored
    refine ⟨notDownloaded, ?_⟩
    rcases phase with same | marked
    · rwa [same]
    · exact .inr marked
  · intro notDownloaded
    obtain ⟨none, marked⟩ := sound.notDownloaded notDownloaded
    refine ⟨ages.sessions none, ?_⟩
    intro stored
    rcases phase with same | isMarked
    · rw [same]
      exact marked (by rwa [← ages.storage])
    · exact isMarked
  · rcases phase with same | marked
    · exact Nat.le_of_eq (congrArg Status.phase same.symm)
    · rw [marked]
      exact phase_le_destroying sound.notDestroyed

private theorem ages_addSessionFailed (broker : DocumentBroker) :
    broker.Ages broker.addSessionFailed := by
  unfold DocumentBroker.addSessionFailed
  split
  · exact ⟨.inr rfl, rfl, id⟩
  · exact .refl

/-- The first session that is not turned away at once either gets the document loading or
is the last one. -/
private theorem first_addSession (sound : life.Sound) (notStored : life.broker.storage = none)
    (unmarked : life.broker.docState.isMarkedToDestroy = false) (session : ClientSession)
    (outcome : DownloadOutcome) (file : DownloadedFile) :
    let next := life.addSession session outcome file
    next.broker.storage.isSome = (outcome ≠ .noStorage : Bool) ∧
      (if outcome = .fetched then next.isDownloaded = true ∧ next.status = .loading
        else next.status = .destroying ∧ next.broker.sessions = []) ∧
      (next.isDownloaded = true → next.broker.storage.isSome = true) ∧
      next.asserted = life.asserted := by
  obtain ⟨notDownloaded, isStatus⟩ := sound.notStored notStored
  have noSessions := (sound.notDownloaded notDownloaded).1
  have new : life.status = .none := by
    rcases isStatus with new | marked
    · exact new
    · rw [(isMarkedToDestroy_iff sound).mpr marked] at unmarked
      cases unmarked
  have isNew : life.broker.docState.status = .none := new
  cases outcome <;>
    simp [addSession, download, unmarked, createStorage, notStored, setStatus, status, isNew,
      Status.phase, noteModifiedTime, fetchFile, notDownloaded, DocumentBroker.addSessionFailed,
      noSessions, DocumentState.markToDestroy]

private theorem later_addSession (downloaded : life.isDownloaded = true)
    (stored : life.broker.storage.isSome = true)
    (unmarked : life.broker.docState.isMarkedToDestroy = false) (session : ClientSession)
    (outcome : DownloadOutcome) (file : DownloadedFile) :
    let next := life.addSession session outcome file
    (next.status = life.status ∨ next.status = .destroying) ∧
      next.broker.storage.isSome = true ∧ next.isDownloaded = true ∧
      next.asserted = life.asserted := by
  have isSome : life.broker.storage.isNone = false := by
    rw [← Option.not_isSome, stored]
    rfl
  have noted : ∀ other : DocumentLife, other = life.noteModifiedTime false file →
      other.status = life.status ∧ other.broker.storage = life.broker.storage ∧
        other.isDownloaded = true ∧ other.asserted = life.asserted := by
    rintro other rfl
    unfold noteModifiedTime
    dsimp only
    split
    · exact ⟨rfl, rfl, downloaded, rfl⟩
    · split <;> exact ⟨rfl, rfl, downloaded, rfl⟩
  obtain ⟨sameStatus, sameStorage, stillDownloaded, sameAsserted⟩ := noted _ rfl
  unfold addSession download createStorage
  simp only [unmarked, stored, isSome, Bool.false_eq_true, if_false, if_true]
  split
  · next failed =>
      split at failed
      · cases failed
        have ages := ages_addSessionFailed life.broker
        exact ⟨ages.status, ages.storage.trans stored, downloaded, rfl⟩
      · simp [fetchFile, stillDownloaded] at failed
  · next added =>
      split at added
      · cases added
      · simp only [fetchFile, stillDownloaded, if_true, Prod.mk.injEq, true_and] at added
        subst added
        exact ⟨.inl sameStatus, by rw [sameStorage]; exact stored, stillDownloaded, sameAsserted⟩

private theorem marked_addSession
    (marked : life.broker.docState.isMarkedToDestroy = true) (session : ClientSession)
    (outcome : DownloadOutcome) (file : DownloadedFile) :
    life.addSession session outcome file = { life with broker := life.broker.addSessionFailed } := by
  unfold addSession download
  rw [marked]
  rfl

private theorem advances_first (sound : life.Sound) (stored : life.broker.storage = none)
    (marked : life.broker.docState.isMarkedToDestroy = false) (session : ClientSession)
    (outcome : DownloadOutcome) (file : DownloadedFile) :
    let next := life.addSession session outcome file
    next.Sound ∧ life.status.phase ≤ next.status.phase ∧ next.asserted = life.asserted := by
  intro next
  obtain ⟨isStored, outcomes, downloads, asserted⟩ :=
    first_addSession sound stored marked session outcome file
  have new : life.status.phase ≤ Status.loading.phase := by
    rcases (sound.notStored stored).2 with new | isMarked
    · rw [new]
      decide
    · rw [(isMarkedToDestroy_iff sound).mpr isMarked] at marked
      cases marked
  split at outcomes
  · obtain ⟨downloaded, loading⟩ := outcomes
    refine ⟨⟨?_, ?_, ?_⟩, ?_, asserted⟩
    · rw [loading]
      decide
    · intro isNone
      have isSome := downloads downloaded
      rw [isNone] at isSome
      cases isSome
    · intro notDownloaded
      rw [downloaded] at notDownloaded
      cases notDownloaded
    · rw [loading]
      exact new
  · obtain ⟨destroying, none⟩ := outcomes
    refine ⟨⟨?_, ?_, ?_⟩, ?_, asserted⟩
    · rw [destroying]
      decide
    · intro isNone
      refine ⟨?_, .inr destroying⟩
      cases downloaded : next.isDownloaded with
      | false => rfl
      | true =>
          have isSome := downloads downloaded
          rw [isNone] at isSome
          cases isSome
    · exact fun _ => ⟨none, fun _ => destroying⟩
    · rw [destroying]
      exact Nat.le_trans new (by decide)

private theorem advances_later (sound : life.Sound) (isSome : life.broker.storage.isSome = true)
    (marked : life.broker.docState.isMarkedToDestroy = false) (session : ClientSession)
    (outcome : DownloadOutcome) (file : DownloadedFile) :
    let next := life.addSession session outcome file
    next.Sound ∧ life.status.phase ≤ next.status.phase ∧ next.asserted = life.asserted := by
  have downloaded : life.isDownloaded = true := by
    cases isDownloaded : life.isDownloaded with
    | true => rfl
    | false =>
        have isMarked := (sound.notDownloaded isDownloaded).2 isSome
        rw [(isMarkedToDestroy_iff sound).mpr isMarked] at marked
        cases marked
  obtain ⟨phase, stillStored, stillDownloaded, asserted⟩ :=
    later_addSession downloaded isSome marked session outcome file
  refine ⟨⟨?_, ?_, ?_⟩, ?_, asserted⟩
  · rcases phase with same | destroying
    · exact fun isDestroyed => sound.notDestroyed (same.symm.trans isDestroyed)
    · intro isDestroyed
      cases destroying.symm.trans isDestroyed
  · intro isNone
    rw [isNone] at stillStored
    cases stillStored
  · intro notDownloaded
    cases stillDownloaded.symm.trans notDownloaded
  · rcases phase with same | destroying
    · exact Nat.le_of_eq (congrArg Status.phase same.symm)
    · exact Nat.le_trans (phase_le_destroying sound.notDestroyed)
        (Nat.le_of_eq (congrArg Status.phase destroying.symm))

private theorem advances_addSession (sound : life.Sound) (session : ClientSession)
    (outcome : DownloadOutcome) (file : DownloadedFile) :
    let next := life.addSession session outcome file
    next.Sound ∧ life.status.phase ≤ next.status.phase ∧ next.asserted = life.asserted := by
  intro next
  cases marked : life.broker.docState.isMarkedToDestroy with
  | true =>
      have failed : next = { life with broker := life.broker.addSessionFailed } :=
        marked_addSession marked session outcome file
      obtain ⟨sound, later⟩ := aged sound (ages_addSessionFailed life.broker)
      rw [failed]
      exact ⟨sound, later, rfl⟩
  | false =>
      cases stored : life.broker.storage with
      | none => exact advances_first sound stored marked session outcome file
      | some storage =>
          have isSome : life.broker.storage.isSome = true := by rw [stored]; rfl
          exact advances_later sound isSome marked session outcome file

private theorem sound_statusReport (sound : life.Sound) (sessionId : String) (loadDuration : Nat) :
    (life.statusReport sessionId loadDuration).Sound := by
  unfold statusReport
  split
  · exact sound
  · next session found =>
      have held : life.broker.sessions ≠ [] := by
        intro none
        rw [DocumentBroker.findSession, none] at found
        cases found
      have downloaded : life.isDownloaded = true := by
        cases isDownloaded : life.isDownloaded with
        | true => rfl
        | false => exact absurd (sound.notDownloaded isDownloaded).1 held
      have stored : life.broker.storage ≠ none := by
        intro none
        cases downloaded.symm.trans (sound.notStored none).1
      unfold setLoaded DocumentBroker.setLoaded
      refine ⟨?_, ?_, ?_⟩
      · unfold status
        dsimp only
        split
        · exact sound.notDestroyed
        · exact nofun
      · intro isNone
        refine absurd ?_ stored
        dsimp only at isNone
        split at isNone <;> exact isNone
      · exact fun notDownloaded => nomatch downloaded.symm.trans notDownloaded

private theorem sound_step (event : LifeEvent) (sound : life.Sound) : (life.step event).Sound := by
  cases event with
  | addSession session outcome file => exact (advances_addSession sound session outcome file).1
  | setSession session => exact (aged sound (.setSessions _)).1
  | statusReport sessionId loadDuration => exact sound_statusReport sound sessionId loadDuration
  | requestUnload => exact (aged sound .setUnloadRequested).1
  | other event keepsSessions => exact (aged sound (.step event keepsSessions)).1

private theorem phase_le_live (sound : life.Sound) :
    life.status.phase ≤ Status.live.phase ↔ life.broker.docState.isMarkedToDestroy = false := by
  rw [← Bool.not_eq_true, isMarkedToDestroy_iff sound]
  have notDestroyed := sound.notDestroyed
  cases isStatus : life.status with
  | destroyed => exact absurd isStatus notDestroyed
  | none | downloading | loading | live | destroying => decide

private theorem statusReport_held {sessionId : String} {session : ClientSession}
    (found : life.broker.findSession sessionId = some session) (loadDuration : Nat) :
    let next := life.statusReport sessionId loadDuration
    next.status = (if life.broker.docState.loaded then life.status else .live) ∧
      next.asserted = (life.asserted &&
        (life.broker.docState.loaded || decide (life.status.phase ≤ Status.live.phase))) := by
  intro next
  have isNext : next = life.statusReport sessionId loadDuration := rfl
  rw [statusReport, found] at isNext
  rw [isNext]
  refine ⟨?_, rfl⟩
  unfold setLoaded status DocumentBroker.setLoaded
  cases loaded : life.broker.docState.loaded with
  | true => simp [DocumentBroker.setSessions, loaded]
  | false => simp [DocumentBroker.setSessions, loaded]

private theorem advances_statusReport (sound : life.Sound) (sessionId : String)
    (loadDuration : Nat) :
    life.Advances (.statusReport sessionId loadDuration) ↔
      life.LoadsInTime (.statusReport sessionId loadDuration) := by
  cases found : life.broker.findSession sessionId with
  | none => simp [Advances, LoadsInTime, step, statusReport, found]
  | some session =>
      obtain ⟨status, asserted⟩ := statusReport_held found loadDuration
      unfold Advances LoadsInTime step
      dsimp only
      rw [status, asserted, found, ← phase_le_live sound]
      cases life.broker.docState.loaded with
      | true => simp
      | false =>
          constructor
          · exact fun advances _ _ => advances.1
          · intro inTime
            have live := inTime rfl rfl
            refine ⟨live, ?_⟩
            intro wasAsserted
            rw [wasAsserted, decide_eq_true live]
            rfl

private theorem advances_iff (event : LifeEvent) (sound : life.Sound) :
    life.Advances event ↔ life.LoadsInTime event := by
  cases event with
  | statusReport sessionId loadDuration => exact advances_statusReport sound sessionId loadDuration
  | addSession session outcome file =>
      obtain ⟨-, later, asserted⟩ := advances_addSession sound session outcome file
      exact iff_of_true ⟨later, fun isAsserted => asserted.trans isAsserted⟩ trivial
  | setSession session =>
      exact iff_of_true ⟨(aged sound (.setSessions _)).2, id⟩ trivial
  | requestUnload => exact iff_of_true ⟨(aged sound .setUnloadRequested).2, id⟩ trivial
  | other event keepsSessions =>
      exact iff_of_true ⟨(aged sound (.step event keepsSessions)).2, id⟩ trivial

/-- A broker before any session is added. -/
structure New (life : DocumentLife) : Prop where
  status : life.status = .none
  storage : life.broker.storage = none
  sessions : life.broker.sessions = []
  notDownloaded : life.isDownloaded = false

private theorem New.sound (new : life.New) : life.Sound where
  notDestroyed := by
    rw [new.status]
    decide
  notStored := fun _ => ⟨new.notDownloaded, .inl new.status⟩
  notDownloaded := by
    intro _
    refine ⟨new.sessions, ?_⟩
    intro stored
    rw [new.storage] at stored
    cases stored

/-- The phase never goes back and the assertion always holds in exactly the runs in which
no view that the broker still holds is reported as the first to be loaded when the document
is marked to destroy. -/
theorem run_status_advances_iff (initial : DocumentLife) (events : List LifeEvent)
    (new : initial.New) :
    (∀ before event after, events = before ++ event :: after →
        (run step initial before).Advances event) ↔
      Permitted step LoadsInTime initial events := by
  rw [← permitted_iff_forall]
  exact permitted_congr Sound (fun _ event sound _ => sound_step event sound)
    (fun _ event sound => advances_iff event sound) new.sound

def newDocument : DocumentLife where
  broker := { DocumentBroker.fresh 0 with
    docState := ⟨.none, .none, false, false, false, false⟩
    storage := none
    sessions := [] }
  isDownloaded := false
  asserted := true

theorem newDocument_new : newDocument.New := ⟨rfl, rfl, rfl, rfl⟩

def viewer : ClientSession := { DocumentBroker.editor with id := "2", isReadOnly := true }

/-- One session that is added, loaded and removed. -/
theorem run_status_advances_once :
    let events := [.addSession DocumentBroker.editor .fetched ⟨"", 1⟩, .statusReport "1" 0,
      .other (.removeSession "1" DocumentBroker.responsive) rfl, .other (.disconnected "1") rfl]
    ∀ before event after, events = before ++ event :: after →
      (run step newDocument before).Advances event :=
  (run_status_advances_iff newDocument _ newDocument_new).mpr (by decide)

/-- The first of two sessions asks to save before anything is loaded and goes, so unloading
is requested; as the second one goes the document is marked to destroy, and then the kit
has loaded it for the first one. -/
theorem run_destroying_gets_live :
    let destroying := run step newDocument [.addSession DocumentBroker.editor .fetched ⟨"", 1⟩,
      .addSession viewer .fetched ⟨"", 1⟩, .other (.tick 1) rfl,
      .other (.manualSave "" DocumentBroker.responsive) rfl,
      .other (.removeSession "1" DocumentBroker.responsive) rfl,
      .other (.removeSession "2" DocumentBroker.responsive) rfl]
    destroying.status = .destroying ∧ ¬destroying.Advances (.statusReport "1" 0) ∧
      (destroying.step (.statusReport "1" 0)).status = .live ∧
      (destroying.step (.statusReport "1" 0)).asserted = false := by
  decide

end DocumentLife

end FreeOnline.Wsd
