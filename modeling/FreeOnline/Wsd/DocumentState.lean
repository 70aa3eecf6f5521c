import FreeOnline.Wsd.Storage

/-!
# The state that a document broker keeps

Requests and their answers, the phases of a document, and what the broker reads of
its sessions.
-/

set_option autoImplicit false

namespace FreeOnline.Wsd

abbrev SteadyTime := Nat

def milliseconds (duration : Nat) : Nat := duration / 1000000

def seconds (duration : Nat) : Nat := duration / 1000000000

/-- The common part of the save and upload requests; the minimum time between two
requests and the duration of the last one are in milliseconds. -/
structure RequestManager where
  minTimeBetweenRequests : Nat
  lastRequestTime : SteadyTime
  lastResponseTime : SteadyTime
  lastRequestDuration : Nat
  lastRequestFailureCount : Nat
deriving DecidableEq

namespace RequestManager

variable (request : RequestManager) (now : SteadyTime)

def markLastRequestTime : RequestManager :=
  { request with lastRequestTime := now }

def timeSinceLastRequest : Nat := milliseconds (now - request.lastRequestTime)

def timeSinceLastResponse : Nat := milliseconds (now - request.lastResponseTime)

def isActive : Bool := request.lastResponseTime < request.lastRequestTime

def hasLastRequestTimedOut (timeoutMs : Nat) : Bool :=
  request.isActive && timeoutMs ≤ request.timeSinceLastRequest now

def canRequestNow : Bool :=
  !request.isActive &&
    max request.minTimeBetweenRequests (request.lastRequestDuration / 2) ≤
      min (request.timeSinceLastRequest now) (request.timeSinceLastResponse now)

def setLastRequestResult (success : Bool) : RequestManager :=
  { request with
    lastResponseTime := now
    lastRequestDuration := milliseconds (now - request.lastRequestTime)
    lastRequestFailureCount := if success then 0 else request.lastRequestFailureCount + 1 }

def lastRequestSuccessful : Bool := request.lastRequestFailureCount = 0

end RequestManager

structure SaveManager where
  request : RequestManager
  lastModifiedTime : FileTime
  idleSaveInterval : Nat
  autoSaveInterval : Nat
  savingTimeout : Nat
  lastAutosaveCheckTime : SteadyTime
deriving DecidableEq

namespace SaveManager

variable (manager : SaveManager) (now : SteadyTime)

def checkInterval : Nat :=
  if 0 < manager.idleSaveInterval then
    if 0 < manager.autoSaveInterval then min manager.idleSaveInterval manager.autoSaveInterval
    else manager.idleSaveInterval
  else manager.autoSaveInterval

def needAutoSaveCheck : Bool :=
  0 < manager.checkInterval &&
    manager.checkInterval ≤ 1000 * seconds (now - manager.lastAutosaveCheckTime)

def autoSaveChecked : SaveManager := { manager with lastAutosaveCheckTime := now }

def postponeAutosave (duration : Nat) : SaveManager :=
  let nextAutosaveCheck := manager.lastAutosaveCheckTime + 1000000 * manager.autoSaveInterval
  let postponeTime := now + 1000000000 * duration
  if nextAutosaveCheck < postponeTime then
    { manager with
      lastAutosaveCheckTime := manager.lastAutosaveCheckTime + (postponeTime - nextAutosaveCheck) }
  else manager

def markLastSaveRequestTime : SaveManager :=
  { manager with request := manager.request.markLastRequestTime now }

def setLastSaveResult (success : Bool) : SaveManager :=
  { manager with request := manager.request.setLastRequestResult now success }

def lastSaveSuccessful : Bool := manager.request.lastRequestSuccessful

def isSaving : Bool := manager.request.isActive

def hasSavingTimedOut : Bool :=
  manager.request.hasLastRequestTimedOut now (1000 * manager.savingTimeout)

def canSaveNow : Bool := manager.request.canRequestNow now

end SaveManager

structure StorageManager where
  request : RequestManager
  lastUploadedFileModifiedTime : FileTime
  lastModifiedTime : String
deriving DecidableEq

namespace StorageManager

variable (manager : StorageManager) (now : SteadyTime)

def lastUploadSuccessful : Bool := manager.request.lastRequestSuccessful

def setLastUploadResult (success : Bool) : StorageManager :=
  { manager with request := manager.request.setLastRequestResult now success }

def markLastUploadRequestTime : StorageManager :=
  { manager with request := manager.request.markLastRequestTime now }

def canUploadNow : Bool := manager.request.canRequestNow now

end StorageManager

structure UploadRequest where
  newFileModifiedTime : FileTime
  session : String
  isSaveAs : Bool
  isExport : Bool
  isRename : Bool
deriving DecidableEq

namespace DocumentState

inductive Status where
  | none
  | downloading
  | loading
  | live
  | destroying
  | destroyed
deriving DecidableEq, Repr

inductive Activity where
  | none
  | rename
  | saveAs
  | conflict
  | save
  | upload
deriving DecidableEq, Repr

end DocumentState

structure DocumentState where
  status : DocumentState.Status
  activity : DocumentState.Activity
  loaded : Bool
  closeRequested : Bool
  unloadRequested : Bool
  disconnected : Bool
deriving DecidableEq

namespace DocumentState

def setActivity (state : DocumentState) (activity : Activity) : DocumentState :=
  { state with activity := activity }

def markToDestroy (state : DocumentState) : DocumentState :=
  { state with status := .destroying }

def isMarkedToDestroy (state : DocumentState) : Bool :=
  match state.status with
  | .destroying | .destroyed => true
  | .none | .downloading | .loading | .live => false

def setUnloadRequested (state : DocumentState) : DocumentState :=
  { state with unloadRequested := true }

end DocumentState

inductive SessionState where
  | detached
  | loading
  | live
  | waitDisconnect
deriving DecidableEq, Repr

structure ClientSession where
  id : String
  state : SessionState
  isReadOnly : Bool
  isAllowChangeComments : Bool
  isCloseFrame : Bool
  isExpired : Bool
  isDocumentOwner : Bool
deriving DecidableEq

namespace ClientSession

def isViewLoaded (session : ClientSession) : Bool := session.state = .live

def isLive (session : ClientSession) : Bool := session.state = .live && !session.isCloseFrame

def isEditable (session : ClientSession) : Bool :=
  !session.isReadOnly || session.isAllowChangeComments

def setNotWritable (session : ClientSession) : ClientSession :=
  { session with isReadOnly := true, isAllowChangeComments := false }

def invalidateAuthorizationToken (session : ClientSession) : ClientSession :=
  { session with isExpired := true }

end ClientSession

end FreeOnline.Wsd
