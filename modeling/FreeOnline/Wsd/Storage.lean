import Mathlib.Data.List.Basic

/-!
# The storage of a document

The attributes of an upload and the asynchronous upload to a WOPI host. A file is
known by its modified time.
-/

set_option autoImplicit false

namespace FreeOnline.Wsd

abbrev FileTime := Nat

structure Attributes where
  forced : Bool := false
  isUserModified : Bool := false
  isAutosave : Bool := false
  isExitSave : Bool := false
  extendedData : String := ""
deriving DecidableEq

namespace Attributes

def reset : Attributes := {}

def merge (attrs lhs : Attributes) : Attributes where
  forced := if lhs.forced then true else attrs.forced
  isUserModified := if lhs.isUserModified then true else attrs.isUserModified
  isAutosave := if lhs.isAutosave then true else attrs.isAutosave
  isExitSave := if lhs.isExitSave then true else attrs.isExitSave
  extendedData := if lhs.extendedData ≠ "" then lhs.extendedData else attrs.extendedData

end Attributes

inductive UploadResult where
  | ok
  | diskfull
  | tooLarge
  | unauthorized
  | docChanged
  | conflict
  | failed
deriving DecidableEq, Repr

inductive AsyncUploadState where
  | none
  | running
  | error
  | complete
deriving DecidableEq, Repr

/-- What comes of making the http request. `getHttpSession` or a later call may
throw, and `asyncRequest` may fail to connect, which its caller does not see. -/
inductive RequestOutcome where
  | throwsEarly
  | throwsLate
  | unconnected
  | started
deriving DecidableEq, Repr

/-- The http session of an upload: the version that is put as the document's new
contents and the attributes in the header, unless the request is to save as or to
rename, and whether the request was started. -/
structure HttpSession where
  version : Option FileTime
  attributes : Option Attributes
  started : Bool
deriving DecidableEq

/-- The two files on the way to the storage, the http session of the upload, and
the time of the last modification that the host has reported. -/
structure WopiStorage where
  rootFileToUpload : Option FileTime
  rootFileUploading : Option FileTime
  uploadHttpSession : Option HttpSession
  lastModifiedTime : String
deriving DecidableEq

namespace WopiStorage

def renameToUploading (storage : WopiStorage) : WopiStorage :=
  match storage.rootFileToUpload with
  | none => storage
  | some time => { storage with rootFileToUpload := none, rootFileUploading := some time }

def queryLocalFileToStorageAsyncUploadState (storage : WopiStorage) : AsyncUploadState :=
  if storage.uploadHttpSession.isSome then .running else .none

def uploadLocalFileToStorageAsync (storage : WopiStorage) (saveAsPath saveAsFilename : String)
    (isRename : Bool) (attribs : Attributes) (saveAsFile : Option FileTime)
    (outcome : RequestOutcome) : WopiStorage × AsyncUploadState :=
  -- Upload is already in progress.
  if storage.uploadHttpSession.isSome then (storage, .error)
  else
    let isSaveAs := saveAsPath ≠ "" && saveAsFilename ≠ ""
    match if isSaveAs then saveAsFile else storage.rootFileUploading with
    | none => (storage, .error)
    | some time =>
        let version := if isSaveAs || isRename then none else some time
        let attributes := if isSaveAs || isRename then none else some attribs
        match outcome with
        | .throwsEarly => (storage, .error)
        | .throwsLate => ({ storage with uploadHttpSession := some ⟨version, attributes, false⟩ }, .error)
        | .unconnected => ({ storage with uploadHttpSession := some ⟨version, attributes, false⟩ }, .running)
        | .started => ({ storage with uploadHttpSession := some ⟨version, attributes, true⟩ }, .running)

/-- Either nothing changes, or there was no upload and now there is one; it is one
of the file on disk unless to save as or to rename. -/
theorem uploadLocalFileToStorageAsync_cases (storage : WopiStorage)
    (saveAsPath saveAsFilename : String) (isRename : Bool) (attribs : Attributes)
    (saveAsFile : Option FileTime) (outcome : RequestOutcome) :
    let after := (storage.uploadLocalFileToStorageAsync saveAsPath saveAsFilename isRename
      attribs saveAsFile outcome).1
    after = storage ∨
      storage.uploadHttpSession = none ∧ ∃ http,
        after = { storage with uploadHttpSession := some http } ∧
          (saveAsPath = "" → isRename = false →
            ∃ time, storage.rootFileUploading = some time ∧ http.version = some time) := by
  intro after
  cases session : storage.uploadHttpSession with
  | some http => exact .inl (by simp [after, uploadLocalFileToStorageAsync, session])
  | none =>
      simp only [after, uploadLocalFileToStorageAsync, session, Option.isSome_none,
        Bool.false_eq_true, if_false]
      split
      · exact .inl rfl
      · next time found =>
          have plain : saveAsPath = "" → storage.rootFileUploading = some time := by
            intro noPath
            simpa [noPath] using found
          cases outcome
          case throwsEarly => exact .inl rfl
          all_goals
            refine .inr ⟨trivial, _, rfl, ?_⟩
            intro noPath noRename
            exact ⟨time, plain noPath, by simp [noPath, noRename]⟩

theorem uploadLocalFileToStorageAsync_inProgress {storage : WopiStorage} {time : FileTime}
    (onDisk : storage.rootFileUploading = some time) (attribs : Attributes)
    (saveAsFile : Option FileTime) {outcome : RequestOutcome} (notThrown : outcome ≠ .throwsEarly) :
    (storage.uploadLocalFileToStorageAsync "" "" false attribs saveAsFile
      outcome).1.uploadHttpSession.isSome = true := by
  cases inProgress : storage.uploadHttpSession with
  | some http => simp [uploadLocalFileToStorageAsync, inProgress]
  | none =>
      cases outcome
      case throwsEarly => exact absurd rfl notThrown
      all_goals simp [uploadLocalFileToStorageAsync, inProgress, onDisk]

end WopiStorage

end FreeOnline.Wsd
