import FreeOnline.Library.Keyed
import FreeOnline.Library.Run
import FreeOnline.Wsd.QuarantineNames

/-!
# Quarantine

Copies of documents that could not be stored are kept in a directory. A map from documents to
the names of their versions stands beside it, and both are cut down when they get too large.
-/

set_option autoImplicit false

namespace FreeOnline.Wsd.QuarantineUtil

open FreeOnline.Library

/-- A file of the directory, with what its name was made of. -/
structure File where
  time : UInt64
  pid : Int
  docKey : Text
  docName : Text
  contents : List UInt8
deriving DecidableEq

def File.name (file : File) : Text := fileName file.time.toNat file.pid file.docKey file.docName

def File.size (file : File) : Nat := file.contents.length

abbrev Directory := Keyed File.name

namespace Directory

def remove (directory : Directory) (name : Text) : Directory :=
  directory.filter fun file => file.name ≠ name

def removeAll (directory : Directory) (names : List Text) : Directory :=
  names.foldl remove directory

/-- What is written under a name takes the place of what was there. -/
def put (directory : Directory) (file : File) : Directory := (directory.remove file.name).insert file

def names (directory : Directory) : List Text := directory.entries.map File.name

def sizeOf (directory : Directory) (name : Text) : Nat :=
  match directory.find? name with
  | some file => file.size
  | none => 0

end Directory

/-- The versions of each document, the last one at the end. -/
abbrev QuarantineMap := Keyed (Prod.fst : Text × List Text → Text)

namespace QuarantineMap

def versions (map : QuarantineMap) (docKey : Text) : List Text :=
  match map.find? docKey with
  | some entry => entry.2
  | none => []

def erase (map : QuarantineMap) (docKey : Text) : QuarantineMap :=
  map.filter fun entry => entry.1 ≠ docKey

def set (map : QuarantineMap) (docKey : Text) (names : List Text) : QuarantineMap :=
  (map.erase docKey).insert (docKey, names)

def push (map : QuarantineMap) (docKey name : Text) : QuarantineMap :=
  map.set docKey (map.versions docKey ++ [name])

/-- A file that is found at the start is listed under the document in its name. -/
def add (map : QuarantineMap) (file : Text) : QuarantineMap :=
  match docKeyOf file with
  | some docKey => map.push docKey file
  | none => map

/-- No document has a version of this name. -/
def Fresh (map : QuarantineMap) (name : Text) : Prop :=
  ∀ entry ∈ map.entries, name ∉ entry.2

instance (map : QuarantineMap) (name : Text) : Decidable (map.Fresh name) :=
  inferInstanceAs (Decidable (∀ entry ∈ map.entries, _))

end QuarantineMap

/-- The order in which a directory is listed and sorted. Of the order that the listing has, only
what the comparison tells apart is certain to change. -/
structure Listing where
  order : List Text → List Text
  perm : ∀ names, (order names).Perm names
  sorted : ∀ names, (order names).Pairwise fun lhs rhs => less rhs lhs = false

/-- A file that goes from the directory, by what and with what was there before and behind. -/
inductive Purge where
  | space (before after : Directory)
  | versions (docKey : Text) (maxVersions : Nat) (before after : Directory)

structure State where
  /-- The path is set. -/
  enabled : Bool
  directory : Directory
  map : QuarantineMap
  purges : List Purge

def State.create (directory : Directory) : State := ⟨false, directory, .empty, []⟩

/-- `Quarantine` of a document. -/
structure Quarantine where
  docKey : Text
  docName : Text
  pid : Int
  maxSizeBytes : Nat
  maxAgeSecs : Nat
  maxVersions : Nat

namespace Quarantine

def expired (quarantine : Quarantine) (now : UInt64) (name : Text) : Bool :=
  !(timestamp name).2 ||
    ((timestamp name).1 < now.toNat && quarantine.maxAgeSecs < now.toNat - (timestamp name).1)

/-- The loop of `makeQuarantineSpace` over the files from here on. -/
def purgeFrom (quarantine : Quarantine) (now : UInt64) (currentSize : Nat) (directory : Directory) :
    List Text → Directory
  | [] => directory
  | name :: files =>
      if quarantine.maxSizeBytes ≤ currentSize ∨ quarantine.expired now name = true then
        purgeFrom quarantine now (currentSize - directory.sizeOf name) (directory.remove name) files
      else purgeFrom quarantine now currentSize directory files

def spaced (quarantine : Quarantine) (now : UInt64) (listing : Listing) (directory : Directory) :
    Directory :=
  quarantine.purgeFrom now (directory.sum File.size) directory (listing.order directory.names)

def makeQuarantineSpace (quarantine : Quarantine) (now : UInt64) (listing : Listing)
    (state : State) : State :=
  let directory := quarantine.spaced now listing state.directory
  { state with directory, purges := .space state.directory directory :: state.purges }

def clearOldQuarantineVersions (quarantine : Quarantine) (state : State) : State :=
  let container := state.map.versions quarantine.docKey
  if container.length > quarantine.maxVersions then
    let excess := container.length - quarantine.maxVersions
    let directory := state.directory.removeAll (container.take excess)
    { state with
      directory
      map := state.map.set quarantine.docKey (container.drop excess)
      purges := .versions quarantine.docKey quarantine.maxVersions state.directory directory ::
        state.purges }
  else
    { state with
      purges := .versions quarantine.docKey quarantine.maxVersions state.directory state.directory ::
        state.purges }

end Quarantine

/-- A call of `quarantineFile`. The document may not be there, and copying it may fail. -/
structure Call where
  quarantine : Quarantine
  document : Option (List UInt8)
  copies : Bool
  /-- The times at which the name is made and the two purges look at the clock. -/
  time : UInt64
  before : UInt64
  after : UInt64
  listingBefore : Listing
  listingAfter : Listing

namespace Call

def file (call : Call) (contents : List UInt8) : File :=
  ⟨call.time, call.quarantine.pid, call.quarantine.docKey, call.quarantine.docName, contents⟩

def name (call : Call) : Text :=
  fileName call.time.toNat call.quarantine.pid call.quarantine.docKey call.quarantine.docName

/-- Whether the last version of the document is what would be quarantined. -/
def isQuarantined (call : Call) (state : State) : Bool :=
  match (state.map.versions call.quarantine.docKey).getLast? with
  | none => false
  | some last =>
      match state.directory.find? last, call.document with
      | some file, some contents => file.contents = contents
      | _, _ => false

/-- `linkOrCopyFile`: where it fails, nothing is left under the name. -/
def linkOrCopyFile (call : Call) (directory : Directory) : Bool × Directory :=
  match call.document with
  | some contents =>
      if call.copies then (true, directory.put (call.file contents))
      else (false, directory.remove call.name)
  | none => (false, directory.remove call.name)

/-- The state behind the first purge. -/
def cleared (call : Call) (state : State) : State :=
  call.quarantine.makeQuarantineSpace call.before call.listingBefore state

/-- The state behind the copy, the version listed and the old ones cleared. -/
def listed (call : Call) (state : State) (directory : Directory) : State :=
  call.quarantine.clearOldQuarantineVersions
    { state with directory, map := state.map.push call.quarantine.docKey call.name }

def quarantineFile (call : Call) (state : State) : State :=
  if state.enabled = false ∨ call.isQuarantined state = true then state
  else
    let state := call.cleared state
    match call.linkOrCopyFile state.directory with
    | (true, directory) =>
        call.quarantine.makeQuarantineSpace call.after call.listingAfter (call.listed state directory)
    | (false, directory) => { state with directory }

end Call

namespace State

/-- `Quarantine::initialize`, the first time and where the configuration enables it. -/
def initializeQuarantine (state : State) (enable : Bool) (listing : Listing) : State :=
  if enable = false ∨ state.enabled = true then state
  else
    { state with
      enabled := true
      map := (listing.order state.directory.names).foldl QuarantineMap.add .empty }

def removeQuarantinedFiles (state : State) (docKey : Text) : State :=
  { state with
    directory := state.directory.removeAll (state.map.versions docKey)
    map := state.map.erase docKey }

end State

inductive Event where
  | initializeQuarantine (enable : Bool) (listing : Listing)
  | quarantineFile (call : Call)
  | removeQuarantinedFiles (docKey : Text)

def State.step (state : State) : Event → State
  | .initializeQuarantine enable listing => state.initializeQuarantine enable listing
  | .quarantineFile call => call.quarantineFile state
  | .removeQuarantinedFiles docKey => state.removeQuarantinedFiles docKey

/-!
## Files and versions
-/

namespace Directory

theorem mem_remove {directory : Directory} {name : Text} {file : File} :
    file ∈ directory.remove name ↔ file ∈ directory ∧ file.name ≠ name := by
  rw [remove, Keyed.mem_filter, decide_eq_true_eq]

theorem mem_removeAll {names : List Text} {directory : Directory} {file : File} :
    file ∈ directory.removeAll names ↔ file ∈ directory ∧ file.name ∉ names := by
  induction names generalizing directory with
  | nil => simp [removeAll]
  | cons name names ih =>
      rw [removeAll, List.foldl_cons, ← removeAll, ih, mem_remove, List.mem_cons, not_or, and_assoc]

theorem mem_put {directory : Directory} {file other : File} :
    other ∈ directory.put file ↔ (other ∈ directory ∧ other.name ≠ file.name) ∨ other = file := by
  have missing : (directory.remove file.name).find? file.name = none := by
    cases found : (directory.remove file.name).find? file.name with
    | none => rfl
    | some other =>
        obtain ⟨isMember, sameName⟩ := Keyed.find?_some found
        exact absurd sameName (mem_remove.mp isMember).2
  rw [put, Keyed.mem_insert_new missing, mem_remove]

theorem mem_names {directory : Directory} {name : Text} :
    name ∈ directory.names ↔ ∃ file ∈ directory, file.name = name :=
  List.mem_map

theorem name_mem_names {directory : Directory} {file : File} (isFile : file ∈ directory) :
    file.name ∈ directory.names :=
  mem_names.mpr ⟨file, isFile, rfl⟩

theorem mem_put_of_fresh {directory : Directory} {file : File}
    (fresh : file.name ∉ directory.names) {other : File} :
    other ∈ directory.put file ↔ other ∈ directory ∨ other = file := by
  rw [mem_put]
  refine or_congr_left ⟨And.left, fun isOther => ⟨isOther, fun sameName => fresh ?_⟩⟩
  exact sameName ▸ name_mem_names isOther

end Directory

namespace QuarantineMap

private theorem find?_erase (map : QuarantineMap) (docKey : Text) :
    (map.erase docKey).find? docKey = none := by
  cases found : (map.erase docKey).find? docKey with
  | none => rfl
  | some entry =>
      obtain ⟨isMember, sameKey⟩ := Keyed.find?_some found
      rw [erase, Keyed.mem_filter, decide_eq_true_eq] at isMember
      exact absurd sameKey isMember.2

private theorem find?_congr {map other : QuarantineMap} {docKey : Text}
    (same : ∀ entry : Text × List Text, entry.1 = docKey → (entry ∈ map ↔ entry ∈ other)) :
    map.find? docKey = other.find? docKey := by
  refine Option.ext fun entry => ?_
  rw [Keyed.find?_eq_some_iff, Keyed.find?_eq_some_iff]
  exact and_congr_left (same entry)

theorem versions_empty (docKey : Text) : versions .empty docKey = [] := rfl

theorem versions_erase_self (map : QuarantineMap) (docKey : Text) :
    (map.erase docKey).versions docKey = [] := by
  rw [versions, find?_erase]

theorem versions_erase_of_ne (map : QuarantineMap) {docKey other : Text} (different : other ≠ docKey) :
    (map.erase docKey).versions other = map.versions other := by
  have same : (map.erase docKey).find? other = map.find? other := by
    refine find?_congr fun entry isKey => ?_
    rw [erase, Keyed.mem_filter, decide_eq_true_eq]
    exact and_iff_left (isKey ▸ different)
  rw [versions, same, versions]

theorem versions_set_self (map : QuarantineMap) (docKey : Text) (names : List Text) :
    (map.set docKey names).versions docKey = names := by
  have found : (map.set docKey names).find? docKey = some (docKey, names) := by
    rw [Keyed.find?_eq_some_iff, set, Keyed.mem_insert_new (find?_erase map docKey)]
    exact ⟨.inr rfl, rfl⟩
  rw [versions, found]

theorem versions_set_of_ne (map : QuarantineMap) {docKey other : Text} (different : other ≠ docKey)
    (names : List Text) : (map.set docKey names).versions other = map.versions other := by
  have same : (map.set docKey names).find? other = (map.erase docKey).find? other := by
    refine find?_congr fun entry isKey => ?_
    rw [set, Keyed.mem_insert_new (find?_erase map docKey)]
    refine or_iff_left fun isNew => different ?_
    rw [← isKey, isNew]
  rw [versions, same, ← versions, versions_erase_of_ne map different]

theorem versions_push_self (map : QuarantineMap) (docKey name : Text) :
    (map.push docKey name).versions docKey = map.versions docKey ++ [name] :=
  versions_set_self map _ _

theorem versions_push_of_ne (map : QuarantineMap) {docKey other : Text} (different : other ≠ docKey)
    (name : Text) : (map.push docKey name).versions other = map.versions other :=
  versions_set_of_ne map different _

theorem notMem_versions {map : QuarantineMap} {name : Text} (fresh : map.Fresh name) (docKey : Text) :
    name ∉ map.versions docKey := by
  rw [versions]
  cases found : map.find? docKey with
  | none => exact List.not_mem_nil
  | some entry => exact fresh entry (Keyed.find?_some found).1

end QuarantineMap

@[simp] theorem enabled_clearOldQuarantineVersions (quarantine : Quarantine) (state : State) :
    (quarantine.clearOldQuarantineVersions state).enabled = state.enabled := by
  unfold Quarantine.clearOldQuarantineVersions
  dsimp only
  split <;> rfl

/-!
## The comparison
-/

theorem timestamp_name (file : File) : timestamp file.name = (file.time.toNat, true) :=
  timestamp_fileName file.time.toNat_lt file.pid file.docKey file.docName

/-- A listing whose order is kept where the comparison says nothing. -/
def Listing.stable : Listing where
  order names := names.filter (fun name => !(timestamp name).2) ++
    names.filter (fun name => (timestamp name).2)
  perm names := by
    have split := List.filter_append_perm (fun name : Text => !(timestamp name).2) names
    simpa using split
  sorted names := by
    rw [List.pairwise_append]
    refine ⟨?_, ?_, ?_⟩
    · refine List.pairwise_of_forall_mem_list fun lhs isLhs rhs _ => ?_
      simp only [List.mem_filter, Bool.not_eq_true'] at isLhs
      simp [less, isLhs.2]
    · refine List.pairwise_of_forall_mem_list fun lhs _ rhs isRhs => ?_
      simp [less, (List.mem_filter.mp isRhs).2]
    · intro lhs isLhs rhs isRhs
      simp [less, (List.mem_filter.mp isRhs).2]

end FreeOnline.Wsd.QuarantineUtil
