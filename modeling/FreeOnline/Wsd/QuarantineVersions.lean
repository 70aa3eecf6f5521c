import FreeOnline.Wsd.QuarantineUtil

/-!
# Which versions are kept

Old versions go first where the files come in the order of their times: the sort, which is to
put them in that order, does not.
-/

set_option autoImplicit false

namespace FreeOnline.Wsd.QuarantineUtil

open FreeOnline.Library

def Directory.ofDocument (directory : Directory) (docKey : Text) : List File :=
  directory.entries.filter fun file => file.docKey = docKey

/-- What is removed is older than all that stays. -/
def OldestFirst (before after : Directory) : Prop :=
  ∀ file ∈ before.entries, file ∉ after.entries →
    ∀ other ∈ before.entries, other.time.toNat < file.time.toNat → other ∉ after.entries

/-- The newest versions of the document stay, as many as there may be. -/
def KeepsNewest (docKey : Text) (maxVersions : Nat) (before after : Directory) : Prop :=
  (after.ofDocument docKey).length = min maxVersions (before.ofDocument docKey).length ∧
    ∀ file ∈ after.ofDocument docKey, file ∈ before.ofDocument docKey ∧
      ∀ other ∈ before.ofDocument docKey, other ∉ after.ofDocument docKey →
        other.time.toNat ≤ file.time.toNat

def Purge.Good : Purge → Prop
  | .space before after => OldestFirst before after
  | .versions docKey maxVersions before after => KeepsNewest docKey maxVersions before after

/-!
## When old versions go first
-/

def InOrder (names : List Text) : Prop :=
  names.Pairwise fun name later => (timestamp name).1 ≤ (timestamp later).1

/-- There is nothing to purge. -/
def Quarantine.Roomy (quarantine : Quarantine) (now : UInt64) (directory : Directory) : Prop :=
  directory.sum File.size < quarantine.maxSizeBytes ∧
    ∀ file ∈ directory.entries, quarantine.expired now file.name = false

def Quarantine.PurgesInOrder (quarantine : Quarantine) (now : UInt64) (listing : Listing)
    (directory : Directory) : Prop :=
  quarantine.Roomy now directory ∨ InOrder (listing.order directory.names)

/-- The document of each file is read from its name. -/
def Directory.Found (directory : Directory) : Prop :=
  ∀ file ∈ directory.entries, docKeyOf file.name = some file.docKey

/-- A version that is quarantined is newer than the others of the document, and each purge meets
the files in the order of their times. -/
structure Call.Timely (call : Call) (state : State) : Prop where
  later : ∀ name ∈ state.map.versions call.quarantine.docKey, (timestamp name).1 < call.time.toNat
  fresh : state.map.Fresh call.name
  before : call.quarantine.PurgesInOrder call.before call.listingBefore state.directory
  after : (call.linkOrCopyFile (call.cleared state).directory).1 = true →
    call.quarantine.PurgesInOrder call.after call.listingAfter
      (call.listed (call.cleared state)
        (call.linkOrCopyFile (call.cleared state).directory).2).directory

def Orderly (state : State) : Event → Prop
  | .initializeQuarantine enable listing => enable = true → state.enabled = false →
      state.directory.Found ∧ (listing.order state.directory.names).Pairwise fun name later =>
        docKeyOf name = docKeyOf later → (timestamp name).1 < (timestamp later).1
  | .quarantineFile call => state.enabled = true → call.isQuarantined state = false →
      call.Timely state
  | .removeQuarantinedFiles _ => True

/-!
## Purges
-/

section

variable {quarantine : Quarantine} {now : UInt64} {directory : Directory} {files : List Text}

private theorem purgeFrom_subset {currentSize : Nat} {file : File}
    (isFile : file ∈ quarantine.purgeFrom now currentSize directory files) : file ∈ directory := by
  induction files generalizing currentSize directory with
  | nil => exact isFile
  | cons name files ih =>
      rw [Quarantine.purgeFrom] at isFile
      split at isFile
      · exact (Directory.mem_remove.mp (ih isFile)).1
      · exact ih isFile

private theorem purgeFrom_roomy {currentSize : Nat} (fits : currentSize < quarantine.maxSizeBytes)
    (recent : ∀ name ∈ files, quarantine.expired now name = false) :
    quarantine.purgeFrom now currentSize directory files = directory := by
  induction files with
  | nil => rfl
  | cons name files ih =>
      have stays : ¬ (quarantine.maxSizeBytes ≤ currentSize ∨ quarantine.expired now name = true) := by
        rw [recent name List.mem_cons_self, not_or]
        exact ⟨Nat.not_le.mpr fits, Bool.false_ne_true⟩
      rw [Quarantine.purgeFrom, if_neg stays]
      exact ih fun other isOther => recent other (List.mem_cons_of_mem _ isOther)

private theorem expired_of_later {name later : Text} (isTime : (timestamp later).2 = true)
    (inOrder : (timestamp name).1 ≤ (timestamp later).1)
    (expired : quarantine.expired now later = true) : quarantine.expired now name = true := by
  simp only [Quarantine.expired, isTime, Bool.not_true, Bool.false_or, Bool.and_eq_true,
    decide_eq_true_eq] at expired
  simp only [Quarantine.expired, Bool.or_eq_true, Bool.and_eq_true, decide_eq_true_eq]
  exact .inr ⟨by omega, by omega⟩

/-- Where the files come in order, the purge ends at the first one that stays. -/
private theorem purgeFrom_inOrder {currentSize : Nat} (inOrder : InOrder files)
    (areTimes : ∀ name ∈ files, (timestamp name).2 = true) :
    ∃ gone rest, files = gone ++ rest ∧
      quarantine.purgeFrom now currentSize directory files = directory.removeAll gone := by
  induction files generalizing currentSize directory with
  | nil => exact ⟨[], [], rfl, rfl⟩
  | cons name files ih =>
      have first := (List.pairwise_cons.mp inOrder).1
      by_cases purged : quarantine.maxSizeBytes ≤ currentSize ∨ quarantine.expired now name = true
      · obtain ⟨gone, rest, rfl, isPurged⟩ := @ih (directory.remove name)
          (currentSize - directory.sizeOf name) (List.pairwise_cons.mp inOrder).2
          (fun other isOther => areTimes other (List.mem_cons_of_mem _ isOther))
        refine ⟨name :: gone, rest, rfl, ?_⟩
        rw [Quarantine.purgeFrom, if_pos purged, isPurged]
        rfl
      · refine ⟨[], name :: files, rfl, ?_⟩
        obtain ⟨fits, stays⟩ := not_or.mp purged
        refine purgeFrom_roomy (Nat.not_le.mp fits) fun other isOther => ?_
        refine Bool.not_eq_true _ ▸ fun expired => stays ?_
        rcases List.mem_cons.mp isOther with rfl | isLater
        · exact expired
        · exact expired_of_later (areTimes other isOther) (first other isLater) expired

variable {listing : Listing}

private theorem mem_listing {name : Text} :
    name ∈ listing.order directory.names ↔ ∃ file ∈ directory, file.name = name :=
  (listing.perm directory.names).mem_iff.trans Directory.mem_names

theorem spaced_roomy (roomy : quarantine.Roomy now directory) :
    quarantine.spaced now listing directory = directory := by
  refine purgeFrom_roomy roomy.1 fun name isName => ?_
  obtain ⟨file, isFile, rfl⟩ := mem_listing.mp isName
  exact roomy.2 file isFile

theorem spaced_subset {file : File} (isFile : file ∈ quarantine.spaced now listing directory) :
    file ∈ directory :=
  purgeFrom_subset isFile

theorem oldestFirst_spaced (inOrder : quarantine.PurgesInOrder now listing directory) :
    OldestFirst directory (quarantine.spaced now listing directory) := by
  intro file isFile isGone other isOther earlier
  rcases inOrder with roomy | inOrder
  · rw [spaced_roomy roomy] at isGone
    exact absurd isFile isGone
  · have areTimes : ∀ name ∈ listing.order directory.names, (timestamp name).2 = true := by
      intro name isName
      obtain ⟨found, -, rfl⟩ := mem_listing.mp isName
      rw [timestamp_name]
    obtain ⟨gone, rest, split, isPurged⟩ : ∃ gone rest,
        listing.order directory.names = gone ++ rest ∧
          quarantine.spaced now listing directory = directory.removeAll gone :=
      purgeFrom_inOrder inOrder areTimes
    have isRemoved : file.name ∈ gone := by
      by_contra stays
      refine isGone ?_
      rw [isPurged]
      exact Directory.mem_removeAll.mpr ⟨isFile, stays⟩
    intro stays
    rw [isPurged] at stays
    have notGone : other.name ∉ gone := (Directory.mem_removeAll.mp stays).2
    have isListed : other.name ∈ listing.order directory.names := mem_listing.mpr ⟨other, isOther, rfl⟩
    rw [split] at inOrder isListed
    have isRest : other.name ∈ rest := (List.mem_append.mp isListed).resolve_left notGone
    have ordered := (List.pairwise_append.mp inOrder).2.2 file.name isRemoved other.name isRest
    rw [timestamp_name, timestamp_name] at ordered
    exact Nat.not_lt.mpr ordered earlier

end

/-!
## What is kept
-/

/-- The map lists what is there, and of the versions of a document the older ones go first. -/
structure Kept (directory : Directory) (map : QuarantineMap) : Prop where
  listed : ∀ file ∈ directory, file.name ∈ map.versions file.docKey
  owned : ∀ docKey, ∀ file ∈ directory, file.name ∈ map.versions docKey → file.docKey = docKey
  sorted : ∀ docKey, (map.versions docKey).Pairwise fun name later =>
    (timestamp name).1 < (timestamp later).1 ∧ (name ∈ directory.names → later ∈ directory.names)

theorem Kept.purge {before after : Directory} {map : QuarantineMap} (kept : Kept before map)
    (isSubset : ∀ file ∈ after, file ∈ before) (oldestFirst : OldestFirst before after) :
    Kept after map where
  listed file isFile := kept.listed file (isSubset file isFile)
  owned docKey file isFile := kept.owned docKey file (isSubset file isFile)
  sorted docKey := by
    refine (kept.sorted docKey).imp fun {name later} ⟨earlier, stays⟩ => ⟨earlier, fun isThere => ?_⟩
    obtain ⟨file, isFile, rfl⟩ := Directory.mem_names.mp isThere
    obtain ⟨other, isOther, rfl⟩ :=
      Directory.mem_names.mp (stays (Directory.name_mem_names (isSubset file isFile)))
    rw [timestamp_name, timestamp_name] at earlier
    by_contra isGone
    refine oldestFirst other isOther (fun isThere => isGone (Directory.name_mem_names isThere))
      file (isSubset file isFile) earlier isFile

/-- A new version is listed. -/
theorem Kept.put {directory : Directory} {map : QuarantineMap} (kept : Kept directory map)
    {file : File} (fresh : map.Fresh file.name)
    (later : ∀ name ∈ map.versions file.docKey, (timestamp name).1 < file.time.toNat) :
    Kept (directory.put file) (map.push file.docKey file.name) := by
  have notThere : file.name ∉ directory.names := by
    intro isThere
    obtain ⟨other, isOther, sameName⟩ := Directory.mem_names.mp isThere
    have isListed := kept.listed other isOther
    rw [sameName] at isListed
    exact QuarantineMap.notMem_versions fresh _ isListed
  have isPut {other : File} := @Directory.mem_put_of_fresh directory file notThere other
  have isName {name : Text} (different : name ≠ file.name) :
      name ∈ (directory.put file).names ↔ name ∈ directory.names := by
    rw [Directory.mem_names, Directory.mem_names]
    constructor
    · rintro ⟨other, isOther, rfl⟩
      exact ⟨other, (isPut.mp isOther).resolve_right fun same => different (same ▸ rfl), rfl⟩
    · rintro ⟨other, isOther, rfl⟩
      exact ⟨other, isPut.mpr (.inl isOther), rfl⟩
  have stillSorted (docKey : Text) : (map.versions docKey).Pairwise fun name later =>
      (timestamp name).1 < (timestamp later).1 ∧
        (name ∈ (directory.put file).names → later ∈ (directory.put file).names) := by
    refine (kept.sorted docKey).imp_of_mem fun {name other} isIn isOther ⟨earlier, stays⟩ => ?_
    have notFile {name : Text} (isIn : name ∈ map.versions docKey) : name ≠ file.name :=
      fun same => QuarantineMap.notMem_versions fresh docKey (same ▸ isIn)
    rw [isName (notFile isIn), isName (notFile isOther)]
    exact ⟨earlier, stays⟩
  refine ⟨?_, ?_, ?_⟩
  · intro other isOther
    rcases isPut.mp isOther with isOld | rfl
    · have isListed := kept.listed other isOld
      by_cases sameKey : other.docKey = file.docKey
      · rw [sameKey, QuarantineMap.versions_push_self]
        exact List.mem_append_left _ (sameKey ▸ isListed)
      · rw [QuarantineMap.versions_push_of_ne map sameKey]
        exact isListed
    · rw [QuarantineMap.versions_push_self]
      exact List.mem_append_right _ List.mem_cons_self
  · intro docKey other isOther isVersion
    rcases isPut.mp isOther with isOld | rfl
    · by_cases sameKey : docKey = file.docKey
      · subst sameKey
        rw [QuarantineMap.versions_push_self] at isVersion
        rcases List.mem_append.mp isVersion with isVersion | isNew
        · exact kept.owned _ other isOld isVersion
        · exact absurd (List.mem_singleton.mp isNew ▸ Directory.name_mem_names isOld) notThere
      · rw [QuarantineMap.versions_push_of_ne map sameKey] at isVersion
        exact kept.owned docKey other isOld isVersion
    · by_contra different
      rw [QuarantineMap.versions_push_of_ne map (Ne.symm different)] at isVersion
      exact QuarantineMap.notMem_versions fresh docKey isVersion
  · intro docKey
    by_cases sameKey : docKey = file.docKey
    · subst sameKey
      rw [QuarantineMap.versions_push_self, List.pairwise_append]
      refine ⟨stillSorted _, List.pairwise_singleton _ _, fun name isName added isAdded => ?_⟩
      obtain rfl := List.mem_singleton.mp isAdded
      rw [timestamp_name]
      exact ⟨later name isName, fun _ => Directory.name_mem_names (isPut.mpr (.inr rfl))⟩
    · rw [QuarantineMap.versions_push_of_ne map sameKey]
      exact stillSorted docKey

/-- Versions of one document go, from the oldest on. -/
theorem Kept.drop {directory : Directory} {map next : QuarantineMap} (kept : Kept directory map)
    (docKey : Text) (excess : Nat)
    (self : next.versions docKey = (map.versions docKey).drop excess)
    (others : ∀ other, other ≠ docKey → next.versions other = map.versions other) :
    Kept (directory.removeAll ((map.versions docKey).take excess)) next := by
  have split := List.take_append_drop excess (map.versions docKey)
  have isOld {name : Text} (isIn : name ∈ (map.versions docKey).take excess) :
      name ∈ map.versions docKey := List.mem_of_mem_take isIn
  have subset {other : Text} {name : Text} (isIn : name ∈ next.versions other) :
      name ∈ map.versions other := by
    by_cases sameKey : other = docKey
    · subst sameKey
      rw [self] at isIn
      exact List.mem_of_mem_drop isIn
    · rwa [others other sameKey] at isIn
  refine ⟨?_, ?_, ?_⟩
  · intro file isFile
    obtain ⟨isFile, stays⟩ := Directory.mem_removeAll.mp isFile
    have isListed := kept.listed file isFile
    by_cases sameKey : file.docKey = docKey
    · rw [sameKey, ← split] at isListed
      rw [sameKey, self]
      exact (List.mem_append.mp isListed).resolve_left stays
    · rwa [others _ sameKey]
  · intro other file isFile isVersion
    exact kept.owned other file (Directory.mem_removeAll.mp isFile).1 (subset isVersion)
  · intro other
    have stillSorted : (next.versions other).Pairwise fun name later =>
        (timestamp name).1 < (timestamp later).1 ∧
          (name ∈ directory.names → later ∈ directory.names) := by
      by_cases sameKey : other = docKey
      · subst sameKey
        rw [self]
        exact (kept.sorted other).sublist (List.drop_sublist _ _)
      · rw [others other sameKey]
        exact kept.sorted other
    refine stillSorted.imp_of_mem fun {name later} _ isLater ⟨earlier, stays⟩ => ⟨earlier, ?_⟩
    intro isThere
    obtain ⟨file, isFile, rfl⟩ := Directory.mem_names.mp isThere
    have isFile := (Directory.mem_removeAll.mp isFile).1
    obtain ⟨newer, isNewer, rfl⟩ := Directory.mem_names.mp (stays (Directory.name_mem_names isFile))
    refine Directory.name_mem_names (Directory.mem_removeAll.mpr ⟨isNewer, fun isGone => ?_⟩)
    -- what goes is of the document itself, and behind it in the list
    have isKey := kept.owned docKey newer isNewer (isOld isGone)
    have isOther := kept.owned other newer isNewer (subset isLater)
    obtain rfl : other = docKey := isOther.symm.trans isKey
    rw [self] at isLater
    have ordered := kept.sorted other
    rw [← split, List.pairwise_append] at ordered
    exact Nat.lt_irrefl _ (ordered.2.2 _ isGone _ isLater).1

private theorem length_filter_drop {Name : Type} {names : List Name} {isThere : Name → Bool}
    (stays : names.Pairwise fun name later => isThere name = true → isThere later = true)
    (excess : Nat) :
    ((names.drop excess).filter isThere).length =
      min (names.length - excess) (names.filter isThere).length := by
  induction names generalizing excess with
  | nil => simp
  | cons name names ih =>
      obtain ⟨first, rest⟩ := List.pairwise_cons.mp stays
      cases excess with
      | zero =>
          have bound := List.length_filter_le isThere (name :: names)
          rw [List.drop_zero]
          omega
      | succ excess =>
          have counted := ih rest excess
          rw [List.drop_succ_cons, counted, List.length_cons]
          by_cases here : isThere name = true
          · have all : names.filter isThere = names :=
              List.filter_eq_self.mpr fun later isLater => first later isLater here
            rw [List.filter_cons_of_pos here, List.length_cons, all]
            omega
          · rw [List.filter_cons_of_neg here]
            omega

/-- The versions of a document that are there are those that the map lists. -/
theorem Kept.perm {directory : Directory} {map : QuarantineMap} (kept : Kept directory map)
    (docKey : Text) :
    ((directory.ofDocument docKey).map File.name).Perm
      ((map.versions docKey).filter (· ∈ directory.names)) := by
  have distinct : (map.versions docKey).Nodup :=
    (kept.sorted docKey).imp fun ⟨earlier, _⟩ same => Nat.lt_irrefl _ (same ▸ earlier)
  refine (List.perm_ext_iff_of_nodup ?_ (distinct.filter _)).mpr fun name => ?_
  · exact (List.filter_sublist.map File.name).nodup directory.distinct
  · simp only [Directory.ofDocument, List.mem_map, List.mem_filter, decide_eq_true_eq]
    constructor
    · rintro ⟨file, ⟨isFile, rfl⟩, rfl⟩
      exact ⟨kept.listed file isFile, Directory.name_mem_names isFile⟩
    · rintro ⟨isVersion, isThere⟩
      obtain ⟨file, isFile, rfl⟩ := Directory.mem_names.mp isThere
      exact ⟨file, ⟨isFile, kept.owned docKey file isFile isVersion⟩, rfl⟩

/-- The versions that are cleared are the oldest ones. -/
theorem Kept.keepsNewest {directory : Directory} {map : QuarantineMap} (kept : Kept directory map)
    (docKey : Text) (maxVersions : Nat) :
    KeepsNewest docKey maxVersions directory (directory.removeAll
      ((map.versions docKey).take ((map.versions docKey).length - maxVersions))) := by
  have dropped : Kept (directory.removeAll
      ((map.versions docKey).take ((map.versions docKey).length - maxVersions)))
      (map.set docKey ((map.versions docKey).drop ((map.versions docKey).length - maxVersions))) :=
    kept.drop docKey _ (QuarantineMap.versions_set_self _ _ _)
      (fun other different => QuarantineMap.versions_set_of_ne _ different _)
  have ordered := kept.sorted docKey
  have split := List.take_append_drop ((map.versions docKey).length - maxVersions)
    (map.versions docKey)
  rw [← split, List.pairwise_append] at ordered
  have older := ordered.2.2
  refine ⟨?_, ?_⟩
  · have before := (kept.perm docKey).length_eq
    have after := (dropped.perm docKey).length_eq
    rw [List.length_map] at before after
    rw [QuarantineMap.versions_set_self] at after
    have same : ∀ name ∈ (map.versions docKey).drop ((map.versions docKey).length - maxVersions),
        decide (name ∈ (directory.removeAll ((map.versions docKey).take
          ((map.versions docKey).length - maxVersions))).names) =
            decide (name ∈ directory.names) := by
      intro name isNewer
      refine decide_eq_decide.mpr ⟨fun isThere => ?_, fun isThere => ?_⟩
      · obtain ⟨file, isFile, rfl⟩ := Directory.mem_names.mp isThere
        exact Directory.name_mem_names (Directory.mem_removeAll.mp isFile).1
      · obtain ⟨file, isFile, rfl⟩ := Directory.mem_names.mp isThere
        refine Directory.name_mem_names (Directory.mem_removeAll.mpr ⟨isFile, fun isOld => ?_⟩)
        exact Nat.lt_irrefl _ (older _ isOld _ isNewer).1
    have stays : (map.versions docKey).Pairwise fun name later =>
        decide (name ∈ directory.names) = true → decide (later ∈ directory.names) = true := by
      refine (kept.sorted docKey).imp fun {name later} ⟨_, stays⟩ => ?_
      rwa [decide_eq_true_eq, decide_eq_true_eq]
    have counted := length_filter_drop stays ((map.versions docKey).length - maxVersions)
    have bound := List.length_filter_le (fun name => decide (name ∈ directory.names))
      (map.versions docKey)
    rw [List.filter_congr same, counted, ← before] at after
    rw [after]
    rw [← before] at bound
    omega
  · intro file isFile
    simp only [Directory.ofDocument, List.mem_filter, decide_eq_true_eq] at isFile ⊢
    obtain ⟨isFile, isKey⟩ := isFile
    obtain ⟨isFile, stays⟩ := Directory.mem_removeAll.mp isFile
    refine ⟨⟨isFile, isKey⟩, ?_⟩
    rintro other ⟨isOther, otherKey⟩ isGone
    have otherGone : other.name ∈ (map.versions docKey).take
        ((map.versions docKey).length - maxVersions) := by
      by_contra stays
      exact isGone ⟨Directory.mem_removeAll.mpr ⟨isOther, stays⟩, otherKey⟩
    have isListed := isKey ▸ kept.listed file isFile
    rw [← split] at isListed
    have isNewer := (List.mem_append.mp isListed).resolve_left stays
    have earlier := (older _ otherGone _ isNewer).1
    rw [timestamp_name, timestamp_name] at earlier
    exact Nat.le_of_lt earlier

/-!
## Steps
-/

structure Valid (state : State) : Prop where
  kept : state.enabled = true → Kept state.directory state.map
  empty : state.enabled = false → ∀ docKey, state.map.versions docKey = []
  good : ∀ purge ∈ state.purges, purge.Good

theorem valid_create (directory : Directory) : Valid (.create directory) := by
  constructor
  · exact nofun
  · exact fun _ docKey => QuarantineMap.versions_empty docKey
  · exact fun purge isPurge => absurd isPurge List.not_mem_nil

private theorem versions_found (files : List Text) (map : QuarantineMap) (docKey : Text) :
    (files.foldl QuarantineMap.add map).versions docKey =
      map.versions docKey ++ files.filter fun file => docKeyOf file = some docKey := by
  induction files generalizing map with
  | nil => simp
  | cons file files ih =>
      rw [List.foldl_cons, ih, List.filter_cons, QuarantineMap.add]
      cases isKey : docKeyOf file with
      | none => simp
      | some key =>
          by_cases sameKey : key = docKey
          · subst sameKey
            simp [QuarantineMap.push, QuarantineMap.versions_set_self]
          · simp [QuarantineMap.push, QuarantineMap.versions_set_of_ne map (Ne.symm sameKey), sameKey]

/-- The map that is built at the start. -/
theorem versions_initializeQuarantine (files : List Text) (docKey : Text) :
    (files.foldl QuarantineMap.add .empty).versions docKey =
      files.filter fun file => docKeyOf file = some docKey := by
  rw [versions_found, QuarantineMap.versions_empty, List.nil_append]

private theorem Valid.initializeQuarantine {state : State} (valid : Valid state) {enable : Bool}
    {listing : Listing} (orderly : Orderly state (.initializeQuarantine enable listing)) :
    Valid (state.initializeQuarantine enable listing) := by
  unfold State.initializeQuarantine
  split
  · exact valid
  · next starts =>
      obtain ⟨isEnabled, isFirst⟩ := not_or.mp starts
      obtain ⟨found, inOrder⟩ := orderly (Bool.not_eq_false _ ▸ isEnabled)
        (Bool.not_eq_true _ ▸ isFirst)
      refine ⟨fun _ => ⟨?_, ?_, ?_⟩, nofun, valid.good⟩
      · intro file isFile
        rw [versions_initializeQuarantine]
        exact List.mem_filter.mpr ⟨mem_listing.mpr ⟨file, isFile, rfl⟩,
          decide_eq_true (found file isFile)⟩
      · intro docKey file isFile isVersion
        rw [versions_initializeQuarantine] at isVersion
        have isKey := of_decide_eq_true (List.mem_filter.mp isVersion).2
        exact Option.some.inj ((found file isFile).symm.trans isKey)
      · intro docKey
        rw [versions_initializeQuarantine]
        refine (inOrder.filter _).imp_of_mem fun {name later} isName isLater earlier => ?_
        obtain ⟨-, isKey⟩ := List.mem_filter.mp isName
        obtain ⟨isThere, isLaterKey⟩ := List.mem_filter.mp isLater
        have sameKey := (of_decide_eq_true isKey).trans (of_decide_eq_true isLaterKey).symm
        exact ⟨earlier sameKey, fun _ => Directory.mem_names.mpr (mem_listing.mp isThere)⟩

private theorem Valid.makeQuarantineSpace {state : State} (valid : Valid state)
    {quarantine : Quarantine} {now : UInt64} {listing : Listing}
    (inOrder : quarantine.PurgesInOrder now listing state.directory) :
    Valid (quarantine.makeQuarantineSpace now listing state) := by
  have oldestFirst := oldestFirst_spaced inOrder
  refine ⟨fun isEnabled => ?_, valid.empty, ?_⟩
  · exact (valid.kept isEnabled).purge (fun _ => spaced_subset) oldestFirst
  · intro purge isPurge
    rcases List.mem_cons.mp isPurge with rfl | isPurge
    · exact oldestFirst
    · exact valid.good purge isPurge

private theorem Valid.clearOldQuarantineVersions {state : State} (valid : Valid state)
    (isEnabled : state.enabled = true) (quarantine : Quarantine) :
    Valid (quarantine.clearOldQuarantineVersions state) := by
  have kept := valid.kept isEnabled
  have newest := kept.keepsNewest quarantine.docKey quarantine.maxVersions
  unfold Quarantine.clearOldQuarantineVersions
  dsimp only
  split
  · refine ⟨fun _ => ?_, fun isOff => absurd (isEnabled.symm.trans isOff) nofun, ?_⟩
    · exact kept.drop quarantine.docKey _ (QuarantineMap.versions_set_self _ _ _)
        fun other different => QuarantineMap.versions_set_of_ne _ different _
    · intro purge isPurge
      rcases List.mem_cons.mp isPurge with rfl | isPurge
      · exact newest
      · exact valid.good purge isPurge
  · next fits =>
      refine ⟨fun _ => kept, valid.empty, ?_⟩
      intro purge isPurge
      rcases List.mem_cons.mp isPurge with rfl | isPurge
      · have noExcess : (state.map.versions quarantine.docKey).length - quarantine.maxVersions = 0 :=
          Nat.sub_eq_zero_of_le (Nat.not_lt.mp fits)
        rw [noExcess] at newest
        exact newest
      · exact valid.good purge isPurge

/-- A copy that fails takes nothing away that is listed. -/
private theorem Kept.linkOrCopyFile {directory next : Directory} {map : QuarantineMap} {call : Call}
    {isCopied : Bool} (kept : Kept directory map) (fresh : map.Fresh call.name)
    (later : ∀ name ∈ map.versions call.quarantine.docKey, (timestamp name).1 < call.time.toNat)
    (isLinked : call.linkOrCopyFile directory = (isCopied, next)) :
    Kept next (if isCopied then map.push call.quarantine.docKey call.name else map) := by
  have notThere : call.name ∉ directory.names := by
    intro isThere
    obtain ⟨file, isFile, sameName⟩ := Directory.mem_names.mp isThere
    have isListed := kept.listed file isFile
    rw [sameName] at isListed
    exact QuarantineMap.notMem_versions fresh _ isListed
  have failed : Kept (directory.remove call.name) map := by
    refine kept.purge (fun file isFile => (Directory.mem_remove.mp isFile).1) ?_
    intro file isFile isGone
    refine absurd (Directory.mem_remove.mpr ⟨isFile, fun sameName => notThere ?_⟩) isGone
    exact sameName ▸ Directory.name_mem_names isFile
  unfold Call.linkOrCopyFile at isLinked
  cases isDocument : call.document with
  | none =>
      rw [isDocument] at isLinked
      cases isLinked
      exact failed
  | some contents =>
      rw [isDocument] at isLinked
      dsimp only at isLinked
      split at isLinked
      · cases isLinked
        exact @Kept.put _ _ kept (call.file contents) fresh later
      · cases isLinked
        exact failed

private theorem Valid.quarantineFile {state : State} (valid : Valid state) {call : Call}
    (orderly : Orderly state (.quarantineFile call)) : Valid (call.quarantineFile state) := by
  unfold Call.quarantineFile
  split
  · exact valid
  · next goesOn =>
      obtain ⟨isEnabled, isNew⟩ := not_or.mp goesOn
      have isEnabled : state.enabled = true := Bool.not_eq_false _ ▸ isEnabled
      have timely := orderly isEnabled (Bool.not_eq_true _ ▸ isNew)
      have cleared : Valid (call.cleared state) := valid.makeQuarantineSpace timely.before
      have kept := cleared.kept isEnabled
      have inOrder := timely.after
      dsimp only
      cases isLinked : call.linkOrCopyFile (call.cleared state).directory with
      | mk isCopied directory =>
          rw [isLinked] at inOrder
          have next := kept.linkOrCopyFile timely.fresh timely.later isLinked
          cases isCopied with
          | true =>
              have linked : Valid { call.cleared state with
                  directory, map := (call.cleared state).map.push call.quarantine.docKey call.name } :=
                ⟨fun _ => next, fun isOff => absurd (isEnabled.symm.trans isOff) nofun, cleared.good⟩
              exact (linked.clearOldQuarantineVersions isEnabled call.quarantine).makeQuarantineSpace
                (inOrder rfl)
          | false => exact ⟨fun _ => next, cleared.empty, cleared.good⟩

private theorem Valid.removeQuarantinedFiles {state : State} (valid : Valid state) (docKey : Text) :
    Valid (state.removeQuarantinedFiles docKey) := by
  refine ⟨fun isEnabled => ?_, fun isOff other => ?_, valid.good⟩
  · have dropped := (valid.kept isEnabled).drop docKey (state.map.versions docKey).length
      ((QuarantineMap.versions_erase_self state.map docKey).trans List.drop_length.symm)
      (fun other different => QuarantineMap.versions_erase_of_ne state.map different)
    rwa [List.take_length] at dropped
  · by_cases sameKey : other = docKey
    · subst sameKey
      exact QuarantineMap.versions_erase_self _ _
    · exact (QuarantineMap.versions_erase_of_ne _ sameKey).trans (valid.empty isOff other)

theorem Valid.step {state : State} (valid : Valid state) {event : Event}
    (orderly : Orderly state event) : Valid (state.step event) := by
  cases event with
  | initializeQuarantine enable listing => exact valid.initializeQuarantine orderly
  | quarantineFile call => exact valid.quarantineFile orderly
  | removeQuarantinedFiles docKey => exact valid.removeQuarantinedFiles docKey

/-!
## Runs
-/

/-- In orderly runs the newest versions are kept, whatever was found at the start. -/
theorem newest_versions_kept {directory : Directory} {events : List Event}
    (permitted : Permitted State.step Orderly (.create directory) events) :
    ∀ purge ∈ (run State.step (.create directory) events).purges, purge.Good :=
  (run_invariant Valid (fun _ _ valid => valid.step) (valid_create directory) permitted).good

instance (quarantine : Quarantine) (now : UInt64) (listing : Listing) (directory : Directory) :
    Decidable (quarantine.PurgesInOrder now listing directory) :=
  inferInstanceAs (Decidable ((_ ∧ ∀ file ∈ directory.entries, _ = _) ∨ List.Pairwise _ _))

instance (call : Call) (state : State) : Decidable (call.Timely state) :=
  decidable_of_iff (_ ∧ _ ∧ _ ∧ _)
    ⟨fun ⟨later, fresh, before, after⟩ => ⟨later, fresh, before, after⟩,
      fun timely => ⟨timely.later, timely.fresh, timely.before, timely.after⟩⟩

instance (state : State) (event : Event) : Decidable (Orderly state event) :=
  match event with
  | .initializeQuarantine _ _ =>
      inferInstanceAs (Decidable (_ → _ → (∀ file ∈ state.directory.entries, _) ∧ List.Pairwise _ _))
  | .quarantineFile _ => inferInstanceAs (Decidable (_ → _ → _))
  | .removeQuarantinedFiles _ => inferInstanceAs (Decidable True)

instance (purge : Purge) : Decidable purge.Good :=
  match purge with
  | .space _ _ => inferInstanceAs (Decidable (∀ file ∈ _, _ → ∀ other ∈ _, _ → _ ∉ _))
  | .versions _ _ _ _ =>
      inferInstanceAs (Decidable (_ ∧ ∀ file ∈ _, _ ∈ _ ∧ ∀ other ∈ _, _ ∉ _ → _))

def letterAt (time : UInt64) : File :=
  ⟨time, 1, "letter".toList, "letter.odt".toList, [0]⟩

/-- The letter is quarantined, of which two versions are kept. -/
def quarantinesLetter (time : UInt64) : Call where
  quarantine := ⟨"letter".toList, "letter.odt".toList, 1, 1000, 3600, 2⟩
  document := some [1]
  copies := true
  time
  before := time
  after := time
  listingBefore := .stable
  listingAfter := .stable

theorem letters_apart : ([letterAt 10, letterAt 20].map File.name).Nodup := by decide +kernel

theorem newest_versions_kept_letter :
    ∃ purge, purge ∈ (run State.step (.create ⟨[letterAt 10, letterAt 20], letters_apart⟩)
      [.initializeQuarantine true .stable, .quarantineFile (quarantinesLetter 30)]).purges ∧
      purge.Good := by
  have purges : (run State.step (.create ⟨[letterAt 10, letterAt 20], letters_apart⟩)
      [.initializeQuarantine true .stable, .quarantineFile (quarantinesLetter 30)]).purges ≠ [] := by
    decide +kernel
  obtain ⟨purge, member⟩ := List.exists_mem_of_ne_nil _ purges
  exact ⟨purge, member, newest_versions_kept (by decide +kernel) purge member⟩

/-- The newer letter is listed first, and sorting leaves it there: it is the one that goes. -/
theorem not_newest_versions_kept :
    ¬ ∀ purge ∈ (run State.step (.create ⟨[letterAt 20, letterAt 10], by decide +kernel⟩)
      [.initializeQuarantine true .stable, .quarantineFile (quarantinesLetter 30)]).purges,
      purge.Good := by
  decide +kernel

end FreeOnline.Wsd.QuarantineUtil
