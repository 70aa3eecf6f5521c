import FreeOnline.Wsd.QuarantineVersions

/-!
# The map of the quarantined files

A purge for space does not touch the map. Where nothing is purged for space, the map lists the
files that are there.
-/

set_option autoImplicit false

namespace FreeOnline.Wsd.QuarantineUtil

open FreeOnline.Library

/-- What is listed is there, and what is there is listed under its own document. -/
def Consistent (directory : Directory) (map : QuarantineMap) : Prop :=
  ∀ docKey name, name ∈ map.versions docKey ↔
    ∃ file ∈ directory, file.docKey = docKey ∧ file.name = name

/-- There is room for the version, and no file has its name. -/
structure Call.HasRoom (call : Call) (state : State) : Prop where
  before : call.quarantine.Roomy call.before state.directory
  fresh : call.name ∉ state.directory.names
  after : (call.linkOrCopyFile (call.cleared state).directory).1 = true →
    call.quarantine.Roomy call.after
      (call.listed (call.cleared state)
        (call.linkOrCopyFile (call.cleared state).directory).2).directory

def Unpurged (state : State) : Event → Prop
  | .initializeQuarantine enable _ => enable = true → state.enabled = false → state.directory.Found
  | .quarantineFile call => state.enabled = true → call.isQuarantined state = false →
      call.HasRoom state
  | .removeQuarantinedFiles _ => True

/-- A listed version is not listed again. -/
structure Listed (directory : Directory) (map : QuarantineMap) : Prop where
  consistent : Consistent directory map
  distinct : ∀ docKey, (map.versions docKey).Nodup

theorem Listed.put {directory : Directory} {map : QuarantineMap} (listed : Listed directory map)
    {file : File} (fresh : file.name ∉ directory.names) :
    Listed (directory.put file) (map.push file.docKey file.name) := by
  obtain ⟨consistent, distinct⟩ := listed
  have isPut {other : File} := @Directory.mem_put_of_fresh directory file fresh other
  constructor
  · intro docKey name
    by_cases sameKey : docKey = file.docKey
    · subst sameKey
      rw [QuarantineMap.versions_push_self, List.mem_append, List.mem_singleton, consistent]
      constructor
      · rintro (⟨other, isOther, holds⟩ | rfl)
        · exact ⟨other, isPut.mpr (.inl isOther), holds⟩
        · exact ⟨file, isPut.mpr (.inr rfl), rfl, rfl⟩
      · rintro ⟨other, isOther, sameKey, rfl⟩
        rcases isPut.mp isOther with isOther | rfl
        · exact .inl ⟨other, isOther, sameKey, rfl⟩
        · exact .inr rfl
    · rw [QuarantineMap.versions_push_of_ne map sameKey, consistent]
      constructor
      · rintro ⟨other, isOther, holds⟩
        exact ⟨other, isPut.mpr (.inl isOther), holds⟩
      · rintro ⟨other, isOther, isKey, isName⟩
        refine ⟨other, (isPut.mp isOther).resolve_right fun same => sameKey ?_, isKey, isName⟩
        rw [← isKey, same]
  · intro docKey
    by_cases sameKey : docKey = file.docKey
    · subst sameKey
      rw [QuarantineMap.versions_push_self, List.nodup_append]
      refine ⟨distinct _, List.nodup_singleton _, fun name isName added isAdded same => fresh ?_⟩
      obtain ⟨other, isOther, -, rfl⟩ := (consistent _ _).mp isName
      rw [← List.mem_singleton.mp isAdded, ← same]
      exact Directory.name_mem_names isOther
    · rw [QuarantineMap.versions_push_of_ne map sameKey]
      exact distinct docKey

/-- Versions that are removed are taken from the list. -/
theorem Listed.drop {directory : Directory} {map next : QuarantineMap} (listed : Listed directory map)
    (docKey : Text) (excess : Nat)
    (self : next.versions docKey = (map.versions docKey).drop excess)
    (others : ∀ other, other ≠ docKey → next.versions other = map.versions other) :
    Listed (directory.removeAll ((map.versions docKey).take excess)) next := by
  obtain ⟨consistent, distinct⟩ := listed
  have split := List.take_append_drop excess (map.versions docKey)
  constructor
  · intro other name
    by_cases sameKey : other = docKey
    · subst sameKey
      have apart := distinct other
      rw [← split] at apart
      rw [self]
      constructor
      · intro isNewer
        obtain ⟨file, isFile, isKey, rfl⟩ := (consistent other name).mp (List.mem_of_mem_drop isNewer)
        refine ⟨file, Directory.mem_removeAll.mpr ⟨isFile, fun isOld => ?_⟩, isKey, rfl⟩
        exact (List.nodup_append.mp apart).2.2 _ isOld _ isNewer rfl
      · rintro ⟨file, isFile, isKey, rfl⟩
        obtain ⟨isFile, stays⟩ := Directory.mem_removeAll.mp isFile
        have isVersion := (consistent other file.name).mpr ⟨file, isFile, isKey, rfl⟩
        rw [← split] at isVersion
        exact (List.mem_append.mp isVersion).resolve_left stays
    · rw [others other sameKey, consistent]
      constructor
      · rintro ⟨file, isFile, isKey, rfl⟩
        refine ⟨file, Directory.mem_removeAll.mpr ⟨isFile, fun isOld => sameKey ?_⟩, isKey, rfl⟩
        obtain ⟨same, isSame, isOld, sameName⟩ :=
          (consistent docKey file.name).mp (List.mem_of_mem_take isOld)
        rw [← isKey, ← isOld, Keyed.eq_of_key isSame isFile sameName]
      · rintro ⟨file, isFile, isKey, rfl⟩
        exact ⟨file, (Directory.mem_removeAll.mp isFile).1, isKey, rfl⟩
  · intro other
    by_cases sameKey : other = docKey
    · subst sameKey
      rw [self]
      exact (distinct other).sublist (List.drop_sublist _ _)
    · rw [others other sameKey]
      exact distinct other

theorem listed_initializeQuarantine {directory : Directory} (found : directory.Found)
    (listing : Listing) :
    Listed directory ((listing.order directory.names).foldl QuarantineMap.add .empty) := by
  have perm := listing.perm directory.names
  constructor
  · intro docKey name
    rw [versions_initializeQuarantine, List.mem_filter, perm.mem_iff, Directory.mem_names,
      decide_eq_true_eq]
    constructor
    · rintro ⟨⟨file, isFile, rfl⟩, isKey⟩
      exact ⟨file, isFile, Option.some.inj ((found file isFile).symm.trans isKey), rfl⟩
    · rintro ⟨file, isFile, rfl, rfl⟩
      exact ⟨⟨file, isFile, rfl⟩, found file isFile⟩
  · intro docKey
    rw [versions_initializeQuarantine]
    exact (perm.nodup_iff.mpr directory.distinct).filter _

/-!
## Steps
-/

structure Holds (state : State) : Prop where
  listed : state.enabled = true → Listed state.directory state.map
  empty : state.enabled = false → ∀ docKey, state.map.versions docKey = []

private theorem Listed.clearOldQuarantineVersions {state : State}
    (listed : Listed state.directory state.map) (quarantine : Quarantine) :
    Listed (quarantine.clearOldQuarantineVersions state).directory
      (quarantine.clearOldQuarantineVersions state).map := by
  unfold Quarantine.clearOldQuarantineVersions
  dsimp only
  split
  · exact listed.drop quarantine.docKey _ (QuarantineMap.versions_set_self _ _ _)
      fun other different => QuarantineMap.versions_set_of_ne _ different _
  · exact listed

private theorem Listed.linkOrCopyFile {directory next : Directory} {map : QuarantineMap} {call : Call}
    {isCopied : Bool} (listed : Listed directory map) (fresh : call.name ∉ directory.names)
    (isLinked : call.linkOrCopyFile directory = (isCopied, next)) :
    Listed next (if isCopied then map.push call.quarantine.docKey call.name else map) := by
  have isSame {file : File} : file ∈ directory.remove call.name ↔ file ∈ directory := by
    refine Directory.mem_remove.trans (and_iff_left_of_imp fun isFile sameName => fresh ?_)
    exact sameName ▸ Directory.name_mem_names isFile
  have failed : Listed (directory.remove call.name) map := by
    refine ⟨fun docKey name => ?_, listed.distinct⟩
    simp only [isSame]
    exact listed.consistent docKey name
  unfold Call.linkOrCopyFile at isLinked
  cases isDocument : call.document with
  | none =>
      rw [isDocument] at isLinked
      cases isLinked
      exact failed
  | some contents =>
      rw [isDocument] at isLinked
      dsimp only at isLinked
      split at isLinked
      · cases isLinked
        exact @Listed.put _ _ listed (call.file contents) fresh
      · cases isLinked
        exact failed

private theorem Holds.quarantineFile {state : State} (holds : Holds state) {call : Call}
    (unpurged : Unpurged state (.quarantineFile call)) : Holds (call.quarantineFile state) := by
  unfold Call.quarantineFile
  split
  · exact holds
  · next goesOn =>
      obtain ⟨isEnabled, isNew⟩ := not_or.mp goesOn
      have isEnabled : state.enabled = true := Bool.not_eq_false _ ▸ isEnabled
      obtain ⟨before, fresh, after⟩ := unpurged isEnabled (Bool.not_eq_true _ ▸ isNew)
      have cleared : (call.cleared state).directory = state.directory := spaced_roomy before
      have isOn : ¬ state.enabled = false := fun isOff => absurd (isEnabled.symm.trans isOff) nofun
      dsimp only
      rw [cleared] at after ⊢
      cases isLinked : call.linkOrCopyFile state.directory with
      | mk isCopied directory =>
          rw [isLinked] at after
          have next := (holds.listed isEnabled).linkOrCopyFile fresh isLinked
          cases isCopied with
          | true =>
              have listed : Listed (call.listed (call.cleared state) directory).directory
                  (call.listed (call.cleared state) directory).map :=
                Listed.clearOldQuarantineVersions next call.quarantine
              refine ⟨fun _ => ?_, fun isOff => absurd ?_ isOn⟩
              · show Listed (call.quarantine.spaced call.after call.listingAfter _) _
                rw [spaced_roomy (after rfl)]
                exact listed
              · have isListedOff : (call.listed (call.cleared state) directory).enabled = false := isOff
                rwa [Call.listed, enabled_clearOldQuarantineVersions] at isListedOff
          | false => exact ⟨fun _ => next, holds.empty⟩

theorem Holds.step {state : State} (holds : Holds state) {event : Event}
    (unpurged : Unpurged state event) : Holds (state.step event) := by
  cases event with
  | initializeQuarantine enable listing =>
      show Holds (state.initializeQuarantine enable listing)
      unfold State.initializeQuarantine
      split
      · exact holds
      · next starts =>
          obtain ⟨isEnabled, isFirst⟩ := not_or.mp starts
          have found := unpurged (Bool.not_eq_false _ ▸ isEnabled) (Bool.not_eq_true _ ▸ isFirst)
          exact ⟨fun _ => listed_initializeQuarantine found listing, nofun⟩
  | quarantineFile call => exact holds.quarantineFile unpurged
  | removeQuarantinedFiles docKey =>
      refine ⟨fun isEnabled => ?_, fun isOff other => ?_⟩
      · have dropped := (holds.listed isEnabled).drop docKey (state.map.versions docKey).length
          ((QuarantineMap.versions_erase_self state.map docKey).trans List.drop_length.symm)
          (fun other different => QuarantineMap.versions_erase_of_ne state.map different)
        rwa [List.take_length] at dropped
      · by_cases sameKey : other = docKey
        · subst sameKey
          exact QuarantineMap.versions_erase_self _ _
        · exact (QuarantineMap.versions_erase_of_ne _ sameKey).trans (holds.empty isOff other)

/-!
## Runs
-/

/-- In runs in which nothing is purged for space, the map is that of the files that are there. -/
theorem map_consistent {directory : Directory} {events : List Event}
    (permitted : Permitted State.step Unpurged (.create directory) events)
    (isEnabled : (run State.step (.create directory) events).enabled = true) :
    Consistent (run State.step (.create directory) events).directory
      (run State.step (.create directory) events).map := by
  have initially : Holds (.create directory) :=
    ⟨nofun, fun _ docKey => QuarantineMap.versions_empty docKey⟩
  exact ((run_invariant Holds (fun _ _ holds => holds.step) initially permitted).listed
    isEnabled).consistent

instance (quarantine : Quarantine) (now : UInt64) (directory : Directory) :
    Decidable (quarantine.Roomy now directory) :=
  inferInstanceAs (Decidable (_ ∧ ∀ file ∈ directory.entries, _ = _))

instance (call : Call) (state : State) : Decidable (call.HasRoom state) :=
  decidable_of_iff (_ ∧ _ ∧ _)
    ⟨fun ⟨before, fresh, after⟩ => ⟨before, fresh, after⟩,
      fun room => ⟨room.before, room.fresh, room.after⟩⟩

instance (state : State) (event : Event) : Decidable (Unpurged state event) :=
  match event with
  | .initializeQuarantine _ _ =>
      inferInstanceAs (Decidable (_ → _ → ∀ file ∈ state.directory.entries, _))
  | .quarantineFile _ => inferInstanceAs (Decidable (_ → _ → _))
  | .removeQuarantinedFiles _ => inferInstanceAs (Decidable True)

theorem map_consistent_letter :
    (run State.step (.create ⟨[letterAt 10, letterAt 20], letters_apart⟩)
      [.initializeQuarantine true .stable, .quarantineFile (quarantinesLetter 30)]).enabled = true ∧
    Consistent
      (run State.step (.create ⟨[letterAt 10, letterAt 20], letters_apart⟩)
        [.initializeQuarantine true .stable, .quarantineFile (quarantinesLetter 30)]).directory
      (run State.step (.create ⟨[letterAt 10, letterAt 20], letters_apart⟩)
        [.initializeQuarantine true .stable, .quarantineFile (quarantinesLetter 30)]).map :=
  ⟨by decide +kernel, map_consistent (by decide +kernel) (by decide +kernel)⟩

/-- The letter expires and is purged, and stays in the map. -/
theorem not_map_consistent :
    (run State.step (.create ⟨[letterAt 10], by decide +kernel⟩)
      [.initializeQuarantine true .stable, .quarantineFile (quarantinesLetter 4000)]).enabled = true ∧
    ¬ Consistent
      (run State.step (.create ⟨[letterAt 10], by decide +kernel⟩)
        [.initializeQuarantine true .stable, .quarantineFile (quarantinesLetter 4000)]).directory
      (run State.step (.create ⟨[letterAt 10], by decide +kernel⟩)
        [.initializeQuarantine true .stable, .quarantineFile (quarantinesLetter 4000)]).map := by
  refine ⟨by decide +kernel, fun consistent => ?_⟩
  obtain ⟨file, isFile, -, isName⟩ := (consistent "letter".toList (letterAt 10).name).mp
    (by decide +kernel)
  have isThere := Directory.mem_names.mpr ⟨file, isFile, isName⟩
  revert isThere
  decide +kernel

end FreeOnline.Wsd.QuarantineUtil
