import FreeOnline.Wsd.StorageAttributes
import Mathlib.Data.List.Induction

/-!
# Which attributes an upload carries

The flags add up until an upload of the document has succeeded, and of the extended data the
newest counts.
-/

set_option autoImplicit false

namespace FreeOnline.Wsd

open FreeOnline.Library

/-!
## The flags
-/

structure Flags where
  forced : Bool
  isUserModified : Bool
deriving DecidableEq

namespace Flags

instance : CommMonoid Flags where
  mul flags other := ⟨flags.forced || other.forced, flags.isUserModified || other.isUserModified⟩
  one := ⟨false, false⟩
  mul_assoc first second third :=
    congrArg₂ Flags.mk (Bool.or_assoc ..) (Bool.or_assoc ..)
  one_mul flags := rfl
  mul_one flags := congrArg₂ Flags.mk (Bool.or_false _) (Bool.or_false _)
  mul_comm flags other := congrArg₂ Flags.mk (Bool.or_comm ..) (Bool.or_comm ..)

def ofAttributes (attrs : Attributes) : Flags := ⟨attrs.forced, attrs.isUserModified⟩

/-- What a save adds are the flags that the broker has noted when it is answered. -/
def attributePart : AttributePart Flags where
  part := ofAttributes
  answered attrs _ := ofAttributes attrs
  part_reset := rfl
  part_merge attrs lhs := by
    have either : ∀ flag other : Bool, (if other = true then true else flag) = (flag || other) := by
      decide
    exact congrArg₂ Flags.mk (either ..) (either ..)
  part_uploading attrs isExitSave force := by
    have either : ∀ flag other : Bool, (if other = true then true else flag) = (flag || other) := by
      decide
    exact congrArg₂ Flags.mk (either ..) (Bool.or_false _).symm

end Flags

namespace AttributesRun

/-- An attempt that sends no attributes takes no flag out of the slots. -/
def RetainsFlags (state : AttributesRun Flags) : AttributesEvent → Prop
  | .upload session force env =>
      state.broker.passesThrottle force = true →
        state.broker.attemptsUpload session "" false force = true →
          KeepsSlots Flags.attributePart state.broker force (state.broker.startsRequest env "" "")
  | .uploadAs session uploadAsPath uploadAsFilename isRename _ env =>
      state.broker.attemptsUpload session uploadAsPath isRename false = true →
        KeepsSlots Flags.attributePart state.broker false
          (DocumentBroker.sendsAttributes uploadAsPath uploadAsFilename isRename &&
            state.broker.startsRequest env uploadAsPath uploadAsFilename)
  | .finished result _ _ =>
      state.broker.uploadStarted = true → result = .ok →
        ∀ request ∈ state.broker.uploadRequest, ∀ session ∈ state.broker.renamesAfter request,
          session.isEditable = true → Flags.ofAttributes state.broker.currentStorageAttrs = 1
  | _ => True

instance (state : AttributesRun Flags) : (event : AttributesEvent) →
    Decidable (state.RetainsFlags event)
  | .upload .. => inferInstanceAs (Decidable (_ → _ → _))
  | .uploadAs .. => inferInstanceAs (Decidable (_ → _))
  | .finished .. => inferInstanceAs (Decidable (_ → _ → ∀ _ ∈ _, ∀ _ ∈ _, _ → _))
  | .save .. | .clientSave | .saveResponse .. | .responseDropped | .kitSaved _ | .templateLoaded
  | .other _ => .isTrue trivial

/-- Flags are merged in any order, and a save adds just what is merged. -/
private theorem keeps_iff_retainsFlags (state : AttributesRun Flags) (event : AttributesEvent) :
    state.Keeps Flags.attributePart event ↔ state.RetainsFlags event := by
  cases event with
  | saveResponse success unmodified wasModified => exact iff_of_true (fun _ _ => rfl) trivial
  | finished result reported env =>
      unfold Keeps RetainsFlags
      dsimp only
      by_cases ok : result = .ok
      · rw [if_pos ok, imp_iff_right ok]
        exact Iff.rfl
      · rw [if_neg ok]
        exact iff_of_true (fun _ => mul_comm ..) (fun _ isOk => absurd isOk ok)
  | _ => exact Iff.rfl

/-- What an attempt at an upload carries are the flags of all that was answered or tried
since the last success, and those are the ones in the header of its request. It is so after
every step of exactly the runs in which no attempt takes flags out of the slots without
sending them. -/
theorem run_flags_retained_iff (initial : AttributesRun Flags) (events : List AttributesEvent)
    (requested : initial.Requested) (carries : initial.Carries Flags.attributePart) :
    (∀ before event after, events = before ++ event :: after →
        ((run (step Flags.attributePart) initial before).step Flags.attributePart event).Carries
          Flags.attributePart) ↔
      Permitted (step Flags.attributePart) RetainsFlags initial events := by
  rw [run_carries_iff Flags.attributePart initial events requested carries]
  exact permitted_congr (fun _ => True) (fun _ _ _ _ => trivial)
    (fun state event _ => keeps_iff_retainsFlags state event) trivial

def newRun (Item : Type) : AttributesRun Item := ⟨DocumentBroker.fresh 1, [], .empty⟩

/-- A save of the user whose upload fails once and is tried again. -/
theorem run_flags_retained_retried :
    let events := [.save false "" DocumentBroker.responsive, .kitSaved 10,
      .saveResponse true false (some true),
      .upload DocumentBroker.editor true DocumentBroker.responsive,
      .finished .failed none DocumentBroker.responsive,
      .upload DocumentBroker.editor true DocumentBroker.responsive,
      .finished .ok none DocumentBroker.responsive]
    ∀ before event after, events = before ++ event :: after →
      ((run (step Flags.attributePart) (newRun Flags) before).step Flags.attributePart
        event).Carries Flags.attributePart :=
  (run_flags_retained_iff (newRun Flags) _ nofun ⟨⟨rfl, nofun, fun _ => rfl⟩, nofun⟩).mpr
    (by decide)

/-- The upload of a save of the user throws, and the next one that is sent says that the
document was not modified by a user. -/
theorem run_thrown_upload_loses_flags :
    let thrown := run (step Flags.attributePart) (newRun Flags)
      [.save false "" DocumentBroker.responsive, .kitSaved 10,
        .saveResponse true false (some true),
        .upload DocumentBroker.editor false { DocumentBroker.responsive with outcome := .throwsEarly }]
    let retried := run (step Flags.attributePart) thrown
      [.other (thrown.broker.step (.tick 60000000000)),
        .upload DocumentBroker.editor false DocumentBroker.responsive]
    thrown.broker.lastStorageAttrs.isUserModified = true ∧ thrown.broker.uploadStarted = false ∧
      ¬thrown.Carries Flags.attributePart ∧ retried.broker.uploadStarted = true ∧
      retried.broker.lastStorageAttrs.isUserModified = false ∧
      (retried.broker.sentAttributes.map fun attribs => attribs.isUserModified) = some false := by
  decide

end AttributesRun

/-!
## The extended data
-/

structure ExtendedData where
  data : String
deriving DecidableEq

namespace ExtendedData

instance : Monoid ExtendedData where
  mul older newer := if newer.data ≠ "" then newer else older
  one := ⟨""⟩
  mul_assoc first second third := by
    show (if third.data ≠ "" then third else if second.data ≠ "" then second else first) =
      if (if third.data ≠ "" then third else second).data ≠ "" then
        if third.data ≠ "" then third else second
      else first
    by_cases newest : third.data = ""
    · simp [newest]
    · simp [newest]
  one_mul newer := by
    obtain ⟨data⟩ := newer
    show (if data ≠ "" then (⟨data⟩ : ExtendedData) else ⟨""⟩) = ⟨data⟩
    by_cases empty : data = ""
    · simp [empty]
    · simp [empty]
  mul_one older := rfl

theorem mul_def (older newer : ExtendedData) :
    older * newer = if newer.data ≠ "" then newer else older := rfl

theorem one_def : (1 : ExtendedData) = ⟨""⟩ := rfl

/-- What a save adds is the extended data that it was asked with. -/
def attributePart : AttributePart ExtendedData where
  part attrs := ⟨attrs.extendedData⟩
  answered _ data := ⟨data⟩
  part_reset := rfl
  part_merge attrs lhs := by
    rw [mul_def]
    unfold Attributes.merge
    dsimp only
    split <;> rfl
  part_uploading attrs isExitSave force := (mul_one _).symm

end ExtendedData

namespace AttributesRun

/-- A save is answered while its extended data, or what comes to the same, is the next; an
attempt that sends no attributes takes no extended data out of the slots; and an upload does
not fail that carried other data than was answered since. -/
def KeepsNewest (state : AttributesRun ExtendedData) : AttributesEvent → Prop
  | .saveResponse .. => ∀ data ∈ state.asked.head?,
      let next := state.broker.nextStorageAttrs.extendedData
      next = data ∨ data = "" ∧ next = state.broker.currentStorageAttrs.extendedData ∨
        next = "" ∧ data = state.broker.currentStorageAttrs.extendedData
  | .upload session force env =>
      state.broker.passesThrottle force = true →
        state.broker.attemptsUpload session "" false force = true →
          KeepsSlots ExtendedData.attributePart state.broker force
            (state.broker.startsRequest env "" "")
  | .uploadAs session uploadAsPath uploadAsFilename isRename _ env =>
      state.broker.attemptsUpload session uploadAsPath isRename false = true →
        KeepsSlots ExtendedData.attributePart state.broker false
          (DocumentBroker.sendsAttributes uploadAsPath uploadAsFilename isRename &&
            state.broker.startsRequest env uploadAsPath uploadAsFilename)
  | .finished result _ _ => state.broker.uploadStarted = true →
      let current := state.broker.currentStorageAttrs.extendedData
      let last := state.broker.lastStorageAttrs.extendedData
      (result = .ok → ∀ request ∈ state.broker.uploadRequest,
        ∀ session ∈ state.broker.renamesAfter request, session.isEditable = true → current = "") ∧
      (result ≠ .ok → current = "" ∨ last = "" ∨ current = last)
  | _ => True

instance (state : AttributesRun ExtendedData) : (event : AttributesEvent) →
    Decidable (state.KeepsNewest event)
  | .saveResponse .. => inferInstanceAs (Decidable (∀ _ ∈ _, _))
  | .upload .. => inferInstanceAs (Decidable (_ → _ → _))
  | .uploadAs .. => inferInstanceAs (Decidable (_ → _))
  | .finished .. => inferInstanceAs (Decidable (_ → (_ → ∀ _ ∈ _, ∀ _ ∈ _, _ → _) ∧ (_ → _)))
  | .save .. | .clientSave | .responseDropped | .kitSaved _ | .templateLoaded
  | .other _ => .isTrue trivial

private theorem mul_eq_mul_iff (current next data : String) :
    (⟨current⟩ : ExtendedData) * ⟨next⟩ = ⟨current⟩ * ⟨data⟩ ↔
      next = data ∨ data = "" ∧ next = current ∨ next = "" ∧ data = current := by
  rw [ExtendedData.mul_def, ExtendedData.mul_def]
  by_cases noNext : next = ""
  · by_cases noData : data = ""
    · simp [noNext, noData]
    · simp [noNext, noData, eq_comm]
  · by_cases noData : data = ""
    · simp [noNext, noData]
    · simp [noNext, noData]

private theorem mul_comm_iff (current last : String) :
    (⟨current⟩ : ExtendedData) * ⟨last⟩ = ⟨last⟩ * ⟨current⟩ ↔
      current = "" ∨ last = "" ∨ current = last := by
  rw [ExtendedData.mul_def, ExtendedData.mul_def]
  by_cases noCurrent : current = ""
  · by_cases noLast : last = ""
    · simp [noCurrent, noLast]
    · simp [noCurrent, noLast]
  · by_cases noLast : last = ""
    · simp [noCurrent, noLast]
    · simp [noCurrent, noLast, eq_comm]

private theorem keeps_iff_keepsNewest (state : AttributesRun ExtendedData)
    (event : AttributesEvent) :
    state.Keeps ExtendedData.attributePart event ↔ state.KeepsNewest event := by
  cases event with
  | saveResponse success unmodified wasModified =>
      have isNext : (state.broker.answeredAttrs wasModified).extendedData =
          state.broker.nextStorageAttrs.extendedData := by
        cases wasModified <;> rfl
      refine forall₂_congr fun data _ => ?_
      rw [← mul_eq_mul_iff, ← isNext]
      exact Iff.rfl
  | finished result reported env =>
      refine forall_congr' fun _ => ?_
      dsimp only
      by_cases ok : result = .ok
      · rw [if_pos ok, imp_iff_right ok, and_iff_left (absurd ok)]
        simp only [ExtendedData.attributePart, ExtendedData.one_def, ExtendedData.mk.injEq]
      · rw [if_neg ok, imp_iff_right ok, and_iff_right fun isOk => absurd isOk ok]
        exact mul_comm_iff ..
  | _ => exact Iff.rfl

/-- What an attempt at an upload carries is the extended data of the last save that was
answered, has any and was not uploaded, and that is in the header of its request. It is so
after every step of exactly the runs in which nothing is taken out of the slots without being
sent, each save adds what it was asked with, and no newer data waits when an upload with other
data fails. -/
theorem run_extendedData_newest_iff (initial : AttributesRun ExtendedData)
    (events : List AttributesEvent) (requested : initial.Requested)
    (carries : initial.Carries ExtendedData.attributePart) :
    (∀ before event after, events = before ++ event :: after →
        ((run (step ExtendedData.attributePart) initial before).step ExtendedData.attributePart
          event).Carries ExtendedData.attributePart) ↔
      Permitted (step ExtendedData.attributePart) KeepsNewest initial events := by
  rw [run_carries_iff ExtendedData.attributePart initial events requested carries]
  exact permitted_congr (fun _ => True) (fun _ _ _ _ => trivial)
    (fun state event _ => keeps_iff_keepsNewest state event) trivial

/-- The upload of a save with extended data fails, a save without any follows, and then both
are uploaded. -/
theorem run_extendedData_newest_retried :
    let events := [.save false "a" DocumentBroker.responsive, .kitSaved 10,
      .saveResponse true false none,
      .upload DocumentBroker.editor true DocumentBroker.responsive,
      .finished .failed none DocumentBroker.responsive, .clientSave, .kitSaved 20,
      .saveResponse true false none,
      .upload DocumentBroker.editor true DocumentBroker.responsive,
      .finished .ok none DocumentBroker.responsive]
    ∀ before event after, events = before ++ event :: after →
      ((run (step ExtendedData.attributePart) (newRun ExtendedData) before).step
        ExtendedData.attributePart event).Carries ExtendedData.attributePart :=
  (run_extendedData_newest_iff (newRun ExtendedData) _ nofun
    ⟨⟨rfl, nofun, fun _ => rfl⟩, nofun⟩).mpr (by decide)

/-- A save with extended data is answered while that of an older one is uploaded for the
second time, so that its own upload is put off. As the upload fails, the older data is back
and is uploaded again. -/
theorem run_failed_upload_replaces_newer :
    let failedOnce := run (step ExtendedData.attributePart) (newRun ExtendedData)
      [.save false "old" DocumentBroker.responsive, .kitSaved 10, .saveResponse true false none,
        .upload DocumentBroker.editor false DocumentBroker.responsive,
        .finished .failed none DocumentBroker.responsive]
    let failedTwice := run (step ExtendedData.attributePart) failedOnce
      [.other (failedOnce.broker.step (.tick 60000000000)),
        .upload DocumentBroker.editor false DocumentBroker.responsive,
        .save false "new" DocumentBroker.responsive, .kitSaved 20, .saveResponse true false none,
        .upload DocumentBroker.editor false DocumentBroker.responsive,
        .finished .failed none DocumentBroker.responsive]
    let retried := run (step ExtendedData.attributePart) failedTwice
      [.other (failedTwice.broker.step (.tick 60000000000)),
        .upload DocumentBroker.editor false DocumentBroker.responsive]
    ¬failedTwice.Carries ExtendedData.attributePart ∧
      failedTwice.outbox.waiting.prod = ⟨"new"⟩ ∧ retried.broker.uploadStarted = true ∧
      retried.broker.lastStorageAttrs.extendedData = "old" ∧
      (retried.broker.sentAttributes.map fun attribs => attribs.extendedData) = some "old" := by
  decide

end AttributesRun

end FreeOnline.Wsd
