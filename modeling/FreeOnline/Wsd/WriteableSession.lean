import FreeOnline.Wsd.StopSafety

/-!
# The session that saves and uploads

A session can store the document when it is loaded, editable and has a valid authorization. The
document owner and the last editing session are preferred to the others, whether they can or not.
-/

set_option autoImplicit false

namespace FreeOnline.Wsd

namespace ClientSession

def IsUsable (session : ClientSession) : Prop :=
  session.isViewLoaded = true ∧ session.isEditable = true ∧ session.isExpired = false

theorem isUsable_iff {session : ClientSession} : session.IsUsable ↔
    (session.isViewLoaded && session.isEditable && !session.isExpired) = true := by
  simp [IsUsable, and_assoc]

instance (session : ClientSession) : Decidable session.IsUsable :=
  decidable_of_iff _ isUsable_iff.symm

end ClientSession

namespace DocumentBroker

variable {broker : DocumentBroker}

/-- The calls of `stop` for lack of a session. -/
def givenUp (broker : DocumentBroker) : List StopCall :=
  broker.stops.filter (·.site = .noWritableSession)

/-- A usable session saves, a usable session uploads, and the broker does not give up. -/
structure UsesUsable (broker : DocumentBroker) : Prop where
  saving : ∃ session ∈ broker.autoSavingSession, session.IsUsable
  uploading : ∃ session ∈ broker.getWriteableSession, session.IsUsable
  goesOn : ∀ (env : Environment) (reason : String),
    (broker.autoSaveAndStop env reason).givenUp = broker.givenUp

/-- The preferred sessions are usable as well. -/
structure PreferredUsable (broker : DocumentBroker) : Prop where
  owner : ∀ session ∈ broker.sessions.find? (·.isDocumentOwner), session.IsUsable
  lastEditing : ∀ session ∈ broker.findSession broker.lastEditingSessionId,
    session.isEditable = true → session.isViewLoaded = true → session.isExpired = false

/-!
## The choice
-/

theorem choose_owner {sessions : List ClientSession} {owner : ClientSession}
    (found : sessions.find? (·.isDocumentOwner) = some owner)
    (savingSession : Option ClientSession) :
    getWriteableSession.choose savingSession sessions = some owner := by
  induction sessions generalizing savingSession with
  | nil => cases found
  | cons session sessions ih =>
      rw [getWriteableSession.choose]
      cases isOwner : session.isDocumentOwner with
      | true =>
          rw [List.find?_cons_of_pos isOwner] at found
          exact found
      | false =>
          have notOwner : ¬ session.isDocumentOwner = true := by rw [isOwner]; decide
          rw [List.find?_cons_of_neg notOwner] at found
          rw [if_neg (by decide)]
          split
          · exact ih found _
          · exact ih found _

/-- Without an owner, one usable session is enough. -/
theorem choose_usable {sessions : List ClientSession}
    (noOwner : sessions.find? (·.isDocumentOwner) = none) {savingSession : Option ClientSession}
    (usable : (∃ session ∈ savingSession, session.IsUsable) ∨
      ∃ session ∈ sessions, session.IsUsable) :
    ∃ session ∈ getWriteableSession.choose savingSession sessions, session.IsUsable := by
  induction sessions generalizing savingSession with
  | nil =>
      cases usable with
      | inl already => exact already
      | inr later =>
          obtain ⟨session, member, -⟩ := later
          exact absurd member List.not_mem_nil
  | cons session sessions ih =>
      rw [List.find?_cons] at noOwner
      rw [getWriteableSession.choose]
      cases isOwner : session.isDocumentOwner with
      | true => simp [isOwner] at noOwner
      | false =>
          rw [isOwner] at noOwner
          rw [if_neg (by decide)]
          by_cases isUsable : session.IsUsable
          · rw [if_pos (by rw [ClientSession.isUsable_iff.mp isUsable, Bool.or_true])]
            exact ih noOwner (.inl ⟨session, rfl, isUsable⟩)
          · have isLater : (∃ session ∈ savingSession, session.IsUsable) ∨
                ∃ session ∈ sessions, session.IsUsable := by
              cases usable with
              | inl already => exact .inl already
              | inr later =>
                  obtain ⟨other, member, otherUsable⟩ := later
                  cases member with
                  | head => exact absurd otherUsable isUsable
                  | tail _ member => exact .inr ⟨other, member, otherUsable⟩
            have passed := Bool.eq_false_iff.mpr (mt ClientSession.isUsable_iff.mpr isUsable)
            cases savingSession with
            | none =>
                obtain ⟨other, member, -⟩ | later := isLater
                · cases member
                · exact ih noOwner (.inr later)
            | some saving =>
                rw [passed, Option.isNone_some, Bool.or_false, if_neg (by decide)]
                exact ih noOwner isLater

/-- The session that uploads is usable exactly when there is no owner or the owner is. -/
theorem getWriteableSession_usable_iff (usable : ∃ session ∈ broker.sessions, session.IsUsable) :
    (∃ session ∈ broker.getWriteableSession, session.IsUsable) ↔
      ∀ session ∈ broker.sessions.find? (·.isDocumentOwner), session.IsUsable := by
  rw [getWriteableSession]
  cases found : broker.sessions.find? (·.isDocumentOwner) with
  | none =>
      have chosen := @choose_usable _ found none (.inr usable)
      exact iff_of_true chosen fun session isOwner => by cases isOwner
  | some owner =>
      rw [choose_owner found]
      constructor
      · intro chosen session isOwner
        obtain ⟨other, isChosen, isUsable⟩ := chosen
        cases isOwner
        cases isChosen
        exact isUsable
      · intro isUsable
        exact ⟨owner, rfl, isUsable owner rfl⟩

/-- The last editing session saves if it is editable and loaded, and else the one that uploads. -/
theorem autoSavingSession_usable_iff
    (uploading : ∃ session ∈ broker.getWriteableSession, session.IsUsable) :
    (∃ session ∈ broker.autoSavingSession, session.IsUsable) ↔
      ∀ session ∈ broker.findSession broker.lastEditingSessionId,
        session.isEditable = true → session.isViewLoaded = true → session.isExpired = false := by
  rw [autoSavingSession]
  cases found : broker.findSession broker.lastEditingSessionId with
  | none => exact iff_of_true uploading fun session isFound => by cases isFound
  | some lastEditing =>
      by_cases preferred : lastEditing.isEditable = true ∧ lastEditing.isViewLoaded = true
      · obtain ⟨editable, loaded⟩ := preferred
        dsimp only
        rw [if_pos (by rw [editable, loaded]; rfl)]
        constructor
        · intro chosen session isFound _ _
          obtain ⟨other, isChosen, isUsable⟩ := chosen
          cases isFound
          cases isChosen
          exact isUsable.2.2
        · intro valid
          exact ⟨lastEditing, rfl, loaded, editable, valid lastEditing rfl editable loaded⟩
      · dsimp only
        rw [if_neg (by rwa [Bool.and_eq_true])]
        refine iff_of_true uploading fun session isFound editable loaded => ?_
        cases isFound
        exact absurd ⟨editable, loaded⟩ preferred

/-!
## Giving up
-/

section GivingUp

variable {other : DocumentBroker} {env : Environment}

theorem givenUp_congr (same : other.stops = broker.stops) : other.givenUp = broker.givenUp := by
  rw [givenUp, same, givenUp]

theorem givenUp_stop {site : StopSite} (otherSite : site ≠ .noWritableSession) (reason : String) :
    (broker.stop site reason).givenUp = broker.givenUp := by
  simp [givenUp, stop, List.filter_append, otherSite]

theorem givenUp_stopIfUnloaded (session : ClientSession) :
    (broker.stopIfUnloaded session).givenUp = broker.givenUp := by
  have dropped : (broker.dropSession session).givenUp = broker.givenUp := by
    apply givenUp_congr
    unfold dropSession
    split
    · exact stops_disconnectSessionInternal session
    · rfl
  unfold stopIfUnloaded
  split
  · rfl
  · dsimp only
    split
    · rw [givenUp_stop (by decide), dropped]
    · exact dropped

theorem givenUp_checkAndUploadToStorage (session : ClientSession) :
    (broker.checkAndUploadToStorage env session).givenUp = broker.givenUp := by
  have uploaded (saved : DocumentBroker) :
      ((if broker.needToUploadToStorage then saved.uploadToStorage env session false
        else saved).stopIfUnloaded session).givenUp = saved.givenUp := by
    rw [givenUp_stopIfUnloaded]
    split
    · exact givenUp_congr (stops_congr (unloadState_uploadToStorage session false))
    · rfl
  unfold checkAndUploadToStorage
  dsimp only
  split
  · exact givenUp_congr (stops_congr unloadState_renameInStorage)
  · split
    · split
      · rfl
      · exact uploaded broker.endActivity
    · split
      · rfl
      · exact uploaded broker

theorem sessions_sendUnoSave (isAutosave : Bool) (extendedData : String) :
    (broker.sendUnoSave env isAutosave extendedData).2.sessions = broker.sessions := by
  unfold sendUnoSave
  dsimp only
  split <;> rfl

theorem sessions_autoSave (force : Bool) :
    (broker.autoSave env force).2.sessions = broker.sessions := by
  unfold autoSave
  split
  · rfl
  · dsimp only
    split
    · rfl
    · split
      · rfl
      · split
        · rfl
        · split
          · rw [sessions_sendUnoSave]
          · split
            · rw [sessions_sendUnoSave]
            · rfl

/-- With a session that can upload, the broker uploads or stops because nothing needs storing. -/
theorem givenUp_autoSaveAndStop
    (uploading : ∃ session ∈ broker.getWriteableSession, session.IsUsable) (reason : String) :
    (broker.autoSaveAndStop env reason).givenUp = broker.givenUp := by
  obtain ⟨session, isChosen, -, -, valid⟩ := uploading
  unfold autoSaveAndStop
  split
  · rfl
  · split
    · rfl
    · exact givenUp_stop (by decide) reason
    · split
      · have stops := @stops_autoSave broker env broker.isPossiblyModified
        have sessions := @sessions_autoSave broker env broker.isPossiblyModified
        split
        · next after sent =>
            rw [sent] at stops
            exact givenUp_congr stops
        · next after notSent =>
            rw [notSent] at stops sessions
            have chosen : after.getWriteableSession = some session := by
              rw [getWriteableSession, sessions]
              exact isChosen
            rw [chosen]
            dsimp only
            rw [valid, if_pos (by decide), givenUp_checkAndUploadToStorage]
            exact givenUp_congr stops
      · rfl

end GivingUp

/-!
## When the choice is right
-/

/-- When some session is usable, the document is stored with usable sessions exactly when the
preferred sessions are usable. -/
theorem usesUsable_iff (usable : ∃ session ∈ broker.sessions, session.IsUsable) :
    broker.UsesUsable ↔ broker.PreferredUsable := by
  constructor
  · intro ⟨saving, uploading, _⟩
    exact ⟨(getWriteableSession_usable_iff usable).mp uploading,
      (autoSavingSession_usable_iff uploading).mp saving⟩
  · intro ⟨owner, lastEditing⟩
    have uploading := (getWriteableSession_usable_iff usable).mpr owner
    exact ⟨(autoSavingSession_usable_iff uploading).mpr lastEditing, uploading,
      fun _ reason => givenUp_autoSaveAndStop uploading reason⟩

/-- Two editors, of whom the second one edited last. -/
def twoEditors : DocumentBroker :=
  { fresh 1 with
    sessions := [editor, { editor with id := "2" }]
    lastEditingSessionId := "2" }

theorem usesUsable_twoEditors : twoEditors.UsesUsable :=
  (usesUsable_iff ⟨editor, by decide, by decide⟩).mpr
    ⟨by decide, by decide⟩

/-- The token of the owner has expired, and the other editor could still upload. -/
def expiredOwner : DocumentBroker :=
  { fresh 1 with
    sessions := [{ editor with isExpired := true, isDocumentOwner := true },
      { editor with id := "2" }]
    lastEditingSessionId := "2" }

theorem not_usesUsable_expiredOwner :
    ¬ ∀ broker : DocumentBroker, (∃ session ∈ broker.sessions, session.IsUsable) →
      broker.UsesUsable := by
  intro all
  have usable : ∃ session ∈ expiredOwner.sessions, session.IsUsable :=
    ⟨{ editor with id := "2" }, by decide, by decide⟩
  obtain ⟨session, isChosen, -, -, valid⟩ := (all expiredOwner usable).uploading
  have isOwner : expiredOwner.getWriteableSession =
      some { editor with isExpired := true, isDocumentOwner := true } := by decide
  rw [isOwner] at isChosen
  cases isChosen
  cases valid

end DocumentBroker

end FreeOnline.Wsd
