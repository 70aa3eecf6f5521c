import FreeOnline.Library.Keyed
import FreeOnline.Library.Run
import FreeOnline.Library.Text

/-!
# Documents and views of the admin console

Which documents are open, and which sessions view them. Expired views stay with their document,
and expired documents are kept apart.
-/

set_option autoImplicit false

namespace FreeOnline.Wsd.Admin

open FreeOnline.Library

/-!
## Views and documents
-/

/-- A view, and when it expired. Zero stands for never. -/
structure View where
  sessionId : Text
  ended : Nat
deriving DecidableEq

namespace View

def expire (view : View) (now : Nat) : View :=
  { view with ended := now }

def isExpired (view : View) (now : Nat) : Bool :=
  view.ended ≠ 0 && now ≥ view.ended

end View

structure Document where
  docKey : Text
  activeViews : UInt32
  views : Keyed View.sessionId
  ended : Nat

namespace Document

def create (docKey : Text) : Document where
  docKey := docKey
  activeViews := 0
  views := .empty
  ended := 0

def isExpired (doc : Document) (now : Nat) : Bool :=
  doc.ended ≠ 0 && now ≥ doc.ended

/-- A view that already exists is left as it is. -/
def addView (doc : Document) (sessionId : Text) : Document :=
  match doc.views.find? sessionId with
  | some _ => doc
  | none =>
      { doc with
        views := doc.views.insert ⟨sessionId, 0⟩
        activeViews := doc.activeViews + 1 }

def expired (sessionId : Text) (now : Nat) (view : View) : View :=
  if view.sessionId = sessionId then view.expire now else view

theorem sessionId_expired (sessionId : Text) (now : Nat) (view : View) :
    (expired sessionId now view).sessionId = view.sessionId := by
  unfold expired
  split
  · rfl
  · rfl

/-- If it is the last view, the document expires also. What is returned is `activeViews`. -/
def expireView (doc : Document) (now : Nat) (sessionId : Text) : Document :=
  match doc.views.find? sessionId with
  | none => doc
  | some _ =>
      { doc with
        views := doc.views.update (expired sessionId now) (sessionId_expired sessionId now)
        activeViews := doc.activeViews - 1
        ended := if doc.activeViews - 1 = 0 then now else doc.ended }

/-- What the metrics take for the number of expired views. -/
def expiredViewsCount (doc : Document) : UInt64 :=
  UInt64.ofNat doc.views.entries.length - doc.activeViews.toUInt64

end Document

/-!
## The model
-/

structure AdminModel where
  documents : Keyed Document.docKey
  /-- Under the key of the document, with the time of its removal behind it. -/
  expiredDocuments : Keyed (Prod.fst : Text × Document → Text)

namespace AdminModel

def empty : AdminModel := ⟨.empty, .empty⟩

def addDocument (model : AdminModel) (docKey sessionId : Text) : AdminModel :=
  match model.documents.find? docKey with
  | some doc => { model with documents := model.documents.replace (doc.addView sessionId) }
  | none =>
      { model with
        documents := model.documents.insert ((Document.create docKey).addView sessionId) }

/-- The time is that of the steady clock. -/
def doRemove (model : AdminModel) (doc : Document) (nanoseconds : Nat) : AdminModel where
  documents := model.documents.filter fun other => other.docKey ≠ doc.docKey
  expiredDocuments := model.expiredDocuments.insert (doc.docKey ++ printInt nanoseconds, doc)

/-- `removeDocument`, of one session. -/
def removeSession (model : AdminModel) (now nanoseconds : Nat) (docKey sessionId : Text) :
    AdminModel :=
  match model.documents.find? docKey with
  | none => model
  | some doc =>
      if doc.isExpired now then model
      else
        let doc := doc.expireView now sessionId
        if doc.activeViews = 0 then model.doRemove doc nanoseconds
        else { model with documents := model.documents.replace doc }

/-- `removeDocument`, of the whole document. -/
def removeDocument (model : AdminModel) (now nanoseconds : Nat) (docKey : Text) : AdminModel :=
  match model.documents.find? docKey with
  | none => model
  | some doc =>
      let sessionIds := doc.views.entries.map View.sessionId
      model.doRemove (sessionIds.foldl (fun doc sessionId => doc.expireView now sessionId) doc)
        nanoseconds

end AdminModel

/-!
## Counting views
-/

namespace Document

/-- The number of views that are not expired. -/
def unexpiredViews (doc : Document) (now : Nat) : Nat :=
  doc.views.sum fun view => if view.isExpired now then 0 else 1

/-- What is counted fits the views. -/
structure Accounts (doc : Document) (now : Nat) : Prop where
  active : doc.activeViews.toNat = doc.unexpiredViews now
  expired : doc.views.entries.length < 2 ^ 64 →
    doc.expiredViewsCount.toNat = (doc.views.entries.filter fun view => view.isExpired now).length

/-- No view expired later than now. -/
def Past (doc : Document) (now : Nat) : Prop :=
  ∀ view ∈ doc.views, view.ended ≤ now

variable {doc : Document} {now after : Nat} {sessionId : Text}

theorem isExpired_of_past {view : View} (past : view.ended ≤ now) :
    view.isExpired now = decide (view.ended ≠ 0) := by
  simp only [View.isExpired, ge_iff_le, past, decide_true, Bool.and_true]

theorem Past.later (past : doc.Past now) (since : now ≤ after) : doc.Past after :=
  fun view member => Nat.le_trans (past view member) since

theorem unexpiredViews_later (past : doc.Past now) (since : now ≤ after) :
    doc.unexpiredViews after = doc.unexpiredViews now := by
  have same : ∀ view ∈ doc.views.entries, (if view.isExpired after then 0 else 1) =
      if view.isExpired now then 0 else 1 := by
    intro view member
    rw [isExpired_of_past (past view member), isExpired_of_past (past.later since view member)]
  exact congrArg List.sum (List.map_congr_left same)

theorem length_views (doc : Document) (now : Nat) :
    (doc.views.entries.filter fun view => view.isExpired now).length + doc.unexpiredViews now =
      doc.views.entries.length := by
  unfold unexpiredViews Keyed.sum
  induction doc.views.entries with
  | nil => rfl
  | cons view views ih =>
      cases ended : view.isExpired now with
      | true =>
          simp only [List.filter_cons, ended, ↓reduceIte, List.length_cons, List.map_cons,
            List.sum_cons]
          omega
      | false =>
          simp only [List.filter_cons, ended, Bool.false_eq_true, ↓reduceIte, List.length_cons,
            List.map_cons, List.sum_cons]
          omega

/-- The number of the metrics is right if the other one is. -/
theorem Accounts.of_active (active : doc.activeViews.toNat = doc.unexpiredViews now) :
    doc.Accounts now := by
  refine ⟨active, fun short => ?_⟩
  have total := doc.length_views now
  have isLess : doc.activeViews.toUInt64 ≤ UInt64.ofNat doc.views.entries.length := by
    rw [UInt64.le_iff_toNat_le, UInt32.toNat_toUInt64, UInt64.toNat_ofNat',
      Nat.mod_eq_of_lt short]
    omega
  rw [expiredViewsCount, UInt64.toNat_sub_of_le _ _ isLess, UInt32.toNat_toUInt64,
    UInt64.toNat_ofNat', Nat.mod_eq_of_lt short]
  omega

/-!
## What an operation does to the count
-/

theorem addView_known {view : View} (known : doc.views.find? sessionId = some view) :
    doc.addView sessionId = doc := by
  simp only [addView, known]

theorem unexpiredViews_addView (missing : doc.views.find? sessionId = none) :
    (doc.addView sessionId).unexpiredViews now = doc.unexpiredViews now + 1 := by
  have grown : (doc.views.insert ⟨sessionId, 0⟩).sum (fun view : View =>
      if view.isExpired now then 0 else 1) = doc.unexpiredViews now + 1 :=
    Keyed.sum_insert_new missing
  simp only [unexpiredViews, addView, missing] at grown ⊢
  exact grown

theorem mem_addView {view : View} :
    view ∈ (doc.addView sessionId).views → view ∈ doc.views ∨ view = ⟨sessionId, 0⟩ := by
  intro member
  cases known : doc.views.find? sessionId with
  | some old =>
      rw [addView_known known] at member
      exact .inl member
  | none =>
      simp only [addView, known] at member
      exact (Keyed.mem_insert_new known).mp member

theorem mem_addView_of_mem {view : View} (member : view ∈ doc.views) :
    view ∈ (doc.addView sessionId).views := by
  cases known : doc.views.find? sessionId with
  | some old => rwa [addView_known known]
  | none =>
      simp only [addView, known]
      exact (Keyed.mem_insert_new known).mpr (.inl member)

theorem expireView_unknown (unknown : doc.views.find? sessionId = none) :
    doc.expireView now sessionId = doc := by
  simp only [expireView, unknown]

@[simp] theorem docKey_addView (doc : Document) (sessionId : Text) :
    (doc.addView sessionId).docKey = doc.docKey := by
  unfold addView
  split
  · rfl
  · rfl

@[simp] theorem ended_addView (doc : Document) (sessionId : Text) :
    (doc.addView sessionId).ended = doc.ended := by
  unfold addView
  split
  · rfl
  · rfl

@[simp] theorem docKey_expireView (doc : Document) (now : Nat) (sessionId : Text) :
    (doc.expireView now sessionId).docKey = doc.docKey := by
  unfold expireView
  split
  · rfl
  · rfl

/-- Only a view that was not expired yet is one less afterwards. -/
theorem unexpiredViews_expireView {view : View} (known : doc.views.find? sessionId = some view)
    (started : 0 < now) :
    (doc.expireView now sessionId).unexpiredViews now + (if view.isExpired now then 0 else 1) =
      doc.unexpiredViews now := by
  obtain ⟨member, rfl⟩ := Keyed.find?_some known
  have others : ∀ other : View, other.sessionId ≠ view.sessionId →
      expired view.sessionId now other = other := fun other different => if_neg different
  have moved := @Keyed.sum_update View Text View.sessionId
    (fun view => if view.isExpired now then 0 else 1) doc.views (expired view.sessionId now)
    (sessionId_expired view.sessionId now) view member others
  have gone : (expired view.sessionId now view).isExpired now = true := by
    simp [expired, View.expire, View.isExpired, Nat.pos_iff_ne_zero.mp started]
  rw [gone] at moved
  simp only [expireView, known, unexpiredViews] at moved ⊢
  exact moved

/-- What holds of every document as long as the count is right. -/
structure Tracked (doc : Document) (now : Nat) : Prop where
  past : doc.Past now
  active : doc.activeViews.toNat = doc.unexpiredViews now

namespace Tracked

theorem later (tracked : doc.Tracked now) (since : now ≤ after) : doc.Tracked after where
  past := tracked.past.later since
  active := tracked.active.trans (unexpiredViews_later tracked.past since).symm

theorem create (docKey : Text) (now : Nat) : (Document.create docKey).Tracked now where
  past := fun _ member => absurd member (Keyed.not_mem_empty _)
  active := rfl

theorem addView (tracked : doc.Tracked now) (missing : doc.views.find? sessionId = none)
    (room : doc.unexpiredViews now + 1 < 2 ^ 32) : (doc.addView sessionId).Tracked now where
  past := by
    intro view member
    cases mem_addView member with
    | inl old => exact tracked.past view old
    | inr new =>
        cases new
        exact Nat.zero_le now
  active := by
    have counted : (doc.addView sessionId).activeViews = doc.activeViews + 1 := by
      simp only [Document.addView, missing]
    have one : (1 : UInt32).toNat = 1 := rfl
    rw [counted, UInt32.toNat_add, tracked.active, one, Nat.mod_eq_of_lt room,
      unexpiredViews_addView missing]

/-- The view was not expired. -/
theorem expireView (tracked : doc.Tracked now) (started : 0 < now) {view : View}
    (known : doc.views.find? sessionId = some view) (active : view.isExpired now = false) :
    (doc.expireView now sessionId).Tracked now ∧
      (doc.expireView now sessionId).unexpiredViews now + 1 = doc.unexpiredViews now := by
  have one : (1 : UInt32).toNat = 1 := rfl
  have less : (doc.expireView now sessionId).unexpiredViews now + 1 = doc.unexpiredViews now := by
    have moved := unexpiredViews_expireView known started
    rwa [active] at moved
  have counted : (doc.expireView now sessionId).activeViews = doc.activeViews - 1 := by
    simp only [Document.expireView, known]
  have some : 1 ≤ doc.activeViews := by
    rw [UInt32.le_iff_toNat_le, tracked.active, ← less, one]
    exact Nat.le_add_left 1 _
  refine ⟨⟨?_, ?_⟩, less⟩
  · intro other member
    simp only [Document.expireView, known, Keyed.mem_update] at member
    obtain ⟨old, oldMember, rfl⟩ := member
    unfold expired
    split
    · exact Nat.le_refl now
    · exact tracked.past old oldMember
  · rw [counted, UInt32.toNat_sub_of_le _ _ some, tracked.active, ← less, one, Nat.add_sub_cancel]

end Tracked

@[simp] theorem docKey_expireViews (doc : Document) (now : Nat) (sessionIds : List Text) :
    (sessionIds.foldl (fun doc sessionId => doc.expireView now sessionId) doc).docKey =
      doc.docKey := by
  induction sessionIds generalizing doc with
  | nil => rfl
  | cons sessionId sessionIds ih =>
      rw [List.foldl_cons, ih, docKey_expireView]

theorem find?_expireView_of_ne {other : Text} (different : other ≠ sessionId) {view : View}
    (known : doc.views.find? other = some view) :
    (doc.expireView now sessionId).views.find? other = some view := by
  obtain ⟨member, rfl⟩ := Keyed.find?_some known
  cases found : doc.views.find? sessionId with
  | none => rwa [expireView_unknown found]
  | some removed =>
      simp only [expireView, found]
      exact Keyed.find?_eq_some_iff.mpr
        ⟨(Keyed.mem_update _).mpr ⟨view, member, if_neg different⟩, rfl⟩

/-- One view after the other expires, each for the first time. -/
theorem Tracked.expireViews (started : 0 < now) {sessionIds : List Text}
    (distinct : sessionIds.Nodup) (tracked : doc.Tracked now)
    (active : ∀ sessionId ∈ sessionIds, ∃ view,
      doc.views.find? sessionId = some view ∧ view.isExpired now = false) :
    let last := sessionIds.foldl (fun doc sessionId => doc.expireView now sessionId) doc
    last.Tracked now ∧ last.unexpiredViews now + sessionIds.length = doc.unexpiredViews now := by
  induction sessionIds generalizing doc with
  | nil => exact ⟨tracked, rfl⟩
  | cons sessionId sessionIds ih =>
      obtain ⟨notLater, distinct⟩ := List.nodup_cons.mp distinct
      obtain ⟨view, known, isActive⟩ := active sessionId List.mem_cons_self
      obtain ⟨trackedNext, less⟩ := tracked.expireView started known isActive
      have stillActive : ∀ other ∈ sessionIds, ∃ view,
          (doc.expireView now sessionId).views.find? other = some view ∧
            view.isExpired now = false := by
        intro other member
        obtain ⟨otherView, otherKnown, otherActive⟩ := active other (List.mem_cons_of_mem _ member)
        have different : other ≠ sessionId := fun same => notLater (same ▸ member)
        exact ⟨otherView, find?_expireView_of_ne different otherKnown, otherActive⟩
      obtain ⟨trackedLast, total⟩ := ih distinct trackedNext stillActive
      refine ⟨trackedLast, ?_⟩
      rw [List.length_cons, ← Nat.add_assoc, List.foldl_cons, total, less]

theorem unexpiredViews_eq_zero_iff :
    doc.unexpiredViews now = 0 ↔ ∀ view ∈ doc.views, view.isExpired now = true := by
  have total := doc.length_views now
  refine Iff.trans ?_ List.length_filter_eq_length_iff
  constructor
  · intro none
    rwa [none, Nat.add_zero] at total
  · intro all
    exact Nat.add_eq_left.mp (all ▸ total)

end Document

/-!
## Operations of the brokers
-/

inductive Operation
  | addDocument (docKey sessionId : Text)
  | removeSession (docKey sessionId : Text)
  | removeDocument (docKey : Text)

namespace Operation

/-- That this view of this document is over. -/
def Removes : Operation → Text → Text → Prop
  | .addDocument _ _, _, _ => False
  | .removeSession docKey sessionId, ofDocument, ofSession =>
      docKey = ofDocument ∧ sessionId = ofSession
  | .removeDocument docKey, ofDocument, _ => docKey = ofDocument

/-- No view is removed a second time, and the views can be counted. -/
def Allowed (model : AdminModel) (now : Nat) : Operation → Prop
  | .addDocument docKey sessionId =>
      ∀ doc ∈ model.documents.entries, doc.docKey = docKey →
        doc.views.find? sessionId = none → doc.unexpiredViews now + 1 < 2 ^ 32
  | .removeSession docKey sessionId =>
      ∀ doc ∈ model.documents.entries, doc.docKey = docKey →
        ∀ view ∈ doc.views.entries, view.sessionId = sessionId → view.isExpired now = false
  | .removeDocument docKey =>
      ∀ doc ∈ model.documents.entries, doc.docKey = docKey →
        ∀ view ∈ doc.views.entries, view.isExpired now = false

instance (model : AdminModel) (now : Nat) (operation : Operation) :
    Decidable (operation.Allowed model now) :=
  match operation with
  | .addDocument _ _ => inferInstanceAs (Decidable (∀ _ ∈ _, _))
  | .removeSession _ _ => inferInstanceAs (Decidable (∀ _ ∈ _, _))
  | .removeDocument _ => inferInstanceAs (Decidable (∀ _ ∈ _, _))

end Operation

namespace AdminModel

def perform (model : AdminModel) (now nanoseconds : Nat) : Operation → AdminModel
  | .addDocument docKey sessionId => model.addDocument docKey sessionId
  | .removeSession docKey sessionId => model.removeSession now nanoseconds docKey sessionId
  | .removeDocument docKey => model.removeDocument now nanoseconds docKey

/-- The documents with their views that are not expired. -/
def Views (model : AdminModel) (now : Nat) (docKey sessionId : Text) : Prop :=
  ∃ doc ∈ model.documents, doc.docKey = docKey ∧
    ∃ view ∈ doc.views, view.sessionId = sessionId ∧ view.isExpired now = false

/-- Why the count stays right. -/
structure Sound (model : AdminModel) (now : Nat) : Prop where
  listed : ∀ doc ∈ model.documents,
    doc.Tracked now ∧ doc.ended = 0 ∧ 0 < doc.unexpiredViews now
  removed : ∀ entry ∈ model.expiredDocuments,
    entry.2.Tracked now ∧ entry.2.unexpiredViews now = 0

variable {model : AdminModel} {now after nanoseconds : Nat} {docKey sessionId : Text}

theorem Sound.later (sound : model.Sound now) (since : now ≤ after) : model.Sound after where
  listed := by
    intro doc member
    obtain ⟨tracked, running, some⟩ := sound.listed doc member
    refine ⟨tracked.later since, running, ?_⟩
    rwa [Document.unexpiredViews_later tracked.past since]
  removed := by
    intro entry member
    obtain ⟨tracked, none⟩ := sound.removed entry member
    exact ⟨tracked.later since, (Document.unexpiredViews_later tracked.past since).trans none⟩

theorem Views.later (sound : model.Sound now) (since : now ≤ after)
    (views : model.Views now docKey sessionId) : model.Views after docKey sessionId := by
  obtain ⟨doc, member, sameDoc, view, viewMember, sameSession, active⟩ := views
  refine ⟨doc, member, sameDoc, view, viewMember, sameSession, ?_⟩
  obtain ⟨tracked, -, -⟩ := sound.listed doc member
  rw [Document.isExpired_of_past (tracked.past view viewMember)] at active
  rwa [Document.isExpired_of_past ((tracked.later since).past view viewMember)]

/-!
### What an operation preserves
-/

theorem mem_doRemove {doc removed : Document} :
    doc ∈ (model.doRemove removed nanoseconds).documents ↔
      doc ∈ model.documents ∧ doc.docKey ≠ removed.docKey := by
  simp [doRemove]

theorem Sound.doRemove (sound : model.Sound now) {doc : Document} (tracked : doc.Tracked now)
    (none : doc.unexpiredViews now = 0) : (model.doRemove doc nanoseconds).Sound now where
  listed := by
    intro other member
    exact sound.listed other (mem_doRemove.mp member).1
  removed := by
    intro entry member
    have added := Keyed.mem_insert member
    cases added with
    | inl old => exact sound.removed entry old
    | inr new =>
        cases new
        exact ⟨tracked, none⟩

theorem Views.doRemove {doc : Document} (views : model.Views now docKey sessionId)
    (other : docKey ≠ doc.docKey) : (model.doRemove doc nanoseconds).Views now docKey sessionId := by
  obtain ⟨viewed, member, rfl, rest⟩ := views
  exact ⟨viewed, mem_doRemove.mpr ⟨member, other⟩, rfl, rest⟩

theorem Sound.replace (sound : model.Sound now) {old doc : Document}
    (member : old ∈ model.documents) (same : old.docKey = doc.docKey)
    (next : doc.Tracked now ∧ doc.ended = 0 ∧ 0 < doc.unexpiredViews now) :
    Sound { model with documents := model.documents.replace doc } now where
  listed := by
    intro other otherMember
    cases (Keyed.mem_replace member same).mp otherMember with
    | inl kept => exact sound.listed other kept.1
    | inr replaced =>
        cases replaced
        exact next
  removed := sound.removed

theorem Views.replace {old doc : Document} (member : old ∈ model.documents)
    (same : old.docKey = doc.docKey) (views : model.Views now docKey sessionId)
    (kept : ∀ view ∈ old.views, old.docKey = docKey → view.sessionId = sessionId →
      view.isExpired now = false → view ∈ doc.views) :
    Views { model with documents := model.documents.replace doc } now docKey sessionId := by
  obtain ⟨viewed, viewedMember, rfl, view, viewMember, sameSession, active⟩ := views
  by_cases isOld : viewed.docKey = doc.docKey
  · cases Keyed.eq_of_key viewedMember member (isOld.trans same.symm)
    exact ⟨doc, (Keyed.mem_replace member same).mpr (.inr rfl), isOld.symm, view,
      kept view viewMember rfl sameSession active, sameSession, active⟩
  · exact ⟨viewed, (Keyed.mem_replace member same).mpr (.inl ⟨viewedMember, isOld⟩), rfl, view,
      viewMember, sameSession, active⟩

theorem Sound.addDocument (sound : model.Sound now)
    (allowed : (Operation.addDocument docKey sessionId).Allowed model now) :
    (model.addDocument docKey sessionId).Sound now := by
  cases found : model.documents.find? docKey with
  | some doc =>
      obtain ⟨member, rfl⟩ := Keyed.find?_some found
      obtain ⟨tracked, running, some⟩ := sound.listed doc member
      simp only [AdminModel.addDocument, found]
      refine sound.replace member (doc.docKey_addView sessionId).symm ?_
      cases known : doc.views.find? sessionId with
      | some view =>
          rw [Document.addView_known known]
          exact ⟨tracked, running, some⟩
      | none =>
          refine ⟨tracked.addView known (allowed doc member rfl known), ?_, ?_⟩
          · rw [Document.ended_addView, running]
          · rw [Document.unexpiredViews_addView known]
            exact Nat.succ_pos _
  | none =>
      have newDocument := Document.Tracked.create docKey now
      have newView : (Document.create docKey).views.find? sessionId = none := rfl
      simp only [AdminModel.addDocument, found]
      refine ⟨?_, sound.removed⟩
      intro doc member
      cases Keyed.mem_insert member with
      | inl old => exact sound.listed doc old
      | inr new =>
          cases new
          refine ⟨newDocument.addView newView ?_, ?_, ?_⟩
          · exact Nat.lt_of_lt_of_le (by decide : 0 + 1 < 2) (by decide)
          · exact Document.ended_addView _ sessionId
          · rw [Document.unexpiredViews_addView newView]
            exact Nat.succ_pos _

theorem Views.addDocument {added newSession : Text} (views : model.Views now docKey sessionId) :
    (model.addDocument added newSession).Views now docKey sessionId := by
  cases found : model.documents.find? added with
  | some doc =>
      obtain ⟨member, rfl⟩ := Keyed.find?_some found
      simp only [AdminModel.addDocument, found]
      exact views.replace member (doc.docKey_addView newSession).symm
        fun view viewMember _ _ _ => Document.mem_addView_of_mem viewMember
  | none =>
      obtain ⟨viewed, viewedMember, rest⟩ := views
      have missing :
          model.documents.find? ((Document.create added).addView newSession).docKey = none := by
        rwa [Document.docKey_addView]
      simp only [AdminModel.addDocument, found]
      exact ⟨viewed, (Keyed.mem_insert_new missing).mpr (.inl viewedMember), rest⟩

theorem removeSession_listed {doc : Document} (sound : model.Sound now)
    (found : model.documents.find? docKey = some doc) :
    model.removeSession now nanoseconds docKey sessionId =
      if (doc.expireView now sessionId).activeViews = 0 then
        model.doRemove (doc.expireView now sessionId) nanoseconds
      else { model with documents := model.documents.replace (doc.expireView now sessionId) } := by
  obtain ⟨-, running, -⟩ := sound.listed doc (Keyed.find?_some found).1
  have stillOpen : doc.isExpired now = false := by simp [Document.isExpired, running]
  simp only [removeSession, found, stillOpen, Bool.false_eq_true, ↓reduceIte]

/-- What a removed session leaves of its document. -/
theorem tracked_expireView {doc : Document} (sound : model.Sound now) (started : 0 < now)
    (member : doc ∈ model.documents)
    (allowed : (Operation.removeSession doc.docKey sessionId).Allowed model now) :
    (doc.expireView now sessionId).Tracked now ∧
      ((doc.expireView now sessionId).activeViews ≠ 0 →
        (doc.expireView now sessionId).ended = 0) := by
  obtain ⟨tracked, running, -⟩ := sound.listed doc member
  cases known : doc.views.find? sessionId with
  | none =>
      rw [Document.expireView_unknown known]
      exact ⟨tracked, fun _ => running⟩
  | some view =>
      obtain ⟨viewMember, sameSession⟩ := Keyed.find?_some known
      refine ⟨(tracked.expireView started known
        (allowed doc member rfl view viewMember sameSession)).1, fun several => ?_⟩
      simp only [Document.expireView, known] at several ⊢
      rw [if_neg several, running]

theorem Sound.removeSession (sound : model.Sound now) (started : 0 < now)
    (allowed : (Operation.removeSession docKey sessionId).Allowed model now) :
    (model.removeSession now nanoseconds docKey sessionId).Sound now := by
  cases found : model.documents.find? docKey with
  | none =>
      simp only [AdminModel.removeSession, found]
      exact sound
  | some doc =>
      obtain ⟨member, rfl⟩ := Keyed.find?_some found
      obtain ⟨tracked, running⟩ := tracked_expireView sound started member allowed
      rw [removeSession_listed sound found]
      split
      · next last =>
          refine sound.doRemove tracked ?_
          rw [← tracked.active, last]
          rfl
      · next several =>
          refine sound.replace member (Document.docKey_expireView doc now sessionId).symm
            ⟨tracked, running several, ?_⟩
          rw [← tracked.active, Nat.pos_iff_ne_zero]
          exact fun zero => several (UInt32.toNat_inj.mp zero)

theorem Views.removeSession {removed removedSession : Text} (sound : model.Sound now)
    (started : 0 < now)
    (allowed : (Operation.removeSession removed removedSession).Allowed model now)
    (views : model.Views now docKey sessionId)
    (other : ¬ (removed = docKey ∧ removedSession = sessionId)) :
    (model.removeSession now nanoseconds removed removedSession).Views now docKey sessionId := by
  cases found : model.documents.find? removed with
  | none =>
      simp only [AdminModel.removeSession, found]
      exact views
  | some doc =>
      obtain ⟨member, rfl⟩ := Keyed.find?_some found
      obtain ⟨tracked, -⟩ := tracked_expireView sound started member allowed
      have kept : ∀ view ∈ doc.views, doc.docKey = docKey → view.sessionId = sessionId →
          view ∈ (doc.expireView now removedSession).views := by
        intro view viewMember sameDoc sameSession
        have different : view.sessionId ≠ removedSession :=
          fun same => other ⟨sameDoc, same.symm.trans sameSession⟩
        exact (Keyed.find?_some (Document.find?_expireView_of_ne different
          (Keyed.find?_of_mem viewMember))).1
      rw [removeSession_listed sound found]
      split
      · next last =>
          -- The document goes only if it has none of these views.
          refine views.doRemove ?_
          rw [Document.docKey_expireView]
          rintro rfl
          obtain ⟨viewed, viewedMember, sameDoc, view, viewMember, sameSession, active⟩ := views
          cases Keyed.eq_of_key viewedMember member sameDoc
          have none : (doc.expireView now removedSession).unexpiredViews now = 0 := by
            rw [← tracked.active, last]
            rfl
          have ended := Document.unexpiredViews_eq_zero_iff.mp none view
            (kept view viewMember rfl sameSession)
          rw [active] at ended
          cases ended
      · exact views.replace member (Document.docKey_expireView doc now removedSession).symm
          fun view viewMember sameDoc sameSession _ => kept view viewMember sameDoc sameSession

theorem Sound.removeDocument (sound : model.Sound now) (started : 0 < now)
    (allowed : (Operation.removeDocument docKey).Allowed model now) :
    (model.removeDocument now nanoseconds docKey).Sound now := by
  cases found : model.documents.find? docKey with
  | none =>
      simp only [AdminModel.removeDocument, found]
      exact sound
  | some doc =>
      obtain ⟨member, rfl⟩ := Keyed.find?_some found
      obtain ⟨tracked, -, -⟩ := sound.listed doc member
      have active := allowed doc member rfl
      have total := doc.length_views now
      have noneExpired : (doc.views.entries.filter fun view => view.isExpired now) = [] :=
        List.filter_eq_nil_iff.mpr fun view viewMember => by simp [active view viewMember]
      rw [noneExpired, List.length_nil, Nat.zero_add] at total
      obtain ⟨trackedLast, none⟩ := Document.Tracked.expireViews started doc.views.distinct tracked
        (by
          intro sessionId member
          obtain ⟨view, viewMember, rfl⟩ := List.mem_map.mp member
          exact ⟨view, Keyed.find?_of_mem viewMember, active view viewMember⟩)
      rw [List.length_map, total] at none
      simp only [AdminModel.removeDocument, found]
      exact sound.doRemove trackedLast (Nat.add_eq_right.mp none)

theorem Views.removeDocument {removed : Text} (views : model.Views now docKey sessionId)
    (other : removed ≠ docKey) :
    (model.removeDocument now nanoseconds removed).Views now docKey sessionId := by
  cases found : model.documents.find? removed with
  | none =>
      simp only [AdminModel.removeDocument, found]
      exact views
  | some doc =>
      obtain ⟨member, rfl⟩ := Keyed.find?_some found
      simp only [AdminModel.removeDocument, found]
      refine views.doRemove ?_
      rw [Document.docKey_expireViews]
      exact other.symm

theorem Sound.perform {operation : Operation} (sound : model.Sound now) (started : 0 < now)
    (allowed : operation.Allowed model now) :
    (model.perform now nanoseconds operation).Sound now := by
  cases operation with
  | addDocument docKey sessionId => exact sound.addDocument allowed
  | removeSession docKey sessionId => exact sound.removeSession started allowed
  | removeDocument docKey => exact sound.removeDocument started allowed

theorem Views.perform {operation : Operation} (sound : model.Sound now) (started : 0 < now)
    (allowed : operation.Allowed model now) (views : model.Views now docKey sessionId)
    (kept : ¬ operation.Removes docKey sessionId) :
    (model.perform now nanoseconds operation).Views now docKey sessionId := by
  cases operation with
  | addDocument added newSession => exact views.addDocument
  | removeSession removed removedSession =>
      exact views.removeSession sound started allowed kept
  | removeDocument removed => exact views.removeDocument kept

end AdminModel

/-!
## Runs
-/

/-- An operation, some time after the one before it. -/
structure Event where
  elapsed : Nat
  nanoseconds : Nat
  operation : Operation

structure AdminState where
  now : Nat
  started : 0 < now
  model : AdminModel

namespace AdminState

def initial (now : Nat) (started : 0 < now) : AdminState := ⟨now, started, .empty⟩

def step (state : AdminState) (event : Event) : AdminState where
  now := state.now + event.elapsed
  started := Nat.add_pos_left state.started event.elapsed
  model := state.model.perform (state.now + event.elapsed) event.nanoseconds event.operation

def Allowed (state : AdminState) (event : Event) : Prop :=
  event.operation.Allowed state.model (state.now + event.elapsed)

instance (state : AdminState) (event : Event) : Decidable (state.Allowed event) :=
  inferInstanceAs (Decidable (event.operation.Allowed _ _))

/-- Every number fits the views it is about, and exactly the documents with a view that is not
expired are listed. -/
structure Accounted (state : AdminState) : Prop where
  listed : ∀ doc ∈ state.model.documents,
    doc.Accounts state.now ∧ 0 < doc.unexpiredViews state.now
  removed : ∀ entry ∈ state.model.expiredDocuments,
    entry.2.Accounts state.now ∧ entry.2.unexpiredViews state.now = 0

/-- What has a view that is not expired keeps it until that is removed. -/
def KeepsViews (state : AdminState) (event : Event) : Prop :=
  ∀ docKey sessionId, state.model.Views state.now docKey sessionId →
    ¬ event.operation.Removes docKey sessionId →
      (state.step event).model.Views (state.step event).now docKey sessionId

variable {state : AdminState} {event : Event}

theorem sound_step (sound : state.model.Sound state.now) (allowed : state.Allowed event) :
    (state.step event).model.Sound (state.step event).now :=
  (sound.later (Nat.le_add_right _ _)).perform (state.step event).started allowed

theorem keepsViews_of_sound (sound : state.model.Sound state.now) (allowed : state.Allowed event) :
    state.KeepsViews event := by
  intro docKey sessionId views kept
  have since : state.now ≤ (state.step event).now := Nat.le_add_right _ _
  exact (views.later sound since).perform (sound.later since) (state.step event).started allowed kept

theorem accounted_of_sound (sound : state.model.Sound state.now) : state.Accounted where
  listed := by
    intro doc member
    obtain ⟨tracked, -, some⟩ := sound.listed doc member
    exact ⟨.of_active tracked.active, some⟩
  removed := by
    intro entry member
    obtain ⟨tracked, none⟩ := sound.removed entry member
    exact ⟨.of_active tracked.active, none⟩

theorem sound_initial (now : Nat) (started : 0 < now) :
    (initial now started).model.Sound now where
  listed := fun _ member => absurd member (Keyed.not_mem_empty _)
  removed := fun _ member => absurd member (Keyed.not_mem_empty _)

/-- As long as no view is removed a second time, everything is accounted for in every state, and
every view stays where it is until it is removed. -/
theorem accounted_of_permitted {now : Nat} (started : 0 < now) {events : List Event}
    (permitted : Permitted step Allowed (initial now started) events) :
    (∀ before after, events = before ++ after → (run step (initial now started) before).Accounted) ∧
      ∀ before event after, events = before ++ event :: after →
        (run step (initial now started) before).KeepsViews event := by
  have sound : ∀ before, Permitted step Allowed (initial now started) before →
      (run step (initial now started) before).model.Sound
        (run step (initial now started) before).now := by
    intro before soFar
    exact run_invariant (fun state => state.model.Sound state.now)
      (fun state event sound allowed => sound_step sound allowed) (sound_initial now started) soFar
  constructor
  · rintro before after rfl
    exact accounted_of_sound (sound before (permitted_append.mp permitted).1)
  · rintro before event after rfl
    obtain ⟨soFar, allowed, -⟩ := permitted_append.mp permitted
    exact keepsViews_of_sound (sound before soFar) allowed

/-- Two sessions of one document. -/
def twoSessions : List Event :=
  [⟨0, 0, .addDocument "doc".toList "a".toList⟩, ⟨1, 0, .addDocument "doc".toList "b".toList⟩]

theorem accounted_twoSessions :
    Permitted step Allowed (initial 1 (by decide))
        (twoSessions ++ [⟨1, 0, .removeSession "doc".toList "a".toList⟩]) ∧
      (run step (initial 1 (by decide))
        (twoSessions ++ [⟨1, 0, .removeSession "doc".toList "a".toList⟩])).Accounted :=
  ⟨by decide, (accounted_of_permitted (by decide) (by decide)).1 _ [] (List.append_nil _).symm⟩

/-- A session that is removed twice takes the document of the other one away; and if it left
before the whole document, the count wraps. -/
theorem not_accounted_removedTwice :
    ¬ (run step (initial 1 (by decide)) (twoSessions ++
        [⟨1, 0, .removeSession "doc".toList "a".toList⟩,
          ⟨1, 1, .removeSession "doc".toList "a".toList⟩])).Accounted ∧
      ¬ (run step (initial 1 (by decide)) (twoSessions ++
        [⟨1, 0, .removeSession "doc".toList "a".toList⟩,
          ⟨1, 1, .removeDocument "doc".toList⟩])).Accounted := by
  constructor
  · intro accounted
    have none : ∀ entry ∈ (run step (initial 1 (by decide)) (twoSessions ++
        [⟨1, 0, .removeSession "doc".toList "a".toList⟩,
          ⟨1, 1, .removeSession "doc".toList "a".toList⟩])).model.expiredDocuments.entries,
        entry.2.unexpiredViews 4 = 0 := fun entry member => (accounted.removed entry member).2
    revert none
    decide
  · intro accounted
    have counted : ∀ entry ∈ (run step (initial 1 (by decide)) (twoSessions ++
        [⟨1, 0, .removeSession "doc".toList "a".toList⟩,
          ⟨1, 1, .removeDocument "doc".toList⟩])).model.expiredDocuments.entries,
        entry.2.activeViews.toNat = entry.2.unexpiredViews 4 :=
      fun entry member => (accounted.removed entry member).1.active
    revert counted
    decide

end AdminState

end FreeOnline.Wsd.Admin
