import Mathlib.Algebra.Ring.Nat
import FreeOnline.Library.Run

/-!
# Bandwidth of a document

The poll loop of a document reports from time to time what its sessions have sent and received
since the last report. A session that leaves takes its bytes with it.
-/

set_option autoImplicit false

namespace FreeOnline.Wsd

open FreeOnline.Library

structure IOStats where
  sent : UInt64
  recv : UInt64
deriving DecidableEq

namespace IOStats

def zero : IOStats := ⟨0, 0⟩

/-- The stats of the sessions of a document. -/
def getIOStats (sessions : List IOStats) : IOStats :=
  sessions.foldl (fun total session => ⟨total.sent + session.sent, total.recv + session.recv⟩) zero

/-- What is reported of a total, and what is remembered of it. -/
def updateBandwidth (admin total : IOStats) : IOStats × IOStats :=
  let deltaSent : UInt64 := 0
  let deltaRecv : UInt64 := 0
  let (deltaSent, adminSent) :=
    if admin.sent < total.sent then (total.sent - admin.sent, total.sent)
    else (deltaSent, admin.sent)
  let (deltaRecv, adminRecv) :=
    if deltaRecv < total.recv then (total.recv - admin.recv, total.recv)
    else (deltaRecv, admin.recv)
  (⟨deltaSent, deltaRecv⟩, ⟨adminSent, adminRecv⟩)

def check (admin total : IOStats) : IOStats := (updateBandwidth admin total).2

/-- The reports of one check after the other. -/
def reports (admin : IOStats) : List IOStats → List IOStats
  | [] => []
  | total :: totals => (updateBandwidth admin total).1 :: reports (check admin total) totals

/-!
## What is expected
-/

/-- The report and what was remembered before it fit in 64 bits together. -/
def NoWrap (admin total : IOStats) : Prop :=
  admin.sent.toNat + (updateBandwidth admin total).1.sent.toNat < 2 ^ 64 ∧
    admin.recv.toNat + (updateBandwidth admin total).1.recv.toNat < 2 ^ 64

instance (admin total : IOStats) : Decidable (NoWrap admin total) :=
  inferInstanceAs (Decidable (_ ∧ _))

def added (bytes : List UInt64) : Nat := (bytes.map UInt64.toNat).sum

def largest (bytes : List UInt64) : Nat := (bytes.map UInt64.toNat).foldr max 0

/-- No report wraps around, and after each check the reports add up to the largest totals. -/
structure AddsUp (totals : List IOStats) : Prop where
  noWrap : Permitted check NoWrap zero totals
  sent : ∀ before after, totals = before ++ after →
    added ((reports zero before).map sent) = largest (before.map sent)
  recv : ∀ before after, totals = before ++ after →
    added ((reports zero before).map recv) = largest (before.map recv)

/-!
## One direction
-/

/-- What is counted of a total in a direction that is guarded. -/
def countUp (counted total : UInt64) : UInt64 × UInt64 :=
  if counted < total then (total - counted, total) else (0, counted)

theorem updateBandwidth_sent (admin total : IOStats) :
    (updateBandwidth admin total).1.sent = (countUp admin.sent total.sent).1 ∧
      (check admin total).sent = (countUp admin.sent total.sent).2 := by
  unfold check updateBandwidth countUp
  dsimp only
  split
  · exact ⟨rfl, rfl⟩
  · exact ⟨rfl, rfl⟩

/-- The total is nothing, or it has not shrunk. -/
def Grows (counted total : UInt64) : Prop := total = 0 ∨ counted ≤ total

/-- Where the total does not shrink, the guard makes no difference. -/
theorem updateBandwidth_recv {admin total : IOStats} (grows : Grows admin.recv total.recv) :
    (updateBandwidth admin total).1.recv = (countUp admin.recv total.recv).1 ∧
      (check admin total).recv = (countUp admin.recv total.recv).2 := by
  unfold check updateBandwidth countUp
  dsimp only
  by_cases some : 0 < total.recv
  · have notLess : admin.recv ≤ total.recv := by
      cases grows with
      | inl isZero => exact absurd isZero (UInt64.ne_of_lt some).symm
      | inr notLess => exact notLess
    rw [if_pos some]
    by_cases less : admin.recv < total.recv
    · rw [if_pos less]
      exact ⟨rfl, rfl⟩
    · have same := UInt64.le_antisymm notLess (UInt64.not_lt.mp less)
      rw [if_neg less, same, UInt64.sub_self]
      exact ⟨rfl, rfl⟩
  · have isZero : total.recv = 0 := UInt64.le_antisymm (UInt64.not_lt.mp some) UInt64.zero_le
    rw [if_neg some, isZero, if_neg (UInt64.not_lt.mpr UInt64.zero_le)]
    exact ⟨rfl, rfl⟩

theorem countUp_spec (counted total : UInt64) :
    counted.toNat + (countUp counted total).1.toNat = max counted.toNat total.toNat ∧
      (countUp counted total).2.toNat = max counted.toNat total.toNat := by
  unfold countUp
  split
  · next less =>
      have isLess := UInt64.lt_iff_toNat_lt.mp less
      dsimp only
      rw [UInt64.toNat_sub_of_le _ _ (UInt64.le_of_lt less),
        Nat.add_sub_cancel' (Nat.le_of_lt isLess), Nat.max_eq_right (Nat.le_of_lt isLess)]
      exact ⟨rfl, rfl⟩
  · next notLess =>
      have isLess := UInt64.le_iff_toNat_le.mp (UInt64.not_lt.mp notLess)
      rw [Nat.max_eq_left isLess]
      exact ⟨rfl, rfl⟩

/-- A report that is no wrapped difference belongs to a total that has not shrunk. -/
theorem noWrap_iff (admin total : IOStats) :
    NoWrap admin total ↔ Grows admin.recv total.recv := by
  have fits (counted total : UInt64) :
      counted.toNat + (countUp counted total).1.toNat < 2 ^ 64 := by
    rw [(countUp_spec counted total).1]
    exact Nat.max_lt.mpr ⟨counted.toNat_lt, total.toNat_lt⟩
  have sentFits := fits admin.sent total.sent
  rw [← (updateBandwidth_sent admin total).1] at sentFits
  rw [NoWrap, and_iff_right sentFits]
  constructor
  · intro recvFits
    by_contra shrinks
    obtain ⟨some, notBehind⟩ := not_or.mp shrinks
    have less := UInt64.not_le.mp notBehind
    have reported : (updateBandwidth admin total).1.recv = total.recv - admin.recv :=
      congrArg Prod.fst (if_pos (UInt64.pos_iff_ne_zero.mpr some))
    have isLess := UInt64.lt_iff_toNat_lt.mp less
    have bound := admin.recv.toNat_lt
    rw [reported, UInt64.toNat_sub] at recvFits
    omega
  · intro grows
    rw [(updateBandwidth_recv grows).1]
    exact fits admin.recv total.recv

/-!
## All checks
-/

/-- Behind the checks the largest total is remembered, and all of it has been reported. -/
theorem added_reports {admin : IOStats} {totals : List IOStats}
    (grows : Permitted check (fun admin total => Grows admin.recv total.recv) admin totals) :
    admin.sent.toNat + added ((reports admin totals).map sent) =
        max admin.sent.toNat (largest (totals.map sent)) ∧
      admin.recv.toNat + added ((reports admin totals).map recv) =
        max admin.recv.toNat (largest (totals.map recv)) := by
  induction totals generalizing admin with
  | nil => exact ⟨(Nat.max_zero _).symm, (Nat.max_zero _).symm⟩
  | cons total totals ih =>
      obtain ⟨growsFirst, growsRest⟩ := grows
      obtain ⟨sentRest, recvRest⟩ := ih growsRest
      obtain ⟨isSent, sentNext⟩ := updateBandwidth_sent admin total
      obtain ⟨isRecv, recvNext⟩ := updateBandwidth_recv growsFirst
      obtain ⟨sentSum, sentMax⟩ := countUp_spec admin.sent total.sent
      obtain ⟨recvSum, recvMax⟩ := countUp_spec admin.recv total.recv
      rw [← isSent] at sentSum
      rw [← isRecv] at recvSum
      rw [sentNext, sentMax] at sentRest
      rw [recvNext, recvMax] at recvRest
      simp only [reports, added, largest, List.map_cons, List.sum_cons, List.foldr_cons]
        at sentRest recvRest ⊢
      constructor
      · omega
      · omega

/-- The totals that are not nothing never shrink. -/
def RecvGrows (totals : List IOStats) : Prop :=
  ((totals.map recv).filter (· ≠ 0)).Pairwise (· ≤ ·)

instance (totals : List IOStats) : Decidable (RecvGrows totals) :=
  inferInstanceAs (Decidable (List.Pairwise _ _))

theorem forall_grows_iff {counted : UInt64} {totals : List IOStats} :
    (∀ total ∈ totals, Grows counted total.recv) ↔
      ∀ bytes ∈ (totals.map recv).filter (· ≠ 0), counted ≤ bytes := by
  simp only [List.mem_filter, List.mem_map, decide_eq_true_eq, and_imp, forall_exists_index,
    forall_apply_eq_imp_iff₂, Grows, or_iff_not_imp_left]

theorem permitted_grows_iff {admin : IOStats} {totals : List IOStats} :
    Permitted check (fun admin total => Grows admin.recv total.recv) admin totals ↔
      (∀ total ∈ totals, Grows admin.recv total.recv) ∧ RecvGrows totals := by
  induction totals generalizing admin with
  | nil =>
      exact iff_of_true trivial
        ⟨fun _ isReport => absurd isReport List.not_mem_nil, List.Pairwise.nil⟩
  | cons total totals ih =>
      rw [Permitted, ih, List.forall_mem_cons, and_assoc, and_congr_right_iff]
      intro growsFirst
      unfold RecvGrows
      by_cases isZero : total.recv = 0
      · have isSame : (check admin total).recv = admin.recv := by
          rw [(updateBandwidth_recv growsFirst).2, isZero]
          exact congrArg Prod.snd (if_neg (UInt64.not_lt.mpr UInt64.zero_le))
        rw [isSame, List.map_cons, List.filter_cons_of_neg (by simp [isZero])]
      · have isNew : (check admin total).recv = total.recv :=
          congrArg Prod.snd (if_pos (UInt64.pos_iff_ne_zero.mpr isZero))
        have behind : admin.recv ≤ total.recv := growsFirst.resolve_left isZero
        rw [isNew, List.map_cons, List.filter_cons_of_pos (by simp [isZero]), List.pairwise_cons,
          forall_grows_iff, forall_grows_iff]
        constructor
        · intro grows
          obtain ⟨later, rest⟩ := grows
          exact ⟨fun bytes member => UInt64.le_trans behind (later bytes member), later, rest⟩
        · intro grows
          exact grows.2

/-- The reports add up exactly when the received totals never shrink, but to nothing. -/
theorem addsUp_iff (totals : List IOStats) : AddsUp totals ↔ RecvGrows totals := by
  have permitted_iff : Permitted check NoWrap zero totals ↔ RecvGrows totals := by
    have start : ∀ total ∈ totals, Grows zero.recv total.recv :=
      fun _ _ => .inr UInt64.zero_le
    refine Iff.trans ?_ (permitted_grows_iff.trans (and_iff_right start))
    exact permitted_congr (fun _ => True) (fun _ _ _ _ => trivial)
      (fun admin total _ => noWrap_iff admin total) trivial
  constructor
  · intro addsUp
    exact permitted_iff.mp addsUp.noWrap
  · intro grows
    have noWrap := permitted_iff.mpr grows
    have sums : ∀ before after, totals = before ++ after →
        added ((reports zero before).map sent) = largest (before.map sent) ∧
          added ((reports zero before).map recv) = largest (before.map recv) := by
      intro before after split
      rw [split] at noWrap
      have growsBefore := permitted_mono (fun admin total => (noWrap_iff admin total).mp)
        (permitted_append.mp noWrap).1
      obtain ⟨isSent, isRecv⟩ := added_reports growsBefore
      have nothing : zero.sent.toNat = 0 ∧ zero.recv.toNat = 0 := ⟨rfl, rfl⟩
      rw [nothing.1, Nat.zero_add, Nat.zero_max] at isSent
      rw [nothing.2, Nat.zero_add, Nat.zero_max] at isRecv
      exact ⟨isSent, isRecv⟩
    exact ⟨noWrap, fun before after split => (sums before after split).1,
      fun before after split => (sums before after split).2⟩

/-- One of two sessions leaves, of which 100 and 50 bytes were received. -/
theorem not_addsUp_left :
    ¬ AddsUp [getIOStats [⟨10, 100⟩, ⟨10, 50⟩], getIOStats [⟨20, 100⟩]] := by
  intro addsUp
  have wraps := addsUp.noWrap
  revert wraps
  decide

end IOStats

end FreeOnline.Wsd
