import FreeOnline.Library.MergingQueue

/-!
# Queues of states

Entries fall into classes, and in some classes a new entry takes the place of the queued one. What
is taken of the queue at last is of every class the last entry that was put.
-/

set_option autoImplicit false

namespace FreeOnline.Library

universe u v

/-- The classes, and the entries that supersede others of their class. -/
structure Classes (Entry : Type u) (Class : Type v) where
  classOf : Entry → Class
  supersedes : Entry → Bool
  uniform : ∀ entry other, classOf entry = classOf other → supersedes entry = supersedes other

namespace Classes

variable {Entry : Type u} {Class : Type v} [DecidableEq Class] {classes : Classes Entry Class}

def isOf (classes : Classes Entry Class) (kind : Class) (entry : Entry) : Bool :=
  classes.classOf entry = kind

theorem isOf_iff {kind : Class} {entry : Entry} :
    classes.isOf kind entry = true ↔ classes.classOf entry = kind :=
  decide_eq_true_iff

/-- The queue without the first entry of that class. -/
def removeObsolete (classes : Classes Entry Class) (queue : List Entry) (entry : Entry) : List Entry :=
  if classes.supersedes entry then queue.eraseP (classes.isOf (classes.classOf entry)) else queue

def put (classes : Classes Entry Class) (queue : List Entry) (entry : Entry) : List Entry :=
  classes.removeObsolete queue entry ++ [entry]

def step (classes : Classes Entry Class) (state : MergingQueue Entry) :
    QueueEvent Entry → MergingQueue Entry
  | .put entry =>
      { state with given := state.given ++ [entry], queue := classes.put state.queue entry }
  | .get =>
      match state.queue with
      | [] => state
      | entry :: rest => { state with taken := state.taken ++ [entry], queue := rest }

/-- Of every class the last entry that was put is the last one that is taken or queued, at most
one entry of a class that supersedes is queued, and no other entry is lost. -/
structure IsLatest (classes : Classes Entry Class) (state : MergingQueue Entry) : Prop where
  latest : ∀ kind, ((state.taken ++ state.queue).filter (classes.isOf kind)).getLast? =
    (state.given.filter (classes.isOf kind)).getLast?
  single : state.queue.Pairwise fun entry other =>
    classes.supersedes entry = true → classes.classOf entry ≠ classes.classOf other
  kept : (state.taken ++ state.queue).filter (fun entry => !classes.supersedes entry) =
    state.given.filter fun entry => !classes.supersedes entry
  ordered : (state.taken ++ state.queue).Sublist state.given

/-!
## What is removed
-/

theorem filter_eraseP {gone stays : Entry → Bool}
    (apart : ∀ entry, gone entry = true → stays entry = false) (entries : List Entry) :
    (entries.eraseP gone).filter stays = entries.filter stays := by
  induction entries with
  | nil => rfl
  | cons entry rest ih =>
      cases isGone : gone entry with
      | false =>
          rw [List.eraseP_cons_of_neg (Bool.eq_false_iff.mp isGone), List.filter_cons, List.filter_cons,
            ih]
      | true =>
          rw [List.eraseP_cons_of_pos isGone, List.filter_cons, apart entry isGone,
            if_neg Bool.false_ne_true]

/-- Entries of other classes stay. -/
theorem filter_removeObsolete {entry : Entry} {stays : Entry → Bool}
    (apart : ∀ other, classes.supersedes entry = true →
      classes.classOf other = classes.classOf entry → stays other = false) (queue : List Entry) :
    (classes.removeObsolete queue entry).filter stays = queue.filter stays := by
  unfold removeObsolete
  split
  · next supersedes =>
      exact filter_eraseP (fun other same => apart other supersedes (isOf_iff.mp same)) queue
  · rfl

theorem removeObsolete_sublist (queue : List Entry) (entry : Entry) :
    (classes.removeObsolete queue entry).Sublist queue := by
  unfold removeObsolete
  split
  · exact List.eraseP_sublist
  · exact List.Sublist.refl queue

/-- Afterwards nothing of a superseded class is left. -/
theorem classOf_ne_of_mem {queue : List Entry} {entry other : Entry}
    (single : queue.Pairwise fun entry other =>
      classes.supersedes entry = true → classes.classOf entry ≠ classes.classOf other)
    (supersedes : classes.supersedes other = true)
    (member : other ∈ classes.removeObsolete queue entry) :
    classes.classOf other ≠ classes.classOf entry := by
  intro same
  rw [classes.uniform other entry same] at supersedes
  rw [removeObsolete, if_pos supersedes] at member
  have inQueue : other ∈ queue := List.mem_of_mem_eraseP member
  obtain ⟨first, before, after, notBefore, isFirst, rfl, erased⟩ :=
    List.exists_of_eraseP inQueue (isOf_iff.mpr same)
  rw [erased] at member
  have firstSame := isOf_iff.mp isFirst
  cases List.mem_append.mp member with
  | inl early => exact notBefore other early (isOf_iff.mpr same)
  | inr late =>
      have apart := (List.pairwise_cons.mp (List.pairwise_append.mp single).2.1).1 other late
      rw [classes.uniform first entry firstSame] at apart
      exact apart supersedes (firstSame.trans same.symm)

/-!
## What a step preserves
-/

theorem isLatest_empty : IsLatest classes .empty where
  latest := fun _ => rfl
  single := .nil
  kept := rfl
  ordered := List.Sublist.refl []

theorem isLatest_put {state : MergingQueue Entry} (isLatest : IsLatest classes state) (entry : Entry) :
    IsLatest classes (classes.step state (.put entry)) := by
  simp only [step, put]
  refine ⟨fun kind => ?_, ?_, ?_, ?_⟩
  · dsimp only
    rw [← List.append_assoc, List.filter_append, List.filter_append state.given]
    by_cases same : classes.classOf entry = kind
    · rw [List.filter_cons_of_pos (isOf_iff.mpr same), List.filter_nil, List.getLast?_concat,
        List.getLast?_concat]
    · have others := @filter_removeObsolete _ _ _ classes entry (classes.isOf kind)
        (fun other _ sameClass => Bool.eq_false_iff.mpr fun isKind =>
          same (sameClass.symm.trans (isOf_iff.mp isKind))) state.queue
      rw [List.filter_cons_of_neg (mt isOf_iff.mp same), List.filter_nil, List.append_nil,
        List.append_nil, List.filter_append, others, ← List.filter_append]
      exact isLatest.latest kind
  · refine List.pairwise_append.mpr ⟨isLatest.single.sublist (removeObsolete_sublist _ _),
      List.pairwise_singleton _ _, ?_⟩
    intro other member last isLast supersedes
    rw [List.mem_singleton.mp isLast]
    exact classOf_ne_of_mem isLatest.single supersedes member
  · have others := @filter_removeObsolete _ _ _ classes entry (fun other => !classes.supersedes other)
      (fun other supersedes sameClass => by
        rw [classes.uniform other entry sameClass, supersedes]
        rfl) state.queue
    rw [← List.append_assoc, List.filter_append, List.filter_append, List.filter_append, others,
      ← List.filter_append, isLatest.kept]
  · rw [← List.append_assoc]
    exact (((List.Sublist.refl _).append (removeObsolete_sublist _ _)).trans isLatest.ordered).append
      (List.Sublist.refl [entry])

theorem isLatest_get {state : MergingQueue Entry} (isLatest : IsLatest classes state) :
    IsLatest classes (classes.step state .get) := by
  cases isQueue : state.queue with
  | nil => simpa only [step, isQueue] using isLatest
  | cons entry rest =>
      have sameEntries : state.taken ++ state.queue = (state.taken ++ [entry]) ++ rest := by
        rw [isQueue, List.append_assoc, List.singleton_append]
      obtain ⟨latest, single, kept, ordered⟩ := isLatest
      rw [sameEntries] at kept ordered
      simp only [sameEntries] at latest
      rw [isQueue] at single
      simp only [step, isQueue]
      exact ⟨latest, (List.pairwise_cons.mp single).2, kept, ordered⟩

/-- If there are entries of a class in the queue, the last one is the last that was put. -/
theorem IsLatest.latest_queued {state : MergingQueue Entry} (isLatest : IsLatest classes state)
    {kind : Class} (isThere : state.queue.filter (classes.isOf kind) ≠ []) :
    (state.queue.filter (classes.isOf kind)).getLast? =
      (state.given.filter (classes.isOf kind)).getLast? := by
  rw [← isLatest.latest kind, List.filter_append, List.getLast?_append_of_ne_nil _ isThere]

end Classes

end FreeOnline.Library
