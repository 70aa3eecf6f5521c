import FreeOnline.Library.Run

/-!
# Queues that merge

A new entry may be merged with a queued one: the queue is searched from its end until an
entry bars the way, and what was merged is queued at the end.
-/

set_option autoImplicit false

namespace FreeOnline.Library

universe u v w

/-- What a look at a queued entry says. -/
inductive Look (Merged : Type v) where
  | barred
  | passed
  | found (merged : Merged)

inductive Search (Entry : Type u) (Merged : Type v) where
  | barred
  | nothing
  | found (merged : Merged) (others : List Entry)

def Look.map {Value : Type u} {Merged : Type v} (image : Value → Merged) : Look Value → Look Merged
  | .barred => .barred
  | .passed => .passed
  | .found value => .found (image value)

def Search.map {Origin : Type u} {Entry : Type v} (image : Origin → Entry) :
    Search Origin Origin → Search Entry Entry
  | .barred => .barred
  | .nothing => .nothing
  | .found merged others => .found (image merged) (others.map image)

section

variable {Entry : Type u} {Merged : Type v} {look : Entry → Look Merged} {queue : List Entry}

/-- The search from the end. The entry that is found leaves the queue. -/
def search (look : Entry → Look Merged) : List Entry → Search Entry Merged
  | [] => .nothing
  | entry :: rest =>
      match search look rest with
      | .barred => .barred
      | .found merged others => .found merged (entry :: others)
      | .nothing =>
          match look entry with
          | .barred => .barred
          | .passed => .nothing
          | .found merged => .found merged rest

theorem passed_of_search_nothing (isNothing : search look queue = .nothing) :
    ∀ entry ∈ queue, look entry = .passed := by
  induction queue with
  | nil => exact fun _ member => absurd member List.not_mem_nil
  | cons entry rest ih =>
      unfold search at isNothing
      split at isNothing
      · cases isNothing
      · cases isNothing
      · next restNothing =>
          split at isNothing
          · cases isNothing
          · next entryPassed => exact List.forall_mem_cons.mpr ⟨entryPassed, ih restNothing⟩
          · cases isNothing

/-- Nothing that bars the way stands behind the entry that is found. -/
theorem split_of_search_found {merged : Merged} {others : List Entry}
    (isFound : search look queue = .found merged others) :
    ∃ earlier queued later, queue = earlier ++ queued :: later ∧ others = earlier ++ later ∧
      look queued = .found merged ∧ ∀ entry ∈ later, look entry = .passed := by
  induction queue generalizing others with
  | nil => cases isFound
  | cons entry rest ih =>
      unfold search at isFound
      split at isFound
      · cases isFound
      · next foundInRest =>
          cases isFound
          obtain ⟨earlier, queued, later, rfl, rfl, queuedFound, passed⟩ := ih foundInRest
          exact ⟨entry :: earlier, queued, later, rfl, rfl, queuedFound, passed⟩
      · next restNothing =>
          split at isFound
          · cases isFound
          · cases isFound
          · next entryFound =>
              cases isFound
              exact ⟨[], entry, _, rfl, rfl, entryFound, passed_of_search_nothing restNothing⟩

/-- A search among images is the search among what they are images of. -/
theorem search_map {Origin : Type w} (image : Origin → Entry) {look : Entry → Look Entry}
    {lookOrigin : Origin → Look Origin} {origins : List Origin}
    (sameLook : ∀ origin ∈ origins, look (image origin) = (lookOrigin origin).map image) :
    search look (origins.map image) = (search lookOrigin origins).map image := by
  induction origins with
  | nil => rfl
  | cons origin origins ih =>
      have restSame := ih fun other member => sameLook other (List.mem_cons_of_mem _ member)
      rw [List.map_cons, search, search, restSame, sameLook origin List.mem_cons_self]
      cases search lookOrigin origins with
      | barred => rfl
      | found merged others => rfl
      | nothing =>
          cases lookOrigin origin with
          | barred => rfl
          | passed => rfl
          | found merged => rfl

end

section

variable {Entry : Type u}

inductive QueueEvent (Entry : Type u) where
  | put (entry : Entry)
  | get

def QueueEvent.entry? : QueueEvent Entry → Option Entry
  | .put entry => some entry
  | .get => none

def QueueEvent.map {Other : Type v} (image : Entry → Other) : QueueEvent Entry → QueueEvent Other
  | .put entry => .put (image entry)
  | .get => .get

/-- A queue, with what was put into it and what was taken. -/
structure MergingQueue (Entry : Type u) where
  given : List Entry
  taken : List Entry
  queue : List Entry

namespace MergingQueue

def empty : MergingQueue Entry := ⟨[], [], []⟩

def map {Other : Type v} (image : Entry → Other) (state : MergingQueue Entry) :
    MergingQueue Other :=
  ⟨state.given.map image, state.taken.map image, state.queue.map image⟩

def put (look : Entry → Entry → Look Entry) (queue : List Entry) (entry : Entry) : List Entry :=
  match search (look entry) queue with
  | .found merged others => others ++ [merged]
  | _ => queue ++ [entry]

def step (look : Entry → Entry → Look Entry) (state : MergingQueue Entry) :
    QueueEvent Entry → MergingQueue Entry
  | .put entry =>
      { state with given := state.given ++ [entry], queue := put look state.queue entry }
  | .get =>
      match state.queue with
      | [] => state
      | entry :: rest => { state with taken := state.taken ++ [entry], queue := rest }

end MergingQueue

/-- The second list is the first one with some neighbours joined. -/
inductive Merges (Joins : Entry → Entry → Entry → Prop) : List Entry → List Entry → Prop
  | nil : Merges Joins [] []
  | keep {given kept : List Entry} (entry : Entry) :
      Merges Joins given kept → Merges Joins (given ++ [entry]) (kept ++ [entry])
  | join {given kept : List Entry} {last entry joined : Entry} :
      Merges Joins given (kept ++ [last]) → Joins last entry joined →
      Merges Joins (given ++ [entry]) (kept ++ [joined])

/-- Where what is joined does what both did, the lists do the same. -/
theorem Merges.foldl_eq {Joins : Entry → Entry → Entry → Prop} {given kept : List Entry}
    (merges : Merges Joins given kept) {State : Type w} {act : State → Entry → State}
    (joins : ∀ last entry joined, Joins last entry joined →
      ∀ state, act state joined = act (act state last) entry) (state : State) :
    kept.foldl act state = given.foldl act state := by
  induction merges with
  | nil => rfl
  | keep entry _ ih => rw [List.foldl_append, List.foldl_append, ih]
  | @join given kept last entry joined _ isJoined ih =>
      rw [List.foldl_append, List.foldl_cons, List.foldl_nil] at ih
      rw [List.foldl_append, List.foldl_append, ← ih]
      exact joins last entry joined isJoined _

namespace MergingQueue

variable {look : Entry → Entry → Look Entry} {Joins : Entry → Entry → Entry → Prop}
  {concerned : Entry → Bool}

/-- Whatever the new entry would be merged with, the two can be joined. -/
def Joinable (look : Entry → Entry → Look Entry) (Joins : Entry → Entry → Entry → Prop)
    (state : MergingQueue Entry) : QueueEvent Entry → Prop
  | .put entry => ∀ earlier queued later merged, state.queue = earlier ++ queued :: later →
      (∀ other ∈ later, look entry other = .passed) → look entry queued = .found merged →
      Joins queued entry merged
  | .get => True

theorem joinable_mono {Weaker : Entry → Entry → Entry → Prop}
    (weaker : ∀ entry queued merged, Joins queued entry merged → look entry queued = .found merged →
      Weaker queued entry merged) {state : MergingQueue Entry} {event : QueueEvent Entry}
    (joinable : Joinable look Joins state event) : Joinable look Weaker state event := by
  cases event with
  | get => trivial
  | put entry =>
      intro earlier queued later merged isQueue passed isFound
      exact weaker entry queued merged (joinable earlier queued later merged isQueue passed isFound)
        isFound

/-- Who is concerned by entries: merging is among their own, and never past one of them. -/
structure Separates (look : Entry → Entry → Look Entry) (concerned : Entry → Bool) : Prop where
  found : ∀ entry queued merged, look entry queued = .found merged →
    concerned queued = concerned entry ∧ concerned merged = concerned entry
  passed : ∀ entry queued, look entry queued = .passed → concerned entry = true →
    concerned queued = false

theorem merges_put (separates : Separates look concerned) {state : MergingQueue Entry}
    {entry : Entry} (joinable : Joinable look Joins state (.put entry))
    (merges : Merges Joins (state.given.filter concerned)
      ((state.taken ++ state.queue).filter concerned)) :
    Merges Joins ((state.given ++ [entry]).filter concerned)
      ((state.taken ++ put look state.queue entry).filter concerned) := by
  have appended : Merges Joins ((state.given ++ [entry]).filter concerned)
      ((state.taken ++ (state.queue ++ [entry])).filter concerned) := by
    rw [← List.append_assoc, List.filter_append, @List.filter_append _ _ _ [entry]]
    cases isConcerned : concerned entry with
    | false => simpa [isConcerned] using merges
    | true => simpa [isConcerned] using merges.keep entry
  unfold put
  split
  · next merged others isFound =>
      obtain ⟨earlier, queued, later, isQueue, rfl, queuedFound, passed⟩ :=
        split_of_search_found isFound
      obtain ⟨sameQueued, sameMerged⟩ := separates.found entry queued merged queuedFound
      have isJoined := joinable earlier queued later merged isQueue passed queuedFound
      rw [isQueue] at merges
      cases isConcerned : concerned entry with
      | false =>
          -- Neither of the two concerns anyone here.
          rw [isConcerned] at sameQueued sameMerged
          simpa [isConcerned, sameQueued, sameMerged] using merges
      | true =>
          rw [isConcerned] at sameQueued sameMerged
          have noLater : later.filter concerned = [] := by
            refine List.filter_eq_nil_iff.mpr fun other member => ?_
            rw [separates.passed entry other (passed other member) isConcerned]
            exact Bool.false_ne_true
          simp only [List.filter_append, List.filter_cons, sameQueued, noLater] at merges
          simp only [List.filter_append, List.filter_cons, isConcerned, sameMerged, noLater,
            List.append_nil]
          rw [← List.append_assoc] at merges ⊢
          exact merges.join isJoined
  · exact appended

theorem given_run (look : Entry → Entry → Look Entry) (events : List (QueueEvent Entry)) :
    (run (step look) empty events).given = events.filterMap QueueEvent.entry? := by
  have more (state : MergingQueue Entry) :
      (run (step look) state events).given = state.given ++ events.filterMap QueueEvent.entry? := by
    induction events generalizing state with
    | nil => exact (List.append_nil _).symm
    | cons event events ih =>
        refine (ih (step look state event)).trans ?_
        cases event with
        | put entry => exact List.append_assoc _ _ _
        | get =>
            unfold step
            dsimp only
            split
            · rfl
            · rfl
  exact more empty

/-- What is taken and queued is what was put, for everyone who is concerned, with some
neighbours joined. -/
theorem merges_run (separates : Separates look concerned) {events : List (QueueEvent Entry)}
    (joinable : Permitted (step look) (Joinable look Joins) empty events) :
    Merges Joins ((run (step look) empty events).given.filter concerned)
      (((run (step look) empty events).taken ++
        (run (step look) empty events).queue).filter concerned) := by
  refine run_invariant (fun state => Merges Joins (state.given.filter concerned)
    ((state.taken ++ state.queue).filter concerned)) ?_ .nil joinable
  intro state event merges allowed
  cases event with
  | put entry => exact merges_put separates allowed merges
  | get =>
      unfold step
      dsimp only
      split
      · exact merges
      · next entry rest isQueue =>
          rw [isQueue] at merges
          simpa using merges

end MergingQueue

end

end FreeOnline.Library
