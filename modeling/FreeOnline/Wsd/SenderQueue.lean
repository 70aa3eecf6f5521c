import FreeOnline.Library.Frames
import FreeOnline.Library.Run
import FreeOnline.Wsd.ClientSession

/-!
# The queue of messages to a client

A new message may replace a queued one. Whether what the client takes out of the
queue can still be decoded depends on what stands behind the replaced message.
-/

set_option autoImplicit false

namespace FreeOnline.Wsd

open FreeOnline.Kit (TileWireId)
open FreeOnline.Library

inductive LastCommand where
  | statusIndicatorSetValue
  | invalidateCursor
  | setPart
deriving DecidableEq, Repr

/-- A message by its first token, with what the queue reads of it. The JSON of
`invalidateviewcursor:` is parsed on enqueueing. -/
inductive SenderMessage where
  | tile (message : TileMessage)
  | last (command : LastCommand) (text : String)
  | invalidateViewCursor (viewId : String) (text : String)
  | other (text : String)
deriving DecidableEq

/-- An item of the queue. Items are pointers: two of the same content differ, here
by the number of items that were accepted before. -/
structure QueueItem where
  serial : Nat
  message : SenderMessage
deriving DecidableEq

namespace QueueItem

def tileKey? (item : QueueItem) : Option TileKey :=
  match item.message with
  | .tile message => some message.desc.cacheKey
  | _ => none

def ofTile (key : TileKey) (item : QueueItem) : Bool :=
  item.tileKey? == some key

def isDelta (item : QueueItem) : Bool :=
  match item.message with
  | .tile message => message.command == .delta
  | _ => false

end QueueItem

def SenderMessage.supersedes (new : SenderMessage) (cur : QueueItem) : Bool :=
  match new, cur.message with
  | .tile new, .tile cur => new.command == .tile && cur.command == .tile && new.desc.beq cur.desc
  | .last command _, .last curCommand _ => command == curCommand
  | .invalidateViewCursor viewId _, .invalidateViewCursor curViewId _ => viewId == curViewId
  | _, _ => false

/-- The queue, the termination flag, and what went in and out so far. -/
structure SenderQueue where
  queue : List QueueItem
  terminationFlag : Bool
  enqueued : List QueueItem
  dequeued : List QueueItem
deriving DecidableEq

namespace SenderQueue

def empty : SenderQueue := ⟨[], false, [], []⟩

def deduplicate (queue : List QueueItem) (message : SenderMessage) : List QueueItem :=
  queue.eraseP message.supersedes

def enqueue (state : SenderQueue) (message : SenderMessage) : SenderQueue :=
  if state.terminationFlag then state
  else
    let item := ⟨state.enqueued.length, message⟩
    { state with
      queue := deduplicate state.queue message ++ [item]
      enqueued := state.enqueued ++ [item] }

def dequeue (state : SenderQueue) : SenderQueue :=
  if state.terminationFlag then state
  else
    match state.queue with
    | [] => state
    | item :: queue => { state with queue := queue, dequeued := state.dequeued ++ [item] }

inductive Event where
  | enqueue (message : SenderMessage)
  | dequeue
  | terminate
deriving DecidableEq

def step (state : SenderQueue) : Event → SenderQueue
  | .enqueue message => state.enqueue message
  | .dequeue => state.dequeue
  | .terminate => { state with terminationFlag := true }

/-!
## Chains
-/

def Chains (state : SenderQueue) : Event → Prop
  | .enqueue (.tile message) =>
      message.command = .delta → state.enqueued.any (QueueItem.ofTile message.desc.cacheKey)
  | _ => True

def afterReplaced (state : SenderQueue) (message : TileMessage) : Option QueueItem :=
  (state.queue.dropWhile fun cur => !(SenderMessage.tile message).supersedes cur).tail.find?
    (QueueItem.ofTile message.desc.cacheKey)

/-- No queued delta depends on the message that a new keyframe replaces. -/
def ReplacesUnused (state : SenderQueue) : Event → Prop
  | .enqueue (.tile message) =>
      message.command = .tile → ∀ next ∈ state.afterReplaced message, next.isDelta = false
  | _ => True

instance (state : SenderQueue) : (event : Event) → Decidable (state.Chains event)
  | .enqueue (.tile _) => inferInstanceAs (Decidable (_ → _))
  | .enqueue (.last ..) | .enqueue (.invalidateViewCursor ..) | .enqueue (.other _)
  | .dequeue | .terminate => .isTrue trivial

instance (state : SenderQueue) : (event : Event) → Decidable (state.ReplacesUnused event)
  | .enqueue (.tile _) => inferInstanceAs (Decidable (_ → _))
  | .enqueue (.last ..) | .enqueue (.invalidateViewCursor ..) | .enqueue (.other _)
  | .dequeue | .terminate => .isTrue trivial

def ofChain (history : List QueueItem) (key : TileKey) : List QueueItem :=
  history.filter (QueueItem.ofTile key)

def previous (history : List QueueItem) (item : QueueItem) : Option QueueItem :=
  ((history.takeWhile (· ≠ item)).filter fun other => other.tileKey? == item.tileKey?).getLast?

def DeltasBased (state : SenderQueue) : Prop :=
  ∀ item ∈ state.dequeued, item.isDelta = true →
    previous state.dequeued item = previous state.enqueued item ∧
      (previous state.enqueued item).isSome = true

def client {Picture : Type} (start : SenderMessage → Picture)
    (patch : Picture → SenderMessage → Picture) : Decoder QueueItem Picture where
  isKey item := !item.isDelta
  start item := start item.message
  patch shown item := patch shown item.message

def ShowsEnqueued {Picture : Type} (decoder : Decoder QueueItem Picture) (state : SenderQueue) :
    Prop :=
  ∀ key, state.enqueued.any (QueueItem.ofTile key) = true →
    decoder.replay (ofChain state.dequeued key) =
        decoder.replay (ofChain state.enqueued key) ∧
      (decoder.replay (ofChain state.enqueued key)).isSome = true

/-!
## What one step keeps
-/

private theorem ofChain_nil (key : TileKey) : ofChain [] key = [] := rfl

private theorem ofChain_append (first second : List QueueItem) (key : TileKey) :
    ofChain (first ++ second) key = ofChain first key ++ ofChain second key :=
  List.filter_append ..

private theorem ofChain_own {key : TileKey} {item : QueueItem} (own : item.ofTile key = true)
    (history : List QueueItem) : ofChain (item :: history) key = item :: ofChain history key :=
  List.filter_cons_of_pos own

private theorem ofChain_other {key : TileKey} {item : QueueItem} (other : ¬item.ofTile key = true)
    (history : List QueueItem) : ofChain (item :: history) key = ofChain history key :=
  List.filter_cons_of_neg other

private theorem mem_ofChain {key : TileKey} {item : QueueItem} {history : List QueueItem} :
    item ∈ ofChain history key ↔ item ∈ history ∧ item.ofTile key = true :=
  List.mem_filter

private theorem ofTile_iff {key : TileKey} {item : QueueItem} :
    item.ofTile key = true ↔
      ∃ message, item.message = .tile message ∧ message.desc.cacheKey = key := by
  simp only [QueueItem.ofTile, QueueItem.tileKey?, beq_iff_eq]
  split <;> simp_all

private theorem supersedes_ofTile {message : SenderMessage} {cur : QueueItem} {key : TileKey}
    (supersedes : message.supersedes cur = true) (ofTile : cur.ofTile key = true) :
    ∃ new, message = .tile new ∧ new.command = .tile ∧ new.desc.cacheKey = key := by
  obtain ⟨old, isOld, sameKey⟩ := ofTile_iff.mp ofTile
  unfold SenderMessage.supersedes at supersedes
  rw [isOld] at supersedes
  cases message with
  | tile new =>
      simp only [Bool.and_eq_true, beq_iff_eq, TileDesc.beq_iff] at supersedes
      exact ⟨new, rfl, supersedes.1.1, supersedes.2.1.trans sameKey⟩
  | last => cases supersedes
  | invalidateViewCursor => cases supersedes
  | other => cases supersedes

theorem deduplicate_cases (queue : List QueueItem) (message : SenderMessage) :
    deduplicate queue message = queue ∨
      ∃ before replaced after, queue = before ++ replaced :: after ∧
        (∀ item ∈ before, message.supersedes item = false) ∧ message.supersedes replaced = true ∧
        deduplicate queue message = before ++ after := by
  rcases List.exists_or_eq_self_of_eraseP message.supersedes queue with same | found
  · exact .inl same
  · obtain ⟨replaced, before, after, others, supersedes, split, erased⟩ := found
    refine .inr ⟨before, replaced, after, split, ?_, supersedes, erased⟩
    intro item member
    simpa only [Bool.not_eq_true] using others item member

private theorem afterReplaced_eq {state : SenderQueue} {message : TileMessage}
    {before after : List QueueItem} {replaced : QueueItem}
    (split : state.queue = before ++ replaced :: after)
    (others : ∀ item ∈ before, (SenderMessage.tile message).supersedes item = false)
    (supersedes : (SenderMessage.tile message).supersedes replaced = true) :
    state.afterReplaced message = (ofChain after message.desc.cacheKey).head? := by
  have skipped : state.queue.dropWhile (fun cur => !(SenderMessage.tile message).supersedes cur) =
      replaced :: after := by
    rw [split, List.dropWhile_append_of_pos]
    · rw [List.dropWhile_cons_of_neg]
      simp only [supersedes, Bool.not_true, Bool.false_eq_true, not_false_eq_true]
    · intro item member
      simp only [others item member, Bool.not_false]
  rw [afterReplaced, skipped, List.tail_cons, ofChain, List.head?_filter]

/-- Enqueueing thins out the chain of a tile at most where a keyframe follows. -/
private theorem thinned_enqueue {state : SenderQueue} {message : SenderMessage} {key : TileKey}
    {all : List QueueItem} {dequeued : List QueueItem} {item : QueueItem}
    (isItem : item.message = message) (unused : state.ReplacesUnused (.enqueue message))
    (thinned : Thinned (!·.isDelta) all (ofChain (dequeued ++ state.queue) key)) :
    Thinned (!·.isDelta) (all ++ ofChain [item] key)
      (ofChain (dequeued ++ (deduplicate state.queue message ++ [item])) key) := by
  have pushed : Thinned (!·.isDelta) (all ++ ofChain [item] key)
      (ofChain (dequeued ++ state.queue) key ++ ofChain [item] key) := by
    by_cases own : item.ofTile key = true
    · rw [ofChain_own own]
      exact thinned.push item
    · rw [ofChain_other own]
      simpa only [ofChain_nil, List.append_nil] using thinned
  rcases deduplicate_cases state.queue message with same | replacing
  · rw [same]
    simpa only [ofChain_append, List.append_assoc] using pushed
  · obtain ⟨before, replaced, after, split, others, supersedes, result⟩ := replacing
    rw [result]
    rw [split] at pushed
    by_cases own : replaced.ofTile key = true
    · obtain ⟨new, rfl, command, sameKey⟩ := supersedes_ofTile supersedes own
      have itemOwn : item.ofTile key = true := ofTile_iff.mpr ⟨new, isItem, sameKey⟩
      have itemKey : item.isDelta = false := by simp [QueueItem.isDelta, isItem, command]
      have next := afterReplaced_eq split others supersedes
      rw [sameKey] at next
      simp only [ofChain_append, ofChain_own own, ofChain_own itemOwn, List.append_assoc,
        List.cons_append] at pushed ⊢
      rw [← List.append_assoc] at pushed ⊢
      cases following : ofChain after key with
      | nil =>
          rw [following] at pushed
          exact pushed.drop replaced (by simp only [itemKey, Bool.not_false])
      | cons first rest =>
          rw [following] at pushed next
          have firstKey := unused command first (by rw [next]; rfl)
          exact pushed.drop replaced (by simp only [firstKey, Bool.not_false])
    · simpa only [ofChain_append, ofChain_other own, List.append_assoc] using pushed

/-- What went through the queue and what is still in it, next to what came in. -/
structure Consistent (state : SenderQueue) : Prop where
  thinned : ∀ key, Thinned (!·.isDelta) (ofChain state.enqueued key)
    (ofChain (state.dequeued ++ state.queue) key)
  keyframeFirst : ∀ key, ∀ first ∈ (ofChain state.enqueued key).head?, first.isDelta = false
  serials : ∀ item ∈ state.enqueued, item.serial < state.enqueued.length
  distinct : state.enqueued.Nodup

private theorem consistent_empty : Consistent empty where
  thinned _ := .nil
  keyframeFirst _ _ first := nomatch first
  serials _ member := nomatch member
  distinct := List.nodup_nil

private theorem keyframeFirst_enqueue {state : SenderQueue} (consistent : state.Consistent)
    {message : SenderMessage} {item : QueueItem} (isItem : item.message = message)
    (chains : state.Chains (.enqueue message)) (key : TileKey) :
    ∀ first ∈ (ofChain (state.enqueued ++ [item]) key).head?, first.isDelta = false := by
  intro first isFirst
  rw [ofChain_append, List.head?_append] at isFirst
  cases chain : ofChain state.enqueued key with
  | cons head tail =>
      rw [chain] at isFirst
      exact consistent.keyframeFirst key first (by rw [chain]; exact isFirst)
  | nil =>
      rw [chain] at isFirst
      by_cases own : item.ofTile key = true
      · rw [ofChain_own own] at isFirst
        cases isFirst
        obtain ⟨new, isNew, sameKey⟩ := ofTile_iff.mp own
        cases command : new.command with
        | tile => simp [QueueItem.isDelta, isNew, command]
        | delta =>
            rw [← isItem, isNew] at chains
            obtain ⟨other, member, ofTile⟩ := List.any_eq_true.mp (chains command)
            rw [sameKey] at ofTile
            have inChain : other ∈ ofChain state.enqueued key :=
              mem_ofChain.mpr ⟨member, ofTile⟩
            rw [chain] at inChain
            cases inChain
      · rw [ofChain_other own] at isFirst
        cases isFirst

private theorem consistent_enqueue {state : SenderQueue} (consistent : state.Consistent)
    {message : SenderMessage} (chains : state.Chains (.enqueue message))
    (unused : state.ReplacesUnused (.enqueue message)) : (state.enqueue message).Consistent := by
  unfold enqueue
  split
  · exact consistent
  · have fresh : ∀ item ∈ state.enqueued, item ≠ ⟨state.enqueued.length, message⟩ := by
      rintro item member rfl
      exact Nat.lt_irrefl _ (consistent.serials _ member)
    refine ⟨?_, keyframeFirst_enqueue consistent rfl chains, ?_, ?_⟩
    · intro key
      rw [ofChain_append]
      exact thinned_enqueue rfl unused (consistent.thinned key)
    · intro item member
      rw [List.length_append]
      rcases List.mem_append.mp member with old | new
      · exact Nat.lt_succ_of_lt (consistent.serials item old)
      · cases List.mem_singleton.mp new
        exact Nat.lt_succ_self _
    · rw [List.nodup_append]
      refine ⟨consistent.distinct, List.nodup_singleton _, ?_⟩
      intro item member other new
      cases List.mem_singleton.mp new
      exact fresh item member

private theorem consistent_dequeue {state : SenderQueue} (consistent : state.Consistent) :
    state.dequeue.Consistent := by
  unfold dequeue
  split
  · exact consistent
  · split
    · exact consistent
    · next item queue isQueue =>
        refine ⟨?_, consistent.keyframeFirst, consistent.serials, consistent.distinct⟩
        intro key
        have thinned := consistent.thinned key
        rw [isQueue] at thinned
        simpa only [List.append_assoc, List.singleton_append] using thinned

private theorem consistent_step {state : SenderQueue} (event : Event)
    (consistent : state.Consistent) (allowed : state.Chains event ∧ state.ReplacesUnused event) :
    (state.step event).Consistent := by
  cases event with
  | enqueue message => exact consistent_enqueue consistent allowed.1 allowed.2
  | dequeue => exact consistent_dequeue consistent
  | terminate =>
      exact ⟨consistent.thinned, consistent.keyframeFirst, consistent.serials, consistent.distinct⟩

/-!
## Decodable chains
-/

private theorem previous_split {item : QueueItem} {key : TileKey}
    (ofTile : item.ofTile key = true) {before : List QueueItem} (first : item ∉ before)
    (after : List QueueItem) :
    previous (before ++ item :: after) item = (ofChain before key).getLast? := by
  have isKey : item.tileKey? = some key := beq_iff_eq.mp ofTile
  have taken : (before ++ item :: after).takeWhile (· ≠ item) = before := by
    rw [List.takeWhile_append_of_pos, List.takeWhile_cons_of_neg (by simp), List.append_nil]
    intro other member
    rw [decide_eq_true_eq]
    rintro rfl
    exact first member
  rw [previous, taken, isKey]
  rfl

private theorem previous_eq {history : List QueueItem} {item : QueueItem} {key : TileKey}
    (ofTile : item.ofTile key = true) (distinct : history.Nodup) {before after : List QueueItem}
    (split : ofChain history key = before ++ item :: after) :
    previous history item = before.getLast? := by
  have inChain : item ∈ ofChain history key := by
    rw [split]
    exact List.mem_append_right _ List.mem_cons_self
  obtain ⟨first, rest, rfl, notBefore⟩ := List.eq_append_cons_of_mem (mem_ofChain.mp inChain).1
  have chain : ofChain first key ++ item :: ofChain rest key = before ++ item :: after := by
    rw [← split, ofChain_append, ofChain_own ofTile]
  have notAfter : item ∉ rest := (List.nodup_cons.mp (List.nodup_append.mp distinct).2.1).1
  obtain ⟨sameBefore, -, -⟩ := (List.append_cons_inj_of_notMem
    (fun member => notBefore (mem_ofChain.mp member).1)
    (fun member => notAfter (mem_ofChain.mp member).1)).mp chain
  rw [previous_split ofTile notBefore, sameBefore]

private theorem isDelta_ofTile {item : QueueItem} (isDelta : item.isDelta = true) :
    ∃ key, item.ofTile key = true := by
  cases isMessage : item.message with
  | tile message => exact ⟨_, ofTile_iff.mpr ⟨message, isMessage, rfl⟩⟩
  | last => simp [QueueItem.isDelta, isMessage] at isDelta
  | invalidateViewCursor => simp [QueueItem.isDelta, isMessage] at isDelta
  | other => simp [QueueItem.isDelta, isMessage] at isDelta

private theorem Consistent.deltasBased {state : SenderQueue} (consistent : state.Consistent) :
    state.DeltasBased := by
  intro item member isDelta
  obtain ⟨key, ofTile⟩ := isDelta_ofTile isDelta
  obtain ⟨before, after, split, first⟩ := List.eq_append_cons_of_mem member
  have kept : ofChain (state.dequeued ++ state.queue) key =
      ofChain before key ++ item :: ofChain (after ++ state.queue) key := by
    rw [split, List.append_assoc, ofChain_append, List.cons_append, ofChain_own ofTile]
  obtain ⟨allBefore, allAfter, chain, samePrevious⟩ :=
    (consistent.thinned key).predecessor kept (by simp only [isDelta, Bool.not_true])
  have inEnqueued := previous_eq ofTile consistent.distinct chain
  have inDequeued : previous state.dequeued item = (ofChain before key).getLast? := by
    rw [split, previous_split ofTile first]
  refine ⟨by rw [inEnqueued, inDequeued, samePrevious], ?_⟩
  rw [inEnqueued, List.getLast?_isSome]
  rintro rfl
  have keyframe := consistent.keyframeFirst key item (by rw [chain]; rfl)
  rw [isDelta] at keyframe
  cases keyframe

private theorem Consistent.showsEnqueued {state : SenderQueue} (consistent : state.Consistent)
    (drained : state.queue = []) {Picture : Type} (start : SenderMessage → Picture)
    (patch : Picture → SenderMessage → Picture) : state.ShowsEnqueued (client start patch) := by
  intro key any
  have thinned : Thinned (client start patch).isKey (ofChain state.enqueued key)
      (ofChain (state.dequeued ++ state.queue) key) := consistent.thinned key
  rw [drained, List.append_nil] at thinned
  refine ⟨thinned.replay_eq, ?_⟩
  cases chain : ofChain state.enqueued key with
  | nil =>
      obtain ⟨item, member, ofTile⟩ := List.any_eq_true.mp any
      have inChain := mem_ofChain.mpr ⟨member, ofTile⟩
      rw [chain] at inChain
      cases inChain
  | cons first rest =>
      have keyframe := consistent.keyframeFirst key first (by rw [chain]; rfl)
      exact (client start patch).replay_isSome (by simp only [client, keyframe, Bool.not_false]) rest

/-- In every run in which no queued delta depends on a keyframe that is replaced,
the client gets each delta right after the message it is based on, and shows what
was enqueued last once the queue is drained. -/
theorem run_decodable {Picture : Type} (start : SenderMessage → Picture)
    (patch : Picture → SenderMessage → Picture) (events : List Event)
    (permitted : Permitted step (fun state event => state.Chains event ∧ state.ReplacesUnused event)
      empty events) :
    (run step empty events).DeltasBased ∧
      ((run step empty events).queue = [] →
        (run step empty events).ShowsEnqueued (client start patch)) := by
  have consistent := run_invariant Consistent
    (fun _ event consistent allowed => consistent_step event consistent allowed)
    consistent_empty permitted
  exact ⟨consistent.deltasBased, fun drained => consistent.showsEnqueued drained start patch⟩

def cornerDesc (wireId : TileWireId) : TileDesc where
  normalizedViewId := 0
  part := 0
  mode := 0
  width := 256
  height := 256
  tilePosX := 0
  tilePosY := 0
  tileWidth := 3840
  tileHeight := 3840
  ver := 1
  imgSize := 0
  id := -1
  broadcast := false
  oldWireId := 0
  wireId := wireId
  valid := TileDesc.valid_origin

def cornerMessage (command : TileCommand) (wireId : TileWireId) : SenderMessage :=
  .tile ⟨command, cornerDesc wireId, []⟩

/-- Two keyframes in a row, of which only the second is sent, and then a delta;
the client here shows the messages it was sent. -/
theorem run_decodable_replaced :
    let events : List Event := [.enqueue (cornerMessage .tile 1), .enqueue (cornerMessage .tile 2),
      .enqueue (cornerMessage .delta 3), .dequeue, .dequeue]
    let state := run step empty events
    state.queue = [] ∧ state.DeltasBased ∧
      state.ShowsEnqueued (client (fun message => [message]) (fun shown message => shown ++ [message])) := by
  have decodable := run_decodable (fun message => [message]) (fun shown message => shown ++ [message])
    [.enqueue (cornerMessage .tile 1), .enqueue (cornerMessage .tile 2),
      .enqueue (cornerMessage .delta 3), .dequeue, .dequeue] (by decide)
  exact ⟨by decide, decodable.1, decodable.2 (by decide)⟩

/-- A second keyframe takes the first one out of the queue and leaves the delta
that is based on it: the client gets a delta for a tile that it never got. -/
theorem run_replacedBase_not_decodable :
    let events : List Event := [.enqueue (cornerMessage .tile 1), .enqueue (cornerMessage .delta 2),
      .enqueue (cornerMessage .tile 3), .dequeue]
    Permitted step Chains empty events ∧ ¬(run step empty events).DeltasBased := by
  refine ⟨by decide, ?_⟩
  intro based
  have delta := based ⟨1, cornerMessage .delta 2⟩ (by decide) (by decide)
  exact absurd delta.1 (by decide)

end SenderQueue

end FreeOnline.Wsd
