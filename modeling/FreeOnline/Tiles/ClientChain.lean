import FreeOnline.Library.Run
import FreeOnline.Wsd.ClientSession

/-!
# Delta chains from the tile cache to one client

One session and one tile: blobs are appended to the cached data, the tracker is
reset, and the tile is sent. What the client was sent last is always a prefix of
the blobs of the current keyframe, or older than that keyframe.
-/

set_option autoImplicit false

namespace FreeOnline.Tiles

open FreeOnline.Kit (TileWireId)
open FreeOnline.Library FreeOnline.Wsd

/-!
## The system
-/

structure Appended where
  wid : TileWireId
  keyframe : Bool
  bytes : List UInt8
deriving DecidableEq, Repr

def Appended.blob (appended : Appended) : TileData.Blob :=
  (appended.wid, appended.bytes)

def concatBlobs (blobs : List Appended) : List UInt8 :=
  blobs.flatMap Appended.bytes

/-- The cached tile and one session. History: `log` has every blob appended,
`sent` every message sent, `received` the keyframe and deltas that the client has
put together from them, and `fresh` says that nothing was sent since the start or
the last reset. -/
structure FeedState where
  tile : Option TileData
  tracker : ClientDeltaTracker
  closed : Bool
  log : List Appended
  sent : List TileMessage
  received : List UInt8
  fresh : Bool

def FeedState.initial : FeedState where
  tile := none
  tracker := ⟨.empty⟩
  closed := false
  log := []
  sent := []
  received := []
  fresh := true

inductive FeedEvent where
  | append (id : TileWireId) (data : List UInt8)
  | evict
  | reset (desc : TileDesc)
  | send (desc : TileDesc)
  | closeFrame

/-- As `saveDataToCache` does it: a delta without a keyframe is discarded. -/
def appendStep (state : FeedState) (id : TileWireId) (data : List UInt8) : FeedState :=
  let logged := state.log ++ [⟨id, TileData.isKeyframe data, data.tail⟩]
  match state.tile with
  | some tile => { state with tile := some (tile.appendBlob id data), log := logged }
  | none =>
      if TileData.isKeyframe data then
        { state with tile := some (TileData.ofBlob id data), log := logged }
      else state

def receiveMessage (received : List UInt8) (message : TileMessage) : List UInt8 :=
  match message.command with
  | .tile => message.data
  | .delta => received ++ message.data

def deliver (state : FeedState) (message : Option TileMessage) : FeedState :=
  match message with
  | none => state
  | some message =>
      if state.closed then state
      else
        { state with
          sent := state.sent ++ [message]
          received := receiveMessage state.received message }

def sendStep (state : FeedState) (desc : TileDesc) : FeedState :=
  match state.tile with
  | none => state
  | some tile =>
      let (message, tracker) := sendTile state.tracker desc tile
      deliver { state with tracker := tracker, fresh := false } message

def feedStep (state : FeedState) : FeedEvent → FeedState
  | .append id data => appendStep state id data
  | .evict => { state with tile := none }
  | .reset desc => { state with tracker := state.tracker.resetTileSeq desc, fresh := true }
  | .send desc => sendStep state desc
  | .closeFrame => { state with closed := true }

/-- All events are about one tile, wire ids grow, and a send carries the last
wire id of the data. -/
def FeedAllowed (key : TileKey) (state : FeedState) : FeedEvent → Prop
  | .append id data => data ≠ [] ∧ 0 < id ∧ ∀ appended ∈ state.log, appended.wid < id
  | .reset desc => desc.cacheKey = key
  | .send desc => desc.cacheKey = key ∧
      ∀ tile ∈ state.tile, tile.wids.getLast? = some desc.wireId
  | .evict => True
  | .closeFrame => True

instance (key : TileKey) (state : FeedState) (event : FeedEvent) :
    Decidable (FeedAllowed key state event) := by
  cases event <;> unfold FeedAllowed <;> infer_instance

/-!
## What a send does
-/

def Chained (blobs : List Appended) : Prop :=
  ∃ first rest, blobs = first :: rest ∧ first.keyframe = true ∧
    ∀ appended ∈ rest, appended.keyframe = false

theorem concatBlobs_blob (blobs : List Appended) :
    (blobs.map Appended.blob).flatMap Prod.snd = concatBlobs blobs := by
  simp [concatBlobs, List.flatMap_map, Appended.blob]

section Sending

variable {tracker : ClientDeltaTracker} {desc : TileDesc} {tile : TileData}

private theorem appendChangesSince_split (front back : List Appended) (since : TileWireId)
    (holds : tile.Holds ((front ++ back).map Appended.blob))
    (old : ∀ appended ∈ front, since ≠ 0 ∧ appended.wid ≤ since)
    (new : ∀ appended ∈ back, since = 0 ∨ since < appended.wid) :
    tile.appendChangesSince [] since =
      if back = [] then (false, []) else (true, concatBlobs back) := by
  rw [List.map_append] at holds
  rw [holds.appendChangesSince_split [] (List.forall_mem_map.mpr old)
    (List.forall_mem_map.mpr new)]
  simp only [List.map_eq_nil_iff, List.nil_append, concatBlobs_blob]

theorem sendTile_behind {first : Appended} {rest : List Appended}
    (holds : tile.Holds ((first :: rest).map Appended.blob))
    (increasing : (first :: rest).Pairwise fun left right => left.wid < right.wid)
    (behind : tracker.lastSent desc.cacheKey < first.wid) :
    (sendTile tracker desc tile).1 = some ⟨.tile, desc, concatBlobs (first :: rest)⟩ := by
  have needs : tile.needsKeyframe (tracker.lastSent desc.cacheKey) = true := by
    simp [TileData.needsKeyframe, holds.wids, Appended.blob, behind]
  have newer : ∀ appended ∈ first :: rest, tracker.lastSent desc.cacheKey < appended.wid := by
    intro appended member
    rcases List.mem_cons.mp member with rfl | later
    · exact behind
    · exact UInt32.lt_trans behind (List.rel_of_pairwise_cons increasing later)
  have changes := appendChangesSince_split [] (first :: rest)
    (if tile.isPng then 0 else tracker.lastSent desc.cacheKey) holds (by simp) (by
      intro appended member
      split
      · exact .inl rfl
      · exact .inr (newer appended member))
  simp [sendTile, ClientDeltaTracker.updateTileSeq_fst, needs, changes]

/-- A client that has the blobs up to `last` is sent those behind it, unless the
data looks like a PNG. -/
theorem sendTile_served {front back : List Appended} {last : Appended}
    (holds : tile.Holds ((front ++ last :: back).map Appended.blob))
    (increasing : (front ++ last :: back).Pairwise fun left right => left.wid < right.wid)
    (positive : 0 < last.wid) (served : last.wid = tracker.lastSent desc.cacheKey) :
    (sendTile tracker desc tile).1 =
      if tile.isPng then some ⟨.tile, desc, concatBlobs (front ++ last :: back)⟩
      else if back = [] then none
      else some ⟨.delta, desc, concatBlobs back⟩ := by
  obtain ⟨-, lastBack, frontLast⟩ := List.pairwise_append.mp increasing
  have older : ∀ appended ∈ front ++ [last], appended.wid ≤ last.wid := by
    intro appended member
    rcases List.mem_append.mp member with inFront | atLast
    · exact UInt32.le_of_lt (frontLast appended inFront last List.mem_cons_self)
    · rw [List.mem_singleton.mp atLast]
      exact UInt32.le_refl _
  have newer : ∀ appended ∈ back, last.wid < appended.wid :=
    fun appended member => List.rel_of_pairwise_cons lastBack member
  by_cases png : tile.isPng = true
  · have changes := appendChangesSince_split [] (front ++ last :: back) 0 holds (by simp)
      (fun _ _ => .inl rfl)
    simp [sendTile, ClientDeltaTracker.updateTileSeq_fst, png, changes]
  · have needsNot : tile.needsKeyframe last.wid = false := by
      have first : tile.wids.headD 0 ≤ last.wid := by
        rw [holds.wids]
        cases front with
        | nil => exact UInt32.le_refl _
        | cons appended front => exact older appended List.mem_cons_self
      simpa [TileData.needsKeyframe] using first
    have nonzero : last.wid ≠ 0 := fun zero => by
      rw [zero] at positive
      exact absurd positive (by decide)
    have split : front ++ last :: back = (front ++ [last]) ++ back := by simp
    rw [split] at holds
    have changes := appendChangesSince_split (front ++ [last]) back last.wid holds
      (fun appended member => ⟨nonzero, older appended member⟩)
      (fun appended member => .inr (newer appended member))
    simp only [sendTile, ClientDeltaTracker.updateTileSeq_fst, ← served, png, needsNot, changes,
      Bool.false_eq_true, ↓reduceIte, Bool.or_self]
    by_cases none : back = [] <;> simp [none]

end Sending

theorem sendTile_tracker (tracker : ClientDeltaTracker) (desc : TileDesc) (tile : TileData) :
    (sendTile tracker desc tile).2 = (tracker.updateTileSeq desc).2 := by
  unfold sendTile
  dsimp only
  split <;> rfl

theorem sendStep_cached {state : FeedState} {tile : TileData} (cached : state.tile = some tile)
    (desc : TileDesc) :
    sendStep state desc =
      deliver { state with tracker := (sendTile state.tracker desc tile).2, fresh := false }
        (sendTile state.tracker desc tile).1 := by
  rw [sendStep, cached]

theorem sendStep_frame {state : FeedState} {tile : TileData} (cached : state.tile = some tile)
    (desc : TileDesc) :
    (sendStep state desc).log = state.log ∧ (sendStep state desc).tile = state.tile ∧
      (sendStep state desc).tracker = (state.tracker.updateTileSeq desc).2 ∧
      (sendStep state desc).closed = state.closed ∧ (sendStep state desc).fresh = false := by
  rw [sendStep_cached cached, sendTile_tracker]
  unfold deliver
  split
  · exact ⟨rfl, rfl, rfl, rfl, rfl⟩
  · split <;> exact ⟨rfl, rfl, rfl, rfl, rfl⟩

/-!
## The invariant
-/

/-- The client is behind the keyframe of these blobs, or it has a part of them
that ends with the last message it was sent. -/
inductive Served (key : TileKey) (state : FeedState) : List Appended → Prop where
  | behind {first : Appended} {rest : List Appended}
      (older : state.tracker.lastSent key < first.wid) : Served key state (first :: rest)
  | upTo {front back : List Appended} {last : Appended}
      (tracked : last.wid = state.tracker.lastSent key)
      (client : state.closed = false → state.received = concatBlobs (front ++ [last]) ∧
        ∃ previous, state.sent.getLast? = some previous ∧ previous.desc.wireId = last.wid) :
      Served key state (front ++ last :: back)

structure Follows (key : TileKey) (state : FeedState) (tile : TileData)
    (earlier blobs : List Appended) : Prop where
  log : state.log = earlier ++ blobs
  chained : Chained blobs
  holds : tile.Holds (blobs.map Appended.blob)
  served : Served key state blobs

theorem Chained.append {blobs : List Appended} (chained : Chained blobs) {appended : Appended}
    (delta : appended.keyframe = false) : Chained (blobs ++ [appended]) := by
  obtain ⟨first, rest, rfl, keyframe, deltas⟩ := chained
  refine ⟨first, rest ++ [appended], rfl, keyframe, ?_⟩
  intro later member
  rcases List.mem_append.mp member with old | new
  · exact deltas later old
  · rw [List.mem_singleton.mp new]
    exact delta

/-- A delta behind the blobs changes nothing of what the client has. -/
theorem Served.append {key : TileKey} {state : FeedState} {blobs : List Appended}
    (served : Served key state blobs) (added log : List Appended) (tile : Option TileData) :
    Served key { state with tile := tile, log := log } (blobs ++ added) := by
  cases served with
  | behind older => exact .behind older
  | upTo tracked client =>
      rw [List.append_assoc]
      exact .upTo tracked client

theorem Follows.append {key : TileKey} {state : FeedState} {tile : TileData}
    {earlier blobs : List Appended} (follows : Follows key state tile earlier blobs)
    (id : TileWireId) {data : List UInt8} (delta : TileData.isKeyframe data = false) :
    Follows key
      { state with
        tile := some (tile.appendBlob id data)
        log := state.log ++ [⟨id, TileData.isKeyframe data, data.tail⟩] }
      (tile.appendBlob id data) earlier
      (blobs ++ [⟨id, TileData.isKeyframe data, data.tail⟩]) where
  log := by simp [follows.log]
  chained := follows.chained.append delta
  holds := by
    rw [List.map_append]
    exact follows.holds.append id delta
  served := follows.served.append _ _ _

theorem Follows.last_blob {key : TileKey} {state : FeedState} {tile : TileData}
    {earlier blobs : List Appended} {desc : TileDesc} (follows : Follows key state tile earlier blobs)
    (carried : tile.wids.getLast? = some desc.wireId) :
    ∃ front last, blobs = front ++ [last] ∧ last.wid = desc.wireId := by
  obtain ⟨first, rest, rfl, -, -⟩ := follows.chained
  have split := (List.dropLast_append_getLast (List.cons_ne_nil first rest)).symm
  refine ⟨_, _, split, ?_⟩
  rw [follows.holds.wids, split] at carried
  simpa [Appended.blob] using carried

structure FeedInvariant (key : TileKey) (state : FeedState) : Prop where
  positive : ∀ appended ∈ state.log, 0 < appended.wid
  increasing : state.log.Pairwise fun left right => left.wid < right.wid
  known : state.tracker.lastSent key = 0 ∨
    ∃ appended ∈ state.log, state.tracker.lastSent key ≤ appended.wid
  fresh : state.fresh = true → state.tracker.lastSent key = 0
  follows : ∀ tile, state.tile = some tile → ∃ earlier blobs, Follows key state tile earlier blobs

theorem FeedInvariant.initially (key : TileKey) : FeedInvariant key FeedState.initial where
  positive := by simp [FeedState.initial]
  increasing := by simp [FeedState.initial]
  known := .inl rfl
  fresh := fun _ => rfl
  follows := by simp [FeedState.initial]

section Steps

variable {key : TileKey} {state : FeedState} (invariant : FeedInvariant key state)

include invariant

theorem FeedInvariant.lastSent_lt {id : TileWireId} (positive : 0 < id)
    (newer : ∀ appended ∈ state.log, appended.wid < id) : state.tracker.lastSent key < id := by
  rcases invariant.known with zero | ⟨appended, member, older⟩
  · rw [zero]
    exact positive
  · exact UInt32.lt_of_le_of_lt older (newer appended member)

theorem FeedInvariant.append {id : TileWireId} {data : List UInt8}
    (positive : 0 < id) (newer : ∀ appended ∈ state.log, appended.wid < id) :
    FeedInvariant key (appendStep state id data) := by
  let entry : Appended := ⟨id, TileData.isKeyframe data, data.tail⟩
  have logPositive : ∀ appended ∈ state.log ++ [entry], 0 < appended.wid := by
    intro appended member
    rcases List.mem_append.mp member with old | new
    · exact invariant.positive appended old
    · rw [List.mem_singleton.mp new]
      exact positive
  have logIncreasing : (state.log ++ [entry]).Pairwise fun left right => left.wid < right.wid := by
    rw [List.pairwise_append]
    refine ⟨invariant.increasing, by simp, ?_⟩
    intro left member right new
    rw [List.mem_singleton.mp new]
    exact newer left member
  have logKnown : state.tracker.lastSent key = 0 ∨
      ∃ appended ∈ state.log ++ [entry], state.tracker.lastSent key ≤ appended.wid :=
    .inr ⟨entry, by simp, UInt32.le_of_lt (invariant.lastSent_lt positive newer)⟩
  -- A keyframe starts a chain of its own, which the client is behind.
  have keyframeFollows (keyframe : TileData.isKeyframe data = true) {next : FeedState}
      (log : next.log = state.log ++ [entry]) (tracker : next.tracker = state.tracker)
      {tile : TileData} (holds : tile.Holds [(id, data.tail)]) :
      ∃ earlier blobs, Follows key next tile earlier blobs :=
    ⟨state.log, [entry], log, ⟨entry, [], rfl, keyframe, by simp⟩, holds,
      .behind (by rw [tracker]; exact invariant.lastSent_lt positive newer)⟩
  unfold appendStep
  cases cached : state.tile with
  | none =>
      dsimp only
      split
      · next keyframe =>
          refine ⟨logPositive, logIncreasing, logKnown, invariant.fresh, ?_⟩
          intro tile stored
          cases stored
          exact keyframeFollows keyframe (by rfl) (by rfl) (TileData.holds_ofBlob id data)
      · exact invariant
  | some tile =>
      refine ⟨logPositive, logIncreasing, logKnown, invariant.fresh, ?_⟩
      intro stored same
      cases same
      by_cases keyframe : TileData.isKeyframe data = true
      · exact keyframeFollows keyframe (by rfl) (by rfl) (tile.holds_keyframe id keyframe)
      · obtain ⟨earlier, blobs, follows⟩ := invariant.follows tile cached
        exact ⟨earlier, _, follows.append id (by simpa using keyframe)⟩

theorem FeedInvariant.evict : FeedInvariant key { state with tile := none } where
  positive := invariant.positive
  increasing := invariant.increasing
  known := invariant.known
  fresh := invariant.fresh
  follows := by simp

theorem FeedInvariant.close : FeedInvariant key { state with closed := true } where
  positive := invariant.positive
  increasing := invariant.increasing
  known := invariant.known
  fresh := invariant.fresh
  follows := by
    intro tile stored
    obtain ⟨earlier, blobs, log, chained, holds, served⟩ := invariant.follows tile stored
    refine ⟨earlier, blobs, log, chained, holds, ?_⟩
    cases served with
    | behind older => exact .behind older
    | upTo tracked _ => exact .upTo tracked fun opened => by cases opened

theorem FeedInvariant.reset {desc : TileDesc} (same : desc.cacheKey = key) :
    FeedInvariant key
      { state with tracker := state.tracker.resetTileSeq desc, fresh := true } := by
  have zero : (state.tracker.resetTileSeq desc).lastSent key = 0 := by
    rw [← same]
    exact state.tracker.lastSent_resetTileSeq desc
  refine ⟨invariant.positive, invariant.increasing, .inl zero, fun _ => zero, ?_⟩
  intro tile stored
  obtain ⟨earlier, blobs, log, chained, holds, -⟩ := invariant.follows tile stored
  refine ⟨earlier, blobs, log, chained, holds, ?_⟩
  obtain ⟨first, rest, rfl, -, -⟩ := chained
  refine .behind ?_
  simp only [zero]
  exact invariant.positive first (by rw [log]; simp)

/-- What a send in this state is: the message, if any, and what it leaves the
client with. -/
inductive Sends (state : FeedState) (tile : TileData) (desc : TileDesc) (blobs : List Appended) :
    Prop where
  | keyframe (message : (sendTile state.tracker desc tile).1 =
      some ⟨.tile, desc, concatBlobs blobs⟩)
  | redundant (message : (sendTile state.tracker desc tile).1 = none) {front : List Appended}
      {last : Appended} (blobs_eq : blobs = front ++ [last])
      (client : state.closed = false → state.received = concatBlobs blobs ∧
        ∃ previous, state.sent.getLast? = some previous ∧ previous.desc.wireId = last.wid)
  | delta {front back : List Appended} {last : Appended} (blobs_eq : blobs = front ++ last :: back)
      (message : (sendTile state.tracker desc tile).1 = some ⟨.delta, desc, concatBlobs back⟩)
      (client : state.closed = false → state.received = concatBlobs (front ++ [last]) ∧
        ∃ previous, state.sent.getLast? = some previous ∧ previous.desc.wireId = last.wid)

theorem FeedInvariant.sends {tile : TileData} {earlier blobs : List Appended} {desc : TileDesc}
    (follows : Follows key state tile earlier blobs) (same : desc.cacheKey = key) :
    Sends state tile desc blobs := by
  have increasing : blobs.Pairwise fun left right => left.wid < right.wid := by
    have all := invariant.increasing
    rw [follows.log] at all
    exact (List.pairwise_append.mp all).2.1
  have holds := follows.holds
  cases follows.served with
  | behind older => exact .keyframe (sendTile_behind holds increasing (same ▸ older))
  | @upTo front back last tracked client =>
      have positive : 0 < last.wid :=
        invariant.positive last (by rw [follows.log]; simp)
      have message := sendTile_served holds increasing positive (same ▸ tracked)
      by_cases png : tile.isPng = true
      · exact .keyframe (by rw [message, if_pos png])
      · rw [if_neg png] at message
        by_cases none : back = []
        · subst none
          exact .redundant (by rw [message, if_pos rfl]) rfl client
        · exact .delta rfl (by rw [message, if_neg none]) client

theorem FeedInvariant.received {tile : TileData} {earlier blobs front : List Appended}
    {last : Appended} {desc : TileDesc} (cached : state.tile = some tile)
    (follows : Follows key state tile earlier blobs) (same : desc.cacheKey = key)
    (blobsEq : blobs = front ++ [last]) (lastWid : last.wid = desc.wireId)
    (opened : state.closed = false) :
    (sendStep state desc).received = concatBlobs blobs ∧
      ∃ previous, (sendStep state desc).sent.getLast? = some previous ∧
        previous.desc.wireId = last.wid := by
  rw [sendStep_cached cached]
  cases invariant.sends follows same with
  | keyframe message => simp [deliver, message, opened, receiveMessage, lastWid]
  | @redundant message otherFront other otherEq client =>
      obtain rfl : last = other := by
        rw [blobsEq] at otherEq
        simpa using List.append_inj_right' otherEq rfl
      simpa [deliver, message] using client opened
  | @delta otherFront back other otherEq message client =>
      obtain ⟨received, -⟩ := client opened
      simp [deliver, message, opened, receiveMessage, lastWid, received, otherEq, concatBlobs]

theorem FeedInvariant.send {desc : TileDesc} (allowed : FeedAllowed key state (.send desc)) :
    FeedInvariant key (sendStep state desc) := by
  obtain ⟨same, carries⟩ := allowed
  cases cached : state.tile with
  | none =>
      rw [sendStep, cached]
      exact invariant
  | some tile =>
      obtain ⟨earlier, blobs, follows⟩ := invariant.follows tile cached
      obtain ⟨front, last, blobsEq, lastWid⟩ := follows.last_blob (carries tile cached)
      have client := invariant.received cached follows same blobsEq lastWid
      obtain ⟨log, stored, tracker, closed, fresh⟩ := sendStep_frame cached desc
      have tracked : (sendStep state desc).tracker.lastSent key = last.wid := by
        rw [tracker, ← same, lastWid]
        exact state.tracker.lastSent_updateTileSeq desc
      refine ⟨by rw [log]; exact invariant.positive, by rw [log]; exact invariant.increasing,
        ?_, ?_, ?_⟩
      · refine .inr ⟨last, ?_, by rw [tracked]; exact UInt32.le_refl _⟩
        rw [log, follows.log, blobsEq]
        simp
      · rw [fresh]
        intro impossible
        cases impossible
      · intro other otherStored
        rw [stored, cached] at otherStored
        cases otherStored
        refine ⟨earlier, blobs, by rw [log, follows.log], follows.chained, follows.holds, ?_⟩
        rw [← closed] at client
        rw [blobsEq] at client ⊢
        exact .upTo tracked.symm client

theorem FeedInvariant.step (event : FeedEvent) (allowed : FeedAllowed key state event) :
    FeedInvariant key (feedStep state event) := by
  cases event with
  | append id data => exact invariant.append allowed.2.1 allowed.2.2
  | evict => exact invariant.evict
  | reset desc => exact invariant.reset allowed
  | send desc => exact invariant.send allowed
  | closeFrame => exact invariant.close

theorem FeedInvariant.delta_later {tile : TileData} {earlier blobs : List Appended} {desc : TileDesc}
    (follows : Follows key state tile earlier blobs) (same : desc.cacheKey = key)
    (opened : state.closed = false) {message : TileMessage}
    (sent : (sendTile state.tracker desc tile).1 = some message)
    (isDelta : message.command = .delta) :
    ∃ previous before blob later, state.sent.getLast? = some previous ∧
      state.log = before ++ blob :: later ∧ blob.wid = previous.desc.wireId ∧
      (∀ appended ∈ later, appended.keyframe = false) ∧ message.data = concatBlobs later := by
  cases invariant.sends follows same with
  | keyframe whole =>
      rw [sent] at whole
      cases whole
      cases isDelta
  | redundant none =>
      rw [sent] at none
      cases none
  | @delta front back last blobsEq newer client =>
      rw [sent] at newer
      cases newer
      obtain ⟨-, previous, lastMessage, lastWid⟩ := client opened
      refine ⟨previous, earlier ++ front, last, back, lastMessage, ?_, lastWid.symm, ?_, rfl⟩
      · rw [follows.log, blobsEq, List.append_assoc]
      · obtain ⟨first, rest, rfl, -, deltas⟩ := follows.chained
        intro appended member
        refine deltas appended ?_
        cases front with
        | nil =>
            cases blobsEq
            exact member
        | cons _ front =>
            cases blobsEq
            simp [member]

end Steps

/-!
## The result
-/

/-- What a send of the tile in this state is to be. A delta has exactly the blobs
behind the last message, none of them a keyframe; afterwards the client has all
the data of the tile; and what follows a reset starts with a keyframe. -/
structure SendSound (state : FeedState) (desc : TileDesc) (tile : TileData) : Prop where
  delta : ∀ message, (sendTile state.tracker desc tile).1 = some message →
    message.command = .delta → ∃ previous earlier blob later,
      state.sent.getLast? = some previous ∧ state.log = earlier ++ blob :: later ∧
        blob.wid = previous.desc.wireId ∧ (∀ appended ∈ later, appended.keyframe = false) ∧
        message.data = concatBlobs later
  current : (sendStep state desc).received = tile.deltas
  first : state.fresh = true → ∃ earlier keyframe later,
    state.log = earlier ++ keyframe :: later ∧ keyframe.keyframe = true ∧
      (∀ appended ∈ later, appended.keyframe = false) ∧
      (sendTile state.tracker desc tile).1 =
        some ⟨.tile, desc, concatBlobs (keyframe :: later)⟩

/-- Every send of a cached tile to an open session is sound, after every run of
appends, evictions, resets and sends. -/
theorem feed_sendSound (key : TileKey) (events : List FeedEvent)
    (permitted : Permitted feedStep (FeedAllowed key) FeedState.initial events) (desc : TileDesc)
    (tile : TileData) :
    let state := run feedStep FeedState.initial events
    state.closed = false → state.tile = some tile → FeedAllowed key state (.send desc) →
      SendSound state desc tile := by
  intro state opened cached allowed
  have invariant := run_invariant (FeedInvariant key)
    (fun _ event invariant allowed => FeedInvariant.step invariant event allowed)
    (FeedInvariant.initially key) permitted
  obtain ⟨same, carries⟩ := allowed
  obtain ⟨earlier, blobs, follows⟩ := invariant.follows tile cached
  obtain ⟨front, last, blobsEq, lastWid⟩ := follows.last_blob (carries tile cached)
  refine ⟨?_, ?_, ?_⟩
  · intro message sent isDelta
    exact invariant.delta_later follows same opened sent isDelta
  · rw [(invariant.received cached follows same blobsEq lastWid opened).1,
      ← concatBlobs_blob, follows.holds.deltas]
  · intro fresh
    have zero := invariant.fresh fresh
    obtain ⟨first, rest, rfl, isKeyframe, deltas⟩ := follows.chained
    refine ⟨earlier, first, rest, follows.log, isKeyframe, deltas, ?_⟩
    have increasing := invariant.increasing
    rw [follows.log] at increasing
    refine sendTile_behind follows.holds (List.pairwise_append.mp increasing).2.1 ?_
    rw [same, zero]
    exact invariant.positive first (by rw [follows.log]; simp)

def originDesc (wireId : TileWireId) : TileDesc where
  normalizedViewId := 0
  part := 0
  mode := 0
  width := 256
  height := 256
  tilePosX := 0
  tilePosY := 0
  tileWidth := 3840
  tileHeight := 3840
  ver := 1
  imgSize := 0
  id := -1
  broadcast := false
  oldWireId := 0
  wireId := wireId
  valid := TileDesc.valid_origin

def keyframeThenDeltas : List FeedEvent :=
  [.append 1 [90, 40], .send (originDesc 1), .append 2 [68, 41, 42], .append 4 [68, 43]]

theorem feed_sendSound_deltas :
    let state := run feedStep FeedState.initial keyframeThenDeltas
    let tile : TileData := ⟨true, [1, 2, 4], [0, 1, 3], [40, 41, 42, 43]⟩
    (sendTile state.tracker (originDesc 4) tile).1 = some ⟨.delta, originDesc 4, [41, 42, 43]⟩ ∧
      SendSound state (originDesc 4) tile :=
  ⟨by decide, feed_sendSound (originDesc 0).cacheKey keyframeThenDeltas (by decide) (originDesc 4)
    ⟨true, [1, 2, 4], [0, 1, 3], [40, 41, 42, 43]⟩ rfl rfl (by decide)⟩

end FreeOnline.Tiles
