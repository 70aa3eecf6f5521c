import FreeOnline.Wsd.TileCache

/-!
# Sending tiles to a client

The tracker remembers for each tile the wire id that a session was last sent, so
that only what is newer goes out as a delta.
-/

set_option autoImplicit false

namespace FreeOnline.Wsd

open FreeOnline.Kit (TileWireId)
open FreeOnline.Library

def TileDesc.setWireId (desc : TileDesc) (wireId : TileWireId) : TileDesc :=
  { desc with wireId := wireId }

structure ClientDeltaTracker where
  cache : Keyed TileDesc.cacheKey

namespace ClientDeltaTracker

def setSeq (tracker : ClientDeltaTracker) (desc : TileDesc) (wireId : TileWireId) :
    ClientDeltaTracker where
  cache := tracker.cache.update
    (fun stored => if stored.cacheKey = desc.cacheKey then stored.setWireId wireId else stored) (by
      intro stored
      split <;> rfl)

/-- Returns the wire id of the last tile sent, or 0 if there is none, and updates
it to that of `desc`. -/
def updateTileSeq (tracker : ClientDeltaTracker) (desc : TileDesc) :
    TileWireId × ClientDeltaTracker :=
  match tracker.cache.find? desc.cacheKey with
  | none => (0, ⟨tracker.cache.insert desc⟩)
  | some stored => (stored.wireId, tracker.setSeq desc desc.wireId)

def resetTileSeq (tracker : ClientDeltaTracker) (desc : TileDesc) : ClientDeltaTracker :=
  tracker.setSeq desc 0

def lastSent (tracker : ClientDeltaTracker) (key : TileKey) : TileWireId :=
  match tracker.cache.find? key with
  | none => 0
  | some stored => stored.wireId

theorem updateTileSeq_fst (tracker : ClientDeltaTracker) (desc : TileDesc) :
    (tracker.updateTileSeq desc).1 = tracker.lastSent desc.cacheKey := by
  unfold updateTileSeq lastSent
  split <;> rfl

private theorem lastSent_of_mem {tracker : ClientDeltaTracker} {key : TileKey} {stored : TileDesc}
    (member : stored ∈ tracker.cache) (same : stored.cacheKey = key) :
    tracker.lastSent key = stored.wireId := by
  rw [lastSent, ← same, Keyed.find?_of_mem member]

private theorem lastSent_setSeq {tracker : ClientDeltaTracker} {desc stored : TileDesc}
    (found : tracker.cache.find? desc.cacheKey = some stored) (wireId : TileWireId) :
    (tracker.setSeq desc wireId).lastSent desc.cacheKey = wireId := by
  obtain ⟨member, same⟩ := Keyed.find?_some found
  have changed : stored.setWireId wireId ∈ (tracker.setSeq desc wireId).cache := by
    simp only [setSeq, Keyed.mem_update]
    exact ⟨stored, member, by simp [same]⟩
  exact lastSent_of_mem changed same

theorem lastSent_updateTileSeq (tracker : ClientDeltaTracker) (desc : TileDesc) :
    (tracker.updateTileSeq desc).2.lastSent desc.cacheKey = desc.wireId := by
  unfold updateTileSeq
  cases found : tracker.cache.find? desc.cacheKey with
  | none =>
      have member : desc ∈ tracker.cache.insert desc := (Keyed.mem_insert_new found).mpr (.inr rfl)
      exact lastSent_of_mem member rfl
  | some stored => exact lastSent_setSeq found desc.wireId

theorem lastSent_resetTileSeq (tracker : ClientDeltaTracker) (desc : TileDesc) :
    (tracker.resetTileSeq desc).lastSent desc.cacheKey = 0 := by
  cases found : tracker.cache.find? desc.cacheKey with
  | none =>
      rw [lastSent]
      split
      · rfl
      · next stored stillFound =>
          obtain ⟨member, same⟩ := Keyed.find?_some stillFound
          simp only [resetTileSeq, setSeq, Keyed.mem_update] at member
          obtain ⟨old, oldMember, changed⟩ := member
          have other := Keyed.find?_none found oldMember
          rw [if_neg other] at changed
          rw [changed] at other
          exact absurd same other
  | some stored => exact lastSent_setSeq found 0

theorem lastSent_setSeq_other (tracker : ClientDeltaTracker) {desc : TileDesc} {key : TileKey}
    (different : desc.cacheKey ≠ key) (wireId : TileWireId) :
    (tracker.setSeq desc wireId).lastSent key = tracker.lastSent key := by
  rw [lastSent, lastSent, setSeq, Keyed.find?_update]
  cases found : tracker.cache.find? key with
  | none => rfl
  | some stored =>
      have isOther : stored.cacheKey ≠ desc.cacheKey :=
        fun same => different (same.symm.trans (Keyed.find?_some found).2)
      rw [Option.map_some, if_neg isOther]

theorem lastSent_updateTileSeq_other (tracker : ClientDeltaTracker) {desc : TileDesc} {key : TileKey}
    (different : desc.cacheKey ≠ key) :
    (tracker.updateTileSeq desc).2.lastSent key = tracker.lastSent key := by
  unfold updateTileSeq
  cases found : tracker.cache.find? desc.cacheKey with
  | none =>
      dsimp only
      rw [lastSent, lastSent, Keyed.find?_insert_other found different]
  | some stored => exact lastSent_setSeq_other tracker different desc.wireId

end ClientDeltaTracker

/-!
## Tile messages
-/

inductive TileCommand where
  | tile
  | delta
deriving DecidableEq, Repr

structure TileMessage where
  command : TileCommand
  desc : TileDesc
  data : List UInt8
deriving DecidableEq

/-- The message that `sendTile` hands on, if the request is not redundant, and
the tracker afterwards. -/
def sendTile (tracker : ClientDeltaTracker) (desc : TileDesc) (tile : TileData) :
    Option TileMessage × ClientDeltaTracker :=
  let (lastSentId, tracker) := tracker.updateTileSeq desc
  let command := if tile.needsKeyframe lastSentId || tile.isPng then .tile else .delta
  match tile.appendChangesSince [] (if tile.isPng then 0 else lastSentId) with
  | (true, data) => (some ⟨command, desc, data⟩, tracker)
  | (false, _) => (none, tracker)

end FreeOnline.Wsd
