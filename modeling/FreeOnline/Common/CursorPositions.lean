import FreeOnline.Common.TileQueueOrder
import FreeOnline.Library.Keyed
import FreeOnline.Library.Recency

/-!
# Cursor positions of the tile queue

The map and the vector in which the queue keeps the cursors of the views. A look for the priority
of a tile can add to the map.
-/

set_option autoImplicit false

namespace FreeOnline.Common

open FreeOnline.Library
open FreeOnline.Wsd (TileDesc)
open TileQueue (isPlain isPreview)

abbrev CursorPositions := Keyed (Prod.fst : Int × CursorPosition → Int)

/-- What the tile queue has of the cursors. -/
structure Cursors where
  cursorPositions : CursorPositions
  /-- From the oldest to the newest. -/
  viewOrder : List Int

namespace Cursors

def empty : Cursors := ⟨Keyed.empty, []⟩

def updateCursorPosition (cursors : Cursors) (viewId part x y width height : Int) : Cursors :=
  let cursorPosition : CursorPosition := ⟨part, ⟨x, y, width, height⟩⟩
  { cursorPositions :=
      match cursors.cursorPositions.find? viewId with
      | some _ => cursors.cursorPositions.replace (viewId, cursorPosition)
      | none => cursors.cursorPositions.insert (viewId, cursorPosition)
    viewOrder := cursors.viewOrder.erase viewId ++ [viewId] }

def removeCursorPosition (cursors : Cursors) (viewId : Int) : Cursors where
  cursorPositions := cursors.cursorPositions.filter fun entry => entry.1 ≠ viewId
  viewOrder := cursors.viewOrder.erase viewId

/-!
## Looking at the cursors
-/

/-- The index operator of the map, which adds what is not there. -/
def cursorOf (cursors : Cursors) (viewId : Int) : CursorPosition × Cursors :=
  match cursors.cursorPositions.find? viewId with
  | some entry => (entry.2, cursors)
  | none =>
      (.none, { cursors with
        cursorPositions := cursors.cursorPositions.insert (viewId, .none) })

/-- The views from the last one on. -/
def priorityAmong (cursors : Cursors) (tile : TileDesc) : List Int → Int × Cursors
  | [] => (-1, cursors)
  | viewId :: before =>
      let (cursor, cursors) := cursors.cursorOf viewId
      if Invalidations.RectanglesIntersect (tileArea tile) cursor.area then (before.length, cursors)
      else cursors.priorityAmong tile before

def priority (cursors : Cursors) (tile : TileDesc) : Int × Cursors :=
  cursors.priorityAmong tile cursors.viewOrder.reverse

/-- The loop over the queue from index `i` on. An exception is none, and leaves the cursors as they
are by then. -/
def findPrioritized (cursors : Cursors) (i prioritized : Nat) (prioritySoFar : Int) :
    List Payload → Option Nat × Cursors
  | [] => (some prioritized, cursors)
  | prio :: rest =>
      if !isPlain prio then (some prioritized, cursors)
      else
        match TileDesc.parseMessage prio with
        | none => (none, cursors)
        | some tile =>
            let (p, cursors) := cursors.priority tile
            if p > prioritySoFar then
              if p = (cursors.viewOrder.length : Int) - 1 then (some i, cursors)
              else cursors.findPrioritized (i + 1) i p rest
            else cursors.findPrioritized (i + 1) prioritized prioritySoFar rest

/-- The message that is taken of this queue and the queue without it, and the cursors afterwards. -/
def getImpl (cursors : Cursors) (queue : List Payload) :
    Option (Payload × List Payload) × Cursors :=
  match queue with
  | [] => (none, cursors)
  | front :: rest =>
      if isPlain front then
        let (found, cursors) := cursors.findPrioritized 0 0 (-1) (front :: rest)
        (do
          let prioritized ← found
          let first ← TileDesc.parseMessage ((front :: rest).getD prioritized front)
          let (tiles, left) ← TileQueue.combineWith first ((front :: rest).eraseIdx prioritized)
          let result ← TileQueue.combinedText (first :: tiles)
          return (result, left), cursors)
      else if isPreview front then
        (some (front, TileQueue.deprioritizePreviews rest.length rest), cursors)
      else (some (front, rest), cursors)

end Cursors

/-- A call that reads or changes the cursors. Between the calls the queue can become any. -/
inductive CursorCall where
  | updateCursorPosition (viewId part x y width height : Int)
  | removeCursorPosition (viewId : Int)
  | get (queue : List Payload)

namespace Cursors

def step (cursors : Cursors) : CursorCall → Cursors
  | .updateCursorPosition viewId part x y width height =>
      cursors.updateCursorPosition viewId part x y width height
  | .removeCursorPosition viewId => cursors.removeCursorPosition viewId
  | .get queue => (cursors.getImpl queue).2

/-!
## What is expected
-/

def position? (cursors : Cursors) (viewId : Int) : Option CursorPosition :=
  (cursors.cursorPositions.find? viewId).map Prod.snd

/-- The queue with these cursors, where a view without a position has the empty one. -/
def toTileQueue (cursors : Cursors) (queue : List Payload) : TileQueue where
  queue := queue
  cursorPositions viewId := (cursors.position? viewId).getD .none
  viewOrder := cursors.viewOrder

end Cursors

/-- What the call means for the views. -/
def CursorCall.change : CursorCall → Option (Change Int CursorPosition)
  | .updateCursorPosition viewId part x y width height =>
      some (.set viewId ⟨part, ⟨x, y, width, height⟩⟩)
  | .removeCursorPosition viewId => some (.remove viewId)
  | .get _ => none

/-- The changes of the calls, with the last one first. -/
def CursorCall.changes (calls : List CursorCall) : List (Change Int CursorPosition) :=
  (calls.filterMap CursorCall.change).reverse

theorem CursorCall.changes_append (calls : List CursorCall) (call : CursorCall) :
    changes (calls ++ [call]) = call.change.toList ++ changes calls := by
  rw [changes, List.filterMap_append, List.reverse_append]
  cases isChange : call.change with
  | none => simp [isChange, changes]
  | some change => simp [isChange, changes]

namespace Cursors

variable {cursors : Cursors}

/-!
## What the calls do to the positions
-/

theorem position?_eq_some {viewId : Int} {position : CursorPosition} :
    cursors.position? viewId = some position ↔ (viewId, position) ∈ cursors.cursorPositions := by
  rw [position?, Option.map_eq_some_iff]
  constructor
  · intro found
    obtain ⟨⟨other, stored⟩, isFound, isPosition⟩ := found
    obtain ⟨member, isView⟩ := Keyed.find?_some isFound
    cases isView
    cases isPosition
    exact member
  · intro member
    exact ⟨(viewId, position), Keyed.find?_of_mem member, rfl⟩

theorem position?_updateCursorPosition (cursors : Cursors) (viewId part x y width height : Int) :
    (cursors.updateCursorPosition viewId part x y width height).position? =
      fun wanted => if viewId = wanted then some ⟨part, ⟨x, y, width, height⟩⟩
        else cursors.position? wanted := by
  funext wanted
  apply Option.ext
  intro position
  rw [position?_eq_some, updateCursorPosition]
  cases found : cursors.cursorPositions.find? viewId with
  | some old =>
      obtain ⟨member, isView⟩ := Keyed.find?_some found
      rw [Keyed.mem_replace member isView]
      split
      · next same => simp [same, eq_comm]
      · next other => simp [Ne.symm other, position?_eq_some]
  | none =>
      rw [Keyed.mem_insert_new found]
      split
      · next same =>
          cases same
          have missing : (viewId, position) ∉ cursors.cursorPositions :=
            fun member => Keyed.find?_none found member rfl
          simp [missing, eq_comm]
      · next other => simp [Ne.symm other, position?_eq_some]

theorem position?_removeCursorPosition (cursors : Cursors) (viewId : Int) :
    (cursors.removeCursorPosition viewId).position? =
      fun wanted => if viewId = wanted then none else cursors.position? wanted := by
  funext wanted
  apply Option.ext
  intro position
  rw [position?_eq_some, removeCursorPosition, Keyed.mem_filter]
  split
  · next same => simp [same]
  · next other => simp [Ne.symm other, position?_eq_some]

/-!
## A look for priorities changes nothing
-/

/-- Every view in the order has a position. -/
def Covers (cursors : Cursors) (views : List Int) : Prop :=
  ∀ viewId ∈ views, (cursors.position? viewId).isSome = true

theorem cursorOf_eq {viewId : Int} (isStored : (cursors.position? viewId).isSome = true) :
    cursors.cursorOf viewId = ((cursors.position? viewId).getD .none, cursors) := by
  unfold cursorOf
  rw [position?, Option.isSome_map] at isStored
  rw [position?]
  cases found : cursors.cursorPositions.find? viewId with
  | none =>
      rw [found] at isStored
      cases isStored
  | some entry => rfl

theorem priorityAmong_eq (queue : List Payload) (tile : TileDesc) {views : List Int}
    (covers : cursors.Covers views) :
    cursors.priorityAmong tile views =
      ((cursors.toTileQueue queue).priorityAmong tile views, cursors) := by
  induction views with
  | nil => rfl
  | cons viewId before ih =>
      have others := ih fun other member => covers other (List.mem_cons_of_mem _ member)
      rw [priorityAmong, cursorOf_eq (covers viewId List.mem_cons_self), TileQueue.priorityAmong]
      by_cases meets : Invalidations.RectanglesIntersect (tileArea tile)
          ((cursors.toTileQueue queue).cursorPositions viewId).area
      · rw [if_pos meets]
        exact if_pos meets
      · rw [if_neg meets, ← others]
        exact if_neg meets

theorem priority_eq (queue : List Payload) (tile : TileDesc)
    (covers : cursors.Covers cursors.viewOrder) :
    cursors.priority tile = ((cursors.toTileQueue queue).priority tile, cursors) :=
  priorityAmong_eq queue tile fun viewId member => covers viewId (List.mem_reverse.mp member)

theorem findPrioritized_eq (queue : List Payload) (covers : cursors.Covers cursors.viewOrder)
    (i prioritized : Nat) (prioritySoFar : Int) (messages : List Payload) :
    cursors.findPrioritized i prioritized prioritySoFar messages =
      ((cursors.toTileQueue queue).findPrioritized i prioritized prioritySoFar messages,
        cursors) := by
  induction messages generalizing i prioritized prioritySoFar with
  | nil => rfl
  | cons prio rest ih =>
      rw [findPrioritized, TileQueue.findPrioritized]
      split
      · rfl
      · cases isTile : TileDesc.parseMessage prio with
        | none => rfl
        | some tile =>
            simp only [priority_eq queue tile covers, ih, Option.bind_eq_bind, Option.bind_some]
            split
            · split
              · next highest => rw [if_pos (by exact highest)]
              · next higher => rw [if_neg (by exact higher)]
            · rfl

/-- What is taken is what the queue with these cursors gives, and the cursors stay. -/
theorem getImpl_eq (queue : List Payload) (covers : cursors.Covers cursors.viewOrder) :
    cursors.getImpl queue = ((cursors.toTileQueue queue).getImpl, cursors) := by
  cases queue with
  | nil => rfl
  | cons front rest =>
      rw [getImpl, TileQueue.getImpl]
      dsimp only [toTileQueue]
      split
      · have looked := findPrioritized_eq (front :: rest) covers 0 0 (-1) (front :: rest)
        rw [looked]
        rfl
      · split
        · rfl
        · rfl

/-!
## Runs
-/

/-- The cursors are as the calls left them. -/
def IsKept (calls : List CursorCall) (cursors : Cursors) : Prop :=
  IsRecent (CursorCall.changes calls) cursors.position? cursors.viewOrder

theorem IsKept.covers {calls : List CursorCall} (isKept : IsKept calls cursors) :
    cursors.Covers cursors.viewOrder :=
  fun viewId member => (isKept.member viewId).mp member

theorem isKept_step {calls : List CursorCall} (isKept : IsKept calls cursors) (call : CursorCall) :
    IsKept (calls ++ [call]) (cursors.step call) := by
  unfold IsKept
  rw [CursorCall.changes_append]
  cases call with
  | updateCursorPosition viewId part x y width height =>
      rw [step, position?_updateCursorPosition]
      exact isKept.set viewId ⟨part, ⟨x, y, width, height⟩⟩
  | removeCursorPosition viewId =>
      rw [step, position?_removeCursorPosition]
      exact isKept.remove viewId
  | get queue =>
      rw [step, getImpl_eq queue isKept.covers]
      exact isKept

/-- After any calls the order has each view with a position once, by its last update, and each
position is the one of the last update. -/
theorem isKept_run (calls : List CursorCall) : IsKept calls (run step empty calls) := by
  induction calls using List.reverseRecOn with
  | nil => exact IsRecent.empty
  | append_singleton calls call ih =>
      rw [run, List.foldl_append]
      exact isKept_step ih call

end Cursors

end FreeOnline.Common
