import FreeOnline.Common.TileQueue
import FreeOnline.Library.Run
import Mathlib.Data.List.Induction
import Mathlib.Data.List.TakeWhile

/-!
# The order of the kit's queue

What is taken of the queue: tiles near the cursor of the view that moved it last come first, and
all tiles that can be rendered together with the chosen one come with it.
-/

set_option autoImplicit false

namespace FreeOnline.Common

open FreeOnline.Library
open FreeOnline.Wsd (TileCombined TileDesc TilePairs)

/-!
## Tiles on one row
-/

/-- What the tile shows of the document. -/
def tileArea (tile : TileDesc) : Area :=
  ⟨tile.tilePosX, tile.tilePosY, tile.tileWidth, tile.tileHeight⟩

def onSameRow (tile other : TileDesc) : Bool :=
  if other.part ≠ tile.part ∨ other.mode ≠ tile.mode ∨ other.width ≠ tile.width ∨
      other.height ≠ tile.height ∨ other.tileWidth ≠ tile.tileWidth ∨
      other.tileHeight ≠ tile.tileHeight ∨ other.normalizedViewId ≠ tile.normalizedViewId then false
  else
    Invalidations.intBottom (tileArea other) ≥ tile.tilePosY ∧
      other.tilePosY ≤ Invalidations.intBottom (tileArea tile)

/-- A 4k screen is sixteen tiles of 256 pixels wide. -/
def canCombine (tile other : TileDesc) : Bool :=
  if !onSameRow tile other then false
  else
    let delta := tile.tilePosX / tile.tileWidth - other.tilePosX / other.tileWidth
    delta ≥ -16 ∧ delta ≤ 16

/-!
## The queue and its cursors
-/

structure CursorPosition where
  part : Int
  area : Area

def CursorPosition.none : CursorPosition := ⟨0, ⟨0, 0, 0, 0⟩⟩

structure TileQueue where
  queue : List Payload
  /-- Views without one have the empty cursor position. -/
  cursorPositions : Int → CursorPosition
  /-- The view whose cursor moved last is the last one. -/
  viewOrder : List Int

namespace TileQueue

def updateCursorPosition (tileQueue : TileQueue) (viewId : Int) (cursorPosition : CursorPosition) :
    TileQueue :=
  { tileQueue with
    cursorPositions := fun other =>
      if other = viewId then cursorPosition else tileQueue.cursorPositions other
    viewOrder := tileQueue.viewOrder.erase viewId ++ [viewId] }

def removeCursorPosition (tileQueue : TileQueue) (viewId : Int) : TileQueue :=
  { tileQueue with
    cursorPositions := fun other =>
      if other = viewId then CursorPosition.none else tileQueue.cursorPositions other
    viewOrder := tileQueue.viewOrder.erase viewId }

/-- The views from the last one on. -/
def priorityAmong (tileQueue : TileQueue) (tile : TileDesc) : List Int → Int
  | [] => -1
  | viewId :: before =>
      if Invalidations.RectanglesIntersect (tileArea tile) (tileQueue.cursorPositions viewId).area then
        before.length
      else tileQueue.priorityAmong tile before

def priority (tileQueue : TileQueue) (tile : TileDesc) : Int :=
  tileQueue.priorityAmong tile tileQueue.viewOrder.reverse

/-!
## Taking a message
-/

def isTile (message : Payload) : Bool :=
  matchPrefix "tile".toList message

def isPreview (message : Payload) : Bool :=
  isTile message && (getTokenStringFromMessage message "id".toList).isSome

/-- A tile that is no preview. -/
def isPlain (message : Payload) : Bool :=
  isTile message && !(getTokenStringFromMessage message "id".toList).isSome

/-- As many times as there are messages. -/
def deprioritizePreviews : Nat → List Payload → List Payload
  | 0, queue => queue
  | _ + 1, [] => []
  | times + 1, front :: rest =>
      if isPreview front then deprioritizePreviews times (rest ++ [front]) else front :: rest

/-- The loop over the queue from index `i` on. Stops at the first message that is no plain tile, to
avoid starving. -/
def findPrioritized (tileQueue : TileQueue) (i prioritized : Nat) (prioritySoFar : Int) :
    List Payload → Option Nat
  | [] => some prioritized
  | prio :: rest =>
      if !isPlain prio then some prioritized
      else do
        let tile ← TileDesc.parseMessage prio
        let p := tileQueue.priority tile
        if p > prioritySoFar then
          if p = (tileQueue.viewOrder.length : Int) - 1 then some i
          else tileQueue.findPrioritized (i + 1) i p rest
        else tileQueue.findPrioritized (i + 1) prioritized prioritySoFar rest

/-- The tiles that are combined with this one, and what is left in the queue. -/
def combineWith (first : TileDesc) : List Payload → Option (List TileDesc × List Payload)
  | [] => some ([], [])
  | msg :: rest =>
      if !isPlain msg then (combineWith first rest).map fun (tiles, left) => (tiles, msg :: left)
      else do
        let tile2 ← TileDesc.parseMessage msg
        let (tiles, left) ← combineWith first rest
        if canCombine first tile2 then some (tile2 :: tiles, left) else some (tiles, msg :: left)

/-- Later tiles at a position that was seen are dropped. -/
def dropDuplicates (seen : List (Int × Int)) : List TileDesc → List TileDesc
  | [] => []
  | tile :: rest =>
      if TileCombined.position tile ∈ seen then dropDuplicates seen rest
      else tile :: dropDuplicates (TileCombined.position tile :: seen) rest

/-- The text of the result. -/
def combinedText (tiles : List TileDesc) : Option Payload :=
  match tiles with
  | [] => none
  | [tile] => some (tile.serialize "tile".toList)
  | _ =>
      match dropDuplicates [] tiles with
      | [] => none
      | first :: rest =>
          (TileCombined.createOf first rest).map fun combined =>
            combined.serialize "tilecombine".toList

/-- The message that is taken, and the queue without it. An exception is none. -/
def getImpl (tileQueue : TileQueue) : Option (Payload × List Payload) :=
  match tileQueue.queue with
  | [] => none
  | front :: rest =>
      if isPlain front then do
        let prioritized ← tileQueue.findPrioritized 0 0 (-1) (front :: rest)
        let first ← TileDesc.parseMessage ((front :: rest).getD prioritized front)
        let (tiles, left) ← combineWith first ((front :: rest).eraseIdx prioritized)
        let result ← combinedText (first :: tiles)
        return (result, left)
      else if isPreview front then some (front, deprioritizePreviews rest.length rest)
      else some (front, rest)

/-!
## What is expected
-/

/-- Plain tiles can be read. -/
def IsWellFormed (message : Payload) : Prop :=
  isPlain message = true → (TileDesc.parseMessage message).isSome = true

/-- The priority of a message that is a tile. -/
def messagePriority (tileQueue : TileQueue) (message : Payload) : Int :=
  ((TileDesc.parseMessage message).map tileQueue.priority).getD (-1)

/-- A plain tile that is combined with this one. -/
def isCombinedWith (first : TileDesc) (message : Payload) : Bool :=
  isPlain message && (TileDesc.parseMessage message).any (canCombine first)

/-- Of tiles at the same position only the first one is kept. -/
structure KeepsFirst (tiles kept : List TileDesc) : Prop where
  sublist : kept.Sublist tiles
  distinct : (kept.map TileCombined.position).Nodup
  isFirst : ∀ tile ∈ tiles, ∃ first ∈ kept,
    tiles.find? (fun other => TileCombined.position other = TileCombined.position tile) = some first

/-- The text of a tile on its own, or of a combined request. -/
inductive IsResult (first : TileDesc) : List TileDesc → Payload → Prop
  | alone : IsResult first [] (first.serialize "tile".toList)
  | combined {others kept : List TileDesc} (several : others ≠ [])
      (keepsFirst : KeepsFirst (first :: others) (first :: kept)) :
      IsResult first others ((TileCombined.create first kept).serialize "tilecombine".toList)

/-- What is taken of the queue and what stays. -/
inductive Gets (tileQueue : TileQueue) : Payload → List Payload → Prop
  | message {front : Payload} {rest : List Payload} (isQueue : tileQueue.queue = front :: rest)
      (noTile : isTile front = false) : Gets tileQueue front rest
  | preview {front : Payload} {previews rest : List Payload}
      (isQueue : tileQueue.queue = front :: (previews ++ rest)) (isFront : isPreview front = true)
      (arePreviews : ∀ message ∈ previews, isPreview message = true)
      (stops : ∀ message ∈ rest.head?, isPreview message = false) :
      Gets tileQueue front (rest ++ previews)
  | tiles {before after : List Payload} {message result : Payload} {first : TileDesc}
      (isQueue : tileQueue.queue = before ++ message :: after)
      (isFirst : TileDesc.parseMessage message = some first) (plain : isPlain message = true)
      (plainBefore : ∀ other ∈ before, isPlain other = true ∧
        tileQueue.messagePriority other < tileQueue.messagePriority message)
      (best : ∀ other ∈ after.takeWhile isPlain,
        tileQueue.messagePriority other ≤ tileQueue.messagePriority message)
      (isResult : IsResult first (((before ++ after).filter (isCombinedWith first)).filterMap
        TileDesc.parseMessage) result) :
      Gets tileQueue result ((before ++ after).filter fun other => !isCombinedWith first other)

/-!
## Priorities
-/

variable {tileQueue : TileQueue} {tile : TileDesc}

theorem priorityAmong_bounds (tileQueue : TileQueue) (tile : TileDesc) (views : List Int) :
    -1 ≤ tileQueue.priorityAmong tile views ∧
      tileQueue.priorityAmong tile views < views.length := by
  induction views with
  | nil => exact ⟨Int.le_refl _, Int.negSucc_lt_zero 0⟩
  | cons viewId before ih =>
      rw [priorityAmong, List.length_cons]
      split
      · omega
      · omega

theorem priority_bounds (tileQueue : TileQueue) (tile : TileDesc) :
    -1 ≤ tileQueue.priority tile ∧ tileQueue.priority tile < tileQueue.viewOrder.length := by
  have bounds := tileQueue.priorityAmong_bounds tile tileQueue.viewOrder.reverse
  rwa [List.length_reverse] at bounds

/-!
## The first one of the highest priority
-/

/-- The message at index `k` is the first of those with the highest priority, which is `p`. -/
structure IsPrioritized (tileQueue : TileQueue) (messages : List Payload) (k : Nat) (p : Int) :
    Prop where
  isThere : ∃ message, messages[k]? = some message ∧ tileQueue.messagePriority message = p
  before : ∀ other ∈ messages.take k, tileQueue.messagePriority other < p
  after : ∀ other ∈ messages.drop (k + 1), tileQueue.messagePriority other ≤ p

theorem IsPrioritized.append {seen more : List Payload} {k : Nat} {p : Int}
    (prioritized : IsPrioritized tileQueue seen k p)
    (lower : ∀ other ∈ more, tileQueue.messagePriority other ≤ p) :
    IsPrioritized tileQueue (seen ++ more) k p := by
  obtain ⟨message, isThere, isPriority⟩ := prioritized.isThere
  have inside := (List.getElem?_eq_some_iff.mp isThere).1
  refine ⟨⟨message, by rwa [List.getElem?_append_left inside], isPriority⟩, ?_, ?_⟩
  · rw [List.take_append_of_le_length (Nat.le_of_lt inside)]
    exact prioritized.before
  · rw [List.drop_append_of_le_length inside]
    intro other member
    cases List.mem_append.mp member with
    | inl old => exact prioritized.after other old
    | inr new => exact lower other new

theorem IsPrioritized.le {seen : List Payload} {k : Nat} {p : Int}
    (prioritized : IsPrioritized tileQueue seen k p) :
    ∀ other ∈ seen, tileQueue.messagePriority other ≤ p := by
  obtain ⟨message, isThere, isPriority⟩ := prioritized.isThere
  obtain ⟨inside, isMessage⟩ := List.getElem?_eq_some_iff.mp isThere
  intro other member
  rw [← List.take_append_drop k seen, List.drop_eq_getElem_cons inside, isMessage] at member
  cases List.mem_append.mp member with
  | inl early => exact Int.le_of_lt (prioritized.before other early)
  | inr rest =>
      cases List.mem_cons.mp rest with
      | inl same => exact Int.le_of_eq (same ▸ isPriority)
      | inr late => exact prioritized.after other late

theorem IsPrioritized.next {seen : List Payload} {k : Nat} {p : Int} {message : Payload}
    (prioritized : IsPrioritized tileQueue seen k p)
    (higher : p < tileQueue.messagePriority message) :
    IsPrioritized tileQueue (seen ++ [message]) seen.length
      (tileQueue.messagePriority message) where
  isThere := ⟨message, by simp, rfl⟩
  before := by
    rw [List.take_left' rfl]
    exact fun other member => Int.lt_of_le_of_lt (prioritized.le other member) higher
  after := by
    rw [List.drop_of_length_le (by simp)]
    exact fun _ member => absurd member List.not_mem_nil

theorem messagePriority_le (tileQueue : TileQueue) (message : Payload) :
    tileQueue.messagePriority message ≤ (tileQueue.viewOrder.length : Int) - 1 := by
  unfold messagePriority
  cases TileDesc.parseMessage message with
  | none => exact Int.sub_le_sub_right (Int.natCast_nonneg _) 1
  | some tile =>
      have bounds := tileQueue.priority_bounds tile
      exact Int.le_sub_one_of_lt bounds.2

theorem findPrioritized_spec {rest : List Payload} (wellFormed : ∀ message ∈ rest, IsWellFormed message)
    {seen : List Payload} {k : Nat} {p : Int} (prioritized : IsPrioritized tileQueue seen k p) :
    ∃ best q, tileQueue.findPrioritized seen.length k p rest = some best ∧
      IsPrioritized tileQueue (seen ++ rest.takeWhile isPlain) best q := by
  induction rest generalizing seen k p with
  | nil => exact ⟨k, p, rfl, by rwa [List.takeWhile_nil, List.append_nil]⟩
  | cons message rest ih =>
      have laterWellFormed : ∀ other ∈ rest, IsWellFormed other :=
        fun other member => wellFormed other (List.mem_cons_of_mem _ member)
      cases plain : isPlain message with
      | false =>
          refine ⟨k, p, by simp [findPrioritized, plain], ?_⟩
          rw [List.takeWhile_cons, plain]
          simpa using prioritized
      | true =>
          obtain ⟨tile, isTile⟩ := Option.isSome_iff_exists.mp
            (wellFormed message List.mem_cons_self plain)
          have isPriority : tileQueue.messagePriority message = tileQueue.priority tile := by
            simp [messagePriority, isTile]
          have run : seen ++ (message :: rest).takeWhile isPlain =
              (seen ++ [message]) ++ rest.takeWhile isPlain := by
            simp [plain]
          have length : (seen ++ [message]).length = seen.length + 1 := by simp
          rw [run, findPrioritized, plain, isTile]
          simp only [Bool.not_true, Bool.false_eq_true, ↓reduceIte, Option.bind_eq_bind,
            Option.bind_some, ← isPriority]
          split
          · next higher =>
              have next := prioritized.next higher
              split
              · next highest =>
                  refine ⟨seen.length, _, rfl, next.append fun other _ => ?_⟩
                  rw [highest]
                  exact tileQueue.messagePriority_le other
              · rw [← length]
                exact ih laterWellFormed next
          · next lower =>
              rw [← length]
              refine ih laterWellFormed (prioritized.append fun other member => ?_)
              rw [List.mem_singleton.mp member]
              exact Int.not_lt.mp lower

/-- The search that begins at the front, which is a plain tile. -/
theorem findPrioritized_front {front : Payload} {rest : List Payload}
    (wellFormed : ∀ message ∈ front :: rest, IsWellFormed message) (plain : isPlain front = true) :
    ∃ best q, tileQueue.findPrioritized 0 0 (-1) (front :: rest) = some best ∧
      IsPrioritized tileQueue ((front :: rest).takeWhile isPlain) best q := by
  have laterWellFormed : ∀ other ∈ rest, IsWellFormed other :=
    fun other member => wellFormed other (List.mem_cons_of_mem _ member)
  obtain ⟨tile, isTile⟩ := Option.isSome_iff_exists.mp
    (wellFormed front List.mem_cons_self plain)
  have isPriority : tileQueue.messagePriority front = tileQueue.priority tile := by
    simp [messagePriority, isTile]
  have onlyOne : IsPrioritized tileQueue [front] 0 (tileQueue.priority tile) :=
    ⟨⟨front, rfl, isPriority⟩, nofun, nofun⟩
  have run : (front :: rest).takeWhile isPlain = [front] ++ rest.takeWhile isPlain := by
    simp [plain]
  rw [run, findPrioritized, plain, isTile]
  simp only [Bool.not_true, Bool.false_eq_true, ↓reduceIte, Option.bind_eq_bind, Option.bind_some]
  split
  · split
    · next highest =>
        refine ⟨0, _, rfl, onlyOne.append fun other _ => ?_⟩
        rw [highest]
        exact tileQueue.messagePriority_le other
    · exact findPrioritized_spec laterWellFormed onlyOne
  · next lowest =>
      have lower := (tileQueue.priority_bounds tile).1
      have isLowest : tileQueue.priority tile = -1 := by omega
      rw [isLowest] at onlyOne
      exact findPrioritized_spec laterWellFormed onlyOne

/-!
## Tiles that are combined
-/

theorem combineWith_eq (first : TileDesc) {queue : List Payload}
    (wellFormed : ∀ message ∈ queue, IsWellFormed message) :
    combineWith first queue =
      some ((queue.filter (isCombinedWith first)).filterMap TileDesc.parseMessage,
        queue.filter fun other => !isCombinedWith first other) := by
  induction queue with
  | nil => rfl
  | cons message rest ih =>
      have later := ih fun other member => wellFormed other (List.mem_cons_of_mem _ member)
      rw [combineWith, later]
      cases plain : isPlain message with
      | false => simp [isCombinedWith, plain]
      | true =>
          obtain ⟨tile, isTile⟩ := Option.isSome_iff_exists.mp
            (wellFormed message List.mem_cons_self plain)
          cases combines : canCombine first tile with
          | false => simp [isCombinedWith, plain, isTile, combines]
          | true => simp [isCombinedWith, plain, isTile, combines]

theorem dropDuplicates_spec (seen : List (Int × Int)) (tiles : List TileDesc) :
    (dropDuplicates seen tiles).Sublist tiles ∧
      ((dropDuplicates seen tiles).map TileCombined.position).Nodup ∧
      (∀ tile ∈ dropDuplicates seen tiles, TileCombined.position tile ∉ seen) ∧
      ∀ tile ∈ tiles, TileCombined.position tile ∉ seen →
        ∃ first ∈ dropDuplicates seen tiles,
          tiles.find? (fun other => TileCombined.position other = TileCombined.position tile) =
            some first := by
  induction tiles generalizing seen with
  | nil =>
      exact ⟨List.Sublist.refl _, List.nodup_nil, fun _ member => absurd member List.not_mem_nil,
        fun _ member => absurd member List.not_mem_nil⟩
  | cons tile rest ih =>
      rw [dropDuplicates]
      split
      · next known =>
          obtain ⟨sublist, distinct, unseen, isFirst⟩ := ih seen
          refine ⟨sublist.cons tile, distinct, unseen, fun other member notSeen => ?_⟩
          cases member with
          | head => exact absurd known notSeen
          | tail _ later =>
              obtain ⟨first, kept, found⟩ := isFirst other later notSeen
              refine ⟨first, kept, ?_⟩
              have different : TileCombined.position tile ≠ TileCombined.position other := by
                intro same
                rw [← same] at notSeen
                exact notSeen known
              rw [List.find?_cons_of_neg (by simpa using different), found]
      · next new =>
          obtain ⟨sublist, distinct, unseen, isFirst⟩ := ih (TileCombined.position tile :: seen)
          refine ⟨sublist.cons_cons tile, ?_, ?_, fun other member notSeen => ?_⟩
          · rw [List.map_cons, List.nodup_cons]
            refine ⟨fun again => ?_, distinct⟩
            obtain ⟨other, kept, same⟩ := List.mem_map.mp again
            refine unseen other kept ?_
            rw [same]
            exact List.mem_cons_self
          · intro other member
            cases member with
            | head => exact new
            | tail _ later => exact fun old => unseen other later (List.mem_cons_of_mem _ old)
          · by_cases same : TileCombined.position tile = TileCombined.position other
            · exact ⟨tile, List.mem_cons_self, List.find?_cons_of_pos (decide_eq_true same)⟩
            · have later : other ∈ rest := by
                cases List.mem_cons.mp member with
                | inl isTile => exact absurd (isTile ▸ rfl) same
                | inr later => exact later
              have stillNew : TileCombined.position other ∉ TileCombined.position tile :: seen := by
                rw [List.mem_cons, not_or]
                exact ⟨Ne.symm same, notSeen⟩
              obtain ⟨first, kept, found⟩ := isFirst other later stillNew
              refine ⟨first, List.mem_cons_of_mem _ kept, ?_⟩
              rw [List.find?_cons_of_neg (by simpa using same), found]

theorem keepsFirst_dropDuplicates (tiles : List TileDesc) :
    KeepsFirst tiles (dropDuplicates [] tiles) := by
  obtain ⟨sublist, distinct, -, isFirst⟩ := dropDuplicates_spec [] tiles
  exact ⟨sublist, distinct, fun tile member => isFirst tile member List.not_mem_nil⟩

/-!
## Readable tiles
-/

theorem fits_parseToken {known : TilePairs}
    (fits : ∀ name, -intMax - 1 ≤ known.pairs name ∧ known.pairs name ≤ intMax) (token name : Text) :
    -intMax - 1 ≤ (known.parseToken token).pairs name ∧
      (known.parseToken token).pairs name ≤ intMax := by
  unfold TilePairs.parseToken
  dsimp only
  split
  · exact fits name
  · split
    · exact fits name
    · cases isPair : getNameIntegerPair token with
      | none => exact fits name
      | some pair =>
          obtain ⟨other, value⟩ := pair
          have bounds : value > -intMax - 1 ∧ value < intMax := by
            unfold getNameIntegerPair at isPair
            split at isPair
            · cases isPair
            · dsimp only at isPair
              split at isPair
              · next inside =>
                  cases isPair
                  exact inside
              · cases isPair
          simp only [TilePairs.set]
          split
          · exact ⟨Int.le_of_lt bounds.1, Int.le_of_lt bounds.2⟩
          · exact fits name

/-- What is read fits ints. -/
theorem fitsInt_of_parseMessage {message : Payload} (isTile : TileDesc.parseMessage message = some tile) :
    tile.FitsInt := by
  have fits : ∀ (tokens : List Text) (known : TilePairs),
      (∀ name, -intMax - 1 ≤ known.pairs name ∧ known.pairs name ≤ intMax) →
        ∀ name, -intMax - 1 ≤ (tokens.foldl TilePairs.parseToken known).pairs name ∧
          (tokens.foldl TilePairs.parseToken known).pairs name ≤ intMax := by
    intro tokens
    induction tokens with
    | nil => exact fun known fits => fits
    | cons token tokens ih => exact fun known fits => ih _ (fits_parseToken fits token)
  have empty : ∀ name, -intMax - 1 ≤ TilePairs.empty.pairs name ∧
      TilePairs.empty.pairs name ≤ intMax := by
    intro name
    simp only [TilePairs.empty]
    split
    · decide
    · decide
  have bounds := fits (tokenize message ' ') .empty empty
  unfold TileDesc.parseMessage TileDesc.parse TileDesc.create? at isTile
  dsimp only at isTile
  split at isTile
  · cases isTile
    exact
      { normalizedViewId := (bounds _).2
        part := (bounds _).2
        mode := (bounds _).2
        width := (bounds _).2
        height := (bounds _).2
        tilePosX := (bounds _).2
        tilePosY := (bounds _).2
        tileWidth := (bounds _).2
        tileHeight := (bounds _).2
        ver := bounds _
        imgSize := (bounds _).2
        id := bounds _ }
  · cases isTile

theorem combinedText_spec (first : TileDesc) (others : List TileDesc)
    (fits : ∀ tile ∈ first :: others, tile.FitsInt) :
    ∃ result, combinedText (first :: others) = some result ∧ IsResult first others result := by
  cases others with
  | nil => exact ⟨_, rfl, .alone⟩
  | cons other rest =>
      have keepsFirst := keepsFirst_dropDuplicates (first :: other :: rest)
      have isKept : dropDuplicates [] (first :: other :: rest) =
          first :: dropDuplicates [TileCombined.position first] (other :: rest) := by
        rw [dropDuplicates, if_neg List.not_mem_nil]
      rw [isKept] at keepsFirst
      have keptFits : ∀ tile ∈
          first :: dropDuplicates [TileCombined.position first] (other :: rest), tile.FitsInt :=
        fun tile member => fits tile (keepsFirst.sublist.subset member)
      refine ⟨_, ?_, .combined (List.cons_ne_nil _ _) keepsFirst⟩
      simp only [combinedText, isKept, TileCombined.createOf_eq keptFits, Option.map_some]

/-!
## Previews
-/

/-- Previews at the front move behind everything else, one after the other. -/
theorem deprioritizePreviews_append {previews rest moved : List Payload} {times : Nat}
    (arePreviews : ∀ message ∈ previews, isPreview message = true)
    (stops : ∀ message ∈ rest.head?, isPreview message = false)
    (enough : previews.length ≤ times) (atMost : rest = [] → times = previews.length) :
    deprioritizePreviews times (previews ++ (rest ++ moved)) = rest ++ (moved ++ previews) := by
  induction previews generalizing moved times with
  | nil =>
      rw [List.nil_append, List.append_nil]
      cases rest with
      | nil =>
          rw [atMost rfl]
          rfl
      | cons front rest =>
          have noPreview := stops front rfl
          cases times with
          | zero => rfl
          | succ times => simp [deprioritizePreviews, noPreview]
  | cons preview previews ih =>
      cases times with
      | zero => exact absurd enough (Nat.not_succ_le_zero _)
      | succ times =>
          have isPreview := arePreviews preview List.mem_cons_self
          have next := @ih (moved ++ [preview]) times
            (fun message member => arePreviews message (List.mem_cons_of_mem _ member))
            (Nat.le_of_succ_le_succ enough) (fun empty => Nat.succ.inj (atMost empty))
          rw [List.cons_append, deprioritizePreviews, if_pos isPreview]
          simpa only [List.append_assoc, List.singleton_append] using next

theorem deprioritizePreviews_eq (queue : List Payload) :
    deprioritizePreviews queue.length queue =
      queue.dropWhile isPreview ++ queue.takeWhile isPreview := by
  have stops : ∀ message ∈ (queue.dropWhile isPreview).head?, isPreview message = false := by
    intro message isHead
    have stopped := List.head?_dropWhile_not isPreview queue
    rwa [Option.mem_def.mp isHead] at stopped
  have moves := @deprioritizePreviews_append (queue.takeWhile isPreview)
    (queue.dropWhile isPreview) [] queue.length (fun message => List.mem_takeWhile_imp) stops
    (List.takeWhile_sublist _).length_le
    (fun empty => by
      have split := @List.takeWhile_append_dropWhile _ isPreview queue
      rw [empty, List.append_nil] at split
      rw [split])
  rwa [List.append_nil, List.takeWhile_append_dropWhile, List.nil_append] at moves

/-!
## The message that is taken
-/

theorem isTile_of_isPlain {message : Payload} (plain : isPlain message = true) :
    isTile message = true :=
  (Bool.and_eq_true_iff.mp plain).1

theorem isTile_of_isPreview {message : Payload} (preview : isPreview message = true) :
    isTile message = true :=
  (Bool.and_eq_true_iff.mp preview).1

/-- The chosen tile in the middle of the queue. -/
theorem getImpl_tiles {front : Payload} {rest : List Payload}
    (isQueue : tileQueue.queue = front :: rest)
    (wellFormed : ∀ message ∈ front :: rest, IsWellFormed message) (plain : isPlain front = true) :
    ∃ result left, tileQueue.getImpl = some (result, left) ∧ Gets tileQueue result left := by
  obtain ⟨best, p, found, prioritized⟩ :=
    @findPrioritized_front tileQueue front rest wellFormed plain
  obtain ⟨message, isThere, isPriority⟩ := prioritized.isThere
  obtain ⟨inside, isMessage⟩ := List.getElem?_eq_some_iff.mp isThere
  have allPlain : ∀ other ∈ (front :: rest).takeWhile isPlain, isPlain other = true :=
    fun other => List.mem_takeWhile_imp
  have isRun := @List.takeWhile_append_dropWhile _ isPlain (front :: rest)
  have stopped := List.head?_dropWhile_not isPlain (front :: rest)
  generalize (front :: rest).takeWhile isPlain = run at *
  generalize (front :: rest).dropWhile isPlain = others at *
  have isSplit : run = run.take best ++ message :: run.drop (best + 1) := by
    rw [← isMessage, ← List.drop_eq_getElem_cons inside, List.take_append_drop]
  have isQueue' : tileQueue.queue =
      run.take best ++ message :: (run.drop (best + 1) ++ others) := by
    rw [isQueue, ← isRun]
    nth_rewrite 1 [isSplit]
    rw [List.append_assoc, List.cons_append]
  have chosen : (front :: rest).getD best front = message := by
    rw [← isRun, List.getD_eq_getElem?_getD, List.getElem?_append_left inside, isThere]
    rfl
  have erased : (front :: rest).eraseIdx best =
      run.take best ++ (run.drop (best + 1) ++ others) := by
    rw [← isRun, List.eraseIdx_append_of_lt_length inside, List.eraseIdx_eq_take_drop_succ,
      List.append_assoc]
  have member : message ∈ run := isMessage ▸ List.getElem_mem inside
  have messagePlain := allPlain message member
  have inQueue : ∀ other ∈ run.take best ++ (run.drop (best + 1) ++ others),
      other ∈ front :: rest := by
    intro other isOther
    rw [← erased] at isOther
    exact List.mem_of_mem_eraseIdx isOther
  obtain ⟨first, isFirst⟩ := Option.isSome_iff_exists.mp
    (wellFormed message (isRun ▸ List.mem_append_left _ member) messagePlain)
  have combined := combineWith_eq first fun other isOther => wellFormed other (inQueue other isOther)
  have fits : ∀ tile ∈ first :: ((run.take best ++ (run.drop (best + 1) ++ others)).filter
      (isCombinedWith first)).filterMap TileDesc.parseMessage, tile.FitsInt := by
    intro tile isTile
    cases isTile with
    | head => exact fitsInt_of_parseMessage isFirst
    | tail _ later =>
        obtain ⟨other, -, isOther⟩ := List.mem_filterMap.mp later
        exact fitsInt_of_parseMessage isOther
  obtain ⟨result, isText, isResult⟩ := combinedText_spec first _ fits
  refine ⟨result, _, ?_, .tiles isQueue' isFirst messagePlain ?_ ?_ isResult⟩
  · simp only [getImpl, isQueue, plain, ↓reduceIte, found, chosen, erased, isFirst, combined, isText,
      Option.bind_eq_bind, Option.bind_some, Option.pure_def]
  · intro other early
    refine ⟨allPlain other (List.mem_of_mem_take early), ?_⟩
    rw [isPriority]
    exact prioritized.before other early
  · have ends : others.takeWhile isPlain = [] := by
      cases others with
      | nil => rfl
      | cons head tail => rw [List.takeWhile_cons, stopped, if_neg Bool.false_ne_true]
    rw [List.takeWhile_append_of_pos fun other late => allPlain other (List.mem_of_mem_drop late),
      ends, List.append_nil, isPriority]
    exact prioritized.after

/-- Something is taken of every queue of well-formed messages, in the order that is expected. -/
theorem getImpl_spec (tileQueue : TileQueue) (notEmpty : tileQueue.queue ≠ [])
    (wellFormed : ∀ message ∈ tileQueue.queue, IsWellFormed message) :
    ∃ result left, tileQueue.getImpl = some (result, left) ∧ Gets tileQueue result left := by
  obtain ⟨front, rest, isQueue⟩ := List.exists_cons_of_ne_nil notEmpty
  rw [isQueue] at wellFormed
  cases plain : isPlain front with
  | true => exact getImpl_tiles isQueue wellFormed plain
  | false =>
      cases preview : isPreview front with
      | true =>
          have split := @List.takeWhile_append_dropWhile _ isPreview rest
          refine ⟨front, rest.dropWhile isPreview ++ rest.takeWhile isPreview, ?_,
            .preview (by rw [isQueue, split]) preview (fun message => List.mem_takeWhile_imp) ?_⟩
          · simp [getImpl, isQueue, plain, preview, deprioritizePreviews_eq]
          · intro message isHead
            have stopped := List.head?_dropWhile_not isPreview rest
            rwa [Option.mem_def.mp isHead] at stopped
      | false =>
          refine ⟨front, rest, by simp [getImpl, isQueue, plain, preview], .message isQueue ?_⟩
          simp only [isPlain, isPreview] at plain preview
          cases tile : isTile front with
          | false => rfl
          | true =>
              rw [tile, Bool.true_and] at plain preview
              rw [preview] at plain
              cases plain

/-!
## Messages that are no tiles
-/

/-- The messages that are no tiles, in their order. -/
def others (messages : List Payload) : List Payload :=
  messages.filter fun message => !isTile message

theorem others_append (messages more : List Payload) :
    others (messages ++ more) = others messages ++ others more :=
  List.filter_append ..

theorem others_of_tiles {messages : List Payload}
    (areTiles : ∀ message ∈ messages, isTile message = true) : others messages = [] :=
  List.filter_eq_nil_iff.mpr fun message member => by simp [areTiles message member]

theorem others_tile {message : Payload} (tile : isTile message = true) : others [message] = [] :=
  others_of_tiles fun other member => by
    rw [List.mem_singleton.mp member]
    exact tile

theorem others_uncombined (first : TileDesc) (messages : List Payload) :
    others (messages.filter fun other => !isCombinedWith first other) = others messages := by
  unfold others
  rw [List.filter_filter]
  refine List.filter_congr fun message _ => ?_
  cases tile : isTile message with
  | true => rfl
  | false => simp [isCombinedWith, isPlain, tile]

/-- A tile, and a combined request, begin with the same letters. -/
theorem isTile_serialize (tile : TileDesc) : isTile (tile.serialize "tile".toList) = true :=
  List.isPrefixOf_iff_prefix.mpr ⟨_, rfl⟩

theorem isTile_of_isResult {first : TileDesc} {tiles : List TileDesc} {result : Payload}
    (isResult : IsResult first tiles result) : isTile result = true := by
  cases isResult with
  | alone => exact isTile_serialize first
  | combined several keepsFirst =>
      rw [TileCombined.serialize_eq _ (by simp [TileCombined.create])]
      have inFront : "tile".toList <+: "tilecombine".toList := by decide
      exact List.isPrefixOf_iff_prefix.mpr (inFront.trans (List.prefix_append _ _))

variable {result message : Payload} {left before after : List Payload}

/-- Messages that are no tiles leave in their order. -/
theorem others_of_gets (gets : Gets tileQueue result left) :
    others tileQueue.queue = others [result] ++ others left := by
  cases gets with
  | message isQueue noTile => rw [isQueue, ← others_append, List.singleton_append]
  | preview isQueue isFront arePreviews stops =>
      rename_i previews rest
      have front : others [result] = [] := others_tile (isTile_of_isPreview isFront)
      have moved : others previews = [] :=
        others_of_tiles fun other member => isTile_of_isPreview (arePreviews other member)
      rw [isQueue, ← List.singleton_append, others_append, others_append, others_append, front, moved]
      simp
  | tiles isQueue isFirst plain plainBefore best isResult =>
      rename_i before after chosen first
      have taken : others [result] = [] := others_tile (isTile_of_isResult isResult)
      have dropped : others [chosen] = [] := others_tile (isTile_of_isPlain plain)
      rw [isQueue, others_uncombined, taken, ← List.singleton_append, others_append, others_append,
        others_append, dropped]
      simp

theorem split_behind {Entry : Type} {front rest before after : List Entry} {entry : Entry}
    (same : front ++ rest = before ++ entry :: after) (notFront : entry ∉ front) :
    ∃ between, before = front ++ between ∧ rest = between ++ entry :: after := by
  cases List.append_eq_append_iff.mp same with
  | inl behind => exact behind
  | inr overlaps =>
      obtain ⟨between, isFront, isRest⟩ := overlaps
      cases between with
      | nil => exact ⟨[], by simpa using isFront.symm, by simpa using isRest.symm⟩
      | cons head between =>
          cases isRest
          exact absurd (isFront ▸ List.mem_append_right _ List.mem_cons_self) notFront

theorem ne_of_isTile {other : Payload} (noTile : isTile message = false)
    (tile : isTile other = true) : message ≠ other := by
  rintro rfl
  rw [noTile] at tile
  cases tile

/-- A message that is no tile is taken, or fewer messages are in front of it. -/
theorem gets_or_closer (gets : Gets tileQueue result left)
    (isQueue : tileQueue.queue = before ++ message :: after) (noTile : isTile message = false) :
    (before = [] ∧ result = message) ∨
      ∃ closer behind, left = closer ++ message :: behind ∧ closer.length < before.length ∧
        others before = others [result] ++ others closer := by
  cases gets with
  | message isFront _ =>
      rw [isFront] at isQueue
      cases before with
      | nil =>
          cases isQueue
          exact .inl ⟨rfl, rfl⟩
      | cons first before =>
          cases isQueue
          exact .inr ⟨before, after, rfl, Nat.lt_succ_self _, others_append [result] before⟩
  | preview isFront isPreview arePreviews stops =>
      rename_i previews rest
      have notFront : message ∉ result :: previews := by
        intro member
        cases member with
        | head => exact ne_of_isTile noTile (isTile_of_isPreview isPreview) rfl
        | tail _ later => exact ne_of_isTile noTile (isTile_of_isPreview (arePreviews _ later)) rfl
      rw [isFront, ← List.cons_append] at isQueue
      obtain ⟨between, rfl, rfl⟩ := split_behind isQueue notFront
      refine .inr ⟨between, after ++ previews, by simp, ?_, ?_⟩
      · rw [List.length_append, List.length_cons]
        omega
      · have moved : others previews = [] :=
          others_of_tiles fun other member => isTile_of_isPreview (arePreviews other member)
        rw [← List.singleton_append, others_append, others_append, moved, List.append_nil]
  | tiles isFront isFirst plain plainBefore best isResult =>
      rename_i early late chosen first
      have notFront : message ∉ early ++ [chosen] := by
        intro member
        cases List.mem_append.mp member with
        | inl isEarly =>
            exact ne_of_isTile noTile (isTile_of_isPlain (plainBefore _ isEarly).1) rfl
        | inr isChosen =>
            rw [List.mem_singleton.mp isChosen, isTile_of_isPlain plain] at noTile
            cases noTile
      rw [isFront, ← List.singleton_append, ← List.append_assoc] at isQueue
      obtain ⟨between, rfl, rfl⟩ := split_behind isQueue notFront
      have stays : (!isCombinedWith first message) = true := by
        simp [isCombinedWith, isPlain, noTile]
      refine .inr ⟨(early ++ between).filter (fun other => !isCombinedWith first other),
        after.filter fun other => !isCombinedWith first other, ?_, ?_, ?_⟩
      · rw [← List.append_assoc, List.filter_append]
        simp only [List.filter_cons, stays, ↓reduceIte]
      · refine Nat.lt_of_le_of_lt (List.length_filter_le ..) ?_
        simp only [List.length_append, List.length_singleton]
        omega
      · have taken : others [result] = [] := others_tile (isTile_of_isResult isResult)
        have dropped : others [chosen] = [] := others_tile (isTile_of_isPlain plain)
        rw [others_uncombined, taken, others_append, others_append, others_append, dropped,
          List.append_nil, List.nil_append]

theorem mem_of_gets (gets : Gets tileQueue result left) {other : Payload} (member : other ∈ left) :
    other ∈ tileQueue.queue := by
  cases gets with
  | message isQueue _ =>
      rw [isQueue]
      exact List.mem_cons_of_mem _ member
  | preview isQueue _ _ _ =>
      rw [isQueue]
      exact List.mem_cons_of_mem _ (List.mem_append.mpr (List.mem_append.mp member).symm)
  | tiles isQueue _ _ _ _ _ =>
      rw [isQueue]
      cases List.mem_append.mp (List.mem_of_mem_filter member) with
      | inl early => exact List.mem_append_left _ early
      | inr late => exact List.mem_append_right _ (List.mem_cons_of_mem _ late)

/-!
## Runs
-/

/-- What happens to the queue while messages are only put behind the others. -/
inductive QueueStep
  | append (message : Payload)
  | get
  | updateCursorPosition (viewId : Int) (cursorPosition : CursorPosition)
  | removeCursorPosition (viewId : Int)

/-- A queue and all that was taken of it. -/
structure Delivery where
  tileQueue : TileQueue
  taken : List Payload

namespace Delivery

/-- Nothing is taken of an empty queue. -/
def step (delivery : Delivery) : QueueStep → Delivery
  | .append message =>
      { delivery with
        tileQueue := { delivery.tileQueue with queue := delivery.tileQueue.queue ++ [message] } }
  | .get =>
      match delivery.tileQueue.getImpl with
      | none => delivery
      | some (result, left) =>
          { tileQueue := { delivery.tileQueue with queue := left }
            taken := delivery.taken ++ [result] }
  | .updateCursorPosition viewId cursorPosition =>
      { delivery with tileQueue := delivery.tileQueue.updateCursorPosition viewId cursorPosition }
  | .removeCursorPosition viewId =>
      { delivery with tileQueue := delivery.tileQueue.removeCursorPosition viewId }

/-- What is put is well formed. -/
def Allowed (_ : Delivery) : QueueStep → Prop
  | .append message => IsWellFormed message
  | _ => True

def isGet : QueueStep → Bool
  | .get => true
  | _ => false

def appended? : QueueStep → Option Payload
  | .append message => some message
  | _ => none

def WellFormed (delivery : Delivery) : Prop :=
  ∀ message ∈ delivery.tileQueue.queue, IsWellFormed message

variable {delivery : Delivery}

/-- A get of a queue that is not empty. -/
theorem step_get (wellFormed : delivery.WellFormed) (notEmpty : delivery.tileQueue.queue ≠ []) :
    ∃ result left, delivery.tileQueue.getImpl = some (result, left) ∧
      Gets delivery.tileQueue result left ∧
      delivery.step .get =
        ⟨{ delivery.tileQueue with queue := left }, delivery.taken ++ [result]⟩ := by
  obtain ⟨result, left, isGet, gets⟩ := getImpl_spec delivery.tileQueue notEmpty wellFormed
  exact ⟨result, left, isGet, gets, by simp only [step, isGet]⟩

theorem step_get_empty (empty : delivery.tileQueue.queue = []) : delivery.step .get = delivery := by
  simp only [step, getImpl, empty]

theorem wellFormed_step (wellFormed : delivery.WellFormed) {event : QueueStep}
    (allowed : delivery.Allowed event) : (delivery.step event).WellFormed := by
  cases event with
  | append message =>
      intro other member
      cases List.mem_append.mp member with
      | inl old => exact wellFormed other old
      | inr new => exact List.mem_singleton.mp new ▸ allowed
  | get =>
      by_cases empty : delivery.tileQueue.queue = []
      · rwa [step_get_empty empty]
      · obtain ⟨result, left, -, gets, next⟩ := step_get wellFormed empty
        rw [next]
        exact fun other member => wellFormed other (mem_of_gets gets member)
  | updateCursorPosition viewId cursorPosition => exact wellFormed
  | removeCursorPosition viewId => exact wellFormed

/-- What is no tile is either taken already or still queued. -/
theorem others_step (wellFormed : delivery.WellFormed) (event : QueueStep) :
    others (delivery.step event).taken ++ others (delivery.step event).tileQueue.queue =
      others delivery.taken ++ others delivery.tileQueue.queue ++
        others (appended? event).toList := by
  cases event with
  | append message => simp only [step, appended?, Option.toList, others_append, List.append_assoc]
  | get =>
      by_cases empty : delivery.tileQueue.queue = []
      · rw [step_get_empty empty]
        exact (List.append_nil _).symm
      · obtain ⟨result, left, -, gets, next⟩ := step_get wellFormed empty
        rw [next, others_of_gets gets, others_append]
        simp [appended?, others]
  | updateCursorPosition viewId cursorPosition => exact (List.append_nil _).symm
  | removeCursorPosition viewId => exact (List.append_nil _).symm

theorem others_run (wellFormed : delivery.WellFormed) {events : List QueueStep}
    (permitted : Permitted step Allowed delivery events) :
    others (run step delivery events).taken ++
        others (run step delivery events).tileQueue.queue =
      others delivery.taken ++ others delivery.tileQueue.queue ++
        others (events.filterMap appended?) := by
  induction events generalizing delivery with
  | nil => exact (List.append_nil _).symm
  | cons event events ih =>
      have next := ih (wellFormed_step wellFormed permitted.1) permitted.2
      refine next.trans ?_
      rw [others_step wellFormed event, List.append_assoc]
      refine congrArg _ ((others_append _ _).symm.trans (congrArg others ?_))
      cases event with
      | append message => rfl
      | get => rfl
      | updateCursorPosition viewId cursorPosition => rfl
      | removeCursorPosition viewId => rfl

/-- With more gets than there are messages in front of it, a message that is no tile is taken, just
behind those of them that are no tiles either. -/
theorem taken_in_time (wellFormed : delivery.WellFormed) {events : List QueueStep}
    (permitted : Permitted step Allowed delivery events) {before after : List Payload}
    {message : Payload} (isQueue : delivery.tileQueue.queue = before ++ message :: after)
    (noTile : isTile message = false) (enough : before.length < events.countP isGet) :
    ∃ early late left, events = early ++ .get :: late ∧
      (run step delivery early).tileQueue.getImpl = some (message, left) ∧
      others (run step delivery early).taken = others delivery.taken ++ others before := by
  induction events generalizing delivery before after with
  | nil => exact absurd enough (Nat.not_lt_zero _)
  | cons event events ih =>
      have nextWellFormed := wellFormed_step wellFormed permitted.1
      -- An event that takes nothing leaves what is in front of the message.
      have passes {behind : List Payload}
          (next : (delivery.step event).tileQueue.queue = before ++ message :: behind)
          (sameTaken : (delivery.step event).taken = delivery.taken)
          (noGet : isGet event = false) :
          ∃ early late left, event :: events = early ++ .get :: late ∧
            (run step delivery early).tileQueue.getImpl = some (message, left) ∧
            others (run step delivery early).taken = others delivery.taken ++ others before := by
        rw [List.countP_cons_of_neg (by simp [noGet])] at enough
        obtain ⟨early, late, left, rfl, taken, order⟩ := ih nextWellFormed permitted.2 next enough
        rw [sameTaken] at order
        exact ⟨event :: early, late, left, rfl, taken, order⟩
      cases event with
      | append added => exact @passes (after ++ [added]) (by simp [step, isQueue]) rfl rfl
      | updateCursorPosition viewId cursorPosition => exact passes isQueue rfl rfl
      | removeCursorPosition viewId => exact passes isQueue rfl rfl
      | get =>
          have notEmpty : delivery.tileQueue.queue ≠ [] := by simp [isQueue]
          obtain ⟨result, left, isGet, gets, next⟩ := step_get wellFormed notEmpty
          cases gets_or_closer gets isQueue noTile with
          | inl here =>
              obtain ⟨rfl, rfl⟩ := here
              exact ⟨[], events, left, rfl, isGet, (List.append_nil _).symm⟩
          | inr moved =>
              obtain ⟨closer, behind, isLeft, less, order⟩ := moved
              have laterPermitted := permitted.2
              rw [next] at nextWellFormed laterPermitted
              rw [List.countP_cons_of_pos rfl] at enough
              obtain ⟨early, late, last, rfl, taken, others_early⟩ :=
                ih nextWellFormed laterPermitted isLeft (by omega)
              refine ⟨.get :: early, late, last, rfl, ?_, ?_⟩
              · simp only [run, List.foldl_cons, next] at taken ⊢
                exact taken
              · simp only [run, List.foldl_cons, next] at others_early ⊢
                rw [others_early, others_append, List.append_assoc, order]

/-- Whatever is put, and wherever the cursors are, every get takes what is expected, messages that
are no tiles leave in the order in which they were put, and each of them is taken in time. -/
theorem order_kept (wellFormed : delivery.WellFormed) {events : List QueueStep}
    (permitted : Permitted step Allowed delivery events) :
    ((run step delivery events).tileQueue.queue ≠ [] →
      ∃ result left, (run step delivery events).tileQueue.getImpl = some (result, left) ∧
        Gets (run step delivery events).tileQueue result left) ∧
    others (run step delivery events).taken ++
        others (run step delivery events).tileQueue.queue =
      others delivery.taken ++ others delivery.tileQueue.queue ++
        others (events.filterMap appended?) ∧
    ∀ before message after, delivery.tileQueue.queue = before ++ message :: after →
      isTile message = false → before.length < events.countP isGet →
      ∃ early late left, events = early ++ .get :: late ∧
        (run step delivery early).tileQueue.getImpl = some (message, left) ∧
        others (run step delivery early).taken = others delivery.taken ++ others before := by
  refine ⟨fun notEmpty => ?_, others_run wellFormed permitted,
    fun before message after => taken_in_time wellFormed permitted⟩
  have stillWellFormed : (run step delivery events).WellFormed :=
    run_invariant WellFormed (fun _ _ wellFormed allowed => wellFormed_step wellFormed allowed)
      wellFormed permitted
  exact getImpl_spec _ notEmpty stillWellFormed

/-- A tile in front of a message, and no cursor. -/
def tileAndSave : Delivery where
  tileQueue :=
    { queue := ["tile width=256 height=256 tilewidth=3840 tileheight=3840".toList, "save".toList]
      cursorPositions := fun _ => CursorPosition.none
      viewOrder := [] }
  taken := []

theorem order_kept_tileAndSave :
    ∃ early late left, [QueueStep.get, QueueStep.get] = early ++ .get :: late ∧
      (run step tileAndSave early).tileQueue.getImpl = some ("save".toList, left) ∧
      others (run step tileAndSave early).taken = [] := by
  have wellFormed : tileAndSave.WellFormed := by
    intro message member _
    revert member message
    decide +kernel
  have permitted : Permitted step Allowed tileAndSave [.get, .get] := ⟨trivial, trivial, trivial⟩
  exact (order_kept wellFormed permitted).2.2 [_] _ [] rfl (by decide) (by decide)

end Delivery

end TileQueue

end FreeOnline.Common
