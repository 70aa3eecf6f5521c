import FreeOnline.Common.MessageQueue
import FreeOnline.Library.Area

/-!
# Invalidations in the queue

What is invalid is said in callbacks. One that is put absorbs the queued ones of the same view,
part and mode that lie within it or make a small area together with it.
-/

set_option autoImplicit false

namespace FreeOnline.Common

open FreeOnline.Library

/-!
## Areas of ints
-/

namespace Invalidations

/-- The right edge as an int. -/
def intRight (area : Area) : Int := toInt32 (area.x + area.w)

def intBottom (area : Area) : Int := toInt32 (area.y + area.h)

/-- The area in the queue is fully covered by the one of the message. -/
def IsCovered (msg queued : Area) : Prop :=
  msg.x ≤ queued.x ∧ intRight queued ≤ intRight msg ∧ msg.y ≤ queued.y ∧
    intBottom queued ≤ intBottom msg

instance (msg queued : Area) : Decidable (IsCovered msg queued) :=
  inferInstanceAs (Decidable (_ ∧ _))

def RectanglesIntersect (area other : Area) : Prop :=
  intRight area ≥ other.x ∧ area.x ≤ intRight other ∧ intBottom area ≥ other.y ∧
    area.y ≤ intBottom other

instance (area other : Area) : Decidable (RectanglesIntersect area other) :=
  inferInstanceAs (Decidable (_ ∧ _))

def joined (msg queued : Area) : Area where
  x := min msg.x queued.x
  y := min msg.y queued.y
  w := toInt32 (max (intRight msg) (intRight queued) - min msg.x queued.x)
  h := toInt32 (max (intBottom msg) (intBottom queued) - min msg.y queued.y)

/-- Four tiles at 100% zoom. -/
def reasonableSizeX : Int := 4 * 3840

/-- Two tiles at 100% zoom. -/
def reasonableSizeY : Int := 2 * 3840

/-- What the way through the queue ends with. -/
structure Absorbed (Entry : Type) where
  area : Area
  performedMerge : Bool
  queue : List Entry

def Absorbed.keep {Entry : Type} (entry : Entry) (absorbed : Absorbed Entry) : Absorbed Entry :=
  { absorbed with queue := entry :: absorbed.queue }

def Absorbed.map {Entry Other : Type} (image : Entry → Other) (absorbed : Absorbed Entry) :
    Absorbed Other :=
  ⟨absorbed.area, absorbed.performedMerge, absorbed.queue.map image⟩

/-- The way through the entire queue, where `compared` are the areas that are compared at all. -/
def absorb {Entry : Type} (compared : Entry → Option Area) (msg : Area) (performedMerge : Bool) :
    List Entry → Absorbed Entry
  | [] => ⟨msg, performedMerge, []⟩
  | entry :: rest =>
      match compared entry with
      | none => (absorb compared msg performedMerge rest).keep entry
      | some queued =>
          if IsCovered msg queued then absorb compared msg performedMerge rest
          else if RectanglesIntersect msg queued then
            if (joined msg queued).w > reasonableSizeX ∨ (joined msg queued).h > reasonableSizeY then
              (absorb compared msg performedMerge rest).keep entry
            else absorb compared (joined msg queued) true rest
          else (absorb compared msg performedMerge rest).keep entry

/-- All of a part. -/
def whole : Area := ⟨0, 0, intMax, intMax⟩

/-- Area, part and mode of an invalidation. -/
def extractRectangle (tokens : List Text) : Option (Area × Int × Int) :=
  let number := fun index => atoi (tokens.getD index [])
  if tokens.length < 5 then none
  else if tokens[3]? = some "EMPTY,".toList then some (whole, number 4, 0)
  else if tokens.length < 8 then none
  else
    some (⟨number 3, number 4, number 5, number 6⟩, number 7,
      if tokens.length = 9 then number 8 else 0)

/-- The area of a queued message of the same view, callback, part and mode. -/
def comparedArea (tokens : List Text) (part mode : Int) (queuedMessage : Payload) : Option Area :=
  let queuedTokens := tokenize queuedMessage ' '
  if queuedTokens.length < 3 then none
  else if queuedTokens.getD 0 [] ≠ tokens.getD 0 [] ∨ queuedTokens.getD 1 [] ≠ tokens.getD 1 [] ∨
      queuedTokens.getD 2 [] ≠ tokens.getD 2 [] then none
  else
    match extractRectangle queuedTokens with
    | none => none
    | some (queued, queuedPart, queuedMode) =>
        if part ≠ queuedPart then none else if mode ≠ queuedMode then none else some queued

/-- The message with another area. (`substr` throws behind the end of a message, which is only
reached with sums that are no ints.) -/
def mergeResult (callbackMsg : Payload) (tokens : List Text) (area : Area) : Payload :=
  let size := fun index => (tokens.getD index []).length
  let pre := size 0 + size 1 + size 2 + 3
  let post := pre + size 3 + size 4 + size 5 + size 6 + 4
  callbackMsg.take pre ++ printInt area.x ++ ", ".toList ++ printInt area.y ++ ", ".toList ++
    printInt area.w ++ ", ".toList ++ printInt area.h ++ ", ".toList ++ callbackMsg.drop post

/-- `removeCallbackDuplicate`, for invalidations: what is put instead of the message, if anything,
and the queue. -/
def removeInvalidationDuplicate (queue : List Payload) (callbackMsg : Payload) :
    Option Payload × List Payload :=
  let tokens := tokenize callbackMsg ' '
  match extractRectangle tokens with
  | none => (none, queue)
  | some (msg, part, mode) =>
      let absorbed := absorb (comparedArea tokens part mode) msg false queue
      if absorbed.performedMerge then
        (some (mergeResult callbackMsg tokens absorbed.area), absorbed.queue)
      else (none, absorbed.queue)

/-- `put_impl`, for invalidations. -/
def putInvalidation (queue : List Payload) (value : Payload) : List Payload :=
  match removeInvalidationDuplicate queue value with
  | (none, queue) => MessageQueue.putImpl queue value
  | (some newMsg, queue) => MessageQueue.putImpl queue newMsg

/-- The way through a queue of images. -/
theorem absorb_map {Entry Other : Type} (image : Entry → Other) {compared : Entry → Option Area}
    {comparedImage : Other → Option Area} {queue : List Entry}
    (sameAreas : ∀ entry ∈ queue, comparedImage (image entry) = compared entry) {msg : Area}
    {performedMerge : Bool} :
    absorb comparedImage msg performedMerge (queue.map image) =
      (absorb compared msg performedMerge queue).map image := by
  induction queue generalizing msg performedMerge with
  | nil => rfl
  | cons entry rest ih =>
      have later := fun other member => sameAreas other (List.mem_cons_of_mem entry member)
      rw [List.map_cons, absorb, absorb, sameAreas entry List.mem_cons_self]
      cases compared entry with
      | none => exact congrArg (Absorbed.keep (image entry)) (ih later)
      | some queued =>
          dsimp only
          split
          · exact ih later
          · split
            · split
              · exact congrArg (Absorbed.keep (image entry)) (ih later)
              · exact ih later
            · exact congrArg (Absorbed.keep (image entry)) (ih later)

/-!
## What is absorbed
-/

/-- The sums and differences that are made of two areas are ints. -/
structure Fits (area other : Area) : Prop where
  right : -intMax - 1 ≤ area.right ∧ area.right ≤ intMax
  bottom : -intMax - 1 ≤ area.bottom ∧ area.bottom ≤ intMax
  width : area.right - other.x ≤ intMax
  height : area.bottom - other.y ≤ intMax

/-- The coordinates and the sizes are ints themselves. -/
structure HasInts (area : Area) : Prop where
  x : -intMax - 1 ≤ area.x ∧ area.x ≤ intMax
  y : -intMax - 1 ≤ area.y ∧ area.y ≤ intMax
  w : -intMax - 1 ≤ area.w ∧ area.w ≤ intMax
  h : -intMax - 1 ≤ area.h ∧ area.h ≤ intMax

/-- Every edge is one of those areas. -/
structure EdgesOf (areas : List Area) (area : Area) : Prop where
  x : ∃ other ∈ areas, area.x = other.x
  y : ∃ other ∈ areas, area.y = other.y
  right : ∃ other ∈ areas, area.right = other.right
  bottom : ∃ other ∈ areas, area.bottom = other.bottom

section

variable {areas : List Area} {msg queued : Area}

theorem edgesOf_of_mem (member : msg ∈ areas) : EdgesOf areas msg :=
  ⟨⟨msg, member, rfl⟩, ⟨msg, member, rfl⟩, ⟨msg, member, rfl⟩, ⟨msg, member, rfl⟩⟩

private theorem edge_min {edge : Area → Int} {first second : Int}
    (isFirst : ∃ other ∈ areas, first = edge other)
    (isSecond : ∃ other ∈ areas, second = edge other) :
    ∃ other ∈ areas, min first second = edge other := by
  rcases le_total first second with less | less
  · rwa [min_eq_left less]
  · rwa [min_eq_right less]

private theorem edge_max {edge : Area → Int} {first second : Int}
    (isFirst : ∃ other ∈ areas, first = edge other)
    (isSecond : ∃ other ∈ areas, second = edge other) :
    ∃ other ∈ areas, max first second = edge other := by
  rcases le_total first second with less | less
  · rwa [max_eq_right less]
  · rwa [max_eq_left less]

theorem edgesOf_join (msgEdges : EdgesOf areas msg) (queuedEdges : EdgesOf areas queued) :
    EdgesOf areas (msg.join queued) where
  x := edge_min msgEdges.x queuedEdges.x
  y := edge_min msgEdges.y queuedEdges.y
  right := by
    rw [Area.right_join]
    exact edge_max msgEdges.right queuedEdges.right
  bottom := by
    rw [Area.bottom_join]
    exact edge_max msgEdges.bottom queuedEdges.bottom

variable (fits : ∀ area ∈ areas, ∀ other ∈ areas, Fits area other)

include fits

theorem intEdges (edges : EdgesOf areas msg) :
    intRight msg = msg.right ∧ intBottom msg = msg.bottom := by
  obtain ⟨right, rightMember, isRight⟩ := edges.right
  obtain ⟨bottom, bottomMember, isBottom⟩ := edges.bottom
  have rightFits := (fits right rightMember right rightMember).right
  have bottomFits := (fits bottom bottomMember bottom bottomMember).bottom
  rw [← isRight] at rightFits
  rw [← isBottom] at bottomFits
  exact ⟨toInt32_of_fits rightFits, toInt32_of_fits bottomFits⟩

theorem isCovered_iff (msgEdges : EdgesOf areas msg) (queuedEdges : EdgesOf areas queued) :
    IsCovered msg queued ↔ queued.Within msg := by
  unfold IsCovered Area.Within
  rw [(intEdges fits msgEdges).1, (intEdges fits msgEdges).2, (intEdges fits queuedEdges).1,
    (intEdges fits queuedEdges).2, and_assoc]

theorem joined_eq (msgEdges : EdgesOf areas msg) (queuedEdges : EdgesOf areas queued)
    (hasInts : HasInts queued) : joined msg queued = msg.join queued := by
  have edges := edgesOf_join msgEdges queuedEdges
  obtain ⟨left, leftMember, isLeft⟩ := edges.x
  obtain ⟨top, topMember, isTop⟩ := edges.y
  obtain ⟨right, rightMember, isRight⟩ := edges.right
  obtain ⟨bottom, bottomMember, isBottom⟩ := edges.bottom
  have width := (fits right rightMember left leftMember).width
  have height := (fits bottom bottomMember top topMember).height
  rw [← isRight, ← isLeft, Area.right_join] at width
  rw [← isBottom, ← isTop, Area.bottom_join] at height
  change _ - min msg.x queued.x ≤ _ at width
  change _ - min msg.y queued.y ≤ _ at height
  have wide : queued.right - queued.x = queued.w := by
    unfold Area.right
    omega
  have tall : queued.bottom - queued.y = queued.h := by
    unfold Area.bottom
    omega
  obtain ⟨-, -, widthInt, heightInt⟩ := hasInts
  unfold joined Area.join
  rw [(intEdges fits msgEdges).1, (intEdges fits msgEdges).2, (intEdges fits queuedEdges).1,
    (intEdges fits queuedEdges).2, toInt32_of_fits ⟨by omega, width⟩,
    toInt32_of_fits ⟨by omega, height⟩]

end

/-- What the way through the queue does to each entry and to the message. An entry leaves the queue
only if it lay within the message from the begin or is small. -/
structure Absorbs {Entry : Type} (compared : Entry → Option Area) (msg : Area)
    (performedMerge : Bool) (queue : List Entry) (absorbed : Absorbed Entry) : Prop where
  within : msg.Within absorbed.area
  hasInts : HasInts msg → HasInts absorbed.area
  kept : ∀ entry ∈ absorbed.queue, entry ∈ queue
  dropped : ∀ entry ∈ queue, entry ∈ absorbed.queue ∨ ∃ queued, compared entry = some queued ∧
    queued.Within absorbed.area ∧ (queued.Within msg ∨ queued.w ≤ reasonableSizeX)
  merged : absorbed = ⟨msg, performedMerge, absorbed.queue⟩ ∨ absorbed.performedMerge = true ∧
    absorbed.area.w ≤ reasonableSizeX ∧ absorbed.area.h ≤ reasonableSizeY

section

variable {Entry : Type} {compared : Entry → Option Area} {areas : List Area} {msg : Area}
  {performedMerge : Bool} {rest : List Entry} {absorbed : Absorbed Entry}

theorem Absorbs.keep (absorbs : Absorbs compared msg performedMerge rest absorbed)
    (entry : Entry) :
    Absorbs compared msg performedMerge (entry :: rest) (absorbed.keep entry) where
  within := absorbs.within
  hasInts := absorbs.hasInts
  kept other member := by
    rcases List.mem_cons.mp member with rfl | inRest
    · exact List.mem_cons_self
    · exact List.mem_cons_of_mem _ (absorbs.kept other inRest)
  dropped other member := by
    rcases List.mem_cons.mp member with rfl | inRest
    · exact .inl List.mem_cons_self
    · exact (absorbs.dropped other inRest).imp_left (List.mem_cons_of_mem _)
  merged := by
    rcases absorbs.merged with unchanged | small
    · rw [unchanged]
      exact .inl rfl
    · exact .inr small

theorem Absorbs.drop (absorbs : Absorbs compared msg performedMerge rest absorbed)
    {entry : Entry} {queued : Area} (isQueued : compared entry = some queued)
    (covered : queued.Within msg) :
    Absorbs compared msg performedMerge (entry :: rest) absorbed where
  within := absorbs.within
  hasInts := absorbs.hasInts
  kept other member := List.mem_cons_of_mem _ (absorbs.kept other member)
  dropped other member := by
    rcases List.mem_cons.mp member with rfl | inRest
    · exact .inr ⟨queued, isQueued, covered.trans absorbs.within, .inl covered⟩
    · exact absorbs.dropped other inRest
  merged := absorbs.merged

/-- A small join of areas of ints is one. -/
theorem hasInts_join {queued : Area} (msgInts : HasInts msg) (queuedInts : HasInts queued)
    (small : (msg.join queued).w ≤ reasonableSizeX ∧ (msg.join queued).h ≤ reasonableSizeY) :
    HasInts (msg.join queued) := by
  obtain ⟨msgX, msgY, -, -⟩ := msgInts
  obtain ⟨queuedX, queuedY, queuedW, queuedH⟩ := queuedInts
  have wider := (Area.within_join_right msg queued).w_le
  have taller := (Area.within_join_right msg queued).h_le
  have reasonable : reasonableSizeX ≤ intMax ∧ reasonableSizeY ≤ intMax := by decide
  refine ⟨?_, ?_, by omega, by omega⟩
  · change -intMax - 1 ≤ min msg.x queued.x ∧ min msg.x queued.x ≤ intMax
    omega
  · change -intMax - 1 ≤ min msg.y queued.y ∧ min msg.y queued.y ≤ intMax
    omega

theorem Absorbs.join {entry : Entry} {queued : Area}
    (absorbs : Absorbs compared (msg.join queued) true rest absorbed)
    (isQueued : compared entry = some queued) (queuedInts : HasInts queued)
    (small : (msg.join queued).w ≤ reasonableSizeX ∧ (msg.join queued).h ≤ reasonableSizeY) :
    Absorbs compared msg performedMerge (entry :: rest) absorbed where
  within := (Area.within_join_left msg queued).trans absorbs.within
  hasInts := fun msgInts => absorbs.hasInts (hasInts_join msgInts queuedInts small)
  kept other member := List.mem_cons_of_mem _ (absorbs.kept other member)
  dropped other member := by
    rcases List.mem_cons.mp member with rfl | inRest
    · have inJoin := Area.within_join_right msg queued
      exact .inr ⟨queued, isQueued, inJoin.trans absorbs.within,
        .inr (Int.le_trans inJoin.w_le small.1)⟩
    · refine (absorbs.dropped other inRest).imp_right ?_
      rintro ⟨area, isArea, within, inMsg | alreadySmall⟩
      · exact ⟨area, isArea, within, .inr (Int.le_trans inMsg.w_le small.1)⟩
      · exact ⟨area, isArea, within, .inr alreadySmall⟩
  merged := by
    rcases absorbs.merged with unchanged | alreadySmall
    · rw [unchanged]
      exact .inr ⟨rfl, small⟩
    · exact .inr alreadySmall

theorem absorbs_absorb (fits : ∀ area ∈ areas, ∀ other ∈ areas, Fits area other)
    {queue : List Entry} (areCompared : ∀ entry ∈ queue, ∀ queued, compared entry = some queued →
      queued ∈ areas ∧ HasInts queued) (edges : EdgesOf areas msg) (performedMerge : Bool) :
    Absorbs compared msg performedMerge queue
      (absorb compared msg performedMerge queue) := by
  induction queue generalizing msg performedMerge with
  | nil =>
      exact
        { within := .refl msg
          hasInts := id
          kept := fun _ member => member
          dropped := fun _ member => absurd member List.not_mem_nil
          merged := .inl rfl }
  | cons entry rest ih =>
      have later := fun other member => areCompared other (List.mem_cons_of_mem _ member)
      unfold absorb
      split
      · exact (ih later edges performedMerge).keep entry
      · next queued isQueued =>
          obtain ⟨isArea, hasInts⟩ := areCompared entry List.mem_cons_self queued isQueued
          have queuedEdges := edgesOf_of_mem isArea
          split
          · next covered =>
              exact (ih later edges performedMerge).drop isQueued
                ((isCovered_iff fits edges queuedEdges).mp covered)
          · split
            · split
              · exact (ih later edges performedMerge).keep entry
              · next small =>
                  rw [joined_eq fits edges queuedEdges hasInts] at small ⊢
                  obtain ⟨narrow, low⟩ := not_or.mp small
                  exact (ih later (edgesOf_join edges queuedEdges) true).join isQueued hasInts
                    ⟨not_lt.mp narrow, not_lt.mp low⟩
            · exact (ih later edges performedMerge).keep entry

/-- Where nothing is compared, nothing happens. -/
theorem absorb_of_none {queue : List Entry} (noneCompared : queue.filterMap compared = [])
    (performedMerge : Bool) :
    absorb compared msg performedMerge queue = ⟨msg, performedMerge, queue⟩ := by
  induction queue with
  | nil => rfl
  | cons entry rest ih =>
      rw [List.filterMap_eq_nil_iff, List.forall_mem_cons] at noneCompared
      rw [absorb, noneCompared.1, ih (List.filterMap_eq_nil_iff.mpr noneCompared.2)]
      rfl

theorem absorbs_of_none {queue : List Entry} (noneCompared : queue.filterMap compared = [])
    (performedMerge : Bool) :
    Absorbs compared msg performedMerge queue
      (absorb compared msg performedMerge queue) := by
  rw [absorb_of_none noneCompared]
  exact
    { within := .refl msg
      hasInts := id
      kept := fun _ member => member
      dropped := fun _ member => .inl member
      merged := .inl rfl }

end

end Invalidations

end FreeOnline.Common
