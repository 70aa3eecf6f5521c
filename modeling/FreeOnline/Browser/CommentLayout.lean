import FreeOnline.Browser.CommentThreads
import FreeOnline.Library.LinkedRun
import FreeOnline.Library.Pushed
import Mathlib.Data.Rat.Floor
import Mathlib.Tactic.Linarith

/-!
# The layout of comments

Beside a document the comments are placed downwards from one of them, and upwards from the one above
it. Each comment is placed close to its anchor, as far as the others leave room.
-/

set_option autoImplicit false

namespace FreeOnline.Browser.Comments

open FreeOnline.Library

def mathRound (x : ℚ) : Int := ⌊x + 1 / 2⌋

/-- A comment with the height of its container in CSS pixels. -/
structure Comment extends CommentData where
  partIndex : Int
  height : ℚ
  heightPositive : 0 < height
deriving DecidableEq

/-- What the layout reads of the section. The ratio is of pixels to twips, `documentTop` is the
document's top left corner's y, and `checkSelectedPart` is set for a presentation that is not shown as a
whole. -/
structure CommentListSection where
  showResolved : Bool
  checkSelectedPart : Bool
  selectedPart : Int
  selectedComment : Option Text
  isRTL : Bool
  deflectionOfSelectedComment : Int
  ratio : ℚ
  documentTop : ℚ
  dpiScale : ℚ
  marginY : ℚ
  dpiScalePositive : 0 < dpiScale
  marginNonneg : 0 ≤ marginY

/-- Where the animation of a comment ends, in CSS pixels. -/
structure Placement where
  comment : Comment
  x : Int
  y : Int
deriving DecidableEq

/-- A comment and where it is shown. -/
def Placement.shown (placement : Placement) : Comment × Int := (placement.comment, placement.y)

def linked (before comment : Comment) : Bool := before.parentOf comment.toCommentData

namespace CommentListSection

variable (list : CommentListSection)

def anchorPixY (comment : Comment) : ℚ :=
  mathRound (comment.anchorPos.y * list.ratio) - list.documentTop

def isShown (comment : Comment) : Bool :=
  (comment.resolved ≠ "true".toList || list.showResolved) &&
    (!list.checkSelectedPart || list.selectedPart == comment.partIndex)

def layoutUp (x : ℚ) : List Comment → ℚ → List Placement × ℚ
  | [], lastY => ([], lastY)
  | comment :: subList, lastY =>
      let height := comment.height
      let lastY := if list.anchorPixY comment + height < lastY then list.anchorPixY comment
        else lastY - height
      let (placed, endY) := layoutUp x subList lastY
      (⟨comment, mathRound (x / list.dpiScale), mathRound (lastY / list.dpiScale)⟩ :: placed, endY)

def layoutDownFrom (x : Int) : List Comment → ℚ → List Placement × ℚ
  | [], lastY => ([], lastY)
  | comment :: subList, lastY =>
      let lastY := if list.anchorPixY comment > lastY then list.anchorPixY comment else lastY
      let (placed, endY) := layoutDownFrom x subList (lastY + comment.height * list.dpiScale)
      (⟨comment, x, mathRound (lastY / list.dpiScale)⟩ :: placed, endY)

/-- A thread whose first comment is selected is moved aside. -/
def layoutDown (x : ℚ) (subList : List Comment) (lastY : ℚ) : List Placement × ℚ :=
  let selectedComment := list.selectedComment.isSome &&
    (subList.head?.map fun comment => comment.id) == list.selectedComment
  let x := mathRound (x / list.dpiScale)
  if selectedComment then
    list.layoutDownFrom
      (x - list.deflectionOfSelectedComment * (if list.isRTL then -1 else 1)) subList lastY
  else list.layoutDownFrom x subList lastY

/-- The loop over the comments in the order that they are placed in. Those of a thread that are shown
are placed together, none where the fuel runs out. -/
def loop (layout : List Comment → ℚ → List Placement × ℚ) (margin : ℚ) :
    Nat → List Comment → ℚ → Option (List Placement × ℚ)
  | 0, _, _ => none
  | _ + 1, [], startY => some ([], startY)
  | fuel + 1, comment :: rest, startY =>
      let thread := linkedRun linked comment rest
      let subList := thread.filter list.isShown
      if subList = [] then
        loop layout margin fuel ((comment :: rest).drop thread.length) (startY + margin)
      else
        let (placed, endY) := layout subList startY
        (loop layout margin fuel ((comment :: rest).drop subList.length) (endY + margin)).map
          fun (later, endY) => (placed ++ later, endY)

def loopDown (fuel : Nat) (commentList : List Comment) (startIndex : Nat) (x startY : ℚ) :
    Option (List Placement × ℚ) :=
  list.loop (list.layoutDown x) list.marginY fuel (commentList.drop startIndex) startY

/-- The list up to the start index, downwards to its first comment. A comment is linked to the one
behind it in the list here, as it was placed before it. None where there is no start. -/
def loopUp (fuel : Nat) (commentList : List Comment) (startIndex : Int) (x startY : ℚ) :
    Option (List Placement × ℚ) :=
  if startIndex < commentList.length then
    list.loop (list.layoutUp x) (-list.marginY) fuel
      (commentList.take (startIndex + 1).toNat).reverse (startY - list.marginY)
  else none

/-!
## What is expected
-/

/-- Where a position in core pixels is shown. -/
def shownY (y : ℚ) : Int := mathRound (y / list.dpiScale)

/-- Each comment that is shown is placed once, and as it is shown it ends above those behind it in the
list. -/
structure LaidOut (range : List Comment) (placements : List Placement) : Prop where
  once : (placements.map Placement.comment).Perm (range.filter list.isShown)
  apart : range.Pairwise fun before after => ∀ p ∈ placements, ∀ q ∈ placements,
    p.comment = before → q.comment = after → p.y + p.comment.height ≤ q.y

/-- None is shown above its anchor. -/
def NotAboveAnchor (placements : List Placement) : Prop :=
  ∀ p ∈ placements, list.shownY (list.anchorPixY p.comment) ≤ p.y

/-- No comment is shown that replies to a hidden one. -/
def HiddenLast (range : List Comment) : Prop :=
  range.IsChain fun before comment => linked before comment = true →
    list.isShown comment = true → list.isShown before = true

/-- Downwards, what is from a comment's top to that of the next one: its height where it is shown, and a
margin, except within a thread. -/
def stepDown : List Comment → ℚ
  | comment :: above :: _ =>
      (if list.isShown above then above.height * list.dpiScale else 0) +
        if linked above comment && list.isShown above == list.isShown comment then 0
        else list.marginY
  | _ => 0

/-- Upwards, a margin and the height of the comment itself, which `layoutUp` takes in CSS pixels. -/
def stepUp : List Comment → ℚ
  | comment :: _ => -(list.marginY + if list.isShown comment then comment.height else 0)
  | [] => 0

/-- What rounding cuts off of a position. -/
def cutOff (y : ℚ) : ℚ := Int.fract (y / list.dpiScale + 1 / 2)

/-- For two comments that are shown next to each other, of which the upper one is pushed down to `top`:
the lower one's anchor is below the upper one as it is shown, or rounding cuts off enough of `top` for
the height of the upper one in whole pixels, where no margin is between them. -/
def RoomBelow (range : List Comment) (startY : ℚ) : Prop :=
  ∀ upper lower between above top, Neighbours list.isShown range upper lower between above →
    IsGreatest (pushes list.isShown list.stepDown list.anchorPixY startY (upper :: above)) top →
    list.shownY top + upper.height ≤ list.shownY (list.anchorPixY lower) ∨
      ⌈upper.height⌉ ≤ list.cutOff top +
        room list.stepDown (lower :: between) (upper :: above) / list.dpiScale

/-- For two comments that are shown next to each other, of which the lower one is pushed up to `top`:
the upper one's anchor is high enough above the lower one as that is shown, or what is taken for the
upper one and the margins, in core pixels, is enough for its height. -/
def RoomAbove (order : List Comment) (startY : ℚ) : Prop :=
  ∀ lower upper between below top, Neighbours list.isShown order lower upper between below →
    IsLeast (pushes list.isShown list.stepUp list.anchorPixY startY (lower :: below)) top →
    list.shownY (list.anchorPixY upper) + upper.height ≤ list.shownY top ∨
      list.cutOff top + room list.stepUp (upper :: between) (lower :: below) / list.dpiScale <
        1 - ⌈upper.height⌉

/-!
## The order of the placements
-/

variable {list}

theorem layoutDownFrom_comments (x : Int) (subList : List Comment) (lastY : ℚ) :
    (list.layoutDownFrom x subList lastY).1.map Placement.comment = subList := by
  induction subList generalizing lastY with
  | nil => rfl
  | cons comment subList ih =>
      rw [layoutDownFrom, List.map_cons]
      exact congrArg (comment :: ·) (ih _)

theorem layoutDown_comments (x : ℚ) (subList : List Comment) (lastY : ℚ) :
    (list.layoutDown x subList lastY).1.map Placement.comment = subList := by
  unfold layoutDown
  dsimp only
  split <;> exact layoutDownFrom_comments _ _ _

/-- Those placed at once were all shown, exactly where no shown comment of a thread is behind a hidden
one. -/
theorem hiddenLast_iff_of_shown {comment : Comment} {rest : List Comment} :
    let count := ((linkedRun linked comment rest).filter list.isShown).length
    list.HiddenLast (comment :: rest) ↔
      (∀ shown ∈ (comment :: rest).take count, list.isShown shown = true) ∧
        list.HiddenLast ((comment :: rest).drop count) := by
  intro count
  have short : count ≤ (linkedRun linked comment rest).length := List.length_filter_le _ _
  constructor
  · intro chain
    refine ⟨?_, List.IsChain.drop chain count⟩
    have runChain : (linkedRun linked comment rest).IsChain fun before comment =>
        list.isShown comment = true → list.isShown before = true :=
      (linkedRun_isChain chain).imp fun _ _ related => related.2 related.1
    rw [take_of_le_linkedRun_length short]
    exact forall_mem_take_filter_length runChain
  · intro ⟨allShown, later⟩
    rw [HiddenLast, ← List.take_append_drop count (comment :: rest)]
    refine List.isChain_append.mpr ⟨?_, later, ?_⟩
    · refine List.Pairwise.isChain (List.Pairwise.imp_of_mem ?_
        (List.pairwise_of_forall fun _ _ => trivial))
      exact fun before _ _ _ _ => allShown _ before
    · intro before isLast _ _ _ _
      exact allShown before (List.mem_of_getLast? isLast)

/-- The hidden comments of a thread are skipped together. -/
theorem hiddenLast_iff_of_hidden {comment : Comment} {rest : List Comment}
    (allHidden : (linkedRun linked comment rest).filter list.isShown = []) :
    list.HiddenLast (comment :: rest) ↔
      list.HiddenLast ((comment :: rest).drop (linkedRun linked comment rest).length) := by
  refine isChain_iff_behind_run ?_ ?_
  · intro before comment notLinked isLinked
    rw [isLinked] at notLinked
    cases notLinked
  · intro before comment member _ isShown
    exact absurd isShown (List.filter_eq_nil_iff.mp allHidden comment member)

theorem drop_shorter {comment : Comment} {rest : List Comment} {count fuel : Nat}
    (enough : (comment :: rest).length < fuel + 1) (positive : 0 < count) :
    ((comment :: rest).drop count).length < fuel := by
  rw [List.length_drop, List.length_cons]
  rw [List.length_cons] at enough
  omega

/-- Each pass of the loop goes on behind those that it placed, or behind a hidden thread. -/
theorem loop_order {layout : List Comment → ℚ → List Placement × ℚ} {margin : ℚ} {fuel : Nat}
    {commentList : List Comment} {startY : ℚ}
    (layoutOrder : ∀ subList lastY, (layout subList lastY).1.map Placement.comment = subList)
    (enough : commentList.length < fuel) :
    ∃ placements endY, list.loop layout margin fuel commentList startY = some (placements, endY) ∧
      (commentList.filter list.isShown).Sublist (placements.map Placement.comment) ∧
      (placements.length = (commentList.filter list.isShown).length ↔
        list.HiddenLast commentList) := by
  induction fuel generalizing commentList startY with
  | zero => cases enough
  | succ fuel ih =>
      cases commentList with
      | nil => exact ⟨[], startY, rfl, List.Sublist.refl _, iff_of_true rfl .nil⟩
      | cons comment rest =>
          have isPrefix := @linkedRun_atStart Comment linked comment rest
          have positive := @linkedRun_length_pos Comment linked comment rest
          have isThread : (comment :: rest).take (linkedRun linked comment rest).length =
              linkedRun linked comment rest := (List.prefix_iff_eq_take.mp isPrefix).symm
          rw [loop]
          dsimp only
          split
          · next allHidden =>
              obtain ⟨placements, endY, isSome, inOrder, length_iff⟩ :=
                @ih _ (startY + margin) (drop_shorter enough positive)
              have sameShown : (comment :: rest).filter list.isShown =
                  ((comment :: rest).drop (linkedRun linked comment rest).length).filter
                    list.isShown := by
                conv_lhs => rw [← List.take_append_drop (linkedRun linked comment rest).length
                  (comment :: rest), List.filter_append, isThread, allHidden, List.nil_append]
              refine ⟨placements, endY, isSome, ?_, ?_⟩
              · rw [sameShown]
                exact inOrder
              · rw [sameShown, length_iff, hiddenLast_iff_of_hidden allHidden]
          · next someShown =>
              generalize isCount : ((linkedRun linked comment rest).filter list.isShown).length = count
              have countPositive : 0 < count := by
                rw [← isCount]
                exact List.length_pos_iff.mpr someShown
              have short : count ≤ (linkedRun linked comment rest).length := by
                rw [← isCount]
                exact List.length_filter_le _ _
              obtain ⟨placements, endY, isSome, inOrder, length_iff⟩ :=
                @ih _ ((layout ((linkedRun linked comment rest).filter list.isShown) startY).2 + margin)
                  (drop_shorter enough countPositive)
              have placed := layoutOrder ((linkedRun linked comment rest).filter list.isShown) startY
              have placedLength : (layout ((linkedRun linked comment rest).filter list.isShown)
                  startY).1.length = count := by
                rw [← isCount, ← List.length_map, placed]
              have split : (comment :: rest).filter list.isShown =
                  ((comment :: rest).take count).filter list.isShown ++
                    ((comment :: rest).drop count).filter list.isShown := by
                rw [← List.filter_append, List.take_append_drop]
              have taken := @length_filter_take_le _ list.isShown (comment :: rest) count
              have allTaken := @length_filter_take_eq_iff _ list.isShown (comment :: rest) count
                (short.trans isPrefix.length_le)
              have later := inOrder.length_le
              rw [List.length_map] at later
              refine ⟨_, endY, by rw [isSome]; rfl, ?_, ?_⟩
              · rw [split, List.map_append, placed, take_of_le_linkedRun_length short]
                exact List.Sublist.append ((List.take_sublist _ _).filter _) inOrder
              · have isHiddenLast := @hiddenLast_iff_of_shown list comment rest
                dsimp only at isHiddenLast
                rw [isCount] at isHiddenLast
                rw [isHiddenLast, ← allTaken, ← length_iff, split, List.length_append,
                  List.length_append, placedLength]
                dsimp only
                omega

/-!
## Downwards
-/

def shownAt (list : CommentListSection) (top : Comment × ℚ) : Comment × Int :=
  (top.1, list.shownY top.2)

def topDown (list : CommentListSection) (startY : ℚ) : List Comment → ℚ :=
  pushed list.isShown list.stepDown list.anchorPixY startY max

theorem topDown_shown {comment : Comment} {above : List Comment} {startY : ℚ}
    (isShown : list.isShown comment = true) :
    list.topDown startY (comment :: above) = if list.anchorPixY comment >
        list.topDown startY above + list.stepDown (comment :: above)
      then list.anchorPixY comment
      else list.topDown startY above + list.stepDown (comment :: above) := by
  rw [topDown, pushed, if_pos isShown, max_comm]
  exact max_def_lt _ _

theorem topDown_hidden {comment : Comment} {above : List Comment} {startY : ℚ}
    (notShown : list.isShown comment = false) :
    list.topDown startY (comment :: above) =
      list.topDown startY above + list.stepDown (comment :: above) := by
  rw [topDown, pushed, notShown]
  rfl

theorem layoutDownFrom_shown (x other : Int) (subList : List Comment) (lastY : ℚ) :
    (list.layoutDownFrom x subList lastY).1.map Placement.shown =
        (list.layoutDownFrom other subList lastY).1.map Placement.shown ∧
      (list.layoutDownFrom x subList lastY).2 = (list.layoutDownFrom other subList lastY).2 := by
  induction subList generalizing lastY with
  | nil => exact ⟨rfl, rfl⟩
  | cons comment subList ih =>
      rw [layoutDownFrom, layoutDownFrom]
      exact ⟨congrArg (_ :: ·) (ih _).1, (ih _).2⟩

theorem layoutDown_shown (x : ℚ) (subList : List Comment) (lastY : ℚ) :
    (list.layoutDown x subList lastY).1.map Placement.shown =
        (list.layoutDownFrom 0 subList lastY).1.map Placement.shown ∧
      (list.layoutDown x subList lastY).2 = (list.layoutDownFrom 0 subList lastY).2 := by
  unfold layoutDown
  dsimp only
  split <;> exact layoutDownFrom_shown _ _ _ _

/-- A thread is placed as its first comment by itself and the others below that. -/
theorem layoutDown_cons (x : ℚ) (comment : Comment) (subList : List Comment) (lastY : ℚ) :
    let top := if list.anchorPixY comment > lastY then list.anchorPixY comment else lastY
    let behind := list.layoutDown x subList (top + comment.height * list.dpiScale)
    (list.layoutDown x (comment :: subList) lastY).1.map Placement.shown =
        list.shownAt (comment, top) :: behind.1.map Placement.shown ∧
      (list.layoutDown x (comment :: subList) lastY).2 = behind.2 := by
  intro top behind
  obtain ⟨isPlaced, isEnd⟩ := @layoutDown_shown list x (comment :: subList) lastY
  obtain ⟨laterPlaced, laterEnd⟩ := @layoutDown_shown list x subList
    (top + comment.height * list.dpiScale)
  rw [isPlaced, isEnd, laterPlaced, laterEnd, layoutDownFrom]
  exact ⟨rfl, rfl⟩

/-- The first two comments of a thread are shown. The second goes on where the first one ends. -/
theorem loop_linked_shown {x : ℚ} {fuel : Nat} {comment next : Comment} {rest : List Comment}
    {startY endY : ℚ} {placements : List Placement} (isLinked : linked comment next = true)
    (isShown : list.isShown comment = true) (nextShown : list.isShown next = true) :
    let top := if list.anchorPixY comment > startY then list.anchorPixY comment else startY
    list.loop (list.layoutDown x) list.marginY fuel (next :: rest)
        (top + comment.height * list.dpiScale) = some (placements, endY) →
      ∃ placed, list.loop (list.layoutDown x) list.marginY fuel (comment :: next :: rest) startY =
          some (placed, endY) ∧
        placed.map Placement.shown =
          list.shownAt (comment, top) :: placements.map Placement.shown := by
  intro top isPlaced
  cases fuel with
  | zero => cases isPlaced
  | succ fuel =>
      obtain ⟨others, isRun⟩ := @linkedRun_head Comment linked next rest
      have nextRun : (linkedRun linked next rest).filter list.isShown ≠ [] := by
        rw [isRun, List.filter_cons_of_pos nextShown]
        exact List.cons_ne_nil _ _
      rw [loop] at isPlaced ⊢
      dsimp only at isPlaced ⊢
      rw [if_neg nextRun] at isPlaced
      obtain ⟨⟨later, laterY⟩, isLater, isAll⟩ := Option.map_eq_some_iff.mp isPlaced
      cases isAll
      obtain ⟨shownPlaced, sameEnd⟩ := @layoutDown_cons list x comment
        ((linkedRun linked next rest).filter list.isShown) startY
      rw [linkedRun, isLinked, if_pos rfl, List.filter_cons_of_pos isShown,
        if_neg (List.cons_ne_nil _ _), List.length_cons, List.drop_succ_cons, sameEnd, isLater]
      refine ⟨_, rfl, ?_⟩
      rw [List.map_append, shownPlaced, List.map_append]
      rfl

/-- The first comments of a thread are hidden, and so are all of it. -/
theorem loop_linked_hidden {layout : List Comment → ℚ → List Placement × ℚ} {margin : ℚ} {fuel : Nat}
    {comment next : Comment} {rest : List Comment} {startY : ℚ}
    (isLinked : linked comment next = true)
    (notShown : list.isShown comment = false)
    (allHidden : (linkedRun linked next rest).filter list.isShown = []) :
    list.loop layout margin fuel (comment :: next :: rest) startY =
      list.loop layout margin fuel (next :: rest) startY := by
  cases fuel with
  | zero => rfl
  | succ fuel =>
      rw [loop, loop, linkedRun, isLinked, if_pos rfl,
        List.filter_cons_of_neg (ne_true_of_eq_false notShown), allHidden, if_pos rfl, if_pos rfl,
        List.length_cons, List.drop_succ_cons]

/-- One comment is placed by itself. -/
theorem loop_single_shown {x : ℚ} {fuel : Nat} {comment : Comment} {rest : List Comment}
    {startY endY : ℚ} {placements : List Placement}
    (single : (linkedRun linked comment rest).filter list.isShown = [comment]) :
    let top := if list.anchorPixY comment > startY then list.anchorPixY comment else startY
    list.loop (list.layoutDown x) list.marginY fuel rest
        (top + comment.height * list.dpiScale + list.marginY) = some (placements, endY) →
      ∃ placed, list.loop (list.layoutDown x) list.marginY (fuel + 1) (comment :: rest) startY =
          some (placed, endY) ∧
        placed.map Placement.shown =
          list.shownAt (comment, top) :: placements.map Placement.shown := by
  intro top isPlaced
  obtain ⟨shownPlaced, sameEnd⟩ := @layoutDown_cons list x comment [] startY
  have isEnd : (list.layoutDown x [] (top + comment.height * list.dpiScale)).2 =
      top + comment.height * list.dpiScale := layoutDown_shown x [] _ |>.2
  have nonePlaced : (list.layoutDown x [] (top + comment.height * list.dpiScale)).1.map
      Placement.shown = [] := layoutDown_shown x [] _ |>.1
  rw [loop, single, if_neg (List.cons_ne_nil _ _)]
  dsimp only
  rw [sameEnd, isEnd]
  refine ⟨_, by rw [List.length_singleton, List.drop_succ_cons, List.drop_zero, isPlaced]; rfl, ?_⟩
  rw [List.map_append, shownPlaced, nonePlaced]
  rfl

/-- A hidden comment is passed by itself. -/
theorem loop_single_hidden {layout : List Comment → ℚ → List Placement × ℚ} {margin : ℚ} {fuel : Nat}
    {comment : Comment} {rest : List Comment} {startY : ℚ}
    (single : linkedRun linked comment rest = [comment])
    (notShown : list.isShown comment = false) :
    list.loop layout margin (fuel + 1) (comment :: rest) startY =
      list.loop layout margin fuel rest (startY + margin) := by
  rw [loop, single, List.filter_cons_of_neg (ne_true_of_eq_false notShown), List.filter_nil, if_pos rfl]
  rfl

theorem filter_linkedRun_of_hidden {comment : Comment} {rest : List Comment}
    (hiddenLast : list.HiddenLast (comment :: rest)) (notShown : list.isShown comment = false) :
    (linkedRun linked comment rest).filter list.isShown = [] := by
  have runChain := (linkedRun_isChain hiddenLast).imp fun _ _ related => related.2 related.1
  obtain ⟨others, isRun⟩ := @linkedRun_head Comment linked comment rest
  rw [isRun] at runChain ⊢
  rw [List.filter_cons_of_neg (ne_true_of_eq_false notShown)]
  exact filter_eq_nil_of_isChain runChain notShown

/-- The loop places these comments where they are pushed to. -/
def PlacesDown (list : CommentListSection) (x startY lastY : ℚ) (fuel : Nat)
    (above commentList : List Comment) : Prop :=
  ∃ placements endY, list.loop (list.layoutDown x) list.marginY fuel commentList lastY =
      some (placements, endY) ∧
    placements.map Placement.shown =
      (placed list.isShown (list.topDown startY) above commentList).map list.shownAt

theorem stepDown_next {next comment : Comment} {above : List Comment}
    (apart : (linked comment next && list.isShown comment == list.isShown next) = false) :
    list.stepDown (next :: comment :: above) =
      (if list.isShown comment then comment.height * list.dpiScale else 0) + list.marginY := by
  rw [stepDown, apart]
  rfl

theorem stepDown_linked {next comment : Comment} {above : List Comment}
    (isLinked : linked comment next = true) (same : list.isShown next = list.isShown comment) :
    list.stepDown (next :: comment :: above) =
      if list.isShown comment then comment.height * list.dpiScale else 0 := by
  rw [stepDown, isLinked, same, beq_self_eq_true]
  exact add_zero _

theorem placesDown_single {x startY lastY : ℚ} {fuel : Nat} {comment : Comment}
    {above rest : List Comment} (isShown : list.isShown comment = true)
    (line : list.topDown startY above + list.stepDown (comment :: above) = lastY)
    (single : (linkedRun linked comment rest).filter list.isShown = [comment])
    (later : list.PlacesDown x startY
      (list.topDown startY (comment :: above) + comment.height * list.dpiScale + list.marginY) fuel
      (comment :: above) rest) : list.PlacesDown x startY lastY (fuel + 1) above (comment :: rest) := by
  have isTop := @topDown_shown list comment above startY isShown
  obtain ⟨placements, endY, isSome, isPlaced⟩ := later
  rw [line] at isTop
  rw [isTop] at isSome
  obtain ⟨all, isAll, allPlaced⟩ := loop_single_shown single isSome
  refine ⟨all, endY, isAll, ?_⟩
  rw [allPlaced, isPlaced, placed_of_pos isShown, List.map_cons, isTop]

/-- A comment that is shown is placed with the next one of its thread, or by itself. -/
theorem placesDown_shown {x startY lastY : ℚ} {fuel : Nat} {comment : Comment}
    {above rest : List Comment} (hiddenLast : list.HiddenLast rest)
    (isShown : list.isShown comment = true)
    (line : list.topDown startY above + list.stepDown (comment :: above) = lastY)
    (enough : rest.length < fuel)
    (later : ∀ {fuel lastY}, rest.length < fuel →
      (∀ first ∈ rest.head?, list.topDown startY (comment :: above) +
        list.stepDown (first :: comment :: above) = lastY) →
      list.PlacesDown x startY lastY fuel (comment :: above) rest) :
    list.PlacesDown x startY lastY (fuel + 1) above (comment :: rest) := by
  have alone (single : (linkedRun linked comment rest).filter list.isShown = [comment])
      (apart : ∀ next ∈ rest.head?,
        (linked comment next && list.isShown comment == list.isShown next) = false) :
      list.PlacesDown x startY lastY (fuel + 1) above (comment :: rest) := by
    refine placesDown_single isShown line single (later enough fun next isNext => ?_)
    rw [stepDown_next (apart next isNext), if_pos isShown, add_assoc]
  cases rest with
  | nil =>
      refine alone ?_ fun _ isNext => absurd isNext (Option.not_mem_none _)
      rw [linkedRun, List.filter_cons_of_pos isShown, List.filter_nil]
  | cons next rest =>
      cases isLinked : linked comment next with
      | false =>
          refine alone ?_ fun _ isNext => ?_
          · rw [linkedRun, isLinked, if_neg Bool.false_ne_true, List.filter_cons_of_pos isShown,
              List.filter_nil]
          · cases isNext
            rw [isLinked, Bool.false_and]
      | true =>
          cases nextShown : list.isShown next with
          | false =>
              refine alone ?_ fun _ isNext => ?_
              · rw [linkedRun, isLinked, if_pos rfl, List.filter_cons_of_pos isShown,
                  filter_linkedRun_of_hidden hiddenLast nextShown]
              · cases isNext
                rw [isLinked, isShown, nextShown]
                rfl
          | true =>
              -- The second comment of the thread is placed in the same pass.
              have isTop := @topDown_shown list comment above startY isShown
              rw [line] at isTop
              obtain ⟨placements, endY, isSome, isPlaced⟩ :=
                @later (fuel + 1) _ (Nat.lt_succ_of_lt enough) fun _ isNext => by
                  cases isNext
                  rw [stepDown_linked isLinked (nextShown.trans isShown.symm), if_pos isShown, isTop]
              obtain ⟨all, isAll, allPlaced⟩ := loop_linked_shown isLinked isShown nextShown isSome
              refine ⟨all, endY, isAll, ?_⟩
              rw [allPlaced, isPlaced, placed_of_pos isShown, List.map_cons, isTop]

/-- A hidden comment is passed with the rest of its thread, or by itself. -/
theorem placesDown_hidden {x startY lastY : ℚ} {fuel : Nat} {comment : Comment}
    {above rest : List Comment} (hiddenLast : list.HiddenLast (comment :: rest))
    (notShown : list.isShown comment = false)
    (line : list.topDown startY above + list.stepDown (comment :: above) = lastY)
    (enough : rest.length < fuel)
    (later : ∀ {fuel lastY}, rest.length < fuel →
      (∀ first ∈ rest.head?, list.topDown startY (comment :: above) +
        list.stepDown (first :: comment :: above) = lastY) →
      list.PlacesDown x startY lastY fuel (comment :: above) rest) :
    list.PlacesDown x startY lastY (fuel + 1) above (comment :: rest) := by
  have isTop : list.topDown startY (comment :: above) = lastY := (topDown_hidden notShown).trans line
  unfold PlacesDown
  rw [placed, notShown, if_neg Bool.false_ne_true]
  cases rest with
  | nil =>
      rw [loop_single_hidden rfl notShown]
      exact later enough fun _ isNext => absurd isNext (Option.not_mem_none _)
  | cons next rest =>
      cases isLinked : linked comment next with
      | false =>
          have single : linkedRun linked comment (next :: rest) = [comment] := by
            rw [linkedRun, isLinked, if_neg Bool.false_ne_true]
          rw [loop_single_hidden single notShown]
          refine later enough fun _ isNext => ?_
          cases isNext
          rw [stepDown_next (by rw [isLinked, Bool.false_and]), notShown, isTop]
          exact congrArg (lastY + ·) (zero_add list.marginY)
      | true =>
          have nextHidden : list.isShown next = false := by
            rw [Bool.eq_false_iff]
            intro nextShown
            rw [(List.isChain_cons_cons.mp hiddenLast).1 isLinked nextShown] at notShown
            cases notShown
          rw [loop_linked_hidden isLinked notShown
            (filter_linkedRun_of_hidden hiddenLast.tail nextHidden)]
          refine @later (fuel + 1) _ (Nat.lt_succ_of_lt enough) fun _ isNext => ?_
          cases isNext
          rw [stepDown_linked isLinked (nextHidden.trans notShown.symm), notShown, isTop]
          exact add_zero lastY

/-- Where no reply to a hidden comment is shown, the comments are placed one by one. -/
theorem loop_placedDown {x : ℚ} {fuel : Nat} {commentList above : List Comment} {startY lastY : ℚ}
    (hiddenLast : list.HiddenLast commentList) (enough : commentList.length < fuel)
    (isLine : ∀ first ∈ commentList.head?,
      list.topDown startY above + list.stepDown (first :: above) = lastY) :
    list.PlacesDown x startY lastY fuel above commentList := by
  induction commentList generalizing fuel above lastY with
  | nil =>
      cases fuel with
      | zero => cases enough
      | succ fuel => exact ⟨[], lastY, rfl, rfl⟩
  | cons comment rest ih =>
      cases fuel with
      | zero => cases enough
      | succ fuel =>
          have line := isLine comment rfl
          have shorter : rest.length < fuel := Nat.lt_of_succ_lt_succ enough
          cases isShown : list.isShown comment with
          | true => exact placesDown_shown hiddenLast.tail isShown line shorter (ih hiddenLast.tail)
          | false => exact placesDown_hidden hiddenLast isShown line shorter (ih hiddenLast.tail)

/-!
## Upwards
-/

def topUp (list : CommentListSection) (startY : ℚ) : List Comment → ℚ :=
  pushed list.isShown list.stepUp list.anchorPixY startY min

theorem topUp_shown {comment : Comment} {below : List Comment} {startY lastY : ℚ}
    (isShown : list.isShown comment = true) (isLine : list.topUp startY below - list.marginY = lastY) :
    list.topUp startY (comment :: below) =
      if list.anchorPixY comment + comment.height < lastY then list.anchorPixY comment
      else lastY - comment.height := by
  have next : list.topUp startY below + list.stepUp (comment :: below) = lastY - comment.height := by
    rw [stepUp, if_pos isShown, ← isLine]
    ring
  rw [topUp, pushed, if_pos isShown, ← topUp, next]
  split
  · next above => exact min_eq_left (le_sub_iff_add_le.mpr above.le)
  · next notAbove => exact min_eq_right (sub_le_iff_le_add.mpr (not_lt.mp notAbove))

/-- Going up, no comment is linked to the one below it, and they are placed one by one. -/
theorem loop_placedUp {x : ℚ} {fuel : Nat} {commentList below : List Comment} {startY lastY : ℚ}
    (unlinked : commentList.IsChain fun a b => linked a b = false)
    (enough : commentList.length < fuel) (isLine : list.topUp startY below - list.marginY = lastY) :
    ∃ placements endY, list.loop (list.layoutUp x) (-list.marginY) fuel commentList lastY =
        some (placements, endY) ∧
      placements.map Placement.shown =
        (placed list.isShown (list.topUp startY) below commentList).map list.shownAt := by
  induction commentList generalizing fuel below lastY with
  | nil =>
      cases fuel with
      | zero => cases enough
      | succ fuel => exact ⟨[], lastY, rfl, rfl⟩
  | cons comment rest ih =>
      cases fuel with
      | zero => cases enough
      | succ fuel =>
          have later {lastY : ℚ} := @ih fuel (comment :: below) lastY unlinked.tail
            (Nat.lt_of_succ_lt_succ enough)
          have behind : (comment :: rest).drop [comment].length = rest := rfl
          rw [loop, linkedRun_of_unlinked unlinked, placed]
          cases isShown : list.isShown comment with
          | true =>
              have isTop := topUp_shown isShown isLine
              obtain ⟨placements, endY, isSome, isPlaced⟩ := later rfl
              rw [List.filter_cons_of_pos isShown, List.filter_nil, if_neg (List.cons_ne_nil _ _),
                if_pos rfl, List.map_cons, ← isPlaced]
              dsimp only [layoutUp]
              rw [← isTop, ← sub_eq_add_neg, behind, isSome]
              exact ⟨_, endY, rfl, rfl⟩
          | false =>
              rw [List.filter_cons_of_neg (ne_true_of_eq_false isShown), List.filter_nil, if_pos rfl,
                if_neg Bool.false_ne_true, behind, ← sub_eq_add_neg]
              refine later ?_
              rw [topUp, pushed, isShown, if_neg Bool.false_ne_true, ← topUp, stepUp, isShown,
                if_neg Bool.false_ne_true, add_zero, ← sub_eq_add_neg, isLine]

/-!
## Rounding
-/

theorem mathRound_mono {x y : ℚ} (le : x ≤ y) : mathRound x ≤ mathRound y :=
  Int.floor_le_floor (add_le_add_left le _)

theorem mathRound_add (x y : ℚ) :
    mathRound (x + y) = mathRound x + ⌊Int.fract (x + 1 / 2) + y⌋ := by
  rw [mathRound, mathRound, ← Int.floor_intCast_add]
  refine congrArg Int.floor ?_
  rw [← add_assoc, Int.floor_add_fract]
  ring

theorem add_le_mathRound_iff {x y height : ℚ} :
    mathRound x + height ≤ mathRound (x + y) ↔ ⌈height⌉ ≤ Int.fract (x + 1 / 2) + y := by
  rw [mathRound_add, Int.cast_add, add_le_add_iff_left, ← Int.ceil_le, Int.le_floor]

theorem mathRound_add_le_iff {x y height : ℚ} :
    mathRound (x + y) + height ≤ mathRound x ↔ Int.fract (x + 1 / 2) + y < 1 - ⌈height⌉ := by
  have whole : ⌊Int.fract (x + 1 / 2) + y⌋ + height ≤ 0 ↔
      ⌊Int.fract (x + 1 / 2) + y⌋ < 1 - ⌈height⌉ := by
    rw [← le_neg_iff_add_nonpos_left, ← Int.cast_neg, ← Int.ceil_le]
    omega
  rw [mathRound_add, Int.cast_add, add_assoc, add_le_iff_nonpos_right, whole, Int.floor_lt,
    Int.cast_sub, Int.cast_one]

theorem shownY_mono {x y : ℚ} (le : x ≤ y) : list.shownY x ≤ list.shownY y :=
  mathRound_mono (div_le_div_of_nonneg_right le list.dpiScalePositive.le)

theorem shownY_max (x y : ℚ) : list.shownY (max x y) = max (list.shownY x) (list.shownY y) := by
  rcases le_total x y with le | le
  · rw [max_eq_right le, max_eq_right (shownY_mono le)]
  · rw [max_eq_left le, max_eq_left (shownY_mono le)]

theorem shownY_min (x y : ℚ) : list.shownY (min x y) = min (list.shownY x) (list.shownY y) := by
  rcases le_total x y with le | le
  · rw [min_eq_left le, min_eq_left (shownY_mono le)]
  · rw [min_eq_right le, min_eq_right (shownY_mono le)]

/-- As they are shown, the first one ends above the second one. -/
def Above (p q : Comment × Int) : Prop := p.2 + p.1.height ≤ q.2

theorem roomBelow_iff {range : List Comment} {startY : ℚ} :
    list.RoomBelow range startY ↔
      ((placed list.isShown (list.topDown startY) [] range).map list.shownAt).IsChain Above := by
  rw [List.isChain_map, placed_isChain_iff_neighbours]
  refine forall₄_congr fun upper lower between above => ?_
  rw [forall_comm]
  refine forall_congr' fun neighbours => ?_
  rw [forall_isGreatest_pushes, Above, shownAt, shownAt, topDown,
    pushed_cons_append neighbours.second neighbours.between, shownY_max, Int.cast_max,
    le_max_iff]
  refine or_congr Iff.rfl ?_
  rw [shownY, shownY, add_div, add_le_mathRound_iff]
  rfl

theorem roomAbove_iff {order : List Comment} {startY : ℚ} :
    list.RoomAbove order startY ↔
      ((placed list.isShown (list.topUp startY) [] order).map list.shownAt).IsChain
        fun p q => Above q p := by
  rw [List.isChain_map, placed_isChain_iff_neighbours]
  refine forall₄_congr fun lower upper between below => ?_
  rw [forall_comm]
  refine forall_congr' fun neighbours => ?_
  rw [forall_isLeast_pushes, Above, shownAt, shownAt, topUp,
    pushed_cons_append neighbours.second neighbours.between, shownY_min, Int.cast_min,
    ← min_add_add_right, min_le_iff]
  refine or_congr Iff.rfl ?_
  rw [shownY, shownY, add_div]
  exact mathRound_add_le_iff.symm

/-- Comments one above the other are so in the order of the list, and the other way round. -/
theorem pairwise_range_iff {range : List Comment} {inOrder : List Placement}
    {R : Placement → Placement → Prop} (distinct : range.Nodup)
    (isPlaced : inOrder.map Placement.comment = range.filter list.isShown) :
    (range.Pairwise fun before after => ∀ p ∈ inOrder, ∀ q ∈ inOrder,
      p.comment = before → q.comment = after → R p q) ↔ inOrder.Pairwise R := by
  constructor
  · intro apart
    have placedApart := apart.filter list.isShown
    rw [← isPlaced, List.pairwise_map] at placedApart
    exact List.Pairwise.imp_of_mem (fun before after related => related _ before _ after rfl rfl)
      placedApart
  · intro apart
    induction range generalizing inOrder with
    | nil => exact .nil
    | cons comment range ih =>
        obtain ⟨notLater, laterDistinct⟩ := List.nodup_cons.mp distinct
        have notShownLater {placements : List Placement} (later : placements.map Placement.comment =
            range.filter list.isShown) {p : Placement} (member : p ∈ placements) :
            p.comment ∈ range := by
          have isShown : p.comment ∈ placements.map Placement.comment := List.mem_map_of_mem member
          rw [later] at isShown
          exact (List.mem_filter.mp isShown).1
        cases isShown : list.isShown comment with
        | false =>
            rw [List.filter_cons_of_neg (ne_true_of_eq_false isShown)] at isPlaced
            refine List.pairwise_cons.mpr ⟨?_, ih laterDistinct isPlaced apart⟩
            intro _ _ p member _ _ isFirst _
            rw [← isFirst] at notLater
            exact absurd (notShownLater isPlaced member) notLater
        | true =>
            rw [List.filter_cons_of_pos isShown] at isPlaced
            cases inOrder with
            | nil => cases isPlaced
            | cons first inOrder =>
                rw [List.map_cons] at isPlaced
                obtain ⟨isFirst, later⟩ := List.cons_eq_cons.mp isPlaced
                obtain ⟨below, laterApart⟩ := List.pairwise_cons.mp apart
                have isLater {q : Placement} (member : q ∈ first :: inOrder)
                    (inRange : q.comment ∈ range) : q ∈ inOrder := by
                  rcases List.mem_cons.mp member with rfl | isLater
                  · rw [isFirst] at inRange
                    exact absurd inRange notLater
                  · exact isLater
                refine List.pairwise_cons.mpr ⟨?_, ?_⟩
                · intro after inRange p member q isOther isComment isAfter
                  rw [← isAfter] at inRange
                  rcases List.mem_cons.mp member with rfl | isBehind
                  · exact below q (isLater isOther inRange)
                  · rw [← isComment] at notLater
                    exact absurd (notShownLater later isBehind) notLater
                · refine List.Pairwise.imp_of_mem ?_ (ih laterDistinct later laterApart)
                  intro before after beforeMem afterMem related p member q isOther isBefore isAfter
                  rw [← isBefore] at beforeMem
                  rw [← isAfter] at afterMem
                  exact related p (isLater member beforeMem) q (isLater isOther afterMem) isBefore
                    isAfter

/-!
## Both directions
-/

theorem above_isChain_iff {placements : List Placement} :
    (placements.map Placement.shown).IsChain Above ↔
      placements.Pairwise fun p q : Placement => p.y + p.comment.height ≤ q.y := by
  have : IsTrans (Comment × Int) Above :=
    ⟨fun _ q _ first second => first.trans
      ((le_add_of_nonneg_right q.1.heightPositive.le).trans second)⟩
  rw [List.isChain_iff_pairwise, List.pairwise_map]
  rfl

/-- Comments that are placed in the order of the list, each once. -/
theorem laidOut_iff {range : List Comment} {tops : List (Comment × ℚ)}
    {inOrder placements : List Placement} (distinct : range.Nodup)
    (isPerm : inOrder.Perm placements)
    (isPlaced : inOrder.map Placement.shown = tops.map list.shownAt)
    (isRange : tops.map Prod.fst = range.filter list.isShown) :
    list.LaidOut range placements ↔ (tops.map list.shownAt).IsChain Above := by
  have inRange : inOrder.map Placement.comment = range.filter list.isShown := by
    have firsts := congrArg (List.map Prod.fst) isPlaced
    rw [List.map_map, List.map_map] at firsts
    exact firsts.trans isRange
  have once : (placements.map Placement.comment).Perm (range.filter list.isShown) := by
    rw [← inRange]
    exact isPerm.symm.map _
  rw [← isPlaced, above_isChain_iff, ← pairwise_range_iff distinct inRange]
  constructor
  · intro laidOut
    exact laidOut.apart.imp fun related p member q isOther =>
      related p (isPerm.mem_iff.mp member) q (isPerm.mem_iff.mp isOther)
  · intro apart
    exact ⟨once, apart.imp fun related p member q isOther =>
      related p (isPerm.mem_iff.mpr member) q (isPerm.mem_iff.mpr isOther)⟩

theorem notAboveAnchor_of_placed {order : List Comment} {startY : ℚ} {placements : List Placement}
    (isPlaced : placements.map Placement.shown =
      (placed list.isShown (list.topDown startY) [] order).map list.shownAt) :
    list.NotAboveAnchor placements := by
  intro p member
  have isShown : p.shown ∈ placements.map Placement.shown := List.mem_map_of_mem member
  rw [isPlaced] at isShown
  obtain ⟨top, isTop, isShownAt⟩ := List.mem_map.mp isShown
  have isComment : top.1 = p.comment := congrArg Prod.fst isShownAt
  have isY : list.shownY top.2 = p.y := congrArg Prod.snd isShownAt
  rw [← isComment, ← isY]
  refine shownY_mono ?_
  refine forall_mem_placed (P := fun top => list.anchorPixY top.1 ≤ top.2) ?_ [] order top isTop
  intro comment above isShown
  rw [topDown, pushed, if_pos isShown]
  exact le_max_left _ _

theorem nodup_of_threads {commentList : List Comment}
    (threads : Threads (commentList.map Comment.toCommentData)) : commentList.Nodup := by
  have distinct := threads.distinct
  rw [List.map_map, List.Nodup, List.pairwise_map] at distinct
  exact distinct.imp fun differ same => differ (congrArg _ same)

theorem loopDown_laidOut_iff {commentList : List Comment} {fuel startIndex : Nat} {x startY : ℚ}
    (distinct : commentList.Nodup) (enough : commentList.length < fuel) :
    ∃ placements endY, list.loopDown fuel commentList startIndex x startY = some (placements, endY) ∧
      (list.LaidOut (commentList.drop startIndex) placements ∧ list.NotAboveAnchor placements ↔
        list.HiddenLast (commentList.drop startIndex) ∧
          list.RoomBelow (commentList.drop startIndex) startY) := by
  have shorter : (commentList.drop startIndex).length < fuel := by
    rw [List.length_drop]
    omega
  obtain ⟨placements, endY, isSome, _, length_iff⟩ :=
    @loop_order list (list.layoutDown x) list.marginY fuel _ startY (layoutDown_comments x) shorter
  refine ⟨placements, endY, isSome, ?_⟩
  have isPlaced (hiddenLast : list.HiddenLast (commentList.drop startIndex)) :
      placements.map Placement.shown = (placed list.isShown (list.topDown startY) []
        (commentList.drop startIndex)).map list.shownAt := by
    obtain ⟨others, otherY, isOther, isPlaced⟩ := @loop_placedDown list x fuel _ [] startY startY
      hiddenLast shorter fun _ _ => add_zero _
    rw [isSome] at isOther
    cases isOther
    exact isPlaced
  have laidOut_iff (hiddenLast : list.HiddenLast (commentList.drop startIndex)) :
      list.LaidOut (commentList.drop startIndex) placements ↔
        list.RoomBelow (commentList.drop startIndex) startY := by
    rw [laidOut_iff (distinct.sublist (List.drop_sublist _ _)) (.refl _) (isPlaced hiddenLast)
      (placed_fst _ _ _), roomBelow_iff]
  constructor
  · intro ⟨laidOut, _⟩
    have hiddenLast : list.HiddenLast (commentList.drop startIndex) := by
      refine length_iff.mp ?_
      rw [← laidOut.once.length_eq, List.length_map]
    exact ⟨hiddenLast, (laidOut_iff hiddenLast).mp laidOut⟩
  · intro ⟨hiddenLast, roomBelow⟩
    exact ⟨(laidOut_iff hiddenLast).mpr roomBelow, notAboveAnchor_of_placed (isPlaced hiddenLast)⟩

theorem loopUp_laidOut_iff {commentList : List Comment} {fuel : Nat} {startIndex : Int} {x startY : ℚ}
    (threads : Threads (commentList.map Comment.toCommentData))
    (inList : startIndex < commentList.length) (enough : commentList.length < fuel) :
    ∃ placements endY, list.loopUp fuel commentList startIndex x startY = some (placements, endY) ∧
      (list.LaidOut (commentList.take (startIndex + 1).toNat) placements ↔
        list.RoomAbove (commentList.take (startIndex + 1).toNat).reverse startY) := by
  have unlinked : (commentList.take (startIndex + 1).toNat).reverse.IsChain
      fun a b => linked a b = false := by
    refine List.isChain_reverse.mpr (List.IsChain.take ?_ _)
    exact (List.isChain_map _).mp threads.notParent
  have shorter : (commentList.take (startIndex + 1).toNat).reverse.length < fuel := by
    rw [List.length_reverse, List.length_take]
    omega
  obtain ⟨placements, endY, isSome, isPlaced⟩ :=
    @loop_placedUp list x fuel _ [] startY _ unlinked shorter rfl
  refine ⟨placements, endY, by rw [loopUp, if_pos inList]; exact isSome, ?_⟩
  have isRange := @placed_fst _ _ list.isShown (list.topUp startY) []
    (commentList.take (startIndex + 1).toNat).reverse
  rw [List.filter_reverse, ← List.reverse_eq_iff, ← List.map_reverse] at isRange
  rw [← List.reverse_inj, ← List.map_reverse, ← List.map_reverse] at isPlaced
  rw [laidOut_iff ((nodup_of_threads threads).sublist (List.take_sublist _ _))
    (List.reverse_perm _) isPlaced isRange, List.map_reverse, List.isChain_reverse, roomAbove_iff]

/-- A resolved comment with a reply that is not resolved. -/
private def resolvedRoot : Comment :=
  ⟨⟨['1'], some ['0'], "true".toList, false, ⟨0, 100⟩⟩, 0, 100, by decide⟩

private def openReply : Comment :=
  ⟨⟨['2'], some ['1'], "false".toList, false, ⟨0, 100⟩⟩, 0, 100, by decide⟩

/-- Two threads close to each other. -/
private def upperThread : Comment :=
  ⟨⟨['1'], some ['0'], "false".toList, false, ⟨0, 850⟩⟩, 0, 100, by decide⟩

private def lowerThread : Comment :=
  ⟨⟨['2'], some ['0'], "false".toList, false, ⟨0, 900⟩⟩, 0, 100, by decide⟩

/-- A section on a screen with two pixels for each CSS pixel. -/
private def fineScreen : CommentListSection :=
  { showResolved := false, checkSelectedPart := false, selectedPart := 0, selectedComment := none,
    isRTL := false, deflectionOfSelectedComment := 160, ratio := 1, documentTop := 0, dpiScale := 2,
    marginY := 20, dpiScalePositive := by decide, marginNonneg := by decide }

private theorem threads_of_roots : Threads ([upperThread, lowerThread].map Comment.toCommentData) where
  distinct := by decide
  notZero := by decide
  first := by
    intro comment isFirst
    cases isFirst
    rfl
  linked := List.isChain_cons_cons.mpr ⟨.inl rfl, .singleton _⟩

private theorem threads_of_reply : Threads ([resolvedRoot, openReply].map Comment.toCommentData) where
  distinct := by decide
  notZero := by decide
  first := by
    intro comment isFirst
    cases isFirst
    rfl
  linked := List.isChain_cons_cons.mpr ⟨.inr rfl, .singleton _⟩

/-- Two comments of one thread, each a quarter of a pixel higher than a whole number. -/
private def unevenRoot : Comment :=
  ⟨⟨['1'], some ['0'], "false".toList, false, ⟨0, 850⟩⟩, 0, 401 / 4, by norm_num⟩

private def unevenReply : Comment :=
  ⟨⟨['2'], some ['1'], "false".toList, false, ⟨0, 850⟩⟩, 0, 401 / 4, by norm_num⟩

private theorem threads_of_uneven : Threads ([unevenRoot, unevenReply].map Comment.toCommentData) where
  distinct := by decide
  notZero := by decide
  first := by
    intro comment isFirst
    cases isFirst
    rfl
  linked := List.isChain_cons_cons.mpr ⟨.inr rfl, .singleton _⟩

end CommentListSection

end FreeOnline.Browser.Comments
