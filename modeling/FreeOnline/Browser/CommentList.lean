import FreeOnline.Browser.CommentThreads
import Mathlib.Data.List.Sort
import Mathlib.Logic.Function.Basic

/-!
# The list of comments

The list changes with what the server acknowledges and when the comments or the tracked changes are
imported. A map from the ids to the indices in the list is kept beside it. A reply is put behind the
comment that it replies to, and the parents are rewritten so that each thread stays a chain.
-/

set_option autoImplicit false

namespace FreeOnline.Browser.Comments

open FreeOnline.Library

/-- A tracked change. The text range is none where it is not sane, and else its first corner. -/
structure Redline where
  index : Int
  textRange : Option Anchor
deriving DecidableEq

def Redline.id (redline : Redline) : Text := "change-".toList ++ printInt redline.index

def adjustRedLine (redline : Redline) : Option CommentData :=
  redline.textRange.map fun anchorPos => ⟨redline.id, none, [], true, anchorPos⟩

def adjustComment (comment : CommentData) : CommentData := { comment with trackchange := false }

/-- The comment has a parent. -/
def CommentData.isReply (comment : CommentData) : Bool :=
  match comment.parent with
  | none => false
  | some parent => decide (['0'] < parent)

/-- The comparison of the rows, and of the columns in the same row, is not positive. -/
def anchorLe (a b : CommentData) : Prop :=
  a.anchorPos.y.natAbs < b.anchorPos.y.natAbs ∨
    a.anchorPos.y.natAbs = b.anchorPos.y.natAbs ∧ a.anchorPos.x.natAbs ≤ b.anchorPos.x.natAbs

instance : DecidableRel anchorLe := fun _ _ => inferInstanceAs (Decidable (_ ∨ _))

structure State where
  commentList : List CommentData
  idIndexMap : Text → Option Nat

/-- The map with the indices of the comments, the first of which has the given one. -/
def setIndices : Nat → List CommentData → (Text → Option Nat) → Text → Option Nat
  | _, [], idIndexMap => idIndexMap
  | idx, comment :: commentList, idIndexMap =>
      setIndices (idx + 1) commentList (Function.update idIndexMap comment.id (some idx))

def rootIndexFrom (commentList : List CommentData) : Nat → Nat
  | 0 => 0
  | idx + 1 =>
      match commentList[idx]?, commentList[idx + 1]? with
      | some before, some comment =>
          if before.parentOf comment then rootIndexFrom commentList idx else idx + 1
      | _, _ => idx + 1

/-- How many comments in a row each reply to the one before. -/
def repliesBehind : CommentData → List CommentData → Nat
  | _, [] => 0
  | before, comment :: commentList =>
      if before.parentOf comment then repliesBehind comment commentList + 1 else 0

/-- An id is looked up for its index, or for an end of its thread. -/
inductive Lookup where
  | index (list : State)
  | thread (list : State)

/-- What a handler leaves, and the states in which it looks up ids. -/
structure Handled where
  state : State
  lookups : List Lookup

namespace State

variable (list : State)

def getIndexOf (id : Text) : Option Nat := list.idIndexMap id

def getComment (id : Text) : Option CommentData :=
  (list.getIndexOf id).bind fun index => list.commentList[index]?

def getRootIndexOf (id : Text) : Option Nat :=
  (list.getIndexOf id).map (rootIndexFrom list.commentList)

def getLastChildIndexOf (id : Text) : Option Nat :=
  (list.getIndexOf id).map fun index =>
    match list.commentList.drop index with
    | [] => index
    | comment :: commentList => index + repliesBehind comment commentList

def updateIdIndexMap : State :=
  { list with idIndexMap := setIndices 0 list.commentList fun _ => none }

def orderCommentList : State :=
  updateIdIndexMap { list with commentList := list.commentList.insertionSort anchorLe }

def setParent (index : Nat) (comment : CommentData) (parent : Text) : State :=
  { list with commentList := list.commentList.set index { comment with parent := some parent } }

/-- The comment at the index gets the state of its thread's root, none where one of them is missing. -/
def updateResolvedState (index : Nat) : Option State :=
  list.commentList[index]?.bind fun comment =>
    (list.getRootIndexOf comment.id).bind fun threadIndexFirst =>
      list.commentList[threadIndexFirst]?.map fun root =>
        if root.resolved ≠ comment.resolved then
          { list with
            commentList := list.commentList.set index { comment with resolved := root.resolved } }
        else list

def adjustParentAdd (comment : CommentData) : State :=
  if comment.isReply then
    match comment.parent.bind list.getIndexOf with
    | none => list
    | some parentIdx =>
        match list.commentList[parentIdx]?, list.commentList[parentIdx + 1]? with
        | some parent, some next =>
            if parent.parentOf next then list.setParent (parentIdx + 1) next comment.id else list
        | _, _ => list
  else list

/-- `accepted` is the answer of `addSection`. -/
def add (comment : CommentData) (accepted : Bool) : Handled :=
  if comment.isReply then
    let parentIdx := comment.parent.bind list.getIndexOf
    if !accepted then ⟨list, [.index list]⟩
    else
      let index := min (parentIdx.elim 0 (· + 1)) list.commentList.length
      let inserted := updateIdIndexMap { list with
        commentList := list.commentList.take index ++ comment :: list.commentList.drop index }
      match inserted.updateResolvedState index with
      -- The handler is left by an exception.
      | none => ⟨inserted, [.index list, .thread inserted]⟩
      | some resolved =>
          ⟨resolved.orderCommentList, [.index list, .thread inserted, .thread resolved]⟩
  else if !accepted then ⟨list, []⟩
  else ⟨orderCommentList { list with commentList := list.commentList ++ [comment] }, []⟩

def adjustParentRemove (comment : CommentData) : State :=
  let newId := ((comment.parent.bind list.getComment).map CommentData.id).getD ['0']
  match list.getIndexOf comment.id with
  | none => list
  | some currentIdx =>
      match list.commentList[currentIdx]?, list.commentList[currentIdx + 1]? with
      | some current, some next =>
          if current.parentOf next then list.setParent (currentIdx + 1) next newId else list
      | _, _ => list

def removeItem (id : Text) : State :=
  if list.commentList.any fun comment => comment.id == id then
    updateIdIndexMap { list with
      commentList := list.commentList.eraseP fun comment => comment.id == id }
  else list

def remove (id : Text) : Handled :=
  match list.getComment id with
  | none => ⟨list, [.index list]⟩
  | some removed =>
      let left := (list.adjustParentRemove removed).removeItem id
      ⟨left, [.index list, .thread left]⟩

def setData (id : Text) (data : CommentData) : State :=
  match list.getIndexOf id with
  | none => list
  | some index => { list with commentList := list.commentList.set index data }

def modify (id : Text) (data : CommentData) : Handled :=
  match list.getComment id with
  | none => ⟨list, [.index list]⟩
  | some _ => ⟨list.setData id data, [.index list, .thread (list.setData id data)]⟩

/-- As for a modification, once the root is looked up. -/
def resolve (id : Text) (data : CommentData) : Handled :=
  match list.getComment id with
  | none => ⟨list, [.index list]⟩
  | some _ =>
      ⟨list.setData id data, [.index list, .thread list, .thread (list.setData id data)]⟩

def clearList : State :=
  updateIdIndexMap { list with commentList := list.commentList.filter CommentData.trackchange }

def clearChanges : State :=
  updateIdIndexMap { list with
    commentList := list.commentList.filter fun comment => !comment.trackchange }

end State

/-- The loop over the comments to import, with the answers of `addSection`. False where it is left by an
exception. -/
def importLoop : Nat → List (CommentData × Bool) → State → Handled × Bool
  | _, [], list => (⟨list, []⟩, true)
  | i, (comment, accepted) :: comments, list =>
      let comment := adjustComment comment
      if !accepted then importLoop (i + 1) comments list
      else
        let pushed : State := ⟨list.commentList ++ [comment],
          Function.update list.idIndexMap comment.id (some i)⟩
        let lookups := if i < pushed.commentList.length then [.thread pushed] else []
        match pushed.updateResolvedState i with
        | none => (⟨pushed, lookups⟩, false)
        | some resolved =>
            let (handled, completed) := importLoop (i + 1) comments resolved
            (⟨handled.state, lookups ++ .thread resolved :: handled.lookups⟩, completed)

namespace State

variable (list : State)

def importComments (comments : List (CommentData × Bool)) : Handled :=
  if comments = [] then ⟨list.clearList, []⟩
  else
    let (handled, completed) := importLoop 0 comments list.clearList
    if completed then
      ⟨handled.state.orderCommentList,
        handled.lookups ++ [.thread handled.state.orderCommentList]⟩
    else handled

/-- The sane ones of the changes that `addSection` accepts. -/
def acceptedChanges (changes : List (Redline × Bool)) : List CommentData :=
  changes.filterMap fun (redline, accepted) =>
    if accepted then adjustRedLine redline else none

def importChanges (changes : List (Redline × Bool)) : Handled :=
  if changes = [] then ⟨list.clearChanges, []⟩
  else
    let ordered := orderCommentList { list.clearChanges with
      commentList := list.clearChanges.commentList ++ acceptedChanges changes }
    ⟨ordered, [.thread ordered]⟩

end State

inductive Action where
  | add
  | remove
  | modify
  | resolve
deriving DecidableEq

/-- An acknowledgement for a comment or for a tracked change. -/
inductive Ack where
  | comment (action : Action) (comment : CommentData)
  | redline (action : Action) (redline : Redline)

namespace State

variable (list : State)

def onACKComment (ack : Ack) (accepted : Bool) : Handled :=
  match ack with
  | .comment .add comment =>
      let adjusted := list.adjustParentAdd (adjustComment comment)
      let handled := adjusted.add (adjustComment comment) accepted
      ⟨handled.state, .index list :: handled.lookups⟩
  | .comment .remove comment => list.remove comment.id
  | .comment .modify comment => list.modify comment.id (adjustComment comment)
  | .comment .resolve comment => list.resolve comment.id (adjustComment comment)
  | .redline .add redline =>
      match adjustRedLine redline with
      | none => ⟨list, []⟩
      | some change => list.add change accepted
  | .redline .remove redline => list.remove redline.id
  | .redline .modify redline =>
      match adjustRedLine redline with
      | none => ⟨list, [.index list]⟩
      | some change => list.modify redline.id change
  | .redline .resolve redline =>
      match adjustRedLine redline with
      | none => ⟨list, [.index list, .thread list]⟩
      | some change => list.resolve redline.id change

end State

/-- What the list handles: an acknowledgement with the answer of `addSection`, an import with those
answers, and the layout after a while. -/
inductive Event where
  | ack (ack : Ack) (accepted : Bool)
  | importComments (comments : List (CommentData × Bool))
  | importChanges (changes : List (Redline × Bool))
  | layout

namespace State

def handle (list : State) : Event → Handled
  | .ack ack accepted => list.onACKComment ack accepted
  | .importComments comments => list.importComments comments
  | .importChanges changes => list.importChanges changes
  | .layout => ⟨list.orderCommentList, []⟩

/-- The ids may be looked up between the events as well. -/
def run : State → List Event → Handled
  | list, [] => ⟨list, [.thread list]⟩
  | list, event :: events =>
      let handled := list.handle event
      let later := run handled.state events
      ⟨later.state, .thread list :: handled.lookups ++ later.lookups⟩

def empty : State := ⟨[], fun _ => none⟩

end State

/-!
## What is expected
-/

/-- The part of a list from the root of a thread to its last reply, or a tracked change. -/
structure IsThread (commentList : List CommentData) (root last : Nat) : Prop where
  first : ∃ comment, commentList[root]? = some comment ∧
    (comment.parent = some ['0'] ∨ comment.trackchange = true ∧ root = last)
  replies : ∀ i, root ≤ i → i < last → ∃ before comment, commentList[i]? = some before ∧
    commentList[i + 1]? = some comment ∧ before.parentOf comment = true
  inList : last < commentList.length
  next : ∀ comment, commentList[last + 1]? = some comment → comment.IsRoot

/-- The map has the ids of the list, each with its index. -/
def State.MapExact (list : State) : Prop :=
  ∀ id i, list.idIndexMap id = some i ↔ list.commentList[i]?.map CommentData.id = some id

/-- The list is made of threads, the map is exact, and the ends of each thread are found. -/
structure State.Kept (list : State) : Prop where
  exact : list.MapExact
  threads : Threads list.commentList
  ends : ∀ i comment, list.commentList[i]? = some comment → ∃ root last,
    list.getRootIndexOf comment.id = some root ∧ list.getLastChildIndexOf comment.id = some last ∧
      root ≤ i ∧ i ≤ last ∧ IsThread list.commentList root last

/-- While a comment is put into a thread, its parent is looked up by the map alone. -/
def Lookup.Holds : Lookup → Prop
  | .index list => list.MapExact
  | .thread list => list.Kept

/-- The comment may be added to the list. -/
structure Fresh (commentList : List CommentData) (comment : CommentData) : Prop where
  notZero : comment.id ≠ ['0']
  isNew : comment.id ∉ commentList.map CommentData.id

def acceptedComments (comments : List (CommentData × Bool)) : List CommentData :=
  comments.filterMap fun (comment, accepted) =>
    if accepted then some (adjustComment comment) else none

/-- New data for a comment of the list, with the anchor of those that it is in one thread with. -/
structure FitsThread (commentList : List CommentData) (data : CommentData) : Prop where
  isText : ∀ old ∈ commentList, old.id = data.id → old.trackchange = false
  replies : ∀ reply ∈ commentList, data.parentOf reply = true → reply.anchorPos = data.anchorPos
  parents : ∀ parent ∈ commentList, parent.parentOf data = true → data.anchorPos = parent.anchorPos

/-- What is assumed of an event: unique ids, and one anchor for all comments of a thread. -/
def State.Assumes (list : State) : Event → Prop
  | .ack (.comment .add comment) _ =>
      Fresh list.commentList comment ∧
        ∀ parent ∈ list.commentList, parent.parentOf comment = true →
          comment.anchorPos = parent.anchorPos
  | .ack (.comment .modify comment) _ | .ack (.comment .resolve comment) _ =>
      FitsThread list.commentList comment
  | .ack (.redline .add redline) _ =>
      ∀ change ∈ adjustRedLine redline, Fresh list.commentList change
  | .ack (.redline .modify redline) _ | .ack (.redline .resolve redline) _ =>
      ∀ old ∈ list.commentList, old.id = redline.id → old.trackchange = true
  | .importComments comments =>
      ((list.clearList.commentList ++ acceptedComments comments).map CommentData.id).Nodup ∧
        ∀ comment ∈ acceptedComments comments, comment.id ≠ ['0'] ∧
          ∀ parent ∈ acceptedComments comments, parent.parentOf comment = true →
            comment.anchorPos = parent.anchorPos
  | .importChanges changes =>
      ((list.clearChanges.commentList ++ State.acceptedChanges changes).map CommentData.id).Nodup
  | .ack (.comment .remove _) _ | .ack (.redline .remove _) _ | .layout => True

/-- Each comment is pushed at its own index among those to import. There are so many in the list. -/
def Aligned : Nat → Nat → List (CommentData × Bool) → Prop
  | _, _, [] => True
  | i, length, (_, accepted) :: comments =>
      if accepted then i = length ∧ Aligned (i + 1) (length + 1) comments
      else Aligned (i + 1) length comments

/-- An accepted reply's parent is in the list, a refused one's parent has no other reply, what is no reply
has the parent `0`, new data keeps the parent or makes a root, and what is imported is aligned and comes
in threads. -/
def State.Harmless (list : State) : Event → Prop
  | .ack (.comment .add comment) accepted =>
      if comment.isReply then
        if accepted then
          ∃ parent ∈ list.commentList, parent.trackchange = false ∧ parent.parentOf comment = true
        else
          ∀ parent ∈ list.commentList, parent.parentOf comment = true →
            ∀ next ∈ list.commentList, parent.parentOf next = false
      else accepted = true → comment.parent = some ['0']
  | .ack (.comment .modify comment) _ | .ack (.comment .resolve comment) _ =>
      ∀ front old back, list.commentList = front ++ old :: back → old.id = comment.id →
        comment.parent = some ['0'] ∨
          ∃ parent ∈ front.getLast?, parent.trackchange = false ∧ parent.parentOf comment = true
  | .importComments comments =>
      Aligned 0 list.clearList.commentList.length comments ∧
        (∀ first ∈ (acceptedComments comments).head?, first.parent = some ['0']) ∧
        (acceptedComments comments).IsChain fun before comment =>
          comment.parent = some ['0'] ∨ before.parentOf comment = true
  | .ack (.comment .remove _) _ | .ack (.redline _ _) _ | .importChanges _ | .layout => True

/-- All events of a run are as assumed in the states in which they are handled. -/
def State.AllAssumed : State → List Event → Prop
  | _, [] => True
  | list, event :: events => list.Assumes event ∧ AllAssumed (list.handle event).state events

def State.AllHarmless : State → List Event → Prop
  | _, [] => True
  | list, event :: events => list.Harmless event ∧ AllHarmless (list.handle event).state events

end FreeOnline.Browser.Comments
