import FreeOnline.Library.Text
import Mathlib.Data.List.Chain

/-!
# Threads of comments

In the list of comments each reply follows the comment that it replies to. A thread starts with a
comment whose parent is `0`. Tracked changes are in the list too, and have no parent.
-/

set_option autoImplicit false

namespace FreeOnline.Browser.Comments

open FreeOnline.Library

/-- A position in twips. -/
structure Anchor where
  x : Int
  y : Int
deriving DecidableEq

structure CommentData where
  id : Text
  parent : Option Text
  resolved : Text
  trackchange : Bool
  anchorPos : Anchor
deriving DecidableEq

namespace CommentData

variable (comment : CommentData)

def parentOf (other : CommentData) : Bool := some comment.id == other.parent

/-- The comment starts a thread, or is a tracked change. -/
def IsRoot : Prop := comment.parent = if comment.trackchange then none else some ['0']

instance : Decidable comment.IsRoot := inferInstanceAs (Decidable (_ = _))

end CommentData

/-- A list made of threads. -/
structure Threads (commentList : List CommentData) : Prop where
  distinct : (commentList.map CommentData.id).Nodup
  notZero : ∀ comment ∈ commentList, comment.id ≠ ['0']
  first : ∀ comment ∈ commentList.head?, comment.IsRoot
  linked : commentList.IsChain fun before comment => comment.IsRoot ∨ before.parentOf comment = true

namespace CommentData

variable {comment other : CommentData}

theorem parentOf_iff : comment.parentOf other = true ↔ other.parent = some comment.id := by
  rw [parentOf, beq_iff_eq, eq_comm]

theorem IsRoot.parent_ne (isRoot : comment.IsRoot) (notZero : other.id ≠ ['0']) :
    comment.parent ≠ some other.id := by
  rw [isRoot]
  split
  · nofun
  · exact fun isZero => notZero (Option.some.inj isZero).symm

end CommentData

/-- No comment replies to a later one. -/
theorem notParent_of_linked {first : CommentData} {commentList : List CommentData}
    (distinct : ((first :: commentList).map CommentData.id).Nodup)
    (notZero : ∀ comment ∈ first :: commentList, comment.id ≠ ['0'])
    (outside : ∀ comment ∈ first :: commentList, first.parent ≠ some comment.id)
    (linked : (first :: commentList).IsChain fun before comment =>
      comment.IsRoot ∨ before.parentOf comment = true) :
    (first :: commentList).IsChain fun before comment => comment.parentOf before = false := by
  induction commentList generalizing first with
  | nil => exact .singleton _
  | cons second commentList ih =>
      obtain ⟨link, later⟩ := List.isChain_cons_cons.mp linked
      obtain ⟨notLater, laterDistinct⟩ := List.nodup_cons.mp distinct
      obtain ⟨-, laterNotZero⟩ := List.forall_mem_cons.mp notZero
      refine List.isChain_cons_cons.mpr ⟨?_, ih laterDistinct laterNotZero ?_ later⟩
      · rw [Bool.eq_false_iff]
        exact fun isParent => outside second (List.mem_cons_of_mem _ List.mem_cons_self)
          (CommentData.parentOf_iff.mp isParent)
      · intro comment member isParent
        rcases link with isRoot | isChild
        · exact isRoot.parent_ne (laterNotZero comment member) isParent
        · rw [CommentData.parentOf_iff.mp isChild] at isParent
          refine notLater ?_
          rw [Option.some.inj isParent]
          exact List.mem_map_of_mem member

theorem Threads.notParent {commentList : List CommentData} (threads : Threads commentList) :
    commentList.IsChain fun before comment => comment.parentOf before = false := by
  cases commentList with
  | nil => exact .nil
  | cons first commentList =>
      exact notParent_of_linked threads.distinct threads.notZero
        (fun comment member => (threads.first first rfl).parent_ne (threads.notZero comment member))
        threads.linked

end FreeOnline.Browser.Comments
