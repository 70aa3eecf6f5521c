import FreeOnline.Browser.CommentList

/-!
# Threads in the order of the list

A thread has one anchor, so sorting by the anchors leaves it in one piece. Replies are put into a thread
and taken out of it where the parents are rewritten.
-/

set_option autoImplicit false

namespace FreeOnline.Browser.Comments

open FreeOnline.Library

/-- A reply to the comment, both at one anchor and no tracked changes. -/
structure CommentData.RepliesTo (comment before : CommentData) : Prop where
  isParent : before.parentOf comment = true
  sameAnchor : comment.anchorPos = before.anchorPos
  beforeText : before.trackchange = false
  isText : comment.trackchange = false

/-- Each comment starts a thread or replies to the one before it. -/
def Linked : Option CommentData → List CommentData → Prop
  | _, [] => True
  | before, comment :: commentList =>
      (comment.IsRoot ∨ ∃ parent ∈ before, comment.RepliesTo parent) ∧
        Linked (some comment) commentList

/-- A list made of threads, each at one anchor. -/
structure Together (commentList : List CommentData) : Prop where
  distinct : (commentList.map CommentData.id).Nodup
  notZero : ∀ comment ∈ commentList, comment.id ≠ ['0']
  linked : Linked none commentList

section

variable {before : Option CommentData} {commentList front back : List CommentData}
variable {comment parent next : CommentData}

theorem linked_append :
    Linked before (front ++ back) ↔ Linked before front ∧ Linked (front.getLast?.or before) back := by
  induction front generalizing before with
  | nil => exact (and_iff_right trivial).symm
  | cons first front ih =>
      have last : ((first :: front).getLast?.or before) = front.getLast?.or (some first) := by
        cases front with
        | nil => rfl
        | cons second front => rw [List.getLast?_cons_cons, List.getLast?_cons, Option.some_or, Option.some_or]
      rw [List.cons_append, Linked, Linked, ih, last, and_assoc]

/-- What comes before a comment of the list decides whether it is linked. -/
theorem linked_iff_split :
    Linked before commentList ↔ ∀ front comment back, commentList = front ++ comment :: back →
      comment.IsRoot ∨ ∃ parent ∈ front.getLast?.or before, comment.RepliesTo parent := by
  constructor
  · rintro linked front comment back rfl
    exact (linked_append.mp linked).2.1
  · intro ofSplit
    induction commentList generalizing before with
    | nil => exact trivial
    | cons first commentList ih =>
        refine ⟨ofSplit [] first commentList rfl, ih ?_⟩
        rintro front comment back rfl
        have link := ofSplit (first :: front) comment back rfl
        cases front with
        | nil => exact link
        | cons second front =>
            rw [List.getLast?_cons_cons] at link
            rw [List.getLast?_cons] at link ⊢
            exact link

/-- The comments behind one are linked to any other that they may reply to as well. -/
theorem Linked.change_before (linked : Linked (some comment) back)
    (change : ∀ reply : CommentData, reply.RepliesTo comment → reply.RepliesTo next) : Linked (some next) back := by
  cases back with
  | nil => exact trivial
  | cons first back =>
      refine ⟨linked.1.imp_right ?_, linked.2⟩
      rintro ⟨parent, isParent, isReply⟩
      cases isParent
      exact ⟨next, rfl, change first isReply⟩

theorem linked_of_roots (roots : ∀ comment ∈ commentList, comment.IsRoot) :
    Linked before commentList := by
  induction commentList generalizing before with
  | nil => exact trivial
  | cons first commentList ih =>
      obtain ⟨isRoot, laterRoots⟩ := List.forall_mem_cons.mp roots
      exact ⟨.inl isRoot, ih laterRoots⟩

theorem Linked.isRoot_of_unanswered (linked : Linked (some comment) back)
    (isFirst : back.head? = some next) (notParent : comment.parentOf next = false) : next.IsRoot := by
  cases back with
  | nil => cases isFirst
  | cons first back =>
      cases isFirst
      rcases linked.1 with isRoot | ⟨parent, isParent, isReply⟩
      · exact isRoot
      · cases isParent
        rw [isReply.isParent] at notParent
        cases notParent

theorem Together.threads (together : Together commentList) : Threads commentList where
  distinct := together.distinct
  notZero := together.notZero
  first := by
    intro comment isFirst
    cases commentList with
    | nil => cases isFirst
    | cons first commentList =>
        cases isFirst
        rcases together.linked.1 with isRoot | ⟨parent, isParent, -⟩
        · exact isRoot
        · cases isParent
  linked := by
    refine List.isChain_iff_forall_rel_of_append_cons_cons.mpr ?_
    rintro before comment front back rfl
    have link := (linked_append.mp together.linked).2.2.1
    refine link.imp_right ?_
    rintro ⟨parent, isParent, isReply⟩
    cases isParent
    exact isReply.isParent

theorem Together.nodup (together : Together commentList) : commentList.Nodup := by
  have distinct := together.distinct
  rw [List.Nodup, List.pairwise_map] at distinct
  exact distinct.imp fun differ same => differ (congrArg _ same)

/-- A comment with new data, linked to the one before it, and to its replies as before. -/
theorem Together.replace (together : Together (front ++ comment :: back))
    (sameId : next.id = comment.id) (sameKind : next.trackchange = comment.trackchange)
    (link : next.IsRoot ∨ ∃ parent ∈ front.getLast?, next.RepliesTo parent)
    (behind : ∀ reply ∈ back.head?, reply.RepliesTo comment → reply.anchorPos = next.anchorPos) :
    Together (front ++ next :: back) where
  distinct := by
    have distinct := together.distinct
    rw [List.map_append, List.map_cons] at distinct ⊢
    rwa [sameId]
  notZero := by
    obtain ⟨frontNotZero, restNotZero⟩ := List.forall_mem_append.mp together.notZero
    obtain ⟨notZero, backNotZero⟩ := List.forall_mem_cons.mp restNotZero
    rw [← sameId] at notZero
    exact List.forall_mem_append.mpr ⟨frontNotZero, List.forall_mem_cons.mpr ⟨notZero, backNotZero⟩⟩
  linked := by
    obtain ⟨frontLinked, -, backLinked⟩ := linked_append.mp together.linked
    refine linked_append.mpr ⟨frontLinked, by rwa [Option.or_none], ?_⟩
    cases back with
    | nil => exact trivial
    | cons reply back =>
        refine ⟨backLinked.1.imp_right ?_, backLinked.2⟩
        rintro ⟨parent, isParent, isReply⟩
        cases isParent
        refine ⟨next, rfl, ?_, behind reply rfl isReply, ?_, isReply.isText⟩
        · rw [CommentData.parentOf, sameId]
          exact isReply.isParent
        · rw [sameKind, isReply.beforeText]

/-!
## Sorting
-/

theorem anchorLe_trans {a b c : CommentData} (first : anchorLe a b) (second : anchorLe b c) :
    anchorLe a c := by
  cases first with
  | inl above =>
      cases second with
      | inl later => exact .inl (above.trans later)
      | inr later => exact .inl (above.trans_eq later.1)
  | inr sameRow =>
      cases second with
      | inl later => exact .inl (sameRow.1.trans_lt later)
      | inr later => exact .inr ⟨sameRow.1.trans later.1, sameRow.2.trans later.2⟩

instance : IsTrans CommentData anchorLe := ⟨fun _ _ _ => anchorLe_trans⟩

instance : Std.Total anchorLe := ⟨fun a b => by unfold anchorLe; omega⟩

/-- The comments at the anchor of a given one. -/
def sameRank (comment other : CommentData) : Bool :=
  decide (anchorLe comment other) && decide (anchorLe other comment)

theorem sameRank_iff : sameRank comment next = true ↔ anchorLe comment next ∧ anchorLe next comment := by
  rw [sameRank, Bool.and_eq_true, decide_eq_true_eq, decide_eq_true_eq]

theorem sameRank_of_anchor (sameAnchor : comment.anchorPos = next.anchorPos) :
    sameRank comment next = true := by
  rw [sameRank_iff, anchorLe, anchorLe, sameAnchor]
  exact ⟨.inr ⟨rfl, le_rfl⟩, .inr ⟨rfl, le_rfl⟩⟩

/-- Sorting keeps the order of those at the anchor of a comment. -/
theorem filter_insertionSort (comment : CommentData) (commentList : List CommentData) :
    (commentList.insertionSort anchorLe).filter (sameRank comment) =
      commentList.filter (sameRank comment) := by
  have isPerm : (commentList.insertionSort anchorLe).Perm commentList := List.perm_insertionSort _ _
  have ordered : (commentList.filter (sameRank comment)).Pairwise anchorLe := by
    refine List.Pairwise.imp_of_mem ?_ (List.pairwise_of_forall fun _ _ => trivial)
    intro a b aMem bMem _
    exact anchorLe_trans (sameRank_iff.mp (List.mem_filter.mp aMem).2).2
      (sameRank_iff.mp (List.mem_filter.mp bMem).2).1
  have within : (commentList.filter (sameRank comment)).Sublist
      ((commentList.insertionSort anchorLe).filter (sameRank comment)) := by
    have sorted := List.sublist_insertionSort ordered List.filter_sublist
    have filtered := sorted.filter (sameRank comment)
    rwa [List.filter_eq_self.mpr fun _ member => (List.mem_filter.mp member).2] at filtered
  exact (within.eq_of_length (isPerm.filter _).length_eq.symm).symm

/-- A reply stands behind its parent among the comments at their anchor, and there is none between
them in a sorted list. -/
theorem linked_insertionSort (distinct : commentList.Nodup) (linked : Linked none commentList) :
    Linked none (commentList.insertionSort anchorLe) := by
  have isPerm : (commentList.insertionSort anchorLe).Perm commentList := List.perm_insertionSort _ _
  refine linked_iff_split.mpr fun front comment back isSplit => ?_
  have member : comment ∈ commentList := by
    rw [← isPerm.mem_iff, isSplit]
    exact List.mem_append_right _ List.mem_cons_self
  obtain ⟨oldFront, oldBack, rfl⟩ := List.append_of_mem member
  rcases linked_iff_split.mp linked oldFront comment oldBack rfl with isRoot | ⟨parent, isLast, isReply⟩
  · exact .inl isRoot
  · refine .inr ⟨parent, ?_, isReply⟩
    rw [Option.or_none] at isLast ⊢
    obtain ⟨older, rfl⟩ := List.getLast?_eq_some_iff.mp isLast
    have ownRank : sameRank comment comment = true := sameRank_of_anchor rfl
    have parentRank : sameRank comment parent = true := sameRank_of_anchor isReply.sameAnchor
    have ranked := filter_insertionSort comment (older ++ [parent] ++ comment :: oldBack)
    have rankedNodup := (isPerm.nodup_iff.mpr distinct).filter (sameRank comment)
    rw [isSplit] at ranked rankedNodup
    rw [List.filter_append, List.filter_cons_of_pos ownRank] at rankedNodup
    rw [List.filter_append, List.filter_append, List.filter_append, List.filter_cons_of_pos ownRank,
      List.filter_cons_of_pos ownRank, List.filter_cons_of_pos parentRank, List.filter_nil] at ranked
    -- The comment is at one place only, so the same ones of its rank are in front of it.
    have sameFront : front.filter (sameRank comment) = older.filter (sameRank comment) ++ [parent] := by
      obtain ⟨notElsewhere, -⟩ := List.nodup_cons.mp (List.nodup_middle.mp rankedNodup)
      have notInFront := fun isBefore => notElsewhere (List.mem_append_left _ isBefore)
      have notBehind := fun isBehind => notElsewhere (List.mem_append_right _ isBehind)
      exact ((List.append_cons_inj_of_notMem notInFront notBehind).mp ranked).1
    have parentInFront : parent ∈ front := by
      have isRanked : parent ∈ front.filter (sameRank comment) := by
        rw [sameFront]
        exact List.mem_append_right _ List.mem_cons_self
      exact (List.mem_filter.mp isRanked).1
    cases isFront : front.getLast? with
    | none =>
        rw [List.getLast?_eq_none_iff.mp isFront] at parentInFront
        exact absurd parentInFront List.not_mem_nil
    | some last =>
        obtain ⟨others, rfl⟩ := List.getLast?_eq_some_iff.mp isFront
        have sorted := List.pairwise_insertionSort anchorLe (older ++ [parent] ++ comment :: oldBack)
        rw [isSplit] at sorted
        obtain ⟨frontSorted, -, below⟩ := List.pairwise_append.mp sorted
        have lastBelow : anchorLe last comment :=
          below last (List.mem_append_right _ List.mem_cons_self) comment List.mem_cons_self
        have parentBelow : anchorLe parent last := by
          rcases List.mem_append.mp parentInFront with isOther | isLast
          · exact (List.pairwise_append.mp frontSorted).2.2 parent isOther last List.mem_cons_self
          · rw [List.mem_singleton.mp isLast]
            exact (sameRank_iff.mp (sameRank_of_anchor rfl)).1
        have lastRank : sameRank comment last = true := sameRank_iff.mpr
          ⟨anchorLe_trans (sameRank_iff.mp parentRank).1 parentBelow, lastBelow⟩
        rw [List.filter_append, List.filter_cons_of_pos lastRank, List.filter_nil] at sameFront
        rw [(List.cons_eq_cons.mp (List.append_inj' sameFront rfl).2).1]
        exact Option.mem_some_self parent

theorem Together.insertionSort (together : Together commentList) :
    Together (commentList.insertionSort anchorLe) where
  distinct := ((List.perm_insertionSort anchorLe commentList).map _).nodup_iff.mpr together.distinct
  notZero comment member :=
    together.notZero comment ((List.perm_insertionSort anchorLe commentList).mem_iff.mp member)
  linked := linked_insertionSort together.nodup together.linked

/-!
## Replies
-/

theorem Together.push (together : Together commentList) (fresh : Fresh commentList comment)
    (link : comment.IsRoot ∨ ∃ parent ∈ commentList.getLast?, comment.RepliesTo parent) :
    Together (commentList ++ [comment]) where
  distinct := by
    rw [List.map_append, List.map_singleton]
    refine List.nodup_append'.mpr ⟨together.distinct, List.nodup_singleton _, ?_⟩
    exact List.disjoint_singleton.mpr fresh.isNew
  notZero := List.forall_mem_append.mpr
    ⟨together.notZero, List.forall_mem_singleton.mpr fresh.notZero⟩
  linked := by
    refine linked_append.mpr ⟨together.linked, ?_, trivial⟩
    rwa [Option.or_none]

theorem distinct_insert (distinct : ((front ++ back).map CommentData.id).Nodup)
    (fresh : Fresh (front ++ back) comment) :
    ((front ++ comment :: back).map CommentData.id).Nodup := by
  have isPerm : ((front ++ comment :: back).map CommentData.id).Perm
      (comment.id :: (front ++ back).map CommentData.id) := List.perm_middle.map _
  exact isPerm.nodup_iff.mpr (List.nodup_cons.mpr ⟨fresh.isNew, distinct⟩)

theorem forall_mem_insert {P : CommentData → Prop} (others : ∀ other ∈ front ++ back, P other)
    (isSo : P comment) : ∀ other ∈ front ++ comment :: back, P other := by
  intro other member
  rcases List.mem_cons.mp (List.perm_middle.mem_iff.mp member) with rfl | isOther
  · exact isSo
  · exact others other isOther

/-- A reply behind the last comment of a thread. -/
theorem Together.insert (together : Together (front ++ parent :: back))
    (fresh : Fresh (front ++ parent :: back) comment) (isReply : comment.RepliesTo parent)
    (unanswered : ∀ reply ∈ back.head?, parent.parentOf reply = false) :
    Together (front ++ parent :: comment :: back) := by
  rw [List.append_cons] at together fresh ⊢
  refine ⟨distinct_insert together.distinct fresh, forall_mem_insert together.notZero fresh.notZero, ?_⟩
  obtain ⟨frontLinked, backLinked⟩ := linked_append.mp together.linked
  refine linked_append.mpr ⟨frontLinked, .inr ⟨parent, ?_, isReply⟩, ?_⟩
  · rw [List.getLast?_concat]
    rfl
  · rw [List.getLast?_concat, Option.some_or] at backLinked
    cases back with
    | nil => exact trivial
    | cons first back =>
        refine ⟨.inl ?_, backLinked.2⟩
        exact backLinked.isRoot_of_unanswered rfl (unanswered first rfl)

/-- A reply between the parent and its reply, which replies to the new one then. -/
theorem Together.insert_between (together : Together (front ++ parent :: next :: back))
    (fresh : Fresh (front ++ parent :: next :: back) comment) (isReply : comment.RepliesTo parent)
    (answered : parent.parentOf next = true) :
    Together (front ++ parent :: comment :: { next with parent := some comment.id } :: back) := by
  rw [List.append_cons] at together fresh ⊢
  obtain ⟨frontLinked, link, backLinked⟩ := linked_append.mp together.linked
  rw [List.getLast?_concat, Option.some_or] at link
  have nextReply : next.RepliesTo parent := by
    rcases link with isRoot | ⟨other, isParent, isReply⟩
    · refine absurd (CommentData.parentOf_iff.mp answered) (isRoot.parent_ne ?_)
      exact together.notZero parent (List.mem_append_left _
        (List.mem_append_right _ List.mem_cons_self))
    · cases isParent
      exact isReply
  refine ⟨?_, forall_mem_insert ?_ fresh.notZero, ?_⟩
  · have distinct := distinct_insert together.distinct fresh
    rw [List.map_append, List.map_cons, List.map_cons] at distinct ⊢
    exact distinct
  · obtain ⟨frontNotZero, restNotZero⟩ := List.forall_mem_append.mp together.notZero
    obtain ⟨notZero, backNotZero⟩ := List.forall_mem_cons.mp restNotZero
    exact List.forall_mem_append.mpr ⟨frontNotZero, List.forall_mem_cons.mpr ⟨notZero, backNotZero⟩⟩
  · refine linked_append.mpr ⟨frontLinked, .inr ⟨parent, ?_, isReply⟩, .inr ⟨comment, rfl, ?_⟩, ?_⟩
    · rw [List.getLast?_concat]
      rfl
    · exact ⟨CommentData.parentOf_iff.mpr rfl, nextReply.sameAnchor.trans isReply.sameAnchor.symm,
        isReply.isText, nextReply.isText⟩
    · exact backLinked.change_before fun reply isReply =>
        ⟨isReply.isParent, isReply.sameAnchor, isReply.beforeText, isReply.isText⟩

/-- What is left when the last comment of a thread is removed. -/
theorem Together.remove (together : Together (front ++ comment :: back))
    (unanswered : ∀ reply ∈ back.head?, comment.parentOf reply = false) : Together (front ++ back) := by
  have sublist : (front ++ back).Sublist (front ++ comment :: back) :=
    (List.sublist_cons_self comment back).append_left front
  refine ⟨together.distinct.sublist (sublist.map _),
    fun other member => together.notZero other (sublist.subset member), ?_⟩
  obtain ⟨frontLinked, -, backLinked⟩ := linked_append.mp together.linked
  refine linked_append.mpr ⟨frontLinked, ?_⟩
  cases back with
  | nil => exact trivial
  | cons first back =>
      refine ⟨.inl ?_, backLinked.2⟩
      exact backLinked.isRoot_of_unanswered rfl (unanswered first rfl)

/-- What is left when a comment is removed and its reply goes to the parent, or becomes a root. -/
theorem Together.remove_between {newId : Text} (together : Together (front ++ comment :: next :: back))
    (answered : comment.parentOf next = true)
    (isNewId : (comment.IsRoot ∧ newId = ['0']) ∨
      ∃ parent ∈ front.getLast?, comment.RepliesTo parent ∧ newId = parent.id) :
    Together (front ++ { next with parent := some newId } :: back) := by
  obtain ⟨frontLinked, -, link, backLinked⟩ := linked_append.mp together.linked
  have nextReply : next.RepliesTo comment := by
    rcases link with isRoot | ⟨other, isParent, isReply⟩
    · refine absurd (CommentData.parentOf_iff.mp answered) (isRoot.parent_ne ?_)
      exact together.notZero comment (List.mem_append_right _ List.mem_cons_self)
    · cases isParent
      exact isReply
  have sublist : (front ++ next :: back).Sublist (front ++ comment :: next :: back) :=
    (List.sublist_cons_self comment (next :: back)).append_left front
  refine ⟨?_, ?_, ?_⟩
  · have distinct := together.distinct.sublist (sublist.map CommentData.id)
    rw [List.map_append, List.map_cons] at distinct ⊢
    exact distinct
  · obtain ⟨frontNotZero, restNotZero⟩ := List.forall_mem_append.mp fun other member =>
      together.notZero other (sublist.subset member)
    obtain ⟨notZero, backNotZero⟩ := List.forall_mem_cons.mp restNotZero
    exact List.forall_mem_append.mpr ⟨frontNotZero, List.forall_mem_cons.mpr ⟨notZero, backNotZero⟩⟩
  · refine linked_append.mpr ⟨frontLinked, ?_, ?_⟩
    · rcases isNewId with ⟨-, rfl⟩ | ⟨parent, isParent, isReply, rfl⟩
      · left
        rw [CommentData.IsRoot]
        dsimp only
        rw [nextReply.isText]
        rfl
      · refine .inr ⟨parent, by rwa [Option.or_none], CommentData.parentOf_iff.mpr rfl, ?_,
          isReply.beforeText, nextReply.isText⟩
        exact nextReply.sameAnchor.trans isReply.sameAnchor
    · exact backLinked.change_before fun reply isReply =>
        ⟨isReply.isParent, isReply.sameAnchor, isReply.beforeText, isReply.isText⟩

/-- Tracked changes stand between threads, so without them the threads stay. -/
theorem Together.withoutChanges (together : Together commentList) :
    Together (commentList.filter fun comment => !comment.trackchange) where
  distinct := together.distinct.sublist (List.filter_sublist.map _)
  notZero comment member := together.notZero comment (List.mem_filter.mp member).1
  linked := by
    refine linked_iff_split.mpr fun front comment back isSplit => ?_
    obtain ⟨oldFront, rest, rfl, isFront, isRest⟩ := List.filter_eq_append_iff.mp isSplit
    obtain ⟨skipped, oldBack, rfl, allSkipped, isKept, -⟩ := List.filter_eq_cons_iff.mp isRest
    rw [← List.append_assoc] at together
    rcases (linked_append.mp together.linked).2.1 with isRoot | ⟨parent, isLast, isReply⟩
    · exact .inl isRoot
    · refine .inr ⟨parent, ?_, isReply⟩
      rw [Option.or_none] at isLast ⊢
      cases isSkipped : skipped.getLast? with
      | some last =>
          rw [List.getLast?_append, isSkipped] at isLast
          cases isLast
          refine absurd ?_ (allSkipped parent (List.mem_of_getLast? isSkipped))
          rw [isReply.beforeText]
          rfl
      | none =>
          rw [List.getLast?_append, isSkipped, Option.none_or] at isLast
          obtain ⟨older, rfl⟩ := List.getLast?_eq_some_iff.mp isLast
          have isKept : [parent].filter (fun comment => !comment.trackchange) = [parent] := by
            refine List.filter_eq_self.mpr (List.forall_mem_singleton.mpr ?_)
            rw [isReply.beforeText]
            rfl
          rw [← isFront, List.filter_append, isKept, List.getLast?_concat]
          exact Option.mem_some_self parent

theorem Together.onlyChanges (together : Together commentList) :
    Together (commentList.filter CommentData.trackchange) where
  distinct := together.distinct.sublist (List.filter_sublist.map _)
  notZero comment member := together.notZero comment (List.mem_filter.mp member).1
  linked := by
    refine linked_of_roots fun comment member => ?_
    obtain ⟨inList, isChange⟩ := List.mem_filter.mp member
    obtain ⟨front, back, rfl⟩ := List.append_of_mem inList
    rcases (linked_append.mp together.linked).2.1 with isRoot | ⟨parent, -, isReply⟩
    · exact isRoot
    · rw [isReply.isText] at isChange
      cases isChange

end

end FreeOnline.Browser.Comments
