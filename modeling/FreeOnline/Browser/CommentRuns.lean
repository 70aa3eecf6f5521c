import FreeOnline.Browser.CommentOrder

/-!
# Runs of the list of comments

What each handler keeps, and from it what a whole run keeps.
-/

set_option autoImplicit false

namespace FreeOnline.Browser.Comments

open FreeOnline.Library

/-!
## The map
-/

section

variable {commentList front back : List CommentData} {comment : CommentData}

theorem setIndices_iff {idIndexMap : Text → Option Nat} {start i : Nat} {id : Text}
    (distinct : (commentList.map CommentData.id).Nodup) :
    setIndices start commentList idIndexMap id = some i ↔
      (start ≤ i ∧ (commentList.map CommentData.id)[i - start]? = some id) ∨
        (id ∉ commentList.map CommentData.id ∧ idIndexMap id = some i) := by
  induction commentList generalizing start idIndexMap with
  | nil =>
      rw [setIndices, List.map_nil, List.getElem?_nil]
      constructor
      · exact fun isSet => .inr ⟨List.not_mem_nil, isSet⟩
      · rintro (⟨-, impossible⟩ | ⟨-, isSet⟩)
        · cases impossible
        · exact isSet
  | cons first commentList ih =>
      obtain ⟨notLater, laterDistinct⟩ := List.nodup_cons.mp distinct
      rw [setIndices, ih laterDistinct, List.map_cons]
      by_cases isFirst : id = first.id
      · subst isFirst
        have notFound {j : Nat} : (commentList.map CommentData.id)[j]? ≠ some first.id :=
          fun isFound => notLater (List.mem_of_getElem? isFound)
        rw [Function.update_self]
        constructor
        · rintro (⟨-, isFound⟩ | ⟨-, isStart⟩)
          · exact absurd isFound notFound
          · cases isStart
            rw [Nat.sub_self]
            exact .inl ⟨le_rfl, rfl⟩
        · rintro (⟨notBefore, isFound⟩ | ⟨notMember, -⟩)
          · cases behind : i - start with
            | zero => exact .inr ⟨notLater, congrArg some (by omega)⟩
            | succ j =>
                rw [behind, List.getElem?_cons_succ] at isFound
                exact absurd isFound notFound
          · exact absurd List.mem_cons_self notMember
      · rw [Function.update_of_ne isFirst, List.mem_cons, not_or, and_assoc]
        refine or_congr ?_ (and_iff_right isFirst).symm
        constructor
        · intro ⟨notBefore, isFound⟩
          obtain ⟨j, isNext⟩ : ∃ j, i - start = j + 1 := ⟨i - start - 1, by omega⟩
          have isIndex : i - (start + 1) = j := by omega
          rw [isIndex] at isFound
          rw [isNext, List.getElem?_cons_succ]
          exact ⟨by omega, isFound⟩
        · intro ⟨notBefore, isFound⟩
          cases behind : i - start with
          | zero =>
              rw [behind, List.getElem?_cons_zero] at isFound
              exact absurd (Option.some.inj isFound).symm isFirst
          | succ j =>
              rw [behind, List.getElem?_cons_succ] at isFound
              have isIndex : i - (start + 1) = j := by omega
              rw [isIndex]
              exact ⟨by omega, isFound⟩

namespace State

variable {list : State}

theorem mapExact_updateIdIndexMap (distinct : (list.commentList.map CommentData.id).Nodup) :
    list.updateIdIndexMap.MapExact := by
  intro id i
  rw [updateIdIndexMap]
  dsimp only
  rw [setIndices_iff distinct, Nat.sub_zero, List.getElem?_map]
  constructor
  · rintro (⟨-, isFound⟩ | ⟨-, impossible⟩)
    · exact isFound
    · cases impossible
  · exact fun isFound => .inl ⟨Nat.zero_le i, isFound⟩

theorem MapExact.congr (exact : list.MapExact)
    (sameIds : commentList.map CommentData.id = list.commentList.map CommentData.id) :
    State.MapExact { list with commentList := commentList } := by
  intro id i
  dsimp only
  rw [exact id i, ← List.getElem?_map, ← List.getElem?_map, sameIds]

theorem MapExact.getIndexOf (exact : list.MapExact)
    (isSplit : list.commentList = front ++ comment :: back) :
    list.getIndexOf comment.id = some front.length := by
  rw [State.getIndexOf, exact, isSplit, List.getElem?_append_right le_rfl, Nat.sub_self]
  rfl

theorem MapExact.getComment (exact : list.MapExact)
    (isSplit : list.commentList = front ++ comment :: back) :
    list.getComment comment.id = some comment := by
  rw [State.getComment, exact.getIndexOf isSplit, Option.bind_some, isSplit,
    List.getElem?_append_right le_rfl, Nat.sub_self]
  rfl

theorem MapExact.getIndexOf_none (exact : list.MapExact) {id : Text}
    (notMember : id ∉ list.commentList.map CommentData.id) : list.getIndexOf id = none := by
  cases found : list.getIndexOf id with
  | none => rfl
  | some i =>
      rw [State.getIndexOf, exact, ← List.getElem?_map] at found
      exact absurd (List.mem_of_getElem? found) notMember

/-- A comment is looked up where it stands, or not at all. -/
theorem MapExact.split_of_getComment (exact : list.MapExact) {id : Text}
    (found : list.getComment id = some comment) :
    comment.id = id ∧ ∃ front back, list.commentList = front ++ comment :: back := by
  rw [State.getComment] at found
  obtain ⟨i, isIndex, isComment⟩ := Option.bind_eq_some_iff.mp found
  rw [State.getIndexOf, exact, isComment] at isIndex
  exact ⟨Option.some.inj isIndex, List.append_of_mem (List.mem_of_getElem? isComment)⟩

end State

/-!
## The ends of a thread
-/

theorem getElem?_split (i : Nat) : (front ++ comment :: back)[front.length + i]? =
    (comment :: back)[i]? := by
  rw [List.getElem?_append_right (Nat.le_add_right _ _), Nat.add_sub_cancel_left]

theorem getElem?_here (isSplit : commentList = front ++ comment :: back) :
    commentList[front.length]? = some comment := by
  rw [isSplit]
  exact getElem?_split 0

theorem getElem?_behind (isSplit : commentList = front ++ comment :: back) :
    commentList[front.length + 1]? = back.head? := by
  rw [isSplit, getElem?_split, List.getElem?_cons_succ, List.head?_eq_getElem?]

theorem exists_split {i : Nat} (isThere : commentList[i]? = some comment) :
    ∃ front back, commentList = front ++ comment :: back ∧ front.length = i := by
  obtain ⟨inList, isComment⟩ := List.getElem?_eq_some_iff.mp isThere
  refine ⟨commentList.take i, commentList.drop (i + 1), ?_, ?_⟩
  · rw [← isComment, ← List.drop_eq_getElem_cons inList, List.take_append_drop]
  · rw [List.length_take, Nat.min_eq_left inList.le]

theorem Together.link (together : Together commentList) {i : Nat} {before : CommentData}
    (isBefore : commentList[i]? = some before) (isThere : commentList[i + 1]? = some comment) :
    comment.IsRoot ∨ comment.RepliesTo before := by
  obtain ⟨front, back, rfl, rfl⟩ := exists_split isBefore
  rw [getElem?_split] at isThere
  cases back with
  | nil => cases isThere
  | cons next back =>
      cases isThere
      refine (linked_append.mp together.linked).2.2.1.imp_right ?_
      rintro ⟨parent, isParent, isReply⟩
      cases isParent
      exact isReply

theorem Together.head (together : Together commentList) (isThere : commentList[0]? = some comment) :
    comment.IsRoot := by
  refine together.threads.first comment ?_
  rwa [List.head?_eq_getElem?]

theorem Together.isRoot_of_unanswered (together : Together commentList) {i : Nat} {before : CommentData}
    (isBefore : commentList[i]? = some before) (isThere : commentList[i + 1]? = some comment)
    (notParent : before.parentOf comment = false) : comment.IsRoot := by
  rcases together.link isBefore isThere with isRoot | isReply
  · exact isRoot
  · rw [isReply.isParent] at notParent
    cases notParent

/-- A tracked change has no reply behind it. -/
theorem Together.unanswered_change (together : Together commentList) {i : Nat} {before : CommentData}
    (isBefore : commentList[i]? = some before) (isThere : commentList[i + 1]? = some comment)
    (isChange : before.trackchange = true) : ¬ before.parentOf comment = true := by
  intro isParent
  rcases together.link isBefore isThere with isRoot | isReply
  · refine isRoot.parent_ne ?_ (CommentData.parentOf_iff.mp isParent)
    exact together.notZero before (List.mem_of_getElem? isBefore)
  · rw [isReply.beforeText] at isChange
    cases isChange

/-- Going up from a comment of the list, the loop ends at the root of the thread. -/
theorem rootIndexFrom_spec (together : Together commentList) {i : Nat}
    (isThere : commentList[i]? = some comment) :
    rootIndexFrom commentList i ≤ i ∧
      (∃ root, commentList[rootIndexFrom commentList i]? = some root ∧ root.IsRoot) ∧
      ∀ j, rootIndexFrom commentList i ≤ j → j < i → ∃ before reply,
        commentList[j]? = some before ∧ commentList[j + 1]? = some reply ∧
          before.parentOf reply = true := by
  induction i generalizing comment with
  | zero =>
      refine ⟨le_rfl, ⟨comment, isThere, together.head isThere⟩, ?_⟩
      exact fun j _ impossible => absurd impossible (Nat.not_lt_zero j)
  | succ i ih =>
      obtain ⟨inList, -⟩ := List.getElem?_eq_some_iff.mp isThere
      cases isBefore : commentList[i]? with
      | none =>
          have outside := List.getElem?_eq_none_iff.mp isBefore
          omega
      | some before =>
          rw [rootIndexFrom, isBefore, isThere]
          dsimp only
          cases isParent : before.parentOf comment with
          | true =>
              obtain ⟨notBehind, isRoot, replies⟩ := ih isBefore
              rw [if_pos rfl]
              refine ⟨notBehind.trans (Nat.le_succ i), isRoot, fun j notBefore isBelow => ?_⟩
              rcases Nat.lt_succ_iff_lt_or_eq.mp isBelow with isLower | rfl
              · exact replies j notBefore isLower
              · exact ⟨before, comment, isBefore, isThere, isParent⟩
          | false =>
              rw [if_neg Bool.false_ne_true]
              refine ⟨le_rfl, ⟨comment, isThere, ?_⟩, fun j notBefore isBelow => by omega⟩
              exact together.isRoot_of_unanswered isBefore isThere isParent

/-- Going down, the loop counts the replies up to the next comment that is none. -/
theorem repliesBehind_spec (comment : CommentData) (back : List CommentData) :
    repliesBehind comment back < (comment :: back).length ∧
      (∀ j < repliesBehind comment back, ∃ before reply, (comment :: back)[j]? = some before ∧
        (comment :: back)[j + 1]? = some reply ∧ before.parentOf reply = true) ∧
      ∀ before next, (comment :: back)[repliesBehind comment back]? = some before →
        (comment :: back)[repliesBehind comment back + 1]? = some next →
          before.parentOf next = false := by
  induction back generalizing comment with
  | nil =>
      refine ⟨Nat.one_pos, fun j impossible => absurd impossible (Nat.not_lt_zero j), ?_⟩
      exact fun _ _ _ isNext => nomatch isNext
  | cons first back ih =>
      rw [repliesBehind]
      cases isParent : comment.parentOf first with
      | true =>
          obtain ⟨inList, replies, ends⟩ := ih first
          rw [if_pos rfl]
          refine ⟨Nat.succ_lt_succ inList, fun j isReply => ?_, ends⟩
          cases j with
          | zero => exact ⟨comment, first, rfl, rfl, isParent⟩
          | succ j => exact replies j (Nat.lt_of_succ_lt_succ isReply)
      | false =>
          rw [if_neg Bool.false_ne_true]
          refine ⟨Nat.succ_pos _, fun j impossible => absurd impossible (Nat.not_lt_zero j), ?_⟩
          intro before next isBefore isNext
          cases isBefore
          cases isNext
          exact isParent

/-- Between its ends a comment's thread is in one piece. -/
theorem isThread_of_ends (together : Together commentList) {i : Nat}
    (isSplit : commentList = front ++ comment :: back) (isIndex : front.length = i) :
    IsThread commentList (rootIndexFrom commentList i) (i + repliesBehind comment back) := by
  subst isIndex
  have isThere := getElem?_here isSplit
  obtain ⟨notBehind, ⟨root, isRootThere, isRoot⟩, above⟩ := rootIndexFrom_spec together isThere
  obtain ⟨inList, below, ends⟩ := repliesBehind_spec comment back
  have behind (j : Nat) : commentList[front.length + j]? = (comment :: back)[j]? := by
    rw [isSplit, getElem?_split]
  have replies : ∀ j, rootIndexFrom commentList front.length ≤ j →
      j < front.length + repliesBehind comment back → ∃ before reply, commentList[j]? = some before ∧
        commentList[j + 1]? = some reply ∧ before.parentOf reply = true := by
    intro j notBefore isBefore
    rcases Nat.lt_or_ge j front.length with isAbove | isBelow
    · exact above j notBefore isAbove
    · obtain ⟨k, rfl⟩ := Nat.exists_eq_add_of_le isBelow
      rw [Nat.add_assoc, behind, behind]
      exact below k (by omega)
  refine ⟨⟨root, isRootThere, ?_⟩, replies, ?_, ?_⟩
  · rw [CommentData.IsRoot] at isRoot
    cases isChange : root.trackchange with
    | false =>
        rw [isChange] at isRoot
        exact .inl isRoot
    | true =>
        refine .inr ⟨rfl, ?_⟩
        by_contra differ
        obtain ⟨before, reply, isBefore, isNext, isParent⟩ := replies _ le_rfl (by omega)
        rw [isRootThere] at isBefore
        cases isBefore
        exact together.unanswered_change isRootThere isNext isChange isParent
  · rw [isSplit, List.length_append]
    omega
  · intro next isNext
    rw [Nat.add_assoc, behind] at isNext
    obtain ⟨last, isLast⟩ : ∃ last, (comment :: back)[repliesBehind comment back]? = some last :=
      ⟨_, List.getElem?_eq_getElem inList⟩
    refine together.isRoot_of_unanswered ((behind _).trans isLast) ?_ (ends last next isLast isNext)
    rw [Nat.add_assoc, behind]
    exact isNext

/-- What every state of a run keeps. -/
structure Invariant (list : State) : Prop where
  together : Together list.commentList
  exact : list.MapExact

variable {list : State}

theorem Invariant.kept (invariant : Invariant list) : list.Kept where
  exact := invariant.exact
  threads := invariant.together.threads
  ends := by
    intro i comment isThere
    obtain ⟨front, back, isSplit, isIndex⟩ := exists_split isThere
    have isFound := invariant.exact.getIndexOf isSplit
    rw [isIndex] at isFound
    have atIndex : list.commentList.drop i = comment :: back := by
      rw [isSplit, ← isIndex, List.drop_left]
    refine ⟨_, _, ?_, ?_, ?_, Nat.le_add_right _ _,
      isThread_of_ends invariant.together isSplit isIndex⟩
    · rw [State.getRootIndexOf, isFound, Option.map_some]
    · rw [State.getLastChildIndexOf, isFound, Option.map_some, atIndex]
    · exact (rootIndexFrom_spec invariant.together isThere).1

theorem Invariant.update (together : Together list.commentList) : Invariant list.updateIdIndexMap :=
  ⟨together, State.mapExact_updateIdIndexMap together.distinct⟩

theorem Invariant.order (together : Together list.commentList) : Invariant list.orderCommentList :=
  @Invariant.update { list with commentList := list.commentList.insertionSort anchorLe }
    together.insertionSort

end

/-!
## The handlers
-/

/-- A handler's lookups are as expected, and the state that it leaves is one of a run. -/
structure Handled.Sound (handled : Handled) : Prop where
  lookups : ∀ lookup ∈ handled.lookups, lookup.Holds
  invariant : Invariant handled.state

section

variable {list : State} {front back : List CommentData} {comment parent next : CommentData}

/-- The comments are other ones with the ids of those that the map was made for. -/
theorem Invariant.congr {commentList : List CommentData} (exact : list.MapExact)
    (together : Together commentList)
    (sameIds : commentList.map CommentData.id = list.commentList.map CommentData.id) :
    Invariant { list with commentList := commentList } :=
  ⟨together, exact.congr sameIds⟩

theorem set_split (data : CommentData) :
    (front ++ comment :: back).set front.length data = front ++ data :: back := by
  induction front with
  | nil => rfl
  | cons first front ih => exact congrArg (first :: ·) ih

/-- The state of resolution is found, and the threads do not depend on it. -/
theorem updateResolvedState_spec (invariant : Invariant list)
    (isSplit : list.commentList = front ++ comment :: back) :
    ∃ resolved, list.updateResolvedState front.length = some { list with
      commentList := front ++ { comment with resolved := resolved } :: back } ∧
        Invariant { list with
          commentList := front ++ { comment with resolved := resolved } :: back } := by
  have keeps (resolved : Text) : Invariant { list with
      commentList := front ++ { comment with resolved := resolved } :: back } := by
    have together := invariant.together
    rw [isSplit] at together
    have link := (linked_append.mp together.linked).2.1
    refine .congr invariant.exact (together.replace rfl rfl ?_ ?_) ?_
    · rw [Option.or_none] at link
      refine link.imp_right ?_
      rintro ⟨parent, isParent, isReply⟩
      exact ⟨parent, isParent, isReply.isParent, isReply.sameAnchor, isReply.beforeText, isReply.isText⟩
    · exact fun reply _ isReply => isReply.sameAnchor
    · rw [isSplit, List.map_append, List.map_append, List.map_cons, List.map_cons]
  have isThere := getElem?_here isSplit
  obtain ⟨-, ⟨root, isRoot, -⟩, -⟩ := rootIndexFrom_spec invariant.together isThere
  have isFound : list.getRootIndexOf comment.id =
      some (rootIndexFrom list.commentList front.length) := by
    rw [State.getRootIndexOf, invariant.exact.getIndexOf isSplit, Option.map_some]
  rw [State.updateResolvedState, isThere, Option.bind_some, isFound, Option.bind_some, isRoot,
    Option.map_some]
  by_cases differ : root.resolved ≠ comment.resolved
  · rw [if_pos differ, isSplit, set_split]
    exact ⟨root.resolved, rfl, keeps root.resolved⟩
  · rw [if_neg differ]
    refine ⟨comment.resolved, ?_, keeps comment.resolved⟩
    rw [← isSplit]

/-!
### Adding
-/

theorem isReply_iff : comment.isReply = true ↔ ∃ parentId, comment.parent = some parentId ∧
    ['0'] < parentId := by
  rw [CommentData.isReply]
  cases comment.parent with
  | none => exact iff_of_false Bool.false_ne_true nofun
  | some parentId =>
      rw [decide_eq_true_eq]
      constructor
      · exact fun isGreater => ⟨parentId, rfl, isGreater⟩
      · intro ⟨_, isSame, isGreater⟩
        cases isSame
        exact isGreater

theorem adjustParentAdd_of_unknown
    (unknown : comment.parent.bind list.getIndexOf = none ∨ comment.isReply = false) :
    list.adjustParentAdd comment = list := by
  rw [State.adjustParentAdd]
  rcases unknown with unknown | notReply
  · rw [unknown]
    split <;> rfl
  · rw [notReply]
    rfl

theorem parentIndex (exact : list.MapExact) (isSplit : list.commentList = front ++ parent :: back)
    (isParent : parent.parentOf comment = true) :
    comment.parent.bind list.getIndexOf = some front.length := by
  rw [CommentData.parentOf_iff.mp isParent, Option.bind_some, exact.getIndexOf isSplit]

/-- The parent has no reply yet. -/
theorem adjustParentAdd_of_unanswered (exact : list.MapExact)
    (isSplit : list.commentList = front ++ parent :: back)
    (isParent : parent.parentOf comment = true)
    (unanswered : ∀ reply ∈ back.head?, parent.parentOf reply = false) :
    list.adjustParentAdd comment = list := by
  rw [State.adjustParentAdd, parentIndex exact isSplit isParent]
  dsimp only
  rw [getElem?_here isSplit, getElem?_behind isSplit]
  split
  · cases isNext : back.head? with
    | none => rfl
    | some next =>
        dsimp only
        rw [unanswered next isNext]
        rfl
  · rfl

theorem adjustParentAdd_of_answered (exact : list.MapExact)
    (isSplit : list.commentList = front ++ parent :: next :: back)
    (isParent : parent.parentOf comment = true) (isReply : comment.isReply = true)
    (answered : parent.parentOf next = true) :
    list.adjustParentAdd comment = { list with
      commentList := front ++ parent :: { next with parent := some comment.id } :: back } := by
  rw [State.adjustParentAdd, if_pos isReply, parentIndex exact isSplit isParent]
  dsimp only
  rw [getElem?_here isSplit, getElem?_behind isSplit, List.head?_cons]
  dsimp only
  have isIndex : (front ++ [parent]).length = front.length + 1 := List.length_append
  rw [if_pos answered, State.setParent, isSplit, List.append_cons front parent, ← isIndex, set_split,
    List.append_assoc]
  rfl

/-- What is left to do once the reply can be put behind its parent. -/
theorem add_sound (exact : list.MapExact) (isSplit : list.commentList = front ++ parent :: back)
    (isParent : parent.parentOf comment = true) (isReply : comment.isReply = true)
    (together : Together (front ++ parent :: comment :: back)) :
    (list.add comment true).Sound := by
  have isIndex : min (front.length + 1) list.commentList.length = front.length + 1 := by
    rw [isSplit, List.length_append, List.length_cons]
    omega
  have splice : list.commentList.take (front.length + 1) ++
      comment :: list.commentList.drop (front.length + 1) = front ++ parent :: comment :: back := by
    have atParent : (front ++ [parent]).length = front.length + 1 := List.length_append
    rw [isSplit, List.append_cons front parent, ← atParent, List.take_left, List.drop_left]
    exact List.append_assoc _ _ _
  rw [List.append_cons front parent] at together splice
  have inserted : Invariant (State.updateIdIndexMap { list with
      commentList := front ++ [parent] ++ comment :: back }) := .update together
  obtain ⟨resolved, isResolved, invariant⟩ := updateResolvedState_spec inserted rfl
  rw [State.add, if_pos isReply, parentIndex exact isSplit isParent]
  dsimp only [Option.elim]
  rw [isIndex, splice]
  have atParent : (front ++ [parent]).length = front.length + 1 := List.length_append
  rw [atParent] at isResolved
  rw [if_neg (by decide), isResolved]
  constructor
  · refine List.forall_mem_cons.mpr ⟨exact, List.forall_mem_cons.mpr ⟨inserted.kept, ?_⟩⟩
    exact List.forall_mem_singleton.mpr invariant.kept
  · exact .order invariant.together

/-- The reply goes behind its parent, in front of the reply that the parent has already. -/
theorem add_reply_sound (invariant : Invariant list)
    (isSplit : list.commentList = front ++ parent :: back) (fresh : Fresh list.commentList comment)
    (replies : comment.RepliesTo parent) (isReply : comment.isReply = true) :
    ((list.adjustParentAdd comment).add comment true).Sound := by
  have together := invariant.together
  rw [isSplit] at together fresh
  have isParent := replies.isParent
  by_cases answered : ∃ next ∈ back.head?, parent.parentOf next = true
  · obtain ⟨next, isNext, answered⟩ := answered
    cases back with
    | nil => cases isNext
    | cons first back =>
        cases isNext
        rw [adjustParentAdd_of_answered invariant.exact isSplit isParent isReply answered]
        refine add_sound (invariant.exact.congr ?_) rfl isParent isReply
          (together.insert_between fresh replies answered)
        rw [isSplit, List.map_append, List.map_append]
        rfl
  · have unanswered : ∀ reply ∈ back.head?, parent.parentOf reply = false := by
      intro reply isNext
      rw [Bool.eq_false_iff]
      exact fun isAnswer => answered ⟨reply, isNext, isAnswer⟩
    rw [adjustParentAdd_of_unanswered invariant.exact isSplit isParent unanswered]
    exact add_sound invariant.exact isSplit isParent isReply
      (together.insert fresh replies unanswered)

theorem add_root_sound (invariant : Invariant list) (fresh : Fresh list.commentList comment)
    {accepted : Bool} (isRoot : accepted = true → comment.IsRoot) (notReply : comment.isReply = false) :
    (list.add comment accepted).Sound := by
  rw [State.add, notReply, if_neg Bool.false_ne_true]
  cases accepted with
  | false => exact ⟨nofun, invariant⟩
  | true => exact ⟨nofun, .order (invariant.together.push fresh (.inl (isRoot rfl)))⟩

theorem add_refused_sound (invariant : Invariant list) (isReply : comment.isReply = true) :
    (list.add comment false).Sound := by
  rw [State.add, if_pos isReply]
  exact ⟨List.forall_mem_singleton.mpr invariant.exact, invariant⟩

/-!
### Removing and new data
-/

/-- The parent of a removed comment, or `0`. -/
theorem newId_spec (invariant : Invariant list) (isSplit : list.commentList = front ++ comment :: back) :
    (comment.IsRoot ∧
        ((comment.parent.bind list.getComment).map CommentData.id).getD ['0'] = ['0']) ∨
      ∃ parent ∈ front.getLast?, comment.RepliesTo parent ∧
        ((comment.parent.bind list.getComment).map CommentData.id).getD ['0'] = parent.id := by
  have together := invariant.together
  rw [isSplit] at together
  rcases (linked_append.mp together.linked).2.1 with isRoot | ⟨parent, isLast, isReply⟩
  · refine .inl ⟨isRoot, ?_⟩
    have notThere : list.getComment ['0'] = none := by
      rw [State.getComment, invariant.exact.getIndexOf_none, Option.bind_none]
      intro isThere
      obtain ⟨other, member, isZero⟩ := List.mem_map.mp isThere
      exact invariant.together.notZero other member isZero
    rw [isRoot]
    split
    · rfl
    · rw [Option.bind_some, notThere]
      rfl
  · rw [Option.or_none] at isLast
    refine .inr ⟨parent, isLast, isReply, ?_⟩
    obtain ⟨older, rfl⟩ := List.getLast?_eq_some_iff.mp isLast
    rw [List.append_assoc] at isSplit
    rw [CommentData.parentOf_iff.mp isReply.isParent, Option.bind_some,
      invariant.exact.getComment isSplit]
    rfl

/-- The first comment with the id is the one that is removed. -/
theorem removeItem_split (distinct : ((front ++ comment :: back).map CommentData.id).Nodup)
    (isSplit : list.commentList = front ++ comment :: back) :
    list.removeItem comment.id = State.updateIdIndexMap { list with commentList := front ++ back } := by
  have isThere : (list.commentList.any fun other => other.id == comment.id) = true := by
    rw [isSplit]
    exact List.any_eq_true.mpr ⟨comment, List.mem_append_right _ List.mem_cons_self, beq_self_eq_true _⟩
  have isErased : list.commentList.eraseP (fun other => other.id == comment.id) = front ++ back := by
    have headErased : (comment :: back).eraseP (fun other => other.id == comment.id) = back := by
      refine List.eraseP_cons_of_pos ?_
      exact beq_self_eq_true comment.id
    rw [isSplit, List.eraseP_append_right, headErased]
    intro other member isSame
    rw [List.map_append, List.map_cons] at distinct
    refine (List.nodup_append.mp distinct).2.2 _ (List.mem_map_of_mem member) _ List.mem_cons_self ?_
    exact beq_iff_eq.mp isSame
  rw [State.removeItem, if_pos isThere, isErased]

/-- The reply to the removed comment takes over its parent. -/
theorem removed_invariant (invariant : Invariant list)
    (isSplit : list.commentList = front ++ comment :: back) :
    Invariant ((list.adjustParentRemove comment).removeItem comment.id) := by
  have together := invariant.together
  rw [isSplit] at together
  rw [State.adjustParentRemove, invariant.exact.getIndexOf isSplit]
  dsimp only
  rw [getElem?_here isSplit, getElem?_behind isSplit]
  have unchanged (unanswered : ∀ reply ∈ back.head?, comment.parentOf reply = false) :
      Invariant (list.removeItem comment.id) := by
    rw [removeItem_split together.distinct isSplit]
    exact .update (together.remove unanswered)
  cases back with
  | nil => exact unchanged nofun
  | cons next back =>
      rw [List.head?_cons]
      dsimp only
      cases answered : comment.parentOf next with
      | false =>
          refine unchanged fun reply isNext => ?_
          cases isNext
          exact answered
      | true =>
          rw [if_pos rfl, State.setParent, isSplit, List.append_cons front comment]
          have isIndex : (front ++ [comment]).length = front.length + 1 := List.length_append
          rw [← isIndex, set_split, List.append_assoc, removeItem_split ?_ rfl]
          · exact .update (together.remove_between answered (newId_spec invariant isSplit))
          · have distinct := together.distinct
            rw [List.map_append] at distinct ⊢
            exact distinct

theorem remove_sound (invariant : Invariant list) (id : Text) : (list.remove id).Sound := by
  rw [State.remove]
  cases found : list.getComment id with
  | none => exact ⟨List.forall_mem_singleton.mpr invariant.exact, invariant⟩
  | some comment =>
      obtain ⟨rfl, front, back, isSplit⟩ := invariant.exact.split_of_getComment found
      have left := removed_invariant invariant isSplit
      exact ⟨List.forall_mem_cons.mpr ⟨invariant.exact, List.forall_mem_singleton.mpr left.kept⟩, left⟩

theorem setData_invariant {data : CommentData} (invariant : Invariant list)
    (isSplit : list.commentList = front ++ comment :: back) (sameId : data.id = comment.id)
    (sameKind : data.trackchange = comment.trackchange)
    (link : data.IsRoot ∨ ∃ parent ∈ front.getLast?, data.RepliesTo parent)
    (behind : ∀ reply ∈ back.head?, reply.RepliesTo comment → reply.anchorPos = data.anchorPos) :
    Invariant (list.setData comment.id data) := by
  have together := invariant.together
  rw [isSplit] at together
  rw [State.setData, invariant.exact.getIndexOf isSplit]
  dsimp only
  rw [isSplit, set_split]
  refine .congr invariant.exact (together.replace sameId sameKind link behind) ?_
  rw [isSplit, List.map_append, List.map_append, List.map_cons, List.map_cons, sameId]

/-- A modification and a resolution leave the same. -/
theorem modify_sound {id : Text} {data : CommentData} (invariant : Invariant list)
    (left : ∀ comment, list.getComment id = some comment → Invariant (list.setData id data)) :
    (list.modify id data).Sound ∧ (list.resolve id data).Sound := by
  rw [State.modify, State.resolve]
  cases found : list.getComment id with
  | none =>
      exact ⟨⟨List.forall_mem_singleton.mpr invariant.exact, invariant⟩,
        List.forall_mem_singleton.mpr invariant.exact, invariant⟩
  | some comment =>
      have after := left comment found
      refine ⟨⟨List.forall_mem_cons.mpr ⟨invariant.exact, List.forall_mem_singleton.mpr after.kept⟩,
        after⟩, List.forall_mem_cons.mpr ⟨invariant.exact, ?_⟩, after⟩
      exact List.forall_mem_cons.mpr ⟨invariant.kept, List.forall_mem_singleton.mpr after.kept⟩

theorem modify_comment_sound (invariant : Invariant list) (fits : FitsThread list.commentList comment)
    (link : ∀ front old back, list.commentList = front ++ old :: back → old.id = comment.id →
      comment.parent = some ['0'] ∨
        ∃ parent ∈ front.getLast?, parent.trackchange = false ∧ parent.parentOf comment = true) :
    (list.modify comment.id (adjustComment comment)).Sound ∧
      (list.resolve comment.id (adjustComment comment)).Sound := by
  refine modify_sound invariant fun old found => ?_
  obtain ⟨sameId, front, back, isSplit⟩ := invariant.exact.split_of_getComment found
  have inList {other : CommentData} (member : other ∈ front ++ old :: back) :
      other ∈ list.commentList := by rwa [isSplit]
  rw [← sameId]
  refine setData_invariant invariant isSplit sameId.symm ?_ ?_ ?_
  · exact (fits.isText old (inList (List.mem_append_right _ List.mem_cons_self)) sameId).symm
  · refine (link front old back isSplit sameId).imp id ?_
    rintro ⟨parent, isLast, isText, isParent⟩
    refine ⟨parent, isLast, isParent, ?_, isText, rfl⟩
    exact fits.parents parent (inList (List.mem_append_left _ (List.mem_of_getLast? isLast))) isParent
  · intro reply isFirst isReply
    refine fits.replies reply (inList (List.mem_append_right _ (List.mem_cons_of_mem _ ?_))) ?_
    · exact List.mem_of_mem_head? isFirst
    · rw [CommentData.parentOf, ← sameId]
      exact isReply.isParent

theorem modify_change_sound {redline : Redline} {change : CommentData} (invariant : Invariant list)
    (isSane : adjustRedLine redline = some change)
    (areChanges : ∀ old ∈ list.commentList, old.id = redline.id → old.trackchange = true) :
    (list.modify redline.id change).Sound ∧ (list.resolve redline.id change).Sound := by
  obtain ⟨anchorPos, -, rfl⟩ := Option.map_eq_some_iff.mp isSane
  refine modify_sound invariant fun old found => ?_
  obtain ⟨sameId, front, back, isSplit⟩ := invariant.exact.split_of_getComment found
  have isChange : old.trackchange = true := by
    refine areChanges old ?_ sameId
    rw [isSplit]
    exact List.mem_append_right _ List.mem_cons_self
  rw [← sameId]
  refine setData_invariant invariant isSplit rfl isChange.symm (.inl rfl) ?_
  intro reply _ isReply
  rw [isReply.beforeText] at isChange
  cases isChange

/-!
### Importing
-/

theorem mapExact_push {i : Nat} (exact : list.MapExact) (isNew : comment.id ∉ list.commentList.map
    CommentData.id) (isIndex : i = list.commentList.length) :
    State.MapExact ⟨list.commentList ++ [comment],
      Function.update list.idIndexMap comment.id (some i)⟩ := by
  subst isIndex
  intro id j
  dsimp only
  by_cases isComment : id = comment.id
  · subst isComment
    rw [Function.update_self]
    constructor
    · intro isLast
      cases isLast
      rw [List.getElem?_concat_length]
      rfl
    · intro isFound
      rcases Nat.lt_trichotomy j list.commentList.length with inList | rfl | outside
      · rw [List.getElem?_append_left inList, ← List.getElem?_map] at isFound
        exact absurd (List.mem_of_getElem? isFound) isNew
      · rfl
      · rw [List.getElem?_eq_none (by rw [List.length_append]; exact outside)] at isFound
        cases isFound
  · rw [Function.update_of_ne isComment, exact id j]
    rcases Nat.lt_trichotomy j list.commentList.length with inList | rfl | outside
    · rw [List.getElem?_append_left inList]
    · rw [List.getElem?_eq_none le_rfl, List.getElem?_concat_length]
      exact iff_of_false nofun fun isSame => isComment (Option.some.inj isSame).symm
    · rw [List.getElem?_eq_none outside.le,
        List.getElem?_eq_none (by rw [List.length_append]; exact outside)]

/-- Each comment that is pushed is put into the map at its place. -/
theorem importLoop_sound {comments : List (CommentData × Bool)} {i : Nat} (invariant : Invariant list)
    (aligned : Aligned i list.commentList.length comments)
    (distinct : ((list.commentList ++ acceptedComments comments).map CommentData.id).Nodup)
    (notZero : ∀ comment ∈ acceptedComments comments, comment.id ≠ ['0'])
    (linked : Linked list.commentList.getLast? (acceptedComments comments)) :
    (importLoop i comments list).1.Sound ∧ (importLoop i comments list).2 = true := by
  induction comments generalizing i list with
  | nil => exact ⟨⟨nofun, invariant⟩, rfl⟩
  | cons first comments ih =>
      obtain ⟨comment, accepted⟩ := first
      rw [importLoop]
      cases accepted with
      | false => exact ih invariant aligned distinct notZero linked
      | true =>
          obtain ⟨isIndex, laterAligned⟩ := aligned
          have isAccepted : acceptedComments ((comment, true) :: comments) =
              adjustComment comment :: acceptedComments comments := rfl
          rw [isAccepted] at distinct notZero linked
          obtain ⟨link, laterLinked⟩ := linked
          obtain ⟨commentNotZero, laterNotZero⟩ := List.forall_mem_cons.mp notZero
          have fresh : Fresh list.commentList (adjustComment comment) := by
            refine ⟨commentNotZero, fun isThere => ?_⟩
            rw [List.map_append, List.map_cons] at distinct
            exact (List.nodup_append.mp distinct).2.2 _ isThere _ List.mem_cons_self rfl
          have pushed : Invariant ⟨list.commentList ++ [adjustComment comment],
              Function.update list.idIndexMap (adjustComment comment).id (some i)⟩ :=
            ⟨invariant.together.push fresh link, mapExact_push invariant.exact fresh.isNew isIndex⟩
          obtain ⟨resolved, isResolved, resolvedInvariant⟩ := updateResolvedState_spec pushed rfl
          have inList : i < (list.commentList ++ [adjustComment comment]).length := by
            rw [List.length_append, isIndex]
            exact Nat.lt_succ_self _
          rw [← isIndex] at isResolved
          dsimp only
          rw [if_neg (by decide), if_pos inList, isResolved]
          have later := @ih _ (i + 1) resolvedInvariant ?_ ?_ laterNotZero ?_
          · refine ⟨⟨?_, later.1.invariant⟩, later.2⟩
            exact List.forall_mem_cons.mpr
              ⟨pushed.kept, List.forall_mem_cons.mpr ⟨resolvedInvariant.kept, later.1.lookups⟩⟩
          · rw [List.length_append]
            exact laterAligned
          · rw [List.append_cons] at distinct
            rw [List.map_append, List.map_append] at distinct ⊢
            exact distinct
          · rw [List.getLast?_concat]
            exact laterLinked.change_before fun reply isReply =>
              ⟨isReply.isParent, isReply.sameAnchor, isReply.beforeText, isReply.isText⟩

/-- Comments in threads at one anchor are linked, whatever stands before them. -/
theorem linked_of_chain {comments : List CommentData} {before : Option CommentData}
    (areText : ∀ comment ∈ comments, comment.trackchange = false)
    (anchors : ∀ comment ∈ comments, ∀ parent ∈ comments, parent.parentOf comment = true →
      comment.anchorPos = parent.anchorPos)
    (first : ∀ first ∈ comments.head?, first.parent = some ['0'])
    (chain : comments.IsChain fun before comment =>
      comment.parent = some ['0'] ∨ before.parentOf comment = true) : Linked before comments := by
  have isRoot {comment : CommentData} (member : comment ∈ comments)
      (isZero : comment.parent = some ['0']) : comment.IsRoot := by
    rw [CommentData.IsRoot, areText comment member]
    exact isZero
  refine linked_iff_split.mpr fun front comment back isSplit => ?_
  have member : comment ∈ comments := by
    rw [isSplit]
    exact List.mem_append_right _ List.mem_cons_self
  cases isLast : front.getLast? with
  | none =>
      rw [List.getLast?_eq_none_iff.mp isLast, List.nil_append] at isSplit
      refine .inl (isRoot member (first comment ?_))
      rw [isSplit]
      rfl
  | some parent =>
      obtain ⟨older, rfl⟩ := List.getLast?_eq_some_iff.mp isLast
      rw [isSplit, List.append_assoc] at chain
      rcases (List.isChain_append_cons_cons.mp chain).2.1 with isZero | isParent
      · exact .inl (isRoot member isZero)
      · have inList : parent ∈ comments := by
          rw [isSplit]
          exact List.mem_append_left _ (List.mem_append_right _ List.mem_cons_self)
        exact .inr ⟨parent, rfl, isParent, anchors comment member parent inList isParent,
          areText parent inList, areText comment member⟩

theorem acceptedComments_areText {comments : List (CommentData × Bool)} :
    ∀ comment ∈ acceptedComments comments, comment.trackchange = false := by
  intro comment member
  obtain ⟨⟨source, accepted⟩, -, isAdjusted⟩ := List.mem_filterMap.mp member
  cases accepted with
  | false => cases isAdjusted
  | true =>
      cases isAdjusted
      rfl

theorem importComments_sound {comments : List (CommentData × Bool)} (invariant : Invariant list)
    (assumes : list.Assumes (.importComments comments))
    (harmless : list.Harmless (.importComments comments)) : (list.importComments comments).Sound := by
  obtain ⟨distinct, fromServer⟩ := assumes
  obtain ⟨aligned, first, chain⟩ := harmless
  have cleared : Invariant list.clearList := .update invariant.together.onlyChanges
  rw [State.importComments]
  split
  · exact ⟨nofun, cleared⟩
  · obtain ⟨imported, completed⟩ := importLoop_sound cleared aligned distinct
      (fun comment member => (fromServer comment member).1)
      (linked_of_chain acceptedComments_areText (fun comment member => (fromServer comment member).2)
        first chain)
    dsimp only
    rw [completed, if_pos rfl]
    have ordered : Invariant (importLoop 0 comments list.clearList).1.state.orderCommentList :=
      .order imported.invariant.together
    exact ⟨List.forall_mem_append.mpr
      ⟨imported.lookups, List.forall_mem_singleton.mpr ordered.kept⟩, ordered⟩

theorem adjustRedLine_spec {redline : Redline} (isSane : adjustRedLine redline = some comment) :
    comment.IsRoot ∧ comment.isReply = false ∧ comment.id ≠ ['0'] := by
  obtain ⟨anchorPos, -, rfl⟩ := Option.map_eq_some_iff.mp isSane
  refine ⟨rfl, rfl, fun isZero => ?_⟩
  have isHead := congrArg List.head? isZero
  revert isHead
  exact (by decide : some 'c' ≠ some '0')

theorem Together.append_roots {roots : List CommentData} {commentList : List CommentData}
    (together : Together commentList) (areRoots : ∀ root ∈ roots, root.IsRoot)
    (notZero : ∀ root ∈ roots, root.id ≠ ['0'])
    (distinct : ((commentList ++ roots).map CommentData.id).Nodup) :
    Together (commentList ++ roots) where
  distinct := distinct
  notZero := List.forall_mem_append.mpr ⟨together.notZero, notZero⟩
  linked := linked_append.mpr ⟨together.linked, linked_of_roots areRoots⟩

theorem importChanges_sound {changes : List (Redline × Bool)} (invariant : Invariant list)
    (distinct : list.Assumes (.importChanges changes)) : (list.importChanges changes).Sound := by
  have cleared : Invariant list.clearChanges := .update invariant.together.withoutChanges
  have areSane : ∀ change ∈ State.acceptedChanges changes, ∃ redline,
      adjustRedLine redline = some change := by
    intro change member
    obtain ⟨⟨redline, accepted⟩, -, isSane⟩ := List.mem_filterMap.mp member
    cases accepted with
    | false => cases isSane
    | true => exact ⟨redline, isSane⟩
  rw [State.importChanges]
  split
  · exact ⟨nofun, cleared⟩
  · have ordered : Invariant (State.orderCommentList { list.clearChanges with
        commentList := list.clearChanges.commentList ++ State.acceptedChanges changes }) := by
      refine .order (cleared.together.append_roots ?_ ?_ distinct)
      · intro change member
        obtain ⟨redline, isSane⟩ := areSane change member
        exact (adjustRedLine_spec isSane).1
      · intro change member
        obtain ⟨redline, isSane⟩ := areSane change member
        exact (adjustRedLine_spec isSane).2.2
    exact ⟨List.forall_mem_singleton.mpr ordered.kept, ordered⟩

/-!
## Runs
-/

theorem add_comment_sound {accepted : Bool} (invariant : Invariant list)
    (assumes : list.Assumes (.ack (.comment .add comment) accepted))
    (harmless : list.Harmless (.ack (.comment .add comment) accepted)) :
    ((list.adjustParentAdd (adjustComment comment)).add (adjustComment comment) accepted).Sound := by
  obtain ⟨fresh, anchors⟩ := assumes
  rw [State.Harmless] at harmless
  have freshAdjusted : Fresh list.commentList (adjustComment comment) := ⟨fresh.notZero, fresh.isNew⟩
  cases isReply : comment.isReply with
  | false =>
      have notReply : (adjustComment comment).isReply = false := isReply
      rw [isReply, if_neg Bool.false_ne_true] at harmless
      rw [adjustParentAdd_of_unknown (.inr notReply)]
      exact add_root_sound invariant freshAdjusted harmless isReply
  | true =>
      rw [if_pos isReply] at harmless
      cases accepted with
      | true =>
          obtain ⟨parent, member, isText, isParent⟩ := harmless
          obtain ⟨front, back, isSplit⟩ := List.append_of_mem member
          exact add_reply_sound invariant isSplit freshAdjusted
            ⟨isParent, anchors parent member isParent, isText, rfl⟩ isReply
      | false =>
          have unchanged : list.adjustParentAdd (adjustComment comment) = list := by
            obtain ⟨parentId, isParentId, -⟩ := isReply_iff.mp isReply
            by_cases known : parentId ∈ list.commentList.map CommentData.id
            · obtain ⟨parent, member, rfl⟩ := List.mem_map.mp known
              have isParent := CommentData.parentOf_iff.mpr isParentId
              obtain ⟨front, back, isSplit⟩ := List.append_of_mem member
              refine adjustParentAdd_of_unanswered invariant.exact isSplit isParent ?_
              intro reply isFirst
              refine harmless parent member isParent reply ?_
              rw [isSplit]
              exact List.mem_append_right _ (List.mem_cons_of_mem _ (List.mem_of_mem_head? isFirst))
            · refine adjustParentAdd_of_unknown (.inl ?_)
              have isAdjustedId : (adjustComment comment).parent = some parentId := isParentId
              rw [isAdjustedId, Option.bind_some, invariant.exact.getIndexOf_none known]
          rw [unchanged]
          exact add_refused_sound invariant isReply

theorem onACKComment_sound {ack : Ack} {accepted : Bool} (invariant : Invariant list)
    (assumes : list.Assumes (.ack ack accepted)) (harmless : list.Harmless (.ack ack accepted)) :
    (list.onACKComment ack accepted).Sound := by
  cases ack with
  | comment action comment =>
      cases action with
      | add =>
          have added := add_comment_sound invariant assumes harmless
          exact ⟨List.forall_mem_cons.mpr ⟨invariant.exact, added.lookups⟩, added.invariant⟩
      | remove => exact remove_sound invariant comment.id
      | modify => exact (modify_comment_sound invariant assumes harmless).1
      | resolve => exact (modify_comment_sound invariant assumes harmless).2
  | redline action redline =>
      cases action with
      | add =>
          rw [State.onACKComment]
          cases isSane : adjustRedLine redline with
          | none => exact ⟨nofun, invariant⟩
          | some change =>
              obtain ⟨isRoot, notReply, -⟩ := adjustRedLine_spec isSane
              exact add_root_sound invariant (assumes change isSane) (fun _ => isRoot) notReply
      | remove => exact remove_sound invariant redline.id
      | modify =>
          rw [State.onACKComment]
          cases isSane : adjustRedLine redline with
          | none => exact ⟨List.forall_mem_singleton.mpr invariant.exact, invariant⟩
          | some change => exact (modify_change_sound invariant isSane assumes).1
      | resolve =>
          rw [State.onACKComment]
          cases isSane : adjustRedLine redline with
          | none =>
              exact ⟨List.forall_mem_cons.mpr
                ⟨invariant.exact, List.forall_mem_singleton.mpr invariant.kept⟩, invariant⟩
          | some change => exact (modify_change_sound invariant isSane assumes).2

theorem handle_sound {event : Event} (invariant : Invariant list) (assumes : list.Assumes event)
    (harmless : list.Harmless event) : (list.handle event).Sound := by
  cases event with
  | ack ack accepted => exact onACKComment_sound invariant assumes harmless
  | importComments comments => exact importComments_sound invariant assumes harmless
  | importChanges changes => exact importChanges_sound invariant assumes
  | layout => exact ⟨nofun, .order invariant.together⟩

theorem run_sound {events : List Event} (invariant : Invariant list) (assumed : list.AllAssumed events)
    (harmless : list.AllHarmless events) : (list.run events).Sound := by
  induction events generalizing list with
  | nil => exact ⟨List.forall_mem_singleton.mpr invariant.kept, invariant⟩
  | cons event events ih =>
      have handled := handle_sound invariant assumed.1 harmless.1
      have later := ih handled.invariant assumed.2 harmless.2
      refine ⟨List.forall_mem_cons.mpr ⟨invariant.kept, ?_⟩, later.invariant⟩
      exact List.forall_mem_append.mpr ⟨handled.lookups, later.lookups⟩

theorem empty_invariant : Invariant State.empty where
  together := ⟨List.nodup_nil, nofun, trivial⟩
  exact _ _ := iff_of_false nofun nofun

end

/-- Whenever an id is looked up in a run of harmless events, the map is exact, and the threads are in one
piece where an end of a thread is looked up. -/
theorem run_keeps {events : List Event} (assumed : State.empty.AllAssumed events)
    (harmless : State.empty.AllHarmless events) :
    ∀ lookup ∈ (State.empty.run events).lookups, lookup.Holds :=
  (run_sound empty_invariant assumed harmless).lookups

/-- A thread of a root and a reply, a second reply to the root, and a thread of its own. -/
private def firstRoot : CommentData := ⟨['1'], some ['0'], "false".toList, false, ⟨0, 0⟩⟩

private def firstReply : CommentData := ⟨['2'], some ['1'], "false".toList, false, ⟨0, 0⟩⟩

private def secondReply : CommentData := ⟨['3'], some ['1'], "false".toList, false, ⟨0, 0⟩⟩

private def secondRoot : CommentData := ⟨['4'], some ['0'], "false".toList, false, ⟨0, 0⟩⟩

private def firstChange : Redline := ⟨1, some ⟨0, 0⟩⟩

private def removedRoot : List Event :=
  [.importComments [(firstRoot, true), (firstReply, true)], .ack (.comment .remove firstRoot) true]

theorem run_keeps_removedRoot :
    (State.empty.run removedRoot).state.commentList = [{ firstReply with parent := some ['0'] }] ∧
      ∀ lookup ∈ (State.empty.run removedRoot).lookups, lookup.Holds := by
  refine ⟨by decide +kernel, run_keeps ⟨⟨by decide, ?_⟩, trivial, trivial⟩
    ⟨⟨⟨rfl, rfl, trivial⟩, ?_, ?_⟩, trivial, trivial⟩⟩
  · decide
  · intro first isFirst
    cases isFirst
    rfl
  · exact List.isChain_cons_cons.mpr ⟨.inr rfl, .singleton _⟩

/-- A state in which an end of a thread is looked up, where an index in the map is wrong or a reply does
not follow its parent. -/
private def breaks : Lookup → Bool
  | .index _ => false
  | .thread list =>
      (list.commentList.zipIdx.any fun (comment, i) => list.idIndexMap comment.id != some i) ||
        (list.commentList.zip list.commentList.tail).any fun (before, comment) =>
          !decide comment.IsRoot && !before.parentOf comment

private theorem not_holds_of_breaks {lookups : List Lookup} (isBroken : lookups.any breaks = true) :
    ∃ lookup ∈ lookups, ¬ lookup.Holds := by
  obtain ⟨lookup, member, broken⟩ := List.any_eq_true.mp isBroken
  refine ⟨lookup, member, fun holds => ?_⟩
  cases lookup with
  | index list => cases broken
  | thread list =>
      rw [breaks, Bool.or_eq_true, List.any_eq_true, List.any_eq_true] at broken
      rcases broken with ⟨⟨comment, i⟩, inList, differs⟩ | ⟨⟨before, comment⟩, inList, unlinked⟩
      · have isThere := List.mk_mem_zipIdx_iff_getElem?.mp inList
        have isIndex := (holds.exact comment.id i).mpr (by rw [isThere]; rfl)
        dsimp only at differs
        rw [isIndex, bne_self_eq_false] at differs
        cases differs
      · obtain ⟨i, isPair⟩ := List.mem_iff_getElem?.mp inList
        obtain ⟨isBefore, isNext⟩ := List.getElem?_zip_eq_some.mp isPair
        rw [List.getElem?_tail] at isNext
        obtain ⟨front, back, isSplit, rfl⟩ := exists_split isBefore
        rw [isSplit, getElem?_split] at isNext
        have linked := holds.threads.linked
        cases back with
        | nil => cases isNext
        | cons next back =>
            cases isNext
            rw [isSplit] at linked
            simp only [Bool.and_eq_true, Bool.not_eq_true', decide_eq_false_iff_not] at unlinked
            rcases (List.isChain_append_cons_cons.mp linked).2.1 with isRoot | isParent
            · exact unlinked.1 isRoot
            · rw [isParent] at unlinked
              cases unlinked.2

private def refusedFirst : List Event := [.importComments [(firstRoot, false), (secondRoot, true)]]

private def importedAfterChange : List Event :=
  [.importChanges [(firstChange, true)], .importComments [(firstRoot, true)]]

private def refusedReply : List Event :=
  [.importComments [(firstRoot, true), (firstReply, true)], .ack (.comment .add secondReply) false]

private def serverParent : List Event :=
  [.importComments [(firstRoot, true), (firstReply, true)], .ack (.comment .add secondReply) true,
    .ack (.comment .modify firstReply) true]

/-- The map is wrong behind a refused comment and behind a tracked change, a refused reply takes over the
reply of its parent, and the server's parent replaces the one that was rewritten. -/
theorem not_run_keeps :
    (State.empty.AllAssumed refusedFirst ∧
      ∃ lookup ∈ (State.empty.run refusedFirst).lookups, ¬ lookup.Holds) ∧
    (State.empty.AllAssumed importedAfterChange ∧
      ∃ lookup ∈ (State.empty.run importedAfterChange).lookups, ¬ lookup.Holds) ∧
    (State.empty.AllAssumed refusedReply ∧
      ∃ lookup ∈ (State.empty.run refusedReply).lookups, ¬ lookup.Holds) ∧
    State.empty.AllAssumed serverParent ∧
      ∃ lookup ∈ (State.empty.run serverParent).lookups, ¬ lookup.Holds := by
  refine ⟨⟨?_, not_holds_of_breaks (by decide +kernel)⟩, ⟨?_, not_holds_of_breaks (by decide +kernel)⟩,
    ⟨?_, not_holds_of_breaks (by decide +kernel)⟩, ?_, not_holds_of_breaks (by decide +kernel)⟩
  · exact ⟨⟨by decide, by decide⟩, trivial⟩
  · exact ⟨List.nodup_singleton _, ⟨by decide +kernel, by decide⟩, trivial⟩
  · refine ⟨⟨by decide, by decide⟩, ⟨⟨by decide, ?_⟩, ?_⟩, trivial⟩
    · decide +kernel
    · decide +kernel
  · refine ⟨⟨by decide, by decide⟩, ⟨⟨by decide, ?_⟩, ?_⟩, ⟨?_, ?_, ?_⟩, trivial⟩
    · decide +kernel
    · decide +kernel
    · decide +kernel
    · decide +kernel
    · decide +kernel

end FreeOnline.Browser.Comments
