import Mathlib.Algebra.Order.Monoid.OrderDual
import Mathlib.Data.List.Chain
import Mathlib.Order.Bounds.Basic

/-!
# Placing one after the other

Elements are placed one after the other. Each keeps to its own anchor, as far as those that were
placed before it leave room. The lists of those placed have the latest first.
-/

set_option autoImplicit false

namespace FreeOnline.Library

variable {α K : Type} (p : α → Bool)

/-- Those with the property, each with a position that depends on those up to it. -/
def placed (position : List α → K) : List α → List α → List (α × K)
  | _, [] => []
  | before, a :: rest =>
      if p a then (a, position (a :: before)) :: placed position (a :: before) rest
      else placed position (a :: before) rest

/-- Two of those with the property, one behind the other in the order. What is between them and before
the first is given with the latest first. -/
structure Neighbours (order : List α) (first second : α) (between before : List α) : Prop where
  inOrder : (second :: (between ++ first :: before)).reverse <+: order
  first : p first = true
  second : p second = true
  between : ∀ a ∈ between, p a = false

section

variable [AddCommMonoid K] (step : List α → K) (anchor : α → K) (start : K)

/-- The steps to the latest one, from the one before them. -/
def room : List α → List α → K
  | [], _ => 0
  | a :: later, before => room later before + step (a :: (later ++ before))

/-- A step leads on from each element to the next. One with the property keeps to its anchor, or goes
by the step. -/
def pushed (keep : K → K → K) : List α → K
  | [] => start
  | a :: before =>
      let next := pushed keep before + step (a :: before)
      if p a then keep (anchor a) next else next

/-- Where the start and the anchors push the latest one to. -/
def pushes (l : List α) : Set K :=
  {y | y = start + room step l [] ∨ ∃ later a before, l = later ++ a :: before ∧ p a = true ∧
    y = anchor a + room step later (a :: before)}

end

variable {p}

theorem placed_of_pos {position : List α → K} {before rest : List α} {a : α} (isPlaced : p a = true) :
    placed p position before (a :: rest) =
      (a, position (a :: before)) :: placed p position (a :: before) rest := by
  rw [placed, if_pos isPlaced]

theorem placed_fst (position : List α → K) (before order : List α) :
    (placed p position before order).map Prod.fst = order.filter p := by
  induction order generalizing before with
  | nil => rfl
  | cons a rest ih =>
      rw [placed]
      split
      · next isPlaced => rw [List.filter_cons_of_pos isPlaced, List.map_cons, ih]
      · next notPlaced => rw [List.filter_cons_of_neg notPlaced, ih]

theorem forall_mem_placed {position : List α → K} {P : α × K → Prop}
    (holds : ∀ a before, p a = true → P (a, position (a :: before))) (before order : List α) :
    ∀ q ∈ placed p position before order, P q := by
  induction order generalizing before with
  | nil => exact List.forall_mem_nil _
  | cons a rest ih =>
      rw [placed]
      split
      · next isPlaced => exact List.forall_mem_cons.mpr ⟨holds a before isPlaced, ih _⟩
      · exact ih _

theorem placed_head? {position : List α → K} {before order : List α} {first : α × K} :
    first ∈ (placed p position before order).head? ↔ ∃ between a behind,
      order = between ++ a :: behind ∧ (∀ b ∈ between, p b = false) ∧ p a = true ∧
      first = (a, position (a :: (between.reverse ++ before))) := by
  induction order generalizing before with
  | nil =>
      refine iff_of_false nofun ?_
      intro ⟨between, a, behind, isEmpty, _⟩
      exact List.append_ne_nil_of_right_ne_nil _ (List.cons_ne_nil a behind) isEmpty.symm
  | cons c rest ih =>
      rw [placed]
      cases isPlaced : p c with
      | true =>
          rw [if_pos rfl, List.head?_cons, Option.mem_some_iff]
          constructor
          · rintro rfl
            exact ⟨[], c, rest, rfl, List.forall_mem_nil _, isPlaced, rfl⟩
          · rintro ⟨between, a, behind, isOrder, notBetween, _, rfl⟩
            cases between with
            | nil =>
                cases isOrder
                rfl
            | cons b between =>
                cases isOrder
                rw [notBetween c List.mem_cons_self] at isPlaced
                cases isPlaced
      | false =>
          rw [if_neg Bool.false_ne_true, ih]
          constructor
          · rintro ⟨between, a, behind, rfl, notBetween, isFirst, rfl⟩
            refine ⟨c :: between, a, behind, rfl,
              List.forall_mem_cons.mpr ⟨isPlaced, notBetween⟩, isFirst, ?_⟩
            rw [List.reverse_cons, List.append_assoc, List.singleton_append]
          · rintro ⟨between, a, behind, isOrder, notBetween, isFirst, rfl⟩
            cases between with
            | nil =>
                cases isOrder
                rw [isPlaced] at isFirst
                cases isFirst
            | cons b between =>
                cases isOrder
                refine ⟨between, a, behind, rfl,
                  fun b member => notBetween b (List.mem_cons_of_mem _ member), isFirst, ?_⟩
                rw [List.reverse_cons, List.append_assoc, List.singleton_append]

/-- What relates each placed element and the next. -/
theorem placed_isChain_iff {position : List α → K} {R : α × K → α × K → Prop}
    {before order : List α} :
    (placed p position before order).IsChain R ↔ ∀ front first between second behind,
      order = front ++ first :: (between ++ second :: behind) → p first = true → p second = true →
      (∀ a ∈ between, p a = false) →
      R (first, position (first :: (front.reverse ++ before)))
        (second, position (second :: (between.reverse ++ first :: (front.reverse ++ before)))) := by
  induction order generalizing before with
  | nil =>
      refine iff_of_true .nil ?_
      intro front first between second behind isEmpty
      exact absurd isEmpty.symm (List.append_ne_nil_of_right_ne_nil _ (List.cons_ne_nil _ _))
  | cons c rest ih =>
      have later : (∀ front first between second behind,
          c :: rest = (c :: front) ++ first :: (between ++ second :: behind) → p first = true →
          p second = true → (∀ a ∈ between, p a = false) →
          R (first, position (first :: ((c :: front).reverse ++ before)))
            (second, position
              (second :: (between.reverse ++ first :: ((c :: front).reverse ++ before))))) ↔
          (placed p position (c :: before) rest).IsChain R := by
        rw [ih]
        simp only [List.cons_append, List.cons.injEq, true_and, List.reverse_cons,
          List.append_assoc, List.nil_append]
      rw [placed]
      constructor
      · intro chain front first between second behind isOrder isFirst isSecond notBetween
        cases front with
        | nil =>
            cases isOrder
            rw [if_pos isFirst] at chain
            exact (List.isChain_cons.mp chain).1 _ (placed_head?.mpr
              ⟨between, second, behind, rfl, notBetween, isSecond, rfl⟩)
        | cons b front =>
            cases isOrder
            refine later.mpr ?_ front first between second behind rfl isFirst isSecond notBetween
            split at chain
            · exact chain.of_cons
            · exact chain
      · intro related
        have laterChain := later.mp fun front => related (c :: front)
        split
        · next isPlaced =>
            refine List.isChain_cons.mpr ⟨?_, laterChain⟩
            intro next isNext
            obtain ⟨between, second, behind, rfl, notBetween, isSecond, rfl⟩ :=
              placed_head?.mp isNext
            exact related [] c between second behind rfl isPlaced isSecond notBetween
        · exact laterChain

theorem placed_isChain_iff_neighbours {position : List α → K} {R : α × K → α × K → Prop}
    {order : List α} :
    (placed p position [] order).IsChain R ↔ ∀ first second between before,
      Neighbours p order first second between before →
      R (first, position (first :: before)) (second, position (second :: (between ++ first :: before))) := by
  rw [placed_isChain_iff]
  constructor
  · intro related first second between before ⟨⟨behind, isOrder⟩, isFirst, isSecond, notBetween⟩
    have atNeighbours := related before.reverse first between.reverse second behind
    rw [List.append_nil, List.reverse_reverse, List.reverse_reverse] at atNeighbours
    refine atNeighbours ?_ isFirst isSecond fun a member => notBetween a (List.mem_reverse.mp member)
    rw [← isOrder]
    simp only [List.reverse_cons, List.reverse_append, List.append_assoc, List.cons_append,
      List.nil_append]
  · intro related front first between second behind isOrder isFirst isSecond notBetween
    rw [List.append_nil]
    refine related first second between.reverse front.reverse ⟨⟨behind, ?_⟩, isFirst, isSecond,
      fun a member => notBetween a (List.mem_reverse.mp member)⟩
    rw [isOrder]
    simp only [List.reverse_cons, List.reverse_append, List.append_assoc, List.cons_append,
      List.nil_append, List.reverse_reverse]

section

variable [AddCommMonoid K] {step : List α → K} {anchor : α → K} {start : K}

theorem pushed_append {keep : K → K → K} {later before : List α}
    (notKept : ∀ a ∈ later, p a = false) :
    pushed p step anchor start keep (later ++ before) =
      pushed p step anchor start keep before + room step later before := by
  induction later with
  | nil => exact (add_zero _).symm
  | cons a later ih =>
      obtain ⟨isNot, notLater⟩ := List.forall_mem_cons.mp notKept
      rw [List.cons_append, pushed, room, isNot, if_neg Bool.false_ne_true, ih notLater, add_assoc]

/-- The next one with the property keeps to its anchor, or goes by all steps from the one before. -/
theorem pushed_cons_append {keep : K → K → K} {a : α} {later before : List α}
    (isKept : p a = true) (notKept : ∀ b ∈ later, p b = false) :
    pushed p step anchor start keep (a :: (later ++ before)) =
      keep (anchor a) (pushed p step anchor start keep before + room step (a :: later) before) := by
  rw [pushed, if_pos isKept, pushed_append notKept, room, add_assoc]

theorem mem_pushes_cons {a : α} {before : List α} {y : K} :
    y ∈ pushes p step anchor start (a :: before) ↔ (p a = true ∧ y = anchor a) ∨
      ∃ line ∈ pushes p step anchor start before, y = line + step (a :: before) := by
  constructor
  · rintro (rfl | ⟨later, b, earlier, isList, isKept, rfl⟩)
    · refine .inr ⟨_, .inl rfl, ?_⟩
      rw [room, List.append_nil, add_assoc]
    · cases later with
      | nil =>
          cases isList
          exact .inl ⟨isKept, add_zero _⟩
      | cons c later =>
          cases isList
          refine .inr ⟨_, .inr ⟨later, b, earlier, rfl, isKept, rfl⟩, ?_⟩
          exact (add_assoc _ _ _).symm
  · rintro (⟨isKept, rfl⟩ | ⟨line, rfl | ⟨later, b, earlier, rfl, isKept, rfl⟩, rfl⟩)
    · exact .inr ⟨[], a, before, rfl, isKept, (add_zero _).symm⟩
    · refine .inl ?_
      rw [room, List.append_nil, add_assoc]
    · refine .inr ⟨a :: later, b, earlier, rfl, isKept, ?_⟩
      rw [room, add_assoc]

variable [LinearOrder K] [IsOrderedAddMonoid K]

theorem pushed_isGreatest (l : List α) :
    IsGreatest (pushes p step anchor start l) (pushed p step anchor start max l) := by
  induction l with
  | nil =>
      refine ⟨.inl (add_zero _).symm, ?_⟩
      rintro y (rfl | ⟨later, a, before, isEmpty, _⟩)
      · exact (add_zero start).le
      · exact absurd isEmpty.symm (List.append_ne_nil_of_right_ne_nil _ (List.cons_ne_nil _ _))
  | cons a before ih =>
      have next : pushed p step anchor start max before + step (a :: before) ∈
          pushes p step anchor start (a :: before) := mem_pushes_cons.mpr (.inr ⟨_, ih.1, rfl⟩)
      have below {line : K} (member : line ∈ pushes p step anchor start before) :
          line + step (a :: before) ≤ pushed p step anchor start max before + step (a :: before) :=
        add_le_add_left (ih.2 member) _
      rw [pushed]
      cases isKept : p a with
      | true =>
          rw [if_pos rfl]
          constructor
          · rcases max_choice (anchor a)
              (pushed p step anchor start max before + step (a :: before)) with isMax | isMax
            · rw [isMax]
              exact mem_pushes_cons.mpr (.inl ⟨isKept, rfl⟩)
            · rw [isMax]
              exact next
          · intro y member
            rcases mem_pushes_cons.mp member with ⟨_, rfl⟩ | ⟨line, isLine, rfl⟩
            · exact le_max_left _ _
            · exact (below isLine).trans (le_max_right _ _)
      | false =>
          rw [if_neg Bool.false_ne_true]
          refine ⟨next, fun y member => ?_⟩
          rcases mem_pushes_cons.mp member with ⟨isTrue, _⟩ | ⟨line, isLine, rfl⟩
          · rw [isKept] at isTrue
            cases isTrue
          · exact below isLine

variable {P : K → Prop} {l : List α}

theorem forall_isGreatest_pushes :
    (∀ y, IsGreatest (pushes p step anchor start l) y → P y) ↔
      P (pushed p step anchor start max l) := by
  refine ⟨fun holds => holds _ (pushed_isGreatest l), fun holds y isGreatest => ?_⟩
  rw [isGreatest.unique (pushed_isGreatest l)]
  exact holds

theorem forall_isLeast_pushes :
    (∀ y, IsLeast (pushes p step anchor start l) y → P y) ↔
      P (pushed p step anchor start min l) :=
  forall_isGreatest_pushes (K := Kᵒᵈ)

end

end FreeOnline.Library
