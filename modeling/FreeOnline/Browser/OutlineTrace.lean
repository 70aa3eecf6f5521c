import FreeOnline.Browser.OutlineRows

/-!
# Rings of corners

From the first corner that is left, the partners in the column and in the row are followed in
turn, until the first corner is met again. A ring takes its corners away from both maps.
-/

set_option autoImplicit false

namespace FreeOnline.Browser.CPolyUtil

open FreeOnline.Library

theorem pairEdges_eq {line : List Nat} {edges : Edges} (distinct : (edges.keys ++ line).Nodup)
    (even : line.length % 2 = 0) : pairEdges line edges = some (edges ++ pairs line) := by
  induction line, edges using pairEdges.induct with
  | case1 edges => exact congrArg some (List.append_nil edges).symm
  | case2 last edges => cases even
  | case3 a b rest edges ih =>
      have firstNew : a ∉ edges.keys := by
        rw [List.nodup_middle, List.nodup_cons] at distinct
        exact fun member => distinct.1 (List.mem_append_left _ member)
      have isFirst := OrderedMap.set_new firstNew b
      have same : (edges ++ [(a, b)]).keys ++ b :: rest = edges.keys ++ a :: b :: rest := by
        simp [OrderedMap.keys]
      rw [← same] at distinct
      have secondNew : b ∉ (edges ++ [(a, b)]).keys := by
        rw [List.nodup_middle, List.nodup_cons] at distinct
        exact fun member => distinct.1 (List.mem_append_left _ member)
      have isSecond := OrderedMap.set_new secondNew a
      rw [isFirst, isSecond] at ih
      rw [pairEdges, isFirst, isSecond, ih, pairs, List.append_assoc, List.append_assoc]
      · rfl
      · have all : (edges ++ [(a, b)] ++ [(b, a)]).keys ++ rest =
            (edges ++ [(a, b)]).keys ++ b :: rest := by
          simp [OrderedMap.keys]
        rw [all]
        exact distinct
      · simp only [List.length_cons] at even
        omega

/-!
## One ring
-/

section

variable {heap : Heap} {vertices : List Nat} {column row : Nat → Nat} {start : Nat}
  {edgesH edgesV : Edges}

/-- The maps with which a ring is begun: every vertex that is left has both partners, and only the
start itself closes a ring. -/
structure Traceable (heap : Heap) (vertices : List Nat) (column row : Nat → Nat) (start : Nat)
    (edgesH edgesV : Edges) : Prop where
  columnPairs : Pairing vertices column
  rowPairs : Pairing vertices row
  isStart : start ∈ vertices
  getsRow : ∀ vertex ∈ vertices, edgesH.get vertex = some (row vertex)
  getsColumn : ∀ vertex ∈ vertices, edgesV.get vertex = some (column vertex)
  closes : ∀ vertex before, Trail column row start true vertex before →
    ((heap.point (row vertex)).equals (heap.point start) = true ↔ row vertex = start)

/-- The trail is followed to its end. The maps differ only in the vertices that were left. -/
theorem trace_eq (traceable : Traceable heap vertices column row start edgesH edgesV) {fuel : Nat}
    {isAlong : Bool} {curr : Nat} {path : List Nat} {restH restV : Edges}
    (trail : Trail column row start isAlong curr path)
    (enough : vertices.length < fuel + path.length)
    (sameH : restH.without path = edgesH.without path)
    (sameV : restV.without path = edgesV.without path) :
    ∃ last before lastH lastV,
      trace heap start fuel isAlong curr path restH restV =
        some ((last :: before).reverse, lastH, lastV) ∧
      Trail column row start true last before ∧ row last = start ∧
      lastH.without (last :: before) = edgesH.without (last :: before) ∧
      lastV.without (last :: before) = edgesV.without (last :: before) := by
  induction fuel generalizing isAlong curr path restH restV with
  | zero =>
      have kept := trail.kept traceable.columnPairs traceable.rowPairs traceable.isStart
      have short := kept.length_lt
      omega
  | succ fuel ih =>
      have kept := trail.kept traceable.columnPairs traceable.rowPairs traceable.isStart
      have isVertex := kept.inside curr List.mem_cons_self
      have notBefore : curr ∉ path := (List.nodup_cons.mp kept.distinct).1
      have stillEnough : vertices.length < fuel + (curr :: path).length := by
        rw [List.length_cons]
        omega
      have keptH := OrderedMap.without_cons_congr sameH curr
      have keptV := OrderedMap.without_cons_congr sameV curr
      cases isAlong with
      | false =>
          have isNext : restV.get curr = some (column curr) := by
            rw [OrderedMap.get_congr sameV notBefore]
            exact traceable.getsColumn curr isVertex
          rw [trace, isNext]
          dsimp only
          refine ih (.across trail) stillEnough keptH ?_
          rw [OrderedMap.without_delete]
          exact keptV
      | true =>
          have isNext : restH.get curr = some (row curr) := by
            rw [OrderedMap.get_congr sameH notBefore]
            exact traceable.getsRow curr isVertex
          have goneH : (restH.delete curr).without (curr :: path) =
              edgesH.without (curr :: path) := by
            rw [OrderedMap.without_delete]
            exact keptH
          rw [trace, isNext]
          dsimp only
          by_cases closed : row curr = start
          · rw [if_pos ((traceable.closes curr path trail).mpr closed)]
            exact ⟨curr, path, _, _, rfl, trail, closed, goneH, keptV⟩
          · rw [if_neg fun isClosed => closed ((traceable.closes curr path trail).mp isClosed)]
            exact ih (.along trail closed) stillEnough goneH keptV

end

/-!
## All rings
-/

theorem equals_self (point : Point) : point.equals point = true := by
  have noDistance (a : ℚ) : |minus a a| < epsilon := by
    have isZero := roundHalfEven_intCast 0
    unfold minus roundDigits epsilon
    rw [sub_self, zero_div, ← Int.cast_zero, isZero, Int.cast_zero, zero_mul, abs_zero]
    norm_num
  unfold Point.equals
  rw [decide_eq_true (noDistance point.x), decide_eq_true (noDistance point.y)]
  rfl

/-- The test for the end of a ring tells corners at different places apart. -/
def Distinguished (heap : Heap) (keys : List Nat) : Prop :=
  ∀ a ∈ keys, ∀ b ∈ keys, (heap.point a).equals (heap.point b) = true → heap.point a = heap.point b

/-- The vertices of a trail that comes back to its start. -/
def IsRing (heap : Heap) (keys : List Nat) (ring : List Nat) : Prop :=
  ∃ start last before, ring = (last :: before).reverse ∧ start ∈ keys ∧
    Trail (alongColumn heap keys) (alongRow heap keys) start true last before ∧
    alongRow heap keys last = start

/-- No corner that is left has a partner that is gone. -/
def ClosedLeft (heap : Heap) (keys done : List Nat) : Prop :=
  ∀ vertex ∈ keys, vertex ∉ done →
    alongRow heap keys vertex ∉ done ∧ alongColumn heap keys vertex ∉ done

section

variable {heap : Heap} {keys done : List Nat}

/-- The corners that are left, in the order of the rows. -/
def leftInRows (heap : Heap) (keys done : List Nat) : List Nat :=
  (sortBy heap yThenX keys).filter (· ∉ done)

theorem mem_leftInRows {vertex : Nat} :
    vertex ∈ leftInRows heap keys done ↔ vertex ∈ keys ∧ vertex ∉ done := by
  unfold leftInRows
  rw [List.mem_filter, mem_sortBy, decide_eq_true_iff]

theorem firstLeft (corners : Corners heap keys) (closed : ClosedLeft heap keys done)
    {first : Nat} {others : List Nat} (isFirst : leftInRows heap keys done = first :: others) :
    FirstLeft heap keys (fun vertex => decide (vertex ∉ done)) first where
  corners := corners
  inKeys := (mem_leftInRows.mp (isFirst ▸ List.mem_cons_self)).1
  isLeft := decide_eq_true (mem_leftInRows.mp (isFirst ▸ List.mem_cons_self)).2
  behind _ inKeys isLeft different :=
    before_of_filter isFirst (mem_sortBy.mpr inKeys) isLeft different
  rowLeft vertex inKeys isLeft :=
    decide_eq_true (closed vertex inKeys (of_decide_eq_true isLeft)).1
  columnLeft vertex inKeys isLeft :=
    decide_eq_true (closed vertex inKeys (of_decide_eq_true isLeft)).2

theorem traceable_left (corners : Corners heap keys) (distinguished : Distinguished heap keys)
    (closed : ClosedLeft heap keys done) {first : Nat} {others : List Nat}
    (isFirst : leftInRows heap keys done = first :: others) :
    Traceable heap (leftInRows heap keys done) (alongColumn heap keys) (alongRow heap keys) first
      (OrderedMap.without (pairs (sortBy heap yThenX keys)) done)
      (OrderedMap.without (pairs (sortBy heap xThenY keys)) done) := by
  have inKeys : ∀ vertex ∈ leftInRows heap keys done, vertex ∈ keys :=
    fun vertex member => (mem_leftInRows.mp member).1
  have leftRow : Pairing (leftInRows heap keys done) (alongRow heap keys) := by
    refine corners.rowPairs.of_subset inKeys fun vertex member => ?_
    obtain ⟨isKey, isLeft⟩ := mem_leftInRows.mp member
    exact mem_leftInRows.mpr ⟨corners.rowPairs.inside vertex isKey, (closed vertex isKey isLeft).1⟩
  have leftColumn : Pairing (leftInRows heap keys done) (alongColumn heap keys) := by
    refine corners.columnPairs.of_subset inKeys fun vertex member => ?_
    obtain ⟨isKey, isLeft⟩ := mem_leftInRows.mp member
    exact mem_leftInRows.mpr
      ⟨corners.columnPairs.inside vertex isKey, (closed vertex isKey isLeft).2⟩
  have isStart : first ∈ leftInRows heap keys done := isFirst ▸ List.mem_cons_self
  refine ⟨leftColumn, leftRow, isStart, fun vertex member => ?_, fun vertex member => ?_, ?_⟩
  · obtain ⟨inKeys, isLeft⟩ := mem_leftInRows.mp member
    rw [OrderedMap.get_without isLeft]
    exact get_pairs (corners.nodup_sortBy yThenX) (corners.even_sortBy yThenX)
      (mem_sortBy.mpr inKeys)
  · obtain ⟨inKeys, isLeft⟩ := mem_leftInRows.mp member
    rw [OrderedMap.get_without isLeft]
    exact get_pairs (corners.nodup_sortBy xThenY) (corners.even_sortBy xThenY)
      (mem_sortBy.mpr inKeys)
  · intro vertex before trail
    refine ⟨fun isClosed => ?_, fun same => same ▸ equals_self _⟩
    -- another corner at the place of the first one is met only where there are two in the ring
    have kept := trail.kept leftColumn leftRow isStart
    have isNext := leftRow.inside vertex (kept.inside vertex List.mem_cons_self)
    obtain ⟨inKeys, isLeft⟩ := mem_leftInRows.mp isNext
    by_contra notFirst
    have samePlace := distinguished _ inKeys _ (mem_leftInRows.mp isStart).1 isClosed
    have samePartner := (firstLeft corners closed isFirst).same_partner inKeys
      (decide_eq_true isLeft) notFirst samePlace
    have isPartner := trail.of_same_partner leftRow isStart samePartner
    rw [if_pos rfl] at isPartner
    rw [isPartner, leftRow.involutive first isStart] at notFirst
    exact notFirst rfl

/-- With a ring that is taken away, its corners are gone. -/
theorem left_perm (corners : Corners heap keys) {ring : List Nat} (distinct : ring.Nodup)
    (wereLeft : ∀ vertex ∈ ring, vertex ∈ leftInRows heap keys done) :
    (ring ++ leftInRows heap keys (ring ++ done)).Perm (leftInRows heap keys done) := by
  have nodup (gone : List Nat) : (leftInRows heap keys gone).Nodup :=
    (corners.nodup_sortBy yThenX).filter _
  have joined : (ring ++ leftInRows heap keys (ring ++ done)).Nodup := by
    refine List.nodup_append.mpr ⟨distinct, nodup _, ?_⟩
    rintro vertex inRing _ isLeft rfl
    exact (mem_leftInRows.mp isLeft).2 (List.mem_append_left _ inRing)
  refine (List.perm_ext_iff_of_nodup joined (nodup done)).mpr fun vertex => ?_
  rw [List.mem_append, mem_leftInRows, mem_leftInRows, List.mem_append, not_or]
  constructor
  · rintro (inRing | ⟨inKeys, -, isLeft⟩)
    · exact mem_leftInRows.mp (wereLeft vertex inRing)
    · exact ⟨inKeys, isLeft⟩
  · intro isLeft
    by_cases inRing : vertex ∈ ring
    · exact .inl inRing
    · exact .inr ⟨isLeft.1, inRing, isLeft.2⟩

theorem closedLeft_append (corners : Corners heap keys) (closed : ClosedLeft heap keys done)
    {ring : List Nat} (closedRing : ∀ vertex ∈ ring,
      alongColumn heap keys vertex ∈ ring ∧ alongRow heap keys vertex ∈ ring) :
    ClosedLeft heap keys (ring ++ done) := by
  intro vertex isKey isLeft
  obtain ⟨notRing, notDone⟩ := not_or.mp (List.mem_append.not.mp isLeft)
  have ⟨rowLeft, columnLeft⟩ := closed vertex isKey notDone
  refine ⟨fun member => ?_, fun member => ?_⟩
  · cases List.mem_append.mp member with
    | inl inRing =>
        have back := (closedRing _ inRing).2
        rw [corners.rowPairs.involutive vertex isKey] at back
        exact notRing back
    | inr inDone => exact rowLeft inDone
  · cases List.mem_append.mp member with
    | inl inRing =>
        have back := (closedRing _ inRing).1
        rw [corners.columnPairs.involutive vertex isKey] at back
        exact notRing back
    | inr inDone => exact columnLeft inDone

/-- All corners that are left are met, each in one ring. -/
theorem traceRings_eq (corners : Corners heap keys) (distinguished : Distinguished heap keys)
    {fuel : Nat} (closed : ClosedLeft heap keys done)
    (enough : (leftInRows heap keys done).length < fuel) :
    ∃ rings, traceRings heap fuel (OrderedMap.without (pairs (sortBy heap yThenX keys)) done)
        (OrderedMap.without (pairs (sortBy heap xThenY keys)) done) = some rings ∧
      (∀ ring ∈ rings, IsRing heap keys ring) ∧
      rings.flatten.Perm (leftInRows heap keys done) := by
  induction fuel generalizing done with
  | zero => omega
  | succ fuel ih =>
      have isKeys : (OrderedMap.without (pairs (sortBy heap yThenX keys)) done).keys =
          leftInRows heap keys done := by
        rw [OrderedMap.keys_without, keys_pairs (corners.even_sortBy yThenX)]
        rfl
      rw [traceRings, isKeys]
      cases isFirst : leftInRows heap keys done with
      | nil => exact ⟨[], rfl, nofun, List.Perm.refl _⟩
      | cons first others =>
          have traceable := traceable_left corners distinguished closed isFirst
          have length := congrArg List.length isKeys
          rw [OrderedMap.keys, List.length_map] at length
          obtain ⟨last, before, lastH, lastV, isTrace, trail, comesBack, keptH, keptV⟩ :=
            @trace_eq heap _ _ _ first _ _ traceable
              ((OrderedMap.without (pairs (sortBy heap yThenX keys)) done).length + 1) _ _ _ _ _
              .start (by rw [length]; exact Nat.lt_succ_self _) rfl rfl
          have kept := trail.kept traceable.columnPairs traceable.rowPairs traceable.isStart
          have goneH : lastH.deleteAll (last :: before).reverse =
              OrderedMap.without (pairs (sortBy heap yThenX keys)) (last :: before ++ done) := by
            rw [OrderedMap.deleteAll_eq, OrderedMap.without_reverse, keptH,
              ← OrderedMap.without_append]
          have goneV : lastV.deleteAll (last :: before).reverse =
              OrderedMap.without (pairs (sortBy heap xThenY keys)) (last :: before ++ done) := by
            rw [OrderedMap.deleteAll_eq, OrderedMap.without_reverse, keptV,
              ← OrderedMap.without_append]
          have isPerm := left_perm corners kept.distinct kept.inside
          have stillClosed :=
            closedLeft_append corners closed (kept.closed traceable.rowPairs comesBack)
          have shorter := isPerm.length_eq
          rw [List.length_append, List.length_cons] at shorter
          obtain ⟨rings, isRings, areRings, allMet⟩ := ih stillClosed (by omega)
          dsimp only
          rw [isTrace]
          dsimp only
          rw [goneH, goneV, isRings]
          refine ⟨_, rfl, ?_, ?_⟩
          · intro ring member
            cases List.mem_cons.mp member with
            | inl isThis =>
                exact ⟨first, last, before, isThis, (mem_leftInRows.mp traceable.isStart).1, trail,
                  comesBack⟩
            | inr isLater => exact areRings ring isLater
          · rw [List.flatten_cons, ← isFirst]
            exact ((List.reverse_perm (last :: before)).append allMet).trans isPerm

end

end FreeOnline.Browser.CPolyUtil
