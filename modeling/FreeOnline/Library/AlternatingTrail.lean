import Mathlib.Data.List.Basic
import Mathlib.Data.List.Nodup
import Mathlib.Data.List.Perm.Subperm
import FreeOnline.Library.Pairing

/-!
# Trails along two pairings

Every vertex has one partner across and one along. A trail goes on to the two in turn. It comes
back to its start, before it meets any other vertex twice.
-/

set_option autoImplicit false

namespace FreeOnline.Library

universe u

variable {Vertex : Type u}

/-- Every vertex has a partner other than itself, whose partner it is. -/
structure Pairing (vertices : List Vertex) (partner : Vertex → Vertex) : Prop where
  inside : ∀ vertex ∈ vertices, partner vertex ∈ vertices
  involutive : ∀ vertex ∈ vertices, partner (partner vertex) = vertex
  different : ∀ vertex ∈ vertices, partner vertex ≠ vertex

/-- The neighbours of a line are partners of each other. -/
theorem pairing_partner [DecidableEq Vertex] {line : List Vertex} (distinct : line.Nodup)
    (even : line.length % 2 = 0) : Pairing line (partner line) := by
  have isPair (vertex : Vertex) (member : vertex ∈ line) := mem_pairs_partner distinct even member
  constructor
  · exact fun vertex member => (mem_of_mem_pairs (isPair vertex member)).2
  · exact fun vertex member =>
      partner_eq distinct even (swap_mem_pairs (isPair vertex member))
  · exact fun vertex member => (ne_of_mem_pairs distinct (isPair vertex member)).symm

theorem Pairing.of_perm {line vertices : List Vertex} {partner : Vertex → Vertex}
    (pairing : Pairing line partner) (isPerm : line.Perm vertices) : Pairing vertices partner where
  inside vertex member := isPerm.mem_iff.mp (pairing.inside vertex (isPerm.mem_iff.mpr member))
  involutive vertex member := pairing.involutive vertex (isPerm.mem_iff.mpr member)
  different vertex member := pairing.different vertex (isPerm.mem_iff.mpr member)

/-- Vertices with all their partners are paired. -/
theorem Pairing.of_subset {vertices left : List Vertex} {partner : Vertex → Vertex}
    (pairing : Pairing vertices partner) (isSubset : ∀ vertex ∈ left, vertex ∈ vertices)
    (closed : ∀ vertex ∈ left, partner vertex ∈ left) : Pairing left partner where
  inside := closed
  involutive vertex member := pairing.involutive vertex (isSubset vertex member)
  different vertex member := pairing.different vertex (isSubset vertex member)

/-- The vertex that was reached, and those before it, the last one first. The next one is along
where the flag is set, and across where it is not. -/
inductive Trail (across along : Vertex → Vertex) (start : Vertex) :
    Bool → Vertex → List Vertex → Prop where
  | start : Trail across along start false start []
  | across {current before} : Trail across along start false current before →
      Trail across along start true (across current) (current :: before)
  | along {current before} : Trail across along start true current before →
      along current ≠ start → Trail across along start false (along current) (current :: before)

/-- What is known of the vertices of a trail. -/
structure TrailKept (vertices : List Vertex) (across along : Vertex → Vertex) (start : Vertex)
    (isAlong : Bool) (current : Vertex) (before : List Vertex) : Prop where
  inside : ∀ vertex ∈ current :: before, vertex ∈ vertices
  distinct : (current :: before).Nodup
  fromStart : start ∈ current :: before
  acrossKept : ∀ vertex ∈ before, across vertex ∈ current :: before ∧
    (across vertex = current → isAlong = true)
  alongKept : ∀ vertex ∈ before, vertex ≠ start → along vertex ∈ current :: before ∧
    (along vertex = current → isAlong = false)
  came : if isAlong then across current ∈ before else current = start ∨ along current ∈ before

section

variable {vertices : List Vertex} {across along : Vertex → Vertex} {start current : Vertex}
  {before : List Vertex}

theorem TrailKept.stepAcross (acrossPairs : Pairing vertices across)
    (kept : TrailKept vertices across along start false current before) :
    TrailKept vertices across along start true (across current) (current :: before) := by
  have isVertex := kept.inside current List.mem_cons_self
  have isNew : across current ∉ current :: before := by
    intro member
    cases List.mem_cons.mp member with
    | inl same => exact acrossPairs.different current isVertex same
    | inr earlier =>
        have wasAlong := (kept.acrossKept _ earlier).2 (acrossPairs.involutive current isVertex)
        cases wasAlong
  constructor
  · intro vertex member
    cases List.mem_cons.mp member with
    | inl same => rw [same]; exact acrossPairs.inside current isVertex
    | inr earlier => exact kept.inside vertex earlier
  · exact List.nodup_cons.mpr ⟨isNew, kept.distinct⟩
  · exact List.mem_cons_of_mem _ kept.fromStart
  · intro vertex member
    refine ⟨?_, fun _ => rfl⟩
    cases List.mem_cons.mp member with
    | inl same => rw [same]; exact List.mem_cons_self
    | inr earlier => exact List.mem_cons_of_mem _ (kept.acrossKept vertex earlier).1
  · intro vertex member notStart
    have isKept : along vertex ∈ current :: before := by
      cases List.mem_cons.mp member with
      | inl same =>
          rw [same] at notStart ⊢
          exact List.mem_cons_of_mem _ (kept.came.resolve_left notStart)
      | inr earlier => exact (kept.alongKept vertex earlier notStart).1
    exact ⟨List.mem_cons_of_mem _ isKept, fun same => absurd (same ▸ isKept) isNew⟩
  · rw [if_pos rfl, acrossPairs.involutive current isVertex]
    exact List.mem_cons_self

theorem TrailKept.stepAlong (alongPairs : Pairing vertices along)
    (kept : TrailKept vertices across along start true current before)
    (notClosed : along current ≠ start) :
    TrailKept vertices across along start false (along current) (current :: before) := by
  have isVertex := kept.inside current List.mem_cons_self
  have isNew : along current ∉ current :: before := by
    intro member
    cases List.mem_cons.mp member with
    | inl same => exact alongPairs.different current isVertex same
    | inr earlier =>
        have wasAcross := (kept.alongKept _ earlier notClosed).2
          (alongPairs.involutive current isVertex)
        cases wasAcross
  constructor
  · intro vertex member
    cases List.mem_cons.mp member with
    | inl same => rw [same]; exact alongPairs.inside current isVertex
    | inr earlier => exact kept.inside vertex earlier
  · exact List.nodup_cons.mpr ⟨isNew, kept.distinct⟩
  · exact List.mem_cons_of_mem _ kept.fromStart
  · intro vertex member
    have isKept : across vertex ∈ current :: before := by
      cases List.mem_cons.mp member with
      | inl same => rw [same]; exact List.mem_cons_of_mem _ kept.came
      | inr earlier => exact (kept.acrossKept vertex earlier).1
    exact ⟨List.mem_cons_of_mem _ isKept, fun same => absurd (same ▸ isKept) isNew⟩
  · intro vertex member notStart
    refine ⟨?_, fun _ => rfl⟩
    cases List.mem_cons.mp member with
    | inl same => rw [same]; exact List.mem_cons_self
    | inr earlier => exact List.mem_cons_of_mem _ (kept.alongKept vertex earlier notStart).1
  · rw [if_neg Bool.false_ne_true, alongPairs.involutive current isVertex]
    exact .inr List.mem_cons_self

theorem Trail.kept (acrossPairs : Pairing vertices across) (alongPairs : Pairing vertices along)
    (isStart : start ∈ vertices) {isAlong : Bool}
    (trail : Trail across along start isAlong current before) :
    TrailKept vertices across along start isAlong current before := by
  induction trail with
  | start =>
      refine ⟨?_, List.nodup_singleton start, List.mem_cons_self, nofun, nofun, ?_⟩
      · intro vertex member
        rw [List.mem_singleton.mp member]
        exact isStart
      · exact .inl rfl
  | across _ ih => exact ih.stepAcross acrossPairs
  | along _ notClosed ih => exact ih.stepAlong alongPairs notClosed

/-- Of a trail that comes back to its start, no vertex has a partner elsewhere. -/
theorem TrailKept.closed (alongPairs : Pairing vertices along)
    (kept : TrailKept vertices across along start true current before)
    (comesBack : along current = start) :
    ∀ vertex ∈ current :: before,
      across vertex ∈ current :: before ∧ along vertex ∈ current :: before := by
  have isVertex := kept.inside current List.mem_cons_self
  intro vertex member
  cases List.mem_cons.mp member with
  | inl same =>
      rw [same, comesBack]
      exact ⟨List.mem_cons_of_mem _ kept.came, kept.fromStart⟩
  | inr earlier =>
      refine ⟨(kept.acrossKept vertex earlier).1, ?_⟩
      by_cases isStart : vertex = start
      · rw [isStart, ← comesBack, alongPairs.involutive current isVertex]
        exact List.mem_cons_self
      · exact (kept.alongKept vertex earlier isStart).1

/-- The first vertex of a trail is its start. -/
theorem Trail.exists_front {isAlong : Bool} (trail : Trail across along start isAlong current before) :
    ∃ front, current :: before = front ++ [start] := by
  induction trail with
  | start => exact ⟨[], rfl⟩
  | @across current before _ ih =>
      obtain ⟨front, isFront⟩ := ih
      exact ⟨across current :: front, by rw [isFront, List.cons_append]⟩
  | @along current before _ _ ih =>
      obtain ⟨front, isFront⟩ := ih
      exact ⟨along current :: front, by rw [isFront, List.cons_append]⟩

/-- Where both partners of the start are one vertex, the trail has no other. -/
theorem Trail.of_same_partner (alongPairs : Pairing vertices along) (isStart : start ∈ vertices)
    (same : across start = along start) {isAlong : Bool}
    (trail : Trail across along start isAlong current before) :
    current = if isAlong then along start else start := by
  induction trail with
  | start => rfl
  | across _ ih =>
      rw [if_neg Bool.false_ne_true] at ih
      rw [ih, if_pos rfl, same]
  | along _ notClosed ih =>
      rw [if_pos rfl] at ih
      rw [ih] at notClosed
      exact absurd (alongPairs.involutive start isStart) notClosed

theorem TrailKept.length_lt {isAlong : Bool}
    (kept : TrailKept vertices across along start isAlong current before) :
    before.length < vertices.length :=
  (List.subperm_of_subset kept.distinct fun vertex => kept.inside vertex).length_le

end

end FreeOnline.Library
