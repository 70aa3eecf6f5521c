import Mathlib.Algebra.Ring.Int.Defs
import Mathlib.Algebra.Ring.Nat
import Mathlib.Data.List.Nodup
import Mathlib.Data.List.Perm.Basic

/-!
# Collections with distinct keys

The contents of a hash map or hash set whose equality looks only at a key of the
entry. The entries stand in a list whose order no operation promises.
-/

set_option autoImplicit false

namespace FreeOnline.Library

universe u v

/-- Entries of which no two have the same key. -/
structure Keyed {Entry : Type u} {Key : Type v} (key : Entry → Key) where
  entries : List Entry
  distinct : (entries.map key).Nodup

namespace Keyed

variable {Entry : Type u} {Key : Type v} {key : Entry → Key}

def empty : Keyed key := ⟨[], by simp⟩

instance : Membership Entry (Keyed key) where
  mem collection entry := entry ∈ collection.entries

theorem mem_def {entry : Entry} {collection : Keyed key} :
    entry ∈ collection ↔ entry ∈ collection.entries := Iff.rfl

@[simp] theorem not_mem_empty (entry : Entry) : entry ∉ (empty : Keyed key) := by
  simp [mem_def, empty]

def filter (collection : Keyed key) (keep : Entry → Bool) : Keyed key where
  entries := collection.entries.filter keep
  distinct := ((List.filter_sublist).map key).nodup collection.distinct

@[simp] theorem mem_filter {collection : Keyed key} {keep : Entry → Bool} {entry : Entry} :
    entry ∈ collection.filter keep ↔ entry ∈ collection ∧ keep entry = true :=
  List.mem_filter

def update (collection : Keyed key) (change : Entry → Entry)
    (same : ∀ entry, key (change entry) = key entry) : Keyed key where
  entries := collection.entries.map change
  distinct := by
    rw [List.map_map, show key ∘ change = key from funext same]
    exact collection.distinct

@[simp] theorem mem_update {collection : Keyed key} {change : Entry → Entry}
    (same : ∀ entry, key (change entry) = key entry) {entry : Entry} :
    entry ∈ collection.update change same ↔ ∃ old ∈ collection, change old = entry :=
  List.mem_map

theorem eq_of_key {collection : Keyed key} {entry other : Entry} (member : entry ∈ collection)
    (otherMember : other ∈ collection) (sameKey : key entry = key other) : entry = other :=
  List.inj_on_of_nodup_map collection.distinct member otherMember sameKey

/-- Without the entries that come first in some order, the others are left. -/
theorem filter_append_perm [DecidableEq Key] (collection : Keyed key) {gone left : List Entry}
    (isOrder : (gone ++ left).Perm collection.entries) :
    (collection.filter fun entry => key entry ∉ gone.map key).entries.Perm left := by
  have distinct := (isOrder.map key).nodup_iff.mpr collection.distinct
  rw [List.map_append, List.nodup_append] at distinct
  have noneGone : gone.filter (fun entry => key entry ∉ gone.map key) = [] := by
    refine List.filter_eq_nil_iff.mpr fun entry member => ?_
    exact fun isLeft => of_decide_eq_true isLeft (List.mem_map_of_mem member)
  have allLeft : left.filter (fun entry => key entry ∉ gone.map key) = left := by
    refine List.filter_eq_self.mpr fun entry member => decide_eq_true fun isGone => ?_
    exact distinct.2.2 _ isGone _ (List.mem_map_of_mem member) rfl
  have filtered := isOrder.symm.filter fun entry => key entry ∉ gone.map key
  rwa [List.filter_append, noneGone, allLeft, List.nil_append] at filtered

/-!
## Sums over the entries
-/

def sum (collection : Keyed key) (size : Entry → Nat) : Nat :=
  (collection.entries.map size).sum

variable {size : Entry → Nat}

theorem sum_filter (collection : Keyed key) (gone : Entry → Bool) :
    ((collection.entries.filter gone).map size).sum +
      (collection.filter fun entry => !gone entry).sum size = collection.sum size := by
  have split := (List.filter_append_perm gone collection.entries).map size
  simpa only [List.map_append, List.sum_append, sum, filter] using split.sum_nat

theorem sum_update_of_eq {collection : Keyed key} {change : Entry → Entry}
    (same : ∀ entry, key (change entry) = key entry)
    (unchanged : ∀ entry, size (change entry) = size entry) :
    (collection.update change same).sum size = collection.sum size := by
  unfold sum update
  rw [List.map_map, show size ∘ change = size from funext unchanged]

/-- The sum moves by what the one entry that is changed does. -/
theorem sum_update {collection : Keyed key} {change : Entry → Entry}
    (same : ∀ entry, key (change entry) = key entry) {entry : Entry} (member : entry ∈ collection)
    (others : ∀ other, key other ≠ key entry → change other = other) :
    (collection.update change same).sum size + size entry =
      collection.sum size + size (change entry) := by
  obtain ⟨before, after, split⟩ := List.append_of_mem member
  have distinct := collection.distinct
  rw [split, List.map_append, List.map_cons, List.nodup_middle, List.nodup_cons,
    List.mem_append, not_or] at distinct
  obtain ⟨⟨notBefore, notAfter⟩, -⟩ := distinct
  have unchanged {entries : List Entry} (absent : key entry ∉ entries.map key) :
      entries.map change = entries := by
    have fixed : ∀ other ∈ entries, change other = id other := by
      intro other otherMember
      refine others other fun sameKey => absent ?_
      rw [← sameKey]
      exact List.mem_map_of_mem otherMember
    rw [List.map_congr_left fixed, List.map_id]
  simp only [sum, update, split, List.map_append, List.map_cons, unchanged notBefore,
    unchanged notAfter, List.sum_append, List.sum_cons]
  omega

/-!
## Looking up an entry
-/

variable [DecidableEq Key]

def find? (collection : Keyed key) (wanted : Key) : Option Entry :=
  collection.entries.find? fun entry => key entry = wanted

theorem find?_some {collection : Keyed key} {wanted : Key} {entry : Entry}
    (found : collection.find? wanted = some entry) :
    entry ∈ collection ∧ key entry = wanted :=
  ⟨List.mem_of_find?_eq_some found, by simpa using List.find?_some found⟩

theorem find?_none {collection : Keyed key} {wanted : Key}
    (missing : collection.find? wanted = none) {entry : Entry} (member : entry ∈ collection) :
    key entry ≠ wanted := by
  simpa using List.find?_eq_none.mp missing entry member

theorem find?_of_mem {collection : Keyed key} {entry : Entry} (member : entry ∈ collection) :
    collection.find? (key entry) = some entry := by
  cases found : collection.find? (key entry) with
  | none => exact absurd rfl (find?_none found member)
  | some other =>
      obtain ⟨otherMember, sameKey⟩ := find?_some found
      rw [eq_of_key otherMember member sameKey]

theorem find?_update (collection : Keyed key) {change : Entry → Entry}
    (same : ∀ entry, key (change entry) = key entry) (wanted : Key) :
    (collection.update change same).find? wanted = (collection.find? wanted).map change := by
  rw [find?, find?, update, List.find?_map]
  congr 2
  funext entry
  rw [Function.comp_apply, same]

theorem find?_eq_some_iff {collection : Keyed key} {wanted : Key} {entry : Entry} :
    collection.find? wanted = some entry ↔ entry ∈ collection ∧ key entry = wanted := by
  constructor
  · exact find?_some
  · intro found
    obtain ⟨member, rfl⟩ := found
    exact find?_of_mem member

def insert (collection : Keyed key) (entry : Entry) : Keyed key :=
  if missing : collection.find? (key entry) = none then
    { entries := collection.entries ++ [entry]
      distinct := by
        rw [List.map_append, List.nodup_append]
        refine ⟨collection.distinct, by simp, ?_⟩
        intro taken takenMember fresh freshMember same
        obtain ⟨old, oldMember, rfl⟩ := List.mem_map.mp takenMember
        have freshKey : fresh = key entry := by simpa using freshMember
        exact find?_none missing oldMember (same.trans freshKey) }
  else collection

theorem mem_insert_new {collection : Keyed key} {added : Entry}
    (missing : collection.find? (key added) = none) {entry : Entry} :
    entry ∈ collection.insert added ↔ entry ∈ collection ∨ entry = added := by
  simp [insert, missing, mem_def]

theorem find?_insert_other {collection : Keyed key} {added : Entry} {wanted : Key}
    (missing : collection.find? (key added) = none) (different : key added ≠ wanted) :
    (collection.insert added).find? wanted = collection.find? wanted := by
  rw [insert, dif_pos missing, find?, find?, List.find?_append,
    List.find?_singleton, if_neg (by simpa using different), Option.or_none]

theorem mem_insert {collection : Keyed key} {added entry : Entry}
    (member : entry ∈ collection.insert added) : entry ∈ collection ∨ entry = added := by
  cases found : collection.find? (key added) with
  | none => exact (mem_insert_new found).mp member
  | some old =>
      refine .inl ?_
      simpa only [insert, found, reduceCtorEq, ↓reduceDIte] using member

theorem sum_insert_new {collection : Keyed key} {added : Entry}
    (missing : collection.find? (key added) = none) :
    (collection.insert added).sum size = collection.sum size + size added := by
  simp [insert, missing, sum]

/-- The entry of the same key becomes this one. -/
def replace (collection : Keyed key) (entry : Entry) : Keyed key :=
  collection.update (fun other => if key other = key entry then entry else other) (by
    intro other
    split
    · next same => exact same.symm
    · rfl)

theorem mem_replace {collection : Keyed key} {old added : Entry} (member : old ∈ collection)
    (same : key old = key added) {entry : Entry} :
    entry ∈ collection.replace added ↔
      (entry ∈ collection ∧ key entry ≠ key added) ∨ entry = added := by
  rw [replace, mem_update]
  constructor
  · rintro ⟨other, otherMember, rfl⟩
    split
    · exact .inr rfl
    · next different => exact .inl ⟨otherMember, different⟩
  · rintro (⟨kept, different⟩ | rfl)
    · exact ⟨entry, kept, if_neg different⟩
    · exact ⟨old, member, if_pos same⟩

end Keyed

end FreeOnline.Library
