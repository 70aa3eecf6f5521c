import Mathlib.Data.Int.Basic

/-!
# Binary search

A search that asks at each index in which direction to go on. Where what comes behind the first
index that does not lead up leads down, it finds the one index that matches.
-/

set_option autoImplicit false

namespace FreeOnline.Browser

/-- What a direction provider says about an index: -1, 0 or 1. -/
inductive Direction where
  | lower
  | here
  | upper
deriving DecidableEq

section

variable (direction : Nat → Direction)

def findFirstMatch : Nat → Nat
  | 0 => 0
  | index + 1 => if direction index = .here then findFirstMatch index else index + 1

/-- The loop of `binarySearch`, between these bounds. -/
def searchLoop : Nat → Int → Int → Option Nat
  | 0, _, _ => none
  | fuel + 1, start, stop =>
      if stop < start then none
      else
        let mid := (start + stop + 1) / 2
        match direction mid.toNat with
        | .here => some mid.toNat
        | .lower => searchLoop fuel start (mid - 1)
        | .upper => searchLoop fuel (mid + 1) stop

def binarySearch (length : Nat) (firstMatch : Bool) : Option Nat :=
  let first (index : Nat) := if firstMatch then findFirstMatch direction index else index
  if length = 0 then none
  else
    match direction 0 with
    | .lower => none
    | .here => some 0
    | .upper =>
        match direction (length - 1) with
        | .upper => none
        | .here => some (first (length - 1))
        | .lower => (searchLoop direction (length + 1) 0 (length - 1)).map first

end

/-- First the indices that lead up, then those that match, then those that lead down. -/
def Falls (direction : Nat → Direction) (length : Nat) : Prop :=
  ∀ index later, index < later → later < length →
    (direction later = .upper → direction index = .upper) ∧
      (direction index = .lower → direction later = .lower)

/-- What leads down stays so, and so does what is behind a match. -/
def Descends (direction : Nat → Direction) (length : Nat) : Prop :=
  ∀ index later, index < later → later < length → direction index ≠ .upper →
    direction later = .lower

section

variable {direction : Nat → Direction} {length : Nat}

/-!
## What is found
-/

theorem findFirstMatch_cases (direction : Nat → Direction) (found : Nat) :
    findFirstMatch direction found = found ∨
      findFirstMatch direction found < found ∧
        direction (findFirstMatch direction found) = .here := by
  induction found with
  | zero => exact .inl rfl
  | succ found ih =>
      rw [findFirstMatch]
      split
      · next isHere =>
          right
          cases ih with
          | inl same => rw [same]; exact ⟨Nat.lt_succ_self found, isHere⟩
          | inr earlier => exact ⟨Nat.lt_succ_of_lt earlier.1, earlier.2⟩
      · exact .inl rfl

theorem findFirstMatch_here {found : Nat} (isHere : direction found = .here) :
    direction (findFirstMatch direction found) = .here := by
  cases findFirstMatch_cases direction found with
  | inl same => rw [same]; exact isHere
  | inr earlier => exact earlier.2

theorem findFirstMatch_le (direction : Nat → Direction) (found : Nat) :
    findFirstMatch direction found ≤ found := by
  cases findFirstMatch_cases direction found with
  | inl same => exact Nat.le_of_eq same
  | inr earlier => exact Nat.le_of_lt earlier.1

/-- The search for the first match ends behind an index that does not match. -/
theorem before_findFirstMatch (direction : Nat → Direction) (found : Nat) {index : Nat}
    (isBefore : index + 1 = findFirstMatch direction found) : direction index ≠ .here := by
  induction found with
  | zero => cases isBefore
  | succ found ih =>
      rw [findFirstMatch] at isBefore
      split at isBefore
      · exact ih isBefore
      · next notHere =>
          cases isBefore
          exact notHere

/-- Nothing in front of a match but behind an index that leads up can be missed. -/
theorem Falls.first (falls : Falls direction length) {found index : Nat} (inside : found < length)
    (isHere : direction found = .here) (before : index < findFirstMatch direction found) :
    direction index ≠ .here := by
  intro indexHere
  obtain ⟨last, isLast⟩ := Nat.exists_eq_add_one_of_ne_zero (Nat.ne_of_gt (Nat.zero_lt_of_lt before))
  have notHere := before_findFirstMatch direction found isLast.symm
  have bound := findFirstMatch_le direction found
  have firstHere := findFirstMatch_here isHere
  -- the last index before leads up, and so must all in front of it
  have lastUpper : direction last = .upper := by
    cases isDirection : direction last with
    | upper => rfl
    | here => exact absurd isDirection notHere
    | lower =>
        have isLower := (falls last (findFirstMatch direction found) (by omega) (by omega)).2
          isDirection
        rw [firstHere] at isLower
        cases isLower
  rcases Nat.lt_or_eq_of_le (Nat.le_of_lt_succ (isLast ▸ before)) with earlier | rfl
  · have isUpper := (falls index last earlier (by omega)).1 lastUpper
    rw [indexHere] at isUpper
    cases isUpper
  · exact notHere indexHere

/-- What the loop finds matches, and is between the bounds. -/
theorem searchLoop_some {fuel found : Nat} {start stop : Int} (nonneg : 0 ≤ start)
    (isFound : searchLoop direction fuel start stop = some found) :
    direction found = .here ∧ start ≤ found ∧ (found : Int) ≤ stop := by
  induction fuel generalizing start stop with
  | zero => cases isFound
  | succ fuel ih =>
      rw [searchLoop] at isFound
      split at isFound
      · cases isFound
      · next goesOn =>
          dsimp only at isFound
          cases isDirection : direction ((start + stop + 1) / 2).toNat with
          | here =>
              rw [isDirection] at isFound
              cases isFound
              exact ⟨isDirection, by omega, by omega⟩
          | lower =>
              rw [isDirection] at isFound
              have isLess := ih nonneg isFound
              exact ⟨isLess.1, isLess.2.1, by omega⟩
          | upper =>
              rw [isDirection] at isFound
              have isMore := ih (by omega) isFound
              exact ⟨isMore.1, by omega, isMore.2.2⟩

/-- The bounds keep a match between them. -/
theorem searchLoop_isSome (falls : Falls direction length) {found : Nat} (inside : found < length)
    (isHere : direction found = .here) {fuel : Nat} {start stop : Int} (nonneg : 0 ≤ start)
    (bound : stop < length) (enough : stop - start + 1 < fuel) (isAbove : start ≤ found)
    (isBelow : found ≤ stop) : (searchLoop direction fuel start stop).isSome := by
  induction fuel generalizing start stop with
  | zero => omega
  | succ fuel ih =>
      have goesOn : ¬ stop < start := by omega
      obtain ⟨mid, isMid⟩ : ∃ mid : Nat, (start + stop + 1) / 2 = mid :=
        ⟨((start + stop + 1) / 2).toNat, by omega⟩
      rw [searchLoop, if_neg goesOn]
      dsimp only
      rw [isMid, Int.toNat_natCast]
      cases isDirection : direction mid with
      | here => rfl
      | lower =>
          have isBehind : found < mid := by
            rcases Nat.lt_trichotomy found mid with behind | rfl | before
            · exact behind
            · rw [isDirection] at isHere; cases isHere
            · have isLower := (falls mid found before inside).2 isDirection
              rw [isHere] at isLower
              cases isLower
          exact ih nonneg (by omega) (by omega) isAbove (by omega)
      | upper =>
          have isBefore : mid < found := by
            rcases Nat.lt_trichotomy found mid with behind | rfl | before
            · have isUpper := (falls found mid behind (by omega)).1 isDirection
              rw [isHere] at isUpper
              cases isUpper
            · rw [isDirection] at isHere; cases isHere
            · exact before
          exact ih (by omega) bound (by omega) (by omega) isBelow

/-- Whatever the order of the directions, what is found matches. -/
theorem binarySearch_some {firstMatch : Bool} {found : Nat}
    (isFound : binarySearch direction length firstMatch = some found) :
    found < length ∧ direction found = .here := by
  have first {index : Nat} (inside : index < length) (isHere : direction index = .here) :
      (if firstMatch then findFirstMatch direction index else index) < length ∧
        direction (if firstMatch then findFirstMatch direction index else index) = .here := by
    cases firstMatch with
    | false => exact ⟨inside, isHere⟩
    | true =>
        exact ⟨Nat.lt_of_le_of_lt (findFirstMatch_le direction index) inside,
          findFirstMatch_here isHere⟩
  rw [binarySearch] at isFound
  split at isFound
  · cases isFound
  · next notEmpty =>
      cases atStart : direction 0 with
      | lower => rw [atStart] at isFound; cases isFound
      | here =>
          rw [atStart] at isFound
          cases isFound
          exact ⟨Nat.pos_of_ne_zero notEmpty, atStart⟩
      | upper =>
          rw [atStart] at isFound
          dsimp only at isFound
          cases atEnd : direction (length - 1) with
          | upper => rw [atEnd] at isFound; cases isFound
          | here =>
              rw [atEnd] at isFound
              cases isFound
              exact first (by omega) atEnd
          | lower =>
              rw [atEnd] at isFound
              obtain ⟨index, inLoop, rfl⟩ := Option.map_eq_some_iff.mp isFound
              have ⟨isHere, _, isBelow⟩ := searchLoop_some (Int.le_refl 0) inLoop
              exact first (by omega) isHere

theorem binarySearch_isSome (falls : Falls direction length) {found : Nat}
    (inside : found < length) (isHere : direction found = .here) (firstMatch : Bool) :
    (binarySearch direction length firstMatch).isSome := by
  have notEmpty : length ≠ 0 := by omega
  rw [binarySearch, if_neg notEmpty]
  cases atStart : direction 0 with
  | here => rfl
  | lower =>
      rcases Nat.eq_zero_or_pos found with rfl | behind
      · rw [isHere] at atStart; cases atStart
      · have isLower := (falls 0 found behind inside).2 atStart
        rw [isHere] at isLower
        cases isLower
  | upper =>
      dsimp only
      cases atEnd : direction (length - 1) with
      | here => rfl
      | upper =>
          rcases Nat.lt_or_eq_of_le (Nat.le_sub_one_of_lt inside) with before | rfl
          · have isUpper := (falls found (length - 1) before (by omega)).1 atEnd
            rw [isHere] at isUpper
            cases isUpper
          · rw [isHere] at atEnd; cases atEnd
      | lower =>
          dsimp only
          rw [Option.isSome_map]
          exact searchLoop_isSome falls inside isHere (Int.le_refl 0) (by omega) (by omega)
            (by omega) (by omega)

/-- Of several matches, the first one is found if that is asked for. -/
theorem binarySearch_first_match (falls : Falls direction length) {found index : Nat}
    (isFound : binarySearch direction length true = some found) (before : index < found) :
    direction index ≠ .here := by
  rw [binarySearch] at isFound
  split at isFound
  · cases isFound
  · next notEmpty =>
      cases atStart : direction 0 with
      | lower => rw [atStart] at isFound; cases isFound
      | here =>
          rw [atStart] at isFound
          cases isFound
          cases before
      | upper =>
          rw [atStart] at isFound
          dsimp only at isFound
          cases atEnd : direction (length - 1) with
          | upper => rw [atEnd] at isFound; cases isFound
          | here =>
              rw [atEnd] at isFound
              cases isFound
              exact falls.first (by omega) atEnd before
          | lower =>
              rw [atEnd] at isFound
              obtain ⟨last, inLoop, rfl⟩ := Option.map_eq_some_iff.mp isFound
              have ⟨isHere, _, isBelow⟩ := searchLoop_some (Int.le_refl 0) inLoop
              exact falls.first (by omega) isHere before

/-!
## One match
-/

theorem Descends.falls (descends : Descends direction length) : Falls direction length := by
  intro index later before inside
  refine ⟨fun isUpper => ?_, fun isLower => descends index later before inside ?_⟩
  · by_contra notUpper
    have isLower := descends index later before inside notUpper
    rw [isUpper] at isLower
    cases isLower
  · rw [isLower]
    exact nofun

theorem Descends.unique (descends : Descends direction length) {index found : Nat}
    (indexInside : index < length) (inside : found < length) (indexHere : direction index = .here)
    (isHere : direction found = .here) : index = found := by
  have notBefore {first second : Nat} (firstHere : direction first = .here)
      (secondInside : second < length) (secondHere : direction second = .here) :
      ¬first < second := by
    intro before
    have isLower := descends first second before secondInside (by rw [firstHere]; exact nofun)
    rw [secondHere] at isLower
    cases isLower
  rcases Nat.lt_trichotomy index found with before | same | behind
  · exact absurd before (notBefore indexHere inside isHere)
  · exact same
  · exact absurd behind (notBefore isHere indexInside indexHere)

theorem binarySearch_first (notEmpty : 0 < length) (isHere : direction 0 = .here)
    (firstMatch : Bool) : binarySearch direction length firstMatch = some 0 := by
  rw [binarySearch, if_neg (Nat.ne_of_gt notEmpty), isHere]

theorem binarySearch_found (descends : Descends direction length) {found : Nat}
    (inside : found < length) (isHere : direction found = .here) (firstMatch : Bool) :
    binarySearch direction length firstMatch = some found := by
  obtain ⟨index, isFound⟩ := Option.isSome_iff_exists.mp
    (binarySearch_isSome descends.falls inside isHere firstMatch)
  obtain ⟨indexInside, indexHere⟩ := binarySearch_some isFound
  rw [isFound, descends.unique indexInside inside indexHere isHere]

theorem binarySearch_none (notHere : ∀ index < length, direction index ≠ .here)
    (firstMatch : Bool) : binarySearch direction length firstMatch = none := by
  cases isFound : binarySearch direction length firstMatch with
  | none => rfl
  | some found =>
      obtain ⟨inside, isHere⟩ := binarySearch_some isFound
      exact absurd isHere (notHere found inside)

end

end FreeOnline.Browser
