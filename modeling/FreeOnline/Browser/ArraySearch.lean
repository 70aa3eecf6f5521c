import Mathlib.Data.List.Basic
import FreeOnline.Browser.BinarySearch

/-!
# Binary search in an array

The search asks a function that sees an element and its two neighbours. It may ask about elements
only, while the neighbours of the first and of the last element are missing.
-/

set_option autoImplicit false

namespace FreeOnline.Browser.ArraySearch

universe u v

variable {Key : Type u} {Entry : Type v}

/-- The key, the previous element, the current one and the next one. -/
abbrev DirectionProvider (Key : Type u) (Entry : Type v) :=
  Key → Option Entry → Entry → Option Entry → Direction

def elementAt (array : List Entry) (index : Int) : Option Entry :=
  if index < 0 then none else array[index.toNat]?

section

variable (array : List Entry) (key : Key) (directionProvider : DirectionProvider Key Entry)

/-- What the function says of an element. Without an element it must not be called. -/
def call (previousElement currentElement nextElement : Option Entry) : Option Direction :=
  currentElement.map fun element => directionProvider key previousElement element nextElement

def callAt (index : Int) : Option Direction :=
  call key directionProvider (elementAt array (index - 1)) (elementAt array index)
    (elementAt array (index + 1))

/-- The loop of `_findFirstMatch`, from the index below on. -/
def matchLoop : Nat → Option Int
  | 0 => some 0
  | index + 1 => do
      let direction ← callAt array key directionProvider index
      if direction = .here then matchLoop index else some (index + 1 : Nat)

def findFirstMatch (randomMatchingIndex : Int) : Option Int :=
  if randomMatchingIndex = 0 then some 0
  else matchLoop array key directionProvider randomMatchingIndex.toNat

/-- The bounds and the middle with which the loop ends. -/
def searchLoop : Nat → Int → Int → Int → Option (Int × Int × Int)
  | 0, _, _, _ => none
  | fuel + 1, start, stop, mid =>
      if start ≤ stop then do
        -- the number in the middle, or of two the larger
        let mid := (start + stop + 1) / 2
        let direction ← callAt array key directionProvider mid
        match direction with
        | .here => some (start, stop, mid)
        | .lower => searchLoop fuel start (mid - 1) mid
        | .upper => searchLoop fuel (mid + 1) stop mid
      else some (start, stop, mid)

/-- Nothing comes out where the function is called without an element, or where the loop takes
more steps than there are elements. -/
def binarySearch (firstMatch : Bool) : Option Int :=
  if array = [] then some (-1)
  else do
    let stop : Int := array.length - 1
    let startDir ← call key directionProvider none (elementAt array 0) (elementAt array 1)
    match startDir with
    | .lower => some (-1)
    | .here => some 0
    | .upper =>
        let endDir ← call key directionProvider (elementAt array (stop - 1)) (elementAt array stop)
          none
        match endDir with
        | .upper => some (-1)
        | .here => if firstMatch then findFirstMatch array key directionProvider stop else some stop
        | .lower =>
            let (start, stop, mid) ←
              searchLoop array key directionProvider (array.length + 1) 0 stop (-1)
            if start > stop then some (-1)
            else if firstMatch then findFirstMatch array key directionProvider mid
            else some mid

end

/-- First the elements that lead up, then those that match, then those that lead down. -/
def Monotone (array : List Entry) (key : Key) (directionProvider : DirectionProvider Key Entry) :
    Prop :=
  ∀ (index later : Nat) (direction laterDirection : Direction), index < later →
    callAt array key directionProvider index = some direction →
    callAt array key directionProvider later = some laterDirection →
    (laterDirection = .upper → direction = .upper) ∧ (direction = .lower → laterDirection = .lower)

/-!
## The search by indices
-/

section

variable (array : List Entry) (key : Key) (directionProvider : DirectionProvider Key Entry)

/-- The direction of an index, and any one behind the end. -/
def directions (index : Nat) : Direction :=
  (callAt array key directionProvider index).getD .lower

/-- The index that was found, or -1. -/
def indexOrNone : Option Nat → Int
  | none => -1
  | some index => index

variable {array key directionProvider}

theorem callAt_eq {index : Nat} (inside : index < array.length) :
    callAt array key directionProvider index =
      some (directions array key directionProvider index) := by
  have isElement : elementAt array index = some array[index] := by
    rw [elementAt, if_neg (by omega), Int.toNat_natCast, List.getElem?_eq_getElem inside]
  unfold directions callAt call
  rw [isElement]
  rfl

theorem callAt_none {index : Nat} (outside : array.length ≤ index) :
    callAt array key directionProvider index = none := by
  have noElement : elementAt array index = none := by
    rw [elementAt, if_neg (by omega), Int.toNat_natCast, List.getElem?_eq_none outside]
  unfold callAt call
  rw [noElement]
  rfl

theorem call_first : call key directionProvider none (elementAt array 0) (elementAt array 1) =
    callAt array key directionProvider (0 : Nat) := rfl

theorem call_last {length : Nat} (isLength : array.length = length + 1) :
    call key directionProvider (elementAt array (length - 1)) (elementAt array length) none =
      callAt array key directionProvider length := by
  have noNext : elementAt array (length + 1) = none := by
    rw [elementAt, if_neg (by omega), List.getElem?_eq_none (by omega)]
  rw [callAt, noNext]

theorem matchLoop_eq {index : Nat} (inside : index ≤ array.length) :
    matchLoop array key directionProvider index =
      some (Browser.findFirstMatch (directions array key directionProvider) index : Int) := by
  induction index with
  | zero => rfl
  | succ index ih =>
      rw [matchLoop, callAt_eq inside, Option.bind_eq_bind, Option.bind_some, Browser.findFirstMatch]
      by_cases isHere : directions array key directionProvider index = .here
      · rw [if_pos isHere, if_pos isHere, ih (Nat.le_of_succ_le inside)]
      · rw [if_neg isHere, if_neg isHere]

theorem findFirstMatch_eq {index : Nat} (inside : index ≤ array.length) :
    findFirstMatch array key directionProvider index =
      some (Browser.findFirstMatch (directions array key directionProvider) index : Int) := by
  rw [findFirstMatch]
  split
  · next isZero =>
      cases Int.natCast_eq_zero.mp isZero
      rfl
  · exact matchLoop_eq inside

/-- The loop ends, with the bounds as they were when it found an index, or with crossed ones. -/
theorem searchLoop_eq {fuel : Nat} {start stop mid : Int} (nonneg : 0 ≤ start)
    (bound : stop < array.length) (near : start ≤ stop + 1) (enough : stop - start + 1 < fuel) :
    ∃ lower upper last,
      searchLoop array key directionProvider fuel start stop mid = some (lower, upper, last) ∧
        match Browser.searchLoop (directions array key directionProvider) fuel start stop with
        | none => upper < lower
        | some found => lower ≤ upper ∧ last = found ∧ found < array.length := by
  induction fuel generalizing start stop mid with
  | zero => omega
  | succ fuel ih =>
      rw [searchLoop, Browser.searchLoop]
      by_cases crossed : stop < start
      · rw [if_neg (Int.not_le.mpr crossed), if_pos crossed]
        exact ⟨start, stop, mid, rfl, crossed⟩
      · obtain ⟨index, isMid⟩ : ∃ index : Nat, (start + stop + 1) / 2 = index :=
          ⟨((start + stop + 1) / 2).toNat, by omega⟩
        have inside : index < array.length := by omega
        rw [if_pos (Int.not_lt.mp crossed), if_neg crossed]
        dsimp only
        rw [isMid, Int.toNat_natCast, callAt_eq inside, Option.bind_eq_bind, Option.bind_some]
        cases directions array key directionProvider index with
        | here => exact ⟨start, stop, index, rfl, Int.not_lt.mp crossed, rfl, inside⟩
        | lower => exact ih nonneg (by omega) (by omega) (by omega)
        | upper => exact ih (by omega) bound (by omega) (by omega)

/-- The search in the array is the search by its indices. -/
theorem binarySearch_eq (notEmpty : array ≠ []) (firstMatch : Bool) :
    binarySearch array key directionProvider firstMatch =
      some (indexOrNone (Browser.binarySearch (directions array key directionProvider)
        array.length firstMatch)) := by
  obtain ⟨length, isLength⟩ := Nat.exists_eq_add_one_of_ne_zero
    (Nat.ne_of_gt (List.length_pos_of_ne_nil notEmpty))
  have first {index : Nat} (inside : index ≤ array.length) :
      (if firstMatch then findFirstMatch array key directionProvider index
        else some (index : Int)) =
      some (indexOrNone (some (if firstMatch then
        Browser.findFirstMatch (directions array key directionProvider) index else index))) := by
    cases firstMatch with
    | false => rfl
    | true => exact findFirstMatch_eq inside
  have isStop : (array.length : Int) - 1 = (length : Int) := by omega
  rw [binarySearch, Browser.binarySearch, if_neg notEmpty, if_neg (by omega), call_first,
    callAt_eq (by omega), Option.bind_eq_bind, Option.bind_some, isStop, call_last isLength,
    callAt_eq (by omega), isLength, Nat.add_sub_cancel]
  cases directions array key directionProvider 0 with
  | lower => rfl
  | here => rfl
  | upper =>
      dsimp only
      rw [Option.bind_eq_bind, Option.bind_some]
      cases directions array key directionProvider length with
      | upper => rfl
      | here => exact first (by omega)
      | lower =>
          obtain ⟨lower, upper, last, isEnd, found⟩ := @searchLoop_eq _ _ array key
            directionProvider (length + 1 + 1) 0 length (-1) (Int.le_refl 0) (by omega) (by omega)
            (by omega)
          dsimp only
          rw [isEnd, Option.bind_some]
          cases isFound : Browser.searchLoop (directions array key directionProvider)
              (length + 1 + 1) 0 length with
          | none =>
              rw [isFound] at found
              exact if_pos found
          | some index =>
              rw [isFound] at found
              obtain ⟨inOrder, rfl, inside⟩ := found
              dsimp only
              rw [if_neg (Int.not_lt.mpr inOrder)]
              exact first (Nat.le_of_lt inside)

theorem monotone_iff_falls : Monotone array key directionProvider ↔
    Falls (directions array key directionProvider) array.length := by
  constructor
  · intro monotone index later before inside
    exact monotone index later _ _ before (callAt_eq (Nat.lt_trans before inside))
      (callAt_eq inside)
  · intro falls index later direction laterDirection before isDirection isLater
    by_cases inside : later < array.length
    · rw [callAt_eq (Nat.lt_trans before inside)] at isDirection
      rw [callAt_eq inside] at isLater
      cases isDirection
      cases isLater
      exact falls index later before inside
    · rw [callAt_none (Nat.le_of_not_lt inside)] at isLater
      cases isLater

theorem callAt_eq_here_iff {index : Nat} :
    callAt array key directionProvider index = some .here ↔
      index < array.length ∧ directions array key directionProvider index = .here := by
  by_cases inside : index < array.length
  · rw [callAt_eq inside, Option.some_inj, and_iff_right inside]
  · rw [callAt_none (Nat.le_of_not_lt inside)]
    simp [inside]

end

/-- The search ends and asks about elements only. It finds a match if there is one, and if the
first one is asked for, the first one. -/
theorem binarySearch_finds_match {array : List Entry} {key : Key}
    {directionProvider : DirectionProvider Key Entry} (notEmpty : array ≠ [])
    (monotone : Monotone array key directionProvider) (firstMatch : Bool) :
    ∃ result, binarySearch array key directionProvider firstMatch = some result ∧
      (result = -1 ↔ ∀ index : Nat, callAt array key directionProvider index ≠ some .here) ∧
      (result ≠ -1 → ∃ index : Nat, result = index ∧
        callAt array key directionProvider index = some .here ∧
        (firstMatch = true → ∀ earlier : Nat, earlier < index →
          callAt array key directionProvider earlier ≠ some .here)) := by
  refine ⟨_, binarySearch_eq notEmpty firstMatch, ?_⟩
  cases isFound : Browser.binarySearch (directions array key directionProvider) array.length
      firstMatch with
  | none =>
      refine ⟨⟨fun _ index isHere => ?_, fun _ => rfl⟩, fun notNone => absurd rfl notNone⟩
      obtain ⟨inside, isHere⟩ := callAt_eq_here_iff.mp isHere
      have isSome := binarySearch_isSome (monotone_iff_falls.mp monotone) inside isHere firstMatch
      rw [isFound] at isSome
      cases isSome
  | some index =>
      have isHere := callAt_eq_here_iff.mpr (binarySearch_some isFound)
      refine ⟨⟨fun isNone => ?_, fun notHere => absurd isHere (notHere index)⟩, fun _ => ?_⟩
      · have notNegative := Int.natCast_nonneg index
        rw [indexOrNone] at isNone
        omega
      · refine ⟨index, rfl, isHere, ?_⟩
        rintro rfl earlier before earlierHere
        exact binarySearch_first_match (monotone_iff_falls.mp monotone) isFound before
          (callAt_eq_here_iff.mp earlierHere).2

/-- Which way to go in an array of numbers in ascending order. -/
def towards (key : Int) (_ : Option Int) (element : Int) (_ : Option Int) : Direction :=
  if key = element then .here else if key < element then .lower else .upper

theorem binarySearch_finds_match_numbers :
    ∃ result, binarySearch [1, 4, 4, 4, 9] 4 towards true = some result ∧
      (result = -1 ↔ ∀ index : Nat, callAt [1, 4, 4, 4, 9] 4 towards index ≠ some .here) ∧
      (result ≠ -1 → ∃ index : Nat, result = index ∧
        callAt [1, 4, 4, 4, 9] 4 towards index = some .here ∧
        (true = true → ∀ earlier : Nat, earlier < index →
          callAt [1, 4, 4, 4, 9] 4 towards earlier ≠ some .here)) := by
  have falls : ∀ later < 5, ∀ index < later,
      (directions [1, 4, 4, 4, 9] 4 towards later = .upper →
        directions [1, 4, 4, 4, 9] 4 towards index = .upper) ∧
      (directions [1, 4, 4, 4, 9] 4 towards index = .lower →
        directions [1, 4, 4, 4, 9] 4 towards later = .lower) := by decide
  have monotone : Monotone [1, 4, 4, 4, 9] (4 : Int) towards :=
    monotone_iff_falls.mpr fun index later before inside => falls later inside index before
  exact binarySearch_finds_match (List.cons_ne_nil _ _) monotone true

end FreeOnline.Browser.ArraySearch
