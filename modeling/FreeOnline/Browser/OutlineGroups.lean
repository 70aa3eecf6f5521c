import FreeOnline.Browser.SheetDimension

/-!
# Groups of an outline

The groups of a dimension lie in levels. Those of an element range are found in each level by a
binary search for the first group that does not end before the range.
-/

set_option autoImplicit false

namespace FreeOnline.Browser.SheetGeometry

/-- What the callback of `forEachGroupInRange` is called with. -/
structure GroupCall where
  levelIdx : Nat
  groupIdx : Nat
  groupStart : Int
  groupEnd : Int
  groupHidden : Int
deriving DecidableEq

def OutlineEntry.call (group : OutlineEntry) (levelIdx groupIdx : Nat) : GroupCall :=
  ⟨levelIdx, groupIdx, group.start, group.stop, group.hidden⟩

/-- The first group behind the element, or around it. -/
def groupDirection (elementIdx : Int) (prevGroup : Option OutlineEntry) (curGroup : OutlineEntry) :
    Direction :=
  if elementIdx < curGroup.start then
    match prevGroup with
    | none => .here
    | some prevGroup => if prevGroup.stop < elementIdx then .here else .lower
  else if curGroup.stop < elementIdx then .upper
  else .here

def groupDirectionAt (groups : List OutlineEntry) (elementIdx : Int) (groupIdx : Nat) : Direction :=
  match groups[groupIdx]? with
  | none => .lower
  | some curGroup =>
      groupDirection elementIdx (if groupIdx = 0 then none else groups[groupIdx - 1]?) curGroup

def searchGroups (groups : List OutlineEntry) (elementIdx : Int) : Option Nat :=
  binarySearch (groupDirectionAt groups elementIdx) groups.length false

/-- The loop over the groups of a level, from an index on. -/
def groupCalls (levelIdx : Nat) (stop : Int) : Nat → List OutlineEntry → List GroupCall
  | _, [] => []
  | groupIdx, group :: groups =>
      if stop < group.start then groupCalls levelIdx stop (groupIdx + 1) groups
      else group.call levelIdx groupIdx :: groupCalls levelIdx stop (groupIdx + 1) groups

def levelCalls (levelIdx : Nat) (groupsInLevel : List OutlineEntry) (start stop : Int) :
    List GroupCall :=
  match searchGroups groupsInLevel start with
  | none => []
  | some startGroupIdx =>
      match groupsInLevel[startGroupIdx]? with
      | none => []
      | some startGroup =>
          if stop < startGroup.start then []
          else groupCalls levelIdx stop startGroupIdx (groupsInLevel.drop startGroupIdx)

/-- The loop over the levels, from the last one down. -/
def levelsCalls (outlines : List (List OutlineEntry)) (start stop : Int) : Nat → List GroupCall
  | 0 => []
  | levelIdx + 1 =>
      (match outlines[levelIdx]? with
      | none => []
      | some groupsInLevel => levelCalls levelIdx groupsInLevel start stop) ++
        levelsCalls outlines start stop levelIdx

/-- The calls that `DimensionOutlines.forEachGroupInRange` makes. -/
def forEachGroupInRange (outlines : List (List OutlineEntry)) (start stop : Int) :
    List GroupCall :=
  if outlines = [] ∨ stop < start then [] else levelsCalls outlines start stop outlines.length

/-!
## The groups of a level
-/

/-- The groups of a level are in order and disjoint. -/
structure SortedLevel (groups : List OutlineEntry) : Prop where
  ordered : ∀ group ∈ groups, group.start ≤ group.stop
  disjoint : groups.Pairwise fun group later => group.stop < later.start

def OutlineEntry.Intersects (group : OutlineEntry) (start stop : Int) : Prop :=
  ∃ element, start ≤ element ∧ element ≤ stop ∧ group.start ≤ element ∧ element ≤ group.stop

theorem OutlineEntry.intersects_iff {group : OutlineEntry} {start stop : Int}
    (range : start ≤ stop) (ordered : group.start ≤ group.stop) :
    group.Intersects start stop ↔ start ≤ group.stop ∧ group.start ≤ stop := by
  constructor
  · intro ⟨element, isAbove, isBelow, isBehind, isBefore⟩
    exact ⟨Int.le_trans isAbove isBefore, Int.le_trans isBehind isBelow⟩
  · intro ⟨notBefore, notBehind⟩
    rcases Int.le_total start group.start with inside | inside
    · exact ⟨group.start, inside, notBehind, Int.le_refl _, ordered⟩
    · exact ⟨start, Int.le_refl _, range, inside, notBefore⟩

section

variable {groups : List OutlineEntry} {elementIdx start stop : Int}

/-- Whether a group ends before the element tells the direction, but for the first that does not. -/
theorem groupDirectionAt_upper {groupIdx : Nat} {group : OutlineEntry}
    (sorted : SortedLevel groups) (found : groups[groupIdx]? = some group) :
    groupDirectionAt groups elementIdx groupIdx = .upper ↔ group.stop < elementIdx := by
  have ordered := sorted.ordered group (List.mem_of_getElem? found)
  rw [groupDirectionAt, found]
  dsimp only
  unfold groupDirection
  by_cases before : elementIdx < group.start
  · have notEnded : ¬ group.stop < elementIdx := by omega
    rw [if_pos before]
    refine iff_of_false ?_ notEnded
    split
    · exact nofun
    · split
      · exact nofun
      · exact nofun
  · rw [if_neg before]
    by_cases ended : group.stop < elementIdx
    · rw [if_pos ended]
      exact iff_of_true rfl ended
    · rw [if_neg ended]
      exact iff_of_false nofun ended

theorem SortedLevel.stop_lt (sorted : SortedLevel groups) {groupIdx laterIdx : Nat}
    {group later : OutlineEntry} (before : groupIdx < laterIdx)
    (found : groups[groupIdx]? = some group) (foundLater : groups[laterIdx]? = some later) :
    group.stop < later.start := by
  obtain ⟨inside, rfl⟩ := List.getElem?_eq_some_iff.mp found
  obtain ⟨laterInside, rfl⟩ := List.getElem?_eq_some_iff.mp foundLater
  exact List.pairwise_iff_getElem.mp sorted.disjoint groupIdx laterIdx inside laterInside before

theorem SortedLevel.stop_le (sorted : SortedLevel groups) {groupIdx laterIdx : Nat}
    {group later : OutlineEntry} (notBehind : groupIdx ≤ laterIdx)
    (found : groups[groupIdx]? = some group) (foundLater : groups[laterIdx]? = some later) :
    group.stop ≤ later.stop := by
  rcases Nat.eq_or_lt_of_le notBehind with rfl | before
  · rw [found] at foundLater
    cases foundLater
    exact Int.le_refl _
  · have isBefore := sorted.stop_lt before found foundLater
    have ordered := sorted.ordered later (List.mem_of_getElem? foundLater)
    omega

/-- Behind a group that does not end before the element the search goes down. -/
theorem SortedLevel.descends (sorted : SortedLevel groups) :
    Descends (groupDirectionAt groups elementIdx) groups.length := by
  intro groupIdx laterIdx before inside notUpper
  obtain ⟨later, foundLater⟩ : ∃ later, groups[laterIdx]? = some later :=
    ⟨_, List.getElem?_eq_getElem inside⟩
  obtain ⟨previous, foundPrevious⟩ : ∃ previous, groups[laterIdx - 1]? = some previous :=
    ⟨_, List.getElem?_eq_getElem (by omega)⟩
  obtain ⟨group, found⟩ : ∃ group, groups[groupIdx]? = some group :=
    ⟨_, List.getElem?_eq_getElem (by omega)⟩
  have notEnded : ¬ group.stop < elementIdx :=
    fun ended => notUpper ((groupDirectionAt_upper sorted found).mpr ended)
  have notSooner : group.stop ≤ previous.stop :=
    sorted.stop_le (Nat.le_sub_one_of_lt before) found foundPrevious
  have isBefore : group.stop < later.start := sorted.stop_lt before found foundLater
  have hasPrevious : laterIdx ≠ 0 := Nat.ne_of_gt (Nat.zero_lt_of_lt before)
  rw [groupDirectionAt, foundLater, if_neg hasPrevious, foundPrevious]
  dsimp only
  rw [groupDirection, if_pos (by omega)]
  exact if_neg (by omega)

/-- The first group that does not end before the element matches. -/
theorem groupDirectionAt_here {groupIdx : Nat} {group : OutlineEntry}
    (found : groups[groupIdx]? = some group) (notEnded : ¬ group.stop < elementIdx)
    (endedBefore : ∀ previous, 0 < groupIdx → groups[groupIdx - 1]? = some previous →
      previous.stop < elementIdx) :
    groupDirectionAt groups elementIdx groupIdx = .here := by
  rw [groupDirectionAt, found]
  dsimp only
  unfold groupDirection
  by_cases before : elementIdx < group.start
  · rw [if_pos before]
    by_cases isFirst : groupIdx = 0
    · rw [if_pos isFirst]
    · rw [if_neg isFirst]
      cases previous : groups[groupIdx - 1]? with
      | none => rfl
      | some previousGroup =>
          exact if_pos (endedBefore previousGroup (Nat.pos_of_ne_zero isFirst) previous)
  · rw [if_neg before, if_neg notEnded]

/-- The search finds the first group that does not end before the element. -/
theorem searchGroups_found (sorted : SortedLevel groups) {groupIdx : Nat} {group : OutlineEntry}
    (found : groups[groupIdx]? = some group) (notEnded : ¬ group.stop < elementIdx)
    (endedBefore : ∀ earlierIdx earlier, earlierIdx < groupIdx →
      groups[earlierIdx]? = some earlier → earlier.stop < elementIdx) :
    searchGroups groups elementIdx = some groupIdx := by
  have inside := (List.getElem?_eq_some_iff.mp found).1
  have isHere := groupDirectionAt_here found notEnded fun previous behind isPrevious =>
    endedBefore _ previous (Nat.sub_one_lt_of_lt behind) isPrevious
  exact binarySearch_found sorted.descends inside isHere false

theorem searchGroups_none (sorted : SortedLevel groups)
    (ended : ∀ group ∈ groups, group.stop < elementIdx) :
    searchGroups groups elementIdx = none := by
  refine binarySearch_none (fun groupIdx inside => ?_) false
  have found := List.getElem?_eq_getElem inside
  have isUpper := (groupDirectionAt_upper sorted found).mpr (ended _ (List.getElem_mem inside))
  rw [isUpper]
  exact nofun

/-!
## The calls
-/

theorem mem_groupCalls {levelIdx groupIdx : Nat} {call : GroupCall} :
    call ∈ groupCalls levelIdx stop groupIdx groups ↔
      ∃ (offset : Nat) (group : OutlineEntry), groups[offset]? = some group ∧ group.start ≤ stop ∧
        call = group.call levelIdx (groupIdx + offset) := by
  induction groups generalizing groupIdx with
  | nil => exact iff_of_false List.not_mem_nil (by simp)
  | cons first groups ih =>
      have split : (∃ (offset : Nat) (group : OutlineEntry),
            (first :: groups)[offset]? = some group ∧ group.start ≤ stop ∧
              call = group.call levelIdx (groupIdx + offset)) ↔
          (first.start ≤ stop ∧ call = first.call levelIdx groupIdx) ∨
            ∃ (offset : Nat) (group : OutlineEntry), groups[offset]? = some group ∧
              group.start ≤ stop ∧ call = group.call levelIdx (groupIdx + 1 + offset) := by
        constructor
        · rintro ⟨offset, group, found, notBehind, isCall⟩
          cases offset with
          | zero =>
              cases found
              exact .inl ⟨notBehind, isCall⟩
          | succ offset =>
              rw [← Nat.add_assoc, Nat.add_right_comm] at isCall
              exact .inr ⟨offset, group, found, notBehind, isCall⟩
        · rintro (isCall | ⟨offset, group, found, notBehind, isCall⟩)
          · exact ⟨0, first, rfl, isCall⟩
          · rw [Nat.add_right_comm] at isCall
            exact ⟨offset + 1, group, found, notBehind, isCall⟩
      rw [groupCalls, split]
      by_cases behind : stop < first.start
      · have notFirst : ¬ (first.start ≤ stop ∧ call = first.call levelIdx groupIdx) :=
          fun isFirst => absurd isFirst.1 (Int.not_le.mpr behind)
        rw [if_pos behind, ih, or_iff_right notFirst]
      · rw [if_neg behind, List.mem_cons, ih, and_iff_right (Int.not_lt.mp behind)]

theorem groupCalls_increasing (levelIdx groupIdx : Nat) :
    (groupCalls levelIdx stop groupIdx groups).Pairwise fun call later =>
      call.groupIdx < later.groupIdx := by
  induction groups generalizing groupIdx with
  | nil => exact List.Pairwise.nil
  | cons first groups ih =>
      rw [groupCalls]
      split
      · exact ih (groupIdx + 1)
      · refine List.pairwise_cons.mpr ⟨fun later isLater => ?_, ih (groupIdx + 1)⟩
        obtain ⟨offset, group, -, -, rfl⟩ := mem_groupCalls.mp isLater
        exact Nat.lt_of_lt_of_le (Nat.lt_succ_self groupIdx) (Nat.le_add_right _ offset)

/-- A level gives the groups that end behind the start of the range and start before its end. -/
theorem mem_levelCalls (sorted : SortedLevel groups) {levelIdx : Nat} {call : GroupCall} :
    call ∈ levelCalls levelIdx groups start stop ↔
      ∃ (groupIdx : Nat) (group : OutlineEntry), groups[groupIdx]? = some group ∧ start ≤ group.stop ∧
        group.start ≤ stop ∧ call = group.call levelIdx groupIdx := by
  by_cases someLeft : ∃ (groupIdx : Nat) (group : OutlineEntry),
      groups[groupIdx]? = some group ∧ ¬ group.stop < start
  · classical
    -- The first of the groups that do not end before the range.
    obtain ⟨firstIdx, ⟨first, foundFirst, firstLeft⟩, isFirst⟩ :=
      Nat.findX someLeft
    have endedBefore : ∀ earlierIdx earlier, earlierIdx < firstIdx →
        groups[earlierIdx]? = some earlier → earlier.stop < start := by
      intro earlierIdx earlier before found
      by_contra notEnded
      exact isFirst earlierIdx before ⟨earlier, found, notEnded⟩
    rw [levelCalls, searchGroups_found sorted foundFirst firstLeft endedBefore]
    dsimp only
    rw [foundFirst]
    dsimp only
    have reaches : ∀ groupIdx group, groups[groupIdx]? = some group → start ≤ group.stop →
        firstIdx ≤ groupIdx := by
      intro groupIdx group found notEnded
      by_contra before
      have ended := endedBefore groupIdx group (Nat.lt_of_not_le before) found
      omega
    by_cases behind : stop < first.start
    · rw [if_pos behind]
      refine iff_of_false List.not_mem_nil ?_
      rintro ⟨groupIdx, group, found, notEnded, notBehind, -⟩
      rcases Nat.eq_or_lt_of_le (reaches groupIdx group found notEnded) with rfl | isLater
      · rw [foundFirst] at found
        cases found
        omega
      · have isBefore := sorted.stop_lt isLater foundFirst found
        have ordered := sorted.ordered first (List.mem_of_getElem? foundFirst)
        omega
    · rw [if_neg behind, mem_groupCalls]
      constructor
      · rintro ⟨offset, group, found, notBehind, rfl⟩
        rw [List.getElem?_drop] at found
        have notSooner := sorted.stop_le (Nat.le_add_right firstIdx offset) foundFirst found
        exact ⟨firstIdx + offset, group, found, by omega, notBehind, rfl⟩
      · rintro ⟨groupIdx, group, found, notEnded, notBehind, rfl⟩
        have isLater := reaches groupIdx group found notEnded
        refine ⟨groupIdx - firstIdx, group, ?_, notBehind, ?_⟩
        · rw [List.getElem?_drop, Nat.add_sub_cancel' isLater]
          exact found
        · rw [Nat.add_sub_cancel' isLater]
  · have ended : ∀ group ∈ groups, group.stop < start := by
      intro group member
      obtain ⟨groupIdx, found⟩ := List.mem_iff_getElem?.mp member
      by_contra notEnded
      exact someLeft ⟨groupIdx, group, found, notEnded⟩
    rw [levelCalls, searchGroups_none sorted ended]
    refine iff_of_false List.not_mem_nil ?_
    rintro ⟨groupIdx, group, found, notEnded, -⟩
    exact someLeft ⟨groupIdx, group, found, Int.not_lt.mpr notEnded⟩

theorem levelCalls_increasing (levelIdx : Nat) :
    (levelCalls levelIdx groups start stop).Pairwise fun call later =>
      call.groupIdx < later.groupIdx := by
  unfold levelCalls
  split
  · exact List.Pairwise.nil
  · split
    · exact List.Pairwise.nil
    · split
      · exact List.Pairwise.nil
      · exact groupCalls_increasing levelIdx _

end

section

variable {outlines : List (List OutlineEntry)} {start stop : Int}

theorem mem_levelsCalls (sorted : ∀ groups ∈ outlines, SortedLevel groups) {levels : Nat}
    {call : GroupCall} :
    call ∈ levelsCalls outlines start stop levels ↔
      ∃ (levelIdx : Nat) (groups : List OutlineEntry) (groupIdx : Nat) (group : OutlineEntry),
        levelIdx < levels ∧ outlines[levelIdx]? = some groups ∧
          groups[groupIdx]? = some group ∧ start ≤ group.stop ∧ group.start ≤ stop ∧
          call = group.call levelIdx groupIdx := by
  induction levels with
  | zero => exact iff_of_false List.not_mem_nil (by simp)
  | succ levels ih =>
      rw [levelsCalls, List.mem_append, ih]
      constructor
      · rintro (inLevel | ⟨levelIdx, groups, groupIdx, group, inside, isCall⟩)
        · cases isLevel : outlines[levels]? with
          | none =>
              rw [isLevel] at inLevel
              cases inLevel
          | some groups =>
              rw [isLevel] at inLevel
              obtain ⟨groupIdx, group, isCall⟩ :=
                (mem_levelCalls (sorted groups (List.mem_of_getElem? isLevel))).mp inLevel
              exact ⟨levels, groups, groupIdx, group, Nat.lt_succ_self levels, isLevel, isCall⟩
        · exact ⟨levelIdx, groups, groupIdx, group, Nat.lt_succ_of_lt inside, isCall⟩
      · rintro ⟨levelIdx, groups, groupIdx, group, inside, isLevel, isCall⟩
        rcases Nat.eq_or_lt_of_le (Nat.le_of_lt_succ inside) with rfl | before
        · left
          rw [isLevel]
          exact (mem_levelCalls (sorted groups (List.mem_of_getElem? isLevel))).mpr
            ⟨groupIdx, group, isCall⟩
        · exact .inr ⟨levelIdx, groups, groupIdx, group, before, isLevel, isCall⟩

theorem levelsCalls_nodup (sorted : ∀ groups ∈ outlines, SortedLevel groups) (levels : Nat) :
    (levelsCalls outlines start stop levels).Nodup := by
  induction levels with
  | zero => exact List.nodup_nil
  | succ levels ih =>
      rw [levelsCalls]
      cases isLevel : outlines[levels]? with
      | none => exact ih
      | some groups =>
          have inOrder : (levelCalls levels groups start stop).Nodup :=
            (levelCalls_increasing levels).imp fun less same =>
              absurd (congrArg GroupCall.groupIdx same) (Nat.ne_of_lt less)
          refine List.nodup_append'.mpr ⟨inOrder, ih, ?_⟩
          intro call inLevel inEarlier
          obtain ⟨_, _, -, -, -, isHere⟩ :=
            (mem_levelCalls (sorted groups (List.mem_of_getElem? isLevel))).mp inLevel
          obtain ⟨earlier, _, _, _, before, -, -, -, -, isEarlier⟩ :=
            (mem_levelsCalls sorted).mp inEarlier
          have same : levels = earlier :=
            congrArg GroupCall.levelIdx (isHere.symm.trans isEarlier)
          exact Nat.ne_of_gt before same

/-- The callback is called once for each group that the range intersects. -/
theorem forEachGroupInRange_calls (sorted : ∀ groups ∈ outlines, SortedLevel groups)
    (start stop : Int) :
    (forEachGroupInRange outlines start stop).Nodup ∧
      ∀ call, call ∈ forEachGroupInRange outlines start stop ↔
        ∃ (groups : List OutlineEntry) (group : OutlineEntry),
          outlines[call.levelIdx]? = some groups ∧ groups[call.groupIdx]? = some group ∧
          group.Intersects start stop ∧
          call = group.call call.levelIdx call.groupIdx := by
  rw [forEachGroupInRange]
  by_cases isEmpty : outlines = [] ∨ stop < start
  · rw [if_pos isEmpty]
    refine ⟨List.nodup_nil, fun call => iff_of_false List.not_mem_nil ?_⟩
    rintro ⟨groups, group, isLevel, -, ⟨element, isAbove, isBelow, -⟩, -⟩
    cases isEmpty with
    | inl noLevels =>
        rw [noLevels] at isLevel
        cases isLevel
    | inr noRange => omega
  · have range : start ≤ stop := Int.not_lt.mp (not_or.mp isEmpty).2
    rw [if_neg isEmpty]
    refine ⟨levelsCalls_nodup sorted _, fun call => (mem_levelsCalls sorted).trans ?_⟩
    have intersects {groups : List OutlineEntry} {group : OutlineEntry} {levelIdx groupIdx : Nat}
        (isLevel : outlines[levelIdx]? = some groups) (found : groups[groupIdx]? = some group) :=
      group.intersects_iff range
        ((sorted groups (List.mem_of_getElem? isLevel)).ordered group (List.mem_of_getElem? found))
    constructor
    · rintro ⟨levelIdx, groups, groupIdx, group, -, isLevel, found, notEnded, notBehind, rfl⟩
      exact ⟨groups, group, isLevel, found, (intersects isLevel found).mpr ⟨notEnded, notBehind⟩,
        rfl⟩
    · rintro ⟨groups, group, isLevel, found, meets, isCall⟩
      obtain ⟨notEnded, notBehind⟩ := (intersects isLevel found).mp meets
      exact ⟨call.levelIdx, groups, call.groupIdx, group,
        (List.getElem?_eq_some_iff.mp isLevel).1, isLevel, found, notEnded, notBehind, isCall⟩

end

/-- Rows 2 to 4 and 6 to 8 are grouped, and on the second level rows 6 and 7. -/
def nestedOutlines : List (List OutlineEntry) :=
  [[⟨2, 4, 0, 1⟩, ⟨6, 8, 0, 1⟩], [⟨6, 7, 1, 1⟩]]

theorem forEachGroupInRange_calls_nested :
    (forEachGroupInRange nestedOutlines 5 6).Nodup ∧
      ∀ call, call ∈ forEachGroupInRange nestedOutlines 5 6 ↔
        ∃ (groups : List OutlineEntry) (group : OutlineEntry),
          nestedOutlines[call.levelIdx]? = some groups ∧ groups[call.groupIdx]? = some group ∧
          group.Intersects 5 6 ∧
          call = group.call call.levelIdx call.groupIdx := by
  refine forEachGroupInRange_calls (fun groups member => ?_) 5 6
  rw [nestedOutlines, List.mem_cons, List.mem_singleton] at member
  rcases member with rfl | rfl
  · exact ⟨by simp, by simp⟩
  · exact ⟨by simp, by simp⟩

end FreeOnline.Browser.SheetGeometry
