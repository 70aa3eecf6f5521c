import FreeOnline.Library.Run
import FreeOnline.Wsd.HostUtil
import Mathlib.Data.List.Induction

/-!
# Stable document keys

The key of a document is the new URI, which depends on the hosts that connected before. It is
stable as long as what they leave in the map of aliases is found by plain members of their own
pattern only.
-/

set_option autoImplicit false

namespace FreeOnline.Wsd

open FreeOnline.Library Std

namespace PocoUri

variable {Uri : Type} (poco : PocoUri Uri)

/-- Where a URI points to. -/
def place (uri : Uri) : Text × Nat × Text :=
  (poco.getHost uri, poco.getPort uri, poco.getAuthority uri)

/-- An authority that is set replaces the place alone, which then depends on the scheme and this
authority, and its own authority leaves a URI as it is. -/
structure Lawful : Prop where
  keeps : ∀ {uri changed : Uri} {value : Text}, poco.setAuthority uri value = some changed →
    poco.getScheme changed = poco.getScheme uri ∧ poco.getPath changed = poco.getPath uri
  congr : ∀ {uri other : Uri} (value : Text), poco.getScheme uri = poco.getScheme other →
    (poco.setAuthority uri value).map poco.place = (poco.setAuthority other value).map poco.place
  roundTrip : ∀ {uri : Uri}, poco.getAuthority uri ≠ [] →
    (poco.setAuthority uri (poco.getAuthority uri)).map poco.place = some (poco.place uri)

end PocoUri

namespace HostUtil

variable {Uri : Type} (poco : PocoUri Uri) (fullMatch : Text → Text → Bool)

def connect (util : HostUtil) (uri : Uri) : HostUtil := (getNewUri poco fullMatch util uri).2

/-!
## Groups
-/

/-- The host of a group and its aliases. -/
def groupUris (group : AliasGroup) : List Uri :=
  match group.host with
  | none => []
  | some uri =>
      if uri = [] then []
      else
        match poco.parse uri with
        | none => []
        | some realUri => realUri :: group.aliases.flatMap (aliasUris poco)

/-- The host of the URI is one of the names of the group, or matches one. -/
def BelongsTo (group : AliasGroup) (uri : Uri) : Prop :=
  ∃ name ∈ groupUris poco group, poco.getHost name = poco.getHost uri ∨
    fullMatch (poco.getHost name) (poco.getHost uri) = true

/-- The URIs differ only in the names of their hosts, which belong to the same group. -/
structure SameGroup (config : Option AliasGroups) (uri other : Uri) : Prop where
  scheme : poco.getScheme uri = poco.getScheme other
  port : poco.getPort uri = poco.getPort other
  path : poco.getPath uri = poco.getPath other
  group : ∃ group ∈ config.elim [] readGroups,
    BelongsTo poco fullMatch group uri ∧ BelongsTo poco fullMatch group other

/-- Equal URIs, and URIs of one group, have the same new URI wherever they are in the sequence. -/
def Stable (config : Option AliasGroups) (uris : List Uri) : Prop :=
  ∀ before uri after, uris = before ++ uri :: after →
    ∀ otherBefore other otherAfter, uris = otherBefore ++ other :: otherAfter →
      uri = other ∨ SameGroup poco fullMatch config uri other →
        (getNewUri poco fullMatch
            (run (connect poco fullMatch) (parseAliases poco config) before) uri).1 =
          (getNewUri poco fullMatch
            (run (connect poco fullMatch) (parseAliases poco config) otherBefore) other).1

/-!
## What is remembered
-/

section Remembering

variable (util : HostUtil)

/-- The URI is no alias, and its host stands in the list under another text, or not at all. -/
structure Stores (uri : Uri) (key : Text) : Prop where
  notAliased : getValue fullMatch util.aliasHosts (poco.getAuthority uri) = []
  isKey : getValueOfSet fullMatch util.hostList (poco.getHost uri) = key
  otherHost : key ≠ poco.getHost uri

/-- With the key in the map the authority would be found there. -/
def Captures (key : Text) (uri : Uri) : Prop :=
  util.aliasHosts[key]? = none ∧
    (key = poco.getAuthority uri ∨
      Precedes fullMatch util.aliasHosts (poco.getAuthority uri) key)

/-- A host without a port that matches the pattern. -/
structure IsMember (key : Text) (uri : Uri) : Prop where
  stores : Stores poco fullMatch util uri key
  hostOnly : poco.getAuthority uri = poco.getHost uri
  notEmpty : poco.getHost uri ≠ []

/-- How the map that is configured resolves two authorities alike. -/
inductive Alike (uri other : Uri) : Prop
  | sameAuthority (same : poco.getAuthority uri = poco.getAuthority other)
  | aliases
      (aliased : getValue fullMatch util.aliasHosts (poco.getAuthority uri) ≠ [])
      (same : getValue fullMatch util.aliasHosts (poco.getAuthority uri) =
        getValue fullMatch util.aliasHosts (poco.getAuthority other))
  | hostAndAlias
      (isHost : getValueOfSet fullMatch util.hostList (poco.getHost uri) = poco.getHost uri)
      (notAliased : getValue fullMatch util.aliasHosts (poco.getAuthority uri) = [])
      (hasAuthority : poco.getAuthority uri ≠ [])
      (isAlias : getValue fullMatch util.aliasHosts (poco.getAuthority other) =
        poco.getAuthority uri)
  | members {key : Text}
      (isMember : IsMember poco fullMatch util key uri ∧ Captures poco fullMatch util key uri)
      (otherMember : IsMember poco fullMatch util key other ∧
        Captures poco fullMatch util key other)

end Remembering

/-- What the URIs before have left is found by no URI but the members of the same pattern. -/
def FindsMembers (configured : HostUtil) (before : List Uri) (uri : Uri) : Prop :=
  ∀ other ∈ before, ∀ key : Text, Stores poco fullMatch configured other key →
    Captures poco fullMatch configured key uri →
      IsMember poco fullMatch configured key uri ∧ poco.getHost other ≠ []

/-- No URI finds what was left for others, and two URIs of one group are resolved alike. -/
structure Resolved (config : Option AliasGroups) (uris : List Uri) : Prop where
  findsMembers : ∀ before uri after, uris = before ++ uri :: after →
    FindsMembers poco fullMatch (parseAliases poco config) before uri
  alike : ∀ uri ∈ uris, ∀ other ∈ uris, SameGroup poco fullMatch config uri other →
    Alike poco fullMatch (parseAliases poco config) uri other ∨
      Alike poco fullMatch (parseAliases poco config) other uri

/-!
## The map that grows
-/

/-- What the URIs leave in the map: an entry is configured, or a URI has stored its host. -/
structure Grown (configured : HostUtil) (uris : List Uri) (util : HostUtil) : Prop where
  mode : util.mode = configured.mode
  hostList : util.hostList = configured.hostList
  within : ∀ (key value : Text), configured.aliasHosts[key]? = some value →
    util.aliasHosts[key]? = some value
  origin : ∀ (key value : Text), util.aliasHosts[key]? = some value →
    configured.aliasHosts[key]? = some value ∨
      configured.aliasHosts[key]? = none ∧
        ∃ uri ∈ uris, Stores poco fullMatch configured uri key ∧ value = poco.getHost uri

/-- A URI that leaves its host in the map. -/
structure Remembers (util : HostUtil) (uri : Uri) : Prop where
  notCompat : iequal util.mode "compat".toList = false
  stores : Stores poco fullMatch util uri (getValueOfSet fullMatch util.hostList (poco.getHost uri))

variable {poco fullMatch}

theorem getValue_of_some {map : TreeMap Text Text} {subject key value : Text}
    (found : matching? fullMatch map subject = some (key, value)) :
    getValue fullMatch map subject = value := by
  rw [getValue, found]
  rfl

theorem getValue_of_none {map : TreeMap Text Text} {subject : Text}
    (notFound : matching? fullMatch map subject = none) : getValue fullMatch map subject = [] := by
  rw [getValue, notFound]
  rfl

theorem connect_of_remembers {util : HostUtil} {uri : Uri}
    (remembers : Remembers poco fullMatch util uri) :
    connect poco fullMatch util uri =
      { util with
        aliasHosts := util.aliasHosts.insertIfNew
          (getValueOfSet fullMatch util.hostList (poco.getHost uri)) (poco.getHost uri) } := by
  unfold connect getNewUri
  rw [if_neg (ne_true_of_eq_false remembers.notCompat),
    if_neg (not_not_intro remembers.stores.notAliased)]
  dsimp only
  rw [if_pos remembers.stores.otherHost]

theorem connect_of_not_remembers {util : HostUtil} {uri : Uri}
    (notRemembers : ¬ Remembers poco fullMatch util uri) :
    connect poco fullMatch util uri = util := by
  unfold connect getNewUri
  split
  · rfl
  · rename_i notCompat
    dsimp only
    split
    · rfl
    · rename_i notAliased
      dsimp only
      split
      · rename_i otherHost
        exact absurd ⟨eq_false_of_ne_true notCompat,
          ⟨not_not.mp notAliased, rfl, otherHost⟩⟩ notRemembers
      · rfl

theorem connect_within (util : HostUtil) (uri : Uri) (key value : Text)
    (isEntry : util.aliasHosts[key]? = some value) :
    (connect poco fullMatch util uri).aliasHosts[key]? = some value := by
  by_cases remembers : Remembers poco fullMatch util uri
  · rw [connect_of_remembers remembers]
    dsimp only
    rw [TreeMap.getElem?_insertIfNew, if_neg, isEntry]
    intro ⟨same, isNew⟩
    rw [Std.LawfulEqCmp.eq_of_compare same] at isNew
    rw [TreeMap.getElem?_eq_none isNew] at isEntry
    cases isEntry
  · rw [connect_of_not_remembers remembers]
    exact isEntry

theorem run_within (util : HostUtil) (uris : List Uri) (key value : Text)
    (isEntry : util.aliasHosts[key]? = some value) :
    (run (connect poco fullMatch) util uris).aliasHosts[key]? = some value := by
  induction uris generalizing util with
  | nil => exact isEntry
  | cons uri uris ih => exact ih _ (connect_within util uri key value isEntry)

namespace Grown

variable {configured util : HostUtil} {before : List Uri} {uri : Uri} {key value : Text}

theorem initially (configured : HostUtil) : Grown poco fullMatch configured [] configured :=
  ⟨rfl, rfl, fun _ _ isEntry => isEntry, fun _ _ isEntry => .inl isEntry⟩

theorem mono (grown : Grown poco fullMatch configured before util) (more : List Uri) :
    Grown poco fullMatch configured (before ++ more) util where
  mode := grown.mode
  hostList := grown.hostList
  within := grown.within
  origin := fun key value isEntry => by
    refine (grown.origin key value isEntry).imp_right ?_
    intro ⟨absent, other, isOther, left⟩
    exact ⟨absent, other, List.mem_append_left more isOther, left⟩

/-- An entry that is found is configured, or the URI is a member of its pattern. -/
theorem found (grown : Grown poco fullMatch configured before util)
    (finds : FindsMembers poco fullMatch configured before uri)
    (found : matching? fullMatch util.aliasHosts (poco.getAuthority uri) = some (key, value)) :
    matching? fullMatch configured.aliasHosts (poco.getAuthority uri) = some (key, value) ∨
      IsMember poco fullMatch configured key uri ∧ value ≠ [] := by
  obtain ⟨isEntry, reason⟩ := matching?_some_iff.mp found
  cases grown.origin key value isEntry with
  | inl isConfigured => exact .inl (matching?_of_within grown.within found isConfigured)
  | inr remembered =>
      obtain ⟨absent, other, isOther, stores, isHost⟩ := remembered
      have captured : Captures poco fullMatch configured key uri :=
        ⟨absent, reason.imp_right (.of_within grown.within)⟩
      rw [isHost]
      exact .inr (finds other isOther key stores captured)

/-- An alias that is configured stays one. -/
theorem getValue_of_aliased (grown : Grown poco fullMatch configured before util)
    (finds : FindsMembers poco fullMatch configured before uri)
    (aliased : getValue fullMatch configured.aliasHosts (poco.getAuthority uri) ≠ []) :
    getValue fullMatch util.aliasHosts (poco.getAuthority uri) =
      getValue fullMatch configured.aliasHosts (poco.getAuthority uri) := by
  cases isFound : matching? fullMatch util.aliasHosts (poco.getAuthority uri) with
  | none =>
      exact absurd (getValue_of_none (matching?_none_of_within grown.within isFound)) aliased
  | some entry =>
      cases grown.found finds isFound with
      | inl isConfigured => rw [getValue_of_some isFound, getValue_of_some isConfigured]
      | inr remembered => exact absurd remembered.1.stores.notAliased aliased

/-- A URI that is a member of no pattern in the map has the value that is configured. -/
theorem getValue_of_not_member (grown : Grown poco fullMatch configured before util)
    (finds : FindsMembers poco fullMatch configured before uri)
    (notAliased : getValue fullMatch configured.aliasHosts (poco.getAuthority uri) = [])
    (notMember : ∀ (key value : Text), util.aliasHosts[key]? = some value →
      ¬ IsMember poco fullMatch configured key uri) :
    getValue fullMatch util.aliasHosts (poco.getAuthority uri) = [] := by
  cases isFound : matching? fullMatch util.aliasHosts (poco.getAuthority uri) with
  | none => exact getValue_of_none isFound
  | some entry =>
      cases grown.found finds isFound with
      | inl isConfigured =>
          rw [getValue_of_some isFound, ← notAliased, getValue_of_some isConfigured]
      | inr remembered =>
          have isEntry := (matching?_some_iff.mp isFound).1
          exact absurd remembered.1 (notMember _ _ isEntry)

theorem connect (grown : Grown poco fullMatch configured before util)
    (finds : FindsMembers poco fullMatch configured before uri) :
    Grown poco fullMatch configured (before ++ [uri]) (connect poco fullMatch util uri) := by
  by_cases remembers : Remembers poco fullMatch util uri
  · have stores : Stores poco fullMatch configured uri
        (getValueOfSet fullMatch util.hostList (poco.getHost uri)) := by
      refine ⟨?_, by rw [grown.hostList], remembers.stores.otherHost⟩
      by_contra aliased
      have unchanged := grown.getValue_of_aliased finds aliased
      rw [remembers.stores.notAliased] at unchanged
      exact aliased unchanged.symm
    refine ⟨?_, ?_, fun key value isEntry => connect_within _ _ _ _ (grown.within _ _ isEntry), ?_⟩
    · rw [connect_of_remembers remembers]
      exact grown.mode
    · rw [connect_of_remembers remembers]
      exact grown.hostList
    · intro key value isEntry
      rw [connect_of_remembers remembers] at isEntry
      dsimp only at isEntry
      rw [TreeMap.getElem?_insertIfNew] at isEntry
      split at isEntry
      · rename_i stored
        obtain ⟨same, isNew⟩ := stored
        have isLast : uri ∈ before ++ [uri] := List.mem_append_right before List.mem_cons_self
        rw [← Std.LawfulEqCmp.eq_of_compare same]
        exact .inr ⟨absent_of_within grown.within (TreeMap.getElem?_eq_none isNew), uri, isLast,
          stores, (Option.some.inj isEntry).symm⟩
      · exact (grown.mono [uri]).origin key value isEntry
  · rw [connect_of_not_remembers remembers]
    exact grown.mono [uri]

theorem run (finds : ∀ first uri rest, before = first ++ uri :: rest →
      FindsMembers poco fullMatch configured first uri) :
    Grown poco fullMatch configured before
      (run (HostUtil.connect poco fullMatch) configured before) := by
  induction before using List.reverseRecOn with
  | nil => exact initially configured
  | append_singleton before uri ih =>
      have grown := ih fun first other rest split => finds first other (rest ++ [uri]) (by
        rw [split, List.append_assoc, List.cons_append])
      rw [Library.run, List.foldl_append]
      exact grown.connect (finds before uri [] rfl)

end Grown

/-!
## New URIs
-/

variable (poco) in
/-- The new URI for a value that has been looked up. -/
def answer (value : Text) (uri : Uri) : Option Text :=
  if value ≠ [] then (poco.setAuthority uri value).map (written poco) else some (written poco uri)

theorem getNewUri_answer {util : HostUtil} {uri : Uri}
    (notCompat : iequal util.mode "compat".toList = false) :
    (getNewUri poco fullMatch util uri).1 =
      answer poco (getValue fullMatch util.aliasHosts (poco.getAuthority uri)) uri := by
  unfold getNewUri answer
  rw [if_neg (ne_true_of_eq_false notCompat)]
  dsimp only
  split <;> rfl

theorem written_congr {uri other : Uri} (sameScheme : poco.getScheme uri = poco.getScheme other)
    (samePath : poco.getPath uri = poco.getPath other)
    (samePlace : poco.place uri = poco.place other) : written poco uri = written poco other := by
  obtain ⟨sameHost, rest⟩ := Prod.mk.inj samePlace
  obtain ⟨samePort, sameAuthority⟩ := Prod.mk.inj rest
  unfold written
  rw [sameScheme, samePath, sameHost, samePort, sameAuthority]

section Lawful

variable (lawful : poco.Lawful) {uri other : Uri} {value : Text}

include lawful

theorem answer_congr (sameScheme : poco.getScheme uri = poco.getScheme other)
    (samePath : poco.getPath uri = poco.getPath other) (notEmpty : value ≠ []) :
    answer poco value uri = answer poco value other := by
  have samePlace := lawful.congr value sameScheme
  unfold answer
  rw [if_pos notEmpty, if_pos notEmpty]
  cases isSet : poco.setAuthority uri value with
  | none =>
      cases otherSet : poco.setAuthority other value with
      | none => rfl
      | some changedOther =>
          rw [isSet, otherSet] at samePlace
          cases samePlace
  | some changed =>
      cases otherSet : poco.setAuthority other value with
      | none =>
          rw [isSet, otherSet] at samePlace
          cases samePlace
      | some changedOther =>
          rw [isSet, otherSet] at samePlace
          obtain ⟨keptScheme, keptPath⟩ := lawful.keeps isSet
          obtain ⟨keptOtherScheme, keptOtherPath⟩ := lawful.keeps otherSet
          have same : written poco changed = written poco changedOther :=
            written_congr (by rw [keptScheme, keptOtherScheme, sameScheme])
              (by rw [keptPath, keptOtherPath, samePath]) (Option.some.inj samePlace)
          exact congrArg some same

/-- The authority of a URI is not worth replacing by itself. -/
theorem answer_authority (hasAuthority : poco.getAuthority uri ≠ []) :
    answer poco (poco.getAuthority uri) uri = answer poco [] uri := by
  have samePlace := lawful.roundTrip hasAuthority
  unfold answer
  rw [if_pos hasAuthority, if_neg (not_not_intro rfl)]
  cases isSet : poco.setAuthority uri (poco.getAuthority uri) with
  | none =>
      rw [isSet] at samePlace
      cases samePlace
  | some changed =>
      rw [isSet] at samePlace
      obtain ⟨keptScheme, keptPath⟩ := lawful.keeps isSet
      exact congrArg some (written_congr keptScheme keptPath (Option.some.inj samePlace))

theorem place_congr (sameScheme : poco.getScheme uri = poco.getScheme other)
    (sameAuthority : poco.getAuthority uri = poco.getAuthority other)
    (hasAuthority : poco.getAuthority uri ≠ []) : poco.place uri = poco.place other := by
  have samePlace := lawful.congr (poco.getAuthority uri) sameScheme
  rw [lawful.roundTrip hasAuthority, sameAuthority,
    lawful.roundTrip (sameAuthority ▸ hasAuthority)] at samePlace
  exact Option.some.inj samePlace

theorem answer_congr_of_sameAuthority
    (sameScheme : poco.getScheme uri = poco.getScheme other)
    (samePath : poco.getPath uri = poco.getPath other)
    (sameAuthority : poco.getAuthority uri = poco.getAuthority other) :
    answer poco value uri = answer poco value other := by
  by_cases notEmpty : value ≠ []
  · exact answer_congr lawful sameScheme samePath notEmpty
  · rw [not_not.mp notEmpty]
    by_cases hasAuthority : poco.getAuthority uri ≠ []
    · rw [← answer_authority lawful hasAuthority,
        ← answer_authority lawful (sameAuthority ▸ hasAuthority), ← sameAuthority]
      exact answer_congr lawful sameScheme samePath hasAuthority
    · have noAuthority := not_not.mp hasAuthority
      unfold answer written
      rw [← sameAuthority, noAuthority, samePath]
      rfl

end Lawful

/-!
## Two calls
-/

section Calls

variable {configured util later : HostUtil} {before laterBefore : List Uri} {uri other : Uri}
  {key value : Text}

theorem IsMember.key_unique {otherKey : Text}
    (isMember : IsMember poco fullMatch configured key uri)
    (isOther : IsMember poco fullMatch configured otherKey uri) : key = otherKey := by
  rw [← isMember.stores.isKey, ← isOther.stores.isKey]

/-- What is found of a member is found by the key of its pattern. -/
theorem getValue_of_member (grown : Grown poco fullMatch configured before util)
    (finds : FindsMembers poco fullMatch configured before uri)
    (isMember : IsMember poco fullMatch configured key uri)
    (captured : Captures poco fullMatch configured key uri)
    (isEntry : util.aliasHosts[key]? = some value) :
    getValue fullMatch util.aliasHosts (poco.getAuthority uri) = value := by
  obtain ⟨absent, reason⟩ := captured
  cases reason with
  | inl same =>
      exact getValue_of_some (matching?_some_iff.mpr ⟨isEntry, .inl same⟩)
  | inr precedes =>
      cases isFound : matching? fullMatch util.aliasHosts (poco.getAuthority uri) with
      | none =>
          have noneFits := (matching?_none_iff.mp isFound).2 key value isEntry
          rw [precedes.isFit] at noneFits
          cases noneFits
      | some entry =>
          rw [getValue_of_some isFound]
          obtain ⟨isFoundEntry, foundReason⟩ := matching?_some_iff.mp isFound
          have sameKey : entry.1 = key := by
            cases grown.found finds isFound with
            | inr remembered => exact remembered.1.key_unique isMember
            | inl isConfigured =>
                obtain ⟨configuredEntry, configuredReason⟩ := matching?_some_iff.mp isConfigured
                have notSame : entry.1 ≠ poco.getAuthority uri := by
                  intro same
                  rw [same, precedes.absent] at configuredEntry
                  cases configuredEntry
                have notAfter := (foundReason.resolve_left notSame).first key value isEntry
                  precedes.isFit
                have notBefore := precedes.first entry.1 entry.2 configuredEntry
                  (configuredReason.resolve_left notSame).isFit
                exact Std.LawfulEqCmp.eq_of_compare
                  (Std.OrientedCmp.isLE_antisymm (Ordering.isLE_iff_ne_gt.mpr notAfter)
                    (Ordering.isLE_iff_ne_gt.mpr notBefore))
          rw [sameKey, isEntry] at isFoundEntry
          exact (Option.some.inj isFoundEntry).symm

/-- A member of a pattern is remembered, unless another one has been. -/
theorem remembers_of_member (grown : Grown poco fullMatch configured before util)
    (finds : FindsMembers poco fullMatch configured before uri)
    (notCompat : iequal configured.mode "compat".toList = false)
    (isMember : IsMember poco fullMatch configured key uri)
    (isNew : util.aliasHosts[key]? = none) : Remembers poco fullMatch util uri := by
  have notAliased : getValue fullMatch util.aliasHosts (poco.getAuthority uri) = [] := by
    refine grown.getValue_of_not_member finds isMember.stores.notAliased ?_
    intro otherKey value isEntry isOther
    rw [isOther.key_unique isMember, isNew] at isEntry
    cases isEntry
  refine ⟨by rw [grown.mode, notCompat], notAliased, rfl, ?_⟩
  rw [grown.hostList, isMember.stores.isKey]
  exact isMember.stores.otherHost

theorem connect_of_member (grown : Grown poco fullMatch configured before util)
    (remembers : Remembers poco fullMatch util uri)
    (isMember : IsMember poco fullMatch configured key uri)
    (isNew : util.aliasHosts[key]? = none) :
    (connect poco fullMatch util uri).aliasHosts[key]? = some (poco.getHost uri) := by
  rw [connect_of_remembers remembers, grown.hostList, isMember.stores.isKey]
  dsimp only
  rw [TreeMap.getElem?_insertIfNew, if_pos]
  exact ⟨Std.ReflCmp.compare_self, fun isThere => by
    rw [TreeMap.mem_iff_isSome_getElem?, isNew] at isThere
    cases isThere⟩

variable (lawful : poco.Lawful)
  (notCompat : iequal configured.mode "compat".toList = false)
  (grown : Grown poco fullMatch configured before util)
  (finds : FindsMembers poco fullMatch configured before uri)
  (grownLater : Grown poco fullMatch configured laterBefore later)
  (findsLater : FindsMembers poco fullMatch configured laterBefore other)
  (within : ∀ (key value : Text), (connect poco fullMatch util uri).aliasHosts[key]? = some value →
    later.aliasHosts[key]? = some value)

include lawful notCompat grown finds within

/-- A call leaves the host under the pattern of a member that its answer has. -/
theorem answer_of_member (isMember : IsMember poco fullMatch configured key uri)
    (captured : Captures poco fullMatch configured key uri) :
    ∃ host, host ≠ [] ∧ later.aliasHosts[key]? = some host ∧
      answer poco (getValue fullMatch util.aliasHosts (poco.getAuthority uri)) uri =
        answer poco host uri := by
  cases isThere : util.aliasHosts[key]? with
  | some host =>
      have isValue := getValue_of_member grown finds isMember captured isThere
      refine ⟨host, ?_, within _ _ (connect_within _ _ _ _ isThere), by rw [isValue]⟩
      cases grown.origin key host isThere with
      | inl isConfigured =>
          rw [captured.1] at isConfigured
          cases isConfigured
      | inr remembered =>
          obtain ⟨-, first, isFirst, stores, isHost⟩ := remembered
          rw [isHost]
          exact (finds first isFirst key stores captured).2
  | none =>
      -- This URI is the one that is found from now on.
      have remembers := remembers_of_member grown finds notCompat isMember isThere
      have hasAuthority : poco.getAuthority uri ≠ [] := isMember.hostOnly ▸ isMember.notEmpty
      refine ⟨poco.getHost uri, isMember.notEmpty,
        within _ _ (connect_of_member grown remembers isMember isThere), ?_⟩
      rw [remembers.stores.notAliased, ← isMember.hostOnly, answer_authority lawful hasAuthority]

include grownLater findsLater

theorem answer_of_members (sameScheme : poco.getScheme uri = poco.getScheme other)
    (samePath : poco.getPath uri = poco.getPath other)
    (isMember : IsMember poco fullMatch configured key uri ∧
      Captures poco fullMatch configured key uri)
    (otherMember : IsMember poco fullMatch configured key other ∧
      Captures poco fullMatch configured key other) :
    answer poco (getValue fullMatch util.aliasHosts (poco.getAuthority uri)) uri =
      answer poco (getValue fullMatch later.aliasHosts (poco.getAuthority other)) other := by
  obtain ⟨host, notEmpty, isEntry, isAnswer⟩ :=
    answer_of_member lawful notCompat grown finds within isMember.1 isMember.2
  rw [isAnswer, getValue_of_member grownLater findsLater otherMember.1 otherMember.2 isEntry]
  exact answer_congr lawful sameScheme samePath notEmpty

/-- URIs with the same authority have the same answer, if it is not found later on only. -/
theorem answer_of_sameAuthority (sameScheme : poco.getScheme uri = poco.getScheme other)
    (samePath : poco.getPath uri = poco.getPath other)
    (same : poco.getAuthority uri = poco.getAuthority other) :
    answer poco (getValue fullMatch util.aliasHosts (poco.getAuthority uri)) uri =
      answer poco (getValue fullMatch later.aliasHosts (poco.getAuthority other)) other := by
  have before := fun key value isEntry => within key value (connect_within util uri key value isEntry)
  have sameValue (isValue : getValue fullMatch util.aliasHosts (poco.getAuthority uri) =
      getValue fullMatch later.aliasHosts (poco.getAuthority other)) :
      answer poco (getValue fullMatch util.aliasHosts (poco.getAuthority uri)) uri =
        answer poco (getValue fullMatch later.aliasHosts (poco.getAuthority other)) other := by
    rw [isValue]
    exact answer_congr_of_sameAuthority lawful sameScheme samePath same
  cases isFound : matching? fullMatch later.aliasHosts (poco.getAuthority other) with
  | none =>
      refine sameValue ?_
      rw [same, getValue_of_none isFound, getValue_of_none (matching?_none_of_within before isFound)]
  | some entry =>
      have isEntry := (matching?_some_iff.mp isFound).1
      have stays (isThere : util.aliasHosts[entry.1]? = some entry.2) :
          getValue fullMatch util.aliasHosts (poco.getAuthority uri) =
            getValue fullMatch later.aliasHosts (poco.getAuthority other) := by
        rw [same, getValue_of_some isFound,
          getValue_of_some (matching?_of_within before isFound isThere)]
      cases grownLater.found findsLater isFound with
      | inl isConfigured =>
          exact sameValue (stays (grown.within _ _ (matching?_some_iff.mp isConfigured).1))
      | inr remembered =>
          cases isThere : util.aliasHosts[entry.1]? with
          | some value =>
              have sameEntry := before _ _ isThere
              rw [isEntry] at sameEntry
              exact sameValue (stays (by rw [isThere, Option.some.inj sameEntry]))
          | none =>
              obtain ⟨otherMember, notEmpty⟩ := remembered
              have hasAuthority : poco.getAuthority uri ≠ [] := by
                rw [same, otherMember.hostOnly]
                exact otherMember.notEmpty
              have sameHost : poco.getHost uri = poco.getHost other :=
                (Prod.mk.inj (place_congr lawful sameScheme same hasAuthority)).1
              have isMember : IsMember poco fullMatch configured entry.1 uri := by
                obtain ⟨⟨notAliased, isKey, otherHost⟩, hostOnly, isHost⟩ := otherMember
                rw [← sameHost] at isKey otherHost hostOnly isHost
                rw [← same] at notAliased hostOnly
                exact ⟨⟨notAliased, isKey, otherHost⟩, hostOnly, isHost⟩
              have remembers := remembers_of_member grown finds notCompat isMember isThere
              have isHost := within _ _ (connect_of_member grown remembers isMember isThere)
              rw [isEntry, ← isMember.hostOnly] at isHost
              rw [remembers.stores.notAliased, getValue_of_some isFound, Option.some.inj isHost,
                ← answer_authority lawful hasAuthority]
              exact answer_congr lawful sameScheme samePath hasAuthority

end Calls

/-!
## Stability
-/

/-!
## URIs without ports
-/

structure PlainUri where
  scheme : Text
  host : Text
  path : Text

def plainUri : PocoUri PlainUri where
  parse text :=
    let rest := (text.dropWhile (· ≠ ':')).drop 3
    some ⟨text.takeWhile (· ≠ ':'), rest.takeWhile fun ch => ch ≠ ':' && ch ≠ '/',
      rest.dropWhile (· ≠ '/')⟩
  isEmpty uri := uri.scheme.isEmpty && uri.host.isEmpty && uri.path.isEmpty
  getScheme := PlainUri.scheme
  getHost := PlainUri.host
  getPort uri := if uri.scheme = "https".toList then 443 else 0
  getAuthority := PlainUri.host
  getPath := PlainUri.path
  setAuthority uri value := some { uri with host := value }

theorem plainUri_lawful : plainUri.Lawful where
  keeps := fun isSet => Option.some.inj isSet ▸ ⟨rfl, rfl⟩
  congr := fun value sameScheme =>
    congrArg (fun scheme : Text =>
      some (value, (if scheme = "https".toList then 443 else 0), value)) sameScheme
  roundTrip := fun _ => rfl

/-- A pattern in which a dot stands for any character. -/
def dots (pattern subject : Text) : Bool :=
  pattern.length = subject.length &&
    (pattern.zip subject).all fun pair => pair.1 = '.' || pair.1 = pair.2

def dottedGroup : Option AliasGroups :=
  some ⟨"groups".toList, [⟨some "https://h.".toList, []⟩]⟩

def dottedHost (digit : Char) : PlainUri := ⟨"https".toList, ['h', digit], "/doc".toList⟩

theorem dottedHost_member {digit : Char} (notDot : digit ≠ '.') :
    IsMember plainUri dots (parseAliases plainUri dottedGroup) "h.".toList (dottedHost digit) := by
  have otherHost : "h.".toList ≠ plainUri.getHost (dottedHost digit) := by
    intro same
    cases same
    exact notDot rfl
  have isHosts : (parseAliases plainUri dottedGroup).hostList.toList = ["h.".toList] := rfl
  have notHost : plainUri.getHost (dottedHost digit) ∉
      (parseAliases plainUri dottedGroup).hostList := by
    rw [← TreeSet.mem_toList, isHosts]
    exact fun isThere => otherHost (List.mem_singleton.mp isThere).symm
  refine ⟨⟨rfl, ?_, otherHost⟩, rfl, fun isEmpty => by cases isEmpty⟩
  rw [getValueOfSet, if_neg notHost, isHosts]
  rfl

theorem dottedHost_captured {digit : Char} :
    Captures plainUri dots (parseAliases plainUri dottedGroup) "h.".toList (dottedHost digit) := by
  refine ⟨by decide, .inr ⟨?_, ?_, ?_⟩⟩
  · rfl
  · rfl
  · intro other value isEntry
    have isEmpty : (parseAliases plainUri dottedGroup).aliasHosts = ∅ := rfl
    rw [isEmpty, TreeMap.getElem?_emptyc] at isEntry
    cases isEntry

theorem getNewUri_compat {util : HostUtil} {uri : Uri}
    (compat : iequal util.mode "compat".toList = true) :
    getNewUri poco fullMatch util uri = (some (poco.getPath uri), util) := by
  rw [getNewUri, if_pos compat]

theorem run_compat {util : HostUtil} (compat : iequal util.mode "compat".toList = true)
    (uris : List Uri) : run (connect poco fullMatch) util uris = util := by
  induction uris with
  | nil => rfl
  | cons uri uris ih =>
      have unchanged : connect poco fullMatch util uri = util := by
        rw [connect, getNewUri_compat compat]
      rw [run, List.foldl_cons, unchanged]
      exact ih

section Stability

variable {config : Option AliasGroups} {uris before after otherBefore otherAfter : List Uri}
  {uri other : Uri}

theorem run_later (util : HostUtil) (between : List Uri) :
    ∀ (key value : Text),
      (connect poco fullMatch (run (connect poco fullMatch) util before) uri).aliasHosts[key]? =
        some value →
      (run (connect poco fullMatch) util (before ++ uri :: between)).aliasHosts[key]? =
        some value := by
  intro key value isEntry
  rw [run, List.foldl_append]
  exact run_within _ between key value isEntry

variable (lawful : poco.Lawful) (resolved : Resolved poco fullMatch config uris)
  (notCompat : iequal (parseAliases poco config).mode "compat".toList = false)
  (split : uris = before ++ uri :: after)
  (otherSplit : uris = otherBefore ++ other :: otherAfter)

include resolved

theorem grown_before (split : uris = before ++ uri :: after) :
    Grown poco fullMatch (parseAliases poco config) before
      (run (connect poco fullMatch) (parseAliases poco config) before) :=
  .run fun first next rest isBefore => resolved.findsMembers first next (rest ++ uri :: after) (by
    rw [split, isBefore, List.append_assoc, List.cons_append])

include lawful notCompat split otherSplit

/-- The answers are the same wherever the two URIs are, whichever of them comes first. -/
theorem answer_of_alike (sameScheme : poco.getScheme uri = poco.getScheme other)
    (samePath : poco.getPath uri = poco.getPath other)
    (alike : Alike poco fullMatch (parseAliases poco config) uri other) :
    answer poco (getValue fullMatch
        (run (connect poco fullMatch) (parseAliases poco config) before).aliasHosts
        (poco.getAuthority uri)) uri =
      answer poco (getValue fullMatch
        (run (connect poco fullMatch) (parseAliases poco config) otherBefore).aliasHosts
        (poco.getAuthority other)) other := by
  have grown := grown_before resolved split
  have otherGrown := grown_before resolved otherSplit
  have finds := resolved.findsMembers before uri after split
  have otherFinds := resolved.findsMembers otherBefore other otherAfter otherSplit
  cases alike with
  | sameAuthority same =>
      obtain ⟨rfl, rfl⟩ | ⟨between, rfl⟩ | ⟨between, rfl⟩ :=
        split_cases (split.symm.trans otherSplit)
      · rfl
      · exact answer_of_sameAuthority lawful notCompat grown finds otherGrown otherFinds
          (run_later _ between) sameScheme samePath same
      · exact (answer_of_sameAuthority lawful notCompat otherGrown otherFinds grown finds
          (run_later _ between) sameScheme.symm samePath.symm same.symm).symm
  | aliases aliased same =>
      rw [grown.getValue_of_aliased finds aliased,
        otherGrown.getValue_of_aliased otherFinds (same ▸ aliased), ← same]
      exact answer_congr lawful sameScheme samePath aliased
  | hostAndAlias isHost notAliased hasAuthority isAlias =>
      have isNone := grown.getValue_of_not_member finds notAliased fun key value _ isMember =>
        isMember.stores.otherHost (isMember.stores.isKey.symm.trans isHost)
      have aliased : getValue fullMatch (parseAliases poco config).aliasHosts
          (poco.getAuthority other) ≠ [] := by
        rw [isAlias]
        exact hasAuthority
      rw [isNone, otherGrown.getValue_of_aliased otherFinds aliased, isAlias,
        ← answer_authority lawful hasAuthority]
      exact answer_congr lawful sameScheme samePath hasAuthority
  | members isMember otherMember =>
      obtain ⟨rfl, rfl⟩ | ⟨between, rfl⟩ | ⟨between, rfl⟩ :=
        split_cases (split.symm.trans otherSplit)
      · rfl
      · exact answer_of_members lawful notCompat grown finds otherGrown otherFinds
          (run_later _ between) sameScheme samePath isMember otherMember
      · exact (answer_of_members lawful notCompat otherGrown otherFinds grown finds
          (run_later _ between) sameScheme.symm samePath.symm otherMember isMember).symm

end Stability

theorem stable_of_resolved {config : Option AliasGroups} {uris : List Uri} (lawful : poco.Lawful)
    (resolved : Resolved poco fullMatch config uris) : Stable poco fullMatch config uris := by
  intro before uri after split otherBefore other otherAfter otherSplit reason
  have asked : uri ∈ uris := split ▸ List.mem_append_right before List.mem_cons_self
  have otherAsked : other ∈ uris :=
    otherSplit ▸ List.mem_append_right otherBefore List.mem_cons_self
  cases isCompat : iequal (parseAliases poco config).mode "compat".toList with
  | true =>
      rw [run_compat isCompat, run_compat isCompat, getNewUri_compat isCompat,
        getNewUri_compat isCompat]
      cases reason with
      | inl same => rw [same]
      | inr sameGroup => rw [sameGroup.path]
  | false =>
      have notCompat := (grown_before resolved split).mode
      have otherNotCompat := (grown_before resolved otherSplit).mode
      rw [getNewUri_answer (by rw [notCompat, isCompat]),
        getNewUri_answer (by rw [otherNotCompat, isCompat])]
      cases reason with
      | inl same =>
          rw [← same] at otherSplit ⊢
          exact answer_of_alike lawful resolved isCompat split otherSplit rfl rfl
            (.sameAuthority rfl)
      | inr sameGroup =>
          cases resolved.alike uri asked other otherAsked sameGroup with
          | inl alike =>
              exact answer_of_alike lawful resolved isCompat split otherSplit
                sameGroup.scheme sameGroup.path alike
          | inr alike =>
              exact (answer_of_alike lawful resolved isCompat otherSplit split
                sameGroup.scheme.symm sameGroup.path.symm alike).symm

/-- Two hosts that match the pattern of a group, the first of which asks again. -/
theorem stable_dottedHosts : Stable plainUri dots dottedGroup
    (['1', '2', '1'].map dottedHost) := by
  have notDot : ∀ digit ∈ ['1', '2', '1'], digit ≠ '.' := by simp
  refine stable_of_resolved plainUri_lawful ⟨?_, ?_⟩
  · intro before uri after split other isOther key stores _
    have asked : uri ∈ before ++ uri :: after := List.mem_append_right before List.mem_cons_self
    have otherAsked : other ∈ before ++ uri :: after := List.mem_append_left _ isOther
    rw [← split] at asked otherAsked
    obtain ⟨digit, isDigit, rfl⟩ := List.mem_map.mp asked
    obtain ⟨otherDigit, otherIsDigit, rfl⟩ := List.mem_map.mp otherAsked
    have otherMember := dottedHost_member (notDot otherDigit otherIsDigit)
    rw [← stores.isKey, otherMember.stores.isKey]
    exact ⟨dottedHost_member (notDot digit isDigit), otherMember.notEmpty⟩
  · intro uri asked other otherAsked _
    obtain ⟨digit, isDigit, rfl⟩ := List.mem_map.mp asked
    obtain ⟨otherDigit, otherIsDigit, rfl⟩ := List.mem_map.mp otherAsked
    exact .inl (.members ⟨dottedHost_member (notDot digit isDigit), dottedHost_captured⟩
      ⟨dottedHost_member (notDot otherDigit otherIsDigit), dottedHost_captured⟩)

/-- The host that is in no group is left under the empty text, where a URI without an authority
finds it. -/
theorem not_stable_withoutAuthority : ¬ Stable plainUri dots (some ⟨"first".toList, []⟩)
    [⟨[], [], "/doc".toList⟩, ⟨"https".toList, "other".toList, "/doc".toList⟩,
      ⟨[], [], "/doc".toList⟩] := by
  intro stable
  have same := stable [] _ _ rfl
    [⟨[], [], "/doc".toList⟩, ⟨"https".toList, "other".toList, "/doc".toList⟩] _ [] rfl (.inl rfl)
  revert same
  decide

end HostUtil

end FreeOnline.Wsd
