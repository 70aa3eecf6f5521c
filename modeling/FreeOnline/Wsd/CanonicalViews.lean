import FreeOnline.Common.Protocol
import FreeOnline.Library.Interning
import FreeOnline.Library.OrderedMap
import FreeOnline.Library.Run
import FreeOnline.Wsd.Forwarding
import Mathlib.Data.Char
import Mathlib.Data.List.Lex
import Mathlib.Data.List.Sort

/-!
# Canonical views

Views of a document that look alike share their tiles. The kit gives each look a number, tells the
server the number of each session, and draws what is asked for by that number in the view of any
session that has it.
-/

set_option autoImplicit false

namespace FreeOnline.Wsd

open FreeOnline.Common
open FreeOnline.Library

/-!
## The kit
-/

/-- What a session of the kit knows of its view. -/
structure ViewSession where
  id : Text
  watermarkText : Text
  viewRenderState : Text
  viewId : Int
  canonicalViewId : Int
  isDocLoaded : Bool
deriving DecidableEq

namespace ViewSession

def getViewProps (session : ViewSession) : Text :=
  session.watermarkText ++ '|' :: session.viewRenderState

def isBefore (session other : ViewSession) : Prop := session.id ≤ other.id

instance (session other : ViewSession) : Decidable (session.isBefore other) :=
  inferInstanceAs (Decidable (session.id ≤ other.id))

end ViewSession

/-- `SessionMap::createCanonicalId`. -/
def createCanonicalId (canonicalIds : OrderedMap Text Nat) (viewProps : Text) :
    Nat × OrderedMap Text Nat :=
  if viewProps = [] then (0, canonicalIds)
  else
    match canonicalIds.get viewProps with
    | some id => (id, canonicalIds)
    | none =>
        let id := canonicalIds.length + 1000
        (id, canonicalIds.set viewProps id)

def canonicalIdChange (viewId : Int) (canonicalId : Nat) : Text :=
  "canonicalidchange:".toList ++ ([nameValue "viewid".toList (printInt viewId),
    nameValue "canonicalid".toList (printInt canonicalId)].flatMap (' ' :: ·))

/-!
## The server
-/

/-- The part of `ClientSession::handleKitToClientMessage` that learns the number. -/
def readCanonicalId (payload : Text) : Option Int :=
  let tokens := tokenize payload ' '
  if tokens.getD 0 [] = "canonicalidchange:".toList then
    match getTokenInteger (tokens.getD 1 []) "viewid".toList,
        getTokenInteger (tokens.getD 2 []) "canonicalid".toList with
    | some _, some canonicalId => some canonicalId
    | _, _ => none
  else none

/-!
## Together
-/

structure ViewNetwork where
  canonicalIds : OrderedMap Text Nat
  /-- in the order of their ids -/
  sessions : List ViewSession
  toServer : List Text
  /-- tiles that the server has asked for, by their normalized view ids -/
  toKit : List Int
  /-- the server's sessions with their canonical view ids -/
  clients : Text → Option Int
  /-- ids of the sessions that were ever made -/
  created : List Text
  /-- sessions with their watermarks, from the messages with which they were loaded -/
  loaded : List (Text × Text)
  /-- what the server has learned of the numbers of its sessions -/
  told : List (Text × Int)
  /-- tiles by their normalized view ids, each with the watermark and the state with which it was
  drawn -/
  drawn : List (Int × Text × Text)

inductive ViewEvent where
  | createSession (id : Text)
  | load (id watermarkText : Text) (viewId : Int)
  /-- `LOK_CALLBACK_VIEW_RENDER_STATE`. -/
  | renderState (viewId : Int) (payload : Text)
  | purge (id : Text)
  /-- Anything else that a session of the kit sends. -/
  | emit (id text : Text)
  | serverReceive
  /-- The number of a new session of the server is whatever there was in the memory. -/
  | addClient (id : Text) (indeterminate : Int)
  | removeClient (id : Text)
  | request (id : Text)
  | draw

namespace ViewNetwork

variable (network : ViewNetwork)

def findSession (id : Text) : Option ViewSession :=
  network.sessions.find? (·.id = id)

def findSessionByViewId (viewId : Int) : Option ViewSession :=
  network.sessions.find? (·.viewId = viewId)

def findByCanonicalId (id : Int) : Option ViewSession :=
  network.sessions.find? (·.canonicalViewId = id)

/-- The session of the map with this id becomes another one. -/
def putSession (session : ViewSession) : ViewNetwork :=
  { network with
    sessions := network.sessions.map fun other => if other.id = session.id then session else other }

/-- For a session that has been found. -/
def invalidateCanonicalId (session : ViewSession) : ViewNetwork :=
  let (newCanonicalId, canonicalIds) := createCanonicalId network.canonicalIds session.getViewProps
  let network := { network with canonicalIds }
  if (newCanonicalId : Int) = session.canonicalViewId then network.putSession session
  else
    { network.putSession { session with canonicalViewId := newCanonicalId } with
      toServer := network.toServer ++
        [clientMessage session.id (canonicalIdChange session.viewId newCanonicalId)] }

def serverReceive : ViewNetwork :=
  match network.toServer with
  | [] => network
  | message :: toServer =>
      let network := { network with toServer }
      match clientPayload message with
      | none => network
      | some (id, payload) =>
          match network.clients id, readCanonicalId payload with
          | some _, some canonicalId =>
              { network with
                clients := fun other => if other = id then some canonicalId else network.clients other
                told := network.told ++ [(id, canonicalId)] }
          | _, _ => network

/-- `Document::renderTiles`, as far as the choice of the view. -/
def draw : ViewNetwork :=
  match network.toKit with
  | [] => network
  | normalizedViewId :: toKit =>
      let network := { network with toKit }
      match network.findByCanonicalId normalizedViewId with
      | none => network
      | some session =>
          { network with
            drawn := network.drawn ++
              [(normalizedViewId, session.watermarkText, session.viewRenderState)] }

def step : ViewEvent → ViewNetwork
  | .createSession id =>
      match network.findSession id with
      | some _ => network
      | none =>
          { network with
            sessions := network.sessions.orderedInsert ViewSession.isBefore
              ⟨id, [], [], -1, -1, false⟩
            created := network.created ++ [id] }
  | .load id watermarkText viewId =>
      match network.findSession id with
      | none => network
      | some session =>
          -- a document is loaded once for each session
          if session.isDocLoaded = true then network
          else
            { network with loaded := network.loaded ++ [(id, watermarkText)] }.invalidateCanonicalId
              { session with watermarkText, viewId, isDocLoaded := true }
  | .renderState viewId payload =>
      match network.findSessionByViewId viewId with
      | none => network
      | some session => network.invalidateCanonicalId { session with viewRenderState := payload }
  | .purge id => { network with sessions := network.sessions.filter fun session => session.id ≠ id }
  | .emit id text => { network with toServer := network.toServer ++ [clientMessage id text] }
  | .serverReceive => network.serverReceive
  | .addClient id indeterminate =>
      { network with
        clients := fun other => if other = id then some indeterminate else network.clients other }
  | .removeClient id =>
      { network with clients := fun other => if other = id then none else network.clients other }
  | .request id =>
      match network.clients id with
      | none => network
      | some canonicalViewId => { network with toKit := network.toKit ++ [canonicalViewId] }
  | .draw => network.draw

def start : ViewNetwork where
  canonicalIds := []
  sessions := []
  toServer := []
  toKit := []
  clients := fun _ => none
  created := []
  loaded := []
  told := []
  drawn := []

/-- The ids fit an int. -/
def HasRoom (network : ViewNetwork) : Prop :=
  (network.canonicalIds.length : Int) + 1000 ≤ intMax

/-- Session ids are not used again and have no spaces, the views of a document have ids from zero
on, and its states of rendering have no bar. -/
def Allowed (network : ViewNetwork) : ViewEvent → Prop
  | .createSession id => id ∉ network.created ∧ ' ' ∉ id
  | .load _ _ viewId => 0 ≤ viewId ∧ viewId ≤ intMax ∧ network.HasRoom
  | .renderState viewId payload => '|' ∉ payload ∧ 0 ≤ viewId ∧ network.HasRoom
  | .emit id text => ' ' ∉ id ∧ readCanonicalId (trimStart text) = none
  | _ => True

instance (network : ViewNetwork) (event : ViewEvent) : Decidable (network.Allowed event) :=
  match event with
  | .createSession _ => inferInstanceAs (Decidable (_ ∧ _))
  | .load _ _ _ => inferInstanceAs (Decidable (_ ≤ _ ∧ _ ≤ _ ∧ _ ≤ _))
  | .renderState _ _ => inferInstanceAs (Decidable (_ ∧ _ ≤ _ ∧ _ ≤ _))
  | .emit _ _ => inferInstanceAs (Decidable (_ ∧ _))
  | .purge _ | .serverReceive | .addClient _ _ | .removeClient _ | .request _ | .draw =>
      inferInstanceAs (Decidable True)

end ViewNetwork

/-!
## Numbers and messages
-/

section

variable {viewProps watermark other state otherState id : Text} {viewId : Int} {number : Nat}
  {table : List Text}

/-- The state of rendering is what stands behind the last bar. -/
theorem viewProps_injective (noBar : '|' ∉ state) (otherNoBar : '|' ∉ otherState)
    (same : watermark ++ '|' :: state = other ++ '|' :: otherState) :
    watermark = other ∧ state = otherState := by
  obtain ⟨between, isOther, isRest⟩ | ⟨between, isWatermark, isRest⟩ :=
    List.append_eq_append_iff.mp same
  · cases between with
    | nil => exact ⟨(isOther.trans (List.append_nil _)).symm, (List.cons.inj isRest).2⟩
    | cons first between =>
        obtain ⟨-, rfl⟩ := List.cons.inj isRest
        exact absurd (by simp) noBar
  · cases between with
    | nil => exact ⟨isWatermark.trans (List.append_nil _), (List.cons.inj isRest).2.symm⟩
    | cons first between =>
        obtain ⟨-, rfl⟩ := List.cons.inj isRest
        exact absurd (by simp) otherNoBar

/-- The map of the numbers is a table of the looks in the order in which they were met. -/
theorem createCanonicalId_zipIdx (distinct : table.Nodup) (notNil : viewProps ≠ []) :
    (createCanonicalId (table.zipIdx 1000) viewProps).2 = (intern table viewProps).zipIdx 1000 ∧
      (viewProps, (createCanonicalId (table.zipIdx 1000) viewProps).1) ∈
        (intern table viewProps).zipIdx 1000 := by
  have areKeys : OrderedMap.keys (table.zipIdx 1000) = table := List.zipIdx_map_fst 1000 table
  have onlyOnce : (OrderedMap.keys (table.zipIdx 1000)).Nodup := areKeys.symm ▸ distinct
  unfold createCanonicalId
  rw [if_neg notNil]
  by_cases isMet : viewProps ∈ table
  · obtain ⟨⟨met, number⟩, isEntry, rfl⟩ := List.mem_map.mp (areKeys.symm ▸ isMet)
    rw [OrderedMap.get_of_mem onlyOnce isEntry, intern, if_pos isMet]
    exact ⟨rfl, isEntry⟩
  · have isNone : OrderedMap.get (table.zipIdx 1000) viewProps = none := by
      unfold OrderedMap.get
      rw [Option.map_eq_none_iff, List.find?_eq_none]
      intro entry isEntry isKey
      apply isMet
      rw [← areKeys]
      exact List.mem_map.mpr ⟨entry, isEntry, of_decide_eq_true isKey⟩
    have isNew : OrderedMap.set (table.zipIdx 1000) viewProps ((table.zipIdx 1000).length + 1000) =
        (table ++ [viewProps]).zipIdx 1000 := by
      rw [OrderedMap.set_new (areKeys.symm ▸ isMet), List.zipIdx_append, List.length_zipIdx,
        Nat.add_comm]
      rfl
    rw [isNone, intern, if_neg isMet]
    dsimp only
    rw [isNew]
    refine ⟨rfl, ?_⟩
    rw [← isNew, OrderedMap.set_new (areKeys.symm ▸ isMet)]
    exact List.mem_append_right _ List.mem_cons_self

/-- The server reads the number that the kit wrote. -/
theorem readCanonicalId_canonicalIdChange (viewFits : -intMax - 1 ≤ viewId ∧ viewId ≤ intMax)
    (fits : (number : Int) ≤ intMax) :
    readCanonicalId (trimStart (canonicalIdChange viewId number)) = some (number : Int) := by
  have noSpace : ∀ n : Int, ' ' ∉ printInt n ∧ '\n' ∉ printInt n := fun n =>
    ⟨notMem_printInt (by decide) (by decide), notMem_printInt (by decide) (by decide)⟩
  have areWords : ∀ word ∈ [nameValue "viewid".toList (printInt viewId),
      nameValue "canonicalid".toList (printInt number)], IsWord ' ' word := by
    intro word isWord
    cases isWord with
    | head => exact isWord_nameValue (by decide) (by decide) (noSpace viewId)
    | tail _ isWord =>
        obtain rfl := List.mem_singleton.mp isWord
        exact isWord_nameValue (by decide) (by decide) (noSpace number)
  have isStart : IsWord ' ' "canonicalidchange:".toList := ⟨by decide, by decide, by decide⟩
  have areTokens := tokenize_words areWords (.inr isStart) (by decide)
  have isTrimmed : trimStart (canonicalIdChange viewId number) = canonicalIdChange viewId number := by
    unfold canonicalIdChange trimStart
    simp
  have isView := @getTokenInteger_printInt "viewid".toList (by decide) viewId viewFits
  have isCanonical := @getTokenInteger_printInt "canonicalid".toList (by decide) (number : Int)
    ⟨by unfold intMax; omega, fits⟩
  rw [if_neg isStart.notNil] at areTokens
  rw [isTrimmed, readCanonicalId]
  unfold canonicalIdChange
  rw [areTokens]
  simp only [List.getD_cons_zero, List.getD_cons_succ, if_true, isView, isCanonical]

end

namespace ViewNetwork

variable {network : ViewNetwork} {session old : ViewSession} {events : List ViewEvent}

/-!
## Who there is
-/

/-- A session is loaded once, with one watermark. -/
structure Registered (network : ViewNetwork) : Prop where
  distinct : (network.sessions.map (·.id)).Nodup
  isCreated : ∀ session ∈ network.sessions, session.id ∈ network.created
  loadedOnce : (network.loaded.map Prod.fst).Nodup
  wasCreated : ∀ pair ∈ network.loaded, pair.1 ∈ network.created
  isLoaded : ∀ session ∈ network.sessions, session.id ∈ network.loaded.map Prod.fst →
    session.isDocLoaded = true

/-- What the kit makes of a session's new look. -/
theorem invalidateCanonicalId_cases (network : ViewNetwork) (session : ViewSession) :
    ∃ messages, network.invalidateCanonicalId session =
      { network.putSession { session with
          canonicalViewId := (createCanonicalId network.canonicalIds session.getViewProps).1 } with
        canonicalIds := (createCanonicalId network.canonicalIds session.getViewProps).2
        toServer := network.toServer ++ messages } ∧
      ∀ message ∈ messages, message = clientMessage session.id (canonicalIdChange session.viewId
        (createCanonicalId network.canonicalIds session.getViewProps).1) := by
  unfold invalidateCanonicalId
  dsimp only
  split
  next isSame =>
    refine ⟨[], ?_, nofun⟩
    rw [isSame, List.append_nil]
    rfl
  next =>
    refine ⟨_, rfl, ?_⟩
    intro message isMessage
    exact List.mem_singleton.mp isMessage

theorem ids_putSession (network : ViewNetwork) (session : ViewSession) :
    (network.putSession session).sessions.map (·.id) = network.sessions.map (·.id) := by
  unfold putSession
  rw [List.map_map]
  apply List.map_congr_left
  intro other _
  dsimp only [Function.comp_apply]
  split
  next same => exact same.symm
  next => rfl

theorem mem_putSession {other : ViewSession}
    (isThere : other ∈ (network.putSession session).sessions) :
    other ∈ network.sessions ∧ other.id ≠ session.id ∨
      other = session ∧ session.id ∈ network.sessions.map (·.id) := by
  obtain ⟨before, isBefore, isOther⟩ := List.mem_map.mp isThere
  split at isOther
  next same =>
    exact .inr ⟨isOther.symm, List.mem_map.mpr ⟨before, isBefore, same⟩⟩
  next different =>
    subst isOther
    exact .inl ⟨isBefore, different⟩

theorem registered_invalidate (isRegistered : network.Registered)
    (isLoaded : session.isDocLoaded = true) :
    (network.invalidateCanonicalId session).Registered := by
  obtain ⟨messages, isNext, -⟩ := invalidateCanonicalId_cases network session
  rw [isNext]
  constructor
  · exact (ids_putSession network _).symm ▸ isRegistered.distinct
  · intro other isThere
    obtain ⟨isBefore, -⟩ | ⟨rfl, isKnown⟩ := mem_putSession isThere
    · exact isRegistered.isCreated other isBefore
    · obtain ⟨before, isBefore, same⟩ := List.mem_map.mp isKnown
      exact same ▸ isRegistered.isCreated before isBefore
  · exact isRegistered.loadedOnce
  · exact isRegistered.wasCreated
  · intro other isThere
    obtain ⟨isBefore, -⟩ | ⟨rfl, -⟩ := mem_putSession isThere
    · exact isRegistered.isLoaded other isBefore
    · exact fun _ => isLoaded

theorem registered_loaded {id watermarkText : Text} (isRegistered : network.Registered)
    (isCreated : id ∈ network.created) (isFirst : id ∉ network.loaded.map Prod.fst)
    (isLoaded : ∀ session ∈ network.sessions, session.id = id → session.isDocLoaded = true) :
    Registered { network with loaded := network.loaded ++ [(id, watermarkText)] } := by
  refine ⟨isRegistered.distinct, isRegistered.isCreated, ?_, ?_, ?_⟩
  · rw [List.map_append]
    apply List.nodup_append'.mpr
    exact ⟨isRegistered.loadedOnce, List.nodup_singleton _, List.disjoint_singleton.mpr isFirst⟩
  · intro pair isPair
    cases List.mem_append.mp isPair with
    | inl wasLoaded => exact isRegistered.wasCreated pair wasLoaded
    | inr isNew =>
        rw [List.mem_singleton.mp isNew]
        exact isCreated
  · intro session isThere isKnown
    rw [List.map_append] at isKnown
    cases List.mem_append.mp isKnown with
    | inl wasLoaded => exact isRegistered.isLoaded session isThere wasLoaded
    | inr isNew => exact isLoaded session isThere (List.mem_singleton.mp isNew)

theorem invalidateCanonicalId_loaded (network : ViewNetwork) (session : ViewSession)
    (loaded : List (Text × Text)) :
    { network with loaded := loaded }.invalidateCanonicalId session =
      { network.invalidateCanonicalId session with loaded := loaded } := by
  unfold invalidateCanonicalId
  dsimp only
  split <;> rfl

theorem findSession_some {id : Text} (isFound : network.findSession id = some session) :
    session ∈ network.sessions ∧ session.id = id := by
  unfold findSession at isFound
  exact ⟨List.mem_of_find?_eq_some isFound, by simpa using List.find?_some isFound⟩

theorem findSessionByViewId_some {viewId : Int}
    (isFound : network.findSessionByViewId viewId = some session) :
    session ∈ network.sessions ∧ session.viewId = viewId := by
  unfold findSessionByViewId at isFound
  exact ⟨List.mem_of_find?_eq_some isFound, by simpa using List.find?_some isFound⟩

theorem findSession_none {id : Text} (isNone : network.findSession id = none) :
    id ∉ network.sessions.map (·.id) := by
  intro isKnown
  obtain ⟨session, isThere, same⟩ := List.mem_map.mp isKnown
  exact absurd (decide_eq_true same) (List.find?_eq_none.mp isNone session isThere)

theorem registered_congr {other : ViewNetwork} (isRegistered : network.Registered)
    (sameSessions : other.sessions = network.sessions) (sameCreated : other.created = network.created)
    (sameLoaded : other.loaded = network.loaded) : other.Registered := by
  constructor
  · exact sameSessions ▸ isRegistered.distinct
  · rw [sameSessions, sameCreated]
    exact isRegistered.isCreated
  · exact sameLoaded ▸ isRegistered.loadedOnce
  · rw [sameLoaded, sameCreated]
    exact isRegistered.wasCreated
  · rw [sameSessions, sameLoaded]
    exact isRegistered.isLoaded

/-- What the server does when it reads a message. -/
theorem serverReceive_cases (network : ViewNetwork) :
    network.serverReceive = network ∨
    ∃ message toServer, network.toServer = message :: toServer ∧
      (network.serverReceive = { network with toServer := toServer } ∨
      ∃ id payload canonicalId clients, clientPayload message = some (id, payload) ∧
        readCanonicalId payload = some canonicalId ∧
        network.serverReceive = { network with
          toServer := toServer
          clients := clients
          told := network.told ++ [(id, canonicalId)] }) := by
  unfold serverReceive
  cases network.toServer with
  | nil => exact .inl rfl
  | cons message toServer =>
      refine .inr ⟨message, toServer, rfl, ?_⟩
      dsimp only
      cases clientPayload message with
      | none => exact .inl rfl
      | some pair =>
          obtain ⟨id, payload⟩ := pair
          dsimp only
          cases network.clients id with
          | none => exact .inl rfl
          | some canonicalViewId =>
              cases isRead : readCanonicalId payload with
              | none => exact .inl rfl
              | some canonicalId => exact .inr ⟨id, payload, canonicalId, _, rfl, isRead, rfl⟩

/-- What the kit does when it draws. -/
theorem draw_cases (network : ViewNetwork) :
    network.draw = network ∨
    ∃ normalizedViewId toKit, network.toKit = normalizedViewId :: toKit ∧
      (network.draw = { network with toKit := toKit } ∨
      ∃ session ∈ network.sessions, session.canonicalViewId = normalizedViewId ∧
        network.draw = { network with
          toKit := toKit
          drawn := network.drawn ++
            [(normalizedViewId, session.watermarkText, session.viewRenderState)] }) := by
  unfold draw
  cases network.toKit with
  | nil => exact .inl rfl
  | cons normalizedViewId toKit =>
      refine .inr ⟨normalizedViewId, toKit, rfl, ?_⟩
      dsimp only
      cases isFound : findByCanonicalId { network with toKit } normalizedViewId with
      | none => exact .inl rfl
      | some session =>
          unfold findByCanonicalId at isFound
          exact .inr ⟨session, List.mem_of_find?_eq_some isFound,
            by simpa using List.find?_some isFound, rfl⟩

theorem registered_createSession (isRegistered : network.Registered) {id : Text}
    (isAllowed : network.Allowed (.createSession id)) :
    (network.step (.createSession id)).Registered := by
  dsimp only [step]
  cases isFound : network.findSession id with
  | some => exact isRegistered
  | none =>
      have isNew : ∀ session ∈ network.sessions.orderedInsert ViewSession.isBefore
          ⟨id, [], [], -1, -1, false⟩, session ∈ network.sessions ∨ session.id = id := by
        intro session isThere
        cases (List.mem_orderedInsert _).mp isThere with
        | inl isFirst => exact .inr (isFirst ▸ rfl)
        | inr isBefore => exact .inl isBefore
      constructor
      · have arePerm := (List.perm_orderedInsert ViewSession.isBefore
          ⟨id, [], [], -1, -1, false⟩ network.sessions).map (·.id)
        apply arePerm.nodup_iff.mpr
        exact List.nodup_cons.mpr ⟨findSession_none isFound, isRegistered.distinct⟩
      · intro session isThere
        cases isNew session isThere with
        | inl isBefore =>
            exact List.mem_append_left _ (isRegistered.isCreated session isBefore)
        | inr same => exact List.mem_append_right _ (List.mem_singleton.mpr same)
      · exact isRegistered.loadedOnce
      · exact fun pair isPair => List.mem_append_left _ (isRegistered.wasCreated pair isPair)
      · intro session isThere isKnown
        cases isNew session isThere with
        | inl isBefore => exact isRegistered.isLoaded session isBefore isKnown
        | inr same =>
            obtain ⟨pair, isPair, isKey⟩ := List.mem_map.mp (same ▸ isKnown)
            exact absurd (isKey ▸ isRegistered.wasCreated pair isPair) isAllowed.1

theorem registered_load (isRegistered : network.Registered) (id watermarkText : Text)
    (viewId : Int) : (network.step (.load id watermarkText viewId)).Registered := by
  dsimp only [step]
  cases isFound : network.findSession id with
  | none => exact isRegistered
  | some session =>
      obtain ⟨isThere, rfl⟩ := findSession_some isFound
      dsimp only
      split
      next => exact isRegistered
      next notLoaded =>
        rw [invalidateCanonicalId_loaded]
        obtain ⟨messages, isNext, -⟩ := invalidateCanonicalId_cases network
          { session with watermarkText, viewId, isDocLoaded := true }
        have isNow : Registered (network.invalidateCanonicalId
            { session with watermarkText, viewId, isDocLoaded := true }) :=
          registered_invalidate isRegistered rfl
        rw [isNext] at isNow ⊢
        apply registered_loaded isNow
        · exact isRegistered.isCreated session isThere
        · exact fun isKnown => notLoaded (isRegistered.isLoaded session isThere isKnown)
        · intro other isOther same
          obtain ⟨-, different⟩ | ⟨rfl, -⟩ := mem_putSession isOther
          · exact absurd same different
          · rfl

theorem registered_renderState (isRegistered : network.Registered)
    (isSession : ∀ session ∈ network.sessions, session.isDocLoaded = false → session.viewId = -1)
    {viewId : Int} {payload : Text} (isAllowed : network.Allowed (.renderState viewId payload)) :
    (network.step (.renderState viewId payload)).Registered := by
  dsimp only [step]
  cases isFound : network.findSessionByViewId viewId with
  | none => exact isRegistered
  | some session =>
      obtain ⟨isThere, isView⟩ := findSessionByViewId_some isFound
      apply registered_invalidate isRegistered
      dsimp only
      cases isLoaded : session.isDocLoaded with
      | true => rfl
      | false =>
          have isFirst := isSession session isThere isLoaded
          have isNat := isAllowed.2.1
          omega

theorem registered_step (isRegistered : network.Registered)
    (isSession : ∀ session ∈ network.sessions, session.isDocLoaded = false → session.viewId = -1)
    (event : ViewEvent) (isAllowed : network.Allowed event) :
    (network.step event).Registered := by
  cases event with
  | createSession id => exact registered_createSession isRegistered isAllowed
  | load id watermarkText viewId => exact registered_load isRegistered id watermarkText viewId
  | renderState viewId payload =>
      exact registered_renderState isRegistered isSession isAllowed
  | purge id =>
      refine ⟨?_, ?_, isRegistered.loadedOnce, isRegistered.wasCreated, ?_⟩
      · exact isRegistered.distinct.sublist (List.filter_sublist.map _)
      · exact fun session isThere =>
          isRegistered.isCreated session (List.mem_of_mem_filter isThere)
      · exact fun session isThere =>
          isRegistered.isLoaded session (List.mem_of_mem_filter isThere)
  | emit id text => exact registered_congr isRegistered rfl rfl rfl
  | serverReceive =>
      dsimp only [step]
      obtain isSame | ⟨message, toServer, -, isNext | ⟨id, payload, canonicalId, clients, -, -,
        isNext⟩⟩ := serverReceive_cases network
      · exact isSame.symm ▸ isRegistered
      · exact isNext ▸ registered_congr isRegistered rfl rfl rfl
      · exact isNext ▸ registered_congr isRegistered rfl rfl rfl
  | addClient id indeterminate => exact registered_congr isRegistered rfl rfl rfl
  | removeClient id => exact registered_congr isRegistered rfl rfl rfl
  | request id =>
      dsimp only [step]
      cases network.clients id with
      | none => exact isRegistered
      | some canonicalViewId => exact registered_congr isRegistered rfl rfl rfl
  | draw =>
      dsimp only [step]
      obtain isSame | ⟨normalizedViewId, toKit, -, isNext | ⟨session, -, -, isNext⟩⟩ :=
        draw_cases network
      · exact isSame.symm ▸ isRegistered
      · exact isNext ▸ registered_congr isRegistered rfl rfl rfl
      · exact isNext ▸ registered_congr isRegistered rfl rfl rfl

/-!
## What the numbers stand for
-/

/-- The number was made for a look with this watermark. -/
def Stands (network : ViewNetwork) (canonicalId : Int) (watermarkText : Text) : Prop :=
  ∃ state, '|' ∉ state ∧ ∃ number : Nat, canonicalId = number ∧
    (watermarkText ++ '|' :: state, number) ∈ network.canonicalIds

/-- The number was made for a look of this session. -/
def IsOf (network : ViewNetwork) (id : Text) (canonicalId : Int) : Prop :=
  ∃ watermarkText, (id, watermarkText) ∈ network.loaded ∧ network.Stands canonicalId watermarkText

/-- A session that is loaded has the number of its look. -/
structure SoundSession (network : ViewNetwork) (session : ViewSession) : Prop where
  noSpace : ' ' ∉ session.id
  noBar : '|' ∉ session.viewRenderState
  isFirst : session.isDocLoaded = false → session.viewId = -1 ∧ session.canonicalViewId = -1
  fits : -intMax - 1 ≤ session.viewId ∧ session.viewId ≤ intMax
  isLoaded : session.isDocLoaded = true → (session.id, session.watermarkText) ∈ network.loaded
  isNumbered : session.isDocLoaded = true → ∃ number : Nat, session.canonicalViewId = number ∧
    (session.getViewProps, number) ∈ network.canonicalIds

structure Sound (network : ViewNetwork) : Prop where
  isTable : ∃ table : List Text, table.Nodup ∧ network.canonicalIds = table.zipIdx 1000
  areSessions : ∀ session ∈ network.sessions, network.SoundSession session
  sent : ∀ message ∈ network.toServer, ∀ id payload canonicalId,
    clientPayload message = some (id, payload) → readCanonicalId payload = some canonicalId →
    network.IsOf id canonicalId
  told : ∀ pair ∈ network.told, network.IsOf pair.1 pair.2
  drawn : ∀ tile ∈ network.drawn, tile.1 = -1 ∨ network.Stands tile.1 tile.2.1

/-- Nothing that was numbered or loaded is forgotten. -/
structure Grows (network other : ViewNetwork) : Prop where
  numbers : ∀ entry ∈ network.canonicalIds, entry ∈ other.canonicalIds
  loaded : ∀ pair ∈ network.loaded, pair ∈ other.loaded

section

variable {other : ViewNetwork} {canonicalId : Int} {watermarkText id : Text}

theorem Stands.mono (stands : network.Stands canonicalId watermarkText)
    (grows : Grows network other) : other.Stands canonicalId watermarkText := by
  obtain ⟨state, noBar, number, same, isEntry⟩ := stands
  exact ⟨state, noBar, number, same, grows.numbers _ isEntry⟩

theorem IsOf.mono (isOf : network.IsOf id canonicalId) (grows : Grows network other) :
    other.IsOf id canonicalId := by
  obtain ⟨watermarkText, isLoaded, stands⟩ := isOf
  exact ⟨watermarkText, grows.loaded _ isLoaded, stands.mono grows⟩

theorem SoundSession.mono (isSound : network.SoundSession session) (grows : Grows network other) :
    other.SoundSession session := by
  refine ⟨isSound.noSpace, isSound.noBar, isSound.isFirst, isSound.fits, ?_, ?_⟩
  · exact fun isLoaded => grows.loaded _ (isSound.isLoaded isLoaded)
  · intro isLoaded
    obtain ⟨number, same, isEntry⟩ := isSound.isNumbered isLoaded
    exact ⟨number, same, grows.numbers _ isEntry⟩

/-- What was loaded, told and drawn stays right when more looks get numbers. -/
theorem Sound.mono (isSound : network.Sound) (grows : Grows network other)
    (isTable : ∃ table : List Text, table.Nodup ∧ other.canonicalIds = table.zipIdx 1000)
    (areSessions : ∀ session ∈ other.sessions, other.SoundSession session)
    (sent : ∀ message ∈ other.toServer, message ∈ network.toServer ∨
      ∀ id payload canonicalId, clientPayload message = some (id, payload) →
        readCanonicalId payload = some canonicalId → other.IsOf id canonicalId)
    (told : ∀ pair ∈ other.told, pair ∈ network.told ∨ other.IsOf pair.1 pair.2)
    (drawn : ∀ tile ∈ other.drawn, tile ∈ network.drawn ∨
      (tile.1 = -1 ∨ other.Stands tile.1 tile.2.1)) : other.Sound := by
  refine ⟨isTable, areSessions, ?_, ?_, ?_⟩
  · intro message isSent id payload canonicalId isClient isRead
    cases sent message isSent with
    | inl wasSent =>
        exact (isSound.sent message wasSent id payload canonicalId isClient isRead).mono grows
    | inr isNew => exact isNew id payload canonicalId isClient isRead
  · intro pair isTold
    cases told pair isTold with
    | inl wasTold => exact (isSound.told pair wasTold).mono grows
    | inr isNew => exact isNew
  · intro tile isDrawn
    cases drawn tile isDrawn with
    | inl wasDrawn => exact (isSound.drawn tile wasDrawn).imp_right (·.mono grows)
    | inr isNew => exact isNew

end

theorem sound_invalidate (isSound : network.Sound) (hasRoom : network.HasRoom)
    (noSpace : ' ' ∉ session.id) (noBar : '|' ∉ session.viewRenderState)
    (isDocLoaded : session.isDocLoaded = true)
    (fits : -intMax - 1 ≤ session.viewId ∧ session.viewId ≤ intMax)
    (isLoaded : (session.id, session.watermarkText) ∈ network.loaded) :
    (network.invalidateCanonicalId session).Sound := by
  obtain ⟨messages, isNext, areMessages⟩ := invalidateCanonicalId_cases network session
  obtain ⟨table, distinct, isTable⟩ := isSound.isTable
  have notNil : session.getViewProps ≠ [] := by
    unfold ViewSession.getViewProps
    simp
  obtain ⟨isLater, isEntry⟩ := createCanonicalId_zipIdx distinct notNil
  unfold HasRoom at hasRoom
  rw [isTable] at isNext areMessages hasRoom
  revert isNext areMessages isLater isEntry
  generalize createCanonicalId (table.zipIdx 1000) session.getViewProps = created
  intro areMessages isNext isLater isEntry
  have numberFits : (created.1 : Int) ≤ intMax := by
    have inside := (List.mk_mem_zipIdx_iff_le_and_getElem?_sub.mp isEntry).2
    have below := (List.getElem?_eq_some_iff.mp inside).1
    have short : (intern table session.getViewProps).length ≤ table.length + 1 := by
      unfold intern
      split
      next => omega
      next => simp
    rw [List.length_zipIdx] at hasRoom
    omega
  rw [isLater] at isNext
  rw [isNext]
  have grows : Grows network { network.putSession { session with canonicalViewId := created.1 } with
      canonicalIds := (intern table session.getViewProps).zipIdx 1000
      toServer := network.toServer ++ messages } := by
    refine ⟨?_, fun _ => id⟩
    rw [isTable]
    exact fun entry isEntry => numbered_mono (intern_keeps table _) isEntry
  have isOf : IsOf { network.putSession { session with canonicalViewId := created.1 } with
      canonicalIds := (intern table session.getViewProps).zipIdx 1000
      toServer := network.toServer ++ messages } session.id created.1 :=
    ⟨session.watermarkText, isLoaded, session.viewRenderState, noBar, created.1, rfl, isEntry⟩
  apply isSound.mono grows
  · exact ⟨_, nodup_intern distinct, rfl⟩
  · intro other isThere
    obtain ⟨isBefore, -⟩ | ⟨rfl, -⟩ := mem_putSession isThere
    · exact (isSound.areSessions other isBefore).mono grows
    · exact ⟨noSpace, noBar, fun notLoaded => Bool.noConfusion (isDocLoaded.symm.trans notLoaded),
        fits, fun _ => isLoaded, fun _ => ⟨created.1, rfl, isEntry⟩⟩
  · intro message isSent
    cases List.mem_append.mp isSent with
    | inl wasSent => exact .inl wasSent
    | inr isNew =>
        refine .inr ?_
        intro id payload canonicalId isClient isRead
        rw [areMessages message isNew, clientPayload_clientMessage noSpace] at isClient
        obtain ⟨rfl, rfl⟩ := Prod.mk.inj (Option.some.inj isClient)
        rw [readCanonicalId_canonicalIdChange fits numberFits] at isRead
        exact Option.some.inj isRead ▸ isOf
  · exact fun pair isTold => .inl isTold
  · exact fun tile isDrawn => .inl isDrawn

/-- An event that makes no number. -/
theorem Sound.congr {other : ViewNetwork} (isSound : network.Sound)
    (sameNumbers : other.canonicalIds = network.canonicalIds)
    (sameLoaded : other.loaded = network.loaded)
    (areSessions : ∀ session ∈ other.sessions, session ∈ network.sessions ∨
      other.SoundSession session)
    (sent : ∀ message ∈ other.toServer, message ∈ network.toServer ∨
      ∀ id payload canonicalId, clientPayload message = some (id, payload) →
        readCanonicalId payload = some canonicalId → other.IsOf id canonicalId)
    (told : ∀ pair ∈ other.told, pair ∈ network.told ∨ other.IsOf pair.1 pair.2)
    (drawn : ∀ tile ∈ other.drawn, tile ∈ network.drawn ∨
      (tile.1 = -1 ∨ other.Stands tile.1 tile.2.1)) : other.Sound := by
  have grows : Grows network other :=
    ⟨fun entry isEntry => sameNumbers.symm ▸ isEntry, fun pair isPair => sameLoaded.symm ▸ isPair⟩
  refine isSound.mono grows (sameNumbers.symm ▸ isSound.isTable) ?_ sent told drawn
  intro session isThere
  cases areSessions session isThere with
  | inl isBefore => exact (isSound.areSessions session isBefore).mono grows
  | inr isNew => exact isNew

private theorem first_fits : -intMax - 1 ≤ (-1 : Int) ∧ (-1 : Int) ≤ intMax := by decide

theorem sound_load {id watermarkText : Text} {viewId : Int} (isSound : network.Sound)
    (isAllowed : network.Allowed (.load id watermarkText viewId)) :
    (network.step (.load id watermarkText viewId)).Sound := by
  dsimp only [step]
  cases isFound : network.findSession id with
  | none => exact isSound
  | some session =>
      obtain ⟨isThere, rfl⟩ := findSession_some isFound
      obtain ⟨isNat, inRange, hasRoom⟩ := isAllowed
      have isBefore := isSound.areSessions session isThere
      dsimp only
      split
      next => exact isSound
      next =>
        have isLoaded : Sound { network with
            loaded := network.loaded ++ [(session.id, watermarkText)] } := by
          have grows : Grows network { network with
              loaded := network.loaded ++ [(session.id, watermarkText)] } :=
            ⟨fun _ => id, fun _ => List.mem_append_left _⟩
          exact isSound.mono grows isSound.isTable
            (fun other isOther => (isSound.areSessions other isOther).mono grows)
            (fun _ => .inl) (fun _ => .inl) (fun _ => .inl)
        have fits : -intMax - 1 ≤ viewId := by
          unfold intMax
          omega
        exact @sound_invalidate _ { session with watermarkText, viewId, isDocLoaded := true }
          isLoaded hasRoom isBefore.noSpace isBefore.noBar rfl ⟨fits, inRange⟩
          (List.mem_append_right _ List.mem_cons_self)

theorem sound_renderState {viewId : Int} {payload : Text} (isSound : network.Sound)
    (isAllowed : network.Allowed (.renderState viewId payload)) :
    (network.step (.renderState viewId payload)).Sound := by
  dsimp only [step]
  cases isFound : network.findSessionByViewId viewId with
  | none => exact isSound
  | some session =>
      obtain ⟨isThere, isView⟩ := findSessionByViewId_some isFound
      obtain ⟨noBar, isNat, hasRoom⟩ := isAllowed
      have isBefore := isSound.areSessions session isThere
      have isDocLoaded : session.isDocLoaded = true := by
        cases isLoaded : session.isDocLoaded with
        | true => rfl
        | false =>
            have isFirst := (isBefore.isFirst isLoaded).1
            omega
      exact sound_invalidate isSound hasRoom isBefore.noSpace noBar isDocLoaded isBefore.fits
        (isBefore.isLoaded isDocLoaded)

theorem sound_serverReceive (isSound : network.Sound) : (network.step .serverReceive).Sound := by
  dsimp only [step]
  obtain isSame | ⟨message, toServer, isFirst, isNext | ⟨id, payload, canonicalId, clients,
    isClient, isRead, isNext⟩⟩ := serverReceive_cases network
  · exact isSame.symm ▸ isSound
  · rw [isNext]
    refine isSound.congr rfl rfl (fun _ => .inl) ?_ (fun _ => .inl) (fun _ => .inl)
    exact fun other isSent => .inl (isFirst ▸ List.mem_cons_of_mem _ isSent)
  · rw [isNext]
    refine isSound.congr rfl rfl (fun _ => .inl) ?_ ?_ (fun _ => .inl)
    · exact fun other isSent => .inl (isFirst ▸ List.mem_cons_of_mem _ isSent)
    · intro pair isTold
      cases List.mem_append.mp isTold with
      | inl wasTold => exact .inl wasTold
      | inr isNew =>
          rw [List.mem_singleton.mp isNew]
          have isThere : message ∈ network.toServer := isFirst ▸ List.mem_cons_self
          exact .inr (isSound.sent message isThere id payload canonicalId isClient isRead)

theorem sound_draw (isSound : network.Sound) : (network.step .draw).Sound := by
  dsimp only [step]
  obtain isSame | ⟨normalizedViewId, toKit, -, isNext | ⟨session, isThere, isView, isNext⟩⟩ :=
    draw_cases network
  · exact isSame.symm ▸ isSound
  · rw [isNext]
    exact isSound.congr rfl rfl (fun _ => .inl) (fun _ => .inl) (fun _ => .inl) (fun _ => .inl)
  · rw [isNext]
    refine isSound.congr rfl rfl (fun _ => .inl) (fun _ => .inl) (fun _ => .inl) ?_
    intro tile isDrawn
    cases List.mem_append.mp isDrawn with
    | inl wasDrawn => exact .inl wasDrawn
    | inr isNew =>
        rw [List.mem_singleton.mp isNew]
        have isBefore := isSound.areSessions session isThere
        cases isLoaded : session.isDocLoaded with
        | false => exact .inr (.inl (isView.symm.trans (isBefore.isFirst isLoaded).2))
        | true =>
            obtain ⟨number, same, isEntry⟩ := isBefore.isNumbered isLoaded
            exact .inr (.inr ⟨session.viewRenderState, isBefore.noBar, number,
              isView.symm.trans same, isEntry⟩)

theorem sound_step (isSound : network.Sound) (event : ViewEvent)
    (isAllowed : network.Allowed event) : (network.step event).Sound := by
  cases event with
  | createSession id =>
      dsimp only [step]
      cases network.findSession id with
      | some => exact isSound
      | none =>
          refine isSound.congr rfl rfl ?_ (fun _ => .inl) (fun _ => .inl) (fun _ => .inl)
          intro session isThere
          cases (List.mem_orderedInsert _).mp isThere with
          | inr isBefore => exact .inl isBefore
          | inl isNew =>
              subst isNew
              exact .inr ⟨isAllowed.2, List.not_mem_nil, fun _ => ⟨rfl, rfl⟩, first_fits, nofun,
                nofun⟩
  | load id watermarkText viewId => exact sound_load isSound isAllowed
  | renderState viewId payload => exact sound_renderState isSound isAllowed
  | purge id =>
      exact isSound.congr rfl rfl (fun _ isThere => .inl (List.mem_of_mem_filter isThere))
        (fun _ => .inl) (fun _ => .inl) (fun _ => .inl)
  | emit id text =>
      refine isSound.congr rfl rfl (fun _ => .inl) ?_ (fun _ => .inl) (fun _ => .inl)
      intro message isSent
      cases List.mem_append.mp isSent with
      | inl wasSent => exact .inl wasSent
      | inr isNew =>
          refine .inr ?_
          intro other payload canonicalId isClient isRead
          rw [List.mem_singleton.mp isNew, clientPayload_clientMessage isAllowed.1] at isClient
          obtain ⟨-, rfl⟩ := Prod.mk.inj (Option.some.inj isClient)
          cases isAllowed.2.symm.trans isRead
  | serverReceive => exact sound_serverReceive isSound
  | addClient id indeterminate =>
      exact isSound.congr rfl rfl (fun _ => .inl) (fun _ => .inl) (fun _ => .inl) (fun _ => .inl)
  | removeClient id =>
      exact isSound.congr rfl rfl (fun _ => .inl) (fun _ => .inl) (fun _ => .inl) (fun _ => .inl)
  | request id =>
      dsimp only [step]
      cases network.clients id with
      | none => exact isSound
      | some canonicalViewId =>
          exact isSound.congr rfl rfl (fun _ => .inl) (fun _ => .inl) (fun _ => .inl)
            (fun _ => .inl)
  | draw => exact sound_draw isSound

theorem sound_start : start.Sound :=
  ⟨⟨[], List.nodup_nil, rfl⟩, nofun, nofun, nofun, nofun⟩

theorem registered_start : start.Registered :=
  ⟨List.nodup_nil, nofun, List.nodup_nil, nofun, nofun⟩

theorem run_sound (permitted : Permitted step Allowed start events) :
    (run step start events).Sound ∧ (run step start events).Registered := by
  apply run_invariant (fun network => network.Sound ∧ network.Registered) _
    ⟨sound_start, registered_start⟩ permitted
  intro network event ⟨isSound, isRegistered⟩ isAllowed
  refine ⟨sound_step isSound event isAllowed, registered_step isRegistered ?_ event isAllowed⟩
  exact fun session isThere notLoaded => ((isSound.areSessions session isThere).isFirst notLoaded).1

/-!
## Tiles that are shared
-/

/-- A number stands for one watermark. -/
theorem stands_unique {canonicalId : Int} {watermark other : Text} (isSound : network.Sound)
    (stands : network.Stands canonicalId watermark) (alsoStands : network.Stands canonicalId other) :
    watermark = other := by
  obtain ⟨table, -, isTable⟩ := isSound.isTable
  obtain ⟨state, noBar, number, rfl, isEntry⟩ := stands
  obtain ⟨otherState, otherNoBar, otherNumber, same, isOther⟩ := alsoStands
  obtain rfl := Int.ofNat.inj same
  rw [isTable] at isEntry isOther
  exact (viewProps_injective noBar otherNoBar (numbered_unique isEntry isOther)).1

/-- Every tile that is drawn for a number which the server was ever told for a session has the
watermark of this session, in whichever view it was drawn, however the looks of the views change
and whenever sessions come and go. -/
theorem run_watermark {id watermark other state : Text} {canonicalId : Int}
    (permitted : Permitted step Allowed start events)
    (isTold : (id, canonicalId) ∈ (run step start events).told)
    (isLoaded : (id, watermark) ∈ (run step start events).loaded)
    (isDrawn : (canonicalId, other, state) ∈ (run step start events).drawn) :
    other = watermark := by
  obtain ⟨isSound, isRegistered⟩ := run_sound permitted
  obtain ⟨own, isOwn, stands⟩ := isSound.told _ isTold
  have sameOwn : own = watermark := by
    have sameEntry := List.inj_on_of_nodup_map isRegistered.loadedOnce isOwn isLoaded rfl
    exact (Prod.mk.inj sameEntry).2
  cases isSound.drawn _ isDrawn with
  | inl isFirst =>
      obtain ⟨-, -, number, same, -⟩ := stands
      dsimp only at isFirst same
      omega
  | inr drawnFor => exact (stands_unique isSound drawnFor stands).trans sameOwn

/-- Two views that look alike until one of them shows formatting marks. -/
def twoViews : List ViewEvent :=
  [.createSession "001".toList, .load "001".toList "draft".toList 0,
    .createSession "002".toList, .load "002".toList "draft".toList 1,
    .addClient "002".toList 7, .serverReceive, .serverReceive, .request "002".toList,
    .renderState 1 "P".toList, .draw]

theorem drawn_twoViews : (1000, "draft".toList, []) ∈ (run step start twoViews).drawn := by
  decide +kernel

theorem run_watermark_twoViews :
    (1000, "draft".toList, []) ∈ (run step start twoViews).drawn ∧
      "draft".toList = "draft".toList :=
  ⟨drawn_twoViews, @run_watermark twoViews "002".toList "draft".toList "draft".toList [] 1000
    (by decide +kernel) (by decide +kernel) (by decide +kernel) drawn_twoViews⟩

/-- Two sessions that are loaded share their tiles just when they look alike. -/
theorem run_sameId (permitted : Permitted step Allowed start events)
    (isThere : session ∈ (run step start events).sessions)
    (isOther : old ∈ (run step start events).sessions) (isLoaded : session.isDocLoaded = true)
    (otherLoaded : old.isDocLoaded = true) :
    session.canonicalViewId = old.canonicalViewId ↔ session.getViewProps = old.getViewProps := by
  obtain ⟨isSound, -⟩ := run_sound permitted
  obtain ⟨table, distinct, isTable⟩ := isSound.isTable
  obtain ⟨number, isNumber, isEntry⟩ := (isSound.areSessions session isThere).isNumbered isLoaded
  obtain ⟨second, isSecond, isAlso⟩ := (isSound.areSessions old isOther).isNumbered otherLoaded
  rw [isTable] at isEntry isAlso
  rw [isNumber, isSecond]
  constructor
  · intro same
    obtain rfl := Int.ofNat.inj same
    exact numbered_unique isEntry isAlso
  · intro same
    rw [same] at isEntry
    exact congrArg Nat.cast (numbered_once distinct isEntry isAlso)

theorem run_sameId_twoViews :
    (1000 : Int) = 1001 ↔ "draft|".toList = "draft|P".toList := by
  exact @run_sameId ⟨"001".toList, "draft".toList, [], 0, 1000, true⟩
    ⟨"002".toList, "draft".toList, "P".toList, 1, 1001, true⟩ twoViews (by decide +kernel)
    (by decide +kernel) (by decide +kernel) rfl rfl

end ViewNetwork

end FreeOnline.Wsd
