import FreeOnline.Common.StringVector
import FreeOnline.Library.Run
import Mathlib.Data.List.Perm.Basic
import Mathlib.Data.List.Nodup

/-!
# The supply of kits

The server keeps some kit processes in reserve. It asks the forkit process for more, which forks
them, and each kit then connects to the server by itself. What was asked for may get lost on the
way, and then the server forgets after a while that it asked.
-/

set_option autoImplicit false

namespace FreeOnline.Wsd

open FreeOnline.Common
open FreeOnline.Library

/-- `COMMAND_TIMEOUT_MS`. -/
def childTimeoutMs : Nat := 5000

/-- The numbers of spare kits that the server accepts in its configuration. -/
structure PoolConfig where
  numPreSpawnedChildren : Nat
  isPositive : 1 ≤ numPreSpawnedChildren
  fits : (numPreSpawnedChildren : Int) + 1 ≤ intMax
  isBindMountingEnabled : Bool

/-!
## The server's side
-/

/-- What the mutex of the new children guards. A kit is given by the number of its fork. -/
structure ChildPool where
  newChildren : List Nat
  outstandingForks : Int
  lastForkRequestTime : Nat
  childSpawnTimeoutMs : Nat

def spawnMessage (number : Int) : Text :=
  "spawn ".toList ++ (printInt number ++ ['\n'])

namespace ChildPool

variable (pool : ChildPool)

/-- Also the message for the forkit process. -/
def forkChildren (now : Nat) (number : Int) : Option Text × ChildPool :=
  if number > 0 then
    (some (spawnMessage number),
      { pool with
        outstandingForks := pool.outstandingForks + number
        lastForkRequestTime := now })
  else (none, pool)

def cleanupChildren (isAlive : Nat → Bool) : ChildPool :=
  { pool with newChildren := pool.newChildren.filter isAlive }

/-- The children take too long to spawn. -/
def TimedOut (now : Nat) : Prop :=
  pool.outstandingForks ≠ 0 ∧ pool.childSpawnTimeoutMs ≤ now - pool.lastForkRequestTime

instance (now : Nat) : Decidable (pool.TimedOut now) :=
  inferInstanceAs (Decidable (_ ∧ _))

/-- The first half of `rebalanceChildren`. Requests that take too long are forgotten. -/
def cleanup (isAlive : Nat → Bool) (now : Nat) : ChildPool :=
  if pool.TimedOut now then { pool.cleanupChildren isAlive with outstandingForks := 0 }
  else pool.cleanupChildren isAlive

/-- The dead among the spare children are still counted as available when it is decided how many
are missing. -/
def rebalanceChildren (isAlive : Nat → Bool) (now : Nat) (balance : Int) :
    Option Text × ChildPool :=
  let available := pool.newChildren.length
  let cleaned := pool.cleanup isAlive now
  let rebalance := cleaned.newChildren.length ≠ available
  let missing := balance - available - cleaned.outstandingForks
  if missing > 0 ∧ (rebalance ∨ cleaned.outstandingForks = 0) then cleaned.forkChildren now missing
  else (none, cleaned)

def addNewChild (config : PoolConfig) (child : Nat) : ChildPool :=
  { pool with
    -- not below zero when the child is not expected
    outstandingForks :=
      if pool.outstandingForks - 1 < 0 then pool.outstandingForks else pool.outstandingForks - 1
    childSpawnTimeoutMs :=
      if config.isBindMountingEnabled then childTimeoutMs else pool.childSpawnTimeoutMs
    newChildren := pool.newChildren ++ [child] }

end ChildPool

/-!
## The forkit process
-/

/-- `std::stoi`, which throws where there is no number or it does not fit. -/
def stoi (text : Text) : Option Int :=
  (readLong text).bind fun value => if -intMax - 1 ≤ value ∧ value ≤ intMax then some value else none

/-- `ServerWSHandler::handleMessage` for the messages that ask for children: what
`ForkCounter` is then. -/
def handleSpawn (message : Text) (forkCounter : Nat) : Nat :=
  match tokenize message ' ' with
  | [name, number] =>
      if name = "spawn".toList then
        match stoi number with
        | some count => if count > 0 then count.toNat else forkCounter
        | none => forkCounter
      else forkCounter
  | _ => forkCounter

/-- The loop of `forkLibreOfficeKit`. The forks are those that succeed and those that fail, in
their order. Gives what is left of `ForkCounter` and how many kits there are now. -/
def forkRounds : Nat → List Bool → Nat → Nat × Nat
  | 0, _, forkCounter => (forkCounter, 0)
  | _ + 1, _, 0 => (0, 0)
  | retry + 1, forks, forkCounter + 1 =>
      if forks.headD false = true then
        let later := forkRounds retry forks.tail forkCounter
        (later.1, later.2 + 1)
      else forkRounds retry forks.tail (forkCounter + 1)

def forkLibreOfficeKit (forks : List Bool) (forkCounter : Nat) : Nat × Nat :=
  if forkCounter > 0 then forkRounds (forkCounter * 2) forks forkCounter else (forkCounter, 0)

/-!
## Together
-/

structure KitSupply where
  now : Nat
  pool : ChildPool
  /-- brokers that wait in `getNewChild_Blocks` -/
  waiting : Nat
  /-- callbacks of other threads for the poll of the prisoners, each with its message -/
  callbacks : List Text
  /-- whether the forkit process is connected -/
  hasForKitProc : Bool
  /-- sent to the forkit process and not read there -/
  inbox : List Text
  /-- the forkit process has not made its first kit yet -/
  isStarting : Bool
  forkCounter : Nat
  /-- kits that are not connected yet -/
  connecting : List Nat
  forks : Nat
  /-- kits that brokers have got -/
  handed : List Nat
  /-- kits that are given up -/
  buried : List Nat
  /-- outstanding forks of which the server no longer knows -/
  forgotten : Int
  /-- times that the forkit process was replaced -/
  relaunches : Nat

/-- What happens next, with the kits that are alive then. -/
inductive SupplyEvent where
  | tick (milliseconds : Nat)
  | relaunch (isAlive : Nat → Bool)
  | firstFork
  | connect
  | callback
  | prespawn (isAlive : Nat → Bool)
  | request (isAlive : Nat → Bool)
  | take (isAlive : Nat → Bool)
  | giveUp
  | receive
  | pass (forks : List Bool)
  | arrive (child : Nat)
  | die (child : Nat)

namespace KitSupply

variable (config : PoolConfig) (supply : KitSupply)

/-- The message is lost when no forkit process is connected. -/
def sendTextFrame (message : Text) : KitSupply :=
  if supply.hasForKitProc = true then { supply with inbox := supply.inbox ++ [message] } else supply

/-- `PrisonPoll::sendMessageToForKit`, called by the thread of the poll or by another one. -/
def sendMessageToForKit (isOwner : Bool) : Option Text → KitSupply
  | none => supply
  | some message =>
      if isOwner = true then supply.sendTextFrame message
      else { supply with callbacks := supply.callbacks ++ [message] }

def rebalance (isOwner : Bool) (isAlive : Nat → Bool) (balance : Int) : KitSupply :=
  let result := supply.pool.rebalanceChildren isAlive supply.now balance
  { supply with
    pool := result.2
    buried := supply.buried ++ supply.pool.newChildren.filter fun child => !isAlive child
    forgotten :=
      if supply.pool.TimedOut supply.now then supply.forgotten + supply.pool.outstandingForks
      else supply.forgotten }.sendMessageToForKit isOwner result.1

/-- The forkit process makes one kit unasked. -/
def createForKit (isAlive : Nat → Bool) : KitSupply :=
  let launched := { supply with
    pool := { supply.pool with
      outstandingForks := supply.pool.outstandingForks + 1
      lastForkRequestTime := supply.now
      childSpawnTimeoutMs := childTimeoutMs * 4 }
    hasForKitProc := false
    inbox := []
    isStarting := true
    forkCounter := 0 }
  let balance := (config.numPreSpawnedChildren : Int) - launched.pool.outstandingForks
  if balance > 0 then launched.rebalance true isAlive balance else launched

def forkChildren (number : Nat) : KitSupply :=
  { supply with
    connecting := supply.connecting ++ List.range' supply.forks number
    forks := supply.forks + number }

/-- The end of `getNewChild_Blocks`. The broker goes on to wait while there is no spare kit. -/
def takeChild (isAlive : Nat → Bool) : KitSupply :=
  match supply.pool.newChildren.getLast? with
  | none => supply
  | some child =>
      let taken := { supply with
        pool := { supply.pool with newChildren := supply.pool.newChildren.dropLast }
        waiting := supply.waiting - 1 }
      if isAlive child = true then { taken with handed := supply.handed ++ [child] }
      else { taken with buried := supply.buried ++ [child] }

def runCallback : KitSupply :=
  match supply.callbacks with
  | [] => supply
  | message :: callbacks => { supply with callbacks := callbacks }.sendTextFrame message

def receive : KitSupply :=
  match supply.inbox with
  | [] => supply
  | message :: inbox =>
      { supply with
        inbox := inbox
        forkCounter := handleSpawn message supply.forkCounter }

def pass (forks : List Bool) : KitSupply :=
  let result := forkLibreOfficeKit forks supply.forkCounter
  { supply with forkCounter := result.1 }.forkChildren result.2

def step : SupplyEvent → KitSupply
  | .tick milliseconds => { supply with now := supply.now + milliseconds }
  | .relaunch isAlive =>
      { supply.createForKit config isAlive with relaunches := supply.relaunches + 1 }
  | .firstFork =>
      if supply.isStarting = true then { supply with isStarting := false }.forkChildren 1 else supply
  | .connect =>
      if supply.isStarting = false ∧ supply.hasForKitProc = false then
        { supply with hasForKitProc := true }
      else supply
  | .callback => supply.runCallback
  | .prespawn isAlive => supply.rebalance true isAlive config.numPreSpawnedChildren
  -- one more, for the kit that the broker takes
  | .request isAlive =>
      { supply with waiting := supply.waiting + 1 }.rebalance false isAlive
        (config.numPreSpawnedChildren + 1)
  | .take isAlive => if supply.waiting = 0 then supply else supply.takeChild isAlive
  | .giveUp => { supply with waiting := supply.waiting - 1 }
  | .receive => supply.receive
  | .pass forks => supply.pass forks
  | .arrive child =>
      if child ∈ supply.connecting then
        { supply with
          connecting := supply.connecting.erase child
          pool := supply.pool.addNewChild config child }
      else supply
  | .die child =>
      if child ∈ supply.connecting then
        { supply with
          connecting := supply.connecting.erase child
          buried := supply.buried ++ [child] }
      else supply

/-- Nothing is there, and there is no forkit process. -/
def blank (now : Nat) : KitSupply where
  now := now
  pool := ⟨[], 0, now, childTimeoutMs * 4⟩
  waiting := 0
  callbacks := []
  hasForKitProc := false
  inbox := []
  isStarting := false
  forkCounter := 0
  connecting := []
  forks := 0
  handed := []
  buried := []
  forgotten := 0
  relaunches := 0

/-- The forkit process is started for the first time. -/
def start (now : Nat) : KitSupply :=
  (blank now).createForKit config fun _ => true

end KitSupply

/-!
## What the parts do
-/

section

variable {config : PoolConfig} {pool : ChildPool} {isAlive : Nat → Bool} {now : Nat} {balance : Int}

/-- Either nothing is asked for, or just so much that all that is there, was there or is on its way
makes the balance. -/
theorem ChildPool.rebalanceChildren_cases :
    (pool.rebalanceChildren isAlive now balance = (none, pool.cleanup isAlive now)) ∨
    ∃ missing : Int, 0 < missing ∧
      missing = balance - pool.newChildren.length - (pool.cleanup isAlive now).outstandingForks ∧
      pool.rebalanceChildren isAlive now balance =
        (some (spawnMessage missing),
          { pool.cleanup isAlive now with
            outstandingForks := (pool.cleanup isAlive now).outstandingForks + missing
            lastForkRequestTime := now }) := by
  unfold rebalanceChildren
  dsimp only
  split
  next isMissing =>
    refine .inr ⟨_, isMissing.1, rfl, ?_⟩
    exact if_pos isMissing.1
  next => exact .inl rfl

@[simp] theorem ChildPool.cleanup_newChildren :
    (pool.cleanup isAlive now).newChildren = pool.newChildren.filter isAlive := by
  unfold cleanup
  split <;> rfl

theorem ChildPool.cleanup_outstandingForks : (pool.cleanup isAlive now).outstandingForks =
    if pool.TimedOut now then 0 else pool.outstandingForks := by
  unfold cleanup
  split <;> rfl

theorem stoi_line (fits : -intMax - 1 ≤ balance ∧ balance ≤ intMax) :
    stoi (printInt balance) = some balance := by
  have isRead := @readLong_printInt balance [] nofun
  rw [List.append_nil] at isRead
  rw [stoi, isRead]
  exact if_pos fits

/-- The forkit process reads the number that was asked for. -/
theorem handleSpawn_spawnMessage (positive : 0 < balance) (fits : balance ≤ intMax)
    (forkCounter : Nat) : handleSpawn (spawnMessage balance) forkCounter = balance.toNat := by
  have isSpawn : IsWord ' ' "spawn".toList := ⟨by decide, by decide, by decide⟩
  have isNumber : IsWord ' ' (printInt balance) :=
    ⟨printInt_ne_nil balance, notMem_printInt (by decide) (by decide),
      notMem_printInt (by decide) (by decide)⟩
  have areTokens : tokenize (spawnMessage balance) ' ' = ["spawn".toList, printInt balance] := by
    have notNul : (spawnMessage balance).head? ≠ some '\x00' := by
      change some 's' ≠ _
      decide
    rw [tokenize, if_neg notNul]
    change tokenizeFrom ' ' [] ("spawn".toList ++ ' ' :: (printInt balance ++ ['\n'])) = _
    rw [tokenizeFrom_begin isSpawn, tokenizeFrom_word_delimiter isSpawn (by decide),
      tokenizeFrom_delimiter isNumber, tokenizeFrom_newline isNumber]
  have isCount : stoi (printInt balance) = some balance :=
    stoi_line ⟨by unfold intMax; omega, fits⟩
  unfold handleSpawn
  rw [areTokens]
  dsimp only
  rw [if_pos rfl, isCount]
  exact if_pos positive

/-- How many kits a message asks for. -/
def asked (message : Text) : Nat := handleSpawn message 0

/-- A request replaces what is left of the one before. -/
theorem handleSpawn_cases (message : Text) (forkCounter : Nat) :
    handleSpawn message forkCounter = forkCounter ∨
      handleSpawn message forkCounter = asked message := by
  unfold asked handleSpawn
  split
  next name number =>
    split
    next =>
      split
      next count _ =>
        split
        next => exact .inr rfl
        next => exact .inl rfl
      next => exact .inl rfl
    next => exact .inl rfl
  next => exact .inl rfl

/-- No fork that was asked for is lost, whether forks succeed or not. -/
theorem forkRounds_add (retry : Nat) (forks : List Bool) (forkCounter : Nat) :
    (forkRounds retry forks forkCounter).1 + (forkRounds retry forks forkCounter).2 =
      forkCounter := by
  induction retry generalizing forks forkCounter with
  | zero => rfl
  | succ retry ih =>
      cases forkCounter with
      | zero => rfl
      | succ forkCounter =>
          unfold forkRounds
          split
          next => exact congrArg (· + 1) (ih forks.tail forkCounter)
          next => exact ih forks.tail (forkCounter + 1)

theorem forkLibreOfficeKit_add (forks : List Bool) (forkCounter : Nat) :
    (forkLibreOfficeKit forks forkCounter).1 + (forkLibreOfficeKit forks forkCounter).2 =
      forkCounter := by
  unfold forkLibreOfficeKit
  split
  next => exact forkRounds_add _ forks forkCounter
  next => rfl

end

namespace KitSupply

variable {config : PoolConfig} {supply : KitSupply} {isAlive : Nat → Bool} {isOwner : Bool}
  {balance : Int} {events : List SupplyEvent}

/-!
## No kit is in two places
-/

/-- Every kit that was forked is in one place. -/
def Accounted (supply : KitSupply) : Prop :=
  (supply.pool.newChildren ++ (supply.connecting ++ (supply.handed ++ supply.buried))).Perm
    (List.range supply.forks)

theorem accounted_iff : supply.Accounted ↔ ∀ kit,
    supply.pool.newChildren.count kit + (supply.connecting.count kit +
      (supply.handed.count kit + supply.buried.count kit)) = (List.range supply.forks).count kit := by
  simp only [Accounted, List.perm_iff_count, List.count_append]

/-- A message moves no kit. -/
theorem accounted_sendTextFrame {message : Text} (isAccounted : supply.Accounted) :
    (supply.sendTextFrame message).Accounted := by
  unfold sendTextFrame
  split <;> exact isAccounted

theorem accounted_sendMessageToForKit (isAccounted : supply.Accounted) (message : Option Text) :
    (supply.sendMessageToForKit isOwner message).Accounted := by
  cases message with
  | none => exact isAccounted
  | some message =>
      cases isOwner with
      | false => exact isAccounted
      | true => exact accounted_sendTextFrame isAccounted

theorem rebalanceChildren_newChildren {pool : ChildPool} {now : Nat} :
    (pool.rebalanceChildren isAlive now balance).2.newChildren = pool.newChildren.filter isAlive := by
  obtain isNone | ⟨missing, -, -, isSome⟩ :=
    @ChildPool.rebalanceChildren_cases pool isAlive now balance
  · rw [isNone]
    exact ChildPool.cleanup_newChildren
  · rw [isSome]
    exact ChildPool.cleanup_newChildren

theorem accounted_rebalance (isAccounted : supply.Accounted) :
    (supply.rebalance isOwner isAlive balance).Accounted := by
  apply accounted_sendMessageToForKit
  rw [accounted_iff] at isAccounted ⊢
  intro kit
  have isParted := (List.filter_append_perm isAlive supply.pool.newChildren).count_eq kit
  have isThere := isAccounted kit
  dsimp only
  rw [rebalanceChildren_newChildren]
  rw [List.count_append] at isParted ⊢
  omega

theorem accounted_createForKit (isAccounted : supply.Accounted) :
    (supply.createForKit config isAlive).Accounted := by
  unfold createForKit
  dsimp only
  split
  next => exact accounted_rebalance isAccounted
  next => exact isAccounted

theorem accounted_forkChildren (isAccounted : supply.Accounted) (number : Nat) :
    (supply.forkChildren number).Accounted := by
  have isRange : List.range (supply.forks + number) =
      List.range supply.forks ++ List.range' supply.forks number := by
    have isLonger := @List.range'_append_1 0 supply.forks number
    rw [Nat.zero_add] at isLonger
    rw [List.range_eq_range', List.range_eq_range', isLonger]
  rw [accounted_iff] at isAccounted ⊢
  intro kit
  have isThere := isAccounted kit
  dsimp only [forkChildren]
  rw [isRange, List.count_append, List.count_append]
  omega

theorem accounted_takeChild (isAccounted : supply.Accounted) :
    (supply.takeChild isAlive).Accounted := by
  unfold takeChild
  split
  next => exact isAccounted
  next child isLast =>
    have isParted := List.dropLast_append_getLast? child isLast
    rw [accounted_iff] at isAccounted
    dsimp only
    split
    all_goals
      rw [accounted_iff]
      intro kit
      have isThere := isAccounted kit
      rw [← isParted, List.count_append] at isThere
      dsimp only
      rw [List.count_append]
      omega

theorem accounted_step (isAccounted : supply.Accounted) (event : SupplyEvent) :
    (supply.step config event).Accounted := by
  cases event with
  | tick milliseconds => exact isAccounted
  | relaunch isAlive => exact accounted_createForKit isAccounted
  | firstFork =>
      dsimp only [step]
      split
      next => exact accounted_forkChildren isAccounted 1
      next => exact isAccounted
  | connect =>
      dsimp only [step]
      split <;> exact isAccounted
  | callback =>
      dsimp only [step, runCallback]
      split
      next => exact isAccounted
      next => exact accounted_sendTextFrame isAccounted
  | prespawn isAlive => exact accounted_rebalance isAccounted
  | request isAlive => exact accounted_rebalance isAccounted
  | take isAlive =>
      dsimp only [step]
      split
      next => exact isAccounted
      next => exact accounted_takeChild isAccounted
  | giveUp => exact isAccounted
  | receive =>
      dsimp only [step, receive]
      split <;> exact isAccounted
  | pass forks => exact accounted_forkChildren isAccounted _
  | arrive child =>
      dsimp only [step]
      split
      next isConnecting =>
        rw [accounted_iff] at isAccounted ⊢
        intro kit
        have isThere := isAccounted kit
        have isParted := (List.perm_cons_erase isConnecting).count_eq kit
        dsimp only [ChildPool.addNewChild]
        rw [List.count_cons] at isParted
        rw [List.count_append, List.count_singleton]
        omega
      next => exact isAccounted
  | die child =>
      dsimp only [step]
      split
      next isConnecting =>
        rw [accounted_iff] at isAccounted ⊢
        intro kit
        have isThere := isAccounted kit
        have isParted := (List.perm_cons_erase isConnecting).count_eq kit
        dsimp only
        rw [List.count_cons] at isParted
        rw [List.count_append, List.count_singleton]
        omega
      next => exact isAccounted

/-- Whatever the order in which kits are asked for, forked, connected, taken and found dead: every
kit is in one place. No two brokers have the same kit, and a kit that a broker has is not in
reserve. -/
theorem run_accounted (config : PoolConfig) (now : Nat) (events : List SupplyEvent) :
    let supply := run (step config) (start config now) events
    (supply.pool.newChildren ++ (supply.connecting ++ (supply.handed ++ supply.buried))).Perm
        (List.range supply.forks) ∧
      supply.handed.Nodup ∧ supply.handed.Disjoint supply.pool.newChildren := by
  have initially : (blank now).Accounted := List.Perm.refl []
  have permitted : Permitted (step config) (fun _ _ => True) (start config now) events :=
    permitted_of_forall (fun _ _ => trivial) _ _
  have isAccounted : Accounted (run (step config) (start config now) events) :=
    run_invariant Accounted (fun _ event isAccounted _ => accounted_step isAccounted event)
      (accounted_createForKit initially) permitted
  have distinct := isAccounted.nodup_iff.mpr List.nodup_range
  obtain ⟨-, areOthers, areApart⟩ := List.nodup_append'.mp distinct
  obtain ⟨-, areKept, -⟩ := List.nodup_append'.mp areOthers
  refine ⟨isAccounted, (List.nodup_append'.mp areKept).1, ?_⟩
  intro kit isHanded isSpare
  apply areApart isSpare
  simp [isHanded]

/-!
## No more kits than needed
-/

/-- Kits that may still come, because they are asked for or forked. -/
def inFlight (supply : KitSupply) : Nat :=
  (supply.callbacks.map asked).sum + ((supply.inbox.map asked).sum + (supply.forkCounter +
    (supply.connecting.length + supply.isStarting.toNat)))

/-- The server expects all kits that may come, but for those it has forgotten. -/
structure Bounded (limit : Int) (supply : KitSupply) : Prop where
  isNat : 0 ≤ supply.pool.outstandingForks
  expected : (supply.inFlight : Int) ≤ supply.pool.outstandingForks + supply.forgotten
  few : (supply.pool.newChildren.length : Int) + supply.inFlight ≤ limit + supply.forgotten

theorem inFlight_sendTextFrame (message : Text) :
    (supply.sendTextFrame message).inFlight ≤ supply.inFlight + asked message := by
  unfold sendTextFrame
  split
  next =>
    simp only [inFlight, List.map_append, List.sum_append, List.map_singleton, List.sum_singleton]
    omega
  next => exact Nat.le_add_right _ _

theorem inFlight_sendMessageToForKit (message : Text) :
    (supply.sendMessageToForKit isOwner (some message)).inFlight ≤
      supply.inFlight + asked message := by
  cases isOwner with
  | true => exact inFlight_sendTextFrame message
  | false =>
      simp only [sendMessageToForKit, Bool.false_eq_true, if_false, inFlight, List.map_append,
        List.sum_append, List.map_singleton, List.sum_singleton]
      omega

/-- Sending changes nothing but the messages that are on their way. -/
theorem sendTextFrame_frame (supply : KitSupply) (message : Text) :
    ∃ inbox, supply.sendTextFrame message = { supply with inbox := inbox } := by
  unfold sendTextFrame
  split
  next => exact ⟨_, rfl⟩
  next => exact ⟨supply.inbox, rfl⟩

theorem sendMessageToForKit_frame (supply : KitSupply) (isOwner : Bool) (message : Option Text) :
    ∃ callbacks inbox, supply.sendMessageToForKit isOwner message =
      { supply with callbacks := callbacks, inbox := inbox } := by
  cases message with
  | none => exact ⟨supply.callbacks, supply.inbox, rfl⟩
  | some message =>
      cases isOwner with
      | true =>
          obtain ⟨inbox, isSent⟩ := sendTextFrame_frame supply message
          exact ⟨supply.callbacks, inbox, isSent⟩
      | false => exact ⟨_, supply.inbox, rfl⟩

@[simp] theorem sendMessageToForKit_pool (message : Option Text) :
    (supply.sendMessageToForKit isOwner message).pool = supply.pool := by
  obtain ⟨callbacks, inbox, isSent⟩ := sendMessageToForKit_frame supply isOwner message
  rw [isSent]

@[simp] theorem sendMessageToForKit_forgotten (message : Option Text) :
    (supply.sendMessageToForKit isOwner message).forgotten = supply.forgotten := by
  obtain ⟨callbacks, inbox, isSent⟩ := sendMessageToForKit_frame supply isOwner message
  rw [isSent]

@[simp] theorem sendMessageToForKit_relaunches (message : Option Text) :
    (supply.sendMessageToForKit isOwner message).relaunches = supply.relaunches := by
  obtain ⟨callbacks, inbox, isSent⟩ := sendMessageToForKit_frame supply isOwner message
  rw [isSent]

@[simp] theorem sendMessageToForKit_hasForKitProc (message : Option Text) :
    (supply.sendMessageToForKit isOwner message).hasForKitProc = supply.hasForKitProc := by
  obtain ⟨callbacks, inbox, isSent⟩ := sendMessageToForKit_frame supply isOwner message
  rw [isSent]

section

variable {limit : Int}

/-- What is no longer outstanding is forgotten. -/
theorem cleanup_forgotten (isNat : 0 ≤ supply.pool.outstandingForks) :
    let cleaned := supply.pool.cleanup isAlive supply.now
    let forgotten :=
      if supply.pool.TimedOut supply.now then supply.forgotten + supply.pool.outstandingForks
      else supply.forgotten
    0 ≤ cleaned.outstandingForks ∧ supply.forgotten ≤ forgotten ∧
      cleaned.outstandingForks + forgotten = supply.pool.outstandingForks + supply.forgotten := by
  dsimp only
  rw [ChildPool.cleanup_outstandingForks]
  split <;> omega

theorem bounded_rebalance (isBounded : Bounded limit supply) (inLimit : balance ≤ limit)
    (fits : balance ≤ intMax) : Bounded limit (supply.rebalance isOwner isAlive balance) := by
  obtain ⟨isNat, expected, few⟩ := isBounded
  have fewer := List.length_filter_le isAlive supply.pool.newChildren
  obtain ⟨stillNat, isMore, sameSum⟩ := @cleanup_forgotten supply isAlive isNat
  unfold rebalance
  revert isMore sameSum
  generalize (if supply.pool.TimedOut supply.now then supply.forgotten + supply.pool.outstandingForks
    else supply.forgotten) = forgotten
  intro isMore sameSum
  have same : ∀ (pool : ChildPool) (buried : List Nat),
      inFlight { supply with pool := pool, buried := buried, forgotten := forgotten } =
        supply.inFlight := fun _ _ => rfl
  obtain isNone | ⟨missing, positive, isMissing, isSome⟩ :=
    @ChildPool.rebalanceChildren_cases supply.pool isAlive supply.now balance
  · rw [isNone]
    constructor
    all_goals
      simp only [sendMessageToForKit, same, ChildPool.cleanup_newChildren]
      omega
  · have isAsked : asked (spawnMessage missing) = missing.toNat :=
      handleSpawn_spawnMessage positive (by omega) 0
    have inAll := fun pool buried => @inFlight_sendMessageToForKit
      { supply with pool := pool, buried := buried, forgotten := forgotten } isOwner
      (spawnMessage missing)
    simp only [isAsked, same] at inAll
    rw [isSome]
    constructor
    · simp only [sendMessageToForKit_pool]
      omega
    · apply Int.le_trans (Int.ofNat_le.mpr (inAll _ _))
      simp only [sendMessageToForKit_pool, sendMessageToForKit_forgotten]
      omega
    · apply Int.le_trans (Int.add_le_add_left (Int.ofNat_le.mpr (inAll _ _)) _)
      simp only [sendMessageToForKit_pool, sendMessageToForKit_forgotten,
        ChildPool.cleanup_newChildren]
      omega

theorem bounded_createForKit (isBounded : Bounded limit supply)
    (inLimit : (config.numPreSpawnedChildren : Int) ≤ limit + 1) :
    Bounded (limit + 1) (supply.createForKit config isAlive) := by
  obtain ⟨isNat, expected, few⟩ := isBounded
  unfold inFlight at expected few
  have launched : Bounded (limit + 1) { supply with
      pool := { supply.pool with
        outstandingForks := supply.pool.outstandingForks + 1
        lastForkRequestTime := supply.now
        childSpawnTimeoutMs := childTimeoutMs * 4 }
      hasForKitProc := false
      inbox := []
      isStarting := true
      forkCounter := 0 } := by
    constructor
    all_goals
      simp only [inFlight, List.map_nil, List.sum_nil, Bool.toNat_true]
      omega
  have fits := config.fits
  unfold createForKit
  dsimp only
  split
  next => exact bounded_rebalance launched (by omega) (by omega)
  next => exact launched

theorem bounded_sendTextFrame {message : Text} {callbacks : List Text}
    (isBounded : Bounded limit supply) (isFirst : supply.callbacks = message :: callbacks) :
    Bounded limit ({ supply with callbacks := callbacks }.sendTextFrame message) := by
  obtain ⟨isNat, expected, few⟩ := isBounded
  have inAll := @inFlight_sendTextFrame { supply with callbacks := callbacks } message
  obtain ⟨inbox, isSent⟩ := sendTextFrame_frame { supply with callbacks := callbacks } message
  have isCounted : inFlight { supply with callbacks := callbacks } + asked message =
      supply.inFlight := by
    simp only [inFlight, isFirst, List.map_cons, List.sum_cons]
    omega
  constructor
  all_goals
    rw [isSent] at inAll ⊢
    dsimp only at inAll ⊢
    omega

theorem bounded_receive (isBounded : Bounded limit supply) : Bounded limit supply.receive := by
  obtain ⟨isNat, expected, few⟩ := isBounded
  unfold receive
  cases isInbox : supply.inbox with
  | nil => exact ⟨isNat, expected, few⟩
  | cons message inbox =>
      have fewer := handleSpawn_cases message supply.forkCounter
      simp only [inFlight, isInbox, List.map_cons, List.sum_cons] at expected few
      constructor
      all_goals
        simp only [inFlight]
        omega

theorem bounded_pass (isBounded : Bounded limit supply) (forks : List Bool) :
    Bounded limit (supply.pass forks) := by
  obtain ⟨isNat, expected, few⟩ := isBounded
  have sameSum := forkLibreOfficeKit_add forks supply.forkCounter
  unfold inFlight at expected few
  constructor
  all_goals
    simp only [pass, forkChildren, inFlight, List.length_append, List.length_range']
    omega

theorem bounded_firstFork (isBounded : Bounded limit supply) (isStarting : supply.isStarting = true) :
    Bounded limit ({ supply with isStarting := false }.forkChildren 1) := by
  obtain ⟨isNat, expected, few⟩ := isBounded
  unfold inFlight at expected few
  rw [isStarting, Bool.toNat_true] at expected few
  constructor
  all_goals
    simp only [forkChildren, inFlight, List.length_append, List.length_range', Bool.toNat_false]
    omega

theorem bounded_takeChild (isBounded : Bounded limit supply) :
    Bounded limit (supply.takeChild isAlive) := by
  obtain ⟨isNat, expected, few⟩ := isBounded
  unfold inFlight at expected few
  unfold takeChild
  split
  next => exact ⟨isNat, expected, few⟩
  next child isLast =>
    have fewer := @List.length_dropLast _ supply.pool.newChildren
    dsimp only
    split
    all_goals
      constructor
      all_goals
        simp only [inFlight]
        omega

/-- A kit that is not expected is not counted. -/
theorem addNewChild_outstandingForks {pool : ChildPool} (isNat : 0 ≤ pool.outstandingForks)
    (child : Nat) :
    (pool.addNewChild config child).outstandingForks = max 0 (pool.outstandingForks - 1) := by
  dsimp only [ChildPool.addNewChild]
  split <;> omega

theorem bounded_arrive {child : Nat} (isBounded : Bounded limit supply)
    (isConnecting : child ∈ supply.connecting) : Bounded limit { supply with
      connecting := supply.connecting.erase child
      pool := supply.pool.addNewChild config child } := by
  obtain ⟨isNat, expected, few⟩ := isBounded
  have isOne := List.length_erase_of_mem isConnecting
  have some := List.length_pos_of_mem isConnecting
  have isCounted := @addNewChild_outstandingForks config _ isNat child
  unfold inFlight at expected few
  constructor
  · exact isCounted ▸ Int.le_max_left 0 _
  · simp only [isCounted, inFlight]
    omega
  · simp only [ChildPool.addNewChild, inFlight, List.length_append, List.length_singleton]
    omega

theorem bounded_die {child : Nat} {buried : List Nat} (isBounded : Bounded limit supply) :
    Bounded limit { supply with
      connecting := supply.connecting.erase child
      buried := buried } := by
  obtain ⟨isNat, expected, few⟩ := isBounded
  have fewer := List.length_erase_le (a := child) (l := supply.connecting)
  unfold inFlight at expected few
  constructor
  all_goals
    simp only [inFlight]
    omega

end

@[simp] theorem rebalance_relaunches :
    (supply.rebalance isOwner isAlive balance).relaunches = supply.relaunches :=
  sendMessageToForKit_relaunches _

@[simp] theorem takeChild_relaunches :
    (supply.takeChild isAlive).relaunches = supply.relaunches := by
  unfold takeChild
  split
  next => rfl
  next =>
    dsimp only
    split <;> rfl

/-- How many kits there may be but for those that the server has forgotten. -/
def limit (config : PoolConfig) (supply : KitSupply) : Int :=
  config.numPreSpawnedChildren + 1 + supply.relaunches

theorem bounded_step (isBounded : Bounded (limit config supply) supply) (event : SupplyEvent) :
    Bounded (limit config (supply.step config event)) (supply.step config event) := by
  have fits := config.fits
  have inLimit : (config.numPreSpawnedChildren : Int) + 1 ≤ limit config supply := by
    unfold limit
    omega
  cases event with
  | tick milliseconds => exact ⟨isBounded.isNat, isBounded.expected, isBounded.few⟩
  | relaunch isAlive =>
      have isLaunched := @bounded_createForKit config supply isAlive _ isBounded (by omega)
      have isMore : limit config (supply.step config (.relaunch isAlive)) =
          limit config supply + 1 := by
        simp only [limit, step, Nat.cast_add, Nat.cast_one]
        omega
      rw [isMore]
      exact ⟨isLaunched.isNat, isLaunched.expected, isLaunched.few⟩
  | firstFork =>
      dsimp only [step]
      split
      next isStarting => exact bounded_firstFork isBounded isStarting
      next => exact isBounded
  | connect =>
      dsimp only [step]
      split
      next => exact ⟨isBounded.isNat, isBounded.expected, isBounded.few⟩
      next => exact isBounded
  | callback =>
      dsimp only [step, runCallback]
      split
      next => exact isBounded
      next message callbacks isFirst =>
        have isBounded := bounded_sendTextFrame isBounded isFirst
        obtain ⟨inbox, isSent⟩ := sendTextFrame_frame { supply with callbacks := callbacks } message
        rw [isSent] at isBounded ⊢
        exact isBounded
  | prespawn isAlive =>
      simp only [step, limit, rebalance_relaunches]
      exact bounded_rebalance isBounded (by omega) (by omega)
  | request isAlive =>
      simp only [step, limit, rebalance_relaunches]
      have isWaiting : Bounded (limit config supply) { supply with waiting := supply.waiting + 1 } :=
        ⟨isBounded.isNat, isBounded.expected, isBounded.few⟩
      exact bounded_rebalance isWaiting inLimit fits
  | take isAlive =>
      dsimp only [step]
      split
      next => exact isBounded
      next =>
        simp only [limit, takeChild_relaunches]
        exact bounded_takeChild isBounded
  | giveUp => exact ⟨isBounded.isNat, isBounded.expected, isBounded.few⟩
  | receive =>
      have same : (supply.step config .receive).relaunches = supply.relaunches := by
        dsimp only [step, receive]
        split <;> rfl
      rw [limit, same]
      exact bounded_receive isBounded
  | pass forks => exact bounded_pass isBounded forks
  | arrive child =>
      dsimp only [step]
      split
      next isConnecting => exact bounded_arrive isBounded isConnecting
      next => exact isBounded
  | die child =>
      dsimp only [step]
      split
      next => exact bounded_die isBounded
      next => exact isBounded

theorem bounded_start (config : PoolConfig) (now : Nat) :
    Bounded (limit config (start config now)) (start config now) := by
  have initially : Bounded (config.numPreSpawnedChildren : Int) (blank now) := by
    constructor
    all_goals
      simp [blank, inFlight]
  have isFirst : (start config now).relaunches = 0 := by
    unfold start createForKit
    dsimp only
    split
    next => exact rebalance_relaunches
    next => rfl
  rw [limit, isFirst]
  exact bounded_createForKit initially (by omega)

/-- The server never has more kits in reserve than one more than it is configured to keep, and
for each fork that it has forgotten and each time that the forkit process was replaced one more. So
it is also for those in reserve together with all that may still come. -/
theorem run_bounded (config : PoolConfig) (now : Nat) (events : List SupplyEvent) :
    let supply := run (step config) (start config now) events
    0 ≤ supply.pool.outstandingForks ∧
      (supply.pool.newChildren.length : Int) + supply.inFlight ≤
        config.numPreSpawnedChildren + 1 + supply.relaunches + supply.forgotten := by
  have permitted : Permitted (step config) (fun _ _ => True) (start config now) events :=
    permitted_of_forall (fun _ _ => trivial) _ _
  have isBounded := run_invariant (fun supply => Bounded (limit config supply) supply)
    (fun _ event isBounded _ => bounded_step isBounded event) (bounded_start config now) permitted
  exact ⟨isBounded.isNat, isBounded.few⟩

/-!
## What is asked for comes
-/

/-- As many kits as there shall be are there or will come. A request that was sent later replaces
what is left of the earlier ones. -/
inductive Promised (config : PoolConfig) (supply : KitSupply) : Prop where
  | forked (enough : config.numPreSpawnedChildren ≤
      supply.pool.newChildren.length + supply.connecting.length)
  | counted (isRead : supply.inbox = []) (enough : config.numPreSpawnedChildren ≤
      supply.pool.newChildren.length + supply.connecting.length + supply.forkCounter)
  | sent (earlier : List Text) (number : Int) (positive : 0 < number) (fits : number ≤ intMax)
      (isSent : supply.inbox = earlier ++ [spawnMessage number])
      (enough : (config.numPreSpawnedChildren : Int) ≤
        supply.pool.newChildren.length + supply.connecting.length + number)

/-- What is neither the death of a kit nor a broker in want of one. -/
def Undisturbed (supply : KitSupply) : SupplyEvent → Prop
  | .prespawn isAlive => ∀ child ∈ supply.pool.newChildren, isAlive child = true
  | .relaunch _ | .callback | .request _ | .take _ | .die _ => False
  | _ => True

/-- No fork is outstanding, or it was so long ago that the server forgets them. -/
def IsDue (supply : KitSupply) : Prop :=
  supply.pool.outstandingForks = 0 ∨ supply.pool.TimedOut supply.now

theorem cleanup_due (isDue : supply.IsDue) :
    (supply.pool.cleanup isAlive supply.now).outstandingForks = 0 := by
  rw [ChildPool.cleanup_outstandingForks]
  split
  next => rfl
  next notLate => exact isDue.resolve_right notLate

/-- When it is due, the server asks for all that is missing. -/
theorem promised_rebalance (isConnected : supply.hasForKitProc = true)
    (areAlive : ∀ child ∈ supply.pool.newChildren, isAlive child = true) (isDue : supply.IsDue) :
    Promised config (supply.rebalance true isAlive config.numPreSpawnedChildren) := by
  have fits := config.fits
  have sameChildren : supply.pool.newChildren.filter isAlive = supply.pool.newChildren :=
    List.filter_eq_self.mpr areAlive
  have noneOut := @cleanup_due supply isAlive isDue
  unfold rebalance ChildPool.rebalanceChildren
  dsimp only
  rw [ChildPool.cleanup_newChildren, noneOut, sameChildren]
  split
  next isMissing =>
    unfold ChildPool.forkChildren
    rw [if_pos isMissing.1]
    simp only [sendMessageToForKit, sendTextFrame, isConnected, if_true]
    refine .sent supply.inbox _ isMissing.1 (by omega) rfl ?_
    simp only [ChildPool.cleanup_newChildren, sameChildren]
    omega
  next notMissing =>
    apply Promised.forked
    simp only [sendMessageToForKit, ChildPool.cleanup_newChildren, sameChildren]
    omega

/-- When it is not due, the server waits for what is on its way. -/
theorem rebalance_waits (areAlive : ∀ child ∈ supply.pool.newChildren, isAlive child = true)
    (notDue : ¬supply.IsDue) :
    supply.rebalance isOwner isAlive balance = supply := by
  obtain ⟨isOut, notLate⟩ := not_or.mp notDue
  have sameChildren : supply.pool.newChildren.filter isAlive = supply.pool.newChildren :=
    List.filter_eq_self.mpr areAlive
  have noneDead : (supply.pool.newChildren.filter fun child => !isAlive child) = [] := by
    rw [List.filter_eq_nil_iff]
    intro child isSpare
    simp [areAlive child isSpare]
  have isSame : supply.pool.cleanup isAlive supply.now = supply.pool := by
    rw [ChildPool.cleanup, if_neg notLate, ChildPool.cleanupChildren, sameChildren]
  have nothing : supply.pool.rebalanceChildren isAlive supply.now balance = (none, supply.pool) := by
    unfold ChildPool.rebalanceChildren
    dsimp only
    rw [isSame]
    apply if_neg
    simp [isOut]
  rw [rebalance, nothing, noneDead, if_neg notLate, List.append_nil]
  rfl

theorem promised_receive (isPromised : Promised config supply) :
    Promised config supply.receive := by
  unfold receive
  cases isInbox : supply.inbox with
  | nil => exact isPromised
  | cons message inbox =>
      cases isPromised with
      | forked enough => exact .forked enough
      | counted isRead => cases isInbox.symm.trans isRead
      | sent earlier number positive fits isSent enough =>
          rw [isInbox] at isSent
          cases earlier with
          | nil =>
              obtain ⟨rfl, rfl⟩ := List.cons.inj isSent
              apply Promised.counted rfl
              simp only [handleSpawn_spawnMessage positive fits]
              omega
          | cons first earlier =>
              obtain ⟨rfl, rfl⟩ := List.cons.inj isSent
              exact .sent earlier number positive fits rfl enough

theorem promised_pass (isPromised : Promised config supply) (forks : List Bool) :
    Promised config (supply.pass forks) := by
  have sameSum := forkLibreOfficeKit_add forks supply.forkCounter
  cases isPromised with
  | forked enough =>
      apply Promised.forked
      simp only [pass, forkChildren, List.length_append]
      omega
  | counted isRead enough =>
      refine @Promised.counted config (supply.pass forks) isRead ?_
      simp only [pass, forkChildren, List.length_append, List.length_range']
      omega
  | sent earlier number positive fits isSent enough =>
      refine @Promised.sent config (supply.pass forks) earlier number positive fits isSent ?_
      simp only [pass, forkChildren, List.length_append]
      omega

theorem promised_mono {other : KitSupply} (isPromised : Promised config supply)
    (sameInbox : other.inbox = supply.inbox) (sameCounter : other.forkCounter = supply.forkCounter)
    (isMore : supply.pool.newChildren.length + supply.connecting.length ≤
      other.pool.newChildren.length + other.connecting.length) : Promised config other := by
  cases isPromised with
  | forked enough => exact .forked (Nat.le_trans enough isMore)
  | counted isRead enough => exact .counted (sameInbox.trans isRead) (by omega)
  | sent earlier number positive fits isSent enough =>
      exact .sent earlier number positive fits (sameInbox.trans isSent) (by omega)

theorem rebalance_hasForKitProc :
    (supply.rebalance isOwner isAlive balance).hasForKitProc = supply.hasForKitProc :=
  sendMessageToForKit_hasForKitProc _

theorem promised_step (isPromised : supply.hasForKitProc = true ∧ Promised config supply)
    (event : SupplyEvent) (isUndisturbed : Undisturbed supply event) :
    (supply.step config event).hasForKitProc = true ∧
      Promised config (supply.step config event) := by
  obtain ⟨isConnected, isPromised⟩ := isPromised
  cases event with
  | tick milliseconds => exact ⟨isConnected, promised_mono isPromised rfl rfl (Nat.le_refl _)⟩
  | relaunch isAlive => cases isUndisturbed
  | firstFork =>
      dsimp only [step]
      split
      next =>
        refine ⟨isConnected, promised_mono isPromised rfl rfl ?_⟩
        simp only [forkChildren, List.length_append]
        omega
      next => exact ⟨isConnected, isPromised⟩
  | connect =>
      dsimp only [step]
      split
      next => exact ⟨rfl, promised_mono isPromised rfl rfl (Nat.le_refl _)⟩
      next => exact ⟨isConnected, isPromised⟩
  | callback => cases isUndisturbed
  | prespawn isAlive =>
      refine ⟨rebalance_hasForKitProc.trans isConnected, ?_⟩
      by_cases isDue : supply.IsDue
      · exact promised_rebalance isConnected isUndisturbed isDue
      · dsimp only [step]
        rw [rebalance_waits isUndisturbed isDue]
        exact isPromised
  | request isAlive => cases isUndisturbed
  | take isAlive => cases isUndisturbed
  | giveUp => exact ⟨isConnected, promised_mono isPromised rfl rfl (Nat.le_refl _)⟩
  | receive =>
      refine ⟨?_, promised_receive isPromised⟩
      dsimp only [step, receive]
      split <;> exact isConnected
  | pass forks => exact ⟨isConnected, promised_pass isPromised forks⟩
  | arrive child =>
      dsimp only [step]
      split
      next isConnecting =>
        refine ⟨isConnected, promised_mono isPromised rfl rfl ?_⟩
        have isOne := List.length_erase_of_mem isConnecting
        have some := List.length_pos_of_mem isConnecting
        simp only [ChildPool.addNewChild, List.length_append, List.length_singleton]
        omega
      next => exact ⟨isConnected, isPromised⟩
  | die child => cases isUndisturbed

/-- When the server looks after its reserve while no fork is outstanding, or after it has waited too
long for some, it has as many kits as it shall have once nothing is on its way any more. The order
in which the forkit process reads, forks and fails to fork and the kits connect makes no
difference, and neither does it when the server looks again. -/
theorem run_refills (isConnected : supply.hasForKitProc = true) (isDue : supply.IsDue)
    (permitted : Permitted (step config) Undisturbed supply (.prespawn isAlive :: events))
    (isRead : (run (step config) supply (.prespawn isAlive :: events)).inbox = [])
    (isCounted : (run (step config) supply (.prespawn isAlive :: events)).forkCounter = 0)
    (areThere : (run (step config) supply (.prespawn isAlive :: events)).connecting = []) :
    config.numPreSpawnedChildren ≤
      (run (step config) supply (.prespawn isAlive :: events)).pool.newChildren.length := by
  obtain ⟨areAlive, permitted⟩ := permitted
  have initially : (supply.step config (.prespawn isAlive)).hasForKitProc = true ∧
      Promised config (supply.step config (.prespawn isAlive)) :=
    ⟨rebalance_hasForKitProc.trans isConnected, promised_rebalance isConnected areAlive isDue⟩
  have isPromised := (run_invariant
    (fun supply => supply.hasForKitProc = true ∧ Promised config supply)
    (fun _ event isPromised isUndisturbed => promised_step isPromised event isUndisturbed)
    initially permitted).2
  change Promised config (run (step config) supply (.prespawn isAlive :: events)) at isPromised
  cases isPromised with
  | forked enough => simpa [areThere] using enough
  | counted _ enough => simpa [areThere, isCounted] using enough
  | sent earlier number _ _ isSent => simp [isRead] at isSent

theorem two_fits : ((2 : Nat) : Int) + 1 ≤ intMax := by decide

/-- Two spare kits. -/
def pair : PoolConfig := ⟨2, Nat.le_succ 1, two_fits, true⟩

/-- The first kit is there. -/
def begun : KitSupply := run (step pair) (start pair 0) [.firstFork, .connect, .arrive 0]

/-- The forkit process fails to fork at first. -/
def refill : List SupplyEvent :=
  [.receive, .pass [false], .prespawn fun _ => true, .pass [true], .arrive 1]

theorem run_refills_pair : pair.numPreSpawnedChildren ≤
    (run (step pair) begun (.prespawn (fun _ => true) :: refill)).pool.newChildren.length := by
  apply run_refills
  · decide +kernel
  · exact .inl (by decide +kernel)
  · exact ⟨fun _ _ => rfl, trivial, trivial, fun _ _ => rfl, trivial, trivial, trivial⟩
  · decide +kernel
  · decide +kernel
  · decide +kernel

end KitSupply

end FreeOnline.Wsd
