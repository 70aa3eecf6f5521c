import Mathlib.Algebra.Ring.Nat
import Mathlib.Data.Int.Basic
import Mathlib.Data.List.Basic

/-!
# Fake sockets

Where everything runs in one process, a socket is a number. Two numbers, an even one and the
odd one behind it, share an entry of a vector; each is the end of what the other one writes.
-/

set_option autoImplicit false

namespace FreeOnline.Net.FakeSocket

abbrev Record := List UInt8

inductive Errno where
  | badf
  | isconn
  | io
  | connrefused
  | again
  | pipe
  | notconn
deriving DecidableEq

/-- Why a call does not do what it is for. -/
inductive Failure where
  | errno (code : Errno)
  | assertion
deriving DecidableEq

/-- What `FakeSocketPair` has for each of the two descriptors. -/
structure FakeSocketEnd where
  fd : Int
  shutdown : Bool
  readable : Bool
  buffer : List Record
deriving DecidableEq

def FakeSocketEnd.create : FakeSocketEnd := ⟨-1, false, false, []⟩

structure FakeSocketPair where
  lower : FakeSocketEnd
  higher : FakeSocketEnd
  listening : Bool
  connectingFd : Int
deriving DecidableEq

namespace FakeSocketPair

def create : FakeSocketPair := ⟨.create, .create, false, -1⟩

/-- The end of a descriptor, by whether that is odd. -/
def side (pair : FakeSocketPair) (K : Bool) : FakeSocketEnd := if K then pair.higher else pair.lower

def setSide (pair : FakeSocketPair) (K : Bool) (it : FakeSocketEnd) : FakeSocketPair :=
  if K then { pair with higher := it } else { pair with lower := it }

@[simp] theorem side_setSide (pair : FakeSocketPair) (K : Bool) (it : FakeSocketEnd) :
    (pair.setSide K it).side K = it := by
  cases K <;> rfl

@[simp] theorem side_setSide_peer (pair : FakeSocketPair) (K : Bool) (it : FakeSocketEnd) :
    (pair.setSide K it).side (!K) = pair.side (!K) := by
  cases K <;> rfl

@[simp] theorem side_peer_setSide (pair : FakeSocketPair) (K : Bool) (it : FakeSocketEnd) :
    (pair.setSide (!K) it).side K = pair.side K := by
  cases K <;> rfl

/-- Behind a read: a closed or shut down peer leaves the end readable. -/
def afterRead (pair : FakeSocketPair) (K : Bool) : FakeSocketPair :=
  if (pair.side (!K)).fd = -1 ∨ (pair.side (!K)).shutdown then
    pair.setSide K { pair.side K with readable := true }
  else if (pair.side K).buffer = [] then pair.setSide K { pair.side K with readable := false }
  else pair

/-- The record that is read, or none where nothing is. -/
def read (pair : FakeSocketPair) (K : Bool) (nbytes : Nat) :
    Except Failure (Option Record) × FakeSocketPair :=
  if (pair.side K).fd = -1 then (.error (.errno .badf), pair)
  else if (pair.side K).shutdown then (.ok none, pair)
  else if (pair.side K).readable = false then (.error (.errno .again), pair)
  else
    match (pair.side K).buffer with
    | [] => (.ok none, pair.afterRead K)
    | record :: records =>
        -- the size of the record is cast to an unsigned int
        if nbytes < record.length % 2 ^ 32 then (.error (.errno .again), pair)
        else (.ok (some record), (pair.setSide K { pair.side K with buffer := records }).afterRead K)

def write (pair : FakeSocketPair) (K : Bool) (data : Record) :
    Except Failure Nat × FakeSocketPair :=
  if (pair.side K).fd = -1 then (.error (.errno .badf), pair)
  else if (pair.side K).shutdown then (.error (.errno .pipe), pair)
  else
    (.ok data.length, pair.setSide (!K)
      { pair.side (!K) with buffer := (pair.side (!K)).buffer ++ [data], readable := true })

def shutdown (pair : FakeSocketPair) (K : Bool) : Except Failure Unit × FakeSocketPair :=
  if (pair.side K).fd = -1 then (.error (.errno .badf), pair)
  else if (pair.side (!K)).fd = -1 then (.error (.errno .notconn), pair)
  else (.ok (), pair.setSide K { pair.side K with shutdown := true, readable := true })

def close (pair : FakeSocketPair) (K : Bool) (fd : Int) : Except Failure Unit × FakeSocketPair :=
  if (pair.side K).fd = -1 then (.error (.errno .badf), pair)
  else if (pair.side K).fd ≠ fd then (.error .assertion, pair)
  else
    (.ok (), (pair.setSide K { pair.side K with fd := -1, buffer := [] }).setSide (!K)
      { pair.side (!K) with readable := true })

def listen (pair : FakeSocketPair) (K : Bool) : Except Failure Unit × FakeSocketPair :=
  if (pair.side K).fd = -1 then (.error (.errno .badf), pair)
  else if K = true ∨ pair.higher.fd ≠ -1 then (.error (.errno .isconn), pair)
  else if pair.listening = true then (.error (.errno .io), pair)
  else (.ok (), { pair with listening := true, connectingFd := -1 })

/-- What `fakeSocketAccept4` checks before it waits. -/
def accept (pair : FakeSocketPair) (K : Bool) : Except Failure Unit × FakeSocketPair :=
  if K = true then (.error (.errno .isconn), pair)
  else if pair.listening = false then (.error (.errno .io), pair)
  else (.ok (), pair)

end FakeSocketPair

/-!
## Calls
-/

/-- The number of the pair of a descriptor. -/
def pairOf (fd : Int) : Nat := (fd / 2).toNat

def isOdd (fd : Int) : Bool := fd % 2 = 1

/-- A call on the pair of a descriptor, where it has one. -/
def onPair {Answer : Type} (fds : List FakeSocketPair) (fd : Int)
    (call : FakeSocketPair → Bool → Except Failure Answer × FakeSocketPair) :
    Except Failure Answer × List FakeSocketPair :=
  if fd < 0 then (.error (.errno .badf), fds)
  else
    match fds[pairOf fd]? with
    | none => (.error (.errno .badf), fds)
    | some pair =>
        let (answer, pair) := call pair (isOdd fd)
        (answer, fds.set (pairOf fd) pair)

def fakeSocketRead (fds : List FakeSocketPair) (fd : Int) (nbytes : Nat) :
    Except Failure (Option Record) × List FakeSocketPair :=
  onPair fds fd fun pair K => pair.read K nbytes

def fakeSocketWrite (fds : List FakeSocketPair) (fd : Int) (data : Record) :
    Except Failure Nat × List FakeSocketPair :=
  onPair fds fd fun pair K => pair.write K data

def fakeSocketShutdown (fds : List FakeSocketPair) (fd : Int) :
    Except Failure Unit × List FakeSocketPair :=
  onPair fds fd FakeSocketPair.shutdown

def fakeSocketClose (fds : List FakeSocketPair) (fd : Int) :
    Except Failure Unit × List FakeSocketPair :=
  onPair fds fd fun pair K => pair.close K fd

def fakeSocketListen (fds : List FakeSocketPair) (fd : Int) :
    Except Failure Unit × List FakeSocketPair :=
  onPair fds fd FakeSocketPair.listen

def fakeSocketAllocate (fds : List FakeSocketPair) : Int × List FakeSocketPair :=
  (fds.length * 2,
    fds ++ [{ FakeSocketPair.create with lower := { FakeSocketEnd.create with fd := fds.length * 2 } }])

/-- The rest of `fakeSocketPipe2`, behind the allocation. -/
def connectPipe (fds : List FakeSocketPair) (fd : Int) :
    Except Failure Unit × List FakeSocketPair :=
  onPair fds fd fun pair _ =>
    if pair.lower.fd ≠ fd then (.error .assertion, pair)
    else (.ok (), { pair with higher := { pair.higher with fd := pair.lower.fd + 1 } })

/-- What `fakeSocketConnect` does before it waits. -/
def fakeSocketConnect (fds : List FakeSocketPair) (fd1 fd2 : Int) :
    Except Failure Unit × List FakeSocketPair :=
  if fd1 < 0 ∨ fd2 < 0 ∨ fds.length ≤ pairOf fd1 ∨ fds.length ≤ pairOf fd2 then
    (.error (.errno .badf), fds)
  else if pairOf fd1 = pairOf fd2 then (.error (.errno .badf), fds)
  else if isOdd fd1 = true ∨ isOdd fd2 = true then (.error (.errno .isconn), fds)
  else
    onPair fds fd2 fun pair _ =>
      if pair.listening = false ∨ pair.connectingFd ≠ -1 then (.error (.errno .connrefused), pair)
      else (.ok (), { pair with connectingFd := fd1 })

/-- The end of the wait of `fakeSocketConnect`, or none where it waits on. -/
def connectWait (fds : List FakeSocketPair) (fd1 : Int) : Option (Except Failure Unit) :=
  match fds[pairOf fd1]? with
  | none => none
  | some pair =>
      if pair.higher.fd = -1 then none
      else if pair.higher.fd ≠ pair.lower.fd + 1 then some (.error .assertion)
      else some (.ok ())

def fakeSocketAccept4 (fds : List FakeSocketPair) (fd : Int) :
    Except Failure Unit × List FakeSocketPair :=
  onPair fds fd FakeSocketPair.accept

/-- What `fakeSocketAccept4` does with the connection that is there, or none where it waits on:
the new descriptor is that of the other end of the connecting pair. -/
def acceptWait (fds : List FakeSocketPair) (fd : Int) :
    Option (Except Failure Int × List FakeSocketPair) :=
  match fds[pairOf fd]? with
  | none => none
  | some pair =>
      if pair.connectingFd = -1 then none
      else if pair.connectingFd < 0 ∨ isOdd pair.connectingFd = true then
        some (.error .assertion, fds)
      else
        match fds[pairOf pair.connectingFd]? with
        | none => some (.error .assertion, fds)
        | some pair2 =>
            if pair2.higher.fd ≠ -1 ∨ pair2.lower.fd ≠ pair.connectingFd then
              some (.error .assertion, fds)
            else
              let fds := fds.set (pairOf fd) { pair with connectingFd := -1 }
              some (.ok (pair2.lower.fd + 1), fds.modify (pairOf pair.connectingFd) fun pair2 =>
                { pair2 with higher := { pair2.higher with fd := pair2.lower.fd + 1 } })

/-- The assertions of the dump on the pair at an index. -/
def dumpPair (i : Nat) (pair : FakeSocketPair) : Bool :=
  if pair.lower.fd ≠ -1 then
    pair.lower.fd = i * 2 &&
      (pair.higher.fd = -1 || (pair.higher.fd = i * 2 + 1 && !pair.listening))
  else pair.higher.fd = -1 || (pair.higher.fd = i * 2 + 1 && !pair.listening)

/-- Whether the assertions of `fakeSocketDumpStateImpl` hold. -/
def fakeSocketDumpState (fds : List FakeSocketPair) : Bool :=
  fds.zipIdx.all fun (pair, i) => dumpPair i pair

/-!
## Descriptors
-/

/-- The descriptors of a pair. -/
def descriptor (i : Nat) (K : Bool) : Int := 2 * i + if K then 1 else 0

theorem descriptor_nonneg (i : Nat) (K : Bool) : 0 ≤ descriptor i K := by
  unfold descriptor
  split <;> omega

@[simp] theorem pairOf_descriptor (i : Nat) (K : Bool) : pairOf (descriptor i K) = i := by
  unfold pairOf descriptor
  split <;> omega

@[simp] theorem isOdd_descriptor (i : Nat) (K : Bool) : isOdd (descriptor i K) = K := by
  cases K <;> simp [isOdd, descriptor]

theorem descriptor_eq {fd : Int} (nonneg : 0 ≤ fd) : descriptor (pairOf fd) (isOdd fd) = fd := by
  unfold descriptor pairOf isOdd
  by_cases odd : fd % 2 = 1
  · simp [odd]
    omega
  · simp [odd]
    omega

theorem onPair_descriptor {Answer : Type} {fds : List FakeSocketPair} {i : Nat}
    {pair : FakeSocketPair} (isPair : fds[i]? = some pair) (K : Bool)
    (call : FakeSocketPair → Bool → Except Failure Answer × FakeSocketPair) :
    onPair fds (descriptor i K) call = ((call pair K).1, fds.set i (call pair K).2) := by
  rw [onPair, if_neg (Int.not_lt.mpr (descriptor_nonneg i K)), pairOf_descriptor, isPair,
    isOdd_descriptor]

theorem onPair_other {Answer : Type} {fds : List FakeSocketPair} {fd : Int} {i : Nat}
    (other : ∀ K, fd ≠ descriptor i K)
    (call : FakeSocketPair → Bool → Except Failure Answer × FakeSocketPair) :
    (onPair fds fd call).2[i]? = fds[i]? := by
  unfold onPair
  split
  · rfl
  · next nonneg =>
      have isOther : pairOf fd ≠ i := by
        rintro rfl
        exact other (isOdd fd) (descriptor_eq (Int.not_lt.mp nonneg)).symm
      split
      · rfl
      · exact List.getElem?_set_ne isOther

end FreeOnline.Net.FakeSocket
