import FreeOnline.Library.Hex
import FreeOnline.Library.Utf8
import FreeOnline.Library.Walk
import Mathlib.Data.Int.ConditionallyCompleteOrder
import Mathlib.Data.Int.Interval

/-!
# The proxy socket of the browser

Messages to the server are queued and posted together. The body of a response is parsed in
place: the reader looks for the ends of two lines and cuts the content out behind them. An
index may be negative or, as the sum with a size that is no number, none at all. Sums are
exact up to `2 ^ 53`, and behind that every array has ended.
-/

set_option autoImplicit false

namespace FreeOnline.Browser

open FreeOnline.Library Relation

abbrev Bytes := List UInt8

inductive Data where
  | text (content : Text)
  | binary (content : Bytes)
deriving DecidableEq

structure ProxySocket where
  inSerial : Option Int
  outSerial : Nat
  sendQueue : Text
  /-- What `onmessage` was called with. -/
  received : List Data
deriving DecidableEq

namespace ProxySocket

def create : ProxySocket := ⟨some 0, 0, [], []⟩

/-!
## Sending
-/

/-- A number in base 16, as `toString(16)` writes it. -/
def hexText (n : Nat) : Text := (Hex.write n).map Char.ofNat

/-- `++` on a number. -/
def increment (n : Nat) : Nat := if n < 2 ^ 53 then n + 1 else n

def frame (outSerial : Nat) (msg : Text) : Text :=
  ['B', '0', 'x'] ++ hexText outSerial ++ '\n' ::
    (['0', 'x'] ++ hexText (Utf8.encode msg).length ++ '\n' :: (msg ++ ['\n']))

def send (socket : ProxySocket) (msg : Text) : ProxySocket :=
  { socket with
    sendQueue := socket.sendQueue ++ frame socket.outSerial msg
    outSerial := increment socket.outSerial }

/-- The body of the post, where `doSend` gets to one. -/
def doSend (socket : ProxySocket) : Bytes × ProxySocket :=
  (Utf8.encode socket.sendQueue, { socket with sendQueue := [] })

/-!
## Receiving
-/

/-- The byte at an index, or none where it is `undefined`. -/
def byteAt (arr : Bytes) (i : Int) : Option UInt8 := if 0 ≤ i then arr[i.toNat]? else none

/-- Where an argument of `slice` points to: none is zero, and negative ones count from the end. -/
def relativeIndex (length : Nat) : Option Int → Nat
  | none => 0
  | some index => if index < 0 then (length + index).toNat else min index.toNat length

def doSlice (bytes : Bytes) (start stop : Option Int) : Bytes :=
  (bytes.take (relativeIndex bytes.length stop)).drop (relativeIndex bytes.length start)

/-- What a `TextDecoder` makes of an array: a byte order mark in front is left out. -/
def decodeText (bytes : Bytes) : Text :=
  match Utf8.decode bytes with
  | '\uFEFF' :: text => text
  | text => text

def decode (bytes : Bytes) (start stop : Option Int) : Text := decodeText (doSlice bytes start stop)

def isStrWhiteSpace (code : Nat) : Bool :=
  (9 ≤ code && code ≤ 13) || code = 0x20 || code = 0xa0 || code = 0x1680 ||
    (0x2000 ≤ code && code ≤ 0x200a) || code = 0x2028 || code = 0x2029 || code = 0x202f ||
    code = 0x205f || code = 0x3000 || code = 0xfeff

/-- In base 16; none is NaN. -/
def parseInt (text : Text) : Option Int := Hex.read isStrWhiteSpace (text.map Char.toNat)

/-- The loop that looks for the end of a line, as long as it may run. -/
def skipLine (arr : Bytes) : Nat → Int → Option Int
  | 0, _ => none
  | fuel + 1, i => if byteAt arr i ≠ some 0x0a then skipLine arr fuel (i + 1) else some i

/-- A number on a line of its own: its preamble is missing, or it is read up to the index. -/
inductive Number where
  | missing
  | read (value : Option Int) (i : Int)
deriving DecidableEq

/-- The serial or the size at an index. -/
def readNumber (arr : Bytes) (fuel : Nat) (i : Int) : Option Number :=
  if byteAt arr i ≠ some 0x30 ∧ byteAt arr (i + 1) ≠ some 0x78 then some .missing
  else
    match skipLine arr fuel (i + 2) with
    | none => none
    | some stop => some (.read (parseInt (decode arr (some (i + 2)) (some stop))) (stop + 1))

/-- What is found at an index: a reason to leave the loop, or the head of a frame. -/
inductive Head where
  | broken (i : Int)
  | found (kind : UInt8) (serial size : Option Int) (i : Int)
deriving DecidableEq

def readHead (arr : Bytes) (fuel : Nat) (i : Int) : Option Head :=
  if arr.length - i < 4 then some (.broken i)
  else
    match byteAt arr i with
    | none => some (.broken i)
    | some kind =>
        if kind ≠ 0x54 ∧ kind ≠ 0x42 then some (.broken i)
        else
          match readNumber arr fuel (i + 1) with
          | none => none
          | some .missing => some (.broken (i + 1))
          | some (.read serial i) =>
              match readNumber arr fuel i with
              | none => none
              | some .missing => some (.broken i)
              | some (.read size i) => some (.found kind serial size i)

/-- The content is handed to `onmessage`. -/
def deliver (socket : ProxySocket) (arr : Bytes) (kind : UInt8) (serial size : Option Int)
    (i : Int) : ProxySocket :=
  let data :=
    if kind = 0x54 then .text (decode arr (some i) (size.map (i + ·)))
    else .binary (doSlice arr (some i) (size.map (i + ·)))
  { socket with inSerial := serial, received := socket.received ++ [data] }

theorem deliver_text (socket : ProxySocket) (arr : Bytes) (serial size : Option Int) (i : Int) :
    socket.deliver arr 0x54 serial size i =
      { socket with
        inSerial := serial
        received := socket.received ++ [.text (decode arr (some i) (size.map (i + ·)))] } := rfl

theorem deliver_binary (socket : ProxySocket) (arr : Bytes) (serial size : Option Int) (i : Int) :
    socket.deliver arr 0x42 serial size i =
      { socket with
        inSerial := serial
        received := socket.received ++ [.binary (doSlice arr (some i) (size.map (i + ·)))] } := rfl

/-- The loop at an index: where it is left and what the socket is then, as long as it may run. -/
def parseFrom (arr : Bytes) : Nat → Option Int → ProxySocket → Option (Option Int × ProxySocket)
  | 0, _, _ => none
  | _ + 1, none, socket => some (none, socket)
  | fuel + 1, some i, socket =>
      if i < arr.length then
        match readHead arr fuel i with
        | none => none
        | some (.broken i) => some (some i, socket)
        | some (.found kind serial size i) =>
            parseFrom arr fuel (size.map fun size => i + size + 1)
              (socket.deliver arr kind serial size i)
      else some (some i, socket)

def parseIncomingArray (fuel : Nat) (socket : ProxySocket) (arr : Bytes) :
    Option (Option Int × ProxySocket) :=
  parseFrom arr fuel (some 0) socket

def Terminates (socket : ProxySocket) (arr : Bytes) : Prop :=
  ∃ fuel, (parseIncomingArray fuel socket arr).isSome

/-!
## Lines
-/

def LineEnd (arr : Bytes) (start stop : Int) : Prop :=
  start ≤ stop ∧ byteAt arr stop = some 0x0a ∧
    ∀ i, start ≤ i → i < stop → byteAt arr i ≠ some 0x0a

def NoLineEnd (arr : Bytes) (start : Int) : Prop := ∀ i, start ≤ i → byteAt arr i ≠ some 0x0a

theorem skipLine_mono {arr : Bytes} {fuel more : Nat} (le : fuel ≤ more) {start stop : Int}
    (skipped : skipLine arr fuel start = some stop) : skipLine arr more start = some stop := by
  induction fuel generalizing more start with
  | zero => cases skipped
  | succ fuel ih =>
      cases more with
      | zero => omega
      | succ more =>
          rw [skipLine] at skipped ⊢
          by_cases other : byteAt arr start ≠ some 0x0a
          · rw [if_pos other] at skipped ⊢
            exact ih (Nat.le_of_succ_le_succ le) skipped
          · rw [if_neg other] at skipped ⊢
            exact skipped

theorem skipLine_lineEnd {arr : Bytes} {fuel : Nat} {start stop : Int}
    (lineEnd : LineEnd arr start stop) (enough : stop - start < fuel) :
    skipLine arr fuel start = some stop := by
  obtain ⟨le, isEnd, before⟩ := lineEnd
  induction fuel generalizing start with
  | zero => omega
  | succ fuel ih =>
      rw [skipLine]
      by_cases atEnd : start = stop
      · rw [if_neg (by rw [atEnd]; exact not_not_intro isEnd), atEnd]
      · rw [if_pos (before start (Int.le_refl _) (by omega))]
        exact ih (by omega) (by omega) fun i isBehind isBefore => before i (by omega) isBefore

theorem lineEnd_of_skipLine {arr : Bytes} {fuel : Nat} {start stop : Int}
    (skipped : skipLine arr fuel start = some stop) : LineEnd arr start stop := by
  induction fuel generalizing start with
  | zero => cases skipped
  | succ fuel ih =>
      rw [skipLine] at skipped
      by_cases other : byteAt arr start ≠ some 0x0a
      · rw [if_pos other] at skipped
        obtain ⟨le, isEnd, before⟩ := ih skipped
        refine ⟨by omega, isEnd, ?_⟩
        intro i isBehind isBefore
        by_cases isStart : i = start
        · rw [isStart]
          exact other
        · exact before i (by omega) isBefore
      · rw [if_neg other] at skipped
        cases skipped
        exact ⟨Int.le_refl _, not_not.mp other, fun i isBehind isBefore => by omega⟩

theorem lineEnd_or_noLineEnd (arr : Bytes) (start : Int) :
    (∃ stop, LineEnd arr start stop) ∨ NoLineEnd arr start := by
  by_cases found : ∃ i, start ≤ i ∧ byteAt arr i = some 0x0a
  · obtain ⟨i, isBehind, isNewline⟩ := found
    obtain ⟨n, rfl⟩ : ∃ n : Nat, i = start + n := ⟨(i - start).toNat, by omega⟩
    have some : ∃ n : Nat, byteAt arr (start + n) = some 0x0a := ⟨n, isNewline⟩
    refine .inl ⟨start + Nat.find some, by omega, Nat.find_spec some, ?_⟩
    intro j afterStart beforeEnd isEarlier
    refine Nat.find_min some (m := (j - start).toNat) (by omega) ?_
    have isIndex : start + ((j - start).toNat : Int) = j := by omega
    rw [isIndex]
    exact isEarlier
  · exact .inr fun i isBehind isNewline => found ⟨i, isBehind, isNewline⟩

theorem skipLine_noLineEnd {arr : Bytes} {start : Int} (noEnd : NoLineEnd arr start)
    (fuel : Nat) : skipLine arr fuel start = none := by
  cases skipped : skipLine arr fuel start with
  | none => rfl
  | some stop =>
      obtain ⟨le, isEnd, -⟩ := lineEnd_of_skipLine skipped
      exact absurd isEnd (noEnd stop le)

theorem noLineEnd_of_notMem {arr : Bytes} (none : 0x0a ∉ arr) (start : Int) :
    NoLineEnd arr start := by
  intro i _ isNewline
  unfold byteAt at isNewline
  split at isNewline
  · exact none (List.mem_of_getElem? isNewline)
  · cases isNewline

/-!
## Frames
-/

def Preamble (arr : Bytes) (i : Int) : Prop :=
  byteAt arr i = some 0x30 ∨ byteAt arr (i + 1) = some 0x78

/-- A number is at an index, and behind its line the other one. -/
def NumberAt (arr : Bytes) (i : Int) (value : Option Int) (next : Int) : Prop :=
  Preamble arr i ∧ ∃ stop, LineEnd arr (i + 2) stop ∧
    value = parseInt (decode arr (some (i + 2)) (some stop)) ∧ next = stop + 1

/-- The line of a number has no end. -/
def EndlessNumber (arr : Bytes) (i : Int) : Prop := Preamble arr i ∧ NoLineEnd arr (i + 2)

def StartsFrame (arr : Bytes) (i : Int) (kind : UInt8) : Prop :=
  4 ≤ arr.length - i ∧ byteAt arr i = some kind ∧ (kind = 0x54 ∨ kind = 0x42)

/-- A frame starts here whose serial or size is on a line without an end. -/
inductive Endless (arr : Bytes) (i : Int) : Prop where
  | serial {kind : UInt8} : StartsFrame arr i kind → EndlessNumber arr (i + 1) → Endless arr i
  | size {kind : UInt8} {serial : Option Int} {next : Int} : StartsFrame arr i kind →
      NumberAt arr (i + 1) serial next → EndlessNumber arr next → Endless arr i

/-- A frame starts at the first index, and by its size the next one starts at the second. -/
inductive Follows (arr : Bytes) : Int → Int → Prop where
  | frame {i next start size : Int} {kind : UInt8} {serial : Option Int} : StartsFrame arr i kind →
      NumberAt arr (i + 1) serial next → NumberAt arr next (some size) start →
      Follows arr i (start + size + 1)

private theorem preamble_iff {arr : Bytes} {i : Int} :
    Preamble arr i ↔ ¬ (byteAt arr i ≠ some 0x30 ∧ byteAt arr (i + 1) ≠ some 0x78) := by
  unfold Preamble
  rw [not_and_or, not_not, not_not]

theorem readNumber_mono {arr : Bytes} {fuel more : Nat} (le : fuel ≤ more) {i : Int}
    {number : Number} (isRead : readNumber arr fuel i = some number) :
    readNumber arr more i = some number := by
  unfold readNumber at isRead ⊢
  split at isRead
  · next missing =>
      rw [if_pos missing]
      exact isRead
  · next preamble =>
      rw [if_neg preamble]
      cases skipped : skipLine arr fuel (i + 2) with
      | none =>
          rw [skipped] at isRead
          cases isRead
      | some stop =>
          rw [skipped] at isRead
          rw [skipLine_mono le skipped]
          exact isRead

theorem readNumber_numberAt {arr : Bytes} {i next : Int} {value : Option Int}
    (isNumber : NumberAt arr i value next) :
    ∃ fuel, readNumber arr fuel i = some (.read value next) := by
  obtain ⟨preamble, stop, lineEnd, rfl, rfl⟩ := isNumber
  have skipped : skipLine arr ((stop - (i + 2)).toNat + 1) (i + 2) = some stop :=
    skipLine_lineEnd lineEnd (by omega)
  refine ⟨(stop - (i + 2)).toNat + 1, ?_⟩
  rw [readNumber, if_neg (preamble_iff.mp preamble), skipped]

theorem numberAt_of_readNumber {arr : Bytes} {fuel : Nat} {i next : Int} {value : Option Int}
    (isRead : readNumber arr fuel i = some (.read value next)) : NumberAt arr i value next := by
  unfold readNumber at isRead
  split at isRead
  · cases isRead
  · next preamble =>
      cases skipped : skipLine arr fuel (i + 2) with
      | none =>
          rw [skipped] at isRead
          cases isRead
      | some stop =>
          rw [skipped] at isRead
          cases isRead
          exact ⟨preamble_iff.mpr preamble, stop, lineEnd_of_skipLine skipped, rfl, rfl⟩

theorem readNumber_endless {arr : Bytes} {i : Int} (endless : EndlessNumber arr i) (fuel : Nat) :
    readNumber arr fuel i = none := by
  rw [readNumber, if_neg (preamble_iff.mp endless.1), skipLine_noLineEnd endless.2]

/-- With enough time the number is read, unless its line has no end. -/
theorem exists_readNumber (arr : Bytes) (i : Int) :
    EndlessNumber arr i ∨ ∃ fuel number, readNumber arr fuel i = some number := by
  by_cases preamble : Preamble arr i
  · rcases lineEnd_or_noLineEnd arr (i + 2) with ⟨stop, lineEnd⟩ | noEnd
    · obtain ⟨fuel, isRead⟩ := readNumber_numberAt ⟨preamble, stop, lineEnd, rfl, rfl⟩
      exact .inr ⟨fuel, _, isRead⟩
    · exact .inl ⟨preamble, noEnd⟩
  · refine .inr ⟨0, .missing, ?_⟩
    rw [readNumber, if_pos (not_not.mp (mt preamble_iff.mpr preamble))]

/-- The head of a frame behind the checks of its kind. -/
theorem readHead_startsFrame {arr : Bytes} {i : Int} {kind : UInt8}
    (starts : StartsFrame arr i kind) (fuel : Nat) :
    readHead arr fuel i =
      match readNumber arr fuel (i + 1) with
      | none => none
      | some .missing => some (.broken (i + 1))
      | some (.read serial i) =>
          match readNumber arr fuel i with
          | none => none
          | some .missing => some (.broken i)
          | some (.read size i) => some (.found kind serial size i) := by
  obtain ⟨enough, isByte, isKind⟩ := starts
  have notOther : ¬ (kind ≠ 0x54 ∧ kind ≠ 0x42) := by
    rw [not_and_or, not_not, not_not]
    exact isKind
  rw [readHead, if_neg (by omega), isByte]
  dsimp only
  rw [if_neg notOther]

theorem readHead_other {arr : Bytes} {i : Int} (other : ∀ kind, ¬ StartsFrame arr i kind)
    (fuel : Nat) : readHead arr fuel i = some (.broken i) := by
  unfold readHead
  split
  · rfl
  · next enough =>
      cases isByte : byteAt arr i with
      | none => rfl
      | some kind =>
          dsimp only
          by_cases isOther : kind ≠ 0x54 ∧ kind ≠ 0x42
          · exact if_pos isOther
          · have isKind : kind = 0x54 ∨ kind = 0x42 := by
              rw [not_and_or, not_not, not_not] at isOther
              exact isOther
            exact absurd ⟨by omega, isByte, isKind⟩ (other kind)

theorem readHead_mono {arr : Bytes} {fuel more : Nat} (le : fuel ≤ more) {i : Int} {head : Head}
    (isRead : readHead arr fuel i = some head) : readHead arr more i = some head := by
  by_cases starts : ∃ kind, StartsFrame arr i kind
  · obtain ⟨kind, starts⟩ := starts
    rw [readHead_startsFrame starts] at isRead ⊢
    cases isSerial : readNumber arr fuel (i + 1) with
    | none =>
        rw [isSerial] at isRead
        cases isRead
    | some serial =>
        rw [isSerial] at isRead
        rw [readNumber_mono le isSerial]
        cases serial with
        | missing => exact isRead
        | read serial next =>
            dsimp only at isRead ⊢
            cases isSize : readNumber arr fuel next with
            | none =>
                rw [isSize] at isRead
                cases isRead
            | some size =>
                rw [isSize] at isRead
                rw [readNumber_mono le isSize]
                exact isRead
  · rw [readHead_other (not_exists.mp starts)] at isRead ⊢
    exact isRead

theorem readHead_endless {arr : Bytes} {i : Int} (endless : Endless arr i) (fuel : Nat) :
    readHead arr fuel i = none := by
  cases endless with
  | serial starts noEnd => rw [readHead_startsFrame starts, readNumber_endless noEnd]
  | size starts isSerial noEnd =>
      rw [readHead_startsFrame starts]
      cases isRead : readNumber arr fuel (i + 1) with
      | none => rfl
      | some number =>
          obtain ⟨enough, isEnough⟩ := readNumber_numberAt isSerial
          have same := (readNumber_mono (Nat.le_max_left fuel enough) isRead).symm.trans
            (readNumber_mono (Nat.le_max_right fuel enough) isEnough)
          cases same
          dsimp only
          rw [readNumber_endless noEnd]

/-- With enough time the head is read, unless one of its lines has no end. -/
theorem exists_readHead {arr : Bytes} {i : Int} (ends : ¬ Endless arr i) :
    ∃ fuel head, readHead arr fuel i = some head := by
  by_cases starts : ∃ kind, StartsFrame arr i kind
  · obtain ⟨kind, starts⟩ := starts
    rcases exists_readNumber arr (i + 1) with endless | ⟨fuel, number, isSerial⟩
    · exact absurd (.serial starts endless) ends
    · cases number with
      | missing => exact ⟨fuel, _, by rw [readHead_startsFrame starts, isSerial]⟩
      | read serial next =>
          rcases exists_readNumber arr next with endless | ⟨enough, number, isSize⟩
          · exact absurd (.size starts (numberAt_of_readNumber isSerial) endless) ends
          · have isSerial := readNumber_mono (Nat.le_max_left fuel enough) isSerial
            have isSize := readNumber_mono (Nat.le_max_right fuel enough) isSize
            refine ⟨max fuel enough, ?_⟩
            rw [readHead_startsFrame starts, isSerial]
            dsimp only
            rw [isSize]
            cases number with
            | missing => exact ⟨_, rfl⟩
            | read size start => exact ⟨_, rfl⟩
  · exact ⟨0, _, readHead_other (not_exists.mp starts) 0⟩

theorem readHead_numbers {arr : Bytes} {i next start : Int} {kind : UInt8}
    {serial size : Option Int} (starts : StartsFrame arr i kind)
    (isSerial : NumberAt arr (i + 1) serial next) (isSize : NumberAt arr next size start) :
    ∃ fuel, readHead arr fuel i = some (.found kind serial size start) := by
  obtain ⟨fuel, isSerial⟩ := readNumber_numberAt isSerial
  obtain ⟨enough, isSize⟩ := readNumber_numberAt isSize
  refine ⟨max fuel enough, ?_⟩
  rw [readHead_startsFrame starts, readNumber_mono (Nat.le_max_left fuel enough) isSerial]
  dsimp only
  rw [readNumber_mono (Nat.le_max_right fuel enough) isSize]

theorem numbers_of_readHead {arr : Bytes} {fuel : Nat} {i start : Int} {kind : UInt8}
    {serial size : Option Int}
    (isRead : readHead arr fuel i = some (.found kind serial size start)) :
    ∃ next, StartsFrame arr i kind ∧ NumberAt arr (i + 1) serial next ∧
      NumberAt arr next size start := by
  by_cases starts : ∃ kind, StartsFrame arr i kind
  · obtain ⟨other, starts⟩ := starts
    rw [readHead_startsFrame starts] at isRead
    cases isSerial : readNumber arr fuel (i + 1) with
    | none =>
        rw [isSerial] at isRead
        cases isRead
    | some number =>
        rw [isSerial] at isRead
        cases number with
        | missing => cases isRead
        | read serial next =>
            dsimp only at isRead
            cases isSize : readNumber arr fuel next with
            | none =>
                rw [isSize] at isRead
                cases isRead
            | some number =>
                rw [isSize] at isRead
                cases number with
                | missing => cases isRead
                | read size behind =>
                    cases isRead
                    exact ⟨next, starts, numberAt_of_readNumber isSerial,
                      numberAt_of_readNumber isSize⟩
  · rw [readHead_other (not_exists.mp starts)] at isRead
    cases isRead

/-!
## Termination
-/

theorem parseFrom_mono {arr : Bytes} {fuel more : Nat} (le : fuel ≤ more) {index : Option Int}
    {socket : ProxySocket} {result : Option Int × ProxySocket}
    (parsed : parseFrom arr fuel index socket = some result) :
    parseFrom arr more index socket = some result := by
  induction fuel generalizing more index socket with
  | zero => cases parsed
  | succ fuel ih =>
      cases more with
      | zero => omega
      | succ more =>
          have le : fuel ≤ more := Nat.le_of_succ_le_succ le
          cases index with
          | none => exact parsed
          | some i =>
              rw [parseFrom] at parsed ⊢
              by_cases inside : i < arr.length
              · rw [if_pos inside] at parsed ⊢
                cases isHead : readHead arr fuel i with
                | none =>
                    rw [isHead] at parsed
                    cases parsed
                | some head =>
                    rw [isHead] at parsed
                    rw [readHead_mono le isHead]
                    cases head with
                    | broken at_ => exact parsed
                    | found kind serial size start => exact ih le parsed
              · rw [if_neg inside] at parsed ⊢
                exact parsed

private theorem StartsFrame.inside {arr : Bytes} {i : Int} {kind : UInt8}
    (starts : StartsFrame arr i kind) : 0 ≤ i ∧ i < arr.length := by
  obtain ⟨enough, isByte, -⟩ := starts
  unfold byteAt at isByte
  split at isByte
  · next nonneg => exact ⟨nonneg, by omega⟩
  · cases isByte

private theorem Endless.inside {arr : Bytes} {i : Int} (endless : Endless arr i) :
    i < arr.length := by
  cases endless with
  | serial starts _ => exact starts.inside.2
  | size starts _ _ => exact starts.inside.2

private theorem Follows.inside {arr : Bytes} {i next : Int} (follows : Follows arr i next) :
    i ∈ Set.Ico 0 (arr.length : Int) := by
  cases follows with
  | frame starts _ _ => exact starts.inside

/-- No line without an end is met on the way, and no frame is met twice. -/
def Ends (arr : Bytes) (start : Int) : Prop :=
  ∀ i, ReflTransGen (Follows arr) start i → ¬ Endless arr i ∧ ¬ TransGen (Follows arr) i i

private theorem ends_iff {arr : Bytes} {start : Int} :
    Ends arr start ↔ EndsFrom (Follows arr) start ∧
      ∀ i, ReflTransGen (Follows arr) start i → ¬ Endless arr i := by
  constructor
  · intro ends
    have never : NeverReturns (Follows arr) start := fun i reached => (ends i reached).2
    exact ⟨never.endsFrom (Set.finite_Ico 0 (arr.length : Int)) Follows.inside,
      fun i reached => (ends i reached).1⟩
  · rintro ⟨endsFrom, lines⟩ i reached
    exact ⟨lines i reached, endsFrom.neverReturns i reached⟩

private theorem ends_of_parseFrom {arr : Bytes} {fuel : Nat} {i : Int} {socket : ProxySocket}
    (parsed : (parseFrom arr fuel (some i) socket).isSome) :
    EndsFrom (Follows arr) i ∧ ∀ other, ReflTransGen (Follows arr) i other → ¬ Endless arr other := by
  induction fuel generalizing i socket with
  | zero => cases parsed
  | succ fuel ih =>
      have ends : ¬ Endless arr i := by
        intro endless
        rw [parseFrom, if_pos endless.inside, readHead_endless endless] at parsed
        cases parsed
      have further (next : Int) (follows : Follows arr i next) :
          ∃ behind, (parseFrom arr fuel (some next) behind).isSome := by
        cases follows with
        | frame starts isSerial isSize =>
            rw [parseFrom, if_pos starts.inside.2] at parsed
            cases isHead : readHead arr fuel i with
            | none =>
                rw [isHead] at parsed
                cases parsed
            | some head =>
                obtain ⟨enough, isEnough⟩ := readHead_numbers starts isSerial isSize
                have same := (readHead_mono (Nat.le_max_left fuel enough) isHead).symm.trans
                  (readHead_mono (Nat.le_max_right fuel enough) isEnough)
                cases same
                rw [isHead] at parsed
                exact ⟨_, parsed⟩
      refine ⟨endsFrom_intro fun next follows => ?_, ?_⟩
      · obtain ⟨behind, parsed⟩ := further next follows
        exact (ih parsed).1
      · intro other reached
        rcases ReflTransGen.cases_head reached with rfl | ⟨next, follows, reached⟩
        · exact ends
        · obtain ⟨behind, parsed⟩ := further next follows
          exact (ih parsed).2 other reached

/-- Where the head of a frame is read, the content is delivered and the loop goes on behind it. -/
theorem parseFrom_found {arr : Bytes} {fuel : Nat} {i start : Int} {kind : UInt8}
    {serial size : Option Int} (isHead : readHead arr fuel i = some (.found kind serial size start))
    {socket : ProxySocket} {more : Nat} {result : Option Int × ProxySocket}
    (further : parseFrom arr more (size.map fun size => start + size + 1)
      (socket.deliver arr kind serial size start) = some result) :
    ∃ fuel, parseFrom arr fuel (some i) socket = some result := by
  obtain ⟨-, starts, -, -⟩ := numbers_of_readHead isHead
  refine ⟨max fuel more + 1, ?_⟩
  rw [parseFrom, if_pos starts.inside.2, readHead_mono (Nat.le_max_left fuel more) isHead]
  exact parseFrom_mono (Nat.le_max_right fuel more) further

private theorem exists_parseFrom {arr : Bytes} {i : Int} (ends : EndsFrom (Follows arr) i)
    (lines : ∀ other, ReflTransGen (Follows arr) i other → ¬ Endless arr other)
    (socket : ProxySocket) : ∃ fuel result, parseFrom arr fuel (some i) socket = some result := by
  unfold EndsFrom at ends
  induction ends generalizing socket with
  | intro i _ ih =>
      by_cases inside : i < arr.length
      · obtain ⟨fuel, head, isHead⟩ := exists_readHead (lines i .refl)
        cases head with
        | broken at_ =>
            refine ⟨fuel + 1, (some at_, socket), ?_⟩
            rw [parseFrom, if_pos inside, isHead]
        | found kind serial size start =>
            have further : ∃ more result,
                parseFrom arr more (size.map fun size => start + size + 1)
                  (socket.deliver arr kind serial size start) = some result := by
              cases size with
              | none => exact ⟨1, _, rfl⟩
              | some size =>
                  obtain ⟨behind, starts, isSerial, isSize⟩ := numbers_of_readHead isHead
                  have follows : Follows arr i (start + size + 1) := .frame starts isSerial isSize
                  exact ih _ follows (fun other reached => lines other (.head follows reached)) _
            obtain ⟨more, result, isResult⟩ := further
            obtain ⟨enough, isEnough⟩ := parseFrom_found isHead isResult
            exact ⟨enough, result, isEnough⟩
      · refine ⟨1, (some i, socket), ?_⟩
        rw [parseFrom, if_neg inside]

theorem terminates_iff (socket : ProxySocket) (arr : Bytes) :
    Terminates socket arr ↔ Ends arr 0 := by
  rw [ends_iff]
  constructor
  · rintro ⟨fuel, parsed⟩
    exact ends_of_parseFrom parsed
  · rintro ⟨ends, lines⟩
    obtain ⟨fuel, result, parsed⟩ := exists_parseFrom ends lines socket
    exact ⟨fuel, Option.isSome_iff_exists.mpr ⟨result, parsed⟩⟩

end ProxySocket

end FreeOnline.Browser
