import FreeOnline.Browser.ProxySocket
import FreeOnline.Wsd.ProxyProtocol

/-!
# Messages over the proxy protocol

What the server makes of the posts of the browser and the browser of the responses of the
server. Upstream every message grows by the newline of its frame.
-/

set_option autoImplicit false

namespace FreeOnline.Wsd.ProxyProtocol

open FreeOnline.Library Relation
open FreeOnline.Browser (ProxySocket Data)
open FreeOnline.Browser.ProxySocket (hexText byteAt doSlice decodeText decode LineEnd NumberAt
  StartsFrame Follows Endless Ends Terminates parseInt parseFrom parseIncomingArray readHead)

/-!
## Numbers
-/

private theorem toNat_ofNat : ∀ code < 128, (Char.ofNat code).toNat = code := by
  decide +kernel

private theorem ascii_of_mem_write {n code : Nat} (isCode : code ∈ Hex.write n) : code < 128 := by
  have bounds := Hex.bounds_of_mem_write isCode
  omega

private theorem toNat_hexText (n : Nat) : (hexText n).map Char.toNat = Hex.write n := by
  have same : (Hex.write n).map (Char.toNat ∘ Char.ofNat) = (Hex.write n).map id :=
    List.map_congr_left fun code isCode => toNat_ofNat code (ascii_of_mem_write isCode)
  rw [hexText, List.map_map, same, List.map_id]

private theorem toNat_hexBytes (n : Nat) : (hexBytes n).map UInt8.toNat = Hex.write n := by
  have same : (Hex.write n).map (UInt8.toNat ∘ Nat.toUInt8) = (Hex.write n).map id := by
    refine List.map_congr_left fun code isCode => ?_
    have ascii := ascii_of_mem_write isCode
    exact Nat.mod_eq_of_lt (by omega)
  rw [hexBytes, List.map_map, same, List.map_id]

private theorem encode_hexText (n : Nat) : Utf8.encode (hexText n) = hexBytes n := by
  have ascii : ∀ ch ∈ hexText n, ch.toNat < 128 := by
    intro ch isChar
    obtain ⟨code, isCode, rfl⟩ := List.mem_map.mp isChar
    rw [toNat_ofNat code (ascii_of_mem_write isCode)]
    exact ascii_of_mem_write isCode
  calc Utf8.encode (hexText n)
      = (hexText n).map (Nat.toUInt8 ∘ Char.toNat) := Utf8.encode_ascii ascii
    _ = ((hexText n).map Char.toNat).map Nat.toUInt8 := List.map_map.symm
    _ = hexBytes n := by rw [toNat_hexText]; rfl

private theorem newline_notMem_hexBytes (n : Nat) : newline ∉ hexBytes n := by
  intro isMember
  have isCode : newline.toNat ∈ (hexBytes n).map UInt8.toNat := List.mem_map_of_mem isMember
  rw [toNat_hexBytes] at isCode
  have bounds := Hex.bounds_of_mem_write isCode
  revert bounds
  decide

private theorem newline_notMem_number (n : Nat) : newline ∉ [0x30, 0x78] ++ hexBytes n := by
  rw [List.mem_append, not_or]
  exact ⟨by decide, newline_notMem_hexBytes n⟩

theorem numberOf_hexBytes {n : Nat} (fits : n < 2 ^ 63) :
    numberOf ([0x30, 0x78] ++ hexBytes n) = n := by
  have isRead : Hex.read isspace (([0x30, 0x78] ++ hexBytes n).map UInt8.toNat) = some (n : Int) := by
    rw [List.map_append, toNat_hexBytes]
    exact Hex.read_preamble n rfl
  unfold numberOf strtoll uint64
  rw [isRead]
  dsimp only [Option.getD_some]
  omega

/-!
## Upstream
-/

/-- A message as a string, whose UTF-8 fits into an array. -/
structure Sent where
  text : Text
  fits : (Utf8.encode text).length < 2 ^ 53

def Sent.bytes (sent : Sent) : Bytes := Utf8.encode sent.text

/-- The frame that the browser puts in the queue for a message. -/
def Sent.frame (serial : Nat) (sent : Sent) : Frame where
  kind := 0x42
  serial := [0x30, 0x78] ++ hexBytes serial
  length := [0x30, 0x78] ++ hexBytes sent.bytes.length
  payload := sent.bytes
  isKind := .inr rfl
  serialLine := newline_notMem_number serial
  lengthLine := newline_notMem_number sent.bytes.length
  declared := numberOf_hexBytes (Nat.lt_trans sent.fits (by decide))

theorem encode_frame (serial : Nat) (sent : Sent) :
    Utf8.encode (ProxySocket.frame serial sent.text) = (sent.frame serial).bytes := by
  have isHead : Utf8.encode ['B', '0', 'x'] = [0x42, 0x30, 0x78] := by decide +kernel
  have isPreamble : Utf8.encode ['0', 'x'] = [0x30, 0x78] := by decide +kernel
  have isNewline : String.utf8EncodeChar '\n' = [newline] := by decide +kernel
  unfold ProxySocket.frame
  simp only [Utf8.encode_append, Utf8.encode_cons '\n', isHead, isPreamble, isNewline,
    encode_hexText, Utf8.encode_nil]
  simp [Sent.frame, Frame.bytes, Sent.bytes]

def sendAll (socket : ProxySocket) (messages : List Sent) : ProxySocket :=
  messages.foldl (fun socket sent => socket.send sent.text) socket

/-- Groups of messages are queued and posted, and the server takes each post so: it comes to
the end of it, and the message handler gets what `contentOf` says of each message. -/
def Delivered (contentOf : Sent → Bytes) :
    ProxySocket → ProxyProtocolHandler → List (List Sent) → Prop
  | _, _, [] => True
  | socket, handler, group :: groups =>
      let (body, socket) := (sendAll socket group).doSend
      ∃ parsed, parseEmitIncoming handler body = .ok parsed ∧ parsed.result = true ∧
        parsed.inBuffer = [] ∧ parsed.handler.handled = handler.handled ++ group.map contentOf ∧
        Delivered contentOf socket parsed.handler groups

def Sent.frames : Nat → List Sent → List Frame
  | _, [] => []
  | serial, sent :: messages => sent.frame serial :: frames (ProxySocket.increment serial) messages

/-- What the message handler gets for a message. -/
def Sent.received (sent : Sent) : Bytes := sent.bytes ++ [newline]

theorem data_frames (serial : Nat) (messages : List Sent) :
    (Sent.frames serial messages).map Frame.data = messages.map Sent.received := by
  induction messages generalizing serial with
  | nil => rfl
  | cons sent messages ih => rw [Sent.frames, List.map_cons, List.map_cons, ih]; rfl

theorem encode_sendAll (socket : ProxySocket) (messages : List Sent) :
    Utf8.encode (sendAll socket messages).sendQueue =
      Utf8.encode socket.sendQueue ++
        (Sent.frames socket.outSerial messages).flatMap Frame.bytes := by
  induction messages generalizing socket with
  | nil => exact (List.append_nil _).symm
  | cons sent messages ih =>
      have queued : Utf8.encode (socket.send sent.text).sendQueue =
          Utf8.encode socket.sendQueue ++ (sent.frame socket.outSerial).bytes := by
        rw [← encode_frame]
        exact Utf8.encode_append _ _
      have isRest := ih (socket.send sent.text)
      rw [queued] at isRest
      rw [Sent.frames, List.flatMap_cons, ← List.append_assoc]
      exact isRest

/-- The server takes a post to its end, and every message with the newline behind it. -/
theorem parseEmitIncoming_post {socket : ProxySocket} (noQueue : socket.sendQueue = [])
    (handler : ProxyProtocolHandler) (group : List Sent) :
    ∃ parsed, parseEmitIncoming handler (sendAll socket group).doSend.1 = .ok parsed ∧
      parsed.result = true ∧ parsed.inBuffer = [] ∧
      parsed.handler.handled = handler.handled ++ group.map Sent.received := by
  have isBody : (sendAll socket group).doSend.1 =
      (Sent.frames socket.outSerial group).flatMap Frame.bytes ++ [] := by
    rw [ProxySocket.doSend, encode_sendAll, noQueue, Utf8.encode_nil, List.nil_append,
      List.append_nil]
  rw [isBody, parseEmitIncoming_frames, parseEmitIncoming_nil]
  exact ⟨_, rfl, rfl, rfl, by rw [handled_foldl_take, data_frames]⟩

private theorem received_ne_bytes {group : List Sent}
    (same : group.map Sent.received = group.map Sent.bytes) : group = [] := by
  cases group with
  | nil => rfl
  | cons sent group =>
      have isSame : sent.bytes ++ [newline] = sent.bytes := (List.cons.inj same).1
      exact absurd (List.append_right_eq_self.mp isSame) (List.cons_ne_nil _ _)

theorem delivered_received (groups : List (List Sent)) {socket : ProxySocket}
    (noQueue : socket.sendQueue = []) (handler : ProxyProtocolHandler) :
    Delivered Sent.received socket handler groups := by
  induction groups generalizing socket handler with
  | nil => trivial
  | cons group groups ih =>
      obtain ⟨parsed, isParsed, result, consumed, handled⟩ :=
        parseEmitIncoming_post noQueue handler group
      exact ⟨parsed, isParsed, result, consumed, handled, ih rfl parsed.handler⟩

theorem delivered_bytes_iff (groups : List (List Sent)) {socket : ProxySocket}
    (noQueue : socket.sendQueue = []) (handler : ProxyProtocolHandler) :
    Delivered Sent.bytes socket handler groups ↔ groups.flatten = [] := by
  induction groups generalizing socket handler with
  | nil => simp [Delivered]
  | cons group groups ih =>
      obtain ⟨parsed, isParsed, result, consumed, handled⟩ :=
        parseEmitIncoming_post noQueue handler group
      have behind := @ih (sendAll socket group).doSend.2 rfl parsed.handler
      rw [List.flatten_cons, List.append_eq_nil_iff, ← behind]
      constructor
      · rintro ⟨other, isOther, -, -, exactly, further⟩
        have same : parsed = other := Except.ok.inj (isParsed.symm.trans isOther)
        subst same
        exact ⟨received_ne_bytes (List.append_cancel_left (handled.symm.trans exactly)), further⟩
      · rintro ⟨rfl, further⟩
        exact ⟨parsed, isParsed, result, consumed, handled, further⟩

/-- Every message comes in its place and once, with a newline behind it; so the server gets
what was sent only where nothing was. -/
theorem upstream_round_trip (groups : List (List Sent)) :
    Delivered Sent.received .create .create groups ∧
      (Delivered Sent.bytes .create .create groups ↔ groups.flatten = []) :=
  ⟨delivered_received groups rfl .create, delivered_bytes_iff groups rfl .create⟩

/-- For the message `ping` the handler gets `ping` and a newline. -/
theorem not_upstream_round_trip :
    ¬ Delivered Sent.bytes .create .create [[⟨['p', 'i', 'n', 'g'], by decide +kernel⟩]] := by
  rintro ⟨parsed, isParsed, -, -, exactly, -⟩
  have isPost : parseEmitIncoming .create
      (sendAll .create [⟨['p', 'i', 'n', 'g'], by decide +kernel⟩]).doSend.1 =
      .ok ⟨true, ⟨0, [[0x70, 0x69, 0x6e, 0x67, 0x0a]]⟩, []⟩ := by decide +kernel
  cases isParsed.symm.trans isPost
  revert exactly
  decide +kernel

/-!
## Downstream
-/

/-- A message to the browser. A decoder would leave out a byte order mark in front of a text. -/
inductive Message where
  | text (content : Text) (plain : content.head? ≠ some '\uFEFF')
  | binary (content : Bytes)

namespace Message

def payload : Message → Bytes
  | .text content _ => Utf8.encode content
  | .binary content => content

def isText : Message → Bool
  | .text _ _ => true
  | .binary _ => false

def kind : Message → UInt8
  | .text _ _ => 0x54
  | .binary _ => 0x42

/-- As `Message` frames it. -/
def bytes (sent : Message) (serial : Nat) : Bytes := message sent.payload sent.isText serial

def data : Message → Data
  | .text content _ => .text content
  | .binary content => .binary content

end Message

/-- Messages with consecutive serials, one after the other. -/
def response : Nat → List Message → Bytes
  | _, [] => []
  | serial, sent :: messages => sent.bytes serial ++ response ((serial + 1) % 2 ^ 64) messages

theorem decodeText_encode {text : Text} (plain : text.head? ≠ some '\uFEFF') :
    decodeText (Utf8.encode text) = text := by
  unfold decodeText
  rw [Utf8.decode_encode]
  split
  · exact absurd rfl plain
  · rfl

private theorem head_hexText (n : Nat) : (hexText n).head? ≠ some '\uFEFF' := by
  intro isHead
  have isCode : '\uFEFF'.toNat ∈ (hexText n).map Char.toNat :=
    List.mem_map_of_mem (List.mem_of_mem_head? isHead)
  rw [toNat_hexText] at isCode
  exact absurd (ascii_of_mem_write isCode) (by decide)

private theorem notWhiteSpace : ∀ code < 128, 48 ≤ code →
    ProxySocket.isStrWhiteSpace code = false := by
  decide +kernel

section Arrays

variable {arr before : Bytes} {i : Int}

private theorem byteAt_eq {byte : UInt8} {rest : Bytes} (isArr : arr = before ++ byte :: rest)
    (isIndex : i = before.length) : byteAt arr i = some byte := by
  subst isArr isIndex
  rw [byteAt, if_pos (Int.natCast_nonneg _), Int.toNat_natCast]
  rw [List.getElem?_append_right (Nat.le_refl _), Nat.sub_self]
  rfl

private theorem lineEnd_eq {line rest : Bytes} (isLine : newline ∉ line)
    (isArr : arr = before ++ (line ++ newline :: rest)) (isIndex : i = before.length) :
    LineEnd arr i (i + line.length) := by
  have isRegrouped : arr = (before ++ line) ++ newline :: rest := by rw [isArr, List.append_assoc]
  refine ⟨by omega, byteAt_eq isRegrouped (by rw [isIndex, List.length_append]; omega), ?_⟩
  intro j isBehind isBefore isNewline
  obtain ⟨n, rfl⟩ : ∃ n : Nat, j = ((before.length + n : Nat) : Int) :=
    ⟨(j - before.length).toNat, by omega⟩
  rw [byteAt, if_pos (Int.natCast_nonneg _), Int.toNat_natCast, isArr,
    List.getElem?_append_right (Nat.le_add_right _ _), Nat.add_sub_cancel_left,
    List.getElem?_append_left (by omega)] at isNewline
  exact isLine (List.mem_of_getElem? isNewline)

private theorem doSlice_eq {part rest : Bytes} (isArr : arr = before ++ (part ++ rest))
    (isIndex : i = before.length) : doSlice arr (some i) (some (i + part.length)) = part := by
  have isStart : ProxySocket.relativeIndex arr.length (some i) = before.length := by
    rw [ProxySocket.relativeIndex, if_neg (by omega), isArr, isIndex, List.length_append]
    omega
  have isStop : ProxySocket.relativeIndex arr.length (some (i + part.length)) =
      before.length + part.length := by
    rw [ProxySocket.relativeIndex, if_neg (by omega), isArr, isIndex, List.length_append,
      List.length_append]
    omega
  rw [doSlice, isStart, isStop, isArr, List.take_length_add_append, List.take_left, List.drop_left]

private theorem numberAt_eq {n : Nat} {rest : Bytes}
    (isArr : arr = before ++ ([0x30, 0x78] ++ hexBytes n ++ newline :: rest))
    (isIndex : i = before.length) :
    NumberAt arr i (some n) (i + 2 + (hexBytes n).length + 1) := by
  have isLine : arr = (before ++ [0x30, 0x78]) ++ (hexBytes n ++ newline :: rest) := by
    rw [isArr]
    simp only [List.append_assoc]
  have isStart : i + 2 = ((before ++ [0x30, 0x78] : Bytes).length : Int) := by
    rw [isIndex, List.length_append]
    rfl
  have isDecoded : decodeText (hexBytes n) = hexText n := by
    rw [← encode_hexText, decodeText_encode (head_hexText n)]
  refine ⟨.inl (byteAt_eq isArr isIndex), _, lineEnd_eq (newline_notMem_hexBytes n) isLine isStart,
    ?_, rfl⟩
  rw [decode, doSlice_eq isLine isStart, isDecoded, parseInt, toNat_hexText]
  refine (Hex.read_write n fun code isCode => ?_).symm
  have bounds := Hex.bounds_of_mem_write isCode
  exact notWhiteSpace code (by omega) (by omega)

/-- The pieces of a framed message. -/
structure Framed (arr : Bytes) (i : Int) (sent : Message) (serial : Nat) (start : Int) : Prop where
  starts : StartsFrame arr i sent.kind
  numbers : ∃ next, NumberAt arr (i + 1) (some serial) next ∧
    NumberAt arr next (some sent.payload.length) start
  payload : doSlice arr (some start) (some (start + sent.payload.length)) = sent.payload
  behind : start + sent.payload.length + 1 = i + (sent.bytes serial).length

private theorem exists_framed (sent : Message) (serial : Nat) {rest : Bytes}
    (isArr : arr = before ++ (sent.bytes serial ++ rest)) (isIndex : i = before.length) :
    ∃ start, Framed arr i sent serial start := by
  let serialLine := [0x30, 0x78] ++ hexBytes serial
  let sizeLine := [0x30, 0x78] ++ hexBytes sent.payload.length
  have isBytes : sent.bytes serial = sent.kind :: (serialLine ++ newline ::
      (sizeLine ++ newline :: (sent.payload ++ [newline]))) := by
    cases sent <;> rfl
  have isFirst : arr = before ++ sent.kind :: (serialLine ++ newline ::
      (sizeLine ++ newline :: (sent.payload ++ newline :: rest))) := by
    rw [isArr, isBytes]
    simp
  have isSecond : arr = (before ++ [sent.kind]) ++ (serialLine ++ newline ::
      (sizeLine ++ newline :: (sent.payload ++ newline :: rest))) := by
    rw [isFirst]
    simp
  have isThird : arr = (before ++ sent.kind :: (serialLine ++ [newline])) ++ (sizeLine ++ newline ::
      (sent.payload ++ newline :: rest)) := by
    rw [isFirst]
    simp
  have isFourth : arr = (before ++ sent.kind :: (serialLine ++ newline :: (sizeLine ++ [newline]))) ++
      (sent.payload ++ newline :: rest) := by
    rw [isFirst]
    simp
  have serialLength : serialLine.length = 2 + (hexBytes serial).length := by
    rw [List.length_append]
    rfl
  have sizeLength : sizeLine.length = 2 + (hexBytes sent.payload.length).length := by
    rw [List.length_append]
    rfl
  have length := congrArg List.length isFirst
  simp only [List.length_append, List.length_cons] at length
  have bytesLength := congrArg List.length isBytes
  simp only [List.length_append, List.length_cons, List.length_nil] at bytesLength
  have serialAt : NumberAt arr (i + 1) (some serial) (i + 1 + 2 + (hexBytes serial).length + 1) :=
    numberAt_eq isSecond (by simp [isIndex])
  have isNext : i + 1 + 2 + (hexBytes serial).length + 1 =
      ((before ++ sent.kind :: (serialLine ++ [newline])).length : Int) := by
    simp only [List.length_append, List.length_cons, List.length_nil]
    omega
  have sizeAt := numberAt_eq isThird isNext
  refine ⟨_, ⟨by omega, byteAt_eq isFirst isIndex, ?_⟩, ⟨_, serialAt, sizeAt⟩,
    doSlice_eq isFourth ?_, by omega⟩
  · cases sent with
    | text content plain => exact .inl rfl
    | binary content => exact .inr rfl
  · simp only [List.length_append, List.length_cons, List.length_nil]
    omega

end Arrays

private theorem deliver_framed {arr : Bytes} {i start : Int} {sent : Message} {serial : Nat}
    (framed : Framed arr i sent serial start) (socket : ProxySocket) :
    socket.deliver arr sent.kind (some serial) (some sent.payload.length) start =
      { socket with inSerial := some serial, received := socket.received ++ [sent.data] } := by
  have isSlice := framed.payload
  cases sent with
  | text content plain =>
      have isText : decode arr (some start)
          (some (start + (Message.text content plain).payload.length)) = content := by
        rw [decode, isSlice]
        exact decodeText_encode plain
      refine (ProxySocket.deliver_text ..).trans ?_
      rw [Option.map_some, isText]
      rfl
  | binary content =>
      refine (ProxySocket.deliver_binary ..).trans ?_
      rw [Option.map_some, isSlice]
      rfl

/-- The loop takes the messages of a response one after the other and gets to its end. -/
private theorem parseFrom_response (messages : List Message) {serial : Nat} {arr before : Bytes}
    (isArr : arr = before ++ response serial messages) (socket : ProxySocket) :
    ∃ fuel inSerial, parseFrom arr fuel (some before.length) socket =
      some (some (arr.length : Int),
        { socket with inSerial, received := socket.received ++ messages.map Message.data }) := by
  induction messages generalizing serial before socket with
  | nil =>
      have isAll : arr = before := isArr.trans (List.append_nil _)
      refine ⟨1, socket.inSerial, ?_⟩
      rw [isAll, parseFrom, if_neg (Int.lt_irrefl _), List.map_nil, List.append_nil]
  | cons sent messages ih =>
      rw [response] at isArr
      obtain ⟨start, framed⟩ := exists_framed sent serial isArr rfl
      obtain ⟨next, serialAt, sizeAt⟩ := framed.numbers
      obtain ⟨fuel, isHead⟩ := ProxySocket.readHead_numbers framed.starts serialAt sizeAt
      have isRegrouped : arr = (before ++ sent.bytes serial) ++
          response ((serial + 1) % 2 ^ 64) messages := by rw [isArr, List.append_assoc]
      obtain ⟨more, inSerial, further⟩ := ih isRegrouped
        { socket with inSerial := some serial, received := socket.received ++ [sent.data] }
      have isNext : start + sent.payload.length + 1 =
          ((before ++ sent.bytes serial).length : Int) := by
        rw [framed.behind, List.length_append]
        omega
      rw [← isNext, ← deliver_framed framed] at further
      obtain ⟨enough, parsed⟩ := ProxySocket.parseFrom_found isHead further
      refine ⟨enough, inSerial, ?_⟩
      rw [parsed, List.map_cons, deliver_framed framed, List.append_assoc]
      rfl

/-- The browser delivers what the server framed, and leaves the loop at the end. -/
theorem downstream_round_trip (socket : ProxySocket) (serial : Nat) (messages : List Message) :
    ∃ fuel inSerial, parseIncomingArray fuel socket (response serial messages) =
      some (some ((response serial messages).length : Int),
        { socket with inSerial, received := socket.received ++ messages.map Message.data }) :=
  parseFrom_response messages (List.nil_append _).symm socket

/-!
## Anything
-/

/-- What comes in makes the parser of the server leave its buffer where a frame overruns it,
and keeps the parser of the browser busy where a line has no end or a frame comes again. -/
theorem parsers_safe_iff (handler : ProxyProtocolHandler) (socket : ProxySocket)
    (inBuffer arr : Bytes) :
    (Safe handler inBuffer ↔ ∀ (frames : List Frame) (rest : Bytes),
      inBuffer = frames.flatMap Frame.bytes ++ rest → ¬ Overruns rest) ∧
      (Terminates socket arr ↔ Ends arr 0) :=
  ⟨safe_iff handler inBuffer, ProxySocket.terminates_iff socket arr⟩

/-- The start of a frame, `B0x1` here and `T0x1` there. -/
theorem not_parsers_safe :
    ¬ Safe .create [0x42, 0x30, 0x78, 0x31] ∧ ¬ Terminates .create [0x54, 0x30, 0x78, 0x31] := by
  constructor
  · rintro ⟨parsed, isParsed, -⟩
    have isFault : parseEmitIncoming .create [0x42, 0x30, 0x78, 0x31] = .error .outOfBounds := by
      decide +kernel
    cases isParsed.symm.trans isFault
  · rw [ProxySocket.terminates_iff]
    intro ends
    have starts : StartsFrame [0x54, 0x30, 0x78, 0x31] 0 0x54 := ⟨by decide, by decide, .inl rfl⟩
    have noEnd := ProxySocket.noLineEnd_of_notMem
      (by decide : (0x0a : UInt8) ∉ [0x54, 0x30, 0x78, 0x31]) 3
    exact (ends 0 .refl).1 (.serial starts ⟨.inl (by decide), noEnd⟩)

end FreeOnline.Wsd.ProxyProtocol
