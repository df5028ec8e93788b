import Brickred.DynamicBuffer

/-!
# `WebSocketProtocol` (model of `web_socket_protocol.cc`)

The receive side works on the readable bytes of the application's `DynamicBuffer` and of
`message_`, both byte lists here; what a call passes to the output callback is returned as a
list of outputs.

* `parseFrame`, `processFrame`, `readFrame` — the two halves of `readFrame` and the whole.
* `recvMessage`, `retrieveMessage`, and the control frames the receive side answers with.
* `sendMessage` — on the storage of the local `DynamicBuffer`, which the mask key points into.
* `pump` — the loop the application runs on the bytes it has received: the one of
  `onRecvMessage` in the echo server, or one that goes on until no byte is used any more.

The handshake handlers are a parameter here (`HandshakeHandlers`): no state after the handshake
calls them.
-/

set_option autoImplicit false

namespace Brickred

inductive WebSocketProtocol.Status where
  | detached
  | waitingHandshakeRequest
  | waitingHandshakeResponse
  | connected
  | finished
  | closed
  | pendingError
  deriving DecidableEq

inductive WebSocketProtocol.RetCode where
  | error
  | waitingMoreData
  | connectionEstablished
  | messageReady
  | peerClosed
  | pingFrame
  | pongFrame
  deriving DecidableEq

/-- `class WebSocketProtocol::Impl`; `http` is what the handshake handlers keep, and `outputCb`
says whether an output callback is set. -/
structure WebSocketProtocol (η : Type) where
  status : WebSocketProtocol.Status
  outputCb : Bool
  http : η
  message : List UInt8
  isClient : Bool
  closeFrameSent : Bool
  lastOpCode : Int
  retCode : WebSocketProtocol.RetCode

namespace WebSocketProtocol

variable {η : Type}

/-- What a status handler returns, and the object, the buffer and the output it leaves. -/
structure Handled (η : Type) where
  ret : Int
  self : WebSocketProtocol η
  buffer : List UInt8
  output : List (List UInt8)

abbrev StatusHandler (η : Type) := WebSocketProtocol η → List UInt8 → Handled η

structure HandshakeHandlers (η : Type) where
  readHandshakeRequest : StatusHandler η
  readHandshakeResponse : StatusHandler η

/-! ## Control frames -/

/-- A control frame without payload: `b` is its first byte. -/
def controlFrame (isClient : Bool) (b : UInt8) : List UInt8 :=
  if isClient then [b, 0x80, 0x0, 0x0, 0x0, 0x0] else [b, 0x0]

/-- What the output callback receives when `frame` is sent. -/
def emit (s : WebSocketProtocol η) (frame : List UInt8) : List (List UInt8) :=
  if s.outputCb then [frame] else []

def sendCloseFrame (s : WebSocketProtocol η) : WebSocketProtocol η × List (List UInt8) :=
  if s.status ≠ .connected then (s, [])
  else if s.closeFrameSent then (s, [])
  else ({ s with closeFrameSent := true }, s.emit (controlFrame s.isClient 0x88))

def sendPingFrame (s : WebSocketProtocol η) : List (List UInt8) :=
  if s.status ≠ .connected then []
  else if s.closeFrameSent then []
  else s.emit (controlFrame s.isClient 0x89)

def sendPongFrame (s : WebSocketProtocol η) : List (List UInt8) :=
  if s.status ≠ .connected then []
  else if s.closeFrameSent then []
  else s.emit (controlFrame s.isClient 0x8a)

/-! ## Reading a frame -/

/-- Why `readFrame` gives up: `return 0` for want of data, or `return -1`. -/
inductive Stop where
  | waiting
  | invalid
  deriving DecidableEq

/-- A frame as it was received, unmasked; `size` is the number of bytes it takes. -/
structure Frame where
  fin : Bool
  opcode : UInt8
  payload : List UInt8
  size : Nat

/-- The payload length and the position behind it; `b1` is the second byte of the frame. -/
def readPayloadLength (buffer : List UInt8) (b1 : UInt8) : Except Stop (Nat × Nat) :=
  let payloadLength := (b1 &&& 0x7f).toNat
  if 126 = payloadLength then
    match DynamicBuffer.peekInt16 buffer 2 with
    | none => .error .waiting
    | some payloadLength => if payloadLength < 126 then .error .invalid else .ok (payloadLength, 4)
  else if 127 = payloadLength then
    match DynamicBuffer.peekInt64 buffer 2 with
    | none => .error .waiting
    | some payloadLength =>
      if payloadLength < 0xffff then .error .invalid else .ok (payloadLength, 10)
  else .ok (payloadLength, 2)

/-- The mask key, if the frame has one, and the position behind it. -/
def readMaskKey (isClient : Bool) (buffer : List UInt8) (b1 : UInt8) (p : Nat) :
    Except Stop (List UInt8 × Nat) :=
  if b1 &&& 0x80 = 0 then .ok ([], p)
  else if isClient then .error .invalid
  else if buffer.length - p < 4 then .error .waiting
  else .ok ((buffer.drop p).take 4, p + 4)

/-- The masking loop; without a key (`mask_key` is NULL) the bytes stay as they are. -/
def maskFrom (maskKey : List UInt8) : Nat → List UInt8 → List UInt8
  | _, [] => []
  | i, b :: bs => (b ^^^ maskKey.getD (i &&& 0x03) 0) :: maskFrom maskKey (i + 1) bs

def readPayload (buffer maskKey : List UInt8) (payloadLength p : Nat) :
    Except Stop (List UInt8) :=
  if buffer.length - p < payloadLength then .error .waiting
  else .ok (maskFrom maskKey 0 ((buffer.drop p).take payloadLength))

/-- `readFrame` up to `buffer->read(p - b)`. -/
def parseFrame (isClient : Bool) : List UInt8 → Except Stop Frame
  | [] => .error .waiting
  | [_] => .error .waiting
  | b0 :: b1 :: tail =>
    let buffer := b0 :: b1 :: tail
    if b0 &&& 0x70 ≠ 0 then .error .invalid
    else do
      let (payloadLength, p) ← readPayloadLength buffer b1
      let (maskKey, p) ← readMaskKey isClient buffer b1 p
      let payload ← readPayload buffer maskKey payloadLength p
      .ok ⟨b0 &&& 0x80 ≠ 0, b0 &&& 0x0f, payload, p + payloadLength⟩

/-- `readFrame` from `// process frame` on; the payload is in `message_` already. -/
def processFrame (s : WebSocketProtocol η) (fin : Bool) (opcode : Int) (buffer : List UInt8) :
    Handled η :=
  if !fin then
    ⟨0, if opcode ≠ 0x0 then { s with lastOpCode := opcode } else s, buffer, []⟩
  else
    let (opcode, s) := if opcode = 0x0 then (s.lastOpCode, { s with lastOpCode := -1 })
      else (opcode, s)
    if opcode = 0x1 ∨ opcode = 0x2 then
      ⟨1, { s with status := .finished }, buffer, []⟩
    else if opcode = 0x8 then
      let (s, output) := s.sendCloseFrame
      ⟨1, { s with status := .closed, message := [] }, buffer, output⟩
    else if opcode = 0x9 then
      let s := { s with message := [] }
      ⟨2, { s with retCode := .pingFrame }, buffer, s.sendPongFrame⟩
    else if opcode = 0xa then
      ⟨2, { s with message := [], retCode := .pongFrame }, buffer, []⟩
    else ⟨-1, s, buffer, []⟩

def readFrame (s : WebSocketProtocol η) (buffer : List UInt8) : Handled η :=
  match parseFrame s.isClient buffer with
  | .error .waiting => ⟨0, s, buffer, []⟩
  | .error .invalid => ⟨-1, s, buffer, []⟩
  | .ok frame =>
    processFrame { s with message := s.message ++ frame.payload } frame.fin
      (frame.opcode.toNat : Int) (buffer.drop frame.size)

/-! ## Receiving -/

/-- `s_status_handler_`. -/
def statusHandler (handlers : HandshakeHandlers η) : Status → Option (StatusHandler η)
  | .waitingHandshakeRequest => some handlers.readHandshakeRequest
  | .waitingHandshakeResponse => some handlers.readHandshakeResponse
  | .connected => some readFrame
  | .detached | .finished | .closed | .pendingError => none

/-- What `recvMessage` returns, and the object, the buffer and the output it leaves. -/
structure Received (η : Type) where
  code : RetCode
  self : WebSocketProtocol η
  buffer : List UInt8
  output : List (List UInt8)

/-- `none`: not finished within `fuel` turns. -/
def recvMessage (handlers : HandshakeHandlers η) :
    Nat → WebSocketProtocol η → List UInt8 → Option (Received η)
  | 0, _, _ => none
  | fuel + 1, s, buffer =>
    match statusHandler handlers s.status with
    | none => some ⟨.error, s, buffer, []⟩
    | some func =>
      let r := func s buffer
      if 0 = r.ret then some ⟨.waitingMoreData, r.self, r.buffer, r.output⟩
      else if -1 = r.ret then
        some ⟨.error, { r.self with status := .pendingError }, r.buffer, r.output⟩
      else if 2 = r.ret then some ⟨r.self.retCode, r.self, r.buffer, r.output⟩
      else if r.self.status = .finished then some ⟨.messageReady, r.self, r.buffer, r.output⟩
      else if r.self.status = .closed then some ⟨.peerClosed, r.self, r.buffer, r.output⟩
      else (recvMessage handlers fuel r.self r.buffer).map fun r' =>
        { r' with output := r.output ++ r'.output }

/-- `none` is `false`. -/
def retrieveMessage (s : WebSocketProtocol η) : Option (List UInt8 × WebSocketProtocol η) :=
  if s.status ≠ .finished then none
  else some (s.message, { s with message := [], status := .connected })

/-! ## Sending -/

/-- The masking loop of `sendMessage`: `size` bytes from `writeBegin()[i]` on. -/
def maskLoop (maskKey : Pointer) : Nat → Nat → DynamicBuffer → Option DynamicBuffer
  | 0, _, message => some message
  | size + 1, i, message => do
    let k ← message.load maskKey (i &&& 0x03)
    let message ← message.modify i (· ^^^ k)
    maskLoop maskKey size (i + 1) message

/-- The first two bytes and the length field, in the local buffer. -/
def writeHead (isClient : Bool) (size : Nat) : Option DynamicBuffer := do
  let message ← (DynamicBuffer.new 1024 1024).reserveWritableBytes 2
  -- FIN = 1, RSV1~RSV3 = 0, opcode = 0x2
  let message ← message.store 0 [0x82]
  let message := message.write 1
  let message ← message.store 0 [if isClient then 0x80 else 0x0]
  if size < 126 then
    let message ← message.modify 0 (· ||| UInt8.ofNat size)
    some (message.write 1)
  else if size < 65535 then
    let message ← message.modify 0 (· ||| 126)
    (message.write 1).writeInt16 size
  else
    let message ← message.modify 0 (· ||| 127)
    (message.write 1).writeInt64 size

/-- The payload: `mask_key` was taken before the last `reserveWritableBytes`. -/
def writePayload (maskKey : Option Pointer) (payload : List UInt8) (message : DynamicBuffer) :
    Option DynamicBuffer := do
  let message ← message.reserveWritableBytes payload.length
  let message ← message.store 0 payload
  let message ← match maskKey with
    | none => some message
    | some maskKey => maskLoop maskKey payload.length 0 message
  some (message.write payload.length)

/-- `random` are the results of the four `nextInt(256)`.  `none`: undefined behaviour. -/
def sendMessage (s : WebSocketProtocol η) (random : Fin 4 → UInt8) (payload : List UInt8) :
    Option (List (List UInt8)) :=
  if s.status ≠ .connected then some []
  else if s.closeFrameSent then some []
  else do
    let message ← writeHead s.isClient payload.length
    let message ←
      if s.isClient then do
        let message ← message.reserveWritableBytes 4
        let message ← message.store 0 (List.ofFn random)
        let maskKey := message.writeBegin
        writePayload (some maskKey) payload (message.write 4)
      else writePayload none payload message
    some (s.emit message.readable)

/-! ## The application's loop -/

/-- What the application sees. -/
inductive Event where
  | message (payload : List UInt8)
  | connectionEstablished
  | pingFrame
  | pongFrame
  | error
  | peerClosed
  deriving DecidableEq

/-- The messages among the events. -/
def messages (events : List Event) : List (List UInt8) :=
  events.filterMap fun e => match e with
    | .message payload => some payload
    | _ => none

/-- The object and the bytes left in the buffer, or `none` once the application has closed the
socket. -/
abbrev Connection (η : Type) := Option (WebSocketProtocol η × List UInt8)

/-- The loop around `recvMessage`.  After `WAITING_MORE_DATA` it returns, or calls again as long
as bytes are used (`untilConsumed`). -/
def pump (handlers : HandshakeHandlers η) (untilConsumed : Bool) :
    Nat → WebSocketProtocol η → List UInt8 → Option (List Event × Connection η)
  | 0, _, _ => none
  | fuel + 1, s, buffer => do
    let r ← recvMessage handlers (fuel + 1) s buffer
    let again (e : List Event) (s : WebSocketProtocol η) : Option (List Event × Connection η) :=
      (pump handlers untilConsumed fuel s r.buffer).map fun p => (e ++ p.1, p.2)
    match r.code with
    | .waitingMoreData =>
      if untilConsumed ∧ r.buffer.length < buffer.length then again [] r.self
      else some ([], some (r.self, r.buffer))
    | .error => some ([.error], none)
    | .peerClosed => some ([.peerClosed], none)
    | .messageReady =>
      match r.self.retrieveMessage with
      | none => some ([.error], none)
      | some (payload, s) => again [.message payload] s
    | .connectionEstablished => again [.connectionEstablished] r.self
    | .pingFrame => again [.pingFrame] r.self
    | .pongFrame => again [.pongFrame] r.self

/-- `onRecvMessage` of the echo server, called for each piece of the stream. -/
def receive (handlers : HandshakeHandlers η) : Connection η → List (List UInt8) →
    Option (List Event)
  | _, [] => some []
  | none, _ :: _ => some []
  | some (s, buffer), piece :: pieces => do
    let buffer := buffer ++ piece
    let (events, connection) ← pump handlers false (buffer.length + 1) s buffer
    let later ← receive handlers connection pieces
    some (events ++ later)

/-- Driven until the whole stream is consumed. -/
def consume (handlers : HandshakeHandlers η) (s : WebSocketProtocol η) (stream : List UInt8) :
    Option (List Event × Connection η) :=
  pump handlers true (stream.length + 1) s stream

end WebSocketProtocol

end Brickred
