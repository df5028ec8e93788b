import Brickred.Lib.Segmentation
import Brickred.WebSocket.Frame

/-!
# The application's loop as a reader

After the handshake, one turn of the application's loop looks at one frame: `step` says what the
frame does, and `reader` is the loop as a `Segmentation.Reader`.

* `pump_succ` — one turn of `pump` is one step.
* `pump_eq` — the loop is total: it is the reader's driver, patient when it runs until the
  stream is consumed.
-/

set_option autoImplicit false

namespace Brickred

namespace WebSocketProtocol

open Segmentation

variable {η : Type}

/-- A protocol object after the handshake. -/
abbrev Connected (η : Type) := { s : WebSocketProtocol η // s.status = .connected }

/-- What one frame does: the connection ends, or it goes on, and `recvMessage` has returned
something else than `WAITING_MORE_DATA` when `more`. -/
inductive Step (η : Type) where
  | stop (event : Event)
  | next (s : Connected η) (out : List Event) (more : Bool)

/-- A frame without FIN. -/
def Connected.fragment (s : Connected η) (opcode : Int) (payload : List UInt8) : Connected η :=
  ⟨{ s.1 with
      message := s.1.message ++ payload
      lastOpCode := if opcode ≠ 0x0 then opcode else s.1.lastOpCode }, s.2⟩

/-- A frame with FIN after which the connection goes on. -/
def Connected.final (s : Connected η) (opcode : Int) (retCode : RetCode) : Connected η :=
  ⟨{ s.1 with
      message := []
      lastOpCode := if opcode = 0x0 then -1 else s.1.lastOpCode
      retCode := retCode }, s.2⟩

/-- The opcode a frame with FIN is processed by. -/
def effectiveOpcode (lastOpCode opcode : Int) : Int := if opcode = 0x0 then lastOpCode else opcode

def Connected.effective (s : Connected η) (opcode : Int) : Int :=
  effectiveOpcode s.1.lastOpCode opcode

def step (s : Connected η) (fin : Bool) (opcode : Int) (payload : List UInt8) : Step η :=
  if !fin then .next (s.fragment opcode payload) [] false
  else if s.effective opcode = 0x1 ∨ s.effective opcode = 0x2 then
    .next (s.final opcode s.1.retCode) [.message (s.1.message ++ payload)] true
  else if s.effective opcode = 0x8 then .stop .peerClosed
  else if s.effective opcode = 0x9 then .next (s.final opcode .pingFrame) [.pingFrame] true
  else if s.effective opcode = 0xa then .next (s.final opcode .pongFrame) [.pongFrame] true
  else .stop .error

/-- The step of a frame as it was received. -/
def stepFrame (s : Connected η) (f : Frame) : Step η :=
  step s f.fin (f.opcode.toNat : Int) f.payload

/-! ## One turn of the loop -/

section Turn

variable {handlers : HandshakeHandlers η} {untilConsumed : Bool} {fuel : Nat}
  {s : Connected η} {buffer : List UInt8}

theorem recvMessage_connected : recvMessage handlers (fuel + 1) s.1 buffer =
    (let r := readFrame s.1 buffer
     if 0 = r.ret then some ⟨.waitingMoreData, r.self, r.buffer, r.output⟩
     else if -1 = r.ret then
       some ⟨.error, { r.self with status := .pendingError }, r.buffer, r.output⟩
     else if 2 = r.ret then some ⟨r.self.retCode, r.self, r.buffer, r.output⟩
     else if r.self.status = .finished then some ⟨.messageReady, r.self, r.buffer, r.output⟩
     else if r.self.status = .closed then some ⟨.peerClosed, r.self, r.buffer, r.output⟩
     else (recvMessage handlers fuel r.self r.buffer).map fun r' =>
       { r' with output := r.output ++ r'.output }) := by
  rw [recvMessage, s.2]
  rfl

/-- Without a whole frame nothing happens. -/
theorem pump_waiting (h : parseFrame s.1.isClient buffer = .error .waiting) :
    pump handlers untilConsumed (fuel + 1) s.1 buffer = some ([], some (s.1, buffer)) := by
  have hread : readFrame s.1 buffer = ⟨0, s.1, buffer, []⟩ := by unfold readFrame; rw [h]
  rw [pump, recvMessage_connected, hread]
  simp

theorem pump_invalid (h : parseFrame s.1.isClient buffer = .error .invalid) :
    pump handlers untilConsumed (fuel + 1) s.1 buffer = some ([.error], none) := by
  have hread : readFrame s.1 buffer = ⟨-1, s.1, buffer, []⟩ := by unfold readFrame; rw [h]
  rw [pump, recvMessage_connected, hread]
  simp

/-- The object `processFrame` goes on with after a frame with FIN. -/
def Connected.resolved (s : Connected η) (opcode : Int) (payload : List UInt8) :
    WebSocketProtocol η :=
  { s.1 with
    message := s.1.message ++ payload
    lastOpCode := if opcode = 0x0 then -1 else s.1.lastOpCode }

theorem processFrame_fragment (opcode : Int) (payload : List UInt8) :
    processFrame { s.1 with message := s.1.message ++ payload } false opcode buffer =
      ⟨0, (s.fragment opcode payload).1, buffer, []⟩ := by
  unfold processFrame Connected.fragment
  dsimp only
  rw [if_pos (by decide)]
  split <;> rfl

theorem processFrame_fin (opcode : Int) (payload : List UInt8) :
    processFrame { s.1 with message := s.1.message ++ payload } true opcode buffer =
      (let r := s.resolved opcode payload
       if s.effective opcode = 0x1 ∨ s.effective opcode = 0x2 then
         ⟨1, { r with status := .finished }, buffer, []⟩
       else if s.effective opcode = 0x8 then
         ⟨1, { r.sendCloseFrame.1 with status := .closed, message := [] }, buffer,
           r.sendCloseFrame.2⟩
       else if s.effective opcode = 0x9 then
         ⟨2, { r with message := [], retCode := .pingFrame }, buffer,
           sendPongFrame { r with message := [] }⟩
       else if s.effective opcode = 0xa then
         ⟨2, { r with message := [], retCode := .pongFrame }, buffer, []⟩
       else ⟨-1, r, buffer, []⟩) := by
  unfold processFrame Connected.resolved Connected.effective effectiveOpcode
  by_cases h0 : opcode = 0x0
  · simp only [h0]; rfl
  · simp only [if_neg h0]; rfl

/-- **One turn of the loop** on a whole frame. -/
theorem pump_frame {f : Frame} (h : parseFrame s.1.isClient buffer = .ok f) :
    pump handlers untilConsumed (fuel + 1) s.1 buffer =
      match stepFrame s f with
      | .stop e => some ([e], none)
      | .next s' out more =>
        if more || untilConsumed then
          (pump handlers untilConsumed fuel s'.1 (buffer.drop f.size)).map fun p =>
            (out ++ p.1, p.2)
        else some (out, some (s'.1, buffer.drop f.size)) := by
  obtain ⟨hpos, hle⟩ := parseFrame_size h
  have hlt : (buffer.drop f.size).length < buffer.length := by rw [List.length_drop]; omega
  have hread : readFrame s.1 buffer =
      processFrame { s.1 with message := s.1.message ++ f.payload } f.fin (f.opcode.toNat : Int)
        (buffer.drop f.size) := by unfold readFrame; rw [h]
  rw [pump, recvMessage_connected, hread]
  unfold stepFrame step
  cases f.fin with
  | false =>
    rw [processFrame_fragment]
    cases untilConsumed with
    | false => simp
    | true =>
      simp only [if_pos, bind, Option.bind_some, Bool.not_false, Bool.or_true]
      exact if_pos ⟨trivial, hlt⟩
  | true =>
    rw [processFrame_fin]
    dsimp only
    by_cases hdata : s.effective f.opcode.toNat = 0x1 ∨ s.effective f.opcode.toNat = 0x2
    · -- MESSAGE_READY, and `retrieveMessage` takes the message out
      simp [hdata, retrieveMessage, Connected.resolved, Connected.final, s.2]
    · rw [if_neg hdata, if_neg hdata]
      by_cases hclose : s.effective f.opcode.toNat = 0x8
      · simp [hclose]
      · rw [if_neg hclose, if_neg hclose]
        by_cases hping : s.effective f.opcode.toNat = 0x9
        · simp [hping, Connected.resolved, Connected.final]
        · rw [if_neg hping, if_neg hping]
          by_cases hpong : s.effective f.opcode.toNat = 0xa
          · simp [hpong, Connected.resolved, Connected.final]
          · simp [hpong]

end Turn

/-! ## The reader -/

/-- The loop as a reader of the stream. -/
def reader (η : Type) : Reader (Connected η) UInt8 Event where
  turn s buffer :=
    match parseFrame s.1.isClient buffer with
    | .ok f =>
      match stepFrame s f with
      | .stop e => .stop [e]
      | .next s' out more => .take s' f.size out more
    | .error .waiting => .wait
    | .error .invalid => .stop [.error]
  empty _ := rfl
  used_pos {s buffer s' used out more} h := by
    split at h <;> try cases h
    rename_i f hf
    split at h <;> cases h
    have := parseFrame_size hf
    omega
  used_le {s buffer s' used out more} h := by
    split at h <;> try cases h
    rename_i f hf
    split at h <;> cases h
    exact (parseFrame_size hf).2
  extend {s buffer} ext h := by
    cases hp : parseFrame s.1.isClient buffer with
    | error e =>
      cases e with
      | waiting => rw [hp] at h; exact absurd rfl h
      | invalid => rw [parseFrame_invalid_append ext hp]
    | ok f => rw [parseFrame_append ext hp]
  local_take {s buffer s' used out more} h := by
    split at h <;> try cases h
    rename_i f hf
    split at h <;> cases h
    rename_i hstep
    rw [parseFrame_take hf]
    dsimp only
    rw [hstep]
    simp

variable {s s' : Connected η} {buffer : List UInt8} {f : Frame} {out : List Event} {more : Bool}
  {e : Event}

theorem turn_waiting (h : parseFrame s.1.isClient buffer = .error .waiting) :
    (reader η).turn s buffer = .wait := by
  show (match parseFrame s.1.isClient buffer with
    | .ok f => _ | .error .waiting => _ | .error .invalid => _) = _
  rw [h]

theorem turn_invalid (h : parseFrame s.1.isClient buffer = .error .invalid) :
    (reader η).turn s buffer = .stop [.error] := by
  show (match parseFrame s.1.isClient buffer with
    | .ok f => _ | .error .waiting => _ | .error .invalid => _) = _
  rw [h]

theorem turn_stop (h : parseFrame s.1.isClient buffer = .ok f) (hf : stepFrame s f = .stop e) :
    (reader η).turn s buffer = .stop [e] := by
  show (match parseFrame s.1.isClient buffer with
    | .ok f => _ | .error .waiting => _ | .error .invalid => _) = _
  rw [h]
  dsimp only
  rw [hf]

theorem turn_next (h : parseFrame s.1.isClient buffer = .ok f)
    (hf : stepFrame s f = .next s' out more) :
    (reader η).turn s buffer = .take s' f.size out more := by
  show (match parseFrame s.1.isClient buffer with
    | .ok f => _ | .error .waiting => _ | .error .invalid => _) = _
  rw [h]
  dsimp only
  rw [hf]

/-- The reader an application's loop drives. -/
def driver (η : Type) (untilConsumed : Bool) : Reader (Connected η) UInt8 Event :=
  if untilConsumed then (reader η).patient else reader η

/-- A reader's carry as a connection. -/
def connection (c : Carry (Connected η) UInt8) : Connection η := c.map fun p => (p.1.1, p.2)

/-- **The loop is total**, and the reader's driver says what it does. -/
theorem pump_eq (handlers : HandshakeHandlers η) (untilConsumed : Bool) :
    ∀ (fuel : Nat) (s : Connected η) (buffer : List UInt8), buffer.length < fuel →
      pump handlers untilConsumed fuel s.1 buffer =
        some (((driver η untilConsumed).drive s buffer).1,
          connection ((driver η untilConsumed).drive s buffer).2)
  | 0, _, _, h => absurd h (Nat.not_lt_zero _)
  | fuel + 1, s, buffer, hlen => by
    cases hp : parseFrame s.1.isClient buffer with
    | error why =>
      cases why with
      | waiting =>
        have ht : (driver η untilConsumed).turn s buffer = .wait := by
          cases untilConsumed
          · exact turn_waiting hp
          · exact Reader.patient_wait.2 (turn_waiting hp)
        rw [pump_waiting hp, Reader.drive_wait ht]
        rfl
      | invalid =>
        have ht : (driver η untilConsumed).turn s buffer = .stop [.error] := by
          cases untilConsumed
          · exact turn_invalid hp
          · exact Reader.patient_stop (turn_invalid hp)
        rw [pump_invalid hp, Reader.drive_stop ht]
        rfl
    | ok f =>
      rw [pump_frame hp]
      obtain ⟨hpos, hle⟩ := parseFrame_size hp
      have ih := fun s' : Connected η => pump_eq handlers untilConsumed fuel s'
        (buffer.drop f.size) (by rw [List.length_drop]; omega)
      cases hf : stepFrame s f with
      | stop e =>
        have ht : (driver η untilConsumed).turn s buffer = .stop [e] := by
          cases untilConsumed
          · exact turn_stop hp hf
          · exact Reader.patient_stop (turn_stop hp hf)
        rw [Reader.drive_stop ht]
        rfl
      | next s' out more =>
        have ht : (driver η untilConsumed).turn s buffer =
            .take s' f.size out (more || untilConsumed) := by
          cases untilConsumed
          · rw [Bool.or_false]; exact turn_next hp hf
          · rw [Bool.or_true]; exact Reader.patient_take (turn_next hp hf)
        dsimp only
        cases hgo : (more || untilConsumed) with
        | true =>
          rw [hgo] at ht
          rw [Reader.drive_more ht, if_pos rfl, ih s']
          rfl
        | false =>
          rw [hgo] at ht
          rw [Reader.drive_pause ht, if_neg (by decide)]
          rfl

/-- A connected endpoint with nothing in progress. -/
def fresh (isClient : Bool) : Connected Unit :=
  ⟨⟨.connected, true, (), [], isClient, false, -1, .connectionEstablished⟩, rfl⟩

/-- Handlers that refuse every handshake. -/
def noHandshake : HandshakeHandlers Unit where
  readHandshakeRequest s buffer := ⟨-1, s, buffer, []⟩
  readHandshakeResponse s buffer := ⟨-1, s, buffer, []⟩

end WebSocketProtocol

end Brickred
