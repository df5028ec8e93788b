import Brickred.TcpService.Hosting
import Brickred.WebSocket.Agreement
import Brickred.WebSocket.Delivery

/-!
# The WebSocket echo server (model of `ws_echo_server.cc`)

The server establishes the connection and sends every message back, in a frame of its own.

* `serve` — the loop of `onRecvMessage`, `wsEchoServer` — the application.
* `server` — the server as a reader of the stream: an HTTP request, and then frames.
* `serve_drive` — the loop is the driver of this reader.
* `ws_echo_answers` — **what a client gets** lies, for every cut of what it sent into pieces and
  whatever the other clients do, between the answers to that in one piece and those of a patient
  server.
-/

set_option autoImplicit false

namespace Brickred

namespace WsEcho

open StringUtil Segmentation TcpService Runs WebSocketProtocol Codec

variable {κ : Type}

/-! ## The program -/

/-- What comes from outside into a call of `onRecvMessage`: what lies in memory behind the readable
bytes, and the time as `strftime` writes it. -/
structure Surroundings where
  beyond : Nat → UInt8
  date : List UInt8
  dateText : DateText date

/-- The protocol object of a new connection. -/
def newProtocol : WebSocketProtocol Handshake :=
  ((WebSocketProtocol.new true).setHandshakeHeader (bytes "Date") (bytes "")).startAsServer.self

/-- `Context::sendMessage`, the output callback. -/
def output (frames : List (List UInt8)) : List TcpService.Call :=
  frames.map fun frame => .sendMessage frame false

/-- The loop of `onRecvMessage`: the protocol, the read buffer and the calls; more than
`buffer.length` turns are not made.  What a server sends it does not mask. -/
def serve (handlers : HandshakeHandlers Handshake) :
    Nat → WebSocketProtocol Handshake → List UInt8 →
      WebSocketProtocol Handshake × List UInt8 × List TcpService.Call
  | 0, s, buffer => (s, buffer, [])
  | fuel + 1, s, buffer =>
    match WebSocketProtocol.recvMessage handlers (buffer.length + 1) s buffer with
    | none => (s, buffer, [])
    | some r =>
      match r.code with
      | .waitingMoreData => (r.self, r.buffer, output r.output)
      | .error => (r.self, r.buffer, output r.output ++ [.closeSocket])
      | .peerClosed => (r.self, r.buffer, output r.output ++ [.closeSocket])
      | .messageReady =>
        match r.self.retrieveMessage with
        | none => (r.self, r.buffer, output r.output ++ [.closeSocket])
        | some (message, s) =>
          let sent := output (s.sendOutput (fun _ => 0) message fun _ => 0)
          let (s, buffer, calls) := serve handlers fuel s r.buffer
          (s, buffer, output r.output ++ sent ++ calls)
      -- the source has no branch for the other codes
      | _ =>
        let (s, buffer, calls) := serve handlers fuel r.self r.buffer
        (s, buffer, output r.output ++ calls)

/-- `class WsEchoServer`, with its `Context`. -/
def wsEchoServer : Application (Option (WebSocketProtocol Handshake)) Surroundings where
  context := none
  onNewConnection _ := (some newProtocol, [])
  onRecvMessage input context readBuffer :=
    match context with
    | none => (none, readBuffer, [.closeSocket])
    | some s =>
      let (s, rest, calls) :=
        serve (handlers input.beyond input.date) (readBuffer.length + 1) s readBuffer
      (some s, rest, calls)

/-! ## The server as a reader -/

inductive Answer where
  | handshake (request : HttpMessage)
  | refusal
  | event (event : WebSocketProtocol.Event)

/-- The handshake is over. -/
def established : Connected Handshake :=
  ⟨(newProtocol.setHttpProtocol HttpProtocol.reset).establish, rfl⟩

def accepts (message : HttpMessage) : Bool :=
  match message.kind with
  | .request _ _ => checkHandshakeRequestValid message
  | .response _ _ => false

/-- The first message is the request of the client. -/
def next : List HttpMessage → Handover (Connected Handshake) Answer
  | [] => .stay
  | message :: _ =>
    if accepts message then .switch established [.handshake message] else .stop [.refusal]

/-- The HTTP parser, and behind the handshake the frames. -/
def server : Reader (HttpProtocol ⊕ Connected Handshake) UInt8 Answer :=
  HttpProtocol.parser.handover (reader Handshake) next [.refusal] .event

def start : HttpProtocol ⊕ Connected Handshake := .inl HttpProtocol.reset

/-- The protocol object, where the reader is. -/
def self : HttpProtocol ⊕ Connected Handshake → WebSocketProtocol Handshake
  | .inl httpProtocol => newProtocol.setHttpProtocol httpProtocol
  | .inr s => s.1

/-- What an answer puts out, and whether it closes the connection; `date` is the time of the
handshake. -/
def Answer.calls (date : List UInt8) : Answer → List TcpService.Call
  | handshake request => output (newProtocol.sendHandshakeSuccessResponse request date)
  | refusal => output newProtocol.sendHandshakeErrorResponse ++ [.closeSocket]
  | event (.message payload) => output (established.1.sendOutput (fun _ => 0) payload fun _ => 0)
  | event .pingFrame => output established.1.sendPongFrame
  | event .peerClosed => output established.1.sendCloseFrame.2 ++ [.closeSocket]
  | event .error => [.closeSocket]
  | event _ => []

def texts (date : List UInt8) (answers : List Answer) : List UInt8 :=
  (answers.flatMap (Answer.calls date)).flatMap TcpService.Call.buffer

/-- The answers of a patient server to all that has been received, -/
def answers (stream : List UInt8) : List Answer := server.ideal start stream

/-- and those to the same in one piece. -/
def promptAnswers (stream : List UInt8) : List Answer := (server.drive start stream).1

theorem texts_nil (date : List UInt8) : texts date [] = [] := rfl

theorem texts_append (date : List UInt8) (as bs : List Answer) :
    texts date (as ++ bs) = texts date as ++ texts date bs := by
  unfold texts
  rw [List.flatMap_append, List.flatMap_append]

theorem texts_mono (date : List UInt8) {as bs : List Answer} (h : as <+: bs) :
    texts date as <+: texts date bs := by
  obtain ⟨cs, rfl⟩ := h
  rw [texts_append]
  exact List.prefix_append _ _

/-- The time is in nothing but the handshake. -/
theorem texts_event (date date' : List UInt8) (events : List Event) :
    texts date (events.map .event) = texts date' (events.map .event) := by
  unfold texts
  rw [List.flatMap_map, List.flatMap_map]
  refine congrArg (List.flatMap TcpService.Call.buffer) (congrArg (events.flatMap ·) ?_)
  funext e
  cases e <;> rfl

/-! ## The loop -/

/-- The object puts frames out, unmasked. -/
structure Speaks (s : Connected Handshake) : Prop where
  outputCb : s.1.outputCb = true
  isClient : s.1.isClient = false
  closeFrameSent : s.1.closeFrameSent = false

theorem speaks_established : Speaks established := ⟨rfl, rfl, rfl⟩

section Speaking

variable {s s' : Connected Handshake}

theorem Speaks.sendOutput (h : Speaks s) (random : Fin 4 → UInt8) (payload : List UInt8)
    (stale : Nat → UInt8) : s.1.sendOutput random payload stale =
      established.1.sendOutput random payload stale := by
  have h' := speaks_established
  unfold WebSocketProtocol.sendOutput WebSocketProtocol.sendMessage emit
  rw [s.2, established.2, h.outputCb, h'.outputCb, h.isClient, h'.isClient, h.closeFrameSent,
    h'.closeFrameSent]

theorem Speaks.pong (h : Speaks s) : s.1.sendPongFrame = established.1.sendPongFrame := by
  have h' := speaks_established
  unfold sendPongFrame emit
  rw [s.2, established.2, h.outputCb, h'.outputCb, h.isClient, h'.isClient, h.closeFrameSent,
    h'.closeFrameSent]

theorem Speaks.close (h : Speaks s) : s.1.sendCloseFrame.2 = established.1.sendCloseFrame.2 := by
  have h' := speaks_established
  unfold sendCloseFrame emit
  rw [s.2, established.2, h.outputCb, h'.outputCb, h.isClient, h'.isClient, h.closeFrameSent,
    h'.closeFrameSent]
  rfl

theorem Speaks.fragment (h : Speaks s) (opcode : Int) (payload : List UInt8) :
    Speaks (s.fragment opcode payload) := ⟨h.outputCb, h.isClient, h.closeFrameSent⟩

theorem Speaks.final (h : Speaks s) (opcode : Int) (retCode : RetCode) :
    Speaks (s.final opcode retCode) := ⟨h.outputCb, h.isClient, h.closeFrameSent⟩

end Speaking

section Frames

variable {handlers : HandshakeHandlers Handshake} {fuel : Nat} {s s' : Connected Handshake}
  {buffer : List UInt8} {f : Frame} {out : List Event} {more : Bool} {e : Event}

theorem serve_waiting (h : parseFrame s.1.isClient buffer = .error .waiting) :
    serve handlers (fuel + 1) s.1 buffer = (s.1, buffer, []) := by
  have hread : readFrame s.1 buffer = ⟨0, s.1, buffer, []⟩ := by unfold readFrame; rw [h]
  rw [serve, recvMessage_connected, hread]
  rfl

theorem serve_invalid (h : parseFrame s.1.isClient buffer = .error .invalid) :
    serve handlers (fuel + 1) s.1 buffer =
      ({ s.1 with status := .pendingError }, buffer, [.closeSocket]) := by
  have hread : readFrame s.1 buffer = ⟨-1, s.1, buffer, []⟩ := by unfold readFrame; rw [h]
  rw [serve, recvMessage_connected, hread]
  rfl

/-- The events of a frame, as answers. -/
def frameCalls (date : List UInt8) (out : List Event) : List TcpService.Call :=
  (out.map Answer.event).flatMap (Answer.calls date)

theorem frameCalls_singleton (date : List UInt8) (e : Event) :
    frameCalls date [e] = (Answer.event e).calls date := by
  simp [frameCalls]

variable (date : List UInt8)

theorem serve_fragment (h : parseFrame s.1.isClient buffer = .ok f) (hfin : f.fin = false) :
    serve handlers (fuel + 1) s.1 buffer =
      ((s.fragment f.opcode.toNat f.payload).1, buffer.drop f.size, []) := by
  have hread : readFrame s.1 buffer =
      ⟨0, (s.fragment f.opcode.toNat f.payload).1, buffer.drop f.size, []⟩ := by
    unfold readFrame
    rw [h]
    dsimp only
    rw [hfin, processFrame_fragment]
  rw [serve, recvMessage_connected, hread]
  rfl

/-- What `recvMessage` returns for a frame with FIN. -/
theorem recvMessage_fin (h : parseFrame s.1.isClient buffer = .ok f) (hfin : f.fin = true) :
    readFrame s.1 buffer = processFrame { s.1 with message := s.1.message ++ f.payload } true
      (f.opcode.toNat : Int) (buffer.drop f.size) := by
  unfold readFrame
  rw [h]
  dsimp only
  rw [hfin]

/-- **One turn of the loop** on a frame with FIN that ends the connection, -/
theorem serve_ends (hs : Speaks s) (h : parseFrame s.1.isClient buffer = .ok f)
    (hfin : f.fin = true) (hstep : stepFrame s f = .stop e) :
    (serve handlers (fuel + 1) s.1 buffer).2.2 = (Answer.event e).calls date ∧
      Terminal (serve handlers (fuel + 1) s.1 buffer).1.status := by
  rw [serve, recvMessage_connected, recvMessage_fin h hfin, processFrame_fin]
  unfold stepFrame step at hstep
  rw [hfin, if_neg (by decide)] at hstep
  split at hstep
  · cases hstep
  rename_i hdata
  rw [if_neg hdata]
  split at hstep
  · rename_i hclose
    cases hstep
    rw [if_pos hclose]
    have hclose' : (s.resolved f.opcode.toNat f.payload).sendCloseFrame.2 =
        established.1.sendCloseFrame.2 :=
      Speaks.close (s := ⟨s.resolved f.opcode.toNat f.payload, s.2⟩)
        ⟨hs.outputCb, hs.isClient, hs.closeFrameSent⟩
    refine ⟨?_, Or.inl rfl⟩
    dsimp only [Answer.calls]
    rw [← hclose']
    rfl
  rename_i hclose
  rw [if_neg hclose]
  split at hstep
  · cases hstep
  rename_i hping
  rw [if_neg hping]
  split at hstep
  · cases hstep
  rename_i hpong
  cases hstep
  rw [if_neg hpong]
  exact ⟨rfl, Or.inr rfl⟩

/-- and on one after which it goes on. -/
theorem serve_goesOn (hs : Speaks s) (h : parseFrame s.1.isClient buffer = .ok f)
    (hfin : f.fin = true) (hstep : stepFrame s f = .next s' out more) :
    serve handlers (fuel + 1) s.1 buffer =
      ((serve handlers fuel s'.1 (buffer.drop f.size)).1,
        (serve handlers fuel s'.1 (buffer.drop f.size)).2.1,
        frameCalls date out ++ (serve handlers fuel s'.1 (buffer.drop f.size)).2.2) ∧
      Speaks s' ∧ more = true := by
  rw [serve, recvMessage_connected, recvMessage_fin h hfin, processFrame_fin]
  unfold stepFrame step at hstep
  rw [hfin, if_neg (by decide)] at hstep
  split at hstep
  · rename_i hdata
    cases hstep
    rw [if_pos hdata]
    have hnext := hs.final f.opcode.toNat s.1.retCode
    have hsent := hnext.sendOutput (fun _ => 0) (s.1.message ++ f.payload) fun _ => 0
    refine ⟨?_, hnext, rfl⟩
    rw [frameCalls_singleton]
    dsimp only [Answer.calls]
    rw [← hsent]
    obtain ⟨s, hstatus⟩ := s
    simp [retrieveMessage, Connected.resolved, Connected.final, output, hstatus]
  rename_i hdata
  rw [if_neg hdata]
  split at hstep
  · cases hstep
  rename_i hclose
  rw [if_neg hclose]
  split at hstep
  · rename_i hping
    cases hstep
    rw [if_pos hping]
    have hnext := hs.final f.opcode.toNat .pingFrame
    have hsent := (hs.final f.opcode.toNat s.1.retCode).pong
    refine ⟨?_, hnext, rfl⟩
    rw [frameCalls_singleton]
    dsimp only [Answer.calls]
    rw [← hsent]
    rfl
  rename_i hping
  rw [if_neg hping]
  split at hstep
  · rename_i hpong
    cases hstep
    rw [if_pos hpong]
    exact ⟨rfl, hs.final _ _, rfl⟩
  · cases hstep

end Frames

section Opening

variable {beyond : Nat → UInt8} {date : List UInt8} {fuel : Nat} {p p' : HttpProtocol}
  {buffer rest : List UInt8} {r : HttpProtocol.Received} {message : HttpMessage}
  {chunkBuffer : Option (List UInt8)}

/-- What `recvMessage` returns in front of the handshake. -/
def opened (date : List UInt8) (r : HttpProtocol.Received) :
    WebSocketProtocol.Received Handshake :=
  let refused (p : HttpProtocol) : WebSocketProtocol.Received Handshake :=
    ⟨.error, { newProtocol.setHttpProtocol p with status := .pendingError }, r.buffer,
      newProtocol.sendHandshakeErrorResponse⟩
  match r.code with
  | .waitingMoreData => ⟨.waitingMoreData, newProtocol.setHttpProtocol r.self, r.buffer, []⟩
  | .error => refused r.self
  | .messageReady =>
    match r.self.retrieveRequest with
    | none => refused r.self
    | some (request, p) =>
      if checkHandshakeRequestValid request then
        ⟨.connectionEstablished, (newProtocol.setHttpProtocol p).establish, r.buffer,
          newProtocol.sendHandshakeSuccessResponse request date⟩
      else refused p

theorem recvMessage_opening (h : HttpProtocol.Receives beyond p buffer r) (fuel : Nat) :
    WebSocketProtocol.recvMessage (handlers beyond date) (fuel + 1) (self (.inl p)) buffer =
      some (opened date r) := by
  have hread : httpRecvMessage beyond (newProtocol.setHttpProtocol p) buffer = r :=
    httpRecvMessage_eq.2 h
  have hfunc : statusHandler (handlers beyond date) (self (.inl p)).status =
      some (readHandshakeRequest beyond date) := rfl
  obtain ⟨code, p', rest⟩ := r
  rw [WebSocketProtocol.recvMessage, hfunc]
  dsimp only
  unfold readHandshakeRequest
  rw [show httpRecvMessage beyond (self (.inl p)) buffer = _ from hread]
  unfold opened
  cases code with
  | waitingMoreData => rfl
  | error => rfl
  | messageReady =>
    rcases hretrieve : p'.retrieveRequest with _ | ⟨request, q⟩
    · simp only [hretrieve]
      rfl
    · simp only [hretrieve]
      cases checkHandshakeRequestValid request with
      | false => rfl
      | true =>
        have hresponse : (((self (.inl p)).setHttpProtocol p').setHttpProtocol
            q).sendHandshakeSuccessResponse request date =
              newProtocol.sendHandshakeSuccessResponse request date := rfl
        simp only [hresponse, Bool.true_eq_false, if_false]
        rfl

/-- Silent turns of the parser are made within one call. -/
theorem serve_same (h : HttpProtocol.Receives beyond p buffer r)
    (h' : HttpProtocol.Receives beyond p' rest r) (fuel : Nat) :
    serve (handlers beyond date) (fuel + 1) (self (.inl p)) buffer =
      serve (handlers beyond date) (fuel + 1) (self (.inl p')) rest := by
  rw [serve, serve, recvMessage_opening h, recvMessage_opening h']

theorem serve_opening (h : HttpProtocol.Receives beyond p buffer ⟨.waitingMoreData, p', rest⟩) :
    serve (handlers beyond date) (fuel + 1) (self (.inl p)) buffer =
      (self (.inl p'), rest, []) := by
  rw [serve, recvMessage_opening h]
  rfl

theorem serve_malformed (h : HttpProtocol.Receives beyond p buffer ⟨.error, p', rest⟩) :
    (serve (handlers beyond date) (fuel + 1) (self (.inl p)) buffer).2.2 =
        Answer.refusal.calls date ∧
      Terminal (serve (handlers beyond date) (fuel + 1) (self (.inl p)) buffer).1.status := by
  rw [serve, recvMessage_opening h]
  exact ⟨rfl, Or.inr rfl⟩

theorem opened_refused (hno : accepts message = false) (chunkBuffer : Option (List UInt8))
    (rest : List UInt8) :
    ∃ p, opened date ⟨.messageReady, .finished message chunkBuffer, rest⟩ =
      ⟨.error, { newProtocol.setHttpProtocol p with status := .pendingError }, rest,
        newProtocol.sendHandshakeErrorResponse⟩ := by
  obtain ⟨kind, version, headers, body⟩ := message
  cases kind with
  | request method requestUri =>
    refine ⟨HttpProtocol.reset, ?_⟩
    unfold opened
    dsimp only [HttpProtocol.retrieveRequest]
    rw [if_neg]
    exact Bool.eq_false_iff.1 hno
  | response statusCode reasonPhrase => exact ⟨_, rfl⟩

theorem opened_accepted (hyes : accepts message = true) (chunkBuffer : Option (List UInt8))
    (rest : List UInt8) :
    opened date ⟨.messageReady, .finished message chunkBuffer, rest⟩ =
      ⟨.connectionEstablished, established.1, rest,
        newProtocol.sendHandshakeSuccessResponse message date⟩ := by
  obtain ⟨kind, version, headers, body⟩ := message
  cases kind with
  | request method requestUri =>
    unfold opened
    dsimp only [HttpProtocol.retrieveRequest]
    rw [if_pos]
    · rfl
    · exact hyes
  | response statusCode reasonPhrase => cases hyes

theorem serve_refused (h : HttpProtocol.Receives beyond p buffer
      ⟨.messageReady, .finished message chunkBuffer, rest⟩) (hno : accepts message = false) :
    (serve (handlers beyond date) (fuel + 1) (self (.inl p)) buffer).2.2 =
        Answer.refusal.calls date ∧
      Terminal (serve (handlers beyond date) (fuel + 1) (self (.inl p)) buffer).1.status := by
  obtain ⟨p', hopened⟩ := @opened_refused date message hno chunkBuffer rest
  rw [serve, recvMessage_opening h, hopened]
  exact ⟨rfl, Or.inr rfl⟩

theorem serve_accepted (h : HttpProtocol.Receives beyond p buffer
      ⟨.messageReady, .finished message chunkBuffer, rest⟩) (hyes : accepts message = true) :
    serve (handlers beyond date) (fuel + 1) (self (.inl p)) buffer =
      ((serve (handlers beyond date) fuel established.1 rest).1,
        (serve (handlers beyond date) fuel established.1 rest).2.1,
        (Answer.handshake message).calls date ++
          (serve (handlers beyond date) fuel established.1 rest).2.2) := by
  rw [serve, recvMessage_opening h, opened_accepted hyes]
  dsimp only [Answer.calls]

end Opening

/-- The object of a reader that goes on. -/
def Sane : HttpProtocol ⊕ Connected Handshake → Prop
  | .inl p => HttpProtocol.Running p
  | .inr s => Speaks s

/-- The loop has done what a call of the driver does. -/
structure Does (date : List UInt8)
    (d : List Answer × Carry (HttpProtocol ⊕ Connected Handshake) UInt8)
    (r : WebSocketProtocol Handshake × List UInt8 × List TcpService.Call) : Prop where
  calls : r.2.2 = d.1.flatMap (Answer.calls date)
  goesOn : ∀ st rest, d.2 = some (st, rest) → Sane st ∧ r.1 = self st ∧ r.2.1 = rest
  stopped : d.2 = none → Terminal r.1.status

/-- Where the reader has settled, nothing that lies behind the readable bytes is compared. -/
def Legible (st : HttpProtocol ⊕ Connected Handshake) (buffer : List UInt8) : Prop :=
  ∀ p rest, (server.settle st buffer).2 = (.inl p, rest) → ¬ HttpProtocol.Overread p rest

section Loop

variable {date : List UInt8} {out : List Answer} {used : Nat} {more : Bool}
  {st st' : HttpProtocol ⊕ Connected Handshake} {buffer rest : List UInt8}
  {s : WebSocketProtocol Handshake} {calls : List TcpService.Call}
  {r : WebSocketProtocol Handshake × List UInt8 × List TcpService.Call}

theorem Does.wait (h : server.turn st buffer = .wait) (hs : Sane st) :
    Does date (server.drive st buffer) (self st, buffer, []) := by
  rw [Reader.drive_wait h]
  refine ⟨rfl, ?_, fun h => by cases h⟩
  rintro _ _ ⟨⟩
  exact ⟨hs, rfl, rfl⟩

theorem Does.stop (h : server.turn st buffer = .stop out)
    (hcalls : r.2.2 = out.flatMap (Answer.calls date)) (hstatus : Terminal r.1.status) :
    Does date (server.drive st buffer) r := by
  rw [Reader.drive_stop h]
  refine ⟨hcalls, ?_, fun _ => hstatus⟩
  rintro _ _ ⟨⟩

theorem Does.goOn (h : server.turn st buffer = .take st' used out true)
    (hr : Does date (server.drive st' (buffer.drop used)) r) :
    Does date (server.drive st buffer) (r.1, r.2.1, out.flatMap (Answer.calls date) ++ r.2.2) := by
  rw [Reader.drive_more h]
  refine ⟨?_, hr.goesOn, hr.stopped⟩
  dsimp only
  rw [hr.calls, List.flatMap_append]

/-- The loop behind the handshake. -/
theorem serve_frames (handlers : HandshakeHandlers Handshake) (date : List UInt8)
    (s : Connected Handshake) (buffer : List UInt8) : Speaks s →
    ∀ fuel, buffer.length < fuel →
      Does date (server.drive (.inr s) buffer) (serve handlers fuel s.1 buffer) := by
  induction s, buffer using frame_induction with
  | noFrame s buffer why hp =>
    intro hs fuel hfuel
    obtain ⟨fuel, rfl⟩ := Nat.exists_eq_succ_of_ne_zero (Nat.ne_of_gt (Nat.zero_lt_of_lt hfuel))
    cases why with
    | waiting =>
      rw [serve_waiting hp]
      have hturn : server.turn (.inr s) buffer = .wait :=
        Reader.handover_second_wait (turn_waiting hp)
      exact .wait hturn hs
    | invalid =>
      rw [serve_invalid hp]
      exact .stop (Reader.handover_second_stop (turn_invalid hp)) rfl (Or.inr rfl)
  | frame s buffer f hp ih =>
    intro hs fuel hfuel
    obtain ⟨hpos, hle⟩ := parseFrame_size hp
    obtain ⟨fuel, rfl⟩ := Nat.exists_eq_succ_of_ne_zero (Nat.ne_of_gt (Nat.zero_lt_of_lt hfuel))
    cases hfin : f.fin with
    | false =>
      -- `readFrame` returns 0 for a fragment, and the loop returns with what is behind it
      have hturn : server.turn (.inr s) buffer = .take _ f.size [] false :=
        Reader.handover_second_take (turn_next hp (stepFrame_fragment hfin))
      rw [serve_fragment hp hfin, Reader.drive_pause hturn]
      refine ⟨rfl, ?_, fun h => by cases h⟩
      rintro _ _ ⟨⟩
      exact ⟨hs.fragment _ _, rfl, rfl⟩
    | true =>
      cases hstep : stepFrame s f with
      | stop e =>
        obtain ⟨hcalls, hstatus⟩ :=
          @serve_ends handlers fuel s buffer f e date hs hp hfin hstep
        refine .stop (Reader.handover_second_stop (turn_stop hp hstep)) ?_ hstatus
        rw [hcalls]
        exact (List.flatMap_singleton _ _).symm
      | next s' out more =>
        obtain ⟨hserve, hs', rfl⟩ :=
          @serve_goesOn handlers fuel s s' buffer f out more date hs hp hfin hstep
        rw [hserve]
        exact Does.goOn (Reader.handover_second_take (turn_next hp hstep))
          (ih s' hs' fuel (by rw [List.length_drop]; omega))

/-- **The loop** is the reader's driver. -/
theorem serve_drive (beyond : Nat → UInt8) (date : List UInt8) :
    ∀ (st : HttpProtocol ⊕ Connected Handshake) (buffer : List UInt8), Sane st →
      Legible st buffer → ∀ fuel, buffer.length < fuel →
        Does date (server.drive st buffer)
          (serve (handlers beyond date) fuel (self st) buffer) := by
  rintro (p | s) buffer
  swap
  · exact fun hs _ => serve_frames _ date s buffer hs
  induction p, buffer using HttpProtocol.parser.turn_induction with
  | wait p buffer ht =>
    intro hs hread fuel hfuel
    obtain ⟨fuel, rfl⟩ := Nat.exists_eq_succ_of_ne_zero (Nat.ne_of_gt (Nat.zero_lt_of_lt hfuel))
    have hturn : server.turn (.inl p) buffer = .wait := Reader.handover_wait ht
    have hlegible := hread p buffer (by rw [Reader.settle_wait hturn])
    rw [serve_opening (HttpProtocol.receives_wait hs ht hlegible)]
    exact .wait hturn hs
  | stop p buffer out ht =>
    intro hs _ fuel hfuel
    obtain ⟨fuel, rfl⟩ := Nat.exists_eq_succ_of_ne_zero (Nat.ne_of_gt (Nat.zero_lt_of_lt hfuel))
    obtain ⟨hcalls, hstatus⟩ := @serve_malformed beyond date fuel p _ buffer _
      (HttpProtocol.receives_stop hs ht)
    refine .stop (Reader.handover_stop ht) ?_ hstatus
    rw [hcalls]
    exact (List.flatMap_singleton _ _).symm
  | take p buffer p' used out more ht ih =>
    intro hs hread fuel hfuel
    have hlen := Reader.rest_length_lt ht
    obtain ⟨fuel, rfl⟩ := Nat.exists_eq_succ_of_ne_zero (Nat.ne_of_gt (Nat.zero_lt_of_lt hfuel))
    have hturn : server.turn (.inl p) buffer = (next out).turn p' used := Reader.handover_take ht
    cases out with
    | nil =>
      -- the call goes on within `http_protocol_`
      have hturn : server.turn (.inl p) buffer = .take (.inl p') used [] true := hturn
      rw [Legible, Reader.settle_take hturn] at hread
      obtain ⟨r, hr⟩ := HttpProtocol.receives_total beyond p' (buffer.drop used)
      rw [serve_same (HttpProtocol.receives_silent hs ht hr) hr]
      exact Does.goOn hturn
        (ih (HttpProtocol.turn_running hs ht) hread (fuel + 1) (by omega))
    | cons message out =>
      obtain ⟨rfl, rfl, chunkBuffer, hr⟩ := HttpProtocol.receives_message beyond hs ht
      cases haccepts : accepts message with
      | false =>
        have hstop : server.turn (.inl p) buffer = .stop [.refusal] := by
          rw [hturn, next, if_neg (Bool.eq_false_iff.1 haccepts)]
          rfl
        obtain ⟨hcalls, hstatus⟩ := @serve_refused beyond date fuel p buffer _ message _ hr haccepts
        refine .stop hstop ?_ hstatus
        rw [hcalls]
        exact (List.flatMap_singleton _ _).symm
      | true =>
        have hswitch : server.turn (.inl p) buffer =
            .take (.inr established) used [.handshake message] true := by
          rw [hturn, next, if_pos haccepts]
          rfl
        rw [serve_accepted hr haccepts]
        have hrest := Does.goOn hswitch (serve_frames (handlers beyond date) date established
          (buffer.drop used) speaks_established fuel (by omega))
        rw [List.flatMap_singleton] at hrest
        exact hrest

end Loop

/-! ## A session -/

/-- On no beginning of the stream is anything compared that lies behind the readable bytes. -/
def LegibleStream (stream : List UInt8) : Prop :=
  ∀ received, received <+: stream → Legible start received

theorem LegibleStream.of_append {stream data : List UInt8} (h : LegibleStream (stream ++ data)) :
    LegibleStream stream :=
  fun received hr => h received (hr.trans (List.prefix_append stream data))

/-- The driver, called for each piece. -/
def fed (pieces : List (List UInt8)) :
    List Answer × Carry (HttpProtocol ⊕ Connected Handshake) UInt8 :=
  server.feed (some (start, [])) pieces

theorem fed_snoc_some {pieces : List (List UInt8)} {data : List UInt8}
    {st : HttpProtocol ⊕ Connected Handshake} {rest : List UInt8}
    (h : (fed pieces).2 = some (st, rest)) :
    fed (pieces ++ [data]) = ((fed pieces).1 ++ (server.drive st (rest ++ data)).1,
      (server.drive st (rest ++ data)).2) := by
  have hfed : server.feed (some (start, [])) pieces = ((fed pieces).1, some (st, rest)) := by
    rw [← h]
    rfl
  unfold fed
  rw [Reader.feed_append, hfed, Reader.feed]
  simp only [Reader.feed, List.append_nil]

theorem fed_snoc_none {pieces : List (List UInt8)} {data : List UInt8}
    (h : (fed pieces).2 = none) : fed (pieces ++ [data]) = ((fed pieces).1, none) := by
  have hfed : server.feed (some (start, [])) pieces = ((fed pieces).1, none) := by
    rw [← h]
    rfl
  unfold fed
  rw [Reader.feed_append, hfed, Reader.feed, List.append_nil]

/-- What the server has said, when the stream came in these pieces. -/
structure Answered (s : Session (Option (WebSocketProtocol Handshake)))
    (pieces : List (List UInt8)) (date : List UInt8) : Prop where
  dateText : DateText date
  received : pieces.flatten = s.received
  said : s.said = texts date (fed pieces).1
  goesOn : ∀ st rest, (fed pieces).2 = some (st, rest) →
    Sane st ∧ s.context = some (self st) ∧ s.readBuffer = rest
  silent : ∀ p rest, (fed pieces).2 = some (.inl p, rest) → (fed pieces).1 = []
  stopped : (fed pieces).2 = none →
    ∃ protocol, s.context = some protocol ∧ Terminal protocol.status

/-- The connection has not been reported, or the stream is answered as far as it is legible. -/
def Serving (s : Session (Option (WebSocketProtocol Handshake))) : Prop :=
  s.context = none ∨ (LegibleStream s.received → ∃ pieces date, Answered s pieces date)

/-- Behind the end of the protocol nothing is put out. -/
theorem serve_terminal (handlers : HandshakeHandlers Handshake) (fuel : Nat)
    {s : WebSocketProtocol Handshake} (h : Terminal s.status) (buffer : List UInt8) :
    serve handlers (fuel + 1) s buffer = (s, buffer, [.closeSocket]) := by
  have hfunc : statusHandler handlers s.status = none := by
    rcases h with h | h <;> rw [h] <;> rfl
  rw [serve, WebSocketProtocol.recvMessage, hfunc]
  rfl

theorem texts_frames {date date' : List UInt8} {s : Connected Handshake} {buffer : List UInt8} :
    texts date (server.drive (.inr s) buffer).1 = texts date' (server.drive (.inr s) buffer).1 := by
  have hdrive : server.drive (.inr s) buffer = _ := Reader.drive_handover_second s buffer
  rw [hdrive]
  exact texts_event _ _ _

section Handed

variable {s : Session (Option (WebSocketProtocol Handshake))} {input : Surroundings}
  {pieces : List (List UInt8)} {date data : List UInt8}

theorem hand_received (context : WebSocketProtocol Handshake)
    (readBuffer received said : List UInt8) :
    (wsEchoServer.hand input ⟨some context, readBuffer, received, said⟩
      (readBuffer ++ data)).1.received = received ++ data :=
  congrArg (received ++ ·) List.drop_left

/-- The bytes that are handed over are answered where the reader waits for them. -/
theorem answered_goesOn (h : Answered s pieces date) {st : HttpProtocol ⊕ Connected Handshake}
    {rest : List UInt8} (hfed : (fed pieces).2 = some (st, rest))
    (hlegible : LegibleStream (s.received ++ data)) :
    ∃ date, Answered (wsEchoServer.hand input s (s.readBuffer ++ data)).1
      (pieces ++ [data]) date := by
  obtain ⟨context, readBuffer, received, said⟩ := s
  obtain ⟨hdate, hreceived, hsaid, hgoesOn, hsilent, -⟩ := h
  obtain ⟨hsane, hcontext, hbuffer⟩ := hgoesOn st rest hfed
  dsimp only at hreceived hsaid hcontext hbuffer hlegible
  subst hcontext hbuffer hreceived
  have hread : Legible st (readBuffer ++ data) := by
    have hsettle := server.feed_settle data pieces start [] hfed
    rw [List.nil_append] at hsettle
    have hwhole := hlegible (pieces.flatten ++ data) (List.prefix_refl _)
    rw [Legible, hsettle] at hwhole
    exact hwhole
  have hdoes := serve_drive input.beyond input.date st (readBuffer ++ data) hsane hread _
    (Nat.lt_succ_self _)
  have hfed' := @fed_snoc_some pieces data st readBuffer hfed
  -- the time of the handshake is that of the call in which it came to an end
  obtain ⟨when, hwhen, hbefore, hnow⟩ : ∃ when, DateText when ∧
      texts date (fed pieces).1 = texts when (fed pieces).1 ∧
      texts input.date (server.drive st (readBuffer ++ data)).1 =
        texts when (server.drive st (readBuffer ++ data)).1 := by
    cases st with
    | inl p =>
      refine ⟨input.date, input.dateText, ?_, rfl⟩
      rw [hsilent p readBuffer hfed, texts_nil, texts_nil]
    | inr t => exact ⟨date, hdate, rfl, texts_frames⟩
  refine ⟨when, hwhen, ?_, ?_, ?_, ?_, ?_⟩
  · rw [hand_received, List.flatten_append, List.flatten_singleton]
  · unfold Application.hand wsEchoServer
    dsimp only
    rw [hdoes.calls, hsaid, hfed', texts_append, hbefore, ← hnow]
    rfl
  · rw [hfed']
    intro st' rest' hcarry
    obtain ⟨hsane', hself, hbuffer⟩ := hdoes.goesOn st' rest' hcarry
    exact ⟨hsane', congrArg some hself, hbuffer⟩
  · rw [hfed']
    intro p rest' hcarry
    cases st with
    | inl q =>
      have hdrive := Reader.drive_handover_first q (readBuffer ++ data) hcarry
      dsimp only
      rw [hsilent q readBuffer hfed]
      exact hdrive
    | inr t =>
      have hdrive : server.drive (.inr t) (readBuffer ++ data) = _ :=
        Reader.drive_handover_second t (readBuffer ++ data)
      rw [hdrive] at hcarry
      dsimp only at hcarry
      cases hd : ((reader Handshake).drive t (readBuffer ++ data)).2 <;>
        rw [hd] at hcarry <;> cases hcarry
  · rw [hfed']
    exact fun hcarry => ⟨_, rfl, hdoes.stopped hcarry⟩

theorem answered_stopped (h : Answered s pieces date) (hfed : (fed pieces).2 = none) :
    Answered (wsEchoServer.hand input s (s.readBuffer ++ data)).1 (pieces ++ [data]) date := by
  obtain ⟨context, readBuffer, received, said⟩ := s
  obtain ⟨hdate, hreceived, hsaid, -, -, hstopped⟩ := h
  obtain ⟨protocol, hcontext, hterminal⟩ := hstopped hfed
  dsimp only at hreceived hsaid hcontext
  subst hcontext hreceived
  have hserve := serve_terminal (handlers input.beyond input.date) (readBuffer ++ data).length
    hterminal (readBuffer ++ data)
  refine ⟨hdate, ?_, ?_, ?_, ?_, ?_⟩
  · rw [hand_received, List.flatten_append, List.flatten_singleton]
  · unfold Application.hand wsEchoServer
    dsimp only
    rw [hserve, hsaid, fed_snoc_none hfed]
    exact List.append_nil _
  · rw [fed_snoc_none hfed]
    rintro _ _ ⟨⟩
  · rw [fed_snoc_none hfed]
    rintro _ _ ⟨⟩
  · refine fun _ => ⟨protocol, ?_, hterminal⟩
    unfold Application.hand wsEchoServer
    dsimp only
    rw [hserve]

end Handed

theorem server_keeps : Host.Keeps wsEchoServer Serving where
  new := Or.inl rfl
  greeted := by
    refine Or.inr fun _ => ⟨[], [], ⟨by decide, by decide⟩, rfl, rfl, ?_, fun _ _ _ => rfl, nofun⟩
    rintro _ _ ⟨⟩
    exact ⟨trivial, rfl, rfl⟩
  handed input s data h := by
    obtain ⟨context, readBuffer, received, said⟩ := s
    cases context with
    | none => exact Or.inl rfl
    | some protocol =>
      refine Or.inr fun hlegible => ?_
      rw [hand_received] at hlegible
      obtain ⟨pieces, date, hanswered⟩ := h.resolve_left nofun hlegible.of_append
      cases hfed : (fed pieces).2 with
      | none => exact ⟨_, _, answered_stopped hanswered hfed⟩
      | some carry =>
        obtain ⟨when, hwhen⟩ :=
          @answered_goesOn _ input pieces date data hanswered _ _ hfed hlegible
        exact ⟨_, when, hwhen⟩

theorem next_accepted {message : HttpMessage} (h : accepts message = true) :
    next [message] = .switch established [.handshake message] := if_pos h

/-- A request that is accepted is answered, and what comes behind it is read as frames. -/
theorem server_reads {message : HttpMessage} {request : List UInt8}
    (h : HttpProtocol.parser.Reads HttpProtocol.Heading HttpProtocol.reset [message]
      HttpProtocol.reset request) (haccepts : accepts message = true) (rest : List UInt8) :
    answers (request ++ rest) =
        .handshake message :: ((reader Handshake).ideal established rest).map .event ∧
      promptAnswers (request ++ rest) =
        .handshake message :: ((reader Handshake).drive established rest).1.map .event ∧
      (server.settle start (request ++ rest)).2 =
        (.inr ((reader Handshake).settle established rest).2.1,
          ((reader Handshake).settle established rest).2.2) := by
  obtain ⟨hideal, hdrive, hsettle⟩ : server.ideal start (request ++ rest) = _ ∧
      server.drive start (request ++ rest) = _ ∧ server.settle start (request ++ rest) = _ :=
    Reader.reads_handover rfl (next_accepted haccepts) h rest
  rw [Reader.ideal_handover_second] at hideal
  rw [Reader.drive_handover_second] at hdrive
  rw [Reader.settle_handover_second] at hsettle
  exact ⟨hideal, congrArg Prod.fst hdrive, congrArg Prod.snd hsettle⟩

/-- No body comes with the request of a client, and none behind the handshake. -/
theorem legible_request {message : HttpMessage} {request : List UInt8}
    (h : HttpProtocol.parser.Reads HttpProtocol.Heading HttpProtocol.reset [message]
      HttpProtocol.reset request) (haccepts : accepts message = true) (rest : List UInt8) :
    LegibleStream (request ++ rest) := by
  intro received hreceived p left hsettle
  rcases Nat.lt_or_ge received.length request.length with hlt | hle
  · have hbegin : received <+: request :=
      List.prefix_of_prefix_length_le hreceived (List.prefix_append _ _) hlt.le
    obtain ⟨hout, hheading, -⟩ := Reader.reads_begin h hbegin hlt
    have hfirst : server.settle start received = _ := Reader.settle_handover_first rfl _ _ hout
    rw [hfirst] at hsettle
    cases hsettle
    exact HttpProtocol.heading_not_overread hheading
  · have hbegin : request <+: received :=
      List.prefix_of_prefix_length_le (List.prefix_append _ _) hreceived hle
    obtain ⟨behind, rfl⟩ := hbegin
    rw [(server_reads h haccepts behind).2.2] at hsettle
    cases hsettle

/-- A request of the library is accepted. -/
theorem accepts_request {requestUri secKey : List UInt8} {headers : HeaderMap}
    (hleaves : LeavesHandshake headers)
    (hkey : headers.find (bytes "Sec-WebSocket-Key") = some secKey) (htrim : Trimmed secKey)
    (hlen : secKey.length = 24) (hhost : (headers.find (bytes "Host")).isSome = true) :
    accepts (HttpProtocol.readBack (handshakeRequest requestUri headers)) = true := by
  have hkind : (HttpProtocol.readBack (handshakeRequest requestUri headers)).kind =
      .request .get requestUri := by
    rw [handshakeRequest_eq]
    rfl
  unfold accepts
  rw [hkind]
  exact request_valid hleaves hkey htrim hlen hhost

/-! ## The clients -/

/-- What the kernel has been given on a connection, and what it will be given while this is
connected. -/
structure Served (c : SocketId) (h : Host (Option (WebSocketProtocol Handshake)) κ)
    (date : List UInt8) : Prop where
  sent_begins : sentBytes (h.machine.history c) <+: texts date (answers (h.sessions c).received)
  connected : ∀ connection, h.machine.service.connections c = some connection →
    connection.status = .connected →
      texts date (promptAnswers (h.sessions c).received) <+:
          sentBytes (h.machine.history c) ++ connection.writeBuffer ∧
        sentBytes (h.machine.history c) ++ connection.writeBuffer <+:
          texts date (answers (h.sessions c).received)

/-- What the server has said lies between the two. -/
theorem said_between {events : List (Host.Event Surroundings)}
    {h : Host (Option (WebSocketProtocol Handshake)) κ}
    (hh : Host.Reached wsEchoServer events h)
    (hk : EachStep (Host.step wsEchoServer) (fun h e => h.Faithful wsEchoServer e)
      (Host.init wsEchoServer : Host (Option (WebSocketProtocol Handshake)) κ) events)
    (c : SocketId) (hcontext : (h.sessions c).context ≠ none)
    (hlegible : LegibleStream (h.sessions c).received) : ∃ date, DateText date ∧
      texts date (promptAnswers (h.sessions c).received) <+: (h.sessions c).said ∧
      (h.sessions c).said <+: texts date (answers (h.sessions c).received) := by
  obtain ⟨pieces, date, hanswered⟩ :=
    (Host.session_reached server_keeps hh hk c).resolve_left hcontext hlegible
  have hlow := server.whole_prefix_feed pieces start [] (server.empty start)
  have hhigh := server.feed_prefix_ideal pieces (some (start, []))
  rw [List.nil_append, hanswered.received] at hlow
  rw [Reader.idealFrom, List.nil_append, hanswered.received] at hhigh
  rw [hanswered.said]
  exact ⟨date, hanswered.dateText, texts_mono date hlow, texts_mono date hhigh⟩

/-- **What a client gets**, as long as the parser reads nothing behind the bytes it has and the
direct sends copy the bytes that are left. -/
theorem ws_echo_answers {events : List (Host.Event Surroundings)}
    {h : Host (Option (WebSocketProtocol Handshake)) κ}
    (hh : Host.Reached wsEchoServer events h)
    (hk : EachStep (Host.step wsEchoServer) (fun h e => h.Faithful wsEchoServer e)
      (Host.init wsEchoServer : Host (Option (WebSocketProtocol Handshake)) κ) events)
    (c : SocketId) (hcontext : (h.sessions c).context ≠ none)
    (hlegible : LegibleStream (h.sessions c).received) :
    ∃ date, DateText date ∧ Served c h date := by
  obtain ⟨date, hdate, hlow, hhigh⟩ := said_between hh hk c hcontext hlegible
  obtain ⟨hsent, hconnected⟩ := Host.application_stream hh hk c
  refine ⟨date, hdate, hsent.trans hhigh, fun connection hc hs => ?_⟩
  rw [hconnected connection hc hs]
  exact ⟨hlow, hhigh⟩

/-- What a client begins with that has drawn the same number sixteen times, -/
def greetingRequest : List UInt8 :=
  (((WebSocketProtocol.new true).withHeaders []).startAsClient ⟨bytes "127.0.0.1", 80⟩ (fun _ => 7)
    (bytes "/")).output.flatten

/-- a text message, masked, -/
def greetingFrame : List UInt8 := [0x81, 0x85, 0, 1, 2, 3, 72, 100, 110, 111, 111]

def greetingStream : List UInt8 := greetingRequest ++ greetingFrame

/-- that comes in together with the request, and a kernel that is not ready for the answers. -/
def greetingEvents : List (Host.Event Surroundings) :=
  [.accept 4 [],
    .readable (SocketIdAllocator.getId 0 4) [⟨999, .bytes greetingStream⟩, ⟨-1, .fails EAGAIN⟩]
      ⟨fun _ => 0, bytes "Thu, 01 Jan 1970 00:00:00 GMT", by decide, by decide⟩
      [.fails EAGAIN, .fails EAGAIN]]

theorem greetingEvents_orderly : EachStep (Host.step wsEchoServer)
    (fun h e => h.Enabled e ∧ h.Faithful wsEchoServer e)
    (Host.init wsEchoServer : Host (Option (WebSocketProtocol Handshake)) Unit)
    greetingEvents := by
  refine ⟨⟨trivial, fun _ hp => nomatch hp⟩, ?_⟩
  rintro _ ⟨⟩
  refine ⟨⟨⟨_, rfl, rfl, rfl⟩, fun _ _ p hp => ?_⟩, fun _ _ => trivial⟩
  have hfails : p.2 = .fails EAGAIN := by
    have hmem := (List.of_mem_zip hp).2
    simpa using hmem
  rw [hfails]
  exact restCopied_fails _ _

theorem greeting_run : ∃ h : Host (Option (WebSocketProtocol Handshake)) Unit,
    run (Host.step wsEchoServer) (Host.init wsEchoServer) greetingEvents = some h ∧
      (h.sessions (SocketIdAllocator.getId 0 4)).context ≠ none ∧
      (h.sessions (SocketIdAllocator.getId 0 4)).received = greetingStream := by
  have hrun : ((run (Host.step wsEchoServer) (Host.init wsEchoServer) greetingEvents :
      Option (Host (Option (WebSocketProtocol Handshake)) Unit)).any fun h =>
        (h.sessions (SocketIdAllocator.getId 0 4)).context.isSome &&
          (h.sessions (SocketIdAllocator.getId 0 4)).received = greetingStream) = true := by
    decide +kernel
  obtain ⟨h, hh, hsession⟩ := (Option.any_eq_true _ _).1 hrun
  rw [Bool.and_eq_true, decide_eq_true_eq] at hsession
  refine ⟨h, hh, fun hnone => ?_, hsession.2⟩
  rw [hnone] at hsession
  cases hsession.1

theorem greetingStream_legible : LegibleStream greetingStream := by
  obtain ⟨headers, hleaves, hkey, hhost, hstart⟩ :=
    @startAsClient_eq ⟨bytes "127.0.0.1", 80⟩ (fun _ => 7) (bytes "/") [] (by decide) (by decide)
      (by simp) (by decide)
  have hrequest : greetingRequest = HttpProtocol.head (handshakeRequest (bytes "/") headers) := by
    unfold greetingRequest
    rw [hstart]
    exact List.flatten_singleton
  have hrandom : (List.ofFn fun _ : Fin 16 => (7 : UInt8)).length < 2 ^ 30 := by
    rw [List.length_ofFn]
    decide
  have hlen := (base64Encode_spec hrandom).1
  unfold greetingStream
  rw [hrequest]
  exact legible_request (reads_request (by decide) hleaves)
    (accepts_request hleaves hkey (base64Encode_plain hrandom).2
      (hlen.trans (by rw [List.length_ofFn])) hhost) _

theorem ws_echo_answers_greeting : ∃ (h : Host (Option (WebSocketProtocol Handshake)) Unit)
    (date : List UInt8),
    run (Host.step wsEchoServer) (Host.init wsEchoServer) greetingEvents = some h ∧
      (h.sessions (SocketIdAllocator.getId 0 4)).received = greetingStream ∧
      Served (SocketIdAllocator.getId 0 4) h date := by
  obtain ⟨h, hrun, hcontext, hreceived⟩ := greeting_run
  obtain ⟨date, -, hserved⟩ := ws_echo_answers
    ⟨greetingEvents_orderly.mono fun _ _ h => h.1, hrun⟩
    (greetingEvents_orderly.mono fun _ _ h => h.2)
    (SocketIdAllocator.getId 0 4) hcontext (by rw [hreceived]; exact greetingStream_legible)
  exact ⟨h, date, hrun, hreceived, hserved⟩

end WsEcho

end Brickred
