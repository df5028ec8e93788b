import Brickred.WebSocket.Handshake
import Brickred.WebSocket.Send

/-!
# What is put out, and when

Any sequence of calls on one object, with arbitrary buffers for `recvMessage`.

* `call`, `runCalls` — the calls, and what the application sees of each.
* `session_call` — what one call can do once the handshake is over; `opening_call` — before.
* `output_discipline` — a handshake message, then frames, then at most one close frame; and after
  `CLOSED` or `PENDING_ERROR` nothing.
-/

set_option autoImplicit false

namespace Brickred

namespace WebSocketProtocol

open StringUtil

/-! ## Calls -/

/-- A call, with what it takes from outside: `random` from the generator, `beyond` from the memory
behind the readable bytes, `date` from the clock, and `stale` from storage that has been given
up. -/
inductive Op where
  | startAsClient (peerAddr : PeerAddress) (random : Fin 16 → UInt8) (requestUri : List UInt8)
  | startAsServer
  | setHandshakeHeader (key value : List UInt8)
  | recvMessage (buffer : List UInt8) (beyond : Nat → UInt8) (date : List UInt8)
  | retrieveMessage
  | sendMessage (random : Fin 4 → UInt8) (payload : List UInt8) (stale : Nat → UInt8)
  | sendPingFrame
  | sendCloseFrame

/-- What the application sees of a call: the output, what `recvMessage` returned, the message
`retrieveMessage` gave out, and the status behind the call. -/
structure Call where
  output : List (List UInt8)
  code : Option RetCode
  delivered : Option (List UInt8)
  after : Status

/-- What `sendMessage` puts out.  Where the masking loop of a client reads the key through a stale
pointer, the masked payload is any bytes; a payload that no storage can hold is not put out. -/
def sendOutput (s : WebSocketProtocol Handshake) (random : Fin 4 → UInt8) (payload : List UInt8)
    (stale : Nat → UInt8) : List (List UInt8) :=
  match s.sendMessage random payload with
  | some output => output
  | none =>
    if s.isClient then
      s.emit ((sentFrame true random payload).head ++ List.ofFn random ++
        (List.range payload.length).map stale)
    else []

/-- `none`: the loop of `recvMessage` does not come to an end. -/
def call (s : WebSocketProtocol Handshake) : Op → Option (WebSocketProtocol Handshake × Call)
  | .startAsClient peerAddr random requestUri =>
    let r := s.startAsClient peerAddr random requestUri
    some (r.self, ⟨r.output, none, none, r.self.status⟩)
  | .startAsServer =>
    let r := s.startAsServer
    some (r.self, ⟨r.output, none, none, r.self.status⟩)
  | .setHandshakeHeader key value =>
    some (s.setHandshakeHeader key value, ⟨[], none, none, s.status⟩)
  | .recvMessage buffer beyond date =>
    (recvMessage (handlers beyond date) (buffer.length + 1) s buffer).map fun r =>
      (r.self, ⟨r.output, some r.code, none, r.self.status⟩)
  | .retrieveMessage =>
    match s.retrieveMessage with
    | none => some (s, ⟨[], none, none, s.status⟩)
    | some (message, s) => some (s, ⟨[], none, some message, s.status⟩)
  | .sendMessage random payload stale =>
    some (s, ⟨s.sendOutput random payload stale, none, none, s.status⟩)
  | .sendPingFrame => some (s, ⟨s.sendPingFrame, none, none, s.status⟩)
  | .sendCloseFrame =>
    let (s, output) := s.sendCloseFrame
    some (s, ⟨output, none, none, s.status⟩)

def runCalls (s : WebSocketProtocol Handshake) :
    List Op → Option (WebSocketProtocol Handshake × List Call)
  | [] => some (s, [])
  | op :: ops => do
    let (s, c) ← s.call op
    let (s, calls) ← runCalls s ops
    some (s, c :: calls)

/-! ## Outputs -/

def outputs (calls : List Call) : List (List UInt8) := calls.flatMap Call.output

/-- A request, a response, or the response to a bad request. -/
def IsHandshake (output : List UInt8) : Prop :=
  (∃ requestUri headers,
    HttpProtocol.sendMessage true (handshakeRequest requestUri headers) = [output]) ∨
  (∃ request headers date,
    HttpProtocol.sendMessage true (handshakeResponse request headers date) = [output]) ∨
  output = bytes "HTTP/1.1 400 Bad Request\r\n\r\n"

/-- A frame with FIN and this opcode. -/
def IsFrame (opcode : UInt8) (output : List UInt8) : Prop :=
  ∃ form maskKey payload, output = (SentFrame.mk form true opcode maskKey payload).bytes

/-- A data frame, a ping or a pong. -/
def IsOpenFrame (output : List UInt8) : Prop :=
  IsFrame 0x2 output ∨ IsFrame 0x9 output ∨ IsFrame 0xa output

def Terminal (status : Status) : Prop := status = .closed ∨ status = .pendingError

/-- Nothing more will be put out. -/
def Silent (s : WebSocketProtocol Handshake) : Prop := s.closeFrameSent = true ∨ Terminal s.status

/-- The handshake is over. -/
def Session (s : WebSocketProtocol Handshake) : Prop :=
  s.status = .connected ∨ s.status = .finished ∨ Terminal s.status

/-- What a call can do once the handshake is over. -/
structure SessionCall (s s' : WebSocketProtocol Handshake) (output : List (List UInt8)) : Prop where
  session : Session s'
  silent : Silent s → output = [] ∧ Silent s'
  frame : output = [] ∨ (∃ o, output = [o] ∧ IsOpenFrame o) ∨
    ∃ o, output = [o] ∧ IsFrame 0x8 o ∧ Silent s'

section Frames

variable {s : WebSocketProtocol Handshake}

theorem isFrame_control (isClient : Bool) (opcode : UInt8) :
    IsFrame opcode (controlFrame isClient (0x80 ||| opcode)) := by
  refine ⟨.bits7, if isClient then some fun _ => 0 else none, [], ?_⟩
  cases isClient <;>
    simp [controlFrame, SentFrame.bytes, SentFrame.head, SentFrame.keyBytes, LengthForm.code,
      LengthForm.bytes, maskFrom]

theorem emit_cases (s : WebSocketProtocol Handshake) (frame : List UInt8) :
    s.emit frame = [] ∨ s.emit frame = [frame] := by
  unfold emit
  split
  · exact Or.inr rfl
  · exact Or.inl rfl

/-- Whatever the masked payload has become, what a client puts out is a frame. -/
theorem isFrame_masked (random : Fin 4 → UInt8) (payload : List UInt8) {masked : List UInt8}
    (hlen : masked.length = payload.length) :
    IsFrame 0x2 ((sentFrame true random payload).head ++ List.ofFn random ++ masked) := by
  refine ⟨sendForm payload.length, some random, maskFrom (List.ofFn random) 0 masked, ?_⟩
  simp only [SentFrame.bytes, SentFrame.head, SentFrame.keyBytes, sentFrame, Option.elim_some,
    maskFrom_maskFrom, maskFrom_length, hlen]
  rfl

/-- A server that puts out a frame puts it out as it should be, whatever its size. -/
theorem sendMessage_server_some {server : Connected Handshake} {random : Fin 4 → UInt8}
    {payload : List UInt8} {output : List (List UInt8)} (hs : server.1.isClient = false)
    (hclose : server.1.closeFrameSent = false)
    (h : server.1.sendMessage random payload = some output) :
    output = server.1.emit (sentFrame false random payload).bytes := by
  obtain ⟨m, room, hm, hh, _⟩ := writeHead_spec false random payload
  unfold sendMessage at h
  rw [if_neg (not_not.2 server.2), if_neg (by rw [hclose]; decide), hs] at h
  simp only [hm, bind, Option.bind_some, Bool.false_eq_true, if_false] at h
  obtain ⟨m', hm', h⟩ := Option.bind_eq_some_iff.1 h
  cases h
  rw [writePayload_some hm', hh.readable_eq, sentFrame_server]

/-- Short of a terminal status, only a close frame makes an object silent. -/
theorem silent_open (hstatus : s.status = .connected ∨ s.status = .finished) (h : Silent s) :
    s.closeFrameSent = true := by
  refine h.resolve_right fun hterminal => ?_
  unfold Terminal at hterminal
  rcases hstatus with hstatus | hstatus <;> rw [hstatus] at hterminal <;>
    rcases hterminal with h | h <;> cases h

theorem silent_connected (hstatus : s.status = .connected) (h : Silent s) :
    s.closeFrameSent = true := silent_open (Or.inl hstatus) h

theorem terminal_silent (h : Terminal s.status) : Silent s := Or.inr h

end Frames

/-! ## After the handshake -/

section Session

variable {s : WebSocketProtocol Handshake}

/-- A call that puts nothing out and does not go back on a close frame. -/
theorem sessionCall_quiet {s' : WebSocketProtocol Handshake} (hsession : Session s')
    (hsilent : Silent s → Silent s') : SessionCall s s' [] :=
  ⟨hsession, fun h => ⟨rfl, hsilent h⟩, Or.inl rfl⟩

/-- A call that puts out an open frame, if there is a callback, while no close frame is sent. -/
theorem sessionCall_emit {s' : WebSocketProtocol Handshake} {o : List UInt8}
    (hstatus : s.status = .connected) (hclose : s.closeFrameSent = false) (hsession : Session s')
    (ho : IsOpenFrame o) : SessionCall s s' (s.emit o) := by
  refine ⟨hsession, fun h => ?_, ?_⟩
  · rw [silent_connected hstatus h] at hclose
    cases hclose
  · rcases emit_cases s o with h | h
    · exact Or.inl h
    · exact Or.inr (Or.inl ⟨o, h, ho⟩)

/-- A call that puts out the close frame, if there is a callback. -/
theorem sessionCall_close {s' : WebSocketProtocol Handshake} {o : List UInt8}
    (hstatus : s.status = .connected) (hclose : s.closeFrameSent = false) (hsession : Session s')
    (ho : IsFrame 0x8 o) (hsilent : Silent s') : SessionCall s s' (s.emit o) := by
  refine ⟨hsession, fun h => ?_, ?_⟩
  · rw [silent_connected hstatus h] at hclose
    cases hclose
  · rcases emit_cases s o with h | h
    · exact Or.inl h
    · exact Or.inr (Or.inr ⟨o, h, ho, hsilent⟩)

theorem sessionCall_sendCloseFrame (h : Session s) :
    SessionCall s s.sendCloseFrame.1 s.sendCloseFrame.2 := by
  unfold sendCloseFrame
  split
  · exact sessionCall_quiet h id
  · rename_i hstatus
    have hstatus := not_not.1 hstatus
    split
    · exact sessionCall_quiet h id
    · rename_i hclose
      have hclose := eq_false_of_ne_true hclose
      exact sessionCall_close hstatus hclose (Or.inl hstatus) (isFrame_control s.isClient 0x8)
        (Or.inl rfl)

theorem sessionCall_sendPingFrame (h : Session s) : SessionCall s s s.sendPingFrame := by
  unfold sendPingFrame
  split
  · exact sessionCall_quiet h id
  · rename_i hstatus
    split
    · exact sessionCall_quiet h id
    · rename_i hclose
      exact sessionCall_emit (not_not.1 hstatus) (eq_false_of_ne_true hclose) h
        (Or.inr (Or.inl (isFrame_control s.isClient 0x9)))

/-- **The output of `sendMessage`** is one data frame, or nothing. -/
theorem sessionCall_sendMessage (h : Session s) (random : Fin 4 → UInt8) (payload : List UInt8)
    (stale : Nat → UInt8) : SessionCall s s (s.sendOutput random payload stale) := by
  by_cases hstatus : s.status = .connected
  swap
  · have hsend : s.sendMessage random payload = some [] := if_pos hstatus
    unfold sendOutput
    rw [hsend]
    exact sessionCall_quiet h id
  cases hclose : s.closeFrameSent with
  | true =>
    have hsend : s.sendMessage random payload = some [] := by
      unfold sendMessage
      rw [if_neg (not_not.2 hstatus), if_pos hclose]
    unfold sendOutput
    rw [hsend]
    exact sessionCall_quiet h id
  | false =>
    have hframe {o : List UInt8} (ho : IsFrame 0x2 o) : SessionCall s s (s.emit o) :=
      sessionCall_emit hstatus hclose h (Or.inl ho)
    have hsent : IsFrame 0x2 (sentFrame s.isClient random payload).bytes := ⟨_, _, _, rfl⟩
    unfold sendOutput
    cases hsend : s.sendMessage random payload with
    | some output =>
      cases hc : s.isClient with
      | true =>
        rcases Nat.lt_or_ge (1018 - ((sendForm payload.length).bytes payload.length).length)
          payload.length with hroom | hroom
        · have hstale := @sendMessage_stale Handshake ⟨s, hstatus⟩ random payload hc hclose hroom
          rw [hstale] at hsend
          cases hsend
        · have hfit := @sendMessage_client Handshake ⟨s, hstatus⟩ random payload hc hclose hroom
          cases hfit.symm.trans hsend
          rw [hc] at hsent
          exact hframe hsent
      | false =>
        have hout := @sendMessage_server_some ⟨s, hstatus⟩ _ _ _ hc hclose hsend
        rw [hc] at hsent
        dsimp only
        rw [hout]
        exact hframe hsent
    | none =>
      dsimp only
      split
      · exact hframe (isFrame_masked random payload (by rw [List.length_map, List.length_range]))
      · exact sessionCall_quiet h id

/-- What one frame does to the object, and to the peer. -/
theorem sessionCall_processFrame (s : Connected Handshake) (fin : Bool) (opcode : Int)
    (payload buffer : List UInt8) :
    let r := processFrame { s.1 with message := s.1.message ++ payload } fin opcode buffer
    (0 = r.ret ∨ -1 = r.ret ∨ 2 = r.ret ∨ r.self.status = .finished ∨ r.self.status = .closed) ∧
      (2 = r.ret → r.self.retCode = .pingFrame ∨ r.self.retCode = .pongFrame) ∧
      SessionCall s.1 r.self r.output := by
  cases fin with
  | false =>
    rw [processFrame_fragment]
    exact ⟨Or.inl rfl, by simp,
      sessionCall_quiet (Or.inl s.2) (fun h => Or.inl (silent_connected s.2 h))⟩
  | true =>
    have hquiet : ∀ s' : WebSocketProtocol Handshake, Session s' →
        s'.closeFrameSent = s.1.closeFrameSent → SessionCall s.1 s' [] := fun s' hsession hclose =>
      sessionCall_quiet hsession fun h => Or.inl (hclose.trans (silent_connected s.2 h))
    rw [processFrame_fin]
    dsimp only
    split
    · exact ⟨by simp, by simp, hquiet _ (Or.inr (Or.inl rfl)) rfl⟩
    split
    · -- the close frame is answered, unless one has been sent
      refine ⟨by simp, by simp, ?_⟩
      have hclosed : Terminal .closed := Or.inl rfl
      have hstatus : (s.resolved opcode payload).status = .connected := s.2
      unfold sendCloseFrame
      rw [if_neg (not_not.2 hstatus)]
      split
      · exact sessionCall_quiet (Or.inr (Or.inr hclosed)) fun _ => terminal_silent hclosed
      · rename_i hclose
        exact sessionCall_close s.2 (eq_false_of_ne_true hclose) (Or.inr (Or.inr hclosed))
          (isFrame_control s.1.isClient 0x8) (terminal_silent hclosed)
    split
    · refine ⟨by simp, by simp, ?_⟩
      have hstatus : ({ s.resolved opcode payload with message := [] } :
          WebSocketProtocol Handshake).status = .connected := s.2
      unfold sendPongFrame
      rw [if_neg (not_not.2 hstatus)]
      split
      · exact hquiet _ (Or.inl s.2) rfl
      · rename_i hclose
        exact sessionCall_emit s.2 (eq_false_of_ne_true hclose) (Or.inl s.2)
          (Or.inr (Or.inr (isFrame_control s.1.isClient 0xa)))
    split
    · exact ⟨by simp, by simp, hquiet _ (Or.inl s.2) rfl⟩
    · exact ⟨by simp, by simp, hquiet _ (Or.inl s.2) rfl⟩

/-- A status handler that is done in one turn: what `recvMessage` returns then. -/
theorem recvMessage_turn {handlers : HandshakeHandlers Handshake}
    {func : StatusHandler Handshake} {buffer : List UInt8} {r : Handled Handshake} (fuel : Nat)
    (hfunc : statusHandler handlers s.status = some func) (hr : func s buffer = r)
    (hret : 0 = r.ret ∨ -1 = r.ret ∨ 2 = r.ret ∨ r.self.status = .finished ∨
      r.self.status = .closed) :
    ∃ r', recvMessage handlers (fuel + 1) s buffer = some r' ∧ r'.output = r.output ∧
      ((r'.self = { r.self with status := .pendingError } ∧ -1 = r.ret) ∨
        (r'.self = r.self ∧ -1 ≠ r.ret)) ∧
      (r'.code = .connectionEstablished → 2 = r.ret ∧ r.self.retCode = .connectionEstablished) := by
  rw [recvMessage, hfunc]
  dsimp only
  rw [hr]
  split
  · rename_i h
    exact ⟨_, rfl, rfl, Or.inr ⟨rfl, by omega⟩, fun hcode => by cases hcode⟩
  split
  · rename_i h
    exact ⟨_, rfl, rfl, Or.inl ⟨rfl, h⟩, fun hcode => by cases hcode⟩
  rename_i h0 h1
  split
  · rename_i h
    exact ⟨_, rfl, rfl, Or.inr ⟨rfl, h1⟩, fun hcode => ⟨h, hcode⟩⟩
  rename_i h2
  split
  · exact ⟨_, rfl, rfl, Or.inr ⟨rfl, h1⟩, fun hcode => by cases hcode⟩
  rename_i hfinished
  split
  · exact ⟨_, rfl, rfl, Or.inr ⟨rfl, h1⟩, fun hcode => by cases hcode⟩
  · rename_i hclosed
    simp [h0, h1, h2, hfinished, hclosed] at hret

/-- An error on top of what a call did. -/
theorem SessionCall.pendingError {s' : WebSocketProtocol Handshake} {output : List (List UInt8)}
    (h : SessionCall s s' output) :
    SessionCall s { s' with status := .pendingError } output := by
  have hterminal : Terminal .pendingError := Or.inr rfl
  refine ⟨Or.inr (Or.inr hterminal), fun hs => ⟨(h.silent hs).1, Or.inr hterminal⟩, ?_⟩
  rcases h.frame with hframe | hframe | ⟨o, ho, hclose, _⟩
  · exact Or.inl hframe
  · exact Or.inr (Or.inl hframe)
  · exact Or.inr (Or.inr ⟨o, ho, hclose, Or.inr hterminal⟩)

theorem statusHandler_terminal (handlers : HandshakeHandlers Handshake)
    (h : s.status = .finished ∨ Terminal s.status) : statusHandler handlers s.status = none := by
  rcases h with h | h | h <;> rw [h] <;> rfl

/-- One turn of `recvMessage` is enough. -/
theorem sessionCall_recvMessage (handlers : HandshakeHandlers Handshake) (fuel : Nat)
    (h : Session s) (buffer : List UInt8) :
    ∃ r, recvMessage handlers (fuel + 1) s buffer = some r ∧
      r.code ≠ .connectionEstablished ∧ SessionCall s r.self r.output := by
  rcases h with hstatus | hstatus
  · have hread : ∀ r : Handled Handshake, readFrame s buffer = r →
        (0 = r.ret ∨ -1 = r.ret ∨ 2 = r.ret ∨ r.self.status = .finished ∨
          r.self.status = .closed) →
        (2 = r.ret → r.self.retCode = .pingFrame ∨ r.self.retCode = .pongFrame) →
        SessionCall s r.self r.output →
        ∃ r, recvMessage handlers (fuel + 1) s buffer = some r ∧
          r.code ≠ .connectionEstablished ∧ SessionCall s r.self r.output := by
      intro r hr hret hevent hcall
      obtain ⟨r', hr', ho, hself, hcode⟩ := recvMessage_turn fuel
        (show statusHandler handlers s.status = some readFrame by rw [hstatus]; rfl) hr hret
      refine ⟨r', hr', fun h => ?_, ?_⟩
      · obtain ⟨hret', hretCode⟩ := hcode h
        rcases hevent hret' with h | h <;> rw [hretCode] at h <;> cases h
      · rw [ho]
        rcases hself with ⟨hself, _⟩ | ⟨hself, _⟩ <;> rw [hself]
        · exact hcall.pendingError
        · exact hcall
    cases hp : parseFrame s.isClient buffer with
    | error why =>
      cases why with
      | waiting =>
        refine hread ⟨0, s, buffer, []⟩ ?_ (Or.inl rfl) (by simp)
          (sessionCall_quiet (Or.inl hstatus) id)
        unfold readFrame
        rw [hp]
      | invalid =>
        refine hread ⟨-1, s, buffer, []⟩ ?_ (Or.inr (Or.inl rfl)) (by simp)
          (sessionCall_quiet (Or.inl hstatus) id)
        unfold readFrame
        rw [hp]
    | ok frame =>
      obtain ⟨hret, hevent, hcall⟩ := sessionCall_processFrame ⟨s, hstatus⟩ frame.fin
        (frame.opcode.toNat : Int) frame.payload (buffer.drop frame.size)
      refine hread _ ?_ hret hevent hcall
      unfold readFrame
      rw [hp]
  · have hnone := statusHandler_terminal handlers hstatus
    have hcode : RetCode.error ≠ .connectionEstablished := by decide
    refine ⟨⟨.error, s, buffer, []⟩, ?_, hcode, sessionCall_quiet (Or.inr hstatus) id⟩
    rw [recvMessage, hnone]

theorem Session.not_detached (h : Session s) : s.status ≠ .detached := by
  rcases h with h | h | h | h <;> rw [h] <;> decide

/-- Once the status is terminal, a call does nothing. -/
theorem call_terminal (h : Terminal s.status) (op : Op) :
    ∃ s' c, s.call op = some (s', c) ∧ s'.status = s.status ∧ c.after = s.status ∧
      c.output = [] ∧ c.delivered = none ∧ (c.code = none ∨ c.code = some .error) := by
  have hdetached : s.status ≠ .detached := Session.not_detached (Or.inr (Or.inr h))
  have hconnected : s.status ≠ .connected := by
    rcases h with h | h <;> rw [h] <;> decide
  have hfinished : s.status ≠ .finished := by
    rcases h with h | h <;> rw [h] <;> decide
  have hhandler (handlers : HandshakeHandlers Handshake) : statusHandler handlers s.status = none :=
    statusHandler_terminal handlers (Or.inr h)
  cases op with
  | startAsClient peerAddr random requestUri =>
    refine ⟨s, ⟨[], none, none, s.status⟩, ?_, rfl, rfl, rfl, rfl, Or.inl rfl⟩
    simp only [call, startAsClient, if_pos hdetached]
  | startAsServer =>
    refine ⟨s, ⟨[], none, none, s.status⟩, ?_, rfl, rfl, rfl, rfl, Or.inl rfl⟩
    simp only [call, startAsServer, if_pos hdetached]
  | setHandshakeHeader key value =>
    exact ⟨s.setHandshakeHeader key value, ⟨[], none, none, s.status⟩, rfl, rfl, rfl, rfl, rfl,
      Or.inl rfl⟩
  | recvMessage buffer beyond date =>
    refine ⟨s, ⟨[], some .error, none, s.status⟩, ?_, rfl, rfl, rfl, rfl, Or.inr rfl⟩
    simp only [call, WebSocketProtocol.recvMessage, hhandler, Option.map_some]
  | retrieveMessage =>
    refine ⟨s, ⟨[], none, none, s.status⟩, ?_, rfl, rfl, rfl, rfl, Or.inl rfl⟩
    simp only [call, WebSocketProtocol.retrieveMessage, if_pos hfinished]
  | sendMessage random payload stale =>
    refine ⟨s, ⟨[], none, none, s.status⟩, ?_, rfl, rfl, rfl, rfl, Or.inl rfl⟩
    simp only [call, sendOutput, WebSocketProtocol.sendMessage, if_pos hconnected]
  | sendPingFrame =>
    refine ⟨s, ⟨[], none, none, s.status⟩, ?_, rfl, rfl, rfl, rfl, Or.inl rfl⟩
    simp only [call, WebSocketProtocol.sendPingFrame, if_pos hconnected]
  | sendCloseFrame =>
    refine ⟨s, ⟨[], none, none, s.status⟩, ?_, rfl, rfl, rfl, rfl, Or.inl rfl⟩
    simp only [call, WebSocketProtocol.sendCloseFrame, if_pos hconnected]

/-- **One call after the handshake.** -/
theorem session_call (h : Session s) (op : Op) :
    ∃ s' c, s.call op = some (s', c) ∧ c.code ≠ some .connectionEstablished ∧
      SessionCall s s' c.output := by
  have hnone : (none : Option RetCode) ≠ some .connectionEstablished := fun h => by cases h
  cases op with
  | startAsClient peerAddr random requestUri =>
    have hstart : s.startAsClient peerAddr random requestUri = ⟨false, s, []⟩ :=
      if_pos h.not_detached
    simp only [call, hstart]
    exact ⟨_, _, rfl, hnone, sessionCall_quiet h id⟩
  | startAsServer =>
    have hstart : s.startAsServer = ⟨false, s, []⟩ := if_pos h.not_detached
    simp only [call, hstart]
    exact ⟨_, _, rfl, hnone, sessionCall_quiet h id⟩
  | setHandshakeHeader key value => exact ⟨_, _, rfl, hnone, sessionCall_quiet h id⟩
  | recvMessage buffer beyond date =>
    obtain ⟨r, hr, hcode, hcall⟩ :=
      sessionCall_recvMessage (handlers beyond date) buffer.length h buffer
    simp only [call, hr, Option.map_some]
    exact ⟨_, _, rfl, fun h => hcode (Option.some.inj h), hcall⟩
  | retrieveMessage =>
    cases hretrieve : s.retrieveMessage with
    | none =>
      simp only [call, hretrieve]
      exact ⟨_, _, rfl, hnone, sessionCall_quiet h id⟩
    | some p =>
      obtain ⟨message, s'⟩ := p
      unfold WebSocketProtocol.retrieveMessage at hretrieve
      split at hretrieve
      · cases hretrieve
      · rename_i hstatus
        have hsilent (hs : Silent s) : s.closeFrameSent = true :=
          silent_open (Or.inr (not_not.1 hstatus)) hs
        cases hretrieve
        refine ⟨{ s with message := [], status := .connected },
          ⟨[], none, some s.message, .connected⟩, ?_, hnone,
          sessionCall_quiet (Or.inl rfl) fun hs => Or.inl (hsilent hs)⟩
        simp only [call, WebSocketProtocol.retrieveMessage, if_neg hstatus]
  | sendMessage random payload stale =>
    exact ⟨_, _, rfl, hnone, sessionCall_sendMessage h random payload stale⟩
  | sendPingFrame => exact ⟨_, _, rfl, hnone, sessionCall_sendPingFrame h⟩
  | sendCloseFrame => exact ⟨_, _, rfl, hnone, sessionCall_sendCloseFrame h⟩

end Session

/-! ## The handshake -/

section Opening

variable {s : WebSocketProtocol Handshake}

/-- The handshake message of this object has been put out, if there is one. -/
def Greeted (s : WebSocketProtocol Handshake) : Prop :=
  s.status = .waitingHandshakeResponse ∨ s.status = .connected ∨ Terminal s.status

/-- What a call can do before the handshake is over. -/
structure OpeningCall (s s' : WebSocketProtocol Handshake) (output : List (List UInt8)) :
    Prop where
  opening : ¬ Session s' ∨ s'.status = .connected ∨ Terminal s'.status
  greeted : Greeted s → output = [] ∧ Greeted s'
  handshake : output = [] ∨ ∃ o, output = [o] ∧ IsHandshake o ∧ Greeted s'

theorem sendMessage_cases (outputCb : Bool) (message : HttpMessage) :
    HttpProtocol.sendMessage outputCb message = [] ∨
      ∃ o, HttpProtocol.sendMessage outputCb message = [o] ∧
        HttpProtocol.sendMessage true message = [o] := by
  unfold HttpProtocol.sendMessage
  cases outputCb with
  | false => exact Or.inl rfl
  | true =>
    rw [if_pos rfl]
    split
    · exact Or.inl rfl
    · exact Or.inr ⟨_, rfl, rfl⟩

/-- A call that puts nothing out and leaves the status. -/
theorem openingCall_quiet {s' : WebSocketProtocol Handshake} (h : ¬ Session s)
    (hstatus : s'.status = s.status) : OpeningCall s s' [] := by
  refine ⟨Or.inl ?_, fun hs => ⟨rfl, ?_⟩, Or.inl rfl⟩
  · unfold Session at h ⊢
    rwa [hstatus]
  · unfold Greeted at hs ⊢
    rwa [hstatus]

/-- A call that ends the opening, or goes on to wait for the response. -/
theorem openingCall_greet {s' : WebSocketProtocol Handshake} {output : List (List UInt8)}
    (hs : ¬ Greeted s) (hs' : Greeted s')
    (ho : output = [] ∨ ∃ o, output = [o] ∧ IsHandshake o) : OpeningCall s s' output := by
  refine ⟨?_, fun h => absurd h hs, ?_⟩
  · rcases hs' with h | h
    · refine Or.inl fun hsession => ?_
      unfold Session Terminal at hsession
      rw [h] at hsession
      rcases hsession with h | h | h | h <;> cases h
    · exact Or.inr h
  · rcases ho with ho | ⟨o, ho, hshake⟩
    · exact Or.inl ho
    · exact Or.inr ⟨o, ho, hshake, hs'⟩

/-- A call that ends the opening without an output. -/
theorem openingCall_end {s' : WebSocketProtocol Handshake}
    (hs' : s'.status = .connected ∨ Terminal s'.status) : OpeningCall s s' [] :=
  ⟨Or.inr hs', fun _ => ⟨rfl, Or.inr hs'⟩, Or.inl rfl⟩

/-- **The handshake of a server.** -/
theorem readHandshakeRequest_cases (beyond : Nat → UInt8) (date : List UInt8)
    (s : WebSocketProtocol Handshake) (buffer : List UInt8) :
    let r := readHandshakeRequest beyond date s buffer
    (r.ret = 0 ∧ r.output = [] ∧ r.self.status = s.status) ∨
      ((r.ret = -1 ∨ r.ret = 2 ∧ r.self.status = .connected) ∧
        (r.output = [] ∨ ∃ o, r.output = [o] ∧ IsHandshake o)) := by
  have herror : ∀ s' : WebSocketProtocol Handshake, s'.sendHandshakeErrorResponse = [] ∨
      ∃ o, s'.sendHandshakeErrorResponse = [o] ∧ IsHandshake o := by
    intro s'
    rcases emit_cases s' (bytes "HTTP/1.1 400 Bad Request\r\n\r\n") with h | h
    · exact Or.inl h
    · exact Or.inr ⟨_, h, Or.inr (Or.inr rfl)⟩
  have hsuccess : ∀ (s' : WebSocketProtocol Handshake) (request : HttpMessage),
      s'.sendHandshakeSuccessResponse request date = [] ∨
        ∃ o, s'.sendHandshakeSuccessResponse request date = [o] ∧ IsHandshake o := by
    intro s' request
    rcases sendMessage_cases s'.outputCb
      (handshakeResponse request s'.http.handshakeHeaders date) with h | ⟨o, h, ho⟩
    · exact Or.inl h
    · exact Or.inr ⟨o, h, Or.inr (Or.inl ⟨_, _, _, ho⟩)⟩
  unfold readHandshakeRequest
  dsimp only
  split
  · exact Or.inl ⟨rfl, rfl, rfl⟩
  · split
    · exact Or.inr ⟨Or.inl rfl, herror _⟩
    · split
      · exact Or.inr ⟨Or.inl rfl, herror _⟩
      · exact Or.inr ⟨Or.inr ⟨rfl, rfl⟩, hsuccess _ _⟩
  · exact Or.inr ⟨Or.inl rfl, herror _⟩

/-- **The handshake of a client**: nothing is put out. -/
theorem readHandshakeResponse_cases (beyond : Nat → UInt8) (s : WebSocketProtocol Handshake)
    (buffer : List UInt8) :
    let r := readHandshakeResponse beyond s buffer
    r.output = [] ∧ (r.ret = 0 ∧ r.self.status = s.status ∨ r.ret = -1 ∨
      r.ret = 2 ∧ r.self.status = .connected) := by
  unfold readHandshakeResponse
  dsimp only
  split
  · exact ⟨rfl, Or.inl ⟨rfl, rfl⟩⟩
  · split
    · exact ⟨rfl, Or.inr (Or.inl rfl)⟩
    · split
      · exact ⟨rfl, Or.inr (Or.inl rfl)⟩
      · exact ⟨rfl, Or.inr (Or.inr ⟨rfl, rfl⟩)⟩
  · exact ⟨rfl, Or.inr (Or.inl rfl)⟩

/-- A status handler of the handshake is done in one turn. -/
theorem openingCall_turn {handlers : HandshakeHandlers Handshake}
    {func : StatusHandler Handshake} {buffer : List UInt8} {r : Handled Handshake}
    (h : ¬ Session s) (fuel : Nat) (hfunc : statusHandler handlers s.status = some func)
    (hr : func s buffer = r)
    (hcases : (r.ret = 0 ∧ r.output = [] ∧ r.self.status = s.status) ∨
      ((r.ret = -1 ∨ r.ret = 2 ∧ r.self.status = .connected) ∧
        (r.output = [] ∨ ¬ Greeted s ∧ ∃ o, r.output = [o] ∧ IsHandshake o))) :
    ∃ r', recvMessage handlers (fuel + 1) s buffer = some r' ∧
      OpeningCall s r'.self r'.output := by
  have hret : 0 = r.ret ∨ -1 = r.ret ∨ 2 = r.ret ∨ r.self.status = .finished ∨
      r.self.status = .closed := by
    rcases hcases with ⟨hret, _⟩ | ⟨hret | ⟨hret, _⟩, _⟩ <;> rw [hret] <;> simp
  obtain ⟨r', hr', ho, hself, _⟩ := recvMessage_turn fuel hfunc hr hret
  refine ⟨r', hr', ?_⟩
  rw [ho]
  rcases hcases with ⟨hret, hnil, hstatus⟩ | ⟨hend, hout⟩
  · have hkept : r'.self = r.self := by
      rcases hself with ⟨_, hret'⟩ | ⟨hself, _⟩
      · omega
      · exact hself
    rw [hnil, hkept]
    exact openingCall_quiet h hstatus
  · have hover : r'.self.status = .connected ∨ Terminal r'.self.status := by
      rcases hself with ⟨hself, _⟩ | ⟨hself, hret'⟩ <;> rw [hself]
      · exact Or.inr (Or.inr rfl)
      · rcases hend with hend | ⟨_, hend⟩
        · exact absurd hend.symm hret'
        · exact Or.inl hend
    rcases hout with hnil | ⟨hgreeted, hout⟩
    · rw [hnil]
      exact openingCall_end hover
    · exact openingCall_greet hgreeted (Or.inr hover) (Or.inr hout)

theorem openingCall_recvMessage (h : ¬ Session s) (fuel : Nat) (buffer : List UInt8)
    (beyond : Nat → UInt8) (date : List UInt8) :
    ∃ r, recvMessage (handlers beyond date) (fuel + 1) s buffer = some r ∧
      OpeningCall s r.self r.output := by
  cases hstatus : s.status with
  | detached =>
    refine ⟨⟨.error, s, buffer, []⟩, ?_, openingCall_quiet h rfl⟩
    rw [recvMessage, hstatus]
    rfl
  | waitingHandshakeRequest =>
    have hgreeted : ¬ Greeted s := by
      unfold Greeted Terminal
      rw [hstatus]
      simp
    have hfunc : statusHandler (handlers beyond date) s.status =
        some (readHandshakeRequest beyond date) := by
      rw [hstatus]
      rfl
    refine openingCall_turn h fuel hfunc rfl ?_
    rcases readHandshakeRequest_cases beyond date s buffer with hwait | ⟨hend, hnil | hout⟩
    · exact Or.inl hwait
    · exact Or.inr ⟨hend, Or.inl hnil⟩
    · exact Or.inr ⟨hend, Or.inr ⟨hgreeted, hout⟩⟩
  | waitingHandshakeResponse =>
    have hfunc : statusHandler (handlers beyond date) s.status =
        some (readHandshakeResponse beyond) := by
      rw [hstatus]
      rfl
    refine openingCall_turn h fuel hfunc rfl ?_
    obtain ⟨hnil, ⟨hret, hkept⟩ | hend⟩ := readHandshakeResponse_cases beyond s buffer
    · exact Or.inl ⟨hret, hnil, hkept⟩
    · exact Or.inr ⟨hend, Or.inl hnil⟩
  | connected => exact absurd (Or.inl hstatus) h
  | finished => exact absurd (Or.inr (Or.inl hstatus)) h
  | closed => exact absurd (Or.inr (Or.inr (Or.inl hstatus))) h
  | pendingError => exact absurd (Or.inr (Or.inr (Or.inr hstatus))) h

/-- **One call before the handshake is over.** -/
theorem opening_call (h : ¬ Session s) (op : Op) :
    ∃ s' c, s.call op = some (s', c) ∧ OpeningCall s s' c.output := by
  have hconnected : s.status ≠ .connected := fun hs => h (Or.inl hs)
  have hfinished : s.status ≠ .finished := fun hs => h (Or.inr (Or.inl hs))
  cases op with
  | startAsClient peerAddr random requestUri =>
    refine ⟨_, _, rfl, ?_⟩
    unfold startAsClient
    split
    · exact openingCall_quiet h rfl
    · rename_i hstatus
      have hgreeted : ¬ Greeted s := by
        unfold Greeted Terminal
        rw [not_not.1 hstatus]
        simp
      refine openingCall_greet hgreeted (Or.inl ?_) ?_
      · unfold setClientHeaders setHandshakeHeader
        dsimp only
        split <;> split <;> rfl
      · rcases sendMessage_cases _ _ with hnil | ⟨o, ho, hshake⟩
        · exact Or.inl hnil
        · exact Or.inr ⟨o, ho, Or.inl ⟨_, _, hshake⟩⟩
  | startAsServer =>
    refine ⟨_, _, rfl, ?_⟩
    unfold startAsServer
    split
    · exact openingCall_quiet h rfl
    · rename_i hstatus
      have hgreeted : ¬ Greeted s := by
        unfold Greeted Terminal
        rw [not_not.1 hstatus]
        simp
      refine ⟨Or.inl ?_, fun hs => absurd hs hgreeted, Or.inl rfl⟩
      unfold Session Terminal
      simp
  | setHandshakeHeader key value => exact ⟨_, _, rfl, openingCall_quiet h rfl⟩
  | recvMessage buffer beyond date =>
    obtain ⟨r, hr, hcall⟩ := openingCall_recvMessage h buffer.length buffer beyond date
    simp only [call, hr, Option.map_some]
    exact ⟨_, _, rfl, hcall⟩
  | retrieveMessage =>
    simp only [call, WebSocketProtocol.retrieveMessage, if_pos hfinished]
    exact ⟨_, _, rfl, openingCall_quiet h rfl⟩
  | sendMessage random payload stale =>
    simp only [call, sendOutput, WebSocketProtocol.sendMessage, if_pos hconnected]
    exact ⟨_, _, rfl, openingCall_quiet h rfl⟩
  | sendPingFrame =>
    simp only [call, WebSocketProtocol.sendPingFrame, if_pos hconnected]
    exact ⟨_, _, rfl, openingCall_quiet h rfl⟩
  | sendCloseFrame =>
    simp only [call, WebSocketProtocol.sendCloseFrame, if_pos hconnected]
    exact ⟨_, _, rfl, openingCall_quiet h rfl⟩

end Opening

/-! ## Runs -/

section Runs

variable {s t : WebSocketProtocol Handshake} {c : Call}

theorem runCalls_cons {s' : WebSocketProtocol Handshake} {op : Op} {ops : List Op}
    {calls : List Call} (h : s.call op = some (s', c)) (hrun : runCalls s' ops = some (t, calls)) :
    runCalls s (op :: ops) = some (t, c :: calls) := by
  rw [runCalls, h]
  simp only [bind, Option.bind_some, hrun]

/-- What the status is behind a call. -/
theorem call_after {op : Op} (h : s.call op = some (t, c)) : c.after = t.status := by
  cases op with
  | recvMessage buffer beyond date =>
    obtain ⟨r, _, hr⟩ := Option.map_eq_some_iff.1 h
    cases hr
    rfl
  | retrieveMessage =>
    unfold call at h
    dsimp only at h
    split at h <;> cases h <;> rfl
  | _ =>
    cases h
    rfl

/-- **A run from a terminal status** does nothing. -/
theorem terminal_run : ∀ (ops : List Op) {s : WebSocketProtocol Handshake}, Terminal s.status →
    ∃ t calls, runCalls s ops = some (t, calls) ∧ ∀ c ∈ calls, c.after = s.status ∧
      c.output = [] ∧ c.delivered = none ∧ (c.code = none ∨ c.code = some .error)
  | [], s, _ => ⟨s, [], rfl, by simp⟩
  | op :: ops, s, h => by
    obtain ⟨s', c, hc, hstatus, hafter, hquiet⟩ := call_terminal h op
    obtain ⟨t, calls, hrun, hcalls⟩ := terminal_run ops (s := s') (hstatus ▸ h)
    refine ⟨t, c :: calls, runCalls_cons hc hrun, ?_⟩
    intro c' hc'
    rcases List.mem_cons.1 hc' with rfl | hc'
    · exact ⟨hafter, hquiet⟩
    · rw [← hstatus]
      exact hcalls c' hc'

/-- Behind a call that leaves a terminal status, calls do nothing. -/
theorem terminal_calls : ∀ (before : List Call) {ops : List Op} {s : WebSocketProtocol Handshake}
    {after : List Call}, runCalls s ops = some (t, before ++ c :: after) → Terminal c.after →
    ∀ c' ∈ after, c'.after = c.after ∧ c'.output = [] ∧ c'.delivered = none ∧
      (c'.code = none ∨ c'.code = some .error)
  | _, [], s, _, h, _ => by
    rw [runCalls] at h
    simp at h
  | before, op :: ops, s, after, h, hc => by
    obtain ⟨⟨s', c₀⟩, hcall, h⟩ := Option.bind_eq_some_iff.1 h
    obtain ⟨⟨t', calls⟩, hrun, h⟩ := Option.bind_eq_some_iff.1 h
    cases before with
    | nil =>
      cases h
      have hstatus := call_after hcall
      obtain ⟨_, calls', hrun', hcalls⟩ := terminal_run ops (hstatus ▸ hc)
      cases hrun.symm.trans hrun'
      rw [hstatus]
      exact hcalls
    | cons _ before =>
      cases h
      exact terminal_calls before hrun hc

/-- Frames, then at most one close frame. -/
def Frames (outputs : List (List UInt8)) : Prop :=
  ∃ frames closes, outputs = frames ++ closes ∧
    (∀ o ∈ frames, IsOpenFrame o ∧ ¬ IsFrame 0x8 o) ∧ closes.length ≤ 1 ∧
    ∀ o ∈ closes, IsFrame 0x8 o

theorem frames_nil : Frames [] := ⟨[], [], rfl, by simp, by simp, by simp⟩

theorem isFrame_head {opcode : UInt8} {o : List UInt8} (h : IsFrame opcode o) :
    o.head? = some (0x80 ||| opcode) := by
  obtain ⟨form, maskKey, payload, rfl⟩ := h
  rfl

theorem isOpenFrame_not_close {o : List UInt8} (h : IsOpenFrame o) : ¬ IsFrame 0x8 o := by
  intro hclose
  have hhead := isFrame_head hclose
  rcases h with h | h | h
  all_goals
    rw [isFrame_head h] at hhead
    exact absurd hhead (by decide)

/-- **A run after the handshake.** -/
theorem session_run : ∀ (ops : List Op) {s : WebSocketProtocol Handshake}, Session s →
    ∃ t calls, runCalls s ops = some (t, calls) ∧ Frames (outputs calls) ∧
      (Silent s → outputs calls = []) ∧ ∀ c ∈ calls, c.code ≠ some .connectionEstablished
  | [], s, _ => ⟨s, [], rfl, frames_nil, fun _ => rfl, by simp⟩
  | op :: ops, s, h => by
    obtain ⟨s', c, hc, hcode, hcall⟩ := session_call h op
    obtain ⟨t, calls, hrun, hframes, hsilent, hcodes⟩ := session_run ops hcall.session
    refine ⟨t, c :: calls, runCalls_cons hc hrun, ?_, fun hs => ?_, ?_⟩
    · show Frames (c.output ++ outputs calls)
      rcases hcall.frame with hnil | ⟨o, ho, hopen⟩ | ⟨o, ho, hclose, hs'⟩
      · rw [hnil]
        exact hframes
      · obtain ⟨frames, closes, hout, hopens, hcloses⟩ := hframes
        refine ⟨o :: frames, closes, by rw [ho, hout]; rfl, ?_, hcloses⟩
        intro o' ho'
        rcases List.mem_cons.1 ho' with rfl | ho'
        · exact ⟨hopen, isOpenFrame_not_close hopen⟩
        · exact hopens o' ho'
      · rw [hsilent hs', ho]
        refine ⟨[], [o], rfl, by simp, by simp, ?_⟩
        intro o' ho'
        rw [List.mem_singleton.1 ho']
        exact hclose
    · obtain ⟨hnil, hs'⟩ := hcall.silent hs
      show c.output ++ outputs calls = []
      rw [hnil, hsilent hs']
      rfl
    · intro c' hc'
      rcases List.mem_cons.1 hc' with rfl | hc'
      · exact hcode
      · exact hcodes c' hc'

/-- The calls of a run, cut behind the one that leaves the status `CONNECTED` first. -/
structure Discipline (s : WebSocketProtocol Handshake) (calls opening session : List Call) :
    Prop where
  calls_eq : calls = opening ++ session
  connected : session ≠ [] → ∃ c ∈ opening, c.after = .connected
  handshake : ∀ o ∈ outputs opening, IsHandshake o
  once : (outputs opening).length ≤ 1
  greeted : Greeted s → outputs opening = []
  frames : Frames (outputs session)

/-- **A run before the handshake is over.** -/
theorem opening_run : ∀ (ops : List Op) {s : WebSocketProtocol Handshake}, ¬ Session s →
    ∃ t calls opening session, runCalls s ops = some (t, calls) ∧
      Discipline s calls opening session
  | [], s, _ => ⟨s, [], [], [], rfl, rfl, by simp, by simp [outputs], by simp [outputs],
      fun _ => rfl, frames_nil⟩
  | op :: ops, s, h => by
    obtain ⟨s', c, hc, hcall⟩ := opening_call h op
    have hshake : ∀ o ∈ c.output, IsHandshake o := by
      intro o ho
      rcases hcall.handshake with hnil | ⟨o', ho', hshake, _⟩
      · rw [hnil] at ho
        cases ho
      · rw [ho'] at ho
        rw [List.mem_singleton.1 ho]
        exact hshake
    -- where the opening goes on, only the output of this call is to be added
    have hcons : ∀ {t : WebSocketProtocol Handshake} {calls opening session : List Call},
        runCalls s' ops = some (t, calls) → Discipline s' calls opening session →
        ∃ t calls opening session, runCalls s (op :: ops) = some (t, calls) ∧
          Discipline s calls opening session := by
      intro t calls opening session hrun hd
      refine ⟨t, c :: calls, c :: opening, session, runCalls_cons hc hrun, ?_, ?_, ?_, ?_, ?_,
        hd.frames⟩
      · rw [hd.calls_eq]
        rfl
      · intro hne
        obtain ⟨c', hc', hafter⟩ := hd.connected hne
        exact ⟨c', List.mem_cons_of_mem _ hc', hafter⟩
      · intro o ho
        rcases List.mem_append.1 (show o ∈ c.output ++ outputs opening from ho) with ho | ho
        · exact hshake o ho
        · exact hd.handshake o ho
      · show (c.output ++ outputs opening).length ≤ 1
        rcases hcall.handshake with hnil | ⟨o, ho, _, hgreeted⟩
        · rw [hnil]
          exact hd.once
        · rw [ho, hd.greeted hgreeted]
          exact le_rfl
      · intro hgreeted
        obtain ⟨hnil, hs'⟩ := hcall.greeted hgreeted
        show c.output ++ outputs opening = []
        rw [hnil, hd.greeted hs']
        rfl
    rcases hcall.opening with hopening | hconnected | hterminal
    · obtain ⟨t, calls, opening, session, hrun, hd⟩ := opening_run ops hopening
      exact hcons hrun hd
    · obtain ⟨t, calls, hrun, hframes, _⟩ := session_run ops (Or.inl hconnected)
      have houtputs : outputs [c] = c.output := List.append_nil _
      refine ⟨t, c :: calls, [c], calls, runCalls_cons hc hrun, rfl, fun _ => ?_, ?_, ?_, ?_,
        hframes⟩
      · exact ⟨c, List.mem_singleton_self c, (call_after hc).trans hconnected⟩
      · rw [houtputs]
        exact hshake
      · rw [houtputs]
        rcases hcall.handshake with hnil | ⟨o, ho, _⟩
        · rw [hnil]
          exact Nat.zero_le _
        · rw [ho]
          exact le_rfl
      · intro hgreeted
        rw [houtputs]
        exact (hcall.greeted hgreeted).1
    · obtain ⟨t, calls, hrun, hquiet⟩ := terminal_run ops hterminal
      have hnil : outputs calls = [] := List.flatMap_eq_nil_iff.2 fun c hc => (hquiet c hc).2.1
      refine hcons hrun ⟨(List.append_nil calls).symm, ?_, ?_, ?_, fun _ => hnil, frames_nil⟩
      · exact fun h => absurd rfl h
      · rw [hnil]
        simp
      · rw [hnil]
        exact Nat.zero_le _

end Runs

/-- **Output discipline.** -/
theorem output_discipline (outputCb : Bool) (ops : List Op) :
    ∃ t calls, runCalls (new outputCb) ops = some (t, calls) ∧
      (∃ opening session, calls = opening ++ session ∧
        (session ≠ [] → ∃ c ∈ opening, c.after = .connected) ∧
        (∀ o ∈ outputs opening, IsHandshake o) ∧ (outputs opening).length ≤ 1 ∧
        Frames (outputs session)) ∧
      ∀ before c after, calls = before ++ c :: after → Terminal c.after → ∀ c' ∈ after,
        c'.after = c.after ∧ c'.output = [] ∧ c'.delivered = none ∧
          (c'.code = none ∨ c'.code = some .error) := by
  have hopening : ¬ Session (new outputCb) := by
    unfold Session Terminal new
    simp
  obtain ⟨t, calls, opening, session, hrun, hd⟩ := opening_run ops hopening
  refine ⟨t, calls, hrun, ⟨opening, session, hd.calls_eq, hd.connected, hd.handshake, hd.once,
    hd.frames⟩, ?_⟩
  rintro before c after rfl hterminal
  exact terminal_calls before hrun hterminal

end WebSocketProtocol

end Brickred
