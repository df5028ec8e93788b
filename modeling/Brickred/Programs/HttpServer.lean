import Brickred.Http.Arrivals
import Brickred.TcpService.Hosting

/-!
# The HTTP server (model of `http_server.cc`)

The server answers every request with `200` or, when it cannot read one, with `400`; unless the
client asked to keep the connection alive, it closes it behind the answer.

* `serve` — the loop of `onRecvMessage`, `httpServer` — the application.
* `server` — what the answers to a stream are, as a reader: those to the parser's messages, up to
  the first one that closes the connection.
* `serve_settle` — the loop gives these answers.
* `http_server_replies` — **what a client gets** is the answers to what it sent, however that was
  cut into pieces and whatever the other clients do.
-/

set_option autoImplicit false

namespace Brickred

def HttpMessage.isConnectionKeepAlive (message : HttpMessage) : Bool :=
  message.headerEqual (StringUtil.bytes "Connection") (StringUtil.bytes "Keep-Alive")

namespace HttpServer

open StringUtil HttpProtocol Segmentation TcpService Runs

variable {κ : Type}

def http200 : List UInt8 := bytes "HTTP/1.1 200 OK\r\nContent-length: 0\r\n\r\n"

def http400 : List UInt8 := bytes "HTTP/1.1 400 Bad Request\r\n\r\n"

/-- The loop of `onRecvMessage`: the protocol, the read buffer and the calls; more than
`buffer.length` turns are not made. -/
def serve (beyond : Nat → UInt8) :
    Nat → HttpProtocol → List UInt8 → HttpProtocol × List UInt8 × List Call
  | 0, s, buffer => (s, buffer, [])
  | fuel + 1, s, buffer =>
    match recvMessage beyond (buffer.length + 2) s buffer with
    | none => (s, buffer, [])
    | some r =>
      match r.code with
      | .waitingMoreData => (r.self, r.buffer, [])
      | .error => (r.self, r.buffer, [.sendMessageThenClose http400])
      | .messageReady =>
        match r.self.retrieveRequest with
        | none => (r.self, r.buffer, [.sendMessageThenClose http400])
        | some (request, s) =>
          if request.isConnectionKeepAlive then
            let (s, buffer, calls) := serve beyond fuel s r.buffer
            (s, buffer, .sendMessage http200 false :: calls)
          else (s, r.buffer, [.sendMessageThenClose http200])

/-- `class HttpServer`, with its `Context`; the input is what lies in memory behind the readable
bytes. -/
def httpServer : Application (Option HttpProtocol) (Nat → UInt8) where
  context := none
  onNewConnection _ := (some reset, [])
  onRecvMessage beyond context readBuffer :=
    match context with
    | none => (none, readBuffer, [.closeSocket])
    | some s =>
      let (s, rest, calls) := serve beyond (readBuffer.length + 1) s readBuffer
      (some s, rest, calls)

/-! ## The answers to a stream -/

inductive Reply where
  | ok
  | okThenClose
  | badThenClose
  deriving DecidableEq

def Reply.call : Reply → Call
  | ok => .sendMessage http200 false
  | okThenClose => .sendMessageThenClose http200
  | badThenClose => .sendMessageThenClose http400

def Reply.text : Reply → List UInt8
  | ok => http200
  | okThenClose => http200
  | badThenClose => http400

def reply (message : HttpMessage) : Reply :=
  match message.kind with
  | .request _ _ => if message.isConnectionKeepAlive then .ok else .okThenClose
  | .response _ _ => .badThenClose

def closing (out : List HttpMessage) : Bool := out.any fun message => reply message ≠ .ok

def server : Reader HttpProtocol UInt8 Reply :=
  parser.upTo (List.map reply) closing [.badThenClose]

/-- The answers to all that has been received. -/
def replies (stream : List UInt8) : List Reply := server.ideal reset stream

theorem call_buffer (r : Reply) : r.call.buffer = r.text := by
  cases r <;> rfl

/-! ## The loop -/

section Serve

variable {beyond : Nat → UInt8} {s s' : HttpProtocol} {buffer rest : List UInt8} {r : Received}
  {message : HttpMessage} {chunkBuffer : Option (List UInt8)}

theorem serve_same (h : Receives beyond s buffer r) (h' : Receives beyond s' rest r) (fuel : Nat) :
    serve beyond (fuel + 1) s buffer = serve beyond (fuel + 1) s' rest := by
  rw [serve, serve, h _ le_rfl, h' _ le_rfl]

theorem serve_waiting (h : Receives beyond s buffer ⟨.waitingMoreData, s', rest⟩) (fuel : Nat) :
    serve beyond (fuel + 1) s buffer = (s', rest, []) := by
  rw [serve, h _ le_rfl]

theorem serve_error (h : Receives beyond s buffer ⟨.error, s', rest⟩) (fuel : Nat) :
    serve beyond (fuel + 1) s buffer = (s', rest, [Reply.badThenClose.call]) := by
  rw [serve, h _ le_rfl]
  rfl

/-- A message is answered, and the loop goes on behind it if the connection stays. -/
theorem serve_message
    (h : Receives beyond s buffer ⟨.messageReady, .finished message chunkBuffer, rest⟩)
    (fuel : Nat) : (serve beyond (fuel + 1) s buffer).2.2 =
      (reply message).call ::
        if reply message = .ok then (serve beyond fuel reset rest).2.2 else [] := by
  obtain ⟨kind, version, headers, body⟩ := message
  rw [serve, h _ le_rfl]
  cases kind with
  | request method requestUri =>
    dsimp only [retrieveRequest, reply]
    split <;> rfl
  | response statusCode reasonPhrase => rfl

theorem serve_message_ok
    (h : Receives beyond s buffer ⟨.messageReady, .finished message chunkBuffer, rest⟩)
    (hok : reply message = .ok) (fuel : Nat) :
    (serve beyond (fuel + 1) s buffer).1 = (serve beyond fuel reset rest).1 ∧
      (serve beyond (fuel + 1) s buffer).2.1 = (serve beyond fuel reset rest).2.1 := by
  obtain ⟨kind, version, headers, body⟩ := message
  rw [serve, h _ le_rfl]
  cases kind with
  | request method requestUri =>
    dsimp only [retrieveRequest, reply] at hok ⊢
    split at hok
    · rename_i hkeep
      rw [if_pos hkeep]
      exact ⟨rfl, rfl⟩
    · cases hok
  | response statusCode reasonPhrase => cases hok

/-- Where the reader has settled, nothing that lies behind the readable bytes is compared. -/
def Legible (s : HttpProtocol) (buffer : List UInt8) : Prop :=
  ¬ Overread (server.settle s buffer).2.1 (server.settle s buffer).2.2

/-- **The loop** gives the answers of the reader, and while the connection stays it leaves what the
reader leaves. -/
theorem serve_settle (beyond : Nat → UInt8) (s : HttpProtocol) (buffer : List UInt8) :
    Running s → Legible s buffer → ∀ fuel, buffer.length < fuel →
      (serve beyond fuel s buffer).2.2 = (server.ideal s buffer).map Reply.call ∧
      (server.turn (server.settle s buffer).2.1 (server.settle s buffer).2.2 = .wait →
        (serve beyond fuel s buffer).1 = (server.settle s buffer).2.1 ∧
          (serve beyond fuel s buffer).2.1 = (server.settle s buffer).2.2) := by
  induction s, buffer using parser.turn_induction with
  | wait s buffer ht =>
    intro hs hread fuel hfuel
    have hw : server.turn s buffer = .wait := Reader.upTo_wait.2 ht
    obtain ⟨fuel, rfl⟩ := Nat.exists_eq_succ_of_ne_zero (Nat.ne_of_gt (Nat.zero_lt_of_lt hfuel))
    rw [Legible, Reader.settle_wait hw] at hread
    rw [serve_waiting (receives_wait hs ht hread), Reader.ideal_wait hw, Reader.settle_wait hw]
    exact ⟨rfl, fun _ => ⟨rfl, rfl⟩⟩
  | stop s buffer out ht =>
    intro hs _ fuel hfuel
    have hstop : server.turn s buffer = .stop [.badThenClose] := Reader.upTo_stop ht
    obtain ⟨fuel, rfl⟩ := Nat.exists_eq_succ_of_ne_zero (Nat.ne_of_gt (Nat.zero_lt_of_lt hfuel))
    rw [serve_error (receives_stop hs ht), Reader.ideal_stop hstop, Reader.settle_stop hstop]
    refine ⟨rfl, fun hw => ?_⟩
    rw [show server.turn _ _ = _ from hstop] at hw
    cases hw
  | take s buffer s' used out more ht ih =>
    intro hs hread fuel hfuel
    have hlen := Reader.rest_length_lt ht
    obtain ⟨fuel, rfl⟩ := Nat.exists_eq_succ_of_ne_zero (Nat.ne_of_gt (Nat.zero_lt_of_lt hfuel))
    cases out with
    | nil =>
      have htake : server.turn s buffer = .take s' used [] more := Reader.upTo_take ht rfl
      rw [Legible, Reader.settle_take htake] at hread
      obtain ⟨r, hr⟩ := receives_total beyond s' (buffer.drop used)
      rw [serve_same (receives_silent hs ht hr) hr, Reader.ideal_take htake,
        Reader.settle_take htake]
      exact ih (turn_running hs ht) hread (fuel + 1) (by omega)
    | cons message out =>
      obtain ⟨rfl, rfl, chunkBuffer, hr⟩ := receives_message beyond hs ht
      rw [serve_message hr]
      by_cases hok : reply message = .ok
      · have hlast : closing [message] = false := by simp [closing, hok]
        have htake : server.turn s buffer = .take reset used [reply message] more :=
          Reader.upTo_take ht hlast
        rw [Legible, Reader.settle_take htake] at hread
        obtain ⟨hcalls, hrest⟩ := ih trivial hread fuel (by omega)
        rw [if_pos hok, Reader.ideal_take htake, Reader.settle_take htake,
          (serve_message_ok hr hok fuel).1, (serve_message_ok hr hok fuel).2]
        refine ⟨?_, hrest⟩
        rw [show (serve beyond fuel reset (buffer.drop used)).2.2 = _ from hcalls]
        rfl
      · have hlast : closing [message] = true := by simp [closing, hok]
        have hstop : server.turn s buffer = .stop [reply message] := Reader.upTo_last ht hlast
        rw [if_neg hok, Reader.ideal_stop hstop, Reader.settle_stop hstop]
        refine ⟨rfl, fun hw => ?_⟩
        rw [show server.turn _ _ = _ from hstop] at hw
        cases hw

theorem settle_running (s : HttpProtocol) (buffer : List UInt8) :
    Running s → Running (server.settle s buffer).2.1 := by
  induction s, buffer using parser.turn_induction with
  | wait s buffer ht =>
    have hw : server.turn s buffer = .wait := Reader.upTo_wait.2 ht
    rw [Reader.settle_wait hw]
    exact id
  | stop s buffer out ht =>
    have hstop : server.turn s buffer = .stop [.badThenClose] := Reader.upTo_stop ht
    rw [Reader.settle_stop hstop]
    exact id
  | take s buffer s' used out more ht ih =>
    intro hs
    by_cases hlast : closing out = true
    · have hstop : server.turn s buffer = .stop (out.map reply) := Reader.upTo_last ht hlast
      rw [Reader.settle_stop hstop]
      exact hs
    · have htake : server.turn s buffer = .take s' used (out.map reply) more :=
        Reader.upTo_take ht (Bool.eq_false_iff.2 hlast)
      rw [Reader.settle_take htake]
      exact ih (turn_running hs ht)

end Serve

/-! ## A session -/

/-- On no beginning of the stream is anything compared that lies behind the readable bytes. -/
def LegibleStream (stream : List UInt8) : Prop :=
  ∀ received, received <+: stream → Legible reset received

/-- So it is when no message selects chunked decoding. -/
theorem legible_of_reaches {beyond : Nat → UInt8} {stream : List UInt8}
    (hun : Unchunked beyond stream) (ext : List UInt8) (s : HttpProtocol) (buffer : List UInt8) :
    Running s → Reaches beyond reset stream s (buffer ++ ext) → Legible s buffer := by
  induction s, buffer using parser.turn_induction with
  | wait s buffer ht =>
    intro _ hreach
    have hw : server.turn s buffer = .wait := Reader.upTo_wait.2 ht
    rw [Legible, Reader.settle_wait hw]
    exact not_overread hun hreach _
  | stop s buffer out ht =>
    intro _ hreach
    have hstop : server.turn s buffer = .stop [.badThenClose] := Reader.upTo_stop ht
    rw [Legible, Reader.settle_stop hstop]
    exact not_overread hun hreach _
  | take s buffer s' used out more ht ih =>
    intro hs hreach
    by_cases hlast : closing out = true
    · have hstop : server.turn s buffer = .stop (out.map reply) := Reader.upTo_last ht hlast
      rw [Legible, Reader.settle_stop hstop]
      exact not_overread hun hreach _
    · have htake : server.turn s buffer = .take s' used (out.map reply) more :=
        Reader.upTo_take ht (Bool.eq_false_iff.2 hlast)
      obtain ⟨hext, hdrop⟩ := Reader.extend_take ht ext
      rw [Legible, Reader.settle_take htake]
      refine ih (turn_running hs ht) ?_
      rw [← hdrop]
      exact reaches_take hun hs hreach hext

theorem unchunked_legible {beyond : Nat → UInt8} {stream : List UInt8}
    (hun : Unchunked beyond stream) : LegibleStream stream := by
  rintro received ⟨ext, rfl⟩
  exact legible_of_reaches hun ext reset received trivial .start

def texts (rs : List Reply) : List UInt8 := rs.flatMap Reply.text

/-- A reader that has stopped has closed the connection. -/
theorem stop_closing {s : HttpProtocol} {buffer : List UInt8} {out : List Reply}
    (h : server.turn s buffer = .stop out) : ∃ r ∈ out, r ≠ .ok := by
  cases ht : parser.turn s buffer with
  | wait =>
    have hw : server.turn s buffer = .wait := Reader.upTo_wait.2 ht
    rw [hw] at h
    cases h
  | stop messages =>
    have hstop : server.turn s buffer = .stop [.badThenClose] := Reader.upTo_stop ht
    rw [hstop] at h
    cases h
    exact ⟨_, List.mem_cons_self, nofun⟩
  | take s' used messages more =>
    by_cases hlast : closing messages = true
    · have hstop : server.turn s buffer = .stop (messages.map reply) := Reader.upTo_last ht hlast
      rw [hstop] at h
      cases h
      obtain ⟨message, hmem, hne⟩ := List.any_eq_true.1 hlast
      exact ⟨_, List.mem_map_of_mem hmem, of_decide_eq_true hne⟩
    · have htake : server.turn s buffer = .take s' used (messages.map reply) more :=
        Reader.upTo_take ht (Bool.eq_false_iff.2 hlast)
      rw [htake] at h
      cases h

/-- What the server has said to a client, when this has sent `s.received`. -/
structure Answers (s : Session (Option HttpProtocol)) : Prop where
  begun : texts (replies s.received) <+: s.said
  waiting : server.turn (server.settle reset s.received).2.1
      (server.settle reset s.received).2.2 = .wait →
    s.context = some (server.settle reset s.received).2.1 ∧
      s.readBuffer = (server.settle reset s.received).2.2 ∧ s.said = texts (replies s.received)

theorem calls_texts (rs : List Reply) : (rs.map Reply.call).flatMap Call.buffer = texts rs := by
  rw [List.flatMap_map]
  exact congrArg (rs.flatMap ·) (funext call_buffer)

/-- The answers to a stream in two parts. -/
theorem replies_append {stream : List UInt8} (data : List UInt8)
    (hw : server.turn (server.settle reset stream).2.1 (server.settle reset stream).2.2 = .wait) :
    replies (stream ++ data) = replies stream ++
      server.ideal (server.settle reset stream).2.1 ((server.settle reset stream).2.2 ++ data) := by
  unfold replies
  rw [Reader.ideal_settle, Reader.settle_append, Reader.ideal_settle reset stream, hw,
    Reader.ideal_settle (server.settle reset stream).2.1]
  simp

/-- Behind an answer that closes the connection there is no other. -/
theorem replies_stop {stream : List UInt8} {out : List Reply} (data : List UInt8)
    (hstop : server.turn (server.settle reset stream).2.1 (server.settle reset stream).2.2 =
      .stop out) :
    replies (stream ++ data) = replies stream ∧
      server.turn (server.settle reset (stream ++ data)).2.1
        (server.settle reset (stream ++ data)).2.2 = .stop out := by
  have hext : server.turn (server.settle reset stream).2.1
      ((server.settle reset stream).2.2 ++ data) = .stop out := by
    rw [server.extend data (by rw [hstop]; exact nofun), hstop]
  have hsettle : server.settle reset (stream ++ data) = ((server.settle reset stream).1,
      (server.settle reset stream).2.1, (server.settle reset stream).2.2 ++ data) := by
    rw [Reader.settle_append, Reader.settle_stop hext, List.append_nil]
  unfold replies
  rw [Reader.ideal_settle, hsettle, Reader.ideal_settle reset stream]
  dsimp only
  rw [hext, hstop]
  exact ⟨rfl, rfl⟩

/-- The connection has not been reported, or the stream is answered as far as it is legible. -/
def Serving (s : Session (Option HttpProtocol)) : Prop :=
  s.context = none ∨ (LegibleStream s.received → Answers s)

theorem LegibleStream.of_append {stream data : List UInt8} (h : LegibleStream (stream ++ data)) :
    LegibleStream stream :=
  fun received hr => h received (hr.trans (List.prefix_append stream data))

/-- The bytes that are handed over are answered where the reader waits for them. -/
theorem answers_waiting (beyond : Nat → UInt8) {stream data : List UInt8}
    (hlegible : LegibleStream (stream ++ data))
    (hw : server.turn (server.settle reset stream).2.1 (server.settle reset stream).2.2 = .wait) :
    Answers (httpServer.hand beyond ⟨some (server.settle reset stream).2.1,
      (server.settle reset stream).2.2, stream, texts (replies stream)⟩
      ((server.settle reset stream).2.2 ++ data)).1 := by
  have hrunning := settle_running reset stream trivial
  have hread : Legible (server.settle reset stream).2.1
      ((server.settle reset stream).2.2 ++ data) := by
    have h := hlegible (stream ++ data) (List.prefix_refl _)
    rw [Legible, Reader.settle_append] at h
    exact h
  obtain ⟨hcalls, hrest⟩ := serve_settle beyond _ _ hrunning hread _ (Nat.lt_succ_self _)
  have hreceived : stream ++ ((server.settle reset stream).2.2 ++ data).drop
      (server.settle reset stream).2.2.length = stream ++ data := by
    rw [List.drop_left]
  have hsaid : texts (replies (stream ++ data)) = texts (replies stream) ++
      (((server.ideal (server.settle reset stream).2.1
        ((server.settle reset stream).2.2 ++ data)).map Reply.call).flatMap Call.buffer) := by
    rw [calls_texts, replies_append data hw]
    exact List.flatMap_append
  unfold Application.hand httpServer
  dsimp only
  refine ⟨?_, ?_⟩
  · dsimp only
    rw [hreceived, hcalls, hsaid]
  · dsimp only
    rw [hreceived, hcalls, hsaid, Reader.settle_append]
    intro hwait
    obtain ⟨hself, hbuffer⟩ := hrest hwait
    exact ⟨congrArg some hself, hbuffer, rfl⟩

theorem serving_handed (beyond : Nat → UInt8) {s : Session (Option HttpProtocol)} (h : Serving s)
    (data : List UInt8) : Serving (httpServer.hand beyond s (s.readBuffer ++ data)).1 := by
  obtain ⟨context, readBuffer, stream, said⟩ := s
  cases context with
  | none => exact Or.inl rfl
  | some protocol =>
    refine Or.inr fun hlegible => ?_
    have hreceived : (httpServer.hand beyond ⟨some protocol, readBuffer, stream, said⟩
        (readBuffer ++ data)).1.received = stream ++ data :=
      congrArg (stream ++ ·) List.drop_left
    rw [hreceived] at hlegible
    obtain ⟨hbegun, hwaiting⟩ := h.resolve_left nofun hlegible.of_append
    rcases server.settle_rest reset stream with hw | ⟨out, hstop⟩
    · obtain ⟨hcontext, hbuffer, hsaid⟩ := hwaiting hw
      dsimp only at hcontext hbuffer hsaid
      cases hcontext
      subst hbuffer hsaid
      exact answers_waiting beyond hlegible hw
    · obtain ⟨hreplies, hstop'⟩ := replies_stop data hstop
      refine ⟨?_, fun hwait => ?_⟩
      · rw [hreceived, hreplies]
        exact hbegun.trans (List.prefix_append _ _)
      · rw [hreceived, hstop'] at hwait
        cases hwait

theorem server_keeps : Host.Keeps httpServer Serving where
  new := Or.inl rfl
  greeted := by
    refine Or.inr fun _ => ?_
    have hw : server.turn reset [] = .wait := server.empty reset
    have hsettle : server.settle reset [] = ([], reset, []) := Reader.settle_wait hw
    have hreplies : replies [] = [] := Reader.ideal_wait hw
    refine ⟨?_, fun _ => ?_⟩
    · exact ⟨[], (congrArg (texts · ++ []) hreplies).trans rfl⟩
    · refine ⟨congrArg some (congrArg (fun r => r.2.1) hsettle).symm,
        (congrArg (fun r => r.2.2) hsettle).symm, (congrArg texts hreplies).symm⟩
  handed beyond _ data h := serving_handed beyond h data

/-! ## The clients -/

/-- What the kernel is given on the connection, and what it is given while the connection is
connected. -/
structure Served (c : SocketId) (h : Host (Option HttpProtocol) κ) : Prop where
  comparable : sentBytes (h.machine.history c) <+: texts (replies (h.sessions c).received) ∨
    texts (replies (h.sessions c).received) <+: sentBytes (h.machine.history c)
  connected : ∀ connection, h.machine.service.connections c = some connection →
    connection.status = .connected → texts (replies (h.sessions c).received) <+:
      sentBytes (h.machine.history c) ++ connection.writeBuffer
  alive : (∀ r ∈ replies (h.sessions c).received, r = .ok) →
    sentBytes (h.machine.history c) <+: texts (replies (h.sessions c).received) ∧
    ∀ connection, h.machine.service.connections c = some connection →
      connection.status = .connected → sentBytes (h.machine.history c) ++ connection.writeBuffer =
        texts (replies (h.sessions c).received)

/-- **What a client gets** is the answers to what it sent, one for each message in order up to the
first that closes the connection, as long as the parser reads nothing behind the bytes it has and
the direct sends copy the bytes that are left. -/
theorem http_server_replies {events : List (Host.Event (Nat → UInt8))}
    {h : Host (Option HttpProtocol) κ} (hh : Host.Reached httpServer events h)
    (hk : EachStep (Host.step httpServer) (fun h e => h.Faithful httpServer e)
      (Host.init httpServer : Host (Option HttpProtocol) κ) events)
    (c : SocketId) (hcontext : (h.sessions c).context ≠ none)
    (hlegible : LegibleStream (h.sessions c).received) : Served c h := by
  obtain ⟨hsent, hconnected⟩ := Host.application_stream hh hk c
  obtain ⟨hbegun, hwaiting⟩ :=
    (Host.session_reached server_keeps hh hk c).resolve_left hcontext hlegible
  refine ⟨List.prefix_or_prefix_of_prefix hsent hbegun, ?_, fun halive => ?_⟩
  · intro connection hc hs
    rw [hconnected connection hc hs]
    exact hbegun
  · have hsaid : (h.sessions c).said = texts (replies (h.sessions c).received) := by
      rcases server.settle_rest reset (h.sessions c).received with hw | ⟨out, hstop⟩
      · exact (hwaiting hw).2.2
      · obtain ⟨r, hr, hne⟩ := stop_closing hstop
        refine absurd (halive r ?_) hne
        unfold replies
        rw [Reader.ideal_settle, hstop]
        exact List.mem_append_right _ hr
    rw [hsaid] at hsent hconnected
    exact ⟨hsent, hconnected⟩

/-- A request for which the connection is kept, -/
def pollStream : List UInt8 := bytes "GET / HTTP/1.1\r\nConnection: Keep-Alive\r\n\r\n"

/-- in two pieces. -/
def pollEvents : List (Host.Event (Nat → UInt8)) :=
  [.accept 4 [],
    .readable (SocketIdAllocator.getId 0 4) [⟨20, .bytes (pollStream.take 20)⟩, ⟨-1, .fails EAGAIN⟩]
      (fun _ => 0) [],
    .readable (SocketIdAllocator.getId 0 4) [⟨30, .bytes (pollStream.drop 20)⟩, ⟨-1, .fails EAGAIN⟩]
      (fun _ => 0) [.accepts 99 0]]

theorem pollEvents_orderly : EachStep (Host.step httpServer)
    (fun h e => h.Enabled e ∧ h.Faithful httpServer e)
    (Host.init httpServer : Host (Option HttpProtocol) Unit) pollEvents := by
  refine ⟨⟨trivial, fun _ hp => nomatch hp⟩, ?_⟩
  rintro _ ⟨⟩
  refine ⟨⟨⟨_, rfl, rfl, rfl⟩, ?_⟩, ?_⟩
  · rintro _ ⟨⟩
    exact fun _ hp => by simp at hp
  rintro _ ⟨⟩
  refine ⟨⟨⟨_, rfl, rfl, rfl⟩, ?_⟩, ?_⟩
  · rintro _ ⟨⟩
    decide +kernel
  rintro _ ⟨⟩
  trivial

def inBody : HttpProtocol → Bool
  | .readingBody _ _ => true
  | _ => false

/-- No beginning of it ends in a body. -/
theorem pollStream_legible : LegibleStream pollStream := by
  have hheading : ∀ received ∈ pollStream.inits,
      inBody (server.settle reset received).2.1 = false := by decide +kernel
  intro received hr
  have h := hheading received ((List.mem_inits received pollStream).2 hr)
  unfold Legible
  cases hs : (server.settle reset received).2.1 with
  | readingBody message chunkBuffer =>
    rw [hs] at h
    cases h
  | _ => exact id

theorem http_server_replies_poll : ∃ h : Host (Option HttpProtocol) Unit,
    run (Host.step httpServer) (Host.init httpServer) pollEvents = some h ∧
      (h.sessions (SocketIdAllocator.getId 0 4)).received = pollStream ∧
      Served (SocketIdAllocator.getId 0 4) h := by
  obtain ⟨h, hrun⟩ : ∃ h : Host (Option HttpProtocol) Unit,
      run (Host.step httpServer) (Host.init httpServer) pollEvents = some h := ⟨_, rfl⟩
  have hsession : (h.sessions (SocketIdAllocator.getId 0 4)).received = pollStream ∧
      (h.sessions (SocketIdAllocator.getId 0 4)).context ≠ none := by
    cases hrun
    exact ⟨by decide +kernel, by decide +kernel⟩
  refine ⟨h, hrun, hsession.1, ?_⟩
  refine http_server_replies ⟨pollEvents_orderly.mono fun _ _ h => h.1, hrun⟩
    (pollEvents_orderly.mono fun _ _ h => h.2) _ hsession.2 ?_
  rw [hsession.1]
  exact pollStream_legible

end HttpServer

end Brickred
