import Brickred.Lib.Periodic
import Brickred.TcpService.Hosting

/-!
# The echo programs (model of `echo_server.cc` and `echo_client.cc`)

Both send back what they receive.  The client begins: it sends a message of 16 KiB on every
connection that it is told of, so the message goes round for ever.

* `server_echoes` — on each connection of the server the kernel is given what came in on it, in
  order, whatever happens on the other ones.
* `ring` — the two programs with a connection between them: what is under way is at any time the
  message, rotated, and what has come back to the client is the message over and over again.
-/

set_option autoImplicit false

namespace Brickred

namespace Echo

open Runs TcpService

variable {κ : Type}

/-- `onRecvMessage`, the same in both programs. -/
def onRecvMessage (_ context : Unit) (readBuffer : List UInt8) : Unit × List UInt8 × List Call :=
  (context, [], [.sendMessage readBuffer true])

def echoServer : Application Unit Unit where
  context := ()
  onNewConnection context := (context, [])
  onRecvMessage

/-- `message` is an array of 16 KiB with `Hello, world!` in front; nothing depends on what it is. -/
def echoClient (message : List UInt8) : Application Unit Unit where
  context := ()
  onNewConnection context := (context, [.sendMessage message true])
  onRecvMessage

/-! ## A session -/

/-- What has been said is what was received, behind a greeting. -/
def Echoes (greeting : List UInt8) (s : Session Unit) : Prop :=
  s.readBuffer = [] ∧ s.said = greeting ++ s.received

theorem echoes_handed {greeting : List UInt8} {app : Application Unit Unit}
    (happ : app.onRecvMessage = onRecvMessage) {s : Session Unit} (h : Echoes greeting s)
    (data : List UInt8) : Echoes greeting (app.hand () s (s.readBuffer ++ data)).1 := by
  obtain ⟨hbuffer, hsaid⟩ := h
  unfold Application.hand
  rw [happ, hbuffer, List.nil_append]
  refine ⟨rfl, ?_⟩
  simp [onRecvMessage, hsaid]

theorem server_keeps : Host.Keeps echoServer (Echoes []) where
  new := ⟨rfl, rfl⟩
  greeted := ⟨rfl, rfl⟩
  handed _ _ data h := echoes_handed rfl h data

theorem client_keeps (message : List UInt8) :
    Host.Keeps (echoClient message) (fun s => Echoes message s ∨ Echoes [] s) where
  new := Or.inr ⟨rfl, rfl⟩
  greeted := Or.inl ⟨rfl, by simp [Application.greet, Application.session, echoClient]⟩
  handed _ _ data h := h.imp (fun h => echoes_handed rfl h data) fun h => echoes_handed rfl h data

/-! ## The server -/

/-- The kernel has been given the beginning of what was received on the connection, and while it
is connected the rest is in the write buffer. -/
structure EchoesBack (c : SocketId) (h : Host Unit κ) : Prop where
  sent_begins : sentBytes (h.machine.history c) <+: (h.sessions c).received
  connected : ∀ connection, h.machine.service.connections c = some connection →
    connection.status = .connected →
    sentBytes (h.machine.history c) ++ connection.writeBuffer = (h.sessions c).received

/-- **The echo server**, as long as no direct send of which the kernel takes a part copies other
bytes than those that are left. -/
theorem server_echoes {events : List (Host.Event Unit)} {h : Host Unit κ}
    (hh : Host.Reached echoServer events h)
    (hk : EachStep (Host.step echoServer) (fun h e => h.Faithful echoServer e)
      (Host.init echoServer : Host Unit κ) events) (c : SocketId) :
    EchoesBack c h := by
  have hsaid : (h.sessions c).said = (h.sessions c).received :=
    (Host.session_reached server_keeps hh hk c).2
  obtain ⟨hsent, hconnected⟩ := Host.application_stream hh hk c
  rw [hsaid] at hsent hconnected
  exact ⟨hsent, hconnected⟩

/-- A client whose bytes come in together, one whose bytes wait for the kernel, and an end of
stream. -/
def echoEvents : List (Host.Event Unit) :=
  [.listen 3, .accept 4 [], .accept 5 [],
    .readable (SocketIdAllocator.getId 1 4) [⟨2, .bytes [97, 98]⟩, ⟨-1, .fails EAGAIN⟩]
      () [.accepts 2 0],
    .readable (SocketIdAllocator.getId 2 5) [⟨1, .bytes [99]⟩, ⟨-1, .fails EAGAIN⟩]
      () [.fails EAGAIN],
    .readable (SocketIdAllocator.getId 2 5) [⟨1, .bytes [100]⟩, ⟨-1, .fails EAGAIN⟩]
      () [.fails EAGAIN],
    .writable (SocketIdAllocator.getId 2 5) (.accepts 9 0) 0 [],
    .readable (SocketIdAllocator.getId 1 4) [⟨-1, .endOfStream⟩] () []]

theorem echoEvents_orderly : EachStep (Host.step echoServer)
    (fun h e => h.Enabled e ∧ h.Faithful echoServer e) (Host.init echoServer : Host Unit Unit)
    echoEvents := by
  refine ⟨⟨trivial, trivial⟩, ?_⟩
  rintro _ ⟨⟩
  refine ⟨⟨trivial, fun _ hp => nomatch hp⟩, ?_⟩
  rintro _ ⟨⟩
  refine ⟨⟨trivial, fun _ hp => nomatch hp⟩, ?_⟩
  rintro _ ⟨⟩
  refine ⟨⟨⟨_, rfl, rfl, rfl⟩, ?_⟩, ?_⟩
  · rintro _ ⟨⟩
    decide
  rintro _ ⟨⟩
  refine ⟨⟨⟨_, rfl, rfl, rfl⟩, ?_⟩, ?_⟩
  · rintro _ ⟨⟩
    decide
  rintro _ ⟨⟩
  refine ⟨⟨⟨_, rfl, rfl, rfl⟩, ?_⟩, ?_⟩
  · rintro _ ⟨⟩
    decide
  rintro _ ⟨⟩
  refine ⟨⟨⟨_, rfl, rfl, nofun⟩, ?_, fun _ hp => nomatch hp⟩, ?_⟩
  · exact show 9 < 2 ^ 31 by decide
  rintro _ ⟨⟩
  refine ⟨⟨⟨_, rfl, rfl, rfl⟩, ?_⟩, ?_⟩
  · rintro _ ⟨⟩
    decide
  rintro _ ⟨⟩
  trivial

theorem server_echoes_echoEvents : ∃ h : Host Unit Unit,
    run (Host.step echoServer) (Host.init echoServer) echoEvents = some h ∧
      EchoesBack (SocketIdAllocator.getId 2 5) h ∧
      (h.sessions (SocketIdAllocator.getId 2 5)).received = [99, 100] := by
  obtain ⟨h, hrun⟩ : ∃ h : Host Unit Unit,
      run (Host.step echoServer) (Host.init echoServer) echoEvents = some h := ⟨_, rfl⟩
  refine ⟨h, hrun, server_echoes ⟨echoEvents_orderly.mono fun _ _ h => h.1, hrun⟩
    (echoEvents_orderly.mono fun _ _ h => h.2) _, ?_⟩
  cases hrun
  rfl

/-! ## The ring -/

/-- What is under way between a connection of the client and one of the server. -/
def inFlight (toClient toServer : List UInt8) (server client : TcpConnection κ) : List UInt8 :=
  toClient ++ server.writeBuffer ++ toServer ++ client.writeBuffer

/-- **The ring of the two programs.**  `c` is a connection of the client, `d` the connection of the
server at its other end; what the kernel was given at one end and has not been received at the
other is on the way.  The client is told of a connection that is not made at once. -/
theorem ring {message : List UInt8} {serverEvents clientEvents : List (Host.Event Unit)}
    {server client : Host Unit κ} {c d : SocketId}
    {connection peer : TcpConnection κ} {toClient toServer : List UInt8}
    (hserver : Host.Reached echoServer serverEvents server)
    (hserverCopies : EachStep (Host.step echoServer) (fun h e => h.Faithful echoServer e)
      (Host.init echoServer : Host Unit κ) serverEvents)
    (hclient : Host.Reached (echoClient message) clientEvents client)
    (hclientCopies : EachStep (Host.step (echoClient message))
      (fun h e => h.Faithful (echoClient message) e)
      (Host.init (echoClient message) : Host Unit κ) clientEvents)
    (hpeer : server.machine.service.connections d = some peer) (hd : peer.status = .connected)
    (hconnection : client.machine.service.connections c = some connection)
    (hc : connection.status = .connected)
    (hto : sentBytes (client.machine.history c) = (server.sessions d).received ++ toServer)
    (hfrom : sentBytes (server.machine.history d) = (client.sessions c).received ++ toClient) :
    (Echoes message (client.sessions c) ∧
      (inFlight toClient toServer peer connection).IsRotated message ∧
      (message ≠ [] → ∃ n, (client.sessions c).received <+: (List.replicate n message).flatten)) ∨
    Echoes [] (client.sessions c) ∧ inFlight toClient toServer peer connection = [] := by
  have hback := (server_echoes hserver hserverCopies d).connected peer hpeer hd
  have hsaid :=
    (Host.application_stream hclient hclientCopies c).connected connection hconnection hc
  -- once round: client, server, client
  have hround : (client.sessions c).said =
      (client.sessions c).received ++ inFlight toClient toServer peer connection := by
    rw [← hsaid, hto, ← hback, hfrom]
    simp [inFlight]
  rcases Host.session_reached (client_keeps message) hclient hclientCopies c with hecho | hecho
  · refine Or.inl ⟨hecho, ?_, fun hmessage => ?_⟩
    · exact Periodic.isRotated_of_append_eq (hecho.2.symm.trans hround)
    · exact Periodic.prefix_repeat_of_append_eq hmessage (hecho.2.symm.trans hround)
  · refine Or.inr ⟨hecho, ?_⟩
    exact List.append_right_eq_self.1 (hround.symm.trans hecho.2)

/-- The server receives two bytes and sends them back. -/
def roundServerEvents : List (Host.Event Unit) :=
  [.accept 4 [],
    .readable (SocketIdAllocator.getId 0 4) [⟨2, .bytes [97, 98]⟩, ⟨-1, .fails EAGAIN⟩]
      () [.accepts 2 0]]

/-- The client sends two bytes; one comes back and waits in the write buffer. -/
def roundClientEvents : List (Host.Event Unit) :=
  [.asyncConnect 3 0, .writable (SocketIdAllocator.getId 0 3) (.accepts 0 0) 0 [.accepts 2 0],
    .readable (SocketIdAllocator.getId 0 3) [⟨1, .bytes [97]⟩, ⟨-1, .fails EAGAIN⟩]
      () [.fails EAGAIN]]

theorem roundServerEvents_orderly : EachStep (Host.step echoServer)
    (fun h e => h.Enabled e ∧ h.Faithful echoServer e) (Host.init echoServer : Host Unit Unit)
    roundServerEvents := by
  refine ⟨⟨trivial, fun _ hp => nomatch hp⟩, ?_⟩
  rintro _ ⟨⟩
  refine ⟨⟨⟨_, rfl, rfl, rfl⟩, ?_⟩, ?_⟩
  · rintro _ ⟨⟩
    decide
  rintro _ ⟨⟩
  trivial

theorem roundClientEvents_orderly : EachStep (Host.step (echoClient [97, 98]))
    (fun h e => h.Enabled e ∧ h.Faithful (echoClient [97, 98]) e)
    (Host.init (echoClient [97, 98]) : Host Unit Unit) roundClientEvents := by
  refine ⟨⟨trivial, trivial⟩, ?_⟩
  rintro _ ⟨⟩
  refine ⟨⟨⟨_, rfl, rfl, nofun⟩, ?_, ?_⟩, ?_⟩
  · exact show 0 < 2 ^ 31 by decide
  · decide
  rintro _ ⟨⟩
  refine ⟨⟨⟨_, rfl, rfl, rfl⟩, ?_⟩, ?_⟩
  · rintro _ ⟨⟩
    decide
  rintro _ ⟨⟩
  trivial

theorem ring_round : ∃ (server client : Host Unit Unit) (connection peer : TcpConnection Unit),
    run (Host.step echoServer) (Host.init echoServer) roundServerEvents = some server ∧
    run (Host.step (echoClient [97, 98])) (Host.init (echoClient [97, 98])) roundClientEvents =
      some client ∧
    server.machine.service.connections (SocketIdAllocator.getId 0 4) = some peer ∧
    client.machine.service.connections (SocketIdAllocator.getId 0 3) = some connection ∧
    (inFlight [98] [] peer connection).IsRotated [97, 98] := by
  obtain ⟨server, hserver⟩ : ∃ h : Host Unit Unit,
      run (Host.step echoServer) (Host.init echoServer) roundServerEvents = some h := ⟨_, rfl⟩
  obtain ⟨client, hclient⟩ : ∃ h : Host Unit Unit, run (Host.step (echoClient [97, 98]))
      (Host.init (echoClient [97, 98])) roundClientEvents = some h := ⟨_, rfl⟩
  have hs := hserver
  have hc := hclient
  cases hs
  cases hc
  refine ⟨_, _, _, _, hserver, hclient, rfl, rfl, ?_⟩
  have h := ring (c := SocketIdAllocator.getId 0 3) (d := SocketIdAllocator.getId 0 4)
    ⟨roundServerEvents_orderly.mono fun _ _ h => h.1, hserver⟩
    (roundServerEvents_orderly.mono fun _ _ h => h.2)
    ⟨roundClientEvents_orderly.mono fun _ _ h => h.1, hclient⟩
    (roundClientEvents_orderly.mono fun _ _ h => h.2) rfl rfl rfl rfl
    (List.append_nil _).symm rfl
  rcases h with ⟨-, h, -⟩ | ⟨-, h⟩
  · exact h
  · cases h

end Echo

end Brickred
