import Brickred.TcpService.Model

/-!
# Every connection has its socket

* `Coherent` — no connection holds a pointer to a socket that is gone.  Every function of the
  service keeps it.
* `step_defined` — so no step of the service is undefined.
-/

set_option autoImplicit false

namespace Brickred

namespace TcpService

variable {κ : Type}

/-- No connection holds a pointer to a socket that is gone. -/
def Coherent (s : TcpService κ) : Prop := ∀ id, (s.connections id).isSome → (s.sockets id).isSome

namespace Coherent

variable {s s' : TcpService κ} {id : SocketId}

theorem init : Coherent (TcpService.init : TcpService κ) := fun _ h => by cases h

theorem congr (hs : Coherent s) (hc : s'.connections = s.connections)
    (hsock : s'.sockets = s.sockets) : Coherent s' := by
  intro id h
  rw [hc] at h
  rw [hsock]
  exact hs id h

theorem setSocket (hs : Coherent s) (socket : TcpSocket) : Coherent (s.setSocket id socket) := by
  intro i h
  rw [setSocket_sockets]
  by_cases heq : i = id
  · subst heq
    rw [Function.update_self]; rfl
  · rw [Function.update_of_ne heq]
    exact hs i h

theorem setConnection (hs : Coherent s) (hsock : (s.sockets id).isSome)
    (connection : TcpConnection κ) : Coherent (s.setConnection id connection) := by
  intro i h
  rw [setConnection_connections] at h
  rw [setConnection_sockets]
  by_cases heq : i = id
  · subst heq
    exact hsock
  · rw [Function.update_of_ne heq] at h
    exact hs i h

theorem closeSocket (hs : Coherent s) : Coherent (s.closeSocket id) := by
  intro i h
  rw [closeSocket_connections] at h
  rw [closeSocket_sockets]
  by_cases heq : i = id
  · subst heq
    rw [Function.update_self] at h
    cases h
  · rw [Function.update_of_ne heq] at h ⊢
    exact hs i h

theorem call (hs : Coherent s) (sendCompleteCb : SendCompleteCallback κ) :
    Coherent (s.call id sendCompleteCb) := by
  cases sendCompleteCb with
  | null => exact hs
  | user cb => exact hs
  | close => exact hs.closeSocket

theorem open_socket (hs : Coherent s) {connection : TcpConnection κ}
    (h : s.connections id = some connection) : (s.sockets id).isSome := hs id (by rw [h]; rfl)

/-- Opening a socket and its connection. -/
theorem opening (hs : Coherent s) (socket : TcpSocket) (connection : TcpConnection κ) :
    Coherent ((s.setSocket id socket).setConnection id connection) :=
  (hs.setSocket socket).setConnection (by
    rw [setSocket_sockets, Function.update_self]; rfl) connection

theorem buildListenSocket (hs : Coherent s) (fd : Int) : Coherent (s.buildListenSocket fd) := by
  unfold TcpService.buildListenSocket
  dsimp only
  split
  · exact hs.congr rfl rfl
  · exact (hs.congr rfl rfl : Coherent s.countSocket).setSocket _

theorem buildConnectedSocket (hs : Coherent s) (fd : Int) :
    Coherent (s.buildConnectedSocket fd) := by
  unfold TcpService.buildConnectedSocket
  split
  · exact hs.congr rfl rfl
  · exact (hs.congr rfl rfl : Coherent s.countSocket).opening _ _

theorem buildAsyncConnectSocket (hs : Coherent s) (fd timeoutMs : Int) :
    Coherent (s.buildAsyncConnectSocket fd timeoutMs) := by
  unfold TcpService.buildAsyncConnectSocket
  split
  · exact hs.congr rfl rfl
  · dsimp only
    split
    · exact (hs.congr rfl rfl : Coherent (s.countSocket.addSocketTimer _ _)).opening _ _
    · exact (hs.congr rfl rfl : Coherent s.countSocket).opening _ _

theorem sendOn (hs : Coherent s) {connection : TcpConnection κ}
    (h : s.connections id = some connection) (buffer : List UInt8)
    (sendCompleteCb : SendCompleteCallback κ) (kernel : SendResult) :
    ∃ s', s.sendOn id connection buffer sendCompleteCb kernel = some s' ∧ Coherent s' := by
  obtain ⟨socket, hsock⟩ := Option.isSome_iff_exists.1 (hs.open_socket h)
  unfold TcpService.sendOn
  rw [hsock]
  simp only [bind, Option.bind_some]
  generalize connection.sendMessage _ buffer sendCompleteCb kernel = r
  obtain ⟨connection', outcome⟩ := r
  have hset : Coherent (s.setConnection id connection') :=
    hs.setConnection (hs.open_socket h) connection'
  cases outcome with
  | refused => exact ⟨_, rfl, hset⟩
  | failed errno => exact ⟨_, rfl, hset.congr rfl rfl⟩
  | queued => exact ⟨_, rfl, hset.setSocket _⟩
  | complete => exact ⟨_, rfl, hset.call _⟩

theorem onSocketWrite (hs : Coherent s) (socket : TcpSocket) (kernel : SendResult) :
    Coherent (s.onSocketWrite id socket kernel) := by
  unfold TcpService.onSocketWrite
  split
  · exact hs
  · rename_i connection h
    dsimp only
    generalize connection.onSocketWrite kernel = r
    obtain ⟨connection', outcome⟩ := r
    have hset : Coherent (s.setConnection id connection') :=
      hs.setConnection (hs.open_socket h) connection'
    cases outcome with
    | failed errno => exact hset
    | pending => exact hset
    | drained sendCompleteCb => exact (hset.setSocket _).call _

theorem onAsyncConnectSocketWrite (hs : Coherent s) (socket : TcpSocket) (socketError : Int) :
    Coherent (s.onAsyncConnectSocketWrite id socket socketError) := by
  have hrem : Coherent (s.removeSocketTimer id) :=
    hs.congr (removeSocketTimer_connections s id) (removeSocketTimer_sockets s id)
  unfold TcpService.onAsyncConnectSocketWrite
  dsimp only
  split
  · exact hrem
  · rename_i connection h
    split
    · exact hrem.setConnection (hrem.open_socket h) _
    · exact hrem.opening _ _

theorem onSocketRead (hs : Coherent s) (readEnd : ReadEnd) :
    Coherent (s.onSocketRead id readEnd) := by
  unfold TcpService.onSocketRead
  split
  · exact hs
  · exact hs
  · rename_i h
    exact hs.setConnection (hs.open_socket h) _
  · rename_i h
    exact hs.setConnection (hs.open_socket h) _

theorem onSocketError (hs : Coherent s) (socketError errno : Int) :
    Coherent (s.onSocketError id socketError errno) := by
  unfold TcpService.onSocketError
  split
  · exact hs
  · rename_i h
    exact hs.setConnection (hs.open_socket h) _

theorem onAsyncConnectTimeout (hs : Coherent s) (timerId : TimerId) :
    Coherent (s.onAsyncConnectTimeout timerId) := by
  unfold TcpService.onAsyncConnectTimeout takeSocketTimer
  cases s.timerToSocketMap timerId with
  | none => exact hs
  | some id =>
    dsimp only [Option.map_some]
    split
    · exact Coherent.opening (hs.congr rfl rfl) _ _
    · exact hs.congr rfl rfl

theorem onSendMessageError (hs : Coherent s) (timerId : TimerId) :
    Coherent (s.onSendMessageError timerId) := by
  unfold TcpService.onSendMessageError takeSocketTimer
  cases s.timerToSocketMap timerId with
  | none => exact hs
  | some id => exact hs.congr rfl rfl

theorem setContext (hs : Coherent s) (context : Addr) : Coherent (s.setContext id context) := by
  unfold TcpService.setContext
  split
  · exact hs
  · exact hs.congr rfl rfl

end Coherent

section Defined

variable {m : Machine κ}

theorem sendMessage_defined (hm : Coherent m.service) (id : SocketId) (buffer : List UInt8)
    (sendCompleteCb : SendCompleteCallback κ) (kernel : SendResult) :
    ∃ m', m.sendMessage id buffer sendCompleteCb kernel = some m' ∧ Coherent m'.service := by
  unfold Machine.sendMessage
  split
  · exact ⟨m, rfl, hm⟩
  · rename_i connection h
    obtain ⟨s', hs', hcoh⟩ := hm.sendOn h buffer sendCompleteCb kernel
    exact ⟨_, by rw [hs', Option.map_some], hcoh⟩

theorem broadcastMessage_defined (buffer : List UInt8) (kernel : SocketId → SendResult) :
    ∀ (order : List SocketId) {m : Machine κ}, Coherent m.service →
      ∃ m', Machine.broadcastMessage buffer kernel order m = some m' ∧ Coherent m'.service
  | [], m, hm => ⟨m, rfl, hm⟩
  | id :: order, m, hm => by
    obtain ⟨m₁, hm₁, hcoh⟩ := sendMessage_defined hm id buffer .null (kernel id)
    obtain ⟨m', hm', hcoh'⟩ := broadcastMessage_defined buffer kernel order hcoh
    exact ⟨m', by rw [Machine.broadcastMessage, hm₁]; exact hm', hcoh'⟩

/-- **No step of the service is undefined.** -/
theorem step_defined {op : Op κ} (hm : Coherent m.service) (hE : m.Enabled op) :
    ∃ m', m.step op = some m' ∧ Coherent m'.service := by
  cases op with
  | buildListenSocket fd => exact ⟨_, rfl, hm.buildListenSocket fd⟩
  | buildConnectedSocket fd =>
    refine ⟨_, rfl, ?_⟩
    cases m.service.newSocketId fd <;> exact hm.buildConnectedSocket fd
  | buildAsyncConnectSocket fd timeoutMs =>
    refine ⟨_, rfl, ?_⟩
    cases m.service.newSocketId fd <;> exact hm.buildAsyncConnectSocket fd timeoutMs
  | sendMessage id buffer sendCompleteCb kernel =>
    exact sendMessage_defined hm id buffer sendCompleteCb kernel
  | broadcastMessage buffer order kernel => exact broadcastMessage_defined buffer kernel order hm
  | closeSocket id => exact ⟨_, rfl, hm.closeSocket⟩
  | setContext id context => exact ⟨_, rfl, hm.setContext context⟩
  | setSendBufferMaxSize size => exact ⟨_, rfl, hm.congr rfl rfl⟩
  | writable id kernel socketError =>
    obtain ⟨socket, hsock, _, hcb⟩ := hE
    simp only [Machine.step, Machine.writable, hsock, bind, Option.bind_some]
    cases hw : socket.writeCb with
    | null => exact absurd hw hcb
    | onAsyncConnectSocketWrite => exact ⟨_, rfl, hm.onAsyncConnectSocketWrite socket socketError⟩
    | onSocketWrite => exact ⟨_, rfl, hm.onSocketWrite socket kernel⟩
  | readable id readEnd => exact ⟨_, rfl, hm.onSocketRead readEnd⟩
  | socketError id socketError errno => exact ⟨_, rfl, hm.onSocketError socketError errno⟩
  | timeout timerId =>
    obtain ⟨timerCb, hcb⟩ := Option.isSome_iff_exists.1 hE
    have hstop : Coherent { m.service with ioService := m.service.ioService.stopTimer timerId } :=
      hm.congr rfl rfl
    simp only [Machine.step, Machine.timeout, hcb, bind, Option.bind_some]
    cases timerCb with
    | onAsyncConnectTimeout =>
      exact ⟨_, rfl, hstop.onAsyncConnectTimeout timerId⟩
    | onSendMessageError => exact ⟨_, rfl, hstop.onSendMessageError timerId⟩

end Defined

end TcpService

end Brickred
