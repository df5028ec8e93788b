import Brickred.TcpService.Transfer

/-!
# Reading begins with the connection

A socket that is being connected has no read callback: `onAsyncConnectSocketWrite` sets it, with
the status.

* `Unread` — no such socket has one.
* `unread_step` — every step of the service keeps it so.
-/

set_option autoImplicit false

namespace Brickred

namespace TcpService

variable {κ : Type}

/-- A socket that is being connected has no read callback yet. -/
def Unread (s : TcpService κ) : Prop :=
  ∀ id socket, s.sockets id = some socket → socket.writeCb = .onAsyncConnectSocketWrite →
    socket.readCb = .null

namespace Unread

variable {s s' : TcpService κ} {id : SocketId} {socket : TcpSocket}

theorem congr (hs : Unread s) (h : s'.sockets = s.sockets) : Unread s' := by
  intro i socket hsock
  rw [h] at hsock
  exact hs i socket hsock

theorem update (hs : Unread s) {o : Option TcpSocket}
    (h : s'.sockets = Function.update s.sockets id o)
    (ho : ∀ socket, o = some socket → socket.writeCb = .onAsyncConnectSocketWrite →
      socket.readCb = .null) : Unread s' := by
  intro i socket hsock
  rw [h] at hsock
  by_cases heq : i = id
  · subst heq
    rw [Function.update_self] at hsock
    exact ho socket hsock
  · rw [Function.update_of_ne heq] at hsock
    exact hs i socket hsock

theorem closeSocket (hs : Unread s) : Unread (s.closeSocket id) :=
  hs.update (closeSocket_sockets s id) nofun

theorem setSocket (hs : Unread s)
    (h : socket.writeCb = .onAsyncConnectSocketWrite → socket.readCb = .null) :
    Unread (s.setSocket id socket) := by
  refine hs.update (setSocket_sockets s id socket) ?_
  rintro _ ⟨⟩
  exact h

theorem setConnection (hs : Unread s) (connection : TcpConnection κ) :
    Unread (s.setConnection id connection) := hs.congr rfl

theorem call (hs : Unread s) (sendCompleteCb : SendCompleteCallback κ) :
    Unread (s.call id sendCompleteCb) := by
  cases sendCompleteCb with
  | null => exact hs
  | user cb => exact hs
  | close => exact hs.closeSocket

theorem sendOn (hs : Unread s) {connection : TcpConnection κ} {buffer : List UInt8}
    {sendCompleteCb : SendCompleteCallback κ} {kernel : SendResult}
    (h : s.sendOn id connection buffer sendCompleteCb kernel = some s') : Unread s' := by
  unfold TcpService.sendOn at h
  obtain ⟨socket, -, h⟩ := Option.bind_eq_some_iff.1 h
  dsimp only at h
  split at h
  · cases h; exact hs.setConnection _
  · cases h; exact hs.congr rfl
  · cases h; exact (hs.setConnection _).setSocket nofun
  · cases h; exact (hs.setConnection _).call _

theorem onSocketWrite (hs : Unread s) (socket : TcpSocket) (kernel : SendResult) :
    Unread (s.onSocketWrite id socket kernel) := by
  unfold TcpService.onSocketWrite
  split
  · exact hs
  · dsimp only
    split
    · exact hs.setConnection _
    · exact hs.setConnection _
    · exact ((hs.setConnection _).setSocket fun hcb => by cases hcb).call _

theorem onAsyncConnectSocketWrite (hs : Unread s) (socket : TcpSocket) (socketError : Int) :
    Unread (s.onAsyncConnectSocketWrite id socket socketError) := by
  have hrem : Unread (s.removeSocketTimer id) := hs.congr (removeSocketTimer_sockets s id)
  unfold TcpService.onAsyncConnectSocketWrite
  dsimp only
  split
  · exact hrem
  · split
    · exact hrem.setConnection _
    · exact (hrem.setSocket fun hcb => by cases hcb).setConnection _

theorem onSocketRead (hs : Unread s) (readEnd : ReadEnd) : Unread (s.onSocketRead id readEnd) := by
  unfold TcpService.onSocketRead
  split
  · exact hs
  · exact hs
  · exact hs.setConnection _
  · exact hs.setConnection _

theorem onSocketError (hs : Unread s) (socketError errno : Int) :
    Unread (s.onSocketError id socketError errno) := by
  unfold TcpService.onSocketError
  split
  · exact hs
  · exact hs.setConnection _

theorem onAsyncConnectTimeout (hs : Unread s) (timerId : TimerId) :
    Unread (s.onAsyncConnectTimeout timerId) := by
  unfold TcpService.onAsyncConnectTimeout takeSocketTimer
  cases s.timerToSocketMap timerId with
  | none => exact hs
  | some id =>
    dsimp only [Option.map_some]
    split
    · rename_i socket connection hsock hconn
      have htaken : Unread { s with
          timerToSocketMap := Function.update s.timerToSocketMap timerId none
          socketToTimerMap := Function.update s.socketToTimerMap id none } := hs.congr rfl
      refine (Unread.setSocket htaken ?_).setConnection _
      exact hs id socket hsock
    · exact hs.congr rfl

theorem onSendMessageError (hs : Unread s) (timerId : TimerId) :
    Unread (s.onSendMessageError timerId) := by
  unfold TcpService.onSendMessageError takeSocketTimer
  cases s.timerToSocketMap timerId with
  | none => exact hs
  | some id => exact hs.congr rfl

theorem buildListenSocket (hs : Unread s) (fd : Int) : Unread (s.buildListenSocket fd) := by
  unfold TcpService.buildListenSocket
  dsimp only
  split
  · exact hs.congr rfl
  · exact (hs.congr rfl : Unread s.countSocket).setSocket nofun

theorem buildConnectedSocket (hs : Unread s) (fd : Int) : Unread (s.buildConnectedSocket fd) := by
  unfold TcpService.buildConnectedSocket
  split
  · exact hs.congr rfl
  · have hcount : Unread s.countSocket := hs.congr rfl
    exact (hcount.setSocket fun hcb => by cases hcb).setConnection _

theorem buildAsyncConnectSocket (hs : Unread s) (fd timeoutMs : Int) :
    Unread (s.buildAsyncConnectSocket fd timeoutMs) := by
  have hcount : Unread s.countSocket := hs.congr rfl
  unfold TcpService.buildAsyncConnectSocket
  split
  · exact hcount
  · dsimp only
    split
    · exact ((hcount.congr rfl : Unread (s.countSocket.addSocketTimer _ _)).setSocket
        fun _ => rfl).setConnection _
    · exact (hcount.setSocket fun _ => rfl).setConnection _

theorem setContext (hs : Unread s) (context : Addr) : Unread (s.setContext id context) := by
  unfold TcpService.setContext
  split
  · exact hs
  · exact hs.congr rfl

end Unread

section UnreadSteps

variable {m m' : Machine κ}

theorem unread_sendMessage (hm : Unread m.service) {id : SocketId} {buffer : List UInt8}
    {sendCompleteCb : SendCompleteCallback κ} {kernel : SendResult}
    (h : m.sendMessage id buffer sendCompleteCb kernel = some m') : Unread m'.service := by
  unfold Machine.sendMessage at h
  split at h
  · cases h
    exact hm
  · obtain ⟨s, hs, rfl⟩ := Option.map_eq_some_iff.1 h
    exact hm.sendOn hs

theorem unread_broadcastMessage {buffer : List UInt8} {kernel : SocketId → SendResult} :
    ∀ {order : List SocketId} {m : Machine κ}, Unread m.service →
      Machine.broadcastMessage buffer kernel order m = some m' → Unread m'.service
  | [], _, hm, h => by
    cases h
    exact hm
  | id :: order, m, hm, h => by
    obtain ⟨m₁, hm₁, h⟩ := Option.bind_eq_some_iff.1 h
    exact unread_broadcastMessage (unread_sendMessage hm hm₁) h

theorem unread_step (hm : Unread m.service) {op : Op κ} (h : m.step op = some m') :
    Unread m'.service := by
  cases op with
  | buildListenSocket fd => cases h; exact hm.buildListenSocket fd
  | buildConnectedSocket fd =>
    cases h
    cases m.service.newSocketId fd <;> exact hm.buildConnectedSocket fd
  | buildAsyncConnectSocket fd timeoutMs =>
    cases h
    cases m.service.newSocketId fd <;> exact hm.buildAsyncConnectSocket fd timeoutMs
  | sendMessage id buffer sendCompleteCb kernel => exact unread_sendMessage hm h
  | broadcastMessage buffer order kernel => exact unread_broadcastMessage hm h
  | closeSocket id => cases h; exact hm.closeSocket
  | setContext id context => cases h; exact hm.setContext context
  | setSendBufferMaxSize size => cases h; exact hm.congr rfl
  | writable id kernel socketError =>
    obtain ⟨socket, -, h⟩ := Option.bind_eq_some_iff.1 h
    split at h
    · cases h
    · cases h; exact hm.onAsyncConnectSocketWrite socket socketError
    · cases h; exact hm.onSocketWrite socket kernel
  | readable id readEnd => cases h; exact hm.onSocketRead readEnd
  | socketError id socketError errno => cases h; exact hm.onSocketError socketError errno
  | timeout timerId =>
    obtain ⟨timerCb, -, h⟩ := Option.bind_eq_some_iff.1 h
    have hstop : Unread { m.service with ioService := m.service.ioService.stopTimer timerId } :=
      hm.congr rfl
    cases timerCb with
    | onAsyncConnectTimeout => cases h; exact hstop.onAsyncConnectTimeout timerId
    | onSendMessageError => cases h; exact hstop.onSendMessageError timerId

end UnreadSteps

end TcpService

end Brickred
