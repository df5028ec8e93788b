import Brickred.Lib.Runs
import Brickred.TcpService.Coherence

/-!
# One connection of the service

What the claims about a connection need of the service is a channel: the connection, if it is
open, and what has happened on it.  The other sockets, the timers and the callbacks' tables
do not matter to it.

* `Channel.step` — a channel that is opened, sends, becomes writable, is closed or changes its
  status.
* `view_step` — **every step of the service is a step of each channel**: the one `project` names.
* `along_channel`, `along_channel_iff` — the invariant rules of `Runs`, for a property of one
  channel in a run of the service.
-/

set_option autoImplicit false

namespace Brickred

namespace TcpService

variable {κ : Type}

/-- A connection, and the write callback of its socket. -/
structure Link (κ : Type) where
  connection : Option (TcpConnection κ)
  writeCb : WriteCallback

structure Channel (κ : Type) where
  link : Link κ
  history : List (Effect κ)

namespace Channel

inductive Op (κ : Type) where
  | idle
  /-- opened by `buildConnectedSocket` -/
  | connected
  /-- opened by `buildAsyncConnectSocket` -/
  | connecting
  | send (maxSize : Nat) (buffer : List UInt8) (sendCompleteCb : SendCompleteCallback κ)
      (kernel : SendResult)
  | writable (kernel : SendResult) (socketError : Int)
  | close
  | peerClose
  | setError (errorCode : Int)

/-- What is left once the callback has been called. -/
def called (connection : TcpConnection κ) (writeCb : WriteCallback) :
    SendCompleteCallback κ → Link κ
  | .null => ⟨some connection, writeCb⟩
  | .user _ => ⟨some connection, writeCb⟩
  | .close => ⟨none, .null⟩

/-- What a call of `sendMessage` leaves. -/
def afterSend (connection : TcpConnection κ) (writeCb : WriteCallback) (maxSize : Nat)
    (buffer : List UInt8) (sendCompleteCb : SendCompleteCallback κ) (kernel : SendResult) :
    Link κ :=
  let r := connection.sendMessage maxSize buffer sendCompleteCb kernel
  match r.2 with
  | .refused => ⟨some r.1, writeCb⟩
  | .failed _ => ⟨some r.1, writeCb⟩
  | .queued => ⟨some r.1, .onSocketWrite⟩
  | .complete => called r.1 writeCb sendCompleteCb

/-- What a call of `onSocketWrite` leaves. -/
def afterWrite (connection : TcpConnection κ) (kernel : SendResult) : Link κ :=
  let r := connection.onSocketWrite kernel
  match r.2 with
  | .failed _ => ⟨some r.1, .onSocketWrite⟩
  | .pending => ⟨some r.1, .onSocketWrite⟩
  | .drained sendCompleteCb => called r.1 .null sendCompleteCb

/-- What a call of `onAsyncConnectSocketWrite` leaves. -/
def afterConnect (connection : TcpConnection κ) (socketError : Int) : Link κ :=
  if socketError ≠ 0 then ⟨some (connection.setError socketError), .onAsyncConnectSocketWrite⟩
  else ⟨some { connection with status := .connected }, .null⟩

def step : Channel κ → Op κ → Channel κ
  | ch, .idle => ch
  | _, .connected => ⟨⟨some (.new .connected), .null⟩, []⟩
  | _, .connecting => ⟨⟨some (.new .connecting), .onAsyncConnectSocketWrite⟩, []⟩
  | ⟨_, history⟩, .close => ⟨⟨none, .null⟩, history⟩
  | ⟨⟨none, writeCb⟩, history⟩, _ => ⟨⟨none, writeCb⟩, history⟩
  | ⟨⟨some connection, writeCb⟩, history⟩, .send maxSize buffer sendCompleteCb kernel =>
    ⟨afterSend connection writeCb maxSize buffer sendCompleteCb kernel,
      history ++ connection.sendEffects maxSize buffer sendCompleteCb kernel⟩
  | ⟨⟨some connection, .onSocketWrite⟩, history⟩, .writable kernel _ =>
    ⟨afterWrite connection kernel, history ++ connection.writeEffects kernel⟩
  | ⟨⟨some connection, .onAsyncConnectSocketWrite⟩, history⟩, .writable _ socketError =>
    ⟨afterConnect connection socketError, history⟩
  | ⟨⟨some connection, .null⟩, history⟩, .writable _ _ => ⟨⟨some connection, .null⟩, history⟩
  | ⟨⟨some connection, writeCb⟩, history⟩, .peerClose =>
    ⟨⟨some { connection with status := .peerClosed }, writeCb⟩, history⟩
  | ⟨⟨some connection, writeCb⟩, history⟩, .setError errorCode =>
    ⟨⟨some (connection.setError errorCode), writeCb⟩, history⟩

end Channel

/-! ## The channel of an id -/

def writeCbOf : Option TcpSocket → WriteCallback
  | none => .null
  | some socket => socket.writeCb

def link (s : TcpService κ) (id : SocketId) : Link κ := ⟨s.connections id, writeCbOf (s.sockets id)⟩

def Machine.view (c : SocketId) (m : Machine κ) : Channel κ := ⟨m.service.link c, m.history c⟩

def projectReadable : ReadEnd → Channel.Op κ
  | .drained => .idle
  | .peerClose => .peerClose
  | .failed errno => .setError errno

def projectTimeout (c : SocketId) (s : TcpService κ) (timerId : TimerId) :
    TimerCallback → Channel.Op κ
  | .onAsyncConnectTimeout =>
    if s.timerToSocketMap timerId = some c ∧ (s.sockets c).isSome then .setError ETIMEDOUT
    else .idle
  | .onSendMessageError => .idle

/-- What a step of the service is for the channel `c`. -/
def Machine.project (c : SocketId) (m : Machine κ) : Op κ → Channel.Op κ
  | .buildConnectedSocket fd =>
    if m.service.newSocketId fd = some c then .connected else .idle
  | .buildAsyncConnectSocket fd _ =>
    if m.service.newSocketId fd = some c then .connecting else .idle
  | .sendMessage id buffer sendCompleteCb kernel =>
    if id = c then .send m.service.connWriteBufferMaxSize buffer sendCompleteCb kernel else .idle
  | .broadcastMessage buffer _ kernel =>
    .send m.service.connWriteBufferMaxSize buffer .null (kernel c)
  | .closeSocket id => if id = c then .close else .idle
  | .writable id kernel socketError => if id = c then .writable kernel socketError else .idle
  | .readable id readEnd => if id = c then projectReadable readEnd else .idle
  | .socketError id socketError errno =>
    if id = c then .setError (if socketError = 0 then errno else socketError) else .idle
  | .timeout timerId =>
    match m.service.ioService.timers timerId with
    | none => .idle
    | some timerCb => projectTimeout c m.service timerId timerCb
  | .buildListenSocket _ => .idle
  | .setContext _ _ => .idle
  | .setSendBufferMaxSize _ => .idle

/-! ## Each function of the service, on the links -/

section Functions

variable {s s' : TcpService κ} {id : SocketId} {connection : TcpConnection κ} {socket : TcpSocket}

theorem link_congr (hc : s'.connections = s.connections) (hs : s'.sockets = s.sockets) :
    s'.link = s.link := by
  unfold link
  rw [hc, hs]

theorem link_update {o : Option (TcpConnection κ)} {o' : Option TcpSocket}
    {writeCb : WriteCallback} (hc : s'.connections = Function.update s.connections id o)
    (hs : s'.sockets = Function.update s.sockets id o') (hw : writeCbOf o' = writeCb) :
    s'.link = Function.update s.link id ⟨o, writeCb⟩ := by
  subst hw
  funext i
  unfold link
  rw [hc, hs]
  by_cases heq : i = id
  · subst heq
    rw [Function.update_self, Function.update_self, Function.update_self]
  · rw [Function.update_of_ne heq, Function.update_of_ne heq, Function.update_of_ne heq]

theorem link_setConnection (s : TcpService κ) (id : SocketId) (connection : TcpConnection κ) :
    (s.setConnection id connection).link =
      Function.update s.link id ⟨some connection, (s.link id).writeCb⟩ :=
  link_update rfl (Function.update_eq_self id s.sockets).symm rfl

theorem link_setSocket (s : TcpService κ) (id : SocketId) (socket : TcpSocket) :
    (s.setSocket id socket).link =
      Function.update s.link id ⟨(s.link id).connection, socket.writeCb⟩ :=
  link_update (Function.update_eq_self id s.connections).symm (setSocket_sockets s id socket) rfl

theorem link_closeSocket (s : TcpService κ) (id : SocketId) :
    (s.closeSocket id).link = Function.update s.link id ⟨none, .null⟩ :=
  link_update (closeSocket_connections s id) (closeSocket_sockets s id) rfl

theorem link_opening (hl : s'.link = s.link) (socket : TcpSocket)
    (connection : TcpConnection κ) :
    ((s'.setSocket id socket).setConnection id connection).link =
      Function.update s.link id ⟨some connection, socket.writeCb⟩ := by
  rw [link_setConnection, link_setSocket, hl, Function.update_idem, Function.update_self]

theorem link_of_connection (h : s.connections id = some connection) :
    s.link id = ⟨some connection, (s.link id).writeCb⟩ := by
  unfold link
  rw [h]

theorem link_of_socket (h : s.sockets id = some socket) : (s.link id).writeCb = socket.writeCb := by
  unfold link
  rw [h]
  rfl

theorem link_of_none (h : s.connections id = none) :
    s.link id = ⟨none, (s.link id).writeCb⟩ := by
  unfold link
  rw [h]

/-- Calling a callback changes no other link. -/
theorem link_call {writeCb : WriteCallback} (h : s.link id = ⟨some connection, writeCb⟩)
    (sendCompleteCb : SendCompleteCallback κ) :
    (s.call id sendCompleteCb).link =
      Function.update s.link id (Channel.called connection writeCb sendCompleteCb) := by
  cases sendCompleteCb with
  | null => rw [Channel.called, ← h, Function.update_eq_self]; rfl
  | user cb => rw [Channel.called, ← h, Function.update_eq_self]; rfl
  | close => exact link_closeSocket s id

theorem link_sendOn {maxSize : Nat} {buffer : List UInt8}
    {sendCompleteCb : SendCompleteCallback κ} {kernel : SendResult}
    (hmax : s.connWriteBufferMaxSize = maxSize)
    (h : s.sendOn id connection buffer sendCompleteCb kernel = some s') :
    s'.link = Function.update s.link id (Channel.afterSend connection (s.link id).writeCb maxSize
      buffer sendCompleteCb kernel) := by
  subst hmax
  unfold sendOn at h
  obtain ⟨socket, _, h⟩ := Option.bind_eq_some_iff.1 h
  unfold Channel.afterSend
  generalize connection.sendMessage _ buffer sendCompleteCb kernel = r at h ⊢
  obtain ⟨connection', outcome⟩ := r
  have hset := link_setConnection s id connection'
  cases outcome with
  | refused => cases h; exact hset
  | failed errno => cases h; exact (link_congr rfl rfl).trans hset
  | queued =>
    cases h
    rw [link_setSocket, hset, Function.update_idem, Function.update_self]
  | complete =>
    cases h
    dsimp only
    rw [link_call (by rw [hset, Function.update_self]), hset, Function.update_idem]

theorem link_onSocketWrite (hcon : s.connections id = some connection)
    (hsock : s.sockets id = some socket) (hcb : socket.writeCb = .onSocketWrite)
    (kernel : SendResult) :
    (s.onSocketWrite id socket kernel).link =
      Function.update s.link id (Channel.afterWrite connection kernel) := by
  unfold onSocketWrite Channel.afterWrite
  rw [hcon]
  dsimp only
  generalize connection.onSocketWrite kernel = r
  obtain ⟨connection', outcome⟩ := r
  have hset := link_setConnection s id connection'
  rw [link_of_socket hsock, hcb] at hset
  cases outcome with
  | failed errno => exact hset
  | pending => exact hset
  | drained sendCompleteCb =>
    dsimp only
    have hnull : ((s.setConnection id connection').setSocket id
        { socket with writeCb := .null }).link =
        Function.update s.link id ⟨some connection', .null⟩ := by
      rw [link_setSocket, hset, Function.update_idem, Function.update_self]
    rw [link_call (by rw [hnull, Function.update_self]), hnull, Function.update_idem]

theorem call_maxSize (s : TcpService κ) (id : SocketId) (sendCompleteCb : SendCompleteCallback κ) :
    (s.call id sendCompleteCb).connWriteBufferMaxSize = s.connWriteBufferMaxSize := by
  cases sendCompleteCb <;> rfl

theorem sendOn_maxSize {buffer : List UInt8} {sendCompleteCb : SendCompleteCallback κ}
    {kernel : SendResult} (h : s.sendOn id connection buffer sendCompleteCb kernel = some s') :
    s'.connWriteBufferMaxSize = s.connWriteBufferMaxSize := by
  unfold sendOn at h
  obtain ⟨socket, _, h⟩ := Option.bind_eq_some_iff.1 h
  dsimp only at h
  split at h
  · cases h; rfl
  · cases h; rfl
  · cases h; rfl
  · cases h; exact call_maxSize _ _ _

/-- A listening socket has no write callback, as a free id has none. -/
theorem link_buildListenSocket (s : TcpService κ) (fd : Int) :
    (s.buildListenSocket fd).link = s.link := by
  unfold buildListenSocket
  dsimp only
  have hcount : s.countSocket.link = s.link := link_congr rfl rfl
  split
  · exact hcount
  · rename_i hnone
    have hfree : writeCbOf
        (s.countSocket.sockets (SocketIdAllocator.getId s.socketIdAllocator fd)) = .null := by
      rw [Option.not_isSome_iff_eq_none.1 hnone]; rfl
    rw [link_setSocket, ← hcount]
    refine Eq.trans ?_ (Function.update_eq_self
      (SocketIdAllocator.getId s.socketIdAllocator fd) s.countSocket.link)
    congr 1
    unfold link
    rw [hfree]

theorem link_buildConnectedSocket {fd : Int} (h : s.newSocketId fd = some id) :
    (s.buildConnectedSocket fd).link =
      Function.update s.link id ⟨some (.new .connected), .null⟩ := by
  unfold buildConnectedSocket
  rw [h]
  exact link_opening (link_congr rfl rfl) _ _

theorem link_buildAsyncConnectSocket {fd timeoutMs : Int} (h : s.newSocketId fd = some id) :
    (s.buildAsyncConnectSocket fd timeoutMs).link =
      Function.update s.link id ⟨some (.new .connecting), .onAsyncConnectSocketWrite⟩ := by
  unfold buildAsyncConnectSocket
  rw [h]
  dsimp only
  split <;> exact link_opening (link_congr rfl rfl) _ _

theorem link_onAsyncConnectSocketWrite (hcon : s.connections id = some connection)
    (hsock : s.sockets id = some socket) (hcb : socket.writeCb = .onAsyncConnectSocketWrite)
    (socketError : Int) :
    (s.onAsyncConnectSocketWrite id socket socketError).link =
      Function.update s.link id (Channel.afterConnect connection socketError) := by
  have hrem : (s.removeSocketTimer id).link = s.link :=
    link_congr (removeSocketTimer_connections s id) (removeSocketTimer_sockets s id)
  unfold onAsyncConnectSocketWrite Channel.afterConnect
  dsimp only
  rw [removeSocketTimer_connections, hcon]
  dsimp only
  split
  · rw [link_setConnection, hrem, link_of_socket hsock, hcb]
  · exact link_opening hrem _ _

/-- What the events that only touch the connection do to a link. -/
def Link.edit (l : Link κ) (f : TcpConnection κ → TcpConnection κ) : Link κ :=
  ⟨l.connection.map f, l.writeCb⟩

theorem link_edit {f : TcpConnection κ → TcpConnection κ} (h : s.connections id = some connection) :
    (s.setConnection id (f connection)).link = Function.update s.link id ((s.link id).edit f) := by
  rw [link_setConnection, link_of_connection h]
  rfl

theorem link_edit_none {f : TcpConnection κ → TcpConnection κ} (h : s.connections id = none) :
    s.link = Function.update s.link id ((s.link id).edit f) := by
  have hl : (s.link id).edit f = s.link id := by
    rw [link_of_none h]
    rfl
  rw [hl, Function.update_eq_self]

theorem link_onSocketError (s : TcpService κ) (id : SocketId) (socketError errno : Int) :
    (s.onSocketError id socketError errno).link = Function.update s.link id
      ((s.link id).edit (·.setError (if socketError = 0 then errno else socketError))) := by
  unfold onSocketError
  cases hcon : s.connections id with
  | none => exact link_edit_none hcon
  | some connection =>
    exact link_edit (f := (·.setError (if socketError = 0 then errno else socketError))) hcon

/-- What the end of `onSocketRead` does to the connection. -/
def ReadEnd.edit (readEnd : ReadEnd) (connection : TcpConnection κ) : TcpConnection κ :=
  match readEnd with
  | .drained => connection
  | .peerClose => { connection with status := .peerClosed }
  | .failed errno => connection.setError errno

theorem link_onSocketRead (s : TcpService κ) (id : SocketId) (readEnd : ReadEnd) :
    (s.onSocketRead id readEnd).link =
      Function.update s.link id ((s.link id).edit readEnd.edit) := by
  unfold onSocketRead
  cases hcon : s.connections id with
  | none => exact link_edit_none hcon
  | some connection =>
    cases readEnd with
    | drained =>
      rw [link_of_connection hcon]
      exact (Function.update_eq_self id s.link).symm.trans (by rw [link_of_connection hcon]; rfl)
    | peerClose => exact link_edit (f := ReadEnd.edit .peerClose) hcon
    | failed errno => exact link_edit (f := ReadEnd.edit (.failed errno)) hcon

theorem link_onAsyncConnectTimeout {timerId : TimerId} (hid : s.timerToSocketMap timerId = some id) :
    (s.onAsyncConnectTimeout timerId).link =
      if (s.sockets id).isSome then
        Function.update s.link id ((s.link id).edit (·.setError ETIMEDOUT))
      else s.link := by
  unfold onAsyncConnectTimeout takeSocketTimer
  rw [hid]
  dsimp only [Option.map_some]
  cases hsock : s.sockets id with
  | none => rfl
  | some socket =>
    cases hcon : s.connections id with
    | none => exact link_edit_none hcon
    | some connection =>
      refine (link_opening rfl _ _).trans ?_
      rw [link_of_connection hcon, link_of_socket hsock]
      rfl

theorem link_onSendMessageError (s : TcpService κ) (timerId : TimerId) :
    (s.onSendMessageError timerId).link = s.link := by
  unfold onSendMessageError takeSocketTimer
  cases s.timerToSocketMap timerId <;> rfl

theorem link_setContext (s : TcpService κ) (id : SocketId) (context : Addr) :
    (s.setContext id context).link = s.link := by
  unfold setContext
  split <;> rfl

end Functions

/-! ## Each step of the service, on a channel -/

section Steps

variable {m m' : Machine κ} {c id : SocketId}

theorem view_eq {l : Link κ} (h : m.service.link c = l) : m.view c = ⟨l, m.history c⟩ := by
  rw [Machine.view, h]

/-- Without a connection nothing happens. -/
theorem view_step_none (hcon : m.service.connections id = none) {op : Channel.Op κ}
    (hop : ∀ writeCb (history : List (Effect κ)),
      Channel.step ⟨⟨none, writeCb⟩, history⟩ op = ⟨⟨none, writeCb⟩, history⟩) :
    (m.view id).step op = ⟨m.service.link id, m.history id⟩ := by
  rw [view_eq (link_of_none hcon), hop, ← link_of_none hcon]

theorem view_same {s : TcpService κ} (hs : s.link = m.service.link) :
    Machine.view c { m with service := s } = m.view c := by
  rw [Machine.view, Machine.view, hs]

/-- A step that changes one link and its history. -/
theorem view_update {s : TcpService κ} {h : SocketId → List (Effect κ)} {l : Link κ}
    {effects : List (Effect κ)} (hs : s.link = Function.update m.service.link id l)
    (hh : h = Function.update m.history id effects) :
    Machine.view c ⟨s, h⟩ = if id = c then ⟨l, effects⟩ else m.view c := by
  unfold Machine.view
  subst hh
  dsimp only
  rw [hs]
  split
  · rename_i heq
    subst heq
    rw [Function.update_self, Function.update_self]
  · rename_i hne
    rw [Function.update_of_ne (Ne.symm hne), Function.update_of_ne (Ne.symm hne)]

/-- A step of the service that is a step of one channel. -/
theorem view_step_one {s : TcpService κ} {h : SocketId → List (Effect κ)} {l : Link κ}
    {effects : List (Effect κ)} {op : Channel.Op κ}
    (hs : s.link = Function.update m.service.link id l)
    (hh : h = Function.update m.history id effects)
    (hop : (m.view id).step op = ⟨l, effects⟩) :
    Machine.view c ⟨s, h⟩ = (m.view c).step (if id = c then op else .idle) := by
  rw [view_update hs hh]
  split
  · rename_i heq
    rw [← hop, heq]
  · rfl

/-- A step that changes one link and nothing in its history. -/
theorem view_step_link {s : TcpService κ} {l : Link κ} {op : Channel.Op κ}
    (hs : s.link = Function.update m.service.link id l)
    (hop : (m.view id).step op = ⟨l, m.history id⟩) :
    Machine.view c { m with service := s } = (m.view c).step (if id = c then op else .idle) :=
  view_step_one hs (Function.update_eq_self id m.history).symm hop

theorem sendMessage_view {buffer : List UInt8} {sendCompleteCb : SendCompleteCallback κ}
    {kernel : SendResult} (h : m.sendMessage id buffer sendCompleteCb kernel = some m') :
    m'.service.connWriteBufferMaxSize = m.service.connWriteBufferMaxSize ∧
      m'.view c = (m.view c).step
        (if id = c then
          .send m.service.connWriteBufferMaxSize buffer sendCompleteCb kernel
        else .idle) := by
  unfold Machine.sendMessage at h
  split at h
  · rename_i hnone
    cases h
    exact ⟨rfl, view_step_link (Function.update_eq_self id m.service.link).symm
      (view_step_none hnone fun _ _ => rfl)⟩
  · rename_i connection hsome
    obtain ⟨s, hs, rfl⟩ := Option.map_eq_some_iff.1 h
    refine ⟨sendOn_maxSize hs, view_step_one (link_sendOn rfl hs) rfl ?_⟩
    rw [view_eq (link_of_connection hsome)]
    rfl

theorem broadcastMessage_view {buffer : List UInt8} {kernel : SocketId → SendResult} :
    ∀ {order : List SocketId} {m : Machine κ}, order.Nodup →
      Machine.broadcastMessage buffer kernel order m = some m' →
      m'.view c = (m.view c).step
        (if c ∈ order then .send m.service.connWriteBufferMaxSize buffer .null (kernel c)
        else .idle)
  | [], m, _, h => by cases h; rfl
  | id :: order, m, hnodup, h => by
    obtain ⟨m₁, hm₁, h⟩ := Option.bind_eq_some_iff.1 h
    obtain ⟨hmax, hview⟩ := sendMessage_view (c := c) hm₁
    have hrest := broadcastMessage_view (List.nodup_cons.1 hnodup).2 h
    rw [hmax, hview] at hrest
    rw [hrest]
    by_cases heq : id = c
    · subst heq
      rw [if_pos rfl, if_neg (List.nodup_cons.1 hnodup).1, if_pos List.mem_cons_self]
      rfl
    · rw [if_neg heq]
      by_cases hmem : c ∈ order
      · rw [if_pos hmem, if_pos (List.mem_cons_of_mem id hmem)]; rfl
      · rw [if_neg hmem, if_neg (by
          rw [List.mem_cons, not_or]; exact ⟨fun h => heq h.symm, hmem⟩)]
        rfl

/-- Opening a connection starts its history. -/
theorem opened_view {s : TcpService κ} {l : Link κ} {op : Channel.Op κ} {o : Option SocketId}
    (hop : ∀ ch : Channel κ, ch.step op = ⟨l, []⟩) (hnone : o = none → s.link = m.service.link)
    (hsome : ∀ id, o = some id → s.link = Function.update m.service.link id l) :
    (m.opened s o).view c = (m.view c).step (if o = some c then op else .idle) := by
  cases o with
  | none => exact view_same (hnone rfl)
  | some id =>
    refine (view_step_one (hsome id rfl) rfl (hop _)).trans ?_
    by_cases heq : id = c
    · rw [if_pos heq, if_pos (congrArg some heq)]
    · rw [if_neg heq, if_neg (fun h => heq (Option.some.inj h))]

theorem writable_view {kernel : SendResult} {socketError : Int}
    (h : m.writable id kernel socketError = some m') :
    m'.view c = (m.view c).step (if id = c then .writable kernel socketError else .idle) := by
  obtain ⟨socket, hsock, h⟩ := Option.bind_eq_some_iff.1 h
  have hl := link_of_socket hsock
  split at h
  · cases h
  · rename_i hcb
    cases h
    rw [hcb] at hl
    cases hcon : m.service.connections id with
    | none =>
      have hsame : (m.service.onAsyncConnectSocketWrite id socket socketError).link =
          m.service.link := by
        unfold onAsyncConnectSocketWrite
        dsimp only
        rw [removeSocketTimer_connections, hcon]
        exact link_congr (removeSocketTimer_connections _ _) (removeSocketTimer_sockets _ _)
      exact view_step_link (hsame.trans (Function.update_eq_self id m.service.link).symm)
        (view_step_none hcon fun _ _ => rfl)
    | some connection =>
      refine view_step_link (link_onAsyncConnectSocketWrite hcon hsock hcb socketError) ?_
      rw [view_eq (link_of_connection hcon), hl]
      rfl
  · rename_i hcb
    cases h
    rw [hcb] at hl
    cases hcon : m.service.connections id with
    | none =>
      have hsame : m.service.onSocketWrite id socket kernel = m.service := by
        unfold onSocketWrite
        rw [hcon]
      refine view_step_one (l := m.service.link id) ?_ rfl ?_
      · rw [hsame, Function.update_eq_self]
      · rw [Option.map_none, Option.getD_none, List.append_nil]
        exact view_step_none hcon fun _ _ => rfl
    | some connection =>
      refine view_step_one (link_onSocketWrite hcon hsock hcb kernel) rfl ?_
      rw [view_eq (link_of_connection hcon), hl]
      rfl

/-- The steps that edit the connection, if there is one. -/
theorem view_step_edit {s : TcpService κ} {f : TcpConnection κ → TcpConnection κ}
    {op : Channel.Op κ} (hs : s.link = Function.update m.service.link id ((m.service.link id).edit f))
    (hop : ∀ l (history : List (Effect κ)), Channel.step ⟨l, history⟩ op = ⟨l.edit f, history⟩) :
    Machine.view c { m with service := s } = (m.view c).step (if id = c then op else .idle) :=
  view_step_link hs (hop _ _)

theorem step_setError (errorCode : Int) (l : Link κ) (history : List (Effect κ)) :
    Channel.step ⟨l, history⟩ (.setError errorCode) = ⟨l.edit (·.setError errorCode), history⟩ := by
  obtain ⟨_ | connection, writeCb⟩ := l <;> rfl

theorem step_projectReadable (readEnd : ReadEnd) (l : Link κ) (history : List (Effect κ)) :
    Channel.step ⟨l, history⟩ (projectReadable readEnd) = ⟨l.edit readEnd.edit, history⟩ := by
  obtain ⟨_ | connection, writeCb⟩ := l <;> cases readEnd <;> rfl

theorem onAsyncConnectTimeout_view (timerId : TimerId) :
    Machine.view c { m with service := m.service.onAsyncConnectTimeout timerId } =
      (m.view c).step (projectTimeout c m.service timerId .onAsyncConnectTimeout) := by
  unfold projectTimeout
  cases hid : m.service.timerToSocketMap timerId with
  | none =>
    rw [if_neg (by rintro ⟨h, _⟩; cases h), view_same]
    · rfl
    · unfold onAsyncConnectTimeout takeSocketTimer
      rw [hid]
      rfl
  | some id =>
    have hs := link_onAsyncConnectTimeout hid
    by_cases hsock : (m.service.sockets id).isSome
    · rw [if_pos hsock] at hs
      rw [view_step_edit hs (step_setError ETIMEDOUT)]
      by_cases heq : id = c
      · subst heq
        rw [if_pos rfl, if_pos ⟨rfl, hsock⟩]
      · rw [if_neg heq, if_neg (fun h => heq (Option.some.inj h.1))]
    · rw [if_neg hsock] at hs
      rw [view_same hs, if_neg]
      · rfl
      · rintro ⟨h, hc⟩
        cases h
        exact hsock hc

/-- **Every step of the service is a step of each channel.** -/
theorem view_step {op : Op κ} (hE : m.Enabled op) (h : m.step op = some m') :
    m'.view c = (m.view c).step (m.project c op) := by
  cases op with
  | buildListenSocket fd =>
    cases h
    exact view_same (link_buildListenSocket _ _)
  | buildConnectedSocket fd =>
    cases h
    refine opened_view (fun _ => rfl) (fun hnone => ?_) fun id hsome => link_buildConnectedSocket hsome
    unfold buildConnectedSocket
    rw [hnone]
    rfl
  | buildAsyncConnectSocket fd timeoutMs =>
    cases h
    refine opened_view (fun _ => rfl) (fun hnone => ?_) fun id hsome =>
      link_buildAsyncConnectSocket hsome
    unfold buildAsyncConnectSocket
    rw [hnone]
    rfl
  | sendMessage id buffer sendCompleteCb kernel => exact (sendMessage_view h).2
  | broadcastMessage buffer order kernel =>
    rw [broadcastMessage_view hE.1 h]
    split
    · rfl
    · rename_i hmem
      have hcon : m.service.connections c = none := by
        rw [← Option.not_isSome_iff_eq_none]
        exact fun hc => hmem ((hE.2 c).2 hc)
      exact (view_step_none hcon fun _ _ => rfl).symm
  | closeSocket id =>
    cases h
    exact view_step_link (link_closeSocket _ _) rfl
  | setContext id context =>
    cases h
    exact view_same (link_setContext _ _ _)
  | setSendBufferMaxSize size =>
    cases h
    rfl
  | writable id kernel socketError => exact writable_view h
  | readable id readEnd =>
    cases h
    exact view_step_edit (link_onSocketRead _ _ _) (step_projectReadable readEnd)
  | socketError id socketError errno =>
    cases h
    exact view_step_edit (link_onSocketError _ _ _ _) (step_setError _)
  | timeout timerId =>
    obtain ⟨timerCb, hcb, h⟩ := Option.bind_eq_some_iff.1 h
    simp only [Machine.project, hcb]
    cases timerCb with
    | onAsyncConnectTimeout =>
      cases h
      exact @onAsyncConnectTimeout_view κ { m with service := { m.service with
        ioService := m.service.ioService.stopTimer timerId } } c timerId
    | onSendMessageError =>
      cases h
      exact view_same (link_onSendMessageError _ _)

end Steps

/-! ## Invariants of a channel -/

section Rules

open Runs

variable {c : SocketId} {P I F : Channel κ → Prop} {C : Channel κ → Channel.Op κ → Prop}

/-- A property of the channel `c` that its steps keep when they meet `C`, along a run of the
service. -/
theorem along_channel (hinit : I ⟨⟨none, .null⟩, []⟩) (hstep : ∀ ch op, I ch → C ch op → I (ch.step op))
    (hI : ∀ ch, I ch → P ch) {ops : List (Op κ)}
    (hE : EachStep Machine.step Machine.Enabled Machine.init ops)
    (hC : EachStep Machine.step (fun m op => C (m.view c) (m.project c op)) Machine.init ops) :
    Along Machine.step (fun m => P (m.view c)) Machine.init ops := by
  refine Along.mono (fun m hm => hI _ hm) (along_of_eachStep ?_ hinit (hE.and hC))
  intro m op m' hm hop hs
  rw [view_step hop.1 hs]
  exact hstep _ _ hm hop.2

/-- A property of the channel `c` that its steps keep exactly when they meet `C`, in a run of the
service on which the channel stays in `F`; `I` is an invariant of the channel. -/
theorem along_channel_iff (hI₀ : I ⟨⟨none, .null⟩, []⟩) (hP₀ : P ⟨⟨none, .null⟩, []⟩)
    (hI : ∀ ch op, I ch → I (ch.step op))
    (hexact : ∀ ch op, I ch → P ch → F (ch.step op) → (P (ch.step op) ↔ C ch op))
    {ops : List (Op κ)} (hE : EachStep Machine.step Machine.Enabled Machine.init ops)
    (hF : Along Machine.step (fun m => F (m.view c)) Machine.init ops) :
    Along Machine.step (fun m => P (m.view c)) Machine.init ops ↔
      EachStep Machine.step (fun m op => C (m.view c) (m.project c op)) Machine.init ops := by
  have hdef : ∀ (m : Machine κ) (op : Op κ), Coherent m.service ∧ I (m.view c) →
      (m.Enabled op ∧ F (m.view c) ∧ ∀ m', m.step op = some m' → F (m'.view c)) →
      ∃ m', m.step op = some m' ∧ Coherent m'.service ∧ I (m'.view c) := by
    intro m op hm hop
    obtain ⟨m', hs, hcoh⟩ := step_defined hm.1 hop.1
    refine ⟨m', hs, hcoh, ?_⟩
    rw [view_step hop.1 hs]
    exact hI _ _ hm.2
  refine along_iff_eachStep hdef (fun m op m' hm hP hop hs => ?_) ⟨Coherent.init, hI₀⟩ hP₀
    (hE.and hF.eachStep)
  have hF' := hop.2.2 m' hs
  rw [view_step hop.1 hs] at hF' ⊢
  exact hexact _ _ hm.2 hP hF'

end Rules

end TcpService

end Brickred
