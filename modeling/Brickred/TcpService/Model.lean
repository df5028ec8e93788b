import Mathlib.Logic.Function.Basic
import Mathlib.Data.List.Basic
import Brickred.TimerHeap.Model

/-!
# `TcpService` (model of `tcp_service.cc`)

The tables of the service, its sockets and its connections, with the write side of a connection
in full: `sendMessage` (direct send, partial send, buffering), `broadcastMessage`,
`onSocketWrite`, the one callback slot, `closeSocket`.  Of the read side only what it does to
the status is here; `TcpService.Receive` has the rest, and `TcpService.Creation` what comes before
the build functions.  A connection and its socket are kept under the same id; a connection
whose socket is gone holds a pointer to freed memory, and using it has no result (`none`).

What the kernel answers, the file descriptors it hands out and the order in which
`broadcastMessage` meets the connections are inputs of the step that needs them.  What the
application's callbacks do to the service is simply what happens next: all but one are called in
tail position, and `NewConnectionCallback`, which is called inside the loop of
`onListenSocketRead`, has the rest of the loop behind it, a step for each turn.  (The listener that
such a callback closes has no turns any more in the code; here it may have.)  A callback of the
type `κ` is only recorded.

* `TcpConnection.sendMessage`, `TcpConnection.onSocketWrite` — what a call does to the
  connection, and how it ends.
* `sendOn`, `onSocketWrite`, `closeSocket`, … — what it does to the service.
* `Machine` — the service, and for every id what has happened on its connection since it was
  opened; `Machine.step` — one call from the application or one event from the loop.
-/

set_option autoImplicit false

namespace Brickred

/-- `int64_t`: the allocator's counter in the upper half, the descriptor in the lower. -/
abbrev SocketId := Int

namespace TcpService

def EAGAIN : Int := 11

def ENOBUFS : Int := 105

def ETIMEDOUT : Int := 110

/-- What `::send` does with the bytes it is offered.  `errno` is its value after the call; a
call that succeeds leaves an old one. -/
inductive SendResult where
  /-- takes what it has room for -/
  | accepts (room : Nat) (errno : Int)
  | fails (errno : Int)

def SendResult.errno : SendResult → Int
  | accepts _ errno => errno
  | fails errno => errno

/-- How many of `size` bytes the kernel takes. -/
def SendResult.taken (size : Nat) : SendResult → Nat
  | accepts room _ => min room size
  | fails _ => 0

/-- `TcpSocket::send` returns `int`, `::send` has 64 bits. -/
def SendResult.ret (size : Nat) : SendResult → Int
  | accepts room _ => toInt (min room size : Nat)
  | fails _ => -1

/-- How the loop of `onSocketRead` ends. -/
inductive ReadEnd where
  /-- `EAGAIN` -/
  | drained
  /-- end of stream, or the read buffer is full -/
  | peerClose
  | failed (errno : Int)

/-! ## A connection -/

/-- `TcpConnection::Status`. -/
inductive Status where
  | none
  | connecting
  | connected
  | peerClosed
  | pendingError
  deriving DecidableEq

/-- `null` is the empty `Function`, `close` is bound to `sendCompleteCloseCallback`. -/
inductive SendCompleteCallback (κ : Type) where
  | null
  | user (cb : κ)
  | close
  deriving DecidableEq

/-- `writeBuffer` is the readable part of `write_buffer_`. -/
structure TcpConnection (κ : Type) where
  status : Status
  errorCode : Int
  writeBuffer : List UInt8
  sendCompleteCb : SendCompleteCallback κ
  deriving DecidableEq

/-- How a call of `sendMessage` ends. -/
inductive SendOutcome where
  /-- `false`: not connected -/
  | refused
  /-- `false`: the error is pending -/
  | failed (errno : Int)
  /-- `true`: bytes wait in the write buffer -/
  | queued
  /-- `true`: the callback is called at once -/
  | complete

/-- How a call of `onSocketWrite` ends. -/
inductive WriteOutcome (κ : Type) where
  | failed (errno : Int)
  | pending
  /-- the write buffer is empty, and the callback of the slot is called -/
  | drained (sendCompleteCb : SendCompleteCallback κ)

namespace TcpConnection

variable {κ : Type}

/-- As the constructor and the `setStatus` after it leave it. -/
def new (status : Status) : TcpConnection κ := ⟨status, 0, [], .null⟩

def setError (connection : TcpConnection κ) (errorCode : Int) : TcpConnection κ :=
  { connection with status := .pendingError, errorCode }

/-- `sendMessage` sends directly. -/
def Direct (connection : TcpConnection κ) : Prop := connection.writeBuffer = []

instance (connection : TcpConnection κ) : Decidable connection.Direct :=
  inferInstanceAs (Decidable (connection.writeBuffer = []))

/-- `remain_size` behind the direct send. -/
def remainSize (connection : TcpConnection κ) (buffer : List UInt8) (kernel : SendResult) : Nat :=
  if connection.Direct ∧ 0 ≤ kernel.ret buffer.length then
    buffer.length - (kernel.ret buffer.length).toNat
  else buffer.length

/-- The bytes do not fit `conn_write_buffer_max_size_`. -/
def Overflows (connection : TcpConnection κ) (maxSize remainSize : Nat) : Prop :=
  maxSize > 0 ∧ toSize (remainSize + connection.writeBuffer.length) > maxSize

instance (connection : TcpConnection κ) (maxSize remainSize : Nat) :
    Decidable (connection.Overflows maxSize remainSize) :=
  inferInstanceAs (Decidable (_ ∧ _))

/-- `memcpy` copies `remain_size` bytes from the start of `buffer`. -/
def sendMessage (connection : TcpConnection κ) (maxSize : Nat) (buffer : List UInt8)
    (sendCompleteCb : SendCompleteCallback κ) (kernel : SendResult) :
    TcpConnection κ × SendOutcome :=
  if connection.status ≠ .connected then (connection, .refused)
  else if connection.Direct ∧ kernel.ret buffer.length < 0 ∧ kernel.errno ≠ EAGAIN then
    (connection.setError kernel.errno, .failed kernel.errno)
  else if connection.remainSize buffer kernel > 0 then
    if connection.Overflows maxSize (connection.remainSize buffer kernel) then
      (connection.setError ENOBUFS, .failed ENOBUFS)
    else
      ({ connection with
        writeBuffer := connection.writeBuffer ++ buffer.take (connection.remainSize buffer kernel)
        sendCompleteCb }, .queued)
  else (connection, .complete)

def onSocketWrite (connection : TcpConnection κ) (kernel : SendResult) :
    TcpConnection κ × WriteOutcome κ :=
  let writeSize := kernel.ret connection.writeBuffer.length
  if writeSize < 0 then
    if kernel.errno ≠ EAGAIN then (connection.setError kernel.errno, .failed kernel.errno)
    else (connection, .pending)
  else
    let rest := connection.writeBuffer.drop writeSize.toNat
    if rest = [] then
      ({ connection with writeBuffer := rest, sendCompleteCb := .null },
        .drained connection.sendCompleteCb)
    else ({ connection with writeBuffer := rest }, .pending)

end TcpConnection

/-! ## Sockets and timers -/

inductive ReadCallback where
  | null
  | onListenSocketRead
  | onSocketRead
  deriving DecidableEq

inductive WriteCallback where
  | null
  | onAsyncConnectSocketWrite
  | onSocketWrite
  deriving DecidableEq

/-- `attached`: the socket is registered with the `IOService`. -/
structure TcpSocket where
  readCb : ReadCallback
  writeCb : WriteCallback
  attached : Bool

inductive TimerCallback where
  | onAsyncConnectTimeout
  | onSendMessageError

/-- The timers of the `IOService`, all with one call: which are pending and what they call. -/
structure IOService where
  timerIdAllocator : Int
  timers : TimerId → Option TimerCallback

def IOService.startTimer (io : IOService) (timerCb : TimerCallback) : IOService × TimerId :=
  let timerId := TimerIdAllocator.getId io.timerIdAllocator
  if (io.timers timerId).isSome then (⟨timerId, io.timers⟩, -1)
  else (⟨timerId, Function.update io.timers timerId (some timerCb)⟩, timerId)

def IOService.stopTimer (io : IOService) (timerId : TimerId) : IOService :=
  { io with timers := Function.update io.timers timerId none }

/-- `SocketIdAllocator::getId`: the incremented counter. -/
def SocketIdAllocator.next (value : Int) : Int := if toInt (value + 1) < 0 then 0 else toInt (value + 1)

/-- `SocketIdAllocator::getId`: the id. -/
def SocketIdAllocator.getId (value fd : Int) : SocketId :=
  toInt64 (SocketIdAllocator.next value * 2 ^ 32 + fd)

end TcpService

/-! ## The service -/

/-- `class TcpService::Impl`.  `contexts` holds the application's pointers. -/
structure TcpService (κ : Type) where
  ioService : TcpService.IOService
  socketIdAllocator : Int
  sockets : SocketId → Option TcpService.TcpSocket
  connections : SocketId → Option (TcpService.TcpConnection κ)
  contexts : SocketId → Option Addr
  socketToTimerMap : SocketId → Option TimerId
  timerToSocketMap : TimerId → Option SocketId
  connWriteBufferMaxSize : Nat

namespace TcpService

variable {κ : Type}

def init : TcpService κ :=
  ⟨⟨0, fun _ => none⟩, 0, fun _ => none, fun _ => none, fun _ => none, fun _ => none,
    fun _ => none, 0⟩

def setSocket (s : TcpService κ) (id : SocketId) (socket : TcpSocket) : TcpService κ :=
  { s with sockets := Function.update s.sockets id (some socket) }

def setConnection (s : TcpService κ) (id : SocketId) (connection : TcpConnection κ) :
    TcpService κ :=
  { s with connections := Function.update s.connections id (some connection) }

def addSocketTimer (s : TcpService κ) (id : SocketId) (timerCb : TimerCallback) : TcpService κ :=
  let (ioService, timerId) := s.ioService.startTimer timerCb
  { s with
    ioService
    socketToTimerMap := Function.update s.socketToTimerMap id (some timerId)
    timerToSocketMap := Function.update s.timerToSocketMap timerId (some id) }

def removeSocketTimer (s : TcpService κ) (id : SocketId) : TcpService κ :=
  match s.socketToTimerMap id with
  | none => s
  | some timerId =>
    { s with
      ioService := s.ioService.stopTimer timerId
      socketToTimerMap := Function.update s.socketToTimerMap id none
      timerToSocketMap := Function.update s.timerToSocketMap timerId none }

def closeSocket (s : TcpService κ) (id : SocketId) : TcpService κ :=
  { s with
    connections := Function.update s.connections id none
    sockets := Function.update s.sockets id none
    contexts := Function.update s.contexts id none }

/-- Calling a `SendCompleteCallback`. -/
def call (s : TcpService κ) (id : SocketId) : SendCompleteCallback κ → TcpService κ
  | .null => s
  | .user _ => s
  | .close => s.closeSocket id

section Tables

variable (s : TcpService κ) (id : SocketId)

@[simp] theorem setSocket_connections (socket : TcpSocket) :
    (s.setSocket id socket).connections = s.connections := rfl

@[simp] theorem setConnection_connections (connection : TcpConnection κ) :
    (s.setConnection id connection).connections =
      Function.update s.connections id (some connection) := rfl

theorem setConnection_self (connection : TcpConnection κ) :
    (s.setConnection id connection).connections id = some connection :=
  Function.update_self id _ _

@[simp] theorem setSocket_sockets (socket : TcpSocket) :
    (s.setSocket id socket).sockets = Function.update s.sockets id (some socket) := rfl

@[simp] theorem setConnection_sockets (connection : TcpConnection κ) :
    (s.setConnection id connection).sockets = s.sockets := rfl

@[simp] theorem addSocketTimer_connections (timerCb : TimerCallback) :
    (s.addSocketTimer id timerCb).connections = s.connections := rfl

@[simp] theorem addSocketTimer_sockets (timerCb : TimerCallback) :
    (s.addSocketTimer id timerCb).sockets = s.sockets := rfl

@[simp] theorem removeSocketTimer_connections :
    (s.removeSocketTimer id).connections = s.connections := by
  unfold removeSocketTimer; split <;> rfl

@[simp] theorem removeSocketTimer_sockets : (s.removeSocketTimer id).sockets = s.sockets := by
  unfold removeSocketTimer; split <;> rfl

@[simp] theorem closeSocket_connections :
    (s.closeSocket id).connections = Function.update s.connections id none := rfl

@[simp] theorem closeSocket_sockets :
    (s.closeSocket id).sockets = Function.update s.sockets id none := rfl

end Tables

/-! ## Opening -/

/-- The id for a new socket, unless it is in use (`-1`). -/
def newSocketId (s : TcpService κ) (fd : Int) : Option SocketId :=
  let id := SocketIdAllocator.getId s.socketIdAllocator fd
  if (s.sockets id).isSome ∨ (s.connections id).isSome then none else some id

/-- The counter moves, whether the id is in use or not. -/
def countSocket (s : TcpService κ) : TcpService κ :=
  { s with socketIdAllocator := SocketIdAllocator.next s.socketIdAllocator }

def buildListenSocket (s : TcpService κ) (fd : Int) : TcpService κ :=
  let id := SocketIdAllocator.getId s.socketIdAllocator fd
  let s := s.countSocket
  if (s.sockets id).isSome then s
  else s.setSocket id ⟨.onListenSocketRead, .null, true⟩

def buildConnectedSocket (s : TcpService κ) (fd : Int) : TcpService κ :=
  match s.newSocketId fd with
  | none => s.countSocket
  | some id =>
    (s.countSocket.setSocket id ⟨.onSocketRead, .null, true⟩).setConnection id (.new .connected)

def buildAsyncConnectSocket (s : TcpService κ) (fd timeoutMs : Int) : TcpService κ :=
  match s.newSocketId fd with
  | none => s.countSocket
  | some id =>
    let s := s.countSocket
    let s := if timeoutMs > 0 then s.addSocketTimer id .onAsyncConnectTimeout else s
    (s.setSocket id ⟨.null, .onAsyncConnectSocketWrite, true⟩).setConnection id (.new .connecting)

/-! ## Sending -/

/-- `sendMessage(connection, …)`. -/
def sendOn (s : TcpService κ) (id : SocketId) (connection : TcpConnection κ)
    (buffer : List UInt8) (sendCompleteCb : SendCompleteCallback κ) (kernel : SendResult) :
    Option (TcpService κ) := do
  let socket ← s.sockets id
  let (connection, outcome) :=
    connection.sendMessage s.connWriteBufferMaxSize buffer sendCompleteCb kernel
  let s := s.setConnection id connection
  match outcome with
  | .refused => some s
  | .failed _ => some (s.addSocketTimer id .onSendMessageError)
  | .queued => some (s.setSocket id { socket with writeCb := .onSocketWrite })
  | .complete => some (s.call id sendCompleteCb)

def onSocketWrite (s : TcpService κ) (id : SocketId) (socket : TcpSocket) (kernel : SendResult) :
    TcpService κ :=
  match s.connections id with
  | none => s
  | some connection =>
    let (connection, outcome) := connection.onSocketWrite kernel
    let s := s.setConnection id connection
    match outcome with
    | .failed _ => s
    | .pending => s
    | .drained sendCompleteCb =>
      (s.setSocket id { socket with writeCb := .null }).call id sendCompleteCb

/-! ## The other events -/

def onAsyncConnectSocketWrite (s : TcpService κ) (id : SocketId) (socket : TcpSocket)
    (socketError : Int) : TcpService κ :=
  let s := s.removeSocketTimer id
  match s.connections id with
  | none => s
  | some connection =>
    if socketError ≠ 0 then s.setConnection id (connection.setError socketError)
    else
      (s.setSocket id { socket with readCb := .onSocketRead, writeCb := .null }).setConnection id
        { connection with status := .connected }

/-- What `onSocketRead` does once its loop has ended and the application has been handed the
bytes. -/
def onSocketRead (s : TcpService κ) (id : SocketId) (readEnd : ReadEnd) : TcpService κ :=
  match s.connections id, readEnd with
  | none, _ => s
  | some _, .drained => s
  | some connection, .peerClose => s.setConnection id { connection with status := .peerClosed }
  | some connection, .failed errno => s.setConnection id (connection.setError errno)

def onSocketError (s : TcpService κ) (id : SocketId) (socketError errno : Int) : TcpService κ :=
  match s.connections id with
  | none => s
  | some connection =>
    s.setConnection id (connection.setError (if socketError = 0 then errno else socketError))

/-- How both timer callbacks begin: the socket of the timer, and the tables without the two. -/
def takeSocketTimer (s : TcpService κ) (timerId : TimerId) : Option (TcpService κ × SocketId) :=
  (s.timerToSocketMap timerId).map fun id =>
    ({ s with
      timerToSocketMap := Function.update s.timerToSocketMap timerId none
      socketToTimerMap := Function.update s.socketToTimerMap id none }, id)

def onAsyncConnectTimeout (s : TcpService κ) (timerId : TimerId) : TcpService κ :=
  match s.takeSocketTimer timerId with
  | none => s
  | some (s, id) =>
    match s.sockets id, s.connections id with
    | some socket, some connection =>
      (s.setSocket id { socket with attached := false }).setConnection id
        (connection.setError ETIMEDOUT)
    | _, _ => s

/-- Only reports the error the connection already has. -/
def onSendMessageError (s : TcpService κ) (timerId : TimerId) : TcpService κ :=
  match s.takeSocketTimer timerId with
  | none => s
  | some (s, _) => s

def setContext (s : TcpService κ) (id : SocketId) (context : Addr) : TcpService κ :=
  if (s.sockets id).isNone then s
  else { s with contexts := Function.update s.contexts id (some context) }

/-! ## Runs -/

/-- What happens on a connection. -/
inductive Effect (κ : Type) where
  /-- the kernel took these bytes -/
  | sent (bytes : List UInt8)
  /-- `sendMessage` returns `true` -/
  | accepted (buffer : List UInt8) (sendCompleteCb : SendCompleteCallback κ)
  /-- `sendMessage` returns `false`, as the connection is not connected -/
  | refused
  /-- `setError` in `sendMessage` or in `onSocketWrite` -/
  | failed (errno : Int)
  /-- the callback is called while `unsent` is in the write buffer -/
  | invoked (sendCompleteCb : SendCompleteCallback κ) (unsent : List UInt8)
  deriving DecidableEq

def SendCompleteCallback.invocation (sendCompleteCb : SendCompleteCallback κ)
    (unsent : List UInt8) : List (Effect κ) :=
  match sendCompleteCb with
  | .null => []
  | .user cb => [.invoked (.user cb) unsent]
  | .close => [.invoked .close unsent]

/-- The bytes the kernel takes in a call of `sendMessage`. -/
def TcpConnection.sentDirectly (connection : TcpConnection κ) (buffer : List UInt8)
    (kernel : SendResult) : List UInt8 :=
  if connection.Direct then buffer.take (kernel.taken buffer.length) else []

/-- The bytes the kernel takes in a call of `onSocketWrite`. -/
def TcpConnection.sentBuffered (connection : TcpConnection κ) (kernel : SendResult) :
    List UInt8 :=
  connection.writeBuffer.take (kernel.taken connection.writeBuffer.length)

def TcpConnection.sendEffects (connection : TcpConnection κ) (maxSize : Nat)
    (buffer : List UInt8) (sendCompleteCb : SendCompleteCallback κ) (kernel : SendResult) :
    List (Effect κ) :=
  let sent := .sent (connection.sentDirectly buffer kernel)
  match (connection.sendMessage maxSize buffer sendCompleteCb kernel).2 with
  | .refused => [.refused]
  | .failed errno => [sent, .failed errno]
  | .queued => [sent, .accepted buffer sendCompleteCb]
  | .complete =>
    [sent, .accepted buffer sendCompleteCb] ++ sendCompleteCb.invocation connection.writeBuffer

def TcpConnection.writeEffects (connection : TcpConnection κ) (kernel : SendResult) :
    List (Effect κ) :=
  let sent := .sent (connection.sentBuffered kernel)
  match (connection.onSocketWrite kernel).2 with
  | .failed errno => [sent, .failed errno]
  | .pending => [sent]
  | .drained sendCompleteCb => [sent] ++ sendCompleteCb.invocation []

/-- The service, and what has happened on each connection since it was opened. -/
structure Machine (κ : Type) where
  service : TcpService κ
  history : SocketId → List (Effect κ)

/-- A call from the application, or an event from the loop of the `IOService`. -/
inductive Op (κ : Type) where
  | buildListenSocket (fd : Int)
  | buildConnectedSocket (fd : Int)
  | buildAsyncConnectSocket (fd timeoutMs : Int)
  /-- `sendMessageThenClose` is `sendMessage` with the callback `close` -/
  | sendMessage (id : SocketId) (buffer : List UInt8) (sendCompleteCb : SendCompleteCallback κ)
      (kernel : SendResult)
  | broadcastMessage (buffer : List UInt8) (order : List SocketId) (kernel : SocketId → SendResult)
  | closeSocket (id : SocketId)
  | setContext (id : SocketId) (context : Addr)
  | setSendBufferMaxSize (size : Nat)
  /-- `EPOLLOUT`; `socketError` is what `getSocketError` returns -/
  | writable (id : SocketId) (kernel : SendResult) (socketError : Int)
  /-- `EPOLLIN` on a connection -/
  | readable (id : SocketId) (readEnd : ReadEnd)
  /-- `EPOLLERR` or `EPOLLHUP` -/
  | socketError (id : SocketId) (socketError errno : Int)
  /-- a timer of the service falls due -/
  | timeout (timerId : TimerId)

namespace Machine

def init : Machine κ := ⟨TcpService.init, fun _ => []⟩

/-- A new service state in which `effects` have happened on the connection `id`. -/
def after (m : Machine κ) (service : TcpService κ) (id : SocketId) (effects : List (Effect κ)) :
    Machine κ :=
  ⟨service, Function.update m.history id (m.history id ++ effects)⟩

/-- A new service state in which the connection `id` is new, if there is an id. -/
def opened (m : Machine κ) (service : TcpService κ) : Option SocketId → Machine κ
  | none => { m with service }
  | some id => ⟨service, Function.update m.history id []⟩

/-- `sendMessage(socket_id, …)`. -/
def sendMessage (m : Machine κ) (id : SocketId) (buffer : List UInt8)
    (sendCompleteCb : SendCompleteCallback κ) (kernel : SendResult) : Option (Machine κ) :=
  match m.service.connections id with
  | none => some m
  | some connection =>
    (m.service.sendOn id connection buffer sendCompleteCb kernel).map fun service =>
      m.after service id
        (connection.sendEffects m.service.connWriteBufferMaxSize buffer sendCompleteCb kernel)

/-- The loop of `broadcastMessage`. -/
def broadcastMessage (buffer : List UInt8) (kernel : SocketId → SendResult) :
    List SocketId → Machine κ → Option (Machine κ)
  | [], m => some m
  | id :: order, m => do
    let m ← m.sendMessage id buffer .null (kernel id)
    broadcastMessage buffer kernel order m

/-- The loop calls the write callback of the socket, which may be null (`none`). -/
def writable (m : Machine κ) (id : SocketId) (kernel : SendResult) (socketError : Int) :
    Option (Machine κ) := do
  let socket ← m.service.sockets id
  match socket.writeCb with
  | .null => none
  | .onAsyncConnectSocketWrite =>
    some { m with service := m.service.onAsyncConnectSocketWrite id socket socketError }
  | .onSocketWrite =>
    some (m.after (m.service.onSocketWrite id socket kernel) id
      (((m.service.connections id).map (·.writeEffects kernel)).getD []))

/-- A timer with one call is released before its callback runs. -/
def timeout (m : Machine κ) (timerId : TimerId) : Option (Machine κ) := do
  let timerCb ← m.service.ioService.timers timerId
  let service := { m.service with ioService := m.service.ioService.stopTimer timerId }
  match timerCb with
  | .onAsyncConnectTimeout => some { m with service := service.onAsyncConnectTimeout timerId }
  | .onSendMessageError => some { m with service := service.onSendMessageError timerId }

def step (m : Machine κ) : Op κ → Option (Machine κ)
  | .buildListenSocket fd => some { m with service := m.service.buildListenSocket fd }
  | .buildConnectedSocket fd =>
    some (m.opened (m.service.buildConnectedSocket fd) (m.service.newSocketId fd))
  | .buildAsyncConnectSocket fd timeoutMs =>
    some (m.opened (m.service.buildAsyncConnectSocket fd timeoutMs) (m.service.newSocketId fd))
  | .sendMessage id buffer sendCompleteCb kernel => m.sendMessage id buffer sendCompleteCb kernel
  | .broadcastMessage buffer order kernel => broadcastMessage buffer kernel order m
  | .closeSocket id => some { m with service := m.service.closeSocket id }
  | .setContext id context => some { m with service := m.service.setContext id context }
  | .setSendBufferMaxSize size =>
    some { m with service := { m.service with connWriteBufferMaxSize := size } }
  | .writable id kernel socketError => m.writable id kernel socketError
  | .readable id readEnd => some { m with service := m.service.onSocketRead id readEnd }
  | .socketError id socketError errno =>
    some { m with service := m.service.onSocketError id socketError errno }
  | .timeout timerId => m.timeout timerId

/-- What the loop and the hash map guarantee: an event comes for a socket that is registered and
has the callback, a timer is pending, and an iteration meets every connection once. -/
def Enabled (m : Machine κ) : Op κ → Prop
  | .broadcastMessage _ order _ =>
    order.Nodup ∧ ∀ id, id ∈ order ↔ (m.service.connections id).isSome
  | .writable id _ _ =>
    ∃ socket, m.service.sockets id = some socket ∧ socket.attached = true ∧ socket.writeCb ≠ .null
  | .readable id _ =>
    ∃ socket, m.service.sockets id = some socket ∧ socket.attached = true ∧
      socket.readCb = .onSocketRead
  | .socketError id _ _ => ∃ socket, m.service.sockets id = some socket ∧ socket.attached = true
  | .timeout timerId => (m.service.ioService.timers timerId).isSome
  | _ => True

end Machine

end TcpService

end Brickred
