import Brickred.TcpService.Channel

/-!
# What the application is told

* `Report` — `NewConnectionCallback`, `PeerCloseCallback` and `ErrorCallback`, as the handlers of a
  socket call them.  (`onListenSocketRead` calls the first one too, for a socket that is connected
  when it gets its id.)
* `Observed` — the service, what has been reported about each connection since it was opened, and
  the connections on which a call of `sendMessage` has failed and `onSendMessageError` is still to
  run.
* `Fresh` — what the kernel and the number of sockets guarantee for a new id.
-/

set_option autoImplicit false

namespace Brickred

namespace TcpService

variable {κ : Type}

/-! ## Reports -/

inductive Report where
  | newConnection
  | peerClose
  | error
  deriving DecidableEq

def writeReport (connection : TcpConnection κ) (kernel : SendResult) : Option Report :=
  match (connection.onSocketWrite kernel).2 with
  | .failed _ => some .error
  | .pending => none
  | .drained _ => none

def connectReport (socketError : Int) : Report :=
  if socketError ≠ 0 then .error else .newConnection

def readReport : ReadEnd → Option Report
  | .drained => none
  | .peerClose => some .peerClose
  | .failed _ => some .error

def SendOutcome.isFailed : SendOutcome → Bool
  | .failed _ => true
  | _ => false

namespace Machine

/-- What the write callback of a socket reports. -/
def writableReport (m : Machine κ) (id : SocketId) (kernel : SendResult) (socketError : Int) :
    Option Report := do
  let socket ← m.service.sockets id
  let connection ← m.service.connections id
  match socket.writeCb with
  | .null => none
  | .onAsyncConnectSocketWrite => some (connectReport socketError)
  | .onSocketWrite => writeReport connection kernel

/-- What a step of the service reports, and about which socket. -/
def report (m : Machine κ) : Op κ → Option (SocketId × Report)
  | .writable id kernel socketError => (m.writableReport id kernel socketError).map (id, ·)
  | .readable id readEnd =>
    if (m.service.connections id).isSome then (readReport readEnd).map (id, ·) else none
  | .socketError id _ _ => if (m.service.connections id).isSome then some (id, .error) else none
  | .timeout timerId => do
    let id ← m.service.timerToSocketMap timerId
    if (m.service.sockets id).isSome ∧ (m.service.connections id).isSome then some (id, .error)
    else none
  | _ => none

def reportTo (m : Machine κ) (op : Op κ) (c : SocketId) : List Report :=
  match m.report op with
  | none => []
  | some (id, r) => if id = c then [r] else []

/-- A call of `sendMessage` that fails. -/
def sendFails (m : Machine κ) (id : SocketId) (buffer : List UInt8)
    (sendCompleteCb : SendCompleteCallback κ) (kernel : SendResult) : Bool :=
  (m.service.connections id).any fun connection =>
    (connection.sendMessage m.service.connWriteBufferMaxSize buffer sendCompleteCb
      kernel).2.isFailed

/-- The connection that a step opens. -/
def opens (m : Machine κ) : Op κ → Option SocketId
  | .buildConnectedSocket fd => m.service.newSocketId fd
  | .buildAsyncConnectSocket fd _ => m.service.newSocketId fd
  | _ => none

/-- The socket for which `onSendMessageError` runs. -/
def settles (m : Machine κ) : Op κ → Option SocketId
  | .timeout timerId =>
    match m.service.ioService.timers timerId with
    | some .onSendMessageError => m.service.timerToSocketMap timerId
    | _ => none
  | _ => none

/-- A descriptor is a non-negative `int`, and the counter of the allocator does not start over. -/
def Fresh (m : Machine κ) : Op κ → Prop
  | .buildListenSocket fd => 0 ≤ fd ∧ fd < 2 ^ 31 ∧ m.service.socketIdAllocator + 1 < 2 ^ 31
  | .buildConnectedSocket fd => 0 ≤ fd ∧ fd < 2 ^ 31 ∧ m.service.socketIdAllocator + 1 < 2 ^ 31
  | .buildAsyncConnectSocket fd _ => 0 ≤ fd ∧ fd < 2 ^ 31 ∧ m.service.socketIdAllocator + 1 < 2 ^ 31
  | _ => True

end Machine

/-! ## The service, observed -/

structure Observed (κ : Type) where
  machine : Machine κ
  reports : SocketId → List Report
  awaiting : SocketId → Bool

namespace Observed

def init : Observed κ := ⟨.init, fun _ => [], fun _ => false⟩

def sendMessage (w : Observed κ) (id : SocketId) (buffer : List UInt8)
    (sendCompleteCb : SendCompleteCallback κ) (kernel : SendResult) : Option (Observed κ) :=
  (w.machine.sendMessage id buffer sendCompleteCb kernel).map fun machine =>
    { w with
      machine
      awaiting := if w.machine.sendFails id buffer sendCompleteCb kernel then
        Function.update w.awaiting id true
      else w.awaiting }

/-- The loop of `broadcastMessage`. -/
def broadcastMessage (buffer : List UInt8) (kernel : SocketId → SendResult) :
    List SocketId → Observed κ → Option (Observed κ)
  | [], w => some w
  | id :: order, w => do
    let w ← w.sendMessage id buffer .null (kernel id)
    broadcastMessage buffer kernel order w

/-- An id starts anew when it is opened. -/
def reportsAfter (w : Observed κ) (op : Op κ) (c : SocketId) : List Report :=
  if w.machine.opens op = some c then [] else w.reports c ++ w.machine.reportTo op c

def awaitingAfter (w : Observed κ) (op : Op κ) (c : SocketId) : Bool :=
  if w.machine.opens op = some c ∨ w.machine.settles op = some c then false else w.awaiting c

/-- A step in which no message is sent. -/
def quietStep (w : Observed κ) (op : Op κ) : Option (Observed κ) :=
  (w.machine.step op).map fun machine => ⟨machine, w.reportsAfter op, w.awaitingAfter op⟩

def step (w : Observed κ) : Op κ → Option (Observed κ)
  | .sendMessage id buffer sendCompleteCb kernel => w.sendMessage id buffer sendCompleteCb kernel
  | .broadcastMessage buffer order kernel => broadcastMessage buffer kernel order w
  | op => w.quietStep op

/-- What the kernel and the loop guarantee, and fewer than `2 ^ 31` sockets: the counter of the
allocator, which counts them, does not start over. -/
def Enabled (w : Observed κ) (op : Op κ) : Prop := w.machine.Enabled op ∧ w.machine.Fresh op

/-! ## The observer does not interfere -/

section Machine

variable {w w' : Observed κ} {op : Op κ}

theorem sendMessage_machine {id : SocketId} {buffer : List UInt8}
    {sendCompleteCb : SendCompleteCallback κ} {kernel : SendResult}
    (h : w.sendMessage id buffer sendCompleteCb kernel = some w') :
    w.machine.sendMessage id buffer sendCompleteCb kernel = some w'.machine := by
  obtain ⟨machine, hs, rfl⟩ := Option.map_eq_some_iff.1 h
  exact hs

theorem broadcastMessage_machine {buffer : List UInt8} {kernel : SocketId → SendResult} :
    ∀ {order : List SocketId} {w : Observed κ}, broadcastMessage buffer kernel order w = some w' →
      Machine.broadcastMessage buffer kernel order w.machine = some w'.machine
  | [], _, h => by
    cases h
    rfl
  | id :: order, w, h => by
    obtain ⟨w₁, h₁, h⟩ := Option.bind_eq_some_iff.1 h
    rw [Machine.broadcastMessage, sendMessage_machine h₁]
    exact broadcastMessage_machine h

theorem quietStep_machine (h : w.quietStep op = some w') :
    w.machine.step op = some w'.machine := by
  obtain ⟨machine, hs, rfl⟩ := Option.map_eq_some_iff.1 h
  exact hs

theorem step_machine (h : w.step op = some w') : w.machine.step op = some w'.machine := by
  cases op with
  | sendMessage id buffer sendCompleteCb kernel => exact sendMessage_machine h
  | broadcastMessage buffer order kernel => exact broadcastMessage_machine h
  | buildListenSocket fd | buildConnectedSocket fd | buildAsyncConnectSocket fd timeoutMs
  | closeSocket id | setContext id context | setSendBufferMaxSize size
  | writable id kernel socketError | readable id readEnd | socketError id socketError errno
  | timeout timerId => exact quietStep_machine h

theorem sendMessage_reports {id : SocketId} {buffer : List UInt8}
    {sendCompleteCb : SendCompleteCallback κ}
    {kernel : SendResult} (h : w.sendMessage id buffer sendCompleteCb kernel = some w') :
    w'.reports = w.reports := by
  obtain ⟨machine, _, rfl⟩ := Option.map_eq_some_iff.1 h
  rfl

theorem broadcastMessage_reports {buffer : List UInt8} {kernel : SocketId → SendResult} :
    ∀ {order : List SocketId} {w : Observed κ}, broadcastMessage buffer kernel order w = some w' →
      w'.reports = w.reports
  | [], _, h => by
    cases h
    rfl
  | id :: order, w, h => by
    obtain ⟨w₁, h₁, h⟩ := Option.bind_eq_some_iff.1 h
    exact (broadcastMessage_reports h).trans (sendMessage_reports h₁)

theorem quietStep_reports (h : w.quietStep op = some w') : w'.reports = w.reportsAfter op := by
  obtain ⟨machine, _, rfl⟩ := Option.map_eq_some_iff.1 h
  rfl

theorem broadcastMessage_defined {buffer : List UInt8} {kernel : SocketId → SendResult} :
    ∀ {order : List SocketId} {w : Observed κ} {m : Machine κ},
      Machine.broadcastMessage buffer kernel order w.machine = some m →
      ∃ w', broadcastMessage buffer kernel order w = some w'
  | [], w, _, _ => ⟨w, rfl⟩
  | id :: order, w, m, h => by
    obtain ⟨m₁, h₁, h⟩ := Option.bind_eq_some_iff.1 h
    obtain ⟨w', hw'⟩ := broadcastMessage_defined (w := { w with
      machine := m₁
      awaiting := if w.machine.sendFails id buffer .null (kernel id) then
        Function.update w.awaiting id true else w.awaiting }) h
    refine ⟨w', ?_⟩
    rw [broadcastMessage, sendMessage, h₁]
    exact hw'

theorem quietStep_defined {m : Machine κ} (h : w.machine.step op = some m) :
    ∃ w', w.quietStep op = some w' :=
  ⟨_, congrArg (Option.map _) h⟩

/-- Whatever the service can do, it can do under observation. -/
theorem step_defined {m : Machine κ} (h : w.machine.step op = some m) : ∃ w', w.step op = some w' := by
  cases op with
  | sendMessage id buffer sendCompleteCb kernel =>
    exact ⟨_, congrArg (Option.map _) h⟩
  | broadcastMessage buffer order kernel => exact broadcastMessage_defined h
  | buildListenSocket fd | buildConnectedSocket fd | buildAsyncConnectSocket fd timeoutMs
  | closeSocket id | setContext id context | setSendBufferMaxSize size
  | writable id kernel socketError | readable id readEnd | socketError id socketError errno
  | timeout timerId => exact quietStep_defined h

end Machine

end Observed

end TcpService

end Brickred
