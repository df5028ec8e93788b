import Brickred.TcpService.Interest
import Brickred.TcpService.Reports
import Brickred.TcpService.Stream

/-!
# Applications on the service (model of what the programs under `test/` share)

The servers and clients under `test/` are made alike.  Their callbacks see one connection at a
time, keep a context for it, take bytes out of its read buffer and send messages on it; a peer
close and an error they answer with `closeSocket`.  They set no limits for the buffers.

* `Application` — the two callbacks that differ, `Session` — what an application has of a
  connection, with a record of all bytes it was handed and of all bytes it passed to
  `sendMessage`.
* `Host`, `Host.step` — the service with an application on it; one event from the loop, with
  everything the callbacks do about it.
* `Host.Enabled` — what the loop guarantees.
* `Host.Faithful` — the events in which no direct send copies other bytes than those it leaves.
-/

set_option autoImplicit false

namespace Brickred

namespace TcpService

open Runs

variable {σ ι κ : Type}

/-! ## The application -/

/-- What a callback asks of the service. -/
inductive Call where
  /-- and `closeSocket` when it returns `false`, if `closeOnFailure` is set -/
  | sendMessage (buffer : List UInt8) (closeOnFailure : Bool)
  | sendMessageThenClose (buffer : List UInt8)
  | closeSocket

@[simp] def Call.buffer : Call → List UInt8
  | sendMessage buffer _ => buffer
  | sendMessageThenClose buffer => buffer
  | closeSocket => []

/-- `onRecvMessage` gets the read buffer and returns what it leaves in it; `ι` is what else it may
depend on. -/
structure Application (σ ι : Type) where
  context : σ
  onNewConnection : σ → σ × List Call
  onRecvMessage : ι → σ → List UInt8 → σ × List UInt8 × List Call

structure Session (σ : Type) where
  context : σ
  readBuffer : List UInt8
  received : List UInt8
  said : List UInt8

namespace Application

variable (app : Application σ ι)

def session : Session σ := ⟨app.context, [], [], []⟩

/-- `NewConnectionCallback`. -/
def greet (s : Session σ) : Session σ × List Call :=
  let (context, calls) := app.onNewConnection s.context
  ({ s with context, said := s.said ++ calls.flatMap Call.buffer }, calls)

/-- `RecvMessageCallback`. -/
def hand (input : ι) (s : Session σ) (readBuffer : List UInt8) : Session σ × List Call :=
  let (context, rest, calls) := app.onRecvMessage input s.context readBuffer
  (⟨context, rest, s.received ++ readBuffer.drop s.readBuffer.length,
    s.said ++ calls.flatMap Call.buffer⟩, calls)

end Application

/-! ## The service with an application -/

/-- What `sendMessage` returns. -/
def SendOutcome.returned : SendOutcome → Bool
  | .refused => false
  | .failed _ => false
  | .queued => true
  | .complete => true

namespace Machine

def sendReturns (m : Machine κ) (id : SocketId) (buffer : List UInt8) (kernel : SendResult) :
    Bool :=
  (m.service.connections id).any fun connection =>
    (connection.sendMessage m.service.connWriteBufferMaxSize buffer .null kernel).2.returned

def call (m : Machine κ) (id : SocketId) : Call → SendResult → Option (Machine κ)
  | .sendMessage buffer closeOnFailure, kernel =>
    (m.sendMessage id buffer .null kernel).bind fun m' =>
      if closeOnFailure && !m.sendReturns id buffer kernel then m'.step (.closeSocket id)
      else some m'
  | .sendMessageThenClose buffer, kernel => m.sendMessage id buffer .close kernel
  | .closeSocket, _ => m.step (.closeSocket id)

/-- The calls of a callback, with what the kernel answers to each. -/
def calls (m : Machine κ) (id : SocketId) : List Call → List SendResult → Option (Machine κ)
  | [], [] => some m
  | call :: calls, kernel :: kernels =>
    (m.call id call kernel).bind fun m' => m'.calls id calls kernels
  | [], _ :: _ => none
  | _ :: _, [] => none

end Machine

structure Host (σ κ : Type) where
  machine : Machine κ
  sessions : SocketId → Session σ

namespace Host

/-- An event of the loop, or the beginning of a connection; `kernels` is what the kernel answers
to the sends of the callback. -/
inductive Event (ι : Type) where
  | listen (fd : Int)
  /-- a turn of the loop of `onListenSocketRead` -/
  | accept (fd : Int) (kernels : List SendResult)
  /-- `connect`, or an `asyncConnect` that completes at once -/
  | connect (fd : Int)
  | asyncConnect (fd timeoutMs : Int)
  | readable (id : SocketId) (turns : List Turn) (input : ι) (kernels : List SendResult)
  | writable (id : SocketId) (kernel : SendResult) (socketError : Int)
      (kernels : List SendResult)
  | socketError (id : SocketId) (socketError errno : Int)
  | timeout (timerId : TimerId)

variable (app : Application σ ι)

def init : Host σ κ := ⟨Machine.init, fun _ => app.session⟩

/-- A callback has run, and its calls are made. -/
def perform (h : Host σ κ) (id : SocketId) (r : Session σ × List Call)
    (kernels : List SendResult) : Option (Host σ κ) :=
  (h.machine.calls id r.2 kernels).map fun machine =>
    ⟨machine, Function.update h.sessions id r.1⟩

def onNewConnection (h : Host σ κ) (id : SocketId) (kernels : List SendResult) :
    Option (Host σ κ) :=
  h.perform id (app.greet (h.sessions id)) kernels

def onRecvMessage (h : Host σ κ) (id : SocketId) (input : ι) (readBuffer : List UInt8)
    (kernels : List SendResult) : Option (Host σ κ) :=
  h.perform id (app.hand input (h.sessions id) readBuffer) kernels

def closeSocket (h : Host σ κ) (id : SocketId) : Option (Host σ κ) :=
  (h.machine.step (.closeSocket id)).map fun machine => { h with machine }

def told (h : Host σ κ) (id : SocketId) (kernels : List SendResult) : Report → Option (Host σ κ)
  | .newConnection => h.onNewConnection app id kernels
  | .peerClose => h.closeSocket id
  | .error => h.closeSocket id

/-- A step of the service, and the callback that it calls. -/
def event (h : Host σ κ) (op : Op κ) (kernels : List SendResult) : Option (Host σ κ) :=
  (h.machine.step op).bind fun machine =>
    match h.machine.report op with
    | none => some { h with machine }
    | some (id, report) => told app { h with machine } id kernels report

/-- A connection that is opened gets a new session. -/
def opened (h : Host σ κ) (op : Op κ) : Option (Host σ κ) :=
  (h.machine.step op).map fun machine =>
    match h.machine.opens op with
    | none => { h with machine }
    | some id => ⟨machine, Function.update h.sessions id app.session⟩

/-- An error is reported before the bytes that came with it are: the application closes the
socket, and the read buffer is gone. -/
def onSocketRead (h : Host σ κ) (id : SocketId) (turns : List Turn) (input : ι)
    (kernels : List SendResult) : Option (Host σ κ) :=
  match h.machine.service.connections id with
  | none => some h
  | some _ =>
    (readLoop 0 turns (h.sessions id).readBuffer false).bind
      fun (readBuffer, dataArrive, readEnd) =>
        match readEnd with
        | .failed errno => h.event app (.readable id (.failed errno)) []
        | readEnd =>
          (if dataArrive then h.onRecvMessage app id input readBuffer kernels else some h).bind
            fun h => h.event app (.readable id readEnd) []

def step (h : Host σ κ) : Event ι → Option (Host σ κ)
  | .listen fd => (h.machine.step (.buildListenSocket fd)).map fun machine => { h with machine }
  | .accept fd kernels =>
    (h.opened app (.buildConnectedSocket fd)).bind fun h' =>
      match h.machine.service.newSocketId fd with
      | none => some h'
      | some id => h'.onNewConnection app id kernels
  | .connect fd => h.opened app (.buildConnectedSocket fd)
  | .asyncConnect fd timeoutMs => h.opened app (.buildAsyncConnectSocket fd timeoutMs)
  | .readable id turns input kernels => h.onSocketRead app id turns input kernels
  | .writable id kernel socketError kernels =>
    h.event app (.writable id kernel socketError) kernels
  | .socketError id socketError errno => h.event app (.socketError id socketError errno) []
  | .timeout timerId => h.event app (.timeout timerId) []

/-- What the loop guarantees. -/
def Enabled (h : Host σ κ) : Event ι → Prop
  | .readable id _ _ _ => h.machine.Enabled (.readable id .drained)
  | .writable id kernel socketError _ => h.machine.Enabled (.writable id kernel socketError)
  | .socketError id socketError errno => h.machine.Enabled (.socketError id socketError errno)
  | .timeout timerId => h.machine.Enabled (.timeout timerId)
  | _ => True

/-- In the direct sends of a callback what `memcpy` copies is what was not sent. -/
def Copied (calls : List Call) (kernels : List SendResult) : Prop :=
  ∀ p ∈ calls.zip kernels, RestCopied p.1.buffer p.2

instance (calls : List Call) (kernels : List SendResult) : Decidable (Copied calls kernels) :=
  inferInstanceAs (Decidable (∀ p ∈ calls.zip kernels, RestCopied p.1.buffer p.2))

end Host

/-- The count of the bytes that are taken fits an `int`. -/
def SendResult.Counted : SendResult → Prop
  | accepts room _ => room < 2 ^ 31
  | fails _ => True

namespace Host

variable (app : Application σ ι)

/-- The kernel takes a message of a direct send as a whole or not at all, or one of which a part
will do, and the counts fit an `int`. -/
def Faithful (h : Host σ κ) : Event ι → Prop
  | .accept _ kernels => Copied (app.greet app.session).2 kernels
  | .readable id turns input kernels =>
    ∀ r, readLoop 0 turns (h.sessions id).readBuffer false = some r →
      Copied (app.hand input (h.sessions id) r.1).2 kernels
  | .writable id kernel _ kernels =>
    kernel.Counted ∧ Copied (app.greet (h.sessions id)).2 kernels
  | _ => True

end Host

end TcpService

end Brickred
