import Brickred.Lib.Ledger
import Brickred.Programs.PortScan.Addresses
import Brickred.TcpService.Creation
import Brickred.TcpService.Reports

/-!
# The port scanner (model of `PortScanner` in `port_scan.cc`)

Connections are opened to one address after the other, as many at a time as are allowed.  One that
is made says that the port is open, one that fails that it is not; either way it is closed and the
next address has its turn.  `loop` begins by forgetting a `quit` that came before.

* `tryConnect` — the loop that opens connections; `scan` — up to the loop of the service.
* `step` — an event and its callback.
* `Enabled`, `Faithful` — what is asked of the loop and of the kernel.
-/

set_option autoImplicit false

namespace Brickred

namespace PortScan

open StringUtil TcpService Runs

variable {κ : Type}

/-- What becomes of an address; `lost` is a connection whose peer is not known when it is made. -/
inductive Verdict where
  | opened
  | closed
  | lost
  deriving DecidableEq

/-- `class PortScanner`, with `quit_` of its `IOService`.  The ledger and `again` are a record:
which address is tried on which socket and what became of it, and how many errors came on
connections that had been made at once. -/
structure PortScanner (κ : Type) where
  machine : Machine κ
  quit : Bool
  addrRange : SocketAddressRange
  openPorts : List UInt8 → List UInt16
  maxConnCount : Int
  timeout : Int
  activeConnCount : Int
  startedScanCount : Int
  finishedScanCount : Int
  ledger : Ledger SocketId Address Verdict
  again : ℕ

namespace PortScanner

/-! ## The members -/

/-- `none` is `false`. -/
def allocateConnection (s : PortScanner κ) : Option (PortScanner κ) :=
  if s.activeConnCount ≥ s.maxConnCount then none
  else some { s with
    activeConnCount := s.activeConnCount + 1
    startedScanCount := toInt (s.startedScanCount + 1) }

def freeConnection (s : PortScanner κ) : PortScanner κ :=
  { s with
    finishedScanCount := toInt (s.finishedScanCount + 1)
    activeConnCount := s.activeConnCount - 1 }

def addSuccuss (s : PortScanner κ) (addr : Address) : PortScanner κ :=
  { s with openPorts := Function.update s.openPorts addr.1 (s.openPorts addr.1 ++ [addr.2]) }
    |>.freeConnection

def addFailed (s : PortScanner κ) : PortScanner κ := s.freeConnection

def checkFinished (s : PortScanner κ) : PortScanner κ :=
  if s.finishedScanCount = s.startedScanCount then { s with quit := true } else s

/-- `TcpService::asyncConnect`: the id, and what is stored behind `complete`. -/
def asyncConnect (m : Machine κ) (timeoutMs : Int) (k : Creation.SystemCalls) :
    Machine κ × SocketId × Option Bool :=
  match Creation.asyncConnect m.service .ipV4 timeoutMs k with
  | (id, complete, service) => (m.opened service (if id = -1 then none else some id), id, complete)

/-- What `tryConnect` does with an address. -/
def connect (s : PortScanner κ) (addr : Address) (k : Creation.SystemCalls) : PortScanner κ :=
  match asyncConnect s.machine s.timeout k with
  | (machine, id, complete) =>
    if id ≥ 0 then
      if complete = some true then
        { s with machine, ledger := s.ledger.book addr .opened }.addSuccuss addr
      else { s with machine, ledger := s.ledger.wait id addr }
    else { s with machine, ledger := s.ledger.book addr .closed }.addFailed

/-- How a turn of the loop of `tryConnect` begins. -/
inductive Head (κ : Type) where
  | returns (s : PortScanner κ)
  | tries (addr : Address) (s : PortScanner κ)

/-- `none` is an index behind the end of a vector. -/
def head (inet : Inet) (s : PortScanner κ) : Option (Head κ) :=
  match s.allocateConnection with
  | none => some (.returns s)
  | some s =>
    (s.addrRange.getNextAddress inet).map fun r =>
      match r with
      | (none, addrRange) => .returns { s with addrRange }.freeConnection.checkFinished
      | (some addr, addrRange) => .tries addr { s with addrRange }

/-- The loop, with what the system calls answer to each `asyncConnect`. -/
def tryConnect (inet : Inet) : List Creation.SystemCalls → PortScanner κ → Option (PortScanner κ)
  | [], s =>
    match s.head inet with
    | some (.returns s) => some s
    | _ => none
  | k :: answers, s =>
    match s.head inet with
    | some (.tries addr s) => tryConnect inet answers (s.connect addr k)
    | _ => none

def closeSocket (s : PortScanner κ) (id : SocketId) : PortScanner κ :=
  { s with machine := { s.machine with service := s.machine.service.closeSocket id } }

/-- `peer` is what `getPeerAddress` gives, `none` where it returns `false`. -/
def onNewConnection (inet : Inet) (s : PortScanner κ) (id : SocketId) (peer : Option Address)
    (answers : List Creation.SystemCalls) : Option (PortScanner κ) :=
  let s := match peer with
    | some addr => { s with ledger := s.ledger.settle id .opened }.addSuccuss addr
    | none => { s with ledger := s.ledger.settle id .lost }
  tryConnect inet answers (s.closeSocket id)

def onPeerClose (s : PortScanner κ) (id : SocketId) : PortScanner κ := s.closeSocket id

def onError (inet : Inet) (s : PortScanner κ) (id : SocketId)
    (answers : List Creation.SystemCalls) : Option (PortScanner κ) :=
  let s := if s.ledger.waiting.any (fun p => p.1 = id) then
      { s with ledger := s.ledger.settle id .closed }
    else { s with again := s.again + 1 }
  tryConnect inet answers (s.addFailed.closeSocket id)

/-! ## The loop -/

/-- An event, with what the system calls in its callback answer. -/
inductive Event where
  | readable (id : SocketId) (readEnd : ReadEnd) (answers : List Creation.SystemCalls)
  | writable (id : SocketId) (kernel : SendResult) (socketError : Int) (peer : Option Address)
      (answers : List Creation.SystemCalls)
  | socketError (id : SocketId) (socketError errno : Int) (answers : List Creation.SystemCalls)
  | timeout (timerId : TimerId) (answers : List Creation.SystemCalls)

namespace Event

def op : Event → Op κ
  | readable id readEnd _ => .readable id readEnd
  | writable id kernel error _ _ => .writable id kernel error
  | socketError id error errno _ => .socketError id error errno
  | timeout timerId _ => .timeout timerId

def answers : Event → List Creation.SystemCalls
  | readable _ _ answers => answers
  | writable _ _ _ _ answers => answers
  | socketError _ _ _ answers => answers
  | timeout _ answers => answers

/-- Only `onNewConnection` asks for it. -/
def peer : Event → Option Address
  | writable _ _ _ peer _ => peer
  | _ => none

end Event

def told (inet : Inet) (s : PortScanner κ) (id : SocketId) (e : Event) :
    Report → Option (PortScanner κ)
  | .newConnection => s.onNewConnection inet id e.peer e.answers
  | .peerClose => if e.answers = [] then some (s.onPeerClose id) else none
  | .error => s.onError inet id e.answers

/-- A step of the service, and the callback that it calls. -/
def step (inet : Inet) (s : PortScanner κ) (e : Event) : Option (PortScanner κ) :=
  (s.machine.step e.op).bind fun machine =>
    match s.machine.report e.op with
    | none => if e.answers = [] then some { s with machine } else none
    | some (id, report) => told inet { s with machine } id e report

/-- `scan`, up to the first turn of `loop`. -/
def scan (inet : Inet) (addrRange : SocketAddressRange) (maxConnCount timeout : Int)
    (answers : List Creation.SystemCalls) : Option (PortScanner κ) :=
  (tryConnect inet answers
    ⟨.init, false, addrRange, fun _ => [], maxConnCount, timeout, 0, 0, 0, .empty, 0⟩).map
      fun s => { s with quit := false }

/-- What the loop guarantees. -/
def Enabled (s : PortScanner κ) (e : Event) : Prop := s.machine.Enabled e.op

/-- `epoll_ctl` adds every socket. -/
def Adds (answers : List Creation.SystemCalls) : Prop := ∀ k ∈ answers, k.epollCtlAdd = true

/-- And `getpeername` names the address that the socket was to be connected to. -/
def Faithful (s : PortScanner κ) (e : Event) : Prop :=
  Adds e.answers ∧
    match e with
    | .writable id _ _ (some addr) _ => ∀ addr', (id, addr') ∈ s.ledger.waiting → addr = addr'
    | _ => True

end PortScanner

end PortScan

end Brickred
