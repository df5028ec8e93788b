import Brickred.TcpService.Model

/-!
# How sockets are created

`listen`, `shareListen`, `connect`, `asyncConnect` and the loop of `onListenSocketRead`, with the
system calls they make.  What the kernel answers is an input, `epoll_ctl` included, whose answer the
three build functions do not look at.

* `Call.run` — the five operations; `Call.Opens` — which system calls have to succeed.
* `buildListenSocket_added`, … — where `epoll_ctl` succeeds, this is the coarser model.
* `Built.allOrNothing_iff`, `run_opened` — the build functions, and what comes before them.
* `create_allOrNothing_iff` — when a creation is all or nothing.
-/

set_option autoImplicit false

namespace Brickred

namespace TcpService

namespace Creation

variable {κ : Type}

def ECONNABORTED : Int := 103

def EINPROGRESS : Int := 115

/-- `SocketAddress::Protocol`; an address of an unknown one has no native address. -/
inductive Protocol where
  | unknown
  | ipV4
  | ipV6
  deriving DecidableEq

/-- What a system call returns that does not fail. -/
abbrev Descriptor := { fd : Int // 0 ≤ fd ∧ fd < 2 ^ 31 }

/-- What the system calls answer; `none` is the `-1` of a failure, and so is `false`. -/
structure SystemCalls where
  socket : Option Descriptor
  dup : Option Descriptor
  accept : Option Descriptor
  setCloseOnExec : Bool
  setReuseAddr : Bool
  setTcpNoDelay : Bool
  setNonblock : Bool
  bind : Bool
  listen : Bool
  /-- the `errno` of a `connect` that fails -/
  connect : Option Int
  /-- `epoll_ctl(EPOLL_CTL_ADD)` -/
  epollCtlAdd : Bool
  /-- `errno` behind an `acceptNonblock` that fails -/
  acceptErrno : Int

/-! ## `TcpSocket` -/

/-- `if (… == false) { close(); return false; }`, for a socket that has been opened. -/
def closeUnless (ok : Bool) : Option Descriptor → Option Descriptor
  | none => none
  | some fd => if ok then some fd else none

/-- `TcpSocket::open` -/
def openSocket (k : SystemCalls) (protocol : Protocol) : Option Descriptor :=
  if protocol = .unknown then none else closeUnless k.setCloseOnExec k.socket

def passiveOpen (k : SystemCalls) (addr : Protocol) : Option Descriptor :=
  closeUnless (k.setReuseAddr && k.setTcpNoDelay && k.bind && k.listen) (openSocket k addr)

def passiveOpenNonblock (k : SystemCalls) (addr : Protocol) : Option Descriptor :=
  closeUnless k.setNonblock (passiveOpen k addr)

def activeOpen (k : SystemCalls) (addr : Protocol) : Option Descriptor :=
  closeUnless (k.setReuseAddr && k.setTcpNoDelay && k.connect.isNone) (openSocket k addr)

def activeOpenNonblock (k : SystemCalls) (addr : Protocol) : Option Descriptor :=
  closeUnless k.setNonblock (activeOpen k addr)

/-- `TcpSocket::accept` -/
def acceptSocket (k : SystemCalls) : Option Descriptor := closeUnless k.setCloseOnExec k.accept

def acceptNonblock (k : SystemCalls) : Option Descriptor :=
  closeUnless (k.setTcpNoDelay && k.setNonblock) (acceptSocket k)

/-! ## Building -/

/-- `added` is what `attachIOService` returns; nobody looks at it. -/
def buildListenSocket (s : TcpService κ) (fd : Int) (added : Bool) : SocketId × TcpService κ :=
  let id := SocketIdAllocator.getId s.socketIdAllocator fd
  let s := s.countSocket
  if (s.sockets id).isSome then (-1, s)
  else (id, s.setSocket id ⟨.onListenSocketRead, .null, added⟩)

def buildConnectedSocket (s : TcpService κ) (fd : Int) (added : Bool) : SocketId × TcpService κ :=
  let id := SocketIdAllocator.getId s.socketIdAllocator fd
  let s := s.countSocket
  if (s.sockets id).isSome then (-1, s)
  else if (s.connections id).isSome then (-1, s)
  else (id, (s.setSocket id ⟨.onSocketRead, .null, added⟩).setConnection id (.new .connected))

def buildAsyncConnectSocket (s : TcpService κ) (fd timeoutMs : Int) (added : Bool) :
    SocketId × TcpService κ :=
  let id := SocketIdAllocator.getId s.socketIdAllocator fd
  let s := s.countSocket
  if (s.sockets id).isSome then (-1, s)
  else if (s.connections id).isSome then (-1, s)
  else
    let s := if timeoutMs > 0 then s.addSocketTimer id .onAsyncConnectTimeout else s
    (id, (s.setSocket id ⟨.null, .onAsyncConnectSocketWrite, added⟩).setConnection id
      (.new .connecting))

/-! ## The operations -/

def listen (s : TcpService κ) (addr : Protocol) (k : SystemCalls) : SocketId × TcpService κ :=
  match passiveOpenNonblock k addr with
  | none => (-1, s)
  | some fd => buildListenSocket s fd k.epollCtlAdd

def shareListen (s : TcpService κ) (k : SystemCalls) : SocketId × TcpService κ :=
  match k.dup with
  | none => (-1, s)
  | some fd => buildListenSocket s fd k.epollCtlAdd

def connect (s : TcpService κ) (addr : Protocol) (k : SystemCalls) : SocketId × TcpService κ :=
  match activeOpenNonblock k addr with
  | none => (-1, s)
  | some fd => buildConnectedSocket s fd k.epollCtlAdd

/-- The second result is what is stored behind `complete`, where that is not `NULL`. -/
def asyncConnect (s : TcpService κ) (addr : Protocol) (timeoutMs : Int) (k : SystemCalls) :
    SocketId × Option Bool × TcpService κ :=
  match openSocket k addr with
  | none => (-1, none, s)
  | some fd =>
    if k.setReuseAddr = false ∨ k.setTcpNoDelay = false ∨ k.setNonblock = false then (-1, none, s)
    else
      match k.connect with
      | none =>
        let (id, s) := buildConnectedSocket s fd k.epollCtlAdd
        if id = -1 then (-1, none, s) else (id, some true, s)
      | some errno =>
        if errno = EINPROGRESS then
          let (id, s) := buildAsyncConnectSocket s fd timeoutMs k.epollCtlAdd
          if id = -1 then (-1, none, s) else (id, some false, s)
        else (-1, none, s)

/-- One turn of the loop of `onListenSocketRead`. -/
structure Attempt (κ : Type) where
  before : TcpService κ
  calls : SystemCalls
  /-- the argument of `NewConnectionCallback`; `-1` is no call -/
  socketId : SocketId
  after : TcpService κ

/-- The loop, as far as the answers of the kernel reach; the `NewConnectionCallback` may do anything
to the service.  `none`: it has closed the listener, and the next turn would use the deleted
socket. -/
def onListenSocketRead (newConnCb : TcpService κ → SocketId → SocketId → TcpService κ)
    (listener : SocketId) :
    List SystemCalls → TcpService κ → List (Attempt κ) × Option (TcpService κ)
  | [], s => ([], some s)
  | k :: answers, s =>
    match acceptNonblock k with
    | none =>
      if k.acceptErrno = EAGAIN then ([⟨s, k, -1, s⟩], some s)
      else if k.acceptErrno = ECONNABORTED then
        let (attempts, result) := onListenSocketRead newConnCb listener answers s
        (⟨s, k, -1, s⟩ :: attempts, result)
      else ([⟨s, k, -1, s⟩], some s)
    | some fd =>
      let (id, s') := buildConnectedSocket s fd k.epollCtlAdd
      if id = -1 then ([⟨s, k, -1, s'⟩], some s')
      else
        let s'' := newConnCb s' listener id
        if (s''.sockets listener).isNone then ([⟨s, k, id, s'⟩], none)
        else
          let (attempts, result) := onListenSocketRead newConnCb listener answers s''
          (⟨s, k, id, s'⟩ :: attempts, result)

inductive Call where
  | listen (addr : Protocol)
  | shareListen
  | connect (addr : Protocol)
  | asyncConnect (addr : Protocol) (timeoutMs : Int)
  /-- a turn of the loop of `onListenSocketRead` -/
  | accept

namespace Call

/-- What is returned, and the service behind the call. -/
def run (s : TcpService κ) (k : SystemCalls) : Call → SocketId × TcpService κ
  | listen addr => Creation.listen s addr k
  | shareListen => Creation.shareListen s k
  | connect addr => Creation.connect s addr k
  | asyncConnect addr timeoutMs =>
    ((Creation.asyncConnect s addr timeoutMs k).1, (Creation.asyncConnect s addr timeoutMs k).2.2)
  | accept =>
    match acceptNonblock k with
    | none => (-1, s)
    | some fd => buildConnectedSocket s fd k.epollCtlAdd

def isListener : Call → Bool
  | listen _ => true
  | shareListen => true
  | _ => false

/-- The descriptor of the new socket. -/
def descriptor (k : SystemCalls) : Call → Option Descriptor
  | shareListen => k.dup
  | accept => k.accept
  | _ => k.socket

/-- No system call before `epoll_ctl` fails; a `connect` may be in progress. -/
def Opens (k : SystemCalls) : Call → Prop
  | listen addr => addr ≠ .unknown ∧ k.setCloseOnExec ∧ k.setReuseAddr ∧ k.setTcpNoDelay ∧ k.bind ∧
      k.listen ∧ k.setNonblock
  | shareListen => True
  | connect addr => addr ≠ .unknown ∧ k.setCloseOnExec ∧ k.setReuseAddr ∧ k.setTcpNoDelay ∧
      k.connect = none ∧ k.setNonblock
  | asyncConnect addr _ => addr ≠ .unknown ∧ k.setCloseOnExec ∧ k.setReuseAddr ∧ k.setTcpNoDelay ∧
      k.setNonblock ∧ (k.connect = none ∨ k.connect = some EINPROGRESS)
  | accept => k.setCloseOnExec ∧ k.setTcpNoDelay ∧ k.setNonblock

end Call

/-! ## All or nothing -/

/-- The operation fails and changes no table, or the socket is in the tables and registered. -/
def AllOrNothing (listener : Bool) (s : TcpService κ) (r : SocketId × TcpService κ) : Prop :=
  (r.1 = -1 ∧ r.2.sockets = s.sockets ∧ r.2.connections = s.connections ∧
    r.2.socketToTimerMap = s.socketToTimerMap ∧ r.2.timerToSocketMap = s.timerToSocketMap) ∨
  (r.1 ≠ -1 ∧ (∃ socket, r.2.sockets r.1 = some socket ∧ socket.attached = true) ∧
    (listener = false → (r.2.connections r.1).isSome))

/-- The id of the new socket is in use. -/
def InUse (listener : Bool) (s : TcpService κ) (fd : Int) : Prop :=
  (s.sockets (SocketIdAllocator.getId s.socketIdAllocator fd)).isSome ∨
    listener = false ∧ (s.connections (SocketIdAllocator.getId s.socketIdAllocator fd)).isSome

/-- What the three build functions do. -/
structure Built (listener : Bool) (s : TcpService κ) (fd : Int) (added : Bool)
    (r : SocketId × TcpService κ) : Prop where
  inUse : InUse listener s fd → r = (-1, s.countSocket)
  created : ¬ InUse listener s fd →
    r.1 = SocketIdAllocator.getId s.socketIdAllocator fd ∧
      (∃ socket, socket.attached = added ∧ r.2.sockets =
        Function.update s.sockets (SocketIdAllocator.getId s.socketIdAllocator fd) (some socket)) ∧
      (listener = false → (r.2.connections r.1).isSome)

theorem next_bounds (value : Int) :
    0 ≤ SocketIdAllocator.next value ∧ SocketIdAllocator.next value < 2 ^ 31 := by
  have hlt := toInt_lt (value + 1)
  unfold SocketIdAllocator.next
  split <;> omega

theorem getId_ne (value : Int) (fd : Descriptor) :
    SocketIdAllocator.getId value fd ≠ (-1 : Int) := by
  obtain ⟨hnonneg, hlt⟩ := next_bounds value
  obtain ⟨fd, hfd, hfd'⟩ := fd
  change toInt64 (SocketIdAllocator.next value * 2 ^ 32 + fd) ≠ -1
  rw [toInt64_eq (by omega) (by omega)]
  omega

section Build

variable {listener added : Bool} {s : TcpService κ} {fd : Descriptor}
  {r : SocketId × TcpService κ}

/-- **A build function** is all or nothing where `epoll_ctl` succeeds, or where it builds nothing. -/
theorem Built.allOrNothing_iff (h : Built listener s fd added r) :
    AllOrNothing listener s r ↔ added = true ∨ InUse listener s fd := by
  by_cases hused : InUse listener s fd
  · rw [h.inUse hused]
    exact iff_of_true (Or.inl ⟨rfl, rfl, rfl, rfl, rfl⟩) (Or.inr hused)
  obtain ⟨hid, ⟨socket, hadded, hsockets⟩, hconn⟩ := h.created hused
  have hne := getId_ne s.socketIdAllocator fd
  have hsocket : r.2.sockets r.1 = some socket := by
    rw [hsockets, hid]
    exact Function.update_self _ _ _
  unfold AllOrNothing
  rw [or_iff_left hused, ← hadded]
  constructor
  · rintro (⟨hfail, -⟩ | ⟨-, ⟨socket', hsocket', hattached⟩, -⟩)
    · exact absurd (hid.symm.trans hfail) hne
    · rw [hsocket] at hsocket'
      cases hsocket'
      exact hattached
  · exact fun hattached => Or.inr ⟨hid ▸ hne, ⟨socket, hsocket, hattached⟩, hconn⟩

theorem buildListenSocket_built (s : TcpService κ) (fd : Int) (added : Bool) :
    Built true s fd added (buildListenSocket s fd added) := by
  unfold buildListenSocket
  dsimp only
  refine ⟨fun hused => ?_, fun hfree => ?_⟩
  · rcases hused with hsocket | ⟨hlistener, -⟩
    · exact if_pos hsocket
    · cases hlistener
  · have hsocket : ¬ (s.countSocket.sockets
        (SocketIdAllocator.getId s.socketIdAllocator fd)).isSome = true := fun h => hfree (Or.inl h)
    rw [if_neg hsocket]
    exact ⟨rfl, ⟨_, rfl, rfl⟩, fun hlistener => by cases hlistener⟩

/-- The two checks of the functions that build a connection as well. -/
theorem built_of_checks {fd : Int} (socket : TcpSocket) (hadded : socket.attached = added)
    {s' : TcpService κ} (hsockets : s'.sockets =
      Function.update s.sockets (SocketIdAllocator.getId s.socketIdAllocator fd) (some socket))
    (hconn : (s'.connections (SocketIdAllocator.getId s.socketIdAllocator fd)).isSome) :
    Built false s fd added
      (if (s.sockets (SocketIdAllocator.getId s.socketIdAllocator fd)).isSome then
        (-1, s.countSocket)
      else if (s.connections (SocketIdAllocator.getId s.socketIdAllocator fd)).isSome then
        (-1, s.countSocket)
      else (SocketIdAllocator.getId s.socketIdAllocator fd, s')) := by
  refine ⟨fun hused => ?_, fun hfree => ?_⟩
  · split
    · rfl
    · rename_i hsocket
      exact if_pos (hused.resolve_left hsocket).2
  · rw [if_neg fun h => hfree (Or.inl h), if_neg fun h => hfree (Or.inr ⟨rfl, h⟩)]
    exact ⟨rfl, ⟨socket, hadded, hsockets⟩, fun _ => hconn⟩

theorem setConnection_isSome (s : TcpService κ) (id : SocketId) (connection : TcpConnection κ) :
    ((s.setConnection id connection).connections id).isSome := by
  rw [setConnection_self]
  rfl

theorem buildConnectedSocket_built (s : TcpService κ) (fd : Int) (added : Bool) :
    Built false s fd added (buildConnectedSocket s fd added) :=
  built_of_checks ⟨.onSocketRead, .null, added⟩ rfl rfl (setConnection_isSome _ _ _)

theorem buildAsyncConnectSocket_built (s : TcpService κ) (fd timeoutMs : Int) (added : Bool) :
    Built false s fd added (buildAsyncConnectSocket s fd timeoutMs added) := by
  refine built_of_checks ⟨.null, .onAsyncConnectSocketWrite, added⟩ rfl ?_
    (setConnection_isSome _ _ _)
  rw [setConnection_sockets, setSocket_sockets]
  split <;> rfl

/-- With a successful `epoll_ctl`, the coarser model. -/
theorem buildListenSocket_added (s : TcpService κ) (fd : Int) :
    (buildListenSocket s fd true).2 = s.buildListenSocket fd := by
  unfold buildListenSocket TcpService.buildListenSocket
  dsimp only
  split <;> rfl

theorem newSocketId_eq (s : TcpService κ) (fd : Int) :
    s.newSocketId fd =
      if (s.sockets (SocketIdAllocator.getId s.socketIdAllocator fd)).isSome then none
      else if (s.connections (SocketIdAllocator.getId s.socketIdAllocator fd)).isSome then none
      else some (SocketIdAllocator.getId s.socketIdAllocator fd) := by
  unfold newSocketId
  dsimp only
  by_cases hsocket : (s.sockets (SocketIdAllocator.getId s.socketIdAllocator fd)).isSome
  · rw [if_pos (Or.inl hsocket), if_pos hsocket]
  · rw [if_neg hsocket]
    simp only [hsocket, false_or, Bool.false_eq_true]

theorem buildConnectedSocket_added (s : TcpService κ) (fd : Int) :
    (buildConnectedSocket s fd true).2 = s.buildConnectedSocket fd := by
  change (if (s.sockets _).isSome then (-1, s.countSocket)
    else if (s.connections _).isSome then (-1, s.countSocket) else _ :
      SocketId × TcpService κ).2 = _
  rw [TcpService.buildConnectedSocket, newSocketId_eq]
  split
  · rfl
  · split <;> rfl

theorem buildAsyncConnectSocket_added (s : TcpService κ) (fd timeoutMs : Int) :
    (buildAsyncConnectSocket s fd timeoutMs true).2 =
      s.buildAsyncConnectSocket fd timeoutMs := by
  change (if (s.sockets _).isSome then (-1, s.countSocket)
    else if (s.connections _).isSome then (-1, s.countSocket) else _ :
      SocketId × TcpService κ).2 = _
  rw [TcpService.buildAsyncConnectSocket, newSocketId_eq]
  split
  · rfl
  · split <;> rfl

end Build

/-! ## Opening -/

section Opening

variable {k : SystemCalls} {addr : Protocol} {fd : Descriptor}

theorem closeUnless_iff {ok : Bool} {socket : Option Descriptor} :
    closeUnless ok socket = some fd ↔ socket = some fd ∧ ok = true := by
  cases socket with
  | none => exact iff_of_false (fun h => by cases h) (fun h => by cases h.1)
  | some fd' => cases ok <;> simp [closeUnless]

theorem openSocket_iff : openSocket k addr = some fd ↔
    addr ≠ .unknown ∧ k.socket = some fd ∧ k.setCloseOnExec = true := by
  unfold openSocket
  split
  · rename_i h
    exact iff_of_false (fun h => by cases h) fun h' => h'.1 h
  · rename_i h
    rw [closeUnless_iff, and_iff_right h]

theorem passiveOpenNonblock_iff : passiveOpenNonblock k addr = some fd ↔
    k.socket = some fd ∧ (Call.listen addr).Opens k := by
  rw [passiveOpenNonblock, closeUnless_iff, passiveOpen, closeUnless_iff, openSocket_iff]
  simp only [Bool.and_eq_true, Call.Opens]
  tauto

theorem activeOpenNonblock_iff : activeOpenNonblock k addr = some fd ↔
    k.socket = some fd ∧ (Call.connect addr).Opens k := by
  rw [activeOpenNonblock, closeUnless_iff, activeOpen, closeUnless_iff, openSocket_iff]
  simp only [Bool.and_eq_true, Option.isNone_iff_eq_none, Call.Opens]
  tauto

theorem acceptNonblock_iff : acceptNonblock k = some fd ↔
    k.accept = some fd ∧ Call.accept.Opens k := by
  rw [acceptNonblock, closeUnless_iff, acceptSocket, closeUnless_iff]
  simp only [Bool.and_eq_true, Call.Opens]
  tauto

end Opening

section Run

variable {s : TcpService κ} {k : SystemCalls} {call : Call}

/-- The call fails, or gets as far as a build function with the descriptor `epoll_ctl` is asked to
add. -/
def Opened (s : TcpService κ) (k : SystemCalls) (call : Call) (r : SocketId × TcpService κ) :
    Prop :=
  (∃ fd, call.descriptor k = some fd ∧ call.Opens k ∧
      Built call.isListener s fd k.epollCtlAdd r) ∨
    (∀ fd, call.descriptor k = some fd → ¬ call.Opens k) ∧ r = (-1, s)

theorem opened_of_iff {socket : Option Descriptor} {build : Descriptor → SocketId × TcpService κ}
    (hopen : ∀ fd, socket = some fd ↔ call.descriptor k = some fd ∧ call.Opens k)
    (hbuild : ∀ fd, socket = some fd → Built call.isListener s fd k.epollCtlAdd (build fd)) :
    Opened s k call (socket.elim (-1, s) build) := by
  cases socket with
  | none => exact Or.inr ⟨fun fd hfd hopens => (by cases (hopen fd).2 ⟨hfd, hopens⟩), rfl⟩
  | some fd =>
    obtain ⟨hfd, hopens⟩ := (hopen fd).1 rfl
    exact Or.inl ⟨fd, hfd, hopens, hbuild fd rfl⟩

/-- The socket of `asyncConnect`, unless `connect` fails for good. -/
def asyncSocket (k : SystemCalls) (addr : Protocol) : Option Descriptor :=
  closeUnless (k.setReuseAddr && k.setTcpNoDelay && k.setNonblock &&
    (k.connect.isNone || k.connect = some EINPROGRESS)) (openSocket k addr)

theorem asyncSocket_iff {addr : Protocol} {timeoutMs : Int} {fd : Descriptor} :
    asyncSocket k addr = some fd ↔
      k.socket = some fd ∧ (Call.asyncConnect addr timeoutMs).Opens k := by
  rw [asyncSocket, closeUnless_iff, openSocket_iff]
  simp only [Bool.and_eq_true, Bool.or_eq_true, Option.isNone_iff_eq_none, decide_eq_true_eq,
    Call.Opens]
  tauto

/-- `asyncConnect` builds a connection that is complete, or one that is in progress. -/
theorem asyncConnect_eq (s : TcpService κ) (k : SystemCalls) (addr : Protocol) (timeoutMs : Int) :
    (Call.asyncConnect addr timeoutMs).run s k =
      (asyncSocket k addr).elim (-1, s) fun fd =>
        if k.connect = none then buildConnectedSocket s fd k.epollCtlAdd
        else buildAsyncConnectSocket s fd timeoutMs k.epollCtlAdd := by
  have hpair : ∀ (r : SocketId × TcpService κ) (complete : Option Bool),
      ((if r.1 = -1 then (-1, none, r.2) else (r.1, complete, r.2) :
        SocketId × Option Bool × TcpService κ).1,
      (if r.1 = -1 then (-1, none, r.2) else (r.1, complete, r.2) :
        SocketId × Option Bool × TcpService κ).2.2) = r := by
    intro r complete
    split
    · rename_i hfail
      exact Prod.ext hfail.symm rfl
    · rfl
  change ((Creation.asyncConnect s addr timeoutMs k).1,
    (Creation.asyncConnect s addr timeoutMs k).2.2) = _
  unfold Creation.asyncConnect asyncSocket
  cases openSocket k addr with
  | none => rfl
  | some fd =>
    dsimp only
    by_cases hopts : k.setReuseAddr = false ∨ k.setTcpNoDelay = false ∨ k.setNonblock = false
    · rw [if_pos hopts]
      rcases hopts with h | h | h <;> simp [h, closeUnless]
    · rw [if_neg hopts]
      simp only [not_or, Bool.not_eq_false] at hopts
      obtain ⟨hreuse, hdelay, hblock⟩ := hopts
      cases hconnect : k.connect with
      | none =>
        simp only [closeUnless, hreuse, hdelay, hblock, Option.isNone_none, Bool.true_or,
          Bool.and_self, if_true, Option.elim_some]
        exact hpair (buildConnectedSocket s fd k.epollCtlAdd) (some true)
      | some errno =>
        by_cases herrno : errno = EINPROGRESS
        · simp only [closeUnless, hreuse, hdelay, hblock, herrno, decide_true, Bool.or_true,
            Bool.and_self, if_true, Option.elim_some, reduceCtorEq, if_false]
          exact hpair (buildAsyncConnectSocket s fd timeoutMs k.epollCtlAdd) (some false)
        · simp [closeUnless, herrno]

/-- **A call** either fails before it builds anything, or builds a socket. -/
theorem run_opened (s : TcpService κ) (k : SystemCalls) (call : Call) :
    Opened s k call (call.run s k) := by
  cases call with
  | listen addr =>
    have hrun : (Call.listen addr).run s k = (passiveOpenNonblock k addr).elim (-1, s) fun fd =>
        buildListenSocket s fd k.epollCtlAdd := by
      change Creation.listen s addr k = _
      unfold Creation.listen
      cases passiveOpenNonblock k addr <;> rfl
    rw [hrun]
    exact opened_of_iff (fun fd => passiveOpenNonblock_iff) fun fd _ =>
      buildListenSocket_built s fd _
  | shareListen =>
    have hrun : Call.shareListen.run s k = k.dup.elim (-1, s) fun fd =>
        buildListenSocket s fd k.epollCtlAdd := by
      change Creation.shareListen s k = _
      unfold Creation.shareListen
      cases k.dup <;> rfl
    rw [hrun]
    exact opened_of_iff (fun fd => (and_iff_left trivial).symm) fun fd _ =>
      buildListenSocket_built s fd _
  | connect addr =>
    have hrun : (Call.connect addr).run s k = (activeOpenNonblock k addr).elim (-1, s) fun fd =>
        buildConnectedSocket s fd k.epollCtlAdd := by
      change Creation.connect s addr k = _
      unfold Creation.connect
      cases activeOpenNonblock k addr <;> rfl
    rw [hrun]
    exact opened_of_iff (fun fd => activeOpenNonblock_iff) fun fd _ =>
      buildConnectedSocket_built s fd _
  | asyncConnect addr timeoutMs =>
    rw [asyncConnect_eq]
    refine opened_of_iff (fun fd => asyncSocket_iff) fun fd _ => ?_
    split
    · exact buildConnectedSocket_built s fd _
    · exact buildAsyncConnectSocket_built s fd timeoutMs _
  | accept =>
    have hrun : Call.accept.run s k = (acceptNonblock k).elim (-1, s) fun fd =>
        buildConnectedSocket s fd k.epollCtlAdd := by
      rw [Call.run]
      cases acceptNonblock k <;> rfl
    rw [hrun]
    exact opened_of_iff (fun fd => acceptNonblock_iff) fun fd _ =>
      buildConnectedSocket_built s fd _

/-- `epoll_ctl` succeeds, or is not reached, or the id is in use. -/
def Registers (s : TcpService κ) (k : SystemCalls) (call : Call) : Prop :=
  k.epollCtlAdd = true ∨
    ∀ fd, call.descriptor k = some fd → call.Opens k → InUse call.isListener s fd

theorem run_allOrNothing_iff (s : TcpService κ) (k : SystemCalls) (call : Call) :
    AllOrNothing call.isListener s (call.run s k) ↔ Registers s k call := by
  unfold Registers
  rcases run_opened s k call with ⟨fd, hfd, hopens, hbuilt⟩ | ⟨hfails, hrun⟩
  · rw [hbuilt.allOrNothing_iff]
    refine or_congr Iff.rfl ⟨fun hused fd' hfd' _ => ?_, fun h => h fd hfd hopens⟩
    rw [hfd] at hfd'
    cases hfd'
    exact hused
  · rw [hrun]
    exact iff_of_true (Or.inl ⟨rfl, rfl, rfl, rfl, rfl⟩)
      (Or.inr fun fd hfd hopens => absurd hopens (hfails fd hfd))

/-- The turns of the loop are calls. -/
theorem attempt_eq_run {newConnCb : TcpService κ → SocketId → SocketId → TcpService κ}
    {listener : SocketId} :
    ∀ {answers : List SystemCalls} {s : TcpService κ} {attempt : Attempt κ},
    attempt ∈ (onListenSocketRead newConnCb listener answers s).1 →
    (attempt.socketId, attempt.after) = Call.accept.run attempt.before attempt.calls
  | [], _, _, h => by cases h
  | k :: answers, s, attempt, h => by
    unfold onListenSocketRead at h
    cases hopen : acceptNonblock k with
    | none =>
      have hrun : (-1, s) = Call.accept.run s k := by rw [Call.run, hopen]
      rw [hopen] at h
      dsimp only at h
      split at h
      · cases List.mem_singleton.1 h
        exact hrun
      · split at h
        · rcases List.mem_cons.1 h with rfl | h
          · exact hrun
          · exact attempt_eq_run h
        · cases List.mem_singleton.1 h
          exact hrun
    | some fd =>
      have hrun : buildConnectedSocket s fd k.epollCtlAdd = Call.accept.run s k := by
        rw [Call.run, hopen]
      rw [hopen] at h
      dsimp only at h
      split at h
      · rename_i hfail
        cases List.mem_singleton.1 h
        rw [← hrun]
        exact Prod.ext hfail.symm rfl
      · split at h
        · cases List.mem_singleton.1 h
          exact hrun
        · rcases List.mem_cons.1 h with rfl | h
          · exact hrun
          · exact attempt_eq_run h

/-- **Creating a socket is all or nothing** exactly where `epoll_ctl` succeeds, or does not matter. -/
theorem create_allOrNothing_iff :
    (∀ (s : TcpService κ) (k : SystemCalls) (call : Call),
      AllOrNothing call.isListener s (call.run s k) ↔ Registers s k call) ∧
    ∀ (newConnCb : TcpService κ → SocketId → SocketId → TcpService κ) (listener : SocketId)
      (answers : List SystemCalls) (s : TcpService κ),
      ∀ attempt ∈ (onListenSocketRead newConnCb listener answers s).1,
      (AllOrNothing false attempt.before (attempt.socketId, attempt.after) ↔
        Registers attempt.before attempt.calls .accept) := by
  refine ⟨run_allOrNothing_iff, fun newConnCb listener answers s attempt hmem => ?_⟩
  rw [attempt_eq_run hmem]
  exact run_allOrNothing_iff attempt.before attempt.calls .accept

end Run

/-! ## A listener that is not registered -/

/-- System calls that succeed, but for `epoll_ctl`. -/
def answers (epollCtlAdd : Bool) : SystemCalls where
  socket := some ⟨5, by decide⟩
  dup := none
  accept := none
  setCloseOnExec := true
  setReuseAddr := true
  setTcpNoDelay := true
  setNonblock := true
  bind := true
  listen := true
  connect := none
  epollCtlAdd
  acceptErrno := EAGAIN

theorem listener_registered :
    AllOrNothing (Call.listen .ipV4).isListener (init : TcpService Unit)
      ((Call.listen .ipV4).run init (answers true)) :=
  (create_allOrNothing_iff.1 init (answers true) (.listen .ipV4)).2 (Or.inl rfl)

/-- **`epoll_ctl` fails for a listener**: `listen` returns its id, and no event will come for it. -/
theorem listener_not_registered :
    ((Call.listen .ipV4).run (init : TcpService Unit) (answers false)).1 = 2 ^ 32 + 5 ∧
      ¬ AllOrNothing (Call.listen .ipV4).isListener (init : TcpService Unit)
        ((Call.listen .ipV4).run init (answers false)) := by
  refine ⟨by decide, fun h => ?_⟩
  rcases h with ⟨hfail, -⟩ | ⟨-, ⟨socket, hsocket, hattached⟩, -⟩
  · exact absurd hfail (by decide)
  · cases hsocket
    cases hattached

end Creation

end TcpService

end Brickred
