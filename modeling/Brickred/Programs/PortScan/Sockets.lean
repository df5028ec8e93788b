import Brickred.Programs.PortScan.Scanner

/-!
# The sockets of the port scanner

* `Registered` — a socket is being connected exactly where the ledger has an address that waits;
  the others belong to connections that were made at once.
* `Opening.registered` — an `asyncConnect` keeps it.
* `step_touches`, `Registered.closed` — an event and the closing of the socket it is about keep it.
-/

set_option autoImplicit false

namespace Brickred

namespace PortScan

open TcpService

variable {κ : Type}

def connecting : TcpSocket := ⟨.null, .onAsyncConnectSocketWrite, true⟩

def connected : TcpSocket := ⟨.onSocketRead, .null, true⟩

structure Registered (s : TcpService κ) (waiting : List (SocketId × Address)) : Prop where
  waits : ∀ id addr, (id, addr) ∈ waiting → s.sockets id = some connecting
  others : ∀ id socket, s.sockets id = some socket → (∀ addr, (id, addr) ∉ waiting) →
    socket = connected
  connections : ∀ id, (s.connections id).isSome = (s.sockets id).isSome

theorem registered_init : Registered (TcpService.init : TcpService κ) [] :=
  ⟨nofun, nofun, fun _ => rfl⟩

/-! ## Opening -/

/-- What a build function returns, for a socket of the given kind. -/
inductive Opening (socket : TcpSocket) (s : TcpService κ) (r : SocketId × TcpService κ) : Prop
  | inUse (hid : r.1 = -1) (hsockets : r.2.sockets = s.sockets)
    (hconnections : r.2.connections = s.connections)
  | created (hid : 0 ≤ r.1) (hfree : s.sockets r.1 = none)
    (hsockets : r.2.sockets = Function.update s.sockets r.1 (some socket))
    (connection : TcpConnection κ)
    (hconnections : r.2.connections = Function.update s.connections r.1 (some connection))

theorem getId_nonneg (value : Int) (fd : Creation.Descriptor) :
    0 ≤ SocketIdAllocator.getId value fd := by
  obtain ⟨hnonneg, hlt⟩ := Creation.next_bounds value
  obtain ⟨fd, hfd, hfd'⟩ := fd
  change 0 ≤ toInt64 (SocketIdAllocator.next value * 2 ^ 32 + fd)
  rw [toInt64_eq (by omega) (by omega)]
  omega

/-- The two checks before a connection is built. -/
theorem opening_of_checks (s : TcpService κ) (fd : Creation.Descriptor) {socket : TcpSocket}
    {connection : TcpConnection κ} {s' : TcpService κ}
    (hsockets : s'.sockets =
      Function.update s.sockets (SocketIdAllocator.getId s.socketIdAllocator fd) (some socket))
    (hconnections : s'.connections = Function.update s.connections
      (SocketIdAllocator.getId s.socketIdAllocator fd) (some connection)) :
    Opening socket s
      (if (s.sockets (SocketIdAllocator.getId s.socketIdAllocator fd)).isSome then
        (-1, s.countSocket)
      else if (s.connections (SocketIdAllocator.getId s.socketIdAllocator fd)).isSome then
        (-1, s.countSocket)
      else (SocketIdAllocator.getId s.socketIdAllocator fd, s')) := by
  split
  · exact .inUse rfl rfl rfl
  · rename_i hfree
    split
    · exact .inUse rfl rfl rfl
    · refine .created (getId_nonneg _ fd) ?_ hsockets connection hconnections
      exact Option.not_isSome_iff_eq_none.1 hfree

theorem opening_buildConnectedSocket (s : TcpService κ) (fd : Creation.Descriptor) :
    Opening connected s (Creation.buildConnectedSocket s fd true) :=
  opening_of_checks s fd rfl rfl

theorem opening_buildAsyncConnectSocket (s : TcpService κ) (fd : Creation.Descriptor)
    (timeoutMs : Int) :
    Opening connecting s (Creation.buildAsyncConnectSocket s fd timeoutMs true) := by
  refine @opening_of_checks κ s fd connecting (.new .connecting) _ ?_ ?_
  · rw [setConnection_sockets, setSocket_sockets]
    split <;> rfl
  · rw [setConnection_connections, setSocket_connections]
    split <;> rfl

section Opening

variable {s : TcpService κ} {waiting : List (SocketId × Address)} {socket : TcpSocket}
  {r : SocketId × TcpService κ}

/-- A new id does not wait. -/
theorem Registered.new (h : Registered s waiting) {id : SocketId} (hfree : s.sockets id = none)
    (addr : Address) : (id, addr) ∉ waiting := by
  intro hmem
  rw [h.waits id addr hmem] at hfree
  cases hfree

theorem Registered.congr (h : Registered s waiting) {s' : TcpService κ}
    (hsockets : s'.sockets = s.sockets) (hconnections : s'.connections = s.connections) :
    Registered s' waiting := by
  obtain ⟨hwaits, hothers, hcoherent⟩ := h
  refine ⟨?_, ?_, ?_⟩ <;> rw [hsockets]
  · exact hwaits
  · exact hothers
  · rw [hconnections]
    exact hcoherent

/-- A socket that is opened is in the ledger if it is being connected. -/
theorem Registered.opened (h : Registered s waiting) {s' : TcpService κ} {id : SocketId}
    {connection : TcpConnection κ} (hfree : s.sockets id = none)
    (hsockets : s'.sockets = Function.update s.sockets id (some socket))
    (hconnections : s'.connections = Function.update s.connections id (some connection))
    {waiting' : List (SocketId × Address)}
    (hwaiting : ∀ j addr, j ≠ id → ((j, addr) ∈ waiting' ↔ (j, addr) ∈ waiting))
    (hid : (∃ addr, (id, addr) ∈ waiting') ∧ socket = connecting ∨
      (∀ addr, (id, addr) ∉ waiting') ∧ socket = connected) : Registered s' waiting' := by
  refine ⟨fun j addr hmem => ?_, fun j socket' hj hnot => ?_, fun j => ?_⟩
  · rw [hsockets]
    by_cases heq : j = id
    · subst heq
      obtain ⟨_, rfl⟩ | ⟨hnot, _⟩ := hid
      · exact Function.update_self ..
      · exact absurd hmem (hnot addr)
    · rw [Function.update_of_ne heq]
      exact h.waits j addr ((hwaiting j addr heq).1 hmem)
  · rw [hsockets] at hj
    by_cases heq : j = id
    · subst heq
      rw [Function.update_self] at hj
      obtain ⟨⟨addr, hmem⟩, _⟩ | ⟨_, hsocket⟩ := hid
      · exact absurd hmem (hnot addr)
      · exact (Option.some.inj hj).symm.trans hsocket
    · rw [Function.update_of_ne heq] at hj
      exact h.others j socket' hj fun addr hmem => hnot addr ((hwaiting j addr heq).2 hmem)
  · rw [hsockets, hconnections]
    by_cases heq : j = id
    · subst heq
      rw [Function.update_self, Function.update_self]
      rfl
    · rw [Function.update_of_ne heq, Function.update_of_ne heq]
      exact h.connections j

end Opening

/-- What `asyncConnect` returns, stores behind `complete` and leaves. -/
inductive Attempt (s : TcpService κ) : SocketId × Option Bool × TcpService κ → Prop
  | failed (complete : Option Bool) (s' : TcpService κ) (hsockets : s'.sockets = s.sockets)
    (hconnections : s'.connections = s.connections) : Attempt s (-1, complete, s')
  | made (id : SocketId) (s' : TcpService κ) (h : Opening connected s (id, s')) (hid : id ≠ -1) :
    Attempt s (id, some true, s')
  | begun (id : SocketId) (s' : TcpService κ) (h : Opening connecting s (id, s')) (hid : id ≠ -1) :
    Attempt s (id, some false, s')

theorem Opening.congr_inUse {socket : TcpSocket} {s : TcpService κ} {r : SocketId × TcpService κ}
    (h : Opening socket s r) (hid : r.1 = -1) :
    r.2.sockets = s.sockets ∧ r.2.connections = s.connections := by
  cases h with
  | inUse _ hsockets hconnections => exact ⟨hsockets, hconnections⟩
  | created hnonneg =>
    rw [hid] at hnonneg
    exact absurd hnonneg (by decide)

theorem asyncConnect_attempt (s : TcpService κ) (timeoutMs : Int) {k : Creation.SystemCalls}
    (hadded : k.epollCtlAdd = true) :
    Attempt s (Creation.asyncConnect s .ipV4 timeoutMs k) := by
  unfold Creation.asyncConnect
  rw [hadded]
  cases Creation.openSocket k .ipV4 with
  | none => exact .failed none s rfl rfl
  | some fd =>
    dsimp only
    split
    · exact .failed none s rfl rfl
    cases k.connect with
    | none =>
      have hopening := opening_buildConnectedSocket s fd
      dsimp only
      generalize Creation.buildConnectedSocket s fd true = r at hopening
      split
      · rename_i hid
        obtain ⟨hsockets, hconnections⟩ := hopening.congr_inUse hid
        exact .failed none r.2 hsockets hconnections
      · rename_i hid
        exact .made r.1 r.2 hopening hid
    | some errno =>
      dsimp only
      split
      · have hopening := opening_buildAsyncConnectSocket s fd timeoutMs
        generalize Creation.buildAsyncConnectSocket s fd timeoutMs true = r at hopening
        split
        · rename_i hid
          obtain ⟨hsockets, hconnections⟩ := hopening.congr_inUse hid
          exact .failed none r.2 hsockets hconnections
        · rename_i hid
          exact .begun r.1 r.2 hopening hid
      · exact .failed none s rfl rfl

/-! ## Events -/

/-- For the application the socket `j` stays what it is. -/
def Same (s s' : TcpService κ) (j : SocketId) : Prop :=
  s'.sockets j = s.sockets j ∧ (s'.connections j).isSome = (s.connections j).isSome

theorem same_of_eq {s s' : TcpService κ} (hsockets : s'.sockets = s.sockets)
    (hconnections : s'.connections = s.connections) (j : SocketId) : Same s s' j :=
  ⟨congrFun hsockets j, by rw [hconnections]⟩

section Events

variable {m m' : Machine κ} {waiting : List (SocketId × Address)}

theorem Registered.same {s s' : TcpService κ} (h : Registered s waiting)
    (hsame : ∀ j, Same s s' j) : Registered s' waiting := by
  refine ⟨fun j addr hmem => ?_, fun j socket hj => ?_, fun j => ?_⟩
  · rw [(hsame j).1]
    exact h.waits j addr hmem
  · rw [(hsame j).1] at hj
    exact h.others j socket hj
  · rw [(hsame j).1, (hsame j).2]
    exact h.connections j

/-- Once the socket of an event is closed, the ledger is right without it. -/
theorem Registered.closed {s s' : TcpService κ} (h : Registered s waiting) {id : SocketId}
    (hothers : ∀ j, j ≠ id → Same s s' j) {waiting' : List (SocketId × Address)}
    (hwaiting : ∀ p, p ∈ waiting' ↔ p ∈ waiting ∧ p.1 ≠ id) :
    Registered (s'.closeSocket id) waiting' := by
  refine ⟨fun j addr hmem => ?_, fun j socket hj hnot => ?_, fun j => ?_⟩
  · obtain ⟨hmem, hne⟩ := (hwaiting (j, addr)).1 hmem
    rw [closeSocket_sockets, Function.update_of_ne hne, (hothers j hne).1]
    exact h.waits j addr hmem
  · rw [closeSocket_sockets] at hj
    have hne : j ≠ id := by
      rintro rfl
      rw [Function.update_self] at hj
      cases hj
    rw [Function.update_of_ne hne, (hothers j hne).1] at hj
    exact h.others j socket hj fun addr hmem => hnot addr ((hwaiting (j, addr)).2 ⟨hmem, hne⟩)
  · rw [closeSocket_sockets, closeSocket_connections]
    by_cases heq : j = id
    · subst heq
      rw [Function.update_self, Function.update_self]
      rfl
    · rw [Function.update_of_ne heq, Function.update_of_ne heq, (hothers j heq).1,
        (hothers j heq).2]
      exact h.connections j

/-- What an event does: it is about one socket, and the others stay. -/
structure Touches (m m' : Machine κ) (waiting : List (SocketId × Address))
    (e : PortScanner.Event) : Prop where
  quiet : m.report e.op = none → ∀ j, Same m.service m'.service j
  others : ∀ id r, m.report e.op = some (id, r) → ∀ j, j ≠ id → Same m.service m'.service j
  /-- a connection that is made was being made -/
  made : ∀ id, m.report e.op = some (id, .newConnection) → (∃ addr, (id, addr) ∈ waiting) ∧
    ∃ kernel error peer answers, e = .writable id kernel error peer answers
  /-- one that is closed by the peer was not -/
  ended : ∀ id, m.report e.op = some (id, .peerClose) → ∀ addr, (id, addr) ∉ waiting

/-- Where the write callback is set, the socket is being connected. -/
theorem Registered.making {s : TcpService κ} (h : Registered s waiting) {id : SocketId}
    {socket : TcpSocket} (hsocket : s.sockets id = some socket) (hcb : socket.writeCb ≠ .null) :
    (∃ addr, (id, addr) ∈ waiting) ∧ socket = connecting := by
  by_cases hmem : ∃ addr, (id, addr) ∈ waiting
  · obtain ⟨addr, hmem⟩ := hmem
    have hwaits := h.waits id addr hmem
    rw [hsocket] at hwaits
    exact ⟨⟨addr, hmem⟩, Option.some.inj hwaits⟩
  · rw [h.others id socket hsocket fun addr haddr => hmem ⟨addr, haddr⟩] at hcb
    exact absurd rfl hcb

theorem touches_writable (h : Registered m.service waiting) {id : SocketId} {kernel : SendResult}
    {error : Int} {peer : Option Address} {answers : List Creation.SystemCalls}
    (hs : m.writable id kernel error = some m') :
    Touches m m' waiting (.writable id kernel error peer answers) := by
  obtain ⟨socket, hsocket, hs⟩ := Option.bind_eq_some_iff.1 hs
  have hcb : socket.writeCb ≠ .null := by
    intro hnull
    rw [hnull] at hs
    cases hs
  obtain ⟨hmem, rfl⟩ := h.making hsocket hcb
  cases hs
  have hcon := h.connections id
  rw [hsocket] at hcon
  obtain ⟨connection, hconnection⟩ := Option.isSome_iff_exists.1 hcon
  have hreport : m.report (.writable id kernel error) = some (id, connectReport error) := by
    simp only [Machine.report, Machine.writableReport, hsocket, hconnection, bind,
      Option.bind_some, connecting, Option.map_some]
  refine ⟨fun hnone => ?_, fun id' r hr j hne => ?_, fun id' hr => ?_, fun id' hr => ?_⟩
  · cases hreport.symm.trans hnone
  · cases hreport.symm.trans hr
    unfold TcpService.onAsyncConnectSocketWrite
    dsimp only
    rw [removeSocketTimer_connections, hconnection]
    dsimp only
    split
    · refine ⟨?_, ?_⟩
      · rw [setConnection_sockets, removeSocketTimer_sockets]
      · rw [setConnection_connections, Function.update_of_ne hne, removeSocketTimer_connections]
    · refine ⟨?_, ?_⟩
      · rw [setConnection_sockets, setSocket_sockets, Function.update_of_ne hne,
          removeSocketTimer_sockets]
      · rw [setConnection_connections, Function.update_of_ne hne, setSocket_connections,
          removeSocketTimer_connections]
  · obtain ⟨rfl, _⟩ := Prod.mk.inj (Option.some.inj (hreport.symm.trans hr))
    exact ⟨hmem, _, _, _, _, rfl⟩
  · obtain ⟨_, hr⟩ := Prod.mk.inj (Option.some.inj (hreport.symm.trans hr))
    unfold connectReport at hr
    split at hr <;> cases hr

theorem touches_readable (h : Registered m.service waiting) {id : SocketId} {readEnd : ReadEnd}
    {answers : List Creation.SystemCalls} (hE : m.Enabled (.readable id readEnd)) :
    Touches m { m with service := m.service.onSocketRead id readEnd } waiting
      (.readable id readEnd answers) := by
  obtain ⟨socket, hsocket, _, hread⟩ := hE
  have hnot : ∀ addr, (id, addr) ∉ waiting := by
    intro addr hmem
    have hwaits := h.waits id addr hmem
    rw [hsocket] at hwaits
    cases hwaits
    cases hread
  have hcon := h.connections id
  rw [hsocket] at hcon
  obtain ⟨connection, hconnection⟩ := Option.isSome_iff_exists.1 hcon
  have hreport : m.report (.readable id readEnd) = (readReport readEnd).map (id, ·) := by
    rw [Machine.report, hconnection]
    rfl
  have hid : ∀ id' r, m.report (.readable id readEnd) = some (id', r) → id' = id := by
    intro id' r hr
    obtain ⟨_, _, heq⟩ := Option.map_eq_some_iff.1 (hreport.symm.trans hr)
    cases heq
    rfl
  refine ⟨fun hnone j => ?_, fun id' r hr j hne => ?_, fun id' hr => ?_, fun id' hr => ?_⟩
  · cases readEnd with
    | drained =>
      refine same_of_eq ?_ ?_ j
      all_goals
        unfold onSocketRead
        rw [hconnection]
    | peerClose => cases hreport.symm.trans hnone
    | failed errno => cases hreport.symm.trans hnone
  · obtain rfl := hid id' r hr
    unfold Same onSocketRead
    rw [hconnection]
    cases readEnd with
    | drained => exact ⟨rfl, rfl⟩
    | peerClose =>
      exact ⟨rfl, by rw [setConnection_connections, Function.update_of_ne hne]⟩
    | failed errno =>
      exact ⟨rfl, by rw [setConnection_connections, Function.update_of_ne hne]⟩
  · obtain ⟨r, hr, heq⟩ := Option.map_eq_some_iff.1 (hreport.symm.trans hr)
    cases heq
    cases readEnd <;> cases hr
  · obtain rfl := hid id' _ hr
    exact hnot

theorem touches_socketError {id : SocketId} {error errno : Int}
    {answers : List Creation.SystemCalls} :
    Touches m { m with service := m.service.onSocketError id error errno } waiting
      (.socketError id error errno answers) := by
  have hreport : m.report (.socketError id error errno) =
      if (m.service.connections id).isSome then some (id, .error) else none := rfl
  cases hconnection : m.service.connections id with
  | none =>
    rw [hconnection, Option.isSome_none, if_neg Bool.false_ne_true] at hreport
    refine ⟨fun _ => same_of_eq ?_ ?_, fun id' r hr => ?_, fun id' hr => ?_, fun id' hr => ?_⟩
    · rw [onSocketError, hconnection]
    · rw [onSocketError, hconnection]
    all_goals cases hreport.symm.trans hr
  | some connection =>
    rw [hconnection, Option.isSome_some, if_pos rfl] at hreport
    refine ⟨fun hnone => ?_, fun id' r hr j hne => ?_, fun id' hr => ?_, fun id' hr => ?_⟩
    · cases hreport.symm.trans hnone
    · cases hreport.symm.trans hr
      unfold Same onSocketError
      rw [hconnection]
      exact ⟨rfl, by rw [setConnection_connections, Function.update_of_ne hne]⟩
    · cases hreport.symm.trans hr
    · cases hreport.symm.trans hr

theorem touches_timeout {timerId : TimerId} {answers : List Creation.SystemCalls}
    (hs : m.timeout timerId = some m') : Touches m m' waiting (.timeout timerId answers) := by
  obtain ⟨timerCb, _, hs⟩ := Option.bind_eq_some_iff.1 hs
  cases hid : m.service.timerToSocketMap timerId with
  | none =>
    have hreport : m.report (.timeout timerId) = none := by
      rw [Machine.report, hid]
      rfl
    refine ⟨fun _ j => ?_, fun id r hr => ?_, fun id hr => ?_, fun id hr => ?_⟩
    · cases timerCb with
      | onAsyncConnectTimeout =>
        cases hs
        refine same_of_eq ?_ ?_ j
        all_goals
          unfold onAsyncConnectTimeout takeSocketTimer
          dsimp only
          rw [hid]
          rfl
      | onSendMessageError =>
        cases hs
        refine same_of_eq ?_ ?_ j
        all_goals
          unfold onSendMessageError takeSocketTimer
          dsimp only
          rw [hid]
          rfl
    all_goals cases hreport.symm.trans hr
  | some id =>
    have hreport : m.report (.timeout timerId) =
        if (m.service.sockets id).isSome ∧ (m.service.connections id).isSome then
          some (id, Report.error) else none := by
      rw [Machine.report, hid]
      rfl
    have hchange : ∀ j, j ≠ id ∨ ¬ ((m.service.sockets id).isSome ∧
        (m.service.connections id).isSome) → Same m.service m'.service j := by
      intro j hj
      cases timerCb with
      | onAsyncConnectTimeout =>
        cases hs
        unfold onAsyncConnectTimeout takeSocketTimer
        dsimp only
        rw [hid, Option.map_some]
        dsimp only
        cases hsocket : m.service.sockets id with
        | none => exact ⟨rfl, rfl⟩
        | some socket =>
          cases hconnection : m.service.connections id with
          | none => exact ⟨rfl, rfl⟩
          | some connection =>
            have hne : j ≠ id := by
              refine hj.resolve_right fun hnot => hnot ?_
              rw [hsocket, hconnection]
              exact ⟨rfl, rfl⟩
            refine ⟨?_, ?_⟩
            · rw [setConnection_sockets, setSocket_sockets, Function.update_of_ne hne]
            · rw [setConnection_connections, Function.update_of_ne hne, setSocket_connections]
      | onSendMessageError =>
        cases hs
        refine same_of_eq ?_ ?_ j
        all_goals
          unfold onSendMessageError takeSocketTimer
          dsimp only
          rw [hid]
          rfl
    refine ⟨fun hnone j => hchange j (.inr fun hopen => ?_), fun id' r hr j hne => ?_,
      fun id' hr => ?_, fun id' hr => ?_⟩
    · cases (if_pos hopen).symm.trans (hreport.symm.trans hnone)
    all_goals
      have hr := hreport.symm.trans hr
      split at hr
      · cases hr
        try exact hchange j (.inl hne)
      · cases hr

/-- **What an event does.** -/
theorem step_touches (h : Registered m.service waiting) {e : PortScanner.Event}
    (hE : m.Enabled e.op) (hs : m.step e.op = some m') : Touches m m' waiting e := by
  cases e with
  | readable id readEnd answers =>
    cases hs
    exact touches_readable h hE
  | writable id kernel error peer answers => exact touches_writable h hs
  | socketError id error errno answers =>
    cases hs
    exact touches_socketError
  | timeout timerId answers => exact touches_timeout hs

end Events

end PortScan

end Brickred
