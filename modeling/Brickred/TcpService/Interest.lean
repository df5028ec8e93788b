import Brickred.TcpService.Callbacks

/-!
# Write interest and buffer limits

The loop of the `IOService` calls `onSocketWrite` as long as it is the write callback of a
socket, so it has to be there exactly while bytes wait.

* `Duplex` — the service with the read buffers of its connections: the loop of `onSocketRead`
  (`readLoop`), and the application, which takes bytes from the buffers.
* `interested_step`, `within_step` — the write side, one step of a channel.
* `readLoop_within` — the read side.
* `write_interest` — both, in every state the service reaches.
-/

set_option autoImplicit false

namespace Brickred

namespace TcpService

open Runs

variable {κ : Type}

/-! ## The read side -/

/-- What `::recv` does. -/
inductive RecvResult where
  | bytes (bytes : List UInt8)
  | endOfStream
  | fails (errno : Int)
  deriving DecidableEq

/-- A turn of the loop of `onSocketRead`: what `FIONREAD` answers (`-1` when it fails), and what
`::recv` does. -/
structure Turn where
  readableBytes : Int
  result : RecvResult
  deriving DecidableEq

def Turn.bytesToRead (turn : Turn) : Nat := (max 1 turn.readableBytes).toNat

/-- `::recv` hands out no more than it is asked for. -/
def Turn.Valid (turn : Turn) : Prop :=
  ∀ bytes, turn.result = .bytes bytes → bytes ≠ [] ∧ bytes.length ≤ turn.bytesToRead

/-- What the loop of `onSocketRead` leaves: the read buffer, `data_arrive`, and how it ends.  It
has no result when it does not end with the last turn, or when the bytes to read are more than
a vector can hold. -/
def readLoop (maxSize : Nat) :
    List Turn → List UInt8 → Bool → Option (List UInt8 × Bool × ReadEnd)
  | [], _, _ => none
  | turn :: turns, readBuffer, dataArrive =>
    if maxSize > 0 ∧ toSize (turn.bytesToRead + readBuffer.length) > maxSize then
      if turns = [] then some (readBuffer, dataArrive, .peerClose) else none
    else if turn.bytesToRead + readBuffer.length ≥ 2 ^ 63 then none
    else
      match turn.result with
      | .bytes bytes => readLoop maxSize turns (readBuffer ++ bytes) true
      | .fails errno =>
        if turns ≠ [] then none
        else if errno = EAGAIN then some (readBuffer, dataArrive, .drained)
        else some (readBuffer, dataArrive, .failed errno)
      | .endOfStream => if turns = [] then some (readBuffer, dataArrive, .peerClose) else none

/-- The service, and the read buffers of its connections.  While the application is in its
`RecvMessageCallback`, `reading` holds the socket and how the loop ended. -/
structure Duplex (κ : Type) where
  machine : Machine κ
  readBuffer : SocketId → List UInt8
  connReadBufferMaxSize : Nat
  reading : Option (SocketId × ReadEnd)

inductive Event (κ : Type) where
  /-- a call from the application, or any event but `EPOLLIN` on a connection -/
  | op (op : Op κ)
  | setRecvBufferMaxSize (size : Nat)
  /-- `EPOLLIN` on a connection -/
  | onSocketRead (id : SocketId) (turns : List Turn)
  /-- the application takes bytes from a read buffer -/
  | read (id : SocketId) (size : Nat)
  /-- the `RecvMessageCallback` returns -/
  | recvMessageReturns

namespace Duplex

def init : Duplex κ := ⟨Machine.init, fun _ => [], 0, none⟩

/-- The rest of `onSocketRead`, behind the callback. -/
def finishRead (s : Duplex κ) (id : SocketId) (readEnd : ReadEnd) : Option (Duplex κ) :=
  (s.machine.step (.readable id readEnd)).map fun machine => { s with machine, reading := none }

def onSocketRead (s : Duplex κ) (id : SocketId) (turns : List Turn) : Option (Duplex κ) :=
  match s.machine.service.connections id with
  | none => some s
  | some _ => do
    let (readBuffer, dataArrive, readEnd) ←
      readLoop s.connReadBufferMaxSize turns (s.readBuffer id) false
    let s := { s with readBuffer := Function.update s.readBuffer id readBuffer }
    match readEnd, dataArrive with
    | .failed errno, _ => s.finishRead id (.failed errno)
    | readEnd, true => some { s with reading := some (id, readEnd) }
    | readEnd, false => s.finishRead id readEnd

/-- A connection that is opened has an empty read buffer. -/
def step (s : Duplex κ) : Event κ → Option (Duplex κ)
  | .op op => (s.machine.step op).map fun machine =>
    { s with
      machine
      readBuffer := fun id =>
        if (s.machine.service.connections id).isSome then s.readBuffer id else [] }
  | .setRecvBufferMaxSize size => some { s with connReadBufferMaxSize := size }
  | .onSocketRead id turns => s.onSocketRead id turns
  | .read id size =>
    some { s with readBuffer := Function.update s.readBuffer id ((s.readBuffer id).drop size) }
  | .recvMessageReturns => s.reading.bind fun (id, readEnd) => s.finishRead id readEnd

def NoConnection (s : Duplex κ) : Prop := ∀ id, s.machine.service.connections id = none

/-- A message and the write buffer it may be copied to lie in one address space. -/
def Addressable (s : Duplex κ) (buffer : List UInt8) (id : SocketId) : Prop :=
  ∀ connection, s.machine.service.connections id = some connection →
    buffer.length + connection.writeBuffer.length < 2 ^ 64

/-- The buffer limits are set while there is no connection, and the loop of the `IOService` runs
one event at a time. -/
def Enabled (s : Duplex κ) : Event κ → Prop
  | .op op => s.machine.Enabled op ∧
    match op with
    | .setSendBufferMaxSize _ => s.NoConnection
    | .sendMessage id buffer _ _ => s.Addressable buffer id
    | .broadcastMessage buffer _ _ => ∀ id, s.Addressable buffer id
    | .readable _ _ => False
    | .writable _ _ _ => s.reading = none
    | .socketError _ _ _ => s.reading = none
    | .timeout _ => s.reading = none
    | _ => True
  | .setRecvBufferMaxSize _ => s.NoConnection
  | .onSocketRead id turns =>
    s.reading = none ∧ s.machine.Enabled (.readable id .drained) ∧ (∀ turn ∈ turns, turn.Valid) ∧
      (readLoop s.connReadBufferMaxSize turns (s.readBuffer id) false).isSome
  | .read _ _ => True
  | .recvMessageReturns => s.reading.isSome

end Duplex

/-! ## The write side, on a channel -/

/-- The socket waits to be writable exactly while bytes wait. -/
def Channel.Interested (ch : Channel κ) : Prop :=
  ∀ connection, ch.link.connection = some connection →
    (ch.link.writeCb = .onSocketWrite ↔ connection.writeBuffer ≠ [])

def Channel.Within (maxSize : Nat) (ch : Channel κ) : Prop :=
  ∀ connection, ch.link.connection = some connection → 0 < maxSize →
    connection.writeBuffer.length ≤ maxSize

/-- A call of `sendMessage` under the limit, with a message that is addressable. -/
abbrev Channel.Limited (maxSize : Nat) : Channel κ → Channel.Op κ → Prop :=
  Channel.OnCall
    (fun connection maxSize' buffer _ _ =>
      maxSize' = maxSize ∧ buffer.length + connection.writeBuffer.length < 2 ^ 64)
    fun _ _ => True

section Write

variable {connection k : TcpConnection κ} {writeCb : WriteCallback}
  {history history' : List (Effect κ)} {maxSize : Nat}

theorem interested_new (status : Status) (hcb : writeCb ≠ .onSocketWrite) :
    Channel.Interested ⟨⟨some (.new status : TcpConnection κ), writeCb⟩, []⟩ := by
  intro k hk
  cases hk
  exact ⟨fun h => absurd h hcb, fun h => absurd rfl h⟩

theorem Channel.Interested.edit (h : Channel.Interested ⟨⟨some connection, writeCb⟩, history⟩)
    (hbuffer : k.writeBuffer = connection.writeBuffer) :
    Channel.Interested ⟨⟨some k, writeCb⟩, history'⟩ := by
  intro _ hk
  cases hk
  rw [hbuffer]
  exact h connection rfl

theorem Channel.Interested.called (h : Channel.Interested ⟨⟨some connection, writeCb⟩, history⟩)
    (sendCompleteCb : SendCompleteCallback κ) :
    Channel.Interested ⟨Channel.called connection writeCb sendCompleteCb, history'⟩ := by
  cases sendCompleteCb with
  | null => exact h.edit rfl
  | user cb => exact h.edit rfl
  | close => exact fun _ hk => by cases hk

theorem interested_step (ch : Channel κ) (op : Channel.Op κ) (h : ch.Interested) :
    (ch.step op).Interested := by
  obtain ⟨⟨_ | connection, writeCb⟩, history⟩ := ch
  · cases op with
    | connected => exact interested_new _ (fun h => by cases h)
    | connecting => exact interested_new _ (fun h => by cases h)
    | _ => exact fun _ hk => by cases hk
  cases op with
  | idle => exact h
  | connected => exact interested_new _ (fun h => by cases h)
  | connecting => exact interested_new _ (fun h => by cases h)
  | close => exact fun _ hk => by cases hk
  | send maxSize buffer sendCompleteCb kernel =>
    rcases send_cases connection history kernel writeCb maxSize buffer sendCompleteCb rfl with
      ⟨_, hch⟩ | ⟨_, errno, hch⟩ | ⟨_, hremain, _, hch⟩ | ⟨_, _, hch⟩ <;> rw [hch]
    · exact h.edit rfl
    · exact h.edit rfl
    · intro k hk
      cases hk
      exact ⟨fun _ hnil => take_remainSize_ne_nil hremain (List.append_eq_nil_iff.1 hnil).2,
        fun _ => rfl⟩
    · exact h.called sendCompleteCb
  | writable kernel socketError =>
    cases writeCb with
    | null => exact h
    | onAsyncConnectSocketWrite =>
      -- nothing has been written yet
      have hempty : connection.writeBuffer = [] := by
        by_contra hne
        cases (h connection rfl).2 hne
      simp only [Channel.step, Channel.afterConnect]
      split
      · exact h.edit rfl
      · intro k hk
        cases hk
        exact ⟨fun hcb => (by cases hcb), fun hne => absurd hempty hne⟩
    | onSocketWrite =>
      rcases write_cases connection history kernel socketError rfl with
        ⟨_, errno, hch⟩ | ⟨_, hch⟩ | ⟨n, _, hrest, hch⟩ | ⟨n, _, _, hch⟩ <;> rw [hch]
      · exact h.edit rfl
      · exact h.edit rfl
      · intro k hk
        cases hk
        exact ⟨fun _ => hrest, fun _ => rfl⟩
      · refine @Channel.Interested.called _ _ _ history _ ?_ _
        intro k hk
        cases hk
        exact ⟨fun hcb => (by cases hcb), fun hne => absurd rfl hne⟩
  | peerClose => exact h.edit rfl
  | setError errorCode => exact h.edit rfl

theorem within_new (status : Status) :
    Channel.Within maxSize ⟨⟨some (.new status : TcpConnection κ), writeCb⟩, history⟩ := by
  intro k hk _
  cases hk
  exact Nat.zero_le _

/-- Less in the write buffer is within the limit too. -/
theorem Channel.Within.edit {writeCb' : WriteCallback}
    (h : Channel.Within maxSize ⟨⟨some connection, writeCb⟩, history⟩)
    (hbuffer : k.writeBuffer.length ≤ connection.writeBuffer.length) :
    Channel.Within maxSize ⟨⟨some k, writeCb'⟩, history'⟩ := by
  intro _ hk hmax
  cases hk
  exact hbuffer.trans (h connection rfl hmax)

theorem within_step (ch : Channel κ) (op : Channel.Op κ) (h : ch.Within maxSize)
    (hC : ch.Limited maxSize op) : (ch.step op).Within maxSize := by
  obtain ⟨⟨_ | connection, writeCb⟩, history⟩ := ch
  · cases op with
    | connected => exact within_new _
    | connecting => exact within_new _
    | _ => exact fun _ hk => by cases hk
  cases op with
  | idle => exact h
  | connected => exact within_new _
  | connecting => exact within_new _
  | close => exact fun _ hk => by cases hk
  | send maxSize' buffer sendCompleteCb kernel =>
    obtain ⟨rfl, hsize⟩ := hC
    rcases send_cases connection history kernel writeCb maxSize' buffer sendCompleteCb rfl with
      ⟨_, hch⟩ | ⟨_, errno, hch⟩ | ⟨_, _, hfits, hch⟩ | ⟨_, _, hch⟩ <;> rw [hch]
    · exact h.edit le_rfl
    · exact h.edit le_rfl
    · have hle := @remainSize_le κ kernel connection buffer
      intro k hk hmax
      cases hk
      unfold TcpConnection.Overflows at hfits
      rw [toSize_eq (by omega), not_and, not_lt] at hfits
      rw [List.length_append, List.length_take, Nat.min_eq_left hle, Nat.add_comm]
      exact hfits hmax
    · intro k hk hmax
      obtain rfl := called_eq hk
      exact h connection rfl hmax
  | writable kernel socketError =>
    cases writeCb with
    | null => exact h
    | onAsyncConnectSocketWrite =>
      simp only [Channel.step, Channel.afterConnect]
      split <;> exact h.edit le_rfl
    | onSocketWrite =>
      rcases write_cases connection history kernel socketError rfl with
        ⟨_, errno, hch⟩ | ⟨_, hch⟩ | ⟨n, _, _, hch⟩ | ⟨n, _, _, hch⟩ <;> rw [hch]
      · exact h.edit le_rfl
      · exact h.edit le_rfl
      · refine h.edit ?_
        rw [List.length_drop]
        exact Nat.sub_le _ _
      · intro k hk _
        obtain rfl := called_eq hk
        exact Nat.zero_le _
  | peerClose => exact h.edit le_rfl
  | setError errorCode => exact h.edit le_rfl

end Write

/-! ## The read side -/

theorem readLoop_within {maxSize : Nat} : ∀ {turns : List Turn} {readBuffer : List UInt8}
    {dataArrive : Bool} {r : List UInt8 × Bool × ReadEnd}, (∀ turn ∈ turns, turn.Valid) →
    (0 < maxSize → readBuffer.length ≤ maxSize) →
    readLoop maxSize turns readBuffer dataArrive = some r → 0 < maxSize → r.1.length ≤ maxSize
  | [], _, _, _, _, _, h => by cases h
  | turn :: turns, readBuffer, dataArrive, r, hvalid, hle, h => by
    unfold readLoop at h
    split at h
    · split at h
      · cases h; exact hle
      · cases h
    · rename_i hfits
      split at h
      · cases h
      · rename_i hroom
        rw [not_and, not_lt, toSize_eq (by omega)] at hfits
        split at h
        · rename_i bytes hbytes
          obtain ⟨_, hlen⟩ := hvalid turn List.mem_cons_self bytes hbytes
          refine readLoop_within (fun t ht => hvalid t (List.mem_cons_of_mem turn ht)) ?_ h
          intro hmax
          rw [List.length_append]
          have := hfits hmax
          omega
        · split at h
          · cases h
          · split at h <;> cases h <;> exact hle
        · split at h
          · cases h; exact hle
          · cases h

/-! ## The service -/

section Service

variable {m m' : Machine κ}

theorem sendMessage_maxSize {id : SocketId} {buffer : List UInt8}
    {sendCompleteCb : SendCompleteCallback κ} {kernel : SendResult}
    (h : m.sendMessage id buffer sendCompleteCb kernel = some m') :
    m'.service.connWriteBufferMaxSize = m.service.connWriteBufferMaxSize :=
  (sendMessage_view (c := id) h).1

theorem broadcastMessage_maxSize {buffer : List UInt8} {kernel : SocketId → SendResult} :
    ∀ {order : List SocketId} {m : Machine κ},
      Machine.broadcastMessage buffer kernel order m = some m' →
      m'.service.connWriteBufferMaxSize = m.service.connWriteBufferMaxSize
  | [], _, h => by cases h; rfl
  | id :: order, m, h => by
    obtain ⟨m₁, hm₁, h⟩ := Option.bind_eq_some_iff.1 h
    exact (broadcastMessage_maxSize h).trans (sendMessage_maxSize hm₁)

theorem removeSocketTimer_maxSize (s : TcpService κ) (id : SocketId) :
    (s.removeSocketTimer id).connWriteBufferMaxSize = s.connWriteBufferMaxSize := by
  unfold removeSocketTimer; split <;> rfl

theorem onSocketWrite_maxSize (s : TcpService κ) (id : SocketId) (socket : TcpSocket)
    (kernel : SendResult) :
    (s.onSocketWrite id socket kernel).connWriteBufferMaxSize = s.connWriteBufferMaxSize := by
  unfold onSocketWrite
  split
  · rfl
  · dsimp only
    split
    · rfl
    · rfl
    · exact call_maxSize _ _ _

theorem onAsyncConnectSocketWrite_maxSize (s : TcpService κ) (id : SocketId) (socket : TcpSocket)
    (socketError : Int) :
    (s.onAsyncConnectSocketWrite id socket socketError).connWriteBufferMaxSize =
      s.connWriteBufferMaxSize := by
  unfold onAsyncConnectSocketWrite
  dsimp only
  split
  · exact removeSocketTimer_maxSize s id
  · split <;> exact removeSocketTimer_maxSize s id

theorem onAsyncConnectTimeout_maxSize (s : TcpService κ) (timerId : TimerId) :
    (s.onAsyncConnectTimeout timerId).connWriteBufferMaxSize = s.connWriteBufferMaxSize := by
  unfold onAsyncConnectTimeout takeSocketTimer
  cases s.timerToSocketMap timerId with
  | none => rfl
  | some id =>
    dsimp only [Option.map_some]
    split <;> rfl

/-- Only one call changes the limit. -/
theorem step_maxSize {op : Op κ} (hop : ∀ size, op ≠ .setSendBufferMaxSize size)
    (h : m.step op = some m') :
    m'.service.connWriteBufferMaxSize = m.service.connWriteBufferMaxSize := by
  cases op with
  | buildListenSocket fd =>
    cases h
    unfold buildListenSocket
    dsimp only
    split <;> rfl
  | buildConnectedSocket fd =>
    cases h
    unfold buildConnectedSocket
    split
    · rename_i hnone; rw [hnone]; rfl
    · rename_i id hsome; rw [hsome]; rfl
  | buildAsyncConnectSocket fd timeoutMs =>
    cases h
    unfold buildAsyncConnectSocket
    split
    · rename_i hnone; rw [hnone]; rfl
    · rename_i id hsome
      rw [hsome]
      dsimp only [Machine.opened]
      split <;> rfl
  | sendMessage id buffer sendCompleteCb kernel => exact sendMessage_maxSize h
  | broadcastMessage buffer order kernel => exact broadcastMessage_maxSize h
  | closeSocket id => cases h; rfl
  | setContext id context =>
    cases h
    unfold setContext
    dsimp only
    split <;> rfl
  | setSendBufferMaxSize size => exact absurd rfl (hop size)
  | writable id kernel socketError =>
    obtain ⟨socket, _, h⟩ := Option.bind_eq_some_iff.1 h
    split at h
    · cases h
    · cases h
      exact onAsyncConnectSocketWrite_maxSize _ _ _ _
    · cases h
      exact onSocketWrite_maxSize _ _ _ _
  | readable id readEnd =>
    cases h
    unfold onSocketRead
    dsimp only
    split <;> rfl
  | socketError id socketError errno =>
    cases h
    unfold onSocketError
    dsimp only
    split <;> rfl
  | timeout timerId =>
    obtain ⟨timerCb, _, h⟩ := Option.bind_eq_some_iff.1 h
    cases timerCb with
    | onAsyncConnectTimeout => cases h; exact onAsyncConnectTimeout_maxSize _ _
    | onSendMessageError =>
      cases h
      dsimp only
      unfold onSendMessageError takeSocketTimer
      split
      · rfl
      · rename_i hs
        obtain ⟨id, _, heq⟩ := Option.map_eq_some_iff.1 hs
        cases heq
        rfl

/-- Only two calls send. -/
theorem project_send {c : SocketId} {op : Op κ} {maxSize : Nat} {buffer : List UInt8}
    {sendCompleteCb : SendCompleteCallback κ} {kernel : SendResult}
    (h : m.project c op = .send maxSize buffer sendCompleteCb kernel) :
    maxSize = m.service.connWriteBufferMaxSize ∧
      (op = .sendMessage c buffer sendCompleteCb kernel ∨
        ∃ order kernel, op = .broadcastMessage buffer order kernel) := by
  cases op with
  | sendMessage id buffer' cb' kernel' =>
    simp only [Machine.project] at h
    split at h
    · rename_i heq
      cases h
      exact ⟨rfl, Or.inl (by rw [heq])⟩
    · cases h
  | broadcastMessage buffer' order kernel' => cases h; exact ⟨rfl, Or.inr ⟨order, kernel', rfl⟩⟩
  | timeout timerId =>
    simp only [Machine.project] at h
    split at h
    · cases h
    · rename_i timerCb _
      cases timerCb with
      | onAsyncConnectTimeout =>
        simp only [projectTimeout] at h
        split at h <;> cases h
      | onSendMessageError => cases h
  | readable id readEnd =>
    simp only [Machine.project] at h
    split at h
    · cases readEnd <;> cases h
    · cases h
  | buildConnectedSocket fd =>
    simp only [Machine.project] at h
    split at h <;> cases h
  | buildAsyncConnectSocket fd timeoutMs =>
    simp only [Machine.project] at h
    split at h <;> cases h
  | closeSocket id =>
    simp only [Machine.project] at h
    split at h <;> cases h
  | writable id kernel' socketError =>
    simp only [Machine.project] at h
    split at h <;> cases h
  | socketError id socketError errno =>
    simp only [Machine.project] at h
    split at h <;> cases h
  | _ => cases h

theorem limited_of_send {maxSize : Nat} {ch : Channel κ} {op : Channel.Op κ}
    (h : ∀ maxSize' buffer sendCompleteCb kernel, op = .send maxSize' buffer sendCompleteCb kernel →
      ∀ connection, ch.link.connection = some connection →
        maxSize' = maxSize ∧ buffer.length + connection.writeBuffer.length < 2 ^ 64) :
    ch.Limited maxSize op := by
  unfold Channel.Limited Channel.OnCall
  split
  · rename_i connection _ maxSize' buffer sendCompleteCb kernel hlink
    exact h maxSize' buffer sendCompleteCb kernel rfl connection (by rw [hlink])
  · trivial
  · trivial

/-- What the service keeps for all its channels. -/
structure Machine.Settled (m : Machine κ) : Prop where
  coherent : Coherent m.service
  interested : ∀ c, (m.view c).Interested
  slotted : ∀ c, (m.view c).Slotted
  within : ∀ c, (m.view c).Within m.service.connWriteBufferMaxSize

theorem Machine.Settled.step (h : m.Settled) (hcoh : Coherent m'.service)
    (hmax : m'.service.connWriteBufferMaxSize = m.service.connWriteBufferMaxSize)
    (hview : ∀ c, ∃ op, m'.view c = (m.view c).step op ∧
      (m.view c).Limited m.service.connWriteBufferMaxSize op) : m'.Settled := by
  refine ⟨hcoh, fun c => ?_, fun c => ?_, fun c => ?_⟩ <;> obtain ⟨op, hs, hC⟩ := hview c <;> rw [hs]
  · exact interested_step _ _ (h.interested c)
  · exact slotted_step _ _ (h.slotted c)
  · rw [hmax]
    exact within_step _ _ (h.within c) hC

theorem onSocketRead_view (m : Machine κ) (c id : SocketId) (readEnd : ReadEnd) :
    Machine.view c { m with service := m.service.onSocketRead id readEnd } =
      (m.view c).step (if id = c then projectReadable readEnd else .idle) :=
  view_step_edit (link_onSocketRead _ _ _) (step_projectReadable readEnd)

theorem onSocketRead_connections (s : TcpService κ) (id c : SocketId) (readEnd : ReadEnd)
    (h : ((s.onSocketRead id readEnd).connections c).isSome) : (s.connections c).isSome := by
  have hl := congrFun (link_onSocketRead s id readEnd) c
  by_cases heq : c = id
  · subst heq
    rw [Function.update_self] at hl
    have hcon : (s.onSocketRead c readEnd).connections c = (s.connections c).map readEnd.edit :=
      congrArg Link.connection hl
    rw [hcon] at h
    exact Option.isSome_map.symm.trans h
  · rw [Function.update_of_ne heq] at hl
    rw [show (s.onSocketRead id readEnd).connections c = s.connections c from
      congrArg Link.connection hl] at h
    exact h

end Service

/-! ## Every state reached -/

namespace Duplex

/-- **The interest of every socket, and the limits of its buffers.** -/
def Interest (s : Duplex κ) : Prop :=
  ∀ id connection, s.machine.service.connections id = some connection →
    ∃ socket, s.machine.service.sockets id = some socket ∧
      (socket.writeCb = .onSocketWrite ↔ connection.writeBuffer ≠ []) ∧
      (connection.sendCompleteCb ≠ .null → connection.writeBuffer ≠ []) ∧
      (0 < s.machine.service.connWriteBufferMaxSize →
        connection.writeBuffer.length ≤ s.machine.service.connWriteBufferMaxSize) ∧
      (0 < s.connReadBufferMaxSize → (s.readBuffer id).length ≤ s.connReadBufferMaxSize)

structure Invariant (s : Duplex κ) : Prop where
  settled : s.machine.Settled
  read : ∀ id, (s.machine.service.connections id).isSome → 0 < s.connReadBufferMaxSize →
    (s.readBuffer id).length ≤ s.connReadBufferMaxSize

variable {s s' : Duplex κ}

theorem Invariant.interest (h : s.Invariant) : s.Interest := by
  intro id connection hcon
  obtain ⟨socket, hsock⟩ := Option.isSome_iff_exists.1 (h.settled.coherent.open_socket hcon)
  have hcb := h.settled.interested id connection hcon
  rw [show ((s.machine.view id).link).writeCb = socket.writeCb from link_of_socket hsock] at hcb
  exact ⟨socket, hsock, hcb, h.settled.slotted id connection hcon,
    h.settled.within id connection hcon, h.read id (by rw [hcon]; rfl)⟩

theorem invariant_init : (init : Duplex κ).Invariant :=
  ⟨⟨Coherent.init, fun _ _ h => (by cases h), fun _ _ h => (by cases h),
    fun _ _ h => (by cases h)⟩, fun _ h => (by cases h)⟩

/-- A call of the application, or an event. -/
theorem op_step {op : Op κ} (h : s.Invariant) (hE : s.Enabled (.op op)) :
    ∃ s', s.step (.op op) = some s' ∧ s'.Invariant := by
  obtain ⟨hop, hlimit⟩ := hE
  obtain ⟨m, hs, hcoh⟩ := step_defined h.settled.coherent hop
  refine ⟨_, by rw [step, hs]; rfl, ?_, fun id _ hmax => ?_⟩
  · by_cases hset : ∃ size, op = .setSendBufferMaxSize size
    · obtain ⟨size, rfl⟩ := hset
      cases hs
      have hnone : ∀ c connection, (s.machine.view c).link.connection ≠ some connection := by
        intro c connection hcon
        rw [show (s.machine.view c).link.connection = none from hlimit c] at hcon
        cases hcon
      exact ⟨hcoh, h.settled.interested, h.settled.slotted,
        fun c connection hcon => absurd hcon (hnone c connection)⟩
    · have hset' : ∀ size, op ≠ .setSendBufferMaxSize size := fun size heq => hset ⟨size, heq⟩
      refine h.settled.step hcoh (step_maxSize hset' hs) fun c => ⟨_, view_step hop hs, ?_⟩
      refine limited_of_send fun maxSize buffer sendCompleteCb kernel hproj connection hcon => ?_
      obtain ⟨rfl, rfl | ⟨order, kernel', rfl⟩⟩ := project_send hproj
      · exact ⟨rfl, hlimit connection hcon⟩
      · exact ⟨rfl, hlimit c connection hcon⟩
  · dsimp only
    split
    · rename_i hsome
      exact h.read id hsome hmax
    · exact Nat.zero_le _

theorem finishRead_step (h : s.Invariant) (id : SocketId) (readEnd : ReadEnd) :
    ∃ s', s.finishRead id readEnd = some s' ∧ s'.Invariant := by
  refine ⟨_, rfl, ?_, fun c hc => h.read c (onSocketRead_connections _ _ _ _ hc)⟩
  refine h.settled.step (h.settled.coherent.onSocketRead readEnd) ?_ fun c =>
    ⟨_, onSocketRead_view s.machine c id readEnd, limited_of_send fun _ _ _ _ hop => ?_⟩
  · exact @step_maxSize _ _ _ (.readable id readEnd) (fun _ heq => by cases heq) rfl
  · split at hop
    · cases readEnd <;> cases hop
    · cases hop

theorem onSocketRead_step {id : SocketId} {turns : List Turn} (h : s.Invariant)
    (hvalid : ∀ turn ∈ turns, turn.Valid)
    (hloop : (readLoop s.connReadBufferMaxSize turns (s.readBuffer id) false).isSome) :
    ∃ s', s.onSocketRead id turns = some s' ∧ s'.Invariant := by
  unfold onSocketRead
  split
  · exact ⟨s, rfl, h⟩
  · rename_i connection hcon
    obtain ⟨⟨readBuffer, dataArrive, readEnd⟩, hr⟩ := Option.isSome_iff_exists.1 hloop
    have hle := readLoop_within hvalid (h.read id (by rw [hcon]; rfl)) hr
    have hread : Invariant { s with readBuffer := Function.update s.readBuffer id readBuffer } := by
      refine ⟨h.settled, fun c hc hmax => ?_⟩
      by_cases heq : c = id
      · subst heq
        show (Function.update s.readBuffer c readBuffer c).length ≤ _
        rw [Function.update_self]
        exact hle hmax
      · show (Function.update s.readBuffer id readBuffer c).length ≤ _
        rw [Function.update_of_ne heq]
        exact h.read c hc hmax
    rw [hr]
    simp only [bind, Option.bind_some]
    split
    · exact finishRead_step hread id _
    · exact ⟨_, rfl, hread.settled, hread.read⟩
    · exact finishRead_step hread id _

/-- **What one step keeps.** -/
theorem invariant_step (e : Event κ) (h : s.Invariant) (hE : s.Enabled e) :
    ∃ s', s.step e = some s' ∧ s'.Invariant := by
  cases e with
  | op op => exact op_step h hE
  | setRecvBufferMaxSize size =>
    refine ⟨_, rfl, h.settled, fun id hid => ?_⟩
    rw [show s.machine.service.connections id = none from hE id] at hid
    cases hid
  | onSocketRead id turns => exact onSocketRead_step h hE.2.2.1 hE.2.2.2
  | read id size =>
    refine ⟨_, rfl, h.settled, fun c hc hmax => ?_⟩
    have hold := h.read c hc hmax
    by_cases heq : c = id
    · subst heq
      dsimp only
      rw [Function.update_self, List.length_drop]
      omega
    · dsimp only
      rw [Function.update_of_ne heq]
      exact hold
  | recvMessageReturns =>
    obtain ⟨⟨id, readEnd⟩, hreading⟩ := Option.isSome_iff_exists.1 hE
    simp only [step, hreading, Option.bind_some]
    exact finishRead_step h id readEnd

end Duplex

/-- **Write interest and buffer limits**, in every state the service reaches. -/
theorem write_interest (events : List (Event κ))
    (hE : EachStep Duplex.step Duplex.Enabled Duplex.init events) :
    (∃ s, run Duplex.step Duplex.init events = some s) ∧
      Along Duplex.step Duplex.Interest Duplex.init events := by
  constructor
  · obtain ⟨s, hs, _⟩ := run_isSome (fun s e h hE => Duplex.invariant_step e h hE)
      Duplex.invariant_init hE
    exact ⟨s, hs⟩
  · refine Along.mono (fun s hs => hs.interest) (along_of_eachStep ?_ Duplex.invariant_init hE)
    intro s e s' h hE hs
    obtain ⟨s'', hs'', h'⟩ := Duplex.invariant_step e h hE
    rw [hs] at hs''
    cases hs''
    exact h'

/-- Under limits, a message waits while two bytes arrive, one of which the application takes; then
the kernel takes the message. -/
def echoEvents : List (Event Unit) :=
  [.setRecvBufferMaxSize 4, .op (.setSendBufferMaxSize 3), .op (.buildConnectedSocket 3),
    .op (.sendMessage firstId [97, 98] (.user ()) (.fails EAGAIN)),
    .onSocketRead firstId [⟨2, .bytes [1, 2]⟩, ⟨0, .fails EAGAIN⟩], .read firstId 1,
    .recvMessageReturns, .op (.writable firstId (.accepts 5 0) 0)]

theorem echoEvents_enabled : EachStep Duplex.step Duplex.Enabled Duplex.init echoEvents := by
  refine ⟨fun _ => rfl, ?_⟩
  rintro _ ⟨⟩
  refine ⟨⟨trivial, fun _ => rfl⟩, ?_⟩
  rintro _ ⟨⟩
  refine ⟨⟨trivial, trivial⟩, ?_⟩
  rintro _ ⟨⟩
  refine ⟨⟨trivial, fun connection hcon => by cases hcon; decide⟩, ?_⟩
  rintro _ ⟨⟩
  refine ⟨⟨rfl, ⟨_, rfl, rfl, rfl⟩, ?_, by decide⟩, ?_⟩
  · intro turn hmem bytes hbytes
    rcases List.mem_pair.1 hmem with rfl | rfl <;> cases hbytes
    exact ⟨by decide, by decide⟩
  rintro _ ⟨⟩
  refine ⟨trivial, ?_⟩
  rintro _ ⟨⟩
  refine ⟨rfl, ?_⟩
  rintro _ ⟨⟩
  refine ⟨⟨⟨_, rfl, rfl, by decide⟩, rfl⟩, ?_⟩
  rintro _ ⟨⟩
  trivial

theorem echoEvents_interest :
    (∃ s, run Duplex.step Duplex.init echoEvents = some s) ∧
      Along Duplex.step Duplex.Interest Duplex.init echoEvents :=
  write_interest echoEvents echoEvents_enabled

end TcpService

end Brickred
