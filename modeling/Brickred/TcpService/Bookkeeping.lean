import Brickred.TcpService.Stream
import Brickred.TcpService.Tables

/-!
# The tables stay coherent

* `Tables.sendOn`, `Tables.onAsyncConnectSocketWrite`, … — each function of the service keeps the
  invariant.
* `tables_step` — and so does every step.
* `TablesCoherent` — what the invariant says to a reader: connections and contexts belong to
  sockets, the timer maps are inverse to each other, their timers are pending, and the error of a
  failed `sendMessage` is going to be reported.
* `tables_coherent` — **every state the service reaches**.
-/

set_option autoImplicit false

namespace Brickred

namespace TcpService

open Runs

variable {κ : Type}

/-! ## Each function of the service -/

section Functions

variable {s s' : TcpService κ} {awaiting : SocketId → Bool}
  {created timed failed : Finset SocketId} {id : SocketId}

theorem Tables.buildListenSocket (h : Tables s awaiting created timed failed) {fd : Int}
    (hfd : 0 ≤ fd) (hfd' : fd < 2 ^ 31) (hnext : s.socketIdAllocator + 1 < 2 ^ 31) :
    ∃ created', Tables (s.buildListenSocket fd) awaiting created' timed failed := by
  obtain ⟨hnew, _, h'⟩ := h.create hfd hfd' hnext rfl
  have hunused := h.unused hnew
  have hsocket : s.countSocket.sockets (SocketIdAllocator.getId s.socketIdAllocator fd) = none :=
    hunused.socket
  refine ⟨insert (SocketIdAllocator.getId s.socketIdAllocator fd) created, ?_⟩
  unfold TcpService.buildListenSocket
  dsimp only
  rw [hsocket, Option.isSome_none, if_neg Bool.false_ne_true]
  exact h'.addSocket (Finset.mem_insert_self _ _) hunused.connection _

theorem Tables.buildConnectedSocket (h : Tables s awaiting created timed failed) {fd : Int}
    (hfd : 0 ≤ fd) (hfd' : fd < 2 ^ 31) (hnext : s.socketIdAllocator + 1 < 2 ^ 31)
    {awaiting' : SocketId → Bool}
    (hawaiting : ∀ i, awaiting' i = true → awaiting i = true ∧ s.newSocketId fd ≠ some i) :
    ∃ created', Tables (s.buildConnectedSocket fd) awaiting' created' timed failed := by
  obtain ⟨hnew, hid, h'⟩ := h.create hfd hfd' hnext rfl
  generalize SocketIdAllocator.getId s.socketIdAllocator fd = id at hnew hid h'
  have hunused := h.unused hnew
  refine ⟨insert id created, ?_⟩
  unfold TcpService.buildConnectedSocket
  rw [hid]
  refine (h'.addSocket (Finset.mem_insert_self _ _) hunused.connection _).addConnection ?_
    (fun hfailed => hnew (h.failed_subset hfailed)) (fun _ => ⟨?_, hunused.timer⟩) fun i hi => ?_
  · rw [setSocket_sockets, Function.update_self]
    rfl
  · rw [link_setSocket, Function.update_self]
    exact WriteCallback.noConfusion
  · obtain ⟨hold, hne⟩ := hawaiting i hi
    rw [hid] at hne
    exact ⟨hold, fun heq => hne (congrArg some heq.symm)⟩

theorem Tables.buildAsyncConnectSocket (h : Tables s awaiting created timed failed)
    {fd : Int} (timeoutMs : Int) (hfd : 0 ≤ fd) (hfd' : fd < 2 ^ 31)
    (hnext : s.socketIdAllocator + 1 < 2 ^ 31) {awaiting' : SocketId → Bool}
    (hawaiting : ∀ i, awaiting' i = true → awaiting i = true ∧ s.newSocketId fd ≠ some i) :
    ∃ created' timed',
      Tables (s.buildAsyncConnectSocket fd timeoutMs) awaiting' created' timed' failed := by
  obtain ⟨hnew, hid, h'⟩ := h.create hfd hfd' hnext rfl
  generalize SocketIdAllocator.getId s.socketIdAllocator fd = id at hnew hid h'
  have hunused := h.unused hnew
  have hmem : id ∈ insert id created := Finset.mem_insert_self _ _
  have hopening : ∀ {s₁ : TcpService κ} {timed' : Finset SocketId},
      s₁.connections = s.connections → Tables s₁ awaiting (insert id created) timed' failed →
      Tables ((s₁.setSocket id ⟨.null, .onAsyncConnectSocketWrite, true⟩).setConnection id
        (.new .connecting)) awaiting' (insert id created) timed' failed := by
    intro s₁ timed' hcon h₁
    refine (h₁.addSocket hmem (hcon ▸ hunused.connection) _).addConnection ?_
      (fun hfailed => hnew (h.failed_subset hfailed)) nofun fun i hi => ?_
    · rw [setSocket_sockets, Function.update_self]
      rfl
    · obtain ⟨hold, hne⟩ := hawaiting i hi
      rw [hid] at hne
      exact ⟨hold, fun heq => hne (congrArg some heq.symm)⟩
  unfold TcpService.buildAsyncConnectSocket
  rw [hid]
  dsimp only
  by_cases htimeout : timeoutMs > 0
  · rw [if_pos htimeout]
    have htimed : id ∉ timed := fun htimed => hnew (h.timed_subset htimed)
    refine ⟨_, insert id timed, hopening rfl (h'.addTimer hmem hunused.timer ?_ ?_ h'.failed_subset
      ?_ subset_rfl nofun (fun i hi hnot => absurd hi hnot) fun i hi => .inl hi)⟩
    · intro connection writeCb hlink
      have hcon : s.connections id = some connection := congrArg Link.connection hlink
      rw [hunused.connection] at hcon
      cases hcon
    · exact Finset.insert_subset_insert id h.timed_subset
    · rw [Finset.card_insert_of_notMem htimed]
      omega
  · rw [if_neg htimeout]
    exact ⟨_, _, hopening rfl h'⟩

/-- **A call of `sendMessage`** that fails starts the timer that reports the error. -/
theorem Tables.sendOn (h : Tables s awaiting created timed failed) {connection : TcpConnection κ}
    {buffer : List UInt8} {sendCompleteCb : SendCompleteCallback κ} {kernel : SendResult}
    (hcon : s.connections id = some connection)
    (hs : s.sendOn id connection buffer sendCompleteCb kernel = some s') :
    ∃ failed', Tables s' (if (connection.sendMessage s.connWriteBufferMaxSize buffer sendCompleteCb
      kernel).2.isFailed then Function.update awaiting id true else awaiting) created timed
      failed' := by
  obtain ⟨s'', hs'', hcoherent⟩ := h.coherent.sendOn hcon buffer sendCompleteCb kernel
  rw [hs] at hs''
  cases hs''
  obtain ⟨hok, hweak⟩ | ⟨hfails, hconnected, errno, rfl⟩ := sendOn_cases hcon hs
  · rw [hok]
    exact ⟨failed, h.weaken hweak hcoherent⟩
  · rw [hfails, if_pos rfl]
    have hlink := link_of_connection hcon
    obtain ⟨hcb, htimer⟩ := h.connected id connection _ hlink hconnected
    have hid : id ∈ created := h.sockets id (h.coherent.open_socket hcon)
    have hnot : id ∉ failed := fun hmem => (h.spent id hmem connection _ hlink).1 hconnected
    have hstatus : ∀ connection' writeCb,
        (s.setConnection id (connection.setError errno)).link id = ⟨some connection', writeCb⟩ →
          connection'.status ≠ .connected ∧ connection'.status ≠ .connecting ∧
            writeCb ≠ .onAsyncConnectSocketWrite := by
      intro connection' writeCb hlink'
      rw [link_setConnection, Function.update_self] at hlink'
      cases hlink'
      exact ⟨(final_setError connection errno).1, (final_setError connection errno).2, hcb⟩
    have hweak := Weaker.setConnection hcon (.inr (final_setError connection errno))
    have h₁ := h.weaken hweak (h.coherent.setConnection (h.coherent.open_socket hcon) _)
    refine ⟨insert id failed, h₁.addTimer hid htimer (fun c w hl => (hstatus c w hl).1)
      h.timed_subset (Finset.insert_subset hid h.failed_subset) ?_ (Finset.subset_insert _ _)
      (fun _ => Finset.mem_insert_self _ _) (fun i hi hold => ?_) fun i hi => ?_⟩
    · rw [Finset.card_insert_of_notMem hnot]
      omega
    · obtain rfl := (Finset.mem_insert.1 hi).resolve_right hold
      exact hstatus
    · by_cases heq : i = id
      · exact .inr ⟨heq, rfl⟩
      · rw [Function.update_of_ne heq] at hi
        exact .inl hi

theorem Tables.removeSocketTimer (h : Tables s awaiting created timed failed)
    (hid : awaiting id = true → s.connections id = none) :
    Tables (s.removeSocketTimer id) awaiting created timed failed ∧
      (s.removeSocketTimer id).socketToTimerMap id = none := by
  unfold TcpService.removeSocketTimer
  cases ht : s.socketToTimerMap id with
  | none => exact ⟨h, ht⟩
  | some t =>
    dsimp only
    refine ⟨h.eraseTimer ht fun i hi => ⟨hi, ?_⟩, by rw [Function.update_self]⟩
    rintro rfl
    exact hid hi

theorem Tables.onAsyncConnectSocketWrite (h : Tables s awaiting created timed failed)
    {socket : TcpSocket} (hsocket : s.sockets id = some socket)
    (hcb : socket.writeCb = .onAsyncConnectSocketWrite) (socketError : Int) :
    Tables (s.onAsyncConnectSocketWrite id socket socketError) awaiting created timed failed := by
  have hunspent : ∀ connection, s.connections id = some connection → id ∉ failed := by
    intro connection hcon hmem
    exact (h.spent id hmem connection _ (link_of_connection hcon)).2.2
      ((link_of_socket hsocket).trans hcb)
  have hclosed : awaiting id = true → s.connections id = none := by
    intro hid
    by_contra hopen
    obtain ⟨connection, hcon⟩ := Option.ne_none_iff_exists'.1 hopen
    exact hunspent connection hcon (h.awaiting_failed hid (by rw [hcon]; rfl))
  obtain ⟨h₁, htimer⟩ := h.removeSocketTimer hclosed
  unfold TcpService.onAsyncConnectSocketWrite
  dsimp only
  rw [removeSocketTimer_connections]
  have hsocket₁ : (s.removeSocketTimer id).sockets id = some socket := by
    rw [removeSocketTimer_sockets]
    exact hsocket
  have hcon₁ := removeSocketTimer_connections s id
  generalize s.removeSocketTimer id = s₁ at h₁ htimer hsocket₁ hcon₁ ⊢
  cases hcon : s.connections id with
  | none => exact h₁
  | some connection =>
    dsimp only
    rw [hcon₁.symm] at hcon
    by_cases herror : socketError ≠ 0
    · rw [if_pos herror]
      exact h₁.weaken (.setConnection hcon (.inr (final_setError connection socketError)))
        (h₁.coherent.setConnection (h₁.coherent.open_socket hcon) _)
    · rw [if_neg herror]
      have h₂ := h₁.weaken (.setSocket hsocket₁ WriteCallback.noConfusion)
        (h₁.coherent.setSocket { socket with readCb := .onSocketRead, writeCb := .null })
      have hnot := hunspent connection (hcon₁ ▸ hcon)
      refine h₂.addConnection ?_ hnot (fun _ => ⟨?_, htimer⟩) fun i hi => ⟨hi, ?_⟩
      · rw [setSocket_sockets, Function.update_self]
        rfl
      · rw [link_setSocket, Function.update_self]
        exact WriteCallback.noConfusion
      · rintro rfl
        exact hnot (h₁.awaiting_failed hi (by rw [hcon]; rfl))

theorem Tables.setContext (h : Tables s awaiting created timed failed) (context : Addr) :
    Tables (s.setContext id context) awaiting created timed failed := by
  unfold TcpService.setContext
  cases hsocket : s.sockets id with
  | none => exact h
  | some socket =>
    rw [Option.isNone_some, if_neg Bool.false_ne_true]
    refine { h with contexts := fun i hi => ?_ }
    change (Function.update s.contexts id (some context) i).isSome at hi
    change (s.sockets i).isSome
    by_cases heq : i = id
    · rw [heq, hsocket]
      rfl
    · rw [Function.update_of_ne heq] at hi
      exact h.contexts i hi

theorem Tables.detach (h : Tables s awaiting created timed failed) {socket : TcpSocket}
    {connection : TcpConnection κ} (hsocket : s.sockets id = some socket)
    (hcon : s.connections id = some connection) (errorCode : Int) :
    Tables ((s.setSocket id { socket with attached := false }).setConnection id
      (connection.setError errorCode)) awaiting created timed failed := by
  have hdetach : Weaker s (s.setSocket id { socket with attached := false }) :=
    .setSocket hsocket fun hcb => hcb
  exact h.weaken (hdetach.trans (.setConnection hcon (.inr (final_setError connection errorCode))))
    (h.coherent.opening _ _)

theorem Tables.onAsyncConnectTimeout (h : Tables s awaiting created timed failed) {t : TimerId}
    (ht : s.ioService.timers t = some .onAsyncConnectTimeout) :
    Tables (TcpService.onAsyncConnectTimeout { s with ioService := s.ioService.stopTimer t } t)
      awaiting created timed failed := by
  unfold TcpService.onAsyncConnectTimeout takeSocketTimer
  dsimp only
  cases hid : s.timerToSocketMap t with
  | none => exact h.stopTimer hid
  | some id =>
    dsimp only [Option.map_some]
    have htimer := (h.inverse id t).2 hid
    -- the timer is not one that reports an error of `sendMessage`
    have hclosed : awaiting id = true → s.connections id = none := by
      intro hawaiting
      by_contra hopen
      obtain ⟨u, hu, herror⟩ := h.reported id hawaiting (Option.isSome_iff_ne_none.2 hopen)
      rw [htimer] at hu
      cases hu
      rw [ht] at herror
      cases herror
    have h₁ := h.eraseTimer htimer fun i hi => ⟨hi, fun heq => hclosed (heq ▸ hi)⟩
    cases hsocket : s.sockets id with
    | none => exact h₁
    | some socket =>
      cases hcon : s.connections id with
      | none => exact h₁
      | some connection =>
        dsimp only
        exact h₁.detach hsocket hcon ETIMEDOUT

theorem Tables.onSendMessageError (h : Tables s awaiting created timed failed) {t : TimerId}
    {awaiting' : SocketId → Bool} (hawaiting : ∀ i, awaiting' i = true →
      awaiting i = true ∧ s.timerToSocketMap t ≠ some i) :
    Tables (TcpService.onSendMessageError { s with ioService := s.ioService.stopTimer t } t)
      awaiting' created timed failed := by
  unfold TcpService.onSendMessageError takeSocketTimer
  dsimp only
  cases hid : s.timerToSocketMap t with
  | none => exact (h.stopTimer hid).awaiting_mono fun i hi => (hawaiting i hi).1
  | some id =>
    refine h.eraseTimer ((h.inverse id t).2 hid) fun i hi => ⟨(hawaiting i hi).1, ?_⟩
    rintro rfl
    exact absurd hid (hawaiting i hi).2

end Functions

/-! ## Every step -/

namespace Observed

variable {w w' : Observed κ} {op : Op κ}

def Tabled (w : Observed κ) : Prop :=
  ∃ created timed failed, Tables w.machine.service w.awaiting created timed failed

theorem tabled_init : (init : Observed κ).Tabled :=
  ⟨∅, ∅, ∅, {
    coherent := Coherent.init
    contexts := nofun
    sockets := nofun
    created_card := rfl
    created_lt := nofun
    allocator_lt := show (0 : Int) < 2 ^ 31 by decide
    timed_subset := Finset.Subset.refl _
    failed_subset := Finset.Subset.refl _
    timers_card := rfl
    timers_le := nofun
    inverse := Inverse.empty
    pending := nofun
    connected := nofun
    spent := nofun
    reported := nofun }⟩

theorem tabled_sendMessage (h : w.Tabled) {id : SocketId} {buffer : List UInt8}
    {sendCompleteCb : SendCompleteCallback κ} {kernel : SendResult}
    (hs : w.sendMessage id buffer sendCompleteCb kernel = some w') : w'.Tabled := by
  obtain ⟨created, timed, failed, h⟩ := h
  obtain ⟨machine, hm, rfl⟩ := Option.map_eq_some_iff.1 hs
  unfold Tabled Machine.sendFails
  dsimp only
  unfold Machine.sendMessage at hm
  cases hcon : w.machine.service.connections id with
  | none =>
    rw [hcon] at hm
    cases hm
    exact ⟨created, timed, failed, h⟩
  | some connection =>
    rw [hcon] at hm
    obtain ⟨s, hsend, rfl⟩ := Option.map_eq_some_iff.1 hm
    obtain ⟨failed', h'⟩ := h.sendOn hcon hsend
    exact ⟨created, timed, failed', h'⟩

theorem tabled_broadcastMessage {buffer : List UInt8} {kernel : SocketId → SendResult} :
    ∀ {order : List SocketId} {w : Observed κ}, w.Tabled →
      broadcastMessage buffer kernel order w = some w' → w'.Tabled
  | [], _, h, hs => by
    cases hs
    exact h
  | id :: order, w, h, hs => by
    obtain ⟨w₁, h₁, hs⟩ := Option.bind_eq_some_iff.1 hs
    exact tabled_broadcastMessage (tabled_sendMessage h h₁) hs

theorem awaitingAfter_le {i : SocketId} (h : w.awaitingAfter op i = true) :
    w.awaiting i = true ∧ w.machine.opens op ≠ some i ∧ w.machine.settles op ≠ some i := by
  unfold awaitingAfter at h
  split at h
  · cases h
  · rename_i hnot
    exact ⟨h, not_or.1 hnot⟩

theorem tables_after {s : TcpService κ} {created timed failed : Finset SocketId}
    (h : Tables s w.awaiting created timed failed) :
    Tables s (w.awaitingAfter op) created timed failed :=
  h.awaiting_mono fun _ hi => (awaitingAfter_le hi).1

theorem tabled_quiet (hs : w.quietStep op = some w')
    (h : ∀ m, w.machine.step op = some m → ∃ created timed failed,
      Tables m.service (w.awaitingAfter op) created timed failed) : w'.Tabled := by
  obtain ⟨m, hm, rfl⟩ := Option.map_eq_some_iff.1 hs
  exact h m hm

/-- **Every step keeps the invariant.** -/
theorem tables_step (h : w.Tabled) (hE : w.Enabled op) (hs : w.step op = some w') : w'.Tabled := by
  have htabled := h
  obtain ⟨created, timed, failed, h⟩ := h
  cases op with
  | sendMessage id buffer sendCompleteCb kernel => exact tabled_sendMessage htabled hs
  | broadcastMessage buffer order kernel => exact tabled_broadcastMessage htabled hs
  | buildListenSocket fd =>
    obtain ⟨_, hfd, hfd', hnext⟩ := hE
    refine tabled_quiet hs fun m hm => ?_
    cases hm
    obtain ⟨created', h'⟩ := h.buildListenSocket hfd hfd' hnext
    exact ⟨created', timed, failed, tables_after h'⟩
  | buildConnectedSocket fd =>
    obtain ⟨_, hfd, hfd', hnext⟩ := hE
    have hawaiting : ∀ i, w.awaitingAfter (.buildConnectedSocket fd) i = true →
        w.awaiting i = true ∧ w.machine.service.newSocketId fd ≠ some i :=
      fun i hi => ⟨(awaitingAfter_le hi).1, (awaitingAfter_le hi).2.1⟩
    refine tabled_quiet hs fun m hm => ?_
    cases hm
    obtain ⟨created', h'⟩ := h.buildConnectedSocket hfd hfd' hnext hawaiting
    refine ⟨created', timed, failed, ?_⟩
    cases w.machine.service.newSocketId fd <;> exact h'
  | buildAsyncConnectSocket fd timeoutMs =>
    obtain ⟨_, hfd, hfd', hnext⟩ := hE
    have hawaiting : ∀ i, w.awaitingAfter (.buildAsyncConnectSocket fd timeoutMs) i = true →
        w.awaiting i = true ∧ w.machine.service.newSocketId fd ≠ some i :=
      fun i hi => ⟨(awaitingAfter_le hi).1, (awaitingAfter_le hi).2.1⟩
    refine tabled_quiet hs fun m hm => ?_
    cases hm
    obtain ⟨created', timed', h'⟩ :=
      h.buildAsyncConnectSocket timeoutMs hfd hfd' hnext hawaiting
    refine ⟨created', timed', failed, ?_⟩
    cases w.machine.service.newSocketId fd <;> exact h'
  | closeSocket id =>
    refine tabled_quiet hs fun m hm => ?_
    cases hm
    exact ⟨created, timed, failed,
      tables_after (h.weaken (.closeSocket _ id) h.coherent.closeSocket)⟩
  | setContext id context =>
    refine tabled_quiet hs fun m hm => ?_
    cases hm
    exact ⟨created, timed, failed, tables_after (h.setContext context)⟩
  | setSendBufferMaxSize size =>
    refine tabled_quiet hs fun m hm => ?_
    cases hm
    exact ⟨created, timed, failed, { tables_after h with }⟩
  | writable id kernel socketError =>
    refine tabled_quiet hs fun m hm => ⟨created, timed, failed, tables_after ?_⟩
    obtain ⟨socket, hsocket, hm⟩ := Option.bind_eq_some_iff.1 hm
    split at hm
    · cases hm
    · rename_i hcb
      cases hm
      exact h.onAsyncConnectSocketWrite hsocket hcb socketError
    · cases hm
      exact h.weaken (onSocketWrite_weaker hsocket kernel)
        (h.coherent.onSocketWrite socket kernel)
  | readable id readEnd =>
    refine tabled_quiet hs fun m hm => ⟨created, timed, failed, tables_after ?_⟩
    cases hm
    exact h.weaken (onSocketRead_weaker _ id readEnd) (h.coherent.onSocketRead readEnd)
  | socketError id socketError errno =>
    refine tabled_quiet hs fun m hm => ⟨created, timed, failed, tables_after ?_⟩
    cases hm
    exact h.weaken (onSocketError_weaker _ id socketError errno)
      (h.coherent.onSocketError socketError errno)
  | timeout timerId =>
    refine tabled_quiet hs fun m hm => ⟨created, timed, failed, ?_⟩
    obtain ⟨timerCb, hcb, hm⟩ := Option.bind_eq_some_iff.1 hm
    cases timerCb with
    | onAsyncConnectTimeout =>
      cases hm
      exact tables_after (h.onAsyncConnectTimeout hcb)
    | onSendMessageError =>
      cases hm
      refine h.onSendMessageError fun i hi => ?_
      obtain ⟨hold, _, hne⟩ := awaitingAfter_le hi
      rw [Machine.settles, hcb] at hne
      exact ⟨hold, hne⟩

/-! ## What the invariant says -/

/-- What `TcpService` relies on between two calls. -/
structure TablesCoherent (w : Observed κ) : Prop where
  connections : ∀ id, (w.machine.service.connections id).isSome →
    (w.machine.service.sockets id).isSome
  contexts : ∀ id, (w.machine.service.contexts id).isSome → (w.machine.service.sockets id).isSome
  inverse : Inverse w.machine.service.socketToTimerMap w.machine.service.timerToSocketMap
  pending : ∀ id timerId, w.machine.service.socketToTimerMap id = some timerId →
    (w.machine.service.ioService.timers timerId).isSome
  /-- `onSendMessageError` is going to run. -/
  reported : ∀ id, w.awaiting id = true → (w.machine.service.connections id).isSome →
    ∃ timerId, w.machine.service.socketToTimerMap id = some timerId ∧
      w.machine.service.ioService.timers timerId = some .onSendMessageError

theorem Tabled.coherent (h : w.Tabled) : w.TablesCoherent := by
  obtain ⟨created, timed, failed, h⟩ := h
  refine ⟨h.coherent, h.contexts, h.inverse, fun id timerId hid => ?_, h.reported⟩
  obtain ⟨_, timerCb, htimer, _⟩ := h.pending id timerId hid
  exact Option.isSome_iff_exists.2 ⟨timerCb, htimer⟩

theorem along_tabled {ops : List (Op κ)} (hE : EachStep step Enabled init ops) :
    Along step Tabled init ops :=
  along_of_eachStep (fun _ _ _ h hE hs => tables_step h hE hs) tabled_init hE

/-- **The tables are coherent in every state the service reaches.** -/
theorem tables_coherent (ops : List (Op κ)) (hE : EachStep step Enabled init ops) :
    Along step TablesCoherent init ops :=
  (along_tabled hE).mono fun _ h => h.coherent

/-- A connection with a timeout is made, a message fails on it, and the error is reported. -/
def failingOps : List (Op Nat) :=
  [.buildAsyncConnectSocket 3 1000, .writable firstId (.accepts 0 0) 0,
    .sendMessage firstId [97] .null (.fails 104), .timeout 2]

theorem failingOps_enabled : EachStep step Enabled init failingOps := by
  refine ⟨⟨trivial, by decide, by decide, by decide⟩, ?_⟩
  rintro _ ⟨⟩
  refine ⟨⟨⟨_, rfl, rfl, by decide⟩, trivial⟩, ?_⟩
  rintro _ ⟨⟩
  refine ⟨⟨trivial, trivial⟩, ?_⟩
  rintro _ ⟨⟩
  exact ⟨⟨rfl, trivial⟩, fun _ _ => trivial⟩

theorem failingOps_coherent : Along step TablesCoherent init failingOps :=
  tables_coherent failingOps failingOps_enabled

end Observed

end TcpService

end Brickred
