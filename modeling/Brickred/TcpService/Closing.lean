import Brickred.TcpService.Bookkeeping

/-!
# Closing a socket

`closeSocket` takes a socket out of the tables of sockets, connections and contexts, and leaves a
timer of it alone: when the timer falls due its callback finds that the socket is gone.

* `Released` — the id is in none of the three tables.
* `Keeps` — a closed socket stays closed, with the timer it has.  So does every step that is not
  the end of this timer.
* `close_releases` — what `closeSocket` does, and what becomes of the socket and its timer.
* `close_leaves_timer` — a socket closed while it is being connected.
-/

set_option autoImplicit false

namespace Brickred

namespace TcpService

open Runs

variable {κ : Type}

/-- The id is in none of the three tables. -/
structure Released (id : SocketId) (s : TcpService κ) : Prop where
  socket : s.sockets id = none
  connection : s.connections id = none
  context : s.contexts id = none

structure Keeps (id : SocketId) (s s' : TcpService κ) : Prop where
  released : Released id s → Released id s'
  timer : s'.socketToTimerMap id = s.socketToTimerMap id
  pending : ∀ t, s.socketToTimerMap id = some t → s'.ioService.timers t = s.ioService.timers t
  allocator : s.socketIdAllocator ≤ s'.socketIdAllocator

/-! ## Each function of the service -/

section Functions

variable {s s' s'' : TcpService κ} {awaiting : SocketId → Bool}
  {created timed failed : Finset SocketId} {id i : SocketId}

theorem Keeps.refl (s : TcpService κ) : Keeps id s s := ⟨fun h => h, rfl, fun _ _ => rfl, Int.le_refl _⟩

theorem Keeps.trans (h : Keeps id s s') (h' : Keeps id s' s'') : Keeps id s s'' where
  released := fun hr => h'.released (h.released hr)
  timer := h'.timer.trans h.timer
  pending := fun t ht => (h'.pending t (h.timer.trans ht)).trans (h.pending t ht)
  allocator := Int.le_trans h.allocator h'.allocator

/-- What changes no timer opens nothing. -/
theorem Weaker.keeps (h : Weaker s s') : Keeps id s s' where
  released := fun hr => by
    have hnone : ∀ {α : Type} {o o' : Option α}, o = none → (o'.isSome → o.isSome) → o' = none := by
      rintro α o o' rfl himp
      exact Option.not_isSome_iff_eq_none.1 fun hsome => nomatch himp hsome
    refine ⟨hnone hr.socket (h.sockets id), hnone hr.connection fun hsome => ?_,
      hnone hr.context fun hsome => (h.contexts id hsome).1⟩
    obtain ⟨connection, hcon⟩ := Option.isSome_iff_exists.1 hsome
    obtain ⟨_, connection₀, hcon₀, _⟩ := h.link id connection hcon
    exact Option.isSome_iff_exists.2 ⟨connection₀, hcon₀⟩
  timer := congrFun h.socketToTimerMap id
  pending := fun t _ => by rw [h.ioService]
  allocator := h.socketIdAllocator.ge

theorem Keeps.setSocket (s : TcpService κ) (hne : i ≠ id) (socket : TcpSocket) :
    Keeps id s (s.setSocket i socket) where
  released := fun hr =>
    ⟨(Function.update_of_ne hne.symm _ _).trans hr.socket, hr.connection, hr.context⟩
  timer := rfl
  pending := fun _ _ => rfl
  allocator := Int.le_refl _

theorem Keeps.setConnection (s : TcpService κ) (hne : i ≠ id) (connection : TcpConnection κ) :
    Keeps id s (s.setConnection i connection) where
  released := fun hr =>
    ⟨hr.socket, (Function.update_of_ne hne.symm _ _).trans hr.connection, hr.context⟩
  timer := rfl
  pending := fun _ _ => rfl
  allocator := Int.le_refl _

theorem Keeps.addSocketTimer (h : Tables s awaiting created timed failed) (hne : i ≠ id)
    (timerCb : TimerCallback) : Keeps id s (s.addSocketTimer i timerCb) := by
  rw [h.addSocketTimer_eq timerCb]
  refine ⟨fun hr => ⟨hr.socket, hr.connection, hr.context⟩, Function.update_of_ne hne.symm _ _,
    fun t ht => Function.update_of_ne ?_ _ _, Int.le_refl _⟩
  rintro rfl
  obtain ⟨_, cb, hcb, _⟩ := h.pending id _ ht
  rw [h.timer_free.1] at hcb
  cases hcb

/-- Another timer is stopped. -/
theorem Keeps.eraseTimer (h : Tables s awaiting created timed failed) {u : TimerId}
    (hu : s.socketToTimerMap i = some u) (hne : i ≠ id) :
    Keeps id s { s with
      ioService := s.ioService.stopTimer u
      socketToTimerMap := Function.update s.socketToTimerMap i none
      timerToSocketMap := Function.update s.timerToSocketMap u none } := by
  refine ⟨fun hr => ⟨hr.socket, hr.connection, hr.context⟩, Function.update_of_ne hne.symm _ _,
    fun t ht => Function.update_of_ne ?_ _ _, Int.le_refl _⟩
  rintro rfl
  have hi := (h.inverse i t).1 hu
  rw [(h.inverse id t).1 ht] at hi
  exact hne (Option.some.inj hi).symm

theorem Keeps.stopTimer (h : Tables s awaiting created timed failed) {u : TimerId}
    (hu : s.timerToSocketMap u = none) :
    Keeps id s { s with ioService := s.ioService.stopTimer u } := by
  refine ⟨fun hr => ⟨hr.socket, hr.connection, hr.context⟩, rfl,
    fun t ht => Function.update_of_ne ?_ _ _, Int.le_refl _⟩
  rintro rfl
  have hid := (h.inverse id t).1 ht
  rw [hu] at hid
  cases hid

theorem Keeps.setContext (s : TcpService κ) (i : SocketId) (context : Addr) :
    Keeps id s (s.setContext i context) := by
  unfold TcpService.setContext
  cases hsocket : s.sockets i with
  | none => exact .refl s
  | some socket =>
    refine ⟨fun hr => ⟨hr.socket, hr.connection, ?_⟩, rfl, fun _ _ => rfl, Int.le_refl _⟩
    have hne : id ≠ i := by
      rintro rfl
      rw [hr.socket] at hsocket
      cases hsocket
    exact (Function.update_of_ne hne _ _).trans hr.context

theorem Keeps.sendOn (h : Tables s awaiting created timed failed) {connection : TcpConnection κ}
    {buffer : List UInt8} {sendCompleteCb : SendCompleteCallback κ} {kernel : SendResult}
    (hcon : s.connections i = some connection) (hne : i ≠ id)
    (hs : s.sendOn i connection buffer sendCompleteCb kernel = some s') : Keeps id s s' := by
  obtain ⟨_, hweak⟩ | ⟨_, _, errno, rfl⟩ := sendOn_cases hcon hs
  · exact hweak.keeps
  · have hweak := Weaker.setConnection hcon (.inr (final_setError connection errno))
    have h₁ := h.weaken hweak (h.coherent.setConnection (h.coherent.open_socket hcon) _)
    exact hweak.keeps.trans (.addSocketTimer h₁ hne _)

theorem Keeps.onAsyncConnectSocketWrite (h : Tables s awaiting created timed failed)
    (hne : i ≠ id) (socket : TcpSocket) (socketError : Int) :
    Keeps id s (s.onAsyncConnectSocketWrite i socket socketError) := by
  have hremove : Keeps id s (s.removeSocketTimer i) := by
    unfold removeSocketTimer
    cases hu : s.socketToTimerMap i with
    | none => exact .refl s
    | some u => exact .eraseTimer h hu hne
  unfold TcpService.onAsyncConnectSocketWrite
  dsimp only
  cases (s.removeSocketTimer i).connections i with
  | none => exact hremove
  | some connection =>
    dsimp only
    split
    · exact hremove.trans (.setConnection _ hne _)
    · exact (hremove.trans (.setSocket _ hne _)).trans (.setConnection _ hne _)

theorem Keeps.onAsyncConnectTimeout (h : Tables s awaiting created timed failed) {t : TimerId}
    (hne : s.timerToSocketMap t ≠ some id) :
    Keeps id s
      (TcpService.onAsyncConnectTimeout { s with ioService := s.ioService.stopTimer t } t) := by
  unfold TcpService.onAsyncConnectTimeout takeSocketTimer
  dsimp only
  cases hi : s.timerToSocketMap t with
  | none => exact .stopTimer h hi
  | some i =>
    have hne' : i ≠ id := fun heq => hne (heq ▸ hi)
    have herase := Keeps.eraseTimer h ((h.inverse i t).2 hi) hne'
    dsimp only [Option.map_some]
    split
    · exact (herase.trans (.setSocket _ hne' _)).trans (.setConnection _ hne' _)
    · exact herase

theorem Keeps.onSendMessageError (h : Tables s awaiting created timed failed) {t : TimerId}
    (hne : s.timerToSocketMap t ≠ some id) :
    Keeps id s
      (TcpService.onSendMessageError { s with ioService := s.ioService.stopTimer t } t) := by
  unfold TcpService.onSendMessageError takeSocketTimer
  dsimp only
  cases hi : s.timerToSocketMap t with
  | none => exact .stopTimer h hi
  | some i => exact .eraseTimer h ((h.inverse i t).2 hi) fun heq => hne (heq ▸ hi)

/-- The id of a socket that there has been. -/
def Old (id : SocketId) (s : TcpService κ) : Prop := id < (s.socketIdAllocator + 1) * 2 ^ 32

section Build

variable {fd : Int}

theorem Keeps.countSocket (h : Tables s awaiting created timed failed) (hfd : 0 ≤ fd)
    (hfd' : fd < 2 ^ 31) (hnext : s.socketIdAllocator + 1 < 2 ^ 31) : Keeps id s s.countSocket where
  released := fun hr => ⟨hr.socket, hr.connection, hr.context⟩
  timer := rfl
  pending := fun _ _ => rfl
  allocator := by
    change s.socketIdAllocator ≤ SocketIdAllocator.next s.socketIdAllocator
    rw [(h.getId hfd hfd' hnext).1]
    exact (Int.lt_succ _).le

theorem Tables.getId_ne (h : Tables s awaiting created timed failed) (hfd : 0 ≤ fd)
    (hfd' : fd < 2 ^ 31) (hnext : s.socketIdAllocator + 1 < 2 ^ 31) (hold : Old id s) :
    SocketIdAllocator.getId s.socketIdAllocator fd ≠ id := by
  intro heq
  rw [(h.getId hfd hfd' hnext).2] at heq
  have hlt : (s.socketIdAllocator + 1) * 2 ^ 32 + fd < (s.socketIdAllocator + 1) * 2 ^ 32 :=
    heq ▸ hold
  omega

theorem Keeps.buildListenSocket (h : Tables s awaiting created timed failed) (hfd : 0 ≤ fd)
    (hfd' : fd < 2 ^ 31) (hnext : s.socketIdAllocator + 1 < 2 ^ 31) (hold : Old id s) :
    Keeps id s (s.buildListenSocket fd) := by
  have hcount : Keeps id s s.countSocket := .countSocket h hfd hfd' hnext
  unfold TcpService.buildListenSocket
  dsimp only
  split
  · exact hcount
  · exact hcount.trans (.setSocket _ (h.getId_ne hfd hfd' hnext hold) _)

theorem Keeps.buildConnectedSocket (h : Tables s awaiting created timed failed) (hfd : 0 ≤ fd)
    (hfd' : fd < 2 ^ 31) (hnext : s.socketIdAllocator + 1 < 2 ^ 31) (hold : Old id s) :
    Keeps id s (s.buildConnectedSocket fd) := by
  have hcount : Keeps id s s.countSocket := .countSocket h hfd hfd' hnext
  have hne := h.getId_ne hfd hfd' hnext hold
  obtain ⟨_, hnew, _⟩ := h.create hfd hfd' hnext rfl
  unfold TcpService.buildConnectedSocket
  rw [hnew]
  exact (hcount.trans (.setSocket _ hne _)).trans (.setConnection _ hne _)

theorem Keeps.buildAsyncConnectSocket (h : Tables s awaiting created timed failed)
    (timeoutMs : Int) (hfd : 0 ≤ fd) (hfd' : fd < 2 ^ 31)
    (hnext : s.socketIdAllocator + 1 < 2 ^ 31) (hold : Old id s) :
    Keeps id s (s.buildAsyncConnectSocket fd timeoutMs) := by
  have hcount : Keeps id s s.countSocket := .countSocket h hfd hfd' hnext
  have hne := h.getId_ne hfd hfd' hnext hold
  obtain ⟨_, hnew, h'⟩ := h.create hfd hfd' hnext rfl
  unfold TcpService.buildAsyncConnectSocket
  rw [hnew]
  dsimp only
  split
  · exact ((hcount.trans (.addSocketTimer h' hne _)).trans (.setSocket _ hne _)).trans
      (.setConnection _ hne _)
  · exact (hcount.trans (.setSocket _ hne _)).trans (.setConnection _ hne _)

end Build

end Functions

/-! ## Every step -/

namespace Observed

variable {w w' : Observed κ} {op : Op κ} {id : SocketId}

theorem keeps_sendMessage (h : w.Tabled) (hr : Released id w.machine.service) {i : SocketId}
    {buffer : List UInt8} {sendCompleteCb : SendCompleteCallback κ} {kernel : SendResult}
    (hs : w.sendMessage i buffer sendCompleteCb kernel = some w') :
    Keeps id w.machine.service w'.machine.service := by
  obtain ⟨created, timed, failed, h⟩ := h
  have hm := sendMessage_machine hs
  unfold Machine.sendMessage at hm
  cases hcon : w.machine.service.connections i with
  | none =>
    rw [hcon] at hm
    rw [← Option.some.inj hm]
    exact .refl _
  | some connection =>
    rw [hcon] at hm
    obtain ⟨s, hsend, heq⟩ := Option.map_eq_some_iff.1 hm
    have hne : i ≠ id := by
      rintro rfl
      rw [hr.connection] at hcon
      cases hcon
    rw [← heq]
    exact .sendOn h hcon hne hsend

theorem keeps_broadcastMessage {buffer : List UInt8} {kernel : SocketId → SendResult} :
    ∀ {order : List SocketId} {w : Observed κ}, w.Tabled → Released id w.machine.service →
      broadcastMessage buffer kernel order w = some w' →
      Keeps id w.machine.service w'.machine.service
  | [], w, _, _, hs => by
    cases hs
    exact .refl _
  | i :: order, w, h, hr, hs => by
    obtain ⟨w₁, h₁, hs⟩ := Option.bind_eq_some_iff.1 hs
    have hkeeps := keeps_sendMessage h hr h₁
    exact hkeeps.trans
      (keeps_broadcastMessage (tabled_sendMessage h h₁) (hkeeps.released hr) hs)

/-- **A closed socket stays closed**, with the timer it has, in every step that is not the end of
the timer. -/
theorem keeps_step (h : w.Tabled) (hE : w.Enabled op) (hr : Released id w.machine.service)
    (hold : Old id w.machine.service)
    (hne : ∀ t, op = .timeout t → w.machine.service.timerToSocketMap t ≠ some id)
    (hs : w.step op = some w') : Keeps id w.machine.service w'.machine.service := by
  have htabled := h
  obtain ⟨created, timed, failed, h⟩ := h
  have hm := step_machine hs
  cases op with
  | sendMessage i buffer sendCompleteCb kernel => exact keeps_sendMessage htabled hr hs
  | broadcastMessage buffer order kernel => exact keeps_broadcastMessage htabled hr hs
  | buildListenSocket fd =>
    obtain ⟨_, hfd, hfd', hnext⟩ := hE
    rw [← Option.some.inj hm]
    exact .buildListenSocket h hfd hfd' hnext hold
  | buildConnectedSocket fd =>
    obtain ⟨_, hfd, hfd', hnext⟩ := hE
    rw [← Option.some.inj hm]
    cases w.machine.service.newSocketId fd <;> exact .buildConnectedSocket h hfd hfd' hnext hold
  | buildAsyncConnectSocket fd timeoutMs =>
    obtain ⟨_, hfd, hfd', hnext⟩ := hE
    rw [← Option.some.inj hm]
    cases w.machine.service.newSocketId fd <;>
      exact .buildAsyncConnectSocket h timeoutMs hfd hfd' hnext hold
  | closeSocket i =>
    rw [← Option.some.inj hm]
    exact (Weaker.closeSocket _ i).keeps
  | setContext i context =>
    rw [← Option.some.inj hm]
    exact .setContext _ i context
  | setSendBufferMaxSize size =>
    rw [← Option.some.inj hm]
    exact ⟨fun hr => ⟨hr.socket, hr.connection, hr.context⟩, rfl, fun _ _ => rfl, Int.le_refl _⟩
  | writable i kernel socketError =>
    obtain ⟨socket, hsocket, hm⟩ := Option.bind_eq_some_iff.1 hm
    have hne : i ≠ id := by
      rintro rfl
      rw [hr.socket] at hsocket
      cases hsocket
    split at hm
    · cases hm
    · rw [← Option.some.inj hm]
      exact .onAsyncConnectSocketWrite h hne socket socketError
    · rw [← Option.some.inj hm]
      exact (onSocketWrite_weaker hsocket kernel).keeps
  | readable i readEnd =>
    rw [← Option.some.inj hm]
    exact (onSocketRead_weaker _ i readEnd).keeps
  | socketError i socketError errno =>
    rw [← Option.some.inj hm]
    exact (onSocketError_weaker _ i socketError errno).keeps
  | timeout t =>
    obtain ⟨timerCb, hcb, hm⟩ := Option.bind_eq_some_iff.1 hm
    cases timerCb with
    | onAsyncConnectTimeout =>
      rw [← Option.some.inj hm]
      exact .onAsyncConnectTimeout h (hne t rfl)
    | onSendMessageError =>
      rw [← Option.some.inj hm]
      exact .onSendMessageError h (hne t rfl)

/-! ## The timer of a closed socket -/

theorem update_none {α : Type} (f : Int → Option α) (i : Int) :
    Function.update f i none i = none := Function.update_self ..

/-- The timer `t` of the socket `id` has fallen due: the timer and its two entries are gone, and
nothing else has changed or has been reported. -/
structure TimerFired (id : SocketId) (t : TimerId) (w w' : Observed κ) : Prop where
  machine : w'.machine = { w.machine with service := { w.machine.service with
    ioService := w.machine.service.ioService.stopTimer t
    socketToTimerMap := Function.update w.machine.service.socketToTimerMap id none
    timerToSocketMap := Function.update w.machine.service.timerToSocketMap t none } }
  reports : w'.reports = w.reports

/-- The timer `t` of the socket `id` is still to fall due. -/
structure TimerPending (id : SocketId) (t : TimerId) (w : Observed κ) : Prop where
  timer : w.machine.service.socketToTimerMap id = some t
  socket : w.machine.service.timerToSocketMap t = some id
  pending : (w.machine.service.ioService.timers t).isSome

/-- A step leaves the timer of the socket alone unless it is the end of the timer. -/
def TimerLeft (id : SocketId) (w : Observed κ) (op : Op κ) : Prop :=
  ∀ w', w.step op = some w' →
    (w.machine.service.socketToTimerMap id = none →
      w'.machine.service.socketToTimerMap id = none) ∧
    ∀ t, w.machine.service.socketToTimerMap id = some t →
      (op = .timeout t → TimerFired id t w w') ∧ (op ≠ .timeout t → TimerPending id t w')

theorem timer_fires {t : TimerId} (hr : Released id w.machine.service)
    (hid : w.machine.service.timerToSocketMap t = some id) (hs : w.step (.timeout t) = some w') :
    TimerFired id t w w' := by
  have hreport : w.machine.report (.timeout t) = none := by
    rw [Machine.report, hid]
    change (if (w.machine.service.sockets id).isSome ∧ _ then _ else _) = _
    rw [hr.socket]
    rfl
  constructor
  · obtain ⟨timerCb, hcb, hm⟩ := Option.bind_eq_some_iff.1 (quietStep_machine hs)
    cases timerCb with
    | onAsyncConnectTimeout =>
      rw [← Option.some.inj hm]
      dsimp only
      rw [onAsyncConnectTimeout, takeSocketTimer, hid]
      dsimp only [Option.map_some]
      rw [hr.socket]
    | onSendMessageError =>
      rw [← Option.some.inj hm]
      dsimp only
      rw [onSendMessageError, takeSocketTimer, hid]
      rfl
  · rw [quietStep_reports hs]
    funext c
    have hopens : w.machine.opens (.timeout t) = none := rfl
    rw [reportsAfter, hopens, if_neg nofun, Machine.reportTo, hreport]
    exact List.append_nil _

/-- What is known of a closed socket. -/
structure Gone (id : SocketId) (w : Observed κ) : Prop where
  tabled : w.Tabled
  released : Released id w.machine.service
  old : Old id w.machine.service

theorem gone_step (h : Gone id w) (hE : w.Enabled op) (hs : w.step op = some w') : Gone id w' := by
  have htabled := tables_step h.tabled hE hs
  by_cases hfires : ∃ t, op = .timeout t ∧ w.machine.service.timerToSocketMap t = some id
  · obtain ⟨t, rfl, hid⟩ := hfires
    have hfired := timer_fires h.released hid hs
    refine ⟨htabled, ⟨?_, ?_, ?_⟩, ?_⟩
    · rw [hfired.machine]
      exact h.released.socket
    · rw [hfired.machine]
      exact h.released.connection
    · rw [hfired.machine]
      exact h.released.context
    · rw [Old, hfired.machine]
      exact h.old
  · have hkeeps := keeps_step h.tabled hE h.released h.old
      (fun t hop hid => hfires ⟨t, hop, hid⟩) hs
    have hallocator := hkeeps.allocator
    have hle : (w.machine.service.socketIdAllocator + 1) * 2 ^ 32 ≤
        (w'.machine.service.socketIdAllocator + 1) * 2 ^ 32 := by omega
    exact ⟨htabled, hkeeps.released h.released, lt_of_lt_of_le h.old hle⟩

theorem gone_timerLeft (h : Gone id w) (hE : w.Enabled op) : TimerLeft id w op := by
  intro w' hs
  have hcoherent := (tables_step h.tabled hE hs).coherent
  have hinverse := h.tabled.coherent.inverse
  constructor
  · intro hnone
    refine (keeps_step h.tabled hE h.released h.old (fun t _ hid => ?_) hs).timer.trans hnone
    rw [(hinverse id t).2 hid] at hnone
    cases hnone
  · intro t ht
    refine ⟨?_, fun hop => ?_⟩
    · rintro rfl
      exact timer_fires h.released ((hinverse id t).1 ht) hs
    · have hkeeps := keeps_step h.tabled hE h.released h.old (fun u hu hid => hop ?_) hs
      · have ht' := hkeeps.timer.trans ht
        exact ⟨ht', (hcoherent.inverse id t).1 ht', hcoherent.pending id t ht'⟩
      · rw [(hinverse id u).2 hid] at ht
        rw [hu, Option.some.inj ht]

/-! ## Closing -/

/-- Only the entries of `id` in three tables differ. -/
structure OthersKept (id : SocketId) (s s' : TcpService κ) : Prop where
  sockets : ∀ i, i ≠ id → s'.sockets i = s.sockets i
  connections : ∀ i, i ≠ id → s'.connections i = s.connections i
  contexts : ∀ i, i ≠ id → s'.contexts i = s.contexts i
  ioService : s'.ioService = s.ioService
  socketToTimerMap : s'.socketToTimerMap = s.socketToTimerMap
  timerToSocketMap : s'.timerToSocketMap = s.timerToSocketMap

theorem closeSocket_released (s : TcpService κ) (id : SocketId) :
    Released id (s.closeSocket id) ∧ OthersKept id s (s.closeSocket id) :=
  ⟨⟨update_none _ id, update_none _ id, update_none _ id⟩,
    fun _ hne => Function.update_of_ne hne _ _, fun _ hne => Function.update_of_ne hne _ _,
    fun _ hne => Function.update_of_ne hne _ _, rfl, rfl, rfl⟩

/-- **What `closeSocket` does**, in any state: the id is in none of the three tables.  A socket
that was open stays closed, and its timer, if it still has one, falls due without effect. -/
theorem close_releases (id : SocketId) (ops : List (Op κ))
    (hE : EachStep step (fun w op => w.machine.Enabled op) init ops) (w : Observed κ)
    (hw : run step init ops = some w) :
    ∃ w', w.step (.closeSocket id) = some w' ∧ Released id w'.machine.service ∧
      OthersKept id w.machine.service w'.machine.service ∧
      (EachStep step (fun w op => w.machine.Fresh op) init ops →
        (w.machine.service.sockets id).isSome →
          ∀ later : List (Op κ), EachStep step Enabled w' later →
            Along step (fun w => Released id w.machine.service) w' later ∧
              EachStep step (TimerLeft id) w' later) := by
  have hs : w.step (.closeSocket id) = some ⟨⟨w.machine.service.closeSocket id,
    w.machine.history⟩, w.reportsAfter (.closeSocket id), w.awaitingAfter (.closeSocket id)⟩ := rfl
  obtain ⟨hreleased, hkept⟩ := closeSocket_released w.machine.service id
  refine ⟨_, hs, hreleased, hkept, fun hF hsocket later hlater => ?_⟩
  have htabled : w.Tabled := (along_tabled (hE.and hF)).last hw
  have hclose : w.Enabled (.closeSocket id) := ⟨trivial, trivial⟩
  have hold : Old id w.machine.service := by
    obtain ⟨created, timed, failed, h⟩ := htabled
    exact h.created_lt id (h.sockets id hsocket)
  have hgone : Along step (Gone id) _ later :=
    along_of_eachStep (fun _ _ _ h hE hs => gone_step h hE hs)
      ⟨tables_step htabled hclose hs, hreleased, hold⟩ hlater
  exact ⟨hgone.mono fun _ h => h.released,
    (hgone.eachStep.and hlater).mono fun _ _ h => gone_timerLeft h.1.1 h.2⟩

/-- A connection that is made with a timeout. -/
def timeoutOps : List (Op Nat) := [.buildAsyncConnectSocket 3 1000]

theorem timeoutOps_released : ∃ w w' : Observed Nat, run step init timeoutOps = some w ∧
    w.step (.closeSocket firstId) = some w' ∧ Released firstId w'.machine.service ∧
      Along step (fun w => Released firstId w.machine.service) w' [.timeout 1] ∧
        EachStep step (TimerLeft firstId) w' [.timeout 1] := by
  obtain ⟨w', hs, hreleased, _, hlater⟩ :=
    close_releases firstId timeoutOps ⟨trivial, fun _ _ => trivial⟩ _ rfl
  obtain ⟨halong, hleft⟩ := hlater ⟨⟨by decide, by decide, by decide⟩, fun _ _ => trivial⟩ rfl
    [.timeout 1] (by
      cases hs
      exact ⟨⟨rfl, trivial⟩, fun _ _ => trivial⟩)
  exact ⟨_, w', rfl, hs, hreleased, halong, hleft⟩

/-- **A socket closed while it is being connected** leaves its timer behind. -/
theorem close_leaves_timer :
    ¬ ∀ (id : SocketId) (ops : List (Op Nat)) (w w' : Observed Nat),
      EachStep step Enabled init ops → run step init ops = some w →
      w.step (.closeSocket id) = some w' →
        Released id w'.machine.service ∧ w'.machine.service.socketToTimerMap id = none ∧
          ∀ t, w'.machine.service.timerToSocketMap t ≠ some id := by
  intro h
  obtain ⟨_, hnone, _⟩ := h firstId timeoutOps _ _
    ⟨⟨trivial, by decide, by decide, by decide⟩, fun _ _ => trivial⟩ rfl rfl
  cases hnone

end Observed

end TcpService

end Brickred
