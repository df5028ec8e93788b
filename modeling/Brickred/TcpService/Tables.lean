import Mathlib.Data.Finset.Card
import Brickred.Lib.Inverse
import Brickred.TcpService.Reports
import Brickred.TcpService.Transfer

/-!
# The five tables

* `Tables` — the invariant: connections and contexts belong to sockets, the two timer maps are
  inverse, their timers are pending, a connected socket has no timer, and a failed `sendMessage`
  has one until its error is reported.  Ids and timer ids are counted: no id is used twice, and a
  socket gets at most two timers in its life.
* `Weaker` — what most functions do to the tables: they change no timer, open nothing and close
  at most the socket they are called for.
* `Tables.addTimer`, `Tables.eraseTimer`, `Tables.stopTimer`, `Tables.create`, `Tables.addSocket`,
  `Tables.addConnection` — the changes the other functions are made of.
-/

set_option autoImplicit false

namespace Brickred

namespace TcpService

variable {κ : Type}

/-! ## The invariant -/

/-- `created` are the ids of all sockets so far, `timed` those that got a connect timeout and
`failed` those on which a call of `sendMessage` has failed. -/
structure Tables (s : TcpService κ) (awaiting : SocketId → Bool)
    (created timed failed : Finset SocketId) : Prop where
  coherent : Coherent s
  contexts : ∀ id, (s.contexts id).isSome → (s.sockets id).isSome
  sockets : ∀ id, (s.sockets id).isSome → id ∈ created
  created_card : s.socketIdAllocator = created.card
  created_lt : ∀ id ∈ created, id < (s.socketIdAllocator + 1) * 2 ^ 32
  allocator_lt : s.socketIdAllocator < 2 ^ 31
  timed_subset : timed ⊆ created
  failed_subset : failed ⊆ created
  timers_card : s.ioService.timerIdAllocator = timed.card + failed.card
  timers_le : ∀ t, (s.ioService.timers t).isSome → t ≤ s.ioService.timerIdAllocator
  inverse : Inverse s.socketToTimerMap s.timerToSocketMap
  pending : ∀ id t, s.socketToTimerMap id = some t → id ∈ created ∧
    ∃ timerCb, s.ioService.timers t = some timerCb ∧
      (timerCb = .onSendMessageError → id ∈ failed)
  /-- a connected socket has no timer, and is not waiting to be connected -/
  connected : ∀ id connection writeCb, s.link id = ⟨some connection, writeCb⟩ →
    connection.status = .connected →
      writeCb ≠ .onAsyncConnectSocketWrite ∧ s.socketToTimerMap id = none
  /-- a call of `sendMessage` fails once, and on a socket that has been connected -/
  spent : ∀ id ∈ failed, ∀ connection writeCb, s.link id = ⟨some connection, writeCb⟩ →
    connection.status ≠ .connected ∧ connection.status ≠ .connecting ∧
      writeCb ≠ .onAsyncConnectSocketWrite
  reported : ∀ id, awaiting id = true → (s.connections id).isSome →
    ∃ t, s.socketToTimerMap id = some t ∧ s.ioService.timers t = some .onSendMessageError

/-- A status that nothing but a new connection leaves. -/
def Status.Final (status : Status) : Prop := status ≠ .connected ∧ status ≠ .connecting

/-! ## What changes no timer -/

/-- A link keeps its status or comes to a final one, or is closed. -/
def Link.Weaker (l l' : Link κ) : Prop :=
  ∀ connection, l'.connection = some connection →
    (l'.writeCb = .onAsyncConnectSocketWrite → l.writeCb = .onAsyncConnectSocketWrite) ∧
      ∃ connection₀, l.connection = some connection₀ ∧
        (connection.status = connection₀.status ∨ connection.status.Final)

structure Weaker (s s' : TcpService κ) : Prop where
  ioService : s'.ioService = s.ioService
  socketIdAllocator : s'.socketIdAllocator = s.socketIdAllocator
  socketToTimerMap : s'.socketToTimerMap = s.socketToTimerMap
  timerToSocketMap : s'.timerToSocketMap = s.timerToSocketMap
  link : ∀ id, (s.link id).Weaker (s'.link id)
  sockets : ∀ id, (s'.sockets id).isSome → (s.sockets id).isSome
  contexts : ∀ id, (s'.contexts id).isSome →
    (s.contexts id).isSome ∧ ((s.sockets id).isSome → (s'.sockets id).isSome)

section Weaker

variable {s s' s'' : TcpService κ} {awaiting : SocketId → Bool}
  {created timed failed : Finset SocketId} {id : SocketId}

theorem Tables.weaken (h : Tables s awaiting created timed failed) (hw : Weaker s s')
    (hc : Coherent s') : Tables s' awaiting created timed failed where
  coherent := hc
  contexts := fun id hid => (hw.contexts id hid).2 (h.contexts id (hw.contexts id hid).1)
  sockets := fun id hid => h.sockets id (hw.sockets id hid)
  created_card := hw.socketIdAllocator.trans h.created_card
  created_lt := by
    rw [hw.socketIdAllocator]
    exact h.created_lt
  allocator_lt := by
    rw [hw.socketIdAllocator]
    exact h.allocator_lt
  timed_subset := h.timed_subset
  failed_subset := h.failed_subset
  timers_card := by
    rw [hw.ioService]
    exact h.timers_card
  timers_le := by
    rw [hw.ioService]
    exact h.timers_le
  inverse := by
    rw [hw.socketToTimerMap, hw.timerToSocketMap]
    exact h.inverse
  pending := by
    rw [hw.socketToTimerMap, hw.ioService]
    exact h.pending
  connected := fun id connection writeCb hlink hstatus => by
    have hl := hw.link id
    rw [hlink] at hl
    obtain ⟨hasync, connection₀, hconnection, hsame | hfinal⟩ := hl connection rfl
    · obtain ⟨hne, htimer⟩ := h.connected id connection₀ (s.link id).writeCb
        (by rw [← hconnection]) (hsame.symm.trans hstatus)
      exact ⟨fun hcb => hne (hasync hcb), by rw [hw.socketToTimerMap]; exact htimer⟩
    · exact absurd hstatus hfinal.1
  spent := fun id hid connection writeCb hlink => by
    have hl := hw.link id
    rw [hlink] at hl
    obtain ⟨hasync, connection₀, hconnection, hstatus⟩ := hl connection rfl
    obtain ⟨hne, hne', hcb⟩ := h.spent id hid connection₀ (s.link id).writeCb (by rw [← hconnection])
    refine ⟨?_, ?_, fun heq => hcb (hasync heq)⟩
    · obtain hsame | hfinal := hstatus
      · rw [hsame]
        exact hne
      · exact hfinal.1
    · obtain hsame | hfinal := hstatus
      · rw [hsame]
        exact hne'
      · exact hfinal.2
  reported := fun id hid hopen => by
    rw [hw.socketToTimerMap, hw.ioService]
    obtain ⟨connection, hconnection⟩ := Option.isSome_iff_exists.1 hopen
    obtain ⟨_, connection₀, hconnection₀, _⟩ := hw.link id connection hconnection
    exact h.reported id hid (Option.isSome_iff_exists.2 ⟨connection₀, hconnection₀⟩)

theorem Link.Weaker.refl (l : Link κ) : l.Weaker l :=
  fun connection h => ⟨id, connection, h, .inl rfl⟩

theorem Link.Weaker.of_none {l l' : Link κ} (h : l'.connection = none) : l.Weaker l' :=
  fun connection h' => by rw [h] at h'; cases h'

theorem Link.Weaker.trans {l l' l'' : Link κ} (h : l.Weaker l') (h' : l'.Weaker l'') :
    l.Weaker l'' := by
  intro connection hconnection
  obtain ⟨hcb', connection', hconnection', hstatus'⟩ := h' connection hconnection
  obtain ⟨hcb, connection₀, hconnection₀, hstatus⟩ := h connection' hconnection'
  refine ⟨fun heq => hcb (hcb' heq), connection₀, hconnection₀, ?_⟩
  obtain hsame | hfinal := hstatus'
  · rw [hsame]
    exact hstatus
  · exact .inr hfinal

theorem Weaker.trans (h : Weaker s s') (h' : Weaker s' s'') : Weaker s s'' where
  ioService := h'.ioService.trans h.ioService
  socketIdAllocator := h'.socketIdAllocator.trans h.socketIdAllocator
  socketToTimerMap := h'.socketToTimerMap.trans h.socketToTimerMap
  timerToSocketMap := h'.timerToSocketMap.trans h.timerToSocketMap
  link := fun id => (h.link id).trans (h'.link id)
  sockets := fun id hid => h.sockets id (h'.sockets id hid)
  contexts := fun id hid => by
    obtain ⟨hcontext, hkeep'⟩ := h'.contexts id hid
    obtain ⟨hcontext₀, hkeep⟩ := h.contexts id hcontext
    exact ⟨hcontext₀, fun hsocket => hkeep' (hkeep hsocket)⟩

/-- A change of one link, for a socket that stays or one that is closed. -/
theorem weaker_update {l : Link κ} (hio : s'.ioService = s.ioService)
    (hallocator : s'.socketIdAllocator = s.socketIdAllocator)
    (hto : s'.socketToTimerMap = s.socketToTimerMap)
    (hof : s'.timerToSocketMap = s.timerToSocketMap)
    (hlink : s'.link = Function.update s.link id l) (hl : (s.link id).Weaker l)
    (hsockets : ∀ id, (s'.sockets id).isSome → (s.sockets id).isSome)
    (hcontexts : ∀ id, (s'.contexts id).isSome →
      (s.contexts id).isSome ∧ ((s.sockets id).isSome → (s'.sockets id).isSome)) :
    Weaker s s' where
  ioService := hio
  socketIdAllocator := hallocator
  socketToTimerMap := hto
  timerToSocketMap := hof
  link := by
    rw [hlink]
    exact (Function.forall_update_iff s.link fun i l => (s.link i).Weaker l).2
      ⟨hl, fun i _ => .refl _⟩
  sockets := hsockets
  contexts := hcontexts

theorem Weaker.refl (s : TcpService κ) : Weaker s s :=
  ⟨rfl, rfl, rfl, rfl, fun _ => .refl _, fun _ h => h, fun _ h => ⟨h, fun h => h⟩⟩

theorem Weaker.setConnection {connection connection' : TcpConnection κ}
    (h : s.connections id = some connection)
    (hstatus : connection'.status = connection.status ∨ connection'.status.Final) :
    Weaker s (s.setConnection id connection') := by
  refine weaker_update rfl rfl rfl rfl (link_setConnection s id connection') ?_ (fun _ h => h)
    fun _ h => ⟨h, fun h => h⟩
  rintro _ ⟨⟩
  exact ⟨fun h => h, connection, h, hstatus⟩

theorem Weaker.setSocket {socket socket' : TcpSocket} (h : s.sockets id = some socket)
    (hcb : socket'.writeCb = .onAsyncConnectSocketWrite →
      socket.writeCb = .onAsyncConnectSocketWrite) : Weaker s (s.setSocket id socket') := by
  have hkeys : ∀ i, ((s.setSocket id socket').sockets i).isSome = (s.sockets i).isSome := by
    rw [setSocket_sockets]
    exact (Function.forall_update_iff s.sockets fun i o => o.isSome = (s.sockets i).isSome).2
      ⟨by rw [h]; rfl, fun _ _ => rfl⟩
  refine weaker_update rfl rfl rfl rfl (link_setSocket s id socket') ?_ (fun i hi => ?_)
    fun i hi => ⟨hi, fun hsocket => ?_⟩
  · intro connection hconnection
    refine ⟨fun heq => ?_, connection, hconnection, .inl rfl⟩
    rw [link_of_socket h]
    exact hcb heq
  · rwa [← hkeys i]
  · rwa [hkeys i]

theorem Weaker.setBoth {connection connection' : TcpConnection κ} {socket socket' : TcpSocket}
    (h : s.connections id = some connection)
    (hstatus : connection'.status = connection.status ∨ connection'.status.Final)
    (hsocket : s.sockets id = some socket)
    (hcb : socket'.writeCb = .onAsyncConnectSocketWrite →
      socket.writeCb = .onAsyncConnectSocketWrite) :
    Weaker s ((s.setConnection id connection').setSocket id socket') :=
  (Weaker.setConnection h hstatus).trans (.setSocket hsocket hcb)

theorem Weaker.closeSocket (s : TcpService κ) (id : SocketId) : Weaker s (s.closeSocket id) := by
  have hsome : ∀ {α : Type} (f : SocketId → Option α) (i : SocketId),
      (Function.update f id none i).isSome → i ≠ id ∧ (f i).isSome := by
    intro α f i hi
    by_cases heq : i = id
    · rw [heq, Function.update_self] at hi
      cases hi
    · rw [Function.update_of_ne heq] at hi
      exact ⟨heq, hi⟩
  refine weaker_update rfl rfl rfl rfl (link_closeSocket s id) (.of_none rfl)
    (fun i hi => (hsome s.sockets i hi).2) fun i hi => ?_
  obtain ⟨hne, hcontext⟩ := hsome s.contexts i hi
  refine ⟨hcontext, fun hsocket => ?_⟩
  rw [closeSocket_sockets, Function.update_of_ne hne]
  exact hsocket

theorem Weaker.call (s : TcpService κ) (id : SocketId)
    (sendCompleteCb : SendCompleteCallback κ) : Weaker s (s.call id sendCompleteCb) := by
  cases sendCompleteCb with
  | null => exact .refl s
  | user cb => exact .refl s
  | close => exact .closeSocket s id

/-! ## Functions that change no timer -/

theorem final_setError (connection : TcpConnection κ) (errorCode : Int) :
    (connection.setError errorCode).status.Final :=
  ⟨Status.noConfusion, Status.noConfusion⟩

/-- **A call of `sendMessage`** fails and starts a timer, or changes no timer. -/
theorem sendOn_cases {connection : TcpConnection κ} {buffer : List UInt8}
    {sendCompleteCb : SendCompleteCallback κ} {kernel : SendResult}
    (hcon : s.connections id = some connection)
    (h : s.sendOn id connection buffer sendCompleteCb kernel = some s') :
    ((connection.sendMessage s.connWriteBufferMaxSize buffer sendCompleteCb kernel).2.isFailed =
        false ∧ Weaker s s') ∨
      ((connection.sendMessage s.connWriteBufferMaxSize buffer sendCompleteCb kernel).2.isFailed =
        true ∧ connection.status = .connected ∧ ∃ errno,
          s' = (s.setConnection id (connection.setError errno)).addSocketTimer id
            .onSendMessageError) := by
  obtain ⟨socket, hsocket, h⟩ := Option.bind_eq_some_iff.1 h
  dsimp only at h
  obtain ⟨_, hr⟩ | ⟨hstatus, errno, hr⟩ | ⟨_, _, _, hr⟩ | ⟨_, _, hr⟩ :=
    sendMessage_cases connection kernel s.connWriteBufferMaxSize buffer sendCompleteCb rfl
  · rw [hr] at h ⊢
    cases h
    exact .inl ⟨rfl, .setConnection hcon (.inl rfl)⟩
  · rw [hr] at h ⊢
    cases h
    exact .inr ⟨rfl, hstatus, errno, rfl⟩
  · rw [hr] at h ⊢
    cases h
    exact .inl ⟨rfl, .setBoth hcon (.inl rfl) hsocket WriteCallback.noConfusion⟩
  · rw [hr] at h ⊢
    cases h
    exact .inl ⟨rfl, (Weaker.setConnection hcon (.inl rfl)).trans (.call _ _ _)⟩

theorem onSocketWrite_weaker {socket : TcpSocket} (hsocket : s.sockets id = some socket)
    (kernel : SendResult) : Weaker s (s.onSocketWrite id socket kernel) := by
  unfold onSocketWrite
  cases hcon : s.connections id with
  | none => exact .refl s
  | some connection =>
    dsimp only
    obtain ⟨_, errno, hr⟩ | ⟨_, hr⟩ | ⟨n, _, _, hr⟩ | ⟨n, _, _, hr⟩ :=
      onSocketWrite_cases connection kernel rfl
    · rw [hr]
      exact .setConnection hcon (.inr (final_setError connection errno))
    · rw [hr]
      exact .setConnection hcon (.inl rfl)
    · rw [hr]
      exact .setConnection hcon (.inl rfl)
    · rw [hr]
      refine Weaker.trans ?_ (.call _ _ _)
      exact .setBoth hcon (.inl rfl) hsocket WriteCallback.noConfusion

theorem onSocketRead_weaker (s : TcpService κ) (id : SocketId) (readEnd : ReadEnd) :
    Weaker s (s.onSocketRead id readEnd) := by
  unfold onSocketRead
  cases hcon : s.connections id with
  | none => exact .refl s
  | some connection =>
    cases readEnd with
    | drained => exact .refl s
    | peerClose => exact .setConnection hcon (.inr ⟨Status.noConfusion, Status.noConfusion⟩)
    | failed errno => exact .setConnection hcon (.inr (final_setError connection errno))

theorem onSocketError_weaker (s : TcpService κ) (id : SocketId) (socketError errno : Int) :
    Weaker s (s.onSocketError id socketError errno) := by
  unfold onSocketError
  cases hcon : s.connections id with
  | none => exact .refl s
  | some connection => exact .setConnection hcon (.inr (final_setError connection _))

end Weaker

/-! ## Timers -/

section Timers

variable {s : TcpService κ} {awaiting : SocketId → Bool} {created timed failed : Finset SocketId}
  {id : SocketId}

/-- The next timer id is new: a socket has had at most two timers. -/
theorem Tables.timerId (h : Tables s awaiting created timed failed) :
    TimerIdAllocator.getId s.ioService.timerIdAllocator = s.ioService.timerIdAllocator + 1 := by
  have htimed := Finset.card_le_card h.timed_subset
  have hfailed := Finset.card_le_card h.failed_subset
  have hcreated := h.created_card
  have hlt := h.allocator_lt
  have htimers := h.timers_card
  unfold TimerIdAllocator.getId
  rw [toInt64_eq (by omega) (by omega), if_neg (by omega)]

theorem Tables.timer_free (h : Tables s awaiting created timed failed) :
    s.ioService.timers (s.ioService.timerIdAllocator + 1) = none ∧
      s.timerToSocketMap (s.ioService.timerIdAllocator + 1) = none := by
  have hnone : s.ioService.timers (s.ioService.timerIdAllocator + 1) = none := by
    by_contra hsome
    have hle := h.timers_le _ (Option.isSome_iff_ne_none.2 hsome)
    exact Int.not_le.2 (Int.lt_succ _) hle
  refine ⟨hnone, h.inverse.right_none fun id hid => ?_⟩
  obtain ⟨_, timerCb, htimer, _⟩ := h.pending id _ hid
  rw [hnone] at htimer
  cases htimer

/-- What `addSocketTimer` does when the timer id is new. -/
theorem Tables.addSocketTimer_eq (h : Tables s awaiting created timed failed)
    (timerCb : TimerCallback) :
    s.addSocketTimer id timerCb = { s with
      ioService := ⟨s.ioService.timerIdAllocator + 1, Function.update s.ioService.timers
        (s.ioService.timerIdAllocator + 1) (some timerCb)⟩
      socketToTimerMap := Function.update s.socketToTimerMap id
        (some (s.ioService.timerIdAllocator + 1))
      timerToSocketMap := Function.update s.timerToSocketMap
        (s.ioService.timerIdAllocator + 1) (some id) } := by
  unfold addSocketTimer IOService.startTimer
  dsimp only
  rw [h.timerId, h.timer_free.1]
  rfl

/-- A timer for a socket that has none. -/
theorem Tables.addTimer (h : Tables s awaiting created timed failed) {timerCb : TimerCallback}
    {awaiting' : SocketId → Bool} {timed' failed' : Finset SocketId} (hid : id ∈ created)
    (hnone : s.socketToTimerMap id = none)
    (hstatus : ∀ connection writeCb, s.link id = ⟨some connection, writeCb⟩ →
      connection.status ≠ .connected)
    (htimed : timed' ⊆ created) (hfailed : failed' ⊆ created)
    (hcard : timed'.card + failed'.card = timed.card + failed.card + 1) (hsub : failed ⊆ failed')
    (hcb : timerCb = .onSendMessageError → id ∈ failed')
    (hspent : ∀ i ∈ failed', i ∉ failed → ∀ connection writeCb,
      s.link i = ⟨some connection, writeCb⟩ → connection.status ≠ .connected ∧
        connection.status ≠ .connecting ∧ writeCb ≠ .onAsyncConnectSocketWrite)
    (hawaiting : ∀ i, awaiting' i = true →
      awaiting i = true ∨ (i = id ∧ timerCb = .onSendMessageError)) :
    Tables (s.addSocketTimer id timerCb) awaiting' created timed' failed' := by
  obtain ⟨htimer, hsocket⟩ := h.timer_free
  rw [h.addSocketTimer_eq timerCb]
  generalize hnew : s.ioService.timerIdAllocator + 1 = new at htimer hsocket ⊢
  have hpending : ∀ i t, i ≠ id → s.socketToTimerMap i = some t → t ≠ new := by
    rintro i t _ hi rfl
    obtain ⟨_, cb, hcb, _⟩ := h.pending i t hi
    rw [htimer] at hcb
    cases hcb
  refine { h with
    timed_subset := htimed
    failed_subset := hfailed
    timers_card := ?_
    timers_le := fun t ht => ?_
    inverse := h.inverse.insert hnone hsocket
    pending := fun i t hi => ?_
    connected := fun i connection writeCb hlink hconnected => ?_
    spent := fun i hi => ?_
    reported := fun i hi hopen => ?_ }
  · have hold := h.timers_card
    change new = _
    omega
  · change t ≤ new
    change (Function.update s.ioService.timers new (some timerCb) t).isSome at ht
    by_cases heq : t = new
    · exact heq.le
    · rw [Function.update_of_ne heq] at ht
      have hle := h.timers_le t ht
      exact hle.trans (hnew ▸ (Int.lt_succ _).le)
  · change Function.update s.socketToTimerMap id (some new) i = some t at hi
    change i ∈ created ∧ ∃ cb, Function.update s.ioService.timers new (some timerCb) t = some cb ∧
      (cb = .onSendMessageError → i ∈ failed')
    by_cases heq : i = id
    · rw [heq, Function.update_self] at hi
      cases hi
      exact ⟨heq ▸ hid, timerCb, Function.update_self .., heq ▸ hcb⟩
    · rw [Function.update_of_ne heq] at hi
      obtain ⟨hcreated, cb, hcb', hfailed'⟩ := h.pending i t hi
      rw [Function.update_of_ne (hpending i t heq hi)]
      exact ⟨hcreated, cb, hcb', fun herror => hsub (hfailed' herror)⟩
  · change s.link i = _ at hlink
    by_cases heq : i = id
    · exact absurd hconnected (hstatus connection writeCb (heq ▸ hlink))
    · obtain ⟨hne, hold⟩ := h.connected i connection writeCb hlink hconnected
      exact ⟨hne, (Function.update_of_ne heq _ _).trans hold⟩
  · by_cases hold : i ∈ failed
    · exact h.spent i hold
    · exact hspent i hi hold
  · change ∃ t, Function.update s.socketToTimerMap id (some new) i = some t ∧
      Function.update s.ioService.timers new (some timerCb) t = some .onSendMessageError
    by_cases heq : i = id
    · subst heq
      rw [Function.update_self]
      refine ⟨new, rfl, ?_⟩
      rw [Function.update_self]
      obtain hold | ⟨_, herror⟩ := hawaiting i hi
      · obtain ⟨t, ht, _⟩ := h.reported i hold hopen
        rw [hnone] at ht
        cases ht
      · rw [herror]
    · obtain ⟨t, ht, herror⟩ := h.reported i
        ((hawaiting i hi).resolve_right fun hnew => heq hnew.1) hopen
      rw [Function.update_of_ne heq]
      exact ⟨t, ht, (Function.update_of_ne (hpending i t heq ht) _ _).trans herror⟩

/-- What is still started once `t` is stopped was started before. -/
theorem stopTimer_isSome {io : IOService} {t u : TimerId}
    (hu : ((io.stopTimer t).timers u).isSome) : (io.timers u).isSome := by
  change (Function.update io.timers t none u).isSome at hu
  by_cases heq : u = t
  · rw [heq, Function.update_self] at hu
    cases hu
  · rwa [Function.update_of_ne heq] at hu

/-- The timer of a socket is gone, from the maps and from the `IOService`. -/
theorem Tables.eraseTimer (h : Tables s awaiting created timed failed) {t : TimerId}
    {awaiting' : SocketId → Bool} (ht : s.socketToTimerMap id = some t)
    (hawaiting : ∀ i, awaiting' i = true →
      awaiting i = true ∧ (i = id → s.connections id = none)) :
    Tables { s with
      ioService := s.ioService.stopTimer t
      socketToTimerMap := Function.update s.socketToTimerMap id none
      timerToSocketMap := Function.update s.timerToSocketMap t none } awaiting' created timed
      failed := by
  have hother : ∀ i u, Function.update s.socketToTimerMap id none i = some u →
      i ≠ id ∧ s.socketToTimerMap i = some u ∧
        (s.ioService.stopTimer t).timers u = s.ioService.timers u := by
    intro i u hi
    have hne : i ≠ id := by
      rintro rfl
      rw [Function.update_self] at hi
      cases hi
    rw [Function.update_of_ne hne] at hi
    refine ⟨hne, hi, Function.update_of_ne ?_ _ _⟩
    rintro rfl
    exact hne (Option.some.inj (((h.inverse i u).1 hi).symm.trans ((h.inverse id u).1 ht)))
  refine { h with
    timers_le := fun u hu => ?_
    inverse := h.inverse.erase ht
    pending := fun i u hi => ?_
    connected := fun i connection writeCb hlink hconnected => ?_
    reported := fun i hi hopen => ?_ }
  · exact h.timers_le u (stopTimer_isSome hu)
  · obtain ⟨_, hi, htimers⟩ := hother i u hi
    change i ∈ created ∧ ∃ cb, (s.ioService.stopTimer t).timers u = some cb ∧ _
    rw [htimers]
    exact h.pending i u hi
  · obtain ⟨hne, hold⟩ := h.connected i connection writeCb hlink hconnected
    refine ⟨hne, ?_⟩
    change Function.update s.socketToTimerMap id none i = none
    by_cases heq : i = id
    · rw [heq, Function.update_self]
    · rw [Function.update_of_ne heq]
      exact hold
  · obtain ⟨hold, hclosed⟩ := hawaiting i hi
    have hne : i ≠ id := by
      rintro rfl
      change (s.connections i).isSome at hopen
      rw [hclosed rfl] at hopen
      cases hopen
    obtain ⟨u, hu, herror⟩ := h.reported i hold hopen
    have hu' : Function.update s.socketToTimerMap id none i = some u := by
      rw [Function.update_of_ne hne]
      exact hu
    exact ⟨u, hu', (hother i u hu').2.2.trans herror⟩

/-- A timer that is not in the maps. -/
theorem Tables.stopTimer (h : Tables s awaiting created timed failed) {t : TimerId}
    (ht : s.timerToSocketMap t = none) :
    Tables { s with ioService := s.ioService.stopTimer t } awaiting created timed failed := by
  have hother : ∀ i u, s.socketToTimerMap i = some u →
      (s.ioService.stopTimer t).timers u = s.ioService.timers u := by
    intro i u hi
    refine Function.update_of_ne ?_ _ _
    rintro rfl
    have hu := (h.inverse i u).1 hi
    rw [ht] at hu
    cases hu
  refine { h with
    timers_le := fun u hu => ?_
    pending := fun i u hi => ?_
    reported := fun i hi hopen => ?_ }
  · exact h.timers_le u (stopTimer_isSome hu)
  · change i ∈ created ∧ ∃ cb, (s.ioService.stopTimer t).timers u = some cb ∧ _
    rw [hother i u hi]
    exact h.pending i u hi
  · obtain ⟨u, hu, herror⟩ := h.reported i hi hopen
    exact ⟨u, hu, (hother i u hu).trans herror⟩

theorem Tables.awaiting_mono (h : Tables s awaiting created timed failed)
    {awaiting' : SocketId → Bool} (hle : ∀ i, awaiting' i = true → awaiting i = true) :
    Tables s awaiting' created timed failed :=
  { h with reported := fun i hi hopen => h.reported i (hle i hi) hopen }

/-- A socket whose `sendMessage` error is still to be reported has been connected. -/
theorem Tables.awaiting_failed (h : Tables s awaiting created timed failed)
    (hid : awaiting id = true) (hopen : (s.connections id).isSome) : id ∈ failed := by
  obtain ⟨t, ht, herror⟩ := h.reported id hid hopen
  obtain ⟨_, timerCb, hcb, hfailed⟩ := h.pending id t ht
  rw [herror] at hcb
  exact hfailed (Option.some.inj hcb).symm

end Timers

/-! ## New sockets -/

section Sockets

variable {s : TcpService κ} {awaiting : SocketId → Bool} {created timed failed : Finset SocketId}
  {id : SocketId}

/-- What the tables say about an id that no socket has had. -/
structure Unused (s : TcpService κ) (id : SocketId) : Prop where
  socket : s.sockets id = none
  connection : s.connections id = none
  timer : s.socketToTimerMap id = none

theorem Tables.unused (h : Tables s awaiting created timed failed) (hid : id ∉ created) :
    Unused s id where
  socket := Option.not_isSome_iff_eq_none.1 fun hsocket => hid (h.sockets id hsocket)
  connection := Option.not_isSome_iff_eq_none.1 fun hcon =>
    hid (h.sockets id (h.coherent id hcon))
  timer := by
    cases ht : s.socketToTimerMap id with
    | none => rfl
    | some t => exact absurd (h.pending id t ht).1 hid

/-- The ids of sockets grow. -/
theorem Tables.getId (h : Tables s awaiting created timed failed) {fd : Int} (hfd : 0 ≤ fd)
    (hfd' : fd < 2 ^ 31) (hnext : s.socketIdAllocator + 1 < 2 ^ 31) :
    SocketIdAllocator.next s.socketIdAllocator = s.socketIdAllocator + 1 ∧
      SocketIdAllocator.getId s.socketIdAllocator fd =
        (s.socketIdAllocator + 1) * 2 ^ 32 + fd := by
  have hpos : 0 ≤ s.socketIdAllocator := by
    rw [h.created_card]
    exact Int.natCast_nonneg _
  have hnext' : SocketIdAllocator.next s.socketIdAllocator = s.socketIdAllocator + 1 := by
    unfold SocketIdAllocator.next
    rw [toInt_eq (by omega) (by omega), if_neg (by omega)]
  refine ⟨hnext', ?_⟩
  rw [SocketIdAllocator.getId, hnext', toInt64_eq (by omega) (by omega)]

/-- **A new socket gets a new id.** -/
theorem Tables.create (h : Tables s awaiting created timed failed) {fd : Int} (hfd : 0 ≤ fd)
    (hfd' : fd < 2 ^ 31) (hnext : s.socketIdAllocator + 1 < 2 ^ 31)
    (hid : SocketIdAllocator.getId s.socketIdAllocator fd = id) :
    id ∉ created ∧ s.newSocketId fd = some id ∧
      Tables s.countSocket awaiting (insert id created) timed failed := by
  obtain ⟨hnext', hvalue⟩ := h.getId hfd hfd' hnext
  rw [hid] at hvalue
  have hnew : id ∉ created := by
    intro hmem
    have hlt : (s.socketIdAllocator + 1) * 2 ^ 32 + fd < (s.socketIdAllocator + 1) * 2 ^ 32 :=
      hvalue ▸ h.created_lt id hmem
    omega
  have hbound : (s.socketIdAllocator + 1) * 2 ^ 32 + fd <
      (s.socketIdAllocator + 1 + 1) * 2 ^ 32 := by omega
  have hunused := h.unused hnew
  refine ⟨hnew, ?_, { h with
    sockets := fun i hi => Finset.mem_insert_of_mem (h.sockets i hi)
    created_card := ?_
    created_lt := fun i hi => ?_
    allocator_lt := ?_
    timed_subset := h.timed_subset.trans (Finset.subset_insert _ _)
    failed_subset := h.failed_subset.trans (Finset.subset_insert _ _)
    pending := fun i t hi => ?_ }⟩
  · unfold newSocketId
    dsimp only
    rw [hid, hunused.socket, hunused.connection, if_neg (by rintro (h | h) <;> cases h)]
  · change SocketIdAllocator.next s.socketIdAllocator = _
    rw [hnext', Finset.card_insert_of_notMem hnew, h.created_card]
    rfl
  · change i < (SocketIdAllocator.next s.socketIdAllocator + 1) * 2 ^ 32
    rw [hnext']
    obtain rfl | hi := Finset.mem_insert.1 hi
    · rw [hvalue]
      exact hbound
    · exact (h.created_lt i hi).trans_le ((Int.le_add_of_nonneg_right hfd).trans hbound.le)
  · change SocketIdAllocator.next s.socketIdAllocator < 2 ^ 31
    rw [hnext']
    exact hnext
  · obtain ⟨hcreated, htimer⟩ := h.pending i t hi
    exact ⟨Finset.mem_insert_of_mem hcreated, htimer⟩

/-- A socket without a connection. -/
theorem Tables.addSocket (h : Tables s awaiting created timed failed) (hid : id ∈ created)
    (hcon : s.connections id = none) (socket : TcpSocket) :
    Tables (s.setSocket id socket) awaiting created timed failed := by
  have hlink : ∀ i connection writeCb, (s.setSocket id socket).link i = ⟨some connection, writeCb⟩ →
      s.link i = ⟨some connection, writeCb⟩ := by
    intro i connection writeCb hi
    rw [link_setSocket] at hi
    by_cases heq : i = id
    · subst heq
      rw [Function.update_self] at hi
      have hsome : s.connections i = some connection := congrArg Link.connection hi
      rw [hcon] at hsome
      cases hsome
    · rwa [Function.update_of_ne heq] at hi
  have hsockets : ∀ i, ((s.setSocket id socket).sockets i).isSome →
      i = id ∨ (s.sockets i).isSome := by
    intro i hi
    rw [setSocket_sockets] at hi
    by_cases heq : i = id
    · exact .inl heq
    · rw [Function.update_of_ne heq] at hi
      exact .inr hi
  refine { h with
    coherent := h.coherent.setSocket socket
    contexts := fun i hi => ?_
    sockets := fun i hi => ?_
    connected := fun i connection writeCb hi => h.connected i connection writeCb (hlink i _ _ hi)
    spent := fun i hmem connection writeCb hi =>
      h.spent i hmem connection writeCb (hlink i _ _ hi) }
  · rw [setSocket_sockets]
    by_cases heq : i = id
    · rw [heq, Function.update_self]
      rfl
    · rw [Function.update_of_ne heq]
      exact h.contexts i hi
  · obtain rfl | hold := hsockets i hi
    · exact hid
    · exact h.sockets i hold

/-- A connection on which no call of `sendMessage` has failed. -/
theorem Tables.addConnection (h : Tables s awaiting created timed failed)
    {connection : TcpConnection κ} {awaiting' : SocketId → Bool}
    (hsocket : (s.sockets id).isSome) (hid : id ∉ failed)
    (hconnected : connection.status = .connected →
      (s.link id).writeCb ≠ .onAsyncConnectSocketWrite ∧ s.socketToTimerMap id = none)
    (hawaiting : ∀ i, awaiting' i = true → awaiting i = true ∧ i ≠ id) :
    Tables (s.setConnection id connection) awaiting' created timed failed := by
  have hlink : ∀ i, i ≠ id → (s.setConnection id connection).link i = s.link i := fun i hne => by
    rw [link_setConnection, Function.update_of_ne hne]
  refine { h with
    coherent := h.coherent.setConnection hsocket connection
    connected := fun i connection' writeCb hi hstatus => ?_
    spent := fun i hmem connection' writeCb hi => ?_
    reported := fun i hi hopen => ?_ }
  · by_cases heq : i = id
    · subst heq
      rw [link_setConnection, Function.update_self] at hi
      cases hi
      exact hconnected hstatus
    · rw [hlink i heq] at hi
      exact h.connected i connection' writeCb hi hstatus
  · have hne : i ≠ id := by
      rintro rfl
      exact hid hmem
    rw [hlink i hne] at hi
    exact h.spent i hmem connection' writeCb hi
  · obtain ⟨hold, hne⟩ := hawaiting i hi
    rw [setConnection_connections, Function.update_of_ne hne] at hopen
    exact h.reported i hold hopen

end Sockets

end TcpService

end Brickred
