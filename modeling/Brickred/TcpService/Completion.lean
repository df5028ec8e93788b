import Brickred.TcpService.Callbacks

/-!
# When a callback is called

A `SendCompleteCallback` is called by `sendMessage`, when nothing of its own message is left, and
by `onSocketWrite`, when the write buffer is empty.  An empty message has nothing left at once,
also when earlier messages are still in the write buffer.

* `InTime` — when a callback is called, the kernel has every byte accepted so far, and nothing is
  left in the write buffer.
* `Timely` — the calls that keep it so.
* `callbacks_in_time` — runs of such calls.
-/

set_option autoImplicit false

namespace Brickred

namespace TcpService

open Runs

variable {κ : Type}

def InTime (history : List (Effect κ)) : Prop :=
  ∀ before sendCompleteCb unsent behind,
    history = before ++ .invoked sendCompleteCb unsent :: behind →
      unsent = [] ∧ acceptedBytes before <+: sentBytes before

/-- The message is copied as it should be, and if it is empty and others wait, it comes without a
callback. -/
def TcpConnection.TakesTurn (connection : TcpConnection κ) (buffer : List UInt8)
    (sendCompleteCb : SendCompleteCallback κ) (kernel : SendResult) : Prop :=
  (connection.Direct → RestCopied buffer kernel) ∧
    (¬ connection.Direct → buffer = [] → sendCompleteCb = .null)

instance [DecidableEq κ] (connection : TcpConnection κ) (buffer : List UInt8)
    (sendCompleteCb : SendCompleteCallback κ) (kernel : SendResult) :
    Decidable (connection.TakesTurn buffer sendCompleteCb kernel) :=
  inferInstanceAs (Decidable (_ ∧ _))

abbrev Channel.Timely : Channel κ → Channel.Op κ → Prop :=
  Channel.OnCall
    (fun connection _ buffer sendCompleteCb kernel =>
      connection.status = .connected → connection.TakesTurn buffer sendCompleteCb kernel)
    fun connection kernel => kernel.taken connection.writeBuffer.length < 2 ^ 31

/-! ## Histories -/

section Histories

variable {history effects : List (Effect κ)} {e : Effect κ}

theorem inTime_nil : InTime ([] : List (Effect κ)) := by
  intro before sendCompleteCb unsent behind heq
  cases before <;> cases heq

theorem InTime.concat (h : InTime history)
    (he : ∀ sendCompleteCb unsent, e = .invoked sendCompleteCb unsent →
      unsent = [] ∧ acceptedBytes history <+: sentBytes history) : InTime (history ++ [e]) := by
  intro before sendCompleteCb unsent behind heq
  rcases List.eq_nil_or_concat behind with rfl | ⟨behind', last, rfl⟩
  · obtain ⟨hbefore, hlast⟩ := List.append_inj' heq rfl
    rw [← hbefore]
    exact he sendCompleteCb unsent (List.singleton_inj.1 hlast)
  · have heq' : history ++ [e] =
        (before ++ .invoked sendCompleteCb unsent :: behind') ++ [last] := by simpa using heq
    exact h before sendCompleteCb unsent behind' (List.append_inj' heq' rfl).1

/-- Effects without a call of a callback. -/
theorem InTime.append : ∀ {effects history : List (Effect κ)}, InTime history →
    invokedCallbacks effects = [] → InTime (history ++ effects)
  | [], history, h, _ => by rw [List.append_nil]; exact h
  | e :: effects, history, h, hquiet => by
    rw [invokedCallbacks_cons, List.append_eq_nil_iff] at hquiet
    have hconcat : InTime (history ++ [e]) := h.concat fun sendCompleteCb unsent he => by
      rw [he] at hquiet
      cases hquiet.1
    have := hconcat.append hquiet.2
    rwa [List.append_assoc, List.singleton_append] at this

/-- A callback that is called with nothing unsent. -/
theorem InTime.invocation (h : InTime history) {sendCompleteCb : SendCompleteCallback κ}
    {unsent : List UInt8} (hcb : sendCompleteCb ≠ .null →
      unsent = [] ∧ acceptedBytes history <+: sentBytes history) :
    InTime (history ++ sendCompleteCb.invocation unsent) := by
  cases sendCompleteCb with
  | null => rw [SendCompleteCallback.invocation, List.append_nil]; exact h
  | user cb => exact h.concat fun _ _ he => by cases he; exact hcb (fun hs => by cases hs)
  | close => exact h.concat fun _ _ he => by cases he; exact hcb (fun hs => by cases hs)

end Histories

/-! ## Along a run -/

/-- What a channel keeps when all its calls are timely.  A connection that has failed may have
sent bytes of a message that was not accepted. -/
structure Channel.Accounted (ch : Channel κ) : Prop where
  connecting : ch.Connecting
  slotted : ch.Slotted
  inTime : InTime ch.history
  law : ∀ connection, ch.link.connection = some connection →
    connection.status = .connected ∨ connection.writeBuffer ≠ [] → Law connection ch.history

theorem prefix_of_law {connection : TcpConnection κ} {history : List (Effect κ)}
    (h : Law connection history) (hempty : connection.writeBuffer = []) :
    acceptedBytes history <+: sentBytes history := by
  unfold Law at h
  rw [hempty, List.append_nil] at h
  exact h ▸ List.prefix_refl _

section Accounted

variable {connection k : TcpConnection κ} {writeCb : WriteCallback} {history : List (Effect κ)}
  {kernel : SendResult}

theorem send_accounted {maxSize : Nat} {buffer : List UInt8}
    {sendCompleteCb : SendCompleteCallback κ}
    (h : Channel.Accounted ⟨⟨some connection, writeCb⟩, history⟩)
    (htimely : Channel.Timely ⟨⟨some connection, writeCb⟩, history⟩
      (.send maxSize buffer sendCompleteCb kernel)) :
    (Channel.step ⟨⟨some connection, writeCb⟩, history⟩
      (.send maxSize buffer sendCompleteCb kernel)).Accounted := by
  refine ⟨connecting_step _ _ h.connecting, slotted_step _ _ h.slotted, ?_, ?_⟩
  all_goals rcases send_cases connection history kernel writeCb maxSize buffer sendCompleteCb rfl
    with ⟨hs, hch⟩ | ⟨hs, errno, hch⟩ | ⟨hs, hremain, hfits, hch⟩ | ⟨hs, hremain, hch⟩ <;> rw [hch]
  · exact h.inTime.append rfl
  · exact h.inTime.append rfl
  · exact h.inTime.append rfl
  · have hlaw := law_complete (h.law connection rfl (Or.inl hs)) hremain sendCompleteCb
    rw [← List.append_assoc]
    refine (h.inTime.append rfl).invocation fun hcb => ?_
    have hempty : connection.writeBuffer = [] := by
      by_contra hqueue
      have hmessage := remainSize_queue buffer kernel hqueue
      rw [hremain] at hmessage
      exact hcb ((htimely hs).2 hqueue (List.eq_nil_of_length_eq_zero hmessage.symm))
    exact ⟨hempty, prefix_of_law hlaw hempty⟩
  · intro k hk hor
    cases hk
    exact (law_append (h.law connection rfl hor)).2 (by simp)
  · intro k hk hor
    cases hk
    have hqueue : ¬ connection.Direct := hor.resolve_left (fun hs => by cases hs)
    refine (law_append (h.law connection rfl (Or.inl hs))).2 ?_
    simp [TcpConnection.sentDirectly, hqueue, TcpConnection.setError]
  · intro k hk _
    cases hk
    exact (law_queued (h.law connection rfl (Or.inl hs)) rfl sendCompleteCb).2 (htimely hs).1
  · intro k hk _
    obtain rfl := called_eq hk
    exact law_invocation.2 (law_complete (h.law connection rfl (Or.inl hs)) hremain sendCompleteCb)

theorem write_accounted {socketError : Int}
    (h : Channel.Accounted ⟨⟨some connection, .onSocketWrite⟩, history⟩)
    (hsmall : kernel.taken connection.writeBuffer.length < 2 ^ 31) :
    (Channel.step ⟨⟨some connection, .onSocketWrite⟩, history⟩
      (.writable kernel socketError)).Accounted := by
  refine ⟨connecting_step _ _ h.connecting, slotted_step _ _ h.slotted, ?_, ?_⟩
  all_goals rcases write_cases connection history kernel socketError rfl
    with ⟨hneg, errno, hch⟩ | ⟨hneg, hch⟩ | ⟨n, hn, hrest, hch⟩ | ⟨n, hn, hrest, hch⟩ <;> rw [hch]
  · exact h.inTime.append rfl
  · exact h.inTime.append rfl
  · exact h.inTime.append rfl
  · rw [← List.append_assoc]
    refine (h.inTime.append rfl).invocation fun hcb => ⟨rfl, ?_⟩
    have hqueue := h.slotted connection rfl hcb
    have hlaw := (law_written { connection with writeBuffer := [] }
      (h.law connection rfl (Or.inr hqueue)) hn hrest.symm).2 hsmall
    exact prefix_of_law hlaw rfl
  · intro k hk hor
    cases hk
    have hlaw := h.law connection rfl (Or.inr (hor.resolve_left (fun hs => by cases hs)))
    have hnone := (sentBuffered_eq_nil_iff hneg).2 hsmall
    refine (law_append hlaw).2 ?_
    simp [hnone, TcpConnection.setError]
  · intro k hk hor
    cases hk
    exact (law_unwritten (h.law connection rfl hor) hneg rfl).2 hsmall
  · intro k hk _
    cases hk
    have hqueue : connection.writeBuffer ≠ [] := fun hempty => hrest (by rw [hempty, List.drop_nil])
    exact (law_written _ (h.law connection rfl (Or.inr hqueue)) hn rfl).2 hsmall
  · intro k hk hor
    obtain rfl := called_eq hk
    have hs := hor.resolve_right fun hne => hne rfl
    exact law_invocation.2
      ((law_written _ (h.law connection rfl (Or.inl hs)) hn hrest.symm).2 hsmall)

/-- A connection nothing has happened on. -/
theorem accounted_new {status : Status}
    (h : writeCb = .onAsyncConnectSocketWrite → status ≠ .connected) :
    Channel.Accounted ⟨⟨some (.new status : TcpConnection κ), writeCb⟩, []⟩ :=
  ⟨fun _ hk => by cases hk; exact ⟨h rfl, rfl⟩, slotted_new _ _, inTime_nil,
    fun _ hk _ => by cases hk; rfl⟩

theorem accounted_none (h : InTime history) : Channel.Accounted ⟨⟨none, writeCb⟩, history⟩ :=
  ⟨fun _ hk => (by cases hk), fun _ hk => (by cases hk), h, fun _ hk => (by cases hk)⟩

/-- A step that only changes the status, to one that is not connected. -/
theorem Channel.Accounted.edit (h : Channel.Accounted ⟨⟨some connection, writeCb⟩, history⟩)
    (hstatus : k.status ≠ .connected) (hbuffer : k.writeBuffer = connection.writeBuffer)
    (hcb : k.sendCompleteCb = connection.sendCompleteCb) :
    Channel.Accounted ⟨⟨some k, writeCb⟩, history⟩ := by
  refine ⟨fun _ hk => ?_, h.slotted.edit hbuffer hcb, h.inTime, fun _ hk hor => ?_⟩
  · cases hk
    refine ⟨hstatus, ?_⟩
    unfold Law
    rw [hbuffer]
    exact (h.connecting _ rfl).2
  · cases hk
    have hqueue := hor.resolve_left hstatus
    rw [hbuffer] at hqueue
    unfold Law
    rw [hbuffer]
    exact h.law connection rfl (Or.inr hqueue)

end Accounted

theorem accounted_step (ch : Channel κ) (op : Channel.Op κ) (h : ch.Accounted)
    (htimely : ch.Timely op) : (ch.step op).Accounted := by
  obtain ⟨⟨_ | connection, writeCb⟩, history⟩ := ch
  · cases op with
    | connected => exact accounted_new (fun hs => by cases hs)
    | connecting => exact accounted_new fun _ hs => (by cases hs)
    | _ => exact accounted_none h.inTime
  cases op with
  | idle => exact h
  | connected => exact accounted_new (fun hs => by cases hs)
  | connecting => exact accounted_new fun _ hs => (by cases hs)
  | close => exact accounted_none h.inTime
  | send maxSize buffer sendCompleteCb kernel => exact send_accounted h htimely
  | writable kernel socketError =>
    cases writeCb with
    | null => exact h
    | onAsyncConnectSocketWrite =>
      simp only [Channel.step, Channel.afterConnect]
      split
      · exact h.edit (fun hs => by cases hs) rfl rfl
      · refine ⟨fun _ hk => (by cases hk), h.slotted.edit rfl rfl, h.inTime, fun _ hk _ => ?_⟩
        cases hk
        exact (h.connecting _ rfl).2
    | onSocketWrite => exact write_accounted h htimely
  | peerClose => exact h.edit (fun hs => by cases hs) rfl rfl
  | setError errorCode => exact h.edit (fun hs => by cases hs) rfl rfl

/-- **When no callback is called early.** -/
theorem callbacks_in_time (c : SocketId) (ops : List (Op κ))
    (hE : EachStep Machine.step Machine.Enabled Machine.init ops)
    (htimely : EachStep Machine.step (fun m op => (m.view c).Timely (m.project c op))
      Machine.init ops) :
    Along Machine.step (fun m => InTime (m.history c)) Machine.init ops :=
  along_channel (P := fun ch => InTime ch.history) (accounted_none inTime_nil) accounted_step
    (fun _ h => h.inTime) hE htimely

theorem waitingOps_in_time :
    Along Machine.step (fun m => InTime (m.history firstId)) Machine.init waitingOps :=
  callbacks_in_time firstId waitingOps waitingOps_enabled (by decide)

/-- **An empty last message** closes a connection with bytes in its write buffer. -/
theorem empty_message_closes_early :
    ¬ ∀ ops : List (Op Nat), EachStep Machine.step Machine.Enabled Machine.init ops →
      Along Machine.step (fun m => InTime (m.history firstId)) Machine.init ops := by
  intro h
  have hops := h [.buildConnectedSocket 3, .sendMessage firstId [97] .null (.fails EAGAIN),
    .sendMessage firstId [] .close (.accepts 0 0)] (by
      refine ⟨trivial, ?_⟩
      rintro _ ⟨⟩
      refine ⟨trivial, ?_⟩
      rintro _ ⟨⟩
      exact ⟨trivial, fun _ _ => trivial⟩)
  have htime := ((hops.2 _ rfl).2 _ rfl).2 _ rfl
  have hunsent := (htime [.sent [], .accepted [97] .null, .sent [], .accepted [] .close] .close [97]
    [] rfl).1
  cases hunsent

end TcpService

end Brickred
