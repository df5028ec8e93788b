import Mathlib.Data.List.Perm.Basic
import Brickred.TcpService.Stream

/-!
# The callback slot

A connection has one slot for a `SendCompleteCallback`.  `sendMessage` writes it whenever it
leaves bytes in the write buffer, with its own callback, empty or not; `onSocketWrite` calls and
empties it when the write buffer is empty.

* `Slotted` — a callback only waits while bytes do.
* `Completed` — on a drained connection every callback passed to an accepted call has been called
  once, and no close is outstanding.
* `SlotFree` — the calls that do not overwrite a waiting callback.
* `callbacks_completed` — runs of such calls.
-/

set_option autoImplicit false

namespace Brickred

namespace TcpService

open Runs

variable {κ : Type}

/-- A callback in the slot waits for bytes in the write buffer. -/
def Channel.Slotted (ch : Channel κ) : Prop :=
  ∀ connection, ch.link.connection = some connection → connection.sendCompleteCb ≠ .null →
    connection.writeBuffer ≠ []

theorem Channel.Slotted.edit {connection k : TcpConnection κ} {writeCb writeCb' : WriteCallback}
    {history history' : List (Effect κ)}
    (h : Channel.Slotted ⟨⟨some connection, writeCb⟩, history⟩)
    (hbuffer : k.writeBuffer = connection.writeBuffer)
    (hcb : k.sendCompleteCb = connection.sendCompleteCb) :
    Channel.Slotted ⟨⟨some k, writeCb'⟩, history'⟩ := by
  intro _ hk hwait
  cases hk
  rw [hcb] at hwait
  rw [hbuffer]
  exact h connection rfl hwait

theorem slotted_new (status : Status) (writeCb : WriteCallback) :
    Channel.Slotted ⟨⟨some (.new status : TcpConnection κ), writeCb⟩, []⟩ :=
  fun _ hk hwait => by cases hk; exact absurd rfl hwait

/-- Some bytes of the message are buffered. -/
theorem take_remainSize_ne_nil {connection : TcpConnection κ} {buffer : List UInt8}
    {kernel : SendResult} (h : 0 < connection.remainSize buffer kernel) :
    buffer.take (connection.remainSize buffer kernel) ≠ [] := by
  have hle := @remainSize_le κ kernel connection buffer
  intro hnil
  have hlen := congrArg List.length hnil
  rw [List.length_take, List.length_nil] at hlen
  omega

theorem slotted_step (ch : Channel κ) (op : Channel.Op κ) (h : ch.Slotted) :
    (ch.step op).Slotted := by
  obtain ⟨⟨_ | connection, writeCb⟩, history⟩ := ch
  · cases op with
    | connected => exact slotted_new _ _
    | connecting => exact slotted_new _ _
    | _ => exact fun _ hk => by cases hk
  cases op with
  | idle => exact h
  | connected => exact slotted_new _ _
  | connecting => exact slotted_new _ _
  | close => exact fun _ hk => by cases hk
  | send maxSize buffer sendCompleteCb kernel =>
    rcases send_cases connection history kernel writeCb maxSize buffer sendCompleteCb rfl with
      ⟨hs, hch⟩ | ⟨hs, errno, hch⟩ | ⟨hs, hremain, hfits, hch⟩ | ⟨hs, hremain, hch⟩ <;> rw [hch]
    · exact h.edit rfl rfl
    · exact h.edit rfl rfl
    · intro k hk _
      cases hk
      exact fun hnil => take_remainSize_ne_nil hremain (List.append_eq_nil_iff.1 hnil).2
    · intro k hk hwait
      obtain rfl := called_eq hk
      exact h connection rfl hwait
  | writable kernel socketError =>
    cases writeCb with
    | null => exact h
    | onAsyncConnectSocketWrite =>
      simp only [Channel.step, Channel.afterConnect]
      split <;> exact h.edit rfl rfl
    | onSocketWrite =>
      rcases write_cases connection history kernel socketError rfl with
        ⟨_, errno, hch⟩ | ⟨hneg, hch⟩ | ⟨n, hn, hrest, hch⟩ | ⟨n, hn, hrest, hch⟩ <;> rw [hch]
      · exact h.edit rfl rfl
      · exact h.edit rfl rfl
      · intro k hk _
        cases hk
        exact hrest
      · intro k hk hwait
        obtain rfl := called_eq hk
        exact absurd rfl hwait
  | peerClose => exact h.edit rfl rfl
  | setError errorCode => exact h.edit rfl rfl

/-! ## Callbacks passed and callbacks called -/

/-- On a drained connection no callback is outstanding. -/
def Channel.Completed (ch : Channel κ) : Prop :=
  ∀ connection, ch.link.connection = some connection → connection.writeBuffer = [] →
    (acceptedCallbacks ch.history).Perm (invokedCallbacks ch.history) ∧
      .close ∉ acceptedCallbacks ch.history

/-- The call does not put bytes into the write buffer while a callback waits. -/
abbrev Channel.SlotFree : Channel κ → Channel.Op κ → Prop :=
  Channel.OnCall
    (fun connection maxSize buffer _ _ =>
      connection.status = .connected → connection.sendCompleteCb ≠ .null →
        buffer = [] ∨ connection.Overflows maxSize buffer.length)
    fun _ _ => True

/-- Passed are the callbacks called and the one that waits. -/
structure Channel.Balanced (ch : Channel κ) : Prop where
  slotted : ch.Slotted
  perm : ∀ connection, ch.link.connection = some connection →
    (acceptedCallbacks ch.history).Perm
      (invokedCallbacks ch.history ++ connection.sendCompleteCb.toList)
  close_notMem : ∀ connection, ch.link.connection = some connection →
    .close ∉ invokedCallbacks ch.history

theorem Channel.Balanced.completed (ch : Channel κ) (h : ch.Balanced) : ch.Completed := by
  intro connection hcon hempty
  have hnull : connection.sendCompleteCb = .null := by
    by_contra hcb
    exact h.slotted connection hcon hcb hempty
  have hperm := h.perm connection hcon
  rw [hnull, SendCompleteCallback.toList, List.append_nil] at hperm
  exact ⟨hperm, fun hmem => h.close_notMem connection hcon (hperm.mem_iff.1 hmem)⟩

section Balance

variable {connection k : TcpConnection κ} {writeCb : WriteCallback}
  {history effects : List (Effect κ)} {sendCompleteCb : SendCompleteCallback κ}

theorem close_notMem_toList (h : sendCompleteCb ≠ .close) : .close ∉ sendCompleteCb.toList := by
  cases sendCompleteCb with
  | null => exact List.not_mem_nil
  | user cb => exact fun hmem => by cases List.mem_singleton.1 hmem
  | close => exact absurd rfl h

/-- Effects without a callback. -/
theorem balance_quiet (h : Channel.Balanced ⟨⟨some connection, writeCb⟩, history⟩)
    (haccepted : acceptedCallbacks effects = []) (hinvoked : invokedCallbacks effects = [])
    (hcb : k.sendCompleteCb = connection.sendCompleteCb) :
    (acceptedCallbacks (history ++ effects)).Perm
        (invokedCallbacks (history ++ effects) ++ k.sendCompleteCb.toList) ∧
      .close ∉ invokedCallbacks (history ++ effects) := by
  rw [acceptedCallbacks_append, invokedCallbacks_append, haccepted, hinvoked, List.append_nil,
    List.append_nil, hcb]
  exact ⟨h.perm connection rfl, h.close_notMem connection rfl⟩

/-- A callback that was not the waiting one is passed and called. -/
theorem balance_complete (h : Channel.Balanced ⟨⟨some connection, writeCb⟩, history⟩)
    (haccepted : acceptedCallbacks effects = sendCompleteCb.toList)
    (hinvoked : invokedCallbacks effects = sendCompleteCb.toList) (hclose : sendCompleteCb ≠ .close) :
    (acceptedCallbacks (history ++ effects)).Perm
        (invokedCallbacks (history ++ effects) ++ connection.sendCompleteCb.toList) ∧
      .close ∉ invokedCallbacks (history ++ effects) := by
  rw [acceptedCallbacks_append, invokedCallbacks_append, haccepted, hinvoked]
  constructor
  · refine ((h.perm connection rfl).append_right _).trans ?_
    rw [List.append_assoc, List.append_assoc]
    exact List.perm_append_comm.append_left _
  · rw [List.mem_append, not_or]
    exact ⟨h.close_notMem connection rfl, close_notMem_toList hclose⟩

/-- A callback that closes leaves no connection. -/
theorem called_not_close (h : (Channel.called connection writeCb sendCompleteCb).connection = some k) :
    sendCompleteCb ≠ .close := by
  rintro rfl
  cases h

theorem Channel.Balanced.of_link {l : Link κ} (hslotted : Channel.Slotted ⟨l, history⟩)
    (h : ∀ k, l.connection = some k →
      (acceptedCallbacks history).Perm (invokedCallbacks history ++ k.sendCompleteCb.toList) ∧
        .close ∉ invokedCallbacks history) : Channel.Balanced ⟨l, history⟩ :=
  ⟨hslotted, fun k hk => (h k hk).1, fun k hk => (h k hk).2⟩

theorem Channel.Balanced.edit {writeCb' : WriteCallback}
    (h : Channel.Balanced ⟨⟨some connection, writeCb⟩, history⟩)
    (hbuffer : k.writeBuffer = connection.writeBuffer)
    (hcb : k.sendCompleteCb = connection.sendCompleteCb) :
    Channel.Balanced ⟨⟨some k, writeCb'⟩, history⟩ := by
  refine .of_link (h.slotted.edit hbuffer hcb) fun _ hk => ?_
  cases hk
  rw [hcb]
  exact ⟨h.perm connection rfl, h.close_notMem connection rfl⟩

/-- A connection nothing has happened on. -/
theorem balanced_new (status : Status) (writeCb : WriteCallback) :
    Channel.Balanced ⟨⟨some (.new status : TcpConnection κ), writeCb⟩, []⟩ :=
  .of_link (slotted_new _ _) fun _ hk => by cases hk; exact ⟨.refl _, List.not_mem_nil⟩

theorem balanced_none (writeCb : WriteCallback) (history : List (Effect κ)) :
    Channel.Balanced ⟨⟨none, writeCb⟩, history⟩ :=
  .of_link (fun _ hk => by cases hk) fun _ hk => by cases hk

end Balance

theorem send_balanced {connection : TcpConnection κ} {writeCb : WriteCallback}
    {history : List (Effect κ)} {maxSize : Nat} {buffer : List UInt8}
    {sendCompleteCb : SendCompleteCallback κ} {kernel : SendResult}
    (h : Channel.Balanced ⟨⟨some connection, writeCb⟩, history⟩)
    (hfree : Channel.SlotFree ⟨⟨some connection, writeCb⟩, history⟩
      (.send maxSize buffer sendCompleteCb kernel)) :
    (Channel.step ⟨⟨some connection, writeCb⟩, history⟩
      (.send maxSize buffer sendCompleteCb kernel)).Balanced := by
  have hslotted := slotted_step _ (.send maxSize buffer sendCompleteCb kernel) h.slotted
  rcases send_cases connection history kernel writeCb maxSize buffer sendCompleteCb rfl with
    ⟨hs, hch⟩ | ⟨hs, errno, hch⟩ | ⟨hs, hremain, hfits, hch⟩ | ⟨hs, hremain, hch⟩ <;>
    rw [hch] at hslotted ⊢ <;> refine .of_link hslotted fun k hk => ?_
  · cases hk
    exact balance_quiet h rfl rfl rfl
  · cases hk
    exact balance_quiet h rfl rfl rfl
  · cases hk
    -- bytes are buffered, so the slot was empty
    have hnull : connection.sendCompleteCb = .null := by
      by_contra hcb
      have hqueue : ¬ connection.Direct := h.slotted connection rfl hcb
      rw [remainSize_queue _ _ hqueue] at hremain hfits
      rcases hfree hs hcb with hempty | hover
      · rw [hempty] at hremain
        cases hremain
      · exact hfits hover
    have hperm := h.perm connection rfl
    rw [hnull, SendCompleteCallback.toList, List.append_nil] at hperm
    simp only [acceptedCallbacks_append, invokedCallbacks_append, acceptedCallbacks_cons,
      invokedCallbacks_cons, acceptedCallbacks_nil, invokedCallbacks_nil, Effect.acceptedCallback,
      Effect.invokedCallback, List.nil_append, List.append_nil]
    exact ⟨hperm.append_right _, h.close_notMem connection rfl⟩
  · obtain rfl := called_eq hk
    exact balance_complete h (by simp) (by simp) (called_not_close hk)

theorem write_balanced {connection : TcpConnection κ} {history : List (Effect κ)}
    {kernel : SendResult} {socketError : Int}
    (h : Channel.Balanced ⟨⟨some connection, .onSocketWrite⟩, history⟩) :
    (Channel.step ⟨⟨some connection, .onSocketWrite⟩, history⟩
      (.writable kernel socketError)).Balanced := by
  have hslotted := slotted_step _ (.writable kernel socketError) h.slotted
  rcases write_cases connection history kernel socketError rfl with
    ⟨_, errno, hch⟩ | ⟨hneg, hch⟩ | ⟨n, hn, hrest, hch⟩ | ⟨n, hn, hrest, hch⟩ <;>
    rw [hch] at hslotted ⊢ <;> refine .of_link hslotted fun k hk => ?_
  · cases hk
    exact balance_quiet h rfl rfl rfl
  · cases hk
    exact balance_quiet h rfl rfl rfl
  · cases hk
    exact balance_quiet h rfl rfl rfl
  · obtain rfl := called_eq hk
    have hclose := called_not_close hk
    -- the waiting callback becomes one that has been called
    simp only [acceptedCallbacks_append, invokedCallbacks_append, acceptedCallbacks_cons,
      invokedCallbacks_cons, acceptedCallbacks_nil, invokedCallbacks_nil,
      acceptedCallbacks_invocation, invokedCallbacks_invocation, Effect.acceptedCallback,
      Effect.invokedCallback, SendCompleteCallback.toList, List.nil_append, List.append_nil]
    refine ⟨h.perm connection rfl, ?_⟩
    rw [List.mem_append, not_or]
    exact ⟨h.close_notMem connection rfl, close_notMem_toList hclose⟩

theorem balanced_step (ch : Channel κ) (op : Channel.Op κ) (h : ch.Balanced)
    (hfree : ch.SlotFree op) : (ch.step op).Balanced := by
  obtain ⟨⟨_ | connection, writeCb⟩, history⟩ := ch
  · cases op with
    | connected => exact balanced_new _ _
    | connecting => exact balanced_new _ _
    | _ => exact balanced_none _ _
  cases op with
  | idle => exact h
  | connected => exact balanced_new _ _
  | connecting => exact balanced_new _ _
  | close => exact balanced_none _ _
  | send maxSize buffer sendCompleteCb kernel => exact send_balanced h hfree
  | writable kernel socketError =>
    cases writeCb with
    | null => exact h
    | onAsyncConnectSocketWrite =>
      simp only [Channel.step, Channel.afterConnect]
      split <;> exact h.edit rfl rfl
    | onSocketWrite => exact write_balanced h
  | peerClose => exact h.edit rfl rfl
  | setError errorCode => exact h.edit rfl rfl

/-- **When no callback is lost.** -/
theorem callbacks_completed (c : SocketId) (ops : List (Op κ))
    (hE : EachStep Machine.step Machine.Enabled Machine.init ops)
    (hfree : EachStep Machine.step (fun m op => (m.view c).SlotFree (m.project c op))
      Machine.init ops) :
    Along Machine.step (fun m => (m.view c).Completed) Machine.init ops :=
  along_channel (balanced_none _ _) balanced_step Channel.Balanced.completed hE hfree

/-- A message with a callback that waits, and, once it has been called, a last message. -/
def waitingOps : List (Op Nat) :=
  [.buildConnectedSocket 3, .sendMessage firstId [97] (.user 1) (.fails EAGAIN),
    .writable firstId (.accepts 1 0) 0, .sendMessage firstId [98] .close (.accepts 1 0)]

theorem waitingOps_enabled : EachStep Machine.step Machine.Enabled Machine.init waitingOps := by
  refine ⟨trivial, ?_⟩
  rintro _ ⟨⟩
  refine ⟨trivial, ?_⟩
  rintro _ ⟨⟩
  refine ⟨⟨_, rfl, rfl, by decide⟩, ?_⟩
  rintro _ ⟨⟩
  exact ⟨trivial, fun _ _ => trivial⟩

theorem waitingOps_completed :
    Along Machine.step (fun m => (m.view firstId).Completed) Machine.init waitingOps :=
  callbacks_completed firstId waitingOps waitingOps_enabled (by decide)

/-- **A later message** overwrites the close that waits. -/
theorem later_message_loses_close :
    ¬ ∀ ops : List (Op Nat), EachStep Machine.step Machine.Enabled Machine.init ops →
      Along Machine.step (fun m => (m.view firstId).ErrorFree) Machine.init ops →
      Along Machine.step (fun m => (m.view firstId).Completed) Machine.init ops := by
  intro h
  have hops := h [.buildConnectedSocket 3, .sendMessage firstId [97] .close (.fails EAGAIN),
    .sendMessage firstId [98] .null (.accepts 0 0), .writable firstId (.accepts 2 0) 0] (by
      refine ⟨trivial, ?_⟩
      rintro _ ⟨⟩
      refine ⟨trivial, ?_⟩
      rintro _ ⟨⟩
      refine ⟨trivial, ?_⟩
      rintro _ ⟨⟩
      exact ⟨⟨_, rfl, rfl, by decide⟩, fun _ _ => trivial⟩) (by decide)
  have hcompleted := (((hops.2 _ rfl).2 _ rfl).2 _ rfl).2 _ rfl
  exact (hcompleted _ rfl rfl).2 (by decide)

end TcpService

end Brickred
