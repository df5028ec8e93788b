import Brickred.TcpService.Transfer

/-!
# The outgoing stream

`sendMessage` tries to hand the message to the kernel and buffers what is left.  The law is that
what the kernel has taken, followed by the write buffer, is the concatenation of the accepted
messages.  The `memcpy` into the write buffer starts at the beginning of the message, though,
also when its first bytes have been sent.

* `Law`, `Intact` — the law, and that it holds while the connection is connected.
* `Faithful` — the steps that keep it: a direct send after which the bytes copied are the bytes
  left, and no call of `send` that takes `2 ^ 31` bytes or more.
* `outgoing_stream_iff` — a run on which no call fails keeps the law iff all its steps are
  faithful.
-/

set_option autoImplicit false

namespace Brickred

namespace TcpService

open Runs

variable {κ : Type}

/-- Sent, then buffered: the accepted messages in order. -/
def Law (connection : TcpConnection κ) (history : List (Effect κ)) : Prop :=
  sentBytes history ++ connection.writeBuffer = acceptedBytes history

instance (connection : TcpConnection κ) (history : List (Effect κ)) :
    Decidable (Law connection history) :=
  inferInstanceAs (Decidable (sentBytes history ++ connection.writeBuffer = acceptedBytes history))

def Channel.Intact (ch : Channel κ) : Prop :=
  ∀ connection, ch.link.connection = some connection → connection.status = .connected →
    Law connection ch.history

def Effect.isFailure : Effect κ → Bool
  | .failed _ => true
  | _ => false

/-- No call has failed on the connection. -/
def Channel.ErrorFree (ch : Channel κ) : Prop := ∀ e ∈ ch.history, e.isFailure = false

instance (ch : Channel κ) : Decidable ch.ErrorFree :=
  inferInstanceAs (Decidable (∀ e ∈ ch.history, e.isFailure = false))

/-- In a direct send: the bytes `memcpy` copies are the bytes that were not sent, and their count
fits an `int`. -/
def RestCopied (buffer : List UInt8) (kernel : SendResult) : Prop :=
  kernel.taken buffer.length < 2 ^ 31 ∧
    buffer.take (buffer.length - kernel.taken buffer.length) =
      buffer.drop (kernel.taken buffer.length)

instance (buffer : List UInt8) (kernel : SendResult) : Decidable (RestCopied buffer kernel) :=
  inferInstanceAs (Decidable (_ ∧ _))

abbrev Channel.Faithful : Channel κ → Channel.Op κ → Prop :=
  Channel.OnCall
    (fun connection _ buffer _ kernel =>
      connection.status = .connected → connection.Direct → RestCopied buffer kernel)
    fun connection kernel =>
      connection.status = .connected → kernel.taken connection.writeBuffer.length < 2 ^ 31

/-! ## The law across a call -/

section Exact

variable {connection connection' : TcpConnection κ} {history effects : List (Effect κ)}
  {buffer : List UInt8} {kernel : SendResult}

theorem law_append (h : Law connection history) :
    Law connection' (history ++ effects) ↔
      sentBytes effects ++ connection'.writeBuffer =
        connection.writeBuffer ++ acceptedBytes effects := by
  unfold Law at h ⊢
  rw [sentBytes_append, acceptedBytes_append, ← h, List.append_assoc, List.append_assoc,
    List.append_right_inj]

/-- What was sent directly and what is buffered make up the message. -/
theorem sentDirectly_append_iff (hdirect : connection.Direct) :
    connection.sentDirectly buffer kernel ++ buffer.take (connection.remainSize buffer kernel) =
      buffer ↔ RestCopied buffer kernel := by
  have htaken := taken_le kernel buffer.length
  unfold TcpConnection.sentDirectly RestCopied
  rw [if_pos hdirect]
  by_cases hsmall : kernel.taken buffer.length < 2 ^ 31
  · rw [remainSize_direct hdirect hsmall]
    refine ⟨fun h => ⟨hsmall, ?_⟩, fun h => by rw [h.2, List.take_append_drop]⟩
    refine List.append_cancel_left (h.trans ?_)
    exact (List.take_append_drop _ _).symm
  · refine iff_of_false (fun h => ?_) fun h => hsmall h.1
    have hlarge := @remainSize_large κ kernel connection buffer (by omega)
    have hle := @remainSize_le κ kernel connection buffer
    have hlen := congrArg List.length h
    rw [List.length_append, List.length_take, List.length_take] at hlen
    omega

/-- A message of which bytes are buffered. -/
theorem law_queued (h : Law connection history) (hqueue : connection'.writeBuffer =
      connection.writeBuffer ++ buffer.take (connection.remainSize buffer kernel))
    (sendCompleteCb : SendCompleteCallback κ) :
    Law connection' (history ++ [.sent (connection.sentDirectly buffer kernel),
        .accepted buffer sendCompleteCb]) ↔
      (connection.Direct → RestCopied buffer kernel) := by
  rw [law_append h, hqueue]
  by_cases hdirect : connection.Direct
  · have hempty : connection.writeBuffer = [] := hdirect
    simp only [hempty, sentBytes_cons, sentBytes_nil, acceptedBytes_cons, acceptedBytes_nil,
      Effect.sentPart, Effect.acceptedPart, List.nil_append, List.append_nil]
    rw [sentDirectly_append_iff hdirect]
    exact ⟨fun h _ => h, fun h => h hdirect⟩
  · refine iff_of_true ?_ fun h => absurd h hdirect
    rw [remainSize_queue _ _ hdirect]
    simp [TcpConnection.sentDirectly, hdirect]

/-- A message of which nothing is left. -/
theorem law_complete (h : Law connection history) (hremain : connection.remainSize buffer kernel = 0)
    (sendCompleteCb : SendCompleteCallback κ) :
    Law connection (history ++ [.sent (connection.sentDirectly buffer kernel),
      .accepted buffer sendCompleteCb]) := by
  rw [law_append h, sentDirectly_complete hremain]
  by_cases hdirect : connection.Direct
  · have hempty : connection.writeBuffer = [] := hdirect
    simp [hempty]
  · rw [remainSize_queue _ _ hdirect] at hremain
    simp [List.eq_nil_of_length_eq_zero hremain]

/-- A message of which nothing is left has arrived in full. -/
theorem restCopied_of_complete (hdirect : connection.Direct)
    (hremain : connection.remainSize buffer kernel = 0) : RestCopied buffer kernel := by
  rw [← sentDirectly_append_iff hdirect, hremain, sentDirectly_complete hremain, List.take_zero,
    List.append_nil]

/-- What the kernel took of the write buffer, and what is left of it. -/
theorem sentBuffered_append_iff {n : Nat} (hn : kernel.ret connection.writeBuffer.length = n) :
    connection.sentBuffered kernel ++ connection.writeBuffer.drop n = connection.writeBuffer ↔
      kernel.taken connection.writeBuffer.length < 2 ^ 31 := by
  have htaken := taken_le kernel connection.writeBuffer.length
  unfold TcpConnection.sentBuffered
  by_cases hsmall : kernel.taken connection.writeBuffer.length < 2 ^ 31
  · refine iff_of_true ?_ hsmall
    have heq : n = kernel.taken connection.writeBuffer.length := by
      rcases ret_of_small hsmall with h | h <;> omega
    rw [heq, List.take_append_drop]
  · refine iff_of_false (fun h => ?_) hsmall
    have hret := @ret_of_large kernel connection.writeBuffer.length (by omega)
    have hlen := congrArg List.length h
    rw [List.length_append, List.length_take, List.length_drop] at hlen
    omega

/-- A call that reports a failure has taken nothing, unless the count did not fit. -/
theorem sentBuffered_eq_nil_iff (hneg : kernel.ret connection.writeBuffer.length < 0) :
    connection.sentBuffered kernel = [] ↔
      kernel.taken connection.writeBuffer.length < 2 ^ 31 := by
  have htaken := taken_le kernel connection.writeBuffer.length
  unfold TcpConnection.sentBuffered
  by_cases hsmall : kernel.taken connection.writeBuffer.length < 2 ^ 31
  · refine iff_of_true ?_ hsmall
    rcases ret_of_small hsmall with h | h
    · omega
    · rw [h.2, List.take_zero]
  · refine iff_of_false (fun h => ?_) hsmall
    have hlen := congrArg List.length h
    rw [List.length_take, List.length_nil] at hlen
    omega

/-- Emptying the write buffer takes a count that fits. -/
theorem taken_of_drained {n : Nat} (hn : kernel.ret connection.writeBuffer.length = n)
    (hrest : connection.writeBuffer.drop n = []) :
    kernel.taken connection.writeBuffer.length < 2 ^ 31 := by
  have htaken := taken_le kernel connection.writeBuffer.length
  by_contra hlarge
  have hret := @ret_of_large kernel connection.writeBuffer.length (by omega)
  have hlen := congrArg List.length hrest
  rw [List.length_drop, List.length_nil] at hlen
  omega

theorem law_written (connection' : TcpConnection κ) (h : Law connection history) {n : Nat}
    (hn : kernel.ret connection.writeBuffer.length = n)
    (hrest : connection'.writeBuffer = connection.writeBuffer.drop n) :
    Law connection' (history ++ [.sent (connection.sentBuffered kernel)]) ↔
      kernel.taken connection.writeBuffer.length < 2 ^ 31 := by
  rw [law_append h, hrest, ← sentBuffered_append_iff hn]
  simp

theorem law_unwritten (h : Law connection history)
    (hneg : kernel.ret connection.writeBuffer.length < 0)
    (hsame : connection'.writeBuffer = connection.writeBuffer) :
    Law connection' (history ++ [.sent (connection.sentBuffered kernel)]) ↔
      kernel.taken connection.writeBuffer.length < 2 ^ 31 := by
  rw [law_append h, hsame, ← sentBuffered_eq_nil_iff hneg]
  simp

/-- An invocation moves no bytes. -/
theorem law_invocation {sendCompleteCb : SendCompleteCallback κ} {unsent : List UInt8} :
    Law connection (history ++ (effects ++ sendCompleteCb.invocation unsent)) ↔
      Law connection (history ++ effects) := by
  unfold Law
  simp

end Exact

/-! ## A connection that is being made -/

/-- Nothing has been sent on it. -/
def Channel.Connecting (ch : Channel κ) : Prop :=
  ∀ connection, ch.link = ⟨some connection, .onAsyncConnectSocketWrite⟩ →
    connection.status ≠ .connected ∧ Law connection ch.history

theorem called_connecting {connection k : TcpConnection κ} {writeCb : WriteCallback}
    {sendCompleteCb : SendCompleteCallback κ}
    (h : Channel.called connection writeCb sendCompleteCb = ⟨some k, .onAsyncConnectSocketWrite⟩) :
    connection = k ∧ writeCb = .onAsyncConnectSocketWrite := by
  cases sendCompleteCb <;> cases h <;> exact ⟨rfl, rfl⟩

theorem called_eq {connection k : TcpConnection κ} {writeCb : WriteCallback}
    {sendCompleteCb : SendCompleteCallback κ}
    (h : (Channel.called connection writeCb sendCompleteCb).connection = some k) :
    connection = k := by
  cases sendCompleteCb <;> cases h <;> rfl

theorem connecting_step (ch : Channel κ) (op : Channel.Op κ) (h : ch.Connecting) :
    (ch.step op).Connecting := by
  obtain ⟨⟨_ | connection, writeCb⟩, history⟩ := ch
  · cases op with
    | connected => exact fun _ heq => by cases heq
    | connecting => exact fun _ heq => by cases heq; exact ⟨fun hs => (by cases hs), rfl⟩
    | close => exact fun _ heq => by cases heq
    | _ => exact h
  cases op with
  | idle => exact h
  | connected => exact fun _ heq => by cases heq
  | connecting => exact fun _ heq => by cases heq; exact ⟨fun hs => (by cases hs), rfl⟩
  | close => exact fun _ heq => by cases heq
  | send maxSize buffer sendCompleteCb kernel =>
    rcases send_cases connection history kernel writeCb maxSize buffer sendCompleteCb rfl with
      ⟨hs, hch⟩ | ⟨hs, errno, hch⟩ | ⟨hs, hremain, hfits, hch⟩ | ⟨hs, hremain, hch⟩ <;>
      rw [hch] <;> intro k heq
    · cases heq
      obtain ⟨hstatus, hlaw⟩ := h _ rfl
      exact ⟨hstatus, (law_append hlaw).2 (by simp)⟩
    · cases heq
      exact absurd hs (h _ rfl).1
    · cases heq
    · obtain ⟨rfl, rfl⟩ := called_connecting heq
      exact absurd hs (h _ rfl).1
  | writable kernel socketError =>
    cases writeCb with
    | null => exact h
    | onAsyncConnectSocketWrite =>
      obtain ⟨_, hlaw⟩ := h _ rfl
      intro k heq
      simp only [Channel.step, Channel.afterConnect] at heq ⊢
      split at heq
      · cases heq
        exact ⟨fun hs => (by cases hs), hlaw⟩
      · cases heq
    | onSocketWrite =>
      rcases write_cases connection history kernel socketError rfl with
        ⟨_, errno, hch⟩ | ⟨hneg, hch⟩ | ⟨n, hn, hrest, hch⟩ | ⟨n, hn, hrest, hch⟩ <;>
        rw [hch] <;> intro k heq
      · cases heq
      · cases heq
      · cases heq
      · cases (called_connecting heq).2
  | peerClose =>
    intro k heq
    cases heq
    exact ⟨fun hs => (by cases hs), (h _ rfl).2⟩
  | setError errorCode =>
    intro k heq
    cases heq
    exact ⟨fun hs => (by cases hs), (h _ rfl).2⟩

/-! ## The law along a run -/

theorem Channel.Intact.of_law {ch : Channel κ} {connection : TcpConnection κ}
    (hlink : ch.link.connection = some connection) (h : Law connection ch.history) : ch.Intact := by
  intro k hk _
  cases hlink.symm.trans hk
  exact h

theorem Channel.Intact.of_status {ch : Channel κ} {connection : TcpConnection κ}
    (hlink : ch.link.connection = some connection) (h : connection.status ≠ .connected) :
    ch.Intact := by
  intro k hk hs
  cases hlink.symm.trans hk
  exact absurd hs h

/-- Calling the callback leaves the law alone. -/
theorem intact_called {connection : TcpConnection κ} {writeCb : WriteCallback}
    {history : List (Effect κ)} (h : Law connection history)
    (sendCompleteCb : SendCompleteCallback κ) :
    Channel.Intact ⟨Channel.called connection writeCb sendCompleteCb, history⟩ := by
  cases sendCompleteCb with
  | null => exact .of_law rfl h
  | user cb => exact .of_law rfl h
  | close => exact fun _ hk => by cases hk

theorem intact_iff {connection : TcpConnection κ} {writeCb : WriteCallback}
    {history : List (Effect κ)} (hs : connection.status = .connected) :
    Channel.Intact ⟨⟨some connection, writeCb⟩, history⟩ ↔ Law connection history :=
  ⟨fun h => h connection rfl hs, fun h => .of_law rfl h⟩

theorem not_errorFree {l : Link κ} {history effects : List (Effect κ)} {errno : Int}
    (h : Effect.failed errno ∈ effects) : ¬ Channel.ErrorFree ⟨l, history ++ effects⟩ :=
  fun hF => absurd (hF _ (List.mem_append_right _ h)) (by simp [Effect.isFailure])

section Steps

variable {connection : TcpConnection κ} {writeCb : WriteCallback} {history : List (Effect κ)}
  {kernel : SendResult}

theorem send_exact {maxSize : Nat} {buffer : List UInt8} {sendCompleteCb : SendCompleteCallback κ}
    (hP : Channel.Intact ⟨⟨some connection, writeCb⟩, history⟩)
    (hF : (Channel.step ⟨⟨some connection, writeCb⟩, history⟩
      (.send maxSize buffer sendCompleteCb kernel)).ErrorFree) :
    (Channel.step ⟨⟨some connection, writeCb⟩, history⟩
        (.send maxSize buffer sendCompleteCb kernel)).Intact ↔
      (connection.status = .connected → connection.Direct → RestCopied buffer kernel) := by
  rcases send_cases connection history kernel writeCb maxSize buffer sendCompleteCb rfl with
    ⟨hs, hch⟩ | ⟨hs, errno, hch⟩ | ⟨hs, hremain, hfits, hch⟩ | ⟨hs, hremain, hch⟩ <;>
    rw [hch] at hF ⊢
  · exact iff_of_true (.of_status rfl hs) fun h => absurd h hs
  · exact absurd hF (not_errorFree (List.mem_cons_of_mem _ List.mem_cons_self))
  · rw [intact_iff (by exact hs), law_queued (hP _ rfl hs) rfl sendCompleteCb]
    exact ⟨fun h _ => h, fun h => h hs⟩
  · refine iff_of_true (intact_called ?_ sendCompleteCb) fun _ hdirect =>
      restCopied_of_complete hdirect hremain
    exact law_invocation.2 (law_complete (hP _ rfl hs) hremain sendCompleteCb)

theorem write_exact {socketError : Int}
    (hP : Channel.Intact ⟨⟨some connection, .onSocketWrite⟩, history⟩)
    (hF : (Channel.step ⟨⟨some connection, .onSocketWrite⟩, history⟩
      (.writable kernel socketError)).ErrorFree) :
    (Channel.step ⟨⟨some connection, .onSocketWrite⟩, history⟩
        (.writable kernel socketError)).Intact ↔
      (connection.status = .connected →
        kernel.taken connection.writeBuffer.length < 2 ^ 31) := by
  by_cases hs : connection.status = .connected
  · have hlaw := hP _ rfl hs
    rw [forall_prop_of_true hs]
    rcases write_cases connection history kernel socketError rfl with
      ⟨_, errno, hch⟩ | ⟨hneg, hch⟩ | ⟨n, hn, _, hch⟩ | ⟨n, hn, hrest, hch⟩ <;> rw [hch] at hF ⊢
    · exact absurd hF (not_errorFree (List.mem_cons_of_mem _ List.mem_cons_self))
    · rw [intact_iff hs, law_unwritten hlaw hneg rfl]
    · rw [intact_iff (by exact hs), law_written _ hlaw hn rfl]
    · have hsmall := taken_of_drained hn hrest
      refine iff_of_true (intact_called ?_ _) hsmall
      exact law_invocation.2 ((law_written _ hlaw hn hrest.symm).2 hsmall)
  · refine iff_of_true ?_ fun h => absurd h hs
    rcases write_cases connection history kernel socketError rfl with
      ⟨_, errno, hch⟩ | ⟨hneg, hch⟩ | ⟨n, hn, _, hch⟩ | ⟨n, hn, hrest, hch⟩ <;> rw [hch]
    · exact .of_status rfl (fun hs => by cases hs)
    · exact .of_status rfl hs
    · exact .of_status rfl (by exact hs)
    · intro k hk hk'
      have hk := called_eq hk
      subst hk
      exact absurd hk' hs

end Steps

theorem step_exact (ch : Channel κ) (op : Channel.Op κ) (hI : ch.Connecting) (hP : ch.Intact)
    (hF : (ch.step op).ErrorFree) : (ch.step op).Intact ↔ ch.Faithful op := by
  obtain ⟨⟨_ | connection, writeCb⟩, history⟩ := ch
  · refine iff_of_true ?_ trivial
    cases op with
    | connected => exact .of_law rfl rfl
    | connecting => exact .of_law rfl rfl
    | _ => exact fun _ hk => by cases hk
  cases op with
  | idle => exact iff_of_true hP trivial
  | connected => exact iff_of_true (.of_law rfl rfl) trivial
  | connecting => exact iff_of_true (.of_law rfl rfl) trivial
  | send maxSize buffer sendCompleteCb kernel => exact send_exact hP hF
  | writable kernel socketError =>
    cases writeCb with
    | null => exact iff_of_true hP trivial
    | onAsyncConnectSocketWrite =>
      refine iff_of_true ?_ trivial
      obtain ⟨_, hlaw⟩ := hI _ rfl
      simp only [Channel.step, Channel.afterConnect]
      split
      · exact .of_status rfl (fun hs => by cases hs)
      · exact .of_law rfl hlaw
    | onSocketWrite => exact write_exact hP hF
  | close => exact iff_of_true (fun _ hk => by cases hk) trivial
  | peerClose => exact iff_of_true (.of_status rfl (fun hs => by cases hs)) trivial
  | setError errorCode => exact iff_of_true (.of_status rfl (fun hs => by cases hs)) trivial

/-- **When the outgoing stream is intact.** -/
theorem outgoing_stream_iff (c : SocketId) (ops : List (Op κ))
    (hE : EachStep Machine.step Machine.Enabled Machine.init ops)
    (hF : Along Machine.step (fun m => (m.view c).ErrorFree) Machine.init ops) :
    Along Machine.step (fun m => (m.view c).Intact) Machine.init ops ↔
      EachStep Machine.step (fun m op => (m.view c).Faithful (m.project c op)) Machine.init ops :=
  along_channel_iff (fun _ hk => by cases hk) (fun _ hk => by cases hk) connecting_step step_exact
    hE hF

/-- The id of the first socket, with the descriptor 3. -/
def firstId : SocketId := SocketIdAllocator.getId 0 3

/-- Two messages on a connection that is not writable at first; then the kernel takes one byte,
and the rest. -/
def queuedOps : List (Op Unit) :=
  [.buildConnectedSocket 3, .sendMessage firstId [97, 98] .null (.fails EAGAIN),
    .sendMessage firstId [99] .null (.accepts 0 0), .writable firstId (.accepts 1 0) 0,
    .writable firstId (.accepts 5 0) 0]

theorem queuedOps_enabled : EachStep Machine.step Machine.Enabled Machine.init queuedOps := by
  refine ⟨trivial, ?_⟩
  rintro _ ⟨⟩
  refine ⟨trivial, ?_⟩
  rintro _ ⟨⟩
  refine ⟨trivial, ?_⟩
  rintro _ ⟨⟩
  refine ⟨⟨_, rfl, rfl, by decide⟩, ?_⟩
  rintro _ ⟨⟩
  refine ⟨⟨_, rfl, rfl, by decide⟩, ?_⟩
  rintro _ ⟨⟩
  trivial

theorem queuedOps_intact :
    Along Machine.step (fun m => (m.view firstId).Intact) Machine.init queuedOps :=
  (outgoing_stream_iff firstId queuedOps queuedOps_enabled (by decide)).2 (by decide)

/-- **A partial direct send** repeats the bytes that were sent. -/
theorem partial_send_repeats :
    ¬ ∀ ops : List (Op Unit), EachStep Machine.step Machine.Enabled Machine.init ops →
      Along Machine.step (fun m => (m.view firstId).ErrorFree) Machine.init ops →
      Along Machine.step (fun m => (m.view firstId).Intact) Machine.init ops := by
  intro h
  have hops := h [.buildConnectedSocket 3, .sendMessage firstId [97, 98] .null (.accepts 1 0)]
    ⟨trivial, fun _ hs => by cases hs; exact ⟨trivial, fun _ _ => trivial⟩⟩ (by decide)
  have hlaw := (hops.2 _ rfl).2 _ rfl _ rfl rfl
  exact absurd hlaw (by decide)

end TcpService

end Brickred
