import Brickred.TcpService.Channel

/-!
# What a call moves

The bytes and callbacks of a history, and what one call of `sendMessage` or `onSocketWrite` can
do to a channel.  Every invariant of a channel is derived from the two lemmas `send_cases` and
`write_cases`.

* `sentBytes`, `acceptedBytes`, `acceptedCallbacks`, `invokedCallbacks` — what the kernel has
  taken, what `sendMessage` has said `true` to, and the callbacks that were passed and called.
* `ret_of_small`, `ret_of_large` — the `int` in which the count of bytes arrives.
* `remainSize_direct`, `remainSize_large`, `remainSize_queue` — what is left to be buffered.
* `OnCall` — a condition on the calls of `sendMessage` and `onSocketWrite`.
-/

set_option autoImplicit false

namespace Brickred

namespace TcpService

variable {κ : Type}

/-! ## Histories -/

@[simp] def Effect.sentPart : Effect κ → List UInt8
  | .sent bytes => bytes
  | _ => []

@[simp] def Effect.acceptedPart : Effect κ → List UInt8
  | .accepted buffer _ => buffer
  | _ => []

/-- What the kernel has taken. -/
def sentBytes (history : List (Effect κ)) : List UInt8 := history.flatMap Effect.sentPart

/-- The messages for which `sendMessage` has returned `true`, one after the other. -/
def acceptedBytes (history : List (Effect κ)) : List UInt8 := history.flatMap Effect.acceptedPart

/-- The callback, unless it is empty. -/
def SendCompleteCallback.toList : SendCompleteCallback κ → List (SendCompleteCallback κ)
  | .null => []
  | .user cb => [.user cb]
  | .close => [.close]

@[simp] def Effect.acceptedCallback : Effect κ → List (SendCompleteCallback κ)
  | .accepted _ sendCompleteCb => sendCompleteCb.toList
  | _ => []

@[simp] def Effect.invokedCallback : Effect κ → List (SendCompleteCallback κ)
  | .invoked sendCompleteCb _ => [sendCompleteCb]
  | _ => []

/-- The callbacks passed to the calls that returned `true`. -/
def acceptedCallbacks (history : List (Effect κ)) : List (SendCompleteCallback κ) :=
  history.flatMap Effect.acceptedCallback

/-- The callbacks that have been called. -/
def invokedCallbacks (history : List (Effect κ)) : List (SendCompleteCallback κ) :=
  history.flatMap Effect.invokedCallback

section Histories

variable (e : Effect κ) (h h' : List (Effect κ)) (sendCompleteCb : SendCompleteCallback κ)
  (unsent : List UInt8)

@[simp] theorem sentBytes_nil : sentBytes ([] : List (Effect κ)) = [] := rfl

@[simp] theorem sentBytes_cons : sentBytes (e :: h) = e.sentPart ++ sentBytes h :=
  List.flatMap_cons

@[simp] theorem acceptedBytes_nil : acceptedBytes ([] : List (Effect κ)) = [] := rfl

@[simp] theorem acceptedBytes_cons :
    acceptedBytes (e :: h) = e.acceptedPart ++ acceptedBytes h := List.flatMap_cons

@[simp] theorem acceptedCallbacks_nil : acceptedCallbacks ([] : List (Effect κ)) = [] := rfl

@[simp] theorem acceptedCallbacks_cons :
    acceptedCallbacks (e :: h) = e.acceptedCallback ++ acceptedCallbacks h := List.flatMap_cons

@[simp] theorem invokedCallbacks_nil : invokedCallbacks ([] : List (Effect κ)) = [] := rfl

@[simp] theorem invokedCallbacks_cons :
    invokedCallbacks (e :: h) = e.invokedCallback ++ invokedCallbacks h := List.flatMap_cons

@[simp] theorem sentBytes_append : sentBytes (h ++ h') = sentBytes h ++ sentBytes h' :=
  List.flatMap_append

@[simp] theorem acceptedBytes_append :
    acceptedBytes (h ++ h') = acceptedBytes h ++ acceptedBytes h' := List.flatMap_append

@[simp] theorem acceptedCallbacks_append :
    acceptedCallbacks (h ++ h') = acceptedCallbacks h ++ acceptedCallbacks h' :=
  List.flatMap_append

@[simp] theorem invokedCallbacks_append :
    invokedCallbacks (h ++ h') = invokedCallbacks h ++ invokedCallbacks h' := List.flatMap_append

@[simp] theorem sentBytes_invocation :
    sentBytes (sendCompleteCb.invocation unsent) = [] := by cases sendCompleteCb <;> rfl

@[simp] theorem acceptedBytes_invocation :
    acceptedBytes (sendCompleteCb.invocation unsent) = [] := by cases sendCompleteCb <;> rfl

@[simp] theorem acceptedCallbacks_invocation :
    acceptedCallbacks (sendCompleteCb.invocation unsent) = [] := by cases sendCompleteCb <;> rfl

@[simp] theorem invokedCallbacks_invocation :
    invokedCallbacks (sendCompleteCb.invocation unsent) = sendCompleteCb.toList := by
  cases sendCompleteCb <;> rfl

end Histories

/-! ## The count of bytes -/

section Count

variable {kernel : SendResult} {size : Nat}

theorem taken_le (kernel : SendResult) (size : Nat) : kernel.taken size ≤ size := by
  cases kernel with
  | accepts room errno => exact Nat.min_le_right room size
  | fails errno => exact Nat.zero_le size

/-- Below `2 ^ 31` the count arrives as it is, or the call has failed. -/
theorem ret_of_small (h : kernel.taken size < 2 ^ 31) :
    kernel.ret size = kernel.taken size ∨ kernel.ret size = -1 ∧ kernel.taken size = 0 := by
  cases kernel with
  | accepts room errno =>
    simp only [SendResult.taken] at h
    exact Or.inl (toInt_eq (by omega) (by omega))
  | fails errno => exact Or.inr ⟨rfl, rfl⟩

/-- From `2 ^ 31` on less arrives than was sent. -/
theorem ret_of_large (h : 2 ^ 31 ≤ kernel.taken size) :
    kernel.ret size < kernel.taken size := by
  cases kernel with
  | accepts room errno =>
    simp only [SendResult.taken] at h ⊢
    simp only [SendResult.ret, toInt, Int.bmod]
    split <;> omega
  | fails errno =>
    simp only [SendResult.taken] at h
    omega

variable {connection : TcpConnection κ} {buffer : List UInt8}

theorem remainSize_queue (buffer : List UInt8) (kernel : SendResult)
    (h : ¬ connection.Direct) :
    connection.remainSize buffer kernel = buffer.length := by
  unfold TcpConnection.remainSize
  rw [if_neg fun hd => h hd.1]

theorem remainSize_direct (h : connection.Direct) (hsmall : kernel.taken buffer.length < 2 ^ 31) :
    connection.remainSize buffer kernel = buffer.length - kernel.taken buffer.length := by
  unfold TcpConnection.remainSize
  rcases ret_of_small hsmall with hret | ⟨hret, htaken⟩
  · rw [if_pos ⟨h, by omega⟩, hret, Int.toNat_natCast]
  · rw [if_neg (by omega), htaken, Nat.sub_zero]

theorem remainSize_large (hlarge : 2 ^ 31 ≤ kernel.taken buffer.length) :
    buffer.length < connection.remainSize buffer kernel + kernel.taken buffer.length := by
  have hret := ret_of_large hlarge
  have hle := taken_le kernel buffer.length
  unfold TcpConnection.remainSize
  split <;> omega

/-- When nothing is left, the kernel has taken the message. -/
theorem sentDirectly_complete (h : connection.remainSize buffer kernel = 0) :
    connection.sentDirectly buffer kernel = buffer := by
  unfold TcpConnection.sentDirectly
  by_cases hdirect : connection.Direct
  · have htaken := taken_le kernel buffer.length
    by_cases hsmall : kernel.taken buffer.length < 2 ^ 31
    · rw [remainSize_direct hdirect hsmall] at h
      rw [if_pos hdirect, List.take_of_length_le (by omega)]
    · have hlarge := @remainSize_large κ kernel connection buffer (by omega)
      omega
  · rw [remainSize_queue _ _ hdirect] at h
    rw [if_neg hdirect, List.eq_nil_of_length_eq_zero h]

theorem remainSize_le : connection.remainSize buffer kernel ≤ buffer.length := by
  unfold TcpConnection.remainSize
  split <;> omega

end Count

/-! ## One call -/

/-- A condition on the calls of `sendMessage` and `onSocketWrite`; other steps meet it. -/
def Channel.OnCall
    (send : TcpConnection κ → Nat → List UInt8 → SendCompleteCallback κ → SendResult → Prop)
    (write : TcpConnection κ → SendResult → Prop) (ch : Channel κ) (op : Channel.Op κ) : Prop :=
  match ch.link, op with
  | ⟨some connection, _⟩, .send maxSize buffer sendCompleteCb kernel =>
    send connection maxSize buffer sendCompleteCb kernel
  | ⟨some connection, .onSocketWrite⟩, .writable kernel _ => write connection kernel
  | _, _ => True

instance (send : TcpConnection κ → Nat → List UInt8 → SendCompleteCallback κ → SendResult → Prop)
    (write : TcpConnection κ → SendResult → Prop) (ch : Channel κ) (op : Channel.Op κ)
    [∀ connection maxSize buffer sendCompleteCb kernel,
      Decidable (send connection maxSize buffer sendCompleteCb kernel)]
    [∀ connection kernel, Decidable (write connection kernel)] :
    Decidable (ch.OnCall send write op) := by
  unfold Channel.OnCall
  split <;> infer_instance

section Calls

variable (connection : TcpConnection κ) (history : List (Effect κ)) (kernel : SendResult)

theorem sendMessage_cases (maxSize : Nat) (buffer : List UInt8)
    (sendCompleteCb : SendCompleteCallback κ) {r : TcpConnection κ × SendOutcome}
    (hr : connection.sendMessage maxSize buffer sendCompleteCb kernel = r) :
    (connection.status ≠ .connected ∧ r = (connection, .refused)) ∨
    (connection.status = .connected ∧ ∃ errno, r = (connection.setError errno, .failed errno)) ∨
    (connection.status = .connected ∧ 0 < connection.remainSize buffer kernel ∧
      ¬ connection.Overflows maxSize (connection.remainSize buffer kernel) ∧
      r = ({ connection with
        writeBuffer := connection.writeBuffer ++ buffer.take (connection.remainSize buffer kernel)
        sendCompleteCb }, .queued)) ∨
    (connection.status = .connected ∧ connection.remainSize buffer kernel = 0 ∧
      r = (connection, .complete)) := by
  subst hr
  unfold TcpConnection.sendMessage
  by_cases hs : connection.status = .connected
  · rw [if_neg (not_not.2 hs)]
    refine Or.inr ?_
    split
    · exact Or.inl ⟨hs, _, rfl⟩
    · by_cases hremain : connection.remainSize buffer kernel > 0
      · rw [if_pos hremain]
        split
        · exact Or.inl ⟨hs, _, rfl⟩
        · rename_i hfits
          exact Or.inr (Or.inl ⟨hs, hremain, hfits, rfl⟩)
      · rw [if_neg hremain]
        exact Or.inr (Or.inr ⟨hs, by omega, rfl⟩)
  · rw [if_pos hs]
    exact Or.inl ⟨hs, rfl⟩

/-- **What a call of `sendMessage` can do**: refuse, fail, leave bytes in the write buffer, or
complete and call the callback. -/
theorem send_cases (writeCb : WriteCallback) (maxSize : Nat) (buffer : List UInt8)
    (sendCompleteCb : SendCompleteCallback κ) {ch : Channel κ}
    (hch : Channel.step ⟨⟨some connection, writeCb⟩, history⟩
      (.send maxSize buffer sendCompleteCb kernel) = ch) :
    (connection.status ≠ .connected ∧
      ch = ⟨⟨some connection, writeCb⟩, history ++ [.refused]⟩) ∨
    (connection.status = .connected ∧ ∃ errno, ch = ⟨⟨some (connection.setError errno), writeCb⟩,
      history ++ [.sent (connection.sentDirectly buffer kernel), .failed errno]⟩) ∨
    (connection.status = .connected ∧ 0 < connection.remainSize buffer kernel ∧
      ¬ connection.Overflows maxSize (connection.remainSize buffer kernel) ∧
      ch = ⟨⟨some { connection with
          writeBuffer := connection.writeBuffer ++
            buffer.take (connection.remainSize buffer kernel)
          sendCompleteCb }, .onSocketWrite⟩,
        history ++ [.sent (connection.sentDirectly buffer kernel),
          .accepted buffer sendCompleteCb]⟩) ∨
    (connection.status = .connected ∧ connection.remainSize buffer kernel = 0 ∧
      ch = ⟨Channel.called connection writeCb sendCompleteCb,
        history ++ ([.sent (connection.sentDirectly buffer kernel),
          .accepted buffer sendCompleteCb] ++
            sendCompleteCb.invocation connection.writeBuffer)⟩) := by
  subst hch
  simp only [Channel.step, Channel.afterSend, TcpConnection.sendEffects]
  rcases sendMessage_cases connection kernel maxSize buffer sendCompleteCb rfl with
    ⟨hs, hr⟩ | ⟨hs, errno, hr⟩ | ⟨hs, hremain, hfits, hr⟩ | ⟨hs, hremain, hr⟩ <;> rw [hr]
  · exact Or.inl ⟨hs, rfl⟩
  · exact Or.inr (Or.inl ⟨hs, errno, rfl⟩)
  · exact Or.inr (Or.inr (Or.inl ⟨hs, hremain, hfits, rfl⟩))
  · exact Or.inr (Or.inr (Or.inr ⟨hs, hremain, rfl⟩))

theorem onSocketWrite_cases {r : TcpConnection κ × WriteOutcome κ}
    (hr : connection.onSocketWrite kernel = r) :
    (kernel.ret connection.writeBuffer.length < 0 ∧
      ∃ errno, r = (connection.setError errno, .failed errno)) ∨
    (kernel.ret connection.writeBuffer.length < 0 ∧ r = (connection, .pending)) ∨
    (∃ n : Nat, kernel.ret connection.writeBuffer.length = n ∧
      connection.writeBuffer.drop n ≠ [] ∧
      r = ({ connection with writeBuffer := connection.writeBuffer.drop n }, .pending)) ∨
    (∃ n : Nat, kernel.ret connection.writeBuffer.length = n ∧
      connection.writeBuffer.drop n = [] ∧
      r = ({ connection with writeBuffer := [], sendCompleteCb := .null },
        .drained connection.sendCompleteCb)) := by
  subst hr
  unfold TcpConnection.onSocketWrite
  dsimp only
  by_cases hneg : kernel.ret connection.writeBuffer.length < 0
  · rw [if_pos hneg]
    split
    · exact Or.inl ⟨hneg, _, rfl⟩
    · exact Or.inr (Or.inl ⟨hneg, rfl⟩)
  · rw [if_neg hneg]
    have hn : kernel.ret connection.writeBuffer.length =
        (kernel.ret connection.writeBuffer.length).toNat := by omega
    split
    · rename_i hrest
      refine Or.inr (Or.inr (Or.inr ⟨_, hn, hrest, ?_⟩))
      rw [hrest]
    · rename_i hrest
      exact Or.inr (Or.inr (Or.inl ⟨_, hn, hrest, rfl⟩))

/-- **What a call of `onSocketWrite` can do**: fail, wait, remove bytes from the write buffer, or
empty it and call the callback of the slot. -/
theorem write_cases (socketError : Int) {ch : Channel κ}
    (hch : Channel.step ⟨⟨some connection, .onSocketWrite⟩, history⟩
      (.writable kernel socketError) = ch) :
    (kernel.ret connection.writeBuffer.length < 0 ∧
      ∃ errno, ch = ⟨⟨some (connection.setError errno), .onSocketWrite⟩,
        history ++ [.sent (connection.sentBuffered kernel), .failed errno]⟩) ∨
    (kernel.ret connection.writeBuffer.length < 0 ∧
      ch = ⟨⟨some connection, .onSocketWrite⟩,
        history ++ [.sent (connection.sentBuffered kernel)]⟩) ∨
    (∃ n : Nat, kernel.ret connection.writeBuffer.length = n ∧
      connection.writeBuffer.drop n ≠ [] ∧
      ch = ⟨⟨some { connection with writeBuffer := connection.writeBuffer.drop n },
          .onSocketWrite⟩,
        history ++ [.sent (connection.sentBuffered kernel)]⟩) ∨
    (∃ n : Nat, kernel.ret connection.writeBuffer.length = n ∧
      connection.writeBuffer.drop n = [] ∧
      ch = ⟨Channel.called { connection with writeBuffer := [], sendCompleteCb := .null } .null
          connection.sendCompleteCb,
        history ++ ([.sent (connection.sentBuffered kernel)] ++
          connection.sendCompleteCb.invocation [])⟩) := by
  subst hch
  simp only [Channel.step, Channel.afterWrite, TcpConnection.writeEffects]
  rcases onSocketWrite_cases connection kernel rfl with
    ⟨hneg, errno, hr⟩ | ⟨hneg, hr⟩ | ⟨n, hn, hrest, hr⟩ | ⟨n, hn, hrest, hr⟩ <;> rw [hr]
  · exact Or.inl ⟨hneg, errno, rfl⟩
  · exact Or.inr (Or.inl ⟨hneg, rfl⟩)
  · exact Or.inr (Or.inr (Or.inl ⟨n, hn, hrest, rfl⟩))
  · exact Or.inr (Or.inr (Or.inr ⟨n, hn, hrest, rfl⟩))

end Calls

end TcpService

end Brickred
