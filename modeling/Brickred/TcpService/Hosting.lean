import Brickred.TcpService.Application
import Brickred.TcpService.Reading

/-!
# What an application says

* `Talks`, `Awaits` — a connection the application has been told of, and one that is being made;
  `Talks.send`, `Talks.write` — what the two calls that send do to it.
* `calls_talks` — the calls of a callback, `Host.sound_step` — a step of the host.
* `Host.session_reached` — the invariant rule for what an application has of its connections.
* `Host.application_stream` — **what the kernel is given on a connection** is, whatever happens on
  the others, the beginning of what the application has said on it.
-/

set_option autoImplicit false

namespace Brickred

namespace TcpService

open Runs

variable {σ ι κ : Type}

/-! ## On a channel -/

section Channels

variable {ch : Channel κ} {said buffer : List UInt8}

/-- The application has been told of the connection, or there is none.  What waits in the write
buffer has been said too, and it is the rest of what has been said while no call has failed. -/
structure Talks (ch : Channel κ) (said : List UInt8) : Prop where
  sent_begins : sentBytes ch.history <+: said
  kept : ∀ connection, ch.link.connection = some connection →
    sentBytes ch.history ++ connection.writeBuffer <+: said
  law : ∀ connection, ch.link.connection = some connection →
    connection.status = .connected → sentBytes ch.history ++ connection.writeBuffer = said
  told : ch.link.writeCb ≠ .onAsyncConnectSocketWrite

/-- The connection is being made. -/
structure Awaits (ch : Channel κ) : Prop where
  connecting : ∃ connection, ch.link = ⟨some connection, .onAsyncConnectSocketWrite⟩ ∧
    connection.status ≠ .connected ∧ connection.writeBuffer = []
  silent : sentBytes ch.history = []

theorem Talks.closed {history : List (Effect κ)} (h : sentBytes history <+: said) :
    Talks ⟨⟨none, .null⟩, history⟩ said where
  sent_begins := h
  kept _ h := nomatch h
  law _ h := nomatch h
  told := nofun

section Open

variable {connection : TcpConnection κ} {writeCb : WriteCallback} {history : List (Effect κ)}

theorem Talks.of_law (h : sentBytes history ++ connection.writeBuffer = said)
    (hcb : writeCb ≠ .onAsyncConnectSocketWrite) :
    Talks ⟨⟨some connection, writeCb⟩, history⟩ said where
  sent_begins := ⟨_, h⟩
  kept k hk := by cases hk; exact ⟨[], by rw [h, List.append_nil]⟩
  law k hk _ := by cases hk; exact h
  told := hcb

theorem Talks.of_kept (hs : connection.status ≠ .connected)
    (h : sentBytes history ++ connection.writeBuffer <+: said)
    (hcb : writeCb ≠ .onAsyncConnectSocketWrite) :
    Talks ⟨⟨some connection, writeCb⟩, history⟩ said where
  sent_begins := (List.prefix_append _ _).trans h
  kept k hk := by cases hk; exact h
  law k hk hs' := by cases hk; exact absurd hs' hs
  told := hcb

/-- Calling the callback changes nothing but that the connection may be gone. -/
theorem Talks.called (h : Talks ⟨⟨some connection, writeCb⟩, history⟩ said)
    (sendCompleteCb : SendCompleteCallback κ) :
    Talks ⟨Channel.called connection writeCb sendCompleteCb, history⟩ said := by
  cases sendCompleteCb with
  | null => exact h
  | user cb => exact h
  | close => exact .closed h.sent_begins

/-- The connection is edited so that it is not connected any more. -/
theorem Talks.edit {l : Link κ} {f : TcpConnection κ → TcpConnection κ}
    (hf : ∀ connection, (f connection).status ≠ .connected ∧
      (f connection).writeBuffer = connection.writeBuffer)
    (h : Talks ⟨l, history⟩ said) : Talks ⟨l.edit f, history⟩ said := by
  obtain ⟨_ | connection, writeCb⟩ := l
  · exact h
  · refine .of_kept (hf connection).1 ?_ h.told
    rw [(hf connection).2]
    exact h.kept connection rfl

theorem Awaits.edit {l : Link κ} {f : TcpConnection κ → TcpConnection κ}
    (hf : ∀ connection, (f connection).status ≠ .connected ∧
      (f connection).writeBuffer = connection.writeBuffer)
    (h : Awaits ⟨l, history⟩) : Awaits ⟨l.edit f, history⟩ := by
  obtain ⟨connection, hl, hstatus, hbuffer⟩ := h.connecting
  cases hl
  exact ⟨⟨_, rfl, (hf connection).1, (hf connection).2.trans hbuffer⟩, h.silent⟩

/-- What is sent directly, what waited before it and what is left. -/
theorem sentDirectly_append {kernel : SendResult} (hk : RestCopied buffer kernel) :
    connection.sentDirectly buffer kernel ++
        (connection.writeBuffer ++ buffer.take (connection.remainSize buffer kernel)) =
      connection.writeBuffer ++ buffer := by
  by_cases hdirect : connection.Direct
  · have hempty : connection.writeBuffer = [] := hdirect
    rw [hempty, List.nil_append, List.nil_append]
    exact (sentDirectly_append_iff hdirect).2 hk
  · rw [remainSize_queue _ _ hdirect, List.take_length]
    unfold TcpConnection.sentDirectly
    rw [if_neg hdirect, List.nil_append]

theorem sentDirectly_begins {kernel : SendResult} :
    connection.sentDirectly buffer kernel ++ connection.writeBuffer <+:
      connection.writeBuffer ++ buffer := by
  unfold TcpConnection.sentDirectly
  split
  · rename_i hdirect
    have hempty : connection.writeBuffer = [] := hdirect
    rw [hempty, List.append_nil, List.nil_append]
    exact List.take_prefix _ _
  · exact List.prefix_append _ _

/-- A kernel that takes nothing leaves everything to be copied. -/
theorem restCopied_fails (buffer : List UInt8) (errno : Int) :
    RestCopied buffer (.fails errno) := by
  refine ⟨Nat.two_pow_pos 31, ?_⟩
  show buffer.take buffer.length = buffer.drop 0
  rw [List.take_length, List.drop_zero]

theorem SendResult.Counted.taken {kernel : SendResult} (h : kernel.Counted) (size : Nat) :
    kernel.taken size < 2 ^ 31 := by
  cases kernel with
  | accepts room errno =>
    have hroom : room < 2 ^ 31 := h
    exact lt_of_le_of_lt (Nat.min_le_left room size) hroom
  | fails errno => exact Nat.two_pow_pos 31

/-- The bytes taken out of the write buffer have been sent. -/
theorem Talks.written {k : TcpConnection κ} {effects : List (Effect κ)} {kernel : SendResult}
    (h : Talks ⟨⟨some connection, .onSocketWrite⟩, history⟩ said)
    (heffects : sentBytes effects = connection.sentBuffered kernel)
    (hsent : connection.sentBuffered kernel ++ k.writeBuffer = connection.writeBuffer)
    (hs : k.status = .connected → connection.status = .connected)
    (hcb : writeCb ≠ .onAsyncConnectSocketWrite) :
    Talks ⟨⟨some k, writeCb⟩, history ++ effects⟩ said := by
  have hbytes : sentBytes (history ++ effects) ++ k.writeBuffer =
      sentBytes history ++ connection.writeBuffer := by
    rw [← hsent, sentBytes_append, heffects, List.append_assoc]
  by_cases hk : k.status = .connected
  · exact .of_law (hbytes.trans (h.law connection rfl (hs hk))) hcb
  · refine .of_kept hk ?_ hcb
    rw [hbytes]
    exact h.kept connection rfl

end Open

theorem Talks.init : Talks (⟨⟨none, .null⟩, []⟩ : Channel κ) [] := .closed List.nil_prefix

theorem step_close (ch : Channel κ) : ch.step .close = ⟨⟨none, .null⟩, ch.history⟩ := by
  obtain ⟨⟨_ | connection, writeCb⟩, history⟩ := ch <;> rfl

theorem Talks.connected (ch : Channel κ) : Talks (ch.step .connected) [] :=
  .of_law rfl nofun

theorem Awaits.connecting_step (ch : Channel κ) : Awaits (ch.step .connecting) :=
  ⟨⟨_, rfl, nofun, rfl⟩, rfl⟩

/-- A call of `sendMessage` without a limit. -/
theorem Talks.send (h : Talks ch said) {kernel : SendResult} (hk : RestCopied buffer kernel)
    (sendCompleteCb : SendCompleteCallback κ) :
    Talks (ch.step (.send 0 buffer sendCompleteCb kernel)) (said ++ buffer) := by
  obtain ⟨⟨_ | connection, writeCb⟩, history⟩ := ch
  · exact ⟨h.sent_begins.trans (List.prefix_append _ _), nofun, nofun, h.told⟩
  have hdirect := @sentDirectly_append κ buffer connection kernel hk
  have hlaw := h.law connection rfl
  rcases send_cases connection history kernel writeCb 0 buffer sendCompleteCb rfl with
    ⟨hs, hch⟩ | ⟨hs, errno, hch⟩ | ⟨hs, -, -, hch⟩ | ⟨hs, hremain, hch⟩ <;> rw [hch]
  · refine .of_kept hs ?_ h.told
    simpa using (h.kept connection rfl).trans (List.prefix_append said buffer)
  · refine .of_kept nofun ?_ h.told
    have hsent := @sentDirectly_begins κ buffer connection kernel
    rw [← hlaw hs, List.append_assoc, sentBytes_append, List.append_assoc,
      List.prefix_append_right_inj]
    simpa [TcpConnection.setError] using hsent
  · refine .of_law ?_ nofun
    rw [← hlaw hs, List.append_assoc, ← hdirect]
    simp
  · refine Talks.called (.of_law ?_ h.told) sendCompleteCb
    rw [hremain, List.take_zero, List.append_nil] at hdirect
    rw [← hlaw hs, List.append_assoc, ← hdirect]
    simp

/-- A call of `onSocketWrite`. -/
theorem Talks.write {connection : TcpConnection κ} {history : List (Effect κ)}
    (h : Talks ⟨⟨some connection, .onSocketWrite⟩, history⟩ said) {kernel : SendResult}
    (hk : kernel.Counted) (socketError : Int) :
    Talks (Channel.step ⟨⟨some connection, .onSocketWrite⟩, history⟩
      (.writable kernel socketError)) said := by
  have hsmall := hk.taken connection.writeBuffer.length
  have hsent := List.append_nil (connection.sentBuffered kernel)
  rcases write_cases connection history kernel socketError rfl with
    ⟨hneg, errno, hch⟩ | ⟨hneg, hch⟩ | ⟨n, hn, -, hch⟩ | ⟨n, hn, hrest, hch⟩ <;> rw [hch]
  · have hnil := (sentBuffered_eq_nil_iff hneg).2 hsmall
    exact h.written hsent (by rw [hnil]; rfl) nofun nofun
  · have hnil := (sentBuffered_eq_nil_iff hneg).2 hsmall
    exact h.written hsent (by rw [hnil]; rfl) id nofun
  · exact h.written hsent ((sentBuffered_append_iff hn).2 hsmall) id nofun
  · have hbuffer := (sentBuffered_append_iff hn).2 hsmall
    rw [hrest] at hbuffer
    have hdrained : Talks ⟨⟨some { connection with writeBuffer := [], sendCompleteCb := .null },
        .null⟩, history ++ ([.sent (connection.sentBuffered kernel)] ++
          connection.sendCompleteCb.invocation [])⟩ said := by
      refine h.written ?_ hbuffer id nofun
      rw [sentBytes_append, sentBytes_invocation, List.append_nil]
      exact hsent
    exact hdrained.called _

end Channels

/-! ## The calls of a callback -/

section Calls

variable {m m' m'' : Machine κ} {id : SocketId} {said : List UInt8}

/-- Only the connection `id` is concerned. -/
structure Confined (id : SocketId) (m m' : Machine κ) : Prop where
  maxSize : m'.service.connWriteBufferMaxSize = m.service.connWriteBufferMaxSize
  unread : Unread m.service → Unread m'.service
  others : ∀ c, c ≠ id → m'.view c = m.view c

theorem Confined.refl (id : SocketId) (m : Machine κ) : Confined id m m :=
  ⟨rfl, fun h => h, fun _ _ => rfl⟩

theorem Confined.trans (h : Confined id m m') (h' : Confined id m' m'') : Confined id m m'' where
  maxSize := h'.maxSize.trans h.maxSize
  unread hm := h'.unread (h.unread hm)
  others c hc := (h'.others c hc).trans (h.others c hc)

theorem sendMessage_confined {buffer : List UInt8} {sendCompleteCb : SendCompleteCallback κ}
    {kernel : SendResult} (h : m.sendMessage id buffer sendCompleteCb kernel = some m') :
    Confined id m m' where
  maxSize := sendMessage_maxSize h
  unread hm := unread_sendMessage hm h
  others c hc := by
    rw [(sendMessage_view h).2, if_neg (Ne.symm hc)]
    rfl

theorem sendMessage_talks {buffer : List UInt8} {sendCompleteCb : SendCompleteCallback κ}
    {kernel : SendResult} (hmax : m.service.connWriteBufferMaxSize = 0)
    (ht : Talks (m.view id) said) (hk : RestCopied buffer kernel)
    (h : m.sendMessage id buffer sendCompleteCb kernel = some m') :
    Talks (m'.view id) (said ++ buffer) := by
  rw [(sendMessage_view h).2, if_pos rfl, hmax]
  exact ht.send hk sendCompleteCb

theorem closeSocket_view (c : SocketId) (h : m.step (.closeSocket id) = some m') :
    m'.view c = (m.view c).step (if id = c then .close else .idle) :=
  @view_step κ m m' c (.closeSocket id) trivial h

theorem closeSocket_confined (h : m.step (.closeSocket id) = some m') : Confined id m m' where
  maxSize := by cases h; rfl
  unread hm := unread_step hm h
  others c hc := by
    rw [closeSocket_view c h, if_neg (Ne.symm hc)]
    rfl

theorem closeSocket_talks (hs : sentBytes (m.view id).history <+: said)
    (h : m.step (.closeSocket id) = some m') : Talks (m'.view id) said := by
  rw [closeSocket_view id h, if_pos rfl, step_close]
  exact .closed hs

theorem call_confined {call : Call} {kernel : SendResult} (h : m.call id call kernel = some m') :
    Confined id m m' := by
  cases call with
  | sendMessage buffer closeOnFailure =>
    obtain ⟨m₁, h₁, h⟩ := Option.bind_eq_some_iff.1 h
    split at h
    · exact (sendMessage_confined h₁).trans (closeSocket_confined h)
    · cases h
      exact sendMessage_confined h₁
  | sendMessageThenClose buffer => exact sendMessage_confined h
  | closeSocket => exact closeSocket_confined h

theorem call_talks {call : Call} {kernel : SendResult}
    (hmax : m.service.connWriteBufferMaxSize = 0) (ht : Talks (m.view id) said)
    (hk : RestCopied call.buffer kernel) (h : m.call id call kernel = some m') :
    Talks (m'.view id) (said ++ call.buffer) := by
  cases call with
  | sendMessage buffer closeOnFailure =>
    obtain ⟨m₁, h₁, h⟩ := Option.bind_eq_some_iff.1 h
    have ht₁ := sendMessage_talks hmax ht hk h₁
    split at h
    · exact closeSocket_talks ht₁.sent_begins h
    · cases h
      exact ht₁
  | sendMessageThenClose buffer => exact sendMessage_talks hmax ht hk h
  | closeSocket =>
    rw [Call.buffer, List.append_nil]
    exact closeSocket_talks ht.sent_begins h

theorem calls_confined : ∀ {calls : List Call} {kernels : List SendResult} {m : Machine κ},
    m.calls id calls kernels = some m' → Confined id m m'
  | [], [], _, h => by
    cases h
    exact .refl id _
  | call :: calls, kernel :: kernels, m, h => by
    obtain ⟨m₁, h₁, h⟩ := Option.bind_eq_some_iff.1 h
    exact (call_confined h₁).trans (calls_confined h)
  | [], _ :: _, _, h => by cases h
  | _ :: _, [], _, h => by cases h

/-- **A callback** says what it passes to its calls. -/
theorem calls_talks : ∀ {calls : List Call} {kernels : List SendResult} {m : Machine κ}
    {said : List UInt8}, m.service.connWriteBufferMaxSize = 0 → Talks (m.view id) said →
    Host.Copied calls kernels → m.calls id calls kernels = some m' →
    Talks (m'.view id) (said ++ calls.flatMap Call.buffer)
  | [], [], _, _, _, ht, _, h => by
    cases h
    rw [List.flatMap_nil, List.append_nil]
    exact ht
  | call :: calls, kernel :: kernels, m, said, hmax, ht, hk, h => by
    obtain ⟨m₁, h₁, h⟩ := Option.bind_eq_some_iff.1 h
    obtain ⟨hk₁, hk⟩ := List.forall_mem_cons.1 hk
    have ht₁ := call_talks hmax ht hk₁ h₁
    rw [List.flatMap_cons, ← List.append_assoc]
    exact calls_talks ((call_confined h₁).maxSize.trans hmax) ht₁ hk h
  | [], _ :: _, _, _, _, _, _, h => by cases h
  | _ :: _, [], _, _, _, _, _, h => by cases h

end Calls

/-! ## The events that send nothing new -/

section Quiet

variable {ch : Channel κ} {m m' : Machine κ} {op : Op κ}

/-- Bytes may leave the write buffer, or the status changes. -/
def Channel.Op.Quiet : Channel.Op κ → Prop
  | .idle => True
  | .writable kernel _ => kernel.Counted
  | .peerClose => True
  | .setError _ => True
  | _ => False

/-- What the loop calls, apart from accepting connections. -/
def Op.Quiet : Op κ → Prop
  | .buildListenSocket _ => True
  | .writable _ kernel _ => kernel.Counted
  | .readable _ _ => True
  | .socketError _ _ _ => True
  | .timeout _ => True
  | _ => False

theorem project_quiet (c : SocketId) (hop : op.Quiet) : (m.project c op).Quiet := by
  cases op with
  | buildListenSocket fd => trivial
  | writable id kernel socketError =>
    simp only [Machine.project]
    split
    · exact hop
    · trivial
  | readable id readEnd =>
    simp only [Machine.project]
    split
    · cases readEnd <;> trivial
    · trivial
  | socketError id socketError errno =>
    simp only [Machine.project]
    split <;> trivial
  | timeout timerId =>
    simp only [Machine.project, projectTimeout]
    split
    · trivial
    · split
      · split <;> trivial
      · trivial
  | _ => exact hop.elim

/-- The session of a connection that is being made is new. -/
def Fits (ch : Channel κ) (new s : Session σ) : Prop :=
  Talks ch s.said ∨ Awaits ch ∧ s = new

theorem Fits.sent_begins {new s : Session σ} (h : Fits ch new s) :
    sentBytes ch.history <+: s.said := by
  rcases h with h | ⟨h, -⟩
  · exact h.sent_begins
  · rw [h.silent]
    exact List.nil_prefix

theorem Awaits.refused (h : Awaits ch) (kernel : SendResult) {socketError : Int}
    (hne : socketError ≠ 0) : Awaits (ch.step (.writable kernel socketError)) := by
  obtain ⟨⟨o, writeCb⟩, history⟩ := ch
  obtain ⟨connection, hl, hstatus, hbuffer⟩ := h.connecting
  cases hl
  simp only [Channel.step, Channel.afterConnect, if_pos hne]
  exact ⟨⟨_, rfl, Status.noConfusion, hbuffer⟩, h.silent⟩

theorem Awaits.established (h : Awaits ch) (kernel : SendResult) :
    Talks (ch.step (.writable kernel 0)) [] := by
  obtain ⟨⟨o, writeCb⟩, history⟩ := ch
  obtain ⟨connection, hl, hstatus, hbuffer⟩ := h.connecting
  cases hl
  have hsilent : sentBytes history = [] := h.silent
  simp only [Channel.step, Channel.afterConnect, ne_eq, not_true_eq_false, if_false]
  refine .of_law ?_ WriteCallback.noConfusion
  rw [hsilent]
  exact hbuffer

theorem Talks.quiet {said : List UInt8} {chop : Channel.Op κ} (hop : chop.Quiet)
    (h : Talks ch said) : Talks (ch.step chop) said := by
  obtain ⟨⟨_ | connection, writeCb⟩, history⟩ := ch
  · cases chop with
    | idle | peerClose | setError | writable => exact h
    | _ => exact hop.elim
  cases chop with
  | idle => exact h
  | peerClose =>
    exact @Talks.edit κ said history _ (fun connection => { connection with status := .peerClosed })
      (fun _ => ⟨nofun, rfl⟩) h
  | setError errorCode =>
    exact @Talks.edit κ said history _ (·.setError errorCode) (fun _ => ⟨nofun, rfl⟩) h
  | writable kernel socketError =>
    cases writeCb with
    | null => exact h
    | onAsyncConnectSocketWrite => exact absurd rfl h.told
    | onSocketWrite => exact h.write hop socketError
  | _ => exact hop.elim

theorem Fits.quiet {new s : Session σ} (hnew : new.said = []) {chop : Channel.Op κ}
    (hop : chop.Quiet) (h : Fits ch new s) : Fits (ch.step chop) new s := by
  rcases h with h | ⟨h, rfl⟩
  · exact Or.inl (h.quiet hop)
  cases chop with
  | idle => exact Or.inr ⟨h, rfl⟩
  | peerClose =>
    obtain ⟨⟨_ | connection, writeCb⟩, history⟩ := ch
    · exact Or.inr ⟨h, rfl⟩
    · exact Or.inr ⟨h.edit (f := fun connection => { connection with status := .peerClosed })
        (fun _ => ⟨nofun, rfl⟩), rfl⟩
  | setError errorCode =>
    obtain ⟨⟨_ | connection, writeCb⟩, history⟩ := ch
    · exact Or.inr ⟨h, rfl⟩
    · exact Or.inr ⟨h.edit (f := (·.setError errorCode)) (fun _ => ⟨nofun, rfl⟩), rfl⟩
  | writable kernel socketError =>
    by_cases hzero : socketError = 0
    · subst hzero
      refine Or.inl ?_
      rw [hnew]
      exact h.established kernel
    · exact Or.inr ⟨h.refused kernel hzero, rfl⟩
  | _ => exact hop.elim

end Quiet

namespace Host

section Steps

variable (app : Application σ ι) {P : Session σ → Prop} {h h' : Host σ κ} {id : SocketId}
  {kernels : List SendResult} {op : Op κ}

/-- A property of sessions that the callbacks keep. -/
structure Keeps (app : Application σ ι) (P : Session σ → Prop) : Prop where
  new : P app.session
  greeted : P (app.greet app.session).1
  handed : ∀ input s data, P s → P (app.hand input s (s.readBuffer ++ data)).1

/-- **The invariant.** -/
structure Sound (app : Application σ ι) (P : Session σ → Prop) (h : Host σ κ) : Prop where
  maxSize : h.machine.service.connWriteBufferMaxSize = 0
  unread : Unread h.machine.service
  fits : ∀ c, Fits (h.machine.view c) app.session (h.sessions c)
  kept : ∀ c, P (h.sessions c)

variable {app}

theorem sound_init (hP : Keeps app P) : Sound app P (init app : Host σ κ) where
  maxSize := rfl
  unread := nofun
  fits _ := Or.inl (.closed List.nil_prefix)
  kept _ := hP.new

theorem sound_perform (hh : Sound app P h) {r : Session σ × List Call}
    (ht : Talks (h.machine.view id) (h.sessions id).said)
    (hr : r.1.said = (h.sessions id).said ++ r.2.flatMap Call.buffer) (hP : P r.1)
    (hk : Copied r.2 kernels) (hs : h.perform id r kernels = some h') :
    Sound app P h' ∧ Talks (h'.machine.view id) (h'.sessions id).said := by
  obtain ⟨machine, hcalls, rfl⟩ := Option.map_eq_some_iff.1 hs
  have hconf := calls_confined hcalls
  have htalks := calls_talks hh.maxSize ht hk hcalls
  rw [← hr] at htalks
  have hself : Function.update h.sessions id r.1 id = r.1 := Function.update_self _ _ _
  refine ⟨⟨hconf.maxSize.trans hh.maxSize, hconf.unread hh.unread, ?_, ?_⟩, ?_⟩
  · intro c
    by_cases hc : c = id
    · subst hc
      refine Or.inl ?_
      dsimp only
      rw [hself]
      exact htalks
    · dsimp only
      rw [hconf.others c hc, Function.update_of_ne hc]
      exact hh.fits c
  · intro c
    by_cases hc : c = id
    · subst hc
      dsimp only
      rw [hself]
      exact hP
    · dsimp only
      rw [Function.update_of_ne hc]
      exact hh.kept c
  · dsimp only
    rw [hself]
    exact htalks

theorem sound_closeSocket (hh : Sound app P h) (hs : h.closeSocket id = some h') :
    Sound app P h' := by
  obtain ⟨machine, hstep, rfl⟩ := Option.map_eq_some_iff.1 hs
  have hconf := closeSocket_confined hstep
  refine ⟨hconf.maxSize.trans hh.maxSize, hconf.unread hh.unread, ?_, hh.kept⟩
  intro c
  by_cases hc : c = id
  · subst hc
    exact Or.inl (closeSocket_talks (hh.fits c).sent_begins hstep)
  · dsimp only
    rw [hconf.others c hc]
    exact hh.fits c

/-- What is read is no matter of what the loop guarantees. -/
theorem readable_view {m m' : Machine κ} {readEnd : ReadEnd}
    (hs : m.step (.readable id readEnd) = some m') (c : SocketId) :
    m'.view c = (m.view c).step (m.project c (.readable id readEnd)) := by
  cases hs
  exact view_step_edit (link_onSocketRead _ _ _) (step_projectReadable readEnd)

theorem sound_quiet (hh : Sound app P h) (hop : op.Quiet) {machine : Machine κ}
    (hs : h.machine.step op = some machine)
    (hview : ∀ c, machine.view c = (h.machine.view c).step (h.machine.project c op)) :
    Sound app P { h with machine } where
  maxSize := (step_maxSize (fun size heq => by subst heq; exact hop) hs).trans hh.maxSize
  unread := unread_step hh.unread hs
  fits c := by
    dsimp only
    rw [hview]
    exact (hh.fits c).quiet rfl (project_quiet c hop)
  kept := hh.kept

/-- A connection that has been made is reported once. -/
theorem report_newConnection {m : Machine κ} (h : m.report op = some (id, .newConnection)) :
    ∃ kernel, op = .writable id kernel 0 ∧
      (m.service.link id).writeCb = .onAsyncConnectSocketWrite := by
  cases op with
  | writable i kernel socketError =>
    obtain ⟨r, hr, heq⟩ := Option.map_eq_some_iff.1 h
    cases heq
    obtain ⟨socket, hsock, hr⟩ := Option.bind_eq_some_iff.1 hr
    obtain ⟨connection, -, hr⟩ := Option.bind_eq_some_iff.1 hr
    split at hr
    · cases hr
    · rename_i hcb
      have hzero : socketError = 0 := by
        by_contra hne
        rw [connectReport, if_pos hne] at hr
        cases hr
      subst hzero
      exact ⟨kernel, rfl, (link_of_socket hsock).trans hcb⟩
    · unfold writeReport at hr
      split at hr <;> cases hr
  | readable i readEnd =>
    simp only [Machine.report] at h
    split at h
    · cases readEnd <;> cases h
    · cases h
  | socketError i socketError errno =>
    simp only [Machine.report] at h
    split at h <;> cases h
  | timeout timerId =>
    obtain ⟨i, -, h⟩ := Option.bind_eq_some_iff.1 h
    split at h <;> cases h
  | _ => cases h

theorem sound_event (hh : Sound app P h) (hP : Keeps app P) (hop : op.Quiet)
    (hview : ∀ machine, h.machine.step op = some machine → ∀ c,
      machine.view c = (h.machine.view c).step (h.machine.project c op))
    (hk : ∀ id kernel socketError, op = .writable id kernel socketError →
      Copied (app.greet (h.sessions id)).2 kernels)
    (hs : h.event app op kernels = some h') : Sound app P h' := by
  obtain ⟨machine, hstep, htold⟩ := Option.bind_eq_some_iff.1 hs
  have hview := hview machine hstep
  have hquiet := sound_quiet hh hop hstep hview
  split at htold
  · cases htold
    exact hquiet
  · rename_i id report hreport
    cases report with
    | peerClose => exact sound_closeSocket hquiet htold
    | error => exact sound_closeSocket hquiet htold
    | newConnection =>
      obtain ⟨kernel, rfl, hcb⟩ := report_newConnection hreport
      rcases hh.fits id with ht | ⟨ha, hnew⟩
      · exact absurd hcb ht.told
      have ht := ha.established kernel
      have hview := hview id
      rw [Machine.project, if_pos rfl] at hview
      refine (sound_perform hquiet ?_ rfl ?_ (hk id kernel 0 rfl) htold).1
      · rw [hview, hnew]
        exact ht
      · rw [hnew]
        exact hP.greeted

/-- A step that opens a connection. -/
theorem sound_opened (hh : Sound app P h) (hP : Keeps app P) (hE : h.machine.Enabled op)
    {chop : Channel.Op κ} (hsize : ∀ size, op ≠ .setSendBufferMaxSize size)
    (hproject : ∀ c, h.machine.project c op =
      if h.machine.opens op = some c then chop else .idle)
    (hchop : ∀ ch : Channel κ, Fits (ch.step chop) app.session app.session)
    (hs : h.opened app op = some h') :
    Sound app P h' ∧ ∀ c, h.machine.opens op = some c → h'.sessions c = app.session ∧
      h'.machine.view c = (h.machine.view c).step chop := by
  obtain ⟨machine, hstep, rfl⟩ := Option.map_eq_some_iff.1 hs
  have hmax := (step_maxSize hsize hstep).trans hh.maxSize
  have hunread := unread_step hh.unread hstep
  have hview : ∀ c, machine.view c = (h.machine.view c).step
      (if h.machine.opens op = some c then chop else .idle) := by
    intro c
    rw [← hproject c]
    exact view_step hE hstep
  cases hopens : h.machine.opens op with
  | none =>
    refine ⟨⟨hmax, hunread, fun c => ?_, hh.kept⟩, nofun⟩
    dsimp only
    rw [hview, hopens, if_neg nofun]
    exact hh.fits c
  | some id =>
    have hother : ∀ c, c ≠ id → machine.view c = h.machine.view c := by
      intro c hc
      rw [hview, hopens, if_neg fun heq => hc (Option.some.inj heq).symm]
      rfl
    have hself : machine.view id = (h.machine.view id).step chop := by
      rw [hview, hopens, if_pos rfl]
    have hnew : Function.update h.sessions id app.session id = app.session :=
      Function.update_self _ _ _
    refine ⟨⟨hmax, hunread, fun c => ?_, fun c => ?_⟩, ?_⟩
    · dsimp only
      by_cases hc : c = id
      · subst hc
        rw [hself, hnew]
        exact hchop _
      · rw [hother c hc, Function.update_of_ne hc]
        exact hh.fits c
    · dsimp only
      by_cases hc : c = id
      · subst hc
        rw [hnew]
        exact hP.new
      · rw [Function.update_of_ne hc]
        exact hh.kept c
    · rintro c ⟨⟩
      exact ⟨hnew, hself⟩

theorem sound_connect (hh : Sound app P h) (hP : Keeps app P) {fd : Int}
    (hs : h.opened app (.buildConnectedSocket fd) = some h') :
    Sound app P h' ∧ ∀ c, h.machine.service.newSocketId fd = some c →
      h'.sessions c = app.session ∧ Talks (h'.machine.view c) [] := by
  obtain ⟨hsound, hnew⟩ := @sound_opened σ ι κ app P h h' (.buildConnectedSocket fd) hh hP trivial
    .connected nofun (fun _ => rfl) (fun ch => Or.inl (.connected ch)) hs
  refine ⟨hsound, fun c hc => ⟨(hnew c hc).1, ?_⟩⟩
  rw [(hnew c hc).2]
  exact .connected _

/-- What the loop of `onSocketRead` leaves in front of the read buffer. -/
theorem readLoop_extends {maxSize : Nat} : ∀ {turns : List Turn} {readBuffer : List UInt8}
    {dataArrive : Bool} {r : List UInt8 × Bool × ReadEnd},
    readLoop maxSize turns readBuffer dataArrive = some r → ∃ data, r.1 = readBuffer ++ data
  | [], _, _, _, hr => by cases hr
  | turn :: turns, readBuffer, dataArrive, r, hr => by
    unfold readLoop at hr
    split at hr
    · split at hr <;> cases hr
      exact ⟨[], (List.append_nil _).symm⟩
    split at hr
    · cases hr
    split at hr
    · rename_i bytes _
      obtain ⟨data, hdata⟩ := readLoop_extends hr
      exact ⟨bytes ++ data, by rw [hdata, List.append_assoc]⟩
    · split at hr
      · cases hr
      · split at hr <;> cases hr <;> exact ⟨[], (List.append_nil _).symm⟩
    · split at hr <;> cases hr
      exact ⟨[], (List.append_nil _).symm⟩

theorem sound_readable (hh : Sound app P h) (hP : Keeps app P) {turns : List Turn} {input : ι}
    (hE : h.Enabled (.readable id turns input kernels))
    (hk : h.Faithful app (.readable id turns input kernels))
    (hs : h.onSocketRead app id turns input kernels = some h') : Sound app P h' := by
  unfold onSocketRead at hs
  split at hs
  · cases hs
    exact hh
  obtain ⟨⟨readBuffer, dataArrive, readEnd⟩, hloop, hs⟩ := Option.bind_eq_some_iff.1 hs
  have hquiet : ∀ {g : Host σ κ} (readEnd : ReadEnd), Sound app P g →
      g.event app (.readable id readEnd) [] = some h' → Sound app P h' := fun readEnd hg =>
    sound_event hg hP trivial (fun machine hstep => readable_view hstep) nofun
  have hready : Talks (h.machine.view id) (h.sessions id).said := by
    rcases hh.fits id with ht | ⟨ha, -⟩
    · exact ht
    · obtain ⟨socket, hsock, -, hread⟩ := hE
      obtain ⟨connection, hl, -, -⟩ := ha.connecting
      have hcb := link_of_socket hsock
      have hnull := hh.unread id socket hsock (hcb.symm.trans (congrArg Link.writeCb hl))
      rw [hread] at hnull
      cases hnull
  obtain ⟨data, hdata⟩ := readLoop_extends hloop
  have hhanded : ∀ g : Host σ κ, (if dataArrive then h.onRecvMessage app id input readBuffer kernels
      else some h) = some g → Sound app P g := by
    intro g hg
    split at hg
    · refine (sound_perform hh hready rfl ?_ (hk _ hloop) hg).1
      have hbuffer : readBuffer = (h.sessions id).readBuffer ++ data := hdata
      rw [hbuffer]
      exact hP.handed _ _ _ (hh.kept id)
    · cases hg
      exact hh
  cases readEnd with
  | failed errno => exact hquiet (.failed errno) hh hs
  | drained =>
    obtain ⟨g, hg, hs⟩ := Option.bind_eq_some_iff.1 hs
    exact hquiet .drained (hhanded g hg) hs
  | peerClose =>
    obtain ⟨g, hg, hs⟩ := Option.bind_eq_some_iff.1 hs
    exact hquiet .peerClose (hhanded g hg) hs

theorem sound_asyncConnect (hh : Sound app P h) (hP : Keeps app P) {fd timeoutMs : Int}
    (hs : h.opened app (.buildAsyncConnectSocket fd timeoutMs) = some h') : Sound app P h' :=
  (@sound_opened σ ι κ app P h h' (.buildAsyncConnectSocket fd timeoutMs) hh hP trivial
    .connecting nofun (fun _ => rfl) (fun ch => Or.inr ⟨.connecting_step ch, rfl⟩) hs).1

theorem sound_accept (hh : Sound app P h) (hP : Keeps app P) {fd : Int}
    (hk : Copied (app.greet app.session).2 kernels)
    (hs : h.step app (.accept fd kernels) = some h') : Sound app P h' := by
  simp only [step] at hs
  obtain ⟨g, hg, hs⟩ := Option.bind_eq_some_iff.1 hs
  obtain ⟨hsound, hnew⟩ := sound_connect hh hP hg
  split at hs
  · cases hs
    exact hsound
  · rename_i id hid
    obtain ⟨hsession, ht⟩ := hnew id hid
    unfold onNewConnection at hs
    rw [hsession] at hs
    refine (sound_perform hsound ?_ ?_ hP.greeted hk hs).1
    · rw [hsession]
      exact ht
    · rw [hsession]
      rfl

/-- **A step of the host** keeps the invariant. -/
theorem sound_step {e : Event ι} (hh : Sound app P h) (hP : Keeps app P) (hE : h.Enabled e)
    (hk : h.Faithful app e) (hs : h.step app e = some h') : Sound app P h' := by
  cases e with
  | listen fd =>
    simp only [step] at hs
    obtain ⟨machine, hstep, rfl⟩ := Option.map_eq_some_iff.1 hs
    refine sound_quiet hh ?_ hstep fun c => view_step ?_ hstep <;> trivial
  | accept fd kernels => exact sound_accept hh hP hk hs
  | connect fd => exact (sound_connect hh hP hs).1
  | asyncConnect fd timeoutMs => exact sound_asyncConnect hh hP hs
  | readable id turns input kernels => exact sound_readable hh hP hE hk hs
  | writable id kernel socketError kernels =>
    refine sound_event hh hP ?_ (fun machine hstep c => view_step ?_ hstep) ?_ hs
    · exact hk.1
    · exact hE
    · rintro i kernel' socketError' ⟨⟩
      exact hk.2
  | socketError id socketError errno =>
    refine sound_event hh hP ?_ (fun machine hstep c => view_step ?_ hstep) ?_ hs
    · trivial
    · exact hE
    · rintro _ _ _ ⟨⟩
  | timeout timerId =>
    refine sound_event hh hP ?_ (fun machine hstep c => view_step ?_ hstep) ?_ hs
    · trivial
    · exact hE
    · rintro _ _ _ ⟨⟩

end Steps

/-! ## Runs -/

section Run

variable {app : Application σ ι} {P : Session σ → Prop} {h : Host σ κ} {events : List (Event ι)}

/-- The state that events lead to, while the loop keeps to what it guarantees. -/
def Reached (app : Application σ ι) (events : List (Event ι)) (h : Host σ κ) : Prop :=
  EachStep (step app) (fun h e => h.Enabled e) (init app : Host σ κ) events ∧
    run (step app) (init app) events = some h

theorem along_sound (hP : Keeps app P)
    (hE : EachStep (step app) (fun h e => h.Enabled e) (init app : Host σ κ) events)
    (hk : EachStep (step app) (fun h e => h.Faithful app e) (init app : Host σ κ) events) :
    Along (step app) (Sound app P) (init app : Host σ κ) events :=
  along_of_eachStep (fun _ _ _ hh he hs => sound_step hh hP he.1 he.2 hs) (sound_init hP)
    (hE.and hk)

theorem Reached.sound (hP : Keeps app P) (hh : Reached app events h)
    (hk : EachStep (step app) (fun h e => h.Faithful app e) (init app : Host σ κ) events) :
    Sound app P h :=
  (along_sound hP hh.1 hk).last hh.2

/-- **The invariant rule** for what an application has of its connections. -/
theorem session_reached (hP : Keeps app P) (hh : Reached app events h)
    (hk : EachStep (step app) (fun h e => h.Faithful app e) (init app : Host σ κ) events)
    (c : SocketId) : P (h.sessions c) :=
  (hh.sound hP hk).kept c

/-- The kernel has been given the beginning of what the application has said on the connection,
and on one that is connected the rest is in the write buffer. -/
structure Streams (c : SocketId) (h : Host σ κ) : Prop where
  sent_begins : sentBytes (h.machine.history c) <+: (h.sessions c).said
  connected : ∀ connection, h.machine.service.connections c = some connection →
    connection.status = .connected →
    sentBytes (h.machine.history c) ++ connection.writeBuffer = (h.sessions c).said

/-- **What an application says** is what the kernel is given, on every connection, as long as the
direct sends copy the bytes that are left. -/
theorem application_stream (hh : Reached app events h)
    (hk : EachStep (step app) (fun h e => h.Faithful app e) (init app : Host σ κ) events)
    (c : SocketId) : h.Streams c := by
  have hP : Keeps app fun _ => True := ⟨trivial, trivial, fun _ _ _ _ => trivial⟩
  have hfits := (hh.sound hP hk).fits c
  refine ⟨hfits.sent_begins, fun connection hc hs => ?_⟩
  rcases hfits with ht | ⟨ha, -⟩
  · exact ht.law connection hc hs
  · obtain ⟨k, hl, hstatus, -⟩ := ha.connecting
    have hk : h.machine.service.connections c = some k := congrArg Link.connection hl
    cases hc.symm.trans hk
    exact absurd hs hstatus

end Run

end Host

end TcpService

end Brickred
