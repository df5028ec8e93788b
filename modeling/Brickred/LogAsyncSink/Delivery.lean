import Mathlib.Data.List.ReduceOption
import Brickred.Lib.Custody
import Brickred.LogAsyncSink.Model

/-!
# What the adapted sink receives

* `Inv`, `step_inv` — every buffer has one holder; a thread in `log` finds in its buffer what it
  has put there; what was pushed is what the sink has received and what is on its way, in order;
  `NULL` comes last.
* `sink_delivers` — every interleaving.
-/

set_option autoImplicit false

namespace Brickred

namespace LogAsyncSink

variable {ι : Type}

/-! ## The invariant -/

/-- What is in the buffer of a thread in `log`. -/
def Logger.Ready (heap : Address → DynamicBuffer) : Logger → Prop
  | .outside => True
  | .gotObject b _ | .reserved b _ => (heap b).readable = []
  | .copied b bytes => ((heap b).write bytes.length).readable = bytes
  | .written b bytes => (heap b).readable = bytes

/-- What is in the buffer of the log thread. -/
def LogThread.Ready (heap : Address → DynamicBuffer) : LogThread → Prop
  | .returning b => (heap b).readable = []
  | _ => True

theorem Logger.Ready.congr {heap heap' : Address → DynamicBuffer} {l : Logger} (h : l.Ready heap)
    (hsame : ∀ b ∈ l.buffers, heap' b = heap b) : l.Ready heap' := by
  cases l with
  | outside => trivial
  | gotObject b bytes | reserved b bytes | copied b bytes | written b bytes =>
    simp only [Ready, hsame b (List.mem_singleton.2 rfl)] at h ⊢
    exact h

theorem LogThread.Ready.congr {heap heap' : Address → DynamicBuffer} {t : LogThread}
    (h : t.Ready heap) (hsame : ∀ b ∈ t.buffers, heap' b = heap b) : t.Ready heap' := by
  cases t with
  | returning b =>
    simp only [Ready, hsame b (List.mem_singleton.2 rfl)] at h ⊢
    exact h
  | popping | logging b | reading b | exited => trivial

/-- `NULL` is in the queue or has been there. -/
def Destructor.HasPushed (d : Destructor) : Prop := d = .joining ∨ d = .joined

namespace Machine

/-- The item of the `push` a thread is in. -/
def offer (m : Machine ι) : Thread ι → Option (Option Address)
  | .logger i => (m.loggers i).offer
  | .log => none
  | .destructor => if m.destructor = .pushing then some none else none

/-- The buffers the adapted sink has not seen, in the order in which it will. -/
def unseen (m : Machine ι) : List Address :=
  m.logThread.unseen ++ m.self.queue.queue.reduceOption

/-- What a holder finds in its buffers. -/
def Content (m : Machine ι) (heap : Address → DynamicBuffer) : Holder ι → Prop
  | .pool => ∀ b ∈ m.self.pool.reusedObjectList, (heap b).readable = []
  | .logger i => (m.loggers i).Ready heap
  | .queue => True
  | .logThread => m.logThread.Ready heap

theorem Content.congr {m : Machine ι} {heap heap' : Address → DynamicBuffer} {h : Holder ι}
    (hc : m.Content heap h) (hsame : ∀ b ∈ m.held h, heap' b = heap b) : m.Content heap' h := by
  cases h with
  | pool =>
    intro b hb
    rw [hsame b hb]
    exact hc b hb
  | logger i => exact Logger.Ready.congr hc hsame
  | queue => trivial
  | logThread => exact LogThread.Ready.congr hc hsame

structure Inv [DecidableEq ι] (m : Machine ι) : Prop where
  custody : Custody m.held (· < m.allocated)
  content : ∀ h, m.Content m.heap h
  offered : ∀ t x, m.self.queue.pushing t = some x → m.offer t = some x
  delivered : m.received ++ m.unseen.map (fun b => (m.heap b).readable) = m.pushed.map Prod.snd
  calls : ∀ i, (m.pushed.filter (·.1 = i)).map Prod.snd ++ (m.loggers i).pending = m.calls i
  quiet : m.destructor ≠ .notStarted → ∀ i, m.loggers i = .outside
  /-- until the log thread has popped it, `NULL` is the last item -/
  last : m.logThread ≠ .exited → ∃ bs : List Address,
    (¬ m.destructor.HasPushed ∧ m.self.queue.queue = bs.map some) ∨
      (m.destructor.HasPushed ∧ m.self.queue.queue = bs.map some ++ [none])
  exited : m.logThread = .exited → m.destructor.HasPushed ∧ m.self.queue.queue = []
  joined : m.destructor = .joined → m.logThread = .exited

theorem init_inv [DecidableEq ι] (queueSize : Nat) : (init queueSize : Machine ι).Inv where
  custody := by
    refine ⟨fun h => ?_, fun b hb => absurd hb (Nat.not_lt_zero b), fun h b hb => ?_⟩
    · cases h <;> exact List.nodup_nil
    · cases h <;> cases hb
  content := fun h => by
    cases h with
    | pool => exact fun b hb => absurd hb List.not_mem_nil
    | logger i | queue | logThread => trivial
  offered := fun t x hx => by cases hx
  delivered := rfl
  calls := fun _ => rfl
  quiet := fun h => absurd rfl h
  last := fun _ => ⟨[], .inl ⟨fun h => h.elim Destructor.noConfusion Destructor.noConfusion, rfl⟩⟩
  exited := fun h => LogThread.noConfusion h
  joined := fun h => Destructor.noConfusion h

/-! ## Buffers -/

section Buffers

variable [DecidableEq ι] {m : Machine ι}

theorem ready_update {loggers : ι → Logger} {heap : Address → DynamicBuffer} {i : ι} {l : Logger}
    (hl : l.Ready heap) (hother : ∀ j, j ≠ i → (loggers j).Ready heap) (j : ι) :
    (Function.update loggers i l j).Ready heap :=
  (Function.forall_update_iff loggers fun _ l => l.Ready heap).2 ⟨hl, hother⟩ j

/-- What a holder does to its buffer, the other holders do not see. -/
theorem Inv.frame (hm : m.Inv) {h k : Holder ι} {b x : Address} (hb : b ∈ m.held h)
    (hx : x ∈ m.held k) (hne : k ≠ h) (d : DynamicBuffer) :
    Function.update m.heap b d x = m.heap x := by
  refine Function.update_of_ne ?_ d m.heap
  rintro rfl
  exact hne (hm.custody.eq_of_mem hx hb)

omit [DecidableEq ι] in
theorem unseen_held {b : Address} (hb : b ∈ m.unseen) :
    b ∈ m.held .logThread ∨ b ∈ m.held .queue := by
  refine (List.mem_append.1 hb).imp_left fun hmem => ?_
  change b ∈ m.logThread.buffers
  cases ht : m.logThread with
  | logging c =>
    rw [ht] at hmem
    exact hmem
  | popping | reading c | returning c | exited =>
    rw [ht] at hmem
    cases hmem

theorem Inv.frame_unseen (hm : m.Inv) {i : ι} {b x : Address} (hb : b ∈ m.held (.logger i))
    (hx : x ∈ m.unseen) (d : DynamicBuffer) : Function.update m.heap b d x = m.heap x := by
  obtain hx | hx := unseen_held hx
  · exact hm.frame hb hx nofun d
  · exact hm.frame hb hx nofun d

/-- While a thread has nothing on offer, what the others offer is all that is offered. -/
theorem Inv.offered_setLogger (hm : m.Inv) {i : ι} (l : Logger) (hi : (m.loggers i).offer = none)
    (t : Thread ι) (x : Option Address) (hx : m.self.queue.pushing t = some x) :
    (m.setLogger i l).offer t = some x := by
  cases t with
  | log | destructor => exact hm.offered _ x hx
  | logger j =>
    refine (Function.forall_update_iff m.loggers fun j l =>
      ∀ x, m.self.queue.pushing (.logger j) = some x → l.offer = some x).2
      ⟨fun x hx => ?_, fun j _ => hm.offered (.logger j)⟩ j x hx
    have hold : (m.loggers i).offer = some x := hm.offered (.logger i) x hx
    rw [hi] at hold
    cases hold

/-- Between its push and its wait the destructor has nothing on offer. -/
theorem Inv.offered_destructor (hm : m.Inv) (hd : m.destructor ≠ .pushing) (d : Destructor)
    (t : Thread ι) (x : Option Address) (hx : m.self.queue.pushing t = some x) :
    offer { m with destructor := d } t = some x := by
  cases t with
  | logger j => exact hm.offered (.logger j) x hx
  | log => exact hm.offered .log x hx
  | destructor =>
    have hold : m.offer .destructor = some x := hm.offered .destructor x hx
    rw [offer, if_neg hd] at hold
    cases hold

/-- What the adapted sink will see stays the same, with the buffers that hold it. -/
theorem Inv.delivered_congr (hm : m.Inv) {bs : List Address} (hbs : bs = m.unseen) :
    m.received ++ bs.map (fun b => (m.heap b).readable) = m.pushed.map Prod.snd := by
  rw [hbs]
  exact hm.delivered

theorem Inv.not_joined (hm : m.Inv) (ht : m.logThread ≠ .exited) : m.destructor ≠ .joined :=
  fun hd => ht (hm.joined hd)

/-- A thread in `log` works on its buffer. -/
theorem Inv.work (hm : m.Inv) {i : ι} {b : Address} {l₀ l : Logger} (d : DynamicBuffer)
    (hi : m.loggers i = l₀) (hb : l₀.buffers = [b]) (hoffer : l₀.offer = none)
    (hl : l.buffers = [b]) (hpending : l.pending = l₀.pending)
    (hready : l.Ready (Function.update m.heap b d)) :
    ((m.setBuffer b d).setLogger i l).Inv := by
  subst hi
  have hmine : b ∈ m.held (.logger i) := by
    change b ∈ (m.loggers i).buffers
    rw [hb]
    exact List.mem_singleton.2 rfl
  have houtside : m.loggers i ≠ .outside := fun h => by rw [h] at hb; cases hb
  refine { hm with
    custody := hm.custody.congr (fun h => ?_) fun _ => Iff.rfl
    content := fun h => ?_
    offered := hm.offered_setLogger l hoffer
    delivered := ?_
    calls := fun j => ?_
    quiet := fun hd => absurd (hm.quiet hd i) houtside }
  · cases h with
    | pool | queue | logThread => rfl
    | logger j =>
      exact (Function.forall_update_iff m.loggers
        fun j l => l.buffers = (m.loggers j).buffers).2 ⟨hl.trans hb.symm, fun _ _ => rfl⟩ j
  · have hother : ∀ h, h ≠ .logger i → m.Content (Function.update m.heap b d) h := fun h hne =>
      (hm.content h).congr fun x hx => hm.frame hmine hx hne d
    cases h with
    | pool => exact hother .pool nofun
    | queue => trivial
    | logThread => exact hother .logThread nofun
    | logger j =>
      exact ready_update hready (fun j hj => hother (.logger j) fun h => hj (Holder.logger.inj h)) j
  · refine (congrArg (m.received ++ ·) (List.map_congr_left fun x hx => ?_)).trans hm.delivered
    exact congrArg _ (hm.frame_unseen hmine hx d)
  · refine (Function.forall_update_iff m.loggers fun j l =>
      (m.pushed.filter (·.1 = j)).map Prod.snd ++ l.pending = m.calls j).2
        ⟨?_, fun j _ => hm.calls j⟩ j
    rw [hpending]
    exact hm.calls i

theorem reserve_inv (hm : m.Inv) {i : ι} {b : Address} {bytes : List UInt8} {d : DynamicBuffer}
    (hi : m.loggers i = .gotObject b bytes)
    (hd : (m.heap b).reserveWritableBytes bytes.length = some d) :
    ((m.setBuffer b d).setLogger i (.reserved b bytes)).Inv := by
  refine hm.work d hi rfl rfl rfl rfl ?_
  have hready : (m.loggers i).Ready m.heap := hm.content (.logger i)
  rw [hi] at hready
  change (Function.update m.heap b d b).readable = []
  rw [Function.update_self, DynamicBuffer.reserve_readable hd]
  exact hready

theorem memcpy_inv (hm : m.Inv) {i : ι} {b : Address} {bytes : List UInt8} {d : DynamicBuffer}
    (hi : m.loggers i = .reserved b bytes) (hd : (m.heap b).store 0 bytes = some d) :
    ((m.setBuffer b d).setLogger i (.copied b bytes)).Inv := by
  refine hm.work d hi rfl rfl rfl rfl ?_
  have hready : (m.loggers i).Ready m.heap := hm.content (.logger i)
  rw [hi] at hready
  change ((Function.update m.heap b d b).write bytes.length).readable = bytes
  rw [Function.update_self, DynamicBuffer.store_readable hd, show (m.heap b).readable = [] from hready]
  rfl

theorem write_inv (hm : m.Inv) {i : ι} {b : Address} {bytes : List UInt8}
    (hi : m.loggers i = .copied b bytes) :
    ((m.setBuffer b ((m.heap b).write bytes.length)).setLogger i (.written b bytes)).Inv := by
  refine hm.work _ hi rfl rfl rfl rfl ?_
  have hready : (m.loggers i).Ready m.heap := hm.content (.logger i)
  rw [hi] at hready
  change (Function.update m.heap b _ b).readable = bytes
  rw [Function.update_self]
  exact hready

/-- A buffer of the pool comes to a thread that calls `log`. -/
theorem Inv.take (hm : m.Inv) {i : ι} {bs : List Address} {b : Address} (bytes : List UInt8)
    (hpool : m.self.pool = ⟨bs ++ [b]⟩) (hi : m.loggers i = .outside)
    (hd : m.destructor = .notStarted) :
    (({ m with calls := Function.update m.calls i (m.calls i ++ [bytes]) }.setPool ⟨bs⟩).setLogger i
      (.gotObject b bytes)).Inv := by
  have hlist : m.self.pool.reusedObjectList = bs ++ [b] := by rw [hpool]
  have hempty : ∀ x ∈ m.self.pool.reusedObjectList, (m.heap x).readable = [] := hm.content .pool
  rw [hlist] at hempty
  refine { hm with
    custody := hm.custody.move .pool (.logger i) (a := b) nofun ?_ ?_ fun h hpool hne => ?_
    content := fun h => ?_
    offered := hm.offered_setLogger _ (by rw [hi]; rfl)
    calls := fun j => ?_
    quiet := fun h => absurd hd h }
  · change (m.self.pool.reusedObjectList).Perm (b :: bs)
    rw [hlist]
    exact List.perm_append_singleton b bs
  · change (Function.update m.loggers i (.gotObject b bytes) i).buffers.Perm
      (b :: (m.loggers i).buffers)
    rw [Function.update_self, hi]
    exact List.Perm.refl _
  · cases h with
    | pool => exact absurd rfl hpool
    | queue | logThread => rfl
    | logger j =>
      exact congrArg Logger.buffers (Function.update_of_ne (fun h => hne (congrArg _ h)) _ _)
  · cases h with
    | pool => exact fun x hx => hempty x (List.mem_append_left _ hx)
    | queue => trivial
    | logThread => exact hm.content .logThread
    | logger j =>
      have hb : (Logger.gotObject b bytes).Ready m.heap :=
        hempty b (List.mem_append_right _ (List.mem_singleton.2 rfl))
      exact ready_update hb (fun j _ => hm.content (.logger j)) j
  · have hcalls := hm.calls j
    change (m.pushed.filter (·.1 = j)).map Prod.snd ++
        (Function.update m.loggers i (.gotObject b bytes) j).pending =
      Function.update m.calls i (m.calls i ++ [bytes]) j
    by_cases hj : j = i
    · subst hj
      rw [hi, Logger.pending, List.append_nil] at hcalls
      rw [Function.update_self, Function.update_self, hcalls, Logger.pending]
    · rw [Function.update_of_ne hj, Function.update_of_ne hj]
      exact hcalls

/-- A new buffer, seen as one that was in the pool. -/
theorem Inv.newObject (hm : m.Inv) (hpool : m.self.pool = ⟨[]⟩) :
    (m.newObject.setPool ⟨[m.allocated]⟩).Inv := by
  have hsame : ∀ h, ∀ x ∈ m.held h,
      Function.update m.heap m.allocated (.new 1024 1024) x = m.heap x := fun h x hx =>
    Function.update_of_ne (Nat.ne_of_lt (hm.custody.live_of_mem h x hx)) _ _
  have hcustody : Custody (m.newObject.setPool ⟨[m.allocated]⟩).held _ :=
    hm.custody.create (a := m.allocated) (h := .pool) (Nat.lt_irrefl _) ?_ fun h hne => ?_
  · refine { hm with
      custody := hcustody.congr (fun _ => rfl) fun x => Nat.lt_succ_iff_lt_or_eq.trans or_comm
      content := fun h => ?_
      delivered := ?_ }
    · cases h with
      | pool =>
        intro x hx
        obtain rfl := List.mem_singleton.1 hx
        change (Function.update m.heap m.allocated (.new 1024 1024) m.allocated).readable = []
        rw [Function.update_self]
        rfl
      | logger i => exact (hm.content (.logger i)).congr (hsame (.logger i))
      | queue => trivial
      | logThread => exact (hm.content .logThread).congr (hsame .logThread)
    · refine (congrArg (m.received ++ ·) (List.map_congr_left fun x hx => ?_)).trans hm.delivered
      obtain hx | hx := unseen_held (m := m) hx
      · exact congrArg _ (hsame _ x hx)
      · exact congrArg _ (hsame _ x hx)
  · change [m.allocated].Perm (m.allocated :: m.self.pool.reusedObjectList)
    rw [hpool]
  · cases h with
    | pool => exact absurd rfl hne
    | logger i | queue | logThread => rfl

theorem getObject_inv (hm : m.Inv) {i : ι} (bytes : List UInt8) (hi : m.loggers i = .outside)
    (hd : m.destructor = .notStarted) : (m.getObject i bytes).Inv := by
  unfold getObject ObjectPool.getObject
  dsimp only
  cases hlast : m.self.pool.reusedObjectList.getLast? with
  | some b =>
    have hlist := List.dropLast_append_getLast? b hlast
    exact hm.take bytes (congrArg ObjectPool.mk hlist.symm) hi hd
  | none =>
    have hpool : m.self.pool = ⟨[]⟩ := congrArg ObjectPool.mk (List.getLast?_eq_none_iff.1 hlast)
    have hnew : (m.newObject.setPool ⟨[m.allocated]⟩).self.pool = ⟨[] ++ [m.allocated]⟩ := rfl
    have htake := (hm.newObject hpool).take bytes (i := i) hnew hi hd
    rw [hpool]
    exact htake

/-- A turn in which the queue itself does not change. -/
theorem Inv.wait (hm : m.Inv) {queue : ConcurrentQueue (Thread ι) (Option Address)}
    (hqueue : queue.queue = m.self.queue.queue)
    (hoffered : ∀ t x, queue.pushing t = some x → m.offer t = some x) : (m.setQueue queue).Inv := by
  have hheld : ∀ h, (m.setQueue queue).held h = m.held h := fun h => by
    cases h with
    | queue => exact congrArg List.reduceOption hqueue
    | pool | logger i | logThread => rfl
  have hunseen : (m.setQueue queue).unseen = m.unseen :=
    congrArg (m.logThread.unseen ++ ·) (congrArg List.reduceOption hqueue)
  refine { hm with
    custody := hm.custody.congr hheld fun _ => Iff.rfl
    content := fun h => ?_
    offered := hoffered
    delivered := ?_
    last := fun h => ?_
    exited := fun h => ⟨(hm.exited h).1, hqueue.trans (hm.exited h).2⟩ }
  · cases h with
    | pool => exact hm.content .pool
    | logger i => exact hm.content (.logger i)
    | queue => trivial
    | logThread => exact hm.content .logThread
  · rw [hunseen]
    exact hm.delivered
  · change ∃ bs : List Address, (_ ∧ queue.queue = _) ∨ (_ ∧ queue.queue = _)
    rw [hqueue]
    exact hm.last h

/-- The buffer of a thread in `log` goes into the queue. -/
theorem Inv.handOver (hm : m.Inv) {queue : ConcurrentQueue (Thread ι) (Option Address)} {i : ι}
    {b : Address} {bytes : List UInt8} (hi : m.loggers i = .written b bytes)
    (hqueue : queue.queue = m.self.queue.queue ++ [some b])
    (hpushing : queue.pushing = Function.update m.self.queue.pushing (.logger i) none) :
    Inv { (m.setQueue queue).setLogger i .outside with pushed := m.pushed ++ [(i, bytes)] } := by
  have hd : m.destructor = .notStarted := by
    by_contra hne
    rw [hm.quiet hne i] at hi
    cases hi
  have hnot : ¬ m.destructor.HasPushed := by
    rw [hd]
    exact fun h => h.elim Destructor.noConfusion Destructor.noConfusion
  have hreduce : queue.queue.reduceOption = m.self.queue.queue.reduceOption ++ [b] := by
    rw [hqueue, List.reduceOption_append]
    rfl
  have hbytes : (m.heap b).readable = bytes := by
    have hready : (m.loggers i).Ready m.heap := hm.content (.logger i)
    rwa [hi] at hready
  refine { hm with
    custody := hm.custody.move (.logger i) .queue (a := b) nofun ?_ ?_ fun h hne hqueue => ?_
    content := fun h => ?_
    offered := fun t x hx => ?_
    delivered := ?_
    calls := fun j => ?_
    quiet := fun h => absurd hd h
    last := fun h => ?_
    exited := fun h => absurd (hm.exited h).1 hnot }
  · change (m.loggers i).buffers.Perm (b :: (Function.update m.loggers i .outside i).buffers)
    rw [Function.update_self, hi]
    exact List.Perm.refl _
  · change queue.queue.reduceOption.Perm (b :: m.self.queue.queue.reduceOption)
    rw [hreduce]
    exact List.perm_append_singleton _ _
  · cases h with
    | queue => exact absurd rfl hqueue
    | pool | logThread => rfl
    | logger j =>
      exact congrArg Logger.buffers (Function.update_of_ne (fun h => hne (congrArg _ h)) _ _)
  · cases h with
    | pool => exact hm.content .pool
    | queue => trivial
    | logThread => exact hm.content .logThread
    | logger j =>
      exact ready_update (l := .outside) trivial (fun j _ => hm.content (.logger j)) j
  · change queue.pushing t = some x at hx
    rw [hpushing] at hx
    cases t with
    | log | destructor => exact hm.offered _ x hx
    | logger j =>
      by_cases hj : j = i
      · rw [hj, Function.update_self] at hx
        cases hx
      · rw [Function.update_of_ne (fun h => hj (Thread.logger.inj h))] at hx
        exact (congrArg Logger.offer (Function.update_of_ne hj _ _)).trans (hm.offered _ x hx)
  · change m.received ++ (m.logThread.unseen ++ queue.queue.reduceOption).map
      (fun b => (m.heap b).readable) = _
    calc m.received ++ (m.logThread.unseen ++ queue.queue.reduceOption).map _
      _ = (m.received ++ m.unseen.map fun b => (m.heap b).readable) ++ [bytes] := by
        rw [hreduce, ← List.append_assoc, List.map_append, List.map_singleton, hbytes,
          ← List.append_assoc]
        rfl
      _ = (m.pushed ++ [(i, bytes)]).map Prod.snd := by
        rw [hm.delivered, List.map_append, List.map_singleton]
  · have hcalls := hm.calls j
    change ((m.pushed ++ [(i, bytes)]).filter (·.1 = j)).map Prod.snd ++
      (Function.update m.loggers i .outside j).pending = m.calls j
    rw [← hcalls, List.filter_append, List.map_append, List.append_assoc]
    by_cases hj : j = i
    · subst hj
      rw [Function.update_self, hi, List.filter_singleton, decide_eq_true rfl]
      rfl
    · rw [Function.update_of_ne hj, List.filter_singleton, decide_eq_false (Ne.symm hj)]
      rfl
  · obtain ⟨bs, ⟨_, hbs⟩ | ⟨hpushed, _⟩⟩ := hm.last h
    · exact ⟨bs ++ [b], .inl ⟨hnot, by rw [List.map_append, ← hbs]; exact hqueue⟩⟩
    · exact absurd hpushed hnot

/-- The log thread takes a buffer out of the queue. -/
theorem Inv.receive (hm : m.Inv) {queue : ConcurrentQueue (Thread ι) (Option Address)}
    {b : Address} (ht : m.logThread = .popping) (hqueue : m.self.queue.queue = some b :: queue.queue)
    (hpushing : queue.pushing = m.self.queue.pushing) :
    Inv { m.setQueue queue with logThread := .logging b } := by
  have hrunning : m.logThread ≠ .exited := by
    rw [ht]
    exact LogThread.noConfusion
  have hreduce : m.self.queue.queue.reduceOption = b :: queue.queue.reduceOption := by
    rw [hqueue]
    exact List.reduceOption_cons_of_some b _
  refine { hm with
    custody := hm.custody.move .queue .logThread (a := b) nofun ?_ ?_ fun h hne hthread => ?_
    content := fun h => ?_
    offered := hpushing ▸ hm.offered
    delivered := ?_
    last := fun _ => ?_
    exited := nofun
    joined := fun h => absurd h (hm.not_joined hrunning) }
  · change m.self.queue.queue.reduceOption.Perm (b :: queue.queue.reduceOption)
    rw [hreduce]
  · change [b].Perm (b :: m.logThread.buffers)
    rw [ht]
    exact List.Perm.refl _
  · cases h with
    | queue => exact absurd rfl hne
    | logThread => exact absurd rfl hthread
    | pool | logger j => rfl
  · cases h with
    | pool => exact hm.content .pool
    | logger j => exact hm.content (.logger j)
    | queue | logThread => trivial
  · refine hm.delivered_congr ?_
    change [b] ++ queue.queue.reduceOption = m.logThread.unseen ++ m.self.queue.queue.reduceOption
    rw [ht, hreduce]
    rfl
  · obtain ⟨bs, ⟨hpushed, hbs⟩ | ⟨hpushed, hbs⟩⟩ := hm.last hrunning
    · rw [hqueue] at hbs
      cases bs with
      | nil => cases hbs
      | cons c bs => exact ⟨bs, .inl ⟨hpushed, (List.cons.inj hbs).2⟩⟩
    · rw [hqueue] at hbs
      cases bs with
      | nil => cases hbs
      | cons c bs => exact ⟨bs, .inr ⟨hpushed, (List.cons.inj hbs).2⟩⟩

/-- The log thread finds `NULL` in the queue. -/
theorem Inv.exit (hm : m.Inv) {queue : ConcurrentQueue (Thread ι) (Option Address)}
    (ht : m.logThread = .popping) (hqueue : m.self.queue.queue = none :: queue.queue)
    (hpushing : queue.pushing = m.self.queue.pushing) :
    Inv { m.setQueue queue with logThread := .exited } := by
  have hlast : m.destructor.HasPushed ∧ queue.queue = [] := by
    obtain ⟨bs, ⟨_, hbs⟩ | ⟨hpushed, hbs⟩⟩ := hm.last (by rw [ht]; exact LogThread.noConfusion)
    · rw [hqueue] at hbs
      cases bs <;> cases hbs
    · rw [hqueue] at hbs
      cases bs with
      | nil => exact ⟨hpushed, (List.cons.inj hbs).2⟩
      | cons c bs => cases (List.cons.inj hbs).1
  refine { hm with
    custody := hm.custody.congr (fun h => ?_) fun _ => Iff.rfl
    content := fun h => ?_
    offered := hpushing ▸ hm.offered
    delivered := ?_
    last := fun h => absurd rfl h
    exited := fun _ => hlast
    joined := fun _ => rfl }
  · cases h with
    | queue =>
      change queue.queue.reduceOption = m.self.queue.queue.reduceOption
      rw [hqueue, List.reduceOption_cons_of_none]
    | logThread =>
      change [] = m.logThread.buffers
      rw [ht]
      rfl
    | pool | logger j => rfl
  · cases h with
    | pool => exact hm.content .pool
    | logger j => exact hm.content (.logger j)
    | queue | logThread => trivial
  · refine hm.delivered_congr ?_
    change [] ++ queue.queue.reduceOption = m.logThread.unseen ++ m.self.queue.queue.reduceOption
    rw [ht, hqueue, List.reduceOption_cons_of_none]
    rfl

/-- The destructor has `NULL` in the queue. -/
theorem Inv.pushedNull (hm : m.Inv) {queue : ConcurrentQueue (Thread ι) (Option Address)}
    (hd : m.destructor = .pushing) (hqueue : queue.queue = m.self.queue.queue ++ [none])
    (hpushing : queue.pushing = Function.update m.self.queue.pushing .destructor none) :
    Inv { m.setQueue queue with destructor := .joining } := by
  have hreduce : queue.queue.reduceOption = m.self.queue.queue.reduceOption := by
    rw [hqueue, List.reduceOption_append]
    exact List.append_nil _
  have hnot : ¬ m.destructor.HasPushed := by
    rw [hd]
    exact fun h => h.elim Destructor.noConfusion Destructor.noConfusion
  refine { hm with
    custody := hm.custody.congr (fun h => ?_) fun _ => Iff.rfl
    content := fun h => ?_
    offered := fun t x hx => ?_
    delivered := hm.delivered_congr (congrArg (m.logThread.unseen ++ ·) hreduce)
    quiet := fun _ => hm.quiet (by rw [hd]; exact Destructor.noConfusion)
    last := fun h => ?_
    exited := fun h => absurd (hm.exited h).1 hnot
    joined := fun h => Destructor.noConfusion h }
  · cases h with
    | queue => exact hreduce
    | pool | logger j | logThread => rfl
  · cases h with
    | pool => exact hm.content .pool
    | logger j => exact hm.content (.logger j)
    | queue => trivial
    | logThread => exact hm.content .logThread
  · change queue.pushing t = some x at hx
    rw [hpushing] at hx
    cases t with
    | destructor => cases hx
    | logger j => exact hm.offered (.logger j) x hx
    | log => exact hm.offered .log x hx
  · obtain ⟨bs, ⟨_, hbs⟩ | ⟨hpushed, _⟩⟩ := hm.last h
    · exact ⟨bs, .inr ⟨.inl rfl, hqueue.trans (congrArg (· ++ [none]) hbs)⟩⟩
    · exact absurd hpushed hnot

/-- A thread waits with its item. -/
theorem Inv.offered_update (hm : m.Inv) {t : Thread ι} {item : Option Address}
    (ht : m.offer t = some item) (s : Thread ι) (x : Option Address)
    (hx : Function.update m.self.queue.pushing t (some item) s = some x) : m.offer s = some x := by
  by_cases hs : s = t
  · rw [hs, Function.update_self] at hx
    rw [hs, ht, hx]
  · rw [Function.update_of_ne hs] at hx
    exact hm.offered s x hx

theorem Inv.item_eq (hm : m.Inv) {t : Thread ι} {item : Option Address} (ht : m.offer t = some item)
    (x : Option Address) (hx : m.self.queue.pushing t = some x) : x = item :=
  Option.some.inj ((hm.offered t x hx).symm.trans ht)

variable {m' : Machine ι} {pick : Nat} {turn : ConcurrentQueue.Turn}

theorem push_inv (hm : m.Inv) {i : ι} {b : Address} {bytes : List UInt8}
    (hi : m.loggers i = .written b bytes) (h : m.push pick i b bytes turn = some m') : m'.Inv := by
  have hoffer : m.offer (.logger i) = some (some b) := congrArg Logger.offer hi
  obtain ⟨⟨queue, e⟩, hact, h⟩ := Option.bind_eq_some_iff.1 h
  obtain ⟨rfl, hq, hp⟩ | ⟨rfl, hq, hp⟩ | ⟨rfl, hq, hp⟩ :=
    ConcurrentQueue.act_push (hm.item_eq hoffer) hact
  · cases h
    exact hm.wait hq (hp ▸ hm.offered)
  · cases h
    exact hm.wait hq (hp ▸ hm.offered_update hoffer)
  · cases h
    exact hm.handOver hi hq hp

theorem pop_inv (hm : m.Inv) (ht : m.logThread = .popping) (h : m.pop pick turn = some m') :
    m'.Inv := by
  obtain ⟨⟨queue, e⟩, hact, h⟩ := Option.bind_eq_some_iff.1 h
  obtain ⟨rfl | rfl, hq, hp⟩ | ⟨front, rfl, hq, hp⟩ := ConcurrentQueue.act_pop hact
  · cases h
    exact hm.wait hq (hp ▸ hm.offered)
  · cases h
    exact hm.wait hq (hp ▸ hm.offered)
  · cases front with
    | none =>
      cases h
      exact hm.exit ht hq hp
    | some b =>
      cases h
      exact hm.receive ht hq hp

theorem pushNull_inv (hm : m.Inv) (hd : m.destructor = .pushing)
    (h : m.pushNull pick turn = some m') : m'.Inv := by
  have hoffer : m.offer .destructor = some none := if_pos hd
  obtain ⟨⟨queue, e⟩, hact, h⟩ := Option.bind_eq_some_iff.1 h
  obtain ⟨rfl, hq, hp⟩ | ⟨rfl, hq, hp⟩ | ⟨rfl, hq, hp⟩ :=
    ConcurrentQueue.act_push (hm.item_eq hoffer) hact
  · cases h
    exact hm.wait hq (hp ▸ hm.offered)
  · cases h
    exact hm.wait hq (hp ▸ hm.offered_update hoffer)
  · cases h
    exact hm.pushedNull hd hq hp

/-! ## The other steps of the log thread -/

theorem sinkLog_inv (hm : m.Inv) {b : Address} (ht : m.logThread = .logging b) :
    Inv { m with received := m.received ++ [(m.heap b).readable], logThread := .reading b } := by
  have hrunning : m.logThread ≠ .exited := by
    rw [ht]
    exact LogThread.noConfusion
  refine { hm with
    custody := hm.custody.congr (fun h => ?_) fun _ => Iff.rfl
    content := fun h => ?_
    delivered := ?_
    last := fun _ => hm.last hrunning
    exited := nofun
    joined := fun h => absurd h (hm.not_joined hrunning) }
  · cases h with
    | logThread =>
      change [b] = m.logThread.buffers
      rw [ht]
      rfl
    | pool | logger j | queue => rfl
  · cases h with
    | pool => exact hm.content .pool
    | logger j => exact hm.content (.logger j)
    | queue | logThread => trivial
  · have hdelivered := hm.delivered
    rw [unseen, ht] at hdelivered
    change (m.received ++ [(m.heap b).readable]) ++
      m.self.queue.queue.reduceOption.map (fun b => (m.heap b).readable) = m.pushed.map Prod.snd
    rw [List.append_assoc]
    exact hdelivered

/-- The buffer is read to its end. -/
theorem read_inv (hm : m.Inv) {b : Address} (ht : m.logThread = .reading b) :
    Inv { m.setBuffer b ((m.heap b).read (m.heap b).readableBytes) with
      logThread := .returning b } := by
  have hrunning : m.logThread ≠ .exited := by
    rw [ht]
    exact LogThread.noConfusion
  generalize hread : (m.heap b).read (m.heap b).readableBytes = d
  have hempty : d.readable = [] := by
    rw [← hread, DynamicBuffer.readable_read, ← DynamicBuffer.readable_length, List.drop_length]
  have hmine : b ∈ m.held .logThread := by
    change b ∈ m.logThread.buffers
    rw [ht]
    exact List.mem_singleton.2 rfl
  have hother : ∀ h, h ≠ .logThread → m.Content (Function.update m.heap b d) h := fun h hne =>
    (hm.content h).congr fun x hx => hm.frame hmine hx hne d
  refine { hm with
    custody := hm.custody.congr (fun h => ?_) fun _ => Iff.rfl
    content := fun h => ?_
    delivered := ?_
    last := fun _ => hm.last hrunning
    exited := nofun
    joined := fun h => absurd h (hm.not_joined hrunning) }
  · cases h with
    | logThread =>
      change [b] = m.logThread.buffers
      rw [ht]
      rfl
    | pool | logger j | queue => rfl
  · cases h with
    | pool => exact hother .pool nofun
    | logger j => exact hother (.logger j) nofun
    | queue => trivial
    | logThread =>
      change (Function.update m.heap b d b).readable = []
      rw [Function.update_self, hempty]
  · have hdelivered := hm.delivered
    rw [unseen, ht] at hdelivered
    refine Eq.trans (congrArg (m.received ++ ·) (List.map_congr_left fun x hx => ?_)) hdelivered
    exact congrArg _ (hm.frame (k := .queue) hmine hx nofun d)

theorem returnObject_inv (hm : m.Inv) {b : Address} (ht : m.logThread = .returning b) :
    Inv { m.setPool (m.self.pool.returnObject b) with logThread := .popping } := by
  have hrunning : m.logThread ≠ .exited := by
    rw [ht]
    exact LogThread.noConfusion
  refine { hm with
    custody := hm.custody.move .logThread .pool (a := b) nofun ?_ ?_ fun h hthread hpool => ?_
    content := fun h => ?_
    delivered := ?_
    last := fun _ => hm.last hrunning
    exited := nofun
    joined := fun h => absurd h (hm.not_joined hrunning) }
  · change m.logThread.buffers.Perm [b]
    rw [ht]
    exact List.Perm.refl _
  · exact List.perm_append_singleton b _
  · cases h with
    | logThread => exact absurd rfl hthread
    | pool => exact absurd rfl hpool
    | logger j | queue => rfl
  · cases h with
    | pool =>
      intro x hx
      obtain hx | hx := List.mem_append.1 hx
      · exact hm.content .pool x hx
      · obtain rfl := List.mem_singleton.1 hx
        have hready : m.logThread.Ready m.heap := hm.content .logThread
        rwa [ht] at hready
    | logger j => exact hm.content (.logger j)
    | queue | logThread => trivial
  · have hdelivered := hm.delivered
    rw [unseen, ht] at hdelivered
    exact hdelivered

/-! ## The other steps of the destructor -/

theorem destroy_inv (hm : m.Inv) (hd : m.destructor = .notStarted)
    (houtside : ∀ i, m.loggers i = .outside) : Inv { m with destructor := .pushing } := by
  have hnot : ¬ m.destructor.HasPushed := by
    rw [hd]
    exact fun h => h.elim Destructor.noConfusion Destructor.noConfusion
  refine { hm with
    content := fun h => ?_
    offered := hm.offered_destructor (by rw [hd]; exact Destructor.noConfusion) _
    quiet := fun _ => houtside
    last := fun h => ?_
    exited := fun h => absurd (hm.exited h).1 hnot
    joined := fun h => Destructor.noConfusion h }
  · cases h with
    | pool => exact hm.content .pool
    | logger j => exact hm.content (.logger j)
    | queue => trivial
    | logThread => exact hm.content .logThread
  · obtain ⟨bs, ⟨_, hbs⟩ | ⟨hpushed, _⟩⟩ := hm.last h
    · exact ⟨bs, .inl ⟨fun h => h.elim Destructor.noConfusion Destructor.noConfusion, hbs⟩⟩
    · exact absurd hpushed hnot

theorem join_inv (hm : m.Inv) (hd : m.destructor = .joining) (ht : m.logThread = .exited) :
    Inv { m with destructor := .joined } := by
  refine { hm with
    content := fun h => ?_
    offered := hm.offered_destructor (by rw [hd]; exact Destructor.noConfusion) _
    quiet := fun _ => hm.quiet (by rw [hd]; exact Destructor.noConfusion)
    last := fun h => absurd ht h
    exited := fun h => ⟨.inr rfl, (hm.exited h).2⟩
    joined := fun _ => ht }
  · cases h with
    | pool => exact hm.content .pool
    | logger j => exact hm.content (.logger j)
    | queue => trivial
    | logThread => exact hm.content .logThread

/-! ## Steps and runs -/

theorem step_inv [Fintype ι] {turn : Nat × Action ι} (hm : m.Inv) (h : m.step turn = some m') :
    m'.Inv := by
  obtain ⟨pick, a⟩ := turn
  cases a with
  | getObject i bytes =>
    obtain ⟨⟨hi, hd⟩, h⟩ := Option.ite_none_right_eq_some.1 h
    cases h
    exact getObject_inv hm bytes hi hd
  | reserveWritableBytes i =>
    dsimp only [step] at h
    split at h
    · rename_i b bytes hi
      obtain ⟨d, hd, h⟩ := Option.bind_eq_some_iff.1 h
      cases h
      exact reserve_inv hm hi hd
    · cases h
  | memcpy i =>
    dsimp only [step] at h
    split at h
    · rename_i b bytes hi
      obtain ⟨d, hd, h⟩ := Option.bind_eq_some_iff.1 h
      cases h
      exact memcpy_inv hm hi hd
    · cases h
  | write i =>
    dsimp only [step] at h
    split at h
    · rename_i b bytes hi
      cases h
      exact write_inv hm hi
    · cases h
  | push i t =>
    dsimp only [step] at h
    split at h
    · rename_i b bytes hi
      exact push_inv hm hi h
    · cases h
  | pop t =>
    obtain ⟨ht, h⟩ := Option.ite_none_right_eq_some.1 h
    exact pop_inv hm ht h
  | sinkLog =>
    dsimp only [step] at h
    split at h
    · rename_i b ht
      cases h
      exact sinkLog_inv hm ht
    · cases h
  | read =>
    dsimp only [step] at h
    split at h
    · rename_i b ht
      cases h
      exact read_inv hm ht
    · cases h
  | returnObject =>
    dsimp only [step] at h
    split at h
    · rename_i b ht
      cases h
      exact returnObject_inv hm ht
    · cases h
  | destroy =>
    obtain ⟨⟨hd, houtside⟩, h⟩ := Option.ite_none_right_eq_some.1 h
    cases h
    exact destroy_inv hm hd houtside
  | pushNull t =>
    obtain ⟨hd, h⟩ := Option.ite_none_right_eq_some.1 h
    exact pushNull_inv hm hd h
  | join =>
    obtain ⟨⟨hd, ht⟩, h⟩ := Option.ite_none_right_eq_some.1 h
    cases h
    exact join_inv hm hd ht

/-- When `join` has returned, nothing is on its way any more. -/
theorem Inv.delivered_all (hm : m.Inv) (hd : m.destructor = .joined) :
    m.received = m.pushed.map Prod.snd ∧
      ∀ i, (m.pushed.filter (·.1 = i)).map Prod.snd = m.calls i := by
  have ht := hm.joined hd
  have hqueue := (hm.exited ht).2
  refine ⟨?_, fun i => ?_⟩
  · have hdelivered := hm.delivered
    rw [unseen, ht, hqueue] at hdelivered
    rw [← hdelivered]
    exact (List.append_nil _).symm
  · have hcalls := hm.calls i
    rw [hm.quiet (by rw [hd]; exact Destructor.noConfusion) i] at hcalls
    rw [← hcalls]
    exact (List.append_nil _).symm

end Buffers

end Machine

open Machine in
/-- **The adapted sink receives exactly the logged bytes**: along every interleaving, when the
destructor's `join` has returned, the sink has received the byte strings of all calls of `log`,
each once, in the order of the pushes (and the pushes of a thread are its calls, in order); at
every step a buffer has one holder, which holds it once, and a buffer in the pool is empty. -/
theorem sink_delivers {ι : Type} [DecidableEq ι] [Fintype ι] (queueSize : Nat)
    (turns : List (Nat × Action ι)) :
    Runs.Along Machine.step
      (fun m => (m.destructor = .joined → m.received = m.pushed.map Prod.snd ∧
          ∀ i, (m.pushed.filter (·.1 = i)).map Prod.snd = m.calls i) ∧
        (∀ b < m.allocated, ∃! h, b ∈ m.held h) ∧ (∀ h, (m.held h).Nodup) ∧
        ∀ b ∈ m.self.pool.reusedObjectList, (m.heap b).readable = [])
      (Machine.init queueSize) turns := by
  have hrun : Runs.Along Machine.step Inv (Machine.init queueSize : Machine ι) turns :=
    Runs.along_of_step (fun _ _ _ => step_inv) (init_inv queueSize) turns
  exact hrun.mono fun m hm =>
    ⟨hm.delivered_all, hm.custody.holder, hm.custody.nodup, hm.content .pool⟩

end LogAsyncSink

end Brickred
