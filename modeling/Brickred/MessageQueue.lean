import Brickred.ConcurrentQueue

/-!
# `MessageQueue` (model of `message_queue.h`, `self_pipe.cc`)

An item travels through the queue, the byte that announces it through the pipe.  Any number of
threads push and yield; one loop thread waits for the pipe, empties it and then pops.

* `Pipe` — the number of bytes in the pipe, and what `write` and `read` do to it.
* `Machine.step` — one critical section of the queue, or one system call on the pipe.
* `Announced`, `step_inv` — an item in the queue has a byte in the pipe, or a thread that is
  about to write or to pop.
* `never_strands` — every interleaving.
-/

set_option autoImplicit false

namespace Brickred

/-! ## The pipe -/

/-- A pipe has room for at least one byte. -/
structure Pipe where
  capacity : Nat
  bytes : Nat
  capacity_pos : 0 < capacity

namespace Pipe

/-- Of a few bytes, which are written all or not at all. -/
def write (p : Pipe) (size : Nat) : Pipe :=
  if p.bytes + size ≤ p.capacity then { p with bytes := p.bytes + size } else p

/-- Returns the number of bytes, `-1` when there are none. -/
def read (p : Pipe) (size : Nat) : Pipe × Int :=
  if p.bytes = 0 then (p, -1) else ({ p with bytes := p.bytes - size }, min size p.bytes)

/-- A byte that finds no room is not missed: the pipe is full then, hence not empty. -/
theorem write_pos (p : Pipe) : 0 < (p.write 1).bytes := by
  unfold write
  split
  · exact Nat.succ_pos _
  · rename_i hfull
    exact Nat.lt_of_lt_of_le p.capacity_pos (Nat.le_of_lt_succ (Nat.lt_of_not_le hfull))

end Pipe

/-! ## The system -/

structure MessageQueue (ι α : Type) where
  queue : ConcurrentQueue ι α
  pipe : Pipe

namespace MessageQueue

open ConcurrentQueue (Event)

/-- Where the loop thread is. -/
inductive Loop where
  /-- outside `pipeReadCallback` -/
  | waiting
  /-- in the loop over `pipe_.read` -/
  | draining
  /-- in the receive callback -/
  | receiving
  deriving DecidableEq

/-- The message queue, the loop thread, the threads between `queue_.push` and `pipe_.write`, the
items pushed so far and the items popped so far. -/
structure Machine (ι α : Type) where
  self : MessageQueue ι α
  loop : Loop
  writing : List ι
  pushed : List α
  popped : List α

inductive Action (ι α : Type) where
  | push (i : ι) (item : α)
  /-- a woken thread in `queue_.push` has the mutex again -/
  | resumePush (i : ι)
  | wakePush (i : ι)
  /-- `pipe_.write` in `push` -/
  | write (i : ι)
  | yield (i : ι)
  /-- the loop thread calls `pipeReadCallback` -/
  | dispatch
  | read
  /-- the receive callback calls `pop` -/
  | pop

namespace Machine

variable {ι α : Type}

def init (maxSize : Nat) (pipe : Pipe) : Machine ι α :=
  ⟨⟨.new maxSize, pipe⟩, .waiting, [], [], []⟩

variable [DecidableEq ι]

/-- A critical section of `queue_` in thread `i`; once the item is in, the thread has to write. -/
def critical (m : Machine ι α) (pick : Nat) (i : ι) (a : ConcurrentQueue.Action ι α) :
    Option (Machine ι α) := do
  let (queue, e) ← m.self.queue.act pick a
  some { m with
    self := { m.self with queue }
    writing := e.pushedItems.map (fun _ => i) ++ m.writing
    pushed := m.pushed ++ e.pushedItems
    popped := m.popped ++ e.poppedItems }

def pipeWrite (m : Machine ι α) : Machine ι α :=
  { m with self := { m.self with pipe := m.self.pipe.write 1 } }

def pipeRead (m : Machine ι α) : Machine ι α :=
  let (pipe, n) := m.self.pipe.read 1024
  { m with
    self := { m.self with pipe }
    loop := if n > 0 then .draining else .receiving }

/-- The receive callback pops until `pop` returns `false`. -/
def pop (m : Machine ι α) (pick : Nat) : Machine ι α :=
  let (queue, e) := m.self.queue.popIfNotEmpty pick
  { m with
    self := { m.self with queue }
    loop := if e.poppedItems.isEmpty then .waiting else .receiving
    popped := m.popped ++ e.poppedItems }

/-- A thread in `push` makes no other call. -/
def Free (m : Machine ι α) (i : ι) : Prop := m.self.queue.Idle i ∧ i ∉ m.writing

instance (m : Machine ι α) (i : ι) : Decidable (m.Free i) :=
  inferInstanceAs (Decidable (_ ∧ _))

/-- One turn, with the choice `notifyOne` makes in it. -/
def step (m : Machine ι α) (turn : Nat × Action ι α) : Option (Machine ι α) :=
  match turn.2 with
  | .push i item => if m.Free i then m.critical turn.1 i (.push i item) else none
  | .resumePush i => m.critical turn.1 i (.resumePush i)
  | .wakePush i => m.critical turn.1 i (.wakePush i)
  | .write i =>
    if i ∈ m.writing then some { m.pipeWrite with writing := m.writing.erase i } else none
  | .yield i => if m.Free i then some m.pipeWrite else none
  | .dispatch =>
    if m.loop = .waiting ∧ 0 < m.self.pipe.bytes then some { m with loop := .draining } else none
  | .read => if m.loop = .draining then some m.pipeRead else none
  | .pop => if m.loop = .receiving then some (m.pop turn.1) else none

/-- First in, first out. -/
def InOrder (m : Machine ι α) : Prop := m.popped ++ m.self.queue.queue = m.pushed

/-- Whoever put the items there, someone is going to pop them. -/
def Announced (m : Machine ι α) : Prop :=
  m.self.queue.queue ≠ [] → 0 < m.self.pipe.bytes ∨ m.loop ≠ .waiting ∨ m.writing ≠ []

/-- What `never_strands` is about. -/
structure Inv (m : Machine ι α) : Prop where
  inOrder : m.InOrder
  announced : m.Announced

variable {m m' : Machine ι α} {pick : Nat}

omit [DecidableEq ι] in
theorem init_inv (maxSize : Nat) (pipe : Pipe) : (init maxSize pipe : Machine ι α).Inv :=
  ⟨rfl, fun hne => absurd rfl hne⟩

theorem critical_inv {i : ι} {a : ConcurrentQueue.Action ι α} (hm : m.Inv)
    (h : m.critical pick i a = some m') : m'.Inv := by
  obtain ⟨⟨queue, e⟩, hact, h⟩ := Option.bind_eq_some_iff.1 h
  have hmoves := (ConcurrentQueue.act_moves hact).queue
  cases h
  refine ⟨ConcurrentQueue.effect_inOrder hm.inOrder hmoves, fun hne => ?_⟩
  cases e with
  | pushed item => exact .inr (.inr (List.cons_ne_nil _ _))
  | popped item =>
    change m.self.queue.queue = item :: queue.queue at hmoves
    exact hm.announced (hmoves ▸ List.cons_ne_nil _ _)
  | waits | refused | wakes =>
    change queue.queue = m.self.queue.queue at hmoves
    exact hm.announced (hmoves ▸ hne)

/-- The callback returns only when the queue is empty. -/
theorem pop_inv (hm : m.Inv) : (m.pop pick).Inv := by
  have horder : m.popped ++ m.self.queue.queue = m.pushed := hm.inOrder
  unfold pop
  obtain ⟨hnil, hpop⟩ | ⟨front, rest, hq, hpop⟩ := m.self.queue.popIfNotEmpty_cases pick
  · rw [hpop]
    refine ⟨?_, fun hne => absurd hnil hne⟩
    change (m.popped ++ []) ++ m.self.queue.queue = m.pushed
    rw [List.append_nil, horder]
  · rw [hpop]
    refine ⟨?_, fun _ => .inr (.inl Loop.noConfusion)⟩
    change (m.popped ++ [front]) ++ m.self.queue.queue.tail = m.pushed
    rw [← horder, hq, List.append_assoc]
    rfl

theorem step_inv {turn : Nat × Action ι α} (hm : m.Inv) (h : m.step turn = some m') :
    m'.Inv := by
  obtain ⟨pick, a⟩ := turn
  cases a with
  | push i item =>
    obtain ⟨_, h⟩ := Option.ite_none_right_eq_some.1 h
    exact critical_inv hm h
  | resumePush i => exact critical_inv hm h
  | wakePush i => exact critical_inv hm h
  | write i =>
    obtain ⟨_, h⟩ := Option.ite_none_right_eq_some.1 h
    cases h
    exact ⟨hm.inOrder, fun _ => .inl (Pipe.write_pos _)⟩
  | yield i =>
    obtain ⟨_, h⟩ := Option.ite_none_right_eq_some.1 h
    cases h
    exact ⟨hm.inOrder, fun _ => .inl (Pipe.write_pos _)⟩
  | dispatch =>
    obtain ⟨_, h⟩ := Option.ite_none_right_eq_some.1 h
    cases h
    exact ⟨hm.inOrder, fun _ => .inr (.inl Loop.noConfusion)⟩
  | read =>
    -- the pipe is empty when the loop over `read` ends, but the callback comes after it
    obtain ⟨_, h⟩ := Option.ite_none_right_eq_some.1 h
    cases h
    refine ⟨hm.inOrder, fun _ => .inr (.inl ?_)⟩
    unfold pipeRead
    dsimp only
    split <;> exact Loop.noConfusion
  | pop =>
    obtain ⟨_, h⟩ := Option.ite_none_right_eq_some.1 h
    cases h
    exact pop_inv hm

end Machine

open Machine in
/-- **No message is stranded**: along every interleaving of any number of threads with the loop
thread, when the loop thread waits at an empty pipe and nobody is about to write to it, no item is
left; and the items popped, followed by those in the queue, are the items pushed. -/
theorem never_strands {ι α : Type} [DecidableEq ι] (maxSize : Nat) (pipe : Pipe)
    (turns : List (Nat × Action ι α)) :
    Runs.Along Machine.step
      (fun m => (m.loop = .waiting → m.self.pipe.bytes = 0 → m.writing = [] →
          m.self.queue.queue = []) ∧ m.InOrder)
      (Machine.init maxSize pipe) turns := by
  have hrun : Runs.Along Machine.step Inv (Machine.init maxSize pipe : Machine ι α) turns :=
    Runs.along_of_step (fun _ _ _ => step_inv) (init_inv maxSize pipe) turns
  refine hrun.mono fun m hm => ⟨fun hloop hpipe hwriting => ?_, hm.inOrder⟩
  by_contra hne
  obtain hbytes | hbusy | hpending := hm.announced hne
  · exact Nat.ne_of_gt hbytes hpipe
  · exact hbusy hloop
  · exact hpending hwriting

end MessageQueue

end Brickred
