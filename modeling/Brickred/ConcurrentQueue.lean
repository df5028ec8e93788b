import Mathlib.Logic.Function.Basic
import Brickred.Lib.CondVar
import Brickred.Lib.Runs

/-!
# `ConcurrentQueue` (model of `concurrent_queue.h`)

A critical section is one step; a thread that waits is at one of the two condition variables and
takes its next step when it has the mutex again.  Threads are the elements of a type `ι`, items
those of `α`.

* `act` — a critical section of one of the calls, and what it comes to (`Event`).
* `Inv`, `act_inv` — as long as a consumer sleeps, the notified ones are as many as the items; as
  long as a producer sleeps, as many as the free places.
* `act_moves` — items are pushed at the back and popped from the front.
* `no_lost_wakeup` — every interleaving of any number of threads.
-/

set_option autoImplicit false

namespace Brickred

/-- `pushing` is the argument of the `push` a thread is in while it waits. -/
structure ConcurrentQueue (ι α : Type) where
  maxSize : Nat
  queue : List α
  notEmptyCond : CondVar ι
  notFullCond : CondVar ι
  pushing : ι → Option α

namespace ConcurrentQueue

variable {ι α : Type}

/-- The constructor. -/
def new (maxSize : Nat) : ConcurrentQueue ι α := ⟨maxSize, [], .new, .new, fun _ => none⟩

def isBounded (q : ConcurrentQueue ι α) : Bool := q.maxSize != 0

def fullNoLock (q : ConcurrentQueue ι α) : Bool :=
  if !q.isBounded then false else q.queue.length ≥ q.maxSize

/-- What a critical section comes to. -/
inductive Event (α : Type) where
  /-- the thread waits -/
  | waits
  /-- `pushIfNotFull` or `popIfNotEmpty` returns `false` -/
  | refused
  | pushed (item : α)
  | popped (item : α)
  /-- a waiting thread wakes up for no reason -/
  | wakes

inductive Action (ι α : Type) where
  | push (i : ι) (item : α)
  | pushIfNotFull (i : ι) (item : α)
  | pop (i : ι)
  | popIfNotEmpty (i : ι)
  /-- a woken thread in `push` has the mutex again -/
  | resumePush (i : ι)
  /-- a woken thread in `pop` has the mutex again -/
  | resumePop (i : ι)
  | wakePush (i : ι)
  | wakePop (i : ι)

/-- How a thread comes to run in a call that may wait. -/
inductive Turn where
  /-- it makes the call -/
  | enters
  /-- it was woken and has the mutex again -/
  | resumes
  /-- it wakes up for no reason -/
  | wakes

def Turn.push (i : ι) (item : α) : Turn → Action ι α
  | .enters => .push i item
  | .resumes => .resumePush i
  | .wakes => .wakePush i

def Turn.pop (i : ι) : Turn → Action ι α
  | .enters => .pop i
  | .resumes => .resumePop i
  | .wakes => .wakePop i

variable [DecidableEq ι]

/-- The thread is in no call. -/
def Idle (q : ConcurrentQueue ι α) (i : ι) : Prop :=
  ¬ q.notEmptyCond.At i ∧ ¬ q.notFullCond.At i

instance (q : ConcurrentQueue ι α) (i : ι) : Decidable (q.Idle i) :=
  inferInstanceAs (Decidable (_ ∧ _))

/-- `queue_.push_back(item); not_empty_cond_.notifyOne();` -/
def pushBack (q : ConcurrentQueue ι α) (item : α) (pick : Nat) : ConcurrentQueue ι α :=
  { q with
    queue := q.queue ++ [item]
    notEmptyCond := q.notEmptyCond.notifyOne pick }

/-- `queue_.pop_front(); not_full_cond_.notifyOne();` -/
def popFront (q : ConcurrentQueue ι α) (pick : Nat) : ConcurrentQueue ι α :=
  { q with
    queue := q.queue.tail
    notFullCond := q.notFullCond.notifyOne pick }

/-- `push` from the test of its loop on. -/
def pushLoop (q : ConcurrentQueue ι α) (i : ι) (item : α) (pick : Nat) :
    ConcurrentQueue ι α × Event α :=
  if q.fullNoLock then
    ({ q with
      notFullCond := q.notFullCond.wait i
      pushing := Function.update q.pushing i (some item) }, .waits)
  else ({ q with pushing := Function.update q.pushing i none }.pushBack item pick, .pushed item)

def pushIfNotFull (q : ConcurrentQueue ι α) (item : α) (pick : Nat) :
    ConcurrentQueue ι α × Event α :=
  if q.fullNoLock then (q, .refused) else (q.pushBack item pick, .pushed item)

/-- `pop` from the test of its loop on. -/
def popLoop (q : ConcurrentQueue ι α) (i : ι) (pick : Nat) : ConcurrentQueue ι α × Event α :=
  match q.queue with
  | [] => ({ q with notEmptyCond := q.notEmptyCond.wait i }, .waits)
  | front :: _ => (q.popFront pick, .popped front)

def popIfNotEmpty (q : ConcurrentQueue ι α) (pick : Nat) : ConcurrentQueue ι α × Event α :=
  match q.queue with
  | [] => (q, .refused)
  | front :: _ => (q.popFront pick, .popped front)

/-- `pick` is the choice of `notifyOne`. -/
def act (q : ConcurrentQueue ι α) (pick : Nat) :
    Action ι α → Option (ConcurrentQueue ι α × Event α)
  | .push i item => if q.Idle i then some (q.pushLoop i item pick) else none
  | .pushIfNotFull i item => if q.Idle i then some (q.pushIfNotFull item pick) else none
  | .pop i => if q.Idle i then some (q.popLoop i pick) else none
  | .popIfNotEmpty i => if q.Idle i then some (q.popIfNotEmpty pick) else none
  | .resumePush i => do
    let item ← q.pushing i
    let notFullCond ← q.notFullCond.resume i
    some ({ q with notFullCond }.pushLoop i item pick)
  | .resumePop i => do
    let notEmptyCond ← q.notEmptyCond.resume i
    some ({ q with notEmptyCond }.popLoop i pick)
  | .wakePush i => do
    let notFullCond ← q.notFullCond.wake i
    some ({ q with notFullCond }, .wakes)
  | .wakePop i => do
    let notEmptyCond ← q.notEmptyCond.wake i
    some ({ q with notEmptyCond }, .wakes)

/-! ## The items -/

/-- What an event does to the items. -/
def Event.Effect (before after : List α) : Event α → Prop
  | .pushed item => after = before ++ [item]
  | .popped item => before = item :: after
  | _ => after = before

/-- What every critical section does to the items and to the bound. -/
structure Moves (q : ConcurrentQueue ι α) (r : ConcurrentQueue ι α × Event α) : Prop where
  maxSize : r.1.maxSize = q.maxSize
  queue : r.2.Effect q.queue r.1.queue

section Items

variable (q : ConcurrentQueue ι α) (i : ι) (item : α) (pick : Nat)

theorem pushLoop_moves : q.Moves (q.pushLoop i item pick) := by
  unfold pushLoop
  split <;> exact ⟨rfl, rfl⟩

theorem pushIfNotFull_moves : q.Moves (q.pushIfNotFull item pick) := by
  unfold pushIfNotFull
  split <;> exact ⟨rfl, rfl⟩

theorem popFront_moves {front : α} {rest : List α} (hq : q.queue = front :: rest) :
    q.Moves (q.popFront pick, .popped front) := by
  refine ⟨rfl, ?_⟩
  change q.queue = front :: q.queue.tail
  rw [hq]
  rfl

theorem popLoop_moves : q.Moves (q.popLoop i pick) := by
  unfold popLoop
  split
  · exact ⟨rfl, rfl⟩
  · rename_i hq
    exact q.popFront_moves pick hq

/-- `false` means that the queue is empty. -/
theorem popIfNotEmpty_cases :
    (q.queue = [] ∧ q.popIfNotEmpty pick = (q, .refused)) ∨
      ∃ front rest, q.queue = front :: rest ∧
        q.popIfNotEmpty pick = (q.popFront pick, .popped front) := by
  unfold popIfNotEmpty
  split
  · rename_i hq
    exact .inl ⟨hq, rfl⟩
  · rename_i front rest hq
    exact .inr ⟨front, rest, hq, rfl⟩

theorem popIfNotEmpty_moves : q.Moves (q.popIfNotEmpty pick) := by
  obtain ⟨_, hpop⟩ | ⟨front, rest, hq, hpop⟩ := q.popIfNotEmpty_cases pick
  · rw [hpop]
    exact ⟨rfl, rfl⟩
  · rw [hpop]
    exact q.popFront_moves pick hq

end Items

variable {q q' : ConcurrentQueue ι α} {pick : Nat} {a : Action ι α} {e : Event α}

theorem act_moves (h : q.act pick a = some (q', e)) : q.Moves (q', e) := by
  cases a with
  | push i item =>
    obtain ⟨_, hq⟩ := Option.ite_none_right_eq_some.1 h
    exact Option.some.inj hq ▸ q.pushLoop_moves i item pick
  | pushIfNotFull i item =>
    obtain ⟨_, hq⟩ := Option.ite_none_right_eq_some.1 h
    exact Option.some.inj hq ▸ q.pushIfNotFull_moves item pick
  | pop i =>
    obtain ⟨_, hq⟩ := Option.ite_none_right_eq_some.1 h
    exact Option.some.inj hq ▸ q.popLoop_moves i pick
  | popIfNotEmpty i =>
    obtain ⟨_, hq⟩ := Option.ite_none_right_eq_some.1 h
    exact Option.some.inj hq ▸ q.popIfNotEmpty_moves pick
  | resumePush i =>
    obtain ⟨item, _, h⟩ := Option.bind_eq_some_iff.1 h
    obtain ⟨notFullCond, _, hq⟩ := Option.bind_eq_some_iff.1 h
    obtain ⟨hmax, hqueue⟩ := { q with notFullCond }.pushLoop_moves i item pick
    rw [Option.some.inj hq] at hmax hqueue
    exact ⟨hmax, hqueue⟩
  | resumePop i =>
    obtain ⟨notEmptyCond, _, hq⟩ := Option.bind_eq_some_iff.1 h
    obtain ⟨hmax, hqueue⟩ := { q with notEmptyCond }.popLoop_moves i pick
    rw [Option.some.inj hq] at hmax hqueue
    exact ⟨hmax, hqueue⟩
  | wakePush i =>
    obtain ⟨notFullCond, _, hq⟩ := Option.bind_eq_some_iff.1 h
    cases hq
    exact ⟨rfl, rfl⟩
  | wakePop i =>
    obtain ⟨notEmptyCond, _, hq⟩ := Option.bind_eq_some_iff.1 h
    cases hq
    exact ⟨rfl, rfl⟩

/-! ## Calls that may wait -/

section Turns

variable {i : ι} {item : α} {turn : Turn}

/-- A waiting thread has its item at hand, and once the item is in, the thread is out. -/
theorem pushLoop_cases (q : ConcurrentQueue ι α) (i : ι) (item : α) (pick : Nat) :
    ((q.pushLoop i item pick).2 = .waits ∧ (q.pushLoop i item pick).1.queue = q.queue ∧
        (q.pushLoop i item pick).1.pushing = Function.update q.pushing i (some item)) ∨
      ((q.pushLoop i item pick).2 = .pushed item ∧
        (q.pushLoop i item pick).1.queue = q.queue ++ [item] ∧
        (q.pushLoop i item pick).1.pushing = Function.update q.pushing i none) := by
  unfold pushLoop
  split
  · exact .inl ⟨rfl, rfl, rfl⟩
  · exact .inr ⟨rfl, rfl, rfl⟩

/-- A turn of a thread in `push(item)`. -/
theorem act_push (hitem : ∀ x, q.pushing i = some x → x = item)
    (h : q.act pick (turn.push i item) = some (q', e)) :
    (e = .wakes ∧ q'.queue = q.queue ∧ q'.pushing = q.pushing) ∨
      (e = .waits ∧ q'.queue = q.queue ∧ q'.pushing = Function.update q.pushing i (some item)) ∨
      (e = .pushed item ∧ q'.queue = q.queue ++ [item] ∧
        q'.pushing = Function.update q.pushing i none) := by
  cases turn with
  | enters =>
    obtain ⟨_, hq⟩ := Option.ite_none_right_eq_some.1 h
    have hcases := q.pushLoop_cases i item pick
    rw [Option.some.inj hq] at hcases
    exact .inr hcases
  | resumes =>
    obtain ⟨x, hx, h⟩ := Option.bind_eq_some_iff.1 h
    obtain ⟨notFullCond, _, hq⟩ := Option.bind_eq_some_iff.1 h
    have hcases := { q with notFullCond }.pushLoop_cases i item pick
    rw [hitem x hx] at hq
    rw [Option.some.inj hq] at hcases
    exact .inr hcases
  | wakes =>
    obtain ⟨notFullCond, _, hq⟩ := Option.bind_eq_some_iff.1 h
    cases hq
    exact .inl ⟨rfl, rfl, rfl⟩

theorem popLoop_cases (q : ConcurrentQueue ι α) (i : ι) (pick : Nat) :
    ((q.popLoop i pick).2 = .waits ∧ (q.popLoop i pick).1.queue = q.queue ∧
        (q.popLoop i pick).1.pushing = q.pushing) ∨
      ∃ front, (q.popLoop i pick).2 = .popped front ∧
        q.queue = front :: (q.popLoop i pick).1.queue ∧
        (q.popLoop i pick).1.pushing = q.pushing := by
  unfold popLoop
  split
  · exact .inl ⟨rfl, rfl, rfl⟩
  · rename_i front rest hq
    exact .inr ⟨front, rfl, (q.popFront_moves pick hq).queue, rfl⟩

/-- A turn of a thread in `pop`. -/
theorem act_pop (h : q.act pick (turn.pop i) = some (q', e)) :
    ((e = .wakes ∨ e = .waits) ∧ q'.queue = q.queue ∧ q'.pushing = q.pushing) ∨
      ∃ front, e = .popped front ∧ q.queue = front :: q'.queue ∧ q'.pushing = q.pushing := by
  cases turn with
  | enters =>
    obtain ⟨_, hq⟩ := Option.ite_none_right_eq_some.1 h
    have hcases := q.popLoop_cases i pick
    rw [Option.some.inj hq] at hcases
    exact hcases.imp_left fun hwaits => ⟨.inr hwaits.1, hwaits.2⟩
  | resumes =>
    obtain ⟨notEmptyCond, _, hq⟩ := Option.bind_eq_some_iff.1 h
    have hcases := { q with notEmptyCond }.popLoop_cases i pick
    rw [Option.some.inj hq] at hcases
    exact hcases.imp_left fun hwaits => ⟨.inr hwaits.1, hwaits.2⟩
  | wakes =>
    obtain ⟨notEmptyCond, _, hq⟩ := Option.bind_eq_some_iff.1 h
    cases hq
    exact .inl ⟨.inl rfl, rfl, rfl⟩

end Turns

/-! ## Wake-ups -/

structure Inv (q : ConcurrentQueue ι α) : Prop where
  bounded : q.maxSize ≠ 0 → q.queue.length ≤ q.maxSize
  consumers : q.notEmptyCond.Covers q.queue.length
  producers : q.maxSize ≠ 0 → q.notFullCond.Covers (q.maxSize - q.queue.length)
  /-- nobody waits to push to an unbounded queue -/
  unbounded : q.maxSize = 0 → q.notFullCond.waiting = []

omit [DecidableEq ι] in
theorem new_inv (maxSize : Nat) : (new maxSize : ConcurrentQueue ι α).Inv :=
  ⟨fun _ => Nat.zero_le _, CondVar.covers_zero, fun _ hw => absurd rfl hw, fun _ => rfl⟩

omit [DecidableEq ι] in
theorem fullNoLock_iff :
    q.fullNoLock = true ↔ q.maxSize ≠ 0 ∧ q.maxSize ≤ q.queue.length := by
  unfold fullNoLock isBounded
  by_cases h : q.maxSize = 0 <;> simp [h]

section Steps

variable {i : ι} {item : α}

/-- One item more.  A producer that was woken for this place has left the condition variable. -/
theorem pushBack_inv (hbounded : q.maxSize ≠ 0 → q.queue.length < q.maxSize)
    (hconsumers : q.notEmptyCond.Covers q.queue.length)
    (hproducers : q.maxSize ≠ 0 → q.notFullCond.Covers (q.maxSize - q.queue.length - 1))
    (hunbounded : q.maxSize = 0 → q.notFullCond.waiting = []) : (q.pushBack item pick).Inv := by
  have hlen : (q.pushBack item pick).queue.length = q.queue.length + 1 := List.length_append
  refine ⟨fun h => ?_, ?_, fun h => ?_, hunbounded⟩
  · rw [hlen]
    exact hbounded h
  · rw [hlen]
    exact hconsumers.notifyOne pick
  · rw [hlen]
    exact hproducers h

/-- One item less.  A consumer that was woken for this item has left the condition variable. -/
theorem popFront_inv {front : α} {rest : List α} (hq : q.queue = front :: rest)
    (hbounded : q.maxSize ≠ 0 → q.queue.length ≤ q.maxSize)
    (hconsumers : q.notEmptyCond.Covers (q.queue.length - 1))
    (hproducers : q.maxSize ≠ 0 → q.notFullCond.Covers (q.maxSize - q.queue.length))
    (hunbounded : q.maxSize = 0 → q.notFullCond.waiting = []) : (q.popFront pick).Inv := by
  have hlen : (q.popFront pick).queue.length = q.queue.length - 1 := List.length_tail
  have hpos : 0 < q.queue.length := by rw [hq]; exact Nat.succ_pos _
  refine ⟨fun h => ?_, ?_, fun h => ?_, fun h => CondVar.notifyOne_waiting (hunbounded h) pick⟩
  · rw [hlen]
    exact Nat.le_trans (Nat.sub_le _ _) (hbounded h)
  · rw [hlen]
    exact hconsumers
  · have hroom : q.maxSize - (q.queue.length - 1) = q.maxSize - q.queue.length + 1 := by
      have := hbounded h
      omega
    rw [hlen]
    exact hroom ▸ (hproducers h).notifyOne pick

theorem pushLoop_inv (hbounded : q.maxSize ≠ 0 → q.queue.length ≤ q.maxSize)
    (hconsumers : q.notEmptyCond.Covers q.queue.length)
    (hproducers : q.maxSize ≠ 0 → q.notFullCond.Covers (q.maxSize - q.queue.length - 1))
    (hunbounded : q.maxSize = 0 → q.notFullCond.waiting = []) :
    (q.pushLoop i item pick).1.Inv := by
  unfold pushLoop
  split
  · rename_i hfull
    obtain ⟨hmax, hle⟩ := fullNoLock_iff.1 hfull
    refine ⟨hbounded, hconsumers, fun _ => ?_, fun h => absurd h hmax⟩
    exact CondVar.covers_zero.mono (Nat.le_of_eq (Nat.sub_eq_zero_of_le hle))
  · rename_i hroom
    exact pushBack_inv (fun h => Nat.not_le.1 fun hle => hroom (fullNoLock_iff.2 ⟨h, hle⟩))
      hconsumers hproducers hunbounded

theorem popLoop_inv (hbounded : q.maxSize ≠ 0 → q.queue.length ≤ q.maxSize)
    (hconsumers : q.notEmptyCond.Covers (q.queue.length - 1))
    (hproducers : q.maxSize ≠ 0 → q.notFullCond.Covers (q.maxSize - q.queue.length))
    (hunbounded : q.maxSize = 0 → q.notFullCond.waiting = []) : (q.popLoop i pick).1.Inv := by
  unfold popLoop
  split
  · rename_i hnil
    refine ⟨hbounded, ?_, hproducers, hunbounded⟩
    change (q.notEmptyCond.wait i).Covers q.queue.length
    rw [hnil]
    exact CondVar.covers_zero
  · rename_i hq
    exact popFront_inv hq hbounded hconsumers hproducers hunbounded

end Steps

theorem act_inv (hq : q.Inv) (h : q.act pick a = some (q', e)) : q'.Inv := by
  obtain ⟨hbounded, hconsumers, hproducers, hunbounded⟩ := hq
  have hfewer : q.maxSize ≠ 0 → q.notFullCond.Covers (q.maxSize - q.queue.length - 1) :=
    fun hmax => (hproducers hmax).mono (Nat.sub_le _ 1)
  cases a with
  | push i item =>
    obtain ⟨_, h⟩ := Option.ite_none_right_eq_some.1 h
    have hinv := @pushLoop_inv _ _ _ q pick i item hbounded hconsumers hfewer hunbounded
    rwa [Option.some.inj h] at hinv
  | pushIfNotFull i item =>
    obtain ⟨_, h⟩ := Option.ite_none_right_eq_some.1 h
    unfold pushIfNotFull at h
    split at h
    · cases h
      exact ⟨hbounded, hconsumers, hproducers, hunbounded⟩
    · rename_i hroom
      cases h
      exact pushBack_inv (fun hmax => Nat.not_le.1 fun hle => hroom (fullNoLock_iff.2 ⟨hmax, hle⟩))
        hconsumers hfewer hunbounded
  | pop i =>
    obtain ⟨_, h⟩ := Option.ite_none_right_eq_some.1 h
    have hinv := @popLoop_inv _ _ _ q pick i hbounded (hconsumers.mono (Nat.sub_le _ 1))
      hproducers hunbounded
    rwa [Option.some.inj h] at hinv
  | popIfNotEmpty i =>
    obtain ⟨_, h⟩ := Option.ite_none_right_eq_some.1 h
    unfold popIfNotEmpty at h
    split at h
    · cases h
      exact ⟨hbounded, hconsumers, hproducers, hunbounded⟩
    · rename_i hfront
      cases h
      exact popFront_inv hfront hbounded (hconsumers.mono (Nat.sub_le _ 1)) hproducers hunbounded
  | resumePush i =>
    obtain ⟨item, _, h⟩ := Option.bind_eq_some_iff.1 h
    obtain ⟨notFullCond, hresume, h⟩ := Option.bind_eq_some_iff.1 h
    have hinv := @pushLoop_inv _ _ _ { q with notFullCond } pick i item hbounded hconsumers
      (fun hmax => (hproducers hmax).resume hresume)
      fun hmax => (CondVar.resume_waiting hresume).trans (hunbounded hmax)
    rwa [Option.some.inj h] at hinv
  | resumePop i =>
    obtain ⟨notEmptyCond, hresume, h⟩ := Option.bind_eq_some_iff.1 h
    have hinv := @popLoop_inv _ _ _ { q with notEmptyCond } pick i hbounded
      (hconsumers.resume hresume) hproducers hunbounded
    rwa [Option.some.inj h] at hinv
  | wakePush i =>
    obtain ⟨notFullCond, hwake, h⟩ := Option.bind_eq_some_iff.1 h
    cases h
    refine ⟨hbounded, hconsumers, fun hmax => (hproducers hmax).wake hwake, fun hmax => ?_⟩
    rw [CondVar.wake_waiting (hunbounded hmax)] at hwake
    cases hwake
  | wakePop i =>
    obtain ⟨notEmptyCond, hwake, h⟩ := Option.bind_eq_some_iff.1 h
    cases h
    exact ⟨hbounded, hconsumers.wake hwake, hproducers, hunbounded⟩

/-! ## Runs -/

def Event.pushedItems : Event α → List α
  | .pushed item => [item]
  | _ => []

def Event.poppedItems : Event α → List α
  | .popped item => [item]
  | _ => []

/-- The queue, the items pushed so far and the items popped so far. -/
structure Machine (ι α : Type) where
  self : ConcurrentQueue ι α
  pushed : List α
  popped : List α

namespace Machine

def init (maxSize : Nat) : Machine ι α := ⟨.new maxSize, [], []⟩

/-- A critical section, with the choice `notifyOne` makes in it. -/
def step (m : Machine ι α) (turn : Nat × Action ι α) : Option (Machine ι α) :=
  (m.self.act turn.1 turn.2).map fun (self, e) =>
    ⟨self, m.pushed ++ e.pushedItems, m.popped ++ e.poppedItems⟩

/-- First in, first out. -/
def InOrder (m : Machine ι α) : Prop := m.popped ++ m.self.queue = m.pushed

end Machine

theorem effect_inOrder {before after pushed popped : List α} (h : popped ++ before = pushed)
    (he : e.Effect before after) :
    (popped ++ e.poppedItems) ++ after = pushed ++ e.pushedItems := by
  subst h
  cases e with
  | pushed item =>
    change after = before ++ [item] at he
    change (popped ++ []) ++ after = (popped ++ before) ++ [item]
    rw [he, List.append_nil, List.append_assoc]
  | popped item =>
    change before = item :: after at he
    change (popped ++ [item]) ++ after = (popped ++ before) ++ []
    rw [he, List.append_nil, List.append_assoc]
    rfl
  | waits | refused | wakes =>
    change after = before at he
    change (popped ++ []) ++ after = (popped ++ before) ++ []
    rw [he, List.append_nil, List.append_nil]

/-- A non-empty queue with a sleeping consumer has a notified one, and a queue with a free place
and a sleeping producer has a notified one. -/
structure NoLostWakeup (q : ConcurrentQueue ι α) : Prop where
  consumers : q.queue ≠ [] → q.notEmptyCond.waiting ≠ [] → q.notEmptyCond.notified ≠ []
  producers : q.fullNoLock = false → q.notFullCond.waiting ≠ [] → q.notFullCond.notified ≠ []

omit [DecidableEq ι] in
theorem Inv.noLostWakeup (hq : q.Inv) : q.NoLostWakeup := by
  refine ⟨fun hne => hq.consumers.notified_ne_nil (List.length_pos_of_ne_nil hne),
    fun hroom hw => ?_⟩
  by_cases hmax : q.maxSize = 0
  · exact absurd (hq.unbounded hmax) hw
  · refine (hq.producers hmax).notified_ne_nil ?_ hw
    have hlt : ¬ q.maxSize ≤ q.queue.length := fun hle => by
      rw [fullNoLock_iff.2 ⟨hmax, hle⟩] at hroom
      cases hroom
    omega

/-- **No lost wake-up**: along every interleaving of the critical sections of any number of
threads, items come out in the order they went in, the bound is kept, and whoever could go on does
not sleep unless a thread that was woken for it is on its way. -/
theorem no_lost_wakeup (maxSize : Nat) (turns : List (Nat × Action ι α)) :
    Runs.Along Machine.step
      (fun m => m.InOrder ∧ m.self.maxSize = maxSize ∧
        (maxSize ≠ 0 → m.self.queue.length ≤ maxSize) ∧ m.self.NoLostWakeup)
      (Machine.init maxSize) turns := by
  have hrun : Runs.Along Machine.step
      (fun m => m.InOrder ∧ m.self.maxSize = maxSize ∧ m.self.Inv) (Machine.init maxSize) turns := by
    refine Runs.along_of_step (fun m turn m' hm hstep => ?_) ⟨rfl, rfl, new_inv maxSize⟩ turns
    obtain ⟨horder, hmax, hinv⟩ := hm
    obtain ⟨⟨q', e⟩, hact, hm'⟩ := Option.map_eq_some_iff.1 hstep
    have hmoves := act_moves hact
    subst hm'
    exact ⟨effect_inOrder horder hmoves.queue, hmoves.maxSize.trans hmax, act_inv hinv hact⟩
  refine hrun.mono fun m hm => ?_
  obtain ⟨horder, hmax, hinv⟩ := hm
  exact ⟨horder, hmax, fun hne => hmax ▸ hinv.bounded (hmax ▸ hne), hinv.noLostWakeup⟩

end ConcurrentQueue

end Brickred
