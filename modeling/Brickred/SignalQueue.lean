import Brickred.Lib.BigEndian
import Brickred.Lib.Runs

/-!
# `SignalQueue`

A signal handler may run between any two instructions of the program, and inside the callback of
the queue.  It puts the four bytes of its `int` into a nonblocking pipe; the loop of
`pipeReadCallback` takes four bytes at a time out of it.  A write of four bytes is done whole, or
not at all where the pipe has no room for them.  `capacity` counts bytes; that a kernel which
counts pages goes on refusing, once the pipe was full, until a page is read out, is not modelled.

* `Machine.step` — the pipe and the loop, byte by byte.
* `Queue.step` — a queue of signals with `capacity / 4` places.
* `run_queue` — the pipe is that queue, whatever comes between: signals are received whole, once
  and in the order they were pushed, and one is lost only where the queue is full or where nobody
  listens.
-/

set_option autoImplicit false

namespace Brickred

namespace SignalQueue

/-- The bytes of an `int` in memory, the lowest first. -/
def bytes (signum : UInt32) : List UInt8 := (BigEndian.toBytes 4 signum.toNat).reverse

/-- The `int` that four bytes in memory are. -/
def value (memory : List UInt8) : UInt32 := UInt32.ofNat (BigEndian.ofBytes memory.reverse)

/-- Where the loop of `pipeReadCallback` is, and its local `signum`. -/
inductive Phase where
  | outside
  | reading (signum : List UInt8)
  | calling (signum : List UInt8)

structure Machine where
  /-- what the pipe holds -/
  pipe : List UInt8
  /-- whether `recv_signal_cb_` is set -/
  listens : Bool
  phase : Phase
  /-- what `recv_signal_cb_` was called with -/
  received : List UInt32

inductive Action where
  | push (signum : UInt32)
  | setRecvSignalCallback (listens : Bool)
  /-- the pipe is readable -/
  | pipeReadCallback
  | read (interrupted : Bool)
  | callbackReturns

/-! ## The pipe -/

namespace Machine

def new : Machine := ⟨[], false, .outside, []⟩

/-- `pipe_.write` -/
def push (capacity : Nat) (m : Machine) (signum : UInt32) : Machine :=
  if m.pipe.length + 4 ≤ capacity then { m with pipe := m.pipe ++ bytes signum } else m

/-- `pipe_.read` into `signum`, and what follows it: fewer bytes would leave the others of
`signum` as they were. -/
def read (m : Machine) (signum : List UInt8) (interrupted : Bool) : Machine :=
  if interrupted ∨ m.pipe = [] then { m with phase := .outside }
  else
    let got := m.pipe.take 4
    let signum := got ++ signum.drop got.length
    let m := { m with pipe := m.pipe.drop 4 }
    if m.listens then
      { m with phase := .calling signum, received := m.received ++ [value signum] }
    else { m with phase := .reading signum }

def step (capacity : Nat) (m : Machine) : Action → Option Machine
  | .push signum => some (m.push capacity signum)
  | .setRecvSignalCallback listens => some { m with listens }
  | .pipeReadCallback =>
    match m.phase with
    | .outside => some { m with phase := .reading (bytes 0) }
    | _ => none
  | .read interrupted =>
    match m.phase with
    | .reading signum => some (m.read signum interrupted)
    | _ => none
  | .callbackReturns =>
    match m.phase with
    | .calling signum => some { m with phase := .reading signum }
    | _ => none

end Machine

/-! ## The queue -/

/-- A bounded queue of signals. -/
structure Queue where
  pending : List UInt32
  listens : Bool
  /-- `none`: no loop runs; whether the callback does -/
  calling : Option Bool
  /-- the signals that found a place -/
  accepted : List UInt32
  /-- the signals taken, and whether somebody listened -/
  taken : List (UInt32 × Bool)

namespace Queue

def new : Queue := ⟨[], false, none, [], []⟩

def push (places : Nat) (q : Queue) (signum : UInt32) : Queue :=
  if q.pending.length < places then
    { q with pending := q.pending ++ [signum], accepted := q.accepted ++ [signum] }
  else q

def read (q : Queue) (interrupted : Bool) : Queue :=
  if interrupted then { q with calling := none }
  else
    match q.pending with
    | [] => { q with calling := none }
    | signum :: pending =>
      { q with pending, calling := some q.listens, taken := q.taken ++ [(signum, q.listens)] }

def step (places : Nat) (q : Queue) : Action → Option Queue
  | .push signum => some (q.push places signum)
  | .setRecvSignalCallback listens => some { q with listens }
  | .pipeReadCallback => if q.calling = none then some { q with calling := some false } else none
  | .read interrupted => if q.calling = some false then some (q.read interrupted) else none
  | .callbackReturns =>
    if q.calling = some true then some { q with calling := some false } else none

/-- What a listener has heard. -/
def heard (q : Queue) : List UInt32 := (q.taken.filter Prod.snd).map Prod.fst

/-- **First in, first out**, each once. -/
structure Fifo (places : Nat) (q : Queue) : Prop where
  order : q.accepted = q.taken.map Prod.fst ++ q.pending
  bound : q.pending.length ≤ places

theorem step_fifo {places : Nat} {q q' : Queue} {a : Action} (h : q.Fifo places)
    (hstep : q.step places a = some q') : q'.Fifo places := by
  obtain ⟨horder, hbound⟩ := h
  cases a with
  | push signum =>
    simp only [step, push, Option.some.injEq] at hstep
    subst hstep
    split
    · refine ⟨by simp [horder], ?_⟩
      rw [List.length_append, List.length_singleton]
      omega
    · exact ⟨horder, hbound⟩
  | setRecvSignalCallback listens =>
    cases hstep
    exact ⟨horder, hbound⟩
  | read interrupted =>
    simp only [step] at hstep
    split at hstep
    · cases hstep
      unfold read
      split
      · exact ⟨horder, hbound⟩
      · split
        · exact ⟨horder, hbound⟩
        · rename_i signum pending hpending
          rw [hpending, List.length_cons] at hbound
          exact ⟨by simp [horder, hpending], Nat.le_of_succ_le hbound⟩
    · cases hstep
  | pipeReadCallback | callbackReturns =>
    simp only [step] at hstep
    split at hstep
    · cases hstep
      exact ⟨horder, hbound⟩
    · cases hstep

end Queue

/-! ## The pipe is the queue -/

@[simp] theorem length_bytes (signum : UInt32) : (bytes signum).length = 4 := by
  rw [bytes, List.length_reverse, BigEndian.toBytes_length]

theorem value_bytes (signum : UInt32) : value (bytes signum) = signum := by
  have hlt := signum.toNat_lt
  rw [value, bytes, List.reverse_reverse, BigEndian.ofBytes_toBytes]
  exact UInt32.toNat_inj.1 (by simp)

theorem length_flatMap_bytes (pending : List UInt32) :
    (pending.flatMap bytes).length = 4 * pending.length := by
  induction pending with
  | nil => rfl
  | cons signum pending ih =>
    rw [List.flatMap_cons, List.length_append, length_bytes, ih, List.length_cons]
    omega

/-- Where the loop is, in the machine and in the queue; `signum` has its four bytes. -/
inductive AtPhase : Phase → Option Bool → Prop
  | outside : AtPhase .outside none
  | reading {signum : List UInt8} (h : signum.length = 4) : AtPhase (.reading signum) (some false)
  | calling {signum : List UInt8} (h : signum.length = 4) : AtPhase (.calling signum) (some true)

structure Refines (m : Machine) (q : Queue) : Prop where
  pipe : m.pipe = q.pending.flatMap bytes
  listens : m.listens = q.listens
  phase : AtPhase m.phase q.calling
  received : m.received = q.heard

variable {capacity : Nat} {m m' : Machine} {q : Queue}

theorem push_refines (h : Refines m q) (signum : UInt32) :
    Refines (m.push capacity signum) (q.push (capacity / 4) signum) := by
  have hlength : m.pipe.length = 4 * q.pending.length := by rw [h.pipe, length_flatMap_bytes]
  unfold Machine.push Queue.push
  by_cases hroom : m.pipe.length + 4 ≤ capacity
  · rw [if_pos hroom, if_pos (by omega)]
    exact ⟨by simp [h.pipe], h.listens, h.phase, h.received⟩
  · rw [if_neg hroom, if_neg (by omega)]
    exact h

/-- A read takes a whole signal, the first one. -/
theorem read_refines {signum : List UInt8} (h : Refines m q) (hlength : signum.length = 4)
    (interrupted : Bool) : Refines (m.read signum interrupted) (q.read interrupted) := by
  obtain ⟨hpipe, hlistens, hphase, hreceived⟩ := h
  cases interrupted with
  | true => exact ⟨hpipe, hlistens, .outside, hreceived⟩
  | false =>
    cases hpending : q.pending with
    | nil =>
      have hempty : m.pipe = [] := by rw [hpipe, hpending]; rfl
      have hread : q.read false = { q with calling := none } := by
        simp [Queue.read, hpending]
      rw [Machine.read, if_pos (.inr hempty), hread]
      exact ⟨hpipe, hlistens, .outside, hreceived⟩
    | cons first pending =>
      rw [hpending, List.flatMap_cons] at hpipe
      have htake : m.pipe.take 4 = bytes first := by
        rw [hpipe, List.take_left' (length_bytes first)]
      have hdrop : m.pipe.drop 4 = pending.flatMap bytes := by
        rw [hpipe, List.drop_left' (length_bytes first)]
      have hne : ¬ (false = true ∨ m.pipe = []) := by
        rintro (h | h)
        · cases h
        · rw [h] at htake
          have hzero := congrArg List.length htake
          simp at hzero
      have hsignum : bytes first ++ signum.drop (bytes first).length = bytes first := by
        rw [List.drop_of_length_le (by simp [hlength]), List.append_nil]
      have hread : q.read false = { q with
          pending, calling := some q.listens, taken := q.taken ++ [(first, q.listens)] } := by
        simp [Queue.read, hpending]
      rw [Machine.read, if_neg hne, hread]
      dsimp only
      rw [htake, hdrop, hsignum, hlistens]
      cases hheard : q.listens with
      | true =>
        rw [if_pos rfl]
        refine ⟨rfl, rfl, .calling (length_bytes first), ?_⟩
        simp [hreceived, Queue.heard, value_bytes]
      | false =>
        rw [if_neg (by decide)]
        refine ⟨rfl, rfl, .reading (length_bytes first), ?_⟩
        simp [hreceived, Queue.heard]

theorem step_refines {a : Action} (h : Refines m q) (hstep : m.step capacity a = some m') :
    ∃ q', q.step (capacity / 4) a = some q' ∧ Refines m' q' := by
  cases a with
  | push signum =>
    cases hstep
    exact ⟨_, rfl, push_refines h signum⟩
  | setRecvSignalCallback listens =>
    cases hstep
    exact ⟨_, rfl, h.pipe, rfl, h.phase, h.received⟩
  | pipeReadCallback =>
    obtain ⟨hpipe, hlistens, hphase, hreceived⟩ := h
    cases hat : m.phase with
    | outside =>
      simp only [Machine.step, hat, Option.some.injEq] at hstep
      subst hstep
      rw [hat] at hphase
      cases hcalling : q.calling with
      | none =>
        exact ⟨{ q with calling := some false }, if_pos hcalling, hpipe, hlistens,
          .reading (length_bytes 0), hreceived⟩
      | some _ => rw [hcalling] at hphase; cases hphase
    | reading _ | calling _ => simp [Machine.step, hat] at hstep
  | read interrupted =>
    have hphase := h.phase
    cases hat : m.phase with
    | reading signum =>
      simp only [Machine.step, hat, Option.some.injEq] at hstep
      subst hstep
      rw [hat] at hphase
      generalize hcalling : q.calling = calling at hphase
      cases hphase with
      | reading hlength =>
        exact ⟨_, if_pos hcalling, read_refines h hlength interrupted⟩
    | outside | calling _ => simp [Machine.step, hat] at hstep
  | callbackReturns =>
    obtain ⟨hpipe, hlistens, hphase, hreceived⟩ := h
    cases hat : m.phase with
    | calling signum =>
      simp only [Machine.step, hat, Option.some.injEq] at hstep
      subst hstep
      rw [hat] at hphase
      generalize hcalling : q.calling = calling at hphase
      cases hphase with
      | calling hlength =>
        exact ⟨{ q with calling := some false }, if_pos hcalling, hpipe, hlistens,
          .reading hlength, hreceived⟩
    | outside | reading _ => simp [Machine.step, hat] at hstep

/-- **The signals of a run**: the bytes in the pipe are those of the queue, and the callback has
heard what the queue gave to a listener, whatever comes between. -/
theorem run_queue {acts : List Action} (h : Runs.run (Machine.step capacity) .new acts = some m) :
    ∃ q, Runs.run (Queue.step (capacity / 4)) .new acts = some q ∧ Refines m q ∧
      q.Fifo (capacity / 4) := by
  have hnew : Refines .new .new := ⟨rfl, rfl, .outside, rfl⟩
  obtain ⟨q, hq, hrefines⟩ := Runs.run_simulates (fun _ _ _ _ => step_refines) hnew h
  have hfifo : (Queue.new).Fifo (capacity / 4) := ⟨rfl, Nat.zero_le _⟩
  exact ⟨q, hq, hrefines, (Runs.along_of_step (fun _ _ _ => Queue.step_fifo) hfifo acts).last hq⟩

/-- A signal that comes while the callback of another one runs. -/
theorem run_queue_nested :
    ∃ q, Runs.run (Queue.step (8 / 4)) .new
        [.setRecvSignalCallback true, .push 15, .pipeReadCallback, .read false, .push 2,
          .callbackReturns, .read false, .callbackReturns, .read false] = some q ∧
      Refines ⟨[], true, .outside, [15, 2]⟩ q ∧ q.Fifo (8 / 4) :=
  run_queue rfl

end SignalQueue

end Brickred
