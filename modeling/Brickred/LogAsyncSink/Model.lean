import Mathlib.Data.Fintype.Defs
import Brickred.ConcurrentQueue
import Brickred.DynamicBuffer

/-!
# `LogAsyncSink` (model of `log_async_sink.cc`, `object_pool.h`)

Any number of threads call `log`; a log thread hands the bytes to the adapted sink; the buffers go
round between them, through the pool and the queue.  A buffer is known by its address.

* `Logger`, `LogThread`, `Destructor` — where the threads are in `log`, `logThreadFunc` and `~Impl`.
* `Machine.step` — a critical section under one of the two mutexes, or one of the operations of a
  thread on a buffer.
* `Machine.held` — who has which buffers.
-/

set_option autoImplicit false

namespace Brickred

/-! ## The pool -/

/-- The back of the vector is the end of the list. -/
structure ObjectPool (α : Type) where
  reusedObjectList : List α

namespace ObjectPool

variable {α : Type}

/-- `none` is `new T()`. -/
def getObject (p : ObjectPool α) : Option α × ObjectPool α :=
  match p.reusedObjectList.getLast? with
  | some obj => (some obj, ⟨p.reusedObjectList.dropLast⟩)
  | none => (none, p)

def returnObject (p : ObjectPool α) (obj : α) : ObjectPool α := ⟨p.reusedObjectList ++ [obj]⟩

end ObjectPool

/-! ## The threads -/

/-- Where a `DynamicBuffer` is. -/
abbrev Address := Nat

/-- The threads that use the queue. -/
inductive Thread (ι : Type) where
  | logger (i : ι)
  | log
  | destructor
  deriving DecidableEq

namespace LogAsyncSink

/-- How far a thread is in `log(bytes)`. -/
inductive Logger where
  | outside
  /-- `queue_buffer.reset(pool_.getObject())` -/
  | gotObject (buffer : Address) (bytes : List UInt8)
  /-- `queue_buffer->reserveWritableBytes(size)` -/
  | reserved (buffer : Address) (bytes : List UInt8)
  /-- `memcpy(queue_buffer->writeBegin(), buffer, size)` -/
  | copied (buffer : Address) (bytes : List UInt8)
  /-- `queue_buffer->write(size)` -/
  | written (buffer : Address) (bytes : List UInt8)
  deriving DecidableEq

namespace Logger

/-- The buffer `queue_buffer` owns. -/
def buffers : Logger → List Address
  | .outside => []
  | .gotObject b _ | .reserved b _ | .copied b _ | .written b _ => [b]

/-- The bytes on their way to the queue. -/
def pending : Logger → List (List UInt8)
  | .outside => []
  | .gotObject _ bytes | .reserved _ bytes | .copied _ bytes | .written _ bytes => [bytes]

/-- The item of `queue_.push`. -/
def offer : Logger → Option (Option Address)
  | .written b _ => some (some b)
  | _ => none

end Logger

/-- Where the log thread is in its loop. -/
inductive LogThread where
  | popping
  /-- before `adapted_sink_->log` -/
  | logging (buffer : Address)
  /-- before `queue_buffer->read` -/
  | reading (buffer : Address)
  /-- before `pool_.returnObject` -/
  | returning (buffer : Address)
  | exited
  deriving DecidableEq

namespace LogThread

/-- The buffer `queue_buffer` owns. -/
def buffers : LogThread → List Address
  | .logging b | .reading b | .returning b => [b]
  | _ => []

/-- The buffer the adapted sink has not seen. -/
def unseen : LogThread → List Address
  | .logging b => [b]
  | _ => []

end LogThread

/-- Where the destructor is. -/
inductive Destructor where
  | notStarted
  /-- in `queue_.push(NULL)` -/
  | pushing
  /-- in `log_thread_.join()` -/
  | joining
  | joined
  deriving DecidableEq

end LogAsyncSink

open LogAsyncSink

/-- `class LogAsyncSink::Impl`; `NULL` in the queue is `none`. -/
structure LogAsyncSink (ι : Type) where
  queue : ConcurrentQueue (Thread ι) (Option Address)
  pool : ObjectPool Address

namespace LogAsyncSink

/-- The sink, the buffers allocated so far and the threads, together with what was passed to `log`
by each thread, what was pushed (and by whom) and what the adapted sink has received. -/
structure Machine (ι : Type) where
  self : LogAsyncSink ι
  heap : Address → DynamicBuffer
  allocated : Nat
  loggers : ι → Logger
  logThread : LogThread
  destructor : Destructor
  calls : ι → List (List UInt8)
  pushed : List (ι × List UInt8)
  received : List (List UInt8)

inductive Action (ι : Type) where
  /-- `log(bytes)`, up to the end of the first critical section -/
  | getObject (i : ι) (bytes : List UInt8)
  | reserveWritableBytes (i : ι)
  | memcpy (i : ι)
  | write (i : ι)
  | push (i : ι) (turn : ConcurrentQueue.Turn)
  | pop (turn : ConcurrentQueue.Turn)
  /-- `adapted_sink_->log` -/
  | sinkLog
  | read
  | returnObject
  /-- the destructor is called -/
  | destroy
  | pushNull (turn : ConcurrentQueue.Turn)
  /-- `log_thread_.join()` returns -/
  | join

namespace Machine

variable {ι : Type}

def init (queueSize : Nat) : Machine ι where
  self := ⟨.new queueSize, ⟨[]⟩⟩
  heap _ := .new 1024 1024
  allocated := 0
  loggers _ := .outside
  logThread := .popping
  destructor := .notStarted
  calls _ := []
  pushed := []
  received := []

variable [DecidableEq ι]

def setLogger (m : Machine ι) (i : ι) (l : Logger) : Machine ι :=
  { m with loggers := Function.update m.loggers i l }

def setBuffer (m : Machine ι) (b : Address) (d : DynamicBuffer) : Machine ι :=
  { m with heap := Function.update m.heap b d }

def setQueue (m : Machine ι) (queue : ConcurrentQueue (Thread ι) (Option Address)) : Machine ι :=
  { m with self := { m.self with queue } }

def setPool (m : Machine ι) (pool : ObjectPool Address) : Machine ι :=
  { m with self := { m.self with pool } }

/-- `new DynamicBuffer()` is at an address of its own. -/
def newObject (m : Machine ι) : Machine ι :=
  { m.setBuffer m.allocated (.new 1024 1024) with allocated := m.allocated + 1 }

def getObject (m : Machine ι) (i : ι) (bytes : List UInt8) : Machine ι :=
  let m := { m with calls := Function.update m.calls i (m.calls i ++ [bytes]) }
  match m.self.pool.getObject with
  | (some b, pool) => (m.setPool pool).setLogger i (.gotObject b bytes)
  | (none, pool) => (m.newObject.setPool pool).setLogger i (.gotObject m.allocated bytes)

/-- A turn in `queue_.push(queue_buffer.get())`; after the push, `queue_buffer.release()`. -/
def push (m : Machine ι) (pick : Nat) (i : ι) (b : Address) (bytes : List UInt8)
    (turn : ConcurrentQueue.Turn) : Option (Machine ι) := do
  let (queue, e) ← m.self.queue.act pick (turn.push (.logger i) (some b))
  match e with
  | .pushed _ =>
    some { (m.setQueue queue).setLogger i .outside with pushed := m.pushed ++ [(i, bytes)] }
  | _ => some (m.setQueue queue)

/-- A turn in `queue_.pop(queue_buffer_raw)`. -/
def pop (m : Machine ι) (pick : Nat) (turn : ConcurrentQueue.Turn) : Option (Machine ι) := do
  let (queue, e) ← m.self.queue.act pick (turn.pop .log)
  match e with
  | .popped none => some { m.setQueue queue with logThread := .exited }
  | .popped (some b) => some { m.setQueue queue with logThread := .logging b }
  | _ => some (m.setQueue queue)

/-- A turn in `queue_.push(NULL)`. -/
def pushNull (m : Machine ι) (pick : Nat) (turn : ConcurrentQueue.Turn) : Option (Machine ι) := do
  let (queue, e) ← m.self.queue.act pick (turn.push .destructor none)
  match e with
  | .pushed _ => some { m.setQueue queue with destructor := .joining }
  | _ => some (m.setQueue queue)

variable [Fintype ι]

/-- One step, with the choice `notifyOne` makes in it.  The destructor is called when all calls of
`log` have returned. -/
def step (m : Machine ι) (turn : Nat × Action ι) : Option (Machine ι) :=
  match turn.2 with
  | .getObject i bytes =>
    if m.loggers i = .outside ∧ m.destructor = .notStarted then some (m.getObject i bytes) else none
  | .reserveWritableBytes i =>
    match m.loggers i with
    | .gotObject b bytes => do
      let d ← (m.heap b).reserveWritableBytes bytes.length
      some ((m.setBuffer b d).setLogger i (.reserved b bytes))
    | _ => none
  | .memcpy i =>
    match m.loggers i with
    | .reserved b bytes => do
      let d ← (m.heap b).store 0 bytes
      some ((m.setBuffer b d).setLogger i (.copied b bytes))
    | _ => none
  | .write i =>
    match m.loggers i with
    | .copied b bytes =>
      some ((m.setBuffer b ((m.heap b).write bytes.length)).setLogger i (.written b bytes))
    | _ => none
  | .push i t =>
    match m.loggers i with
    | .written b bytes => m.push turn.1 i b bytes t
    | _ => none
  | .pop t => if m.logThread = .popping then m.pop turn.1 t else none
  | .sinkLog =>
    match m.logThread with
    | .logging b =>
      some { m with received := m.received ++ [(m.heap b).readable], logThread := .reading b }
    | _ => none
  | .read =>
    match m.logThread with
    | .reading b =>
      some { m.setBuffer b ((m.heap b).read (m.heap b).readableBytes) with
        logThread := .returning b }
    | _ => none
  | .returnObject =>
    match m.logThread with
    | .returning b =>
      some { m.setPool (m.self.pool.returnObject b) with logThread := .popping }
    | _ => none
  | .destroy =>
    if m.destructor = .notStarted ∧ ∀ i, m.loggers i = .outside then
      some { m with destructor := .pushing }
    else none
  | .pushNull t => if m.destructor = .pushing then m.pushNull turn.1 t else none
  | .join =>
    if m.destructor = .joining ∧ m.logThread = .exited then
      some { m with destructor := .joined }
    else none

end Machine

/-! ## Holders -/

inductive Holder (ι : Type) where
  | pool
  | logger (i : ι)
  | queue
  | logThread

/-- A thread that has pushed its buffer has it no more. -/
def Machine.held {ι : Type} (m : Machine ι) : Holder ι → List Address
  | .pool => m.self.pool.reusedObjectList
  | .logger i => (m.loggers i).buffers
  | .queue => m.self.queue.queue.reduceOption
  | .logThread => m.logThread.buffers

end LogAsyncSink

end Brickred
