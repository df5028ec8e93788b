import Mathlib.Logic.Function.Basic
import Brickred.Timestamp

/-!
# `TimerHeap` (model of `timer_heap.cc`)

`timers_` and `timer_min_heap_` both hold pointers to heap-allocated `Timer` objects, and each
object holds its own position in the heap.  The model keeps the pointers: an address leads to
an object through `mem`, and an operation that indexes the vector out of range, follows NULL or
follows a pointer to a deleted object has no result (`none`).

* `minHeapInsert`, `minHeapErase` — the two sift loops, with the hand-kept positions.
* `addTimer`, `removeTimer`, `getNextTimeoutMillisecond`.
* `checkTimeoutTurn` — one turn of the loop of `checkTimeout`, up to the call of the timer's
  callback; `checkTimeout` — the loop for callbacks that do not touch the heap; `Machine` — the
  loop for callbacks that do, as a stack of running `checkTimeout` calls.

The callback type `κ` is arbitrary.  Vector positions are natural numbers (`int` in the source).
-/

set_option autoImplicit false

namespace Brickred

abbrev Addr := Nat

abbrev TimerId := Int

/-- `class Timer`; `heapPos` is `-1` while the timer is in no slot. -/
structure Timer (κ : Type) where
  id : TimerId
  timestamp : Timestamp
  timeout : Int
  timerCb : κ
  callTimes : Int
  heapPos : Int
  deriving DecidableEq

/-- Declared to return `int`, although `timeout_` has 64 bits. -/
def Timer.getTimeout {κ : Type} (t : Timer κ) : Int := toInt t.timeout

/-- What `checkTimeout` does to a timer that is not on its last call. -/
def Timer.rearm {κ : Type} (t : Timer κ) : Timer κ :=
  { t with
    callTimes := if t.callTimes > 0 then t.callTimes - 1 else t.callTimes
    timestamp := t.timestamp.addAssign t.getTimeout }

/-- `TimerIdAllocator::getId` (the incremented counter is also the id; it starts over at `0`). -/
def TimerIdAllocator.getId (value : Int) : Int :=
  if toInt64 (value + 1) < 0 then 0 else toInt64 (value + 1)

/-- `class TimerHeap::Impl` with the memory its pointers lead into. -/
structure TimerHeap (κ : Type) where
  timerIdAllocator : Int
  mem : Addr → Option (Timer κ)
  timers : TimerId → Option Addr
  timerMinHeap : List (Option Addr)

namespace TimerHeap

variable {κ : Type}

def init : TimerHeap κ := ⟨0, fun _ => none, fun _ => none, [none]⟩

/-- The pointer in `timer_min_heap_[i]`, when there is one to follow. -/
def ptr (h : TimerHeap κ) (i : Nat) : Option Addr := h.timerMinHeap[i]?.join

/-- `*timer_min_heap_[i]`. -/
def slot (h : TimerHeap κ) (i : Nat) : Option (Timer κ) := (h.ptr i).bind h.mem

def updateTimer (h : TimerHeap κ) (timer : Addr) (f : Timer κ → Timer κ) : Option (TimerHeap κ) :=
  (h.mem timer).map fun t => { h with mem := Function.update h.mem timer (some (f t)) }

def setHeapPos (h : TimerHeap κ) (timer : Addr) (heapPos : Int) : Option (TimerHeap κ) :=
  h.updateTimer timer fun t => { t with heapPos := heapPos }

/-- `timer_min_heap_[i]->setHeapPos(heapPos)`. -/
def setSlotPos (h : TimerHeap κ) (i : Nat) (heapPos : Int) : Option (TimerHeap κ) :=
  (h.ptr i).bind fun timer => h.setHeapPos timer heapPos

/-- The three statements both sift loops end a turn with. -/
def swapSlots (h : TimerHeap κ) (i j : Nat) : Option (TimerHeap κ) := do
  let h ← h.setSlotPos i j
  let h ← h.setSlotPos j i
  let p ← h.timerMinHeap[i]?
  let q ← h.timerMinHeap[j]?
  some { h with timerMinHeap := (h.timerMinHeap.set i q).set j p }

/-- `delete timer` and `timers_.erase(timer_id)`. -/
def release (h : TimerHeap κ) (timerId : TimerId) (timer : Addr) : TimerHeap κ :=
  { h with timers := Function.update h.timers timerId none, mem := Function.update h.mem timer none }

/-! ## The heap -/

/-- The loop of `minHeapInsert`. -/
def insertLoop : Nat → TimerHeap κ → Nat → Option (TimerHeap κ)
  | 0, _, _ => none
  | fuel + 1, h, curIndex =>
    let parentIndex := curIndex / 2
    if parentIndex = 0 then some h
    else do
      let parent ← h.slot parentIndex
      let cur ← h.slot curIndex
      if parent.timestamp.less cur.timestamp then some h
      else do
        let h ← h.swapSlots parentIndex curIndex
        insertLoop fuel h parentIndex

def minHeapInsert (h : TimerHeap κ) (timer : Addr) : Option (TimerHeap κ) := do
  let curIndex := h.timerMinHeap.length
  let h := { h with timerMinHeap := h.timerMinHeap ++ [some timer] }
  let h ← h.setHeapPos timer curIndex
  insertLoop h.timerMinHeap.length h curIndex

/-- The child `minHeapErase` compares with: the right one when there is one and it is earlier. -/
def lesserChild (h : TimerHeap κ) (childIndex : Nat) : Option Nat :=
  if childIndex + 1 < h.timerMinHeap.length then do
    let right ← h.slot (childIndex + 1)
    let left ← h.slot childIndex
    some (if right.timestamp.less left.timestamp then childIndex + 1 else childIndex)
  else some childIndex

/-- The loop of `minHeapErase`. -/
def eraseLoop : Nat → TimerHeap κ → Nat → Option (TimerHeap κ)
  | 0, _, _ => none
  | fuel + 1, h, curIndex =>
    if curIndex * 2 ≥ h.timerMinHeap.length then some h
    else do
      let childIndex ← h.lesserChild (curIndex * 2)
      let cur ← h.slot curIndex
      let child ← h.slot childIndex
      if cur.timestamp.less child.timestamp then some h
      else do
        let h ← h.swapSlots curIndex childIndex
        eraseLoop fuel h childIndex

/-- The last slot's pointer fills the hole; from there the loop only sifts towards the leaves. -/
def minHeapErase (h : TimerHeap κ) (timer : Addr) : Option (TimerHeap κ) := do
  let t ← h.mem timer
  if t.heapPos < 0 then some h
  else do
    let curIndex := t.heapPos.toNat
    let h ← h.setHeapPos timer (-1)
    let back ← h.timerMinHeap.getLast?
    let _ ← h.timerMinHeap[curIndex]?
    let h := { h with timerMinHeap := h.timerMinHeap.set curIndex back }
    let h ← h.setSlotPos curIndex curIndex
    let h := { h with timerMinHeap := h.timerMinHeap.dropLast }
    eraseLoop h.timerMinHeap.length h curIndex

/-- `none` is NULL: no timer is pending. -/
def minHeapTop (h : TimerHeap κ) : Option Addr :=
  if h.timerMinHeap.length ≤ 1 then none else h.ptr 1

/-! ## The operations -/

def getNextTimeoutMillisecond (h : TimerHeap κ) (now : Timestamp) : Option Int :=
  match h.minHeapTop with
  | none => some (-1)
  | some timer => do
    let t ← h.mem timer
    some (if t.timestamp.less now then 0 else now.distanceMillisecond t.timestamp)

/-- `addr` is the address `new Timer` returns.  `minHeapReserve` only affects capacity. -/
def addTimer (h : TimerHeap κ) (now : Timestamp) (timeoutMs : Int) (timerCb : κ)
    (callTimes : Int) (addr : Addr) : Option (TimerHeap κ × TimerId) :=
  let timerId := TimerIdAllocator.getId h.timerIdAllocator
  let h := { h with timerIdAllocator := timerId }
  let timeoutMs := max 0 timeoutMs
  if (h.timers timerId).isSome then some (h, -1)
  else do
    let h := { h with
      mem := Function.update h.mem addr
        (some ⟨timerId, now.add timeoutMs, timeoutMs, timerCb, callTimes, -1⟩)
      timers := Function.update h.timers timerId (some addr) }
    let h ← h.minHeapInsert addr
    some (h, timerId)

def removeTimer (h : TimerHeap κ) (timerId : TimerId) : Option (TimerHeap κ) :=
  match h.timers timerId with
  | none => some h
  | some timer => do
    let h ← h.minHeapErase timer
    some (h.release timerId timer)

/-- How one turn of the loop of `checkTimeout` ends: it returns, or it calls the callback of the
timer `timer` (given as it was when it fell due) with the heap already updated. -/
inductive Turn (κ : Type) where
  | finished
  | fired (heap : TimerHeap κ) (timer : Timer κ)

def checkTimeoutTurn (h : TimerHeap κ) (now : Timestamp) : Option (Turn κ) :=
  match h.minHeapTop with
  | none => some .finished
  | some timer => do
    let t ← h.mem timer
    if now.millisecondLess t.timestamp then some .finished
    else do
      let h ← h.minHeapErase timer
      if t.callTimes = 1 then some (.fired (h.release t.id timer) t)
      else do
        let h ← h.updateTimer timer Timer.rearm
        let h ← h.minHeapInsert timer
        some (.fired h t)

/-- `checkTimeout` for callbacks that do not touch the heap, and the timers it fires in order.
`none`: undefined, or not finished within `fuel` turns. -/
def checkTimeout : Nat → TimerHeap κ → Timestamp → Option (TimerHeap κ × List (Timer κ))
  | 0, _, _ => none
  | fuel + 1, h, now =>
    match h.checkTimeoutTurn now with
    | none => none
    | some .finished => some (h, [])
    | some (.fired h' t) =>
      match checkTimeout fuel h' now with
      | none => none
      | some (h'', ts) => some (h'', t :: ts)

/-! ## Callbacks that use the heap -/

/-- The heap and the `now` of every `checkTimeout` call in progress, innermost first.  The code
outside the heap (the owner, or the callback of the innermost call) is to move. -/
structure Machine (κ : Type) where
  heap : TimerHeap κ
  running : List Timestamp

/-- What the code outside the heap can do. -/
inductive Op (κ : Type) where
  | addTimer (now : Timestamp) (timeoutMs : Int) (timerCb : κ) (callTimes : Int) (addr : Addr)
  | removeTimer (timerId : TimerId)
  | checkTimeout (now : Timestamp)
  /-- the running callback returns to the loop of the innermost `checkTimeout` -/
  | callbackReturn

def Machine.init : Machine κ := ⟨TimerHeap.init, []⟩

/-- One turn of a `checkTimeout` call that was called with `now` over the calls in `outer`. -/
def Machine.turn (h : TimerHeap κ) (now : Timestamp) (outer : List Timestamp) :
    Option (Machine κ) := do
  match ← h.checkTimeoutTurn now with
  | .finished => some ⟨h, outer⟩
  | .fired h' _ => some ⟨h', now :: outer⟩

def Machine.step (m : Machine κ) : Op κ → Option (Machine κ)
  | .addTimer now timeoutMs timerCb callTimes addr =>
    (m.heap.addTimer now timeoutMs timerCb callTimes addr).map fun r => { m with heap := r.1 }
  | .removeTimer timerId => (m.heap.removeTimer timerId).map fun h => { m with heap := h }
  | .checkTimeout now => Machine.turn m.heap now m.running
  | .callbackReturn =>
    match m.running with
    | [] => some m
    | now :: outer => Machine.turn m.heap now outer

/-- `new` returns an address that is not in use. -/
def Machine.Enabled (m : Machine κ) : Op κ → Prop
  | .addTimer _ _ _ _ addr => m.heap.mem addr = none
  | _ => True

instance (m : Machine κ) : ∀ op, Decidable (Machine.Enabled m op)
  | .addTimer _ _ _ _ addr => inferInstanceAs (Decidable (m.heap.mem addr = none))
  | .removeTimer _ => isTrue trivial
  | .checkTimeout _ => isTrue trivial
  | .callbackReturn => isTrue trivial

end TimerHeap

end Brickred
