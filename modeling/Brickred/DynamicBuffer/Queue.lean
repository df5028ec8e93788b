import Mathlib.Logic.Function.Basic
import Brickred.DynamicBuffer
import Brickred.Lib.Runs

/-!
# `DynamicBuffer` is a queue of bytes

A pool of buffers under any sequence of calls, and the queues of bytes it stands for.

* `Op`, `Call` — the operations of one buffer, and `swap` of two.
* `Queues.step` — what a call does to the queues and what it answers: the specification.
* `Fits` — the reservations whose storage, as a mathematical integer, is one a vector can hold.
* `pool_refines_queues` — a run of calls whose reservations fit is a run of the queues, with the
  same answers; integers are read back as they were written.
* `wrapped_reservation` — a reservation whose size wraps around leaves no room.
-/

set_option autoImplicit false

namespace Brickred

namespace DynamicBuffer

open Runs

/-- The integers a buffer reads and writes. -/
inductive Width where
  | int8
  | int16
  | int32
  | int64
  deriving DecidableEq

def Width.bytes : Width → Nat
  | int8 => 1
  | int16 => 2
  | int32 => 4
  | int64 => 8

inductive Op where
  | reserveWritableBytes (size : Nat)
  /-- `reserveWritableBytes(size)`, `bytes` put at `writeBegin()`, and `write` of their number -/
  | fill (size : Nat) (bytes : List UInt8)
  | read (size : Nat)
  | clear
  | writeInt (width : Width) (v : Nat)
  | peekInt (width : Width) (offset : Nat)
  | readInt (width : Width)

/-- The answer of a call that reads an integer: `none` is `false`. -/
abbrev Answers := List (Option Nat)

def writeInt (d : DynamicBuffer) : Width → Nat → Option DynamicBuffer
  | .int8, v => d.writeInt8 v
  | .int16, v => d.writeInt16 v
  | .int32, v => d.writeInt32 v
  | .int64, v => d.writeInt64 v

def peek (d : DynamicBuffer) : Width → Nat → Option Nat
  | .int8, offset => peekInt8 d.readable offset
  | .int16, offset => peekInt16 d.readable offset
  | .int32, offset => peekInt32 d.readable offset
  | .int64, offset => peekInt64 d.readable offset

/-- `readInt8` … `readInt64`. -/
def readInt (d : DynamicBuffer) (width : Width) : DynamicBuffer × Option Nat :=
  match d.peek width 0 with
  | none => (d, none)
  | some v => (d.read width.bytes, some v)

def apply (d : DynamicBuffer) : Op → Option (DynamicBuffer × Answers)
  | .reserveWritableBytes size => (d.reserveWritableBytes size).map fun d => (d, [])
  | .fill size bytes => do
    let d ← d.reserveWritableBytes size
    let d ← d.store 0 bytes
    some (d.write bytes.length, [])
  | .read size => some (d.read size, [])
  | .clear => some (d.clear, [])
  | .writeInt width v => (d.writeInt width v).map fun d => (d, [])
  | .peekInt width offset => some (d, [d.peek width offset])
  | .readInt width => some ((d.readInt width).1, [(d.readInt width).2])

/-- Any number of buffers, and the answers so far. -/
structure Pool where
  buffer : Nat → DynamicBuffer
  answers : Answers

inductive Call where
  | on (i : Nat) (op : Op)
  | swap (i j : Nat)

namespace Pool

def new (initSize expandSize : Nat → Nat) : Pool :=
  ⟨fun i => DynamicBuffer.new (initSize i) (expandSize i), []⟩

/-- `none`: no defined result, or no memory. -/
def step (pool : Pool) : Call → Option Pool
  | .on i op => (pool.buffer i).apply op |>.map fun r =>
      ⟨Function.update pool.buffer i r.1, pool.answers ++ r.2⟩
  | .swap i j => some
      { pool with
        buffer := Function.update (Function.update pool.buffer i (pool.buffer j)) j (pool.buffer i) }

end Pool

/-! ## The specification -/

/-- The queues of bytes, and the answers so far. -/
structure Queues where
  queue : Nat → List UInt8
  answers : Answers

namespace Queues

/-- `bytes` of a queue from `offset` on, as an integer. -/
def peek (queue : List UInt8) (width : Width) (offset : Nat) : Option Nat :=
  if offset + width.bytes ≤ queue.length then
    some (BigEndian.ofBytes ((queue.drop offset).take width.bytes))
  else none

def apply (queue : List UInt8) : Op → List UInt8 × Answers
  | .reserveWritableBytes _ => (queue, [])
  | .fill _ bytes => (queue ++ bytes, [])
  | .read size => (queue.drop size, [])
  | .clear => ([], [])
  | .writeInt width v => (queue ++ BigEndian.toBytes width.bytes v, [])
  | .peekInt width offset => (queue, [peek queue width offset])
  | .readInt width =>
    (if width.bytes ≤ queue.length then queue.drop width.bytes else queue, [peek queue width 0])

def empty : Queues := ⟨fun _ => [], []⟩

def step (s : Queues) : Call → Queues
  | .on i op =>
    ⟨Function.update s.queue i (apply (s.queue i) op).1, s.answers ++ (apply (s.queue i) op).2⟩
  | .swap i j =>
    { s with queue := Function.update (Function.update s.queue i (s.queue j)) j (s.queue i) }

end Queues

/-- The queues a pool stands for. -/
def Pool.queues (pool : Pool) : Queues := ⟨readable ∘ pool.buffer, pool.answers⟩

/-! ## Calls -/

/-- The arguments are `size_t`, no more bytes are filled in than were reserved, and the end of a
peek does not wrap around. -/
def Op.Valid : Op → Prop
  | .reserveWritableBytes size => size < 2 ^ 64
  | .fill size bytes => size < 2 ^ 64 ∧ bytes.length ≤ size
  | .peekInt width offset => offset + width.bytes < 2 ^ 64
  | _ => True

def Call.Valid : Call → Prop
  | .on _ op => op.Valid
  | .swap _ _ => True

instance (call : Call) : Decidable call.Valid :=
  match call with
  | .on _ (.reserveWritableBytes _) => inferInstanceAs (Decidable (_ < _))
  | .on _ (.fill _ _) => inferInstanceAs (Decidable (_ ∧ _))
  | .on _ (.peekInt _ _) => inferInstanceAs (Decidable (_ < _))
  | .on _ (.read _) | .on _ .clear | .on _ (.writeInt _ _) | .on _ (.readInt _) => .isTrue trivial
  | .swap _ _ => .isTrue trivial

/-- What the operation reserves. -/
def Op.reserved : Op → Option Nat
  | .reserveWritableBytes size => some size
  | .fill size _ => some size
  | .writeInt width _ => some width.bytes
  | _ => none

/-- The storage for what the call reserves is one a vector can hold. -/
def Pool.Fits (pool : Pool) : Call → Prop
  | .on i op => ∀ size ∈ op.reserved, (pool.buffer i).Fits size
  | .swap _ _ => True

instance (pool : Pool) (call : Call) : Decidable (pool.Fits call) :=
  match call with
  | .on _ _ => inferInstanceAs (Decidable (∀ size ∈ _, _))
  | .swap _ _ => .isTrue trivial

/-- A call of `reserveWritableBytes` leaves the room it was asked for. -/
def Pool.MakesRoom (pool : Pool) : Call → Prop
  | .on i (.reserveWritableBytes size) =>
    ∃ d, (pool.buffer i).reserveWritableBytes size = some d ∧ size ≤ d.writableBytes
  | _ => True

def Pool.Sized (pool : Pool) : Prop := ∀ i, (pool.buffer i).Sized

section Refinement

variable {d : DynamicBuffer}

theorem writeInt_eq (d : DynamicBuffer) (width : Width) (v : Nat) :
    d.writeInt width v = d.writeBytes (BigEndian.toBytes width.bytes v) := by
  cases width <;> rfl

theorem peek_eq (d : DynamicBuffer) (width : Width) (offset : Nat) :
    d.peek width offset = Queues.peek d.readable width offset := by
  have hpeek : d.peek width offset = peekInt width.bytes d.readable offset := by
    cases width <;> rfl
  rw [hpeek]
  unfold peekInt Queues.peek
  by_cases h : offset + width.bytes ≤ d.readable.length
  · rw [if_pos h, if_neg (by omega)]
  · rw [if_neg h, if_pos (by omega)]

theorem Sized.read (hd : d.Sized) (size : Nat) : (d.read size).Sized := by
  unfold DynamicBuffer.read
  split <;> exact ⟨hd.expand_pos, hd.expand_lt, hd.size_lt⟩

/-- **One operation** has its effect on the queue. -/
theorem apply_refines (hd : d.Sized) {op : Op} (hop : op.Valid)
    (hfits : ∀ size ∈ op.reserved, d.Fits size) :
    ∃ d' answers, d.apply op = some (d', answers) ∧
      (d'.readable, answers) = Queues.apply d.readable op ∧ d'.Sized := by
  cases op with
  | reserveWritableBytes size =>
    obtain ⟨d', hd', hread, _, _, hsized⟩ := reserve_spec hd hop (hfits size rfl)
    exact ⟨d', [], by rw [apply, hd']; rfl, by rw [hread]; rfl, hsized⟩
  | fill size bytes =>
    obtain ⟨d₁, d₂, hd₁, hd₂, hread, -, hsized⟩ := fill_spec hd hop.1 (hfits size rfl) hop.2
    refine ⟨d₂.write bytes.length, [], ?_, by rw [hread]; rfl, hsized⟩
    rw [apply, hd₁]
    simp only [bind, Option.bind_some, hd₂]
  | read size => exact ⟨_, _, rfl, by rw [readable_read]; rfl, hd.read size⟩
  | clear => exact ⟨_, _, rfl, by rw [readable_clear]; rfl, hd.expand_pos, hd.expand_lt, hd.size_lt⟩
  | writeInt width v =>
    have hlen := BigEndian.toBytes_length width.bytes v
    have hsmall : width.bytes < 2 ^ 64 := by cases width <;> decide
    obtain ⟨d', hd', hread, hsized⟩ := writeBytes_spec hd (hlen ▸ hsmall)
      (hlen.symm ▸ hfits width.bytes rfl)
    exact ⟨d', [], by rw [apply, writeInt_eq, hd']; rfl, by rw [hread]; rfl, hsized⟩
  | peekInt width offset => exact ⟨_, _, rfl, by rw [peek_eq]; rfl, hd⟩
  | readInt width =>
    refine ⟨_, _, rfl, ?_, ?_⟩
    · show ((d.readInt width).1.readable, [(d.readInt width).2]) =
        (if width.bytes ≤ d.readable.length then d.readable.drop width.bytes else d.readable,
          [Queues.peek d.readable width 0])
      unfold readInt
      rw [peek_eq]
      unfold Queues.peek
      rw [Nat.zero_add]
      by_cases h : width.bytes ≤ d.readable.length
      · simp only [if_pos h, readable_read]
      · simp only [if_neg h]
    · unfold readInt
      split
      · exact hd
      · exact hd.read _

/-- **One call** has its effect on the queues. -/
theorem step_refines {pool : Pool} {call : Call} (hpool : pool.Sized) (hcall : call.Valid)
    (hfits : pool.Fits call) :
    ∃ pool', pool.step call = some pool' ∧ pool'.Sized ∧
      pool'.queues = pool.queues.step call := by
  cases call with
  | on i op =>
    obtain ⟨d', answers, happly, href, hsized⟩ := apply_refines (hpool i) hcall hfits
    refine ⟨⟨Function.update pool.buffer i d', pool.answers ++ answers⟩, ?_, fun k => ?_, ?_⟩
    · rw [Pool.step, happly]; rfl
    · show (Function.update pool.buffer i d' k).Sized
      rw [Function.update_apply]
      split
      · exact hsized
      · exact hpool k
    · have hq : d'.readable = (Queues.apply ((pool.buffer i).readable) op).1 := by rw [← href]
      have ha : answers = (Queues.apply ((pool.buffer i).readable) op).2 := by rw [← href]
      show Queues.mk (readable ∘ Function.update pool.buffer i d') (pool.answers ++ answers) = _
      rw [Function.comp_update, hq, ha]
      rfl
  | swap i j =>
    refine ⟨_, rfl, fun k => ?_, ?_⟩
    · show (Function.update (Function.update pool.buffer i (pool.buffer j)) j (pool.buffer i) k).Sized
      rw [Function.update_apply, Function.update_apply]
      split
      · exact hpool i
      · split
        · exact hpool j
        · exact hpool k
    · show Queues.mk (readable ∘ Function.update (Function.update _ i _) j _) _ = _
      rw [Function.comp_update, Function.comp_update]
      rfl

theorem makesRoom {pool : Pool} {call : Call} (hpool : pool.Sized) (hcall : call.Valid)
    (hfits : pool.Fits call) : pool.MakesRoom call := by
  unfold Pool.MakesRoom
  split
  · rename_i i size
    obtain ⟨d', hd', _, hroom, _⟩ := reserve_spec (hpool i) hcall (hfits size rfl)
    exact ⟨d', hd', hroom⟩
  · trivial

end Refinement

/-! ## Integers read back -/

/-- Writing and reading an integer. -/
inductive IntOp where
  | write (width : Width) (v : Nat)
  | read (width : Width)

def IntOp.op : IntOp → Op
  | write width v => .writeInt width v
  | read width => .readInt width

/-- The values that matching reads should give, when `pending` have been written and not yet read;
`none` when a read does not match, or a value is too large for its width. -/
def readBack : List (Width × Nat) → List IntOp → Option (List Nat)
  | _, [] => some []
  | pending, .write width v :: ops =>
    if v < 2 ^ (8 * width.bytes) then readBack (pending ++ [(width, v)]) ops else none
  | [], .read _ :: _ => none
  | (width', v) :: pending, .read width :: ops =>
    if width = width' then (readBack pending ops).map (v :: ·) else none

/-- The bytes of integers. -/
def intBytes (pending : List (Width × Nat)) : List UInt8 :=
  pending.flatMap fun p => BigEndian.toBytes p.1.bytes p.2

theorem apply_readInt {width : Width} {v : Nat} (hv : v < 2 ^ (8 * width.bytes))
    (rest : List UInt8) :
    Queues.apply (BigEndian.toBytes width.bytes v ++ rest) (.readInt width) = (rest, [some v]) := by
  have hlen := BigEndian.toBytes_length width.bytes v
  have hle : width.bytes ≤ (BigEndian.toBytes width.bytes v ++ rest).length := by
    rw [List.length_append]; omega
  show (if _ then _ else _, [Queues.peek _ width 0]) = _
  unfold Queues.peek
  rw [Nat.zero_add, if_pos hle, if_pos hle, List.drop_left' hlen, List.drop_zero,
    List.take_left' hlen, BigEndian.ofBytes_toBytes, Nat.mod_eq_of_lt hv]

/-- **Matching reads** answer what was written. -/
theorem ints_read_back (i : Nat) : ∀ (ops : List IntOp) (pending : List (Width × Nat))
    (values : List Nat) (s : Queues), s.queue i = intBytes pending →
    (∀ p ∈ pending, p.2 < 2 ^ (8 * p.1.bytes)) → readBack pending ops = some values →
    ((ops.map fun op => Call.on i op.op).foldl Queues.step s).answers =
      s.answers ++ values.map some
  | [], _, _, s, _, _, h => by
    rw [readBack] at h
    cases h
    exact (List.append_nil _).symm
  | .write width v :: ops, pending, values, s, hq, hp, h => by
    rw [readBack] at h
    split at h
    · rename_i hv
      rw [List.map_cons, List.foldl_cons,
        ints_read_back i ops (pending ++ [(width, v)]) values _ ?_ ?_ h]
      · show (s.answers ++ []) ++ _ = _
        rw [List.append_nil]
      · show Function.update s.queue i (s.queue i ++ _) i = _
        rw [Function.update_self, hq]
        unfold intBytes
        rw [List.flatMap_append, List.flatMap_singleton]
      · intro p hmem
        rcases List.mem_append.1 hmem with hmem | hmem
        · exact hp p hmem
        · rw [List.mem_singleton.1 hmem]
          exact hv
    · cases h
  | .read _ :: _, [], _, _, _, _, h => by cases h
  | .read width :: ops, (width', v) :: pending, values, s, hq, hp, h => by
    rw [readBack] at h
    split at h
    · rename_i hwidth
      subst hwidth
      obtain ⟨values', hvalues, rfl⟩ := Option.map_eq_some_iff.1 h
      have happly := apply_readInt (hp _ (List.mem_cons_self ..)) (intBytes pending)
      have hqueue : s.queue i = BigEndian.toBytes width.bytes v ++ intBytes pending := by
        rw [hq]
        exact List.flatMap_cons
      rw [← hqueue] at happly
      rw [List.map_cons, List.foldl_cons, ints_read_back i ops pending values' _ ?_
        (fun p hmem => hp p (List.mem_cons_of_mem _ hmem)) hvalues]
      · show (s.answers ++ (Queues.apply (s.queue i) (.readInt width)).2) ++ _ = _
        rw [happly, List.append_assoc]
        rfl
      · show Function.update s.queue i (Queues.apply (s.queue i) (.readInt width)).1 i = _
        rw [Function.update_self, happly]
    · cases h

/-! ## Runs -/

/-- The indices of every buffer lie in order within its storage. -/
def Pool.InBounds (pool : Pool) : Prop :=
  ∀ i, (pool.buffer i).readIndex ≤ (pool.buffer i).writeIndex ∧
    (pool.buffer i).writeIndex ≤ (pool.buffer i).buffer.length

theorem new_sized {initSize expandSize : Nat → Nat} (hinit : ∀ i, initSize i < 2 ^ 63)
    (hexpand : ∀ i, 1 ≤ expandSize i ∧ expandSize i < 2 ^ 64) :
    (Pool.new initSize expandSize).Sized := fun i =>
  ⟨(hexpand i).1, (hexpand i).2, by
    show (List.replicate (initSize i) (0 : UInt8)).length < _
    rw [List.length_replicate]
    exact hinit i⟩

theorem new_queues (initSize expandSize : Nat → Nat) :
    (Pool.new initSize expandSize).queues = Queues.empty := by
  show Queues.mk (readable ∘ _) [] = Queues.mk _ []
  congr 1

/-- **The buffers are queues**, in every run whose reservations fit. -/
theorem pool_refines_queues (initSize expandSize : Nat → Nat) (hinit : ∀ i, initSize i < 2 ^ 63)
    (hexpand : ∀ i, 1 ≤ expandSize i ∧ expandSize i < 2 ^ 64) (calls : List Call)
    (hcalls : EachStep Pool.step (fun _ call => call.Valid) (Pool.new initSize expandSize) calls)
    (hfits : EachStep Pool.step Pool.Fits (Pool.new initSize expandSize) calls) :
    (∃ pool, run Pool.step (Pool.new initSize expandSize) calls = some pool ∧
      pool.queues = calls.foldl Queues.step .empty ∧
      ∀ i ops values, calls = ops.map (fun op => Call.on i op.op) →
        readBack [] ops = some values → pool.answers = values.map some) ∧
    Along Pool.step Pool.InBounds (Pool.new initSize expandSize) calls ∧
    EachStep Pool.step (fun pool call => pool.MakesRoom call ∧
        ∃ pool', pool.step call = some pool' ∧ pool'.queues = pool.queues.step call)
      (Pool.new initSize expandSize) calls := by
  have hsized := new_sized hinit hexpand
  have halong : Along Pool.step Pool.Sized (Pool.new initSize expandSize) calls :=
    along_of_eachStep (fun pool call pool' hP hC hs => by
      obtain ⟨pool'', hs', hP', _⟩ := step_refines hP hC.1 hC.2
      rw [hs] at hs'
      cases hs'
      exact hP') hsized (hcalls.and hfits)
  refine ⟨?_, halong.mono fun pool _ i => ⟨(pool.buffer i).read_le_write,
    (pool.buffer i).write_le_size⟩, ?_⟩
  · obtain ⟨pool, hrun, _, habs⟩ := @run_refines _ _ _ _ _ _ Pool.queues Queues.step
      (fun pool call hP (hC : call.Valid ∧ pool.Fits call) => step_refines hP hC.1 hC.2)
      _ _ hsized (hcalls.and hfits)
    rw [new_queues] at habs
    refine ⟨pool, hrun, habs, ?_⟩
    rintro i ops values rfl hvalues
    show pool.queues.answers = _
    rw [habs, ints_read_back i ops [] values .empty rfl (by simp) hvalues]
    exact List.nil_append _
  · refine ((hcalls.and hfits).and halong.eachStep).mono ?_
    rintro pool call ⟨⟨hvalid, hfit⟩, hP, _⟩
    obtain ⟨pool', hs, _, habs⟩ := step_refines hP hvalid hfit
    exact ⟨makesRoom hP hvalid hfit, pool', hs, habs⟩

/-- Three integers through the first of two buffers, which are swapped on the way. -/
def swappedCalls : List Call :=
  [.on 0 (.writeInt .int16 258), .on 0 (.writeInt .int8 7), .swap 0 1, .on 1 (.readInt .int16),
    .on 1 (.fill 3 [1, 2]), .on 1 (.read 9), .on 1 (.peekInt .int8 0)]

theorem swappedCalls_refined :
    (∃ pool, run Pool.step (Pool.new (fun _ => 16) fun _ => 16) swappedCalls = some pool ∧
      pool.queues = swappedCalls.foldl Queues.step .empty ∧
      ∀ i ops values, swappedCalls = ops.map (fun op => Call.on i op.op) →
        readBack [] ops = some values → pool.answers = values.map some) ∧
    Along Pool.step Pool.InBounds (Pool.new (fun _ => 16) fun _ => 16) swappedCalls ∧
    EachStep Pool.step (fun pool call => pool.MakesRoom call ∧
        ∃ pool', pool.step call = some pool' ∧ pool'.queues = pool.queues.step call)
      (Pool.new (fun _ => 16) fun _ => 16) swappedCalls :=
  pool_refines_queues (fun _ => 16) (fun _ => 16) (fun _ => by decide) (fun _ => by decide)
    swappedCalls (by decide) (by decide)

/-- **A reservation that wraps around**: the storage is replaced by an empty one, and there is no
room for a single byte. -/
theorem wrapped_reservation :
    ¬ ∀ calls : List Call,
      EachStep Pool.step (fun _ call => call.Valid) (Pool.new (fun _ => 1024) fun _ => 1024) calls →
      ∃ pool, run Pool.step (Pool.new (fun _ => 1024) fun _ => 1024) calls = some pool ∧
        pool.queues = calls.foldl Queues.step .empty := by
  intro h
  obtain ⟨pool, hrun, _⟩ := h [.on 0 (.fill (2 ^ 64 - 1024) [7])]
    ⟨⟨by decide, by decide⟩, fun _ _ => trivial⟩
  have hnone : Pool.step (Pool.new (fun _ => 1024) fun _ => 1024)
      (.on 0 (.fill (2 ^ 64 - 1024) [7])) = none :=
    Option.isNone_iff_eq_none.1 (by decide +kernel)
  rw [run, hnone] at hrun
  cases hrun

end DynamicBuffer

end Brickred
