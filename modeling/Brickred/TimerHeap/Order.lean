import Brickred.TimerHeap.Operations

/-!
# The order of the timer heap

`minHeapErase` fills the hole it makes with the last slot's timer and then sifts towards the
leaves only.  When the last slot comes from another subtree its timer can be earlier than the
hole's parent, and nothing moves it up.

* `heapOrder_iff_keyAt` — the order on the vector is the whole of what `minHeapTop` and
  `getNextTimeoutMillisecond` need.
* `heapOrder_iff_removalFits` — a run keeps the order iff no removal of it meets such a filler.
* `removeTimer_loses_order` — a run that ends with a timer the owner is told about too late.
-/

set_option autoImplicit false

namespace Brickred

namespace TimerHeap

open BinaryHeap

variable {κ : Type} {h : TimerHeap κ}

/-- No pending timer is earlier than `deadline`. -/
def NoneEarlier (h : TimerHeap κ) (deadline : Timestamp) : Prop :=
  ∀ id t, h.pending id = some t → ¬ t.timestamp.less deadline = true

/-- The vector is a min-heap: no timer is earlier than the one at its parent slot. -/
def Ordered (h : TimerHeap κ) : Prop :=
  ∀ i parent t, 2 ≤ i → h.slot (i / 2) = some parent → h.slot i = some t →
    ¬ t.timestamp.less parent.timestamp = true

/-- What `timer_min_heap_` is kept for. -/
structure HeapOrder (h : TimerHeap κ) : Prop where
  ordered : Ordered h
  topLeast : ∀ id t, h.pending id = some t → ∃ a top, h.minHeapTop = some a ∧
    h.mem a = some top ∧ h.pending top.id = some top.data ∧ h.NoneEarlier top.timestamp
  nextTimeout : ∀ now id t, h.pending id = some t → h.NoneEarlier t.timestamp →
    h.getNextTimeoutMillisecond now =
      some (if t.timestamp.less now then 0 else now.distanceMillisecond t.timestamp)

theorem Inv.pending_slot (hinv : Inv h none) {id : TimerId} {t : Timer κ}
    (hp : h.pending id = some t) :
    ∃ i u, 1 ≤ i ∧ i ≤ h.last ∧ h.slot i = some u ∧ u.id = id ∧ u.data = t := by
  unfold pending at hp
  obtain ⟨u, hu, hd⟩ := Option.map_eq_some_iff.1 hp
  obtain ⟨a, ha, hm⟩ := Option.bind_eq_some_iff.1 hu
  obtain ⟨v, hv, hid, hor⟩ := hinv.mapped id a ha
  rw [hm] at hv; cases hv
  obtain ⟨i, hptr⟩ := mem_heap_iff.1 (hor.resolve_left (by simp))
  exact ⟨i, u, (hinv.ptr_range hptr).1, (hinv.ptr_range hptr).2, slot_eq hptr hm, hid, hd⟩

theorem Inv.slot_pending (hinv : Inv h none) {i : Nat} {t : Timer κ} (hs : h.slot i = some t) :
    h.pending t.id = some t.data := by
  obtain ⟨a, _, hm, hid⟩ := hinv.slot_id hs
  exact pending_eq hid hm

theorem Inv.slot_range (hinv : Inv h none) {i : Nat} {t : Timer κ} (hs : h.slot i = some t) :
    1 ≤ i ∧ i ≤ h.last := by
  obtain ⟨a, hp, _⟩ := hinv.slot_id hs
  exact hinv.ptr_range hp

/-- The top of an ordered heap is no later than any pending timer. -/
theorem top_noneEarlier (hinv : Inv h none) (hheap : IsHeap h.keyAt h.last) {id : TimerId}
    {t : Timer κ} (hp : h.pending id = some t) :
    ∃ a top, h.minHeapTop = some a ∧ h.mem a = some top ∧ h.slot 1 = some top ∧
      h.NoneEarlier top.timestamp := by
  obtain ⟨i, u, h1, hl, _⟩ := hinv.pending_slot hp
  have hlen := hinv.length_eq
  obtain ⟨a, top, hptr, hm, _⟩ := hinv.slotOk 1 (by omega) (by omega)
  have hs := slot_eq hptr hm
  refine ⟨a, top, ?_, hm, hs, fun id' v hv => ?_⟩
  · unfold minHeapTop
    rw [if_neg (by omega), hptr]
  · obtain ⟨j, w, hj1, hjl, hw, _, hd⟩ := hinv.pending_slot hv
    have hle := hheap.root_le j hj1 hjl
    rw [keyAt_eq hs, keyAt_eq hw] at hle
    rw [Timestamp.not_less_iff, ← hd]
    exact hle

theorem ordered_iff_keyAt (hinv : Inv h none) : Ordered h ↔ IsHeap h.keyAt h.last := by
  constructor
  · intro ho i h2 hl
    obtain ⟨t, ht, hk⟩ := hinv.slot_some (i := i) (by omega) hl
    obtain ⟨p, hp, hkp⟩ := hinv.slot_some (i := i / 2) (by omega) (by omega)
    rw [hk, hkp]
    exact Timestamp.not_less_iff.1 (ho i p t h2 hp ht)
  · intro hheap i p t h2 hp ht
    have hle := hheap i h2 (hinv.slot_range ht).2
    rw [keyAt_eq hp, keyAt_eq ht] at hle
    exact Timestamp.not_less_iff.2 hle

/-- **The vector's order is all there is to it.** -/
theorem heapOrder_iff_keyAt (hinv : Inv h none) : HeapOrder h ↔ IsHeap h.keyAt h.last := by
  constructor
  · exact fun ho => (ordered_iff_keyAt hinv).1 ho.ordered
  · intro hheap
    refine ⟨(ordered_iff_keyAt hinv).2 hheap, fun id t hp => ?_, fun now id t hp hleast => ?_⟩
    · obtain ⟨a, top, htop, hm, hs, hleast⟩ := top_noneEarlier hinv hheap hp
      exact ⟨a, top, htop, hm, hinv.slot_pending hs, hleast⟩
    · obtain ⟨a, top, htop, hm, hs, htl⟩ := top_noneEarlier hinv hheap hp
      have heq : top.timestamp = t.timestamp := le_antisymm
        (Timestamp.not_less_iff.1 (htl id t hp))
        (Timestamp.not_less_iff.1 (hleast top.id top.data (hinv.slot_pending hs)))
      unfold getNextTimeoutMillisecond
      rw [htop]
      simp only [hm, bind, Option.bind_some, heq]

/-! ## Runs -/

/-- A removal meets no filler that is earlier than the hole's parent. -/
def Machine.RemovalFits (m : Machine κ) : Op κ → Prop
  | .removeTimer timerId => LastSlotFits m.heap timerId
  | _ => True

theorem Machine.turn_order {m' : Machine κ} {now : Timestamp} {outer : List Timestamp}
    (hinv : Inv h none) (hheap : IsHeap h.keyAt h.last)
    (ht : Machine.turn h now outer = some m') : IsHeap m'.heap.keyAt m'.heap.last := by
  obtain ⟨r, hr, hspec⟩ := checkTimeoutTurn_spec now hinv
  unfold Machine.turn at ht
  simp only [hr, bind, Option.bind_some] at ht
  cases hspec with
  | empty => cases ht; exact hheap
  | early => cases ht; exact hheap
  | fired _ _ _ hord => cases ht; exact hord hheap

/-- **One step** keeps the order exactly when it is no unfitting removal. -/
theorem Machine.step_order {m m' : Machine κ} {op : Op κ} (hinv : Inv m.heap none)
    (hheap : IsHeap m.heap.keyAt m.heap.last) (hen : Machine.Enabled m op)
    (hs : Machine.step m op = some m') :
    IsHeap m'.heap.keyAt m'.heap.last ↔ Machine.RemovalFits m op := by
  cases op with
  | addTimer now timeoutMs timerCb callTimes addr =>
    obtain ⟨h', r, hadd, _, hord, _⟩ := addTimer_spec now timeoutMs callTimes timerCb hinv hen
    rw [Machine.step, hadd] at hs
    cases hs
    exact ⟨fun _ => trivial, fun _ => hord hheap⟩
  | removeTimer timerId =>
    obtain ⟨h', hrem, _, hord, _⟩ := removeTimer_spec timerId hinv
    rw [Machine.step, hrem] at hs
    cases hs
    exact hord hheap
  | checkTimeout now =>
    exact ⟨fun _ => trivial, fun _ => Machine.turn_order hinv hheap hs⟩
  | callbackReturn =>
    refine ⟨fun _ => trivial, fun _ => ?_⟩
    rw [Machine.step] at hs
    split at hs
    · cases hs; exact hheap
    · exact Machine.turn_order hinv hheap hs

theorem init_isHeap : IsHeap (init : TimerHeap κ).keyAt (init : TimerHeap κ).last := by
  intro i h2 hl
  have hlast : (init : TimerHeap κ).last = 0 := rfl
  omega

/-- **A run keeps the heap in order** iff each of its removals fits. -/
theorem heapOrder_iff_removalFits (ops : List (Op κ))
    (hops : Runs.EachStep Machine.step Machine.Enabled Machine.init ops) :
    Runs.Along Machine.step (fun m => HeapOrder m.heap) Machine.init ops ↔
      Runs.EachStep Machine.step Machine.RemovalFits Machine.init ops := by
  refine Runs.along_iff_eachStep (I := fun m : Machine κ => Inv m.heap none)
    (fun m op => Machine.step_inv) ?_ init_inv ?_ hops
  · intro m op m' hinv hord hen hs
    rw [heapOrder_iff_keyAt (Machine.inv_of_step hinv hen hs)]
    exact Machine.step_order hinv ((heapOrder_iff_keyAt hinv).1 hord) hen hs
  · exact (heapOrder_iff_keyAt init_inv).2 init_isHeap

/-! ## A run that loses the order -/

/-- One call of `addTimer` at time zero. -/
def addAt (timeoutMs : Int) (addr : Addr) : Op Unit := .addTimer ⟨0, 0⟩ timeoutMs () 1 addr

/-- The third removal finds the 10 ms timer above the 3 ms timer, where the first one left it. -/
def lateOps : List (Op Unit) :=
  [addAt 1 1, addAt 10 2, addAt 2 3, addAt 11 4, addAt 12 5, addAt 3 6, .removeTimer 4,
    .removeTimer 3, addAt 20 7, .removeTimer 1]

theorem lateOps_order : Runs.EachStep Machine.step Machine.Enabled Machine.init lateOps ∧
    (Runs.Along Machine.step (fun m => HeapOrder m.heap) Machine.init lateOps ↔
      Runs.EachStep Machine.step Machine.RemovalFits Machine.init lateOps) :=
  ⟨by decide, heapOrder_iff_removalFits lateOps (by decide)⟩

/-- The owner is told to come back in 10 ms, and a timer is due in 3. -/
theorem removeTimer_loses_order :
    Runs.EachStep Machine.step Machine.Enabled Machine.init lateOps ∧
      ¬ Runs.Along Machine.step (fun m => HeapOrder m.heap) Machine.init lateOps ∧
      ((Runs.run Machine.step Machine.init lateOps).map fun m =>
        (m.heap.getNextTimeoutMillisecond ⟨0, 0⟩, (m.heap.pending 6).map (·.timestamp))) =
        some (some 10, some ⟨0, 3000000⟩) := by
  have hend : ((Runs.run Machine.step Machine.init lateOps).map fun m =>
      ((m.heap.slot 1).map (·.timestamp), (m.heap.slot 2).map (·.timestamp))) =
      some (some ⟨0, 10000000⟩, some ⟨0, 3000000⟩) := by decide
  refine ⟨by decide, fun halong => ?_, by decide⟩
  obtain ⟨m, hm, hslots⟩ := Option.map_eq_some_iff.1 hend
  obtain ⟨h1, h2⟩ := Prod.mk.inj hslots
  obtain ⟨top, htop, hkt⟩ := Option.map_eq_some_iff.1 h1
  obtain ⟨t, ht, hk⟩ := Option.map_eq_some_iff.1 h2
  refine (halong.last hm).ordered 2 top t (by omega) htop ht ?_
  rw [hkt, hk]
  decide

end TimerHeap

end Brickred
