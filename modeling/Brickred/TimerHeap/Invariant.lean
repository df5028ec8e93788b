import Mathlib.Data.List.Perm.Basic
import Brickred.Lib.BinaryHeap
import Brickred.Lib.Runs
import Brickred.TimerHeap.Model

/-!
# The timer map and the heap stay in step

`Inv h out` says that the pointers in `timer_min_heap_` and in `timers_` are the same ones, that
every timer object knows its slot, and that nothing is dangling; `out` is the one timer a
running operation has taken out of the heap and not yet put back or deleted.

* `swapSlots_spec`, `insertLoop_spec`, `eraseLoop_spec` — one turn and the whole of each sift
  loop: no fault, the invariant, and what the loop does to the order (`BinaryHeap`).
* `minHeapInsert_spec`, `minHeapErase_spec` — the two heap operations.
-/

set_option autoImplicit false

namespace Brickred

/-- A timer without its position. -/
def Timer.data {κ : Type} (t : Timer κ) : Timer κ := { t with heapPos := -1 }

theorem Timer.id_of_data {κ : Type} {t u : Timer κ} (h : t.data = u.data) : t.id = u.id :=
  (congrArg Timer.id h : t.data.id = u.data.id)

namespace TimerHeap

open BinaryHeap

variable {κ : Type} {h h' : TimerHeap κ} {out : Option Addr} {i j : Nat} {a b : Addr}
  {t u : Timer κ}

/-- The deadline in slot `i`. -/
def keyAt (h : TimerHeap κ) (i : Nat) : Timestamp := ((h.slot i).map (·.timestamp)).getD ⟨0, 0⟩

/-- The last slot. -/
def last (h : TimerHeap κ) : Nat := h.timerMinHeap.length - 1

/-- Slot `i` points to a live timer that knows its position and that the map leads to. -/
def SlotOk (h : TimerHeap κ) (i : Nat) : Prop :=
  ∃ a t, h.ptr i = some a ∧ h.mem a = some t ∧ t.heapPos = i ∧ h.timers t.id = some a

structure Inv (h : TimerHeap κ) (out : Option Addr) : Prop where
  slotZero : h.timerMinHeap[0]? = some none
  slotOk : ∀ i, 1 ≤ i → i ≤ h.last → SlotOk h i
  mapped : ∀ id a, h.timers id = some a → ∃ t, h.mem a = some t ∧ t.id = id ∧
    (out = some a ∨ some a ∈ h.timerMinHeap)
  outLive : ∀ a, out = some a → some a ∉ h.timerMinHeap ∧
    ∃ t, h.mem a = some t ∧ h.timers t.id = some a

/-- Nothing but positions differs between the timer objects of two heaps. -/
structure SameTimers (h h' : TimerHeap κ) : Prop where
  data : ∀ a, (h'.mem a).map Timer.data = (h.mem a).map Timer.data
  timers : h'.timers = h.timers
  alloc : h'.timerIdAllocator = h.timerIdAllocator

theorem SameTimers.refl (h : TimerHeap κ) : SameTimers h h := ⟨fun _ => rfl, rfl, rfl⟩

theorem SameTimers.trans {h₁ h₂ h₃ : TimerHeap κ} (h12 : SameTimers h₁ h₂)
    (h23 : SameTimers h₂ h₃) : SameTimers h₁ h₃ :=
  ⟨fun a => (h23.data a).trans (h12.data a), h23.timers.trans h12.timers,
    h23.alloc.trans h12.alloc⟩

theorem SameTimers.mem (hs : SameTimers h h') (ht : h.mem a = some t) :
    ∃ t', h'.mem a = some t' ∧ t'.data = t.data := by
  have := hs.data a
  rw [ht] at this
  exact Option.map_eq_some_iff.1 this

/-! ## Slots -/

theorem Inv.length_pos (hi : Inv h out) : 1 ≤ h.timerMinHeap.length := by
  have := List.getElem?_eq_some_iff.1 hi.slotZero
  obtain ⟨hl, _⟩ := this
  omega

theorem Inv.length_eq (hi : Inv h out) : h.timerMinHeap.length = h.last + 1 := by
  have := hi.length_pos
  unfold last; omega

theorem ptr_eq_some : h.ptr i = some a ↔ h.timerMinHeap[i]? = some (some a) := by
  unfold ptr
  rw [Option.join_eq_some_iff]

theorem mem_heap_iff : some a ∈ h.timerMinHeap ↔ ∃ i, h.ptr i = some a := by
  simp only [ptr_eq_some]
  exact List.mem_iff_getElem?

theorem slot_eq (hp : h.ptr i = some a) (hm : h.mem a = some t) : h.slot i = some t := by
  unfold slot; rw [hp]; exact hm

theorem keyAt_eq (hs : h.slot i = some t) : h.keyAt i = t.timestamp := by
  unfold keyAt; rw [hs]; rfl

theorem Inv.ptr_range (hi : Inv h out) (hp : h.ptr i = some a) : 1 ≤ i ∧ i ≤ h.last := by
  rw [ptr_eq_some] at hp
  obtain ⟨hl, hv⟩ := List.getElem?_eq_some_iff.1 hp
  have hne : i ≠ 0 := by
    rintro rfl
    rw [hi.slotZero] at hp; cases hp
  exact ⟨by omega, by unfold last; omega⟩

theorem Inv.slotOk_of_ptr (hi : Inv h out) (hp : h.ptr i = some a) :
    ∃ t, h.mem a = some t ∧ t.heapPos = i ∧ h.timers t.id = some a := by
  obtain ⟨h1, h2⟩ := hi.ptr_range hp
  obtain ⟨b, t, hb, hm, hpos, hid⟩ := hi.slotOk i h1 h2
  rw [hp] at hb
  cases hb
  exact ⟨t, hm, hpos, hid⟩

/-- No pointer stands in two slots. -/
theorem Inv.ptr_inj (hi : Inv h out) (hp : h.ptr i = some a) (hq : h.ptr j = some a) : i = j := by
  obtain ⟨t, hm, hpos, _⟩ := hi.slotOk_of_ptr hp
  obtain ⟨u, hm', hpos', _⟩ := hi.slotOk_of_ptr hq
  rw [hm] at hm'
  cases hm'
  omega

theorem Inv.slot_some (hi : Inv h out) (h1 : 1 ≤ i) (h2 : i ≤ h.last) :
    ∃ t, h.slot i = some t ∧ h.keyAt i = t.timestamp := by
  obtain ⟨a, t, hp, hm, _⟩ := hi.slotOk i h1 h2
  exact ⟨t, slot_eq hp hm, keyAt_eq (slot_eq hp hm)⟩

/-! ## Exchanging two slots -/

/-- What `swapSlots` leaves behind. -/
def exchanged (h : TimerHeap κ) (i j : Nat) (a b : Addr) (t u : Timer κ) : TimerHeap κ :=
  { h with
    mem := Function.update (Function.update h.mem a (some { t with heapPos := j })) b
      (some { u with heapPos := i })
    timerMinHeap := (h.timerMinHeap.set i (some b)).set j (some a) }

theorem swapSlots_eq (hi : h.ptr i = some a) (hj : h.ptr j = some b) (hab : a ≠ b)
    (ht : h.mem a = some t) (hu : h.mem b = some u) :
    h.swapSlots i j = some (exchanged h i j a b t u) := by
  have hi' := ptr_eq_some.1 hi
  have hj' := ptr_eq_some.1 hj
  have hu' : Function.update h.mem a (some { t with heapPos := (j : Int) }) b = some u := by
    rw [Function.update_of_ne hab.symm]; exact hu
  have hj2 : ptr { h with mem := Function.update h.mem a (some { t with heapPos := (j : Int) }) } j
      = some b := hj
  simp only [swapSlots, setSlotPos, setHeapPos, updateTimer, hi, Option.bind_some, ht,
    Option.map_some, hj2, hu', hi', hj', bind, exchanged]

theorem exchanged_ptr (hi : h.ptr i = some a) (hj : h.ptr j = some b) (k : Nat) :
    (exchanged h i j a b t u).ptr k = h.ptr (Equiv.swap i j k) := by
  have hi' := ptr_eq_some.1 hi
  have hj' := ptr_eq_some.1 hj
  have hli := (List.getElem?_eq_some_iff.1 hi').1
  have hlj := (List.getElem?_eq_some_iff.1 hj').1
  unfold ptr exchanged
  dsimp only
  rw [List.getElem?_set, List.length_set, List.getElem?_set]
  by_cases hkj : j = k
  · subst hkj
    rw [if_pos rfl, if_pos hlj, Equiv.swap_apply_right, hi']
  · rw [if_neg hkj]
    by_cases hki : i = k
    · subst hki
      rw [if_pos rfl, if_pos hli, Equiv.swap_apply_left, hj']
    · rw [if_neg hki, Equiv.swap_apply_of_ne_of_ne (Ne.symm hki) (Ne.symm hkj)]

theorem exchanged_perm (hi : h.ptr i = some a) (hj : h.ptr j = some b) :
    (exchanged h i j a b t u).timerMinHeap.Perm h.timerMinHeap := by
  obtain ⟨hli, hvi⟩ := List.getElem?_eq_some_iff.1 (ptr_eq_some.1 hi)
  obtain ⟨hlj, hvj⟩ := List.getElem?_eq_some_iff.1 (ptr_eq_some.1 hj)
  have := List.set_set_perm hli hlj
  rw [hvi, hvj] at this
  exact this

theorem exchanged_same (hab : a ≠ b) (ht : h.mem a = some t) (hu : h.mem b = some u) :
    SameTimers h (exchanged h i j a b t u) := by
  refine ⟨fun c => ?_, rfl, rfl⟩
  unfold exchanged
  dsimp only
  by_cases hb : c = b
  · subst hb; rw [Function.update_self, hu]; rfl
  · rw [Function.update_of_ne hb]
    by_cases ha : c = a
    · subst ha; rw [Function.update_self, ht]; rfl
    · rw [Function.update_of_ne ha]

theorem exchanged_inv (hinv : Inv h out) (hi : h.ptr i = some a) (hj : h.ptr j = some b)
    (hij : i ≠ j) (ht : h.mem a = some t) (hu : h.mem b = some u) :
    Inv (exchanged h i j a b t u) out := by
  have hab : a ≠ b := by
    rintro rfl; exact hij (hinv.ptr_inj hi hj)
  have hperm := exchanged_perm (t := t) (u := u) hi hj
  have hlast : (exchanged h i j a b t u).last = h.last := by
    unfold last; rw [hperm.length_eq]
  have hri := hinv.ptr_range hi
  have hrj := hinv.ptr_range hj
  obtain ⟨t', ht', hpt, hidt⟩ := hinv.slotOk_of_ptr hi
  obtain ⟨u', hu', hpu, hidu⟩ := hinv.slotOk_of_ptr hj
  rw [ht] at ht'; cases ht'
  rw [hu] at hu'; cases hu'
  constructor
  · have h0 := hinv.slotZero
    unfold exchanged
    dsimp only
    rw [List.getElem?_set_ne (by omega), List.getElem?_set_ne (by omega)]
    exact h0
  · intro k h1 hk
    rw [hlast] at hk
    by_cases hkj : k = j
    · subst hkj
      refine ⟨a, { t with heapPos := (k : Int) }, ?_, ?_, rfl, hidt⟩
      · rw [exchanged_ptr hi hj, Equiv.swap_apply_right]; exact hi
      · unfold exchanged; dsimp only
        rw [Function.update_of_ne hab, Function.update_self]
    · by_cases hki : k = i
      · subst hki
        refine ⟨b, { u with heapPos := (k : Int) }, ?_, ?_, rfl, hidu⟩
        · rw [exchanged_ptr hi hj, Equiv.swap_apply_left]; exact hj
        · unfold exchanged; dsimp only
          rw [Function.update_self]
      · obtain ⟨c, v, hp, hm, hpos, hid⟩ := hinv.slotOk k h1 hk
        have hca : c ≠ a := by rintro rfl; exact hki (hinv.ptr_inj hp hi)
        have hcb : c ≠ b := by rintro rfl; exact hkj (hinv.ptr_inj hp hj)
        refine ⟨c, v, ?_, ?_, hpos, hid⟩
        · rw [exchanged_ptr hi hj, Equiv.swap_apply_of_ne_of_ne hki hkj]; exact hp
        · unfold exchanged; dsimp only
          rw [Function.update_of_ne hcb, Function.update_of_ne hca]; exact hm
  · intro id c hc
    obtain ⟨v, hm, hid, hor⟩ := hinv.mapped id c hc
    obtain ⟨v', hm', hd⟩ := (exchanged_same (i := i) (j := j) hab ht hu).mem hm
    refine ⟨v', hm', ?_, hor.imp_right fun hmem => hperm.mem_iff.2 hmem⟩
    rw [Timer.id_of_data hd]; exact hid
  · intro c hc
    obtain ⟨hnot, v, hm, hid⟩ := hinv.outLive c hc
    obtain ⟨v', hm', hd⟩ := (exchanged_same (i := i) (j := j) hab ht hu).mem hm
    refine ⟨fun hmem => hnot (hperm.mem_iff.1 hmem), v', hm', ?_⟩
    rw [Timer.id_of_data hd]; exact hid

/-- **One exchange** keeps the invariant and permutes the slots. -/
theorem swapSlots_spec (hinv : Inv h out) (hi : 1 ≤ i) (hil : i ≤ h.last) (hj : 1 ≤ j)
    (hjl : j ≤ h.last) (hij : i ≠ j) :
    ∃ h', h.swapSlots i j = some h' ∧ Inv h' out ∧ SameTimers h h' ∧
      h'.timerMinHeap.Perm h.timerMinHeap ∧ h'.keyAt = h.keyAt ∘ Equiv.swap i j := by
  obtain ⟨a, t, hp, ht, _⟩ := hinv.slotOk i hi hil
  obtain ⟨b, u, hq, hu, _⟩ := hinv.slotOk j hj hjl
  have hab : a ≠ b := by rintro rfl; exact hij (hinv.ptr_inj hp hq)
  have hsame := exchanged_same (i := i) (j := j) hab ht hu
  refine ⟨_, swapSlots_eq hp hq hab ht hu, exchanged_inv hinv hp hq hij ht hu, hsame,
    exchanged_perm hp hq, ?_⟩
  funext k
  unfold keyAt slot
  rw [Function.comp_apply, exchanged_ptr hp hq]
  cases h.ptr (Equiv.swap i j k) with
  | none => rfl
  | some c =>
    have := congrArg (Option.map Timer.timestamp) (hsame.data c)
    simp only [Option.map_map] at this
    exact congrArg (·.getD ⟨0, 0⟩) this

/-! ## The sift loops -/

/-- **The loop of `minHeapInsert`** never faults and keeps the invariant; it restores the order
when only the edge above its start was out of order. -/
theorem insertLoop_spec : ∀ (fuel : Nat) (h : TimerHeap κ) (cur : Nat), Inv h out → 1 ≤ cur →
    cur ≤ h.last → cur < fuel →
    ∃ h', insertLoop fuel h cur = some h' ∧ Inv h' out ∧ SameTimers h h' ∧
      h'.timerMinHeap.Perm h.timerMinHeap ∧
      (UpAt h.keyAt h.last cur → IsHeap h'.keyAt h.last)
  | 0, _, _, _, _, _, hf => absurd hf (by omega)
  | fuel + 1, h, cur, hinv, h1, hl, hf => by
    rw [insertLoop]
    by_cases hroot : cur / 2 = 0
    · rw [if_pos hroot]
      exact ⟨h, rfl, hinv, SameTimers.refl h, List.Perm.refl _, fun hu =>
        hu.isHeap (fun h2 => by omega)⟩
    · rw [if_neg hroot]
      obtain ⟨tp, hsp, hkp⟩ := hinv.slot_some (i := cur / 2) (by omega) (by omega)
      obtain ⟨tc, hsc, hkc⟩ := hinv.slot_some h1 hl
      simp only [hsp, hsc, bind, Option.bind_some]
      by_cases hless : tp.timestamp.less tc.timestamp = true
      · rw [if_pos hless]
        refine ⟨h, rfl, hinv, SameTimers.refl h, List.Perm.refl _, fun hu => hu.isHeap fun _ => ?_⟩
        rw [hkp, hkc]
        exact (Timestamp.less_iff.1 hless).le
      · rw [if_neg hless]
        obtain ⟨h1', hsw, hinv1, hsame1, hperm1, hkey1⟩ :=
          swapSlots_spec hinv (i := cur / 2) (j := cur) (by omega) (by omega) h1 hl (by omega)
        have hlast : h1'.last = h.last := by unfold last; rw [hperm1.length_eq]
        obtain ⟨h', hrun, hinv', hsame', hperm', hord'⟩ :=
          insertLoop_spec fuel h1' (cur / 2) hinv1 (by omega) (by omega) (by omega)
        refine ⟨h', by rw [hsw]; exact hrun, hinv', hsame1.trans hsame', hperm'.trans hperm1, ?_⟩
        intro hu
        rw [hlast, hkey1] at hord'
        refine hord' (hu.exchange (by omega) ?_ hl)
        rw [hkp, hkc]
        exact Timestamp.not_less_iff.1 hless

/-- The child `minHeapErase` looks at is a child with the least key. -/
theorem lesserChild_spec (hinv : Inv h out) (hi : 1 ≤ i) (hc : i * 2 ≤ h.last) :
    ∃ c, h.lesserChild (i * 2) = some c ∧ c / 2 = i ∧ c ≤ h.last ∧
      ∀ d, 2 ≤ d → d ≤ h.last → d / 2 = i → h.keyAt c ≤ h.keyAt d := by
  have hlen := hinv.length_eq
  unfold lesserChild
  by_cases hr : i * 2 + 1 < h.timerMinHeap.length
  · rw [if_pos hr]
    obtain ⟨tr, hsr, hkr⟩ := hinv.slot_some (i := i * 2 + 1) (by omega) (by omega)
    obtain ⟨tl, hsl, hkl⟩ := hinv.slot_some (i := i * 2) (by omega) hc
    simp only [hsr, hsl, bind, Option.bind_some]
    refine ⟨_, rfl, by split <;> omega, by split <;> omega, ?_⟩
    intro d h2 hd hdi
    rcases (show d = i * 2 ∨ d = i * 2 + 1 by omega) with rfl | rfl <;>
      by_cases hless : tr.timestamp.less tl.timestamp = true
    · rw [if_pos hless, hkr, hkl]; exact (Timestamp.less_iff.1 hless).le
    · rw [if_neg hless]
    · rw [if_pos hless]
    · rw [if_neg hless, hkr, hkl]
      exact Timestamp.not_less_iff.1 hless
  · rw [if_neg hr]
    refine ⟨i * 2, rfl, by omega, hc, ?_⟩
    intro d h2 hd hdi
    rw [show d = i * 2 by omega]

/-- **The loop of `minHeapErase`** never faults and keeps the invariant; it restores the order
when only the edges below its start were out of order, and it moves nothing when its start is
earlier than its children. -/
theorem eraseLoop_spec : ∀ (fuel : Nat) (h : TimerHeap κ) (cur : Nat), Inv h out → 1 ≤ cur →
    1 ≤ fuel → h.last + 1 ≤ cur + fuel →
    ∃ h', eraseLoop fuel h cur = some h' ∧ Inv h' out ∧ SameTimers h h' ∧
      h'.timerMinHeap.Perm h.timerMinHeap ∧
      (DownAt h.keyAt h.last cur → IsHeap h'.keyAt h.last) ∧
      ((∀ c, 2 ≤ c → c ≤ h.last → c / 2 = cur → h.keyAt cur < h.keyAt c) → h' = h)
  | 0, _, _, _, _, hf, _ => absurd hf (by omega)
  | fuel + 1, h, cur, hinv, h1, _, hf => by
    have hlen := hinv.length_eq
    rw [eraseLoop]
    by_cases hleaf : cur * 2 ≥ h.timerMinHeap.length
    · rw [if_pos hleaf]
      exact ⟨h, rfl, hinv, SameTimers.refl h, List.Perm.refl _,
        fun hd => hd.isHeap (fun c _ _ _ => by omega), fun _ => rfl⟩
    · rw [if_neg hleaf]
      obtain ⟨c, hlc, hci, hcl, hmin⟩ := lesserChild_spec hinv h1 (by omega)
      obtain ⟨tc, hsc, hkc⟩ := hinv.slot_some h1 (show cur ≤ h.last by omega)
      obtain ⟨td, hsd, hkd⟩ := hinv.slot_some (i := c) (by omega) hcl
      simp only [hlc, hsc, hsd, bind, Option.bind_some]
      by_cases hless : tc.timestamp.less td.timestamp = true
      · rw [if_pos hless]
        have hlt : h.keyAt cur < h.keyAt c := by rw [hkc, hkd]; exact Timestamp.less_iff.1 hless
        exact ⟨h, rfl, hinv, SameTimers.refl h, List.Perm.refl _,
          fun hd => hd.isHeap (fun d h2 hdl hdc => hlt.le.trans (hmin d h2 hdl hdc)), fun _ => rfl⟩
      · rw [if_neg hless]
        have hle : h.keyAt c ≤ h.keyAt cur := by
          rw [hkc, hkd]; exact Timestamp.not_less_iff.1 hless
        obtain ⟨h1', hsw, hinv1, hsame1, hperm1, hkey1⟩ :=
          swapSlots_spec hinv (i := cur) (j := c) h1 (by omega) (by omega) hcl (by omega)
        have hlast : h1'.last = h.last := by unfold last; rw [hperm1.length_eq]
        obtain ⟨h', hrun, hinv', hsame', hperm', hord', _⟩ :=
          eraseLoop_spec fuel h1' c hinv1 (by omega) (by omega) (by omega)
        refine ⟨h', by rw [hsw]; exact hrun, hinv', hsame1.trans hsame', hperm'.trans hperm1,
          ?_, ?_⟩
        · intro hd
          rw [hlast, hkey1] at hord'
          exact hord' (hd.exchange h1 hci hcl hle hmin)
        · intro hlt
          exact absurd (hlt c (by omega) hcl hci) (not_lt.2 hle)

/-! ## Insertion -/

/-- The heap with `timer` in a new last slot. -/
def pushed (h : TimerHeap κ) (timer : Addr) (t : Timer κ) : TimerHeap κ :=
  { h with
    mem := Function.update h.mem timer (some { t with heapPos := h.timerMinHeap.length })
    timerMinHeap := h.timerMinHeap ++ [some timer] }

theorem pushed_same (ht : h.mem a = some t) : SameTimers h (pushed h a t) := by
  refine ⟨fun c => ?_, rfl, rfl⟩
  unfold pushed
  dsimp only
  by_cases hc : c = a
  · subst hc; rw [Function.update_self, ht]; rfl
  · rw [Function.update_of_ne hc]

theorem Inv.last_pushed (hinv : Inv h out) : (pushed h a t).last = h.last + 1 := by
  have := hinv.length_eq
  unfold last pushed
  dsimp only
  rw [List.length_append, List.length_singleton]
  omega

theorem Inv.ptr_pushed (hinv : Inv h out) (hk : i ≤ h.last) : (pushed h a t).ptr i = h.ptr i := by
  have := hinv.length_eq
  unfold ptr pushed
  dsimp only
  rw [List.getElem?_append_left (by omega)]

theorem Inv.ptr_pushed_last (hinv : Inv h out) : (pushed h a t).ptr (h.last + 1) = some a := by
  have := hinv.length_eq
  rw [ptr_eq_some]
  unfold pushed
  dsimp only
  rw [List.getElem?_append_right (by omega), this]
  simp

theorem pushed_inv (hinv : Inv h (some a)) (ht : h.mem a = some t) :
    Inv (pushed h a t) none ∧ ∀ k, 1 ≤ k → k ≤ h.last → (pushed h a t).keyAt k = h.keyAt k := by
  have hlen := hinv.length_eq
  obtain ⟨hnot, t', ht', hid⟩ := hinv.outLive a rfl
  rw [ht] at ht'; cases ht'
  have hne : ∀ {k c}, h.ptr k = some c → c ≠ a := by
    rintro k c hp rfl
    exact hnot (mem_heap_iff.2 ⟨k, hp⟩)
  have hmem : ∀ {c}, c ≠ a → (pushed h a t).mem c = h.mem c := fun hc =>
    Function.update_of_ne hc _ _
  refine ⟨⟨?_, ?_, ?_, by simp⟩, ?_⟩
  · have h0 := hinv.slotZero
    unfold pushed
    dsimp only
    rw [List.getElem?_append_left (by omega)]; exact h0
  · intro k h1 hk
    rw [hinv.last_pushed] at hk
    by_cases hkl : k = h.last + 1
    · subst hkl
      refine ⟨a, _, hinv.ptr_pushed_last, Function.update_self _ _ _, ?_, hid⟩
      dsimp only; rw [hlen]
    · obtain ⟨c, u, hp, hm, hpos, hcid⟩ := hinv.slotOk k h1 (by omega)
      exact ⟨c, u, by rw [hinv.ptr_pushed (by omega)]; exact hp, by rw [hmem (hne hp)]; exact hm,
        hpos, hcid⟩
  · intro id c hc
    obtain ⟨u, hm, hcid, hor⟩ := hinv.mapped id c hc
    obtain ⟨u', hm', hd⟩ := (pushed_same ht).mem hm
    refine ⟨u', hm', by rw [Timer.id_of_data hd]; exact hcid, Or.inr ?_⟩
    show some c ∈ h.timerMinHeap ++ [some a]
    rcases hor with hor | hor
    · cases hor; simp
    · exact List.mem_append_left _ hor
  · intro k h1 hk
    obtain ⟨c, u, hp, hm, _⟩ := hinv.slotOk k h1 hk
    have hs : (pushed h a t).slot k = some u := by
      refine slot_eq (a := c) ?_ ?_
      · rw [hinv.ptr_pushed hk]; exact hp
      · rw [hmem (hne hp)]; exact hm
    rw [keyAt_eq hs, keyAt_eq (slot_eq hp hm)]

/-- **`minHeapInsert`** puts the timer that is out of the heap back in, and keeps the order. -/
theorem minHeapInsert_spec (hinv : Inv h (some a)) :
    ∃ h', h.minHeapInsert a = some h' ∧ Inv h' none ∧ SameTimers h h' ∧
      h'.timerMinHeap.Perm (some a :: h.timerMinHeap) ∧
      (IsHeap h.keyAt h.last → IsHeap h'.keyAt h'.last) := by
  obtain ⟨_, t, ht, _⟩ := hinv.outLive a rfl
  obtain ⟨hinv1, hkeys⟩ := pushed_inv hinv ht
  have hlen := hinv.length_eq
  have hlast := hinv.last_pushed (a := a) (t := t)
  have hlen1 := hinv1.length_eq
  obtain ⟨h', hrun, hinv', hsame', hperm', hord'⟩ :=
    insertLoop_spec (pushed h a t).timerMinHeap.length (pushed h a t) h.timerMinHeap.length hinv1
      (by omega) (by omega) (by omega)
  have hlast' : h'.last = (pushed h a t).last := by unfold last; rw [hperm'.length_eq]
  refine ⟨h', ?_, hinv', (pushed_same ht).trans hsame', ?_, ?_⟩
  · simp only [minHeapInsert, setHeapPos, updateTimer, ht, Option.map_some, bind, Option.bind_some]
    exact hrun
  · exact hperm'.trans (List.perm_append_singleton _ _)
  · intro hheap
    rw [hlast']
    refine hord' ?_
    rw [hlast, hlen]
    exact upAt_push hheap hkeys

/-! ## Erasure -/

/-- The heap before the loop of `minHeapErase`: the timer of slot `p` is out, and the last
slot's pointer `b` stands in its place. -/
def filled (h : TimerHeap κ) (p : Nat) (a b : Addr) (t u : Timer κ) : TimerHeap κ :=
  { h with
    mem := Function.update (Function.update h.mem a (some { t with heapPos := -1 })) b
      (some { u with heapPos := p })
    timerMinHeap := (h.timerMinHeap.set p (some b)).dropLast }

section Filled

variable {p : Nat} (hinv : Inv h none) (hp : h.ptr p = some a) (hb : h.ptr h.last = some b)
  (ht : h.mem a = some t) (hu : h.mem b = some u)

include hinv in
theorem Inv.last_filled : (filled h p a b t u).last = h.last - 1 := by
  have := hinv.length_eq
  unfold last filled
  dsimp only
  rw [List.length_dropLast, List.length_set]

include hinv in
theorem Inv.ptr_filled (hk : i < h.last) (hkp : i ≠ p) :
    (filled h p a b t u).ptr i = h.ptr i := by
  have := hinv.length_eq
  unfold ptr filled
  dsimp only
  rw [List.getElem?_dropLast, List.length_set, if_pos (by omega),
    List.getElem?_set_ne (Ne.symm hkp)]

include hinv in
theorem Inv.ptr_filled_hole (hpl : p < h.last) : (filled h p a b t u).ptr p = some b := by
  have := hinv.length_eq
  rw [ptr_eq_some]
  unfold filled
  dsimp only
  rw [List.getElem?_dropLast, List.length_set, if_pos (by omega),
    List.getElem?_set_self (by omega)]

include hinv in
theorem Inv.ptr_filled_lt {k : Nat} {c : Addr} (hk : (filled h p a b t u).ptr k = some c) :
    k < h.last := by
  have := hinv.length_eq
  rw [ptr_eq_some] at hk
  have hl := (List.getElem?_eq_some_iff.1 hk).1
  unfold filled at hl
  dsimp only at hl
  rw [List.length_dropLast, List.length_set] at hl
  omega

include hinv hp hb in
theorem filled_perm : h.timerMinHeap.Perm (some a :: (filled h p a b t u).timerMinHeap) := by
  have hlen := hinv.length_eq
  have hpr := hinv.ptr_range hp
  obtain ⟨hlp, hvp⟩ := List.getElem?_eq_some_iff.1 (ptr_eq_some.1 hp)
  obtain ⟨hll, hvl⟩ := List.getElem?_eq_some_iff.1 (ptr_eq_some.1 hb)
  have hswap := List.set_set_perm hlp hll
  rw [hvp, hvl] at hswap
  have hset : (h.timerMinHeap.set p (some b)).set h.last (some a) =
      (filled h p a b t u).timerMinHeap ++ [some a] := by
    unfold filled
    dsimp only
    apply List.ext_getElem?
    intro k
    rw [List.getElem?_set, List.length_set, List.getElem?_append, List.length_dropLast,
      List.length_set, List.getElem?_dropLast, List.length_set]
    by_cases hk : h.last = k
    · subst hk
      rw [if_pos rfl, if_pos hll, if_neg (by omega), show h.last - (h.timerMinHeap.length - 1) = 0
        by omega]
      rfl
    · rw [if_neg hk]
      by_cases hkl : k < h.timerMinHeap.length - 1
      · rw [if_pos hkl, if_pos hkl]
      · rw [if_neg hkl, List.getElem?_eq_none (by rw [List.length_set]; omega)]
        rw [List.getElem?_eq_none (by rw [List.length_singleton]; omega)]
  rw [hset] at hswap
  exact hswap.symm.trans (List.perm_append_singleton _ _)

include hinv hp hb in
/-- The filler is the erased timer itself when the last slot is erased. -/
theorem Inv.filler_eq : p = h.last ↔ a = b := by
  constructor
  · rintro rfl
    rw [hp] at hb; exact Option.some.inj hb
  · rintro rfl
    exact hinv.ptr_inj hp hb

include ht hu in
theorem filled_same : SameTimers h (filled h p a b t u) := by
  refine ⟨fun c => ?_, rfl, rfl⟩
  unfold filled
  dsimp only
  by_cases hc : c = b
  · subst hc; rw [Function.update_self, hu]; rfl
  · rw [Function.update_of_ne hc]
    by_cases ha : c = a
    · subst ha; rw [Function.update_self, ht]; rfl
    · rw [Function.update_of_ne ha]

include hinv hp hb ht hu in
theorem filled_inv : Inv (filled h p a b t u) (some a) := by
  have hlen := hinv.length_eq
  have hpr := hinv.ptr_range hp
  have hbr := hinv.ptr_range hb
  have hfill := hinv.filler_eq hp hb
  have hsame := filled_same (p := p) ht hu
  obtain ⟨t', ht', _, hidt⟩ := hinv.slotOk_of_ptr hp
  obtain ⟨u', hu', _, hidu⟩ := hinv.slotOk_of_ptr hb
  rw [ht] at ht'; cases ht'
  rw [hu] at hu'; cases hu'
  have hout : some a ∉ (filled h p a b t u).timerMinHeap := by
    intro hmem
    obtain ⟨k, hk⟩ := mem_heap_iff.1 hmem
    have hkl := hinv.ptr_filled_lt hk
    by_cases hkp : k = p
    · subst hkp
      rw [hinv.ptr_filled_hole hkl] at hk
      have := hfill.2 (Option.some.inj hk).symm
      omega
    · rw [hinv.ptr_filled hkl hkp] at hk
      exact hkp (hinv.ptr_inj hk hp)
  constructor
  · have h0 := hinv.slotZero
    unfold filled
    dsimp only
    rw [List.getElem?_dropLast, List.length_set, if_pos (by omega),
      List.getElem?_set_ne (by omega)]
    exact h0
  · intro k h1 hk
    rw [hinv.last_filled] at hk
    by_cases hkp : k = p
    · subst hkp
      exact ⟨b, _, hinv.ptr_filled_hole (by omega), Function.update_self _ _ _, rfl, hidu⟩
    · obtain ⟨c, v, hpc, hm, hpos, hid⟩ := hinv.slotOk k h1 (by omega)
      have hca : c ≠ a := by rintro rfl; exact hkp (hinv.ptr_inj hpc hp)
      have hcb : c ≠ b := by rintro rfl; have := hinv.ptr_inj hpc hb; omega
      refine ⟨c, v, by rw [hinv.ptr_filled (by omega) hkp]; exact hpc, ?_, hpos, hid⟩
      unfold filled; dsimp only
      rw [Function.update_of_ne hcb, Function.update_of_ne hca]; exact hm
  · intro id c hc
    obtain ⟨v, hm, hid, hor⟩ := hinv.mapped id c hc
    obtain ⟨v', hm', hd⟩ := hsame.mem hm
    refine ⟨v', hm', by rw [Timer.id_of_data hd]; exact hid, ?_⟩
    have hmem : some c ∈ h.timerMinHeap := hor.resolve_left (by simp)
    rcases List.mem_cons.1 ((filled_perm hinv hp hb).mem_iff.1 hmem) with hca | hca
    · exact Or.inl hca.symm
    · exact Or.inr hca
  · rintro c hc
    cases hc
    obtain ⟨t', ht', hd⟩ := hsame.mem ht
    exact ⟨hout, t', ht', by rw [Timer.id_of_data hd]; exact hidt⟩

include hinv hp hb in
theorem filled_keys : (∀ k, 1 ≤ k → k < h.last → k ≠ p →
      (filled h p a b t u).keyAt k = h.keyAt k) ∧
    (p < h.last → h.mem b = some u → (filled h p a b t u).keyAt p = h.keyAt h.last) := by
  constructor
  · intro k h1 hk hkp
    obtain ⟨c, v, hpc, hm, _⟩ := hinv.slotOk k h1 (by omega)
    have hca : c ≠ a := by rintro rfl; exact hkp (hinv.ptr_inj hpc hp)
    have hcb : c ≠ b := by rintro rfl; have := hinv.ptr_inj hpc hb; omega
    have hs : (filled h p a b t u).slot k = some v := by
      refine slot_eq (a := c) (by rw [hinv.ptr_filled hk hkp]; exact hpc) ?_
      unfold filled; dsimp only
      rw [Function.update_of_ne hcb, Function.update_of_ne hca]; exact hm
    rw [keyAt_eq hs, keyAt_eq (slot_eq hpc hm)]
  · intro hpl hu
    have hs : (filled h p a b t u).slot p = some { u with heapPos := (p : Int) } :=
      slot_eq (hinv.ptr_filled_hole hpl) (Function.update_self _ _ _)
    rw [keyAt_eq hs, keyAt_eq (slot_eq hb hu)]

include hinv hp hb ht hu in
theorem minHeapErase_eq : h.minHeapErase a =
    eraseLoop (filled h p a b t u).timerMinHeap.length (filled h p a b t u) p := by
  have hlen := hinv.length_eq
  have hpr := hinv.ptr_range hp
  obtain ⟨t', ht', hpos, _⟩ := hinv.slotOk_of_ptr hp
  rw [ht] at ht'; cases ht'
  have hnat : t.heapPos.toNat = p := by rw [hpos]; rfl
  have hlastp : h.timerMinHeap.getLast? = some (some b) := by
    rw [List.getLast?_eq_getElem?, hlen]; exact ptr_eq_some.1 hb
  obtain ⟨hlp, hvp⟩ := List.getElem?_eq_some_iff.1 (ptr_eq_some.1 hp)
  -- the filler's object, with the erased timer's position already cleared
  have hmemb : ∃ v, Function.update h.mem a (some { t with heapPos := (-1 : Int) }) b = some v ∧
      { v with heapPos := (p : Int) } = { u with heapPos := (p : Int) } := by
    by_cases hab : b = a
    · subst hab
      rw [ht] at hu; cases hu
      exact ⟨_, Function.update_self _ _ _, rfl⟩
    · exact ⟨u, by rw [Function.update_of_ne hab]; exact hu, rfl⟩
  obtain ⟨v, hv, hvu⟩ := hmemb
  have hptr : ptr { h with
      mem := Function.update h.mem a (some { t with heapPos := (-1 : Int) })
      timerMinHeap := h.timerMinHeap.set p (some b) } p = some b := by
    rw [ptr_eq_some]
    exact List.getElem?_set_self hlp
  simp only [minHeapErase, ht, bind, Option.bind_some, hnat, setHeapPos, updateTimer,
    Option.map_some, hlastp, setSlotPos, hptr, hv, hvu, List.getElem?_eq_getElem hlp]
  rw [if_neg (by omega)]
  rfl

end Filled

/-- **`minHeapErase`** takes the timer of slot `p` out of the heap.  The order survives exactly
when the key of the last slot, which fills the hole, is not below the hole's parent. -/
theorem minHeapErase_spec {p : Nat} (hinv : Inv h none) (hp : h.ptr p = some a) :
    ∃ h', h.minHeapErase a = some h' ∧ Inv h' (some a) ∧ SameTimers h h' ∧
      h.timerMinHeap.Perm (some a :: h'.timerMinHeap) ∧
      (IsHeap h.keyAt h.last →
        (IsHeap h'.keyAt h'.last ↔ (2 ≤ p → h.keyAt (p / 2) ≤ h.keyAt h.last))) := by
  have hpr := hinv.ptr_range hp
  obtain ⟨b, u, hb, hu, _⟩ := hinv.slotOk h.last (by omega) (by omega)
  obtain ⟨t, ht, _⟩ := hinv.slotOk_of_ptr hp
  have hinv1 := filled_inv hinv hp hb ht hu
  have hlast1 := hinv.last_filled (p := p) (a := a) (b := b) (t := t) (u := u)
  have hlen1 := hinv1.length_eq
  obtain ⟨hkeys, hkeyp⟩ := filled_keys hinv hp hb (t := t) (u := u)
  obtain ⟨h', hrun, hinv', hsame', hperm', hord', hstay⟩ :=
    eraseLoop_spec (filled h p a b t u).timerMinHeap.length (filled h p a b t u) p hinv1 hpr.1
      (by omega) (by omega)
  have hlast' : h'.last = h.last - 1 := by
    rw [← hlast1]; unfold last; rw [hperm'.length_eq]
  refine ⟨h', by rw [minHeapErase_eq hinv hp hb ht hu]; exact hrun, hinv',
    (filled_same ht hu).trans hsame', (filled_perm hinv hp hb).trans (hperm'.symm.cons _), ?_⟩
  intro hheap
  rw [hlast1] at hord' hstay
  rw [hlast']
  by_cases hpl : p = h.last
  · -- the last slot goes: nothing moves
    refine ⟨fun _ h2 => hpl ▸ hheap p h2 hpr.2, fun _ => hord' (IsHeap.downAt ?_)⟩
    exact hheap.congr (Nat.sub_le _ _) fun k h1 hk => hkeys k h1 (by omega) (by omega)
  · have hfill := hkeyp (by omega) hu
    constructor
    · intro hh h2
      by_contra hlt
      rw [not_le] at hlt
      -- the filler is below everything under the hole, so the loop leaves it there
      have hsame : h' = filled h p a b t u := by
        refine hstay fun c hc2 hc hcp => ?_
        rw [hfill, hkeys c (by omega) (by omega) (by omega)]
        exact hlt.trans_le ((hheap p h2 hpr.2).trans (hcp ▸ hheap c hc2 (by omega)))
      have := hh p h2 (by omega)
      rw [hsame, hfill, hkeys (p / 2) (by omega) (by omega) (by omega)] at this
      exact absurd this (not_le.2 hlt)
    · intro hok
      exact hord' (downAt_fill hheap hpr.1 hpr.2 hfill hkeys hok)

end TimerHeap

end Brickred
