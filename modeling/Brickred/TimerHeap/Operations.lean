import Brickred.TimerHeap.Invariant

/-!
# The operations keep map and heap in step

Each operation of the timer heap, from a heap that satisfies `Inv`: it does not fault, `Inv`
holds again, and `pending`, the timers as the map presents them, changes at one id only.

* `addTimer_spec`, `removeTimer_spec`, `checkTimeoutTurn_spec` — one lemma for each operation,
  with what it does to the heap order.
* `bijective_under_reentrancy` — in every run of the owner and of re-entrant callbacks no
  operation faults and map and heap are a bijection in every state.
-/

set_option autoImplicit false

namespace Brickred

namespace TimerHeap

open BinaryHeap

variable {κ : Type} {h h' : TimerHeap κ} {out : Option Addr} {a : Addr} {t t' : Timer κ}
  {id : TimerId} {now : Timestamp}

/-- The timer under `id`, without its position. -/
def pending (h : TimerHeap κ) (id : TimerId) : Option (Timer κ) :=
  ((h.timers id).bind h.mem).map Timer.data

theorem SameTimers.pending (hs : SameTimers h h') : h'.pending = h.pending := by
  funext id
  unfold TimerHeap.pending
  rw [hs.timers]
  cases h.timers id with
  | none => rfl
  | some a => exact hs.data a

theorem pending_eq (hid : h.timers id = some a) (ht : h.mem a = some t) :
    h.pending id = some t.data := by
  unfold pending; rw [hid, Option.bind_some, ht]; rfl

/-- The keys are read through the pointers in the heap only. -/
theorem keyAt_congr (hheap : h'.timerMinHeap = h.timerMinHeap)
    (hmem : ∀ c, some c ∈ h.timerMinHeap → h'.mem c = h.mem c) : h'.keyAt = h.keyAt := by
  funext k
  unfold keyAt slot
  have hptr : h'.ptr k = h.ptr k := by unfold ptr; rw [hheap]
  rw [hptr]
  cases hp : h.ptr k with
  | none => rfl
  | some c => rw [Option.bind_some, Option.bind_some, hmem c (mem_heap_iff.2 ⟨k, hp⟩)]

/-! ## The timer that is out of the heap -/

/-- Deleting it. -/
theorem Inv.release (hinv : Inv h (some a)) (ht : h.mem a = some t) :
    Inv (h.release t.id a) none ∧ (h.release t.id a).keyAt = h.keyAt ∧
      (h.release t.id a).pending = Function.update h.pending t.id none := by
  obtain ⟨hnot, t', ht', hid⟩ := hinv.outLive a rfl
  rw [ht] at ht'; cases ht'
  have hmem : ∀ {c}, c ≠ a → (h.release t.id a).mem c = h.mem c := fun hc =>
    Function.update_of_ne hc _ _
  have hmap : ∀ {id}, id ≠ t.id → (h.release t.id a).timers id = h.timers id := fun hc =>
    Function.update_of_ne hc _ _
  have hgone : (h.release t.id a).timers t.id = none := Function.update_self _ _ _
  have hother : ∀ {id c}, id ≠ t.id → h.timers id = some c → c ≠ a := by
    rintro id c hne hc rfl
    obtain ⟨u, hu, huid, _⟩ := hinv.mapped id c hc
    rw [ht] at hu; cases hu
    exact hne huid.symm
  refine ⟨⟨hinv.slotZero, ?_, ?_, by simp⟩, ?_, ?_⟩
  · intro i h1 hl
    obtain ⟨c, u, hp, hm, hpos, hcid⟩ := hinv.slotOk i h1 hl
    have hca : c ≠ a := by rintro rfl; exact hnot (mem_heap_iff.2 ⟨i, hp⟩)
    have hne : u.id ≠ t.id := by
      intro heq
      rw [heq, hid] at hcid
      exact hca (Option.some.inj hcid).symm
    exact ⟨c, u, hp, by rw [hmem hca]; exact hm, hpos, by rw [hmap hne]; exact hcid⟩
  · intro id c hc
    have hne : id ≠ t.id := by rintro rfl; rw [hgone] at hc; cases hc
    rw [hmap hne] at hc
    have hca := hother hne hc
    obtain ⟨u, hm, hcid, hor⟩ := hinv.mapped id c hc
    refine ⟨u, by rw [hmem hca]; exact hm, hcid, Or.inr (hor.resolve_left ?_)⟩
    rintro heq
    exact hca (Option.some.inj heq).symm
  · refine keyAt_congr rfl fun c hc => hmem ?_
    rintro rfl; exact hnot hc
  · funext id
    by_cases hne : id = t.id
    · subst hne
      rw [Function.update_self]; unfold TimerHeap.pending; rw [hgone]; rfl
    · rw [Function.update_of_ne hne]
      unfold TimerHeap.pending
      rw [hmap hne]
      cases hc : h.timers id with
      | none => rfl
      | some c => rw [Option.bind_some, Option.bind_some, hmem (hother hne hc)]

/-- Changing it in anything but its id. -/
theorem Inv.replace (t' : Timer κ) (hinv : Inv h (some a)) (ht : h.mem a = some t)
    (hid' : t'.id = t.id)
    (hh : h' = { h with mem := Function.update h.mem a (some t') }) :
    Inv h' (some a) ∧ h'.keyAt = h.keyAt ∧
      h'.pending = Function.update h.pending t.id (some t'.data) := by
  obtain ⟨hnot, t'', ht'', hid⟩ := hinv.outLive a rfl
  rw [ht] at ht''; cases ht''
  have hself : h'.mem a = some t' := by rw [hh]; exact Function.update_self _ _ _
  have hmem : ∀ {c}, c ≠ a → h'.mem c = h.mem c := by
    rintro c hc; rw [hh]; exact Function.update_of_ne hc _ _
  have hheap : h'.timerMinHeap = h.timerMinHeap := by rw [hh]
  have hmap : h'.timers = h.timers := by rw [hh]
  refine ⟨⟨by rw [hheap]; exact hinv.slotZero, ?_, ?_, ?_⟩, ?_, ?_⟩
  · intro i h1 hl
    have hl' : i ≤ h.last := by unfold last at hl ⊢; rwa [hheap] at hl
    obtain ⟨c, u, hp, hm, hpos, hcid⟩ := hinv.slotOk i h1 hl'
    have hca : c ≠ a := by rintro rfl; exact hnot (mem_heap_iff.2 ⟨i, hp⟩)
    refine ⟨c, u, ?_, by rw [hmem hca]; exact hm, hpos, by rw [hmap]; exact hcid⟩
    unfold ptr at hp ⊢; rw [hheap]; exact hp
  · intro id c hc
    rw [hmap] at hc
    obtain ⟨u, hm, hcid, hor⟩ := hinv.mapped id c hc
    rw [hheap]
    by_cases hca : c = a
    · subst hca
      rw [ht] at hm; cases hm
      exact ⟨t', hself, by rw [hid', hcid], hor⟩
    · exact ⟨u, by rw [hmem hca]; exact hm, hcid, hor⟩
  · rintro c hc
    cases hc
    rw [hheap, hmap]
    exact ⟨hnot, t', hself, by rw [hid']; exact hid⟩
  · refine keyAt_congr hheap fun c hc => hmem ?_
    rintro rfl; exact hnot hc
  · funext id
    by_cases hne : id = t.id
    · subst hne
      rw [Function.update_self]
      exact pending_eq (by rw [hmap]; exact hid) hself
    · rw [Function.update_of_ne hne]
      unfold TimerHeap.pending
      rw [hmap]
      cases hc : h.timers id with
      | none => rfl
      | some c =>
        have hca : c ≠ a := by
          rintro rfl
          obtain ⟨u, hu, huid, _⟩ := hinv.mapped id c hc
          rw [ht] at hu; cases hu
          exact hne huid.symm
        rw [Option.bind_some, Option.bind_some, hmem hca]

/-- Making one. -/
theorem Inv.create (h' : TimerHeap κ) (hinv : Inv h none) (hfresh : h.mem a = none)
    (hid : h.timers t.id = none)
    (hh : h'.mem = Function.update h.mem a (some t) ∧
      h'.timers = Function.update h.timers t.id (some a) ∧ h'.timerMinHeap = h.timerMinHeap) :
    Inv h' (some a) ∧ h'.keyAt = h.keyAt ∧
      h'.pending = Function.update h.pending t.id (some t.data) := by
  obtain ⟨hm', hmap', hheap⟩ := hh
  have hself : h'.mem a = some t := by rw [hm']; exact Function.update_self _ _ _
  have hmem : ∀ {c u}, h.mem c = some u → h'.mem c = some u := by
    rintro c u hc
    rw [hm', Function.update_of_ne]
    · exact hc
    · rintro rfl; rw [hfresh] at hc; cases hc
  have hin : h'.timers t.id = some a := by rw [hmap']; exact Function.update_self _ _ _
  have hmap : ∀ {id}, id ≠ t.id → h'.timers id = h.timers id := by
    rintro id hne; rw [hmap']; exact Function.update_of_ne hne _ _
  have hnot : some a ∉ h.timerMinHeap := by
    intro hmemb
    obtain ⟨i, hp⟩ := mem_heap_iff.1 hmemb
    obtain ⟨u, hu, _⟩ := hinv.slotOk_of_ptr hp
    rw [hfresh] at hu; cases hu
  refine ⟨⟨by rw [hheap]; exact hinv.slotZero, ?_, ?_, ?_⟩, ?_, ?_⟩
  · intro i h1 hl
    have hl' : i ≤ h.last := by unfold last at hl ⊢; rwa [hheap] at hl
    obtain ⟨c, u, hp, hm, hpos, hcid⟩ := hinv.slotOk i h1 hl'
    have hne : u.id ≠ t.id := by intro heq; rw [heq, hid] at hcid; cases hcid
    refine ⟨c, u, ?_, hmem hm, hpos, by rw [hmap hne]; exact hcid⟩
    unfold ptr at hp ⊢; rw [hheap]; exact hp
  · intro id c hc
    by_cases hne : id = t.id
    · subst hne
      rw [hin] at hc; cases hc
      exact ⟨t, hself, rfl, Or.inl rfl⟩
    · rw [hmap hne] at hc
      obtain ⟨u, hm, hcid, hor⟩ := hinv.mapped id c hc
      exact ⟨u, hmem hm, hcid, Or.inr (by rw [hheap]; exact hor.resolve_left (by simp))⟩
  · rintro c hc
    cases hc
    rw [hheap]
    exact ⟨hnot, t, hself, hin⟩
  · refine keyAt_congr hheap fun c hc => ?_
    obtain ⟨i, hp⟩ := mem_heap_iff.1 hc
    obtain ⟨u, hu, _⟩ := hinv.slotOk_of_ptr hp
    rw [hu]; exact hmem hu
  · funext id
    by_cases hne : id = t.id
    · subst hne
      rw [Function.update_self]
      exact pending_eq hin hself
    · rw [Function.update_of_ne hne]
      unfold TimerHeap.pending
      rw [hmap hne]
      cases hc : h.timers id with
      | none => rfl
      | some c =>
        obtain ⟨u, hm, _⟩ := hinv.mapped id c hc
        rw [Option.bind_some, Option.bind_some, hm, hmem hm]

/-! ## The operations -/

/-- The timer `addTimer` creates. -/
def newTimer (h : TimerHeap κ) (now : Timestamp) (timeoutMs : Int) (timerCb : κ)
    (callTimes : Int) : Timer κ :=
  ⟨TimerIdAllocator.getId h.timerIdAllocator, now.add (max 0 timeoutMs), max 0 timeoutMs, timerCb,
    callTimes, -1⟩

/-- **`addTimer`** keeps the order.  It adds one timer, or none when the next id is in use. -/
theorem addTimer_spec (now : Timestamp) (timeoutMs callTimes : Int) (timerCb : κ)
    (hinv : Inv h none) (hfresh : h.mem a = none) :
    ∃ h' r, h.addTimer now timeoutMs timerCb callTimes a = some (h', r) ∧ Inv h' none ∧
      (IsHeap h.keyAt h.last → IsHeap h'.keyAt h'.last) ∧
      h'.pending =
        (let t := newTimer h now timeoutMs timerCb callTimes
         if (h.pending t.id).isSome then h.pending
         else Function.update h.pending t.id (some t.data)) := by
  set t := newTimer h now timeoutMs timerCb callTimes with ht
  have hinv0 : Inv { h with timerIdAllocator := t.id } none :=
    ⟨hinv.slotZero, hinv.slotOk, hinv.mapped, by simp⟩
  have hpend : (h.pending t.id).isSome = (h.timers t.id).isSome := by
    unfold pending
    cases hc : h.timers t.id with
    | none => rfl
    | some c =>
      obtain ⟨u, hm, _⟩ := hinv.mapped _ c hc
      rw [Option.bind_some, hm]; rfl
  have heq : h.addTimer now timeoutMs timerCb callTimes a =
      if (h.timers t.id).isSome then some ({ h with timerIdAllocator := t.id }, -1)
      else (minHeapInsert { h with
        timerIdAllocator := t.id
        mem := Function.update h.mem a (some t)
        timers := Function.update h.timers t.id (some a) } a).bind fun h => some (h, t.id) := rfl
  rw [heq]
  dsimp only
  rw [hpend]
  by_cases hused : (h.timers t.id).isSome = true
  · rw [if_pos hused, if_pos hused]
    exact ⟨{ h with timerIdAllocator := t.id }, -1, rfl, hinv0, id, rfl⟩
  · rw [if_neg hused, if_neg hused]
    have hnone : h.timers t.id = none := by simpa using hused
    obtain ⟨hinv1, hkey1, hpend1⟩ := hinv.create { h with
      timerIdAllocator := t.id
      mem := Function.update h.mem a (some t)
      timers := Function.update h.timers t.id (some a) } hfresh hnone ⟨rfl, rfl, rfl⟩
    obtain ⟨h', hins, hinv', hsame, _, hord⟩ := minHeapInsert_spec hinv1
    refine ⟨h', t.id, ?_, hinv', ?_, ?_⟩
    · rw [hins]; rfl
    · rw [hkey1] at hord; exact hord
    · rw [hsame.pending, hpend1]

/-- The removal of `timerId` meets no filler that is earlier than the hole's parent. -/
def LastSlotFits (h : TimerHeap κ) (timerId : TimerId) : Prop :=
  ∀ i t, h.slot i = some t → t.id = timerId → 2 ≤ i → h.keyAt (i / 2) ≤ h.keyAt h.last

theorem Inv.slot_id (hinv : Inv h none) {i : Nat} (hs : h.slot i = some t) :
    ∃ a, h.ptr i = some a ∧ h.mem a = some t ∧ h.timers t.id = some a := by
  unfold slot at hs
  obtain ⟨a, hp, hm⟩ := Option.bind_eq_some_iff.1 hs
  obtain ⟨u, hu, _, hid⟩ := hinv.slotOk_of_ptr hp
  rw [hm] at hu; cases hu
  exact ⟨a, hp, hm, hid⟩

/-- **`removeTimer`** takes the timer out of both structures.  It keeps the order exactly when
`LastSlotFits`. -/
theorem removeTimer_spec (id : TimerId) (hinv : Inv h none) :
    ∃ h', h.removeTimer id = some h' ∧ Inv h' none ∧
      (IsHeap h.keyAt h.last → (IsHeap h'.keyAt h'.last ↔ LastSlotFits h id)) ∧
      h'.pending = Function.update h.pending id none := by
  unfold removeTimer
  cases hid : h.timers id with
  | none =>
    refine ⟨h, rfl, hinv, fun hheap => ⟨fun _ i t hs hti _ => ?_, fun _ => hheap⟩, ?_⟩
    · obtain ⟨a, _, _, hta⟩ := hinv.slot_id hs
      rw [hti, hid] at hta; cases hta
    · refine (Function.update_eq_self_iff.2 ?_).symm
      unfold pending; rw [hid]; rfl
  | some a =>
    obtain ⟨t, ht, hti, hor⟩ := hinv.mapped id a hid
    obtain ⟨p, hp⟩ := mem_heap_iff.1 (hor.resolve_left (by simp))
    obtain ⟨h1, her, hinv1, hsame1, _, hord1⟩ := minHeapErase_spec hinv hp
    obtain ⟨t1, ht1, hd1⟩ := hsame1.mem ht
    have hti1 : t1.id = id := (Timer.id_of_data hd1).trans hti
    obtain ⟨hinv', hkey', hpend'⟩ := hinv1.release ht1
    rw [hti1] at hinv' hkey' hpend'
    refine ⟨h1.release id a, by simp only [her, bind, Option.bind_some], hinv', fun hheap => ?_,
      by rw [hpend', hsame1.pending]⟩
    rw [hkey']
    refine (hord1 hheap).trans ⟨fun hfit i u hs hui h2 => ?_, fun hfit h2 => ?_⟩
    · -- the timer stands in one slot only
      obtain ⟨c, hpc, _, hci⟩ := hinv.slot_id hs
      rw [hui, hid] at hci; cases hci
      have := hinv.ptr_inj hp hpc
      subst this
      exact hfit h2
    · exact hfit p t (slot_eq hp ht) hti h2

/-- What one turn of `checkTimeout` can do. -/
inductive TurnSpec (h : TimerHeap κ) (now : Timestamp) : Turn κ → Prop where
  | empty (hlast : h.last = 0) : TurnSpec h now .finished
  | early {t : Timer κ} (htop : h.slot 1 = some t) (hnot : now.millisecondLess t.timestamp = true) :
      TurnSpec h now .finished
  | fired {t : Timer κ} {h' : TimerHeap κ} (htop : h.slot 1 = some t)
      (hdue : ¬ now.millisecondLess t.timestamp = true) (hinv : Inv h' none)
      (hord : IsHeap h.keyAt h.last → IsHeap h'.keyAt h'.last)
      (hpend : h'.pending = Function.update h.pending t.id
        (if t.callTimes = 1 then none else some t.rearm.data)) :
      TurnSpec h now (.fired h' t)

theorem rearm_data_congr (hd : t'.data = t.data) : t'.rearm.data = t.rearm.data :=
  (congrArg (fun t => (Timer.rearm t).data) hd : t'.data.rearm.data = t.data.rearm.data)

/-- **One turn of `checkTimeout`** keeps the order: erasing the top never needs a sift up. -/
theorem checkTimeoutTurn_spec (now : Timestamp) (hinv : Inv h none) :
    ∃ r, h.checkTimeoutTurn now = some r ∧ TurnSpec h now r := by
  unfold checkTimeoutTurn minHeapTop
  have hlen := hinv.length_eq
  by_cases hempty : h.timerMinHeap.length ≤ 1
  · rw [if_pos hempty]
    exact ⟨_, rfl, .empty (by omega)⟩
  · rw [if_neg hempty]
    obtain ⟨a, t, hp, ht, _⟩ := hinv.slotOk 1 (by omega) (by omega)
    have htop := slot_eq hp ht
    simp only [hp, ht, bind, Option.bind_some]
    by_cases hnot : now.millisecondLess t.timestamp = true
    · rw [if_pos hnot]
      exact ⟨_, rfl, .early htop hnot⟩
    · rw [if_neg hnot]
      obtain ⟨h1, her, hinv1, hsame1, _, hord1⟩ := minHeapErase_spec hinv hp
      obtain ⟨t1, ht1, hd1⟩ := hsame1.mem ht
      have hid1 : t1.id = t.id := Timer.id_of_data hd1
      have hheap1 : IsHeap h.keyAt h.last → IsHeap h1.keyAt h1.last := fun hh =>
        (hord1 hh).2 fun h2 => by omega
      simp only [her, Option.bind_some]
      by_cases hone : t.callTimes = 1
      · rw [if_pos hone]
        obtain ⟨hinv', hkey', hpend'⟩ := hinv1.release ht1
        rw [hid1] at hinv' hkey' hpend'
        refine ⟨_, rfl, .fired htop hnot hinv' (fun hh => ?_) ?_⟩
        · rw [hkey']; exact hheap1 hh
        · rw [hpend', hsame1.pending, if_pos hone]
      · rw [if_neg hone]
        have hup : h1.updateTimer a Timer.rearm =
            some { h1 with mem := Function.update h1.mem a (some t1.rearm) } := by
          unfold updateTimer; rw [ht1]; rfl
        obtain ⟨hinv2, hkey2, hpend2⟩ := hinv1.replace t1.rearm ht1 rfl rfl
        obtain ⟨h', hins, hinv', hsame', _, hord'⟩ := minHeapInsert_spec hinv2
        rw [hup, Option.bind_some, hins, Option.bind_some]
        refine ⟨_, rfl, .fired htop hnot hinv' (fun hh => hord' ?_) ?_⟩
        · rw [hkey2]; exact hheap1 hh
        · rw [hsame'.pending, hpend2, hsame1.pending, hid1, if_neg hone,
            rearm_data_congr hd1]

/-! ## Runs -/

theorem init_inv : Inv (init : TimerHeap κ) none := by
  refine ⟨rfl, fun i h1 hl => ?_, fun id a hc => ?_, by simp⟩
  · have : (init : TimerHeap κ).last = 0 := rfl
    omega
  · cases hc

theorem Machine.turn_inv {outer : List Timestamp} (hinv : Inv h none) :
    ∃ m', Machine.turn h now outer = some m' ∧ Inv m'.heap none := by
  obtain ⟨r, hr, hspec⟩ := checkTimeoutTurn_spec now hinv
  unfold Machine.turn
  simp only [hr, bind, Option.bind_some]
  cases hspec with
  | empty => exact ⟨_, rfl, hinv⟩
  | early => exact ⟨_, rfl, hinv⟩
  | fired _ _ hinv' => exact ⟨_, rfl, hinv'⟩

/-- **One step**, of the owner or of a running callback. -/
theorem Machine.step_inv {m : Machine κ} {op : Op κ} (hinv : Inv m.heap none)
    (hen : Machine.Enabled m op) : ∃ m', Machine.step m op = some m' ∧ Inv m'.heap none := by
  cases op with
  | addTimer now timeoutMs timerCb callTimes addr =>
    obtain ⟨h', r, hadd, hinv', _⟩ := addTimer_spec now timeoutMs callTimes timerCb hinv hen
    exact ⟨{ m with heap := h' }, by rw [Machine.step, hadd]; rfl, hinv'⟩
  | removeTimer timerId =>
    obtain ⟨h', hrem, hinv', _⟩ := removeTimer_spec timerId hinv
    exact ⟨{ m with heap := h' }, by rw [Machine.step, hrem]; rfl, hinv'⟩
  | checkTimeout now => exact Machine.turn_inv hinv
  | callbackReturn =>
    rw [Machine.step]
    cases m.running with
    | nil => exact ⟨m, rfl, hinv⟩
    | cons now outer => exact Machine.turn_inv hinv

theorem Machine.inv_of_step {m m' : Machine κ} {op : Op κ} (hinv : Inv m.heap none)
    (hen : Machine.Enabled m op) (hs : Machine.step m op = some m') : Inv m'.heap none := by
  obtain ⟨m'', hs', hinv'⟩ := Machine.step_inv hinv hen
  rw [hs] at hs'
  cases hs'
  exact hinv'

/-- **A run** keeps the invariant. -/
theorem Machine.run_inv {m : Machine κ} {ops : List (Op κ)} (hinv : Inv m.heap none)
    (hops : Runs.EachStep Machine.step Machine.Enabled m ops) :
    Runs.Along Machine.step (fun m => Inv m.heap none) m ops :=
  Runs.along_of_eachStep (fun _ _ _ => Machine.inv_of_step) hinv hops

/-- Map and heap hold the same timers, each once, and every timer knows its slot. -/
structure Bijective (h : TimerHeap κ) : Prop where
  slotZero : h.timerMinHeap[0]? = some none
  heapPos : ∀ i, 1 ≤ i → i < h.timerMinHeap.length → ∃ t, h.slot i = some t ∧ t.heapPos = i
  distinct : ∀ i j t u, h.slot i = some t → h.slot j = some u → t.id = u.id → i = j
  keys : ∀ id a, h.timers id = some a ↔
    ∃ i t, h.ptr i = some a ∧ h.mem a = some t ∧ t.id = id

theorem bijective_iff_inv : Bijective h ↔ Inv h none := by
  constructor
  · intro hb
    have h0 := (List.getElem?_eq_some_iff.1 hb.slotZero).1
    refine ⟨hb.slotZero, fun i h1 hl => ?_, fun id a hc => ?_, by simp⟩
    · obtain ⟨t, hs, hpos⟩ := hb.heapPos i h1 (by unfold last at hl; omega)
      unfold slot at hs
      obtain ⟨a, hp, hm⟩ := Option.bind_eq_some_iff.1 hs
      exact ⟨a, t, hp, hm, hpos, (hb.keys t.id a).2 ⟨i, t, hp, hm, rfl⟩⟩
    · obtain ⟨i, t, hp, hm, hid⟩ := (hb.keys id a).1 hc
      exact ⟨t, hm, hid, Or.inr (mem_heap_iff.2 ⟨i, hp⟩)⟩
  · intro hinv
    refine ⟨hinv.slotZero, fun i h1 hl => ?_, fun i j t u hs hs' hid => ?_, fun id a => ?_⟩
    · obtain ⟨a, t, hp, hm, hpos, _⟩ := hinv.slotOk i h1 (by unfold last; omega)
      exact ⟨t, slot_eq hp hm, hpos⟩
    · obtain ⟨a, hp, _, ha⟩ := hinv.slot_id hs
      obtain ⟨b, hq, _, hb⟩ := hinv.slot_id hs'
      rw [hid, hb] at ha; cases ha
      exact hinv.ptr_inj hp hq
    · constructor
      · intro hc
        obtain ⟨t, hm, hid, hor⟩ := hinv.mapped id a hc
        obtain ⟨i, hp⟩ := mem_heap_iff.1 (hor.resolve_left (by simp))
        exact ⟨i, t, hp, hm, hid⟩
      · rintro ⟨i, t, hp, hm, rfl⟩
        obtain ⟨u, hu, _, hid⟩ := hinv.slotOk_of_ptr hp
        rw [hm] at hu; cases hu
        exact hid

/-- **Map and heap under re-entrancy.**  Whatever the owner and the callbacks call, and in
whatever order, no operation leaves the vector's range or follows a dead pointer, and after every
operation and at every callback invocation map and heap are a bijection. -/
theorem bijective_under_reentrancy (ops : List (Op κ))
    (hops : Runs.EachStep Machine.step Machine.Enabled Machine.init ops) :
    Runs.Along Machine.step (fun m => Bijective m.heap) Machine.init ops ∧
      ∃ m, Runs.run Machine.step Machine.init ops = some m := by
  constructor
  · exact (Machine.run_inv init_inv hops).mono fun m => bijective_iff_inv.2
  · obtain ⟨m, hm, _⟩ := Runs.run_isSome (P := fun m : Machine κ => Inv m.heap none)
      (fun _ _ hinv hen => Machine.step_inv hinv hen) init_inv hops
    exact ⟨m, hm⟩

/-- A callback that removes its own timer, adds another one and calls `checkTimeout`. -/
def reentrantOps : List (Op Unit) :=
  [.addTimer ⟨0, 0⟩ 5 () 0 1, .addTimer ⟨0, 0⟩ 5 () 2 2, .checkTimeout ⟨0, 20000000⟩,
    .removeTimer 1, .addTimer ⟨0, 0⟩ 1 () 1 1, .checkTimeout ⟨0, 20000000⟩, .callbackReturn,
    .callbackReturn, .callbackReturn]

theorem reentrantOps_bijective :
    Runs.EachStep Machine.step Machine.Enabled Machine.init reentrantOps ∧
      Runs.Along Machine.step (fun m => Bijective m.heap) Machine.init reentrantOps ∧
      ∃ m, Runs.run Machine.step Machine.init reentrantOps = some m :=
  ⟨by decide, bijective_under_reentrancy reentrantOps (by decide)⟩

end TimerHeap

end Brickred
