import Mathlib.Tactic.Linarith
import Brickred.Lib.Agenda
import Brickred.TimerHeap.Order

/-!
# `checkTimeout` serves an agenda

The purpose of the heap: whatever the shape of the vector, the loop of `checkTimeout` serves the
agenda `pending` (`Agenda.Serves`) with the timers' own rules for being due and for the next
deadline.  How often a timer fires and what is left of it is then arithmetic on that one timer.

* `Timer.firings`, `Timer.afterwards` — the count and the remainder in closed form.
* `alone_spec` — a timer served by itself fires that often and leaves that.
* `checkTimeout_serves` — the loop, by the measure `Agenda.weight`.
* `checkTimeout_refines_schedule` — both together.
-/

set_option autoImplicit false

namespace Brickred

/-! ## One timer -/

namespace Timer

variable {κ : Type} {now : Timestamp} {t : Timer κ}

/-- The timers under consideration. -/
structure Schedulable (t : Timer κ) : Prop where
  normalised : t.timestamp.Normalised
  pos : 1 ≤ t.timeout
  bound : t.timeout ≤ 2 ^ 31 - 1

/-- The deadlines `D`, `D + T`, `D + 2 T`, … that are not after `now`, when `D` is not. -/
def dueCount (now : Timestamp) (t : Timer κ) : Int :=
  (now.clockMs - t.timestamp.totalMs) / t.timeout + 1

/-- How often the timer fires. -/
def firings (now : Timestamp) (t : Timer κ) : Int :=
  if t.timestamp.totalMs > now.clockMs then 0
  else if t.callTimes > 0 then min t.callTimes (t.dueCount now)
  else t.dueCount now

/-- What is left of the timer. -/
def afterwards (now : Timestamp) (t : Timer κ) : Option (Timer κ) :=
  if t.callTimes > 0 ∧ t.callTimes = t.firings now then none
  else some { t with
    timestamp := t.timestamp.add (t.timeout * t.firings now)
    callTimes := if t.callTimes > 0 then t.callTimes - t.firings now else t.callTimes }

/-- The rules of `checkTimeout` for one timer. -/
def policy (κ : Type) (now : Timestamp) : Agenda.Policy (Timer κ) Timestamp where
  key t := t.timestamp
  due t := ¬ now.millisecondLess t.timestamp = true
  next t := if t.callTimes = 1 then none else some t.rearm.data

theorem Schedulable.getTimeout_eq (hs : t.Schedulable) : t.getTimeout = t.timeout :=
  toInt_eq (by have := hs.pos; omega) (by have := hs.bound; omega)

theorem Schedulable.due_iff (hs : t.Schedulable) :
    (policy κ now).due t ↔ t.timestamp.totalMs ≤ now.clockMs := by
  show ¬ now.millisecondLess t.timestamp = true ↔ _
  rw [Timestamp.millisecondLess_iff hs.normalised, not_lt]

theorem Schedulable.next (hs : t.Schedulable) {u : Timer κ} (hu : (policy κ now).next t = some u) :
    u.Schedulable ∧ t.timestamp ≤ u.timestamp := by
  unfold policy at hu
  dsimp only at hu
  split at hu
  · cases hu
  · cases hu
    have hpos := hs.pos
    have hto := hs.getTimeout_eq
    constructor
    · refine ⟨?_, hs.pos, hs.bound⟩
      show (t.timestamp.addAssign t.getTimeout).Normalised
      rw [hto]
      exact Timestamp.addAssign_normalised hs.normalised (by omega)
    · show t.timestamp ≤ t.timestamp.addAssign t.getTimeout
      rw [hto]
      exact (Timestamp.lt_addAssign hs.normalised (by omega)).le

theorem Schedulable.rearm_totalMs (hs : t.Schedulable) :
    t.rearm.data.timestamp.totalMs = t.timestamp.totalMs + t.timeout := by
  show (t.timestamp.addAssign t.getTimeout).totalMs = _
  rw [hs.getTimeout_eq, Timestamp.addAssign_totalMs hs.normalised (by have := hs.pos; omega)]

theorem Schedulable.dueCount_pos (hs : t.Schedulable) (hdue : t.timestamp.totalMs ≤ now.clockMs) :
    1 ≤ t.dueCount now := by
  have := Int.ediv_nonneg (show 0 ≤ now.clockMs - t.timestamp.totalMs by omega)
    (show 0 ≤ t.timeout by have := hs.pos; omega)
  unfold dueCount; omega

/-- One deadline less from the next deadline on. -/
theorem Schedulable.dueCount_rearm (now : Timestamp) (hs : t.Schedulable) :
    t.rearm.data.dueCount now = t.dueCount now - 1 := by
  have hne : t.timeout ≠ 0 := by have := hs.pos; omega
  have hto : t.rearm.data.timeout = t.timeout := rfl
  unfold dueCount
  rw [hs.rearm_totalMs, hto, show now.clockMs - (t.timestamp.totalMs + t.timeout) =
    now.clockMs - t.timestamp.totalMs + (-1) * t.timeout by ring, Int.add_mul_ediv_right _ _ hne]
  ring

theorem Schedulable.dueCount_eq_one (hs : t.Schedulable)
    (hdue : t.timestamp.totalMs ≤ now.clockMs)
    (hnext : t.rearm.data.timestamp.totalMs > now.clockMs) : t.dueCount now = 1 := by
  rw [hs.rearm_totalMs] at hnext
  unfold dueCount
  rw [Int.ediv_eq_zero_of_lt (by omega) (by omega)]
  rfl

theorem Schedulable.firings_pos (hs : t.Schedulable) (hdue : t.timestamp.totalMs ≤ now.clockMs) :
    1 ≤ t.firings now := by
  have := hs.dueCount_pos hdue
  unfold firings
  rw [if_neg (by omega)]
  split <;> omega

theorem Schedulable.firings_last (hs : t.Schedulable) (hdue : t.timestamp.totalMs ≤ now.clockMs)
    (hone : t.callTimes = 1) : t.firings now = 1 := by
  have := hs.dueCount_pos hdue
  unfold firings
  rw [if_neg (by omega), if_pos (by omega), hone]
  omega

theorem Schedulable.firings_rearm (hs : t.Schedulable) (hdue : t.timestamp.totalMs ≤ now.clockMs)
    (hone : t.callTimes ≠ 1) : t.rearm.data.firings now = t.firings now - 1 := by
  have hk := hs.dueCount_rearm now
  have hcall : t.rearm.data.callTimes =
      if t.callTimes > 0 then t.callTimes - 1 else t.callTimes := rfl
  have hpos := hs.dueCount_pos hdue
  unfold firings
  rw [if_neg (show ¬ t.timestamp.totalMs > now.clockMs by omega), hk, hcall]
  by_cases hnext : t.rearm.data.timestamp.totalMs > now.clockMs
  · rw [if_pos hnext, hs.dueCount_eq_one hdue hnext]
    split <;> omega
  · rw [if_neg hnext]
    have hk1 : 1 ≤ t.rearm.data.dueCount now := by
      have := Int.ediv_nonneg
        (show 0 ≤ now.clockMs - t.rearm.data.timestamp.totalMs by omega)
        (show 0 ≤ t.rearm.data.timeout by have := hs.pos; exact le_trans (by omega) this)
      unfold dueCount; omega
    by_cases hc : t.callTimes > 0
    · rw [if_pos hc, if_pos hc, if_pos (show t.callTimes - 1 > 0 by omega)]
      omega
    · rw [if_neg hc, if_neg hc, if_neg hc]

theorem Schedulable.afterwards_rest (hs : t.Schedulable)
    (hnot : ¬ t.timestamp.totalMs ≤ now.clockMs) : t.afterwards now = some t := by
  have hf : t.firings now = 0 := by unfold firings; rw [if_pos (by omega)]
  unfold afterwards
  rw [hf, if_neg (by omega), mul_zero]
  have hadd : t.timestamp.add 0 = t.timestamp := Timestamp.addAssign_zero hs.normalised
  rw [hadd]
  congr 1
  simp

theorem Schedulable.afterwards_next (hs : t.Schedulable) (hpos : t.heapPos = -1)
    (hdue : t.timestamp.totalMs ≤ now.clockMs) :
    t.afterwards now = ((policy κ now).next t).bind (afterwards now) := by
  unfold policy
  dsimp only
  by_cases hone : t.callTimes = 1
  · rw [if_pos hone]
    unfold afterwards
    rw [hs.firings_last hdue hone, if_pos (by omega)]
    rfl
  · rw [if_neg hone, Option.bind_some]
    have hf := hs.firings_rearm hdue hone
    have hfp := hs.firings_pos hdue
    have hcall : t.rearm.data.callTimes =
        if t.callTimes > 0 then t.callTimes - 1 else t.callTimes := rfl
    have hstamp : t.rearm.data.timestamp.add (t.rearm.data.timeout * t.rearm.data.firings now) =
        t.timestamp.add (t.timeout * t.firings now) := by
      have htp := hs.pos
      have hprod : 0 ≤ t.timeout * (t.firings now - 1) := mul_nonneg (by omega) (by omega)
      show (t.timestamp.addAssign t.getTimeout).addAssign (t.timeout * t.rearm.data.firings now) = _
      rw [hs.getTimeout_eq, hf, Timestamp.addAssign_addAssign hs.normalised (by omega) hprod,
        show t.timeout + t.timeout * (t.firings now - 1) = t.timeout * t.firings now by ring]
      rfl
    unfold afterwards
    rw [hstamp, hcall, hf]
    by_cases hc : t.callTimes > 0
    · rw [if_pos hc, if_pos hc]
      by_cases hused : t.callTimes = t.firings now
      · rw [if_pos ⟨hc, hused⟩, if_pos ⟨by omega, by omega⟩]
      · rw [if_neg (fun hx => hused hx.2), if_neg (fun hx => hused (by omega)),
          if_pos (show t.callTimes - 1 > 0 by omega)]
        simp only [rearm, data, hpos]
        congr 2
        omega
    · rw [if_neg hc, if_neg hc, if_neg (fun hx => hc hx.1), if_neg (fun hx => hc hx.1), if_neg hc]
      simp only [rearm, data, hpos]

/-- **A timer served by itself.** -/
theorem alone_spec {e r : Option (Timer κ)} {l : List (Timer κ)}
    (h : Agenda.Alone (policy κ now) e l r) :
    (∀ t, e = some t → t.Schedulable ∧ t.heapPos = -1) →
    (l.length : Int) = (e.map (firings now)).getD 0 ∧ r = e.bind (afterwards now) ∧
      ∀ u ∈ l, ∃ t, e = some t ∧ u.timerCb = t.timerCb := by
  induction h with
  | gone => exact fun _ => ⟨rfl, rfl, by simp⟩
  | @rest t hnot =>
    intro hs
    obtain ⟨hs, _⟩ := hs t rfl
    rw [hs.due_iff] at hnot
    refine ⟨?_, (hs.afterwards_rest hnot).symm, by simp⟩
    show (0 : Int) = t.firings now
    unfold firings
    rw [if_pos (by omega)]
  | @fire t l r hdue hrest ih =>
    intro hs
    obtain ⟨hs, hpos⟩ := hs t rfl
    rw [hs.due_iff] at hdue
    have hgood : ∀ u, (policy κ now).next t = some u →
        u.Schedulable ∧ u.heapPos = -1 ∧ u.timerCb = t.timerCb := by
      intro u hu
      refine ⟨(hs.next hu).1, ?_⟩
      unfold policy at hu
      dsimp only at hu
      split at hu <;> cases hu
      exact ⟨rfl, rfl⟩
    obtain ⟨hlen, hr, hcb⟩ := ih fun u hu => ⟨(hgood u hu).1, (hgood u hu).2.1⟩
    refine ⟨?_, hr.trans (hs.afterwards_next hpos hdue).symm, fun u hu => ?_⟩
    · rw [List.length_cons, Nat.cast_add, Nat.cast_one, hlen]
      show _ = t.firings now
      unfold policy
      dsimp only
      by_cases hone : t.callTimes = 1
      · rw [if_pos hone, hs.firings_last hdue hone]; rfl
      · rw [if_neg hone]
        show t.rearm.data.firings now + 1 = _
        rw [hs.firings_rearm hdue hone]; ring
    · rcases List.mem_cons.1 hu with rfl | hu
      · exact ⟨u, rfl, rfl⟩
      · obtain ⟨v, hv, huv⟩ := hcb u hu
        exact ⟨t, rfl, huv.trans (hgood v hv).2.2⟩

/-- The firings left in an entry. -/
def rank (now : Timestamp) (e : Option (Timer κ)) : ℕ := ((e.map (firings now)).getD 0).toNat

theorem Schedulable.rank_next (now : Timestamp) (hs : t.Schedulable) (hdue : (policy κ now).due t) :
    rank now ((policy κ now).next t) < rank now (some t) := by
  rw [hs.due_iff] at hdue
  have hfp := hs.firings_pos hdue
  unfold rank policy
  dsimp only
  by_cases hone : t.callTimes = 1
  · rw [if_pos hone]
    show 0 < (t.firings now).toNat
    omega
  · rw [if_neg hone]
    show (t.rearm.data.firings now).toNat < (t.firings now).toNat
    rw [hs.firings_rearm hdue hone]
    omega

end Timer

/-! ## The loop -/

namespace TimerHeap

open BinaryHeap Timer

variable {κ : Type} {h h' : TimerHeap κ} {now : Timestamp}

/-- More fuel changes nothing. -/
theorem checkTimeout_mono : ∀ {fuel fuel' : Nat} {h : TimerHeap κ}
    {r : TimerHeap κ × List (Timer κ)}, checkTimeout fuel h now = some r → fuel ≤ fuel' →
    checkTimeout fuel' h now = some r
  | 0, _, _, _, hr, _ => by cases hr
  | fuel + 1, fuel', h, r, hr, hle => by
    obtain ⟨k, rfl⟩ : ∃ k, fuel' = k + 1 := ⟨fuel' - 1, by omega⟩
    rw [checkTimeout] at hr ⊢
    cases ht : h.checkTimeoutTurn now with
    | none => rw [ht] at hr; cases hr
    | some turn =>
      rw [ht] at hr
      cases turn with
      | finished => exact hr
      | fired h' t =>
        dsimp only at hr ⊢
        cases hrec : checkTimeout fuel h' now with
        | none => rw [hrec] at hr; cases hr
        | some r' =>
          rw [hrec] at hr
          rw [checkTimeout_mono hrec (by omega)]
          exact hr

theorem pending_data {id : TimerId} {t : Timer κ} (hp : h.pending id = some t) :
    t.heapPos = -1 := by
  unfold pending at hp
  obtain ⟨u, _, rfl⟩ := Option.map_eq_some_iff.1 hp
  rfl

/-- What a firing is in the agenda. -/
def entry (t : Timer κ) : TimerId × Timer κ := (t.id, t.data)

/-- **The loop serves the agenda**, in as many turns as there are firings left, and one more. -/
theorem checkTimeout_serves (now : Timestamp) (S : Finset TimerId) :
    ∀ (fuel : Nat) (h : TimerHeap κ), Inv h none →
    IsHeap h.keyAt h.last → (∀ id t, h.pending id = some t → t.Schedulable ∧ id ∈ S) →
    Agenda.weight (rank now) S h.pending < fuel →
    ∃ h' fired, checkTimeout fuel h now = some (h', fired) ∧ Inv h' none ∧
      IsHeap h'.keyAt h'.last ∧
      Agenda.Serves (policy κ now) h.pending (fired.map entry) h'.pending
  | 0, _, _, _, _, hf => absurd hf (Nat.not_lt_zero _)
  | fuel + 1, h, hinv, hheap, hgood, hf => by
    obtain ⟨r, hr, hspec⟩ := checkTimeoutTurn_spec now hinv
    rw [checkTimeout, hr]
    have hleast : ∀ top, h.slot 1 = some top → ∀ id u, h.pending id = some u →
        top.timestamp ≤ u.timestamp := by
      intro top htop id u hu
      obtain ⟨_, top', _, _, htop', hnone⟩ := top_noneEarlier hinv hheap hu
      rw [htop] at htop'; cases htop'
      exact Timestamp.not_less_iff.1 (hnone id u hu)
    cases hspec with
    | empty hlast =>
      refine ⟨h, [], rfl, hinv, hheap, .done fun id t hp => ?_⟩
      obtain ⟨i, _, h1, hl, _⟩ := hinv.pending_slot hp
      omega
    | @early top htop hnot =>
      refine ⟨h, [], rfl, hinv, hheap, .done fun id t hp => ?_⟩
      have htops := (hgood _ _ (hinv.slot_pending htop)).1.normalised
      have hts := (hgood id t hp).1
      rw [hts.due_iff]
      rw [Timestamp.millisecondLess_iff (u := top.timestamp) htops] at hnot
      have := Timestamp.totalMs_mono (t := top.timestamp) htops hts.normalised (hleast top htop id t hp)
      omega
    | @fired top h1 htop hdue hinv1 hord1 hpend1 =>
      have hp := hinv.slot_pending htop
      obtain ⟨hs, hmem⟩ := hgood _ _ hp
      have hnext : h1.pending = Function.update h.pending top.id
          ((policy κ now).next top.data) := hpend1
      have hgood1 : ∀ id t, h1.pending id = some t → t.Schedulable ∧ id ∈ S := by
        intro id t hpt
        rw [hnext] at hpt
        by_cases hid : id = top.id
        · subst hid
          rw [Function.update_self] at hpt
          exact ⟨(hs.next hpt).1, hmem⟩
        · rw [Function.update_of_ne hid] at hpt
          exact hgood id t hpt
      have hlt : Agenda.weight (rank now) S h1.pending < fuel := by
        refine lt_of_lt_of_le ?_ (Nat.le_of_lt_succ hf)
        rw [hnext]
        exact Agenda.weight_update_lt hmem (hp ▸ hs.rank_next now hdue)
      obtain ⟨h', fired, hrun, hinv', hheap', hserves⟩ :=
        checkTimeout_serves now S fuel h1 hinv1 (hord1 hheap) hgood1 hlt
      refine ⟨h', top :: fired, by dsimp only; rw [hrun], hinv', hheap', ?_⟩
      exact .fire hp hdue (hleast top htop) (hnext ▸ hserves)

/-- The ids in the heap. -/
def heapIds (h : TimerHeap κ) : List TimerId :=
  h.timerMinHeap.filterMap fun p => (p.bind h.mem).map (·.id)

theorem Inv.mem_heapIds (hinv : Inv h none) {id : TimerId} {t : Timer κ}
    (hp : h.pending id = some t) : id ∈ h.heapIds := by
  obtain ⟨i, u, _, _, hs, hid, _⟩ := hinv.pending_slot hp
  obtain ⟨a, hptr, hm, _⟩ := hinv.slot_id hs
  unfold heapIds
  refine List.mem_filterMap.2 ⟨some a, mem_heap_iff.2 ⟨i, hptr⟩, ?_⟩
  rw [Option.bind_some, hm, Option.map_some, hid]

/-- **`checkTimeout` refines the reference scheduler.** -/
theorem checkTimeout_refines_schedule (h : TimerHeap κ) (now : Timestamp) (hbij : Bijective h)
    (hord : Ordered h) (htimers : ∀ id t, h.pending id = some t → t.Schedulable) :
    ∃ h' fired, (∃ n, ∀ fuel, n ≤ fuel → checkTimeout fuel h now = some (h', fired)) ∧
      Bijective h' ∧ Ordered h' ∧
      (∀ id, ((fired.filter fun t => t.id = id).length : Int) =
        ((h.pending id).map (firings now)).getD 0) ∧
      (∀ t ∈ fired, ∃ u, h.pending t.id = some u ∧ t.timerCb = u.timerCb) ∧
      fired.Pairwise (fun t u => ¬ u.timestamp.less t.timestamp = true) ∧
      (∀ id, h'.pending id = (h.pending id).bind (afterwards now)) ∧
      (∀ id, h'.pending id = none →
        h'.timers id = none ∧ ∀ i t, h'.slot i = some t → t.id ≠ id) ∧
      (∀ id t, h'.pending id = some t → now.millisecondLess t.timestamp = true) ∧
      (now.Normalised → now.clockMs = now.totalMs) := by
  have hinv := bijective_iff_inv.1 hbij
  have hheap := (ordered_iff_keyAt hinv).1 hord
  set S := h.heapIds.toFinset with hS
  obtain ⟨h', fired, hrun, hinv', hheap', hserves⟩ :=
    checkTimeout_serves now S _ h hinv hheap
      (fun id t hp => ⟨htimers id t hp, List.mem_toFinset.2 (hinv.mem_heapIds hp)⟩)
      (Nat.lt_succ_self _)
  have halone := fun id => alone_spec (hserves.alone id) fun t ht =>
    ⟨htimers id t ht, pending_data ht⟩
  have hof : ∀ id, Agenda.firingsOf id (fired.map entry) =
      (fired.filter fun t => t.id = id).map Timer.data := by
    intro id
    unfold Agenda.firingsOf
    rw [List.filter_map, List.map_map]
    rfl
  refine ⟨h', fired, ⟨_, fun fuel hle => checkTimeout_mono hrun hle⟩, bijective_iff_inv.2 hinv',
    (ordered_iff_keyAt hinv').2 hheap', fun id => ?_, fun t ht => ?_, ?_,
    fun id => (halone id).2.1, fun id hnone => ?_, fun id t hp => ?_, fun hn => hn.clockMs_eq⟩
  · rw [← (halone id).1, hof, List.length_map]
  · obtain ⟨u, hu, hcb⟩ := (halone t.id).2.2 t.data
      (by rw [hof]; exact List.mem_map.2 ⟨t, List.mem_filter.2 ⟨ht, by simp⟩, rfl⟩)
    exact ⟨u, hu, hcb⟩
  · have hnext : ∀ e f : Timer κ, e.Schedulable → (policy κ now).next e = some f →
        f.Schedulable ∧ (policy κ now).key e ≤ (policy κ now).key f := fun _ _ he hn => he.next hn
    have hsorted := hserves.sorted hnext htimers
    rw [List.pairwise_map] at hsorted
    exact hsorted.imp fun hle => Timestamp.not_less_iff.2 hle
  · have hmap : h'.timers id = none := by
      by_contra hne
      obtain ⟨a, ha⟩ := Option.ne_none_iff_exists'.1 hne
      obtain ⟨t, hm, _⟩ := hinv'.mapped id a ha
      rw [pending_eq ha hm] at hnone
      cases hnone
    refine ⟨hmap, fun i t hs hid => ?_⟩
    obtain ⟨a, _, _, hta⟩ := hinv'.slot_id hs
    rw [hid, hmap] at hta
    cases hta
  · by_contra hnot
    exact hserves.not_due id t hp hnot

/-! ## A two-timer heap -/

/-- A timer with two calls left every 1000 ms, above one without a limit every 700 ms. -/
def twoTimers : TimerHeap Unit where
  timerIdAllocator := 2
  mem a := if a = 1 then some ⟨1, ⟨0, 999999⟩, 1000, (), 2, 1⟩
    else if a = 2 then some ⟨2, ⟨0, 300000000⟩, 700, (), 0, 2⟩ else none
  timers id := if id = 1 then some 1 else if id = 2 then some 2 else none
  timerMinHeap := [none, some 1, some 2]

theorem twoTimers_inv : Inv twoTimers none := by
  refine ⟨rfl, fun i h1 hl => ?_, fun id a ha => ?_, by simp⟩
  · have hl' : i ≤ 2 := hl
    rcases (show i = 1 ∨ i = 2 by omega) with rfl | rfl
    · exact ⟨1, _, rfl, rfl, rfl, rfl⟩
    · exact ⟨2, _, rfl, rfl, rfl, rfl⟩
  · simp only [twoTimers] at ha
    split at ha
    · cases ha; rename_i hid; exact ⟨_, rfl, hid.symm, by decide⟩
    · split at ha
      · cases ha; rename_i hid; exact ⟨_, rfl, hid.symm, by decide⟩
      · cases ha

theorem twoTimers_isHeap : IsHeap twoTimers.keyAt twoTimers.last := by
  intro i h2 hl
  have hl' : i ≤ 2 := hl
  obtain rfl : i = 2 := by omega
  decide

theorem twoTimers_schedulable (id : TimerId) (t : Timer Unit)
    (hp : twoTimers.pending id = some t) : t.Schedulable := by
  obtain ⟨i, u, h1, hl, hs, -, rfl⟩ := twoTimers_inv.pending_slot hp
  have hl' : i ≤ 2 := hl
  rcases (show i = 1 ∨ i = 2 by omega) with rfl | rfl <;> cases hs <;>
    exact ⟨by decide, by decide, by decide⟩

/-- At 5 s the first timer is used up; the second has fired seven times and is due at 5.2 s. -/
theorem twoTimers_at_five_seconds :
    ∃ h' fired, (∃ n, ∀ fuel, n ≤ fuel →
        checkTimeout fuel twoTimers ⟨5, 0⟩ = some (h', fired)) ∧
      (fired.filter fun t => t.id = 1).length = 2 ∧
      (fired.filter fun t => t.id = 2).length = 7 ∧
      h'.timers 1 = none ∧ (h'.pending 2).map (·.timestamp) = some ⟨5, 200000000⟩ := by
  obtain ⟨h', fired, hrun, _, _, hcount, _, _, hpend, hgone, _⟩ :=
    checkTimeout_refines_schedule twoTimers ⟨5, 0⟩ (bijective_iff_inv.2 twoTimers_inv)
      ((ordered_iff_keyAt twoTimers_inv).2 twoTimers_isHeap) twoTimers_schedulable
  refine ⟨h', fired, hrun, ?_, ?_, (hgone 1 ?_).1, ?_⟩
  · exact_mod_cast (hcount 1).trans (by decide : _ = (2 : Int))
  · exact_mod_cast (hcount 2).trans (by decide : _ = (7 : Int))
  · rw [hpend]; decide
  · rw [hpend]; decide

end TimerHeap

end Brickred
