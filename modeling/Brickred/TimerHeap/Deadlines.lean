import Brickred.TimerHeap.Effects
import Brickred.TimerHeap.Sleep

/-!
# The deadlines of a repeating timer

A run after a call of `addTimer`, with the firings of its timer counted.  `checkTimeout` re-arms a
timer by what `getTimeout` returns, which is an `int`.

* `Watched` — the run and the count.
* `OnSchedule` — after `k` firings the deadline is that of `k + 1` periods, and the timer fires no
  earlier.
* `Watched.step_scheduled` — one step, of the owner or of a running callback.
* `periodic_deadlines_iff` — every run is on schedule iff the period is an `int` or there is only
  one call.
-/

set_option autoImplicit false

namespace Brickred

namespace TimerHeap

variable {κ : Type}

/-- A run of the heap, and the firings of one timer so far. -/
structure Watched (κ : Type) where
  machine : Machine κ
  firings : Nat

def Watched.step (id : TimerId) (w : Watched κ) (op : Op κ) : Option (Watched κ) :=
  (w.machine.step op).map fun machine =>
    ⟨machine, w.firings + if (w.machine.fires op).any (·.2.id = id) then 1 else 0⟩

/-- The step does not remove the timer. -/
def Op.Keeps (id : TimerId) : Op κ → Prop
  | .removeTimer timerId => timerId ≠ id
  | _ => True

/-- A deadline `k + 1` periods after `now`. -/
def NthDeadline (now : Timestamp) (timeoutMs : Int) (k : Nat) (deadline : Timestamp) : Prop :=
  deadline.totalNs = now.totalNs + (k + 1) * timeoutMs * 1000000 ∧
    (now.Normalised → deadline = now.add ((k + 1) * timeoutMs))

/-- While there are calls left, the timer has its next deadline, and no `checkTimeout` fires it
before that. -/
def OnSchedule (now : Timestamp) (timeoutMs callTimes : Int) (id : TimerId) (w : Watched κ) :
    Prop :=
  (callTimes > 0 → w.firings < callTimes) →
    (∃ t, w.machine.heap.pending id = some t ∧
      NthDeadline now timeoutMs w.firings t.timestamp) ∧
    ∀ now' h t, w.machine.heap.checkTimeoutTurn now' = some (.fired h t) → t.id = id →
      NthDeadline now timeoutMs w.firings t.timestamp ∧ ¬ now'.millisecondLess t.timestamp = true

section Schedule

variable {h h' : TimerHeap κ} {now : Timestamp} {timeoutMs callTimes : Int} {timerCb : κ}
  {id r : TimerId} {a : Addr} {t : Timer κ} {w w' : Watched κ} {op : Op κ}

/-- What `addTimer` returns. -/
theorem addTimer_result (hadd : h.addTimer now timeoutMs timerCb callTimes a = some (h', r)) :
    r = if (h.timers (TimerIdAllocator.getId h.timerIdAllocator)).isSome then -1
      else TimerIdAllocator.getId h.timerIdAllocator := by
  unfold addTimer at hadd
  dsimp only at hadd
  split at hadd
  · rename_i hused
    cases hadd
    rw [if_pos hused]
  · rename_i hfree
    obtain ⟨h1, _, hadd⟩ := Option.bind_eq_some_iff.1 hadd
    cases hadd
    rw [if_neg hfree]

/-- **A timer that is added** has the id that is returned, and changes no other timer. -/
theorem addTimer_added (hinv : Inv h none) (hfresh : h.mem a = none)
    (hadd : h.addTimer now timeoutMs timerCb callTimes a = some (h', r)) (hr : r ≠ -1) :
    Inv h' none ∧ (h.newTimer now timeoutMs timerCb callTimes).id = r ∧
      h'.pending = Function.update h.pending r
        (some (h.newTimer now timeoutMs timerCb callTimes).data) := by
  have hresult := addTimer_result hadd
  split at hresult
  · exact absurd hresult hr
  · rename_i hfree
    obtain ⟨h'', r', hadd', hinv', _, hpend⟩ :=
      addTimer_spec now timeoutMs callTimes timerCb hinv hfresh
    rw [hadd] at hadd'
    cases hadd'
    have hid : (h.newTimer now timeoutMs timerCb callTimes).id = r := hresult.symm
    have hnone : h.pending r = none := by
      unfold pending
      rw [hresult, Option.not_isSome_iff_eq_none.1 hfree]
      rfl
    refine ⟨hinv', hid, ?_⟩
    rw [hpend]
    dsimp only
    rw [hid, hnone]
    exact if_neg Bool.false_ne_true

/-- The timer of the call, after some firings. -/
structure TimerAfter (now : Timestamp) (timeoutMs callTimes : Int) (k : Nat) (t : Timer κ) :
    Prop where
  timeout : t.timeout = timeoutMs
  callTimes : t.callTimes = if callTimes > 0 then callTimes - k else callTimes
  total : t.timestamp.totalNs = now.totalNs + (k + 1) * timeoutMs * 1000000
  normalised : now.Normalised → t.timestamp.Normalised

theorem TimerAfter.nthDeadline {k : Nat} (ht : TimerAfter now timeoutMs callTimes k t)
    (hpos : 1 ≤ timeoutMs) : NthDeadline now timeoutMs k t.timestamp := by
  refine ⟨ht.total, fun hnow => ?_⟩
  have hcount : 0 ≤ ((k : Int) + 1) * timeoutMs :=
    Int.mul_nonneg (by omega) (by omega)
  refine Timestamp.totalNs_injOn (ht.normalised hnow)
    (Timestamp.addAssign_normalised hnow hcount) ?_
  show _ = (now.addAssign _).totalNs
  rw [Timestamp.addAssign_totalNs]
  exact ht.total

theorem newTimer_after (hpos : 1 ≤ timeoutMs) :
    TimerAfter now timeoutMs callTimes 0 (h.newTimer now timeoutMs timerCb callTimes).data := by
  have hmax : max 0 timeoutMs = timeoutMs := max_eq_right (by omega)
  refine ⟨hmax, ?_, ?_, fun hnow => ?_⟩
  · show callTimes = _
    split <;> simp
  · show (now.addAssign (max 0 timeoutMs)).totalNs = _
    rw [Timestamp.addAssign_totalNs, hmax]
    simp
  · exact Timestamp.addAssign_normalised hnow (le_max_left _ _)

/-- **One firing** of a timer that has a call left and a period that is an `int`. -/
theorem TimerAfter.rearm {k : Nat} (ht : TimerAfter now timeoutMs callTimes k t)
    (hpos : 1 ≤ timeoutMs) (hint : timeoutMs < 2 ^ 31) (hleft : callTimes > 0 → k < callTimes) :
    TimerAfter now timeoutMs callTimes (k + 1) t.rearm.data := by
  have hperiod : t.getTimeout = timeoutMs := by
    unfold Timer.getTimeout
    rw [ht.timeout]
    exact toInt_eq (by omega) hint
  have hstamp : t.rearm.data.timestamp = t.timestamp.addAssign t.getTimeout := rfl
  have hcall : t.rearm.data.callTimes =
      if t.callTimes > 0 then t.callTimes - 1 else t.callTimes := rfl
  have hcalls := ht.callTimes
  constructor
  · exact ht.timeout
  · rw [hcall]
    push_cast
    by_cases hlimit : callTimes > 0
    · have := hleft hlimit
      rw [if_pos hlimit] at hcalls ⊢
      rw [if_pos (by omega)]
      omega
    · rw [if_neg hlimit] at hcalls ⊢
      rw [if_neg (by omega)]
      exact hcalls
  · rw [hstamp, hperiod, Timestamp.addAssign_totalNs, ht.total]
    push_cast
    ring
  · intro hnow
    rw [hstamp, hperiod]
    exact Timestamp.addAssign_normalised (ht.normalised hnow) (by omega)

/-- The invariant: while there are calls left, the timer is pending as it should be. -/
def Scheduled (now : Timestamp) (timeoutMs callTimes : Int) (id : TimerId) (w : Watched κ) : Prop :=
  Inv w.machine.heap none ∧ ((callTimes > 0 → w.firings < callTimes) →
    ∃ t, w.machine.heap.pending id = some t ∧ TimerAfter now timeoutMs callTimes w.firings t)

theorem Scheduled.onSchedule (hw : Scheduled now timeoutMs callTimes id w) (hpos : 1 ≤ timeoutMs) :
    OnSchedule now timeoutMs callTimes id w := by
  intro hleft
  obtain ⟨hinv, hpending⟩ := hw
  obtain ⟨t, hp, ht⟩ := hpending hleft
  refine ⟨⟨t, hp, ht.nthDeadline hpos⟩, fun now' heap t' hturn hid => ?_⟩
  obtain ⟨r, hr, hspec⟩ := checkTimeoutTurn_spec now' hinv
  rw [hturn] at hr
  cases hr
  cases hspec with
  | fired htop hdue _ _ _ =>
    have hp' := hinv.slot_pending htop
    rw [hid, hp] at hp'
    cases hp'
    exact ⟨ht.nthDeadline hpos, hdue⟩

/-- **One step** keeps the timer on schedule. -/
theorem Watched.step_scheduled (hpos : 1 ≤ timeoutMs)
    (hperiod : callTimes = 1 ∨ timeoutMs < 2 ^ 31)
    (hw : Scheduled now timeoutMs callTimes id w) (hen : w.machine.Enabled op)
    (hkeep : op.Keeps id) (hs : w.step id op = some w') :
    Scheduled now timeoutMs callTimes id w' := by
  obtain ⟨m', hm', rfl⟩ := Option.map_eq_some_iff.1 hs
  have heffect := Machine.step_effect hw.1 hen hm'
  refine ⟨Machine.inv_of_step hw.1 hen hm', fun hleft => ?_⟩
  dsimp only at hleft ⊢
  have hleft' : callTimes > 0 → (w.firings : Int) < callTimes := fun hlimit => by
    have := hleft hlimit
    push_cast at this
    split at this <;> omega
  obtain ⟨t, hp, ht⟩ := hw.2 hleft'
  generalize hfires : w.machine.fires op = fires at heffect hleft ⊢
  generalize hpend : m'.heap.pending = pending at heffect ⊢
  cases heffect with
  | refused _ => exact ⟨t, hp, ht⟩
  | @added _ _ _ _ _ u hu hfree =>
    refine ⟨t, ?_, ht⟩
    have hne : id ≠ u.id := by
      rintro rfl
      rw [hp] at hfree
      cases hfree
    rw [Function.update_of_ne hne]
    exact hp
  | @removed timerId =>
    refine ⟨t, ?_, ht⟩
    have hne : timerId ≠ id := hkeep
    rw [Function.update_of_ne hne.symm]
    exact hp
  | idle _ => exact ⟨t, hp, ht⟩
  | @fired _ now' u _ htop _ =>
    by_cases hid : u.id = id
    · -- its own firing: there is another call, and so the period is an `int`
      subst hid
      have hone : (Option.any (fun f : Timestamp × Timer κ => decide (f.2.id = u.id))
          (some (now', u))) = true := by simp
      rw [if_pos hone] at hleft ⊢
      push_cast at hleft
      obtain rfl : u.data = t := Option.some.inj ((hw.1.slot_pending htop).symm.trans hp)
      have hcalls : u.callTimes = if callTimes > 0 then callTimes - w.firings else callTimes :=
        ht.callTimes
      have hnotOne : u.callTimes ≠ 1 := by
        rw [hcalls]
        split
        · rename_i hlimit
          have := hleft hlimit
          omega
        · omega
      have hint : timeoutMs < 2 ^ 31 := by
        refine hperiod.resolve_left fun hsingle => ?_
        have := hleft (by omega)
        omega
      refine ⟨u.rearm.data, ?_, ht.rearm hpos hint hleft'⟩
      rw [Function.update_self, if_neg hnotOne]
    · have hnone : ¬ (Option.any (fun f : Timestamp × Timer κ => decide (f.2.id = id))
          (some (now', u))) = true := by simpa using hid
      rw [if_neg hnone]
      refine ⟨t, ?_, ht⟩
      rw [Function.update_of_ne (Ne.symm hid)]
      exact hp

/-- A timer that is alone is on top. -/
theorem top_of_alone (hinv : Inv h none)
    (hpend : h.pending = Function.update (fun _ => none) id (some t)) :
    ∃ top, h.slot 1 = some top ∧ top.id = id ∧ top.data = t := by
  have hp : h.pending id = some t := by rw [hpend, Function.update_self]
  obtain ⟨_, hnone⟩ | ⟨_, top, _, _, htop⟩ := hinv.top_cases
  · unfold pending at hp
    rw [hnone] at hp
    cases hp
  · have hp' := hinv.slot_pending htop
    have hid : top.id = id := by
      by_contra hne
      rw [hpend, Function.update_of_ne hne] at hp'
      cases hp'
    rw [hid, hp] at hp'
    exact ⟨top, htop, hid, (Option.some.inj hp').symm⟩

/-- The step that fires the timer on top. -/
theorem Watched.step_fires {top : Timer κ} {outer : List Timestamp} {k : Nat}
    (hinv : Inv h none) (htop : h.slot 1 = some top)
    (hdue : ¬ now.millisecondLess top.timestamp = true) :
    ∃ h', Watched.step top.id ⟨⟨h, outer⟩, k⟩ (.checkTimeout now) =
        some ⟨⟨h', now :: outer⟩, k + 1⟩ ∧
      h'.pending = Function.update h.pending top.id
        (if top.callTimes = 1 then none else some top.rearm.data) := by
  obtain ⟨r, hr, hspec⟩ := checkTimeoutTurn_spec now hinv
  cases hspec with
  | empty hlast =>
    have := (hinv.slot_range htop).2
    omega
  | early htop' hnot =>
    rw [htop] at htop'
    cases htop'
    exact absurd hnot hdue
  | @fired t h' htop' _ _ _ hpend =>
    rw [htop] at htop'
    cases htop'
    refine ⟨h', ?_, hpend⟩
    have hstep : Machine.step ⟨h, outer⟩ (.checkTimeout now) = some ⟨h', now :: outer⟩ := by
      show Machine.turn h now outer = _
      unfold Machine.turn
      rw [hr]
      rfl
    have hfires : Machine.fires ⟨h, outer⟩ (.checkTimeout now) = some (now, top) := by
      show h.firing now = _
      unfold firing
      rw [hr]
    unfold Watched.step
    dsimp only
    rw [hstep, hfires, Option.map_some, Option.any_some, decide_eq_true rfl, if_pos rfl]

/-- The first firing of a long period comes back too early. -/
theorem long_period_jumps (now : Timestamp) (timerCb : κ) (hlong : 2 ^ 31 ≤ timeoutMs)
    (hcalls : callTimes ≠ 1) :
    ∃ (h : TimerHeap κ) (late : Timestamp),
      init.addTimer now timeoutMs timerCb callTimes 1 = some (h, 1) ∧
      ¬ Runs.Along (Watched.step 1) (OnSchedule now timeoutMs callTimes 1) ⟨⟨h, []⟩, 0⟩
        [.checkTimeout late] := by
  obtain ⟨h, r, hadd, _⟩ := addTimer_spec now timeoutMs callTimes timerCb
    (@init_inv κ) (show init.mem 1 = none from rfl)
  obtain rfl : r = 1 := addTimer_result hadd
  obtain ⟨hinv, _, hpend⟩ := addTimer_added init_inv rfl hadd (by decide)
  obtain ⟨top, htop, hid, hdata⟩ := top_of_alone hinv hpend
  have hafter : TimerAfter now timeoutMs callTimes 0 top.data :=
    hdata ▸ newTimer_after (show 1 ≤ timeoutMs by omega)
  have hnotOne : top.callTimes ≠ 1 := by
    have hcallTimes : top.callTimes = if callTimes > 0 then callTimes - (0 : Nat) else callTimes :=
      hafter.callTimes
    rw [hcallTimes]
    split <;> omega
  obtain ⟨h', hstep, hpend'⟩ := @Watched.step_fires _ _ ⟨top.timestamp.second + 1, 0⟩ _ [] 0
    hinv htop
    (Timestamp.not_millisecondLess_of_second_lt (by show _ < top.timestamp.second + 1; omega))
  rw [hid] at hstep hpend'
  rw [if_neg hnotOne] at hpend'
  refine ⟨h, ⟨top.timestamp.second + 1, 0⟩, hadd, fun halong => ?_⟩
  obtain ⟨⟨t, hp, htotal, _⟩, _⟩ := (halong.2 _ hstep).head fun hlimit => by
    show ((1 : Nat) : Int) < callTimes
    omega
  obtain rfl : top.rearm.data = t := by
    have hp' : h'.pending 1 = some t := hp
    rw [hpend', Function.update_self] at hp'
    exact Option.some.inj hp'
  have hstamp : top.timestamp.totalNs = now.totalNs + ((0 : Nat) + 1) * timeoutMs * 1000000 :=
    hafter.total
  have htimeout : top.timeout = timeoutMs := hafter.timeout
  have hrearm : top.rearm.data.timestamp = top.timestamp.addAssign (toInt top.timeout) := rfl
  rw [hrearm, Timestamp.addAssign_totalNs, hstamp, htimeout] at htotal
  have hint := toInt_lt timeoutMs
  push_cast at htotal
  omega

/-- **Periodic deadlines.**  Whatever else the owner and the callbacks do with the heap, the timer
of a call keeps its deadlines, exactly when the period is an `int` or there is only one call. -/
theorem periodic_deadlines_iff (now : Timestamp) (timeoutMs callTimes : Int) (timerCb : κ)
    (hpos : 1 ≤ timeoutMs) :
    (∀ (m : Machine κ) (a : Addr) (h : TimerHeap κ) (id : TimerId) (ops : List (Op κ)),
      Bijective m.heap → m.heap.mem a = none →
      m.heap.addTimer now timeoutMs timerCb callTimes a = some (h, id) → id ≠ -1 →
      Runs.EachStep (Watched.step id) (fun w op => w.machine.Enabled op ∧ op.Keeps id)
        ⟨{ m with heap := h }, 0⟩ ops →
      Runs.Along (Watched.step id) (OnSchedule now timeoutMs callTimes id)
        ⟨{ m with heap := h }, 0⟩ ops) ↔
    callTimes = 1 ∨ timeoutMs < 2 ^ 31 := by
  constructor
  · intro hruns
    by_contra hnot
    rw [not_or, not_lt] at hnot
    obtain ⟨h, late, hadd, hjumps⟩ := long_period_jumps now timerCb hnot.2 hnot.1
    refine hjumps (hruns ⟨init, []⟩ 1 h 1 [.checkTimeout late] (bijective_iff_inv.2 init_inv) rfl
      hadd (by decide) ?_)
    exact ⟨⟨trivial, trivial⟩, fun _ _ => trivial⟩
  · intro hperiod m a h id ops hbij hfresh hadd hid hops
    obtain ⟨hinv, _, hpend⟩ := addTimer_added (bijective_iff_inv.1 hbij) hfresh hadd hid
    have hstart : Scheduled now timeoutMs callTimes id ⟨{ m with heap := h }, 0⟩ := by
      refine ⟨hinv, fun _ => ⟨(m.heap.newTimer now timeoutMs timerCb callTimes).data, ?_,
        newTimer_after hpos⟩⟩
      show h.pending id = _
      rw [hpend, Function.update_self]
    have hrun := Runs.along_of_eachStep (P := Scheduled now timeoutMs callTimes id)
      (fun w op w' hw hC hs => Watched.step_scheduled hpos hperiod hw hC.1 hC.2 hs) hstart hops
    exact hrun.mono fun w hw => hw.onSchedule hpos

end Schedule

/-- A timer every second, without a limit of calls, fires at one second and then at two. -/
theorem second_on_schedule :
    ∃ h, (init : TimerHeap Unit).addTimer ⟨0, 0⟩ 1000 () (-1) 1 = some (h, 1) ∧
      Runs.Along (Watched.step 1) (OnSchedule ⟨0, 0⟩ 1000 (-1) 1) ⟨⟨h, []⟩, 0⟩
        [.checkTimeout ⟨1, 0⟩, .callbackReturn] := by
  obtain ⟨h, r, hadd, _⟩ := addTimer_spec ⟨0, 0⟩ 1000 (-1) ()
    (@init_inv Unit) (show init.mem 1 = none from rfl)
  obtain rfl : r = 1 := addTimer_result hadd
  exact ⟨h, hadd, (periodic_deadlines_iff ⟨0, 0⟩ 1000 (-1) () (by decide)).2 (.inr (by decide))
    ⟨init, []⟩ 1 h 1 _ (bijective_iff_inv.2 init_inv) rfl hadd (by decide)
    ⟨⟨trivial, trivial⟩, fun _ _ => ⟨⟨trivial, trivial⟩, fun _ _ => trivial⟩⟩⟩

/-- A timer every `2 ^ 31` ms: when it has fired, its next deadline is the time it was started. -/
theorem long_period_off_schedule :
    ∃ h, (init : TimerHeap Unit).addTimer ⟨0, 0⟩ 2147483648 () (-1) 1 = some (h, 1) ∧
      ¬ Runs.Along (Watched.step 1) (OnSchedule ⟨0, 0⟩ 2147483648 (-1) 1) ⟨⟨h, []⟩, 0⟩
        [.checkTimeout ⟨2147484, 0⟩] ∧
      ((Machine.step ⟨h, []⟩ (.checkTimeout ⟨2147484, 0⟩)).bind fun m =>
        (m.heap.pending 1).map (·.timestamp)) = some ⟨0, 0⟩ := by
  obtain ⟨h, r, hadd, _⟩ := addTimer_spec ⟨0, 0⟩ 2147483648 (-1) ()
    (@init_inv Unit) (show init.mem 1 = none from rfl)
  obtain rfl : r = 1 := addTimer_result hadd
  have hfires : ((init : TimerHeap Unit).addTimer ⟨0, 0⟩ 2147483648 () (-1) 1).bind (fun r =>
      (Watched.step 1 ⟨⟨r.1, []⟩, 0⟩ (.checkTimeout ⟨2147484, 0⟩)).map fun w =>
        (w.firings, w.machine.heap.pending 1)) =
      some (1, some ⟨1, ⟨0, 0⟩, 2147483648, (), -1, -1⟩) := by decide
  have hback : ((init : TimerHeap Unit).addTimer ⟨0, 0⟩ 2147483648 () (-1) 1).bind (fun r =>
      (Machine.step ⟨r.1, []⟩ (.checkTimeout ⟨2147484, 0⟩)).bind fun m =>
        (m.heap.pending 1).map (·.timestamp)) = some ⟨0, 0⟩ := by decide
  rw [hadd] at hfires hback
  refine ⟨h, hadd, fun halong => ?_, hback⟩
  obtain ⟨w, hstep, hw⟩ := Option.map_eq_some_iff.1 hfires
  obtain ⟨hone, hp⟩ := Prod.mk.inj hw
  obtain ⟨⟨t, hp', htotal, _⟩, _⟩ := (halong.2 w hstep).head fun hlimit => absurd hlimit (by decide)
  rw [hp] at hp'
  cases hp'
  rw [hone] at htotal
  exact absurd htotal (by decide)

end TimerHeap

end Brickred
