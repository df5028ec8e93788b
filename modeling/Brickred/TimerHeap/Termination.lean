import Brickred.Timestamp.Arithmetic
import Brickred.TimerHeap.Effects
import Brickred.TimerHeap.Schedule

/-!
# `checkTimeout` returns

A timer that is due fires, is re-armed and is looked at again.  One without a limit of calls has to
get to a later deadline, or the loop never gets past it: that takes a positive period, and the
period is what `getTimeout` makes of `timeout_`, an `int`.

* `Timer.Advances` — a limit of calls, or a positive period.
* `checkTimeout_returns` — the loop returns when every timer advances.
* `checkTimeout_stuck` — in a heap in order, it never gets past a due timer that does not.
* `checkTimeout_terminates_iff` — both, for every run.
-/

set_option autoImplicit false

namespace Brickred

/-! ## One timer -/

namespace Timer

variable {κ : Type} {t : Timer κ} {now : Timestamp}

/-- The calls are limited, or the next deadline is a later one. -/
def Advances (t : Timer κ) : Prop := 0 < t.callTimes ∨ 0 < t.getTimeout

instance (t : Timer κ) : Decidable t.Advances := inferInstanceAs (Decidable (_ ∨ _))

theorem Advances.rearm (ht : t.Advances) (hone : t.callTimes ≠ 1) : t.rearm.data.Advances := by
  have hcall : t.rearm.data.callTimes =
      if t.callTimes > 0 then t.callTimes - 1 else t.callTimes := rfl
  unfold Advances
  rw [hcall]
  obtain hlimit | hperiod := ht
  · rw [if_pos hlimit]
    exact .inl (by omega)
  · exact .inr hperiod

/-- A bound for the turns that are left: the calls, or the nanoseconds until no second of the
deadline is past. -/
def turnsLeft (now : Timestamp) (t : Timer κ) : ℕ :=
  if 0 < t.callTimes then t.callTimes.toNat
  else ((now.second + 1) * 1000000000 - t.timestamp.totalNs + 1000000000).toNat

def turnRank (now : Timestamp) (e : Option (Timer κ)) : ℕ := (e.map (turnsLeft now)).getD 0

/-- A turn leaves fewer turns. -/
theorem Advances.turnRank_lt (ht : t.Advances) (hcarried : t.timestamp.Carried)
    (hdue : ¬ now.millisecondLess t.timestamp = true) :
    turnRank now (if t.callTimes = 1 then none else some t.rearm.data) < turnRank now (some t) := by
  have hsecond := Timestamp.second_le_of_not_millisecondLess hdue
  show _ < t.turnsLeft now
  by_cases hone : t.callTimes = 1
  · rw [if_pos hone]
    show 0 < t.turnsLeft now
    unfold turnsLeft
    rw [if_pos (by omega)]
    omega
  · rw [if_neg hone]
    show t.rearm.data.turnsLeft now < t.turnsLeft now
    have hcall : t.rearm.data.callTimes =
        if t.callTimes > 0 then t.callTimes - 1 else t.callTimes := rfl
    have hstamp : t.rearm.data.timestamp = t.timestamp.addAssign t.getTimeout := rfl
    unfold turnsLeft
    rw [hcall, hstamp, Timestamp.addAssign_totalNs]
    by_cases hlimit : 0 < t.callTimes
    · rw [if_pos hlimit, if_pos hlimit, if_pos (by omega)]
      omega
    · have hperiod := ht.resolve_left hlimit
      unfold Timestamp.Carried at hcarried
      rw [if_neg hlimit, if_neg hlimit, if_neg hlimit]
      unfold Timestamp.totalNs
      omega

end Timer

namespace TimerHeap

open BinaryHeap Timer

variable {κ : Type} {h h' : TimerHeap κ} {now : Timestamp} {id : TimerId} {t : Timer κ}

/-! ## The loop -/

/-- `checkTimeout(now)` returns. -/
def Returns (h : TimerHeap κ) (now : Timestamp) : Prop :=
  ∃ fuel h' fired, checkTimeout fuel h now = some (h', fired)

/-- Every timer passes `P`. -/
def EveryTimer (P : Timer κ → Prop) (h : TimerHeap κ) : Prop :=
  ∀ id t, h.pending id = some t → P t

/-- Every timer still does when one of them is exchanged. -/
theorem EveryTimer.update {P : Timer κ → Prop} {e : Option (Timer κ)} (hP : EveryTimer P h)
    (he : ∀ u, e = some u → P u) (hpend : h'.pending = Function.update h.pending id e) :
    EveryTimer P h' := by
  intro i u hu
  rw [hpend] at hu
  by_cases heq : i = id
  · rw [heq, Function.update_self] at hu
    exact he u hu
  · rw [Function.update_of_ne heq] at hu
    exact hP i u hu

/-- What a timer needs for the loop to get past it, and keeps. -/
theorem advances_next (ht : t.Advances ∧ t.timestamp.Carried) :
    ∀ u, (if t.callTimes = 1 then none else some t.rearm.data) = some u →
      u.Advances ∧ u.timestamp.Carried := by
  intro u hu
  split at hu
  · cases hu
  · rename_i hone
    cases hu
    exact ⟨ht.1.rearm hone, ht.2.addAssign _⟩

/-- **The loop returns** when every timer advances, whatever the order of the heap is. -/
theorem checkTimeout_returns (now : Timestamp) (S : Finset TimerId) : ∀ (fuel : Nat)
    (h : TimerHeap κ), Inv h none →
    EveryTimer (fun t => t.Advances ∧ t.timestamp.Carried) h →
    (∀ id t, h.pending id = some t → id ∈ S) →
    Agenda.weight (turnRank now) S h.pending < fuel →
    ∃ h' fired, checkTimeout fuel h now = some (h', fired)
  | 0, _, _, _, _, hf => absurd hf (Nat.not_lt_zero _)
  | fuel + 1, h, hinv, hgood, hmem, hf => by
    obtain ⟨r, hr, hspec⟩ := checkTimeoutTurn_spec now hinv
    rw [checkTimeout, hr]
    cases hspec with
    | empty => exact ⟨h, [], rfl⟩
    | early => exact ⟨h, [], rfl⟩
    | @fired top h1 htop hdue hinv1 _ hpend1 =>
      have hp := hinv.slot_pending htop
      have htopGood : top.data.Advances ∧ top.data.timestamp.Carried := hgood _ _ hp
      have hlt : Agenda.weight (turnRank now) S h1.pending < fuel := by
        refine lt_of_lt_of_le ?_ (Nat.le_of_lt_succ hf)
        rw [hpend1]
        refine Agenda.weight_update_lt (hmem _ _ hp) ?_
        rw [hp]
        exact htopGood.1.turnRank_lt htopGood.2 hdue
      have hmem1 : ∀ id t, h1.pending id = some t → id ∈ S := by
        intro id t hpt
        rw [hpend1] at hpt
        by_cases hid : id = top.id
        · exact hid ▸ hmem _ _ hp
        · rw [Function.update_of_ne hid] at hpt
          exact hmem id t hpt
      obtain ⟨h', fired, hrun⟩ := checkTimeout_returns now S fuel h1 hinv1
        (hgood.update (advances_next htopGood) hpend1) hmem1 hlt
      exact ⟨h', top :: fired, by dsimp only; rw [hrun]⟩

/-- **The loop is stuck** on a due timer that does not advance, in a heap in order. -/
theorem checkTimeout_stuck (now : Timestamp) (id : TimerId) : ∀ (fuel : Nat) (h : TimerHeap κ),
    Inv h none → IsHeap h.keyAt h.last →
    (∃ t, h.pending id = some t ∧ ¬ t.Advances ∧ t.timestamp.Carried ∧
      ¬ now.millisecondLess t.timestamp = true) →
    checkTimeout fuel h now = none
  | 0, _, _, _, _ => rfl
  | fuel + 1, h, hinv, hheap, hstuck => by
    obtain ⟨t, hp, hnot, hcarried, hdue⟩ := hstuck
    obtain ⟨a, top, _, _, htop, hleast⟩ := top_noneEarlier hinv hheap hp
    have hle : top.timestamp ≤ t.timestamp := Timestamp.not_less_iff.1 (hleast id t hp)
    obtain ⟨r, hr, hspec⟩ := checkTimeoutTurn_spec now hinv
    rw [checkTimeout, hr]
    cases hspec with
    | empty hlast =>
      have := (hinv.slot_range htop).2
      omega
    | early htop' hearly =>
      rw [htop] at htop'
      cases htop'
      exact absurd (Timestamp.millisecondLess_mono hle hearly) hdue
    | @fired top' h1 htop' _ hinv1 hord hpend =>
      dsimp only
      rw [htop] at htop'
      cases htop'
      rw [checkTimeout_stuck now id fuel h1 hinv1 (hord hheap) ?_]
      rw [hpend]
      by_cases hid : id = top.id
      · -- it fires, and gets to a deadline that is due as well
        subst hid
        obtain rfl : top.data = t := Option.some.inj ((hinv.slot_pending htop).symm.trans hp)
        unfold Advances at hnot
        rw [not_or, not_lt, not_lt] at hnot
        have hone : top.callTimes ≠ 1 := by
          have hlimit : top.callTimes ≤ 0 := hnot.1
          omega
        have hback : top.rearm.data.timestamp ≤ top.timestamp := hcarried.addAssign_le hnot.2
        refine ⟨top.rearm.data, ?_, ?_, hcarried.addAssign _, fun hless => ?_⟩
        · rw [Function.update_self, if_neg hone]
        · unfold Advances
          rw [not_or, not_lt, not_lt]
          have hcall : top.rearm.data.callTimes = top.callTimes :=
            if_neg (show ¬ top.callTimes > 0 from not_lt.2 hnot.1)
          exact ⟨hcall.trans_le hnot.1, hnot.2⟩
        · exact hdue (Timestamp.millisecondLess_mono hback hless)
      · refine ⟨t, ?_, hnot, hcarried, hdue⟩
        rw [Function.update_of_ne hid]
        exact hp

theorem returns_of_advances (hinv : Inv h none)
    (hgood : EveryTimer (fun t => t.Advances ∧ t.timestamp.Carried) h) (now : Timestamp) :
    h.Returns now := by
  obtain ⟨h', fired, hrun⟩ := checkTimeout_returns now h.heapIds.toFinset _ h hinv hgood
    (fun id t hp => List.mem_toFinset.2 (hinv.mem_heapIds hp)) (Nat.lt_succ_self _)
  exact ⟨_, h', fired, hrun⟩

/-- **A heap in order**: `checkTimeout` returns at every time iff every timer advances. -/
theorem returns_iff_advances (hinv : Inv h none) (hheap : IsHeap h.keyAt h.last)
    (hcarried : EveryTimer (fun t => t.timestamp.Carried) h) :
    (∀ now, h.Returns now) ↔ EveryTimer Advances h := by
  constructor
  · intro hret id t hp
    by_contra hnot
    obtain ⟨fuel, h', fired, hrun⟩ := hret ⟨t.timestamp.second + 1, 0⟩
    have hdue : ¬ (Timestamp.mk (t.timestamp.second + 1) 0).millisecondLess t.timestamp = true :=
      Timestamp.not_millisecondLess_of_second_lt (by dsimp only; omega)
    rw [checkTimeout_stuck _ id fuel h hinv hheap ⟨t, hp, hnot, hcarried id t hp, hdue⟩] at hrun
    cases hrun
  · intro hadv now
    exact returns_of_advances hinv (fun id t hp => ⟨hadv id t hp, hcarried id t hp⟩) now

/-! ## Runs -/

section Runs

variable {m m' : Machine κ} {op : Op κ}

/-- A step is possible, and the stamps passed to it are stamps the class can build. -/
def Machine.Admits (m : Machine κ) (op : Op κ) : Prop :=
  Machine.Enabled m op ∧ match op with
    | .addTimer now _ _ _ _ => now.Carried
    | _ => True

instance (m : Machine κ) : ∀ op, Decidable (Machine.Admits m op)
  | .addTimer _ _ _ _ _ => inferInstanceAs (Decidable (_ ∧ _ < _))
  | .removeTimer _ => inferInstanceAs (Decidable (_ ∧ True))
  | .checkTimeout _ => inferInstanceAs (Decidable (_ ∧ True))
  | .callbackReturn => inferInstanceAs (Decidable (_ ∧ True))

/-- A timer is added with a limit of calls or a period that is positive as an `int`, or it is not
added as its id is in use. -/
def Machine.PeriodAdvances (m : Machine κ) : Op κ → Prop
  | .addTimer _ timeoutMs _ callTimes _ =>
    (m.heap.pending (TimerIdAllocator.getId m.heap.timerIdAllocator)).isSome ∨
      0 < callTimes ∨ 0 < toInt (max 0 timeoutMs)
  | _ => True

theorem Machine.step_carried (hinv : Inv m.heap none) (hadmits : m.Admits op)
    (hcarried : EveryTimer (fun t => t.timestamp.Carried) m.heap)
    (hs : Machine.step m op = some m') : EveryTimer (fun t => t.timestamp.Carried) m'.heap := by
  have heffect := Machine.step_effect hinv hadmits.1 hs
  generalize hfires : m.fires op = fires at heffect
  generalize hpend : m'.heap.pending = pending at heffect
  cases heffect with
  | refused _ => exact fun id t ht => hcarried id t (hpend ▸ ht)
  | @added now timeoutMs _ _ _ t ht _ =>
    refine hcarried.update ?_ hpend
    rintro u ⟨⟩
    subst ht
    have hnow : now.Carried := hadmits.2
    exact hnow.addAssign (max 0 timeoutMs)
  | removed => exact hcarried.update (fun u hu => by cases hu) hpend
  | idle _ => exact fun id t ht => hcarried id t (hpend ▸ ht)
  | @fired _ now t _ htop _ =>
    have ht : t.data.timestamp.Carried := hcarried t.id t.data (hinv.slot_pending htop)
    refine hcarried.update (fun u hu => ?_) hpend
    split at hu
    · cases hu
    · cases hu
      exact ht.addAssign _

/-- **One step** adds no timer that does not advance exactly when it is no such call. -/
theorem Machine.step_advances (hinv : Inv m.heap none) (hen : Machine.Enabled m op)
    (hadv : EveryTimer Advances m.heap) (hs : Machine.step m op = some m') :
    EveryTimer Advances m'.heap ↔ m.PeriodAdvances op := by
  have heffect := Machine.step_effect hinv hen hs
  generalize hfires : m.fires op = fires at heffect
  generalize hpend : m'.heap.pending = pending at heffect
  cases heffect with
  | refused hused => exact ⟨fun _ => .inl hused, fun _ id t ht => hadv id t (hpend ▸ ht)⟩
  | @added now timeoutMs timerCb callTimes addr t ht hfree =>
    subst ht
    constructor
    · intro hadv'
      have hnew := hadv' _ _ (by rw [hpend, Function.update_self])
      exact .inr hnew
    · intro hperiod
      obtain hused | hnew := hperiod
      · rw [Option.isSome_iff_ne_none] at hused
        exact absurd hfree hused
      · refine hadv.update ?_ hpend
        rintro u ⟨⟩
        exact hnew
  | removed => exact ⟨fun _ => trivial, fun _ => hadv.update (fun u hu => by cases hu) hpend⟩
  | idle hop =>
    have hquiet : m.PeriodAdvances op := by
      obtain rfl | ⟨now, rfl⟩ := hop <;> exact trivial
    exact ⟨fun _ => hquiet, fun _ id t ht => hadv id t (hpend ▸ ht)⟩
  | @fired _ now t hop htop _ =>
    have hquiet : m.PeriodAdvances op := by
      obtain rfl | rfl := hop <;> exact trivial
    have ht : t.data.Advances := hadv t.id t.data (hinv.slot_pending htop)
    refine ⟨fun _ => hquiet, fun _ => hadv.update (fun u hu => ?_) hpend⟩
    split at hu
    · cases hu
    · rename_i hone
      cases hu
      exact ht.rearm hone

theorem init_everyTimer (P : Timer κ → Prop) : EveryTimer P init := fun _ _ hp => by cases hp

/-- **`checkTimeout` terminates** in every state of a run whose timers all have a limit of calls or
a positive period; and where removals keep the heap in order, only in such a run. -/
theorem checkTimeout_terminates_iff (ops : List (Op κ))
    (hops : Runs.EachStep Machine.step Machine.Admits Machine.init ops) :
    (Runs.EachStep Machine.step Machine.PeriodAdvances Machine.init ops →
      Runs.Along Machine.step (fun m => ∀ now, m.heap.Returns now) Machine.init ops) ∧
    (Runs.EachStep Machine.step Machine.RemovalFits Machine.init ops →
      (Runs.Along Machine.step (fun m => ∀ now, m.heap.Returns now) Machine.init ops ↔
        Runs.EachStep Machine.step Machine.PeriodAdvances Machine.init ops)) := by
  constructor
  · intro hperiods
    have hrun : Runs.Along Machine.step (fun m : Machine κ => Inv m.heap none ∧
        EveryTimer (fun t => t.timestamp.Carried) m.heap ∧ EveryTimer Advances m.heap)
        Machine.init ops := by
      refine Runs.along_of_eachStep ?_ ⟨init_inv, init_everyTimer _, init_everyTimer _⟩
        (hops.and hperiods)
      rintro m op m' ⟨hinv, hcarried, hadv⟩ ⟨hadmits, hperiod⟩ hs
      exact ⟨Machine.inv_of_step hinv hadmits.1 hs, Machine.step_carried hinv hadmits hcarried hs,
        (Machine.step_advances hinv hadmits.1 hadv hs).2 hperiod⟩
    exact hrun.mono fun m hm => returns_of_advances hm.1
      fun id t hp => ⟨hm.2.2 id t hp, hm.2.1 id t hp⟩
  · intro hfits
    refine Runs.along_iff_eachStep (I := fun m : Machine κ => Inv m.heap none ∧
        IsHeap m.heap.keyAt m.heap.last ∧ EveryTimer (fun t => t.timestamp.Carried) m.heap)
      ?_ ?_ ⟨init_inv, init_isHeap, init_everyTimer _⟩ ?_ (hops.and hfits)
    · rintro m op ⟨hinv, hheap, hcarried⟩ ⟨hadmits, hfit⟩
      obtain ⟨m', hs, hinv'⟩ := Machine.step_inv hinv hadmits.1
      exact ⟨m', hs, hinv', (Machine.step_order hinv hheap hadmits.1 hs).2 hfit,
        Machine.step_carried hinv hadmits hcarried hs⟩
    · rintro m op m' ⟨hinv, hheap, hcarried⟩ hret ⟨hadmits, hfit⟩ hs
      have hinv' := Machine.inv_of_step hinv hadmits.1 hs
      have hheap' := (Machine.step_order hinv hheap hadmits.1 hs).2 hfit
      rw [returns_iff_advances hinv' hheap' (Machine.step_carried hinv hadmits hcarried hs)]
      exact Machine.step_advances hinv hadmits.1
        ((returns_iff_advances hinv hheap hcarried).1 hret) hs
    · exact (returns_iff_advances init_inv init_isHeap (init_everyTimer _)).2 (init_everyTimer _)

end Runs

/-- One timer without a limit of calls. -/
def repeatingOps (timeoutMs : Int) : List (Op Unit) := [.addTimer ⟨0, 0⟩ timeoutMs () (-1) 1]

theorem second_terminates :
    Runs.Along Machine.step (fun m => ∀ now, m.heap.Returns now) Machine.init
      (repeatingOps 1000) :=
  (checkTimeout_terminates_iff (repeatingOps 1000) (by decide)).1
    ⟨.inr (.inr (by decide)), fun _ _ => trivial⟩

/-- A period of zero: `checkTimeout` fires the timer for ever. -/
theorem zero_period_fires_forever :
    Runs.EachStep Machine.step Machine.Admits Machine.init (repeatingOps 0) ∧
      ¬ Runs.Along Machine.step (fun m => ∀ now, m.heap.Returns now) Machine.init
        (repeatingOps 0) := by
  have hend : ((Runs.run Machine.step Machine.init (repeatingOps 0)).map fun m =>
      (m.heap.last, m.heap.pending 1)) = some (1, some ⟨1, ⟨0, 0⟩, 0, (), -1, -1⟩) := by decide
  have hops : Runs.EachStep Machine.step Machine.Enabled Machine.init (repeatingOps 0) := by decide
  refine ⟨by decide, fun halong => ?_⟩
  obtain ⟨m, hm, hstate⟩ := Option.map_eq_some_iff.1 hend
  obtain ⟨hlast, hpend⟩ := Prod.mk.inj hstate
  have hinv := (Machine.run_inv init_inv hops).last hm
  have hheap : IsHeap m.heap.keyAt m.heap.last := fun i h2 hl => by omega
  obtain ⟨fuel, h', fired, hrun⟩ := halong.last hm ⟨0, 0⟩
  rw [checkTimeout_stuck ⟨0, 0⟩ 1 fuel m.heap hinv hheap
    ⟨_, hpend, by decide, by decide, by decide⟩] at hrun
  cases hrun

end TimerHeap

end Brickred
