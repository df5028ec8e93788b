import Brickred.TimerHeap.Order

/-!
# What a step does to the timers

* `Machine.fires` — the timer a step fires, and the time it is checked against.
* `StepEffect` — the cases of a step, each with the timers it leaves.
* `Machine.step_effect` — every step is one of them.
-/

set_option autoImplicit false

namespace Brickred

namespace TimerHeap

open BinaryHeap

variable {κ : Type} {h : TimerHeap κ} {m m' : Machine κ} {op : Op κ}

/-- The timer that the next turn of a `checkTimeout(now)` fires, as it is when it falls due. -/
def firing (h : TimerHeap κ) (now : Timestamp) : Option (Timestamp × Timer κ) :=
  match h.checkTimeoutTurn now with
  | some (.fired _ t) => some (now, t)
  | _ => none

/-- The timer a step fires, and the `now` of the `checkTimeout` call. -/
def Machine.fires (m : Machine κ) : Op κ → Option (Timestamp × Timer κ)
  | .checkTimeout now => m.heap.firing now
  | .callbackReturn => m.running.head?.bind m.heap.firing
  | _ => none

/-- The cases of a step, with what it fires and the timers it leaves. -/
inductive StepEffect (m : Machine κ) : Op κ → Option (Timestamp × Timer κ) →
    (TimerId → Option (Timer κ)) → Prop where
  /-- the next id is in use -/
  | refused {now : Timestamp} {timeoutMs : Int} {timerCb : κ} {callTimes : Int} {addr : Addr}
      (hused : (m.heap.pending (TimerIdAllocator.getId m.heap.timerIdAllocator)).isSome) :
      StepEffect m (.addTimer now timeoutMs timerCb callTimes addr) none m.heap.pending
  | added {now : Timestamp} {timeoutMs : Int} {timerCb : κ} {callTimes : Int} {addr : Addr}
      {t : Timer κ}
      (ht : t = m.heap.newTimer now timeoutMs timerCb callTimes)
      (hfree : m.heap.pending t.id = none) :
      StepEffect m (.addTimer now timeoutMs timerCb callTimes addr) none
        (Function.update m.heap.pending t.id (some t.data))
  | removed {timerId : TimerId} :
      StepEffect m (.removeTimer timerId) none (Function.update m.heap.pending timerId none)
  | idle {op : Op κ} (hop : op = .callbackReturn ∨ ∃ now, op = .checkTimeout now) :
      StepEffect m op none m.heap.pending
  | fired {op : Op κ} {now : Timestamp} {t : Timer κ}
      (hop : op = .callbackReturn ∨ op = .checkTimeout now)
      (htop : m.heap.slot 1 = some t) (hdue : ¬ now.millisecondLess t.timestamp = true) :
      StepEffect m op (some (now, t)) (Function.update m.heap.pending t.id
        (if t.callTimes = 1 then none else some t.rearm.data))

/-- A turn of `checkTimeout`, as a step. -/
theorem turn_effect {now : Timestamp} {outer : List Timestamp} (hinv : Inv m.heap none)
    (hop : op = .callbackReturn ∨ op = .checkTimeout now)
    (ht : Machine.turn m.heap now outer = some m') :
    StepEffect m op (m.heap.firing now) m'.heap.pending := by
  obtain ⟨r, hr, hspec⟩ := checkTimeoutTurn_spec now hinv
  have hidle : op = .callbackReturn ∨ ∃ now, op = .checkTimeout now :=
    hop.imp_right fun h => ⟨now, h⟩
  unfold Machine.turn at ht
  simp only [hr, bind, Option.bind_some] at ht
  unfold firing
  rw [hr]
  cases hspec with
  | empty =>
    cases ht
    exact .idle hidle
  | early =>
    cases ht
    exact .idle hidle
  | @fired t h' htop hdue _ _ hpend =>
    cases ht
    show StepEffect m op (some (now, t)) h'.pending
    rw [hpend]
    exact .fired hop htop hdue

/-- **Every step** is one of the cases. -/
theorem Machine.step_effect (hinv : Inv m.heap none) (hen : Machine.Enabled m op)
    (hs : Machine.step m op = some m') : StepEffect m op (m.fires op) m'.heap.pending := by
  cases op with
  | addTimer now timeoutMs timerCb callTimes addr =>
    obtain ⟨h', r, hadd, _, _, hpend⟩ := addTimer_spec now timeoutMs callTimes timerCb hinv hen
    rw [Machine.step, hadd] at hs
    cases hs
    show StepEffect m _ none h'.pending
    rw [hpend]
    dsimp only
    by_cases hused : (m.heap.pending
        (m.heap.newTimer now timeoutMs timerCb callTimes).id).isSome = true
    · rw [if_pos hused]
      exact .refused hused
    · rw [if_neg hused]
      exact .added rfl (Option.not_isSome_iff_eq_none.1 hused)
  | removeTimer timerId =>
    obtain ⟨h', hrem, _, _, hpend⟩ := removeTimer_spec timerId hinv
    rw [Machine.step, hrem] at hs
    cases hs
    show StepEffect m _ none h'.pending
    rw [hpend]
    exact .removed
  | checkTimeout now => exact turn_effect hinv (.inr rfl) hs
  | callbackReturn =>
    rw [Machine.step] at hs
    unfold Machine.fires
    cases hrunning : m.running with
    | nil =>
      rw [hrunning] at hs
      cases hs
      exact .idle (.inl rfl)
    | cons now outer =>
      rw [hrunning] at hs
      exact turn_effect hinv (.inl rfl) hs

end TimerHeap

end Brickred
