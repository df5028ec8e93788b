import Brickred.IOService
import Brickred.TimerHeap.Sleep

/-!
# The timeout of `epoll_wait`

`loop` keeps the 64-bit count of `getNextTimeoutMillisecond` in an `int`.  A count of `2 ^ 31` and
more loses its upper half: it can become negative, and `epoll_wait` then waits without a limit, or
too small.

* `pollTimeout` — the timeout `loop` passes.
* `min_toInt_iff` — when the clamp makes up for what the conversion has lost.
* `pollTimeout_iff` — in every run of the timers, the timeout is right exactly when the count fits.
-/

set_option autoImplicit false

namespace Brickred

namespace IOService

variable {κ : Type} {h : TimerHeap κ} {now : Timestamp}

def MAX_EPOLL_TIMEOUT_MSEC : Int := 35 * 60 * 1000

/-- The timeout `loop` passes to `epoll_wait`. -/
def pollTimeout (timerHeap : TimerHeap κ) (now : Timestamp) : Option Int :=
  (timerHeap.getNextTimeoutMillisecond now).map fun timeout =>
    let timerTimeout := toInt timeout
    min timerTimeout MAX_EPOLL_TIMEOUT_MSEC

/-- What the timeout is for: `-1` only without timers, and otherwise the count, clamped. -/
def PollRight (timerHeap : TimerHeap κ) (now : Timestamp) : Prop :=
  ∃ timeout count, pollTimeout timerHeap now = some timeout ∧
    timerHeap.getNextTimeoutMillisecond now = some count ∧
    (timeout = -1 → ∀ id, timerHeap.timers id = none) ∧
    ((∃ id, timerHeap.timers id ≠ none) → timeout = min count MAX_EPOLL_TIMEOUT_MSEC ∧
      0 ≤ timeout ∧ timeout ≤ count ∧ timeout ≤ MAX_EPOLL_TIMEOUT_MSEC)

/-- The milliseconds to the deadline on top are not negative in 64 bits, and they are below `2 ^ 31`
or what the conversion to `int` leaves of them is beyond the clamp. -/
def CountFits (timerHeap : TimerHeap κ) (now : Timestamp) : Prop :=
  ∀ top, timerHeap.slot 1 = some top → 0 ≤ toInt64 (now.untilMs top.timestamp) ∧
    (toInt64 (now.untilMs top.timestamp) < 2 ^ 31 ∨
      MAX_EPOLL_TIMEOUT_MSEC ≤ toInt (now.untilMs top.timestamp))

/-- When the clamp makes up for the conversion. -/
theorem min_toInt_iff {count limit : Int} (hcount : 0 ≤ count) (hlimit : limit < 2 ^ 31) :
    min (toInt count) limit = min count limit ↔ count < 2 ^ 31 ∨ limit ≤ toInt count := by
  have hle := toInt_le hcount
  constructor
  · intro heq
    by_contra hnot
    rw [not_or, not_lt, not_le] at hnot
    rw [min_eq_left hnot.2.le, min_eq_right (by omega)] at heq
    omega
  · rintro (hlt | hbeyond)
    · rw [toInt_eq (by omega) hlt]
    · rw [min_eq_right hbeyond, min_eq_right (hbeyond.trans hle)]

/-- **One poll.** -/
theorem pollRight_iff (hbij : TimerHeap.Bijective h) (now : Timestamp) :
    PollRight h now ↔ CountFits h now := by
  have hinv := TimerHeap.bijective_iff_inv.1 hbij
  unfold PollRight CountFits pollTimeout
  obtain ⟨htop, hnone⟩ | ⟨a, top, htop, hm, hs⟩ := hinv.top_cases
  · -- without timers nothing is asked of the count
    rw [TimerHeap.getNextTimeoutMillisecond_empty htop]
    refine ⟨fun _ top hs => ?_, fun _ => ⟨-1, -1, by decide, rfl, fun _ => hnone, ?_⟩⟩
    · obtain ⟨_, _, _, hid⟩ := hinv.slot_id hs
      rw [hnone] at hid
      cases hid
    · rintro ⟨id, hid⟩
      exact absurd (hnone id) hid
  · obtain ⟨_, _, _, hid⟩ := hinv.slot_id hs
    have hsome : ∃ id, h.timers id ≠ none := ⟨top.id, by rw [hid]; exact Option.some_ne_none _⟩
    rw [TimerHeap.getNextTimeoutMillisecond_top htop hm]
    have hmax : MAX_EPOLL_TIMEOUT_MSEC < 2 ^ 31 := by decide
    have hmaxpos : 0 ≤ MAX_EPOLL_TIMEOUT_MSEC := by decide
    constructor
    · rintro ⟨timeout, count, htimeout, hcount, _, hright⟩ top' hs'
      rw [hs] at hs'
      cases hs'
      cases hcount
      cases htimeout
      obtain ⟨heq, hnonneg, hle, _⟩ := hright hsome
      have hpos := hnonneg.trans hle
      rw [← toInt_toInt64]
      exact ⟨hpos, (min_toInt_iff hpos hmax).1 heq⟩
    · intro hfits
      obtain ⟨hpos, hrange⟩ := hfits top hs
      rw [← toInt_toInt64] at hrange
      have heq := (min_toInt_iff hpos hmax).2 hrange
      have hnonneg : 0 ≤ min (toInt64 (now.untilMs top.timestamp)) MAX_EPOLL_TIMEOUT_MSEC :=
        le_min hpos hmaxpos
      refine ⟨min (toInt64 (now.untilMs top.timestamp)) MAX_EPOLL_TIMEOUT_MSEC, _,
        congrArg some heq, rfl, fun hneg => ?_,
        fun _ => ⟨rfl, hnonneg, min_le_left _ _, min_le_right _ _⟩⟩
      rw [hneg] at hnonneg
      exact absurd hnonneg (by decide)

/-- **The poll timeout**, in every state that `startTimer` (`addTimer` with the time of the call),
`stopTimer` and the loop itself, with callbacks that use the timers, lead to, and at every time. -/
theorem pollTimeout_iff (ops : List (TimerHeap.Op κ))
    (hops : Runs.EachStep TimerHeap.Machine.step TimerHeap.Machine.Enabled
      TimerHeap.Machine.init ops) :
    Runs.Along TimerHeap.Machine.step
      (fun m => ∀ now, PollRight m.heap now ↔ CountFits m.heap now)
      TimerHeap.Machine.init ops :=
  (TimerHeap.Machine.run_inv TimerHeap.init_inv hops).mono fun _ hinv now =>
    pollRight_iff (TimerHeap.bijective_iff_inv.2 hinv) now

/-- One timer. -/
def startOps (timeoutMs : Int) : List (TimerHeap.Op Unit) := [.addTimer ⟨0, 0⟩ timeoutMs () 1 1]

theorem hour_polled :
    Runs.Along TimerHeap.Machine.step
      (fun m => ∀ now, PollRight m.heap now ↔ CountFits m.heap now)
      TimerHeap.Machine.init (startOps 3600000) :=
  pollTimeout_iff (startOps 3600000) (by decide)

/-- A timer in 25 days: `epoll_wait` gets a negative timeout, and waits for events only. -/
theorem long_timer_overslept :
    Runs.EachStep TimerHeap.Machine.step TimerHeap.Machine.Enabled TimerHeap.Machine.init
      (startOps 2160000000) ∧
    ¬ Runs.Along TimerHeap.Machine.step (fun m => ∀ now, PollRight m.heap now)
      TimerHeap.Machine.init (startOps 2160000000) ∧
    ((Runs.run TimerHeap.Machine.step TimerHeap.Machine.init (startOps 2160000000)).map
      fun m => pollTimeout m.heap ⟨0, 0⟩) = some (some (-2134967296)) := by
  have hend : ((Runs.run TimerHeap.Machine.step TimerHeap.Machine.init
      (startOps 2160000000)).map fun m =>
        (pollTimeout m.heap ⟨0, 0⟩, m.heap.timers 1)) = some (some (-2134967296), some 1) := by
    decide
  refine ⟨by decide, fun halong => ?_, by decide⟩
  obtain ⟨m, hm, hpoll⟩ := Option.map_eq_some_iff.1 hend
  obtain ⟨htimeout, htimer⟩ := Prod.mk.inj hpoll
  obtain ⟨timeout, count, htimeout', _, _, hright⟩ := halong.last hm ⟨0, 0⟩
  rw [htimeout] at htimeout'
  cases htimeout'
  have hnonneg := (hright ⟨1, by rw [htimer]; exact Option.some_ne_none _⟩).2.1
  exact absurd hnonneg (by decide)

end IOService

end Brickred
