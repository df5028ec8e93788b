import Brickred.TimerHeap.Order
import Brickred.Timestamp.Arithmetic

/-!
# How long to sleep

The owner of the heap sleeps for `getNextTimeoutMillisecond(now)` and then calls `checkTimeout`.
The one looks at nanoseconds first and subtracts truncated milliseconds, the other looks at
seconds first and compares truncated milliseconds.

* `untilMs` — the milliseconds to the deadline of the timer on top, which are returned in 64 bits.
* `checkTimeoutTurn_top` — the due test on the timer on top decides the first turn.
* `sleepAgrees_iff` — the count that is returned is the least after which the timer on top fires,
  exactly when it has 63 bits.
-/

set_option autoImplicit false

namespace Brickred

namespace Timestamp

variable {now deadline : Timestamp}

/-- The milliseconds from `now` to the deadline of the timer on top. -/
def untilMs (now deadline : Timestamp) : Int :=
  if deadline.less now then 0 else deadline.totalMs - now.totalMs

theorem distanceMillisecond_of_le (h : now ≤ deadline) :
    now.distanceMillisecond deadline = toInt64 (deadline.totalMs - now.totalMs) := by
  unfold distanceMillisecond totalMs
  dsimp only
  congr 1
  by_cases hless : now.less deadline = true
  · rw [if_pos hless, if_pos hless]
    omega
  · obtain rfl : now = deadline := le_antisymm h (not_less_iff.1 hless)
    omega

theorem Normalised.untilMs_eq (hnow : now.Normalised) (hdeadline : deadline.Normalised) :
    now.untilMs deadline = max 0 (deadline.totalMs - now.totalMs) := by
  unfold untilMs
  by_cases hless : deadline.less now = true
  · rw [if_pos hless]
    have hle := totalMs_mono hdeadline hnow (less_iff.1 hless).le
    omega
  · rw [if_neg hless]
    have hle := totalMs_mono hnow hdeadline (not_less_iff.1 hless)
    omega

/-- The due test after a count of milliseconds. -/
theorem millisecondLess_add (hnow : now.Normalised) (hdeadline : deadline.Normalised) {e : Int}
    (he : 0 ≤ e) :
    (now.add e).millisecondLess deadline = true ↔ now.totalMs + e < deadline.totalMs := by
  have hsum : (now.addAssign e).Normalised := addAssign_normalised hnow he
  show (now.addAssign e).millisecondLess deadline = true ↔ _
  rw [millisecondLess_iff hdeadline, hsum.clockMs_eq, addAssign_totalMs hnow he]

end Timestamp

namespace TimerHeap

variable {κ : Type} {h : TimerHeap κ} {now : Timestamp} {top : Timer κ} {a : Addr}

/-! ## The timer on top -/

/-- There is no timer, or one on top. -/
theorem Inv.top_cases (hinv : Inv h none) :
    (h.minHeapTop = none ∧ ∀ id, h.timers id = none) ∨
      ∃ a top, h.minHeapTop = some a ∧ h.mem a = some top ∧ h.slot 1 = some top := by
  have hlen := hinv.length_eq
  unfold minHeapTop
  by_cases hempty : h.timerMinHeap.length ≤ 1
  · rw [if_pos hempty]
    refine .inl ⟨rfl, fun id => ?_⟩
    by_contra hne
    obtain ⟨a, ha⟩ := Option.ne_none_iff_exists'.1 hne
    obtain ⟨t, hm, _⟩ := hinv.mapped id a ha
    obtain ⟨i, _, h1, hl, _⟩ := hinv.pending_slot (pending_eq ha hm)
    omega
  · rw [if_neg hempty]
    obtain ⟨a, top, hptr, hm, _⟩ := hinv.slotOk 1 (by omega) (by omega)
    exact .inr ⟨a, top, hptr, hm, slot_eq hptr hm⟩

theorem minHeapTop_slot (htop : h.minHeapTop = some a) (hm : h.mem a = some top) :
    h.slot 1 = some top := by
  unfold minHeapTop at htop
  split at htop
  · cases htop
  · exact slot_eq htop hm

theorem getNextTimeoutMillisecond_top (htop : h.minHeapTop = some a) (hm : h.mem a = some top)
    (now : Timestamp) :
    h.getNextTimeoutMillisecond now = some (toInt64 (now.untilMs top.timestamp)) := by
  unfold getNextTimeoutMillisecond Timestamp.untilMs
  rw [htop]
  simp only [hm, bind, Option.bind_some]
  by_cases hless : top.timestamp.less now = true
  · rw [if_pos hless, if_pos hless]
    rfl
  · rw [if_neg hless, if_neg hless,
      Timestamp.distanceMillisecond_of_le (Timestamp.not_less_iff.1 hless)]

theorem getNextTimeoutMillisecond_empty (htop : h.minHeapTop = none) (now : Timestamp) :
    h.getNextTimeoutMillisecond now = some (-1) := by
  unfold getNextTimeoutMillisecond
  rw [htop]

/-- **The first turn** of `checkTimeout` fires the timer on top, or nothing when it is not due. -/
theorem checkTimeoutTurn_top (hinv : Inv h none) (hs : h.slot 1 = some top) (now : Timestamp) :
    (now.millisecondLess top.timestamp = true → h.checkTimeoutTurn now = some .finished) ∧
    (¬ now.millisecondLess top.timestamp = true →
      ∃ h', h.checkTimeoutTurn now = some (.fired h' top)) := by
  obtain ⟨r, hr, hspec⟩ := checkTimeoutTurn_spec now hinv
  rw [hr]
  cases hspec with
  | empty hlast =>
    have := (hinv.slot_range hs).2
    omega
  | early htop hnot =>
    rw [hs] at htop
    cases htop
    exact ⟨fun _ => rfl, fun hdue => absurd hnot hdue⟩
  | @fired t h' htop hdue _ _ _ =>
    rw [hs] at htop
    cases htop
    exact ⟨fun hnot => absurd hnot hdue, fun _ => ⟨h', rfl⟩⟩

theorem checkTimeout_finished (ht : h.checkTimeoutTurn now = some .finished) {fuel : Nat}
    (hfuel : 0 < fuel) : checkTimeout fuel h now = some (h, []) := by
  obtain ⟨k, rfl⟩ : ∃ k, fuel = k + 1 := ⟨fuel - 1, by omega⟩
  rw [checkTimeout, ht]

theorem checkTimeout_fired_head {h' h'' : TimerHeap κ} {t : Timer κ} {fired : List (Timer κ)}
    {fuel : Nat} (ht : h.checkTimeoutTurn now = some (.fired h' t))
    (hr : checkTimeout fuel h now = some (h'', fired)) : fired.head? = some t := by
  cases fuel with
  | zero => cases hr
  | succ fuel =>
    rw [checkTimeout, ht] at hr
    dsimp only at hr
    cases hrest : checkTimeout fuel h' now with
    | none => rw [hrest] at hr; cases hr
    | some r =>
      rw [hrest] at hr
      cases hr
      rfl

/-- The sleep time agrees with the due test: `-1` is for an empty heap, and any other count is the
least after which the timer on top fires. -/
def SleepAgrees (h : TimerHeap κ) (now : Timestamp) : Prop :=
  (h.getNextTimeoutMillisecond now = some (-1) ↔ ∀ id, h.timers id = none) ∧
  ∀ a top, h.minHeapTop = some a → h.mem a = some top → ∃ d,
    h.getNextTimeoutMillisecond now = some d ∧ 0 ≤ d ∧
    (∃ h', h.checkTimeoutTurn (now.add d) = some (.fired h' top)) ∧
    (∀ fuel h' fired, checkTimeout fuel h (now.add d) = some (h', fired) →
      fired.head? = some top) ∧
    ∀ e, 0 ≤ e → e < d → ∀ fuel, 0 < fuel →
      checkTimeout fuel h (now.add e) = some (h, [])

/-- The timer on top fires no sooner than at its deadline. -/
theorem untilMs_le_of_fired {h' : TimerHeap κ} {d : Int} (hinv : Inv h none)
    (hs : h.slot 1 = some top) (hnow : now.Normalised) (hdeadline : top.timestamp.Normalised)
    (hd : 0 ≤ d) (hfired : h.checkTimeoutTurn (now.add d) = some (.fired h' top)) :
    now.untilMs top.timestamp ≤ d := by
  have hdue : ¬ (now.add d).millisecondLess top.timestamp = true := by
    intro hearly
    rw [(checkTimeoutTurn_top hinv hs (now.add d)).1 hearly] at hfired
    cases hfired
  rw [Timestamp.millisecondLess_add hnow hdeadline hd] at hdue
  rw [hnow.untilMs_eq hdeadline]
  omega

/-- The count is right when it has 63 bits. -/
theorem sleepAgrees_top (hinv : Inv h none) (htop : h.minHeapTop = some a)
    (hm : h.mem a = some top) (hnow : now.Normalised) (hdeadline : top.timestamp.Normalised)
    (hwide : now.untilMs top.timestamp < 2 ^ 63) : SleepAgrees h now := by
  have hs := minHeapTop_slot htop hm
  have huntil := hnow.untilMs_eq hdeadline
  have hcount : h.getNextTimeoutMillisecond now = some (now.untilMs top.timestamp) := by
    rw [getNextTimeoutMillisecond_top htop hm, toInt64_eq (by omega) hwide]
  constructor
  · rw [hcount, Option.some_inj]
    obtain ⟨_, _, _, hid⟩ := hinv.slot_id hs
    refine ⟨fun heq => by omega, fun hnone => ?_⟩
    rw [hnone] at hid
    cases hid
  · intro a' top' htop' hm'
    obtain rfl : a = a' := Option.some.inj (htop.symm.trans htop')
    obtain rfl : top = top' := Option.some.inj (hm.symm.trans hm')
    obtain ⟨h', hfired⟩ := (checkTimeoutTurn_top hinv hs (now.add (now.untilMs top.timestamp))).2
      (by rw [Timestamp.millisecondLess_add hnow hdeadline (by omega)]; omega)
    refine ⟨_, hcount, by omega, ⟨h', hfired⟩,
      fun fuel h'' fired hr => checkTimeout_fired_head hfired hr, fun e he hlt fuel hfuel => ?_⟩
    refine checkTimeout_finished ((checkTimeoutTurn_top hinv hs (now.add e)).1 ?_) hfuel
    rw [Timestamp.millisecondLess_add hnow hdeadline he]
    omega

/-- **Sleep time and due test agree**, whatever the parts below a millisecond are, exactly when
there is no timer or the milliseconds to the deadline on top have 63 bits. -/
theorem sleepAgrees_iff (h : TimerHeap κ) (now : Timestamp) (hbij : Bijective h)
    (hnow : now.Normalised)
    (htops : ∀ a top, h.minHeapTop = some a → h.mem a = some top → top.timestamp.Normalised) :
    SleepAgrees h now ↔ ∀ top, h.slot 1 = some top → now.untilMs top.timestamp < 2 ^ 63 := by
  have hinv := bijective_iff_inv.1 hbij
  obtain ⟨htop, hnone⟩ | ⟨a, top, htop, hm, hs⟩ := hinv.top_cases
  · -- without timers there is nothing to count
    refine ⟨fun _ top hs => ?_, fun _ => ⟨⟨fun _ => hnone, fun _ =>
      getNextTimeoutMillisecond_empty htop now⟩, fun a top htop' => ?_⟩⟩
    · obtain ⟨_, _, _, hid⟩ := hinv.slot_id hs
      rw [hnone] at hid
      cases hid
    · rw [htop] at htop'
      cases htop'
  · have hdeadline := htops a top htop hm
    constructor
    · rintro ⟨_, hright⟩ top' hs'
      rw [hs] at hs'
      cases hs'
      obtain ⟨d, hd, hnonneg, ⟨h', hfired⟩, _⟩ := hright a top htop hm
      rw [getNextTimeoutMillisecond_top htop hm] at hd
      -- a converted count that is late enough has lost nothing
      have hle := untilMs_le_of_fired hinv hs hnow hdeadline hnonneg hfired
      have hlt := toInt64_lt (now.untilMs top.timestamp)
      have heq := Option.some.inj hd
      omega
    · intro hwide
      exact sleepAgrees_top hinv htop hm hnow hdeadline (hwide top hs)

/-- A heap with one timer. -/
def loneTimer (timestamp : Timestamp) (timeout : Int) : TimerHeap Unit where
  timerIdAllocator := 1
  mem := Function.update (fun _ => none) 1 (some ⟨1, timestamp, timeout, (), 1, 1⟩)
  timers := Function.update (fun _ => none) 1 (some 1)
  timerMinHeap := [none, some 1]

theorem loneTimer_bijective (timestamp : Timestamp) (timeout : Int) :
    Bijective (loneTimer timestamp timeout) := by
  refine bijective_iff_inv.2 ⟨rfl, fun i h1 hl => ?_, fun id a ha => ?_, by simp⟩
  · have hl' : i ≤ 1 := hl
    obtain rfl : i = 1 := by omega
    exact ⟨1, _, rfl, rfl, rfl, rfl⟩
  · simp only [loneTimer, Function.update_apply] at ha
    split at ha
    · rename_i hid
      cases ha
      exact ⟨_, rfl, hid.symm, .inr (by simp [loneTimer])⟩
    · cases ha

theorem loneTimer_top {timestamp : Timestamp} {timeout : Int} {top : Timer Unit}
    (htop : (loneTimer timestamp timeout).minHeapTop = some a)
    (hm : (loneTimer timestamp timeout).mem a = some top) : top.timestamp = timestamp := by
  cases htop
  cases hm
  rfl

/-- What `addTimer` makes of an empty heap. -/
theorem addTimer_init (now : Timestamp) (timeoutMs : Int) :
    (init : TimerHeap Unit).addTimer now timeoutMs () 1 1 =
      some (loneTimer (now.add (max 0 timeoutMs)) (max 0 timeoutMs), 1) := by
  have hid : TimerIdAllocator.getId 0 = 1 := by decide
  simp only [addTimer, init, hid, minHeapInsert, setHeapPos, updateTimer, insertLoop,
    Function.update_self, Function.update_idem, Option.map_some, Option.isSome_none, bind,
    Option.bind_some, List.length_cons, List.length_nil, List.cons_append, List.nil_append]
  rfl

/-- A timer 0.3 ms ahead, beyond the next full second: the owner sleeps for a millisecond; after
none at all the timer would not fire. -/
theorem dueSoon_sleep :
    (loneTimer ⟨1, 200000⟩ 5).getNextTimeoutMillisecond ⟨0, 999900000⟩ = some 1 ∧
    checkTimeout 1 (loneTimer ⟨1, 200000⟩ 5) ((Timestamp.mk 0 999900000).add 0) =
      some (loneTimer ⟨1, 200000⟩ 5, []) := by
  have hwide (top : Timer Unit) (hs : (loneTimer ⟨1, 200000⟩ 5).slot 1 = some top) :
      (Timestamp.mk 0 999900000).untilMs top.timestamp < 2 ^ 63 := by
    cases hs
    decide
  obtain ⟨d, hd, _, _, _, hearly⟩ :=
    ((sleepAgrees_iff (loneTimer ⟨1, 200000⟩ 5) ⟨0, 999900000⟩ (loneTimer_bijective _ _) (by decide)
      fun a top htop hm => loneTimer_top htop hm ▸ by decide).2 hwide).2 1 _ rfl rfl
  have hone : (loneTimer ⟨1, 200000⟩ 5).getNextTimeoutMillisecond ⟨0, 999900000⟩ = some 1 := by
    decide
  obtain rfl : d = 1 := Option.some.inj (hd.symm.trans hone)
  exact ⟨hone, hearly 0 (by decide) (by decide) 1 (by decide)⟩

/-- The longest timeout, set at 1 s.  When the clock then stands at 0 s, the count is negative. -/
theorem far_deadline_miscounted :
    (init : TimerHeap Unit).addTimer ⟨1, 0⟩ (2 ^ 63 - 1) () 1 1 =
      some (loneTimer ⟨9223372036854776, 807000000⟩ (2 ^ 63 - 1), 1) ∧
    (loneTimer ⟨9223372036854776, 807000000⟩ (2 ^ 63 - 1)).getNextTimeoutMillisecond ⟨0, 0⟩ =
      some (-9223372036854774809) ∧
    ¬ ∀ (h : TimerHeap Unit) (now : Timestamp), Bijective h → now.Normalised →
      (∀ a top, h.minHeapTop = some a → h.mem a = some top → top.timestamp.Normalised) →
      SleepAgrees h now := by
  have hcount : (loneTimer ⟨9223372036854776, 807000000⟩ (2 ^ 63 - 1)).getNextTimeoutMillisecond
      ⟨0, 0⟩ = some (-9223372036854774809) := by decide
  refine ⟨?_, hcount, fun hall => ?_⟩
  · rw [addTimer_init]
    congr 1
  · obtain ⟨d, hd, hnonneg, _⟩ :=
      (hall (loneTimer ⟨9223372036854776, 807000000⟩ (2 ^ 63 - 1)) ⟨0, 0⟩ (loneTimer_bijective _ _)
        (by decide) fun a top htop hm => loneTimer_top htop hm ▸ by decide).2 1 _ rfl rfl
    obtain rfl := Option.some.inj (hd.symm.trans hcount)
    exact absurd hnonneg (by decide)

end TimerHeap

end Brickred
