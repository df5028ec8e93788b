import Mathlib.Data.Prod.Lex
import Mathlib.Tactic.Ring
import Brickred.MachineInt

/-!
# `Timestamp`

The wall-clock stamps of `timestamp.cc`: seconds and nanoseconds, `operator<` on nanoseconds,
`millisecondLess` on the truncated milliseconds, `operator+=` with a count of milliseconds.

`time_t` and `int64_t` are 64 bits wide.  The fields are plain integers: the second of a stamp is
taken to stay in the range of `time_t`, which ends 292 billion years from the epoch.  The
distance in milliseconds leaves 64 bits a thousand times earlier, within reach of the counts
`addTimer` takes, and is converted.

* `less_iff` — `operator<` is the lexicographic order, a linear order on all stamps.
* `addAssign_totalNs` — adding a count of milliseconds adds that many million nanoseconds.
* `addAssign_normalised` — a non-negative count keeps the stamp normalised.
* `lt_iff_totalNs`, `millisecondLess_iff` — the two comparisons on normalised stamps are those of
  total nanoseconds and of total milliseconds.
-/

set_option autoImplicit false

namespace Brickred

/-- `class Timestamp`. -/
structure Timestamp where
  second : Int
  nanosecond : Int
  deriving DecidableEq, Repr

namespace Timestamp

def getMilliSecond (t : Timestamp) : Int := t.nanosecond.tdiv 1000000

/-- `operator+=`.  The carry is taken once, and only upwards. -/
def addAssign (t : Timestamp) (millisecond : Int) : Timestamp :=
  let second := t.second + millisecond.tdiv 1000
  let nanosecond := t.nanosecond + millisecond.tmod 1000 * 1000000
  if nanosecond ≥ 1000000000 then ⟨second + 1, nanosecond - 1000000000⟩
  else ⟨second, nanosecond⟩

/-- `operator+`. -/
def add (t : Timestamp) (millisecond : Int) : Timestamp := t.addAssign millisecond

/-- `operator<`. -/
def less (t other : Timestamp) : Bool :=
  if t.second ≠ other.second then t.second < other.second
  else t.nanosecond < other.nanosecond

def millisecondLess (t other : Timestamp) : Bool :=
  if t.second ≠ other.second then t.second < other.second
  else t.getMilliSecond < other.getMilliSecond

/-- In `int64_t`: a distance of `2 ^ 63` milliseconds and more wraps around. -/
def distanceMillisecond (t other : Timestamp) : Int :=
  let bigger := if t.less other then other else t
  let smaller := if t.less other then t else other
  toInt64 ((bigger.second - smaller.second) * 1000 +
    (bigger.getMilliSecond - smaller.getMilliSecond))

/-! ## The order -/

/-- A stamp as a point of the lexicographic order. -/
def lexKey (t : Timestamp) : ℤ ×ₗ ℤ := toLex (t.second, t.nanosecond)

theorem lexKey_injective : Function.Injective lexKey := by
  rintro ⟨s, n⟩ ⟨s', n'⟩ h
  simpa [lexKey] using h

instance : LinearOrder Timestamp := LinearOrder.lift' lexKey lexKey_injective

theorem lt_def {t u : Timestamp} :
    t < u ↔ t.second < u.second ∨ t.second = u.second ∧ t.nanosecond < u.nanosecond :=
  Prod.Lex.toLex_lt_toLex

@[simp] theorem less_iff {t u : Timestamp} : t.less u = true ↔ t < u := by
  rw [lt_def]
  unfold less
  split <;> simp only [decide_eq_true_eq] <;> omega

theorem not_less_iff {t u : Timestamp} : ¬ t.less u = true ↔ u ≤ t := by
  rw [less_iff, not_lt]

/-! ## Normalised stamps -/

/-- What `clock_gettime` delivers: less than a second of nanoseconds. -/
structure Normalised (t : Timestamp) : Prop where
  nonneg : 0 ≤ t.nanosecond
  lt : t.nanosecond < 1000000000

instance (t : Timestamp) : Decidable t.Normalised :=
  decidable_of_iff (0 ≤ t.nanosecond ∧ t.nanosecond < 1000000000)
    ⟨fun h => ⟨h.1, h.2⟩, fun h => ⟨h.nonneg, h.lt⟩⟩

def totalNs (t : Timestamp) : Int := t.second * 1000000000 + t.nanosecond

/-- The truncated millisecond value. -/
def totalMs (t : Timestamp) : Int := t.second * 1000 + t.getMilliSecond

theorem Normalised.getMilliSecond_eq {t : Timestamp} (h : t.Normalised) :
    t.getMilliSecond = t.nanosecond / 1000000 := Int.tdiv_eq_ediv_of_nonneg h.nonneg

theorem Normalised.totalMs_eq {t : Timestamp} (h : t.Normalised) :
    t.totalMs = t.totalNs / 1000000 := by
  have := h.nonneg
  have := h.lt
  rw [totalMs, totalNs, h.getMilliSecond_eq]
  omega

theorem totalNs_injOn {t u : Timestamp} (ht : t.Normalised) (hu : u.Normalised)
    (h : t.totalNs = u.totalNs) : t = u := by
  obtain ⟨s, n⟩ := t
  obtain ⟨s', n'⟩ := u
  have h1 := ht.nonneg; have h2 := ht.lt; have h3 := hu.nonneg; have h4 := hu.lt
  simp only [totalNs] at h h1 h2 h3 h4
  simp only [mk.injEq]
  omega

theorem lt_iff_totalNs {t u : Timestamp} (ht : t.Normalised) (hu : u.Normalised) :
    t < u ↔ t.totalNs < u.totalNs := by
  have h1 := ht.nonneg; have h2 := ht.lt; have h3 := hu.nonneg; have h4 := hu.lt
  rw [lt_def, totalNs, totalNs]
  omega

theorem le_iff_totalNs {t u : Timestamp} (ht : t.Normalised) (hu : u.Normalised) :
    t ≤ u ↔ t.totalNs ≤ u.totalNs := by
  rw [← not_lt, lt_iff_totalNs hu ht, not_lt]

/-- The millisecond value of the left operand of `millisecondLess`, which compares the seconds
first: a nanosecond part outside of the second does not carry over. -/
def clockMs (t : Timestamp) : Int := t.second * 1000 + max (-1) (min 999 t.getMilliSecond)

theorem Normalised.clockMs_eq {t : Timestamp} (h : t.Normalised) : t.clockMs = t.totalMs := by
  have := h.nonneg
  have := h.lt
  rw [clockMs, totalMs, h.getMilliSecond_eq]
  omega

theorem millisecondLess_iff {t u : Timestamp} (hu : u.Normalised) :
    t.millisecondLess u = true ↔ t.clockMs < u.totalMs := by
  have h3 := hu.nonneg; have h4 := hu.lt
  unfold millisecondLess clockMs totalMs
  rw [hu.getMilliSecond_eq]
  split <;> simp only [decide_eq_true_eq] <;> omega

theorem totalMs_mono {t u : Timestamp} (ht : t.Normalised) (hu : u.Normalised) (h : t ≤ u) :
    t.totalMs ≤ u.totalMs := by
  rw [ht.totalMs_eq, hu.totalMs_eq]
  have := (le_iff_totalNs ht hu).1 h
  omega

/-! ## Adding milliseconds -/

section Add

variable {t : Timestamp} {m : Int}

theorem addAssign_normalised (ht : t.Normalised) (hm : 0 ≤ m) : (t.addAssign m).Normalised := by
  have h1 := ht.nonneg; have h2 := ht.lt
  have hd : m.tmod 1000 = m % 1000 := Int.tmod_eq_emod_of_nonneg hm
  unfold addAssign
  rw [hd]
  constructor <;> dsimp only <;> split <;> dsimp only <;> omega

/-- The total is right for every count, of either sign. -/
theorem addAssign_totalNs (t : Timestamp) (m : Int) :
    (t.addAssign m).totalNs = t.totalNs + m * 1000000 := by
  have hm := Int.mul_tdiv_add_tmod m 1000
  unfold addAssign
  dsimp only [totalNs]
  split <;> dsimp only <;> omega

theorem addAssign_addAssign {k : Int} (ht : t.Normalised) (hm : 0 ≤ m) (hk : 0 ≤ k) :
    (t.addAssign m).addAssign k = t.addAssign (m + k) := by
  have hmk : 0 ≤ m + k := by omega
  refine totalNs_injOn (addAssign_normalised (addAssign_normalised ht hm) hk)
    (addAssign_normalised ht hmk) ?_
  rw [addAssign_totalNs, addAssign_totalNs, addAssign_totalNs]
  ring

theorem addAssign_zero (ht : t.Normalised) : t.addAssign 0 = t := by
  refine totalNs_injOn (addAssign_normalised ht le_rfl) ht ?_
  rw [addAssign_totalNs]
  ring

theorem addAssign_totalMs (ht : t.Normalised) (hm : 0 ≤ m) :
    (t.addAssign m).totalMs = t.totalMs + m := by
  rw [(addAssign_normalised ht hm).totalMs_eq, ht.totalMs_eq, addAssign_totalNs]
  omega

/-- A later stamp for every positive period. -/
theorem lt_addAssign (ht : t.Normalised) (hm : 0 < m) : t < t.addAssign m := by
  rw [lt_iff_totalNs ht (addAssign_normalised ht hm.le), addAssign_totalNs]
  omega

end Add

end Timestamp

end Brickred
