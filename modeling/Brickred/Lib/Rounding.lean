import Mathlib.Data.Int.Log
import Mathlib.Data.Rat.Floor
import Mathlib.Tactic.Linarith
import Mathlib.Tactic.Ring

/-!
# Rounding to so many binary digits

What a floating-point operation makes of its exact result, which is not negative: the nearest
number with so many digits, and of two the one with an even last digit.  Exponents have no limit.

* `toEven` — the nearest whole number (`toEven_nonneg`, `abs_toEven_sub_le`).
* `nearest` — the nearest number with so many digits (`nearest_nonneg`).
* `nearest_le` — the relative error is at most half of the last digit.
-/

set_option autoImplicit false

namespace Rounding

/-- The nearest whole number, and the even one in the middle between two. -/
def toEven (q : ℚ) : ℤ :=
  if Int.fract q < 1 / 2 ∨ Int.fract q = 1 / 2 ∧ ⌊q⌋ % 2 = 0 then ⌊q⌋ else ⌊q⌋ + 1

theorem toEven_nonneg {q : ℚ} (h : 0 ≤ q) : 0 ≤ toEven q := by
  have hfloor := Int.floor_nonneg.2 h
  unfold toEven
  split <;> omega

theorem abs_toEven_sub_le (q : ℚ) : |(toEven q : ℚ) - q| ≤ 1 / 2 := by
  have hsum := Int.floor_add_fract q
  have hlow := Int.fract_nonneg q
  have hhigh := Int.fract_lt_one q
  unfold toEven
  split
  · rename_i hdown
    have hhalf : Int.fract q ≤ 1 / 2 := hdown.elim le_of_lt fun h => h.1.le
    rw [abs_le]
    constructor <;> linarith
  · rename_i hup
    rw [not_or, not_lt] at hup
    rw [abs_le]
    push_cast
    constructor <;> linarith [hup.1]

/-- The exponent of the last of so many digits. -/
def lastDigit (digits : ℕ) (q : ℚ) : ℤ := Int.log 2 q + 1 - digits

/-- The nearest number with so many binary digits. -/
def nearest (digits : ℕ) (q : ℚ) : ℚ :=
  toEven (q / 2 ^ lastDigit digits q) * 2 ^ lastDigit digits q

variable {digits : ℕ} {q : ℚ}

theorem nearest_nonneg (h : 0 ≤ q) : 0 ≤ nearest digits q := by
  have hpos : (0 : ℚ) < 2 ^ lastDigit digits q := zpow_pos (by decide) _
  exact mul_nonneg (Int.cast_nonneg (toEven_nonneg (div_nonneg h hpos.le))) hpos.le

/-- The last digit of a number, as a part of it. -/
theorem two_zpow_lastDigit_le (h : 0 < q) : (2 : ℚ) ^ lastDigit digits q ≤ q * 2 / 2 ^ digits := by
  have hlog := Int.zpow_log_le_self (R := ℚ) one_lt_two h
  rw [lastDigit, zpow_sub₀ two_ne_zero, zpow_add_one₀ two_ne_zero, zpow_natCast]
  exact div_le_div_of_nonneg_right (mul_le_mul_of_nonneg_right hlog zero_le_two) (by positivity)

/-- **The error** is at most half of the last digit. -/
theorem nearest_le (hq : 0 ≤ q) : nearest digits q ≤ q + q / 2 ^ digits := by
  obtain rfl | h := hq.eq_or_lt
  · simp [nearest, toEven]
  have hpos : (0 : ℚ) < 2 ^ lastDigit digits q := zpow_pos (by decide) _
  have hdigit := @two_zpow_lastDigit_le digits q h
  have hround := (abs_le.1 (abs_toEven_sub_le (q / 2 ^ lastDigit digits q))).2
  calc nearest digits q
      ≤ (q / 2 ^ lastDigit digits q + 1 / 2) * 2 ^ lastDigit digits q :=
        mul_le_mul_of_nonneg_right (by linarith) hpos.le
    _ = q + 2 ^ lastDigit digits q / 2 := by
        rw [add_mul, div_mul_cancel₀ q hpos.ne']
        ring
    _ ≤ q + q * 2 / 2 ^ digits / 2 := by linarith
    _ = q + q / 2 ^ digits := by ring

end Rounding
