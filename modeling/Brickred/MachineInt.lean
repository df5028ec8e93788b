import Mathlib.Algebra.Group.Int.Defs
import Mathlib.Algebra.Group.Nat.Even

/-!
# The machine integers of the source

Values are mathematical integers; a conversion the compiler makes is written out where it can
change the value: `toInt` for an assignment to `int`, `toInt64` for `int64_t`, `toSize` for
arithmetic in `size_t`.  `int64_t` operands of `/` and `%` divide with `Int.tdiv` and
`Int.tmod`, which truncate towards zero as C++ does.
-/

set_option autoImplicit false

namespace Brickred

/-- Conversion to `int` (32 bits, two's complement). -/
def toInt (v : Int) : Int := v.bmod (2 ^ 32)

/-- Conversion to `int64_t`. -/
def toInt64 (v : Int) : Int := v.bmod (2 ^ 64)

/-- Conversion to `size_t` (64 bits, unsigned). -/
def toSize (v : Nat) : Nat := v % 2 ^ 64

theorem toInt_eq {v : Int} (hlo : -2 ^ 31 ≤ v) (hhi : v < 2 ^ 31) : toInt v = v := by
  unfold toInt Int.bmod
  dsimp only
  split <;> omega

theorem toInt64_eq {v : Int} (hlo : -2 ^ 63 ≤ v) (hhi : v < 2 ^ 63) : toInt64 v = v := by
  unfold toInt64 Int.bmod
  dsimp only
  split <;> omega

theorem toInt64_lt (v : Int) : toInt64 v < 2 ^ 63 := by
  unfold toInt64 Int.bmod
  dsimp only
  split <;> omega

/-- A count that is not negative is kept exactly when it has 63 bits. -/
theorem toInt64_eq_self_iff {v : Int} (h : 0 ≤ v) : toInt64 v = v ↔ v < 2 ^ 63 :=
  ⟨fun heq => heq ▸ toInt64_lt v, toInt64_eq (by omega)⟩

theorem toInt_toInt64 (v : Int) : toInt (toInt64 v) = toInt v := by
  unfold toInt toInt64
  exact Int.bmod_bmod_of_dvd (by decide)

theorem toInt_lt (v : Int) : toInt v < 2 ^ 31 := by
  unfold toInt Int.bmod
  dsimp only
  split <;> omega

/-- The conversion to `int` never gains: what it loses is a multiple of `2 ^ 32`. -/
theorem toInt_le {v : Int} (h : 0 ≤ v) : toInt v ≤ v := by
  unfold toInt Int.bmod
  dsimp only
  split <;> omega

theorem toSize_eq {v : Nat} (h : v < 2 ^ 64) : toSize v = v := Nat.mod_eq_of_lt h

end Brickred
