import Brickred.Lib.Rounding

/-!
# `Random` (model of `random.cc`)

The generator makes 32-bit words; `nextDouble` makes a fraction of two of them, and the bounded
`nextInt` scales it.  A `double` is the rational number it stands for.  The fraction is exact in
53 bits; its product with a bound is not, and what it is rounded to is an argument of the draws:
`toDouble` is what the code has, `id` an exact product.

* `Random.nextInt`, `nextDouble`, `nextIntBelow`, `nextIntIn` — the generator and the draws.
* `draw_within` — the draws from `[min, max]` stay in it, as they are rounded.
* `scale_eq` — a draw in whole numbers, from an exact product.
* `covers_iff` — from exact products, the draws from `[min, max]` stay in it, and reach all of it
  but for the widest one.
-/

set_option autoImplicit false

namespace Brickred

/-- `mt_` and `mti_` -/
structure Random where
  mt : List UInt32
  mti : Nat

namespace Random

def n : Nat := 624

def m : Nat := 397

/-- `mt_[i]` made anew, of itself and two others. -/
def twist (mt : List UInt32) (i next far : Nat) : List UInt32 :=
  let y := mt.getD i 0 &&& 0x80000000 ||| mt.getD next 0 &&& 0x7fffffff
  mt.set i (mt.getD far 0 ^^^ y >>> 1 ^^^ if y &&& 1 = 0 then 0 else 0x9908b0df)

/-- All words at one time. -/
def generate (mt : List UInt32) : List UInt32 :=
  let mt := (List.range (n - m)).foldl (fun mt i => twist mt i (i + 1) (i + m)) mt
  let mt := (List.range' (n - m) (m - 1)).foldl (fun mt i => twist mt i (i + 1) (i + m - n)) mt
  twist mt (n - 1) 0 (m - 1)

def temper (y : UInt32) : UInt32 :=
  let y := y ^^^ y >>> 11
  let y := y ^^^ y <<< 7 &&& 0x9d2c5680
  let y := y ^^^ y <<< 15 &&& 0xefc60000
  y ^^^ y >>> 18

/-- The 32-bit words. -/
def nextInt (r : Random) : UInt32 × Random :=
  let r := if r.mti ≥ n then ⟨generate r.mt, 0⟩ else r
  (temper (r.mt.getD r.mti 0), { r with mti := r.mti + 1 })

/-- The fraction made of two words: 27 bits of the first, 26 of the second. -/
def fraction (x y : UInt32) : ℚ :=
  ((x >>> 5).toNat * 67108864 + (y >>> 6).toNat) * (1 / 9007199254740992)

def nextDouble (r : Random) : ℚ × Random :=
  let (x, r) := r.nextInt
  let (y, r) := r.nextInt
  (fraction x y, r)

/-- The nearest `double`.  Its exponents do for the products made here, which are `0` or between
`2 ^ -53` and `2 ^ 32`. -/
def toDouble : ℚ → ℚ := Rounding.nearest 53

/-- `(uint32_t)(d * max)` -/
def scale (round : ℚ → ℚ) (d : ℚ) (max : UInt32) : UInt32 :=
  UInt32.ofNat ⌊round (d * max.toNat)⌋.toNat

/-- `nextInt(max)` -/
def nextIntBelow (r : Random) (round : ℚ → ℚ) (max : UInt32) : UInt32 × Random :=
  let (d, r) := r.nextDouble
  (scale round d max, r)

/-- `nextInt(min, max)` -/
def nextIntIn (r : Random) (round : ℚ → ℚ) (min max : UInt32) : UInt32 × Random :=
  if min ≥ max then (min, r)
  else
    let (v, r) := r.nextIntBelow round (max - min + 1)
    (min + v, r)

/-! ## In whole numbers -/

/-- The numerator of the fraction, over `2 ^ 53`. -/
def numerator (x y : UInt32) : Nat := (x >>> 5).toNat * 2 ^ 26 + (y >>> 6).toNat

section Scale

variable {x y min max v : UInt32}

theorem numerator_eq (x y : UInt32) :
    numerator x y = x.toNat / 2 ^ 5 * 2 ^ 26 + y.toNat / 2 ^ 6 := by
  unfold numerator
  rw [UInt32.toNat_shiftRight, UInt32.toNat_shiftRight, Nat.shiftRight_eq_div_pow,
    Nat.shiftRight_eq_div_pow]
  rfl

theorem numerator_lt (x y : UInt32) : numerator x y < 2 ^ 53 := by
  have hx := x.toNat_lt
  have hy := y.toNat_lt
  rw [numerator_eq]
  omega

/-- Every numerator is that of two words. -/
theorem exists_numerator {k : Nat} (h : k < 2 ^ 53) : ∃ x y, numerator x y = k := by
  refine ⟨UInt32.ofNat (k / 2 ^ 26 * 2 ^ 5), UInt32.ofNat (k % 2 ^ 26 * 2 ^ 6), ?_⟩
  rw [numerator_eq, UInt32.toNat_ofNat_of_lt' (by change _ < 2 ^ 32; omega),
    UInt32.toNat_ofNat_of_lt' (by change _ < 2 ^ 32; omega)]
  omega

theorem fraction_eq (x y : UInt32) : fraction x y = (numerator x y : ℚ) / 2 ^ 53 := by
  unfold fraction numerator
  push_cast
  ring

/-- **A draw is below the bound**: the fraction is short of 1 by more than what its product can
gain when it is rounded. -/
theorem scale_toDouble_lt (h : 0 < max.toNat) :
    (scale toDouble (fraction x y) max).toNat < max.toNat := by
  have hmax := max.toNat_lt
  have hnumerator : (numerator x y : ℚ) ≤ 2 ^ 53 - 1 := by
    rw [le_sub_iff_add_le]
    exact_mod_cast numerator_lt x y
  have hbound : (0 : ℚ) < max.toNat := by exact_mod_cast h
  have hnonneg : 0 ≤ fraction x y * max.toNat := by
    rw [fraction_eq]
    positivity
  have hlt : toDouble (fraction x y * max.toNat) < max.toNat :=
    calc toDouble (fraction x y * max.toNat)
        ≤ fraction x y * max.toNat + fraction x y * max.toNat / 2 ^ 53 :=
          Rounding.nearest_le hnonneg
      _ ≤ (2 ^ 53 - 1) / 2 ^ 53 * (1 + 1 / 2 ^ 53) * max.toNat := by
          rw [fraction_eq]
          nlinarith
      _ < 1 * max.toNat := mul_lt_mul_of_pos_right (by norm_num) hbound
      _ = max.toNat := one_mul _
  have hfloor : ⌊toDouble (fraction x y * max.toNat)⌋ < max.toNat := Int.floor_lt.2 hlt
  have hfloor' := Int.floor_nonneg.2 (@Rounding.nearest_nonneg 53 _ hnonneg)
  change 0 ≤ ⌊toDouble (fraction x y * max.toNat)⌋ at hfloor'
  rw [scale, UInt32.toNat_ofNat_of_lt' (by change _ < 2 ^ 32; omega)]
  omega

/-- **A draw from an exact product** is a product divided by `2 ^ 53`. -/
theorem scale_eq (x y max : UInt32) :
    (scale id (fraction x y) max).toNat = numerator x y * max.toNat / 2 ^ 53 := by
  have hproduct : fraction x y * max.toNat =
      ((numerator x y * max.toNat : ℕ) : ℚ) / ((2 ^ 53 : ℕ) : ℚ) := by
    rw [fraction_eq]
    push_cast
    ring
  have hlt : numerator x y * max.toNat / 2 ^ 53 < 2 ^ 32 := by
    have hmax := max.toNat_lt
    rw [Nat.div_lt_iff_lt_mul (by decide)]
    calc numerator x y * max.toNat ≤ 2 ^ 53 * max.toNat :=
          Nat.mul_le_mul_right _ (Nat.le_of_lt (numerator_lt x y))
      _ < 2 ^ 53 * 2 ^ 32 := Nat.mul_lt_mul_of_pos_left hmax (by decide)
      _ = 2 ^ 32 * 2 ^ 53 := rfl
  rw [scale, id, hproduct, Rat.floor_natCast_div_natCast, ← Int.natCast_div, Int.toNat_natCast]
  exact UInt32.toNat_ofNat_of_lt' hlt

theorem scale_lt (h : 0 < max.toNat) : (scale id (fraction x y) max).toNat < max.toNat := by
  rw [scale_eq, Nat.div_lt_iff_lt_mul (by decide), Nat.mul_comm]
  exact Nat.mul_lt_mul_of_pos_left (numerator_lt x y) h

/-- Every number below the bound is drawn: two numerators in a row differ by less than one. -/
theorem exists_scale {k : Nat} (h : k < max.toNat) :
    ∃ x y, (scale id (fraction x y) max).toNat = k := by
  have hmax := max.toNat_lt
  -- the least numerator whose product reaches `k * 2 ^ 53`
  have hlow := Nat.lt_div_mul_add (a := k * 2 ^ 53 + (max.toNat - 1)) (Nat.zero_lt_of_lt h)
  have hhigh := Nat.div_mul_le_self (k * 2 ^ 53 + (max.toNat - 1)) max.toNat
  obtain ⟨x, y, hxy⟩ : ∃ x y, numerator x y = (k * 2 ^ 53 + (max.toNat - 1)) / max.toNat := by
    refine exists_numerator ((Nat.div_lt_iff_lt_mul (Nat.zero_lt_of_lt h)).2 ?_)
    omega
  refine ⟨x, y, ?_⟩
  rw [scale_eq, hxy]
  generalize (k * 2 ^ 53 + (max.toNat - 1)) / max.toNat * max.toNat = product at hlow hhigh ⊢
  omega

end Scale

/-! ## Draws from an interval -/

/-- What `nextInt(min, max)` makes of two words. -/
def draw (round : ℚ → ℚ) (min max x y : UInt32) : UInt32 :=
  if min ≥ max then min else min + scale round (fraction x y) (max - min + 1)

/-- All draws are in the interval, and every number of it is drawn. -/
structure Covers (round : ℚ → ℚ) (min max : UInt32) : Prop where
  within : ∀ x y, min ≤ draw round min max x y ∧ draw round min max x y ≤ max
  reached : ∀ v, min ≤ v → v ≤ max → ∃ x y, draw round min max x y = v

section Draw

variable {min max : UInt32}

/-- The generator draws of its next two words. -/
theorem nextIntIn_draw (r : Random) (round : ℚ → ℚ) (min max : UInt32) :
    (r.nextIntIn round min max).1 = draw round min max r.nextInt.1 r.nextInt.2.nextInt.1 := by
  unfold nextIntIn draw
  split <;> rfl

/-- The size of the interval, unless it is all numbers. -/
theorem size_eq (hle : min ≤ max) (hwide : ¬ (min = 0 ∧ max = 0xffffffff)) :
    (max - min + 1).toNat = max.toNat - min.toNat + 1 := by
  have hmax := max.toNat_lt
  have hle' := UInt32.le_iff_toNat_le.1 hle
  have hlt : max.toNat - min.toNat + 1 < 2 ^ 32 := by
    by_contra hge
    refine hwide ⟨UInt32.toNat_inj.1 ?_, UInt32.toNat_inj.1 ?_⟩
    · change min.toNat = 0
      omega
    · change max.toNat = 4294967295
      omega
  rw [UInt32.toNat_add, UInt32.toNat_sub_of_le _ _ hle]
  exact Nat.mod_eq_of_lt hlt

theorem covers_narrow (hle : min ≤ max) (hwide : ¬ (min = 0 ∧ max = 0xffffffff)) :
    Covers id min max := by
  have hmax := max.toNat_lt
  have hle' := UInt32.le_iff_toNat_le.1 hle
  have hsize := size_eq hle hwide
  by_cases hge : min ≥ max
  · have hge' := UInt32.le_iff_toNat_le.1 hge
    have hdraw : ∀ x y, draw id min max x y = min := fun x y => if_pos hge
    refine ⟨fun x y => ?_, fun v hlow hhigh => ⟨0, 0, ?_⟩⟩
    · rw [hdraw]
      exact ⟨UInt32.le_refl min, hle⟩
    · rw [hdraw]
      exact UInt32.le_antisymm hlow (UInt32.le_trans hhigh hge)
  · have hdraw : ∀ x y, (draw id min max x y).toNat =
        min.toNat + (scale id (fraction x y) (max - min + 1)).toNat := by
      intro x y
      have hlt := @scale_lt x y (max - min + 1) (by omega)
      rw [draw, if_neg hge, UInt32.toNat_add]
      exact Nat.mod_eq_of_lt (by omega)
    refine ⟨fun x y => ?_, fun v hlow hhigh => ?_⟩
    · have hlt := @scale_lt x y (max - min + 1) (by omega)
      rw [UInt32.le_iff_toNat_le, UInt32.le_iff_toNat_le, hdraw]
      omega
    · rw [UInt32.le_iff_toNat_le] at hlow hhigh
      obtain ⟨x, y, hxy⟩ := @exists_scale (max - min + 1) (v.toNat - min.toNat) (by omega)
      refine ⟨x, y, UInt32.toNat_inj.1 ?_⟩
      rw [hdraw, hxy]
      omega

/-- **No draw leaves its interval** in the arithmetic of the code, either. -/
theorem draw_within (hle : min ≤ max) (x y : UInt32) :
    min ≤ draw toDouble min max x y ∧ draw toDouble min max x y ≤ max := by
  have hmax := max.toNat_lt
  have hle' := UInt32.le_iff_toNat_le.1 hle
  by_cases hge : min ≥ max
  · rw [draw, if_pos hge]
    exact ⟨UInt32.le_refl min, hle⟩
  · by_cases hwide : min = 0 ∧ max = 0xffffffff
    · obtain ⟨rfl, rfl⟩ := hwide
      exact ⟨UInt32.le_iff_toNat_le.2 (Nat.zero_le _),
        UInt32.le_iff_toNat_le.2 (Nat.le_of_lt_succ (UInt32.toNat_lt _))⟩
    · have hsize := size_eq hle hwide
      have hlt := @scale_toDouble_lt x y (max - min + 1) (by omega)
      rw [draw, if_neg hge, UInt32.le_iff_toNat_le, UInt32.le_iff_toNat_le, UInt32.toNat_add,
        Nat.mod_eq_of_lt (by omega)]
      omega

/-- The number of all numbers is `0` in 32 bits. -/
theorem draw_widest (x y : UInt32) : draw id 0 0xffffffff x y = 0 := by
  have hscale : scale id (fraction x y) 0 = 0 := UInt32.toNat_inj.1 (by
    rw [scale_eq]
    exact Nat.zero_div _)
  change 0 + scale id (fraction x y) 0 = 0
  rw [hscale]
  rfl

theorem draw_widest_ne (x y : UInt32) : draw id 0 0xffffffff x y ≠ 1 := by
  rw [draw_widest]
  decide

/-- **`nextInt(min, max)` covers its range**, whatever words the generator makes, but for the
widest one, where it is always `0`. -/
theorem covers_iff (hle : min ≤ max) :
    (∀ (r : Random) (round : ℚ → ℚ), (r.nextIntIn round min max).1 =
        draw round min max r.nextInt.1 r.nextInt.2.nextInt.1) ∧
      (Covers id min max ↔ ¬ (min = 0 ∧ max = 0xffffffff)) := by
  refine ⟨fun r round => nextIntIn_draw r round min max, ?_, covers_narrow hle⟩
  rintro h ⟨rfl, rfl⟩
  obtain ⟨x, y, hxy⟩ := h.reached 1 (by decide) (by decide)
  exact draw_widest_ne x y hxy

theorem covers_die :
    (∀ (r : Random) (round : ℚ → ℚ), (r.nextIntIn round 1 6).1 =
        draw round 1 6 r.nextInt.1 r.nextInt.2.nextInt.1) ∧
      (Covers id 1 6 ↔ ¬ ((1 : UInt32) = 0 ∧ (6 : UInt32) = 0xffffffff)) :=
  covers_iff (by decide)

/-- No draw from the widest interval is `1`. -/
theorem not_covers_widest : (0 : UInt32) ≤ 0xffffffff ∧ ¬ Covers id 0 0xffffffff := by
  refine ⟨by decide, fun h => ?_⟩
  obtain ⟨x, y, hxy⟩ := h.reached 1 (by decide) (by decide)
  exact draw_widest_ne x y hxy

end Draw

end Random

end Brickred
