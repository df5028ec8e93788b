import Mathlib.Algebra.Order.Group.Unbundled.Abs
import Brickred.Timestamp

/-!
# Milliseconds of either sign

`operator+=` takes an `int64_t`.  It carries a second upwards when the nanoseconds reach one, but
it never borrows one: a count with a negative remainder can leave negative nanoseconds.

* `normalised_addAssign_iff` — the sum is normalised exactly when nothing is to be borrowed.
* `addAssign_eq_iff` — two ways to the same total give the same stamp exactly when both leave
  negative nanoseconds or neither does.
* `distanceMillisecond_eq` — on normalised stamps, the distance of the truncated milliseconds, in
  64 bits.
* `arithmetic_iff` — all of the arithmetic, for two counts of either sign.
* `Carried` — what every stamp has, and what a count below zero does to such a stamp.
-/

set_option autoImplicit false

namespace Brickred

namespace Timestamp

/-- The nanoseconds do not cover a negative remainder of the count. -/
def Borrows (nanosecond millisecond : Int) : Prop :=
  nanosecond + millisecond.tmod 1000 * 1000000 < 0

instance (nanosecond millisecond : Int) : Decidable (Borrows nanosecond millisecond) :=
  inferInstanceAs (Decidable (_ < _))

variable {t u v : Timestamp} {m k : Int}

/-- Less than a second of nanoseconds, of either sign. -/
theorem addAssign_nanosecond_bounds (ht : t.Normalised) (m : Int) :
    -1000000000 < (t.addAssign m).nanosecond ∧ (t.addAssign m).nanosecond < 1000000000 := by
  have h1 := ht.nonneg
  have h2 := ht.lt
  have hlo := Int.lt_tmod_of_pos m (show (0 : Int) < 1000 by decide)
  have hhi := Int.tmod_lt_of_pos m (show (0 : Int) < 1000 by decide)
  unfold addAssign
  dsimp only
  split <;> dsimp only <;> omega

theorem addAssign_nanosecond_neg (ht : t.Normalised) (m : Int) :
    (t.addAssign m).nanosecond < 0 ↔ Borrows t.nanosecond m := by
  have h1 := ht.nonneg
  have h2 := ht.lt
  have hlo := Int.lt_tmod_of_pos m (show (0 : Int) < 1000 by decide)
  have hhi := Int.tmod_lt_of_pos m (show (0 : Int) < 1000 by decide)
  unfold addAssign Borrows
  dsimp only
  split <;> dsimp only <;> omega

theorem normalised_addAssign_iff (ht : t.Normalised) (m : Int) :
    (t.addAssign m).Normalised ↔ ¬ Borrows t.nanosecond m := by
  rw [← addAssign_nanosecond_neg ht, not_lt]
  exact ⟨fun h => h.nonneg, fun h => ⟨h, (addAssign_nanosecond_bounds ht m).2⟩⟩

theorem Normalised.nanosecond_eq (ht : t.Normalised) : t.nanosecond = t.totalNs % 1000000000 := by
  have h1 := ht.nonneg
  have h2 := ht.lt
  unfold totalNs
  omega

/-- The nanoseconds of a sum that is normalised. -/
theorem addAssign_nanosecond (ht : t.Normalised) (hm : ¬ Borrows t.nanosecond m) :
    (t.addAssign m).nanosecond = (t.nanosecond + m * 1000000) % 1000000000 := by
  rw [((normalised_addAssign_iff ht m).2 hm).nanosecond_eq, addAssign_totalNs]
  unfold totalNs
  omega

/-- **Two sums with the same total.** -/
theorem addAssign_eq_iff (ht : t.Normalised) (hu : u.Normalised)
    (htotal : (t.addAssign m).totalNs = (u.addAssign k).totalNs) :
    t.addAssign m = u.addAssign k ↔ (Borrows t.nanosecond m ↔ Borrows u.nanosecond k) := by
  obtain ⟨hlo, hhi⟩ := addAssign_nanosecond_bounds ht m
  obtain ⟨hlo', hhi'⟩ := addAssign_nanosecond_bounds hu k
  rw [← addAssign_nanosecond_neg ht, ← addAssign_nanosecond_neg hu]
  unfold totalNs at htotal
  constructor
  · intro h
    rw [h]
  · intro h
    -- the nanoseconds differ by a multiple of a second, and have the same sign
    have hnanosecond : (t.addAssign m).nanosecond = (u.addAssign k).nanosecond := by omega
    have hsecond : (t.addAssign m).second = (u.addAssign k).second := by omega
    exact lexKey_injective (congrArg toLex (Prod.ext hsecond hnanosecond))

theorem distanceMillisecond_eq (ht : t.Normalised) (hu : u.Normalised) :
    t.distanceMillisecond u = toInt64 |u.totalMs - t.totalMs| := by
  unfold distanceMillisecond
  dsimp only
  congr 1
  by_cases hless : t.less u = true
  · rw [if_pos hless, if_pos hless]
    have hle := totalMs_mono ht hu (less_iff.1 hless).le
    rw [abs_of_nonneg (by omega)]
    unfold totalMs
    omega
  · rw [if_neg hless, if_neg hless]
    have hle := totalMs_mono hu ht (not_less_iff.1 hless)
    rw [abs_of_nonpos (by omega)]
    unfold totalMs
    omega

theorem distanceMillisecond_addAssign (ht : t.Normalised) (hm : ¬ Borrows t.nanosecond m) :
    t.distanceMillisecond (t.addAssign m) = |m| ↔ |m| < 2 ^ 63 := by
  have hsum := (normalised_addAssign_iff ht m).2 hm
  have hms : (t.addAssign m).totalMs - t.totalMs = m := by
    rw [hsum.totalMs_eq, ht.totalMs_eq, addAssign_totalNs]
    omega
  rw [distanceMillisecond_eq ht hsum, hms]
  exact toInt64_eq_self_iff (abs_nonneg m)

theorem millisecondLess_iff_totalNs (ht : t.Normalised) (hu : u.Normalised) :
    t.millisecondLess u = true ↔ t.totalNs / 1000000 < u.totalNs / 1000000 := by
  rw [millisecondLess_iff hu, ht.clockMs_eq, ht.totalMs_eq, hu.totalMs_eq]

/-- **The arithmetic is that of total nanoseconds** as long as nothing is to be borrowed and the
distance has 63 bits, and the two ways to add two counts agree when both or neither end with a
borrowed second. -/
theorem arithmetic_iff (ht : t.Normalised) (hu : u.Normalised) (a b : Int) :
    ((t.add a).Normalised ∧ (t.add a).totalNs = t.totalNs + a * 1000000 ∧
      (t.add a).add b = t.add (a + b) ∧
      (t.less u = true ↔ t.totalNs < u.totalNs) ∧
      (t.millisecondLess u = true ↔ t.totalNs / 1000000 < u.totalNs / 1000000) ∧
      t.distanceMillisecond (t.add a) = |a|) ↔
    ¬ Borrows t.nanosecond a ∧
      (Borrows ((t.nanosecond + a * 1000000) % 1000000000) b ↔ Borrows t.nanosecond (a + b)) ∧
      |a| < 2 ^ 63 := by
  have htotal : ((t.addAssign a).addAssign b).totalNs = (t.addAssign (a + b)).totalNs := by
    rw [addAssign_totalNs, addAssign_totalNs, addAssign_totalNs]
    ring
  have hassoc (ha : ¬ Borrows t.nanosecond a) : (t.addAssign a).addAssign b = t.addAssign (a + b) ↔
      (Borrows ((t.nanosecond + a * 1000000) % 1000000000) b ↔ Borrows t.nanosecond (a + b)) := by
    rw [← addAssign_nanosecond ht ha]
    exact addAssign_eq_iff ((normalised_addAssign_iff ht a).2 ha) ht htotal
  constructor
  · rintro ⟨hnormalised, _, hsum, _, _, hdistance⟩
    have ha := (normalised_addAssign_iff ht a).1 hnormalised
    exact ⟨ha, (hassoc ha).1 hsum, (distanceMillisecond_addAssign ht ha).1 hdistance⟩
  · rintro ⟨ha, hb, hwide⟩
    exact ⟨(normalised_addAssign_iff ht a).2 ha, addAssign_totalNs t a, (hassoc ha).2 hb,
      less_iff.trans (lt_iff_totalNs ht hu), millisecondLess_iff_totalNs ht hu,
      (distanceMillisecond_addAssign ht ha).2 hwide⟩

/-- 1.5 s on and 0.2 s back, where nothing is to be borrowed. -/
theorem back_and_forth :
    ((Timestamp.mk 1 800000000).add 1500).add (-200) = (Timestamp.mk 1 800000000).add 1300 :=
  ((arithmetic_iff (t := ⟨1, 800000000⟩) (u := ⟨2, 0⟩) (by decide) (by decide) 1500 (-200)).2
    (by decide)).2.2.1

/-- A millisecond before the full second: the stamp is not normalised, and it counts as later
than one that is half a second later. -/
theorem negative_count_not_borrowed :
    ¬ (∀ (t u : Timestamp) (a b : Int), t.Normalised → u.Normalised →
      |a| < 2 ^ 62 → |b| < 2 ^ 62 →
      (t.add a).Normalised ∧ (t.add a).totalNs = t.totalNs + a * 1000000 ∧
      (t.add a).add b = t.add (a + b) ∧
      (t.less u = true ↔ t.totalNs < u.totalNs) ∧
      (t.millisecondLess u = true ↔ t.totalNs / 1000000 < u.totalNs / 1000000) ∧
      t.distanceMillisecond (t.add a) = |a|) ∧
    (Timestamp.mk 1 0).add (-501) = ⟨1, -501000000⟩ ∧
    (Timestamp.mk 0 999000000).less ((Timestamp.mk 1 0).add (-501)) = true := by
  refine ⟨fun h => ?_, by decide, by decide⟩
  have hnormalised := (h ⟨1, 0⟩ ⟨1, 0⟩ (-501) 0 (by decide) (by decide) (by decide) (by decide)).1
  exact absurd hnormalised (by decide)

/-! ## Stamps that have been carried -/

/-- What the class guarantees of every stamp.  The fields are private, a clock reading has less
than a second of nanoseconds, and `operator+=` carries. -/
def Carried (t : Timestamp) : Prop := t.nanosecond < 1000000000

instance (t : Timestamp) : Decidable t.Carried := inferInstanceAs (Decidable (_ < _))

theorem Carried.addAssign (ht : t.Carried) (m : Int) : (t.addAssign m).Carried := by
  have hhi := Int.tmod_lt_of_pos m (show (0 : Int) < 1000 by decide)
  unfold Carried Timestamp.addAssign at *
  dsimp only
  split <;> dsimp only <;> omega

/-- A count that is not positive leads to no later stamp. -/
theorem Carried.addAssign_le (ht : t.Carried) (hm : m ≤ 0) : t.addAssign m ≤ t := by
  have hdiv : m.tdiv 1000 ≤ 0 := Int.tdiv_le_tdiv (by decide) hm
  have hmod : 0 ≤ (-m).tmod 1000 := Int.tmod_nonneg 1000 (by omega)
  rw [Int.neg_tmod] at hmod
  have hsum := Int.mul_tdiv_add_tmod m 1000
  unfold Carried at ht
  rw [← not_lt, lt_def]
  unfold Timestamp.addAssign
  dsimp only
  rw [if_neg (by omega)]
  dsimp only
  omega

/-- What an earlier stamp is compared with in milliseconds, too. -/
theorem millisecondLess_mono (hle : t ≤ u) (h : v.millisecondLess t = true) :
    v.millisecondLess u = true := by
  rw [← not_lt, lt_def] at hle
  have hms (hnanosecond : t.nanosecond ≤ u.nanosecond) : t.getMilliSecond ≤ u.getMilliSecond :=
    Int.tdiv_le_tdiv (by decide) hnanosecond
  unfold millisecondLess at h ⊢
  split at h <;> split <;> simp only [decide_eq_true_eq] at h ⊢ <;> omega

/-- A stamp whose second is past is not later than anything in it. -/
theorem not_millisecondLess_of_second_lt (h : u.second < t.second) :
    ¬ t.millisecondLess u = true := by
  unfold millisecondLess
  rw [if_pos (by omega), decide_eq_true_eq]
  omega

theorem second_le_of_not_millisecondLess (h : ¬ t.millisecondLess u = true) :
    u.second ≤ t.second := by
  unfold millisecondLess at h
  split at h <;> simp only [decide_eq_true_eq] at h <;> omega

end Timestamp

end Brickred
