import Mathlib.Logic.Function.Iterate

/-!
# Undoing `y ^^^ g y`

A mixing step that adds to a word its own shifted and masked bits is undone by adding them again
to what is known of the word, as often as it takes the shift to leave nothing.

* `undo_xor` — the general rule, for a `g` that is linear and whose powers end at `0`.
* `undo_shiftRight`, `undo_shiftLeft_and` — the two shapes that generators and hashes use.
-/

set_option autoImplicit false

namespace XorShift

variable {w : Nat}

/-- The word that `z` was before, `k` rounds of it. -/
def undo (g : BitVec w → BitVec w) (k : Nat) (z : BitVec w) : BitVec w :=
  (fun u => z ^^^ g u)^[k] z

theorem undo_xor {g : BitVec w → BitVec w} (hlinear : ∀ x y, g (x ^^^ y) = g x ^^^ g y)
    {k : Nat} {y : BitVec w} (hzero : g^[k + 1] y = 0#w) : undo g k (y ^^^ g y) = y := by
  -- a round leaves the next power of `g` in the place of the last
  have hround : ∀ i, (fun u => (y ^^^ g y) ^^^ g u)^[i] (y ^^^ g y) = y ^^^ g^[i + 1] y := by
    intro i
    induction i with
    | zero => rfl
    | succ i ih =>
      rw [Function.iterate_succ_apply', ih, hlinear, Function.iterate_succ_apply' g (i + 1),
        BitVec.xor_assoc, ← BitVec.xor_assoc (g y), BitVec.xor_self, BitVec.zero_xor]
  rw [undo, hround, hzero, BitVec.xor_zero]

/-! ## Shifts to the right -/

theorem iterate_shiftRight (s : Nat) (y : BitVec w) (k : Nat) :
    (fun u : BitVec w => u >>> s)^[k] y = y >>> (s * k) := by
  induction k with
  | zero => simp
  | succ k ih => rw [Function.iterate_succ_apply', ih, Nat.mul_succ, BitVec.shiftRight_add]

theorem undo_shiftRight {s k : Nat} (h : w ≤ s * (k + 1)) (y : BitVec w) :
    undo (fun u => u >>> s) k (y ^^^ y >>> s) = y := by
  refine undo_xor (fun x y => BitVec.ushiftRight_xor_distrib x y s) ?_
  rw [iterate_shiftRight]
  exact BitVec.ushiftRight_eq_zero h

/-! ## Shifts to the left, under a mask -/

/-- Every mask leaves at least as many low bits zero as the shifts made. -/
theorem getLsbD_iterate_shiftLeft_and (s : Nat) (mask y : BitVec w) {i k : Nat} (h : i < s * k) :
    ((fun u : BitVec w => u <<< s &&& mask)^[k] y).getLsbD i = false := by
  induction k generalizing i with
  | zero => simp at h
  | succ k ih =>
    rw [Function.iterate_succ_apply', BitVec.getLsbD_and, BitVec.getLsbD_shiftLeft]
    by_cases hlow : i < s
    · simp [hlow]
    · rw [ih (by rw [Nat.mul_succ] at h; omega)]
      simp

theorem undo_shiftLeft_and {s k : Nat} (h : w ≤ s * (k + 1)) (mask y : BitVec w) :
    undo (fun u => u <<< s &&& mask) k (y ^^^ (y <<< s &&& mask)) = y := by
  refine undo_xor (fun x y => ?_) ?_
  · rw [BitVec.shiftLeft_xor_distrib]
    ext i hi
    simp [Bool.and_xor_distrib_right]
  · ext i hi
    have hbit := getLsbD_iterate_shiftLeft_and s mask y (i := i) (k := k + 1) (by omega)
    rw [← BitVec.getLsbD_eq_getElem, hbit]
    simp

end XorShift
