import Mathlib.Algebra.Group.Nat.Even
import Mathlib.Tactic.Ring

/-!
# Fixed-width big-endian integers

`toBytes n v` is the `n`-byte big-endian form of the low `8 * n` bits of `v`, and `ofBytes` reads
a byte string as a number.  Principal results: `ofBytes_toBytes`, `ofBytes_lt`, `toBytes_add`,
`toBytes_mod`.
-/

set_option autoImplicit false

namespace BigEndian

def toBytes : ℕ → ℕ → List UInt8
  | 0, _ => []
  | n + 1, v => UInt8.ofNat (v >>> (8 * n)) :: toBytes n v

def ofBytes : List UInt8 → ℕ
  | [] => 0
  | b :: bs => b.toNat <<< (8 * bs.length) ||| ofBytes bs

@[simp] theorem toBytes_length (n v : ℕ) : (toBytes n v).length = n := by
  induction n with
  | zero => rfl
  | succ n ih => rw [toBytes, List.length_cons, ih]

theorem ofBytes_lt : ∀ bs : List UInt8, ofBytes bs < 2 ^ (8 * bs.length)
  | [] => by decide
  | b :: bs => by
    have hb := b.toNat_lt
    have ih := ofBytes_lt bs
    rw [ofBytes, List.length_cons, Nat.mul_succ]
    refine Nat.or_lt_two_pow ?_ (ih.trans (Nat.pow_lt_pow_right (by decide) (by omega)))
    rw [Nat.shiftLeft_eq, Nat.pow_add, Nat.mul_comm]
    exact Nat.mul_lt_mul_of_pos_left hb (Nat.two_pow_pos _)

theorem ofBytes_cons (b : UInt8) (bs : List UInt8) :
    ofBytes (b :: bs) = b.toNat * 2 ^ (8 * bs.length) + ofBytes bs := by
  rw [ofBytes, ← Nat.shiftLeft_add_eq_or_of_lt (ofBytes_lt bs), Nat.shiftLeft_eq]

/-- **Reading back** what was written. -/
theorem ofBytes_toBytes (n v : ℕ) : ofBytes (toBytes n v) = v % 2 ^ (8 * n) := by
  induction n with
  | zero => simp [toBytes, ofBytes, Nat.mod_one]
  | succ n ih =>
    have hb : (UInt8.ofNat (v >>> (8 * n))).toNat = v / 2 ^ (8 * n) % 256 := by
      rw [Nat.shiftRight_eq_div_pow]; simp
    rw [toBytes, ofBytes_cons, toBytes_length, ih, hb, Nat.mul_succ, Nat.pow_add, Nat.mod_mul]
    ring

theorem toBytes_add (m n v : ℕ) :
    toBytes (m + n) v = toBytes m (v >>> (8 * n)) ++ toBytes n v := by
  induction m with
  | zero => rw [Nat.zero_add]; rfl
  | succ m ih =>
    rw [Nat.succ_add, toBytes, toBytes, ih, List.cons_append, ← Nat.shiftRight_add,
      Nat.mul_add, Nat.add_comm (8 * m)]

/-- The bits above the low `8 * n` do not matter. -/
theorem toBytes_mod {n k : ℕ} (h : n ≤ k) (v : ℕ) : toBytes n (v % 2 ^ (8 * k)) = toBytes n v := by
  induction n with
  | zero => rfl
  | succ n ih =>
    rw [toBytes, toBytes, ih (by omega)]
    congr 1
    apply UInt8.toNat_inj.1
    rw [UInt8.toNat_ofNat', UInt8.toNat_ofNat', Nat.shiftRight_eq_div_pow,
      Nat.shiftRight_eq_div_pow]
    obtain ⟨j, rfl⟩ := Nat.exists_eq_add_of_le h
    rw [show 8 * (n + 1 + j) = 8 * n + (8 + 8 * j) by ring, Nat.pow_add, Nat.mod_mul_right_div_self,
      Nat.pow_add, Nat.mod_mul_right_mod]

end BigEndian
