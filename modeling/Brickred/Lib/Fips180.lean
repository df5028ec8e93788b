import Mathlib.Analysis.SpecialFunctions.Pow.NthRootLemmas
import Mathlib.Data.Nat.Prime.Basic
import Mathlib.Tactic.IntervalCases
import Mathlib.Tactic.NormNum.Prime
import Mathlib.Order.Bounds.Basic
import Brickred.Lib.BigEndian
import Brickred.Lib.Blocks

/-!
# The Secure Hash Standard on byte strings

SHA-1 and SHA-256 as FIPS 180 states them, for messages of whole bytes: the functions on words,
the message schedule as a recurrence, the rounds one after the other, and the padded message
hashed block by block.  The constants of SHA-256 are computed from the primes.

* `padding` — 0x80, zero bytes, the length in bits; `zeroBytes_least`: no fewer zero bytes fill
  the last block.
* `sha1`, `sha256` — the hash of a message.
* `primes_eq`, `map_rootFraction` — a table of constants is checked against the primes and by
  bounds on the powers, without taking a root.
-/

set_option autoImplicit false

namespace Fips180

open Blocks

/-! ## Words -/

/-- A circular left shift. -/
def rotl (n x : UInt32) : UInt32 := x <<< n ||| x >>> (32 - n)

/-- A circular right shift. -/
def rotr (n x : UInt32) : UInt32 := x >>> n ||| x <<< (32 - n)

def ch (x y z : UInt32) : UInt32 := (x &&& y) ^^^ (~~~x &&& z)

def parity (x y z : UInt32) : UInt32 := x ^^^ y ^^^ z

def maj (x y z : UInt32) : UInt32 := (x &&& y) ^^^ (x &&& z) ^^^ (y &&& z)

/-- The `j`-th word of a block. -/
def word (block : List UInt8) (j : ℕ) : UInt32 :=
  UInt32.ofNat (BigEndian.ofBytes ((block.drop (4 * j)).take 4))

def wordBytes (word : UInt32) : List UInt8 := BigEndian.toBytes 4 word.toNat

/-! ## Padding -/

/-- The zero bytes behind 0x80. -/
def zeroBytes (length : ℕ) : ℕ := (119 - length % 64) % 64

theorem zeroBytes_least (length : ℕ) :
    IsLeast {k | 64 ∣ length + 1 + k + 8} (zeroBytes length) := by
  unfold zeroBytes
  refine ⟨?_, fun k (hk : 64 ∣ length + 1 + k + 8) => ?_⟩
  · change 64 ∣ length + 1 + (119 - length % 64) % 64 + 8
    omega
  · omega

def padding (length : ℕ) : List UInt8 :=
  0x80 :: List.replicate (zeroBytes length) 0 ++ BigEndian.toBytes 8 (8 * length)

/-! ## SHA-1 -/

structure Sha1State where
  a : UInt32
  b : UInt32
  c : UInt32
  d : UInt32
  e : UInt32
  deriving DecidableEq

namespace Sha1

def initial : Sha1State := ⟨0x67452301, 0xefcdab89, 0x98badcfe, 0x10325476, 0xc3d2e1f0⟩

def f (t : ℕ) : UInt32 → UInt32 → UInt32 → UInt32 :=
  if t < 20 then ch else if t < 40 then parity else if t < 60 then maj else parity

def constant (t : ℕ) : UInt32 :=
  if t < 20 then 0x5a827999 else if t < 40 then 0x6ed9eba1 else if t < 60 then 0x8f1bbcdc
  else 0xca62c1d6

/-- The message schedule. -/
def schedule (block : List UInt8) (t : ℕ) : UInt32 :=
  if t < 16 then word block t
  else
    rotl 1 (schedule block (t - 3) ^^^ schedule block (t - 8) ^^^ schedule block (t - 14) ^^^
      schedule block (t - 16))
termination_by t

def round (t : ℕ) (w : UInt32) (s : Sha1State) : Sha1State :=
  ⟨rotl 5 s.a + f t s.b s.c s.d + s.e + constant t + w, s.a, rotl 30 s.b, s.c, s.d⟩

/-- The working variables in front of round `t`. -/
def rounds (w : ℕ → UInt32) (s : Sha1State) : ℕ → Sha1State
  | 0 => s
  | t + 1 => round t (w t) (rounds w s t)

def compress (s : Sha1State) (block : List UInt8) : Sha1State :=
  let r := rounds (schedule block) s 80
  ⟨s.a + r.a, s.b + r.b, s.c + r.c, s.d + r.d, s.e + r.e⟩

def bytes (s : Sha1State) : List UInt8 := [s.a, s.b, s.c, s.d, s.e].flatMap wordBytes

end Sha1

def sha1 (message : List UInt8) : List UInt8 :=
  Sha1.bytes ((blocks 64 (message ++ padding message.length)).foldl Sha1.compress Sha1.initial)

/-! ## SHA-256 -/

structure Sha256State where
  a : UInt32
  b : UInt32
  c : UInt32
  d : UInt32
  e : UInt32
  f : UInt32
  g : UInt32
  h : UInt32
  deriving DecidableEq

/-- The first 64 primes. -/
def primes : List ℕ :=
  (List.range 312).filter fun p => 2 ≤ p && (List.range' 2 (p - 2)).all fun d => p % d != 0

/-- The first 32 bits of the fractional part of the `n`-th root of `p`. -/
def rootFraction (n p : ℕ) : UInt32 := UInt32.ofNat (Nat.nthRoot n (p * 2 ^ (32 * n)))

/-- The digits behind the point of a root, from bounds of the root. -/
theorem rootFraction_eq {n p : ℕ} {k : UInt32} (i : ℕ)
    (hle : (i * 2 ^ 32 + k.toNat) ^ n ≤ p * 2 ^ (32 * n))
    (hlt : p * 2 ^ (32 * n) < (i * 2 ^ 32 + k.toNat + 1) ^ n) : rootFraction n p = k := by
  rw [rootFraction, Nat.nthRoot_eq_of_le_of_lt hle hlt, ← UInt32.toNat_inj, UInt32.toNat_ofNat']
  have hk := k.toNat_lt
  omega

theorem primes_eq : primes = [2, 3, 5, 7, 11, 13, 17, 19, 23, 29, 31, 37, 41, 43, 47, 53, 59, 61,
    67, 71, 73, 79, 83, 89, 97, 101, 103, 107, 109, 113, 127, 131, 137, 139, 149, 151, 157, 163,
    167, 173, 179, 181, 191, 193, 197, 199, 211, 223, 227, 229, 233, 239, 241, 251, 257, 263, 269,
    271, 277, 281, 283, 293, 307, 311] := by
  have hsmall : ∀ q, q.Prime → q < 18 → q ∈ [2, 3, 5, 7, 11, 13, 17] := by
    intro q hq hlt
    interval_cases q <;> first | decide | (norm_num at hq)
  -- a number below 18 * 18 that is not a prime has a divisor among the primes below 18
  have htrial : ∀ p ∈ List.range 312, (decide (2 ≤ p) && (List.range' 2 (p - 2)).all
      fun d => p % d != 0) = (decide (2 ≤ p) && [2, 3, 5, 7, 11, 13, 17].all
        fun d => decide (p ≤ d) || p % d != 0) := by
    intro p hp
    have hp312 := List.mem_range.1 hp
    by_cases h2 : 2 ≤ p
    · rw [decide_eq_true h2, Bool.true_and, Bool.true_and, Bool.eq_iff_iff, List.all_eq_true,
        List.all_eq_true]
      constructor
      · intro h d hd
        have hd2 : 2 ≤ d := by
          revert d
          decide
        by_cases hle : p ≤ d
        · rw [decide_eq_true hle, Bool.true_or]
        · rw [h d (List.mem_range'_1.2 (by omega)), Bool.or_true]
      · intro h d hd
        by_contra hdvd
        have hrange := List.mem_range'_1.1 hd
        rw [bne_iff_ne, ne_eq, not_not] at hdvd
        have hnot : ¬ p.Prime := fun hprime =>
          (hprime.eq_one_or_self_of_dvd d (Nat.dvd_of_mod_eq_zero hdvd)).elim (by omega) (by omega)
        have hsq := Nat.minFac_sq_le_self (by omega) hnot
        have hfactor := Nat.minFac_dvd p
        have hprime := Nat.minFac_prime (n := p) (by omega)
        have hlt : p.minFac < 18 := by nlinarith
        have hself : p.minFac < p := by nlinarith [hprime.two_le]
        have hq := h _ (hsmall _ hprime hlt)
        rw [Nat.mod_eq_zero_of_dvd hfactor, decide_eq_false (by omega)] at hq
        cases hq
    · rw [decide_eq_false h2, Bool.false_and, Bool.false_and]
  rw [primes, List.filter_congr htrial]
  decide +kernel

theorem map_rootFraction {n : ℕ} {ps : List ℕ} {ks : List UInt32}
    (h : List.Forall₂ (fun p k => ∃ i < 18, (i * 2 ^ 32 + k.toNat) ^ n ≤ p * 2 ^ (32 * n) ∧
      p * 2 ^ (32 * n) < (i * 2 ^ 32 + k.toNat + 1) ^ n) ps ks) : ks = ps.map (rootFraction n) := by
  induction h with
  | nil => rfl
  | cons hroot _ ih =>
    obtain ⟨i, _, hle, hlt⟩ := hroot
    rw [List.map_cons, rootFraction_eq i hle hlt, ih]

namespace Sha256

/-- The square roots of the first 8 primes. -/
def initial : Sha256State :=
  let root (i : ℕ) := rootFraction 2 (primes.getD i 0)
  ⟨root 0, root 1, root 2, root 3, root 4, root 5, root 6, root 7⟩

/-- The cube roots of the first 64 primes. -/
def constant (t : ℕ) : UInt32 := rootFraction 3 (primes.getD t 0)

def bigSigma0 (x : UInt32) : UInt32 := rotr 2 x ^^^ rotr 13 x ^^^ rotr 22 x

def bigSigma1 (x : UInt32) : UInt32 := rotr 6 x ^^^ rotr 11 x ^^^ rotr 25 x

def smallSigma0 (x : UInt32) : UInt32 := rotr 7 x ^^^ rotr 18 x ^^^ x >>> 3

def smallSigma1 (x : UInt32) : UInt32 := rotr 17 x ^^^ rotr 19 x ^^^ x >>> 10

/-- The message schedule. -/
def schedule (block : List UInt8) (t : ℕ) : UInt32 :=
  if t < 16 then word block t
  else
    smallSigma1 (schedule block (t - 2)) + schedule block (t - 7) +
      smallSigma0 (schedule block (t - 15)) + schedule block (t - 16)
termination_by t

def round (t : ℕ) (w : UInt32) (s : Sha256State) : Sha256State :=
  let t1 := s.h + bigSigma1 s.e + ch s.e s.f s.g + constant t + w
  let t2 := bigSigma0 s.a + maj s.a s.b s.c
  ⟨t1 + t2, s.a, s.b, s.c, s.d + t1, s.e, s.f, s.g⟩

/-- The working variables in front of round `t`. -/
def rounds (w : ℕ → UInt32) (s : Sha256State) : ℕ → Sha256State
  | 0 => s
  | t + 1 => round t (w t) (rounds w s t)

def compress (s : Sha256State) (block : List UInt8) : Sha256State :=
  let r := rounds (schedule block) s 64
  ⟨s.a + r.a, s.b + r.b, s.c + r.c, s.d + r.d, s.e + r.e, s.f + r.f, s.g + r.g, s.h + r.h⟩

def bytes (s : Sha256State) : List UInt8 :=
  [s.a, s.b, s.c, s.d, s.e, s.f, s.g, s.h].flatMap wordBytes

end Sha256

def sha256 (message : List UInt8) : List UInt8 :=
  Sha256.bytes
    ((blocks 64 (message ++ padding message.length)).foldl Sha256.compress Sha256.initial)

end Fips180
