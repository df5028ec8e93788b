import Mathlib.Data.Nat.Bitwise
import Brickred.Lib.SlidingWindow
import Brickred.Lib.XorShift
import Brickred.Random

/-!
# The word generator of `Random`

`nextInt` makes 624 words at one time, in the array that holds the last 624, and tempers one of
them for each call.  Seen from outside it is a window of 624 words that slides by one word a call.

* `nextInt_spec` — a call tempers the first word of the window and slides it.
* `word_eq`, `term_rule` — the words of all calls, and the recurrence behind them.
* `untemper_temper` — tempering is undone.
* `mix_reversible` — a word of the recurrence tells the bits that it was made of.
-/

set_option autoImplicit false

namespace Brickred

namespace Random

open SlidingWindow

/-- A word of the recurrence: of the upper bit of one word, the lower bits of the next and a
far one. -/
def mix (word next far : UInt32) : UInt32 :=
  let y := word &&& 0x80000000 ||| next &&& 0x7fffffff
  far ^^^ y >>> 1 ^^^ if y &&& 1 = 0 then 0 else 0x9908b0df

/-- One turn of the window. -/
def turn : List UInt32 → List UInt32 := slide mix m 0

/-- The words of the recurrence that starts with the window. -/
def term (w : List UInt32) (k : Nat) : UInt32 := SlidingWindow.term mix m 0 w k

/-- The words that the next 624 calls temper. -/
def window (r : Random) : List UInt32 := turn^[r.mti] r.mt

/-- The array has its 624 words, and `mti_` is a place in it or just behind. -/
structure Valid (r : Random) : Prop where
  length : r.mt.length = n
  mti : r.mti ≤ n

/-- The word that the `k`-th call from now returns. -/
def word (r : Random) (k : Nat) : UInt32 := ((fun r => r.nextInt.2)^[k] r).nextInt.1

/-! ## In place -/

section Generate

variable {w : List UInt32}

theorem twist_eq (w : List UInt32) (i next far : Nat) :
    twist w i next far = w.set i (mix (w.getD i 0) (w.getD next 0) (w.getD far 0)) := rfl

/-- A loop whose indices are those of the recurrence, taken modulo the length. -/
theorem foldl_twist {is : List Nat} {next far : Nat → Nat}
    (h : ∀ i ∈ is, next i = (i + 1) % n ∧ far i = (i + m) % n) (hlength : w.length = n) :
    is.foldl (fun mt i => twist mt i (next i) (far i)) w = is.foldl (refresh mix m 0) w := by
  induction is generalizing w with
  | nil => rfl
  | cons i is ih =>
    obtain ⟨hnext, hfar⟩ := h i (List.mem_cons_self ..)
    have hfirst : twist w i (next i) (far i) = refresh mix m 0 w i := by
      rw [twist_eq, refresh, hlength, hnext, hfar]
    rw [List.foldl_cons, List.foldl_cons, hfirst]
    exact ih (fun j hj => h j (List.mem_cons_of_mem _ hj)) (by rw [length_refresh, hlength])

/-- The two loops and the last word go through the array once. -/
theorem range_n :
    List.range n = List.range (n - m) ++ (List.range' (n - m) (m - 1) ++ [n - 1]) := by
  have hlast : n - 1 = n - m + (m - 1) := by decide
  rw [hlast, ← List.range'_1_concat, List.range_eq_range', List.range_eq_range']
  have happend := @List.range'_append_1 0 (n - m) (m - 1 + 1)
  rw [Nat.zero_add] at happend
  rw [happend]
  rfl

/-- **The block is made by sliding the window 624 times.** -/
theorem generate_eq (hlength : w.length = n) : generate w = turn^[n] w := by
  have hall := refreshAll_eq (f := mix) (m := m) (d := 0) (w := w) (by decide)
    (by rw [hlength]; decide)
  rw [hlength] at hall
  rw [turn, ← hall, refreshAll, hlength, range_n, List.foldl_append, List.foldl_append]
  have hfirst : (List.range (n - m)).foldl (fun mt i => twist mt i (i + 1) (i + m)) w =
      (List.range (n - m)).foldl (refresh mix m 0) w := by
    refine @foldl_twist _ _ (fun i => i + 1) (fun i => i + m) (fun i hi => ?_) hlength
    rw [List.mem_range] at hi
    unfold n m at *
    omega
  have hsecond : ∀ v : List UInt32, v.length = n →
      (List.range' (n - m) (m - 1)).foldl (fun mt i => twist mt i (i + 1) (i + m - n)) v =
        (List.range' (n - m) (m - 1)).foldl (refresh mix m 0) v := by
    intro v hv
    refine @foldl_twist _ _ (fun i => i + 1) (fun i => i + m - n) (fun i hi => ?_) hv
    rw [List.mem_range'_1] at hi
    unfold n m at *
    omega
  have hlast : ∀ v : List UInt32, v.length = n →
      twist v (n - 1) 0 (m - 1) = refresh mix m 0 v (n - 1) := by
    intro v hv
    have hnext : (n - 1 + 1) % n = 0 := by decide
    have hfar : (n - 1 + m) % n = m - 1 := by decide
    rw [twist_eq, refresh, hv, hnext, hfar]
  rw [generate, hfirst, hsecond _ (by rw [length_foldl_refresh, hlength]), hlast,
    List.foldl_cons, List.foldl_nil]
  · rw [length_foldl_refresh, length_foldl_refresh, hlength]

end Generate

/-! ## A call -/

section NextInt

variable {r : Random}

theorem Valid.length_window (h : r.Valid) : r.window.length = n := by
  rw [window, turn, length_iterate_slide (by rw [h.length]; decide), h.length]

theorem window_new (mt : List UInt32) : window ⟨mt, 0⟩ = mt := rfl

/-- **What a call does**: it tempers the first word of the window and slides it. -/
theorem nextInt_spec (h : r.Valid) :
    r.nextInt.1 = temper (r.window.getD 0 0) ∧ r.nextInt.2.window = turn r.window ∧
      r.nextInt.2.Valid := by
  -- the state after the block is made anew, if it has to be
  obtain ⟨s, hs, hvalid, hlt, hwindow⟩ : ∃ s : Random,
      (if r.mti ≥ n then ⟨generate r.mt, 0⟩ else r) = s ∧ s.Valid ∧ s.mti < n ∧
        s.window = r.window := by
    by_cases hge : r.mti ≥ n
    · have hmti : r.mti = n := Nat.le_antisymm h.mti hge
      have hlength : (generate r.mt).length = n := by
        rw [generate_eq h.length, turn, length_iterate_slide (by rw [h.length]; decide), h.length]
      refine ⟨⟨generate r.mt, 0⟩, if_pos hge, ⟨?_, Nat.zero_le _⟩, Nat.zero_lt_succ _, ?_⟩
      · dsimp only
        exact hlength
      rw [window_new, window, hmti, generate_eq h.length]
    · exact ⟨r, if_neg hge, h, Nat.lt_of_not_ge hge, rfl⟩
  have hcall : r.nextInt = (temper (s.mt.getD s.mti 0), { s with mti := s.mti + 1 }) := by
    rw [nextInt, hs]
  rw [hcall, ← hwindow]
  refine ⟨?_, ?_, ⟨hvalid.length, hlt⟩⟩
  · have hterm := term_of_lt (f := mix) (m := m) (d := 0) (by rw [hvalid.length]; exact hlt)
    exact congrArg temper hterm.symm
  · exact Function.iterate_succ_apply' turn s.mti s.mt

theorem nextInt_valid (h : r.Valid) : r.nextInt.2.Valid := (nextInt_spec h).2.2

theorem iterate_nextInt (h : r.Valid) (k : Nat) :
    ((fun r => r.nextInt.2)^[k] r).Valid ∧
      ((fun r => r.nextInt.2)^[k] r).window = turn^[k] r.window := by
  induction k with
  | zero => exact ⟨h, rfl⟩
  | succ k ih =>
    rw [Function.iterate_succ_apply', Function.iterate_succ_apply', ← ih.2]
    exact ⟨nextInt_valid ih.1, (nextInt_spec ih.1).2.1⟩

/-- **The words of all calls** are the tempered words of the recurrence. -/
theorem word_eq (h : r.Valid) (k : Nat) : r.word k = temper (term r.window k) := by
  obtain ⟨hvalid, hwindow⟩ := iterate_nextInt h k
  rw [word, (nextInt_spec hvalid).1, hwindow]
  rfl

theorem term_rule {w : List UInt32} (h : w.length = n) (k : Nat) :
    term w (k + n) = mix (term w k) (term w (k + 1)) (term w (k + m)) := by
  have hterm := term_add (f := mix) (m := m) (d := 0) (w := w) (by rw [h]; decide)
    (by rw [h]; decide) k
  rwa [h] at hterm

end NextInt

/-! ## Tempering, undone -/

section Temper

open XorShift

def untemper (z : UInt32) : UInt32 :=
  ⟨undo (fun u => u >>> 11) 2
    (undo (fun u => u <<< 7 &&& 0x9d2c5680) 4
      (undo (fun u => u <<< 15 &&& 0xefc60000) 2
        (undo (fun u => u >>> 18) 1 z.toBitVec)))⟩

theorem untemper_temper (y : UInt32) : untemper (temper y) = y := by
  have hbits : (temper y).toBitVec =
      let a := y.toBitVec ^^^ y.toBitVec >>> 11
      let b := a ^^^ (a <<< 7 &&& 0x9d2c5680)
      let c := b ^^^ (b <<< 15 &&& 0xefc60000)
      c ^^^ c >>> 18 := rfl
  rw [untemper, hbits, undo_shiftRight (by decide), undo_shiftLeft_and (by decide),
    undo_shiftLeft_and (by decide), undo_shiftRight (by decide)]

theorem temper_injective {x y : UInt32} (h : temper x = temper y) : x = y := by
  rw [← untemper_temper x, h, untemper_temper]

end Temper

/-! ## Words that tell what they were made of -/

section Mix

def upper (x : UInt32) : UInt32 := x &&& 0x80000000

def lower (x : UInt32) : UInt32 := x &&& 0x7fffffff

/-- What the upper bit of a word and the lower bits of the next add to a far one. -/
def fold (y : UInt32) : UInt32 := y >>> 1 ^^^ if y &&& 1 = 0 then 0 else 0x9908b0df

theorem mix_eq (word next far : UInt32) :
    mix word next far = far ^^^ fold (upper word ||| lower next) :=
  UInt32.xor_assoc ..

theorem or_and (x y z : UInt32) : (x ||| y) &&& z = x &&& z ||| y &&& z :=
  UInt32.toBitVec_inj.1 BitVec.and_or_distrib_right

theorem xor_and (x y z : UInt32) : (x ^^^ y) &&& z = (x &&& z) ^^^ (y &&& z) := by
  refine UInt32.toBitVec_inj.1 (BitVec.eq_of_getElem_eq fun i hi => ?_)
  simp [Bool.and_xor_distrib_right]

theorem upper_or_lower (x : UInt32) : upper x ||| lower x = x := by
  have hall : (0x80000000 : UInt32) ||| 0x7fffffff = -1 := rfl
  rw [upper, lower, UInt32.and_comm x, UInt32.and_comm x, ← or_and, hall, UInt32.neg_one_and]

theorem upper_join (x y : UInt32) : upper (upper x ||| lower y) = upper x := by
  have hnone : (0x7fffffff : UInt32) &&& 0x80000000 = 0 := rfl
  rw [upper, or_and, upper, lower, UInt32.and_assoc, UInt32.and_self, UInt32.and_assoc, hnone,
    UInt32.and_zero, UInt32.or_zero]

theorem lower_join (x y : UInt32) : lower (upper x ||| lower y) = lower y := by
  have hnone : (0x80000000 : UInt32) &&& 0x7fffffff = 0 := rfl
  rw [lower, or_and, upper, lower, UInt32.and_assoc, UInt32.and_assoc, UInt32.and_self, hnone,
    UInt32.and_zero, UInt32.zero_or]

theorem toNat_half (y : UInt32) : (y >>> 1).toNat = y.toNat / 2 := by
  rw [UInt32.toNat_shiftRight, Nat.shiftRight_eq_div_pow]
  rfl

theorem even_iff (y : UInt32) : y &&& 1 = 0 ↔ y.toNat % 2 = 0 := by
  rw [← UInt32.toNat_inj, UInt32.toNat_and]
  exact Iff.of_eq (congrArg (· = 0) (Nat.and_one_is_mod _))

theorem upper_half (y : UInt32) : upper (y >>> 1) = 0 := by
  have hlt : y.toNat / 2 < 2 ^ 31 := by
    have := y.toNat_lt
    omega
  have hand : y.toNat / 2 &&& 2 ^ 31 = 0 := by
    rw [Nat.and_two_pow, Nat.testBit_lt_two_pow hlt]
    rfl
  refine UInt32.toNat_inj.1 ?_
  rw [upper, UInt32.toNat_and, toNat_half]
  exact hand

/-- The upper bit of what is added tells the lowest one of what it was made of. -/
theorem upper_fold (y : UInt32) : upper (fold y) = if y &&& 1 = 0 then 0 else 0x80000000 := by
  have hhalf := upper_half y
  rw [upper] at hhalf
  rw [fold, upper, xor_and, hhalf, UInt32.zero_xor]
  split <;> rfl

theorem fold_injective {y z : UInt32} (h : fold y = fold z) : y = z := by
  have heven : y &&& 1 = 0 ↔ z &&& 1 = 0 := by
    have hupper := congrArg upper h
    rw [upper_fold, upper_fold] at hupper
    by_cases hy : y &&& 1 = 0 <;> by_cases hz : z &&& 1 = 0 <;> simp [hy, hz] at hupper ⊢
  have hhalf : y >>> 1 = z >>> 1 := by
    rw [fold, fold] at h
    by_cases hy : y &&& 1 = 0
    · rwa [if_pos hy, if_pos (heven.1 hy), UInt32.xor_zero, UInt32.xor_zero] at h
    · rwa [if_neg hy, if_neg (heven.not.1 hy), UInt32.xor_left_inj] at h
  have hnat := congrArg UInt32.toNat hhalf
  rw [toNat_half, toNat_half] at hnat
  rw [even_iff, even_iff] at heven
  refine UInt32.toNat_inj.1 ?_
  omega

/-- **Reversible**: a word tells the upper bit of the first word it was made of and the lower bits
of the second. -/
theorem mix_reversible : Reversible mix upper lower where
  eq_iff word next far word' next' := by
    rw [mix_eq, mix_eq, UInt32.xor_right_inj]
    constructor
    · intro h
      have hjoin := fold_injective h
      exact ⟨by rw [← upper_join word next, hjoin, upper_join],
        by rw [← lower_join word next, hjoin, lower_join]⟩
    · rintro ⟨hupper, hlower⟩
      rw [hupper, hlower]
  join x y hupper hlower := by rw [← upper_or_lower x, hupper, hlower, upper_or_lower]

end Mix

end Random

end Brickred
