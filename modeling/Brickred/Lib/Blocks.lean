import Mathlib.Data.List.TakeDrop
import Mathlib.Tactic.Ring

/-!
# Cutting a list into blocks

`blocks n bs` are the whole blocks of `n` elements, `rest n bs` what is left behind them.

* `blocks_append`, `blocks_cons` — a front that fills its blocks.
* `blocks_split`, `rest_split` — a list that grows at its end.
-/

set_option autoImplicit false

namespace Blocks

variable {β : Type*}

/-- The whole blocks of `n` elements. -/
def blocks (n : ℕ) (bs : List β) : List (List β) :=
  (List.range (bs.length / n)).map fun i => (bs.drop (i * n)).take n

/-- What is left behind the last whole block. -/
def rest (n : ℕ) (bs : List β) : List β := bs.drop (bs.length / n * n)

variable {n : ℕ} {as bs : List β}

theorem blocks_short (h : bs.length < n) : blocks n bs = [] := by
  rw [blocks, Nat.div_eq_of_lt h]; rfl

theorem rest_short (h : bs.length < n) : rest n bs = bs := by
  rw [rest, Nat.div_eq_of_lt h, Nat.zero_mul, List.drop_zero]

theorem rest_length (n : ℕ) (bs : List β) : (rest n bs).length = bs.length % n := by
  rw [rest, List.length_drop, Nat.mod_eq_sub_div_mul]

theorem rest_eq_nil (h : n ∣ bs.length) : rest n bs = [] :=
  List.length_eq_zero_iff.1 (by rw [rest_length, Nat.mod_eq_zero_of_dvd h])

theorem blocks_append (hn : 0 < n) (h : n ∣ as.length) :
    blocks n (as ++ bs) = blocks n as ++ blocks n bs := by
  obtain ⟨k, hk⟩ := h
  have hdiv : as.length / n = k := by rw [hk, Nat.mul_div_cancel_left _ hn]
  have hsum : (as ++ bs).length / n = k + bs.length / n := by
    rw [List.length_append, hk, Nat.mul_add_div hn]
  rw [blocks, hsum, List.range_add, List.map_append, List.map_map, blocks, hdiv, blocks]
  congr 1
  · refine List.map_congr_left fun i hi => ?_
    have hle : i * n + n ≤ as.length := by
      rw [hk, ← Nat.succ_mul, Nat.mul_comm n k]
      exact Nat.mul_le_mul_right n (List.mem_range.1 hi)
    rw [List.drop_append_of_le_length (by omega), List.take_append_of_le_length]
    rw [List.length_drop]
    omega
  · refine List.map_congr_left fun i _ => ?_
    have hskip : (k + i) * n = as.length + i * n := by rw [hk]; ring
    simp only [Function.comp_apply]
    rw [hskip, ← List.drop_drop, List.drop_left]

theorem blocks_one (h : bs.length = n) (hn : 0 < n) : blocks n bs = [bs] := by
  rw [blocks, h, Nat.div_self hn, List.range_one, List.map_singleton, Nat.zero_mul, List.drop_zero,
    ← h, List.take_length]

theorem blocks_cons (hn : 0 < n) (h : n ≤ bs.length) :
    blocks n bs = bs.take n :: blocks n (bs.drop n) := by
  have hlen : (bs.take n).length = n := by rw [List.length_take, Nat.min_eq_left h]
  conv_lhs => rw [← List.take_append_drop n bs]
  rw [blocks_append hn (Dvd.intro 1 (by omega)), blocks_one hlen hn, List.singleton_append]

theorem rest_cons (hn : 0 < n) (h : n ≤ bs.length) : rest n bs = rest n (bs.drop n) := by
  have hdiv : bs.length / n = (bs.length - n) / n + 1 := by
    rw [← Nat.add_div_right _ hn, Nat.sub_add_cancel h]
  rw [rest, rest, hdiv, Nat.succ_mul, Nat.add_comm, ← List.drop_drop, List.length_drop]

/-- The blocks of a message end where its rest begins. -/
theorem blocks_split (hn : 0 < n) (as bs : List β) :
    blocks n (as ++ bs) = blocks n as ++ blocks n (rest n as ++ bs) := by
  have hle : as.length / n * n ≤ as.length := Nat.div_mul_le_self _ _
  have hdvd : n ∣ (as.take (as.length / n * n)).length := by
    rw [List.length_take, Nat.min_eq_left hle]
    exact Nat.dvd_mul_left _ _
  have hsplit : as.take (as.length / n * n) ++ rest n as = as := List.take_append_drop _ _
  have hshort : blocks n (rest n as) = [] := blocks_short (by
    rw [rest_length]; exact Nat.mod_lt _ hn)
  have hblocks : blocks n as = blocks n (as.take (as.length / n * n)) := by
    conv_lhs => rw [← hsplit]
    rw [blocks_append hn hdvd, hshort, List.append_nil]
  rw [hblocks, ← blocks_append hn hdvd, ← List.append_assoc, hsplit]

theorem rest_split (hn : 0 < n) (as bs : List β) :
    rest n (as ++ bs) = rest n (rest n as ++ bs) := by
  have hle : as.length / n * n ≤ as.length := Nat.div_mul_le_self _ _
  have hlen : (as ++ bs).length = (rest n as ++ bs).length + as.length / n * n := by
    have hmod := Nat.div_add_mod' as.length n
    rw [List.length_append, List.length_append, rest_length]
    omega
  have hsum : (as ++ bs).length / n = as.length / n + (rest n as ++ bs).length / n := by
    rw [hlen, Nat.add_mul_div_right _ _ hn, Nat.add_comm]
  rw [rest, hsum, Nat.add_mul, ← List.drop_drop, List.drop_append_of_le_length hle]
  rfl

end Blocks
