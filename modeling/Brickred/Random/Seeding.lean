import Brickred.MachineInt
import Brickred.Random.Generator

/-!
# Seeding a `Random`

`seed(s)` fills the array from one word.  `seed(key, key_length)` fills it from a constant and
then goes through it twice, stirring in the words of the key in turn and then the indices.

* `Random.seed`, `seedKey` — the two, `none` where `key[j]` is not a word of the key.
* `seed_spec`, `seedKey_spec` — what is left is a full array; only an empty key is read
  behind its end.
* `seed_eq` — nothing of the array before is left.
* `getD_seedKey` — what the two loops leave, word by word.
* `seed_injective`, `seedKey_injective` — the words tell the seed.
-/

set_option autoImplicit false

namespace Brickred

namespace Random

/-! ## The two functions -/

/-- `x ^ (x >> 30)` -/
def whiten (x : UInt32) : UInt32 := x ^^^ x >>> 30

/-- `mt_[i]` made of the word before it. -/
def seedTurn (mt : List UInt32) (i : Nat) : List UInt32 :=
  mt.set i (1812433253 * whiten (mt.getD (i - 1) 0) + UInt32.ofNat i)

def seed (r : Random) (s : UInt32) : Random :=
  ⟨(List.range' 1 (n - 1)).foldl seedTurn (r.mt.set 0 s), n⟩

/-- `(int)key_length` -/
def usable (key : List UInt32) : Int := toInt key.length

/-- What both loops make of `mt_[i]` and the word before it. -/
def stir (c : UInt32) (mt : List UInt32) (i : Nat) : UInt32 :=
  mt.getD i 0 ^^^ whiten (mt.getD (i - 1) 0) * c

/-- `++i`, and back to the start of the array. -/
def advance (mt : List UInt32) (i : Nat) : List UInt32 × Nat :=
  if i + 1 ≥ n then (mt.set 0 (mt.getD (n - 1) 0), 1) else (mt, i + 1)

/-- The array and the indices of the first loop. -/
structure Mixing where
  mt : List UInt32
  i : Nat
  j : Nat

/-- A turn of the first loop. -/
def keyTurn (key : List UInt32) (s : Mixing) : Option Mixing :=
  match key[s.j]? with
  | none => none
  | some word =>
    let mt := s.mt.set s.i (stir 1664525 s.mt s.i + word + UInt32.ofNat s.j)
    let (mt, i) := advance mt s.i
    some ⟨mt, i, if (s.j + 1 : Int) ≥ usable key then 0 else s.j + 1⟩

def keyTurns (key : List UInt32) : Nat → Mixing → Option Mixing
  | 0, s => some s
  | k + 1, s =>
    match keyTurn key s with
    | none => none
    | some s => keyTurns key k s

/-- A turn of the second loop. -/
def indexTurn (s : List UInt32 × Nat) : List UInt32 × Nat :=
  advance (s.1.set s.2 (stir 1566083941 s.1 s.2 - UInt32.ofNat s.2)) s.2

/-- `k` at the start of the first loop. -/
def rounds (key : List UInt32) : Nat :=
  if (n : Int) > usable key then n else (usable key).toNat

/-- The second loop, and the word that is not zero. -/
def finish (s : Mixing) : List UInt32 := (indexTurn^[n - 1] (s.mt, s.i)).1.set 0 0x80000000

/-- `seed(key, key_length)` -/
def seedKey (r : Random) (key : List UInt32) : Option Random :=
  (keyTurns key (rounds key) ⟨(r.seed 19650218).mt, 1, 0⟩).map fun s => ⟨finish s, n⟩

/-! ## Sweeping through an array -/

section Sweep

/-- A word for each index, made of the one before it. -/
def sweep (g : Nat → UInt32 → UInt32) (first : UInt32) : Nat → UInt32
  | 0 => first
  | i + 1 => g (i + 1) (sweep g first i)

theorem getD_set {mt : List UInt32} {i : Nat} (h : i < mt.length) (v : UInt32) (j : Nat) :
    (mt.set i v).getD j 0 = if j = i then v else mt.getD j 0 := by
  by_cases hj : j = i
  · subst hj
    simp [h]
  · rw [if_neg hj]
    simp [List.getElem?_set_ne (Ne.symm hj)]

end Sweep

/-! ## What `seed(s)` leaves -/

section Seed

variable {r : Random}

/-- The words after `s`. -/
def seedTerm (s : UInt32) : Nat → UInt32 :=
  sweep (fun i before => 1812433253 * whiten before + UInt32.ofNat i) s

theorem seed_mt (r : Random) (s : UInt32) :
    (r.seed s).mt = (List.range' 1 (n - 1)).foldl seedTurn (r.mt.set 0 s) := by
  rw [seed]

theorem foldl_seed {mt : List UInt32} {s : UInt32} (hlength : mt.length = n)
    (hfirst : mt.getD 0 0 = s) {t : Nat} (ht : t < n) :
    ((List.range' 1 t).foldl seedTurn mt).length = n ∧
      ∀ j, j ≤ t → ((List.range' 1 t).foldl seedTurn mt).getD j 0 = seedTerm s j := by
  induction t with
  | zero =>
    refine ⟨hlength, fun j hj => ?_⟩
    rw [Nat.le_zero.1 hj]
    exact hfirst
  | succ t ih =>
    obtain ⟨hlen, hterms⟩ := ih (by omega)
    rw [List.range'_1_concat, List.foldl_append, List.foldl_cons, List.foldl_nil, seedTurn,
      Nat.add_comm 1 t, Nat.add_sub_cancel, hterms t (Nat.le_refl t)]
    refine ⟨by rw [List.length_set, hlen], fun j hj => ?_⟩
    rw [getD_set (by rw [hlen]; exact ht)]
    by_cases hjt : j = t + 1
    · rw [if_pos hjt, hjt]
      rfl
    · rw [if_neg hjt, hterms j (by omega)]

theorem seed_spec (h : r.mt.length = n) (s : UInt32) :
    (r.seed s).Valid ∧ ∀ j, j < n → (r.seed s).mt.getD j 0 = seedTerm s j := by
  have hset : (r.mt.set 0 s).getD 0 0 = s := by
    rw [getD_set (by rw [h]; decide), if_pos rfl]
  obtain ⟨hlength, hterms⟩ := foldl_seed (by rw [List.length_set, h]) hset
    (Nat.sub_one_lt (by decide : n ≠ 0))
  refine ⟨⟨?_, Nat.le_refl n⟩, fun j hj => ?_⟩
  · rw [seed_mt, hlength]
  · rw [seed_mt, hterms j (Nat.le_sub_one_of_lt hj)]

theorem valid_mk {mt : List UInt32} (h : mt.length = n) : Valid ⟨mt, n⟩ := ⟨h, Nat.le_refl n⟩

/-- Arrays of one length with the same words are the same. -/
theorem eq_of_getD {mt mt' : List UInt32} (h : mt.length = n) (h' : mt'.length = n)
    (hsame : ∀ j, j < n → mt.getD j 0 = mt'.getD j 0) : mt = mt' := by
  refine List.ext_getElem (by rw [h, h']) fun j hj hj' => ?_
  rw [← List.getD_eq_getElem _ 0 hj, ← List.getD_eq_getElem _ 0 hj']
  exact hsame j (h ▸ hj)

/-- **Seeding forgets** what the array held. -/
theorem seed_eq {r' : Random} (h : r.mt.length = n) (h' : r'.mt.length = n) (s : UInt32) :
    r.seed s = r'.seed s := by
  obtain ⟨hvalid, hterms⟩ := seed_spec h s
  obtain ⟨hvalid', hterms'⟩ := seed_spec h' s
  have harray := eq_of_getD hvalid.length hvalid'.length fun j hj => by
    rw [hterms j hj, hterms' j hj]
  rw [seed_mt, seed_mt] at harray
  rw [seed, seed, harray]

theorem whiten_injective {x y : UInt32} (h : whiten x = whiten y) : x = y := by
  have hundo : ∀ z : UInt32, XorShift.undo (fun u => u >>> 30) 1 (whiten z).toBitVec =
      z.toBitVec := fun z => XorShift.undo_shiftRight (by decide) z.toBitVec
  refine UInt32.toBitVec_inj.1 ?_
  rw [← hundo x, h, hundo]

/-- The factor is odd, so that it can be divided by. -/
theorem seed_injective {s s' : UInt32} (h : seedTerm s 1 = seedTerm s' 1) : s = s' := by
  have hinverse : (2520285293 : UInt32) * 1812433253 = 1 := rfl
  have hproduct : 1812433253 * whiten s = 1812433253 * whiten s' := UInt32.add_left_inj _ |>.1 h
  have hmul := congrArg (2520285293 * ·) hproduct
  simp only [← UInt32.mul_assoc, hinverse, UInt32.one_mul] at hmul
  exact whiten_injective hmul

end Seed

/-! ## Where `seed(key, key_length)` reads -/

section InBounds

variable {key : List UInt32}

theorem usable_le (key : List UInt32) : usable key ≤ key.length := toInt_le (Int.natCast_nonneg _)

theorem keyTurn_eq {s : Mixing} (hj : s.j < key.length) :
    keyTurn key s = some ⟨(advance (s.mt.set s.i
        (stir 1664525 s.mt s.i + key.getD s.j 0 + UInt32.ofNat s.j)) s.i).1,
      (advance (s.mt.set s.i (stir 1664525 s.mt s.i + key.getD s.j 0 + UInt32.ofNat s.j)) s.i).2,
      if (s.j + 1 : Int) ≥ usable key then 0 else s.j + 1⟩ := by
  have hword : key[s.j]? = some (key.getD s.j 0) := by
    rw [List.getElem?_eq_getElem hj, List.getD_eq_getElem _ _ hj]
  rw [keyTurn, hword]

theorem length_advance (mt : List UInt32) (i : Nat) : (advance mt i).1.length = mt.length := by
  unfold advance
  split <;> simp

/-- A loop over a key that has a word never reads behind it, and keeps the array. -/
theorem keyTurns_isSome {k i j : Nat} {mt : List UInt32} (hlength : mt.length = n)
    (hj : j < key.length) : ∃ t, keyTurns key k ⟨mt, i, j⟩ = some t ∧ t.mt.length = n := by
  induction k generalizing mt i j with
  | zero => exact ⟨_, rfl, hlength⟩
  | succ k ih =>
    rw [keyTurns, keyTurn_eq hj]
    refine ih ?_ ?_
    · rw [length_advance, List.length_set, hlength]
    · have hle := usable_le key
      dsimp only
      split <;> omega

theorem length_iterate_indexTurn (s : List UInt32 × Nat) (k : Nat) :
    (indexTurn^[k] s).1.length = s.1.length := by
  induction k with
  | zero => rfl
  | succ k ih =>
    rw [Function.iterate_succ_apply', ← ih, indexTurn, length_advance, List.length_set]

theorem length_finish {s : Mixing} (h : s.mt.length = n) : (finish s).length = n := by
  rw [finish, List.length_set, length_iterate_indexTurn, h]

theorem rounds_pos (key : List UInt32) : 0 < rounds key := by
  unfold rounds
  split
  · decide
  · unfold n at *
    omega

theorem keyTurns_nil {k : Nat} (hk : 0 < k) (s : Mixing) : keyTurns [] k s = none := by
  cases k with
  | zero => cases hk
  | succ k => rfl

/-- **What is read of a key** is a word of it, unless the key is empty; what is left is a full
array. -/
theorem seedKey_spec {r : Random} (h : r.mt.length = n) (key : List UInt32) :
    (r.seedKey key = none ↔ key = []) ∧ ∀ t, r.seedKey key = some t → t.Valid := by
  have hlength := (seed_spec h 19650218).1.length
  by_cases hkey : key = []
  · have hnone : r.seedKey key = none := by
      rw [seedKey, hkey, keyTurns_nil (rounds_pos _), Option.map_none]
    exact ⟨iff_of_true hnone hkey, fun t ht => by rw [hnone] at ht; cases ht⟩
  · obtain ⟨s, hs, hmt⟩ := keyTurns_isSome (k := rounds key) (i := 1) hlength
      (List.length_pos_iff.2 hkey)
    have hsome : r.seedKey key = some ⟨finish s, n⟩ := by
      rw [seedKey, hs, Option.map_some]
    refine ⟨iff_of_false (by rw [hsome]; simp) hkey, fun t ht => ?_⟩
    rw [hsome, Option.some.injEq] at ht
    subst ht
    exact valid_mk (length_finish hmt)

end InBounds

/-! ## What `seed(key, key_length)` leaves -/

section Key

variable {key : List UInt32}

/-- `key[j] + j`, of the `i`-th turn. -/
def keyWord (key : List UInt32) (i : Nat) : UInt32 :=
  key.getD (i % key.length) 0 + UInt32.ofNat (i % key.length)

/-- The words the first loop leaves, before it comes back to `mt_[1]`. -/
def keyTerm (key : List UInt32) : Nat → UInt32 :=
  sweep (fun i before =>
    (seedTerm 19650218 i ^^^ whiten before * 1664525) + keyWord key (i - 1)) 19650218

/-- `mt_[1]` after the first loop, which takes 624 turns for 623 words. -/
def keyFirst (key : List UInt32) : UInt32 :=
  (keyTerm key 1 ^^^ whiten (keyTerm key 623) * 1664525) + keyWord key 623

/-- The words the second loop leaves, from `mt_[1]` on, before it comes back there. -/
def indexTerm (key : List UInt32) : Nat → UInt32 :=
  sweep (fun i before =>
    (keyTerm key (i + 1) ^^^ whiten before * 1566083941) - UInt32.ofNat (i + 1)) (keyFirst key)

theorem usable_eq (h : key.length < n) : usable key = key.length := by
  unfold n at h
  exact toInt_eq (by omega) (by omega)

theorem next_eq {j : Nat} (h : key.length < n) (hj : j < key.length) :
    (if (j + 1 : Int) ≥ usable key then 0 else j + 1) = (j + 1) % key.length := by
  rw [usable_eq h]
  by_cases hge : j + 1 ≥ key.length
  · have heq : j + 1 = key.length := by omega
    rw [if_pos (by omega), heq, Nat.mod_self]
  · rw [if_neg (by omega), Nat.mod_eq_of_lt (by omega)]

theorem keyTurns_succ (key : List UInt32) (k : Nat) (s : Mixing) :
    keyTurns key (k + 1) s = (keyTurns key k s).bind (keyTurn key) := by
  induction k generalizing s with
  | zero =>
    simp only [keyTurns, Option.bind_some]
    cases keyTurn key s <;> rfl
  | succ k ih =>
    rw [keyTurns]
    cases hs : keyTurn key s with
    | none =>
      rw [keyTurns, hs]
      rfl
    | some t =>
      rw [keyTurns, hs]
      exact ih t

/-- A turn that stays in the array. -/
theorem keyTurn_inside {mt : List UInt32} {i t : Nat} (hkey : 0 < key.length)
    (hshort : key.length < n) (hi : i + 1 < n) :
    keyTurn key ⟨mt, i, t % key.length⟩ =
      some ⟨mt.set i (stir 1664525 mt i + keyWord key t), i + 1, (t + 1) % key.length⟩ := by
  have hj := Nat.mod_lt t hkey
  rw [keyTurn_eq hj, next_eq hshort hj, Nat.mod_add_mod]
  dsimp only
  rw [advance, if_neg (by omega), UInt32.add_assoc, ← keyWord]

/-- The turn that comes to its end. -/
theorem keyTurn_end {mt : List UInt32} {i t : Nat} (hkey : 0 < key.length)
    (hshort : key.length < n) (hi : i + 1 = n) :
    ∃ mt', mt' = mt.set i (stir 1664525 mt i + keyWord key t) ∧
      keyTurn key ⟨mt, i, t % key.length⟩ =
        some ⟨mt'.set 0 (mt'.getD (n - 1) 0), 1, (t + 1) % key.length⟩ := by
  have hj := Nat.mod_lt t hkey
  refine ⟨_, rfl, ?_⟩
  rw [keyTurn_eq hj, next_eq hshort hj, Nat.mod_add_mod]
  dsimp only
  rw [advance, if_pos (by omega), UInt32.add_assoc, ← keyWord]

/-- The first loop on its way through the array. -/
theorem keyTurns_pass {mt : List UInt32} (hkey : 0 < key.length) (hshort : key.length < n)
    (hlength : mt.length = n) (hmt : ∀ j, j < n → mt.getD j 0 = seedTerm 19650218 j) {t : Nat}
    (ht : t < n - 1) :
    ∃ mt', keyTurns key t ⟨mt, 1, 0⟩ = some ⟨mt', t + 1, t % key.length⟩ ∧ mt'.length = n ∧
      ∀ j, j < n → mt'.getD j 0 = if j ≤ t then keyTerm key j else seedTerm 19650218 j := by
  induction t with
  | zero =>
    refine ⟨mt, by rw [Nat.zero_mod]; rfl, hlength, fun j hj => ?_⟩
    by_cases hzero : j ≤ 0
    · rw [if_pos hzero, Nat.le_zero.1 hzero, hmt 0 (by decide)]
      rfl
    · rw [if_neg hzero, hmt j hj]
  | succ t ih =>
    obtain ⟨mt', hturns, hlen, hterms⟩ := ih (by omega)
    have hvalue : stir 1664525 mt' (t + 1) + keyWord key t = keyTerm key (t + 1) := by
      rw [stir, Nat.add_sub_cancel, hterms (t + 1) (by omega), hterms t (by omega),
        if_neg (by omega), if_pos (Nat.le_refl t)]
      rfl
    refine ⟨_, by rw [keyTurns_succ, hturns, Option.bind_some,
      keyTurn_inside hkey hshort (by omega), hvalue], by rw [List.length_set, hlen], fun j hj => ?_⟩
    rw [getD_set (by omega), hterms j hj]
    by_cases hjt : j = t + 1
    · rw [if_pos hjt, if_pos (by omega), hjt]
    · by_cases hle : j ≤ t
      · rw [if_neg hjt, if_pos hle, if_pos (by omega)]
      · rw [if_neg hjt, if_neg hle, if_neg (by omega)]

/-- **The first loop**: through the array, and once more over `mt_[1]`. -/
theorem keyTurns_all {mt : List UInt32} (hkey : 0 < key.length) (hshort : key.length < n)
    (hlength : mt.length = n) (hmt : ∀ j, j < n → mt.getD j 0 = seedTerm 19650218 j) :
    ∃ mt', keyTurns key n ⟨mt, 1, 0⟩ = some ⟨mt', 2, n % key.length⟩ ∧ mt'.length = n ∧
      mt'.getD 1 0 = keyFirst key ∧ ∀ j, 1 < j → j < n → mt'.getD j 0 = keyTerm key j := by
  obtain ⟨mt₁, hturns, hlen₁, hterms₁⟩ :=
    keyTurns_pass hkey hshort hlength hmt (t := n - 2) (by decide)
  obtain ⟨mt₂, hmt₂, hend⟩ := @keyTurn_end _ mt₁ (n - 2 + 1) (n - 2) hkey hshort
    (by decide)
  have hlen₂ : mt₂.length = n := by rw [hmt₂, List.length_set, hlen₁]
  have hvalue : stir 1664525 mt₁ (n - 2 + 1) + keyWord key (n - 2) = keyTerm key (n - 2 + 1) := by
    rw [stir, Nat.add_sub_cancel, hterms₁ (n - 2 + 1) (by decide), hterms₁ (n - 2) (by decide),
      if_neg (by decide), if_pos (Nat.le_refl _)]
    rfl
  have hterms₂ : ∀ j, j < n → mt₂.getD j 0 = keyTerm key j := by
    intro j hj
    rw [hmt₂, hvalue, getD_set (by rw [hlen₁]; decide), hterms₁ j hj]
    by_cases hjt : j = n - 2 + 1
    · rw [if_pos hjt, hjt]
    · rw [if_neg hjt, if_pos (by omega)]
  have hcount : n = n - 2 + 1 + 1 := by decide
  have hagain : stir 1664525 (mt₂.set 0 (mt₂.getD (n - 1) 0)) 1 + keyWord key (n - 2 + 1) =
      keyFirst key := by
    have hlast : mt₂.getD (n - 1) 0 = keyTerm key 623 := hterms₂ 623 (by decide)
    have hone : mt₂.getD 1 0 = keyTerm key 1 := hterms₂ 1 (by decide)
    rw [stir, getD_set (by rw [hlen₂]; decide), getD_set (by rw [hlen₂]; decide),
      if_neg (by decide), if_pos rfl, hlast, hone]
    rfl
  have hthrough := keyTurns_succ key (n - 2) ⟨mt, 1, 0⟩
  rw [hturns, Option.bind_some, hend] at hthrough
  have hall := keyTurns_succ key (n - 2 + 1) ⟨mt, 1, 0⟩
  rw [hthrough, Option.bind_some, keyTurn_inside hkey hshort (by decide), hagain, ← hcount] at hall
  refine ⟨_, hall, ?_, ?_, fun j hj hjn => ?_⟩
  · rw [List.length_set, List.length_set, hlen₂]
  · rw [getD_set (by rw [List.length_set, hlen₂]; decide), if_pos rfl]
  · rw [getD_set (by rw [List.length_set, hlen₂]; decide), if_neg (by omega),
      getD_set (by rw [hlen₂]; decide), if_neg (by omega), hterms₂ j hjn]

theorem indexTurn_inside {mt : List UInt32} {i : Nat} (hi : i + 1 < n) :
    indexTurn (mt, i) = (mt.set i (stir 1566083941 mt i - UInt32.ofNat i), i + 1) := by
  rw [indexTurn, advance, if_neg (by omega)]

theorem indexTurn_end {mt : List UInt32} {i : Nat} (hi : i + 1 = n) :
    ∃ mt', mt' = mt.set i (stir 1566083941 mt i - UInt32.ofNat i) ∧
      indexTurn (mt, i) = (mt'.set 0 (mt'.getD (n - 1) 0), 1) :=
  ⟨_, rfl, by rw [indexTurn, advance, if_pos (by omega)]⟩

/-- The second loop on its way through the array. -/
theorem indexTurns_pass {mt : List UInt32} (hlength : mt.length = n)
    (hone : mt.getD 1 0 = keyFirst key)
    (hmt : ∀ j, 1 < j → j < n → mt.getD j 0 = keyTerm key j) {t : Nat} (ht : t < n - 2) :
    ∃ mt', indexTurn^[t] (mt, 2) = (mt', t + 2) ∧ mt'.length = n ∧
      ∀ j, 0 < j → j < n →
        mt'.getD j 0 = if j ≤ t + 1 then indexTerm key (j - 1) else keyTerm key j := by
  induction t with
  | zero =>
    refine ⟨mt, rfl, hlength, fun j hpos hj => ?_⟩
    by_cases hle : j ≤ 0 + 1
    · have hj1 : j = 1 := by omega
      rw [if_pos hle, hj1, hone]
      rfl
    · rw [if_neg hle, hmt j (by omega) hj]
  | succ t ih =>
    obtain ⟨mt', hturns, hlen, hterms⟩ := ih (by omega)
    have hvalue : stir 1566083941 mt' (t + 2) - UInt32.ofNat (t + 2) = indexTerm key (t + 1) := by
      have hbefore : t + 2 - 1 = t + 1 := by omega
      rw [stir, hbefore, hterms (t + 2) (by omega) (by omega), hterms (t + 1) (by omega) (by omega),
        if_neg (by omega), if_pos (Nat.le_refl _)]
      rfl
    refine ⟨_, by rw [Function.iterate_succ_apply', hturns, indexTurn_inside (by omega), hvalue],
      by rw [List.length_set, hlen], fun j hpos hj => ?_⟩
    rw [getD_set (by omega), hterms j hpos hj]
    by_cases hjt : j = t + 2
    · rw [if_pos hjt, if_pos (by omega), hjt]
      rfl
    · by_cases hle : j ≤ t + 1
      · rw [if_neg hjt, if_pos hle, if_pos (by omega)]
      · rw [if_neg hjt, if_neg hle, if_neg (by omega)]

/-- **The second loop**, and the word set last. -/
theorem getD_finish {mt : List UInt32} {j : Nat} (hlength : mt.length = n)
    (hone : mt.getD 1 0 = keyFirst key)
    (hmt : ∀ j, 1 < j → j < n → mt.getD j 0 = keyTerm key j) :
    (finish ⟨mt, 2, j⟩).getD 0 0 = 0x80000000 ∧
      (finish ⟨mt, 2, j⟩).getD 1 0 =
        (indexTerm key 0 ^^^ whiten (indexTerm key 622) * 1566083941) - 1 ∧
      ∀ i, 1 < i → i < n → (finish ⟨mt, 2, j⟩).getD i 0 = indexTerm key (i - 1) := by
  obtain ⟨mt₁, hturns, hlen₁, hterms₁⟩ :=
    indexTurns_pass hlength hone hmt (t := n - 3) (by decide)
  obtain ⟨mt₂, hmt₂, hend⟩ := @indexTurn_end mt₁ (n - 3 + 2) (by decide)
  have hlen₂ : mt₂.length = n := by rw [hmt₂, List.length_set, hlen₁]
  have hvalue : stir 1566083941 mt₁ (n - 3 + 2) - UInt32.ofNat (n - 3 + 2) =
      indexTerm key (n - 3 + 1) := by
    have hbefore : n - 3 + 2 - 1 = n - 3 + 1 := by decide
    rw [stir, hbefore, hterms₁ (n - 3 + 2) (by decide) (by decide),
      hterms₁ (n - 3 + 1) (by decide) (by decide), if_neg (by decide), if_pos (Nat.le_refl _)]
    rfl
  have hterms₂ : ∀ i, 0 < i → i < n → mt₂.getD i 0 = indexTerm key (i - 1) := by
    intro i hpos hi
    rw [hmt₂, hvalue, getD_set (by rw [hlen₁]; decide), hterms₁ i hpos hi]
    by_cases hit : i = n - 3 + 2
    · rw [if_pos hit, hit]
      rfl
    · rw [if_neg hit, if_pos (by omega)]
  have hagain : stir 1566083941 (mt₂.set 0 (mt₂.getD (n - 1) 0)) 1 - UInt32.ofNat 1 =
      (indexTerm key 0 ^^^ whiten (indexTerm key 622) * 1566083941) - 1 := by
    have hlast : mt₂.getD (n - 1) 0 = indexTerm key 622 := hterms₂ 623 (by decide) (by decide)
    have hfirst : mt₂.getD 1 0 = indexTerm key 0 := hterms₂ 1 (by decide) (by decide)
    rw [stir, getD_set (by rw [hlen₂]; decide), getD_set (by rw [hlen₂]; decide),
      if_neg (by decide), if_pos rfl, hlast, hfirst]
    rfl
  have hfinish : finish ⟨mt, 2, j⟩ = ((mt₂.set 0 (mt₂.getD (n - 1) 0)).set 1
      ((indexTerm key 0 ^^^ whiten (indexTerm key 622) * 1566083941) - 1)).set 0 0x80000000 := by
    have hcount : n - 1 = n - 3 + 1 + 1 := by decide
    rw [finish, hcount, Function.iterate_succ_apply', Function.iterate_succ_apply', hturns, hend,
      indexTurn_inside (by decide), ← hcount, hagain]
  rw [hfinish]
  refine ⟨?_, ?_, fun i hpos hi => ?_⟩
  · rw [getD_set (by rw [List.length_set, List.length_set, hlen₂]; decide), if_pos rfl]
  · rw [getD_set (by rw [List.length_set, List.length_set, hlen₂]; decide), if_neg (by decide),
      getD_set (by rw [List.length_set, hlen₂]; decide), if_pos rfl]
  · rw [getD_set (by rw [List.length_set, List.length_set, hlen₂]; decide), if_neg (by omega),
      getD_set (by rw [List.length_set, hlen₂]; decide), if_neg (by omega),
      getD_set (by rw [hlen₂]; decide), if_neg (by omega), hterms₂ i (by omega) hi]

/-- **The array of a key**, shorter than the array itself. -/
theorem getD_seedKey {r : Random} (h : r.mt.length = n) (hkey : 0 < key.length)
    (hshort : key.length < n) :
    ∃ mt, r.seedKey key = some ⟨mt, n⟩ ∧ mt.length = n ∧ mt.getD 0 0 = 0x80000000 ∧
      mt.getD 1 0 = (indexTerm key 0 ^^^ whiten (indexTerm key 622) * 1566083941) - 1 ∧
      ∀ j, 1 < j → j < n → mt.getD j 0 = indexTerm key (j - 1) := by
  obtain ⟨hvalid, hterms⟩ := seed_spec h 19650218
  obtain ⟨mt, hturns, hlength, hone, hmt⟩ := keyTurns_all hkey hshort hvalid.length hterms
  have hrounds : rounds key = n := if_pos (by rw [usable_eq hshort]; omega)
  exact ⟨_, by rw [seedKey, hrounds, hturns, Option.map_some], length_finish hlength,
    getD_finish hlength hone hmt⟩

/-- **A key can be told from the array it leaves**: the loops are undone from their ends. -/
theorem seedKey_injective {key' : List UInt32} (hsame : key.length = key'.length)
    (hkey : 0 < key.length) (hshort : key.length < n - 1)
    (hfirst : (indexTerm key 0 ^^^ whiten (indexTerm key 622) * 1566083941) - 1 =
      (indexTerm key' 0 ^^^ whiten (indexTerm key' 622) * 1566083941) - 1)
    (hothers : ∀ j, 0 < j → j < n - 1 → indexTerm key j = indexTerm key' j) : key = key' := by
  -- the second loop, undone: first its last turn
  have hzero : indexTerm key 0 = indexTerm key' 0 := by
    rw [UInt32.sub_left_inj, hothers 622 (by decide) (by decide), UInt32.xor_left_inj] at hfirst
    exact hfirst
  have hindex : ∀ j, j < n - 1 → indexTerm key j = indexTerm key' j := by
    intro j hj
    cases j with
    | zero => exact hzero
    | succ j => exact hothers _ (Nat.succ_pos j) hj
  have hterms : ∀ j, 1 < j → j < n → keyTerm key j = keyTerm key' j := by
    intro j hj hjn
    obtain ⟨i, rfl⟩ : ∃ i, j = i + 2 := ⟨j - 2, by omega⟩
    have hturn := hindex (i + 1) (by omega)
    rw [indexTerm, indexTerm, sweep, sweep, ← indexTerm, ← indexTerm, hindex i (by omega),
      UInt32.sub_left_inj, UInt32.xor_left_inj] at hturn
    exact hturn
  -- the first loop, undone: the words of its turns, but for the first two
  have hword : ∀ i, keyTerm key i = keyTerm key' i → keyTerm key (i + 1) = keyTerm key' (i + 1) →
      keyWord key i = keyWord key' i := by
    intro i hi hnext
    rw [keyTerm, keyTerm, sweep, sweep, ← keyTerm, ← keyTerm, hi, Nat.add_sub_cancel,
      UInt32.add_right_inj] at hnext
    exact hnext
  -- the first word of the key comes again
  obtain ⟨p, hp, hpn, hmod⟩ : ∃ p, 1 < p ∧ p + 1 < n ∧ p % key.length = 0 := by
    by_cases hone : key.length = 1
    · exact ⟨2, by decide, by decide, by rw [hone]⟩
    · exact ⟨key.length, by omega, by omega, Nat.mod_self _⟩
  have hfirstWord : keyWord key 0 = keyWord key' 0 := by
    have hagain := hword p (hterms p hp (by omega)) (hterms (p + 1) (by omega) hpn)
    rw [keyWord, keyWord, ← hsame, hmod] at hagain
    rwa [keyWord, keyWord, ← hsame, Nat.zero_mod]
  have hall : ∀ j, j < n → keyTerm key j = keyTerm key' j := by
    intro j hj
    match j with
    | 0 => rfl
    | 1 =>
      rw [keyTerm, keyTerm, sweep, sweep, Nat.sub_self, hfirstWord]
      rfl
    | j + 2 => exact hterms _ (by omega) hj
  refine List.ext_getElem hsame fun j hj hj' => ?_
  have hjword := hword j (hall j (by omega)) (hall (j + 1) (by omega))
  rw [keyWord, keyWord, ← hsame, Nat.mod_eq_of_lt hj, UInt32.add_left_inj,
    List.getD_eq_getElem _ _ hj, List.getD_eq_getElem _ _ hj'] at hjword
  exact hjword

end Key

end Random

end Brickred
