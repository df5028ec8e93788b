import Brickred.Lib.Blocks

/-!
# Base 64

The encoding of RFC 4648: the bits of the message cut into groups of six, zero bits added to
fill the last group, a character for each group, `=` up to a multiple of four characters.

* `encode_append` — messages of three bytes are encoded one by one.
* `encode_length`.
* `Denotes` — the texts that denote a message; `denotes_cases` takes their groups off.
-/

set_option autoImplicit false

namespace Rfc4648

open Blocks

/-- The bits of a byte, most significant first. -/
def bits (b : UInt8) : List Bool := (List.range 8).map fun i => b.toNat.testBit (7 - i)

def ofBits (bs : List Bool) : ℕ := bs.foldl (fun v b => 2 * v + b.toNat) 0

/-- `A` to `Z`, `a` to `z`, `0` to `9`, `+`, `/`. -/
def alphabet (v : ℕ) : UInt8 :=
  if v < 26 then UInt8.ofNat (65 + v)
  else if v < 52 then UInt8.ofNat (97 + (v - 26))
  else if v < 62 then UInt8.ofNat (48 + (v - 52))
  else if v = 62 then 43
  else 47

/-- The groups of six bits. -/
def sextets (stream : List Bool) : List (List Bool) :=
  blocks 6 (stream ++ List.replicate ((6 - stream.length % 6) % 6) false)

def digits (bs : List UInt8) : List UInt8 :=
  (sextets (bs.flatMap bits)).map fun s => alphabet (ofBits s)

def encode (bs : List UInt8) : List UInt8 :=
  digits bs ++ List.replicate ((4 - (digits bs).length % 4) % 4) 61

theorem ofBits_append (as bs : List Bool) :
    ofBits (as ++ bs) = ofBits as * 2 ^ bs.length + ofBits bs := by
  have hfold : ∀ (bs : List Bool) (v : ℕ),
      bs.foldl (fun v b => 2 * v + b.toNat) v = v * 2 ^ bs.length + ofBits bs := by
    intro bs
    induction bs with
    | nil => intro v; simp [ofBits]
    | cons b bs ih =>
      intro v
      have hcons : ofBits (b :: bs) = (2 * 0 + b.toNat) * 2 ^ bs.length + ofBits bs := ih _
      rw [List.foldl_cons, ih, hcons, List.length_cons, Nat.pow_succ]
      ring
  rw [ofBits, List.foldl_append, hfold]
  rfl

/-- `count` bits of a number, the first one of the highest value. -/
theorem ofBits_testBits (n : ℕ) : ∀ count low : ℕ,
    ofBits ((List.range count).map fun i => n.testBit (low + count - 1 - i)) =
      n / 2 ^ low % 2 ^ count
  | 0, low => (Nat.mod_one _).symm
  | count + 1, low => by
    have ih := ofBits_testBits n count (low + 1)
    have hbits : (List.range (count + 1)).map (fun i => n.testBit (low + (count + 1) - 1 - i)) =
        (List.range count).map (fun i => n.testBit (low + 1 + count - 1 - i)) ++
          [n.testBit low] := by
      rw [List.range_succ, List.map_append]
      congr 1
      · refine List.map_congr_left fun i hi => ?_
        have hlt := List.mem_range.1 hi
        congr 1
        omega
      · rw [List.map_singleton, show low + (count + 1) - 1 - count = low by omega]
    have hbit : ofBits [n.testBit low] = n / 2 ^ low % 2 := by
      rw [Nat.testBit_eq_decide_div_mod_eq]
      obtain h | h := Nat.mod_two_eq_zero_or_one (n / 2 ^ low)
      · rw [h]; rfl
      · rw [h]; rfl
    rw [hbits, ofBits_append, ih, hbit, List.length_singleton, Nat.pow_succ 2 low,
      ← Nat.div_div_eq_div_mul, Nat.pow_succ' (n := count), Nat.mod_mul, Nat.pow_one]
    ring

theorem bits_length (bs : List UInt8) : (bs.flatMap bits).length = 8 * bs.length := by
  induction bs with
  | nil => rfl
  | cons b bs ih =>
    rw [List.flatMap_cons, List.length_append, ih, List.length_cons]
    change 8 + 8 * bs.length = _
    ring

theorem blocks_length {β : Type*} (n : ℕ) (bs : List β) : (blocks n bs).length = bs.length / n := by
  rw [blocks, List.length_map, List.length_range]

theorem digits_length (bs : List UInt8) : (digits bs).length = (8 * bs.length + 5) / 6 := by
  rw [digits, List.length_map, sextets, blocks_length, List.length_append, bits_length,
    List.length_replicate]
  omega

theorem digits_append {as : List UInt8} (h : 3 ∣ as.length) (bs : List UInt8) :
    digits (as ++ bs) = digits as ++ digits bs := by
  have hdvd : 6 ∣ (as.flatMap bits).length := by rw [bits_length]; omega
  have hmod : (as.flatMap bits ++ bs.flatMap bits).length % 6 = (bs.flatMap bits).length % 6 := by
    rw [List.length_append]; omega
  have has : sextets (as.flatMap bits) = blocks 6 (as.flatMap bits) := by
    rw [sextets, Nat.mod_eq_zero_of_dvd hdvd]
    exact congrArg _ (List.append_nil _)
  rw [digits, List.flatMap_append, sextets, hmod, List.append_assoc,
    blocks_append (by decide) hdvd, List.map_append, digits, has]
  rfl

theorem encode_append {as : List UInt8} (h : 3 ∣ as.length) (bs : List UInt8) :
    encode (as ++ bs) = encode as ++ encode bs := by
  have hfour : (digits as).length % 4 = 0 := by rw [digits_length]; omega
  have has : encode as = digits as := by
    rw [encode, hfour]
    exact List.append_nil _
  have hmod : (digits as ++ digits bs).length % 4 = (digits bs).length % 4 := by
    rw [List.length_append]; omega
  rw [encode, digits_append h, hmod, has, List.append_assoc]
  rfl

theorem encode_length (bs : List UInt8) : (encode bs).length = 4 * ((bs.length + 2) / 3) := by
  rw [encode, List.length_append, digits_length, List.length_replicate]
  omega

/-! ## Texts -/

/-- The six bits of a value, most significant first. -/
def valueBits (v : ℕ) : List Bool := (List.range 6).map fun i => v.testBit (5 - i)

/-- The whole bytes of the values' bits. -/
def unpack (vs : List ℕ) : List UInt8 :=
  (blocks 8 (vs.flatMap valueBits)).map fun s => UInt8.ofNat (ofBits s)

/-- Whole groups of four characters of the alphabet, up to two of which may be `=` at the end. -/
def Denotes (text bytes : List UInt8) : Prop :=
  ∃ (vs : List ℕ) (pad : ℕ), (∀ v ∈ vs, v < 64) ∧ pad ≤ 2 ∧
    text = vs.map alphabet ++ List.replicate pad 61 ∧ 4 ∣ text.length ∧ bytes = unpack vs

section Values

variable {v v0 v1 v2 v3 : ℕ}

theorem value_parts (h : v < 64) : ofBits (valueBits v) = v ∧
    ofBits ((valueBits v).take 2) = v / 16 ∧ ofBits ((valueBits v).drop 2) = v % 16 ∧
    ofBits ((valueBits v).take 4) = v / 4 ∧ ofBits ((valueBits v).drop 4) = v % 4 := by
  have hall := ofBits_testBits v 6 0
  have htwo := ofBits_testBits v 2 4
  have hfour := ofBits_testBits v 4 2
  refine ⟨hall.trans ?_, htwo.trans ?_, (ofBits_testBits v 4 0).trans ?_, hfour.trans ?_,
    (ofBits_testBits v 2 0).trans ?_⟩ <;> omega

/-- The bytes of a group of four values, the first, the second and the third. -/
theorem unpack_four (h0 : v0 < 64) (h1 : v1 < 64) (h2 : v2 < 64) (h3 : v3 < 64) :
    unpack [v0, v1, v2, v3] = [UInt8.ofNat (v0 * 4 + v1 / 16),
      UInt8.ofNat (v1 % 16 * 16 + v2 / 4), UInt8.ofNat (v2 % 4 * 64 + v3)] := by
  have hblocks : blocks 8 ([v0, v1, v2, v3].flatMap valueBits) =
      [valueBits v0 ++ (valueBits v1).take 2, (valueBits v1).drop 2 ++ (valueBits v2).take 4,
        (valueBits v2).drop 4 ++ valueBits v3] := by
    simp [blocks, valueBits, List.range_succ]
  obtain ⟨h0, _⟩ := value_parts h0
  obtain ⟨_, htake1, hdrop1, _⟩ := value_parts h1
  obtain ⟨_, _, _, htake2, hdrop2⟩ := value_parts h2
  obtain ⟨h3, _⟩ := value_parts h3
  rw [unpack, hblocks, List.map_cons, List.map_cons, List.map_cons, ofBits_append, ofBits_append,
    ofBits_append, h0, htake1, hdrop1, htake2, hdrop2, h3]
  rfl

theorem unpack_three (h0 : v0 < 64) (h1 : v1 < 64) (h2 : v2 < 64) :
    unpack [v0, v1, v2] = [UInt8.ofNat (v0 * 4 + v1 / 16),
      UInt8.ofNat (v1 % 16 * 16 + v2 / 4)] := by
  have hblocks : blocks 8 ([v0, v1, v2].flatMap valueBits) =
      [valueBits v0 ++ (valueBits v1).take 2,
        (valueBits v1).drop 2 ++ (valueBits v2).take 4] := by
    simp [blocks, valueBits, List.range_succ]
  obtain ⟨h0, _⟩ := value_parts h0
  obtain ⟨_, htake1, hdrop1, _⟩ := value_parts h1
  obtain ⟨_, _, _, htake2, _⟩ := value_parts h2
  rw [unpack, hblocks, List.map_cons, List.map_cons, ofBits_append, ofBits_append, h0, htake1,
    hdrop1, htake2]
  rfl

theorem unpack_two (h0 : v0 < 64) (h1 : v1 < 64) :
    unpack [v0, v1] = [UInt8.ofNat (v0 * 4 + v1 / 16)] := by
  have hblocks : blocks 8 ([v0, v1].flatMap valueBits) =
      [valueBits v0 ++ (valueBits v1).take 2] := by
    simp [blocks, valueBits, List.range_succ]
  obtain ⟨h0, _⟩ := value_parts h0
  obtain ⟨_, htake1, _⟩ := value_parts h1
  rw [unpack, hblocks, List.map_cons, ofBits_append, h0, htake1]
  rfl

theorem unpack_cons (v0 v1 v2 v3 : ℕ) (vs : List ℕ) :
    unpack (v0 :: v1 :: v2 :: v3 :: vs) = unpack [v0, v1, v2, v3] ++ unpack vs := by
  have hbits : (v0 :: v1 :: v2 :: v3 :: vs).flatMap valueBits =
      [v0, v1, v2, v3].flatMap valueBits ++ vs.flatMap valueBits := by
    rw [← List.flatMap_append]
    rfl
  have hlength : 8 ∣ ([v0, v1, v2, v3].flatMap valueBits).length := Dvd.intro 3 rfl
  rw [unpack, hbits, blocks_append (by decide) hlength, List.map_append]
  rfl

/-- A text is empty, or a last group with `=` in it, or a full group in front of a text. -/
theorem denotes_cases {text bytes : List UInt8} (h : Denotes text bytes) :
    (text = [] ∧ bytes = []) ∨
    (∃ v0 v1, v0 < 64 ∧ v1 < 64 ∧ text = [alphabet v0, alphabet v1, 61, 61] ∧
      bytes = unpack [v0, v1]) ∨
    (∃ v0 v1 v2, v0 < 64 ∧ v1 < 64 ∧ v2 < 64 ∧
      text = [alphabet v0, alphabet v1, alphabet v2, 61] ∧ bytes = unpack [v0, v1, v2]) ∨
    ∃ v0 v1 v2 v3 text' bytes', v0 < 64 ∧ v1 < 64 ∧ v2 < 64 ∧ v3 < 64 ∧
      text = alphabet v0 :: alphabet v1 :: alphabet v2 :: alphabet v3 :: text' ∧
      bytes = unpack [v0, v1, v2, v3] ++ bytes' ∧ Denotes text' bytes' := by
  obtain ⟨vs, pad, hvs, hpad, rfl, hlength, rfl⟩ := h
  rw [List.length_append, List.length_map, List.length_replicate] at hlength
  match vs with
  | [] =>
    obtain rfl : pad = 0 := by
      rw [List.length_nil] at hlength
      omega
    exact Or.inl ⟨rfl, rfl⟩
  | [v0] =>
    rw [List.length_singleton] at hlength
    omega
  | [v0, v1] =>
    obtain rfl : pad = 2 := by
      change 4 ∣ 2 + pad at hlength
      omega
    exact Or.inr (Or.inl ⟨v0, v1, hvs v0 (by simp), hvs v1 (by simp), rfl, rfl⟩)
  | [v0, v1, v2] =>
    obtain rfl : pad = 1 := by
      change 4 ∣ 3 + pad at hlength
      omega
    exact Or.inr (Or.inr (Or.inl
      ⟨v0, v1, v2, hvs v0 (by simp), hvs v1 (by simp), hvs v2 (by simp), rfl, rfl⟩))
  | v0 :: v1 :: v2 :: v3 :: vs =>
    have hrest : Denotes (vs.map alphabet ++ List.replicate pad 61) (unpack vs) := by
      refine ⟨vs, pad, fun v hv => hvs v (by simp [hv]), hpad, rfl, ?_, rfl⟩
      rw [List.length_append, List.length_map, List.length_replicate]
      simp only [List.length_cons] at hlength
      omega
    exact Or.inr (Or.inr (Or.inr ⟨v0, v1, v2, v3, _, _, hvs v0 (by simp), hvs v1 (by simp),
      hvs v2 (by simp), hvs v3 (by simp), rfl, unpack_cons v0 v1 v2 v3 vs, hrest⟩))

/-- Every character is in the alphabet or is `=`. -/
theorem denotes_mem {text bytes : List UInt8} (h : Denotes text bytes) {c : UInt8} (hc : c ∈ text) :
    (∃ v < 64, c = alphabet v) ∨ c = 61 := by
  obtain ⟨vs, pad, hvs, _, rfl, _, _⟩ := h
  rcases List.mem_append.1 hc with hc | hc
  · obtain ⟨v, hv, rfl⟩ := List.mem_map.1 hc
    exact Or.inl ⟨v, hvs v hv, rfl⟩
  · exact Or.inr (List.eq_of_mem_replicate hc)

end Values

end Rfc4648
