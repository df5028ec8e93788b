import Brickred.StringUtil
import Brickred.Codec.Output

/-!
# `base64Encode` and `base64Decode` (model of `base64.cc`)

* `base64EncodeTo` — the buffer form, which stops when the output buffer is full.
* `base64Encode` — the wrapper; `base64Encode_spec`: its buffer is always large enough.
* `base64EncodeBuffer` — the buffer form with the bytes it writes before it stops.
* `base64DecodeBuffer`, `base64Decode` — the decoder.
-/

set_option autoImplicit false

namespace Brickred

namespace Codec

open StringUtil

/-- `s_encode_table` -/
def encodeTable : List UInt8 :=
  bytes "ABCDEFGHIJKLMNOPQRSTUVWXYZabcdefghijklmnopqrstuvwxyz0123456789+/"

def encodeDigit (i : UInt8) : UInt8 := encodeTable.getD i.toNat 0

/-- One turn of the loop: three bytes, of which the first `bLen` are taken from the input. -/
def encodeGroup (b0 b1 b2 : UInt8) (bLen : Nat) : List UInt8 :=
  [encodeDigit (b0 >>> 2),
    encodeDigit (((b0 &&& 0x03) <<< 4) ||| ((b1 &&& 0xf0) >>> 4)),
    if bLen > 1 then encodeDigit (((b1 &&& 0x0f) <<< 2) ||| ((b2 &&& 0xc0) >>> 6)) else 61,
    if bLen > 2 then encodeDigit (b2 &&& 0x3f) else 61]

/-- The bytes written to a buffer of `outSize` bytes; `none` is `-1`. -/
def base64EncodeTo : Nat → List UInt8 → Option (List UInt8)
  | _, [] => some []
  | outSize, [b0] => if outSize < 4 then none else some (encodeGroup b0 0 0 1)
  | outSize, [b0, b1] => if outSize < 4 then none else some (encodeGroup b0 b1 0 2)
  | outSize, b0 :: b1 :: b2 :: input =>
    if outSize < 4 then none
    else (base64EncodeTo (outSize - 4) input).map fun out => encodeGroup b0 b1 b2 3 ++ out

/-- The wrapper; the count is an `int`. -/
def base64Encode (buffer : List UInt8) : List UInt8 :=
  match base64EncodeTo (max 5 (buffer.length * 2)) buffer with
  | none => []
  | some output => if toInt output.length ≤ 0 then [] else output.take (toInt output.length).toNat

/-! ## What is put out -/

/-- A character of the table, or `=`. -/
def IsBase64 (b : UInt8) : Prop := b ∈ encodeTable ∨ b = 61

theorem encodeDigit_mem {i : UInt8} (h : i.toNat < 64) : encodeDigit i ∈ encodeTable := by
  unfold encodeDigit
  rw [List.getD_eq_getElem?_getD, List.getElem?_eq_getElem (show i.toNat < encodeTable.length from h),
    Option.getD_some]
  exact List.getElem_mem _

/-- What a byte contributes to the digits. -/
theorem byte_words (b : UInt8) :
    (b >>> 2).toNat = b.toNat / 4 ∧ ((b &&& 0x03) <<< 4).toNat = b.toNat % 4 * 16 ∧
    ((b &&& 0xf0) >>> 4).toNat = b.toNat / 16 ∧ ((b &&& 0x0f) <<< 2).toNat = b.toNat % 16 * 4 ∧
    ((b &&& 0xc0) >>> 6).toNat = b.toNat / 64 ∧ (b &&& 0x3f).toNat = b.toNat % 64 := by
  have hlt := b.toNat_lt
  have hlow : ∀ k : ℕ, b.toNat &&& (2 ^ k - 1) = b.toNat % 2 ^ k :=
    Nat.and_two_pow_sub_one_eq_mod b.toNat
  have hhigh : ∀ k m : ℕ, (b.toNat &&& m) >>> k = (b.toNat / 2 ^ k) &&& (m >>> k) := fun k m => by
    rw [Nat.shiftRight_and_distrib, Nat.shiftRight_eq_div_pow]
  have h4 := Nat.and_two_pow_sub_one_eq_mod (b.toNat / 2 ^ 4) 4
  have h6 := Nat.and_two_pow_sub_one_eq_mod (b.toNat / 2 ^ 6) 2
  refine ⟨?_, ?_, ?_, ?_, ?_, ?_⟩
  · change b.toNat >>> 2 = _
    rw [Nat.shiftRight_eq_div_pow]
  · change (b.toNat &&& (2 ^ 2 - 1)) <<< 4 % 2 ^ 8 = _
    rw [hlow, Nat.shiftLeft_eq]
    omega
  · change (b.toNat &&& 240) >>> 4 = _
    rw [hhigh]
    change b.toNat / 2 ^ 4 &&& (2 ^ 4 - 1) = _
    rw [h4]
    omega
  · change (b.toNat &&& (2 ^ 4 - 1)) <<< 2 % 2 ^ 8 = _
    rw [hlow, Nat.shiftLeft_eq]
    omega
  · change (b.toNat &&& 192) >>> 6 = _
    rw [hhigh]
    change b.toNat / 2 ^ 6 &&& (2 ^ 2 - 1) = _
    rw [h6]
    omega
  · exact hlow 6

/-- What a byte contributes to a digit is less than 64. -/
theorem bits_lt (b : UInt8) : (b >>> 2).toNat < 64 ∧ ((b &&& 0x03) <<< 4).toNat < 64 ∧
    ((b &&& 0xf0) >>> 4).toNat < 64 ∧ ((b &&& 0x0f) <<< 2).toNat < 64 ∧
    ((b &&& 0xc0) >>> 6).toNat < 64 ∧ (b &&& 0x3f).toNat < 64 := by
  have hlt := b.toNat_lt
  obtain ⟨h₁, h₂, h₃, h₄, h₅, h₆⟩ := byte_words b
  omega

/-- A digit that takes bits of two bytes. -/
theorem or_lt_64 {x y : UInt8} (hx : x.toNat < 64) (hy : y.toNat < 64) : (x ||| y).toNat < 64 := by
  rw [UInt8.toNat_or]
  exact Nat.or_lt_two_pow (n := 6) hx hy

theorem encodeGroup_spec (b0 b1 b2 : UInt8) (bLen : Nat) :
    (encodeGroup b0 b1 b2 bLen).length = 4 ∧ ∀ b ∈ encodeGroup b0 b1 b2 bLen, IsBase64 b := by
  refine ⟨rfl, fun b hb => ?_⟩
  have h0 := bits_lt b0
  have h1 := bits_lt b1
  have h2 := bits_lt b2
  simp only [encodeGroup, List.mem_cons, List.not_mem_nil, or_false] at hb
  rcases hb with rfl | rfl | rfl | rfl
  · exact Or.inl (encodeDigit_mem h0.1)
  · exact Or.inl (encodeDigit_mem (or_lt_64 h0.2.1 h1.2.2.1))
  · split
    · exact Or.inl (encodeDigit_mem (or_lt_64 h1.2.2.2.1 h2.2.2.2.2.1))
    · exact Or.inr rfl
  · split
    · exact Or.inl (encodeDigit_mem h2.2.2.2.2.2)
    · exact Or.inr rfl

/-- Four characters for every three bytes begun. -/
theorem base64EncodeTo_spec : ∀ (outSize : Nat) (input : List UInt8),
    4 * ((input.length + 2) / 3) ≤ outSize →
    ∃ output, base64EncodeTo outSize input = some output ∧
      output.length = 4 * ((input.length + 2) / 3) ∧ ∀ b ∈ output, IsBase64 b
  | _, [], _ => ⟨[], rfl, rfl, by simp⟩
  | outSize, [b0], h => by
    obtain ⟨hgroup, hmem⟩ := encodeGroup_spec b0 0 0 1
    rw [base64EncodeTo, if_neg (by simpa using h)]
    exact ⟨_, rfl, hgroup.trans (by simp), hmem⟩
  | outSize, [b0, b1], h => by
    obtain ⟨hgroup, hmem⟩ := encodeGroup_spec b0 b1 0 2
    rw [base64EncodeTo, if_neg (by simpa using h)]
    exact ⟨_, rfl, hgroup.trans (by simp), hmem⟩
  | outSize, b0 :: b1 :: b2 :: input, h => by
    have hlen : (b0 :: b1 :: b2 :: input).length + 2 = input.length + 2 + 3 := rfl
    rw [hlen, Nat.add_div_right _ (by decide)] at h ⊢
    obtain ⟨output, hout, houtlen, hmem⟩ := base64EncodeTo_spec (outSize - 4) input (by omega)
    obtain ⟨hgroup, hgroupmem⟩ := encodeGroup_spec b0 b1 b2 3
    rw [base64EncodeTo, if_neg (by omega), hout]
    refine ⟨_, rfl, ?_, fun b hb => ?_⟩
    · rw [List.length_append, hgroup, houtlen]
      omega
    · exact (List.mem_append.1 hb).elim (hgroupmem b) (hmem b)

/-- **The wrapper** puts out all of it. -/
theorem base64Encode_spec {buffer : List UInt8} (h : buffer.length < 2 ^ 30) :
    (base64Encode buffer).length = 4 * ((buffer.length + 2) / 3) ∧
      ∀ b ∈ base64Encode buffer, IsBase64 b := by
  obtain ⟨output, hout, hlen, hmem⟩ :=
    base64EncodeTo_spec (max 5 (buffer.length * 2)) buffer (by omega)
  have hcount : toInt output.length = output.length := toInt_eq (by omega) (by omega)
  unfold base64Encode
  rw [hout]
  dsimp only
  rw [hcount, Int.toNat_natCast, List.take_length]
  split
  · rename_i hnone
    have hnil : output = [] := List.length_eq_zero_iff.1 (by omega)
    rw [← hlen, hnil]
    exact ⟨rfl, by simp⟩
  · exact ⟨hlen, hmem⟩

/-! ## The bytes written -/

/-- `base64EncodeTo`, and what a call has written when it returns `-1`. -/
def base64EncodeBuffer : Nat → List UInt8 → Written
  | _, [] => ⟨true, []⟩
  | outSize, [b0] => if outSize < 4 then .fail else ⟨true, encodeGroup b0 0 0 1⟩
  | outSize, [b0, b1] => if outSize < 4 then .fail else ⟨true, encodeGroup b0 b1 0 2⟩
  | outSize, b0 :: b1 :: b2 :: input =>
    if outSize < 4 then .fail
    else (base64EncodeBuffer (outSize - 4) input).put (encodeGroup b0 b1 b2 3)

theorem base64EncodeTo_eq : ∀ (outSize : Nat) (input : List UInt8),
    base64EncodeTo outSize input =
      let w := base64EncodeBuffer outSize input
      if w.complete then some w.bytes else none
  | _, [] => rfl
  | outSize, [b0] => by
    unfold base64EncodeTo base64EncodeBuffer
    split <;> rfl
  | outSize, [b0, b1] => by
    unfold base64EncodeTo base64EncodeBuffer
    split <;> rfl
  | outSize, b0 :: b1 :: b2 :: input => by
    unfold base64EncodeTo base64EncodeBuffer
    split
    · rfl
    · rw [base64EncodeTo_eq (outSize - 4) input]
      cases hw : (base64EncodeBuffer (outSize - 4) input).complete <;> simp [hw, Written.put]

theorem base64Encode_eq (buffer : List UInt8) :
    base64Encode buffer = (base64EncodeBuffer (max 5 (buffer.length * 2)) buffer).str := by
  unfold base64Encode Written.str Written.ret
  rw [base64EncodeTo_eq]
  cases hw : (base64EncodeBuffer (max 5 (buffer.length * 2)) buffer).complete <;> simp [hw]

/-! ## Decoding -/

/-- `s_decode_table` -/
def decodeTable : List Int :=
  [62, -1, -1, -1, 63, 52, 53, 54, 55, 56,
    57, 58, 59, 60, 61, -1, -1, -1, -2, -1,
    -1, -1, 0, 1, 2, 3, 4, 5, 6, 7,
    8, 9, 10, 11, 12, 13, 14, 15, 16, 17,
    18, 19, 20, 21, 22, 23, 24, 25, -1, -1,
    -1, -1, -1, -1, 26, 27, 28, 29, 30, 31,
    32, 33, 34, 35, 36, 37, 38, 39, 40, 41,
    42, 43, 44, 45, 46, 47, 48, 49, 50, 51]

/-- What is stored in `b[i]` for a character that counts.  A `char` from 128 on is negative, and
so is left out as one below 43 is. -/
def decodeDigit (c : UInt8) : Option UInt8 :=
  if c.toNat < 43 ∨ c.toNat > 122 ∨ c = 61 then none
  else some (UInt8.ofInt (decodeTable.getD (c.toNat - 43) 0))

/-- The bytes of one turn of the loop. -/
def decodeGroup (b0 b1 b2 b3 : UInt8) (bLen : Nat) : List UInt8 :=
  [b0 <<< 2 ||| b1 >>> 4] ++ (if bLen > 2 then [b1 <<< 4 ||| b2 >>> 2] else []) ++
    if bLen > 3 then [b2 <<< 6 ||| b3] else []

def base64DecodeBuffer : Nat → List UInt8 → Written
  | _, [] => ⟨true, []⟩
  | outSize, c0 :: c1 :: c2 :: c3 :: input =>
    let b (c : UInt8) := (decodeDigit c).getD 0
    let bLen := ([c0, c1, c2, c3].filter fun c => (decodeDigit c).isSome).length
    if bLen < 2 then .fail
    else if outSize < bLen - 1 then .fail
    else
      (base64DecodeBuffer (outSize - (bLen - 1)) input).put
        (decodeGroup (b c0) (b c1) (b c2) (b c3) bLen)
  | _, _ => .fail

/-- The wrapper. -/
def base64Decode (buffer : List UInt8) : List UInt8 :=
  (base64DecodeBuffer buffer.length buffer).str

end Codec

end Brickred
