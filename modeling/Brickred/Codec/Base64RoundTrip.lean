import Brickred.Lib.Rfc4648
import Brickred.Codec.Base64

/-!
# Base64 there and back

* `encodeBuffer_spec` — with room for four characters for every three bytes begun, the buffer
  form writes the encoding of RFC 4648; with less room it returns `-1` (`encodeBuffer_full`).
* `decode_encode` — the decoder reads the encoding back.
* `base64_round_trip` — the wrappers, and the bounds of the buffer form.
-/

set_option autoImplicit false

namespace Brickred

namespace Codec

open Rfc4648 StringUtil

/-! ## Bits -/

/-- What a byte gives to the digits of its group, in bits and in the source's words. -/
theorem byte_parts (b : UInt8) :
    ofBits ((bits b).take 6) = (b >>> 2).toNat ∧
    ofBits ((bits b).drop 6) * 16 = ((b &&& 0x03) <<< 4).toNat ∧
    ofBits ((bits b).take 4) = ((b &&& 0xf0) >>> 4).toNat ∧
    ofBits ((bits b).drop 4) * 4 = ((b &&& 0x0f) <<< 2).toNat ∧
    ofBits ((bits b).take 2) = ((b &&& 0xc0) >>> 6).toNat ∧
    ofBits ((bits b).drop 2) = (b &&& 0x3f).toNat := by
  have htake : ∀ k low : ℕ, 256 = 2 ^ low * 2 ^ k → b.toNat / 2 ^ low % 2 ^ k = b.toNat / 2 ^ low :=
    fun k low h => Nat.mod_eq_of_lt (Nat.div_lt_of_lt_mul (h ▸ b.toNat_lt))
  have hdrop : ∀ k : ℕ, b.toNat / 2 ^ 0 % 2 ^ k = b.toNat % 2 ^ k := fun k => by
    rw [Nat.pow_zero, Nat.div_one]
  obtain ⟨h₁, h₂, h₃, h₄, h₅, h₆⟩ := byte_words b
  refine ⟨?_, ?_, ?_, ?_, ?_, ?_⟩
  · exact ((ofBits_testBits b.toNat 6 2).trans (htake 6 2 rfl)).trans h₁.symm
  · exact (congrArg (· * 16) ((ofBits_testBits b.toNat 2 0).trans (hdrop 2))).trans h₂.symm
  · exact ((ofBits_testBits b.toNat 4 4).trans (htake 4 4 rfl)).trans h₃.symm
  · exact (congrArg (· * 4) ((ofBits_testBits b.toNat 4 0).trans (hdrop 4))).trans h₄.symm
  · exact ((ofBits_testBits b.toNat 2 6).trans (htake 2 6 rfl)).trans h₅.symm
  · exact ((ofBits_testBits b.toNat 6 0).trans (hdrop 6)).trans h₆.symm

theorem encodeDigit_eq {i : UInt8} (h : i.toNat < 64) : encodeDigit i = alphabet i.toNat := by
  have htable : encodeTable = charRun 65 26 ++ (charRun 97 26 ++ (charRun 48 10 ++ [43, 47])) := rfl
  rw [encodeDigit, htable, List.getD_eq_getElem?_getD]
  generalize i.toNat = v at h
  unfold alphabet
  by_cases hupper : v < 26
  · rw [List.getElem?_append_left (by rw [charRun_length]; exact hupper), charRun_getElem?,
      if_pos hupper, if_pos hupper]
    rfl
  rw [if_neg hupper, List.getElem?_append_right (by rw [charRun_length]; omega), charRun_length]
  by_cases hlower : v < 52
  · rw [List.getElem?_append_left (by rw [charRun_length]; omega), charRun_getElem?,
      if_pos (by omega), if_pos hlower]
    rfl
  rw [if_neg hlower, List.getElem?_append_right (by rw [charRun_length]; omega), charRun_length,
    Nat.sub_sub]
  by_cases hdigit : v < 62
  · rw [List.getElem?_append_left (by rw [charRun_length]; omega), charRun_getElem?,
      if_pos (by omega), if_pos hdigit]
    rfl
  rw [if_neg hdigit, List.getElem?_append_right (by rw [charRun_length]; omega), charRun_length,
    Nat.sub_sub]
  obtain rfl | rfl : v = 62 ∨ v = 63 := by omega
  · rfl
  · rfl

/-- A digit made of the end of one byte and the beginning of the next. -/
theorem encodeDigit_or {x y : UInt8} {front back : List Bool} {n : Nat}
    (hx : ofBits front * 2 ^ n = x.toNat) (hy : ofBits back = y.toNat) (hback : back.length = n)
    (hlow : y.toNat < 2 ^ n) (hx64 : x.toNat < 64) (hy64 : y.toNat < 64) :
    encodeDigit (x ||| y) = alphabet (ofBits (front ++ back)) := by
  have hor : (x ||| y).toNat = ofBits (front ++ back) := by
    rw [UInt8.toNat_or, ofBits_append, hback, hy, ← hx, Nat.mul_comm,
      Nat.two_pow_add_eq_or_of_lt hlow]
  rw [encodeDigit_eq (or_lt_64 hx64 hy64), hor]

section Group

variable (b0 b1 b2 : UInt8)

theorem sextets_three : sextets ([b0, b1, b2].flatMap bits) =
    [(bits b0).take 6, (bits b0).drop 6 ++ (bits b1).take 4, (bits b1).drop 4 ++ (bits b2).take 2,
      (bits b2).drop 2] := by
  simp [sextets, Blocks.blocks, bits, List.range_succ]

theorem sextets_two : sextets ([b0, b1].flatMap bits) =
    [(bits b0).take 6, (bits b0).drop 6 ++ (bits b1).take 4, (bits b1).drop 4 ++
      (bits 0).take 2] := by
  simp [sextets, Blocks.blocks, bits, List.range_succ]

theorem sextets_one : sextets ([b0].flatMap bits) =
    [(bits b0).take 6, (bits b0).drop 6 ++ (bits 0).take 4] := by
  simp [sextets, Blocks.blocks, bits, List.range_succ]

theorem encodeDigit_first : encodeDigit (b0 >>> 2) = alphabet (ofBits ((bits b0).take 6)) := by
  rw [encodeDigit_eq (bits_lt b0).1, (byte_parts b0).1]

theorem encodeDigit_second : encodeDigit (((b0 &&& 0x03) <<< 4) ||| ((b1 &&& 0xf0) >>> 4)) =
    alphabet (ofBits ((bits b0).drop 6 ++ (bits b1).take 4)) := by
  have hlow : ((b1 &&& 0xf0) >>> 4).toNat < 2 ^ 4 := by
    have hlt := b1.toNat_lt
    rw [(byte_words b1).2.2.1]
    omega
  exact encodeDigit_or (byte_parts b0).2.1 (byte_parts b1).2.2.1 rfl hlow (bits_lt b0).2.1
    (bits_lt b1).2.2.1

theorem encodeDigit_third : encodeDigit (((b1 &&& 0x0f) <<< 2) ||| ((b2 &&& 0xc0) >>> 6)) =
    alphabet (ofBits ((bits b1).drop 4 ++ (bits b2).take 2)) := by
  have hlow : ((b2 &&& 0xc0) >>> 6).toNat < 2 ^ 2 := by
    have hlt := b2.toNat_lt
    rw [(byte_words b2).2.2.2.2.1]
    omega
  exact encodeDigit_or (byte_parts b1).2.2.2.1 (byte_parts b2).2.2.2.2.1 rfl hlow
    (bits_lt b1).2.2.2.1 (bits_lt b2).2.2.2.2.1

theorem encodeDigit_fourth : encodeDigit (b2 &&& 0x3f) =
    alphabet (ofBits ((bits b2).drop 2)) := by
  rw [encodeDigit_eq (bits_lt b2).2.2.2.2.2, (byte_parts b2).2.2.2.2.2]

theorem encodeGroup_three : encodeGroup b0 b1 b2 3 = encode [b0, b1, b2] := by
  rw [encode, digits, sextets_three, encodeGroup, encodeDigit_first, encodeDigit_second,
    encodeDigit_third, encodeDigit_fourth]
  simp

theorem encodeGroup_two : encodeGroup b0 b1 0 2 = encode [b0, b1] := by
  rw [encode, digits, sextets_two, encodeGroup, encodeDigit_first, encodeDigit_second,
    encodeDigit_third]
  simp

theorem encodeGroup_one : encodeGroup b0 0 0 1 = encode [b0] := by
  rw [encode, digits, sextets_one, encodeGroup, encodeDigit_first, encodeDigit_second]
  simp

end Group

/-! ## The buffer form -/

theorem encodeBuffer_spec : ∀ {outSize : Nat} {input : List UInt8},
    4 * ((input.length + 2) / 3) ≤ outSize →
    base64EncodeBuffer outSize input = ⟨true, encode input⟩
  | _, [], _ => rfl
  | outSize, [b0], h => by
    rw [base64EncodeBuffer, if_neg (by simpa using h), encodeGroup_one]
  | outSize, [b0, b1], h => by
    rw [base64EncodeBuffer, if_neg (by simpa using h), encodeGroup_two]
  | outSize, b0 :: b1 :: b2 :: input, h => by
    have hlen : (b0 :: b1 :: b2 :: input).length + 2 = input.length + 2 + 3 := rfl
    rw [hlen, Nat.add_div_right _ (by decide)] at h
    have hencode := @encode_append [b0, b1, b2] (dvd_refl 3) input
    rw [base64EncodeBuffer, if_neg (by omega), encodeBuffer_spec (by omega), encodeGroup_three]
    exact congrArg _ hencode.symm

theorem encodeBuffer_full : ∀ {outSize : Nat} {input : List UInt8},
    outSize < 4 * ((input.length + 2) / 3) → (base64EncodeBuffer outSize input).complete = false
  | _, [], h => absurd h (Nat.not_lt_zero _)
  | outSize, [b0], h => by
    rw [base64EncodeBuffer, if_pos (by simpa using h)]
    rfl
  | outSize, [b0, b1], h => by
    rw [base64EncodeBuffer, if_pos (by simpa using h)]
    rfl
  | outSize, b0 :: b1 :: b2 :: input, h => by
    have hlen : (b0 :: b1 :: b2 :: input).length + 2 = input.length + 2 + 3 := rfl
    rw [hlen, Nat.add_div_right _ (by decide)] at h
    rw [base64EncodeBuffer]
    split
    · rfl
    · exact @encodeBuffer_full (outSize - 4) input (by omega)

theorem encodeBuffer_within : ∀ (outSize : Nat) (input : List UInt8),
    (base64EncodeBuffer outSize input).bytes.length ≤ outSize
  | _, [] => Nat.zero_le _
  | outSize, [b0] => by
    rw [base64EncodeBuffer]
    split
    · exact Nat.zero_le _
    · rename_i hroom
      exact Nat.not_lt.1 hroom
  | outSize, [b0, b1] => by
    rw [base64EncodeBuffer]
    split
    · exact Nat.zero_le _
    · rename_i hroom
      exact Nat.not_lt.1 hroom
  | outSize, b0 :: b1 :: b2 :: input => by
    rw [base64EncodeBuffer]
    split
    · exact Nat.zero_le _
    · have ih := encodeBuffer_within (outSize - 4) input
      simp only [Written.put, List.length_append, (encodeGroup_spec b0 b1 b2 3).1]
      omega

/-- The count is a multiple of four, and so is never cut to `-1`. -/
theorem encodeBuffer_ret (outSize : Nat) (input : List UInt8) :
    (base64EncodeBuffer outSize input).ret = -1 ↔ outSize < 4 * ((input.length + 2) / 3) := by
  by_cases h : outSize < 4 * ((input.length + 2) / 3)
  · exact iff_of_true (by rw [Written.ret, encodeBuffer_full h]; rfl) h
  · refine iff_of_false ?_ h
    rw [encodeBuffer_spec (Nat.not_lt.1 h)]
    simp only [Written.ret, if_true, encode_length]
    unfold toInt Int.bmod
    dsimp only
    split <;> omega

/-! ## Decoding -/

theorem decodeDigit_encodeDigit {i : UInt8} (h : i.toNat < 64) :
    decodeDigit (encodeDigit i) = some i := by
  have hall : ∀ v < 64, decodeDigit (alphabet v) = some (UInt8.ofNat v) := by decide
  rw [encodeDigit_eq h, hall _ h, UInt8.ofNat_toNat]

theorem decodeDigit_pad : decodeDigit 61 = none := rfl

/-- The digits of a group, put together again. -/
theorem join_digits (b0 b1 b2 : UInt8) :
    (b0 >>> 2) <<< 2 ||| (((b0 &&& 0x03) <<< 4) ||| ((b1 &&& 0xf0) >>> 4)) >>> 4 = b0 ∧
    (((b0 &&& 0x03) <<< 4) ||| ((b1 &&& 0xf0) >>> 4)) <<< 4 |||
      (((b1 &&& 0x0f) <<< 2) ||| ((b2 &&& 0xc0) >>> 6)) >>> 2 = b1 ∧
    (((b1 &&& 0x0f) <<< 2) ||| ((b2 &&& 0xc0) >>> 6)) <<< 6 ||| (b2 &&& 0x3f) = b2 := by
  have hbit : ∀ i < 8, i = 0 ∨ i = 1 ∨ i = 2 ∨ i = 3 ∨ i = 4 ∨ i = 5 ∨ i = 6 ∨ i = 7 := by
    omega
  refine ⟨?_, ?_, ?_⟩ <;> apply UInt8.toBitVec_inj.1 <;> ext i hi <;>
    rcases hbit i hi with rfl | rfl | rfl | rfl | rfl | rfl | rfl | rfl <;> simp

/-- One turn of the decoder's loop, for a group with enough characters that count. -/
theorem decode_group {outSize n : Nat} {c0 c1 c2 c3 : UInt8}
    (hcount : ([c0, c1, c2, c3].filter fun c => (decodeDigit c).isSome).length = n) (hn : 2 ≤ n)
    (h : n - 1 ≤ outSize) (input : List UInt8) :
    base64DecodeBuffer outSize (c0 :: c1 :: c2 :: c3 :: input) =
      (base64DecodeBuffer (outSize - (n - 1)) input).put
        (decodeGroup ((decodeDigit c0).getD 0) ((decodeDigit c1).getD 0) ((decodeDigit c2).getD 0)
          ((decodeDigit c3).getD 0) n) := by
  rw [base64DecodeBuffer]
  dsimp only
  rw [hcount, if_neg (Nat.not_lt.2 hn), if_neg (Nat.not_lt.2 h)]

section Decode

variable {outSize : Nat} {i0 i1 i2 i3 : UInt8}

theorem decode_four (h0 : i0.toNat < 64) (h1 : i1.toNat < 64) (h2 : i2.toNat < 64)
    (h3 : i3.toNat < 64) (h : 3 ≤ outSize) (input : List UInt8) :
    base64DecodeBuffer outSize
        (encodeDigit i0 :: encodeDigit i1 :: encodeDigit i2 :: encodeDigit i3 :: input) =
      (base64DecodeBuffer (outSize - 3) input).put (decodeGroup i0 i1 i2 i3 4) := by
  have hcount : ([encodeDigit i0, encodeDigit i1, encodeDigit i2, encodeDigit i3].filter
      fun c => (decodeDigit c).isSome).length = 4 := by
    simp [decodeDigit_encodeDigit h0, decodeDigit_encodeDigit h1, decodeDigit_encodeDigit h2,
      decodeDigit_encodeDigit h3]
  rw [decode_group hcount (by decide) h, decodeDigit_encodeDigit h0, decodeDigit_encodeDigit h1,
    decodeDigit_encodeDigit h2, decodeDigit_encodeDigit h3]
  rfl

theorem decode_three (h0 : i0.toNat < 64) (h1 : i1.toNat < 64) (h2 : i2.toNat < 64)
    (h : 2 ≤ outSize) :
    base64DecodeBuffer outSize [encodeDigit i0, encodeDigit i1, encodeDigit i2, 61] =
      ⟨true, decodeGroup i0 i1 i2 0 3⟩ := by
  have hcount : ([encodeDigit i0, encodeDigit i1, encodeDigit i2, 61].filter
      fun c => (decodeDigit c).isSome).length = 3 := by
    simp [decodeDigit_encodeDigit h0, decodeDigit_encodeDigit h1, decodeDigit_encodeDigit h2,
      decodeDigit_pad]
  rw [decode_group hcount (by decide) h, decodeDigit_encodeDigit h0, decodeDigit_encodeDigit h1,
    decodeDigit_encodeDigit h2, decodeDigit_pad]
  rfl

theorem decode_two (h0 : i0.toNat < 64) (h1 : i1.toNat < 64) (h : 1 ≤ outSize) :
    base64DecodeBuffer outSize [encodeDigit i0, encodeDigit i1, 61, 61] =
      ⟨true, decodeGroup i0 i1 0 0 2⟩ := by
  have hcount : ([encodeDigit i0, encodeDigit i1, 61, 61].filter
      fun c => (decodeDigit c).isSome).length = 2 := by
    simp [decodeDigit_encodeDigit h0, decodeDigit_encodeDigit h1, decodeDigit_pad]
  rw [decode_group hcount (by decide) h, decodeDigit_encodeDigit h0, decodeDigit_encodeDigit h1,
    decodeDigit_pad]
  rfl

end Decode

/-- **Reading back** what the encoder writes. -/
theorem decode_encode : ∀ {size outSize : Nat} {input : List UInt8},
    4 * ((input.length + 2) / 3) ≤ size → input.length ≤ outSize →
    base64DecodeBuffer outSize (base64EncodeBuffer size input).bytes = ⟨true, input⟩
  | _, _, [], _, _ => by rw [base64EncodeBuffer, base64DecodeBuffer]
  | size, outSize, [b0], hsize, hout => by
    obtain ⟨h0, h1, _, _, _, _⟩ := bits_lt b0
    obtain ⟨_, _, h1', _, _, _⟩ := bits_lt 0
    obtain ⟨hjoin, _, _⟩ := join_digits b0 0 0
    rw [base64EncodeBuffer, if_neg (by simpa using hsize)]
    refine (decode_two h0 (or_lt_64 h1 h1') hout).trans ?_
    rw [decodeGroup, hjoin]
    rfl
  | size, outSize, [b0, b1], hsize, hout => by
    obtain ⟨h0, h1, _, _, _, _⟩ := bits_lt b0
    obtain ⟨_, _, h1', h2, _, _⟩ := bits_lt b1
    obtain ⟨_, _, _, _, h2', _⟩ := bits_lt 0
    obtain ⟨hfirst, hsecond, _⟩ := join_digits b0 b1 0
    rw [base64EncodeBuffer, if_neg (by simpa using hsize)]
    refine (decode_three h0 (or_lt_64 h1 h1') (or_lt_64 h2 h2') hout).trans ?_
    rw [decodeGroup, hfirst]
    simp only [hsecond]
    rfl
  | size, outSize, b0 :: b1 :: b2 :: input, hsize, hout => by
    have hlen : (b0 :: b1 :: b2 :: input).length + 2 = input.length + 2 + 3 := rfl
    rw [hlen, Nat.add_div_right _ (by decide)] at hsize
    simp only [List.length_cons] at hout
    obtain ⟨h0, h1, _, _, _, _⟩ := bits_lt b0
    obtain ⟨_, _, h1', h2, _, _⟩ := bits_lt b1
    obtain ⟨_, _, _, _, h2', h3⟩ := bits_lt b2
    obtain ⟨hfirst, hsecond, hthird⟩ := join_digits b0 b1 b2
    rw [base64EncodeBuffer, if_neg (by omega)]
    refine (decode_four h0 (or_lt_64 h1 h1') (or_lt_64 h2 h2') h3 (by omega)
      (base64EncodeBuffer (size - 4) input).bytes).trans ?_
    rw [decodeGroup, hfirst, decode_encode (by omega) (by omega)]
    simp only [hsecond, hthird]
    rfl

/-- **Base64**: the wrapper encodes as RFC 4648 says and is read back; the buffer form fails
exactly when the output is too small, and stays inside it. -/
theorem base64_round_trip :
    (∀ s : List UInt8, s.length < 2 ^ 30 →
      (base64EncodeBuffer (max 5 (s.length * 2)) s).complete = true ∧
      (base64Encode s).length = 4 * ((s.length + 2) / 3) ∧
      base64Encode s = Rfc4648.encode s ∧ base64Decode (base64Encode s) = s) ∧
    ∀ (outSize : Nat) (s : List UInt8),
      ((base64EncodeBuffer outSize s).ret = -1 ↔ outSize < 4 * ((s.length + 2) / 3)) ∧
      (base64EncodeBuffer outSize s).bytes.length ≤ outSize := by
  refine ⟨fun s hs => ?_, fun outSize s =>
    ⟨encodeBuffer_ret outSize s, encodeBuffer_within outSize s⟩⟩
  have hroom : 4 * ((s.length + 2) / 3) ≤ max 5 (s.length * 2) := by omega
  have hlen := encode_length s
  have hspec := encodeBuffer_spec hroom
  have hencode : base64Encode s = encode s := by
    rw [base64Encode_eq, hspec, Written.str_eq rfl (by rw [hlen]; omega)]
  have hdecode := @decode_encode _ (encode s).length s hroom (by omega)
  rw [hspec] at hdecode
  refine ⟨by rw [hspec], by rw [hencode, hlen], hencode, ?_⟩
  rw [hencode, base64Decode, hdecode, Written.str_eq rfl (by change s.length < 2 ^ 31; omega)]

theorem foob_round_trip : base64Decode (base64Encode [102, 111, 111, 98]) = [102, 111, 111, 98] :=
  (base64_round_trip.1 [102, 111, 111, 98] (by decide)).2.2.2

end Codec

end Brickred
