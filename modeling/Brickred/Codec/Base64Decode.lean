import Brickred.Codec.Base64RoundTrip

/-!
# What the decoder accepts

* `decode_denotes` — a base64 text is decoded to the bytes it denotes.
* `decodeBuffer_grouped` — the decoder comes to its end on whole groups with two characters each
  that count, whatever the characters are.
* `decode_exact_iff` — so the base64 texts and the texts with a group below two are told apart, and
  no others.
-/

set_option autoImplicit false

namespace Brickred

namespace Codec

open Rfc4648 StringUtil

/-! ## Groups -/

/-- The characters of a group that count. -/
def counted (group : List UInt8) : Nat := (group.filter fun c => (decodeDigit c).isSome).length

/-- Whole groups, and two characters that count in each. -/
def Grouped : List UInt8 → Prop
  | [] => True
  | c0 :: c1 :: c2 :: c3 :: input => 2 ≤ counted [c0, c1, c2, c3] ∧ Grouped input
  | _ => False

/-- The number of bytes the whole groups are decoded to. -/
def decodedSize : List UInt8 → Nat
  | c0 :: c1 :: c2 :: c3 :: input => counted [c0, c1, c2, c3] - 1 + decodedSize input
  | _ => 0

theorem decodeGroup_length (b0 b1 b2 b3 : UInt8) {bLen : Nat} (hlow : 2 ≤ bLen) (hhigh : bLen ≤ 4) :
    (decodeGroup b0 b1 b2 b3 bLen).length = bLen - 1 := by
  obtain rfl | rfl | rfl : bLen = 2 ∨ bLen = 3 ∨ bLen = 4 := by omega
  · rfl
  · rfl
  · rfl

/-- **The loop** looks at nothing but the numbers of characters that count. -/
theorem decodeBuffer_grouped : ∀ {outSize : Nat} {input : List UInt8},
    decodedSize input ≤ outSize →
    ((base64DecodeBuffer outSize input).complete = true ↔ Grouped input) ∧
      (Grouped input → (base64DecodeBuffer outSize input).bytes.length = decodedSize input)
  | _, [], _ => ⟨iff_of_true rfl trivial, fun _ => rfl⟩
  | _, [_], _ => ⟨iff_of_false Bool.false_ne_true id, False.elim⟩
  | _, [_, _], _ => ⟨iff_of_false Bool.false_ne_true id, False.elim⟩
  | _, [_, _, _], _ => ⟨iff_of_false Bool.false_ne_true id, False.elim⟩
  | outSize, c0 :: c1 :: c2 :: c3 :: input, h => by
    have hhigh : counted [c0, c1, c2, c3] ≤ 4 := List.length_filter_le _ _
    rw [decodedSize] at h
    obtain ⟨hcomplete, hlength⟩ := @decodeBuffer_grouped (outSize - (counted [c0, c1, c2, c3] - 1))
      input (by omega)
    have hcount : ([c0, c1, c2, c3].filter fun c => (decodeDigit c).isSome).length =
      counted [c0, c1, c2, c3] := rfl
    rw [Grouped, decodedSize]
    by_cases hlow : counted [c0, c1, c2, c3] < 2
    · rw [base64DecodeBuffer]
      dsimp only
      rw [hcount, if_pos hlow]
      exact ⟨iff_of_false Bool.false_ne_true fun hgrouped => Nat.not_lt.2 hgrouped.1 hlow,
        fun hgrouped => absurd hgrouped.1 (Nat.not_le.2 hlow)⟩
    · rw [decode_group hcount (Nat.not_lt.1 hlow) (by omega)]
      refine ⟨hcomplete.trans (and_iff_right (Nat.not_lt.1 hlow)).symm, fun hgrouped => ?_⟩
      rw [Written.put, List.length_append, hlength hgrouped.2,
        decodeGroup_length _ _ _ _ hgrouped.1 hhigh]

/-! ## Texts -/

/-- A digit of a value, and the value stored for it. -/
theorem alphabet_eq {v : Nat} (h : v < 64) :
    alphabet v = encodeDigit (UInt8.ofNat v) ∧ (UInt8.ofNat v).toNat = v := by
  have hvalue : (UInt8.ofNat v).toNat = v := UInt8.toNat_ofNat_of_lt' (by
    change v < 256
    omega)
  refine ⟨?_, hvalue⟩
  rw [encodeDigit_eq (by rw [hvalue]; exact h), hvalue]

/-- A byte made of the end of one value and the beginning of the next. -/
theorem or_eq_ofNat {x y : UInt8} {a n : Nat} (hx : x.toNat = a * 2 ^ n) (hy : y.toNat < 2 ^ n) :
    x ||| y = UInt8.ofNat (a * 2 ^ n + y.toNat) := by
  rw [Nat.mul_comm, Nat.two_pow_add_eq_or_of_lt hy, Nat.mul_comm, ← hx, ← UInt8.toNat_or,
    UInt8.ofNat_toNat]

section Values

variable {v0 v1 v2 v3 : Nat}

theorem byte_first (h0 : v0 < 64) (h1 : v1 < 64) :
    UInt8.ofNat v0 <<< 2 ||| UInt8.ofNat v1 >>> 4 = UInt8.ofNat (v0 * 4 + v1 / 16) := by
  obtain ⟨_, h0'⟩ := alphabet_eq h0
  obtain ⟨_, h1'⟩ := alphabet_eq h1
  have hfront : (UInt8.ofNat v0 <<< 2).toNat = v0 * 2 ^ 2 := by
    change (UInt8.ofNat v0).toNat <<< 2 % 2 ^ 8 = _
    rw [h0', Nat.shiftLeft_eq]
    omega
  have hback : (UInt8.ofNat v1 >>> 4).toNat = v1 / 16 := by
    change (UInt8.ofNat v1).toNat >>> 4 = _
    rw [h1', Nat.shiftRight_eq_div_pow]
  rw [or_eq_ofNat hfront (by rw [hback]; omega), hback]
  rfl

theorem byte_second (h1 : v1 < 64) (h2 : v2 < 64) :
    UInt8.ofNat v1 <<< 4 ||| UInt8.ofNat v2 >>> 2 = UInt8.ofNat (v1 % 16 * 16 + v2 / 4) := by
  obtain ⟨_, h1'⟩ := alphabet_eq h1
  obtain ⟨_, h2'⟩ := alphabet_eq h2
  have hfront : (UInt8.ofNat v1 <<< 4).toNat = v1 % 16 * 2 ^ 4 := by
    change (UInt8.ofNat v1).toNat <<< 4 % 2 ^ 8 = _
    rw [h1', Nat.shiftLeft_eq]
    omega
  have hback : (UInt8.ofNat v2 >>> 2).toNat = v2 / 4 := by
    change (UInt8.ofNat v2).toNat >>> 2 = _
    rw [h2', Nat.shiftRight_eq_div_pow]
  rw [or_eq_ofNat hfront (by rw [hback]; omega), hback]
  rfl

theorem byte_third (h2 : v2 < 64) (h3 : v3 < 64) :
    UInt8.ofNat v2 <<< 6 ||| UInt8.ofNat v3 = UInt8.ofNat (v2 % 4 * 64 + v3) := by
  obtain ⟨_, h2'⟩ := alphabet_eq h2
  obtain ⟨_, h3'⟩ := alphabet_eq h3
  have hfront : (UInt8.ofNat v2 <<< 6).toNat = v2 % 4 * 2 ^ 6 := by
    change (UInt8.ofNat v2).toNat <<< 6 % 2 ^ 8 = _
    rw [h2', Nat.shiftLeft_eq]
    omega
  rw [or_eq_ofNat hfront (by rw [h3']; exact h3), h3']
  rfl

end Values

/-- **A base64 text** is decoded to the bytes it denotes. -/
theorem decode_denotes {text bytes : List UInt8} (h : Denotes text bytes) {outSize : Nat}
    (hroom : bytes.length ≤ outSize) : base64DecodeBuffer outSize text = ⟨true, bytes⟩ := by
  induction hlength : text.length using Nat.strong_induction_on generalizing text bytes outSize with
  | _ n ih =>
    rcases denotes_cases h with ⟨rfl, rfl⟩ | ⟨v0, v1, h0, h1, rfl, rfl⟩ |
      ⟨v0, v1, v2, h0, h1, h2, rfl, rfl⟩ |
      ⟨v0, v1, v2, v3, text', bytes', h0, h1, h2, h3, rfl, rfl, h'⟩
    · rfl
    · obtain ⟨hdigit0, hvalue0⟩ := alphabet_eq h0
      obtain ⟨hdigit1, hvalue1⟩ := alphabet_eq h1
      rw [unpack_two h0 h1] at hroom ⊢
      rw [hdigit0, hdigit1, decode_two (by rwa [hvalue0]) (by rwa [hvalue1]) hroom, decodeGroup,
        byte_first h0 h1]
      rfl
    · obtain ⟨hdigit0, hvalue0⟩ := alphabet_eq h0
      obtain ⟨hdigit1, hvalue1⟩ := alphabet_eq h1
      obtain ⟨hdigit2, hvalue2⟩ := alphabet_eq h2
      rw [unpack_three h0 h1 h2] at hroom ⊢
      rw [hdigit0, hdigit1, hdigit2, decode_three (by rwa [hvalue0]) (by rwa [hvalue1])
        (by rwa [hvalue2]) hroom, decodeGroup, byte_first h0 h1, byte_second h1 h2]
      rfl
    · obtain ⟨hdigit0, hvalue0⟩ := alphabet_eq h0
      obtain ⟨hdigit1, hvalue1⟩ := alphabet_eq h1
      obtain ⟨hdigit2, hvalue2⟩ := alphabet_eq h2
      obtain ⟨hdigit3, hvalue3⟩ := alphabet_eq h3
      rw [unpack_four h0 h1 h2 h3] at hroom ⊢
      simp only [List.length_append, List.length_cons, List.length_nil] at hroom hlength
      have hrest : base64DecodeBuffer (outSize - 3) text' = ⟨true, bytes'⟩ :=
        ih text'.length (by omega) h' (by omega) rfl
      rw [hdigit0, hdigit1, hdigit2, hdigit3, decode_four (by rwa [hvalue0]) (by rwa [hvalue1])
        (by rwa [hvalue2]) (by rwa [hvalue3]) (by omega), hrest, decodeGroup, byte_first h0 h1,
        byte_second h1 h2, byte_third h2 h3]
      rfl

/-- A base64 text is made of whole groups, and denotes as many bytes as they are decoded to. -/
theorem denotes_grouped {text bytes : List UInt8} (h : Denotes text bytes) :
    Grouped text ∧ bytes.length = decodedSize text := by
  have hdecode := decode_denotes h (le_max_left bytes.length (decodedSize text))
  obtain ⟨hcomplete, hlength⟩ :=
    @decodeBuffer_grouped (max bytes.length (decodedSize text)) text (le_max_right _ _)
  rw [hdecode] at hcomplete hlength
  have hgrouped := hcomplete.1 rfl
  exact ⟨hgrouped, hlength hgrouped⟩

/-! ## What is accepted -/

/-- A base64 text gives the count and the bytes it denotes, and every other one gives `-1`. -/
def Exact (w : Written) (input : List UInt8) : Prop :=
  (∀ bytes, Denotes input bytes → w.ret = bytes.length ∧ w.bytes = bytes) ∧
    ((¬ ∃ bytes, Denotes input bytes) → w.ret = -1)

theorem ret_grouped {outSize : Nat} {input : List UInt8} (h : decodedSize input ≤ outSize) :
    (Grouped input → (base64DecodeBuffer outSize input).ret = toInt (decodedSize input)) ∧
      (¬ Grouped input → (base64DecodeBuffer outSize input).ret = -1) := by
  obtain ⟨hcomplete, hlength⟩ := decodeBuffer_grouped h
  refine ⟨fun hgrouped => ?_, fun hgrouped => ?_⟩
  · rw [Written.ret, if_pos (hcomplete.2 hgrouped), hlength hgrouped]
  · rw [Written.ret, if_neg fun hc => hgrouped (hcomplete.1 hc)]

/-- **The decoder is exact** on the base64 texts whose count is an `int`, and on the other texts
where a group is cut off or has fewer than two characters that count, or where the count becomes
`-1`. -/
theorem decode_exact_iff {input : List UInt8} {outSize : Nat}
    (hroom : decodedSize input ≤ outSize) :
    Exact (base64DecodeBuffer outSize input) input ↔
      (∃ bytes, Denotes input bytes ∧ bytes.length < 2 ^ 31) ∨
      (¬ ∃ bytes, Denotes input bytes) ∧
        (¬ Grouped input ∨ toInt (decodedSize input) = -1) := by
  obtain ⟨hgroups, hnone⟩ := ret_grouped hroom
  by_cases h : ∃ bytes, Denotes input bytes
  · obtain ⟨bytes, hbytes⟩ := h
    obtain ⟨hgrouped, hlength⟩ := denotes_grouped hbytes
    have hret := hgroups hgrouped
    rw [← hlength] at hret hroom
    have hdecode := decode_denotes hbytes hroom
    have hunique : ∀ bytes', Denotes input bytes' → bytes' = bytes := by
      intro bytes' hbytes'
      obtain ⟨_, hlength'⟩ := denotes_grouped hbytes'
      have hdecode' : base64DecodeBuffer outSize input = ⟨true, bytes'⟩ :=
        decode_denotes hbytes' (by omega)
      exact congrArg Written.bytes (hdecode'.symm.trans hdecode)
    constructor
    · intro hexact
      have hcount := (hexact.1 bytes hbytes).1
      have hlt := toInt_lt bytes.length
      rw [hret] at hcount
      exact Or.inl ⟨bytes, hbytes, by omega⟩
    · rintro (⟨bytes', hbytes', hlt⟩ | ⟨hinvalid, _⟩)
      · obtain rfl := hunique bytes' hbytes'
        refine ⟨fun bytes hbytes => ?_, fun hinvalid => absurd ⟨_, hbytes'⟩ hinvalid⟩
        obtain rfl := hunique bytes hbytes
        rw [hret, hdecode, toInt_eq (by omega) (by omega)]
        exact ⟨rfl, rfl⟩
      · exact absurd ⟨bytes, hbytes⟩ hinvalid
  · have hexact : Exact (base64DecodeBuffer outSize input) input ↔
        (base64DecodeBuffer outSize input).ret = -1 :=
      ⟨fun hexact => hexact.2 h, fun hret =>
        ⟨fun bytes hbytes => absurd ⟨bytes, hbytes⟩ h, fun _ => hret⟩⟩
    have hvalid : ¬ ∃ bytes, Denotes input bytes ∧ bytes.length < 2 ^ 31 := by
      rintro ⟨bytes, hbytes, _⟩
      exact h ⟨bytes, hbytes⟩
    rw [hexact, or_iff_right hvalid, and_iff_right h]
    by_cases hgrouped : Grouped input
    · rw [hgroups hgrouped, or_iff_right (not_not.2 hgrouped)]
    · exact iff_of_true (hnone hgrouped) (Or.inl hgrouped)

/-- No character is in the alphabet, and all four count. -/
def atSigns : List UInt8 := bytes "@@@@"

theorem atSigns_iff : Exact (base64DecodeBuffer 3 atSigns) atSigns ↔
    (∃ bytes, Denotes atSigns bytes ∧ bytes.length < 2 ^ 31) ∨
    (¬ ∃ bytes, Denotes atSigns bytes) ∧
      (¬ Grouped atSigns ∨ toInt (decodedSize atSigns) = -1) :=
  decode_exact_iff (by decide)

/-- They are decoded to three bytes. -/
theorem atSigns_not_exact : ¬ Exact (base64DecodeBuffer 3 atSigns) atSigns := by
  have hret : (base64DecodeBuffer 3 atSigns).ret = 3 := by decide
  have hnone : ¬ ∃ bytes, Denotes atSigns bytes := by
    rintro ⟨bytes, h⟩
    have halphabet : ∀ v < 64, (64 : UInt8) ≠ alphabet v := by decide
    rcases denotes_mem h (c := 64) (by decide) with ⟨v, hv, hc⟩ | hc
    · exact halphabet v hv hc
    · cases hc
  intro h
  rw [h.2 hnone] at hret
  cases hret

end Codec

end Brickred
