import Brickred.Lib.PercentEncoding
import Brickred.Codec.Output
import Brickred.StringUtil

/-!
# `urlEncode` and `urlDecode` (model of `url.cc`)

* `urlEncodeBuffer`, `urlDecodeBuffer` — the buffer forms.
* `urlEncode`, `urlDecode` — the wrappers; no result when the vector of the output is larger than
  a vector can be.
* `encodeBuffer_denotes`, `decodeBuffer_of_denotes`, `denotes_of_complete` — the encoder writes a
  percent-encoded text, and the decoder accepts these texts and no others.
* `url_codec_iff` — the counts are right as long as they fit an `int`.
-/

set_option autoImplicit false

namespace Brickred

namespace Codec

namespace Url

open StringUtil PercentEncoding

/-! ## The source -/

/-- `s_hex_to_letter` -/
def hexToLetter : List UInt8 := bytes "0123456789ABCDEF"

def isUnreservedChar (c : UInt8) : Bool :=
  c ∈ bytes "0123456789abcdefghijklmnopqrstuvwxyzABCDEFGHIJKLMNOPQRSTUVWXYZ-._~"

def letterToHex (c : UInt8) : Int :=
  match (bytes "0123456789").findIdx? (· = c) with
  | some i => i
  | none =>
    match (bytes "abcdef").findIdx? (· = c), (bytes "ABCDEF").findIdx? (· = c) with
    | some i, _ => i + 10
    | none, some i => i + 10
    | none, none => -1

def urlEncodeBuffer : Nat → List UInt8 → Written
  | _, [] => ⟨true, []⟩
  | outSize, c :: input =>
    if isUnreservedChar c then
      if outSize < 1 then .fail else (urlEncodeBuffer (outSize - 1) input).put [c]
    else if outSize < 3 then .fail
    else
      (urlEncodeBuffer (outSize - 3) input).put
        [37, hexToLetter.getD (c >>> 4).toNat 0, hexToLetter.getD (c &&& 0x0f).toNat 0]

def urlDecodeBuffer : Nat → List UInt8 → Written
  | _, [] => ⟨true, []⟩
  | outSize, c :: input =>
    if c = 37 then
      match input with
      | high :: low :: input =>
        if outSize < 1 then .fail
        else if letterToHex high < 0 ∨ letterToHex low < 0 then .fail
        else
          (urlDecodeBuffer (outSize - 1) input).put
            [UInt8.ofInt (letterToHex high * 0x10 + letterToHex low)]
      | _ => .fail
    else if isUnreservedChar c then
      if outSize < 1 then .fail else (urlDecodeBuffer (outSize - 1) input).put [c]
    else .fail

/-- The wrapper. -/
def urlEncode (buffer : List UInt8) : Option (List UInt8) :=
  let size := max 1 (toSize (buffer.length * 3))
  if size < 2 ^ 63 then some (urlEncodeBuffer size buffer).str else none

/-- The wrapper. -/
def urlDecode (buffer : List UInt8) : Option (List UInt8) :=
  if buffer.length < 2 ^ 63 then some (urlDecodeBuffer buffer.length buffer).str else none

/-! ## Characters -/

theorem isUnreservedChar_iff (c : UInt8) : isUnreservedChar c = true ↔ Unreserved c := by
  have hbytes : bytes "0123456789abcdefghijklmnopqrstuvwxyzABCDEFGHIJKLMNOPQRSTUVWXYZ-._~" =
      charRun 48 10 ++ charRun 97 26 ++ charRun 65 26 ++ [45, 46, 95, 126] := rfl
  rw [isUnreservedChar, decide_eq_true_eq, hbytes]
  simp only [List.mem_append, List.mem_cons, List.not_mem_nil, or_false, Unreserved,
    UInt8.le_iff_toNat_le]
  rw [mem_charRun (by omega), mem_charRun (by omega), mem_charRun (by omega)]
  change _ ↔ (65 ≤ c.toNat ∧ c.toNat ≤ 90) ∨ (97 ≤ c.toNat ∧ c.toNat ≤ 122) ∨
    (48 ≤ c.toNat ∧ c.toNat ≤ 57) ∨ _
  constructor
  · rintro (((h | h) | h) | h)
    · exact .inr (.inr (.inl (by omega)))
    · exact .inr (.inl (by omega))
    · exact .inl (by omega)
    · exact .inr (.inr (.inr h))
  · rintro (h | h | h | h)
    · exact .inl (.inr (by omega))
    · exact .inl (.inl (.inr (by omega)))
    · exact .inl (.inl (.inl (by omega)))
    · exact .inr h

theorem letterToHex_eq (c : UInt8) : letterToHex c = ((hexValue c).map Int.ofNat).getD (-1) := by
  have hdigits : bytes "0123456789" = charRun 48 10 := rfl
  have hlower : bytes "abcdef" = charRun 97 6 := rfl
  have hupper : bytes "ABCDEF" = charRun 65 6 := rfl
  have hvalue : hexValue c = if 48 ≤ c.toNat ∧ c.toNat ≤ 57 then some (c.toNat - 48)
      else if 65 ≤ c.toNat ∧ c.toNat ≤ 70 then some (c.toNat - 55)
      else if 97 ≤ c.toNat ∧ c.toNat ≤ 102 then some (c.toNat - 87) else none := rfl
  rw [hvalue, letterToHex, hdigits, hlower, hupper, findIdx?_charRun (by omega),
    findIdx?_charRun (by omega), findIdx?_charRun (by omega)]
  by_cases hdigit : 48 ≤ c.toNat ∧ c.toNat ≤ 57
  · rw [if_pos (by omega), if_pos hdigit]
    rfl
  · rw [if_neg (by omega), if_neg hdigit]
    by_cases hup : 65 ≤ c.toNat ∧ c.toNat ≤ 70
    · rw [if_neg (by omega), if_pos (by omega), if_pos hup]
      simp only [Option.map_some, Option.getD_some, Int.ofNat_eq_natCast]
      omega
    · rw [if_neg hup]
      by_cases hlow : 97 ≤ c.toNat ∧ c.toNat ≤ 102
      · rw [if_pos (by omega), if_pos hlow]
        simp only [Option.map_some, Option.getD_some, Int.ofNat_eq_natCast]
        omega
      · rw [if_neg (by omega), if_neg (by omega), if_neg hlow]
        rfl

theorem hexToLetter_value (c : UInt8) :
    hexValue (hexToLetter.getD (c >>> 4).toNat 0) = some (c.toNat / 16) ∧
    hexValue (hexToLetter.getD (c &&& 0x0f).toNat 0) = some (c.toNat % 16) := by
  have hletter : ∀ n < 16, hexValue (hexToLetter.getD n 0) = some n := by decide
  have hhigh : (c >>> 4).toNat = c.toNat / 16 := by
    rw [UInt8.toNat_shiftRight, Nat.shiftRight_eq_div_pow]
    rfl
  have hlow : (c &&& 0x0f).toNat = c.toNat % 16 := by
    have hmask : (0x0f : UInt8).toNat = 2 ^ 4 - 1 := rfl
    rw [UInt8.toNat_and, hmask, Nat.and_two_pow_sub_one_eq_mod]
  have hlt := c.toNat_lt
  rw [hhigh, hlow]
  exact ⟨hletter _ (by omega), hletter _ (by omega)⟩

theorem percent_reserved : ¬ Unreserved 37 := by decide

/-! ## The encoder -/

theorem encodeBuffer_denotes : ∀ {outSize : Nat} {s : List UInt8}, encodedLength s ≤ outSize →
    (urlEncodeBuffer outSize s).complete = true ∧
    (urlEncodeBuffer outSize s).bytes.length = encodedLength s ∧
    Denotes (urlEncodeBuffer outSize s).bytes s
  | _, [], _ => ⟨rfl, rfl, .nil⟩
  | outSize, c :: s, h => by
    rw [encodedLength_cons] at h ⊢
    rw [urlEncodeBuffer]
    by_cases hc : Unreserved c
    · rw [if_pos hc] at h ⊢
      obtain ⟨hcomplete, hlen, hdenotes⟩ := @encodeBuffer_denotes (outSize - 1) s (by omega)
      rw [if_pos ((isUnreservedChar_iff c).2 hc), if_neg (by omega), ← hlen]
      exact ⟨hcomplete, Nat.add_comm _ 1, .char hc hdenotes⟩
    · rw [if_neg hc] at h ⊢
      obtain ⟨hcomplete, hlen, hdenotes⟩ := @encodeBuffer_denotes (outSize - 3) s (by omega)
      obtain ⟨hhigh, hlow⟩ := hexToLetter_value c
      have hescape := Denotes.escape hhigh hlow hdenotes
      rw [Nat.div_add_mod, UInt8.ofNat_toNat] at hescape
      rw [if_neg (fun hu => hc ((isUnreservedChar_iff c).1 hu)), if_neg (by omega), ← hlen]
      exact ⟨hcomplete, Nat.add_comm _ 3, hescape⟩

theorem encodeBuffer_full : ∀ {outSize : Nat} {s : List UInt8}, outSize < encodedLength s →
    (urlEncodeBuffer outSize s).complete = false
  | _, [], h => absurd h (Nat.not_lt_zero _)
  | outSize, c :: s, h => by
    rw [encodedLength_cons] at h
    rw [urlEncodeBuffer]
    by_cases hc : Unreserved c
    · rw [if_pos hc] at h
      rw [if_pos ((isUnreservedChar_iff c).2 hc)]
      split
      · rfl
      · exact @encodeBuffer_full (outSize - 1) s (by omega)
    · rw [if_neg hc] at h
      rw [if_neg (fun hu => hc ((isUnreservedChar_iff c).1 hu))]
      split
      · rfl
      · exact @encodeBuffer_full (outSize - 3) s (by omega)

theorem encodeBuffer_within : ∀ (outSize : Nat) (s : List UInt8),
    (urlEncodeBuffer outSize s).bytes.length ≤ outSize
  | _, [] => Nat.zero_le _
  | outSize, c :: s => by
    rw [urlEncodeBuffer]
    split
    · split
      · exact Nat.zero_le _
      · have ih := encodeBuffer_within (outSize - 1) s
        simp only [Written.put, List.length_append, List.length_singleton]
        omega
    · split
      · exact Nat.zero_le _
      · have ih := encodeBuffer_within (outSize - 3) s
        simp only [Written.put, List.length_append, List.length_cons, List.length_nil]
        omega

/-! ## The decoder -/

section Turn

variable {outSize : Nat} {c high low : UInt8} {t : List UInt8}

theorem decode_plain (hc : Unreserved c) (hroom : 1 ≤ outSize) :
    urlDecodeBuffer outSize (c :: t) = (urlDecodeBuffer (outSize - 1) t).put [c] := by
  have hne : c ≠ 37 := fun heq => percent_reserved (heq ▸ hc)
  rw [urlDecodeBuffer.eq_def]
  dsimp only
  rw [if_neg hne, if_pos ((isUnreservedChar_iff c).2 hc), if_neg (by omega)]

theorem decode_escape {x y : Nat} (hx : hexValue high = some x) (hy : hexValue low = some y)
    (hroom : 1 ≤ outSize) :
    urlDecodeBuffer outSize (37 :: high :: low :: t) =
      (urlDecodeBuffer (outSize - 1) t).put [UInt8.ofNat (16 * x + y)] := by
  have hhigh : letterToHex high = x := by rw [letterToHex_eq, hx]; rfl
  have hlow : letterToHex low = y := by rw [letterToHex_eq, hy]; rfl
  have hbyte : UInt8.ofInt ((x : Int) * 0x10 + y) = UInt8.ofNat (16 * x + y) := by
    apply UInt8.toNat_inj.1
    rw [UInt8.ofInt, UInt8.toNat_ofNat', UInt8.toNat_ofNat']
    omega
  rw [urlDecodeBuffer, if_pos rfl, if_neg (by omega), hhigh, hlow, if_neg (by omega), hbyte]

/-- What a turn of the loop has seen when it does not fail. -/
theorem decode_turn (h : (urlDecodeBuffer outSize (c :: t)).complete = true) :
    1 ≤ outSize ∧
      (Unreserved c ∨ c = 37 ∧ ∃ high low input x y, t = high :: low :: input ∧
        hexValue high = some x ∧ hexValue low = some y) := by
  have hvalue : ∀ {d : UInt8}, ¬ letterToHex d < 0 → ∃ x, hexValue d = some x := by
    intro d hd
    rw [letterToHex_eq] at hd
    cases hx : hexValue d with
    | none => rw [hx] at hd; exact absurd (by decide) hd
    | some x => exact ⟨x, rfl⟩
  rw [urlDecodeBuffer.eq_def] at h
  dsimp only at h
  split at h
  · rename_i hpercent
    split at h
    · rename_i high low input
      split at h
      · cases h
      · rename_i hroom
        split at h
        · cases h
        · rename_i hhex
          rw [not_or] at hhex
          obtain ⟨x, hx⟩ := hvalue hhex.1
          obtain ⟨y, hy⟩ := hvalue hhex.2
          exact ⟨by omega, Or.inr ⟨hpercent, high, low, input, x, y, rfl, hx, hy⟩⟩
    · cases h
  · split at h
    · rename_i hc
      split at h
      · cases h
      · exact ⟨by omega, Or.inl ((isUnreservedChar_iff c).1 hc)⟩
    · cases h

end Turn

theorem decodeBuffer_of_denotes {t s : List UInt8} (h : Denotes t s) :
    ∀ {outSize : Nat}, s.length ≤ outSize → urlDecodeBuffer outSize t = ⟨true, s⟩ := by
  induction h with
  | nil => exact fun _ => rfl
  | char hc _ ih =>
    intro outSize hroom
    rw [List.length_cons] at hroom
    rw [decode_plain hc (by omega), ih (by omega)]
    rfl
  | escape hx hy _ ih =>
    intro outSize hroom
    rw [List.length_cons] at hroom
    rw [decode_escape hx hy (by omega), ih (by omega)]
    rfl

theorem denotes_of_complete : ∀ {outSize : Nat} {t : List UInt8},
    (urlDecodeBuffer outSize t).complete = true →
    Denotes t (urlDecodeBuffer outSize t).bytes ∧
      (urlDecodeBuffer outSize t).bytes.length ≤ outSize
  | _, [], _ => ⟨.nil, Nat.zero_le _⟩
  | outSize, c :: t, h => by
    obtain ⟨hroom, hc | ⟨rfl, high, low, input, x, y, rfl, hx, hy⟩⟩ := decode_turn h
    · rw [decode_plain hc hroom] at h ⊢
      obtain ⟨hdenotes, hlen⟩ := @denotes_of_complete (outSize - 1) t h
      refine ⟨.char hc hdenotes, ?_⟩
      simp only [Written.put, List.length_append, List.length_singleton]
      omega
    · rw [decode_escape hx hy hroom] at h ⊢
      obtain ⟨hdenotes, hlen⟩ := @denotes_of_complete (outSize - 1) input h
      refine ⟨.escape hx hy hdenotes, ?_⟩
      simp only [Written.put, List.length_append, List.length_singleton]
      omega

theorem decodeBuffer_within : ∀ (outSize : Nat) (t : List UInt8),
    (urlDecodeBuffer outSize t).bytes.length ≤ outSize
  | _, [] => Nat.zero_le _
  | outSize, c :: t => by
    have hput : ∀ (b : UInt8) {w : Written}, w.bytes.length ≤ outSize - 1 → 1 ≤ outSize →
        (w.put [b]).bytes.length ≤ outSize := by
      intro b w hw hroom
      simp only [Written.put, List.length_append, List.length_singleton]
      omega
    rw [urlDecodeBuffer.eq_def]
    dsimp only
    split
    · split
      · rename_i input
        split
        · exact Nat.zero_le _
        · split
          · exact Nat.zero_le _
          · exact hput _ (decodeBuffer_within (outSize - 1) input) (by omega)
      · exact Nat.zero_le _
    · split
      · split
        · exact Nat.zero_le _
        · exact hput c (decodeBuffer_within (outSize - 1) t) (by omega)
      · exact Nat.zero_le _

/-! ## The claims of the interface -/

/-- The wrappers are inverse on `s`. -/
def RoundTrips (s : List UInt8) : Prop := ((urlEncode s).bind urlDecode) = some s

/-- The buffer form of the decoder accepts what denotes bytes that fit, and only that. -/
def DecodesExactly (outSize : Nat) (t : List UInt8) : Prop :=
  (∀ s, Denotes t s → s.length ≤ outSize →
    (urlDecodeBuffer outSize t).ret = s.length ∧ (urlDecodeBuffer outSize t).bytes = s) ∧
  ((∀ s, Denotes t s → outSize < s.length) → (urlDecodeBuffer outSize t).ret = -1)

/-- The buffer form of the encoder fails when the text does not fit, and only then. -/
def EncodesExactly (outSize : Nat) (s : List UInt8) : Prop :=
  (urlEncodeBuffer outSize s).ret = -1 ↔ outSize < encodedLength s

theorem decodesExactly_iff (outSize : Nat) (t : List UInt8) :
    DecodesExactly outSize t ↔
      ∀ s, Denotes t s → s.length ≤ outSize → s.length < 2 ^ 31 := by
  constructor
  · rintro ⟨haccept, _⟩ s hs hfits
    obtain ⟨hret, hbytes⟩ := haccept s hs hfits
    rw [decodeBuffer_of_denotes hs hfits] at hret
    have hlt := toInt_lt s.length
    simp only [Written.ret, if_true] at hret
    omega
  · intro hshort
    refine ⟨fun s hs hfits => ?_, fun hnone => ?_⟩
    · rw [decodeBuffer_of_denotes hs hfits]
      exact ⟨Written.ret_eq rfl (hshort s hs hfits), rfl⟩
    · rw [Written.ret, if_neg]
      intro hcomplete
      obtain ⟨hdenotes, hfits⟩ := denotes_of_complete hcomplete
      exact absurd hfits (Nat.not_le.2 (hnone _ hdenotes))

theorem encodesExactly_iff (outSize : Nat) (s : List UInt8) :
    EncodesExactly outSize s ↔
      (encodedLength s ≤ outSize → encodedLength s % 2 ^ 32 ≠ 2 ^ 32 - 1) := by
  unfold EncodesExactly
  by_cases h : encodedLength s ≤ outSize
  · obtain ⟨hcomplete, hlen, _⟩ := encodeBuffer_denotes h
    have hret : (urlEncodeBuffer outSize s).ret = -1 ↔
        encodedLength s % 2 ^ 32 = 2 ^ 32 - 1 := by
      rw [Written.ret, if_pos hcomplete, hlen]
      unfold toInt Int.bmod
      dsimp only
      split <;> omega
    rw [hret]
    constructor
    · exact fun hiff _ heq => absurd (hiff.1 heq) (Nat.not_lt.2 h)
    · exact fun hne => iff_of_false (hne h) (Nat.not_lt.2 h)
  · have hret : (urlEncodeBuffer outSize s).ret = -1 := by
      rw [Written.ret, encodeBuffer_full (Nat.not_le.1 h)]
      rfl
    exact iff_of_true (iff_of_true hret (Nat.not_le.1 h)) fun hle => absurd hle h

theorem ret_lt (w : Written) : w.ret < 2 ^ 31 := by
  unfold Written.ret
  split
  · exact toInt_lt _
  · decide

theorem str_length_lt (w : Written) : w.str.length < 2 ^ 31 := by
  have hlt := ret_lt w
  unfold Written.str
  split
  · decide
  · rw [List.length_take]
    omega

/-- A string that is not empty is a beginning of what a call writes that comes to its end. -/
theorem str_ne_nil {w : Written} (h : w.str ≠ []) :
    w.complete = true ∧ ∃ n, w.str = w.bytes.take n := by
  unfold Written.str at h ⊢
  split at h
  · exact absurd rfl h
  · rename_i hret
    rw [if_neg hret]
    refine ⟨?_, w.ret.toNat, rfl⟩
    by_contra hc
    rw [Written.ret, if_neg hc] at hret
    exact hret (by decide)

theorem roundTrips_iff (s : List UInt8) : RoundTrips s ↔ encodedLength s < 2 ^ 31 := by
  obtain ⟨hlow, hhigh⟩ := encodedLength_bounds s
  unfold RoundTrips
  constructor
  · intro h
    by_contra hlong
    obtain ⟨t, ht, hs⟩ := Option.bind_eq_some_iff.1 h
    -- the text the wrapper returns is shorter than any text for `s`
    have hshort : t.length < 2 ^ 31 := by
      unfold urlEncode at ht
      dsimp only at ht
      split at ht
      · cases ht
        exact str_length_lt _
      · cases ht
    unfold urlDecode at hs
    rw [if_pos (by omega)] at hs
    have hstr := Option.some.inj hs
    have hne : (urlDecodeBuffer t.length t).str ≠ [] := by
      rw [hstr]
      rintro rfl
      exact hlong (by decide)
    obtain ⟨hcomplete, n, htake⟩ := str_ne_nil hne
    have hle := (denotes_of_complete hcomplete).1.encodedLength_le
    have htakele := encodedLength_take_le n (urlDecodeBuffer t.length t).bytes
    rw [← htake, hstr] at htakele
    omega
  · intro h
    have hsize : toSize (s.length * 3) = s.length * 3 := toSize_eq (by omega)
    have hroom : encodedLength s ≤ max 1 (s.length * 3) := by omega
    obtain ⟨hcomplete, hlen, hdenotes⟩ := encodeBuffer_denotes hroom
    have hencode : urlEncode s = some (urlEncodeBuffer (max 1 (s.length * 3)) s).bytes := by
      unfold urlEncode
      rw [hsize, if_pos (by omega), Written.str_eq hcomplete (by omega)]
    have hdecode := @decodeBuffer_of_denotes _ s hdenotes
      (urlEncodeBuffer (max 1 (s.length * 3)) s).bytes.length (by omega)
    have hbytes : s.length < 2 ^ 31 := by omega
    rw [hencode, Option.bind_some, urlDecode, if_pos (by omega), hdecode,
      Written.str_eq rfl hbytes]

/-- **The codec is exact** as far as its `int` counts reach; it never leaves the output. -/
theorem url_codec_iff (s t : List UInt8) (outSize : Nat) :
    (RoundTrips s ↔ encodedLength s < 2 ^ 31) ∧
    (DecodesExactly outSize t ↔ ∀ s, Denotes t s → s.length ≤ outSize → s.length < 2 ^ 31) ∧
    (EncodesExactly outSize s ↔
      (encodedLength s ≤ outSize → encodedLength s % 2 ^ 32 ≠ 2 ^ 32 - 1)) ∧
    (urlEncodeBuffer outSize s).bytes.length ≤ outSize ∧
    (urlDecodeBuffer outSize t).bytes.length ≤ outSize :=
  ⟨roundTrips_iff s, decodesExactly_iff outSize t, encodesExactly_iff outSize s,
    encodeBuffer_within outSize s, decodeBuffer_within outSize t⟩

theorem encodedLength_replicate {c : UInt8} (hc : Unreserved c) (n : Nat) :
    encodedLength (List.replicate n c) = n := by
  rw [encodedLength, List.map_replicate, if_pos hc, List.sum_replicate_nat, Nat.mul_one]

/-- 2 GiB of the letter `a`. -/
theorem long_text_lost : ¬ RoundTrips (List.replicate (2 ^ 31) 97) := by
  rw [roundTrips_iff, encodedLength_replicate (by decide)]
  exact Nat.lt_irrefl _

end Url

end Codec

end Brickred
