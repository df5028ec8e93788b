import Brickred.WebSocket.Protocol

/-!
# Frames on the wire

What `parseFrame` accepts, and how far it looks.

* `parseFrame_congr` — an accepted frame is read off its own bytes only; `parseFrame_invalid_append`
  — a malformed one stays malformed when more bytes arrive.
* `SentFrame.bytes` — a frame as an endpoint may send it, in any of the three length forms;
  `parseFrame_bytes` — `parseFrame` reads it back, whatever follows it.
-/

set_option autoImplicit false

namespace Brickred

namespace WebSocketProtocol

variable {isClient : Bool} {buffer buffer' : List UInt8} {b0 b1 : UInt8} {tail : List UInt8}
  {f : Frame}

/-! ## How far `parseFrame` looks -/

theorem parseFrame_eq (isClient : Bool) (b0 b1 : UInt8) (tail : List UInt8) :
    parseFrame isClient (b0 :: b1 :: tail) =
      if b0 &&& 0x70 ≠ 0 then .error .invalid
      else (readPayloadLength (b0 :: b1 :: tail) b1).bind fun n =>
        (readMaskKey isClient (b0 :: b1 :: tail) b1 n.2).bind fun k =>
          (readPayload (b0 :: b1 :: tail) k.1 n.1 k.2).bind fun payload =>
            .ok ⟨b0 &&& 0x80 ≠ 0, b0 &&& 0x0f, payload, k.2 + n.1⟩ := rfl

theorem bind_eq_ok {ε α β : Type} {x : Except ε α} {g : α → Except ε β} {b : β} :
    x.bind g = .ok b ↔ ∃ a, x = .ok a ∧ g a = .ok b := by
  cases x with
  | error e => simp [Except.bind]
  | ok a => simp [Except.bind]

theorem bind_eq_error {ε α β : Type} {x : Except ε α} {g : α → Except ε β} {e : ε} :
    x.bind g = .error e ↔ x = .error e ∨ ∃ a, x = .ok a ∧ g a = .error e := by
  cases x with
  | error e' => simp [Except.bind]
  | ok a => simp [Except.bind]

theorem take_take_of_le {n m : Nat} (hnm : n ≤ m) (h : buffer'.take m = buffer.take m) :
    buffer'.take n = buffer.take n := by
  have := congrArg (List.take n) h
  rwa [List.take_take, List.take_take, Nat.min_eq_left hnm] at this

theorem readPayloadLength_congr {r : Nat × Nat} (hr : readPayloadLength buffer b1 = .ok r)
    (h : buffer'.take r.2 = buffer.take r.2) : readPayloadLength buffer' b1 = .ok r := by
  unfold readPayloadLength at hr ⊢
  dsimp only at hr ⊢
  split at hr
  · rename_i h126
    rw [if_pos h126]
    cases hv : DynamicBuffer.peekInt16 buffer 2 with
    | none => rw [hv] at hr; cases hr
    | some v =>
      rw [hv] at hr
      dsimp only at hr
      split at hr
      · cases hr
      · rename_i hv126
        cases hr
        have : DynamicBuffer.peekInt16 buffer' 2 = some v :=
          (DynamicBuffer.peekInt_congr h).trans hv
        rw [this]
        exact if_neg hv126
  · rename_i h126
    rw [if_neg h126]
    split at hr
    · rename_i h127
      rw [if_pos h127]
      cases hv : DynamicBuffer.peekInt64 buffer 2 with
      | none => rw [hv] at hr; cases hr
      | some v =>
        rw [hv] at hr
        dsimp only at hr
        split at hr
        · cases hr
        · rename_i hvmin
          cases hr
          have : DynamicBuffer.peekInt64 buffer' 2 = some v :=
            (DynamicBuffer.peekInt_congr h).trans hv
          rw [this]
          exact if_neg hvmin
    · rename_i h127
      rw [if_neg h127]
      exact hr

theorem readPayloadLength_pos {r : Nat × Nat} (hr : readPayloadLength buffer b1 = .ok r)
    (hlen : 2 ≤ buffer.length) : 2 ≤ r.2 ∧ r.2 ≤ buffer.length := by
  unfold readPayloadLength at hr
  dsimp only at hr
  split at hr
  · cases hv : DynamicBuffer.peekInt16 buffer 2 with
    | none => rw [hv] at hr; cases hr
    | some v =>
      have := DynamicBuffer.peekInt_length hv
      rw [hv] at hr
      dsimp only at hr
      split at hr <;> cases hr
      exact ⟨by omega, this⟩
  · split at hr
    · cases hv : DynamicBuffer.peekInt64 buffer 2 with
      | none => rw [hv] at hr; cases hr
      | some v =>
        have := DynamicBuffer.peekInt_length hv
        rw [hv] at hr
        dsimp only at hr
        split at hr <;> cases hr
        exact ⟨by omega, this⟩
    · cases hr
      exact ⟨le_rfl, hlen⟩

theorem readPayloadLength_invalid_append (ext : List UInt8)
    (hr : readPayloadLength buffer b1 = .error .invalid) :
    readPayloadLength (buffer ++ ext) b1 = .error .invalid := by
  have hpeek : ∀ {n v}, DynamicBuffer.peekInt n buffer 2 = some v →
      DynamicBuffer.peekInt n (buffer ++ ext) 2 = some v := by
    intro n v hv
    have := DynamicBuffer.peekInt_length hv
    rw [← hv]
    exact DynamicBuffer.peekInt_congr (List.take_append_of_le_length this)
  unfold readPayloadLength at hr ⊢
  dsimp only at hr ⊢
  split at hr
  · rename_i h126
    rw [if_pos h126]
    cases hv : DynamicBuffer.peekInt16 buffer 2 with
    | none => rw [hv] at hr; cases hr
    | some v =>
      rw [hv] at hr
      rw [show DynamicBuffer.peekInt16 (buffer ++ ext) 2 = some v from hpeek hv]
      exact hr
  · rename_i h126
    rw [if_neg h126]
    split at hr
    · rename_i h127
      rw [if_pos h127]
      cases hv : DynamicBuffer.peekInt64 buffer 2 with
      | none => rw [hv] at hr; cases hr
      | some v =>
        rw [hv] at hr
        rw [show DynamicBuffer.peekInt64 (buffer ++ ext) 2 = some v from hpeek hv]
        exact hr
    · cases hr

theorem readMaskKey_congr {p : Nat} {r : List UInt8 × Nat}
    (hr : readMaskKey isClient buffer b1 p = .ok r)
    (h : buffer'.take r.2 = buffer.take r.2) : readMaskKey isClient buffer' b1 p = .ok r := by
  have hlen := congrArg List.length h
  rw [List.length_take, List.length_take] at hlen
  unfold readMaskKey at hr ⊢
  split at hr
  · rename_i hm
    rw [if_pos hm]; exact hr
  · rename_i hm
    rw [if_neg hm]
    split at hr
    · cases hr
    · rename_i hc
      rw [if_neg hc]
      split at hr
      · cases hr
      · rename_i hshort
        cases hr
        dsimp only at h hlen
        rw [if_neg (by omega), List.take_drop, List.take_drop, h]

theorem readMaskKey_pos {p : Nat} {r : List UInt8 × Nat}
    (hr : readMaskKey isClient buffer b1 p = .ok r) (hp : p ≤ buffer.length) :
    p ≤ r.2 ∧ r.2 ≤ buffer.length := by
  unfold readMaskKey at hr
  split at hr
  · cases hr; exact ⟨le_rfl, hp⟩
  · split at hr
    · cases hr
    · split at hr <;> cases hr
      dsimp only
      omega

theorem readMaskKey_invalid_append {p : Nat} (ext : List UInt8)
    (hr : readMaskKey isClient buffer b1 p = .error .invalid) :
    readMaskKey isClient (buffer ++ ext) b1 p = .error .invalid := by
  unfold readMaskKey at hr ⊢
  split at hr
  · cases hr
  · rename_i hm
    rw [if_neg hm]
    split at hr
    · rename_i hc
      rw [if_pos hc]
    · split at hr <;> cases hr

theorem readPayload_ok {maskKey payload : List UInt8} {n p : Nat}
    (hr : readPayload buffer maskKey n p = .ok payload) (hp : p ≤ buffer.length) :
    p + n ≤ buffer.length ∧ payload = maskFrom maskKey 0 ((buffer.drop p).take n) := by
  unfold readPayload at hr
  split at hr <;> cases hr
  exact ⟨by omega, rfl⟩

theorem readPayload_not_invalid {maskKey : List UInt8} {n p : Nat} :
    readPayload buffer maskKey n p ≠ .error .invalid := by
  unfold readPayload
  split <;> simp

/-- The steps an accepted frame has gone through. -/
theorem parseFrame_ok (h : parseFrame isClient buffer = .ok f) :
    ∃ b0 b1 tail n p k q, buffer = b0 :: b1 :: tail ∧ b0 &&& 0x70 = 0 ∧
      readPayloadLength buffer b1 = .ok (n, p) ∧ readMaskKey isClient buffer b1 p = .ok (k, q) ∧
      2 ≤ p ∧ p ≤ q ∧ q + n ≤ buffer.length ∧
      f = ⟨b0 &&& 0x80 ≠ 0, b0 &&& 0x0f, maskFrom k 0 ((buffer.drop q).take n), q + n⟩ := by
  match buffer, h with
  | b0 :: b1 :: tail, h =>
    rw [parseFrame_eq] at h
    split at h
    · cases h
    · rename_i hrsv
      obtain ⟨⟨n, p⟩, hn, h⟩ := bind_eq_ok.1 h
      obtain ⟨⟨k, q⟩, hk, h⟩ := bind_eq_ok.1 h
      obtain ⟨payload, hpay, h⟩ := bind_eq_ok.1 h
      obtain ⟨hp2, hpl⟩ := readPayloadLength_pos hn (by simp)
      obtain ⟨hpq, hql⟩ := readMaskKey_pos hk hpl
      obtain ⟨hlen, rfl⟩ := readPayload_ok hpay hql
      cases h
      exact ⟨b0, b1, tail, n, p, k, q, rfl, not_not.1 hrsv, hn, hk, hp2, hpq, hlen, rfl⟩

theorem parseFrame_size (h : parseFrame isClient buffer = .ok f) :
    2 ≤ f.size ∧ f.size ≤ buffer.length := by
  obtain ⟨_, _, _, n, p, k, q, _, _, _, _, hp, hpq, hlen, rfl⟩ := parseFrame_ok h
  exact ⟨by dsimp only; omega, hlen⟩

/-- **An accepted frame** is read off its own bytes. -/
theorem parseFrame_congr (h : parseFrame isClient buffer = .ok f)
    (hb : buffer'.take f.size = buffer.take f.size) : parseFrame isClient buffer' = .ok f := by
  obtain ⟨b0, b1, tail, n, p, k, q, hbuf, hrsv, hn, hk, hp, hpq, hlen, rfl⟩ := parseFrame_ok h
  dsimp only at hb
  have hlen' := congrArg List.length hb
  rw [List.length_take, List.length_take] at hlen'
  have hn' := readPayloadLength_congr hn (take_take_of_le (by dsimp only; omega) hb)
  have hk' := readMaskKey_congr hk (take_take_of_le (by dsimp only; omega) hb)
  have hpay : readPayload buffer' k n q = .ok (maskFrom k 0 ((buffer.drop q).take n)) := by
    unfold readPayload
    rw [if_neg (by omega), List.take_drop, List.take_drop, hb]
  obtain ⟨tail', rfl⟩ : ∃ tail', buffer' = b0 :: b1 :: tail' := by
    have h2 : buffer'.take 2 = [b0, b1] := by
      rw [take_take_of_le (by omega) hb, hbuf]; rfl
    match buffer', h2 with
    | c0 :: c1 :: tail', h2 =>
      simp only [List.take_succ_cons, List.take_zero, List.cons.injEq, and_true] at h2
      exact ⟨tail', by rw [h2.1, h2.2]⟩
  rw [parseFrame_eq, if_neg (not_not.2 hrsv), hn']
  simp only [Except.bind, hk', hpay]

theorem parseFrame_append (ext : List UInt8) (h : parseFrame isClient buffer = .ok f) :
    parseFrame isClient (buffer ++ ext) = .ok f :=
  parseFrame_congr h (List.take_append_of_le_length (parseFrame_size h).2)

theorem parseFrame_take (h : parseFrame isClient buffer = .ok f) :
    parseFrame isClient (buffer.take f.size) = .ok f :=
  parseFrame_congr h (by rw [List.take_take, Nat.min_self])

/-- **A malformed frame** stays malformed. -/
theorem parseFrame_invalid_append (ext : List UInt8)
    (h : parseFrame isClient buffer = .error .invalid) :
    parseFrame isClient (buffer ++ ext) = .error .invalid := by
  match buffer, h with
  | b0 :: b1 :: tail, h =>
    rw [parseFrame_eq] at h
    rw [List.cons_append, List.cons_append, parseFrame_eq]
    split at h
    · rename_i hrsv
      rw [if_pos hrsv]
    · rename_i hrsv
      rw [if_neg hrsv]
      rw [← List.cons_append, ← List.cons_append]
      rcases bind_eq_error.1 h with hn | ⟨r, hn, h⟩
      · rw [readPayloadLength_invalid_append ext hn]; rfl
      · have hpos := readPayloadLength_pos hn (by simp)
        rw [readPayloadLength_congr hn (List.take_append_of_le_length hpos.2)]
        rcases bind_eq_error.1 h with hk | ⟨k, _, h⟩
        · simp only [Except.bind, readMaskKey_invalid_append ext hk]
        · rcases bind_eq_error.1 h with hpay | ⟨_, _, h⟩
          · exact absurd hpay readPayload_not_invalid
          · cases h

/-! ## Frames as they are sent -/

/-- The three ways to write the payload length. -/
inductive LengthForm where
  | bits7
  | bits16
  | bits64
  deriving DecidableEq

namespace LengthForm

/-- The seven bits in the second byte. -/
def code (n : Nat) : LengthForm → UInt8
  | bits7 => UInt8.ofNat n
  | bits16 => 126
  | bits64 => 127

def bytes (n : Nat) : LengthForm → List UInt8
  | bits7 => []
  | bits16 => BigEndian.toBytes 2 n
  | bits64 => BigEndian.toBytes 8 n

/-- The lengths `readFrame` takes in each form. -/
def Accepts (n : Nat) : LengthForm → Prop
  | bits7 => n < 126
  | bits16 => 126 ≤ n ∧ n < 2 ^ 16
  | bits64 => 0xffff ≤ n ∧ n < 2 ^ 64

/-- The lengths each form is able to hold. -/
def Holds (n : Nat) : LengthForm → Prop
  | bits7 => n < 126
  | bits16 => n < 2 ^ 16
  | bits64 => n < 2 ^ 64

theorem accepts_holds {n : Nat} : ∀ {form : LengthForm}, form.Accepts n → form.Holds n
  | bits7, h => h
  | bits16, h => h.2
  | bits64, h => h.2

/-- The shortest form able to hold the length. -/
def minimal (n : Nat) : LengthForm :=
  if n < 126 then bits7 else if n < 2 ^ 16 then bits16 else bits64

theorem minimal_accepts {n : Nat} (h : n < 2 ^ 64) : (minimal n).Accepts n := by
  unfold minimal
  split
  · assumption
  · split
    · exact ⟨by omega, by assumption⟩
    · exact ⟨by omega, h⟩

end LengthForm

/-- A frame as an endpoint may send it; without a `maskKey` it is not masked. -/
structure SentFrame where
  form : LengthForm
  fin : Bool
  opcode : UInt8
  maskKey : Option (Fin 4 → UInt8)
  payload : List UInt8

namespace SentFrame

def keyBytes (s : SentFrame) : List UInt8 := s.maskKey.elim [] List.ofFn

/-- The first two bytes and the length field. -/
def head (s : SentFrame) : List UInt8 :=
  ((if s.fin then 0x80 else 0) ||| s.opcode) ::
    ((if s.maskKey.isSome then 0x80 else 0) ||| s.form.code s.payload.length) ::
      s.form.bytes s.payload.length

def bytes (s : SentFrame) : List UInt8 :=
  s.head ++ s.keyBytes ++ maskFrom s.keyBytes 0 s.payload

/-- What a receiver in the role `isClient` may be sent. -/
structure Proper (isClient : Bool) (s : SentFrame) : Prop where
  opcode : s.opcode < 16
  accepts : s.form.Accepts s.payload.length
  unmasked : isClient = true → s.maskKey = none

end SentFrame

@[simp] theorem maskFrom_length (k : List UInt8) (i : Nat) (bs : List UInt8) :
    (maskFrom k i bs).length = bs.length := by
  induction bs generalizing i with
  | nil => rfl
  | cons b bs ih => rw [maskFrom, List.length_cons, ih, List.length_cons]

/-- Without a key the bytes stay as they are. -/
theorem maskFrom_nil (i : Nat) (bs : List UInt8) : maskFrom [] i bs = bs := by
  induction bs generalizing i with
  | nil => rfl
  | cons b bs ih => rw [maskFrom, ih, List.getD_nil, UInt8.xor_zero]

/-- **Unmasking is masking again.** -/
theorem maskFrom_maskFrom (k : List UInt8) (i : Nat) (bs : List UInt8) :
    maskFrom k i (maskFrom k i bs) = bs := by
  induction bs generalizing i with
  | nil => rfl
  | cons b bs ih =>
    rw [maskFrom, maskFrom, ih, UInt8.xor_assoc, UInt8.xor_self, UInt8.xor_zero]

/-- The bits of the first byte. -/
theorem firstByte_bits (fin : Bool) {op : UInt8} (hop : op < 16) :
    ((if fin then 0x80 else 0) ||| op) &&& 0x70 = 0 ∧
      decide (((if fin then 0x80 else 0) ||| op) &&& 0x80 ≠ 0) = fin ∧
      ((if fin then 0x80 else 0) ||| op) &&& 0x0f = op := by
  have hall : ∀ (fin : Bool) (k : Fin 16),
      ((if fin then 0x80 else 0) ||| UInt8.ofNat k) &&& 0x70 = 0 ∧
        decide (((if fin then 0x80 else 0) ||| UInt8.ofNat k) &&& 0x80 ≠ 0) = fin ∧
        ((if fin then 0x80 else 0) ||| UInt8.ofNat k) &&& 0x0f = UInt8.ofNat k := by decide
  have := hall fin ⟨op.toNat, hop⟩
  rwa [UInt8.ofNat_toNat] at this

/-- The bits of the second byte. -/
theorem secondByte_bits (masked : Bool) {l : UInt8} (hl : l < 128) :
    (((if masked then 0x80 else 0) ||| l) &&& 0x80 = 0 ↔ masked = false) ∧
      ((if masked then 0x80 else 0) ||| l) &&& 0x7f = l := by
  have hall : ∀ (masked : Bool) (k : Fin 128),
      (((if masked then 0x80 else 0) ||| UInt8.ofNat k) &&& 0x80 = 0 ↔ masked = false) ∧
        ((if masked then 0x80 else 0) ||| UInt8.ofNat k) &&& 0x7f = UInt8.ofNat k := by decide
  have := hall masked ⟨l.toNat, hl⟩
  rwa [UInt8.ofNat_toNat] at this

theorem LengthForm.code_lt {form : LengthForm} {n : Nat} (h : form.Holds n) :
    form.code n < 128 := by
  cases form with
  | bits7 =>
    have hn : n < 126 := h
    rw [UInt8.lt_iff_toNat_lt]
    show (UInt8.ofNat n).toNat < 128
    rw [UInt8.toNat_ofNat']
    omega
  | bits16 => exact (by decide : (126 : UInt8) < 128)
  | bits64 => exact (by decide : (127 : UInt8) < 128)

theorem readPayloadLength_bytes {form : LengthForm} {n : Nat} (h : form.Accepts n)
    (b0 b1 : UInt8) (hb1 : b1 &&& 0x7f = form.code n) (rest : List UInt8) :
    readPayloadLength (b0 :: b1 :: (form.bytes n ++ rest)) b1 =
      .ok (n, 2 + (form.bytes n).length) := by
  unfold readPayloadLength
  dsimp only
  rw [hb1]
  cases form with
  | bits7 =>
    have hn : n < 126 := h
    have hcode : (LengthForm.code n .bits7).toNat = n := by
      show (UInt8.ofNat n).toNat = n
      rw [UInt8.toNat_ofNat']; omega
    rw [hcode, if_neg (by omega), if_neg (by omega)]
    rfl
  | bits16 =>
    have hpeek : DynamicBuffer.peekInt16 (b0 :: b1 :: (LengthForm.bytes n .bits16 ++ rest)) 2 =
        some n := DynamicBuffer.peekInt_toBytes [b0, b1] rest (by simpa using h.2)
    have hcode : (LengthForm.code n .bits16).toNat = 126 := rfl
    rw [hcode, if_pos rfl, hpeek]
    exact if_neg (by have := h.1; omega)
  | bits64 =>
    have hpeek : DynamicBuffer.peekInt64 (b0 :: b1 :: (LengthForm.bytes n .bits64 ++ rest)) 2 =
        some n := DynamicBuffer.peekInt_toBytes [b0, b1] rest (by simpa using h.2)
    have hcode : (LengthForm.code n .bits64).toNat = 127 := rfl
    rw [hcode, if_neg (by decide), if_pos rfl, hpeek]
    exact if_neg (by have := h.1; omega)

theorem readMaskKey_bytes {s : SentFrame} (hs : s.Proper isClient) (b1 : UInt8)
    (hb1 : b1 &&& 0x80 = 0 ↔ s.maskKey.isSome = false) (front rest : List UInt8) :
    readMaskKey isClient (front ++ (s.keyBytes ++ rest)) b1 front.length =
      .ok (s.keyBytes, front.length + s.keyBytes.length) := by
  unfold readMaskKey
  cases hk : s.maskKey with
  | none =>
    have hkey : s.keyBytes = [] := by unfold SentFrame.keyBytes; rw [hk]; rfl
    rw [if_pos (hb1.2 (by rw [hk]; rfl)), hkey]
    rfl
  | some k =>
    have hkey : s.keyBytes = List.ofFn k := by unfold SentFrame.keyBytes; rw [hk]; rfl
    have hclient : ¬ isClient = true := fun hc => by
      have := hs.unmasked hc
      rw [hk] at this; cases this
    have hlen : (List.ofFn k).length = 4 := List.length_ofFn
    rw [if_neg (fun hx => by have := hb1.1 hx; rw [hk] at this; cases this), if_neg hclient, hkey,
      if_neg (by simp only [List.length_append]; omega), List.drop_left, List.take_left' hlen, hlen]

/-- **`parseFrame` reads a sent frame back**, whatever follows it. -/
theorem parseFrame_bytes {s : SentFrame} (hs : s.Proper isClient) (rest : List UInt8) :
    parseFrame isClient (s.bytes ++ rest) = .ok ⟨s.fin, s.opcode, s.payload, s.bytes.length⟩ := by
  obtain ⟨hrsv, hfin, hop⟩ := firstByte_bits s.fin hs.opcode
  obtain ⟨hmask, hcode⟩ := secondByte_bits s.maskKey.isSome
    (LengthForm.code_lt (LengthForm.accepts_holds hs.accepts))
  have hcons : s.bytes ++ rest =
      ((if s.fin then 0x80 else 0) ||| s.opcode) ::
        ((if s.maskKey.isSome then 0x80 else 0) ||| s.form.code s.payload.length) ::
          (s.form.bytes s.payload.length ++
            (s.keyBytes ++ (maskFrom s.keyBytes 0 s.payload ++ rest))) := by
    simp [SentFrame.bytes, SentFrame.head]
  have hn := readPayloadLength_bytes hs.accepts ((if s.fin then 0x80 else 0) ||| s.opcode) _ hcode
    (s.keyBytes ++ (maskFrom s.keyBytes 0 s.payload ++ rest))
  have hk := readMaskKey_bytes hs _ hmask s.head (maskFrom s.keyBytes 0 s.payload ++ rest)
  have hhead : s.head.length = 2 + (s.form.bytes s.payload.length).length := by
    simp only [SentFrame.head, List.length_cons]; omega
  have hp : readPayload (s.bytes ++ rest) s.keyBytes s.payload.length
      (s.head.length + s.keyBytes.length) = .ok s.payload := by
    have hfront : s.bytes ++ rest =
        (s.head ++ s.keyBytes) ++ (maskFrom s.keyBytes 0 s.payload ++ rest) := by
      simp [SentFrame.bytes]
    have hlen : (s.head ++ s.keyBytes).length = s.head.length + s.keyBytes.length :=
      List.length_append
    unfold readPayload
    rw [hfront, ← hlen, if_neg (by simp only [List.length_append, maskFrom_length]; omega),
      List.drop_left, List.take_left' (maskFrom_length _ _ _), maskFrom_maskFrom]
  have hfront : s.head ++ (s.keyBytes ++ (maskFrom s.keyBytes 0 s.payload ++ rest)) =
      s.bytes ++ rest := by simp [SentFrame.bytes]
  rw [hfront] at hk
  rw [hcons] at hk hp ⊢
  rw [parseFrame_eq, if_neg (not_not.2 hrsv), hn]
  simp only [Except.bind]
  rw [← hhead, hk]
  simp only [hp, hfin, hop]
  simp only [SentFrame.bytes, List.length_append, maskFrom_length]

end WebSocketProtocol

end Brickred
