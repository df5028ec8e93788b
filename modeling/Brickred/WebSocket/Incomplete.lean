import Brickred.WebSocket.Driver
import Brickred.WebSocket.Lengths

/-!
# A frame that has not arrived as a whole

`readFrame` with its pointer and `left_bytes`: a subtraction below zero and a byte read behind the
readable ones are results of their own (`Halt`).

* `parseChecked_eq` — neither ever happens, and the rest is `parseFrame`.
* `parseFrame_wire` — a frame that is accepted takes all its bytes.
* `incomplete_frame` — the beginning of a frame leaves everything as it was, or is an error that no
  more bytes change.
-/

set_option autoImplicit false

namespace Brickred

namespace WebSocketProtocol

open DynamicBuffer

variable {η : Type}

/-! ## Reading with checks -/

/-- `readFrame` gives up, `left_bytes` would wrap around, or a byte is not readable. -/
inductive Halt where
  | stop (stop : Stop)
  | underflow
  | overread
  deriving DecidableEq

/-- `left_bytes -= size` -/
def spend (leftBytes size : Nat) : Except Halt Nat :=
  if size ≤ leftBytes then .ok (leftBytes - size) else .error .underflow

/-- `readBegin()[i]` -/
def byteAt (buffer : List UInt8) (i : Nat) : Except Halt UInt8 :=
  match buffer[i]? with
  | some b => .ok b
  | none => .error .overread

/-- `size` bytes from `readBegin() + p` on. -/
def bytesAt (buffer : List UInt8) (p size : Nat) : Except Halt (List UInt8) :=
  if p + size ≤ buffer.length then .ok ((buffer.drop p).take size) else .error .overread

/-- `peekInt16` and `peekInt64`; `none` is `false`. -/
def peekChecked (n : Nat) (buffer : List UInt8) (offset : Nat) : Except Halt (Option Nat) :=
  if buffer.length < offset + n then .ok none
  else do
    let bytes ← bytesAt buffer offset n
    .ok (some (BigEndian.ofBytes bytes))

/-- `payload_length`, with the `p` and the `left_bytes` behind it. -/
def lengthChecked (buffer : List UInt8) (b1 : UInt8) (leftBytes : Nat) :
    Except Halt (Nat × Nat × Nat) :=
  let payloadLength := (b1 &&& 0x7f).toNat
  if 126 = payloadLength then do
    match ← peekChecked 2 buffer 2 with
    | none => .error (.stop .waiting)
    | some payloadLength =>
      if payloadLength < 126 then .error (.stop .invalid)
      else do
        let leftBytes ← spend leftBytes 2
        .ok (payloadLength, 4, leftBytes)
  else if 127 = payloadLength then do
    match ← peekChecked 8 buffer 2 with
    | none => .error (.stop .waiting)
    | some payloadLength =>
      if payloadLength < 0xffff then .error (.stop .invalid)
      else do
        let leftBytes ← spend leftBytes 8
        .ok (payloadLength, 10, leftBytes)
  else .ok (payloadLength, 2, leftBytes)

/-- Where `mask_key` points, with the `p` and the `left_bytes` behind it. -/
def maskKeyChecked (isClient : Bool) (b1 : UInt8) (p leftBytes : Nat) :
    Except Halt (Option Nat × Nat × Nat) :=
  if b1 &&& 0x80 = 0 then .ok (none, p, leftBytes)
  else if isClient then .error (.stop .invalid)
  else if leftBytes < 4 then .error (.stop .waiting)
  else do
    let leftBytes ← spend leftBytes 4
    .ok (some p, p + 4, leftBytes)

/-- The masking loop through `mask_key`. -/
def maskChecked (buffer : List UInt8) (maskKey : Nat) : Nat → List UInt8 → Except Halt (List UInt8)
  | _, [] => .ok []
  | i, b :: bs => do
    let k ← byteAt buffer (maskKey + (i &&& 0x03))
    let rest ← maskChecked buffer maskKey (i + 1) bs
    .ok ((b ^^^ k) :: rest)

/-- The payload, with the `p` behind it. -/
def payloadChecked (buffer : List UInt8) (maskKey : Option Nat) (payloadLength p leftBytes : Nat) :
    Except Halt (List UInt8 × Nat) :=
  if payloadLength > 0 then
    if leftBytes < payloadLength then .error (.stop .waiting)
    else do
      let bytes ← bytesAt buffer p payloadLength
      let bytes ← match maskKey with
        | none => .ok bytes
        | some maskKey => maskChecked buffer maskKey 0 bytes
      let _ ← spend leftBytes payloadLength
      .ok (bytes, p + payloadLength)
  else .ok ([], p)

/-- `readFrame` up to `buffer->read(p - b)`. -/
def parseChecked (isClient : Bool) (buffer : List UInt8) : Except Halt Frame :=
  if buffer.length < 2 then .error (.stop .waiting)
  else do
    let b0 ← byteAt buffer 0
    if b0 &&& 0x70 ≠ 0 then .error (.stop .invalid)
    else do
      let leftBytes ← spend buffer.length 2
      let b1 ← byteAt buffer 1
      let (payloadLength, p, leftBytes) ← lengthChecked buffer b1 leftBytes
      let (maskKey, p, leftBytes) ← maskKeyChecked isClient b1 p leftBytes
      let (payload, p) ← payloadChecked buffer maskKey payloadLength p leftBytes
      .ok ⟨b0 &&& 0x80 ≠ 0, b0 &&& 0x0f, payload, p⟩

/-- `none`: an underflow or a byte that is not readable. -/
def readFrameChecked (s : WebSocketProtocol η) (buffer : List UInt8) : Option (Handled η) :=
  match parseChecked s.isClient buffer with
  | .error (.stop .waiting) => some ⟨0, s, buffer, []⟩
  | .error (.stop .invalid) => some ⟨-1, s, buffer, []⟩
  | .error .underflow => none
  | .error .overread => none
  | .ok frame =>
    some (processFrame { s with message := s.message ++ frame.payload } frame.fin
      (frame.opcode.toNat : Int) (buffer.drop frame.size))

/-! ## The checks never fail -/

section Checks

variable {buffer : List UInt8} {b1 : UInt8} {isClient : Bool} {n p i : Nat}

theorem byteAt_ok (h : i < buffer.length) : byteAt buffer i = .ok buffer[i] := by
  unfold byteAt
  rw [List.getElem?_eq_getElem h]

theorem peekChecked_eq (n : Nat) (buffer : List UInt8) (offset : Nat) :
    peekChecked n buffer offset = .ok (peekInt n buffer offset) := by
  unfold peekChecked peekInt bytesAt
  split
  · rfl
  · rw [if_pos (by omega)]
    rfl

theorem lengthChecked_eq (buffer : List UInt8) (b1 : UInt8) :
    lengthChecked buffer b1 (buffer.length - 2) =
      ((readPayloadLength buffer b1).map fun r => (r.1, r.2, buffer.length - r.2)).mapError
        .stop := by
  unfold lengthChecked readPayloadLength peekInt16 peekInt64
  dsimp only
  rw [peekChecked_eq, peekChecked_eq]
  split
  · cases hpeek : peekInt 2 buffer 2 with
    | none => rfl
    | some v =>
      have hlen := peekInt_length hpeek
      simp only [bind, Except.bind, spend]
      split
      · rfl
      · rw [if_pos (by omega)]
        show Except.ok (v, 4, buffer.length - 2 - 2) = .ok (v, 4, buffer.length - 4)
        rw [Nat.sub_sub]
  · split
    · cases hpeek : peekInt 8 buffer 2 with
      | none => rfl
      | some v =>
        have hlen := peekInt_length hpeek
        simp only [bind, Except.bind, spend]
        split
        · rfl
        · rw [if_pos (by omega)]
          show Except.ok (v, 10, buffer.length - 2 - 8) = .ok (v, 10, buffer.length - 10)
          rw [Nat.sub_sub]
    · rfl

/-- What `mask_key` points to. -/
def KeyAt (buffer : List UInt8) (maskKey : Option Nat) (key : List UInt8) : Prop :=
  (maskKey = none ∧ key = []) ∨
    ∃ m, maskKey = some m ∧ m + 4 ≤ buffer.length ∧ key = (buffer.drop m).take 4

theorem maskKeyChecked_eq (isClient : Bool) (b1 : UInt8) (hp : p ≤ buffer.length) :
    (∃ stop, readMaskKey isClient buffer b1 p = .error stop ∧
      maskKeyChecked isClient b1 p (buffer.length - p) = .error (.stop stop)) ∨
    ∃ maskKey key q, readMaskKey isClient buffer b1 p = .ok (key, q) ∧
      maskKeyChecked isClient b1 p (buffer.length - p) = .ok (maskKey, q, buffer.length - q) ∧
      KeyAt buffer maskKey key ∧ q ≤ buffer.length := by
  unfold readMaskKey maskKeyChecked
  by_cases hmasked : b1 &&& 0x80 = 0
  · rw [if_pos hmasked, if_pos hmasked]
    exact Or.inr ⟨none, [], p, rfl, rfl, Or.inl ⟨rfl, rfl⟩, hp⟩
  · rw [if_neg hmasked, if_neg hmasked]
    cases isClient with
    | true => exact Or.inl ⟨_, rfl, rfl⟩
    | false =>
      by_cases hshort : buffer.length - p < 4
      · simp only [if_pos hshort]
        exact Or.inl ⟨_, rfl, rfl⟩
      · simp only [if_neg hshort, spend, if_pos (not_lt.1 hshort)]
        refine Or.inr ⟨some p, _, p + 4, rfl, ?_, Or.inr ⟨p, rfl, by omega, rfl⟩, by omega⟩
        show Except.ok (some p, p + 4, buffer.length - p - 4) = .ok (some p, p + 4, _)
        rw [Nat.sub_sub]

/-- The masking loop reads the key only. -/
theorem maskChecked_eq {m : Nat} (hm : m + 4 ≤ buffer.length) : ∀ (bs : List UInt8) (i : Nat),
    maskChecked buffer m i bs = .ok (maskFrom ((buffer.drop m).take 4) i bs)
  | [], _ => rfl
  | b :: bs, i => by
    have hlt : i &&& 0x03 < 4 := Nat.lt_succ_of_le Nat.and_le_right
    have hkey : ((buffer.drop m).take 4).getD (i &&& 0x03) 0 = buffer[m + (i &&& 0x03)] := by
      rw [List.getD_eq_getElem?_getD, List.getElem?_take_of_lt hlt, List.getElem?_drop,
        List.getElem?_eq_getElem (by omega), Option.getD_some]
    rw [maskChecked, byteAt_ok (by omega), maskFrom, hkey]
    simp only [bind, Except.bind, maskChecked_eq hm bs (i + 1)]

theorem payloadChecked_eq {maskKey : Option Nat} {key : List UInt8} (h : KeyAt buffer maskKey key)
    (hp : p ≤ buffer.length) (n : Nat) :
    payloadChecked buffer maskKey n p (buffer.length - p) =
      ((readPayload buffer key n p).map fun payload => (payload, p + n)).mapError .stop := by
  unfold payloadChecked readPayload
  by_cases hzero : n > 0
  · rw [if_pos hzero]
    by_cases hshort : buffer.length - p < n
    · rw [if_pos hshort, if_pos hshort]
      rfl
    · rw [if_neg hshort, if_neg hshort]
      simp only [bytesAt, spend]
      rw [if_pos (by omega), if_pos (by omega)]
      obtain ⟨rfl, rfl⟩ | ⟨m, rfl, hm, rfl⟩ := h
      · rw [maskFrom_nil]
        rfl
      · simp only [bind, Except.bind, maskChecked_eq hm]
        rfl
  · obtain rfl : n = 0 := by omega
    rw [if_neg (Nat.lt_irrefl 0), if_neg (Nat.not_lt_zero _)]
    rfl

/-- **No check fails.** -/
theorem parseChecked_eq (isClient : Bool) (buffer : List UInt8) :
    parseChecked isClient buffer = (parseFrame isClient buffer).mapError .stop := by
  match buffer with
  | [] => rfl
  | [_] => rfl
  | b0 :: b1 :: tail =>
    have hlen : 2 ≤ (b0 :: b1 :: tail).length := Nat.le_add_left 2 tail.length
    have hb0 : byteAt (b0 :: b1 :: tail) 0 = .ok b0 := rfl
    have hb1 : byteAt (b0 :: b1 :: tail) 1 = .ok b1 := rfl
    rw [parseChecked, if_neg (not_lt.2 hlen), parseFrame_eq, hb0, hb1]
    simp only [bind, Except.bind, spend, if_pos hlen]
    split
    · rfl
    · rw [lengthChecked_eq]
      cases hread : readPayloadLength (b0 :: b1 :: tail) b1 with
      | error stop => rfl
      | ok r =>
        obtain ⟨n, p⟩ := r
        obtain ⟨_, hp⟩ := readPayloadLength_pos hread hlen
        simp only [Except.map, Except.mapError]
        obtain ⟨stop, hread', hchecked⟩ | ⟨maskKey, key, q, hread', hchecked, hkey, hq⟩ :=
          maskKeyChecked_eq isClient b1 hp
        · rw [hread', hchecked]
        · rw [hread', hchecked]
          simp only [payloadChecked_eq hkey hq]
          cases readPayload (b0 :: b1 :: tail) key n q <;> rfl

/-- **`readFrame` is safe**: `left_bytes` does not underflow, and only readable bytes are read. -/
theorem readFrameChecked_eq (s : WebSocketProtocol η) (buffer : List UInt8) :
    readFrameChecked s buffer = some (readFrame s buffer) := by
  unfold readFrameChecked readFrame
  rw [parseChecked_eq]
  rcases parseFrame s.isClient buffer with (_ | _) | frame <;> rfl

end Checks

/-! ## Beginnings of a frame -/

/-- One frame, as it may stand on the wire: any first byte, any length form able to hold the
length. -/
structure WireFrame where
  b0 : UInt8
  form : LengthForm
  maskKey : Option (Fin 4 → UInt8)
  payload : List UInt8
  holds : form.Holds payload.length

def WireFrame.bytes (f : WireFrame) : List UInt8 :=
  lengthHead f.b0 f.maskKey.isSome f.form f.payload.length ++
    (f.maskKey.elim [] List.ofFn ++ f.payload)

section Incomplete

variable {isClient : Bool} {f : WireFrame} {frame : Frame} {p : List UInt8}

/-- **A frame that is accepted** takes all its bytes. -/
theorem parseFrame_wire (h : parseFrame isClient f.bytes = .ok frame) :
    frame.size = f.bytes.length := by
  obtain ⟨hbit, hcode⟩ := secondByte_bits f.maskKey.isSome (LengthForm.code_lt f.holds)
  obtain ⟨c0, c1, tail, n, p, k, q, hcons, _, hn, hk, _, _, _, rfl⟩ := parseFrame_ok h
  have hbytes : f.bytes = f.b0 ::
      ((if f.maskKey.isSome then 0x80 else 0) ||| f.form.code f.payload.length) ::
        (f.form.bytes f.payload.length ++ (f.maskKey.elim [] List.ofFn ++ f.payload)) := rfl
  obtain rfl : (if f.maskKey.isSome then 0x80 else 0) ||| f.form.code f.payload.length = c1 :=
    (List.cons.inj (List.cons.inj (hbytes.symm.trans hcons)).2).1
  -- the length is read off the frame
  by_cases hacc : f.form.Accepts f.payload.length
  · rw [hbytes, readPayloadLength_bytes hacc _ _ hcode] at hn
    cases hn
    have hlen : f.bytes.length = 2 + (f.form.bytes f.payload.length).length +
        ((f.maskKey.elim [] List.ofFn).length + f.payload.length) := by
      rw [hbytes]
      simp only [List.length_cons, List.length_append]
      omega
    rw [hlen]
    unfold readMaskKey at hk
    cases hkey : f.maskKey with
    | none =>
      rw [if_pos (hbit.2 (by rw [hkey]; rfl))] at hk
      cases hk
      rw [Option.elim_none, List.length_nil, Nat.zero_add]
    | some key =>
      have hmasked : f.maskKey.isSome = true := by rw [hkey]; rfl
      rw [if_neg fun hzero => Bool.noConfusion (hmasked.symm.trans (hbit.1 hzero))] at hk
      split at hk
      · cases hk
      · split at hk <;> cases hk
        rw [Option.elim_some, List.length_ofFn]
        dsimp only
        omega
  · rw [hbytes, readPayloadLength_refused f.holds hacc _ hcode] at hn
    cases hn

/-- No beginning of a frame is accepted. -/
theorem parseFrame_begin (hp : p <+: f.bytes) (hlt : p.length < f.bytes.length) :
    ∃ stop, parseFrame isClient p = .error stop := by
  cases hparse : parseFrame isClient p with
  | error stop => exact ⟨stop, rfl⟩
  | ok frame =>
    obtain ⟨ext, hext⟩ := hp
    have hwhole := parseFrame_append ext hparse
    rw [hext] at hwhole
    have hsize := parseFrame_wire hwhole
    have hle := (parseFrame_size hparse).2
    omega

end Incomplete

/-- `recvMessage` returns `ERROR`. -/
def Errs (handlers : HandshakeHandlers η) (fuel : Nat) (s : WebSocketProtocol η)
    (buffer : List UInt8) : Prop :=
  ∃ r, recvMessage handlers fuel s buffer = some r ∧ r.code = .error

theorem errs_of_invalid (handlers : HandshakeHandlers η) (fuel : Nat) {s : Connected η}
    {buffer : List UInt8} (h : parseFrame s.1.isClient buffer = .error .invalid) :
    Errs handlers (fuel + 1) s.1 buffer := by
  have hread : readFrame s.1 buffer = ⟨-1, s.1, buffer, []⟩ := by unfold readFrame; rw [h]
  refine ⟨⟨.error, { s.1 with status := .pendingError }, buffer, []⟩, ?_, rfl⟩
  rw [recvMessage_connected, hread]
  rfl

/-- **An incomplete frame** is waited for, with everything as it was, or is an error that no more
bytes change. -/
theorem incomplete_frame (handlers : HandshakeHandlers η) (fuel : Nat) (s : Connected η)
    (f : WireFrame) {p : List UInt8} (hp : p <+: f.bytes) (hlt : p.length < f.bytes.length) :
    readFrameChecked s.1 p = some (readFrame s.1 p) ∧
    (recvMessage handlers (fuel + 1) s.1 p = some ⟨.waitingMoreData, s.1, p, []⟩ ∨
      Errs handlers (fuel + 1) s.1 p ∧ ∀ ext, Errs handlers (fuel + 1) s.1 (p ++ ext)) := by
  refine ⟨readFrameChecked_eq s.1 p, ?_⟩
  obtain ⟨stop, hstop⟩ := @parseFrame_begin s.1.isClient f p hp hlt
  cases stop with
  | waiting =>
    have hread : readFrame s.1 p = ⟨0, s.1, p, []⟩ := by unfold readFrame; rw [hstop]
    refine Or.inl ?_
    rw [recvMessage_connected, hread]
    rfl
  | invalid =>
    exact Or.inr ⟨errs_of_invalid handlers fuel hstop,
      fun ext => errs_of_invalid handlers fuel (parseFrame_invalid_append ext hstop)⟩

/-- The first three bytes of a masked frame. -/
theorem masked_begun :
    readFrameChecked (fresh false).1 [0x82, 0x81, 7] =
      some (readFrame (fresh false).1 [0x82, 0x81, 7]) ∧
    (recvMessage noHandshake 1 (fresh false).1 [0x82, 0x81, 7] =
        some ⟨.waitingMoreData, (fresh false).1, [0x82, 0x81, 7], []⟩ ∨
      Errs noHandshake 1 (fresh false).1 [0x82, 0x81, 7] ∧
        ∀ ext, Errs noHandshake 1 (fresh false).1 ([0x82, 0x81, 7] ++ ext)) :=
  incomplete_frame noHandshake 0 (fresh false)
    ⟨0x82, .bits7, some fun _ => 7, [1], show 1 < 126 by decide⟩ ⟨[7, 7, 7, 1], by decide⟩
    (by decide)

end WebSocketProtocol

end Brickred
