import Brickred.WebSocket.Send

/-!
# The length of a payload on the wire

Which of the three length forms `sendMessage` writes, and which of them `readFrame` takes.

* `lengthHead` — the first bytes of a frame, in any form able to hold the length.
* `readPayloadLength_refused`, `readFrame_refused`, `readFrame_taken` — what `readFrame` makes of
  them.
* `sendMessage_frameHead` — what is sent begins with what `writeHead` has written.
* `minimalLength_iff` — both ends keep to the shortest form for every length but `65535`.
-/

set_option autoImplicit false

namespace Brickred

namespace WebSocketProtocol

open DynamicBuffer

variable {η : Type}

/-- The first two bytes of a frame and its length field. -/
def lengthHead (b0 : UInt8) (masked : Bool) (form : LengthForm) (n : Nat) : List UInt8 :=
  b0 :: ((if masked then 0x80 else 0) ||| form.code n) :: form.bytes n

/-- A frame with this first byte is not refused for its opcode. -/
def Knows (s : WebSocketProtocol η) (b0 : UInt8) : Prop :=
  b0 &&& 0x80 = 0 ∨
    (if b0 &&& 0x0f = 0 then s.lastOpCode else ((b0 &&& 0x0f).toNat : Int)) ∈
      ([0x1, 0x2, 0x8, 0x9, 0xa] : List Int)

/-- What `sendMessage` puts in front of a payload of `n` bytes is in the shortest form. -/
structure SendsMinimal (η : Type) (n : Nat) : Prop where
  head : ∀ isClient, (writeHead isClient n).map readable =
    some (lengthHead 0x82 isClient (.minimal n) n)
  output : ∀ (s : WebSocketProtocol η) (random : Fin 4 → UInt8) (payload : List UInt8)
    (outputs : List (List UInt8)), payload.length = n →
    s.sendMessage random payload = some outputs →
    ∀ frame ∈ outputs, lengthHead 0x82 s.isClient (.minimal n) n <+: frame

/-- Both ends keep to the shortest form able to hold `n`: the sender writes it, and the receiver
refuses every longer one, and does not refuse it. -/
structure MinimalLength (η : Type) (n : Nat) : Prop where
  sends : SendsMinimal η n
  refuses : ∀ (s : WebSocketProtocol η) (b0 : UInt8) (masked : Bool) (form : LengthForm)
    (rest : List UInt8), form.Holds n → form ≠ .minimal n →
    (readFrame s (lengthHead b0 masked form n ++ rest)).ret = -1
  takes : ∀ (s : WebSocketProtocol η) (b0 : UInt8) (masked : Bool) (rest : List UInt8),
    b0 &&& 0x70 = 0 → (masked = true → s.isClient = false) → Knows s b0 →
    (readFrame s (lengthHead b0 masked (.minimal n) n ++ rest)).ret ≠ -1

/-! ## Receiving -/

section Receive

variable {s : WebSocketProtocol η} {b0 b1 : UInt8} {masked : Bool} {form : LengthForm} {n : Nat}

/-- The shortest form is the only one that is taken, but for `65535`. -/
theorem accepts_iff (h : form.Holds n) (hn : n ≠ 65535) :
    form.Accepts n ↔ form = .minimal n := by
  unfold LengthForm.minimal
  cases form with
  | bits7 =>
    have hlt : n < 126 := h
    exact ⟨fun _ => (if_pos hlt).symm, fun _ => hlt⟩
  | bits16 =>
    have hlt : n < 2 ^ 16 := h
    show 126 ≤ n ∧ n < 2 ^ 16 ↔ _
    split
    · exact ⟨fun _ => by omega, fun h => by cases h⟩
    · exact ⟨fun _ => rfl, fun _ => ⟨by omega, hlt⟩⟩
  | bits64 =>
    have hlt : n < 2 ^ 64 := h
    show 0xffff ≤ n ∧ n < 2 ^ 64 ↔ _
    split
    · exact ⟨fun _ => by omega, fun h => by cases h⟩
    · split
      · exact ⟨fun _ => by omega, fun h => by cases h⟩
      · exact ⟨fun _ => rfl, fun _ => ⟨by omega, hlt⟩⟩

/-- **A form that is not taken.** -/
theorem readPayloadLength_refused (h : form.Holds n) (hn : ¬ form.Accepts n) (b0 : UInt8)
    (hb1 : b1 &&& 0x7f = form.code n) (rest : List UInt8) :
    readPayloadLength (b0 :: b1 :: (form.bytes n ++ rest)) b1 = .error .invalid := by
  unfold readPayloadLength
  dsimp only
  rw [hb1]
  cases form with
  | bits7 => exact absurd h hn
  | bits16 =>
    have hlt : n < 2 ^ 16 := h
    have hshort : n < 126 := not_le.1 fun hle => hn ⟨hle, hlt⟩
    have hpeek : peekInt16 (b0 :: b1 :: (LengthForm.bytes n .bits16 ++ rest)) 2 = some n :=
      peekInt_toBytes [b0, b1] rest (by simpa using hlt)
    rw [show (LengthForm.code n .bits16).toNat = 126 from rfl, if_pos rfl, hpeek]
    exact if_pos hshort
  | bits64 =>
    have hlt : n < 2 ^ 64 := h
    have hshort : n < 0xffff := not_le.1 fun hle => hn ⟨hle, hlt⟩
    have hpeek : peekInt64 (b0 :: b1 :: (LengthForm.bytes n .bits64 ++ rest)) 2 = some n :=
      peekInt_toBytes [b0, b1] rest (by simpa using hlt)
    rw [show (LengthForm.code n .bits64).toNat = 127 from rfl, if_neg (by decide), if_pos rfl,
      hpeek]
    exact if_pos hshort

theorem readFrame_refused (h : form.Holds n) (hn : ¬ form.Accepts n) (s : WebSocketProtocol η)
    (b0 : UInt8) (masked : Bool) (rest : List UInt8) :
    (readFrame s (lengthHead b0 masked form n ++ rest)).ret = -1 := by
  have hcode := (secondByte_bits masked (LengthForm.code_lt h)).2
  have hparse : parseFrame s.isClient (lengthHead b0 masked form n ++ rest) = .error .invalid := by
    rw [lengthHead, List.cons_append, List.cons_append, parseFrame_eq]
    split
    · rfl
    · rw [readPayloadLength_refused h hn b0 hcode rest]
      rfl
  unfold readFrame
  rw [hparse]

/-- A frame with a known opcode. -/
theorem processFrame_known (hknown : Knows s b0) (message buffer : List UInt8) :
    (processFrame { s with message } (b0 &&& 0x80 ≠ 0) ((b0 &&& 0x0f).toNat : Int) buffer).ret ≠
      -1 := by
  have hzero : ((b0 &&& 0x0f).toNat : Int) = 0 ↔ b0 &&& 0x0f = 0 := by
    rw [← UInt8.toNat_inj]
    exact Int.natCast_eq_zero
  unfold processFrame
  by_cases hfin : b0 &&& 0x80 = 0
  · rw [decide_eq_false (not_not.2 hfin)]
    exact fun h => by cases h
  · have hopcode := hknown.resolve_left hfin
    rw [decide_eq_true hfin]
    -- the opcode that counts, with the state it is looked at in
    obtain ⟨opcode, self, hpair, hmem⟩ : ∃ (opcode : Int) (self : WebSocketProtocol η),
        (if ((b0 &&& 0x0f).toNat : Int) = 0x0 then
          (s.lastOpCode, { s with message := message, lastOpCode := -1 })
        else (((b0 &&& 0x0f).toNat : Int), { s with message := message })) = (opcode, self) ∧
          opcode ∈ ([0x1, 0x2, 0x8, 0x9, 0xa] : List Int) := by
      by_cases hz : b0 &&& 0x0f = 0
      · rw [if_pos hz] at hopcode
        exact ⟨_, _, if_pos (hzero.2 hz), hopcode⟩
      · rw [if_neg hz] at hopcode
        exact ⟨_, _, if_neg (fun h => hz (hzero.1 h)), hopcode⟩
    dsimp only
    rw [hpair]
    simp only [List.mem_cons, List.not_mem_nil, or_false] at hmem
    rcases hmem with rfl | rfl | rfl | rfl | rfl <;> exact fun h => by cases h

/-- Only a mask key sent to a client is invalid. -/
theorem readMaskKey_not_invalid {isClient : Bool} {buffer : List UInt8} {p : Nat}
    (h : b1 &&& 0x80 = 0 ∨ isClient = false) :
    readMaskKey isClient buffer b1 p ≠ .error .invalid := by
  unfold readMaskKey
  split
  · exact fun h => by cases h
  · rename_i hmasked
    rw [h.resolve_left hmasked, if_neg (by decide)]
    split <;> exact fun h => by cases h

/-- **A form that is taken**: nothing about the length is an error. -/
theorem readFrame_taken (h : form.Accepts n) (hrsv : b0 &&& 0x70 = 0)
    (hmask : masked = true → s.isClient = false) (hknown : Knows s b0) (rest : List UInt8) :
    (readFrame s (lengthHead b0 masked form n ++ rest)).ret ≠ -1 := by
  obtain ⟨hbit, hcode⟩ := secondByte_bits masked (LengthForm.code_lt (LengthForm.accepts_holds h))
  unfold readFrame
  cases hparse : parseFrame s.isClient (lengthHead b0 masked form n ++ rest) with
  | error stop =>
    cases stop with
    | waiting => exact fun h => by cases h
    | invalid =>
      rw [lengthHead, List.cons_append, List.cons_append, parseFrame_eq,
        if_neg (not_not.2 hrsv), readPayloadLength_bytes h b0 _ hcode rest] at hparse
      obtain hlength | ⟨r, hr, hparse⟩ := bind_eq_error.1 hparse
      · cases hlength
      cases hr
      rcases bind_eq_error.1 hparse with hkey | ⟨k, _, hpay⟩
      · refine absurd hkey (readMaskKey_not_invalid ?_)
        cases masked with
        | true => exact Or.inr (hmask rfl)
        | false => exact Or.inl (hbit.2 rfl)
      · rcases bind_eq_error.1 hpay with hpay | ⟨_, _, hpay⟩
        · exact absurd hpay readPayload_not_invalid
        · cases hpay
  | ok frame =>
    obtain ⟨c0, c1, tail, m, p, k, q, hcons, _, _, _, _, _, _, rfl⟩ := parseFrame_ok hparse
    obtain rfl : b0 = c0 := (List.cons.inj hcons).1
    exact processFrame_known hknown _ _

end Receive

/-! ## Sending -/

section Send

variable {d d' : DynamicBuffer}

theorem maskLoop_keeps {maskKey : Pointer} : ∀ {size i : Nat} {d d' : DynamicBuffer},
    maskLoop maskKey size i d = some d' → d'.readable = d.readable
  | 0, _, _, _, h => by cases h; rfl
  | size + 1, i, d, d', h => by
    obtain ⟨k, _, h⟩ := Option.bind_eq_some_iff.1 h
    obtain ⟨d₁, hd₁, h⟩ := Option.bind_eq_some_iff.1 h
    exact (maskLoop_keeps h).trans (modify_keeps hd₁)

theorem writePayload_begins {maskKey : Option Pointer} {payload : List UInt8}
    (h : writePayload maskKey payload d = some d') : d.readable <+: d'.readable := by
  obtain ⟨d₁, hd₁, h⟩ := Option.bind_eq_some_iff.1 h
  obtain ⟨d₂, hd₂, h⟩ := Option.bind_eq_some_iff.1 h
  rw [← reserve_readable hd₁, ← store_keeps hd₂]
  cases maskKey with
  | none =>
    cases h
    exact readable_prefix_write _ _
  | some maskKey =>
    obtain ⟨d₃, hd₃, h⟩ := Option.bind_eq_some_iff.1 h
    cases h
    rw [← maskLoop_keeps hd₃]
    exact readable_prefix_write _ _

/-- **What is sent** begins with what `writeHead` has written. -/
theorem sendMessage_frameHead {s : WebSocketProtocol η} {random : Fin 4 → UInt8}
    {payload : List UInt8} {outputs : List (List UInt8)}
    (h : s.sendMessage random payload = some outputs) {frame : List UInt8}
    (hframe : frame ∈ outputs) :
    ∃ m, writeHead s.isClient payload.length = some m ∧ m.readable <+: frame := by
  unfold sendMessage at h
  split at h
  · cases h
    exact absurd hframe List.not_mem_nil
  split at h
  · cases h
    exact absurd hframe List.not_mem_nil
  obtain ⟨m, hm, h⟩ := Option.bind_eq_some_iff.1 h
  refine ⟨m, hm, ?_⟩
  have hemit : ∀ m' : DynamicBuffer, m.readable <+: m'.readable →
      some (s.emit m'.readable) = some outputs → m.readable <+: frame := by
    intro m' hbegin houtputs
    rw [← Option.some.inj houtputs, emit] at hframe
    split at hframe
    · rwa [List.mem_singleton.1 hframe]
    · exact absurd hframe List.not_mem_nil
  dsimp only at h
  split at h
  · obtain ⟨m₁, hm₁, h⟩ := Option.bind_eq_some_iff.1 h
    obtain ⟨m₂, hm₂, h⟩ := Option.bind_eq_some_iff.1 h
    obtain ⟨m₃, hm₃, h⟩ := Option.bind_eq_some_iff.1 h
    refine hemit m₃ ?_ h
    rw [← reserve_readable hm₁, ← store_keeps hm₂]
    exact (readable_prefix_write m₂ 4).trans (writePayload_begins hm₃)
  · obtain ⟨m₁, hm₁, h⟩ := Option.bind_eq_some_iff.1 h
    exact hemit m₁ (writePayload_begins hm₁) h

theorem writeHead_readable (isClient : Bool) (n : Nat) :
    (writeHead isClient n).map readable = some (lengthHead 0x82 isClient (sendForm n) n) := by
  obtain ⟨m, room, hm, hh, _⟩ := writeHead_spec isClient (fun _ => 0) (List.replicate n 0)
  rw [sentFrame_head, List.length_replicate] at hh
  rw [List.length_replicate] at hm
  rw [hm, Option.map_some, hh.readable_eq]
  rfl

theorem sendForm_eq {n : Nat} (hn : n ≠ 65535) : sendForm n = .minimal n := by
  unfold sendForm LengthForm.minimal
  split
  · rfl
  · by_cases h : n < 65535
    · rw [if_pos h, if_pos (by omega)]
    · rw [if_neg h, if_neg (by omega)]

end Send

/-- **The shortest form** is kept to by both ends for every length but one, on which both are
wrong. -/
theorem minimalLength_iff (η : Type) {n : Nat} (h : n < 2 ^ 64) :
    MinimalLength η n ↔ n ≠ 65535 := by
  constructor
  · rintro hmin rfl
    have hhead := hmin.sends.head false
    rw [writeHead_readable] at hhead
    have hlen := congrArg (Option.map List.length) hhead
    exact absurd hlen (by decide)
  · intro hn
    have hwritten : ∀ isClient, (writeHead isClient n).map readable =
        some (lengthHead 0x82 isClient (.minimal n) n) := fun isClient => by
      rw [writeHead_readable, sendForm_eq hn]
    refine ⟨⟨hwritten, ?_⟩, ?_, ?_⟩
    · rintro s random payload outputs rfl hsend frame hframe
      obtain ⟨m, hm, hbegin⟩ := sendMessage_frameHead hsend hframe
      have hhead := hwritten s.isClient
      rw [hm] at hhead
      exact Option.some.inj hhead ▸ hbegin
    · exact fun s b0 masked form rest hholds hne =>
        readFrame_refused hholds (fun hacc => hne ((accepts_iff hholds hn).1 hacc)) s b0 masked rest
    · exact fun s b0 masked rest hrsv hmask hknown =>
        readFrame_taken (LengthForm.minimal_accepts h) hrsv hmask hknown rest

theorem minimalLength_126 : MinimalLength Unit 126 ↔ 126 ≠ 65535 :=
  minimalLength_iff Unit (by decide)

/-- The 64-bit form of `65535` is written, and the 16-bit form is shorter. -/
theorem not_minimalLength : ¬ MinimalLength Unit 65535 := by
  intro hmin
  have hhead := hmin.sends.head false
  rw [writeHead_readable] at hhead
  exact absurd (congrArg (Option.map List.length) hhead) (by decide)

end WebSocketProtocol

end Brickred
