import Brickred.WebSocket.Reassembly

/-!
# Sending a message

`sendMessage` builds the frame in a local `DynamicBuffer` with 1024 bytes of storage.  For a
client it keeps a pointer to the mask key in that storage, reserves room for the payload, and
masks through the pointer.

* `writeHead_spec` — the head of the frame, for both roles and all sizes.
* `sendMessage_client` — when head, key and payload fit the first storage, the output is the
  frame `sentFrame`; `sendMessage_stale` — when they do not, the masking loop reads through a
  pointer into storage that has been given up.
* `client_round_trip_iff` — when a server gets back what a client sent.
* `sendMessage_server` — a server has no key, so its frames are right in any storage;
  `server_round_trip` — a client gets back a whole sequence of messages.
-/

set_option autoImplicit false

namespace Brickred

namespace WebSocketProtocol

open DynamicBuffer

variable {η η' : Type}

/-- The length form `sendMessage` chooses. -/
def sendForm (size : Nat) : LengthForm :=
  if size < 126 then .bits7 else if size < 65535 then .bits16 else .bits64

theorem sendForm_accepts {size : Nat} (h : size < 2 ^ 64) : (sendForm size).Accepts size := by
  unfold sendForm
  split
  · assumption
  · split
    · exact ⟨by omega, by omega⟩
    · exact ⟨by omega, h⟩

/-- The frame `sendMessage` is meant to put out. -/
def sentFrame (isClient : Bool) (random : Fin 4 → UInt8) (payload : List UInt8) : SentFrame :=
  ⟨sendForm payload.length, true, 0x2, if isClient then some random else none, payload⟩

theorem sentFrame_head (isClient : Bool) (random : Fin 4 → UInt8) (payload : List UInt8) :
    (sentFrame isClient random payload).head =
      [0x82] ++ [(if isClient then 0x80 else 0x0) ||| (sendForm payload.length).code payload.length] ++
        (sendForm payload.length).bytes payload.length := by
  have hfirst : (0x80 : UInt8) ||| 0x2 = 0x82 := by decide
  unfold SentFrame.head sentFrame
  cases isClient <;> simp [hfirst]

/-! ## The head -/

/-- The head fits the first storage with room to spare. -/
theorem writeHead_spec (isClient : Bool) (random : Fin 4 → UInt8) (payload : List UInt8) :
    ∃ message room, writeHead isClient payload.length = some message ∧
      message.Holds 0 (sentFrame isClient random payload).head room ∧
      room.length = 1024 - (sentFrame isClient random payload).head.length ∧
      (sentFrame isClient random payload).head.length =
        2 + ((sendForm payload.length).bytes payload.length).length := by
  have h0 := holds_new 1024 1024
  have hroom : (List.replicate 1024 (0 : UInt8)).length = 1024 := List.length_replicate
  obtain ⟨m1, hm1, h1⟩ := h0.store_first [0x82] (by rw [hroom]; decide)
  have h1 := h1.write [0x82]
  rw [List.nil_append, List.length_singleton] at h1
  obtain ⟨m2, hm2, h2⟩ := h1.store_first [if isClient then 0x80 else 0x0] (by
    rw [List.length_singleton, List.length_drop, hroom]; decide)
  -- the second byte is written once the length form is known
  have hmod : ∀ f : UInt8 → UInt8, ∃ m, m2.modify 0 f = some m ∧
      (m.write 1).Holds 0 ([0x82] ++ [f (if isClient then 0x80 else 0x0)])
        (((List.replicate 1024 0).drop 1).drop 1) := by
    intro f
    obtain ⟨m, hm, hh⟩ := h2.modify [] f
    exact ⟨m, hm, hh.write [f (if isClient then 0x80 else 0x0)]⟩
  have hlen : (((List.replicate 1024 (0 : UInt8)).drop 1).drop 1).length = 1022 := by
    rw [List.length_drop, List.length_drop, hroom]
  rw [sentFrame_head]
  unfold writeHead
  simp only [h0.reserve (show 2 ≤ _ by rw [hroom]; decide), bind, Option.bind_some, hm1, hm2]
  by_cases h7 : payload.length < 126
  · have hform : sendForm payload.length = .bits7 := if_pos h7
    obtain ⟨m, hm, hh⟩ := hmod (· ||| UInt8.ofNat payload.length)
    simp only [if_pos h7, hm, Option.bind_some, hform]
    exact ⟨_, _, rfl, hh, hlen, rfl⟩
  · by_cases h16 : payload.length < 65535
    · have hform : sendForm payload.length = .bits16 := (if_neg h7).trans (if_pos h16)
      obtain ⟨m, hm, hh⟩ := hmod (· ||| 126)
      obtain ⟨m', hm', hh'⟩ := hh.writeBytes (BigEndian.toBytes 2 payload.length) (by
        rw [hlen, BigEndian.toBytes_length]; decide)
      simp only [if_neg h7, if_pos h16, hm, Option.bind_some, writeInt16, hm', hform]
      refine ⟨_, _, rfl, hh', ?_, rfl⟩
      rw [List.length_drop, hlen, BigEndian.toBytes_length]
      rfl
    · have hform : sendForm payload.length = .bits64 := (if_neg h7).trans (if_neg h16)
      obtain ⟨m, hm, hh⟩ := hmod (· ||| 127)
      obtain ⟨m', hm', hh'⟩ := hh.writeBytes (BigEndian.toBytes 8 payload.length) (by
        rw [hlen, BigEndian.toBytes_length]; decide)
      simp only [if_neg h7, if_neg h16, hm, Option.bind_some, writeInt64, hm', hform]
      refine ⟨_, _, rfl, hh', ?_, rfl⟩
      rw [List.length_drop, hlen, BigEndian.toBytes_length]
      rfl

/-! ## The masking loop -/

/-- **The masking loop**, while the key is still in the buffer's storage. -/
theorem maskLoop_spec {storage : Nat} {before key behind rest : List UInt8}
    (hkey : key.length = 4) : ∀ (todo done : List UInt8) (d : DynamicBuffer),
    d.Holds storage (before ++ key ++ behind) (done ++ todo ++ rest) →
    ∃ d', maskLoop ⟨storage, before.length⟩ todo.length done.length d = some d' ∧
      d'.Holds storage (before ++ key ++ behind) (done ++ maskFrom key done.length todo ++ rest)
  | [], done, d, h => ⟨d, rfl, h⟩
  | b :: todo, done, d, h => by
    have hlt : done.length &&& 0x03 < key.length := by
      have := @Nat.and_le_right done.length 0x03
      omega
    have h' : d.Holds storage (before ++ key ++ behind) (done ++ b :: (todo ++ rest)) := by
      simpa using h
    obtain ⟨d1, hd1, h1⟩ := h'.modify done (· ^^^ key.getD (done.length &&& 0x03) 0)
    have h1' : d1.Holds storage (before ++ key ++ behind)
        ((done ++ [b ^^^ key.getD (done.length &&& 0x03) 0]) ++ todo ++ rest) := by
      simpa using h1
    obtain ⟨d2, hd2, h2⟩ := maskLoop_spec hkey todo _ d1 h1'
    rw [List.length_append, List.length_singleton] at hd2 h2
    refine ⟨d2, ?_, ?_⟩
    · rw [List.length_cons, maskLoop, h.load_front hlt]
      simp only [bind, Option.bind_some, hd1, hd2]
    · rw [maskFrom]
      simpa using h2

/-- A key in storage that has been given up cannot be read. -/
theorem maskLoop_stale {maskKey : Pointer} {d : DynamicBuffer} {size : Nat}
    (hstale : maskKey.storage ≠ d.storage) (hsize : 0 < size) : maskLoop maskKey size 0 d = none := by
  obtain ⟨n, rfl⟩ : ∃ n, size = n + 1 := ⟨size - 1, by omega⟩
  have hload : d.load maskKey (0 &&& 0x03) = none := if_neg hstale
  rw [maskLoop, hload]
  rfl

/-- Where there is room, the masked payload is appended. -/
theorem writePayload_room {storage : Nat} {before key room : List UInt8}
    (payload : List UInt8) {d : DynamicBuffer} (hkey : key.length = 4)
    (h : d.Holds storage (before ++ key) room)
    (hroom : payload.length ≤ room.length) :
    ∃ d', writePayload (some ⟨storage, before.length⟩) payload d = some d' ∧
      d'.readable = before ++ key ++ maskFrom key 0 payload := by
  obtain ⟨d1, hd1, h1⟩ := h.store_first payload hroom
  have h1' : d1.Holds storage (before ++ key ++ [])
      ([] ++ payload ++ room.drop payload.length) := by simpa using h1
  obtain ⟨d2, hd2, h2⟩ := maskLoop_spec hkey payload [] d1 h1'
  rw [List.nil_append, List.append_nil, List.length_nil] at h2
  rw [List.length_nil] at hd2
  refine ⟨d2.write payload.length, ?_, ?_⟩
  · unfold writePayload
    rw [h.reserve hroom]
    simp only [bind, Option.bind_some, hd1, hd2]
  · have hw := h2.write (maskFrom key 0 payload)
    rw [maskFrom_length] at hw
    exact hw.readable_eq

/-- Without room, the masking loop follows the stale pointer. -/
theorem writePayload_stale {storage offset : Nat} {front room payload : List UInt8}
    {d : DynamicBuffer} (h : d.Holds storage front room) (hroom : room.length < payload.length) :
    writePayload (some ⟨storage, offset⟩) payload d = none := by
  unfold writePayload
  cases hres : d.reserveWritableBytes payload.length with
  | none => rfl
  | some d1 =>
    have hst := h.reserve_storage hroom hres
    simp only [bind, Option.bind_some]
    cases hstore : d1.store 0 payload with
    | none => rfl
    | some d2 =>
      have hst2 := store_storage hstore
      rw [Option.bind_some, maskLoop_stale (by dsimp only; omega) (by omega)]
      rfl

/-! ## What a client sends -/

section Client

variable {client : Connected η} (random : Fin 4 → UInt8) (payload : List UInt8)

/-- The buffer before the payload: head and key. -/
theorem writeKey_spec (hc : client.1.isClient = true) (hclose : client.1.closeFrameSent = false) :
    ∃ message room, message.Holds 0 ((sentFrame true random payload).head ++ List.ofFn random) room ∧
      room.length = 1018 - ((sendForm payload.length).bytes payload.length).length ∧
      client.1.sendMessage random payload =
        (writePayload (some ⟨0, (sentFrame true random payload).head.length⟩) payload message).map
          fun m => client.1.emit m.readable := by
  obtain ⟨m, room, hm, hh, hroom, hhead⟩ := writeHead_spec true random payload
  have hform : ((sendForm payload.length).bytes payload.length).length ≤ 8 := by
    cases sendForm payload.length with
    | bits7 => exact Nat.zero_le _
    | bits16 => exact (BigEndian.toBytes_length 2 _).trans_le (by decide)
    | bits64 => exact (BigEndian.toBytes_length 8 _).le
  have hlen : (List.ofFn random).length = 4 := List.length_ofFn
  obtain ⟨m1, hm1, h1⟩ := hh.store_first (List.ofFn random) (by rw [hlen]; omega)
  have hw := h1.write (List.ofFn random)
  rw [hlen] at hw
  have hbegin : m1.writeBegin = ⟨0, (sentFrame true random payload).head.length⟩ := by
    unfold writeBegin
    rw [h1.storage_eq, h1.writeIndex_eq]
  refine ⟨m1.write 4, room.drop 4, hw, by rw [List.length_drop]; omega, ?_⟩
  unfold sendMessage
  rw [if_neg (not_not.2 client.2), if_neg (by rw [hclose]; decide), hc]
  simp only [hm, bind, Option.bind_some, if_true, hh.reserve (show 4 ≤ room.length by omega), hm1,
    hbegin]
  cases writePayload (some ⟨0, (sentFrame true random payload).head.length⟩) payload
    (m1.write 4) <;> rfl

/-- **In the first storage** the frame is put out as it should be. -/
theorem sendMessage_client (hc : client.1.isClient = true)
    (hclose : client.1.closeFrameSent = false)
    (hroom : payload.length ≤ 1018 - ((sendForm payload.length).bytes payload.length).length) :
    client.1.sendMessage random payload =
      some (client.1.emit (sentFrame true random payload).bytes) := by
  obtain ⟨m, room, hh, hlen, hsend⟩ := writeKey_spec random payload hc hclose
  obtain ⟨m', hm', hread⟩ := writePayload_room payload List.length_ofFn hh (by omega)
  rw [hsend, hm', Option.map_some, hread]
  rfl

/-- **In another storage** nothing can be said. -/
theorem sendMessage_stale (hc : client.1.isClient = true)
    (hclose : client.1.closeFrameSent = false)
    (hroom : 1018 - ((sendForm payload.length).bytes payload.length).length < payload.length) :
    client.1.sendMessage random payload = none := by
  obtain ⟨m, room, hh, hlen, hsend⟩ := writeKey_spec random payload hc hclose
  rw [hsend, writePayload_stale hh (by omega)]
  rfl

/-- The bound, for the length form the size itself decides. -/
theorem fits_iff (size : Nat) :
    size ≤ 1018 - ((sendForm size).bytes size).length ↔ size ≤ 1016 := by
  unfold sendForm
  split
  · rw [show (LengthForm.bytes size .bits7).length = 0 from rfl]; omega
  · split
    · rw [show (LengthForm.bytes size .bits16).length = 2 from BigEndian.toBytes_length 2 size]
    · rw [show (LengthForm.bytes size .bits64).length = 8 from BigEndian.toBytes_length 8 size]; omega

end Client

/-! ## What a server sends -/

theorem writeHead_expandSize {isClient : Bool} {size : Nat} {message : DynamicBuffer}
    (h : writeHead isClient size = some message) : message.expandSize = 1024 := by
  unfold writeHead at h
  obtain ⟨m1, h1, h⟩ := Option.bind_eq_some_iff.1 h
  obtain ⟨m2, h2, h⟩ := Option.bind_eq_some_iff.1 h
  obtain ⟨m3, h3, h⟩ := Option.bind_eq_some_iff.1 h
  have hexp : m3.expandSize = 1024 := by
    rw [store_expandSize h3, write_expandSize, store_expandSize h2, reserve_expandSize h1,
      new_expandSize]
  split at h
  · obtain ⟨m4, h4, h⟩ := Option.bind_eq_some_iff.1 h
    cases h
    rw [write_expandSize, modify_expandSize h4, hexp]
  · split at h <;> obtain ⟨m4, h4, h⟩ := Option.bind_eq_some_iff.1 h
    · rw [writeBytes_expandSize h, write_expandSize, modify_expandSize h4, hexp]
    · rw [writeBytes_expandSize h, write_expandSize, modify_expandSize h4, hexp]

/-- Without a key, what is written is the payload. -/
theorem writePayload_some {payload : List UInt8} {d d' : DynamicBuffer}
    (h : writePayload none payload d = some d') : d'.readable = d.readable ++ payload := by
  obtain ⟨d₁, hd₁, h⟩ := Option.bind_eq_some_iff.1 h
  obtain ⟨d₂, hd₂, h⟩ := Option.bind_eq_some_iff.1 h
  cases h
  have hroom : payload.length ≤ d₁.writableBytes := by
    unfold store at hd₂
    split at hd₂
    · unfold writableBytes
      omega
    · cases hd₂
  obtain ⟨d₃, hd₃, happ, _⟩ := store_spec hroom
  cases hd₂.symm.trans hd₃
  rw [happ, reserve_readable hd₁]

/-- Without a key the payload is appended, in whatever storage. -/
theorem writePayload_plain {payload : List UInt8} {d : DynamicBuffer} (hd : d.Sized)
    (hfits : d.Fits payload.length) (hsize : payload.length < 2 ^ 64) :
    ∃ d', writePayload none payload d = some d' ∧ d'.readable = d.readable ++ payload := by
  obtain ⟨d1, hd1, hread, hroom, _⟩ := reserve_spec hd hsize hfits
  obtain ⟨d2, hd2, happ, _⟩ := store_spec hroom
  refine ⟨d2.write payload.length, ?_, by rw [happ, hread]⟩
  unfold writePayload
  rw [hd1]
  simp only [bind, Option.bind_some, hd2]

/-- A server's frame is not masked. -/
theorem sentFrame_server (random : Fin 4 → UInt8) (payload : List UInt8) :
    (sentFrame false random payload).bytes = (sentFrame false random payload).head ++ payload := by
  simp [SentFrame.bytes, SentFrame.keyBytes, sentFrame, maskFrom_nil]

/-- **A server** puts the frame out as it should be, whatever the size of the payload. -/
theorem sendMessage_server {server : Connected η} (hs : server.1.isClient = false)
    (hclose : server.1.closeFrameSent = false) (random : Fin 4 → UInt8) {payload : List UInt8}
    (hsize : payload.length < 2 ^ 62) :
    server.1.sendMessage random payload =
      some (server.1.emit (sentFrame false random payload).bytes) := by
  obtain ⟨m, room, hm, hh, hroom, hhead⟩ := writeHead_spec false random payload
  have hexp := writeHead_expandSize hm
  have hform : ((sendForm payload.length).bytes payload.length).length ≤ 8 := by
    cases sendForm payload.length with
    | bits7 => exact Nat.zero_le _
    | bits16 => exact (BigEndian.toBytes_length 2 _).trans_le (by decide)
    | bits64 => exact (BigEndian.toBytes_length 8 _).le
  have hlen : (sentFrame false random payload).head.length + room.length = 1024 := by omega
  obtain ⟨m', hm', hread⟩ := writePayload_plain (hh.sized hexp hlen) (hh.fits hexp hlen hsize)
    (by omega)
  unfold sendMessage
  rw [if_neg (not_not.2 server.2), if_neg (by rw [hclose]; decide), hs]
  simp only [hm, bind, Option.bind_some, Bool.false_eq_true, if_false, hm', hread, hh.readable_eq,
    sentFrame_server]

/-! ## The round trip -/

/-- What the client sends is what the server delivers. -/
def RoundTrip (handlers : HandshakeHandlers η') (client : Connected η) (server : Connected η')
    (random : Fin 4 → UInt8) (payload : List UInt8) : Prop :=
  ∃ outputs server', client.1.sendMessage random payload = some outputs ∧
    consume handlers server.1 outputs.flatten = some ([.message payload], some (server', []))

/-- A server that is sent the frame delivers its payload. -/
theorem consume_sentFrame (handlers : HandshakeHandlers η') {server : Connected η'}
    (hs : server.1.isClient = false) (hmessage : server.1.message = []) (random : Fin 4 → UInt8)
    (payload : List UInt8) (hsize : payload.length < 2 ^ 64) :
    ∃ server', consume handlers server.1 (sentFrame true random payload).bytes =
      some ([.message payload], some (server', [])) := by
  have hproper : ∀ f ∈ [sentFrame true random payload], f.Proper server.1.isClient := by
    intro f hf
    obtain rfl := List.mem_singleton.1 hf
    exact ⟨(by decide : (0x2 : UInt8) < 16), sendForm_accepts hsize,
      fun h => by rw [hs] at h; cases h⟩
  have hplay := consume_play handlers server [sentFrame true random payload] hproper
  have hstep := step_data_fin (s := server) (f := sentFrame true random payload) rfl (Or.inr rfl)
  rw [List.flatMap_singleton] at hplay
  rw [hplay]
  simp only [play, hstep, hmessage]
  exact ⟨_, rfl⟩

/-- **When the round trip succeeds.** -/
theorem client_round_trip_iff (handlers : HandshakeHandlers η') (client : Connected η)
    (server : Connected η') (hc : client.1.isClient = true) (hs : server.1.isClient = false)
    (hmessage : server.1.message = []) (random : Fin 4 → UInt8) (payload : List UInt8) :
    RoundTrip handlers client server random payload ↔
      client.1.outputCb = true ∧ client.1.closeFrameSent = false ∧ payload.length ≤ 1016 := by
  have hnone : ¬ ∃ server', consume handlers server.1 [] =
      some ([.message payload], some (server', [])) := by
    rintro ⟨server', h⟩
    have hplay := consume_play handlers server [] (by simp)
    rw [List.flatMap_nil, h] at hplay
    cases hplay
  cases hclose : client.1.closeFrameSent with
  | true =>
    have hsend : client.1.sendMessage random payload = some [] := by
      unfold sendMessage
      rw [if_neg (not_not.2 client.2), if_pos hclose]
    refine ⟨fun ⟨outputs, server', ho, hcons⟩ => ?_, fun h => by cases h.2.1⟩
    rw [hsend] at ho; cases ho
    exact absurd ⟨server', hcons⟩ hnone
  | false =>
    by_cases hfit : payload.length ≤ 1016
    · have hsend := sendMessage_client random payload hc hclose ((fits_iff _).2 hfit)
      unfold emit at hsend
      cases hout : client.1.outputCb with
      | true =>
        rw [hout, if_pos rfl] at hsend
        obtain ⟨server', hcons⟩ :=
          consume_sentFrame handlers hs hmessage random payload (by omega)
        exact ⟨fun _ => ⟨rfl, rfl, hfit⟩, fun _ => ⟨_, server', hsend, by simpa using hcons⟩⟩
      | false =>
        rw [hout, if_neg (by decide)] at hsend
        refine ⟨fun ⟨outputs, server', ho, hcons⟩ => ?_, fun h => by cases h.1⟩
        rw [hsend] at ho; cases ho
        exact absurd ⟨server', hcons⟩ hnone
    · have hsend := sendMessage_stale random payload hc hclose
        (not_le.1 fun h => hfit ((fits_iff _).1 h))
      refine ⟨fun ⟨_, _, ho, _⟩ => ?_, fun h => absurd h.2.2 hfit⟩
      rw [hsend] at ho; cases ho

theorem small_round_trip :
    RoundTrip noHandshake (fresh true) (fresh false) (fun i => UInt8.ofNat (7 * i)) [1, 2, 3] :=
  (client_round_trip_iff noHandshake (fresh true) (fresh false) rfl rfl rfl _ _).2
    ⟨rfl, rfl, by decide⟩

/-- A payload of 1017 bytes makes the local buffer move. -/
theorem large_round_trip :
    ¬ RoundTrip noHandshake (fresh true) (fresh false) (fun _ => 1) (List.replicate 1017 0) := by
  rintro ⟨outputs, server', ho, _⟩
  rw [sendMessage_stale _ _ rfl rfl (by rw [List.length_replicate]; decide)] at ho
  cases ho

/-! ## From a server to a client -/

/-- What a server sends in turn is what the client delivers, to the last byte. -/
def Delivers (handlers : HandshakeHandlers η') (server : Connected η) (client : Connected η')
    (random : Fin 4 → UInt8) (payloads : List (List UInt8)) : Prop :=
  ∃ outputs client', payloads.mapM (server.1.sendMessage random) = some outputs ∧
    consume handlers client.1 outputs.flatten.flatten =
      some (payloads.map .message, some (client', [])) ∧ client'.status = .connected

/-- The sends of an open server, one frame each. -/
theorem sendMessages_server {server : Connected η} (hs : server.1.isClient = false)
    (hout : server.1.outputCb = true) (hclose : server.1.closeFrameSent = false)
    (random : Fin 4 → UInt8) {payloads : List (List UInt8)}
    (hsize : ∀ payload ∈ payloads, payload.length < 2 ^ 62) :
    payloads.mapM (server.1.sendMessage random) =
      some (payloads.map fun payload => [(sentFrame false random payload).bytes]) := by
  induction payloads with
  | nil => rfl
  | cons payload payloads ih =>
    have hsend := sendMessage_server hs hclose random (hsize payload (List.mem_cons_self ..))
    unfold emit at hsend
    rw [hout, if_pos rfl] at hsend
    rw [List.mapM_cons, hsend, ih fun p hp => hsize p (List.mem_cons_of_mem _ hp)]
    rfl

/-- Whole messages, each in one frame, are played one by one. -/
theorem play_sentFrames (random : Fin 4 → UInt8) : ∀ (payloads : List (List UInt8))
    (client : Connected η), client.1.message = [] →
    ∃ client', play client (payloads.map (sentFrame false random)) =
      (payloads.map .message, some client')
  | [], client, _ => ⟨client, rfl⟩
  | payload :: payloads, client, hmessage => by
    have hstep := step_data_fin (s := client) (f := sentFrame false random payload) rfl (Or.inr rfl)
    obtain ⟨client', hplay⟩ := play_sentFrames random payloads (client.final 0x2 client.1.retCode) rfl
    refine ⟨client', ?_⟩
    rw [List.map_cons, play, hstep, hmessage]
    show (_ ++ (play (client.final 0x2 client.1.retCode) _).1,
      (play (client.final 0x2 client.1.retCode) _).2) = _
    rw [hplay]
    rfl

/-- **The round trip of a sequence of messages**, from a server that has not sent a close
frame. -/
theorem server_round_trip (handlers : HandshakeHandlers η') (server : Connected η)
    (client : Connected η') (hs : server.1.isClient = false)
    (hout : server.1.outputCb = true) (hclose : server.1.closeFrameSent = false)
    (hmessage : client.1.message = []) (random : Fin 4 → UInt8) (payloads : List (List UInt8))
    (hsize : ∀ payload ∈ payloads, payload.length < 2 ^ 62) :
    Delivers handlers server client random payloads := by
  have hproper : ∀ f ∈ payloads.map (sentFrame false random), f.Proper client.1.isClient := by
    intro f hf
    obtain ⟨payload, hp, rfl⟩ := List.mem_map.1 hf
    exact ⟨(by decide : (0x2 : UInt8) < 16),
      sendForm_accepts ((hsize payload hp).trans (by decide)), fun _ => rfl⟩
  have hbytes : (payloads.map fun payload => [(sentFrame false random payload).bytes]).flatten.flatten =
      (payloads.map (sentFrame false random)).flatMap SentFrame.bytes := by
    rw [← List.flatMap_def, ← List.map_eq_flatMap, List.flatMap_def, List.map_map]
    rfl
  obtain ⟨client', hplay⟩ := play_sentFrames random payloads client hmessage
  refine ⟨_, client'.1, sendMessages_server hs hout hclose random hsize, ?_, client'.2⟩
  rw [hbytes, consume_play handlers client _ hproper, hplay]
  rfl

theorem short_messages_delivered :
    Delivers noHandshake (fresh false) (fresh true) (fun _ => 0) [[1, 2, 3], [], [4]] :=
  server_round_trip noHandshake (fresh false) (fresh true) rfl rfl rfl rfl _ _ (by decide)

/-- A server that has sent a close frame is still connected, and sends nothing more. -/
theorem closing_server_sends_nothing :
    ¬ ∀ (server : Connected Unit) (client : Connected Unit), server.1.isClient = false →
      client.1.isClient = true → client.1.message = [] → client.1.lastOpCode = -1 →
      ∀ payloads : List (List UInt8), (∀ payload ∈ payloads, payload.length < 2 ^ 62) →
        Delivers noHandshake server client (fun _ => 0) payloads := by
  intro h
  obtain ⟨outputs, client', ho, hcons, _⟩ :=
    h ⟨(sendCloseFrame (fresh false).1).1, rfl⟩ (fresh true) rfl rfl rfl rfl [[1]] (by decide)
  have hnone : outputs = [[]] := by
    refine Option.some.inj (ho.symm.trans ?_)
    rfl
  rw [hnone] at hcons
  cases hcons

end WebSocketProtocol

end Brickred
