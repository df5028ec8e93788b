import Brickred.Http.Uncounted

/-!
# Messages behind one another

The head of each message is written by `writeMessage`, and the body is sent as it is.

* `receives_framed` — a head that was written in full is read with its body.
* `not_receives_uncounted` — a head with a line that no `int` counts is not.
* `framing_round_trip_iff` — the messages of a stream are retrieved one after the other just when
  an `int` counts each line.
-/

set_option autoImplicit false

namespace Brickred

namespace HttpProtocol

open StringUtil HttpMessage HttpRequest

/-- A message whose `Content-Length`, if it has one, is the length of its body. -/
structure Framed (message : HttpMessage) : Prop where
  wellFormed : WellFormed message
  unchunked : ¬ chunked message = true
  content :
    match message.headers.find (bytes "Content-Length") with
    | some value => value = StringUtil.toString message.body.length ∧ message.body.length < 2 ^ 31
    | none => message.body = []

/-- For each message the head, as `writeMessage` appends it to a buffer, and the body. -/
def framedStream : List (HttpMessage × DynamicBuffer) → Option (List UInt8)
  | [] => some []
  | (message, d) :: parts => do
    let d' ← writeMessage (message.setBody []) d
    let stream ← framedStream parts
    some (d'.readable.drop d.readable.length ++ (message.body ++ stream))

section Framed

variable {beyond : Nat → UInt8} {message received : HttpMessage} {d d' : DynamicBuffer}
  {rest left : List UInt8} {chunkBuffer : Option (List UInt8)}

theorem contentLength_framed (h : Framed message) : contentLength message = message.body.length := by
  have hcontent := h.content
  unfold contentLength getHeader
  split at hcontent
  · rename_i value hvalue
    rw [hvalue, Option.getD_some, hcontent.1]
    exact atoi_toString hcontent.2
  · rename_i hnone
    rw [hnone, hcontent]
    rfl

/-- The headers of a message without a body. -/
theorem receives_bodiless (beyond : Nat → UInt8) (h : Framed message) (hnil : message.body = [])
    (rest : List UInt8) : ∃ chunkBuffer,
      Receives beyond (.readingHeader (.new message.kind message.version) none)
        (headerLines message.headers.entries ++ (crlf ++ rest))
        ⟨.messageReady, .finished message chunkBuffer, rest⟩ := by
  have hself : message.setBody [] = message := by rw [← hnil]; rfl
  have hlen := contentLength_framed h
  rw [hnil] at hlen
  have hrunning : Running (.readingHeader (.new message.kind message.version) none) := trivial
  by_cases hnone : message.headers.entries = []
  · have hempty : message.headers = .empty := SortedMap.eq_of_entries hnone
    have hnew : HttpMessage.new message.kind message.version = message := by
      obtain ⟨kind, version, headers, body⟩ := message
      cases hempty
      cases hnil
      rfl
    have hturn : turn (.readingHeader (.new message.kind message.version) none)
        (headerLines [] ++ (crlf ++ rest)) = _ := turn_noHeaders _ rest
    obtain ⟨_, _, chunkBuffer, hr⟩ := receives_message beyond hrunning hturn
    rw [hnone]
    rw [hnew] at hr ⊢
    exact ⟨chunkBuffer, hr⟩
  · have hturn : turn (.readingHeader (.new message.kind message.version) none)
        (headerLines message.headers.entries ++ (crlf ++ rest)) =
          .take .readingStartLine (headerLines message.headers.entries ++ crlf).length
            [message] true := by
      rw [turn_headers message h.wellFormed.plain.legible hnone, readOf_entries,
        readBack_wellFormed h.wellFormed, headersTurn, contentLength_setBody,
        if_neg (by rw [hlen]; decide), hself, if_neg h.unchunked]
    obtain ⟨_, _, chunkBuffer, hr⟩ := receives_message beyond hrunning hturn
    rw [← List.append_assoc, List.drop_left] at hr
    exact ⟨chunkBuffer, by rwa [← List.append_assoc]⟩

/-- **One message** at the front of a stream. -/
theorem receives_framed (beyond : Nat → UInt8) (h : Framed message) (rest : List UInt8) :
    ∃ chunkBuffer, Receives beyond reset (head message ++ (message.body ++ rest))
      ⟨.messageReady, .finished message chunkBuffer, rest⟩ := by
  have hlen := contentLength_framed h
  by_cases hpos : contentLength message > 0
  · have hback := readBack_wellFormed h.wellFormed
    have hturn : turn (.readingBody (readBack message) none) (message.body ++ rest) =
        .take .readingStartLine message.body.length [message] true := by
      rw [hback, turn_content (by rwa [contentLength_setBody]), contentTurn,
        contentLength_setBody, hlen, Int.toNat_natCast,
        if_neg (by rw [List.length_append]; omega), List.take_left]
      rfl
    have hrunning : Running (.readingBody (readBack message) none) :=
      Or.inl (by rwa [contentLength_readBack h.wellFormed.plain])
    obtain ⟨_, _, chunkBuffer, hr⟩ := receives_message beyond hrunning hturn
    rw [List.drop_left] at hr
    exact ⟨chunkBuffer, receives_head h.wellFormed.plain hpos hr⟩
  · have hnil : message.body = [] := List.length_eq_zero_iff.1 (by omega)
    obtain ⟨used, hstart, hdrop⟩ := turn_head h.wellFormed.start (message.body ++ rest)
    obtain ⟨chunkBuffer, hr⟩ := receives_bodiless beyond h hnil rest
    refine ⟨chunkBuffer, receives_silent (s := reset) trivial hstart ?_⟩
    rw [hdrop, hnil]
    exact hr

/-- Strings of one rank begin with a NUL together. -/
theorem rank_nul {key name : List UInt8} (h : rank key = rank (0 :: name)) : 0 ∈ key := by
  cases key with
  | nil => cases h
  | cons b key =>
    have hb : charRank b = charRank 0 := (List.cons.inj h).1
    have hlower : tolower b = 0 := by
      rw [charRank, charRank, if_neg (show tolower 0 ≠ 255 by decide)] at hb
      split_ifs at hb with h255
      exact UInt8.toNat_inj.1 (Int.natCast_inj.1 hb)
    have hzero : b = 0 := by
      unfold tolower at hlower
      split_ifs at hlower with hletter
      · rw [UInt8.le_iff_toNat_le, UInt8.le_iff_toNat_le] at hletter
        have hsum := congrArg UInt8.toNat hlower
        rw [UInt8.toNat_add] at hsum
        simp only [UInt8.reduceToNat] at hletter hsum
        omega
      · exact hlower
    exact hzero ▸ List.mem_cons_self

/-- **A head with a line that no `int` counts** is not read as the message it was written of. -/
theorem not_receives_uncounted (h : Framed message) (hd : Addressable d (message.setBody []))
    (hcount : ¬ Counted message) (hd' : writeMessage (message.setBody []) d = some d') :
    ¬ Receives beyond reset (d'.readable.drop d.readable.length ++ rest)
      ⟨.messageReady, .finished message chunkBuffer, left⟩ := by
  intro hr
  have hw := h.wellFormed.plain
  obtain ⟨front, behind, hfront, hread⟩ := writeMessage_uncounted hw hd hcount hd'
  have hstream : d'.readable.drop d.readable.length ++ rest =
      startLine message ++ (crlf ++ (headerLines front ++ 0 :: (behind ++ rest))) := by
    rw [hread, List.drop_left]
    simp
  rw [hstream] at hr
  obtain ⟨name, hname⟩ := ready_nul hw.start
    (fun header hmem => hw.legible header (hfront.subset hmem)) hr
  obtain ⟨value, hvalue⟩ := Option.isSome_iff_exists.1 hname
  obtain ⟨key, hkey, hmem⟩ := SortedMap.mem_of_find hvalue
  exact (hw.headers _ hmem).name 0 (by decide) (rank_nul hkey)

/-- The loop begins with the message that the first call returns with. -/
theorem pump_first {fuel : Nat} {s self : HttpProtocol} {buffer : List UInt8} {code : RetCode}
    {messages : List HttpMessage}
    (h : pump beyond fuel s buffer = some ⟨message :: messages, code, self, left⟩) :
    ∃ chunkBuffer rest, Receives beyond s buffer
      ⟨.messageReady, .finished message chunkBuffer, rest⟩ := by
  cases fuel with
  | zero => cases h
  | succ fuel =>
    obtain ⟨r, hr⟩ := receives_total beyond s buffer
    by_cases hcode : r.code = .messageReady
    · obtain ⟨ret, self', rest⟩ := r
      cases hcode
      rw [pump, hr _ (le_refl _)] at h
      simp only [bind, Option.bind_some] at h
      obtain ⟨⟨m, s'⟩, hm, h⟩ := Option.bind_eq_some_iff.1 h
      obtain ⟨p, _, h⟩ := Option.bind_eq_some_iff.1 h
      cases h
      cases self' with
      | finished m' chunkBuffer =>
        rw [retrieve_finished] at hm
        cases hm
        exact ⟨chunkBuffer, rest, hr⟩
      | _ => cases hm
    · rw [pump_quiet hr hcode] at h
      cases h

/-- The head of a message, where it is written, and what is behind it. -/
theorem framedStream_cons {parts : List (HttpMessage × DynamicBuffer)} {stream : List UInt8} :
    framedStream ((message, d) :: parts) = some stream ↔
      ∃ d' rest, writeMessage (message.setBody []) d = some d' ∧ framedStream parts = some rest ∧
        stream = d'.readable.drop d.readable.length ++ (message.body ++ rest) := by
  constructor
  · intro h
    obtain ⟨d', hd', h⟩ := Option.bind_eq_some_iff.1 h
    obtain ⟨rest, hrest, h⟩ := Option.bind_eq_some_iff.1 h
    exact ⟨d', rest, hd', hrest, (Option.some.inj h).symm⟩
  · rintro ⟨d', rest, hd', hrest, rfl⟩
    rw [framedStream, hd']
    simp only [bind, Option.bind_some, hrest]

/-- Heads that were written in full. -/
theorem pump_counted (beyond : Nat → UInt8) : ∀ {parts : List (HttpMessage × DynamicBuffer)},
    (∀ part ∈ parts, Framed part.1 ∧ Addressable part.2 (part.1.setBody [])) →
    (∀ part ∈ parts, Counted part.1) →
    ∃ stream, framedStream parts = some stream ∧ parts.length ≤ stream.length ∧
      ∀ fuel, parts.length < fuel → pump beyond fuel reset stream =
        some ⟨parts.map Prod.fst, .waitingMoreData, reset, []⟩
  | [], _, _ => by
    refine ⟨[], rfl, le_rfl, fun fuel hfuel => ?_⟩
    obtain ⟨fuel, rfl⟩ := Nat.exists_eq_add_one_of_ne_zero (Nat.ne_zero_of_lt hfuel)
    rfl
  | (message, d) :: parts, h, hcount => by
    obtain ⟨hframed, hd⟩ := h _ List.mem_cons_self
    obtain ⟨d', hd', hread⟩ :=
      writeMessage_head hframed.wellFormed.plain (hcount _ List.mem_cons_self) hd
    obtain ⟨stream, hstream, hlen, hpump⟩ := pump_counted beyond
      (fun part hpart => h part (List.mem_cons_of_mem _ hpart))
      fun part hpart => hcount part (List.mem_cons_of_mem _ hpart)
    refine ⟨head message ++ (message.body ++ stream),
      framedStream_cons.2 ⟨d', stream, hd', hstream, by rw [hread, List.drop_left]⟩, ?_,
      fun fuel hfuel => ?_⟩
    · have hpos : 2 ≤ (head message).length := by
        rw [head, List.length_append]
        exact Nat.le_add_left _ _
      rw [List.length_cons, List.length_append, List.length_append]
      omega
    · obtain ⟨fuel, rfl⟩ := Nat.exists_eq_add_one_of_ne_zero (Nat.ne_zero_of_lt hfuel)
      obtain ⟨chunkBuffer, hr⟩ := receives_framed beyond hframed stream
      rw [pump_ready hr, hpump fuel (Nat.lt_of_succ_lt_succ hfuel)]
      rfl

/-- Messages that are retrieved were written in full. -/
theorem counted_of_pump : ∀ {parts : List (HttpMessage × DynamicBuffer)} {stream : List UInt8}
    {fuel : Nat},
    (∀ part ∈ parts, Framed part.1 ∧ Addressable part.2 (part.1.setBody [])) →
    framedStream parts = some stream →
    pump beyond fuel reset stream = some ⟨parts.map Prod.fst, .waitingMoreData, reset, []⟩ →
    ∀ part ∈ parts, Counted part.1
  | [], _, _, _, _, _ => fun part hpart => absurd hpart List.not_mem_nil
  | (message, d) :: parts, stream, fuel, h, hstream, hpump => by
    obtain ⟨hframed, hd⟩ := h _ List.mem_cons_self
    obtain ⟨d', rest, hd', hrest, rfl⟩ := framedStream_cons.1 hstream
    have hcount : Counted message := by
      by_contra hcount
      obtain ⟨chunkBuffer, left, hr⟩ := pump_first hpump
      exact not_receives_uncounted hframed hd hcount hd' hr
    refine List.forall_mem_cons.2 ⟨hcount, ?_⟩
    obtain ⟨d₁, hd₁, hread⟩ := writeMessage_head hframed.wellFormed.plain hcount hd
    cases hd'.symm.trans hd₁
    rw [hread, List.drop_left] at hpump
    obtain ⟨chunkBuffer, hr⟩ := receives_framed beyond hframed rest
    cases fuel with
    | zero => cases hpump
    | succ fuel =>
      rw [pump_ready hr] at hpump
      obtain ⟨⟨messages, code, self, left⟩, hnext, heq⟩ := Option.map_eq_some_iff.1 hpump
      cases heq
      exact counted_of_pump (fun part hpart => h part (List.mem_cons_of_mem _ hpart)) hrest hnext

/-- **Framing.**  The messages of the stream are retrieved in order, and no byte is left over, just
when an `int` counts each line of their heads. -/
theorem framing_round_trip_iff (beyond : Nat → UInt8) (parts : List (HttpMessage × DynamicBuffer))
    (h : ∀ part ∈ parts, Framed part.1 ∧ Addressable part.2 (part.1.setBody [])) :
    (∃ stream, framedStream parts = some stream ∧ pump beyond (stream.length + 1) reset stream =
        some ⟨parts.map Prod.fst, .waitingMoreData, reset, []⟩) ↔
      ∀ part ∈ parts, Counted part.1 := by
  constructor
  · rintro ⟨stream, hstream, hpump⟩
    exact counted_of_pump h hstream hpump
  · intro hcount
    obtain ⟨stream, hstream, hlen, hpump⟩ := pump_counted beyond h hcount
    exact ⟨stream, hstream, hpump _ (Nat.lt_succ_of_le hlen)⟩

/-- A request without headers, and a response with a body. -/
def pipelined : List (HttpMessage × DynamicBuffer) :=
  [(.new (.request .get (bytes "/")) .http11, .new 0 64),
    (((HttpMessage.new (.response 200 (bytes "OK")) .http10).setHeader (bytes "Content-Length")
      (bytes "2")).setBody [0, 13], .new 16 16)]

theorem pipelined_framed : ∀ part ∈ pipelined,
    Framed part.1 ∧ Addressable part.2 (part.1.setBody []) := by
  intro part hpart
  simp only [pipelined, List.mem_cons, List.not_mem_nil, or_false] at hpart
  rcases hpart with rfl | rfl
  · exact ⟨⟨⟨And.intro (by decide) (And.intro (by decide) (by decide)),
      fun _ h => absurd h List.not_mem_nil⟩, by decide, show ([] : List UInt8) = [] from rfl⟩,
      ⟨by decide, by decide, by decide⟩, by decide⟩
  · refine ⟨⟨⟨And.intro (by decide) (And.intro (by decide) (And.intro (by decide) (by decide))),
        fun header h => ?_⟩, by decide, And.intro (by decide) (by decide)⟩,
      ⟨by decide, by decide, by decide⟩, by decide⟩
    rw [List.mem_singleton.1 h]
    exact ⟨by decide, by decide, by decide, by decide⟩

/-- Both heads are written in full. -/
theorem pipelined_round_trip :
    (∃ stream, framedStream pipelined = some stream ∧
      pump (fun _ => 0) (stream.length + 1) reset stream =
        some ⟨pipelined.map Prod.fst, .waitingMoreData, reset, []⟩) ↔
      ∀ part ∈ pipelined, Counted part.1 :=
  framing_round_trip_iff (fun _ => 0) pipelined pipelined_framed

/-- A request with a URI of this length. -/
def getOf (n : Nat) : HttpMessage := .new (.request .get (List.replicate n 97)) .http11

section Long

variable {n : Nat}

theorem getOf_framed (n : Nat) : Framed (getOf n) := by
  have hversion : Version.http11 ≠ .unknown := by decide
  have hmethod : Method.get ≠ .unknown := by decide
  have huri : ∀ b ∈ ([32, 13, 10, 0] : List UInt8), b ∉ List.replicate n 97 := fun b hb hmem =>
    absurd ((List.mem_replicate.1 hmem).2 ▸ hb) (by decide)
  exact ⟨⟨⟨hversion, hmethod, huri⟩, fun _ h => absurd h List.not_mem_nil⟩, Bool.false_ne_true,
    show ([] : List UInt8) = [] from rfl⟩

theorem getOf_addressable (h : n < 2 ^ 62) :
    Addressable (.new 0 64) ((getOf n).setBody []) := by
  refine ⟨⟨by decide, by decide, by decide⟩, ?_⟩
  show 0 + (64 + (List.replicate n (97 : UInt8)).length) + 0 + 2 + 0 + 2 * 64 < 2 ^ 63
  rw [List.length_replicate]
  omega

theorem getOf_not_counted (h : 2 ^ 31 ≤ n) : ¬ Counted (getOf n) := fun hcount => by
  have hstart := hcount.startLine
  simp only [startLine, getOf, HttpMessage.new, List.length_append, List.length_replicate]
    at hstart
  omega

theorem getOf_unframed (hlow : 2 ^ 31 ≤ n) (hhigh : n < 2 ^ 62) (beyond : Nat → UInt8) :
    ¬ ∃ stream, framedStream [(getOf n, .new 0 64)] = some stream ∧
      pump beyond (stream.length + 1) reset stream =
        some ⟨[getOf n], .waitingMoreData, reset, []⟩ := by
  rintro ⟨stream, hstream, hpump⟩
  have hcount := @counted_of_pump beyond [(getOf n, .new 0 64)] stream _
    (List.forall_mem_singleton.2 ⟨getOf_framed n, getOf_addressable hhigh⟩) hstream hpump
  exact getOf_not_counted hlow (hcount (getOf n, .new 0 64) List.mem_cons_self)

end Long

/-- The start line of this request has 2^31 + 15 bytes. -/
theorem long_uri_unframed :
    Framed (getOf (2 ^ 31)) ∧ Addressable (.new 0 64) ((getOf (2 ^ 31)).setBody []) ∧
    ¬ ∃ stream, framedStream [(getOf (2 ^ 31), .new 0 64)] = some stream ∧
      pump (fun _ => 0) (stream.length + 1) reset stream =
        some ⟨[getOf (2 ^ 31)], .waitingMoreData, reset, []⟩ :=
  ⟨getOf_framed _, getOf_addressable (by norm_num), getOf_unframed le_rfl (by norm_num) _⟩

end Framed

end HttpProtocol

end Brickred
