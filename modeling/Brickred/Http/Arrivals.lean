import Brickred.Http.Reader

/-!
# Streams that arrive in pieces

* `pump_settled` — unless a comparison leaves the readable bytes (`Overread`), the application's
  loop does all the takes of the reader, and stops where the reader does.
* `receive_settled` — run for each piece, it does what it would do for the whole stream.
* `segmentation_free` — so no cut of a stream without chunked bodies matters.
-/

set_option autoImplicit false

namespace Brickred

namespace HttpProtocol

open StringUtil HttpMessage Segmentation

/-- What the last call returns, and the object it leaves, where the reader has settled. -/
def rest (s : HttpProtocol) (buffer : List UInt8) : RetCode × HttpProtocol :=
  match turn s buffer with
  | .stop _ => (.error, failed s buffer)
  | _ => (.waitingMoreData, s)

/-- The loop's result when it does all the takes of the reader. -/
def settled (s : HttpProtocol) (buffer : List UInt8) : Pumped :=
  let r := parser.settle s buffer
  ⟨r.1, (rest r.2.1 r.2.2).1, (rest r.2.1 r.2.2).2, r.2.2⟩

/-- Where the reader has settled, `memcmp` would leave the readable bytes. -/
def OverreadAt (s : HttpProtocol) (buffer : List UInt8) : Prop :=
  Overread (parser.settle s buffer).2.1 (parser.settle s buffer).2.2

section Loop

variable {beyond : Nat → UInt8} {s s' : HttpProtocol} {buffer : List UInt8} {used : Nat}
  {out : List HttpMessage} {more : Bool}

theorem rest_wait (h : turn s buffer = .wait) : rest s buffer = (.waitingMoreData, s) := by
  rw [rest, h]

theorem rest_stop (h : turn s buffer = .stop out) : rest s buffer = (.error, failed s buffer) := by
  rw [rest, h]

theorem settled_wait (h : turn s buffer = .wait) :
    settled s buffer = ⟨[], .waitingMoreData, s, buffer⟩ := by
  rw [settled, parser.settle_wait h]
  dsimp only
  rw [rest_wait h]

theorem settled_stop (h : turn s buffer = .stop out) :
    settled s buffer = ⟨[], .error, failed s buffer, buffer⟩ := by
  rw [settled, parser.settle_stop h]
  dsimp only
  rw [rest_stop h]

theorem settled_take (h : turn s buffer = .take s' used out more) :
    settled s buffer =
      { settled s' (buffer.drop used) with
        messages := out ++ (settled s' (buffer.drop used)).messages } := by
  rw [settled, parser.settle_take h]
  rfl

theorem retrieve_finished (message : HttpMessage) (chunkBuffer : Option (List UInt8)) :
    (finished message chunkBuffer).retrieveRequest.or (finished message chunkBuffer).retrieveResponse =
      some (message, reset) := by
  obtain ⟨kind, version, headers, body⟩ := message
  cases kind <;> rfl

theorem pump_quiet {r : Received} (h : Receives beyond s buffer r) (hcode : r.code ≠ .messageReady)
    (fuel : Nat) : pump beyond (fuel + 1) s buffer = some ⟨[], r.code, r.self, r.buffer⟩ := by
  obtain ⟨code, self, rest⟩ := r
  rw [pump, h _ (le_refl _)]
  cases code with
  | messageReady => exact absurd rfl hcode
  | waitingMoreData => rfl
  | error => rfl

/-- Two calls that receive the same go on in the same way. -/
theorem pump_same {rest : List UInt8} {r : Received} (h : Receives beyond s buffer r)
    (h' : Receives beyond s' rest r) (fuel : Nat) :
    pump beyond fuel s buffer = pump beyond fuel s' rest := by
  cases fuel with
  | zero => rfl
  | succ fuel => rw [pump, pump, h _ (le_refl _), h' _ (le_refl _)]

theorem pump_ready {message : HttpMessage} {chunkBuffer : Option (List UInt8)} {rest : List UInt8}
    (h : Receives beyond s buffer ⟨.messageReady, .finished message chunkBuffer, rest⟩)
    (fuel : Nat) :
    pump beyond (fuel + 1) s buffer = (pump beyond fuel reset rest).map fun p =>
      { p with messages := message :: p.messages } := by
  rw [pump, h _ (le_refl _)]
  simp only [bind, Option.bind_some]
  rw [retrieve_finished, Option.bind_some]
  dsimp only
  cases pump beyond fuel reset rest with
  | none => rfl
  | some p => rfl

/-- **The loop is total**, and does all the takes of the reader. -/
theorem pump_settled (s : HttpProtocol) (buffer : List UInt8) :
    Running s → ¬ OverreadAt s buffer → (∃ r, Receives beyond s buffer r) ∧
      ∀ fuel, buffer.length < fuel → pump beyond fuel s buffer = some (settled s buffer) := by
  induction s, buffer using parser.turn_induction with
  | wait s buffer ht =>
    intro hs hread
    rw [OverreadAt, parser.settle_wait ht] at hread
    have hr : Receives beyond s buffer _ := receives_wait hs ht hread
    refine ⟨⟨_, hr⟩, ?_⟩
    rintro (_ | fuel) hfuel
    · omega
    · rw [pump_quiet hr (fun h => by cases h), settled_wait ht]
  | stop s buffer out ht =>
    intro hs _
    have hr : Receives beyond s buffer _ := receives_stop hs ht
    refine ⟨⟨_, hr⟩, ?_⟩
    rintro (_ | fuel) hfuel
    · omega
    · rw [pump_quiet hr (fun h => by cases h), settled_stop ht]
  | take s buffer s' used out more ht ih =>
    intro hs hread
    rw [OverreadAt, parser.settle_take ht] at hread
    obtain ⟨⟨r, hr⟩, hpump⟩ := ih (turn_running hs ht) hread
    have hpos := parser.used_pos ht
    have hle := parser.used_le ht
    have hlen : (buffer.drop used).length = buffer.length - used := List.length_drop
    rw [settled_take ht]
    cases out with
    | nil =>
      have hr' := receives_silent hs ht hr
      refine ⟨⟨_, hr'⟩, fun fuel hfuel => ?_⟩
      rw [pump_same hr' hr, hpump fuel (by omega)]
      rfl
    | cons message out =>
      obtain ⟨rfl, rfl, chunkBuffer, hr'⟩ := receives_message beyond hs ht
      refine ⟨⟨_, hr'⟩, ?_⟩
      rintro (_ | fuel) hfuel
      · omega
      · rw [pump_ready hr']
        have hrest : pump beyond fuel reset (buffer.drop used) = _ := hpump fuel (by omega)
        rw [hrest]
        rfl

/-- A call does the silent turns, and goes on from there. -/
theorem receives_append {r : Received} (ext : List UInt8) (s : HttpProtocol)
    (buffer : List UInt8) : Running s → (parser.settle s buffer).1 = [] →
    Receives beyond (parser.settle s buffer).2.1 ((parser.settle s buffer).2.2 ++ ext) r →
    Receives beyond s (buffer ++ ext) r := by
  induction s, buffer using parser.turn_induction with
  | wait s buffer ht => rw [parser.settle_wait ht]; exact fun _ _ hr => hr
  | stop s buffer out ht => rw [parser.settle_stop ht]; exact fun _ _ hr => hr
  | take s buffer s' used out more ht ih =>
    rw [parser.settle_take ht]
    intro hs hout hr
    obtain ⟨rfl, hout⟩ := List.append_eq_nil_iff.1 hout
    obtain ⟨hext, hdrop⟩ := parser.extend_take ht ext
    refine receives_silent hs hext ?_
    rw [hdrop]
    exact ih (turn_running hs ht) hout hr

theorem receives_settle {r : Received} (s : HttpProtocol) (buffer : List UInt8) (hs : Running s)
    (hout : (parser.settle s buffer).1 = [])
    (hr : Receives beyond (parser.settle s buffer).2.1 (parser.settle s buffer).2.2 r) :
    Receives beyond s buffer r := by
  have happ := @receives_append beyond r [] s buffer hs hout
  rw [List.append_nil, List.append_nil] at happ
  exact happ hr

/-- The states in front of a body. -/
def Heading : HttpProtocol → Prop
  | .readingStartLine => True
  | .readingHeader _ _ => True
  | _ => False

theorem heading_running (hs : Heading s) : Running s := by
  cases s <;> trivial

theorem heading_not_overread (hs : Heading s) : ¬ Overread s buffer := by
  cases s <;> first | exact id | exact absurd hs id

section Heads

variable {message : HttpMessage} {ext : List UInt8}

theorem reads_heading (h : parser.Reads Heading reset [message] s buffer) : Heading s := by
  cases h <;> assumption

variable (beyond) in
/-- A message is received with its last byte, and what comes behind it is left alone. -/
theorem receives_reads (h : parser.Reads Heading reset [message] s buffer) (ext : List UInt8) :
    ∃ chunkBuffer, Receives beyond s (buffer ++ ext)
      ⟨.messageReady, .finished message chunkBuffer, ext⟩ := by
  induction h with
  | @last s buffer more hs h =>
    obtain ⟨hext, _⟩ := parser.extend_take h ext
    obtain ⟨_, _, chunkBuffer, hr⟩ := receives_message beyond (heading_running hs) hext
    rw [List.drop_left] at hr
    exact ⟨chunkBuffer, hr⟩
  | silent hs h hrest ih =>
    obtain ⟨hext, hdrop⟩ := parser.extend_take h ext
    obtain ⟨chunkBuffer, hr⟩ := ih
    refine ⟨chunkBuffer, receives_silent (heading_running hs) hext ?_⟩
    rw [hdrop]
    exact hr

/-- Behind the first bytes of a message, more of them are waited for. -/
theorem receives_more (h : parser.Reads Heading reset [message] s buffer) {p : List UInt8}
    (hp : p ++ ext <+: buffer) (hlt : (p ++ ext).length < buffer.length) :
    Receives beyond (parser.settle s p).2.1 ((parser.settle s p).2.2 ++ ext)
      ⟨.waitingMoreData, (parser.settle s (p ++ ext)).2.1, (parser.settle s (p ++ ext)).2.2⟩ := by
  have hlen : p.length < buffer.length := by
    rw [List.length_append] at hlt
    omega
  obtain ⟨_, hs, _⟩ := parser.reads_begin h ((List.prefix_append p ext).trans hp) hlen
  obtain ⟨hout, hs', hwait⟩ := parser.reads_begin h hp hlt
  rw [parser.settle_append] at hout hs' hwait ⊢
  exact receives_settle _ _ (heading_running hs) (List.append_eq_nil_iff.1 hout).2
    (receives_wait (heading_running hs') hwait (heading_not_overread hs'))

variable (beyond) in
/-- Behind the first bytes of a message, the last of them complete it. -/
theorem receives_rest (h : parser.Reads Heading reset [message] s buffer) {p : List UInt8}
    (hp : p <+: buffer) (hlt : p.length < buffer.length) {rest : List UInt8}
    (hrest : p ++ ext = buffer ++ rest) :
    ∃ chunkBuffer, Receives beyond (parser.settle s p).2.1 ((parser.settle s p).2.2 ++ ext)
      ⟨.messageReady, .finished message chunkBuffer, rest⟩ := by
  obtain ⟨hout, hs, _⟩ := parser.reads_begin h hp hlt
  obtain ⟨chunkBuffer, hr⟩ := receives_reads beyond h rest
  obtain ⟨r, hr'⟩ := receives_total beyond (parser.settle s p).2.1
    ((parser.settle s p).2.2 ++ ext)
  have hsame := receives_append ext s p (heading_running (reads_heading h)) hout hr'
  rw [hrest] at hsame
  have heq := Option.some.inj ((hsame _ le_rfl).symm.trans (hr _ le_rfl))
  exact ⟨chunkBuffer, heq ▸ hr'⟩

end Heads

variable (beyond) in
/-- A call returns with the first message. -/
theorem receives_first {message : HttpMessage} {messages : List HttpMessage} (s : HttpProtocol)
    (buffer : List UInt8) : Running s → (parser.settle s buffer).1 = message :: messages →
    ∃ chunkBuffer rest,
      Receives beyond s buffer ⟨.messageReady, .finished message chunkBuffer, rest⟩ := by
  induction s, buffer using parser.turn_induction with
  | wait s buffer ht => rw [parser.settle_wait ht]; exact fun _ hout => by cases hout
  | stop s buffer out ht => rw [parser.settle_stop ht]; exact fun _ hout => by cases hout
  | take s buffer s' used out more ht ih =>
    rw [parser.settle_take ht]
    intro hs hout
    cases out with
    | nil =>
      obtain ⟨chunkBuffer, rest, hr⟩ := ih (turn_running hs ht) hout
      exact ⟨chunkBuffer, rest, receives_silent hs ht hr⟩
    | cons m out =>
      obtain ⟨_, _, chunkBuffer, hr⟩ := receives_message beyond hs ht
      cases hout
      exact ⟨chunkBuffer, _, hr⟩

/-! ## Piece by piece -/

theorem failed_append (hs : Running s) (h : turn s buffer = .stop out) (ext : List UInt8) :
    failed s (buffer ++ ext) = failed s buffer := by
  cases s with
  | readingHeader message chunkBuffer =>
    change headerTurn message chunkBuffer buffer = _ at h
    unfold headerTurn at h
    split at h
    · cases h
    · split at h
      · cases h
      · split at h
        · cases h
        · rename_i n hn
          have hle := find_le hn
          simp only [failed, hn, find_append hn, Option.getD_some]
          rw [List.take_append_of_le_length (by omega)]
  | readingStartLine => rfl
  | readingBody message chunkBuffer => rfl
  | finished message chunkBuffer => exact absurd hs id
  | pendingError message chunkBuffer => exact absurd hs id

theorem failed_pendingError (hs : Running s) (buffer : List UInt8) :
    ∃ message chunkBuffer, failed s buffer = .pendingError message chunkBuffer := by
  cases s with
  | readingStartLine => exact ⟨none, none, rfl⟩
  | readingHeader message chunkBuffer => exact ⟨_, _, rfl⟩
  | readingBody message chunkBuffer => exact ⟨_, _, rfl⟩
  | finished message chunkBuffer => exact absurd hs id
  | pendingError message chunkBuffer => exact absurd hs id

variable (beyond) in
/-- The next call, where the reader had settled: it goes on, or the error stays. -/
theorem pump_rest (hs : Running s) (hrest : turn s buffer = .wait ∨ ∃ out, turn s buffer = .stop out)
    {ext : List UInt8} (hread : ¬ OverreadAt s (buffer ++ ext)) :
    pump beyond ((buffer ++ ext).length + 1) (rest s buffer).2 (buffer ++ ext) =
      some (settled s (buffer ++ ext)) := by
  rcases hrest with hw | ⟨out, hstop⟩
  · rw [rest_wait hw]
    exact (pump_settled s _ hs hread).2 _ (Nat.lt_succ_self _)
  · have hstop' : turn s (buffer ++ ext) = .stop out := by
      rw [← hstop]
      exact parser.extend ext (by
        rw [show parser.turn s buffer = _ from hstop]
        exact fun h => by cases h)
    rw [rest_stop hstop, settled_stop hstop', failed_append hs hstop]
    obtain ⟨message, chunkBuffer, hfailed⟩ := failed_pendingError hs buffer
    dsimp only
    rw [hfailed]
    rfl

theorem settle_running : ∀ (s : HttpProtocol) (buffer : List UInt8), Running s →
    Running (parser.settle s buffer).2.1 := by
  intro s buffer
  induction s, buffer using parser.turn_induction with
  | wait s buffer ht => rw [parser.settle_wait ht]; exact id
  | stop s buffer out ht => rw [parser.settle_stop ht]; exact id
  | take s buffer s' used out more ht ih =>
    rw [parser.settle_take ht]
    exact fun hs => ih (turn_running hs ht)

theorem settled_append (s : HttpProtocol) (buffer ext : List UInt8) :
    settled s (buffer ++ ext) =
      { settled (parser.settle s buffer).2.1 ((parser.settle s buffer).2.2 ++ ext) with
        messages := (settled s buffer).messages ++
          (settled (parser.settle s buffer).2.1
            ((parser.settle s buffer).2.2 ++ ext)).messages } := by
  rw [settled, parser.settle_append]
  rfl

theorem overreadAt_append (s : HttpProtocol) (buffer ext : List UInt8) :
    OverreadAt s (buffer ++ ext) ↔
      OverreadAt (parser.settle s buffer).2.1 ((parser.settle s buffer).2.2 ++ ext) := by
  rw [OverreadAt, parser.settle_append]
  rfl

/-- **Piece by piece** the loop does what it does for the whole stream. -/
theorem receive_settled : ∀ (arrivals : List Arrival) (arrival : Arrival) (s : HttpProtocol)
    (buffer : List UInt8), Running s →
    (turn s buffer = .wait ∨ ∃ out, turn s buffer = .stop out) →
    (∀ received, received <+: arrival.bytes ++ arrivals.flatMap Arrival.bytes →
      ¬ OverreadAt s (buffer ++ received)) →
    receive (rest s buffer).2 buffer arrival arrivals =
      some (settled s (buffer ++ (arrival.bytes ++ arrivals.flatMap Arrival.bytes)))
  | [], arrival, s, buffer, hs, hrest, hread => by
    rw [List.flatMap_nil, List.append_nil] at hread ⊢
    exact pump_rest _ hs hrest (hread _ (List.prefix_refl _))
  | next :: arrivals, arrival, s, buffer, hs, hrest, hread => by
    have hpump := pump_rest arrival.beyond hs hrest
      (hread arrival.bytes (List.prefix_append _ _))
    have ih := receive_settled arrivals next (parser.settle s (buffer ++ arrival.bytes)).2.1
      (parser.settle s (buffer ++ arrival.bytes)).2.2 (settle_running s _ hs)
      (parser.settle_rest s _) fun received hbegin => by
        rw [← overreadAt_append, List.append_assoc]
        refine hread _ ?_
        rw [List.flatMap_cons]
        exact (List.prefix_append_right_inj _).2 hbegin
    rw [receive, hpump]
    simp only [bind, Option.bind_some]
    have hself : (settled s (buffer ++ arrival.bytes)).self =
        (rest (parser.settle s (buffer ++ arrival.bytes)).2.1
          (parser.settle s (buffer ++ arrival.bytes)).2.2).2 := rfl
    have hbuffer : (settled s (buffer ++ arrival.bytes)).buffer =
        (parser.settle s (buffer ++ arrival.bytes)).2.2 := rfl
    rw [hself, hbuffer, ih, List.flatMap_cons, ← List.append_assoc buffer,
      settled_append s (buffer ++ arrival.bytes)]
    rfl

end Loop

/-! ## Streams without chunked bodies -/

/-- The states the object passes through, each with the unused bytes, when the application's loop
is run from `s₀` and `buffer₀`. -/
inductive Reaches (beyond : Nat → UInt8) (s₀ : HttpProtocol) (buffer₀ : List UInt8) :
    HttpProtocol → List UInt8 → Prop where
  | start : Reaches beyond s₀ buffer₀ s₀ buffer₀
  | handled {s s' : HttpProtocol} {buffer buffer' : List UInt8}
      (h : Reaches beyond s₀ buffer₀ s buffer)
      (hr : statusHandler beyond s buffer = some (some ⟨1, s', buffer'⟩)) :
      Reaches beyond s₀ buffer₀ s' buffer'
  | retrieved {message : HttpMessage} {chunkBuffer : Option (List UInt8)} {buffer : List UInt8}
      (h : Reaches beyond s₀ buffer₀ (.finished message chunkBuffer) buffer) :
      Reaches beyond s₀ buffer₀ reset buffer

/-- No message that is parsed from the stream selects chunked decoding. -/
def Unchunked (beyond : Nat → UInt8) (stream : List UInt8) : Prop :=
  ∀ message chunkBuffer buffer, Reaches beyond reset stream (.readingBody message chunkBuffer) buffer →
    contentLength message > 0 ∨ ¬ chunked message = true

section Unchunked

variable {beyond : Nat → UInt8} {s s' : HttpProtocol} {stream buffer : List UInt8} {used : Nat}
  {out : List HttpMessage} {more : Bool}

/-- The takes of the reader are steps of the handlers. -/
theorem reaches_take (hun : Unchunked beyond stream) (hs : Running s)
    (hreach : Reaches beyond reset stream s buffer) (ht : turn s buffer = .take s' used out more) :
    Reaches beyond reset stream s' (buffer.drop used) := by
  cases s with
  | readingStartLine =>
    obtain ⟨n, message, hn, hmessage, rfl, rfl, _⟩ := startLineTurn_cases ht
    exact .handled hreach (statusHandler_startLine hn hmessage)
  | readingHeader message chunkBuffer =>
    obtain ⟨hlen, ⟨hcrlf, rfl, rfl, _⟩ | ⟨hcrlf, n, hn, hturn⟩⟩ := headerTurn_cases ht
    · exact .retrieved (.handled hreach (statusHandler_headersEnd hlen hcrlf))
    · obtain ⟨message', hset, rfl, hcases⟩ := headersTurn_cases hturn
      have hbody := Reaches.handled hreach (statusHandler_headers hlen hcrlf hn hset)
      rcases hcases with ⟨_, rfl, _⟩ | ⟨hnone, hchunked, _, _⟩ | ⟨hnone, hchunked, rfl, _⟩
      · exact hbody
      · exact absurd hchunked ((hun _ _ _ hbody).resolve_left hnone)
      · exact .retrieved (.handled hbody (statusHandler_bodiless hnone hchunked))
  | readingBody message chunkBuffer =>
    by_cases hpos : contentLength message > 0
    · rw [turn_content hpos] at ht
      obtain ⟨hlen, rfl, rfl, _⟩ := contentTurn_cases ht
      exact .retrieved (.handled hreach (statusHandler_content hpos hlen))
    · exact absurd (hs.resolve_left hpos).1 ((hun _ _ _ hreach).resolve_left hpos)
  | finished message chunkBuffer => exact absurd hs id
  | pendingError message chunkBuffer => exact absurd hs id

theorem not_overread (hun : Unchunked beyond stream) (hreach : Reaches beyond reset stream s buffer)
    (unread : List UInt8) : ¬ Overread s unread := by
  cases s with
  | readingBody message chunkBuffer =>
    rintro ⟨hnone, hchunked, _⟩
    exact (hun _ _ _ hreach).elim hnone fun h => h hchunked
  | _ => exact id

/-- On no beginning of the stream does `memcmp` leave the readable bytes. -/
theorem not_overreadAt (hun : Unchunked beyond stream) (ext : List UInt8) (s : HttpProtocol)
    (buffer : List UInt8) : Running s → Reaches beyond reset stream s (buffer ++ ext) →
    ¬ OverreadAt s buffer := by
  induction s, buffer using parser.turn_induction with
  | wait s buffer ht =>
    intro _ hreach
    rw [OverreadAt, parser.settle_wait ht]
    exact not_overread hun hreach _
  | stop s buffer out ht =>
    intro _ hreach
    rw [OverreadAt, parser.settle_stop ht]
    exact not_overread hun hreach _
  | take s buffer s' used out more ht ih =>
    intro hs hreach
    obtain ⟨hext, hdrop⟩ := Reader.extend_take ht ext
    rw [OverreadAt, parser.settle_take ht]
    refine ih (turn_running hs ht) ?_
    rw [← hdrop]
    exact reaches_take hun hs hreach hext

end Unchunked

/-- **The cut does not matter** to a stream without chunked bodies: the messages, the last code,
the object and the unconsumed bytes are those of the stream in one piece. -/
theorem segmentation_free (beyond : Nat → UInt8) (stream : List UInt8)
    (hun : Unchunked beyond stream) :
    ∃ p, receive reset [] ⟨stream, beyond⟩ [] = some p ∧
      ∀ arrival arrivals, arrival.bytes ++ arrivals.flatMap Arrival.bytes = stream →
        receive reset [] arrival arrivals = some p := by
  have hall : ∀ arrival arrivals, arrival.bytes ++ arrivals.flatMap Arrival.bytes = stream →
      receive reset [] arrival arrivals = some (settled reset stream) := by
    rintro arrival arrivals rfl
    have h := receive_settled arrivals arrival reset [] trivial (Or.inl rfl)
      fun received ⟨ext, hext⟩ => not_overreadAt hun ext reset received trivial
        (by rw [hext]; exact .start)
    exact h
  exact ⟨_, hall ⟨stream, beyond⟩ [] (List.append_nil stream), hall⟩

/-- A request with a body, and the beginning of another one. -/
def twoRequests : List UInt8 :=
  bytes "POST / HTTP/1.0\r\nContent-Length: 2\r\n\r\nhiGET"

/-- The states the parser passes through. -/
def twoRequestsStates : List (HttpProtocol × List UInt8) :=
  let post : HttpMessage := .new (.request .post (bytes "/")) .http10
  let headed := post.setHeader (bytes "Content-Length") (bytes "2")
  [(reset, twoRequests),
    (.readingHeader post none, bytes "Content-Length: 2\r\n\r\nhiGET"),
    (.readingBody headed none, bytes "hiGET"),
    (.finished (headed.setBody (bytes "hi")) none, bytes "GET"), (reset, bytes "GET")]

theorem twoRequests_unchunked : Unchunked (fun _ => 0) twoRequests := by
  have hhandled : ∀ p ∈ twoRequestsStates,
      ((statusHandler (fun _ => 0) p.1 p.2).join.all fun r =>
        decide (r.ret = 1 → (r.self, r.buffer) ∈ twoRequestsStates)) = true := by decide
  have hretrieved : ∀ p ∈ twoRequestsStates,
      (p.1.retrieveRequest.or p.1.retrieveResponse).isSome = true →
        (reset, p.2) ∈ twoRequestsStates := by decide
  have hlength : ∀ p ∈ twoRequestsStates, ∀ message chunkBuffer,
      p.1 = .readingBody message chunkBuffer → contentLength message > 0 := by
    rintro p hp message chunkBuffer hbody
    obtain rfl | rfl | rfl | rfl | rfl : p = _ ∨ p = _ ∨ p = _ ∨ p = _ ∨ p = _ := by
      simpa only [twoRequestsStates, List.mem_cons, List.not_mem_nil, or_false] using hp
    · cases hbody
    · cases hbody
    · cases hbody
      decide
    · cases hbody
    · cases hbody
  have hstates : ∀ s buffer, Reaches (fun _ => 0) reset twoRequests s buffer →
      (s, buffer) ∈ twoRequestsStates := by
    intro s buffer h
    induction h with
    | start => decide
    | handled h hr ih =>
      have hstep := hhandled _ ih
      rw [hr] at hstep
      exact of_decide_eq_true hstep rfl
    | retrieved h ih => exact hretrieved _ ih (by rw [retrieve_finished]; rfl)
  intro message chunkBuffer buffer h
  exact Or.inl (hlength _ (hstates _ _ h) message chunkBuffer rfl)

theorem twoRequests_free :
    ∃ p, receive reset [] ⟨twoRequests, fun _ => 0⟩ [] = some p ∧
      ∀ arrival arrivals, arrival.bytes ++ arrivals.flatMap Arrival.bytes = twoRequests →
        receive reset [] arrival arrivals = some p :=
  segmentation_free (fun _ => 0) twoRequests twoRequests_unchunked

end HttpProtocol

end Brickred
