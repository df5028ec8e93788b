import Brickred.Http.Arrivals

/-!
# Chunked messages that arrive in pieces

* `ChunkedMessage` — a message with a chunked body, as it is sent.
* `Cuttable` — what the reader has done with every beginning of such a message.
* `chunked_uncut_iff` — the cut does not matter just when the first call that finds the line of
  the last chunk finds the line end behind it too: in what has arrived, or in what lies in memory
  behind that.
-/

set_option autoImplicit false

namespace Brickred

namespace HttpProtocol

open StringUtil HttpMessage Segmentation

/-! ## Chunked messages -/

/-- The line with the size, and the bytes. -/
structure Chunk where
  line : List UInt8
  data : List UInt8

def Chunk.text (chunk : Chunk) : List UInt8 := chunk.line ++ (crlf ++ (chunk.data ++ crlf))

structure ChunkedMessage where
  startLine : List UInt8
  header : List UInt8
  headers : List (List UInt8)
  chunks : List Chunk
  lastLine : List UInt8

namespace ChunkedMessage

def head (c : ChunkedMessage) : List UInt8 :=
  c.startLine ++ (crlf ++ (joinLines c.header c.headers ++ (crlf ++ crlf)))

/-- The last chunk has no bytes, and there are no trailer fields. -/
def tail (c : ChunkedMessage) : List UInt8 := c.lastLine ++ (crlf ++ crlf)

def text (c : ChunkedMessage) : List UInt8 := c.head ++ (c.chunks.flatMap Chunk.text ++ c.tail)

def body (c : ChunkedMessage) : List UInt8 := c.chunks.flatMap Chunk.data

/-- The size a line announces is that of the chunk, and `message` is what the head announces. -/
structure WellFormed (c : ChunkedMessage) (message : HttpMessage) : Prop where
  start : 13 ∉ c.startLine
  lines : ∀ line ∈ c.header :: c.headers, 13 ∉ line ∧ line ≠ []
  parsed : ∃ started, parseStartLine c.startLine = some started ∧
    setHeaders started (c.header :: c.headers) = (message, true)
  bodiless : ¬ contentLength message > 0
  chunked : chunked message = true
  chunks : ∀ chunk ∈ c.chunks, 13 ∉ chunk.line ∧ scanHex chunk.line = some chunk.data.length ∧
    chunk.data ≠ []
  last : 13 ∉ c.lastLine ∧ scanHex c.lastLine = some 0

end ChunkedMessage

/-- `recvMessage` is called after each piece, and returns `WAITING_MORE_DATA` until it returns
`MESSAGE_READY` after the last, and `message` is retrieved. -/
def Answers (message : HttpMessage) (s : HttpProtocol) (buffer : List UInt8) (arrival : Arrival) :
    List Arrival → Prop
  | [] => ∃ r, recvMessage arrival.beyond ((buffer ++ arrival.bytes).length + 2) s
      (buffer ++ arrival.bytes) = some r ∧ r.code = .messageReady ∧
      r.self.retrieveRequest.or r.self.retrieveResponse = some (message, reset)
  | next :: arrivals => ∃ r, recvMessage arrival.beyond ((buffer ++ arrival.bytes).length + 2) s
      (buffer ++ arrival.bytes) = some r ∧ r.code = .waitingMoreData ∧
      Answers message r.self r.buffer next arrivals

/-- The pieces give the message that the bytes give at once. -/
def SameInPieces (arrival : Arrival) (arrivals : List Arrival) : Prop :=
  ∃ message, (∀ beyond, Answers message reset []
      ⟨arrival.bytes ++ arrivals.flatMap Arrival.bytes, beyond⟩ []) ∧
    Answers message reset [] arrival arrivals

/-- Once no more than the last line end is missing of a message of `total` bytes, it lies in
memory behind the bytes received. -/
def LineEndBehind (total : Nat) : Nat → List Arrival → Prop
  | _, [] => True
  | received, arrival :: arrivals =>
    let missing := total - (received + arrival.bytes.length)
    if 2 < missing then LineEndBehind total (received + arrival.bytes.length) arrivals
    else (List.range missing).map arrival.beyond = crlf.drop (2 - missing)

/-! ## The turns on a chunked message -/

section Turns

variable {message : HttpMessage} {acc body lastLine text : List UInt8} {s s' : HttpProtocol}

theorem turn_chunkText (hnone : ¬ contentLength message > 0) (hchunked : chunked message = true)
    {chunk : Chunk} (hline : 13 ∉ chunk.line) (hsize : scanHex chunk.line = some chunk.data.length)
    (hne : chunk.data ≠ []) (rest : List UInt8) :
    turn (.readingBody message (some acc)) (chunk.text ++ rest) =
      .take (.readingBody message (some (acc ++ chunk.data))) chunk.text.length [] true := by
  have htext : chunk.text ++ rest = chunk.line ++ (crlf ++ (chunk.data ++ (crlf ++ rest))) := by
    simp [Chunk.text]
  have hlen : chunk.text.length = chunk.line.length + 2 + chunk.data.length + 2 := by
    simp only [Chunk.text, List.length_append]
    change _ + (2 + (_ + 2)) = _
    omega
  have hdrop : (chunk.line ++ (crlf ++ (chunk.data ++ (crlf ++ rest)))).drop
      (chunk.line.length + 2) = chunk.data ++ (crlf ++ rest) := by
    rw [← List.drop_drop, List.drop_left]
    rfl
  rw [turn_chunk hnone hchunked, Option.getD_some, htext, chunkTurn, find_line hline]
  dsimp only
  rw [List.take_left, hsize]
  dsimp only
  rw [if_neg (by rw [← htext, List.length_append, hlen]; omega), ← List.drop_drop, hdrop,
    List.drop_left, List.take_left,
    if_neg (not_not.2 (List.take_left' rfl : (crlf ++ rest).take 2 = crlf)),
    if_neg fun h => hne (List.length_eq_zero_iff.1 h.symm), hlen]

theorem turn_tail (hnone : ¬ contentLength message > 0) (hchunked : chunked message = true)
    (hline : 13 ∉ lastLine) (hsize : scanHex lastLine = some 0) :
    turn (.readingBody message (some acc)) (lastLine ++ (crlf ++ crlf)) =
      .take .readingStartLine (lastLine ++ (crlf ++ crlf)).length [decoded message acc] true := by
  have hdrop : (lastLine ++ (crlf ++ crlf)).drop (lastLine.length + 2) = crlf := by
    rw [← List.drop_drop, List.drop_left]
    rfl
  rw [turn_chunk hnone hchunked, Option.getD_some, chunkTurn, find_line hline]
  dsimp only
  rw [List.take_left, hsize]
  dsimp only
  rw [Nat.add_zero, if_neg (by rw [List.length_append]; exact Nat.lt_irrefl _), hdrop,
    if_neg (not_not.2 rfl : ¬ crlf.take 2 ≠ crlf), if_pos rfl, List.length_append]
  rfl

end Turns

/-! ## What the reader has done with a beginning of the message -/

/-- From the state `s` on: as long as more than the last line end is missing, the reader waits
inside the readable bytes; from then on it waits behind the line of the last chunk. -/
structure Cuttable (message : HttpMessage) (body lastLine : List UInt8) (s : HttpProtocol)
    (text : List UInt8) : Prop where
  long : 2 < text.length
  early : ∀ p, p <+: text → p.length + 2 < text.length → ∃ s' buffer',
    parser.settle s p = ([], s', buffer') ∧ turn s' buffer' = .wait ∧ ¬ Overread s' buffer'
  late : ∀ p, p <+: text → text.length ≤ p.length + 2 → p.length < text.length →
    parser.settle s p = ([], .readingBody message (some body),
      lastLine ++ (crlf ++ crlf.take (p.length + 2 - text.length)))
  whole : parser.settle s text = ([decoded message body], reset, [])

section Cuttable

variable {message : HttpMessage} {acc body lastLine text : List UInt8} {s s' : HttpProtocol}
  {used : Nat}

/-- One more turn in front. -/
theorem cuttable_take (ht : turn s text = .take s' used [] true)
    (hread : ∀ p, p <+: text → p.length < used → ¬ Overread s p)
    (h : Cuttable message body lastLine s' (text.drop used)) :
    Cuttable message body lastLine s text := by
  have hlen : (text.drop used).length = text.length - used := List.length_drop
  have hlong := h.long
  have hdrop : ∀ p, p <+: text → p.drop used <+: text.drop used ∧
      (p.drop used).length = p.length - used :=
    fun p hp => ⟨hp.drop used, List.length_drop⟩
  have hsettle : ∀ p, p <+: text → used ≤ p.length →
      parser.settle s p = parser.settle s' (p.drop used) := by
    intro p hp hle
    have hturn : turn s p = .take s' used [] true := parser.take_of_begin ht hp hle
    rw [parser.settle_take hturn]
    rfl
  refine ⟨by omega, fun p hp hshort => ?_, fun p hp hle hlt => ?_, ?_⟩
  · obtain ⟨hbegin, hdropped⟩ := hdrop p hp
    by_cases hused : used ≤ p.length
    · rw [hsettle p hp hused]
      exact h.early _ hbegin (by omega)
    · have hwait : turn s p = .wait := parser.wait_of_begin ht hp (by omega)
      exact ⟨s, p, parser.settle_wait hwait, hwait, hread p hp (by omega)⟩
  · obtain ⟨hbegin, hdropped⟩ := hdrop p hp
    have hmissing : (p.drop used).length + 2 - (text.drop used).length =
        p.length + 2 - text.length := by omega
    rw [hsettle p hp (by omega), h.late _ hbegin (by omega) (by omega), hmissing]
  · rw [hsettle text (List.prefix_refl _) (by omega)]
    exact h.whole

/-- The last chunk. -/
theorem cuttable_tail (hnone : ¬ contentLength message > 0) (hchunked : chunked message = true)
    (hline : 13 ∉ lastLine) (hsize : scanHex lastLine = some 0) :
    Cuttable message body lastLine (.readingBody message (some body))
      (lastLine ++ (crlf ++ crlf)) := by
  have ht := @turn_tail message body _ hnone hchunked hline hsize
  have hlen : (lastLine ++ (crlf ++ crlf)).length = lastLine.length + 4 := by
    rw [List.length_append]
    rfl
  have hwait : ∀ p, p <+: lastLine ++ (crlf ++ crlf) → p.length < lastLine.length + 4 →
      turn (.readingBody message (some body)) p = .wait := fun p hp hlt =>
    parser.wait_of_begin (s := .readingBody message (some body)) ht hp (hlen ▸ hlt)
  refine ⟨by omega, fun p hp hshort => ?_, fun p hp hle hlt => ?_, ?_⟩
  · refine ⟨.readingBody message (some body), p, parser.settle_wait (hwait p hp (by omega)),
      hwait p hp (by omega), ?_⟩
    rintro ⟨_, _, n, hn, _⟩
    obtain ⟨ext, hext⟩ := hp
    have hfind := find_append hn ext
    rw [hext, find_line hline] at hfind
    have hle := find_le hn
    change n + 2 ≤ _ at hle
    cases hfind
    omega
  · have hbehind : p = lastLine ++
        (crlf ++ crlf.take (p.length + 2 - (lastLine ++ (crlf ++ crlf)).length)) := by
      have hline : (lastLine ++ crlf).length = lastLine.length + 2 := by
        rw [List.length_append]
        rfl
      conv_lhs =>
        rw [List.prefix_iff_eq_take.1 hp, ← List.append_assoc, List.take_append,
          List.take_of_length_le (by omega), List.append_assoc, hline]
      rw [show p.length + 2 - (lastLine ++ (crlf ++ crlf)).length = p.length - (lastLine.length + 2)
        by omega]
    rw [parser.settle_wait (s := .readingBody message (some body)) (hwait p hp (by omega)),
      ← hbehind]
  · rw [parser.settle_take (s := .readingBody message (some body)) ht, List.drop_length]
    rfl

/-- The line of a chunk that is not the last one cannot be mistaken for the last one. -/
theorem not_overread_chunk {chunk : Chunk} (hline : 13 ∉ chunk.line)
    (hsize : scanHex chunk.line = some chunk.data.length) (hne : chunk.data ≠ [])
    {rest p : List UInt8} (hp : p <+: chunk.text ++ rest) :
    ¬ Overread (.readingBody message (some acc)) p := by
  rintro ⟨_, _, n, hn, hzero, _⟩
  obtain ⟨ext, hext⟩ := hp
  have htext : chunk.text ++ rest = chunk.line ++ (crlf ++ (chunk.data ++ (crlf ++ rest))) := by
    simp [Chunk.text]
  have hfind := find_append hn ext
  rw [hext, htext, find_line hline] at hfind
  cases hfind
  have hle := find_le hn
  have hshort : (p ++ ext).take chunk.line.length = p.take chunk.line.length :=
    List.take_append_of_le_length (by omega)
  have hline' : p.take chunk.line.length = chunk.line := by
    rw [← hshort, hext, htext, List.take_left]
  rw [hline', hsize] at hzero
  exact hne (List.length_eq_zero_iff.1 (Option.some.inj hzero))

/-- The chunks. -/
theorem cuttable_chunks (hnone : ¬ contentLength message > 0) (hchunked : chunked message = true)
    (hlast : 13 ∉ lastLine ∧ scanHex lastLine = some 0) : ∀ (chunks : List Chunk)
    (acc : List UInt8), (∀ chunk ∈ chunks, 13 ∉ chunk.line ∧
      scanHex chunk.line = some chunk.data.length ∧ chunk.data ≠ []) →
    Cuttable message (acc ++ chunks.flatMap Chunk.data) lastLine (.readingBody message (some acc))
      (chunks.flatMap Chunk.text ++ (lastLine ++ (crlf ++ crlf)))
  | [], acc, _ => by
    rw [List.flatMap_nil, List.append_nil]
    exact cuttable_tail hnone hchunked hlast.1 hlast.2
  | chunk :: chunks, acc, h => by
    obtain ⟨hline, hsize, hne⟩ := h chunk List.mem_cons_self
    have ih := cuttable_chunks hnone hchunked hlast chunks (acc ++ chunk.data) fun chunk' h' =>
      h chunk' (List.mem_cons_of_mem chunk h')
    rw [List.flatMap_cons, List.flatMap_cons, List.append_assoc, ← List.append_assoc acc]
    refine cuttable_take (turn_chunkText hnone hchunked hline hsize hne _)
      (fun p hp _ => not_overread_chunk hline hsize hne hp) ?_
    rwa [List.drop_left]

/-- **Every beginning of a chunked message.** -/
theorem cuttable_text {c : ChunkedMessage} (hw : c.WellFormed message) :
    Cuttable message c.body c.lastLine reset c.text := by
  obtain ⟨started, hstarted, hset⟩ := hw.parsed
  have hchunks := cuttable_chunks hw.bodiless hw.chunked hw.last c.chunks [] hw.chunks
  have htext : c.text = c.startLine ++ (crlf ++ (joinLines c.header c.headers ++
      (crlf ++ crlf ++ (c.chunks.flatMap Chunk.text ++ c.tail)))) := by
    simp [ChunkedMessage.text, ChunkedMessage.head]
  have hblock := turn_lines started none (fun l hl => (hw.lines l hl).1)
    (fun l hl => (hw.lines l hl).2) (c.chunks.flatMap Chunk.text ++ c.tail)
  rw [hset, headersTurn, if_neg hw.bodiless, if_pos hw.chunked] at hblock
  rw [htext]
  refine cuttable_take (turn_line hw.start hstarted _) (fun _ _ _ h => h) ?_
  rw [← List.append_assoc c.startLine, List.drop_left]
  refine cuttable_take hblock (fun _ _ _ h => h) ?_
  have hdrop : (joinLines c.header c.headers ++ (crlf ++ crlf ++
      (c.chunks.flatMap Chunk.text ++ c.tail))).drop
        (joinLines c.header c.headers ++ (crlf ++ crlf)).length =
      c.chunks.flatMap Chunk.text ++ c.tail := by
    rw [← List.append_assoc _ (crlf ++ crlf), List.drop_left]
  rw [hdrop]
  exact hchunks

end Cuttable

/-! ## The calls -/

section Calls

variable {message : HttpMessage} {body lastLine text : List UInt8} {beyond : Nat → UInt8}
  {s : HttpProtocol} {buffer : List UInt8} {arrival next : Arrival} {arrivals : List Arrival}
  {r : Received}

theorem answers_last (h : Receives arrival.beyond s (buffer ++ arrival.bytes) r) :
    Answers message s buffer arrival [] ↔ r.code = .messageReady ∧
      r.self.retrieveRequest.or r.self.retrieveResponse = some (message, reset) := by
  have hr := h _ (le_refl _)
  rw [Answers]
  constructor
  · rintro ⟨r', hr', h'⟩
    cases hr.symm.trans hr'
    exact h'
  · exact fun h' => ⟨r, hr, h'⟩

theorem answers_next (h : Receives arrival.beyond s (buffer ++ arrival.bytes) r) :
    Answers message s buffer arrival (next :: arrivals) ↔
      r.code = .waitingMoreData ∧ Answers message r.self r.buffer next arrivals := by
  have hr := h _ (le_refl _)
  rw [Answers]
  constructor
  · rintro ⟨r', hr', h'⟩
    cases hr.symm.trans hr'
    exact h'
  · exact fun h' => ⟨r, hr, h'⟩

/-- What `memcmp` compares behind the line of the last chunk, when `count` bytes of the line end
have been received. -/
theorem memoryAt_lastLine (line : List UInt8) (beyond : Nat → UInt8) {count : Nat}
    (hcount : count < 2) :
    [memoryAt (line ++ (crlf ++ crlf.take count)) beyond (line.length + 2),
      memoryAt (line ++ (crlf ++ crlf.take count)) beyond (line.length + 2 + 1)] =
        crlf.take count ++ (List.range (2 - count)).map beyond := by
  have hat : ∀ i, memoryAt (line ++ (crlf ++ crlf.take count)) beyond (line.length + 2 + i) =
      memoryAt (crlf.take count) beyond i := by
    intro i
    unfold memoryAt
    rw [Nat.add_assoc, List.getElem?_append_right (Nat.le_add_right _ _), Nat.add_sub_cancel_left,
      List.getElem?_append_right (Nat.le_add_right 2 i)]
    simp only [List.length_append]
    change (crlf.take count)[2 + i - 2]?.getD (beyond (line.length + (2 + i) - (_ + (2 + _)))) = _
    rw [Nat.add_sub_cancel_left, ← Nat.add_assoc, ← Nat.add_assoc, Nat.add_sub_add_left]
  rw [hat 1, show line.length + 2 = line.length + 2 + 0 from rfl, hat 0]
  obtain rfl | rfl : count = 0 ∨ count = 1 := by omega
  · rfl
  · rfl

variable (beyond) in
/-- **Behind the line of the last chunk** a call goes on just when the line end lies in memory
there. -/
theorem receives_lastLine (hnone : ¬ contentLength message > 0) (hchunked : chunked message = true)
    (hlast : 13 ∉ lastLine ∧ scanHex lastLine = some 0) {count : Nat} (hcount : count < 2) :
    Receives beyond (.readingBody message (some body)) (lastLine ++ (crlf ++ crlf.take count))
      (if (List.range (2 - count)).map beyond = crlf.drop count then
        ⟨.waitingMoreData, .readingHeader (decoded message body) (some body), crlf.take count⟩
      else
        ⟨.error, .pendingError (some message) (some body),
          lastLine ++ (crlf ++ crlf.take count)⟩) := by
  have hlen : (lastLine ++ (crlf ++ crlf.take count)).length = lastLine.length + 2 + count := by
    simp only [List.length_append, List.length_take]
    change _ + (2 + min count 2) = _
    omega
  have hdrop : (lastLine ++ (crlf ++ crlf.take count)).drop (lastLine.length + 2) =
      crlf.take count := by
    rw [← List.drop_drop, List.drop_left]
    rfl
  have hchunks := @statusHandler_chunk beyond (lastLine ++ (crlf ++ crlf.take count)) _
    hnone hchunked body
  rw [readChunks, find_line hlast.1] at hchunks
  dsimp only at hchunks
  rw [List.take_left, hlast.2] at hchunks
  dsimp only at hchunks
  rw [if_pos rfl, if_neg (by omega), Nat.add_zero, memoryAt_lastLine lastLine beyond hcount] at hchunks
  split
  · rename_i hbehind
    rw [if_neg (by rw [hbehind, List.take_append_drop]; exact not_not.2 rfl), if_pos rfl,
      if_neg (by decide), hdrop] at hchunks
    refine receives_next hchunks (fun _ _ h => by cases h) (by rw [List.length_take]; omega) ?_
    refine receives_wait trivial ?_ id
    show headerTurn _ _ _ = _
    unfold headerTurn
    rw [if_pos (by rw [List.length_take]; omega)]
  · rename_i hbehind
    rw [if_pos fun h => hbehind
      (List.append_cancel_left (h.trans (List.take_append_drop count crlf).symm))] at hchunks
    exact receives_error hchunks rfl

theorem bytes_ne_nil : ∀ (arrivals : List Arrival) (arrival : Arrival),
    (arrivals.getLastD arrival).bytes ≠ [] → arrival.bytes ++ arrivals.flatMap Arrival.bytes ≠ []
  | [], arrival, h => by rwa [List.flatMap_nil, List.append_nil]
  | next :: arrivals, arrival, h => by
    have ih := bytes_ne_nil arrivals next (by rwa [List.getLastD_cons] at h)
    rw [List.flatMap_cons]
    exact fun hnil => ih (List.append_eq_nil_iff.1 hnil).2

/-- **Behind the chunks** the two bytes of the line end are waited for. -/
theorem answers_lineEnd (body : List UInt8) : ∀ (arrivals : List Arrival) (arrival : Arrival)
    (count : Nat), arrival.bytes ++ arrivals.flatMap Arrival.bytes = crlf.drop count →
    (arrivals.getLastD arrival).bytes ≠ [] →
    Answers message (.readingHeader message (some body)) (crlf.take count) arrival arrivals
  | [], arrival, count, hbytes, _ => by
    rw [List.flatMap_nil, List.append_nil] at hbytes
    have hall : crlf.take count ++ arrival.bytes = crlf := by rw [hbytes, List.take_append_drop]
    have hhandled := @statusHandler_headersEnd arrival.beyond crlf message (some body)
      (by decide) rfl
    exact (answers_last (hall ▸ receives_ready hhandled)).2 ⟨rfl, retrieve_finished _ _⟩
  | next :: arrivals, arrival, count, hbytes, hlast => by
    rw [List.getLastD_cons] at hlast
    have hrest := List.length_pos_iff.2 (bytes_ne_nil arrivals next hlast)
    have hlen := congrArg List.length hbytes
    rw [List.flatMap_cons, List.length_append, List.length_drop] at hlen
    change _ + _ = 2 - count at hlen
    have hnow : arrival.bytes = (crlf.drop count).take arrival.bytes.length := by
      rw [← hbytes, List.take_left]
    have hthen : next.bytes ++ arrivals.flatMap Arrival.bytes =
        crlf.drop (count + arrival.bytes.length) := by
      rw [← List.drop_drop, ← hbytes, List.drop_left, List.flatMap_cons]
    have hbuffer : crlf.take count ++ arrival.bytes = crlf.take (count + arrival.bytes.length) := by
      rw [List.take_add, ← hnow]
    have hwait : turn (.readingHeader message (some body))
        (crlf.take (count + arrival.bytes.length)) = .wait := by
      show headerTurn _ _ _ = _
      unfold headerTurn
      rw [if_pos (by rw [List.length_take]; omega)]
    have hr : Receives arrival.beyond (.readingHeader message (some body))
        (crlf.take count ++ arrival.bytes) ⟨.waitingMoreData, .readingHeader message (some body),
          crlf.take (count + arrival.bytes.length)⟩ := by
      rw [hbuffer]
      exact receives_wait (s := .readingHeader message (some body)) trivial hwait id
    exact (answers_next hr).2 ⟨rfl, answers_lineEnd body arrivals next _ hthen hlast⟩

theorem drop_text (c : ChunkedMessage) {count received : Nat}
    (h : received + 2 = c.text.length + count) : c.text.drop received = crlf.drop count := by
  obtain ⟨front, hfront⟩ : ∃ front, c.text = front ++ crlf :=
    ⟨c.head ++ (c.chunks.flatMap Chunk.text ++ (c.lastLine ++ crlf)), by
      simp [ChunkedMessage.text, ChunkedMessage.tail]⟩
  have hlen := congrArg List.length hfront
  rw [List.length_append] at hlen
  change _ = _ + 2 at hlen
  rw [hfront, show received = front.length + count by omega, ← List.drop_drop, List.drop_left]

/-- **The calls** once the bytes `p` of a chunked message have been received. -/
theorem answers_iff {c : ChunkedMessage} (hw : c.WellFormed message) :
    ∀ (arrivals : List Arrival) (arrival : Arrival) (p : List UInt8),
    p.length + 2 < c.text.length → p ++ (arrival.bytes ++ arrivals.flatMap Arrival.bytes) = c.text →
    (arrivals.getLastD arrival).bytes ≠ [] →
    (Answers (decoded message c.body) (parser.settle reset p).2.1 (parser.settle reset p).2.2
      arrival arrivals ↔ LineEndBehind c.text.length p.length (arrival :: arrivals)) := by
  have hcut := cuttable_text hw
  intro arrivals
  induction arrivals with
  | nil =>
    intro arrival p hp hbytes _
    rw [List.flatMap_nil, List.append_nil] at hbytes
    have hsettle := parser.settle_append arrival.bytes reset p
    rw [hbytes, hcut.whole] at hsettle
    obtain ⟨s', buffer', hsettle', _⟩ := hcut.early p ⟨_, hbytes⟩ hp
    have hfirst := (congrArg Prod.fst hsettle).symm
    dsimp only at hfirst
    rw [show (parser.settle reset p).1 = [] by rw [hsettle'], List.nil_append] at hfirst
    obtain ⟨chunkBuffer, rest, hr⟩ := receives_first arrival.beyond _ _
      (settle_running reset p trivial) hfirst
    have hlen : c.text.length - (p.length + arrival.bytes.length) = 0 := by
      rw [← hbytes, List.length_append, Nat.sub_self]
    rw [answers_last hr, LineEndBehind, hlen]
    exact ⟨fun _ => rfl, fun _ => ⟨rfl, retrieve_finished _ _⟩⟩
  | cons next arrivals ih =>
    intro arrival p hp hbytes hlast
    rw [List.getLastD_cons] at hlast
    have hrest := List.length_pos_iff.2 (bytes_ne_nil arrivals next hlast)
    rw [List.flatMap_cons, ← List.append_assoc] at hbytes
    have hbegin : p ++ arrival.bytes <+: c.text := ⟨_, hbytes⟩
    have hlen := congrArg List.length hbytes
    rw [List.length_append, List.length_append] at hlen
    -- what the reader does now, from where it was left
    have hnow := parser.settle_append arrival.bytes reset p
    obtain ⟨s', buffer', hsettled, _⟩ := hcut.early p
      ((List.prefix_append p arrival.bytes).trans hbegin) hp
    rw [show (parser.settle reset p).1 = [] by rw [hsettled], List.nil_append] at hnow
    have hreceives : ∀ r, (parser.settle reset (p ++ arrival.bytes)).1 = [] →
        Receives arrival.beyond (parser.settle reset (p ++ arrival.bytes)).2.1
          (parser.settle reset (p ++ arrival.bytes)).2.2 r →
        Receives arrival.beyond (parser.settle reset p).2.1
          ((parser.settle reset p).2.2 ++ arrival.bytes) r := by
      intro r hout hr
      rw [hnow] at hout hr
      exact receives_settle _ _ (settle_running reset p trivial) hout hr
    rw [LineEndBehind]
    by_cases hearly : (p ++ arrival.bytes).length + 2 < c.text.length
    · obtain ⟨s'', buffer'', hsettle, hwait, hno⟩ := hcut.early _ hbegin hearly
      have hrun := settle_running reset (p ++ arrival.bytes) trivial
      rw [hsettle] at hreceives hrun
      have ih' := ih next (p ++ arrival.bytes) hearly hbytes hlast
      rw [hsettle] at ih'
      rw [List.length_append] at ih' hearly
      rw [if_pos (by omega), ← ih', answers_next (hreceives _ rfl (receives_wait hrun hwait hno))]
      exact and_iff_right rfl
    · have hlate := hcut.late _ hbegin (by omega) (by rw [List.length_append]; omega)
      rw [hlate] at hreceives
      rw [List.length_append] at hlate hearly hreceives
      obtain ⟨count, hcount⟩ : ∃ count, count = p.length + arrival.bytes.length + 2 - c.text.length :=
        ⟨_, rfl⟩
      rw [← hcount] at hreceives
      have hr := hreceives _ rfl (receives_lastLine arrival.beyond hw.bodiless hw.chunked
        hw.last (show count < 2 by omega))
      rw [if_neg (by omega), show c.text.length - (p.length + arrival.bytes.length) = 2 - count
        by omega, show 2 - (2 - count) = count by omega, answers_next hr]
      split
      · rename_i hbehind
        refine ⟨fun _ => hbehind, fun _ => ⟨rfl, answers_lineEnd c.body arrivals next count ?_ hlast⟩⟩
        have hrest' := congrArg (List.drop (p ++ arrival.bytes).length) hbytes
        rw [List.drop_left, List.length_append] at hrest'
        rw [hrest']
        exact drop_text c (by omega)
      · rename_i hbehind
        exact ⟨fun h => absurd h.1 (fun hcode => by cases hcode), fun h => absurd h hbehind⟩

end Calls

/-- **The cut does not matter** to a chunked message just when the first call that finds the line
of the last chunk finds the line end behind it too, in the bytes received or in memory behind
them. -/
theorem chunked_uncut_iff {c : ChunkedMessage} {message : HttpMessage} (hw : c.WellFormed message)
    (arrival : Arrival) (arrivals : List Arrival)
    (hbytes : arrival.bytes ++ arrivals.flatMap Arrival.bytes = c.text)
    (hlast : (arrivals.getLastD arrival).bytes ≠ []) :
    SameInPieces arrival arrivals ↔ LineEndBehind c.text.length 0 (arrival :: arrivals) := by
  have hlong := (cuttable_text hw).long
  have hpieces : Answers (decoded message c.body) reset [] arrival arrivals ↔
      LineEndBehind c.text.length 0 (arrival :: arrivals) :=
    answers_iff hw arrivals arrival [] hlong hbytes hlast
  have hwhole : ∀ beyond, Answers (decoded message c.body) reset [] ⟨c.text, beyond⟩ [] := by
    intro beyond
    refine (answers_iff hw [] ⟨c.text, beyond⟩ [] hlong (List.append_nil _) ?_).2 ?_
    · exact List.ne_nil_of_length_pos (Nat.zero_lt_of_lt hlong)
    · rw [LineEndBehind, List.length_nil, Nat.zero_add, Nat.sub_self]
      exact rfl
  rw [← hpieces]
  unfold SameInPieces
  rw [hbytes]
  constructor
  · rintro ⟨m, hm, hanswers⟩
    obtain ⟨r, hr, _, hretrieve⟩ := hm fun _ => 0
    obtain ⟨r', hr', _, hretrieve'⟩ := hwhole fun _ => 0
    cases hr.symm.trans hr'
    cases hretrieve.symm.trans hretrieve'
    exact hanswers
  · exact fun hanswers => ⟨_, hwhole, hanswers⟩

/-- A response with a chunk of two bytes. -/
def greeting : ChunkedMessage where
  startLine := bytes "HTTP/1.1 200 OK"
  header := bytes "Transfer-Encoding: chunked"
  headers := []
  chunks := [⟨bytes "2", bytes "hi"⟩]
  lastLine := bytes "0"

/-- The message its head announces. -/
def greetingMessage : HttpMessage :=
  (HttpMessage.new (.response 200 (bytes "OK")) .http11).setHeader (bytes "Transfer-Encoding")
    (bytes "chunked")

theorem greeting_wellFormed : greeting.WellFormed greetingMessage where
  start := by decide
  lines := by decide
  parsed := ⟨.new (.response 200 (bytes "OK")) .http11, by decide, by decide⟩
  bodiless := by decide
  chunked := by decide
  chunks chunk h := by
    rw [List.mem_singleton.1 h]
    exact ⟨by decide, by decide, by decide⟩
  last := by decide

/-- In three pieces, cut inside the head and inside the line of the chunk. -/
theorem greeting_in_pieces :
    SameInPieces ⟨greeting.text.take 20, fun _ => 0⟩
      [⟨(greeting.text.drop 20).take 28, fun _ => 0⟩, ⟨greeting.text.drop 48, fun _ => 0⟩] :=
  (chunked_uncut_iff greeting_wellFormed _ _ (by decide) (by decide)).2 rfl

/-- Only the last line end has not arrived yet, and there are zeros behind the bytes received. -/
theorem cut_before_lineEnd :
    ¬ SameInPieces ⟨greeting.text.take (greeting.text.length - 2), fun _ => 0⟩
      [⟨crlf, fun _ => 0⟩] := by
  have herror : (recvMessage (fun _ => 0)
      (([] ++ greeting.text.take (greeting.text.length - 2)).length + 2) reset
      ([] ++ greeting.text.take (greeting.text.length - 2))).map Received.code = some .error := by
    decide
  rintro ⟨message, _, r, hr, hcode, _⟩
  rw [hr] at herror
  cases hcode.symm.trans (Option.some.inj herror)

end HttpProtocol

end Brickred
