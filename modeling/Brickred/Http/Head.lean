import Brickred.Http.Decoding

/-!
# The head of a message on the wire

* `headLines`, `lastField` — the header lines of the message a stream begins with, and what the last
  of them says under a name.
* `find_setHeaders` — the parser keeps this, cut at a NUL and trimmed.
* `find_ready` — so does the message it delivers, but for the headers that say how the body
  was framed.
-/

set_option autoImplicit false

namespace Brickred

namespace HttpProtocol

open StringUtil HttpMessage

/-! ## The header lines -/

/-- What a header line says, where it has this name. -/
def field (key line : List UInt8) : Option (List UInt8) :=
  (find line [58]).bind fun colon =>
    if rank (trim (line.take colon)) = rank key then some (line.drop (colon + 1)) else none

/-- What the last of the lines with this name says. -/
def lastField (key : List UInt8) : List (List UInt8) → Option (List UInt8)
  | [] => none
  | line :: lines => (lastField key lines).or (field key line)

/-- The header lines of the message the stream begins with. -/
def headLines (stream : List UInt8) : List (List UInt8) :=
  let header := stream.drop ((find stream crlf).getD 0 + 2)
  if header.take 2 = crlf then []
  else split (header.take ((find header (crlf ++ crlf)).getD 0)) crlf (-1)

/-- What becomes of the value of a header line. -/
def stored (value : List UInt8) : List UInt8 := trim (cStr value)

/-- The header lines are read one after the other, and a later one replaces an earlier one. -/
theorem find_setHeaders (key : List UInt8) : ∀ {lines : List (List UInt8)}
    {message message' : HttpMessage}, setHeaders message lines = (message', true) →
    message'.headers.find key = ((lastField key lines).map stored).or (message.headers.find key)
  | [], _, _, h => by
    cases h
    rfl
  | line :: lines, message, message', h => by
    rw [setHeaders] at h
    cases hcolon : find line [58] with
    | none =>
      rw [hcolon] at h
      cases h
    | some colon =>
      rw [hcolon] at h
      have hline : (message.setHeader (trim (line.take colon))
          (trim (cStr (line.drop (colon + 1))))).headers.find key =
            ((field key line).map stored).or (message.headers.find key) := by
        unfold field HttpMessage.setHeader
        dsimp only
        rw [SortedMap.find_insert, hcolon, Option.bind_some]
        split <;> rfl
      rw [find_setHeaders key h, hline, lastField, Option.map_or, Option.or_assoc]

theorem parseStartLine_headers {line : List UInt8} {message : HttpMessage}
    (h : parseStartLine line = some message) : message.headers = .empty := by
  unfold parseStartLine at h
  split at h
  · dsimp only at h
    split at h
    · split at h
      · cases h
      · split at h
        · cases h
        · cases h
          rfl
    · split at h
      · cases h
      · split at h
        · cases h
        · cases h
          rfl
  · cases h

/-! ## The message that is delivered -/

/-- A body changes nothing in the head but what says how the body was framed. -/
def SameHead (message received : HttpMessage) : Prop :=
  ∀ key, rank key ≠ rank (bytes "Content-Length") → rank key ≠ rank (bytes "Transfer-Encoding") →
    received.headers.find key = message.headers.find key

section Ready

variable {beyond : Nat → UInt8} {s self : HttpProtocol} {buffer left stream : List UInt8}
  {r : Handled} {message received : HttpMessage} {chunkBuffer : Option (List UInt8)}

/-- The handlers' part of a call that ends with a message. -/
theorem ready_cases (h : statusHandler beyond s buffer = some (some r))
    (hr : Receives beyond s buffer ⟨.messageReady, self, left⟩) :
    r.ret ≠ 0 ∧ r.ret ≠ -1 ∧ (self = r.self ∨
      (∀ message chunkBuffer, r.self ≠ .finished message chunkBuffer) ∧
        Receives beyond r.self r.buffer ⟨.messageReady, self, left⟩) := by
  obtain ⟨r', hr'⟩ := receives_total beyond r.self r.buffer
  have hrun := hr (buffer.length + r.buffer.length + 2 + 1) (by omega)
  rw [recvMessage, h] at hrun
  dsimp only at hrun
  split at hrun
  · cases hrun
  split at hrun
  · cases hrun
  rename_i hzero herror
  refine ⟨Ne.symm hzero, Ne.symm herror, ?_⟩
  split at hrun
  · cases hrun
    exact Or.inl rfl
  · rename_i hself
    rw [hr' _ (by omega)] at hrun
    cases hrun
    exact Or.inr ⟨hself, hr'⟩

/-- A handler that ends the call gives its message. -/
theorem ready_finished {ret : Int} {rest : List UInt8} {chunkBuffer' : Option (List UInt8)}
    (h : statusHandler beyond s buffer = some (some ⟨ret, .finished message chunkBuffer', rest⟩))
    (hr : Receives beyond s buffer ⟨.messageReady, .finished received chunkBuffer, left⟩) :
    received = message := by
  rcases (ready_cases h hr).2.2 with hself | ⟨hself, _⟩
  · cases hself
    rfl
  · exact absurd rfl (hself _ _)

/-- Behind the last chunk, what is there of the next two bytes is a line end. -/
theorem readChunks_last : ∀ {fuel : Nat} {acc buffer : List UInt8} {r : Handled},
    readChunks beyond fuel message acc buffer = some r → r.ret ≠ 0 → r.ret ≠ -1 →
    ∃ acc', r.self = .readingHeader (decoded message acc') (some acc') ∧
      (¬ r.buffer.length < 2 → r.buffer.take 2 = crlf)
  | 0, _, _, _, h, _, _ => by cases h
  | fuel + 1, acc, buffer, r, h, hzero, herror => by
    rw [readChunks] at h
    split at h
    · cases h
      exact absurd rfl hzero
    split at h
    · cases h
      exact absurd rfl herror
    rename_i n _ _ size _
    dsimp only at h
    by_cases hlen : buffer.length < (if 0 = size then n + 2 else n + 2 + size + 2)
    · rw [if_pos hlen] at h
      cases h
      exact absurd rfl hzero
    rw [if_neg hlen] at h
    by_cases hcrlf : [memoryAt buffer beyond (n + 2 + size),
        memoryAt buffer beyond (n + 2 + size + 1)] ≠ crlf
    · rw [if_pos hcrlf] at h
      cases h
      exact absurd rfl herror
    rw [if_neg hcrlf] at h
    by_cases hlast : 0 = size
    · subst hlast
      rw [if_pos rfl] at h
      cases h
      refine ⟨_, rfl, fun hbuffer => ?_⟩
      dsimp only at hbuffer ⊢
      rw [if_pos rfl, List.length_drop] at hbuffer
      rw [if_pos rfl, ← not_ne_iff.1 hcrlf, memoryAt_eq (by omega)]
    · rw [if_neg hlast] at h
      exact readChunks_last h hzero herror

/-- A body that is ready leaves the head. -/
theorem ready_body (hr : Receives beyond (.readingBody message none) buffer
    ⟨.messageReady, .finished received chunkBuffer, left⟩) : SameHead message received := by
  by_cases hpos : contentLength message > 0
  · by_cases hlen : buffer.length < (contentLength message).toNat
    · have hwait : statusHandler beyond (.readingBody message none) buffer =
          some (some ⟨0, .readingBody message none, buffer⟩) := by
        unfold statusHandler readBody
        dsimp only
        rw [if_pos hpos, if_pos hlen]
      exact absurd rfl (ready_cases hwait hr).1
    · rw [ready_finished (statusHandler_content hpos hlen) hr]
      exact fun _ _ _ => rfl
  by_cases hchunked : chunked message = true
  · obtain ⟨r, hrun, _⟩ : ∃ r, readChunks beyond (buffer.length + 1) message [] buffer = some r ∧
        Proceeds buffer r := readChunks_proceeds beyond message _ (Nat.lt_succ_self _)
    have hhandled : statusHandler beyond (.readingBody message none) buffer = some (some r) := by
      unfold statusHandler readBody
      dsimp only
      rw [if_neg hpos, if_pos hchunked]
      exact congrArg some hrun
    obtain ⟨hzero, herror, hnext⟩ := ready_cases hhandled hr
    obtain ⟨acc, hself, hcrlf⟩ := readChunks_last hrun hzero herror
    rw [hself] at hnext
    rcases hnext with hnext | ⟨_, hnext⟩
    · cases hnext
    · by_cases hlen : r.buffer.length < 2
      · have hwait : statusHandler beyond (.readingHeader (decoded message acc) (some acc))
            r.buffer = some (some ⟨0, .readingHeader (decoded message acc) (some acc),
              r.buffer⟩) := by
          unfold statusHandler readHeader
          dsimp only
          rw [if_pos hlen]
        exact absurd rfl (ready_cases hwait hnext).1
      · rw [ready_finished (statusHandler_headersEnd hlen (hcrlf hlen)) hnext]
        exact (decoded_isDecoded message acc).others
  · rw [ready_finished (statusHandler_bodiless hpos hchunked) hr]
    exact fun _ _ _ => rfl

/-- The start line. -/
theorem ready_startLine (hr : Receives beyond reset stream
    ⟨.messageReady, .finished received chunkBuffer, left⟩) :
    ∃ n started, find stream crlf = some n ∧ parseStartLine (stream.take n) = some started ∧
      Receives beyond (.readingHeader started none) (stream.drop (n + 2))
        ⟨.messageReady, .finished received chunkBuffer, left⟩ := by
  cases hn : find stream crlf with
  | none =>
    have hwait : statusHandler beyond reset stream =
        some (some ⟨0, .readingStartLine, stream⟩) := by
      unfold reset statusHandler readStartLine
      dsimp only
      rw [hn]
    exact absurd rfl (ready_cases hwait hr).1
  | some n =>
    cases hstarted : parseStartLine (stream.take n) with
    | none =>
      have herror : statusHandler beyond reset stream =
          some (some ⟨-1, .readingStartLine, stream⟩) := by
        unfold reset statusHandler readStartLine
        dsimp only
        rw [hn]
        dsimp only
        rw [hstarted]
      exact absurd rfl (ready_cases herror hr).2.1
    | some started =>
      rcases (ready_cases (statusHandler_startLine hn hstarted) hr).2.2 with hself | ⟨_, hr⟩
      · cases hself
      · exact ⟨n, started, rfl, hstarted, hr⟩

/-- The header block and the body. -/
theorem ready_block (hr : Receives beyond (.readingHeader message none) buffer
    ⟨.messageReady, .finished received chunkBuffer, left⟩) (hcrlf : buffer.take 2 ≠ crlf) :
    ∃ n headed, find buffer (crlf ++ crlf) = some n ∧
      setHeaders message (split (buffer.take n) crlf (-1)) = (headed, true) ∧
      SameHead headed received := by
  have hnext := ready_cases (r := readHeader message none buffer) rfl hr
  unfold readHeader at hnext
  split at hnext
  · exact absurd rfl hnext.1
  split at hnext
  · exact absurd rfl hnext.1
  rename_i n hn
  split at hnext
  · exact absurd rfl hnext.2.1
  · rename_i headed hset
    rcases hnext.2.2 with hself | ⟨_, hr⟩
    · cases hself
    · exact ⟨n, headed, hn, hset, ready_body hr⟩

/-- Without a header block the message is the start line. -/
theorem ready_noHeaders (hr : Receives beyond (.readingHeader message none) buffer
    ⟨.messageReady, .finished received chunkBuffer, left⟩) (hcrlf : buffer.take 2 = crlf) :
    received = message := by
  have hlen : ¬ buffer.length < 2 := by
    have htake := congrArg List.length hcrlf
    rw [List.length_take] at htake
    change min 2 _ = 2 at htake
    omega
  exact ready_finished (statusHandler_headersEnd hlen hcrlf) hr

/-- **The message that is delivered** has the start line and the header lines of the stream. -/
theorem find_ready (hr : Receives beyond reset stream
    ⟨.messageReady, .finished received chunkBuffer, left⟩) {key : List UInt8}
    (hlength : rank key ≠ rank (bytes "Content-Length"))
    (hencoding : rank key ≠ rank (bytes "Transfer-Encoding")) :
    received.headers.find key = (lastField key (headLines stream)).map stored := by
  obtain ⟨n, started, hn, hstarted, hr⟩ := ready_startLine hr
  have hnone : started.headers.find key = none := by
    rw [parseStartLine_headers hstarted]
    rfl
  rw [headLines, hn, Option.getD_some]
  by_cases hcrlf : (stream.drop (n + 2)).take 2 = crlf
  · rw [ready_noHeaders hr hcrlf, hnone, if_pos hcrlf]
    rfl
  · obtain ⟨m, headed, hm, hset, hsame⟩ := ready_block hr hcrlf
    rw [hsame key hlength hencoding, find_setHeaders key hset, hnone, Option.or_none,
      if_neg hcrlf, hm, Option.getD_some]

end Ready

end HttpProtocol

end Brickred
