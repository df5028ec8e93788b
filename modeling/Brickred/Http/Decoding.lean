import Brickred.Http.Chunked
import Brickred.Lib.PercentEncoding

/-!
# Decoding a chunked message

A chunked message that has arrived as a whole, with anything behind it.

* `Hexadecimal`, `Announces` — the sizes as they may be written; `announces_scanHex` — what `sscanf`
  makes of such a line.
* `ChunkedHead` — a start line and header lines that select chunked decoding.
* `receives_chunks` — the chunks are put together one after the other.
* `chunked_decoded` — the message is ready, decoded, and nothing behind it is used.
* `trailers_never_decoded` — with trailer fields behind the last chunk it is an error.
-/

set_option autoImplicit false

namespace Brickred

namespace HttpProtocol

open StringUtil HttpMessage Segmentation PercentEncoding

/-! ## The sizes -/

/-- Digits of either case, with any number of leading zeros. -/
def Hexadecimal (n : Nat) (digits : List UInt8) : Prop :=
  digits ≠ [] ∧ ∃ ds : List Nat, digits.map hexValue = ds.map some ∧ Nat.ofDigits 16 ds.reverse = n

/-- A line with the size of a chunk: its digits, and an extension behind `;`. -/
def Announces (size : Nat) (line : List UInt8) : Prop :=
  ∃ digits extension, line = digits ++ extension ∧ Hexadecimal size digits ∧
    (extension = [] ∨ extension.head? = some 59) ∧ 13 ∉ extension

section Hex

variable {c : UInt8} {x n acc : Nat} {digits extension : List UInt8} {ds : List Nat}

theorem hexValue_range (h : hexValue c = some x) :
    (48 ≤ c.toNat ∧ c.toNat ≤ 57 ∧ x = c.toNat - 48) ∨
      (65 ≤ c.toNat ∧ c.toNat ≤ 70 ∧ x = c.toNat - 55) ∨
      (97 ≤ c.toNat ∧ c.toNat ≤ 102 ∧ x = c.toNat - 87) := by
  unfold hexValue at h
  simp only [UInt8.le_iff_toNat_le] at h
  split at h
  · rename_i hc
    cases h
    exact Or.inl ⟨hc.1, hc.2, rfl⟩
  split at h
  · rename_i hc
    cases h
    exact Or.inr (Or.inl ⟨hc.1, hc.2, rfl⟩)
  split at h
  · rename_i hc
    cases h
    exact Or.inr (Or.inr ⟨hc.1, hc.2, rfl⟩)
  · cases h

theorem hexValue_digit (h : hexValue c = some x) : digitValue c = some x ∧ x < 16 := by
  have hc := hexValue_range h
  unfold digitValue
  simp only [UInt8.le_iff_toNat_le]
  change (if 48 ≤ c.toNat ∧ c.toNat ≤ 57 then _ else if 97 ≤ c.toNat ∧ c.toNat ≤ 122 then _ else
    if 65 ≤ c.toNat ∧ c.toNat ≤ 90 then _ else _) = _ ∧ _
  rcases hc with hc | hc | hc
  · rw [if_pos (by omega), hc.2.2]
    exact ⟨rfl, by omega⟩
  · rw [if_neg (by omega), if_neg (by omega), if_pos (by omega), hc.2.2]
    exact ⟨rfl, by omega⟩
  · rw [if_neg (by omega), if_pos (by omega), hc.2.2]
    exact ⟨rfl, by omega⟩

theorem hexValue_ne (h : hexValue c = some x) {b : UInt8} (hb : hexValue b = none) : c ≠ b := by
  rintro rfl
  rw [h] at hb
  cases hb

theorem readDigits_hex (hstop : extension = [] ∨ extension.head? = some 59) :
    ∀ {digits : List UInt8} {ds : List Nat}, digits.map hexValue = ds.map some → ∀ acc : Nat,
    readDigits 16 acc (digits ++ extension) = ds.foldl (fun a d => a * 16 + d) acc
  | [], [], _, acc => by
    rw [List.nil_append]
    cases extension with
    | nil => rfl
    | cons b bs =>
      obtain rfl : b = 59 := Option.some.inj (hstop.resolve_left (List.cons_ne_nil b bs))
      rfl
  | c :: digits, d :: ds, h, acc => by
    rw [List.map_cons, List.map_cons, List.cons.injEq] at h
    obtain ⟨hd, hlt⟩ := hexValue_digit h.1
    rw [List.cons_append, readDigits, hd]
    dsimp only
    rw [if_pos hlt, readDigits_hex hstop h.2]
    rfl
  | [], d :: ds, h, _ => by cases h
  | c :: digits, [], h, _ => by cases h

theorem mem_hexValue (h : digits.map hexValue = ds.map some) (hc : c ∈ digits) :
    ∃ x, hexValue c = some x := by
  have hmem : hexValue c ∈ ds.map some := h ▸ List.mem_map_of_mem hc
  obtain ⟨x, _, hx⟩ := List.mem_map.1 hmem
  exact ⟨x, hx.symm⟩

/-- The C string ends in the extension, if at all. -/
theorem cStr_hexadecimal (h : digits.map hexValue = ds.map some)
    (hstop : extension = [] ∨ extension.head? = some 59) :
    cStr (digits ++ extension) = digits ++ cStr extension ∧
      (cStr extension = [] ∨ (cStr extension).head? = some 59) := by
  constructor
  · refine List.takeWhile_append_of_pos fun c hc => ?_
    obtain ⟨x, hx⟩ := mem_hexValue h hc
    exact decide_eq_true (hexValue_ne hx rfl)
  · rcases hstop with rfl | hstop
    · exact Or.inl rfl
    · cases extension with
      | nil => cases hstop
      | cons b bs =>
        cases hstop
        exact Or.inr rfl

/-- No `x` stands behind the first digit. -/
theorem head_ne_x (h : digits.map hexValue = ds.map some)
    (hstop : extension = [] ∨ extension.head? = some 59) :
    ¬ ((digits ++ extension).head? = some 120 ∨ (digits ++ extension).head? = some 88) := by
  intro hhead
  cases digits with
  | nil =>
    rw [List.nil_append] at hhead
    rcases hstop with hnil | hsemi
    · rw [hnil] at hhead
      rcases hhead with h | h <;> cases h
    · rw [hsemi] at hhead
      rcases hhead with h | h <;> cases h
  | cons c digits =>
    obtain ⟨x, hx⟩ := mem_hexValue h List.mem_cons_self
    rcases hhead with h | h
    · exact hexValue_ne hx rfl (Option.some.inj h)
    · exact hexValue_ne hx rfl (Option.some.inj h)

theorem hexValue_isSpace (h : hexValue c = some x) : isSpace c = false := by
  have hrange := hexValue_range h
  unfold isSpace
  simp only [UInt8.le_iff_toNat_le, Bool.or_eq_false_iff, Bool.and_eq_false_iff,
    decide_eq_false_iff_not, ← UInt8.toNat_inj]
  change ¬ c.toNat = 32 ∧ (¬ 9 ≤ c.toNat ∨ ¬ c.toNat ≤ 13)
  omega

theorem scanHex_hexadecimal (h : Hexadecimal n digits) (hn : n < 2 ^ 32)
    (hstop : extension = [] ∨ extension.head? = some 59) :
    scanHex (digits ++ extension) = some n := by
  obtain ⟨hne, ds, hds, rfl⟩ := h
  obtain ⟨hcStr, hstop'⟩ := cStr_hexadecimal hds hstop
  have hread := readDigits_hex hstop' hds 0
  obtain ⟨c, cs, rfl⟩ := List.exists_cons_of_ne_nil hne
  obtain ⟨x, hx⟩ := mem_hexValue hds List.mem_cons_self
  obtain ⟨d, ds, rfl⟩ : ∃ d ds', ds = d :: ds' := by
    cases ds with
    | nil => cases hds
    | cons d ds' => exact ⟨d, ds', rfl⟩
  obtain ⟨hdigit, hlt⟩ := hexValue_digit hx
  have hsign : readSign (c :: (cs ++ cStr extension)) = (false, c :: (cs ++ cStr extension)) := by
    rw [readSign, if_neg (hexValue_ne hx rfl), if_neg (hexValue_ne hx rfl)]
  have hbare := head_ne_x (List.cons.inj hds).2 hstop'
  have hvalue : readDigits 16 x (cs ++ cStr extension) = Nat.ofDigits 16 (d :: ds).reverse := by
    rw [List.cons_append, readDigits, hdigit] at hread
    dsimp only at hread
    rw [if_pos hlt, Nat.zero_mul, Nat.zero_add] at hread
    rw [hread, Nat.ofDigits_eq_foldr, List.foldr_reverse]
    congr 1
    funext a d
    rw [Nat.mul_comm, Nat.add_comm]
    rfl
  unfold scanHex
  rw [hcStr, List.cons_append, List.dropWhile_cons_of_neg (by rw [hexValue_isSpace hx]; decide),
    hsign]
  dsimp only
  rw [readHex, hdigit]
  dsimp only
  rw [if_pos hlt, if_neg fun hhex => hbare hhex.2, hvalue, Option.map_some, if_neg (by omega)]
  exact congrArg some (Nat.mod_eq_of_lt hn)

/-- What `sscanf` reads on such a line. -/
theorem announces_scanHex {line : List UInt8} (h : Announces n line) (hn : n < 2 ^ 32) :
    13 ∉ line ∧ scanHex line = some n := by
  obtain ⟨digits, extension, rfl, hdigits, hstop, hline⟩ := h
  refine ⟨fun hmem => ?_, scanHex_hexadecimal hdigits hn hstop⟩
  rcases List.mem_append.1 hmem with hmem | hmem
  · obtain ⟨_, ds, hds, _⟩ := hdigits
    obtain ⟨x, hx⟩ := mem_hexValue hds hmem
    cases hx
  · exact hline hmem

end Hex

/-! ## The head -/

/-- The parser finds the start line and the header block where they end, and what they say selects
chunked decoding. -/
structure ChunkedHead (startLine block : List UInt8) (message : HttpMessage) : Prop where
  startLineEnd : find (startLine ++ crlf) crlf = some startLine.length
  blockEnd : find (block ++ (crlf ++ crlf)) (crlf ++ crlf) = some block.length
  notEmpty : (block ++ (crlf ++ crlf)).take 2 ≠ crlf
  parsed : ∃ started, parseStartLine startLine = some started ∧
    setHeaders started (split block crlf (-1)) = (message, true)
  bodiless : ¬ contentLength message > 0
  chunked : chunked message = true

/-- The chunks as they may be written. -/
def WellFormedChunks (chunks : List Chunk) : Prop :=
  ∀ chunk ∈ chunks, Announces chunk.data.length chunk.line ∧ chunk.data ≠ [] ∧
    chunk.data.length < 2 ^ 32

/-- The head, the chunks and the line of the last chunk. -/
def chunkedText (startLine block : List UInt8) (chunks : List Chunk) (lastLine : List UInt8) :
    List UInt8 :=
  startLine ++ (crlf ++ (block ++ (crlf ++ crlf ++ (chunks.flatMap Chunk.text ++
    (lastLine ++ crlf)))))

section Receive

variable {beyond : Nat → UInt8} {startLine block lastLine rest : List UInt8}
  {message : HttpMessage} {chunks : List Chunk} {r : Received}

/-- **The head** is read, whatever follows it. -/
theorem receives_chunkedHead (h : ChunkedHead startLine block message)
    (hr : Receives beyond (.readingBody message (some [])) rest r) :
    Receives beyond reset (startLine ++ (crlf ++ (block ++ (crlf ++ crlf ++ rest)))) r := by
  obtain ⟨started, hstarted, hset⟩ := h.parsed
  have hstart : startLineTurn (startLine ++ (crlf ++ (block ++ (crlf ++ crlf ++ rest)))) =
      .take (.readingHeader started none) (startLine.length + 2) [] true := by
    have hfind := find_append h.startLineEnd (block ++ (crlf ++ crlf ++ rest))
    rw [List.append_assoc] at hfind
    unfold startLineTurn
    rw [hfind]
    dsimp only
    rw [List.take_left, hstarted]
  have hblock : headerTurn started none (block ++ (crlf ++ crlf ++ rest)) =
      .take (.readingBody message (some [])) (block.length + 4) [] true := by
    have hfind := find_append h.blockEnd rest
    have hlen : (block ++ (crlf ++ crlf)).length = block.length + 4 := List.length_append
    rw [List.append_assoc] at hfind
    have htake : (block ++ (crlf ++ crlf ++ rest)).take 2 = (block ++ (crlf ++ crlf)).take 2 := by
      rw [← List.append_assoc, List.take_append_of_le_length (by omega)]
    have hle := find_le hfind
    change _ + 4 ≤ _ at hle
    unfold headerTurn
    rw [if_neg (by omega), htake, if_neg h.notEmpty, hfind]
    dsimp only
    rw [List.take_left, hset, headersTurn, if_neg h.bodiless, if_pos h.chunked]
    rfl
  refine receives_silent (s := .readingStartLine) trivial hstart ?_
  rw [← List.drop_drop, List.drop_left]
  refine receives_silent (s := .readingHeader started none) trivial hblock ?_
  rw [← List.drop_drop, List.drop_left]
  exact hr

/-- **The chunks** are put together. -/
theorem receives_chunks (hnone : ¬ contentLength message > 0) (hchunked : chunked message = true) :
    ∀ {chunks : List Chunk} {acc : List UInt8}, WellFormedChunks chunks →
    Receives beyond (.readingBody message (some (acc ++ chunks.flatMap Chunk.data))) rest r →
    Receives beyond (.readingBody message (some acc)) (chunks.flatMap Chunk.text ++ rest) r
  | [], acc, _, hr => by rwa [List.flatMap_nil, List.append_nil] at hr
  | chunk :: chunks, acc, h, hr => by
    obtain ⟨hannounced, hne, hlt⟩ := h chunk List.mem_cons_self
    obtain ⟨hline, hsize⟩ := announces_scanHex hannounced hlt
    rw [List.flatMap_cons, ← List.append_assoc] at hr
    rw [List.flatMap_cons, List.append_assoc]
    have hturn := @turn_chunkText message acc hnone hchunked chunk hline hsize hne
      (chunks.flatMap Chunk.text ++ rest)
    refine receives_silent (s := .readingBody message (some acc)) (Or.inr ⟨hchunked, rfl⟩) hturn ?_
    rw [List.drop_left]
    exact receives_chunks hnone hchunked (fun chunk' h' => h chunk' (List.mem_cons_of_mem chunk h'))
      hr

/-- The head and the chunks; `rest` begins with the line of the last chunk. -/
theorem receives_chunkedText (hhead : ChunkedHead startLine block message)
    (hchunks : WellFormedChunks chunks)
    (hr : Receives beyond (.readingBody message (some (chunks.flatMap Chunk.data)))
      (lastLine ++ (crlf ++ rest)) r) :
    Receives beyond reset (chunkedText startLine block chunks lastLine ++ rest) r := by
  have htext : chunkedText startLine block chunks lastLine ++ rest =
      startLine ++ (crlf ++ (block ++ (crlf ++ crlf ++ (chunks.flatMap Chunk.text ++
        (lastLine ++ (crlf ++ rest)))))) := by
    simp only [chunkedText, List.append_assoc]
  rw [htext]
  exact receives_chunkedHead hhead (receives_chunks hhead.bodiless hhead.chunked hchunks hr)

end Receive

/-! ## The last chunk -/

/-- What becomes of the message: the body, and the headers that say how it was framed. -/
structure IsDecoded (message : HttpMessage) (content : List UInt8) (received : HttpMessage) :
    Prop where
  kind : received.kind = message.kind
  version : received.version = message.version
  body : received.body = content
  contentLength : received.headers.find (bytes "Content-Length") =
    some (StringUtil.toString content.length)
  transferEncoding : received.headers.find (bytes "Transfer-Encoding") = none
  others : ∀ key, rank key ≠ rank (bytes "Content-Length") →
    rank key ≠ rank (bytes "Transfer-Encoding") →
      received.headers.find key = message.headers.find key

theorem decoded_isDecoded (message : HttpMessage) (body : List UInt8) :
    IsDecoded message body (decoded message body) where
  kind := rfl
  version := rfl
  body := rfl
  contentLength := by
    unfold decoded HttpMessage.removeHeader HttpMessage.setHeader
    dsimp only
    rw [SortedMap.find_erase_of_ne _ (by decide), SortedMap.find_insert, if_pos rfl]
  transferEncoding := by
    unfold decoded HttpMessage.removeHeader
    dsimp only
    exact SortedMap.find_erase_self _ rfl
  others key hlength hencoding := by
    unfold decoded HttpMessage.removeHeader HttpMessage.setHeader
    dsimp only
    rw [SortedMap.find_erase_of_ne _ (Ne.symm hencoding), SortedMap.find_insert,
      if_neg (Ne.symm hlength)]
    rfl

/-- **A chunked message is decoded** when it has arrived as a whole: its body is what the chunks
hold, and exactly its bytes are consumed. -/
theorem chunked_decoded {startLine block lastLine : List UInt8} {message : HttpMessage}
    {chunks : List Chunk} (hhead : ChunkedHead startLine block message)
    (hchunks : WellFormedChunks chunks) (hlast : Announces 0 lastLine) (rest : List UInt8)
    (beyond : Nat → UInt8) :
    ∃ received chunkBuffer,
      Receives beyond reset (chunkedText startLine block chunks lastLine ++ (crlf ++ rest))
        ⟨.messageReady, .finished received chunkBuffer, rest⟩ ∧
      IsDecoded message (chunks.flatMap Chunk.data) received := by
  obtain ⟨hline, hsize⟩ := announces_scanHex hlast (by decide)
  have hturn := @turn_tail message (chunks.flatMap Chunk.data) _ hhead.bodiless hhead.chunked
    hline hsize
  obtain ⟨hext, hdrop⟩ := parser.extend_take (s := .readingBody message _) hturn rest
  obtain ⟨_, _, chunkBuffer, hr⟩ := receives_message beyond (s := .readingBody message _)
    (Or.inr ⟨hhead.chunked, rfl⟩) hext
  rw [List.drop_left, List.append_assoc, List.append_assoc] at hr
  exact ⟨_, chunkBuffer, receives_chunkedText hhead hchunks hr, decoded_isDecoded _ _⟩

theorem greeting_head :
    ChunkedHead greeting.startLine (joinLines greeting.header greeting.headers)
      greetingMessage where
  startLineEnd := by decide
  blockEnd := by decide
  notEmpty := by decide
  parsed := ⟨.new (.response 200 (bytes "OK")) .http11, by decide, by decide⟩
  bodiless := by decide
  chunked := by decide

theorem greeting_chunks : WellFormedChunks greeting.chunks := by
  intro chunk h
  rw [List.mem_singleton.1 h]
  exact ⟨⟨bytes "2", [], rfl, ⟨by decide, [2], rfl, rfl⟩, Or.inl rfl, by decide⟩, by decide,
    by decide⟩

theorem announces_zero (extension : List UInt8)
    (h : extension = [] ∨ extension.head? = some 59) (hline : 13 ∉ extension) :
    Announces 0 (bytes "0" ++ extension) :=
  ⟨bytes "0", extension, rfl, ⟨by decide, [0], rfl, rfl⟩, h, hline⟩

/-- A line end and the beginning of a request behind it. -/
theorem greeting_decoded :
    ∃ received chunkBuffer,
      Receives (fun _ => 0) reset
        (chunkedText greeting.startLine (joinLines greeting.header greeting.headers)
          greeting.chunks (bytes "0" ++ bytes ";last") ++ (crlf ++ bytes "\r\nGET"))
        ⟨.messageReady, .finished received chunkBuffer, bytes "\r\nGET"⟩ ∧
      IsDecoded greetingMessage (greeting.chunks.flatMap Chunk.data) received :=
  chunked_decoded greeting_head greeting_chunks
    (announces_zero (bytes ";last") (by decide) (by decide)) (bytes "\r\nGET") fun _ => 0

/-! ## Trailer fields -/

/-- The trailer fields, the empty line and what follows it. -/
def trailerText (trailer : List UInt8) (trailers : List (List UInt8)) (rest : List UInt8) :
    List UInt8 :=
  joinLines trailer trailers ++ (crlf ++ crlf ++ rest)

/-- The message is ready with the trailer fields among its headers, and `rest` is left. -/
def TrailersDecoded (beyond : Nat → UInt8) (text : List UInt8) (message : HttpMessage)
    (content : List UInt8) (trailers : List (List UInt8)) (rest : List UInt8) : Prop :=
  ∃ received chunkBuffer,
    Receives beyond reset text ⟨.messageReady, .finished received chunkBuffer, rest⟩ ∧
    received.body = content ∧ setHeaders (decoded message content) trailers = (received, true)

/-- `memcmp` finds the first trailer field where it expects a line end. -/
theorem turn_trailer {message : HttpMessage} {acc lastLine rest : List UInt8}
    (hnone : ¬ contentLength message > 0) (hchunked : chunked message = true)
    (hline : 13 ∉ lastLine) (hsize : scanHex lastLine = some 0) (hlen : 2 ≤ rest.length)
    (hrest : rest.take 2 ≠ crlf) :
    turn (.readingBody message (some acc)) (lastLine ++ (crlf ++ rest)) = .stop [] := by
  have hdrop : (lastLine ++ (crlf ++ rest)).drop (lastLine.length + 2) = rest := by
    rw [← List.drop_drop, List.drop_left]
    rfl
  have hlength : (lastLine ++ (crlf ++ rest)).length = lastLine.length + (2 + rest.length) := by
    rw [List.length_append, List.length_append]
    rfl
  rw [turn_chunk hnone hchunked, Option.getD_some, chunkTurn, find_line hline]
  dsimp only
  rw [List.take_left, hsize]
  dsimp only
  rw [Nat.add_zero, if_neg (by omega), hdrop, if_pos hrest]

section Trailers

variable {startLine block lastLine trailer : List UInt8} {message : HttpMessage}
  {chunks : List Chunk} {trailers : List (List UInt8)}

/-- **With trailer fields** the call fails behind the line of the last chunk. -/
theorem receives_trailers (hhead : ChunkedHead startLine block message)
    (hchunks : WellFormedChunks chunks) (hlast : Announces 0 lastLine)
    (htrailer : 13 ∉ trailer ∧ trailer ≠ []) (rest : List UInt8) (beyond : Nat → UInt8) :
    Receives beyond reset
      (chunkedText startLine block chunks lastLine ++ trailerText trailer trailers rest)
      ⟨.error, .pendingError (some message) (some (chunks.flatMap Chunk.data)),
        lastLine ++ (crlf ++ trailerText trailer trailers rest)⟩ := by
  obtain ⟨hline, hsize⟩ := announces_scanHex hlast (by decide)
  obtain ⟨b, bs, rfl⟩ := List.exists_cons_of_ne_nil htrailer.2
  have hfirst : b ≠ 13 := fun h => htrailer.1 (h ▸ List.mem_cons_self)
  have hrest : (trailerText (b :: bs) trailers rest).take 2 ≠ crlf := by
    rw [trailerText, joinLines, List.cons_append, List.cons_append, List.take_succ_cons]
    exact fun h => hfirst (List.cons.inj h).1
  have hlen : 2 ≤ (trailerText (b :: bs) trailers rest).length := by
    rw [trailerText, List.length_append, List.length_append]
    change 2 ≤ _ + (4 + _)
    omega
  refine receives_chunkedText hhead hchunks ?_
  exact receives_stop (s := .readingBody message _) (Or.inr ⟨hhead.chunked, rfl⟩)
    (turn_trailer hhead.bodiless hhead.chunked hline hsize hlen hrest)

/-- **Trailer fields are never decoded.** -/
theorem trailers_never_decoded (hhead : ChunkedHead startLine block message)
    (hchunks : WellFormedChunks chunks) (hlast : Announces 0 lastLine)
    (htrailers : ∀ line ∈ trailer :: trailers, 13 ∉ line ∧ 58 ∈ line) (rest : List UInt8)
    (beyond : Nat → UInt8) :
    ¬ TrailersDecoded beyond
      (chunkedText startLine block chunks lastLine ++ trailerText trailer trailers rest) message
      (chunks.flatMap Chunk.data) (trailer :: trailers) rest := by
  rintro ⟨received, chunkBuffer, hready, _⟩
  obtain ⟨hcr, hcolon⟩ := htrailers trailer List.mem_cons_self
  have herror : Receives beyond reset (chunkedText startLine block chunks lastLine ++
      trailerText trailer trailers rest) _ :=
    receives_trailers hhead hchunks hlast ⟨hcr, List.ne_nil_of_mem hcolon⟩ rest beyond
  have heq := Option.some.inj ((herror _ le_rfl).symm.trans (hready _ le_rfl))
  cases congrArg Received.code heq

end Trailers

/-- One trailer field, and the beginning of a request. -/
theorem greeting_trailers :
    ¬ TrailersDecoded (fun _ => 0)
      (chunkedText greeting.startLine (joinLines greeting.header greeting.headers) greeting.chunks
        (bytes "0") ++ trailerText (bytes "Expires: 0") [] (bytes "GET"))
      greetingMessage (greeting.chunks.flatMap Chunk.data) [bytes "Expires: 0"] (bytes "GET") :=
  trailers_never_decoded greeting_head greeting_chunks
    (announces_zero [] (Or.inl rfl) List.not_mem_nil) (by decide) (bytes "GET") fun _ => 0

/-- The call returns `ERROR` there. -/
theorem trailer_error :
    ¬ TrailersDecoded (fun _ => 0)
      (bytes "HTTP/1.1 200 OK\r\nTransfer-Encoding: chunked\r\n\r\n2\r\nhi\r\n0\r\nA: b\r\n\r\n")
      greetingMessage (bytes "hi") [bytes "A: b"] [] := by
  rintro ⟨received, chunkBuffer, hready, _⟩
  have hcode : ((recvMessage (fun _ => 0) 100 reset (bytes
      "HTTP/1.1 200 OK\r\nTransfer-Encoding: chunked\r\n\r\n2\r\nhi\r\n0\r\nA: b\r\n\r\n")).map
        Received.code) = some .error := by decide
  rw [hready 100 (by decide)] at hcode
  cases hcode

end HttpProtocol

end Brickred
