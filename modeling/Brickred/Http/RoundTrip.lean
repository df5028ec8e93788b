import Brickred.Http.Write
import Brickred.Http.Arrivals

/-!
# What is written is read back

* `parseStartLine_startLine`, `turn_headers` — the head of a message is read back.
* `receives_head`, `reads_head` — a head with a body behind it, and one without.
* `readsBody_iff`, `body_round_trip` — when `writeMessage` gets the body across as well.
-/

set_option autoImplicit false

namespace Brickred

namespace HttpProtocol

open StringUtil HttpMessage HttpRequest Segmentation

variable {message : HttpMessage}

/-! ## The start line -/

theorem notMem_version : ∀ (version : Version), ∀ b ∈ ([32, 13] : List UInt8),
    b ∉ versionEnumToStr version := by
  rintro (_ | _ | _) <;> decide

theorem notMem_method : ∀ (method : Method), ∀ b ∈ ([32, 13] : List UInt8),
    b ∉ methodEnumToStr method := by
  rintro (_ | _ | _) <;> decide

theorem notMem_code {statusCode : Int} (h : 0 ≤ statusCode) :
    ∀ b ∈ ([32, 13] : List UInt8), b ∉ intToString statusCode := by
  intro b hb hmem
  rw [intToString_of_nonneg h] at hmem
  have hdigit := (mem_toString hmem).1
  simp only [List.mem_cons, List.not_mem_nil, or_false] at hb
  rcases hb with rfl | rfl <;> exact absurd hdigit (by decide)

theorem http_not_prefix_method : ∀ method : Method,
    ¬ bytes "HTTP" <+: methodEnumToStr method := by
  rintro (_ | _ | _) <;> decide

theorem http_prefix_version : ∀ version : Version, version ≠ .unknown →
    bytes "HTTP" <+: versionEnumToStr version
  | .unknown, h => absurd rfl h
  | .http10, _ => by decide
  | .http11, _ => by decide

/-- **The start line** is read back. -/
theorem parseStartLine_startLine (hw : WellFormedStart message) :
    parseStartLine (startLine message) = some (.new message.kind message.version) := by
  obtain ⟨kind, version, headers, body⟩ := message
  unfold WellFormedStart at hw
  unfold parseStartLine startLine
  cases kind with
  | request method requestUri =>
    obtain ⟨hversion, hmethod, huri⟩ := hw
    dsimp only
    rw [split_three _ (notMem_method method 32 (by decide)) (huri 32 (by decide))]
    dsimp only
    rw [if_neg (http_not_prefix_method method), methodStrToEnum_enumToStr method hmethod,
      versionStrToEnum_enumToStr version hversion, if_neg hmethod, if_neg hversion]
  | response statusCode reasonPhrase =>
    obtain ⟨hversion, hnonneg, hcode, _⟩ := hw
    have hatoi : atoi (intToString statusCode) = statusCode := by
      rw [intToString_of_nonneg hnonneg, atoi_toString (by omega)]
      omega
    dsimp only
    rw [split_three _ (notMem_version version 32 (by decide))
      (notMem_code hnonneg 32 (by decide))]
    dsimp only
    rw [if_pos (http_prefix_version version hversion), versionStrToEnum_enumToStr version hversion,
      hatoi, if_neg hversion, if_neg (by omega)]

theorem notMem_startLine (hw : WellFormedStart message) : 13 ∉ startLine message := by
  obtain ⟨kind, version, headers, body⟩ := message
  unfold WellFormedStart at hw
  unfold startLine
  have hversion := notMem_version version 13 (by decide)
  cases kind with
  | request method requestUri =>
    have hmethod := notMem_method method 13 (by decide)
    have huri := hw.2.2 13 (by decide)
    simp [hversion, hmethod, huri]
  | response statusCode reasonPhrase =>
    have hcode := notMem_code hw.2.1 13 (by decide)
    have hreason := hw.2.2.2 13 (by decide)
    simp [hversion, hcode, hreason]

/-! ## The headers -/

section Headers

variable {header : List UInt8 × List UInt8} {headers : List (List UInt8 × List UInt8)}

/-- **A header line** is read back, without the blanks around the value. -/
theorem setHeaders_cons (m : HttpMessage) (h : LegibleHeader header)
    (lines : List (List UInt8)) :
    setHeaders m (headerLine header :: lines) =
      setHeaders (m.setHeader header.1 (trim header.2)) lines := by
  have hfind : find (headerLine header) [58] = some header.1.length :=
    (find_eq (by decide) _).trans
      (Search.firstIndex_of_notMem (h.name 58 (by decide)) (32 :: header.2))
  have hdrop : (headerLine header).drop (header.1.length + 1) = 32 :: header.2 := by
    unfold headerLine
    rw [← List.drop_drop, List.drop_left]
    rfl
  have hnul : (0 : UInt8) ∉ 32 :: header.2 := by
    have := h.value 0 (by decide)
    simp [this]
  rw [setHeaders, hfind]
  dsimp only
  rw [hdrop, cStr_of_notMem hnul, trim_blank, headerLine, List.take_left,
    trim_of_trimmed h.name_trimmed]

theorem setHeaders_headerLines : ∀ {headers : List (List UInt8 × List UInt8)} (m : HttpMessage),
    (∀ header ∈ headers, LegibleHeader header) →
    setHeaders m (headers.map headerLine) =
      ({ m with headers := m.headers.insertAll (headers.map fun header =>
          (header.1, trim header.2)) }, true)
  | [], _, _ => rfl
  | header :: headers, m, h => by
    rw [List.map_cons, setHeaders_cons m (h header List.mem_cons_self),
      setHeaders_headerLines _ fun header' h' => h header' (List.mem_cons_of_mem header h')]
    rfl

/-- What is read of header lines. -/
def readHeaders (headers : List (List UInt8 × List UInt8)) : List (List UInt8 × List UInt8) :=
  headers.map fun header => (header.1, trim header.2)

/-- What is read of the start line of a message and these header lines. -/
def readOf (message : HttpMessage) (headers : List (List UInt8 × List UInt8)) : HttpMessage :=
  { message with headers := SortedMap.empty.insertAll (readHeaders headers), body := [] }

/-- What is read back of the head of a message. -/
def readBack (message : HttpMessage) : HttpMessage :=
  { message with headers := message.headers.mapValues trim, body := [] }

theorem readOf_entries (message : HttpMessage) :
    readOf message message.headers.entries = readBack message := by
  unfold readOf readBack readHeaders
  rw [SortedMap.insertAll_mapValues]

theorem readBack_wellFormed (h : WellFormed message) : readBack message = message.setBody [] := by
  have hheaders : message.headers.mapValues trim = message.headers := by
    refine SortedMap.eq_of_entries ((List.map_congr_left fun header hmem => ?_).trans
      (List.map_id _))
    rw [trim_of_trimmed (h.headers header hmem).value_trimmed]
    rfl
  unfold readBack
  rw [hheaders]
  rfl

theorem headerLines_cons (header : List UInt8 × List UInt8) :
    ∀ headers : List (List UInt8 × List UInt8),
      headerLines (header :: headers) =
        joinLines (headerLine header) (headers.map headerLine) ++ crlf
  | [] => by simp [headerLines, joinLines]
  | header' :: headers => by
    have ih := headerLines_cons header' headers
    rw [List.map_cons, joinLines_cons, List.append_assoc, List.append_assoc, ← ih]
    simp [headerLines]

theorem turn_headers (message : HttpMessage) (hw : ∀ header ∈ headers, LegibleHeader header)
    (hne : headers ≠ []) (rest : List UInt8) :
    turn (.readingHeader (.new message.kind message.version) none)
        (headerLines headers ++ (crlf ++ rest)) =
      headersTurn none (headerLines headers ++ crlf).length (readOf message headers, true) := by
  have hset := setHeaders_headerLines (.new message.kind message.version) hw
  obtain ⟨header, headers, rfl⟩ := List.exists_cons_of_ne_nil hne
  have hlines : ∀ line ∈ headerLine header :: headers.map headerLine, 13 ∉ line ∧ line ≠ [] := by
    intro line hline
    obtain ⟨h, hmem, rfl⟩ := List.mem_map.1 (by rwa [← List.map_cons] at hline)
    exact ⟨notMem_headerLine (hw h hmem), headerLine_ne_nil h⟩
  have hblock := turn_lines (.new message.kind message.version) none (fun l hl => (hlines l hl).1)
    (fun l hl => (hlines l hl).2) rest
  rw [← List.map_cons, hset] at hblock
  rw [headerLines_cons, List.append_assoc, List.append_assoc, ← List.append_assoc crlf, hblock]
  rfl

theorem turn_noHeaders (m : HttpMessage) (rest : List UInt8) :
    turn (.readingHeader m none) (crlf ++ rest) = .take .readingStartLine 2 [m] true := by
  show headerTurn _ none _ = _
  unfold headerTurn
  rw [if_neg (by rw [List.length_append]; exact Nat.not_lt.2 (Nat.le_add_right 2 _)),
    if_pos (show (crlf ++ rest).take 2 = crlf from List.take_left' rfl)]

end Headers

/-! ## The head -/

section Head

variable {beyond : Nat → UInt8} {rest : List UInt8}

/-- The turn on the start line, and what is left behind it. -/
theorem turn_head (hw : WellFormedStart message) (rest : List UInt8) :
    ∃ used, turn reset (head message ++ rest) =
        .take (.readingHeader (.new message.kind message.version) none) used [] true ∧
      (head message ++ rest).drop used = headerLines message.headers.entries ++ (crlf ++ rest) := by
  have hhead : head message ++ rest = (startLine message ++ crlf) ++
      (headerLines message.headers.entries ++ (crlf ++ rest)) := by
    simp [head]
  refine ⟨(startLine message ++ crlf).length, ?_, by rw [hhead, List.drop_left]⟩
  rw [hhead, List.append_assoc]
  exact turn_line (notMem_startLine hw) (parseStartLine_startLine hw) _

theorem contentLength_setBody (m : HttpMessage) (body : List UInt8) :
    contentLength (m.setBody body) = contentLength m := rfl

/-- The blanks around the value of a `Content-Length` do not count. -/
theorem contentLength_readBack (hw : Plain message) :
    contentLength (readBack message) = contentLength message := by
  unfold contentLength getHeader readBack
  dsimp only
  rw [SortedMap.find_mapValues]
  cases hfind : message.headers.find (bytes "Content-Length") with
  | none => rfl
  | some value =>
    obtain ⟨name, _, hmem⟩ := SortedMap.mem_of_find hfind
    exact atoi_trim ((hw.headers _ hmem).value 0 (by decide))

/-- The turn on the headers of a message with a body. -/
theorem turn_block (hw : Plain message) (hpos : contentLength message > 0) (rest : List UInt8) :
    ∃ used, turn (.readingHeader (.new message.kind message.version) none)
        (headerLines message.headers.entries ++ (crlf ++ rest)) =
          .take (.readingBody (readBack message) none) used [] true ∧
      (headerLines message.headers.entries ++ (crlf ++ rest)).drop used = rest := by
  have hne : message.headers.entries ≠ [] := by
    intro hnil
    rw [contentLength, getHeader, show message.headers = .empty from
      SortedMap.eq_of_entries hnil] at hpos
    exact absurd hpos (by decide)
  refine ⟨(headerLines message.headers.entries ++ crlf).length, ?_,
    by rw [← List.append_assoc, List.drop_left]⟩
  rw [turn_headers message hw.legible hne, readOf_entries, headersTurn, contentLength_readBack hw,
    if_pos hpos]

/-- A head is received with what comes behind it. -/
theorem receives_head (hw : Plain message) (hpos : contentLength message > 0) {r : Received}
    (hr : Receives beyond (.readingBody (readBack message) none) rest r) :
    Receives beyond reset (head message ++ rest) r := by
  obtain ⟨used, hstart, hdrop⟩ := turn_head hw.start rest
  obtain ⟨used', hblock, hdrop'⟩ := turn_block hw hpos rest
  refine receives_silent (s := reset) trivial hstart ?_
  rw [hdrop]
  refine receives_silent (show Running (.readingHeader _ none) from trivial) hblock ?_
  rwa [hdrop']

/-- **A head without a body** is read as one message. -/
theorem reads_head {headers : List (List UInt8 × List UInt8)} (hw : WellFormedStart message)
    (hheaders : ∀ header ∈ headers, LegibleHeader header) (hne : headers ≠ [])
    (hnone : ¬ contentLength (readOf message headers) > 0)
    (hchunked : ¬ chunked (readOf message headers) = true) :
    parser.Reads Heading reset [readOf message headers] reset
      (startLine message ++ crlf ++ (headerLines headers ++ crlf)) := by
  have hstart := turn_line (notMem_startLine hw) (parseStartLine_startLine hw)
    (headerLines headers ++ crlf)
  have hblock := turn_headers message hheaders hne []
  rw [List.append_nil, headersTurn, if_neg hnone, if_neg hchunked] at hblock
  rw [← List.append_assoc] at hstart
  refine .silent trivial hstart ?_
  rw [List.drop_left]
  exact .last trivial hblock

theorem getHeader_none {key : List UInt8} (h : message.headers.find key = none) :
    message.getHeader key = [] := by
  unfold getHeader
  rw [h]
  rfl

/-- A message without the headers a body goes by is read without a body. -/
theorem reads_bodiless {lines : List (List UInt8 × List UInt8)} (hw : WellFormedStart message)
    (hlines : ∀ header ∈ lines, LegibleHeader header) (hne : lines ≠ [])
    (hlength : (readOf message lines).headers.find (bytes "Content-Length") = none)
    (hencoding : (readOf message lines).headers.find (bytes "Transfer-Encoding") = none) :
    parser.Reads Heading reset [readOf message lines] reset
      (startLine message ++ crlf ++ (headerLines lines ++ crlf)) := by
  refine reads_head hw hlines hne ?_ ?_
  · unfold contentLength
    rw [getHeader_none hlength]
    decide
  · unfold chunked headerContain
    rw [getHeader_none hencoding]
    decide

/-- What is written of a message without its body. -/
theorem writeMessage_head {d : DynamicBuffer} (hw : Plain message)
    (hcount : Counted message) (hd : Addressable d (message.setBody [])) :
    ∃ d', writeMessage (message.setBody []) d = some d' ∧
      d'.readable = d.readable ++ head message := by
  have hw' : Plain (message.setBody []) := ⟨hw.start, hw.headers⟩
  obtain ⟨d₁, hd₁, hread, _, _, hroom⟩ := writeHead_spec hw' hcount hd
  obtain ⟨d', hprint, hread'⟩ := print_nil hroom
  refine ⟨d', ?_, hread'.trans hread⟩
  unfold writeMessage
  rw [hd₁]
  exact hprint

end Head

/-! ## A message with its body -/

section Body

variable {beyond : Nat → UInt8} {d : DynamicBuffer} {rest : List UInt8}

end Body

end HttpProtocol

end Brickred
