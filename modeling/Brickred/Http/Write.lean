import Brickred.DynamicBuffer
import Brickred.Http.Protocol

/-!
# `HttpProtocol::writeMessage`

Every part of a message is printed with `snprintf` behind the write index, after room for it has
been reserved.  `snprintf` stops at the end of the room and always ends with a NUL.  It returns the
length of the whole text in an `int`, and the index is moved over as many bytes: for a text that no
`int` counts it returns `-1`, and `write` moves the index to the end of the storage.  Such a text is
taken to be stored like any other.

* `print_spec` — a text that an `int` counts and that leaves a byte for the NUL is appended.
* `writeHead_spec` — the start line and the headers leave it; `Counted` is the rest.
* `roomBehind_head` — the room the body finds is a matter of lengths.
* `writeMessage_spec` — what becomes of the body.
-/

set_option autoImplicit false

namespace Brickred

open StringUtil HttpMessage HttpRequest DynamicBuffer

namespace DynamicBuffer

/-- `snprintf(writeBegin(), writableBytes(), …)` when the text to print is `text`. -/
def snprintf (d : DynamicBuffer) (text : List UInt8) : Option DynamicBuffer :=
  if d.writableBytes = 0 then some d
  else d.store 0 (text.take (d.writableBytes - 1) ++ [0])

/-- What `snprintf` returns, as `write` takes it: an `int` that becomes a `size_t`. -/
def snprintfCount (text : List UInt8) : Nat :=
  if text.length < 2 ^ 31 then text.length else 2 ^ 64 - 1

/-- `reserveWritableBytes(size)`, `snprintf`, and `write` of what it returns. -/
def print (d : DynamicBuffer) (size : Nat) (text : List UInt8) : Option DynamicBuffer := do
  let d ← d.reserveWritableBytes size
  let d ← d.snprintf text
  some (d.write (snprintfCount text))

end DynamicBuffer

namespace HttpProtocol

/-! ## The model -/

def writeStartLine (message : HttpMessage) (d : DynamicBuffer) : Option DynamicBuffer :=
  match message.kind with
  | .request method requestUri =>
    d.print (64 + requestUri.length)
      (cStr (methodEnumToStr method) ++ [32] ++ cStr requestUri ++ [32] ++
        cStr (versionEnumToStr message.version) ++ crlf)
  | .response statusCode reasonPhrase =>
    d.print (64 + reasonPhrase.length)
      (cStr (versionEnumToStr message.version) ++ [32] ++ intToString statusCode ++ [32] ++
        cStr reasonPhrase ++ crlf)

def writeHeaders : List (List UInt8 × List UInt8) → DynamicBuffer → Option DynamicBuffer
  | [], d => some d
  | (name, value) :: headers, d => do
    let d ← d.print (32 + name.length + value.length)
      (cStr name ++ bytes ": " ++ cStr value ++ crlf)
    writeHeaders headers d

/-- The start line, the headers and the empty line. -/
def writeHead (message : HttpMessage) (d : DynamicBuffer) : Option DynamicBuffer := do
  let d ← writeStartLine message d
  let d ← writeHeaders message.headers.entries d
  d.print 2 crlf

def writeMessage (message : HttpMessage) (d : DynamicBuffer) : Option DynamicBuffer := do
  let d ← writeHead message d
  d.print message.body.length (cStr message.body)

/-- `HttpProtocol::sendMessage`; a message that no storage can hold is not put out. -/
def sendMessage (outputCb : Bool) (message : HttpMessage) : List (List UInt8) :=
  if outputCb then
    match writeMessage message (.new 1024 1024) with
    | none => []
    | some d => [d.readable]
  else []

/-! ## Printing -/

section Print

variable {d : DynamicBuffer} {size : Nat} {text : List UInt8}

theorem snprintfCount_eq (h : text.length < 2 ^ 31) : snprintfCount text = text.length := if_pos h

/-- A text for which there is a byte for the NUL behind it is stored in full. -/
theorem print_stored {d₁ : DynamicBuffer} (hd₁ : d.reserveWritableBytes size = some d₁)
    (hroom : text.length < d₁.writableBytes) :
    ∃ d₂, d₁.store 0 (text ++ [0]) = some d₂ ∧
      d.print size text = some (d₂.write (snprintfCount text)) := by
  have hone : (text ++ ([0] : List UInt8)).length = text.length + 1 := List.length_append
  obtain ⟨d₂, hd₂⟩ := @store_isSome d₁ (text ++ [0]) (by omega)
  refine ⟨d₂, hd₂, ?_⟩
  unfold print snprintf
  rw [hd₁]
  simp only [bind, Option.bind_some]
  rw [if_neg (by omega), List.take_of_length_le (by omega), hd₂]
  rfl

/-- **Printing** into the room behind the write index: `d₁` is the buffer once `size` bytes are
reserved. -/
theorem print_cases (hd : d.Sized) (hfits : d.readableBytes + size + 2 * d.expandSize < 2 ^ 63)
    (hlen : text.length ≤ size) (hpos : 0 < size) (hcount : text.length < 2 ^ 31) :
    ∃ d₁ d', d.reserveWritableBytes size = some d₁ ∧ size ≤ d₁.writableBytes ∧
      (d.writableBytes < size → size < d₁.writableBytes) ∧ d.print size text = some d' ∧
      d'.readable = d.readable ++ (text.take (d₁.writableBytes - 1) ++ [0]).take text.length ∧
      d'.Sized ∧ d'.expandSize = d.expandSize ∧
      d'.writableBytes = d₁.writableBytes - text.length := by
  obtain ⟨d₁, hd₁, hread, hroom, hgrown, hsized⟩ :=
    reserve_spec hd (by omega) (fits_of_lt hd hfits)
  have hstored : (text.take (d₁.writableBytes - 1) ++ [0]).length ≤ d₁.writableBytes := by
    rw [List.length_append, List.length_take, List.length_singleton]
    omega
  have hwhole : text.length ≤ (text.take (d₁.writableBytes - 1) ++ [0]).length := by
    rw [List.length_append, List.length_take, List.length_singleton]
    omega
  obtain ⟨d₂, hd₂, happ, hleft, hlen₂, hexp⟩ := store_write hstored hwhole
  refine ⟨d₁, d₂.write text.length, hd₁, hroom, hgrown, ?_, by rw [happ, hread], ?_, ?_, hleft⟩
  · unfold print snprintf
    rw [hd₁]
    simp only [bind, Option.bind_some]
    rw [if_neg (by omega), hd₂, snprintfCount_eq hcount]
    rfl
  · exact ⟨hexp ▸ hsized.expand_pos, hexp ▸ hsized.expand_lt, hlen₂ ▸ hsized.size_lt⟩
  · exact hexp.trans (reserve_expandSize hd₁)

/-- A text that is shorter than the room the buffer ends up with. -/
theorem print_append (hd : d.Sized) (hfits : d.readableBytes + size + 2 * d.expandSize < 2 ^ 63)
    (hlen : text.length ≤ size) (hpos : 0 < size) (hcount : text.length < 2 ^ 31)
    (hshort : text.length < size ∨ text.length < d.writableBytes) :
    ∃ d', d.print size text = some d' ∧ d'.readable = d.readable ++ text ∧ d'.Sized ∧
      d'.expandSize = d.expandSize ∧ size - text.length ≤ d'.writableBytes ∧
      0 < d'.writableBytes := by
  obtain ⟨d₁, d', hd₁, hroom, hgrown, hprint, hread, hsized, hexp, hleft⟩ :=
    print_cases hd hfits hlen hpos hcount
  have hw : text.length < d₁.writableBytes := by
    by_cases hnoop : size ≤ d.writableBytes
    · rw [reserve_noop hnoop] at hd₁
      cases hd₁
      omega
    · have := hgrown (by omega)
      omega
  refine ⟨d', hprint, ?_, hsized, hexp, by omega, by omega⟩
  rw [hread, List.take_of_length_le (i := d₁.writableBytes - 1) (by omega), List.take_left]

/-- **A text that leaves a byte for the NUL** is appended. -/
theorem print_spec (hd : d.Sized) (hfits : d.readableBytes + size + 2 * d.expandSize < 2 ^ 63)
    (hlen : text.length < size) (hcount : text.length < 2 ^ 31) :
    ∃ d', d.print size text = some d' ∧ d'.readable = d.readable ++ text ∧ d'.Sized ∧
      d'.expandSize = d.expandSize ∧ size - text.length ≤ d'.writableBytes := by
  obtain ⟨d', hprint, hread, hsized, hexp, hleft, _⟩ :=
    print_append hd hfits (Nat.le_of_lt hlen) (Nat.zero_lt_of_lt hlen) hcount (Or.inl hlen)
  exact ⟨d', hprint, hread, hsized, hexp, hleft⟩

/-- An empty text: only the NUL is stored. -/
theorem print_nil (hroom : 0 < d.writableBytes) :
    ∃ d', d.print 0 [] = some d' ∧ d'.readable = d.readable := by
  obtain ⟨d₁, hd₁, happ, _⟩ := @store_write d [0] hroom 0 (Nat.zero_le _)
  refine ⟨d₁.write 0, ?_, by rw [happ, List.take_zero, List.append_nil]⟩
  unfold print snprintf
  rw [reserve_noop (Nat.zero_le _)]
  simp only [bind, Option.bind_some]
  rw [if_neg (by omega), List.take_nil, List.nil_append, hd₁]
  rfl

end Print

/-! ## The head of a message -/

/-- The text of the start line. -/
def startLine (message : HttpMessage) : List UInt8 :=
  match message.kind with
  | .request method requestUri =>
    methodEnumToStr method ++ ([32] ++ (requestUri ++ ([32] ++ versionEnumToStr message.version)))
  | .response statusCode reasonPhrase =>
    versionEnumToStr message.version ++ ([32] ++ (intToString statusCode ++ ([32] ++ reasonPhrase)))

def headerLine (header : List UInt8 × List UInt8) : List UInt8 :=
  header.1 ++ (bytes ": " ++ header.2)

def headerLines (headers : List (List UInt8 × List UInt8)) : List UInt8 :=
  headers.flatMap fun header => headerLine header ++ crlf

def head (message : HttpMessage) : List UInt8 :=
  startLine message ++ crlf ++ headerLines message.headers.entries ++ crlf

/-- What `writeMessage` reserves for the start line and for a header. -/
def startLineRoom (message : HttpMessage) : Nat :=
  match message.kind with
  | .request _ requestUri => 64 + requestUri.length
  | .response _ reasonPhrase => 64 + reasonPhrase.length

def headersRoom (headers : List (List UInt8 × List UInt8)) : Nat :=
  (headers.map fun header => 32 + header.1.length + header.2.length).sum

/-- The texts of the head: the bytes reserved for each, and its length. -/
def headTexts (message : HttpMessage) : List (Nat × Nat) :=
  (startLineRoom message, (startLine message ++ crlf).length) ::
    (message.headers.entries.map fun header =>
      (32 + header.1.length + header.2.length, (headerLine header ++ crlf).length)) ++ [(2, 2)]

/-- An `int` counts each text of the head. -/
def Counted (message : HttpMessage) : Prop := ∀ text ∈ headTexts message, text.2 < 2 ^ 31

instance (message : HttpMessage) : Decidable (Counted message) :=
  inferInstanceAs (Decidable (∀ text ∈ headTexts message, _))

/-- The bytes reserved, with what a buffer may grow by at once, can be addressed. -/
structure Addressable (d : DynamicBuffer) (message : HttpMessage) : Prop where
  sized : d.Sized
  addressable : d.readableBytes + startLineRoom message + headersRoom message.headers.entries + 2 +
    message.body.length + 2 * d.expandSize < 2 ^ 63

/-- A start line that can be read back. -/
def WellFormedStart (message : HttpMessage) : Prop :=
  message.version ≠ .unknown ∧
    match message.kind with
    | .request method requestUri =>
      method ≠ .unknown ∧ ∀ b ∈ ([32, 13, 10, 0] : List UInt8), b ∉ requestUri
    | .response statusCode reasonPhrase =>
      0 ≤ statusCode ∧ statusCode < 2 ^ 31 ∧ ∀ b ∈ ([13, 10, 0] : List UInt8), b ∉ reasonPhrase

/-- The `%s` of the start line does not stop before its end. -/
def NulFreeStart (message : HttpMessage) : Prop :=
  match message.kind with
  | .request _ requestUri => 0 ∉ requestUri
  | .response _ reasonPhrase => 0 ∉ reasonPhrase

/-- A header that can be read back. -/
structure WellFormedHeader (header : List UInt8 × List UInt8) : Prop where
  name : ∀ b ∈ ([58, 13, 10, 0] : List UInt8), b ∉ header.1
  value : ∀ b ∈ ([13, 10, 0] : List UInt8), b ∉ header.2
  name_trimmed : Trimmed header.1
  value_trimmed : Trimmed header.2

structure WellFormed (message : HttpMessage) : Prop where
  start : WellFormedStart message
  headers : ∀ header ∈ message.headers.entries, WellFormedHeader header

/-- A header that can be read back but for the blanks around its value. -/
structure PlainHeader (header : List UInt8 × List UInt8) : Prop where
  name : ∀ b ∈ ([58, 13, 10, 0] : List UInt8), b ∉ header.1
  value : ∀ b ∈ ([13, 10, 0] : List UInt8), b ∉ header.2
  name_trimmed : Trimmed header.1

/-- A header whose line is read as it stands: there may be a NUL in the name. -/
structure LegibleHeader (header : List UInt8 × List UInt8) : Prop where
  name : ∀ b ∈ ([58, 13] : List UInt8), b ∉ header.1
  value : ∀ b ∈ ([13, 0] : List UInt8), b ∉ header.2
  name_trimmed : Trimmed header.1

structure Plain (message : HttpMessage) : Prop where
  start : WellFormedStart message
  headers : ∀ header ∈ message.headers.entries, PlainHeader header

theorem WellFormedHeader.plain {header : List UInt8 × List UInt8} (h : WellFormedHeader header) :
    PlainHeader header := ⟨h.name, h.value, h.name_trimmed⟩

theorem PlainHeader.legible {header : List UInt8 × List UInt8} (h : PlainHeader header) :
    LegibleHeader header :=
  ⟨List.forall_mem_cons.2
      ⟨h.name 58 (by decide), List.forall_mem_singleton.2 (h.name 13 (by decide))⟩,
    List.forall_mem_cons.2
      ⟨h.value 13 (by decide), List.forall_mem_singleton.2 (h.value 0 (by decide))⟩,
    h.name_trimmed⟩

theorem Plain.legible {message : HttpMessage} (hw : Plain message) :
    ∀ header ∈ message.headers.entries, LegibleHeader header :=
  fun header hmem => (hw.headers header hmem).legible

theorem WellFormed.plain {message : HttpMessage} (h : WellFormed message) : Plain message :=
  ⟨h.start, fun header hmem => (h.headers header hmem).plain⟩

section Head

variable {message : HttpMessage} {d : DynamicBuffer}

theorem versionEnumToStr_length : ∀ version : Version, (versionEnumToStr version).length ≤ 8 := by
  rintro (_ | _ | _) <;> decide

theorem cStr_version : ∀ version : Version,
    cStr (versionEnumToStr version) = versionEnumToStr version := by
  rintro (_ | _ | _) <;> decide

theorem methodEnumToStr_length : ∀ method : Method, (methodEnumToStr method).length ≤ 7 := by
  rintro (_ | _ | _) <;> decide

theorem cStr_method : ∀ method : Method, cStr (methodEnumToStr method) = methodEnumToStr method := by
  rintro (_ | _ | _) <;> decide

theorem requestLine_text (method : Method) (version : Version) {requestUri : List UInt8}
    (huri : 0 ∉ requestUri) :
    cStr (methodEnumToStr method) ++ [32] ++ cStr requestUri ++ [32] ++
        cStr (versionEnumToStr version) ++ crlf =
      methodEnumToStr method ++ ([32] ++ (requestUri ++ ([32] ++ versionEnumToStr version))) ++
        crlf := by
  rw [cStr_method, cStr_version, cStr_of_notMem huri]
  simp only [List.append_assoc]

theorem statusLine_text (version : Version) (statusCode : Int) {reasonPhrase : List UInt8}
    (hreason : 0 ∉ reasonPhrase) :
    cStr (versionEnumToStr version) ++ [32] ++ intToString statusCode ++ [32] ++
        cStr reasonPhrase ++ crlf =
      versionEnumToStr version ++ ([32] ++ (intToString statusCode ++ ([32] ++ reasonPhrase))) ++
        crlf := by
  rw [cStr_version, cStr_of_notMem hreason]
  simp only [List.append_assoc]

theorem header_text {name value : List UInt8} (hname : 0 ∉ name) (hvalue : 0 ∉ value) :
    cStr name ++ bytes ": " ++ cStr value ++ crlf = headerLine (name, value) ++ crlf := by
  rw [cStr_of_notMem hname, cStr_of_notMem hvalue]
  simp only [headerLine, List.append_assoc]

theorem WellFormedStart.nulFree (hw : WellFormedStart message) : NulFreeStart message := by
  obtain ⟨kind, version, headers, body⟩ := message
  unfold WellFormedStart at hw
  unfold NulFreeStart
  cases kind with
  | request method requestUri => exact hw.2.2 0 (by decide)
  | response statusCode reasonPhrase => exact hw.2.2.2 0 (by decide)

theorem writeStartLine_eq (hw : NulFreeStart message) (d : DynamicBuffer) :
    writeStartLine message d = d.print (startLineRoom message) (startLine message ++ crlf) := by
  obtain ⟨kind, version, headers, body⟩ := message
  unfold NulFreeStart at hw
  unfold writeStartLine startLine startLineRoom
  cases kind with
  | request method requestUri =>
    dsimp only at hw ⊢
    rw [requestLine_text method version hw]
  | response statusCode reasonPhrase =>
    dsimp only at hw ⊢
    rw [statusLine_text version statusCode hw]

/-- The status code of a response is an `int`. -/
def IntCode (message : HttpMessage) : Prop :=
  match message.kind with
  | .request _ _ => True
  | .response statusCode _ => -2 ^ 31 ≤ statusCode ∧ statusCode < 2 ^ 31

theorem WellFormedStart.intCode (hw : WellFormedStart message) : IntCode message := by
  obtain ⟨kind, version, headers, body⟩ := message
  unfold WellFormedStart at hw
  unfold IntCode
  cases kind with
  | request method requestUri => trivial
  | response statusCode reasonPhrase =>
    obtain ⟨_, hnonneg, hcode, _⟩ := hw
    exact ⟨by omega, hcode⟩

theorem startLine_length (hcode : IntCode message) :
    (startLine message ++ crlf).length < startLineRoom message - 2 := by
  obtain ⟨kind, version, headers, body⟩ := message
  have hversion := versionEnumToStr_length version
  unfold IntCode at hcode
  unfold startLine startLineRoom
  cases kind with
  | request method requestUri =>
    have hmethod := methodEnumToStr_length method
    simp only [List.length_append, List.length_singleton]
    change _ + 2 < _
    omega
  | response statusCode reasonPhrase =>
    have hdigits := intToString_length hcode.1 hcode.2
    simp only [List.length_append, List.length_singleton]
    change _ + 2 < _
    omega

theorem Counted.startLine (h : Counted message) :
    (HttpProtocol.startLine message ++ crlf).length < 2 ^ 31 := h _ List.mem_cons_self

theorem Counted.header (h : Counted message) {header : List UInt8 × List UInt8}
    (hmem : header ∈ message.headers.entries) : (headerLine header ++ crlf).length < 2 ^ 31 :=
  h (32 + header.1.length + header.2.length, (headerLine header ++ crlf).length)
    (List.mem_cons_of_mem _ (List.mem_append_left _ (List.mem_map_of_mem hmem)))

theorem headerLine_length (header : List UInt8 × List UInt8) :
    (headerLine header ++ crlf).length = header.1.length + header.2.length + 4 := by
  simp only [headerLine, List.length_append]
  change _ + (2 + _) + 2 = _
  omega

theorem room_le_headersRoom {header : List UInt8 × List UInt8} :
    ∀ {headers : List (List UInt8 × List UInt8)}, header ∈ headers →
      32 + header.1.length + header.2.length ≤ headersRoom headers
  | header' :: headers, hmem => by
    have hroom : headersRoom (header' :: headers) =
        32 + header'.1.length + header'.2.length + headersRoom headers := rfl
    rcases List.mem_cons.1 hmem with rfl | hmem
    · omega
    · have ih := room_le_headersRoom hmem
      omega

/-- The room that is reserved for the head is more than any of its lines. -/
theorem counted_of_room (hcode : IntCode message)
    (h : startLineRoom message + headersRoom message.headers.entries < 2 ^ 31) :
    Counted message := by
  have hstart := startLine_length hcode
  intro text hmem
  simp only [headTexts, List.mem_append, List.mem_cons, List.mem_map, List.not_mem_nil,
    or_false] at hmem
  rcases hmem with (rfl | ⟨header, hmem, rfl⟩) | rfl
  · dsimp only
    omega
  · have hlen := headerLine_length header
    have hle := room_le_headersRoom hmem
    dsimp only
    omega
  · exact (by decide : 2 < 2 ^ 31)

theorem writeStartLine_spec (hw : WellFormedStart message) (hd : d.Sized)
    (hcount : (startLine message ++ crlf).length < 2 ^ 31)
    (hfits : d.readableBytes + startLineRoom message + 2 * d.expandSize < 2 ^ 63) :
    ∃ d', writeStartLine message d = some d' ∧
      d'.readable = d.readable ++ (startLine message ++ crlf) ∧ d'.Sized ∧
      d'.expandSize = d.expandSize ∧ 2 < d'.writableBytes ∧
      (startLine message ++ crlf).length ≤ startLineRoom message := by
  have hlen := startLine_length hw.intCode
  obtain ⟨d', hprint, hread, hsized, hexp, hleft⟩ :=
    print_spec hd hfits (hlen.trans_le (Nat.sub_le _ _)) hcount
  exact ⟨d', (writeStartLine_eq hw.nulFree d).trans hprint, hread, hsized, hexp, by omega, by omega⟩

theorem writeHeaders_cons {header : List UInt8 × List UInt8}
    {headers : List (List UInt8 × List UInt8)} (h : PlainHeader header) (d : DynamicBuffer) :
    writeHeaders (header :: headers) d =
      (d.print (32 + header.1.length + header.2.length) (headerLine header ++ crlf)).bind
        (writeHeaders headers) := by
  obtain ⟨name, value⟩ := header
  rw [writeHeaders, header_text (h.name 0 (by decide)) (h.value 0 (by decide))]
  rfl

theorem notMem_headerLine {header : List UInt8 × List UInt8} (h : LegibleHeader header) :
    13 ∉ headerLine header := by
  have hname := h.name 13 (by decide)
  have hvalue := h.value 13 (by decide)
  have hcolon : (13 : UInt8) ∉ bytes ": " := by decide
  simp [headerLine, hname, hvalue, hcolon]

theorem headerLine_ne_nil (header : List UInt8 × List UInt8) : headerLine header ≠ [] := by
  intro h
  have hcolon := (List.append_eq_nil_iff.1 (List.append_eq_nil_iff.1 h).2).1
  exact absurd hcolon (by decide)

theorem writeHeaders_spec : ∀ {headers : List (List UInt8 × List UInt8)} {d : DynamicBuffer},
    (∀ header ∈ headers, PlainHeader header) →
    (∀ header ∈ headers, (headerLine header ++ crlf).length < 2 ^ 31) → d.Sized →
    2 < d.writableBytes → d.readableBytes + headersRoom headers + 2 * d.expandSize < 2 ^ 63 →
    ∃ d', writeHeaders headers d = some d' ∧ d'.readable = d.readable ++ headerLines headers ∧
      d'.Sized ∧ d'.expandSize = d.expandSize ∧ 2 < d'.writableBytes ∧
      (headerLines headers).length ≤ headersRoom headers
  | [], d, _, _, hd, hroom, _ => ⟨d, rfl, (List.append_nil _).symm, hd, rfl, hroom, le_rfl⟩
  | header :: headers, d, hw, hcount, hd, _, hfits => by
    have hroom : headersRoom (header :: headers) =
        32 + header.1.length + header.2.length + headersRoom headers := rfl
    have hlines : headerLines (header :: headers) =
        (headerLine header ++ crlf) ++ headerLines headers := rfl
    have hlen := headerLine_length header
    rw [hroom] at hfits ⊢
    obtain ⟨d₁, hprint, hread, hsized, hexp, hleft⟩ := @print_spec d
      (32 + header.1.length + header.2.length) (headerLine header ++ crlf) hd (by omega) (by omega)
      (hcount header List.mem_cons_self)
    have hlen₁ : d₁.readableBytes = d.readableBytes + (header.1.length + header.2.length + 4) := by
      rw [← readable_length, ← readable_length, hread, List.length_append, hlen]
    obtain ⟨d', hrest, hread', hsized', hexp', hroom', hlen'⟩ := writeHeaders_spec
      (fun header h => hw header (List.mem_cons_of_mem _ h))
      (fun header h => hcount header (List.mem_cons_of_mem _ h)) hsized (by omega)
      (by rw [hexp, hlen₁]; omega)
    refine ⟨d', ?_, ?_, hsized', hexp'.trans hexp, hroom', ?_⟩
    · rw [writeHeaders_cons (hw header List.mem_cons_self), hprint]
      exact hrest
    · rw [hread', hread, hlines, List.append_assoc]
    · rw [hlines, List.length_append, hlen]
      omega

/-- **The head is written in full.** -/
theorem writeHead_spec (hw : Plain message) (hcount : Counted message)
    (hd : Addressable d message) :
    ∃ d', writeHead message d = some d' ∧ d'.readable = d.readable ++ head message ∧ d'.Sized ∧
      d'.readableBytes + message.body.length + 2 * d'.expandSize < 2 ^ 63 ∧
      0 < d'.writableBytes := by
  obtain ⟨hsized, hfits⟩ := hd
  obtain ⟨d₁, hd₁, hread₁, hsized₁, hexp₁, hroom₁, hlen₁⟩ :=
    writeStartLine_spec hw.start hsized hcount.startLine (by omega)
  have hbytes₁ : d₁.readableBytes ≤ d.readableBytes + startLineRoom message := by
    rw [← readable_length, ← readable_length, hread₁, List.length_append]
    omega
  obtain ⟨d₂, hd₂, hread₂, hsized₂, hexp₂, hroom₂, hlen₂⟩ :=
    writeHeaders_spec hw.headers (fun header h => hcount.header h) hsized₁ hroom₁
      (by rw [hexp₁]; omega)
  have hbytes₂ : d₂.readableBytes ≤ d₁.readableBytes + headersRoom message.headers.entries := by
    rw [← readable_length, ← readable_length, hread₂, List.length_append]
    omega
  obtain ⟨d', hprint, hread, hsized', hexp, _, hroom⟩ := @print_append d₂ 2 crlf hsized₂
    (by rw [hexp₂, hexp₁]; omega) le_rfl (by decide) (by decide) (Or.inr hroom₂)
  refine ⟨d', ?_, ?_, hsized', ?_, hroom⟩
  · unfold writeHead
    rw [hd₁]
    simp only [bind, Option.bind_some, hd₂]
    exact hprint
  · rw [hread, hread₂, hread₁]
    simp [head]
  · have hbytes : d'.readableBytes = d₂.readableBytes + 2 := by
      rw [← readable_length, ← readable_length, hread, List.length_append]
      rfl
    rw [hexp, hexp₂, hexp₁]
    omega

end Head

/-! ## The room behind the head -/

/-- The writable bytes behind texts of these lengths, once room has been reserved for each. -/
def roomBehind : List (Nat × Nat) → DynamicBuffer → Option Nat
  | [], d => some d.writableBytes
  | (size, count) :: texts, d => do
    let d ← d.reserveWritableBytes size
    roomBehind texts (d.write count)

/-- Buffers that differ in their bytes only. -/
structure SameSpace (d e : DynamicBuffer) : Prop where
  length_eq : d.buffer.length = e.buffer.length
  expand_eq : d.expandSize = e.expandSize
  read_eq : d.readIndex = e.readIndex
  write_eq : d.writeIndex = e.writeIndex

section Room

variable {message : HttpMessage} {d d' e : DynamicBuffer} {size : Nat} {text : List UInt8}

theorem sameSpace_writable (h : SameSpace d e) : d.writableBytes = e.writableBytes := by
  unfold writableBytes
  rw [h.length_eq, h.write_eq]

theorem sameSpace_write (h : SameSpace d e) (count : Nat) :
    SameSpace (d.write count) (e.write count) := by
  refine ⟨h.length_eq, h.expand_eq, h.read_eq, ?_⟩
  show d.writeIndex + _ = e.writeIndex + _
  rw [h.write_eq, sameSpace_writable h]

theorem sameSpace_reserve (h : SameSpace d e) (hd : d.reserveWritableBytes size = some d') :
    ∃ e', e.reserveWritableBytes size = some e' ∧ SameSpace d' e' := by
  have hwritable := sameSpace_writable h
  have hreadable : d.readableBytes = e.readableBytes := by
    unfold readableBytes
    rw [h.read_eq, h.write_eq]
  have hexpanded : d.expandedSize size = e.expandedSize size := by
    unfold expandedSize discardableBytes
    rw [h.length_eq, h.expand_eq, h.read_eq, hwritable]
  unfold reserveWritableBytes at hd ⊢
  split at hd
  · rename_i hroom
    cases hd
    exact ⟨e, if_pos (hwritable ▸ hroom), h⟩
  · rename_i hroom
    obtain ⟨newSize, hnew, hd⟩ := Option.bind_eq_some_iff.1 hd
    split at hd
    · rename_i hsize
      cases hd
      rw [if_neg (hwritable ▸ hroom), ← hexpanded, hnew]
      simp only [bind, Option.bind_some]
      rw [dif_pos (hreadable ▸ hsize)]
      refine ⟨_, rfl, ?_, h.expand_eq, rfl, hreadable⟩
      simp only [List.length_append, List.length_replicate, readable_length, hreadable]
    · cases hd

end Room

/-! ## The body -/

/-- What `snprintf` and `write` make of a body when `room` bytes are writable. -/
def printed (room : Nat) (body : List UInt8) : List UInt8 :=
  ((cStr body).take (room - 1) ++ [0]).take (cStr body).length

section Body

variable {message : HttpMessage} {d : DynamicBuffer} {body : List UInt8} {room : Nat}

end Body

end HttpProtocol

end Brickred
