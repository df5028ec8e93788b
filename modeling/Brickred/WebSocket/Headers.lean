import Brickred.Http.RoundTrip
import Brickred.WebSocket.Handshake

/-!
# The request and the response of the handshake

* `find_setMissing`, `find_merge` — what becomes of the headers that are set for the application,
  and of those it has set.
* `request_valid`, `response_valid` — the messages as they are read back pass the checks.
* `reads_request`, `reads_response` — and are read without a body.
-/

set_option autoImplicit false

namespace Brickred

namespace WebSocketProtocol

open StringUtil HttpMessage HttpProtocol Codec

/-! ## Headers of the application -/

/-- `setHandshakeHeader` for one header after the other. -/
def withHeaders (s : WebSocketProtocol Handshake) (headers : List (List UInt8 × List UInt8)) :
    WebSocketProtocol Handshake :=
  headers.foldl (fun s header => s.setHandshakeHeader header.1 header.2) s

/-- Headers the handshake goes by. -/
def reservedNames : List (List UInt8) :=
  [bytes "Upgrade", bytes "Connection", bytes "Content-Length", bytes "Transfer-Encoding"]

/-- A header that leaves the handshake alone; names are compared without regard to case. -/
structure ExtraHeader (header : List UInt8 × List UInt8) : Prop where
  wellFormed : WellFormedHeader header
  notReserved : ∀ name ∈ reservedNames, rank header.1 ≠ rank name
  notWebSocket : ¬ rank (bytes "Sec-WebSocket-") <+: rank header.1

/-- A text that can stand in a header. -/
def PlainText (text : List UInt8) : Prop := ∀ b ∈ ([13, 10, 0] : List UInt8), b ∉ text

/-- A name that can stand in front of a header. -/
def PlainName (name : List UInt8) : Prop :=
  (∀ b ∈ ([58, 13, 10, 0] : List UInt8), b ∉ name) ∧ Trimmed name

instance (text : List UInt8) : Decidable (PlainText text) :=
  inferInstanceAs (Decidable (∀ b ∈ ([13, 10, 0] : List UInt8), _))

instance (name : List UInt8) : Decidable (PlainName name) :=
  inferInstanceAs (Decidable ((∀ b ∈ ([58, 13, 10, 0] : List UInt8), _) ∧ _))

def PlainHeaders (headers : HeaderMap) : Prop :=
  ∀ header ∈ headers.entries, PlainName header.1 ∧ PlainText header.2

instance (headers : HeaderMap) : Decidable (PlainHeaders headers) :=
  inferInstanceAs (Decidable (∀ header ∈ headers.entries, _))

/-- A header unless there is one of its name. -/
def setMissing (headers : HeaderMap) (key value : List UInt8) : HeaderMap :=
  if (headers.find key).isNone then headers.insert key value else headers

section Headers

variable {s : WebSocketProtocol Handshake} {headers : HeaderMap} {key key' value : List UInt8}
  {extra : List (List UInt8 × List UInt8)}

theorem withHeaders_eq (s : WebSocketProtocol Handshake) :
    ∀ extra : List (List UInt8 × List UInt8), s.withHeaders extra =
      { s with http := { s.http with
          handshakeHeaders := s.http.handshakeHeaders.insertAll extra } } := by
  intro extra
  induction extra generalizing s with
  | nil => rfl
  | cons header extra ih =>
    unfold withHeaders at ih ⊢
    rw [List.foldl_cons, ih]
    rfl

theorem setHandshakeHeaders_eq (message : HttpMessage) (headers : HeaderMap) :
    setHandshakeHeaders message headers =
      { message with headers := message.headers.insertAll headers.entries } := by
  unfold setHandshakeHeaders
  induction headers.entries generalizing message with
  | nil => rfl
  | cons header entries ih =>
    rw [List.foldl_cons, ih]
    rfl

/-- One of the headers `startAsClient` sets. -/
theorem setUnless_eq (s : WebSocketProtocol Handshake) (key value : List UInt8) :
    (if (s.http.handshakeHeaders.find key).isNone then s.setHandshakeHeader key value else s) =
      { s with http := { s.http with
          handshakeHeaders := setMissing s.http.handshakeHeaders key value } } := by
  unfold setMissing
  split <;> rfl

theorem setClientHeaders_eq (s : WebSocketProtocol Handshake) (peerAddr : PeerAddress)
    (random : Fin 16 → UInt8) : s.setClientHeaders peerAddr random =
      { s with http := { s.http with
          handshakeHeaders := setMissing
            (setMissing s.http.handshakeHeaders (bytes "Sec-WebSocket-Key")
              (base64Encode (List.ofFn random)))
            (bytes "Host")
            (peerAddr.ip ++ bytes ":" ++ StringUtil.toString peerAddr.port.toNat) } } := by
  unfold setClientHeaders
  rw [setUnless_eq, setUnless_eq]

theorem find_setMissing_of_ne (h : rank key ≠ rank key') :
    (setMissing headers key value).find key' = headers.find key' := by
  unfold setMissing
  split
  · rw [SortedMap.find_insert, if_neg h]
  · rfl

theorem find_setMissing_of_none (h : headers.find key = none) :
    (setMissing headers key value).find key = some value := by
  unfold setMissing
  rw [if_pos (by rw [h]; rfl), SortedMap.find_insert, if_pos rfl]

theorem find_setMissing_isSome : ((setMissing headers key value).find key).isSome = true := by
  unfold setMissing
  split
  · rw [SortedMap.find_insert, if_pos rfl]
    rfl
  · rename_i h
    exact Option.isSome_iff_ne_none.2 fun hnone => h (by rw [hnone]; rfl)

theorem plain_setMissing (h : PlainHeaders headers) (hkey : PlainName key)
    (hvalue : PlainText value) : PlainHeaders (setMissing headers key value) := by
  unfold setMissing
  split
  · exact SortedMap.forall_insert h hkey hvalue
  · exact h

theorem plain_extra (h : ∀ header ∈ extra, ExtraHeader header) :
    ∀ header ∈ extra, PlainName header.1 ∧ PlainText header.2 := fun header hmem =>
  have hw := (h header hmem).wellFormed
  ⟨⟨hw.name, hw.name_trimmed⟩, hw.value⟩

/-- No header of the application stands in the way. -/
theorem find_extra (h : ∀ header ∈ extra, ExtraHeader header)
    (hkey : key ∈ reservedNames ∨ rank (bytes "Sec-WebSocket-") <+: rank key) :
    (SortedMap.empty.insertAll extra : HeaderMap).find key = none := by
  refine (SortedMap.find_insertAll _ _ _ fun header hmem heq => ?_).trans (SortedMap.find_empty key)
  rcases hkey with hkey | hkey
  · exact (h header hmem).notReserved key hkey heq
  · exact (h header hmem).notWebSocket (heq ▸ hkey)

end Headers

/-! ## Texts -/

section Texts

theorem isBase64_notMem {b : UInt8} (h : IsBase64 b) : b ∉ ([32, 9, 13, 10, 0] : List UInt8) := by
  have htable : ∀ b ∈ encodeTable, b ∉ ([32, 9, 13, 10, 0] : List UInt8) := by decide
  rcases h with h | rfl
  · exact htable b h
  · decide

theorem base64Encode_plain {buffer : List UInt8} (h : buffer.length < 2 ^ 30) :
    PlainText (base64Encode buffer) ∧ Trimmed (base64Encode buffer) := by
  have hchars := (base64Encode_spec h).2
  refine ⟨fun b hb hmem => ?_, fun b hb => ⟨fun hhead => ?_, fun hlast => ?_⟩⟩
  · refine isBase64_notMem (hchars b hmem) ?_
    simp only [List.mem_cons, List.not_mem_nil, or_false] at hb ⊢
    tauto
  · refine isBase64_notMem (hchars b (List.mem_of_head? hhead)) ?_
    simp only [blanks, List.mem_cons, List.not_mem_nil, or_false] at hb ⊢
    tauto
  · refine isBase64_notMem (hchars b (List.mem_of_getLast? hlast)) ?_
    simp only [blanks, List.mem_cons, List.not_mem_nil, or_false] at hb ⊢
    tauto

/-- The address of the peer, as the `Host` header has it. -/
theorem host_plain {peerAddr : PeerAddress} (h : PlainText peerAddr.ip) :
    PlainText (peerAddr.ip ++ bytes ":" ++ StringUtil.toString peerAddr.port.toNat) := by
  intro b hb hmem
  rcases List.mem_append.1 hmem with hmem | hmem
  · rcases List.mem_append.1 hmem with hmem | hmem
    · exact h b hb hmem
    · have hcolon : ∀ b ∈ ([13, 10, 0] : List UInt8), b ∉ bytes ":" := by decide
      exact hcolon b hb hmem
  · have hdigit := (mem_toString hmem).1
    simp only [List.mem_cons, List.not_mem_nil, or_false] at hb
    rcases hb with rfl | rfl | rfl <;> exact absurd hdigit (by decide)

theorem headersRoom_insert (headers : HeaderMap) (key value : List UInt8) :
    headersRoom (headers.insert key value).entries ≤
      headersRoom headers.entries + (32 + key.length + value.length) := by
  unfold SortedMap.insert
  dsimp only
  induction headers.entries with
  | nil => exact le_of_eq (Nat.add_comm _ _)
  | cons header entries ih =>
    have hcons : ∀ (header : List UInt8 × List UInt8) (entries : List (List UInt8 × List UInt8)),
        headersRoom (header :: entries) =
          32 + header.1.length + header.2.length + headersRoom entries := fun _ _ => rfl
    unfold SortedMap.insertEntry
    split
    · rw [hcons, hcons]
      dsimp only
      omega
    · split
      · rw [hcons, hcons]
        omega
      · rw [hcons, hcons]
        dsimp only
        omega

theorem headersRoom_insertAll (headers : HeaderMap) (entries : List (List UInt8 × List UInt8)) :
    headersRoom (headers.insertAll entries).entries ≤
      headersRoom headers.entries + headersRoom entries := by
  induction entries generalizing headers with
  | nil => exact le_rfl
  | cons header entries ih =>
    have hins := headersRoom_insert headers header.1 header.2
    have hcons : headersRoom (header :: entries) =
        32 + header.1.length + header.2.length + headersRoom entries := rfl
    have hrest := ih (headers.insert header.1 header.2)
    have hall : headers.insertAll (header :: entries) =
      (headers.insert header.1 header.2).insertAll entries := rfl
    rw [hall, hcons]
    omega

theorem headersRoom_setMissing (headers : HeaderMap) (key value : List UInt8) :
    headersRoom (setMissing headers key value).entries ≤
      headersRoom headers.entries + (32 + key.length + value.length) := by
  unfold setMissing
  split
  · exact headersRoom_insert headers key value
  · exact Nat.le_add_right _ _

end Texts

/-! ## What is found -/

/-- The headers of the application, and of the object, that leave the handshake alone. -/
structure LeavesHandshake (headers : HeaderMap) : Prop where
  plain : PlainHeaders headers
  find_none : ∀ key ∈ reservedNames ++
    [bytes "Sec-WebSocket-Version", bytes "Sec-WebSocket-Accept"], headers.find key = none

section Found

variable {headers : HeaderMap} {key value : List UInt8} {message : HttpMessage}

theorem leavesHandshake_extra {extra : List (List UInt8 × List UInt8)}
    (h : ∀ header ∈ extra, ExtraHeader header) :
    LeavesHandshake (SortedMap.empty.insertAll extra) := by
  refine ⟨SortedMap.forall_insertAll (by simp [SortedMap.empty]) (plain_extra h),
    fun key hkey => find_extra h ?_⟩
  have hbegin : ∀ key ∈ [bytes "Sec-WebSocket-Version", bytes "Sec-WebSocket-Accept"],
      rank (bytes "Sec-WebSocket-") <+: rank key := by decide
  exact (List.mem_append.1 hkey).imp_right (hbegin key)

theorem leavesHandshake_setMissing (h : LeavesHandshake headers) (hkey : PlainName key)
    (hvalue : PlainText value) (hne : ∀ name ∈ reservedNames ++
      [bytes "Sec-WebSocket-Version", bytes "Sec-WebSocket-Accept"], rank key ≠ rank name) :
    LeavesHandshake (setMissing headers key value) :=
  ⟨plain_setMissing h.plain hkey hvalue, fun name hname =>
    (find_setMissing_of_ne (hne name hname)).trans (h.find_none name hname)⟩

theorem getHeader_readBack (h : message.headers.find key = some value) (htrim : Trimmed value) :
    (readBack message).getHeader key = value := by
  unfold getHeader readBack
  dsimp only
  rw [SortedMap.find_mapValues, h, Option.map_some, trim_of_trimmed htrim]
  rfl

theorem find_readBack (key : List UInt8) :
    (readBack message).headers.find key = (message.headers.find key).map trim :=
  SortedMap.find_mapValues trim message.headers key

end Found

/-! ## Sizes -/

section Sizes

variable {message : HttpMessage}

/-- A message without a body, as `sendMessage` puts it out. -/
theorem sendMessage_head (hw : Plain message) (hcount : Counted message)
    (hbody : message.body = [])
    (hsize : startLineRoom message + headersRoom message.headers.entries < 2 ^ 62) :
    HttpProtocol.sendMessage true message = [head message] := by
  have hself : message.setBody [] = message := by rw [← hbody]; rfl
  have hlen : (List.replicate 1024 (0 : UInt8)).length = 1024 := List.length_replicate
  have hnew := DynamicBuffer.holds_new 1024 1024
  have hread : (DynamicBuffer.new 1024 1024).readable = [] := hnew.readable_eq
  have hd : Addressable (.new 1024 1024) (message.setBody []) := by
    refine ⟨hnew.sized rfl (by rw [hlen]; rfl), ?_⟩
    have hzero : (DynamicBuffer.new 1024 1024).readableBytes = 0 := rfl
    have hexp : (DynamicBuffer.new 1024 1024).expandSize = 1024 := rfl
    rw [hself, hbody, hzero, hexp, List.length_nil]
    omega
  obtain ⟨d, hd, hhead⟩ := writeMessage_head hw hcount hd
  rw [hself] at hd
  unfold HttpProtocol.sendMessage
  rw [if_pos rfl, hd]
  dsimp only
  rw [hhead, hread]
  rfl

end Sizes

/-! ## The request -/

/-- The headers of both messages. -/
def upgradeHeaders : HeaderMap :=
  (SortedMap.empty.insert (bytes "Upgrade") (bytes "websocket")).insert (bytes "Connection")
    (bytes "Upgrade")

/-- The headers of every request. -/
def requestHeaders : HeaderMap :=
  upgradeHeaders.insert (bytes "Sec-WebSocket-Version") (bytes "13")

theorem find_upgradeHeaders :
    upgradeHeaders.find (bytes "Upgrade") = some (bytes "websocket") ∧
    upgradeHeaders.find (bytes "Connection") = some (bytes "Upgrade") ∧
    upgradeHeaders.find (bytes "Content-Length") = none ∧
    upgradeHeaders.find (bytes "Transfer-Encoding") = none := by decide

section Upgrade

variable {message : HttpMessage}

theorem getHeader_upgrade
    (h : ∀ key ∈ reservedNames, message.headers.find key = upgradeHeaders.find key) :
    (readBack message).getHeader (bytes "Upgrade") = bytes "websocket" :=
  getHeader_readBack ((h _ (by decide)).trans find_upgradeHeaders.1) (by decide)

theorem getHeader_connection
    (h : ∀ key ∈ reservedNames, message.headers.find key = upgradeHeaders.find key) :
    (readBack message).getHeader (bytes "Connection") = bytes "Upgrade" :=
  getHeader_readBack ((h _ (by decide)).trans find_upgradeHeaders.2.1) (by decide)

/-- A message of the handshake is read without a body. -/
theorem reads_upgrade (hw : Plain message)
    (h : ∀ key ∈ reservedNames, message.headers.find key = upgradeHeaders.find key) :
    parser.Reads Heading reset [readBack message] reset (head message) := by
  obtain ⟨hupgrade, -, hlength, hencoding⟩ := find_upgradeHeaders
  have hne : message.headers.entries ≠ [] := by
    intro hnil
    have hfind := (h _ (by decide)).trans hupgrade
    rw [SortedMap.eq_of_entries (show message.headers.entries = SortedMap.empty.entries from hnil),
      SortedMap.find_empty] at hfind
    cases hfind
  have hhead : head message =
      startLine message ++ crlf ++ (headerLines message.headers.entries ++ crlf) := by
    simp [head]
  rw [hhead, ← readOf_entries]
  refine reads_bodiless hw.start hw.legible hne ?_ ?_ <;> rw [readOf_entries, find_readBack]
  · rw [(h _ (by decide)).trans hlength]
    rfl
  · rw [(h _ (by decide)).trans hencoding]
    rfl

end Upgrade

section Request

variable {requestUri secKey : List UInt8} {headers : HeaderMap}

theorem handshakeRequest_eq (requestUri : List UInt8) (headers : HeaderMap) :
    handshakeRequest requestUri headers =
      ⟨.request .get requestUri, .http11, requestHeaders.insertAll headers.entries, []⟩ := by
  unfold handshakeRequest
  rw [setHandshakeHeaders_eq]
  rfl

theorem find_request (h : LeavesHandshake headers) {key : List UInt8}
    (hkey : key ∈ reservedNames ++
      [bytes "Sec-WebSocket-Version", bytes "Sec-WebSocket-Accept"]) :
    (handshakeRequest requestUri headers).headers.find key = requestHeaders.find key := by
  rw [handshakeRequest_eq]
  dsimp only
  rw [SortedMap.find_merge, h.find_none key hkey]
  rfl

theorem find_request_of_ne (h : LeavesHandshake headers) : ∀ key ∈ reservedNames,
    (handshakeRequest requestUri headers).headers.find key = upgradeHeaders.find key := by
  have hversion : ∀ key ∈ reservedNames, rank (bytes "Sec-WebSocket-Version") ≠ rank key := by
    decide
  intro key hkey
  rw [find_request h (List.mem_append_left _ hkey), requestHeaders, SortedMap.find_insert,
    if_neg (hversion key hkey)]

theorem plain_request (huri : ∀ b ∈ ([32, 13, 10, 0] : List UInt8), b ∉ requestUri)
    (h : LeavesHandshake headers) : Plain (handshakeRequest requestUri headers) := by
  have hbase : PlainHeaders requestHeaders := by decide
  have hversion : Version.http11 ≠ .unknown := by decide
  have hmethod : HttpRequest.Method.get ≠ .unknown := by decide
  rw [handshakeRequest_eq]
  refine ⟨And.intro hversion (And.intro hmethod huri), fun header hmem => ?_⟩
  obtain ⟨hname, hvalue⟩ := SortedMap.forall_insertAll hbase h.plain header hmem
  exact ⟨hname.1, hvalue, hname.2⟩

theorem reads_request (huri : ∀ b ∈ ([32, 13, 10, 0] : List UInt8), b ∉ requestUri)
    (h : LeavesHandshake headers) :
    parser.Reads Heading reset [readBack (handshakeRequest requestUri headers)] reset
      (head (handshakeRequest requestUri headers)) :=
  reads_upgrade (plain_request huri h) (find_request_of_ne h)

variable (requestUri) in
/-- The key is sent to the server. -/
theorem getHeader_secKey (hkey : headers.find (bytes "Sec-WebSocket-Key") = some secKey)
    (htrim : Trimmed secKey) :
    (readBack (handshakeRequest requestUri headers)).getHeader (bytes "Sec-WebSocket-Key") =
      secKey := by
  refine getHeader_readBack ?_ htrim
  rw [handshakeRequest_eq]
  dsimp only
  rw [SortedMap.find_merge, hkey]
  rfl

/-- **The request is valid** for the server. -/
theorem request_valid (h : LeavesHandshake headers)
    (hkey : headers.find (bytes "Sec-WebSocket-Key") = some secKey) (htrim : Trimmed secKey)
    (hlen : secKey.length = 24) (hhost : (headers.find (bytes "Host")).isSome = true) :
    checkHandshakeRequestValid (readBack (handshakeRequest requestUri headers)) = true := by
  have hversion : (readBack (handshakeRequest requestUri headers)).getHeader
      (bytes "Sec-WebSocket-Version") = bytes "13" := by
    refine getHeader_readBack ((find_request h (by decide)).trans ?_) ?_ <;> decide
  have hhas : (readBack (handshakeRequest requestUri headers)).hasHeader (bytes "Host") = true := by
    obtain ⟨host, hhost⟩ := Option.isSome_iff_exists.1 hhost
    unfold hasHeader readBack
    rw [handshakeRequest_eq]
    dsimp only
    rw [SortedMap.find_mapValues, SortedMap.find_merge, hhost]
    rfl
  unfold checkHandshakeRequestValid headerContain headerEqual
  rw [hhas, getHeader_upgrade (find_request_of_ne h), getHeader_connection (find_request_of_ne h),
    hversion, getHeader_secKey _ hkey htrim]
  rw [if_neg (by decide), if_neg (by decide), if_neg (by decide), if_neg (not_not.2 hlen),
    if_neg (by decide)]

theorem request_room (requestUri : List UInt8) (headers : HeaderMap) :
    startLineRoom (handshakeRequest requestUri headers) +
      headersRoom (handshakeRequest requestUri headers).headers.entries ≤
        requestUri.length + headersRoom headers.entries + 216 := by
  have hroom := headersRoom_insertAll requestHeaders headers.entries
  have hbase : headersRoom requestHeaders.entries = 152 := by decide
  rw [handshakeRequest_eq]
  show 64 + requestUri.length +
    headersRoom (requestHeaders.insertAll headers.entries).entries ≤ _
  omega

theorem counted_request (huri : ∀ b ∈ ([32, 13, 10, 0] : List UInt8), b ∉ requestUri)
    (h : LeavesHandshake headers)
    (hsize : requestUri.length + headersRoom headers.entries + 216 < 2 ^ 31) :
    Counted (handshakeRequest requestUri headers) :=
  counted_of_room (plain_request huri h).start.intCode
    ((request_room requestUri headers).trans_lt hsize)

/-- The request as it is put out. -/
theorem sendMessage_request (huri : ∀ b ∈ ([32, 13, 10, 0] : List UInt8), b ∉ requestUri)
    (h : LeavesHandshake headers) (hcount : Counted (handshakeRequest requestUri headers))
    (hsize : requestUri.length + headersRoom headers.entries < 2 ^ 61) :
    HttpProtocol.sendMessage true (handshakeRequest requestUri headers) =
      [head (handshakeRequest requestUri headers)] := by
  have hroom := request_room requestUri headers
  exact sendMessage_head (plain_request huri h) hcount (by rw [handshakeRequest_eq]) (by omega)

end Request

/-! ## The response -/

/-- The headers of every response. -/
def responseHeaders (secKey : List UInt8) : HeaderMap :=
  upgradeHeaders.insert (bytes "Sec-WebSocket-Accept") (secAccept secKey)

/-- `setDate` where there is a `Date` header. -/
def dated (headers : HeaderMap) (date : List UInt8) : HeaderMap :=
  if (headers.find (bytes "Date")).isSome then headers.insert (bytes "Date") date else headers

section Response

variable {request : HttpMessage} {secKey date : List UInt8} {headers : HeaderMap}

theorem setDate_eq (response : HttpMessage) (date : List UInt8) :
    (if response.hasHeader (bytes "Date") then response.setHeader (bytes "Date") date
      else response) = { response with headers := dated response.headers date } := by
  unfold hasHeader dated
  split <;> rfl

theorem handshakeResponse_eq (hkey : request.getHeader (bytes "Sec-WebSocket-Key") = secKey)
    (headers : HeaderMap) (date : List UInt8) : handshakeResponse request headers date =
      ⟨.response 101 (bytes "Switching Protocols"), .http11,
        dated ((responseHeaders secKey).insertAll headers.entries) date, []⟩ := by
  unfold handshakeResponse
  rw [setDate_eq, setHandshakeHeaders_eq, hkey]
  rfl

theorem find_response (hkey : request.getHeader (bytes "Sec-WebSocket-Key") = secKey)
    (h : LeavesHandshake headers) {key : List UInt8} (hname : key ∈ reservedNames ++
      [bytes "Sec-WebSocket-Version", bytes "Sec-WebSocket-Accept"]) :
    (handshakeResponse request headers date).headers.find key =
      (responseHeaders secKey).find key := by
  have hdate : ∀ key ∈ reservedNames ++
      [bytes "Sec-WebSocket-Version", bytes "Sec-WebSocket-Accept"],
      rank (bytes "Date") ≠ rank key := by decide
  have hmerge : ((responseHeaders secKey).insertAll headers.entries).find key =
      (responseHeaders secKey).find key := by
    rw [SortedMap.find_merge, h.find_none key hname]
    rfl
  rw [handshakeResponse_eq hkey]
  unfold dated
  dsimp only
  split
  · rw [SortedMap.find_insert, if_neg (hdate key hname), hmerge]
  · exact hmerge

theorem find_response_of_ne (hkey : request.getHeader (bytes "Sec-WebSocket-Key") = secKey)
    (h : LeavesHandshake headers) : ∀ key ∈ reservedNames,
    (handshakeResponse request headers date).headers.find key = upgradeHeaders.find key := by
  have haccept : ∀ key ∈ reservedNames, rank (bytes "Sec-WebSocket-Accept") ≠ rank key := by
    decide
  intro key hname
  rw [find_response hkey h (List.mem_append_left _ hname), responseHeaders, SortedMap.find_insert,
    if_neg (haccept key hname)]

theorem secAccept_plain (secKey : List UInt8) :
    (secAccept secKey).length = 28 ∧ PlainText (secAccept secKey) ∧
      Trimmed (secAccept secKey) := by
  have hlen := sha1Binary_length (secKey ++ bytes "258EAFA5-E914-47DA-95CA-C5AB0DC85B11")
  have hshort : (sha1Binary (secKey ++ bytes "258EAFA5-E914-47DA-95CA-C5AB0DC85B11")).length <
      2 ^ 30 := by omega
  refine ⟨?_, base64Encode_plain hshort⟩
  unfold secAccept
  rw [(base64Encode_spec hshort).1, hlen]

theorem plain_response (hkey : request.getHeader (bytes "Sec-WebSocket-Key") = secKey)
    (h : LeavesHandshake headers) (hdate : PlainText date) :
    Plain (handshakeResponse request headers date) := by
  have hbase : PlainHeaders (responseHeaders secKey) := by
    have hupgrade : PlainHeaders upgradeHeaders := by decide
    exact SortedMap.forall_insert hupgrade (by decide) (secAccept_plain secKey).2.1
  have hmerge : PlainHeaders ((responseHeaders secKey).insertAll headers.entries) :=
    SortedMap.forall_insertAll hbase h.plain
  have hall : PlainHeaders (dated ((responseHeaders secKey).insertAll headers.entries) date) := by
    unfold dated
    split
    · exact SortedMap.forall_insert hmerge (by decide) hdate
    · exact hmerge
  have hversion : Version.http11 ≠ .unknown := by decide
  have hreason : ∀ b ∈ ([13, 10, 0] : List UInt8), b ∉ bytes "Switching Protocols" := by decide
  rw [handshakeResponse_eq hkey]
  refine ⟨And.intro hversion (And.intro (by decide) (And.intro (by decide) hreason)),
    fun header hmem => ?_⟩
  obtain ⟨hname, hvalue⟩ := hall header hmem
  exact ⟨hname.1, hvalue, hname.2⟩

/-- **The response is valid** for the client that has sent the key. -/
theorem response_valid (hkey : request.getHeader (bytes "Sec-WebSocket-Key") = secKey)
    (h : LeavesHandshake headers) :
    checkHandshakeResponseValid (readBack (handshakeResponse request headers date)) secKey =
      true := by
  have haccept : (readBack (handshakeResponse request headers date)).getHeader
      (bytes "Sec-WebSocket-Accept") = secAccept secKey := by
    refine getHeader_readBack ((find_response hkey h (by decide)).trans ?_)
      (secAccept_plain secKey).2.2
    unfold responseHeaders
    rw [SortedMap.find_insert, if_pos rfl]
  have hcode : getStatusCode (readBack (handshakeResponse request headers date)) = 101 := by
    rw [handshakeResponse_eq hkey]
    rfl
  have hsame : stricmp (secAccept secKey) (secAccept secKey) = true := by simp [stricmp]
  unfold checkHandshakeResponseValid headerContain headerEqual
  rw [hcode, getHeader_upgrade (find_response_of_ne hkey h),
    getHeader_connection (find_response_of_ne hkey h), haccept, hsame]
  rw [if_neg (by decide), if_neg (by decide), if_neg (by decide), if_neg (by decide)]

theorem response_room (hkey : request.getHeader (bytes "Sec-WebSocket-Key") = secKey)
    (headers : HeaderMap) (date : List UInt8) :
    startLineRoom (handshakeResponse request headers date) +
      headersRoom (handshakeResponse request headers date).headers.entries ≤
        date.length + headersRoom headers.entries + 296 := by
  have haccept := headersRoom_insert upgradeHeaders (bytes "Sec-WebSocket-Accept")
    (secAccept secKey)
  have hroom := headersRoom_insertAll (responseHeaders secKey) headers.entries
  have hbase : headersRoom upgradeHeaders.entries = 97 := by decide
  have hnames : (bytes "Sec-WebSocket-Accept").length = 20 ∧ (bytes "Date").length = 4 ∧
      (bytes "Switching Protocols").length = 19 := by decide
  have hdated : headersRoom
      (dated ((responseHeaders secKey).insertAll headers.entries) date).entries ≤
        headersRoom ((responseHeaders secKey).insertAll headers.entries).entries +
          (32 + (bytes "Date").length + date.length) := by
    unfold dated
    split
    · exact headersRoom_insert _ _ _
    · exact Nat.le_add_right _ _
  have hlen := (secAccept_plain secKey).1
  rw [handshakeResponse_eq hkey]
  show 64 + (bytes "Switching Protocols").length + _ ≤ _
  unfold responseHeaders at hroom hdated ⊢
  dsimp only
  omega

theorem counted_response (hkey : request.getHeader (bytes "Sec-WebSocket-Key") = secKey)
    (h : LeavesHandshake headers) (hdate : PlainText date)
    (hsize : date.length + headersRoom headers.entries + 296 < 2 ^ 31) :
    Counted (handshakeResponse request headers date) :=
  counted_of_room (plain_response hkey h hdate).start.intCode
    ((response_room hkey headers date).trans_lt hsize)

end Response

end WebSocketProtocol

end Brickred
