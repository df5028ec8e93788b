import Brickred.Http.Padded
import Brickred.WebSocket.Headers
import Brickred.WebSocket.Output

/-!
# The handshake of two objects

A client and a server, each fed what the other puts out, in pieces and with anything behind it.

* `recvEach` — `recvMessage` called for each piece that arrives.
* `listens_recvEach` — an object that waits for a message waits for the last byte of it.
* `handshake_agreement` — both establish the connection, once, and leave what comes behind.
-/

set_option autoImplicit false

namespace Brickred

namespace WebSocketProtocol

open StringUtil HttpMessage HttpProtocol Codec

/-! ## Pieces -/

/-- A piece of the stream; what lies in memory behind the readable bytes once it has been appended
to them, and the time. -/
structure Arrival where
  bytes : List UInt8
  beyond : Nat → UInt8
  date : List UInt8

/-- What the calls return, and the object, the buffer and the output they leave. -/
structure Fed where
  codes : List RetCode
  self : WebSocketProtocol Handshake
  buffer : List UInt8
  output : List (List UInt8)

def recvEach (s : WebSocketProtocol Handshake) (buffer : List UInt8) : List Arrival → Option Fed
  | [] => some ⟨[], s, buffer, []⟩
  | arrival :: arrivals => do
    let r ← recvMessage (handlers arrival.beyond arrival.date)
      ((buffer ++ arrival.bytes).length + 1) s (buffer ++ arrival.bytes)
    let fed ← recvEach r.self r.buffer arrivals
    some { fed with codes := r.code :: fed.codes, output := r.output ++ fed.output }

/-- The object waits for this message, and is established with it; `output` depends on the
time. -/
structure Listens (s : WebSocketProtocol Handshake) (message : HttpMessage)
    (established : WebSocketProtocol Handshake) (output : List UInt8 → List (List UInt8)) :
    Prop where
  wait : ∀ {beyond date fuel self self' buffer rest},
    Receives beyond self buffer ⟨.waitingMoreData, self', rest⟩ →
      recvMessage (handlers beyond date) (fuel + 1) (s.setHttpProtocol self) buffer =
        some ⟨.waitingMoreData, s.setHttpProtocol self', rest, []⟩
  ready : ∀ {beyond date fuel self chunkBuffer buffer rest},
    Receives beyond self buffer ⟨.messageReady, .finished message chunkBuffer, rest⟩ →
      recvMessage (handlers beyond date) (fuel + 1) (s.setHttpProtocol self) buffer =
        some ⟨.connectionEstablished, established, rest, output date⟩

section Pieces

variable {s established : WebSocketProtocol Handshake} {message : HttpMessage}
  {output : List UInt8 → List (List UInt8)} {stream trailing : List UInt8}

/-- **Piece by piece**: the object waits until the last byte of the message has arrived. -/
theorem listens_recvEach (hs : Listens s message established output)
    (h : parser.Reads Heading reset [message] reset stream) :
    ∀ (arrivals : List Arrival) (p : List UInt8), p <+: stream → p.length < stream.length →
      p ++ arrivals.flatMap Arrival.bytes = stream ++ trailing →
      ∃ before last after rest, arrivals = before ++ last :: after ∧
        recvEach (s.setHttpProtocol (parser.settle reset p).2.1) (parser.settle reset p).2.2
            (before ++ [last]) =
          some ⟨List.replicate before.length .waitingMoreData ++ [.connectionEstablished],
            established, rest, output last.date⟩ ∧
        rest ++ after.flatMap Arrival.bytes = trailing
  | [], p, hp, hlt, hstream => by
    have hlen := congrArg List.length hstream
    rw [List.flatMap_nil, List.append_nil, List.length_append] at hlen
    omega
  | arrival :: arrivals, p, hp, hlt, hstream => by
    rw [List.flatMap_cons, ← List.append_assoc] at hstream
    rcases Nat.lt_or_ge (p ++ arrival.bytes).length stream.length with hshort | hlong
    · have hbegin : p ++ arrival.bytes <+: stream :=
        List.prefix_of_prefix_length_le ⟨_, hstream⟩ (List.prefix_append _ _) hshort.le
      obtain ⟨before, last, after, rest, harrivals, hfed, hrest⟩ :=
        listens_recvEach hs h arrivals (p ++ arrival.bytes) hbegin hshort hstream
      refine ⟨arrival :: before, last, after, rest, by rw [harrivals]; rfl, ?_, hrest⟩
      rw [List.cons_append, recvEach, hs.wait (receives_more h hbegin hshort)]
      simp only [bind, Option.bind_some, hfed]
      rfl
    · have hbegin : stream <+: p ++ arrival.bytes :=
        List.prefix_of_prefix_length_le (List.prefix_append _ _) ⟨_, hstream⟩ hlong
      obtain ⟨rest, hrest⟩ := hbegin
      obtain ⟨chunkBuffer, hr⟩ := receives_rest arrival.beyond h hp hlt hrest.symm
      refine ⟨[], arrival, arrivals, rest, rfl, ?_, ?_⟩
      · rw [List.nil_append, recvEach, hs.ready hr]
        simp only [bind, Option.bind_some, recvEach, List.append_nil]
        rfl
      · rw [← hrest, List.append_assoc] at hstream
        exact List.append_cancel_left hstream

end Pieces

/-! ## The two roles -/

section Handlers

variable {handlers : HandshakeHandlers Handshake} {s s' : WebSocketProtocol Handshake}
  {func : StatusHandler Handshake} {buffer rest : List UInt8}
  {output : List (List UInt8)}

/-- A handler that waits ends the call. -/
theorem recvMessage_wait (hfunc : statusHandler handlers s.status = some func)
    (hread : func s buffer = ⟨0, s', rest, output⟩) (fuel : Nat) :
    recvMessage handlers (fuel + 1) s buffer = some ⟨.waitingMoreData, s', rest, output⟩ := by
  rw [WebSocketProtocol.recvMessage, hfunc]
  dsimp only
  rw [hread]
  rfl

/-- A handler that is done with the handshake ends the call. -/
theorem recvMessage_return (hfunc : statusHandler handlers s.status = some func)
    (hread : func s buffer = ⟨2, s', rest, output⟩) (fuel : Nat) :
    recvMessage handlers (fuel + 1) s buffer = some ⟨s'.retCode, s', rest, output⟩ := by
  rw [WebSocketProtocol.recvMessage, hfunc]
  dsimp only
  rw [hread]
  rfl

end Handlers

/-- A message is retrieved from where it is finished. -/
theorem retrieve_some {self self' : HttpProtocol} {message : HttpMessage}
    (h : self.retrieveRequest = some (message, self') ∨
      self.retrieveResponse = some (message, self')) :
    ∃ chunkBuffer, self = .finished message chunkBuffer := by
  cases self with
  | finished m chunkBuffer =>
    obtain ⟨kind, version, headers, body⟩ := m
    refine ⟨chunkBuffer, ?_⟩
    cases kind <;> rcases h with h | h <;> cases h <;> rfl
  | _ => rcases h with h | h <;> cases h

section Roles

variable {s : WebSocketProtocol Handshake} {message : HttpMessage} {secKey : List UInt8}

/-- **A server** listens for a valid request, and puts out the response to it. -/
theorem listens_server (hstatus : s.status = .waitingHandshakeRequest)
    (hretrieve : ∀ chunkBuffer, (finished message chunkBuffer).retrieveRequest =
      some (message, reset))
    (hvalid : checkHandshakeRequestValid message = true) :
    Listens s message (s.setHttpProtocol reset).establish fun date =>
      HttpProtocol.sendMessage s.outputCb
        (handshakeResponse message s.http.handshakeHeaders date) := by
  have hfunc : ∀ (self : HttpProtocol) (beyond : Nat → UInt8) (date : List UInt8),
      statusHandler (handlers beyond date) (s.setHttpProtocol self).status =
        some (readHandshakeRequest beyond date) := by
    intro self beyond date
    rw [show (s.setHttpProtocol self).status = s.status from rfl, hstatus]
    rfl
  constructor
  · intro beyond date fuel self self' buffer rest hr
    have hread : readHandshakeRequest beyond date (s.setHttpProtocol self) buffer =
        ⟨0, s.setHttpProtocol self', rest, []⟩ := by
      unfold readHandshakeRequest
      rw [httpRecvMessage_eq.2 hr]
      rfl
    exact recvMessage_wait (hfunc self beyond date) hread fuel
  · intro beyond date fuel self chunkBuffer buffer rest hr
    have hread : readHandshakeRequest beyond date (s.setHttpProtocol self) buffer =
        ⟨2, (s.setHttpProtocol reset).establish, rest, HttpProtocol.sendMessage s.outputCb
          (handshakeResponse message s.http.handshakeHeaders date)⟩ := by
      unfold readHandshakeRequest
      rw [httpRecvMessage_eq.2 hr]
      dsimp only
      rw [hretrieve]
      dsimp only
      rw [hvalid, if_neg (by decide)]
      rfl
    exact recvMessage_return (hfunc _ beyond date) hread fuel

/-- **A client** listens for the response to its key, and puts nothing out. -/
theorem listens_client (hstatus : s.status = .waitingHandshakeResponse)
    (hkey : s.http.handshakeHeaders.find (bytes "Sec-WebSocket-Key") = some secKey)
    (hretrieve : ∀ chunkBuffer, (finished message chunkBuffer).retrieveResponse =
      some (message, reset))
    (hvalid : checkHandshakeResponseValid message secKey = true) :
    Listens s message
      ((s.setHttpProtocol reset).setHandshakeHeader (bytes "Sec-WebSocket-Key") secKey).establish
      fun _ => [] := by
  have hfunc : ∀ (self : HttpProtocol) (beyond : Nat → UInt8) (date : List UInt8),
      statusHandler (handlers beyond date) (s.setHttpProtocol self).status =
        some (readHandshakeResponse beyond) := by
    intro self beyond date
    rw [show (s.setHttpProtocol self).status = s.status from rfl, hstatus]
    rfl
  constructor
  · intro beyond date fuel self self' buffer rest hr
    have hread : readHandshakeResponse beyond (s.setHttpProtocol self) buffer =
        ⟨0, s.setHttpProtocol self', rest, []⟩ := by
      unfold readHandshakeResponse
      rw [httpRecvMessage_eq.2 hr]
      rfl
    exact recvMessage_wait (hfunc self beyond date) hread fuel
  · intro beyond date fuel self chunkBuffer buffer rest hr
    have hread : readHandshakeResponse beyond (s.setHttpProtocol self) buffer =
        ⟨2, ((s.setHttpProtocol reset).setHandshakeHeader (bytes "Sec-WebSocket-Key")
          secKey).establish, rest, []⟩ := by
      have hfind : (((s.setHttpProtocol self).setHttpProtocol
          (finished message chunkBuffer)).setHttpProtocol reset).http.handshakeHeaders.find
            (bytes "Sec-WebSocket-Key") = some secKey := hkey
      unfold readHandshakeResponse
      rw [httpRecvMessage_eq.2 hr]
      dsimp only
      rw [hretrieve]
      dsimp only
      rw [hfind, Option.getD_some, hvalid, if_neg (by decide)]
      rfl
    exact recvMessage_return (hfunc _ beyond date) hread fuel

/-- What a server's handler returns, and what it has read when it is done. -/
theorem readHandshakeRequest_done (beyond : Nat → UInt8) (date : List UInt8)
    (s : WebSocketProtocol Handshake) (buffer : List UInt8) :
    ((readHandshakeRequest beyond date s buffer).ret = 0 ∨
      (readHandshakeRequest beyond date s buffer).ret = -1 ∨
      (readHandshakeRequest beyond date s buffer).ret = 2) ∧
    ((readHandshakeRequest beyond date s buffer).ret = 2 → ∃ received chunkBuffer left,
      Receives beyond s.http.httpProtocol buffer
        ⟨.messageReady, .finished received chunkBuffer, left⟩ ∧
      checkHandshakeRequestValid received = true ∧
      (readHandshakeRequest beyond date s buffer).output = HttpProtocol.sendMessage s.outputCb
        (handshakeResponse received s.http.handshakeHeaders date)) := by
  obtain ⟨⟨code, self, left⟩, hcall⟩ : ∃ r, httpRecvMessage beyond s buffer = r := ⟨_, rfl⟩
  have hr := httpRecvMessage_eq.1 hcall
  have hzero : ∀ {p : Prop}, (0 : Int) = 2 → p := fun h => absurd h (by decide)
  have herror : ∀ {p : Prop}, (-1 : Int) = 2 → p := fun h => absurd h (by decide)
  unfold readHandshakeRequest
  rw [hcall]
  dsimp only
  cases code with
  | waitingMoreData => exact ⟨Or.inl rfl, hzero⟩
  | error => exact ⟨Or.inr (Or.inl rfl), herror⟩
  | messageReady =>
    dsimp only
    cases hretrieve : self.retrieveRequest with
    | none => exact ⟨Or.inr (Or.inl rfl), herror⟩
    | some retrieved =>
      obtain ⟨received, httpProtocol⟩ := retrieved
      obtain ⟨chunkBuffer, rfl⟩ := retrieve_some (Or.inl hretrieve)
      dsimp only
      by_cases hvalid : checkHandshakeRequestValid received = false
      · rw [if_pos hvalid]
        exact ⟨Or.inr (Or.inl rfl), herror⟩
      · rw [if_neg hvalid]
        exact ⟨Or.inr (Or.inr rfl), fun _ =>
          ⟨received, chunkBuffer, left, hr, Bool.eq_true_of_not_eq_false hvalid, rfl⟩⟩

/-- What a client's handler returns, and what it has read when it is done. -/
theorem readHandshakeResponse_done (beyond : Nat → UInt8) (s : WebSocketProtocol Handshake)
    (buffer : List UInt8) :
    ((readHandshakeResponse beyond s buffer).ret = 0 ∨
      (readHandshakeResponse beyond s buffer).ret = -1 ∨
      (readHandshakeResponse beyond s buffer).ret = 2) ∧
    ((readHandshakeResponse beyond s buffer).ret = 2 → ∃ received chunkBuffer left,
      Receives beyond s.http.httpProtocol buffer
        ⟨.messageReady, .finished received chunkBuffer, left⟩ ∧
      checkHandshakeResponseValid received
        ((s.http.handshakeHeaders.find (bytes "Sec-WebSocket-Key")).getD []) = true) := by
  obtain ⟨⟨code, self, left⟩, hcall⟩ : ∃ r, httpRecvMessage beyond s buffer = r := ⟨_, rfl⟩
  have hr := httpRecvMessage_eq.1 hcall
  have hzero : ∀ {p : Prop}, (0 : Int) = 2 → p := fun h => absurd h (by decide)
  have herror : ∀ {p : Prop}, (-1 : Int) = 2 → p := fun h => absurd h (by decide)
  unfold readHandshakeResponse
  rw [hcall]
  dsimp only
  cases code with
  | waitingMoreData => exact ⟨Or.inl rfl, hzero⟩
  | error => exact ⟨Or.inr (Or.inl rfl), herror⟩
  | messageReady =>
    dsimp only
    cases hretrieve : self.retrieveResponse with
    | none => exact ⟨Or.inr (Or.inl rfl), herror⟩
    | some retrieved =>
      obtain ⟨received, httpProtocol⟩ := retrieved
      obtain ⟨chunkBuffer, rfl⟩ := retrieve_some (Or.inr hretrieve)
      dsimp only
      split
      · exact ⟨Or.inr (Or.inl rfl), herror⟩
      · rename_i hvalid
        exact ⟨Or.inr (Or.inr rfl), fun _ =>
          ⟨received, chunkBuffer, left, hr, Bool.eq_true_of_not_eq_false hvalid⟩⟩

end Roles

/-! ## What the checks look at -/

/-- The fields the server looks at. -/
def requestNames : List (List UInt8) :=
  [bytes "Host", bytes "Upgrade", bytes "Connection", bytes "Sec-WebSocket-Key",
    bytes "Sec-WebSocket-Version"]

/-- The fields the client looks at. -/
def responseNames : List (List UInt8) :=
  [bytes "Upgrade", bytes "Connection", bytes "Sec-WebSocket-Accept"]

section Checks

variable {m m' : HttpMessage} {secKey : List UInt8}

theorem requestNames_heads : ∀ key ∈ requestNames, (rank key).head? ≠ some (charRank 0) := by decide

theorem responseNames_heads : ∀ key ∈ responseNames, (rank key).head? ≠ some (charRank 0) := by
  decide

theorem getHeader_congr {key : List UInt8} (h : m.headers.find key = m'.headers.find key) :
    m.getHeader key = m'.getHeader key := by
  unfold getHeader
  rw [h]

theorem checkHandshakeRequestValid_congr
    (h : ∀ key ∈ requestNames, m.headers.find key = m'.headers.find key) :
    checkHandshakeRequestValid m = checkHandshakeRequestValid m' := by
  have hget := fun key hkey => getHeader_congr (h key hkey)
  unfold checkHandshakeRequestValid hasHeader headerContain headerEqual
  rw [h _ (by decide), hget _ (by decide), hget (bytes "Connection") (by decide),
    hget (bytes "Sec-WebSocket-Key") (by decide), hget (bytes "Sec-WebSocket-Version") (by decide)]

theorem checkHandshakeResponseValid_congr (hkind : m.kind = m'.kind)
    (h : ∀ key ∈ responseNames, m.headers.find key = m'.headers.find key) :
    checkHandshakeResponseValid m secKey = checkHandshakeResponseValid m' secKey := by
  have hget := fun key hkey => getHeader_congr (h key hkey)
  unfold checkHandshakeResponseValid headerContain headerEqual getStatusCode
  rw [hkind, hget _ (by decide), hget (bytes "Connection") (by decide),
    hget (bytes "Sec-WebSocket-Accept") (by decide)]

theorem requestValid_iff : checkHandshakeRequestValid m = true ↔
    m.hasHeader (bytes "Host") = true ∧ m.headerContain (bytes "Upgrade") (bytes "websocket") = true ∧
      m.headerContain (bytes "Connection") (bytes "Upgrade") = true ∧
      (m.getHeader (bytes "Sec-WebSocket-Key")).length = 24 ∧
      m.headerEqual (bytes "Sec-WebSocket-Version") (bytes "13") = true := by
  unfold checkHandshakeRequestValid
  split_ifs <;> simp_all

theorem responseValid_iff : checkHandshakeResponseValid m secKey = true ↔
    getStatusCode m = 101 ∧ m.headerContain (bytes "Upgrade") (bytes "websocket") = true ∧
      m.headerContain (bytes "Connection") (bytes "Upgrade") = true ∧
      m.headerEqual (bytes "Sec-WebSocket-Accept") (secAccept secKey) = true := by
  unfold checkHandshakeResponseValid
  split_ifs <;> simp_all

/-- A field that is to contain something is there. -/
theorem find_of_contain {key value : List UInt8} (hvalue : contains [] (toLower value) = false)
    (h : m.headerContain key value = true) : m.headers.find key ≠ none := fun hnone => by
  unfold headerContain at h
  rw [HttpProtocol.getHeader_none hnone] at h
  exact absurd (h.symm.trans hvalue) (by decide)

/-- A field that is to be equal to something is there. -/
theorem find_of_equal {key value : List UInt8} (hvalue : value ≠ [])
    (h : m.headerEqual key value = true) : m.headers.find key ≠ none := fun hnone => by
  unfold headerEqual stricmp at h
  rw [HttpProtocol.getHeader_none hnone, decide_eq_true_eq] at h
  exact hvalue (List.map_eq_nil_iff.1 h.symm)

/-- A valid request has all the fields. -/
theorem find_of_requestValid (h : checkHandshakeRequestValid m = true) :
    ∀ key ∈ requestNames, m.headers.find key ≠ none := by
  obtain ⟨hhost, hupgrade, hconnection, hkey, hversion⟩ := requestValid_iff.1 h
  have hfindKey : m.headers.find (bytes "Sec-WebSocket-Key") ≠ none := fun hnone => by
    rw [HttpProtocol.getHeader_none hnone] at hkey
    exact absurd hkey (by decide)
  unfold requestNames
  simp only [List.forall_mem_cons, List.not_mem_nil, false_implies, implies_true, and_true]
  exact ⟨Option.isSome_iff_ne_none.1 hhost, find_of_contain (by decide) hupgrade,
    find_of_contain (by decide) hconnection, hfindKey, find_of_equal (by decide) hversion⟩

/-- A valid response has all the fields. -/
theorem find_of_responseValid (h : checkHandshakeResponseValid m secKey = true) :
    ∀ key ∈ responseNames, m.headers.find key ≠ none := by
  obtain ⟨_, hupgrade, hconnection, haccept⟩ := responseValid_iff.1 h
  have hne : secAccept secKey ≠ [] := fun hnil => by
    have hlen := (secAccept_plain secKey).1
    rw [hnil] at hlen
    exact absurd hlen (by decide)
  unfold responseNames
  simp only [List.forall_mem_cons, List.not_mem_nil, false_implies, implies_true, and_true]
  exact ⟨find_of_contain (by decide) hupgrade, find_of_contain (by decide) hconnection,
    find_of_equal hne haccept⟩

end Checks

/-! ## Agreement -/

/-- A text `strftime` can put into a `char[256]`. -/
structure DateText (date : List UInt8) : Prop where
  length_lt : date.length < 256
  plain : PlainText date

/-- The calls for the pieces wait, until one of them establishes the connection: this is the
output, what comes behind the handshake is left, and no later call establishes it again. -/
def Establishes (s : WebSocketProtocol Handshake) (arrivals : List Arrival)
    (trailing : List UInt8) (output : List (List UInt8)) : Prop :=
  ∃ before last after fed, arrivals = before ++ last :: after ∧
    recvEach s [] (before ++ [last]) = some fed ∧
    fed.codes = List.replicate before.length .waitingMoreData ++ [.connectionEstablished] ∧
    fed.output = output ∧ fed.self.status = .connected ∧
    fed.buffer ++ after.flatMap Arrival.bytes = trailing ∧
    ∀ ops, ∃ t calls, runCalls fed.self ops = some (t, calls) ∧
      ∀ c ∈ calls, c.code ≠ some .connectionEstablished

section Agreement

variable {s established : WebSocketProtocol Handshake} {message : HttpMessage}
  {output : List UInt8 → List (List UInt8)} {stream trailing : List UInt8}

variable {peerAddr : PeerAddress} {random : Fin 16 → UInt8} {requestUri : List UInt8}
  {extra : List (List UInt8 × List UInt8)}

/-- The object of a client that has sent its request. -/
def waitingClient (headers : HeaderMap) : WebSocketProtocol Handshake :=
  { new true with
    status := .waitingHandshakeResponse
    isClient := true
    http := ⟨reset, headers⟩ }

/-- The object of a server. -/
def waitingServer (headers : HeaderMap) : WebSocketProtocol Handshake :=
  { new true with
    status := .waitingHandshakeRequest
    http := ⟨reset, headers⟩ }

theorem startAsServer_eq (extra : List (List UInt8 × List UInt8)) :
    ((new true).withHeaders extra).startAsServer =
      ⟨true, waitingServer (SortedMap.empty.insertAll extra), []⟩ := by
  rw [withHeaders_eq]
  rfl

/-- The headers of a client: `setClientHeaders` adds the key and the host. -/
def offeredHeaders (peerAddr : PeerAddress) (random : Fin 16 → UInt8)
    (extra : List (List UInt8 × List UInt8)) : HeaderMap :=
  setMissing (setMissing (SortedMap.empty.insertAll extra) (bytes "Sec-WebSocket-Key")
      (base64Encode (List.ofFn random)))
    (bytes "Host") (peerAddr.ip ++ bytes ":" ++ StringUtil.toString peerAddr.port.toNat)

theorem ofFn_length_lt (random : Fin 16 → UInt8) : (List.ofFn random).length < 2 ^ 30 := by
  rw [List.length_ofFn]
  decide

theorem offered_leaves (random : Fin 16 → UInt8) (hip : PlainText peerAddr.ip)
    (hextra : ∀ header ∈ extra, ExtraHeader header) :
    LeavesHandshake (offeredHeaders peerAddr random extra) := by
  unfold offeredHeaders
  refine leavesHandshake_setMissing (leavesHandshake_setMissing (leavesHandshake_extra hextra)
    ?_ (base64Encode_plain (ofFn_length_lt random)).1 ?_) ?_ (host_plain hip) ?_ <;> decide

theorem find_offered_key (peerAddr : PeerAddress) (random : Fin 16 → UInt8)
    (hextra : ∀ header ∈ extra, ExtraHeader header) :
    (offeredHeaders peerAddr random extra).find (bytes "Sec-WebSocket-Key") =
      some (base64Encode (List.ofFn random)) := by
  unfold offeredHeaders
  rw [find_setMissing_of_ne (by decide),
    find_setMissing_of_none (find_extra hextra (Or.inr (by decide)))]

theorem find_offered_host (peerAddr : PeerAddress) (random : Fin 16 → UInt8)
    (extra : List (List UInt8 × List UInt8)) :
    ((offeredHeaders peerAddr random extra).find (bytes "Host")).isSome = true :=
  find_setMissing_isSome

theorem offered_room (peerAddr : PeerAddress) (random : Fin 16 → UInt8)
    (extra : List (List UInt8 × List UInt8)) :
    headersRoom (offeredHeaders peerAddr random extra).entries ≤
      headersRoom extra + peerAddr.ip.length + 200 := by
  have hkeylen := (base64Encode_spec (ofFn_length_lt random)).1
  rw [List.length_ofFn] at hkeylen
  have hport : (StringUtil.toString peerAddr.port.toNat).length ≤ 10 :=
    toString_length (lt_trans peerAddr.port.toNat_lt (by decide))
  have hsizes : (bytes "Sec-WebSocket-Key").length = 17 ∧ (bytes "Host").length = 4 ∧
      (bytes ":").length = 1 := by decide
  have hextraRoom := headersRoom_insertAll SortedMap.empty extra
  have hempty : headersRoom (SortedMap.empty : HeaderMap).entries = 0 := rfl
  have hkeyRoom := headersRoom_setMissing (SortedMap.empty.insertAll extra)
    (bytes "Sec-WebSocket-Key") (base64Encode (List.ofFn random))
  have hhostRoom := headersRoom_setMissing (setMissing (SortedMap.empty.insertAll extra)
    (bytes "Sec-WebSocket-Key") (base64Encode (List.ofFn random))) (bytes "Host")
    (peerAddr.ip ++ bytes ":" ++ StringUtil.toString peerAddr.port.toNat)
  rw [List.length_append, List.length_append] at hhostRoom
  unfold offeredHeaders
  omega

/-- **The request of a client.** -/
theorem startAsClient_request (peerAddr : PeerAddress) (random : Fin 16 → UInt8)
    (extra : List (List UInt8 × List UInt8))
    (huri : ∀ b ∈ ([32, 13, 10, 0] : List UInt8), b ∉ requestUri) :
    ((new true).withHeaders extra).startAsClient peerAddr random requestUri =
      ⟨true, waitingClient (offeredHeaders peerAddr random extra), HttpProtocol.sendMessage true
        (handshakeRequest requestUri (offeredHeaders peerAddr random extra))⟩ := by
  have hnul : cStr requestUri = requestUri := cStr_of_notMem (huri 0 (by decide))
  have hself : ({ (new true).withHeaders extra with
      status := .waitingHandshakeResponse
      isClient := true } : WebSocketProtocol Handshake).setClientHeaders peerAddr random =
        waitingClient (offeredHeaders peerAddr random extra) := by
    rw [setClientHeaders_eq, withHeaders_eq]
    rfl
  have hdetached : ((new true).withHeaders extra).status = .detached := by
    rw [withHeaders_eq]
    rfl
  unfold startAsClient
  rw [if_neg (not_not.2 hdetached)]
  dsimp only
  rw [hself, hnul]
  rfl

variable (random) in
/-- The request is put out in full where an `int` counts all of it. -/
theorem startAsClient_eq (huri : ∀ b ∈ ([32, 13, 10, 0] : List UInt8), b ∉ requestUri)
    (hip : PlainText peerAddr.ip) (hextra : ∀ header ∈ extra, ExtraHeader header)
    (hsize : requestUri.length + peerAddr.ip.length + headersRoom extra < 2 ^ 30) :
    ∃ headers, LeavesHandshake headers ∧
      headers.find (bytes "Sec-WebSocket-Key") = some (base64Encode (List.ofFn random)) ∧
      (headers.find (bytes "Host")).isSome = true ∧
      ((new true).withHeaders extra).startAsClient peerAddr random requestUri =
        ⟨true, waitingClient headers, [head (handshakeRequest requestUri headers)]⟩ := by
  have hleaves := offered_leaves random hip hextra
  have hroom := offered_room peerAddr random extra
  refine ⟨_, hleaves, find_offered_key peerAddr random hextra,
    find_offered_host peerAddr random extra, ?_⟩
  rw [startAsClient_request peerAddr random extra huri, sendMessage_request huri hleaves
    (counted_request huri hleaves (by omega)) (by omega)]

theorem listens_establishes (hs : Listens s message established output)
    (hself : s.setHttpProtocol reset = s) (hstatus : established.status = .connected)
    (h : parser.Reads Heading reset [message] reset stream) (hne : stream ≠ [])
    {arrivals : List Arrival} (hstream : arrivals.flatMap Arrival.bytes = stream ++ trailing) :
    ∃ last ∈ arrivals, Establishes s arrivals trailing (output last.date) := by
  obtain ⟨before, last, after, rest, harrivals, hfed, hrest⟩ :=
    listens_recvEach hs h arrivals [] List.nil_prefix (List.length_pos_of_ne_nil hne) hstream
  rw [parser.settle_wait (parser.empty reset), hself] at hfed
  refine ⟨last, ?_, before, last, after, _, harrivals, hfed, rfl, rfl, hstatus, hrest, ?_⟩
  · rw [harrivals]
    exact List.mem_append_right _ List.mem_cons_self
  · intro ops
    obtain ⟨t, calls, hrun, _, _, hcodes⟩ := session_run ops (Or.inl hstatus)
    exact ⟨t, calls, hrun, hcodes⟩

/-- A single piece. -/
theorem establishes_single {arrival : Arrival} {output : List (List UInt8)}
    (h : Establishes s [arrival] trailing output) :
    ∃ r, recvMessage (handlers arrival.beyond arrival.date) (arrival.bytes.length + 1) s
        arrival.bytes = some r ∧ r.code = .connectionEstablished ∧ r.output = output := by
  obtain ⟨before, last, after, fed, harrivals, hfed, hcodes, hout, _⟩ := h
  cases before with
  | nil =>
    obtain ⟨rfl, rfl⟩ := List.cons.inj harrivals
    obtain ⟨r, hr, hfed⟩ := Option.bind_eq_some_iff.1 hfed
    cases hfed
    exact ⟨r, hr, (List.cons.inj hcodes).1, (List.append_nil _).symm.trans hout⟩
  | cons first before =>
    have hrest := (List.cons.inj harrivals).2
    exact absurd hrest.symm (by simp)

/-- A handler of the handshake that establishes the connection is done with it. -/
theorem recvMessage_established {handlers : HandshakeHandlers Handshake} {buffer : List UInt8}
    {func : StatusHandler Handshake} {r : Received Handshake} {fuel : Nat}
    (hfunc : statusHandler handlers s.status = some func)
    (hret : (func s buffer).ret = 0 ∨ (func s buffer).ret = -1 ∨ (func s buffer).ret = 2)
    (hr : recvMessage handlers (fuel + 1) s buffer = some r)
    (hcode : r.code = .connectionEstablished) :
    (func s buffer).ret = 2 ∧ r.output = (func s buffer).output := by
  rw [WebSocketProtocol.recvMessage, hfunc] at hr
  dsimp only at hr
  rcases hret with hret | hret | hret <;> rw [hret] at hr <;> cases hr
  · cases hcode
  · cases hcode
  · exact ⟨hret, rfl⟩

/-- **A server** that establishes the connection has read a valid request. -/
theorem establishes_server {headers : HeaderMap} {arrival : Arrival} {output : List (List UInt8)}
    (h : Establishes (waitingServer headers) [arrival] trailing output) :
    ∃ received chunkBuffer left, Receives arrival.beyond reset arrival.bytes
        ⟨.messageReady, .finished received chunkBuffer, left⟩ ∧
      checkHandshakeRequestValid received = true ∧
      output = HttpProtocol.sendMessage true (handshakeResponse received headers arrival.date) := by
  obtain ⟨r, hr, hcode, rfl⟩ := establishes_single h
  obtain ⟨hret, hcases⟩ := readHandshakeRequest_done arrival.beyond arrival.date
    (waitingServer headers) arrival.bytes
  obtain ⟨hdone, hout⟩ := recvMessage_established rfl hret hr hcode
  rw [hout]
  exact hcases hdone

/-- **A client** that establishes the connection has read a valid response to its key. -/
theorem establishes_client {headers : HeaderMap} {arrival : Arrival} {output : List (List UInt8)}
    {secKey : List UInt8} (hkey : headers.find (bytes "Sec-WebSocket-Key") = some secKey)
    (h : Establishes (waitingClient headers) [arrival] trailing output) :
    ∃ received chunkBuffer left, Receives arrival.beyond reset arrival.bytes
        ⟨.messageReady, .finished received chunkBuffer, left⟩ ∧
      checkHandshakeResponseValid received secKey = true := by
  obtain ⟨r, hr, hcode, _⟩ := establishes_single h
  obtain ⟨hret, hcases⟩ := readHandshakeResponse_done arrival.beyond (waitingClient headers)
    arrival.bytes
  obtain ⟨hdone, _⟩ := recvMessage_established rfl hret hr hcode
  obtain ⟨received, chunkBuffer, left, hr, hvalid⟩ := hcases hdone
  have hfind : (waitingClient headers).http.handshakeHeaders.find (bytes "Sec-WebSocket-Key") =
      some secKey := hkey
  rw [hfind] at hvalid
  exact ⟨received, chunkBuffer, left, hr, hvalid⟩

/-- The request of a client with these headers. -/
def clientRequest (peerAddr : PeerAddress) (random : Fin 16 → UInt8) (requestUri : List UInt8)
    (clientHeaders : List (List UInt8 × List UInt8)) : HttpMessage :=
  handshakeRequest requestUri (offeredHeaders peerAddr random clientHeaders)

/-- The response to it of a server with these headers, at this time. -/
def serverResponse (request : HttpMessage) (serverHeaders : List (List UInt8 × List UInt8))
    (date : List UInt8) : HttpMessage :=
  handshakeResponse request (SortedMap.empty.insertAll serverHeaders) date

/-- **The two agree**: however the streams are cut and whatever follows in them, the server
establishes the connection with the request of the client, and the client with the response. -/
def HandshakeAgrees (peerAddr : PeerAddress) (random : Fin 16 → UInt8) (requestUri : List UInt8)
    (clientHeaders serverHeaders : List (List UInt8 × List UInt8)) : Prop :=
  ∃ request client server,
    ((new true).withHeaders clientHeaders).startAsClient peerAddr random requestUri =
      ⟨true, client, [request]⟩ ∧
    ((new true).withHeaders serverHeaders).startAsServer = ⟨true, server, []⟩ ∧
    ∀ arrivals trailing, (∀ arrival ∈ arrivals, DateText arrival.date) →
      arrivals.flatMap Arrival.bytes = request ++ trailing →
      ∃ response, Establishes server arrivals trailing [response] ∧
        ∀ arrivals' trailing', arrivals'.flatMap Arrival.bytes = response ++ trailing' →
          Establishes client arrivals' trailing' []

/-- A message of the handshake, that is read without a body. -/
structure UpgradeMessage (message : HttpMessage) : Prop where
  plain : Plain message
  find_eq : ∀ key ∈ reservedNames, message.headers.find key = upgradeHeaders.find key

section Padded

variable {front back : Nat} {lines : List (List UInt8 × List UInt8)} {received : HttpMessage}
  {chunkBuffer : Option (List UInt8)} {left : List UInt8} {beyond : Nat → UInt8}

theorem UpgradeMessage.entries_ne_nil (hm : UpgradeMessage message) :
    message.headers.entries ≠ [] := by
  intro hnil
  have hfind := (hm.find_eq _ (by decide)).trans find_upgradeHeaders.1
  rw [SortedMap.eq_of_entries (show message.headers.entries = SortedMap.empty.entries from hnil),
    SortedMap.find_empty] at hfind
  cases hfind

theorem UpgradeMessage.reads (hm : UpgradeMessage message)
    (h : PaddedHead message front lines 0) :
    parser.Reads Heading reset [readOf message lines] reset (paddedText message lines 0) :=
  reads_padded hm.plain hm.entries_ne_nil
    ((hm.find_eq _ (by decide)).trans find_upgradeHeaders.2.2.1)
    ((hm.find_eq _ (by decide)).trans find_upgradeHeaders.2.2.2) h

theorem UpgradeMessage.ready (hm : UpgradeMessage message)
    (h : PaddedHead message front lines back)
    (hr : Receives beyond reset (paddedText message lines back)
      ⟨.messageReady, .finished received chunkBuffer, left⟩) :
    back = 0 ∧ received = readOf message lines :=
  ready_padded hm.plain hm.entries_ne_nil
    ((hm.find_eq _ (by decide)).trans find_upgradeHeaders.2.2.1)
    ((hm.find_eq _ (by decide)).trans find_upgradeHeaders.2.2.2) h hr

theorem paddedText_ne_nil (message : HttpMessage) (lines : List (List UInt8 × List UInt8))
    (back : Nat) : paddedText message lines back ≠ [] := by
  intro hnil
  have hcrlf := (List.append_eq_nil_iff.1 (List.append_eq_nil_iff.1 hnil).1).2
  exact absurd hcrlf (by decide)

end Padded

section Sides

variable {clientHeaders serverHeaders : List (List UInt8 × List UInt8)} {date : List UInt8}
  (huri : ∀ b ∈ ([32, 13, 10, 0] : List UInt8), b ∉ requestUri) (hip : PlainText peerAddr.ip)
  (hclient : ∀ header ∈ clientHeaders, ExtraHeader header)
  (hserver : ∀ header ∈ serverHeaders, ExtraHeader header)

variable (random) in
include huri hip hclient in
theorem upgrade_request : UpgradeMessage (clientRequest peerAddr random requestUri clientHeaders) :=
  have hleaves := offered_leaves random hip hclient
  ⟨plain_request huri hleaves, find_request_of_ne hleaves⟩

variable (requestUri) in
include hclient in
/-- The key of the request. -/
theorem getHeader_request :
    (clientRequest peerAddr random requestUri clientHeaders).getHeader (bytes "Sec-WebSocket-Key") =
      base64Encode (List.ofFn random) := by
  unfold clientRequest getHeader
  rw [handshakeRequest_eq]
  dsimp only
  rw [SortedMap.find_merge, find_offered_key peerAddr random hclient, Option.some_or,
    Option.getD_some]

include hserver in
theorem upgrade_response {request : HttpMessage} {secKey : List UInt8}
    (hkey : request.getHeader (bytes "Sec-WebSocket-Key") = secKey) (hdate : DateText date) :
    UpgradeMessage (serverResponse request serverHeaders date) :=
  have hleaves := leavesHandshake_extra hserver
  ⟨plain_response hkey hleaves hdate.plain, find_response_of_ne hkey hleaves⟩

variable (serverHeaders date) in
/-- The response goes by the key of the request. -/
theorem serverResponse_congr {request request' : HttpMessage}
    (h : request.getHeader (bytes "Sec-WebSocket-Key") =
      request'.getHeader (bytes "Sec-WebSocket-Key")) :
    serverResponse request serverHeaders date = serverResponse request' serverHeaders date := by
  unfold serverResponse handshakeResponse
  rw [h]

variable (random) in
include huri hip hclient in
/-- The request as it is put out. -/
theorem request_padded
    (hsize : requestUri.length + peerAddr.ip.length + headersRoom clientHeaders < 2 ^ 60) :
    ∃ front lines back,
      PaddedHead (clientRequest peerAddr random requestUri clientHeaders) front lines back ∧
      ((new true).withHeaders clientHeaders).startAsClient peerAddr random requestUri =
        ⟨true, waitingClient (offeredHeaders peerAddr random clientHeaders),
          [paddedText (clientRequest peerAddr random requestUri clientHeaders) lines back]⟩ := by
  have hupgrade := upgrade_request random huri hip hclient
  have hroom := request_room requestUri (offeredHeaders peerAddr random clientHeaders)
  have hoffered := offered_room peerAddr random clientHeaders
  obtain ⟨front, lines, back, hlines, hsend⟩ := sendMessage_padded hupgrade.plain
    (by unfold clientRequest; rw [handshakeRequest_eq]) (by unfold clientRequest; omega)
  refine ⟨front, lines, back, hlines, ?_⟩
  rw [startAsClient_request peerAddr random clientHeaders huri]
  exact congrArg _ hsend

include hserver in
/-- The response as it is put out. -/
theorem response_padded {request : HttpMessage} {secKey : List UInt8}
    (hkey : request.getHeader (bytes "Sec-WebSocket-Key") = secKey) (hdate : DateText date)
    (hsize : headersRoom serverHeaders < 2 ^ 60) :
    ∃ front lines back, PaddedHead (serverResponse request serverHeaders date) front lines back ∧
      HttpProtocol.sendMessage true (serverResponse request serverHeaders date) =
        [paddedText (serverResponse request serverHeaders date) lines back] := by
  have hroom := response_room hkey (SortedMap.empty.insertAll serverHeaders) date
  have hextra := headersRoom_insertAll SortedMap.empty serverHeaders
  have hempty : headersRoom (SortedMap.empty : HeaderMap).entries = 0 := rfl
  have hlen := hdate.length_lt
  exact sendMessage_padded (upgrade_response hserver hkey hdate).plain
    (by unfold serverResponse; rw [handshakeResponse_eq hkey]) (by unfold serverResponse; omega)

include hclient in
/-- The key that is read. -/
theorem getHeader_readOf {front back : Nat} {lines : List (List UInt8 × List UInt8)}
    (h : PaddedHead (clientRequest peerAddr random requestUri clientHeaders) front lines back)
    (hkeeps : KeepsFields requestNames (clientRequest peerAddr random requestUri clientHeaders)) :
    (readOf (clientRequest peerAddr random requestUri clientHeaders) lines).getHeader
      (bytes "Sec-WebSocket-Key") = base64Encode (List.ofFn random) := by
  rw [getHeader_congr (find_readOf (by decide) (by decide) h hkeeps)]
  exact getHeader_secKey requestUri (find_offered_key peerAddr random hclient)
    (base64Encode_plain (ofFn_length_lt random)).2

include hip hclient in
/-- A request that keeps its fields is valid as it is read. -/
theorem requestValid_readOf {front back : Nat} {lines : List (List UInt8 × List UInt8)}
    (h : PaddedHead (clientRequest peerAddr random requestUri clientHeaders) front lines back)
    (hkeeps : KeepsFields requestNames (clientRequest peerAddr random requestUri clientHeaders)) :
    checkHandshakeRequestValid
      (readOf (clientRequest peerAddr random requestUri clientHeaders) lines) = true := by
  have hlen : (base64Encode (List.ofFn random)).length = 24 := by
    rw [(base64Encode_spec (ofFn_length_lt random)).1, List.length_ofFn]
  have hfields := fun key hmem => find_readOf (requestNames_heads key hmem) hmem h hkeeps
  exact (checkHandshakeRequestValid_congr hfields).trans
    (request_valid (offered_leaves random hip hclient) (find_offered_key peerAddr random hclient)
      (base64Encode_plain (ofFn_length_lt random)).2 hlen
      (find_offered_host peerAddr random clientHeaders))

include hserver in
/-- And so is a response. -/
theorem responseValid_readOf {request : HttpMessage} {secKey : List UInt8} {front back : Nat}
    {lines : List (List UInt8 × List UInt8)}
    (hkey : request.getHeader (bytes "Sec-WebSocket-Key") = secKey)
    (h : PaddedHead (serverResponse request serverHeaders date) front lines back)
    (hkeeps : KeepsFields responseNames (serverResponse request serverHeaders date)) :
    checkHandshakeResponseValid (readOf (serverResponse request serverHeaders date) lines) secKey =
      true := by
  have hfields := fun key hmem => find_readOf (responseNames_heads key hmem) hmem h hkeeps
  have hkind : (readOf (serverResponse request serverHeaders date) lines).kind =
      (readBack (serverResponse request serverHeaders date)).kind := rfl
  exact (checkHandshakeResponseValid_congr hkind hfields).trans
    (response_valid hkey (leavesHandshake_extra hserver))

variable (hsize : requestUri.length + peerAddr.ip.length + headersRoom clientHeaders < 2 ^ 60)
  (hsize' : headersRoom serverHeaders < 2 ^ 60)

include huri hip hclient hserver hsize hsize' in
/-- **Two that agree** read the fields they look at. -/
theorem keeps_of_agrees
    (h : HandshakeAgrees peerAddr random requestUri clientHeaders serverHeaders)
    (hdate : DateText date) :
    KeepsFields requestNames (clientRequest peerAddr random requestUri clientHeaders) ∧
      KeepsFields responseNames (serverResponse
        (clientRequest peerAddr random requestUri clientHeaders) serverHeaders date) := by
  obtain ⟨request, client, server, hstart, hstart', hall⟩ := h
  obtain ⟨front, lines, back, hlines, hput⟩ := request_padded random huri hip hclient hsize
  cases hput.symm.trans hstart
  cases (startAsServer_eq serverHeaders).symm.trans hstart'
  have hupgrade := upgrade_request random huri hip hclient
  have hkey := @getHeader_request peerAddr random requestUri clientHeaders hclient
  -- the request in one piece
  obtain ⟨response, hserves, hclients⟩ := hall [⟨paddedText _ lines back, fun _ => 0, date⟩] []
    (List.forall_mem_singleton.2 hdate) rfl
  obtain ⟨received, chunkBuffer, left, hr, hvalid, hout⟩ := establishes_server hserves
  obtain ⟨hback, rfl⟩ := hupgrade.ready hlines hr
  have hkeeps := keeps_of_find requestNames_heads hlines hback (find_of_requestValid hvalid)
  refine ⟨hkeeps, ?_⟩
  -- and the response
  obtain ⟨front', lines', back', hlines', hput'⟩ := response_padded hserver hkey hdate hsize'
  have hsame := serverResponse_congr serverHeaders date
    ((getHeader_readOf hclient hlines hkeeps).trans hkey.symm)
  have hresponse : response = paddedText (serverResponse
      (clientRequest peerAddr random requestUri clientHeaders) serverHeaders date) lines' back' :=
    (List.cons.inj (hout.trans ((congrArg _ hsame).trans hput'))).1
  obtain ⟨received', chunkBuffer', left', hr', hvalid'⟩ :=
    establishes_client (find_offered_key peerAddr random hclient)
      (hclients [⟨response, fun _ => 0, []⟩] [] rfl)
  rw [hresponse] at hr'
  obtain ⟨hback', rfl⟩ := (upgrade_response hserver hkey hdate).ready hlines' hr'
  exact keeps_of_find responseNames_heads hlines' hback' (find_of_responseValid hvalid')

include huri hip hclient hserver hsize hsize' in
/-- Two that read the fields they look at agree. -/
theorem agrees_of_keeps
    (hrequest : KeepsFields requestNames
      (clientRequest peerAddr random requestUri clientHeaders))
    (hresponse : ∀ date, DateText date → KeepsFields responseNames (serverResponse
      (clientRequest peerAddr random requestUri clientHeaders) serverHeaders date)) :
    HandshakeAgrees peerAddr random requestUri clientHeaders serverHeaders := by
  obtain ⟨front, lines, back, hlines, hput⟩ := request_padded random huri hip hclient hsize
  have hupgrade := upgrade_request random huri hip hclient
  have hkey := @getHeader_request peerAddr random requestUri clientHeaders hclient
  have hback := keeps_back hlines hrequest
  subst hback
  refine ⟨_, _, _, hput, startAsServer_eq serverHeaders, fun arrivals trailing hdates hstream => ?_⟩
  have hlistens : Listens (waitingServer (SortedMap.empty.insertAll serverHeaders))
      (readOf (clientRequest peerAddr random requestUri clientHeaders) lines) _ _ :=
    listens_server rfl (fun chunkBuffer => by unfold clientRequest; rw [handshakeRequest_eq]; rfl)
      (requestValid_readOf hip hclient hlines hrequest)
  obtain ⟨last, hlast, hestablishes⟩ := listens_establishes hlistens rfl rfl
    (hupgrade.reads hlines) (paddedText_ne_nil _ _ _) hstream
  have hdate := hdates last hlast
  obtain ⟨front', lines', back', hlines', hput'⟩ := response_padded hserver hkey hdate hsize'
  have hback' := keeps_back hlines' (hresponse last.date hdate)
  subst hback'
  have hsame := serverResponse_congr serverHeaders last.date
    ((getHeader_readOf hclient hlines hrequest).trans hkey.symm)
  refine ⟨_, ((congrArg (HttpProtocol.sendMessage true) hsame).trans hput') ▸ hestablishes, ?_⟩
  intro arrivals' trailing' hstream'
  have hlistens' : Listens (waitingClient (offeredHeaders peerAddr random clientHeaders))
      (readOf (serverResponse (clientRequest peerAddr random requestUri clientHeaders)
        serverHeaders last.date) lines') _ _ :=
    listens_client rfl (find_offered_key peerAddr random hclient)
      (fun chunkBuffer => by unfold serverResponse; rw [handshakeResponse_eq hkey]; rfl)
      (responseValid_readOf hserver hkey hlines' (hresponse last.date hdate))
  obtain ⟨_, _, hestablishes'⟩ := listens_establishes hlistens' rfl rfl
    ((upgrade_response hserver hkey hdate).reads hlines') (paddedText_ne_nil _ _ _) hstream'
  exact hestablishes'

end Sides

/-- **Handshake agreement.**  The two agree just when both sides read the fields they look at:
neither such a field nor the end of the head stands behind a line that no `int` counts. -/
theorem handshake_agreement_iff (peerAddr : PeerAddress) (random : Fin 16 → UInt8)
    (requestUri : List UInt8) (clientHeaders serverHeaders : List (List UInt8 × List UInt8))
    (huri : ∀ b ∈ ([32, 13, 10, 0] : List UInt8), b ∉ requestUri)
    (hip : PlainText peerAddr.ip)
    (hclient : ∀ header ∈ clientHeaders, ExtraHeader header)
    (hserver : ∀ header ∈ serverHeaders, ExtraHeader header)
    (hsize : requestUri.length + peerAddr.ip.length + headersRoom clientHeaders < 2 ^ 60)
    (hsize' : headersRoom serverHeaders < 2 ^ 60) :
    HandshakeAgrees peerAddr random requestUri clientHeaders serverHeaders ↔
      KeepsFields requestNames (clientRequest peerAddr random requestUri clientHeaders) ∧
        ∀ date, DateText date → KeepsFields responseNames (serverResponse
          (clientRequest peerAddr random requestUri clientHeaders) serverHeaders date) := by
  have hnone : DateText [] := ⟨by decide, by decide⟩
  constructor
  · intro h
    have hkeeps := fun date (hdate : DateText date) =>
      keeps_of_agrees huri hip hclient hserver hsize hsize' h hdate
    exact ⟨(hkeeps [] hnone).1, fun date hdate => (hkeeps date hdate).2⟩
  · rintro ⟨hrequest, hresponse⟩
    exact agrees_of_keeps huri hip hclient hserver hsize hsize' hrequest hresponse

/-- A client that names its origin, and a server that dates its response. -/
def origin : List (List UInt8 × List UInt8) := [(bytes "Origin", bytes "null")]

def served : List (List UInt8 × List UInt8) :=
  [(bytes "Date", []), (bytes "Server", bytes "brickred")]

theorem origin_extra : ∀ header ∈ origin, ExtraHeader header := by
  intro header hmem
  rw [List.mem_singleton.1 hmem]
  exact ⟨⟨by decide, by decide, by decide, by decide⟩, by decide, by decide⟩

theorem served_extra : ∀ header ∈ served, ExtraHeader header := by
  intro header hmem
  simp only [served, List.mem_cons, List.not_mem_nil, or_false] at hmem
  rcases hmem with rfl | rfl
  all_goals exact ⟨⟨by decide, by decide, by decide, by decide⟩, by decide, by decide⟩

theorem origin_agreement :
    HandshakeAgrees ⟨bytes "127.0.0.1", 80⟩ (fun _ => 7) (bytes "/chat") origin served := by
  have huri : ∀ b ∈ ([32, 13, 10, 0] : List UInt8), b ∉ bytes "/chat" := by decide
  have hip : PlainText (⟨bytes "127.0.0.1", 80⟩ : PeerAddress).ip := by decide
  have hrequest := offered_leaves (fun _ => 7) hip origin_extra
  have hkey := @getHeader_request ⟨bytes "127.0.0.1", 80⟩ (fun _ => 7) (bytes "/chat") origin
    origin_extra
  refine (handshake_agreement_iff _ _ _ origin served huri hip origin_extra served_extra (by decide)
    (by decide)).2 ⟨keeps_of_counted (counted_request huri hrequest ?_) _, fun date hdate =>
      keeps_of_counted (counted_response hkey (leavesHandshake_extra served_extra) hdate.plain ?_) _⟩
  · decide
  · have hroom : headersRoom (SortedMap.empty.insertAll served : HeaderMap).entries < 2 ^ 30 := by
      decide
    have hlen := hdate.length_lt
    omega

section Long

variable {n : Nat}

/-- The URI of a client without headers of its own. -/
def longUri (n : Nat) : List UInt8 := List.replicate n 97

theorem longUri_plain (n : Nat) : ∀ b ∈ ([32, 13, 10, 0] : List UInt8), b ∉ longUri n :=
  fun b hb hmem => absurd ((List.mem_replicate.1 hmem).2 ▸ hb) (by decide)

/-- The NULs behind the start line then stand in front of `Connection`. -/
theorem longUri_disagrees (hlow : 2 ^ 31 ≤ n) (hhigh : n < 2 ^ 59) :
    ¬ HandshakeAgrees ⟨bytes "127.0.0.1", 80⟩ (fun _ => 7) (longUri n) [] [] := by
  intro h
  have hlen : (longUri n).length = n := List.length_replicate
  have hip : PlainText (⟨bytes "127.0.0.1", 80⟩ : PeerAddress).ip := by decide
  have hroom : (bytes "127.0.0.1").length + headersRoom [] < 2 ^ 10 := by decide
  have hnone : ∀ header ∈ ([] : List (List UInt8 × List UInt8)), ExtraHeader header :=
    fun header hmem => absurd hmem List.not_mem_nil
  have hkeeps := (keeps_of_agrees (longUri_plain n) hip hnone hnone (by rw [hlen]; dsimp only; omega)
    (by decide) h (show DateText [] from ⟨by decide, by decide⟩)).1
  have hfirst : (requestHeaders.insertAll (offeredHeaders ⟨bytes "127.0.0.1", 80⟩ (fun _ => 7)
      []).entries).entries.head? = some (bytes "Connection", bytes "Upgrade") := by decide
  obtain ⟨rest, hrest⟩ := List.head?_eq_some_iff.1 hfirst
  unfold KeepsFields clientRequest at hkeeps
  rw [handshakeRequest_eq] at hkeeps
  dsimp only at hkeeps
  rw [hrest] at hkeeps
  rcases hkeeps.1 with hlength | hdisturbed
  · simp only [startLine, List.length_append, hlen] at hlength
    omega
  · exact hdisturbed (bytes "Connection") (by decide) rfl

/-- A client whose request line has 2^31 + 15 bytes. -/
theorem long_uri_disagrees :
    (∀ b ∈ ([32, 13, 10, 0] : List UInt8), b ∉ longUri (2 ^ 31)) ∧
      ¬ HandshakeAgrees ⟨bytes "127.0.0.1", 80⟩ (fun _ => 7) (longUri (2 ^ 31)) [] [] :=
  ⟨longUri_plain _, longUri_disagrees le_rfl (by norm_num)⟩

end Long

end Agreement

end WebSocketProtocol

end Brickred
