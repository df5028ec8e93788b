import Brickred.Http.Arrivals
import Brickred.Http.Head
import Brickred.WebSocket.Headers

/-!
# The proof of the server

* `outcome_ready` — a client that has received a response is connected when the checks pass, and in
  error when they do not.
* `only_proof_iff` — so another value than the proof is refused, unless it differs from it only in
  what `stricmp` ignores, or behind a NUL.
-/

set_option autoImplicit false

namespace Brickred

namespace WebSocketProtocol

open StringUtil HttpMessage HttpProtocol

def acceptName : List UInt8 := bytes "Sec-WebSocket-Accept"

/-- The state a call of `recvMessage` leaves. -/
def outcome (beyond : Nat → UInt8) (date : List UInt8) (fuel : Nat)
    (s : WebSocketProtocol Handshake) (buffer : List UInt8) : Option Status :=
  (recvMessage (handlers beyond date) (fuel + 1) s buffer).map fun r => r.self.status

/-- Only status 101 with the proof connects, and everything else is an error. -/
def OnlyProof (outcome : Option Status) (statusCode : Int) (value proof : List UInt8) : Prop :=
  (outcome = some .connected → statusCode = 101 ∧ value = proof) ∧
    (¬ (statusCode = 101 ∧ value = proof) → outcome = some .pendingError)

/-- The response passes all checks though its value is not the proof; `kept` is what the parser
keeps of the value. -/
def Lenient (response : HttpMessage) (kept value proof : List UInt8) : Prop :=
  getStatusCode response = 101 ∧
    response.headerContain (bytes "Upgrade") (bytes "websocket") = true ∧
    response.headerContain (bytes "Connection") (bytes "Upgrade") = true ∧
    kept.map tolower = proof.map tolower ∧ value ≠ proof

/-- What the line with the accept value says, before it is trimmed. -/
def acceptLine (stream : List UInt8) : List UInt8 :=
  (lastField acceptName (headLines stream)).getD []

section Response

variable {beyond : Nat → UInt8} {s : WebSocketProtocol Handshake}
  {buffer left requestUri key value : List UInt8} {response : HttpMessage}
  {chunkBuffer : Option (List UInt8)}

theorem checkHandshakeResponseValid_iff :
    checkHandshakeResponseValid response key = true ↔
      getStatusCode response = 101 ∧
        response.headerContain (bytes "Upgrade") (bytes "websocket") = true ∧
        response.headerContain (bytes "Connection") (bytes "Upgrade") = true ∧
        (response.getHeader acceptName).map tolower = (secAccept key).map tolower := by
  have hequal : response.headerEqual (bytes "Sec-WebSocket-Accept") (secAccept key) = true ↔
      (response.getHeader acceptName).map tolower = (secAccept key).map tolower :=
    decide_eq_true_iff
  rw [← hequal]
  unfold checkHandshakeResponseValid
  split
  · rename_i hcode
    exact ⟨fun h => (Bool.false_ne_true h).elim, fun h => absurd h.1 hcode⟩
  split
  · rename_i hupgrade
    rw [hupgrade]
    exact ⟨fun h => (Bool.false_ne_true h).elim, fun h => h.2.1⟩
  split
  · rename_i hconnection
    rw [hconnection]
    exact ⟨fun h => (Bool.false_ne_true h).elim, fun h => h.2.2.1⟩
  split
  · rename_i haccept
    rw [haccept]
    exact ⟨fun h => (Bool.false_ne_true h).elim, fun h => h.2.2.2⟩
  · rename_i hcode hupgrade hconnection haccept
    exact ⟨fun _ => ⟨not_ne_iff.1 hcode, Bool.of_not_eq_false hupgrade,
      Bool.of_not_eq_false hconnection, Bool.of_not_eq_false haccept⟩, fun _ => rfl⟩

/-- The key that is sent is the one the response is checked against. -/
theorem getHeader_handshakeRequest (requestUri : List UInt8) (headers : HeaderMap) :
    (handshakeRequest requestUri headers).getHeader (bytes "Sec-WebSocket-Key") =
      (headers.find (bytes "Sec-WebSocket-Key")).getD [] := by
  have hnone : requestHeaders.find (bytes "Sec-WebSocket-Key") = none := by decide
  unfold HttpMessage.getHeader
  rw [handshakeRequest_eq]
  dsimp only
  rw [SortedMap.find_merge, hnone, Option.or_none]

/-- A response is retrieved, a request is not. -/
theorem retrieveResponse_finished (response : HttpMessage)
    (chunkBuffer : Option (List UInt8)) :
    (finished response chunkBuffer).retrieveResponse = some (response, reset) ∨
      (finished response chunkBuffer).retrieveResponse = none ∧ getStatusCode response = 0 := by
  obtain ⟨kind, version, headers, body⟩ := response
  cases kind with
  | request method requestUri => exact Or.inr ⟨rfl, rfl⟩
  | response statusCode reasonPhrase => exact Or.inl rfl

/-- The handler, when the response has been received: with 2 the client is connected. -/
theorem readHandshakeResponse_ready
    (hkey : (s.http.handshakeHeaders.find (bytes "Sec-WebSocket-Key")).getD [] = key)
    (hr : Receives beyond s.http.httpProtocol buffer
      ⟨.messageReady, .finished response chunkBuffer, left⟩) :
    ∃ s', readHandshakeResponse beyond s buffer = ⟨-1, s', left, []⟩ ∧
        checkHandshakeResponseValid response key = false ∨
      readHandshakeResponse beyond s buffer = ⟨2, s'.establish, left, []⟩ ∧
        checkHandshakeResponseValid response key = true := by
  unfold readHandshakeResponse
  rw [httpRecvMessage_eq.2 hr]
  dsimp only
  rcases retrieveResponse_finished response chunkBuffer with hretrieve | ⟨hretrieve, hcode⟩
  · have hfind : (((s.setHttpProtocol (finished response chunkBuffer)).setHttpProtocol
        reset).http.handshakeHeaders.find (bytes "Sec-WebSocket-Key")).getD [] = key := hkey
    rw [hretrieve]
    dsimp only
    rw [hfind]
    cases hvalid : checkHandshakeResponseValid response key with
    | false => exact ⟨_, Or.inl ⟨if_pos rfl, rfl⟩⟩
    | true => exact ⟨_, Or.inr ⟨if_neg (by decide), rfl⟩⟩
  · rw [hretrieve]
    refine ⟨_, Or.inl ⟨rfl, ?_⟩⟩
    unfold checkHandshakeResponseValid
    rw [if_pos (by rw [hcode]; decide)]

/-- **A response that has been received** connects the client or is an error. -/
theorem outcome_ready (hstatus : s.status = .waitingHandshakeResponse)
    (hkey : (handshakeRequest requestUri s.http.handshakeHeaders).getHeader
      (bytes "Sec-WebSocket-Key") = key)
    (hr : Receives beyond s.http.httpProtocol buffer
      ⟨.messageReady, .finished response chunkBuffer, left⟩) (date : List UInt8) (fuel : Nat) :
    outcome beyond date fuel s buffer = some
      (if checkHandshakeResponseValid response key = true then .connected else .pendingError) := by
  rw [getHeader_handshakeRequest] at hkey
  have hhandler : statusHandler (handlers beyond date) s.status =
      some (readHandshakeResponse beyond) := by
    rw [hstatus]
    rfl
  unfold outcome
  rw [WebSocketProtocol.recvMessage, hhandler]
  dsimp only
  obtain ⟨s', ⟨hread, hvalid⟩ | ⟨hread, hvalid⟩⟩ := readHandshakeResponse_ready hkey hr
  · rw [hread, hvalid, if_neg (show ¬ false = true by decide)]
    rfl
  · rw [hread, hvalid, if_pos rfl]
    rfl

/-- What the checks make of a value that is not the proof. -/
theorem onlyProof_iff (hstatus : s.status = .waitingHandshakeResponse)
    (hkey : (handshakeRequest requestUri s.http.handshakeHeaders).getHeader
      (bytes "Sec-WebSocket-Key") = key)
    (hr : Receives beyond s.http.httpProtocol buffer
      ⟨.messageReady, .finished response chunkBuffer, left⟩) (date : List UInt8) (fuel : Nat)
    (value : List UInt8) :
    OnlyProof (outcome beyond date fuel s buffer) (getStatusCode response) value (secAccept key) ↔
      ¬ Lenient response (response.getHeader acceptName) value (secAccept key) := by
  have hvalid := @checkHandshakeResponseValid_iff key response
  rw [outcome_ready hstatus hkey hr]
  unfold OnlyProof Lenient
  by_cases h : checkHandshakeResponseValid response key = true
  · rw [if_pos h]
    obtain ⟨hcode, hupgrade, hconnection, haccept⟩ := hvalid.1 h
    constructor
    · rintro ⟨honly, _⟩ ⟨_, _, _, _, hne⟩
      exact hne (honly rfl).2
    · intro hlenient
      have hvalue : value = secAccept key := by
        by_contra hne
        exact hlenient ⟨hcode, hupgrade, hconnection, haccept, hne⟩
      exact ⟨fun _ => ⟨hcode, hvalue⟩, fun hnot => absurd ⟨hcode, hvalue⟩ hnot⟩
  · rw [if_neg h]
    constructor
    · intro _ hlenient
      obtain ⟨hcode, hupgrade, hconnection, haccept, _⟩ := hlenient
      exact h (hvalid.2 ⟨hcode, hupgrade, hconnection, haccept⟩)
    · intro _
      refine ⟨fun hconnected => ?_, fun _ => rfl⟩
      cases hconnected

/-- What the parser makes of the accept value. -/
theorem getHeader_accept {p ext : List UInt8}
    (hself : s.http.httpProtocol = (parser.settle reset p).2.1)
    (hout : (parser.settle reset p).1 = []) (hbuffer : buffer = (parser.settle reset p).2.2 ++ ext)
    (hr : Receives beyond s.http.httpProtocol buffer
      ⟨.messageReady, .finished response chunkBuffer, left⟩) :
    response.getHeader acceptName = stored (acceptLine (p ++ ext)) := by
  rw [hself, hbuffer] at hr
  have hfind := find_ready (receives_append ext reset p trivial hout hr)
    (show rank acceptName ≠ _ by decide) (show rank acceptName ≠ _ by decide)
  unfold HttpMessage.getHeader acceptLine
  rw [hfind]
  cases lastField acceptName (headLines (p ++ ext)) <;> rfl

end Response

/-- **Only the proof connects**, unless the value is as good as the proof for `stricmp`: for every
response the parser delivers, and, where it has read the bytes `p` before and `ext` now, for what is
written in them. -/
theorem only_proof_iff {beyond : Nat → UInt8} {s : WebSocketProtocol Handshake}
    {buffer left requestUri key : List UInt8} {response : HttpMessage}
    {chunkBuffer : Option (List UInt8)} (hstatus : s.status = .waitingHandshakeResponse)
    (hkey : (handshakeRequest requestUri s.http.handshakeHeaders).getHeader
      (bytes "Sec-WebSocket-Key") = key)
    (hr : Receives beyond s.http.httpProtocol buffer
      ⟨.messageReady, .finished response chunkBuffer, left⟩) (date : List UInt8) (fuel : Nat) :
    (OnlyProof (outcome beyond date fuel s buffer) (getStatusCode response)
        (response.getHeader acceptName) (secAccept key) ↔
      ¬ Lenient response (response.getHeader acceptName) (response.getHeader acceptName)
        (secAccept key)) ∧
    ∀ p ext, s.http.httpProtocol = (parser.settle reset p).2.1 →
      (parser.settle reset p).1 = [] → buffer = (parser.settle reset p).2.2 ++ ext →
      (OnlyProof (outcome beyond date fuel s buffer) (getStatusCode response)
          (trim (acceptLine (p ++ ext))) (secAccept key) ↔
        ¬ Lenient response (stored (acceptLine (p ++ ext))) (trim (acceptLine (p ++ ext)))
          (secAccept key)) := by
  refine ⟨onlyProof_iff hstatus hkey hr date fuel _, fun p ext hself hout hbuffer => ?_⟩
  rw [← getHeader_accept hself hout hbuffer hr]
  exact onlyProof_iff hstatus hkey hr date fuel _

def sampleKey : List UInt8 := bytes "dGhlIHNhbXBsZSBub25jZQ=="

/-- A client that has sent this key. -/
def keyedClient : WebSocketProtocol Handshake :=
  { new true with
    status := .waitingHandshakeResponse
    isClient := true
    http := ⟨reset, SortedMap.empty.insert (bytes "Sec-WebSocket-Key") sampleKey⟩ }

theorem sampleKey_accept : secAccept sampleKey = bytes "s3pPLMBiTxaQ9kYGzzhZRbK+xOo=" := by
  decide +kernel

/-- The proof for it, in capital letters. -/
def capitals : List UInt8 := bytes "S3PPLMBITXAQ9KYGZZHZRBK+XOO="

def capitalResponse : List UInt8 :=
  bytes "HTTP/1.1 101 OK\r\nUpgrade: websocket\r\nConnection: Upgrade\r\nSec-WebSocket-Accept: " ++
    capitals ++ bytes "\r\n\r\n"

def capitalMessage : HttpMessage :=
  (((HttpMessage.new (.response 101 (bytes "OK")) .http11).setHeader (bytes "Upgrade")
    (bytes "websocket")).setHeader (bytes "Connection") (bytes "Upgrade")).setHeader acceptName
      capitals

theorem capitals_receives : Receives (fun _ => 0) reset capitalResponse
    ⟨.messageReady, .finished capitalMessage none, []⟩ := by
  obtain ⟨r, hr⟩ := receives_total (fun _ => 0) reset capitalResponse
  have hrun : HttpProtocol.recvMessage (fun _ => 0) (capitalResponse.length + 2) reset
      capitalResponse = some ⟨.messageReady, .finished capitalMessage none, []⟩ := by
    decide +kernel
  obtain rfl := Option.some.inj ((hr _ le_rfl).symm.trans hrun)
  exact hr

theorem capitals_key (requestUri : List UInt8) :
    (handshakeRequest requestUri keyedClient.http.handshakeHeaders).getHeader
      (bytes "Sec-WebSocket-Key") = sampleKey := by
  rw [getHeader_handshakeRequest]
  decide

theorem capitals_iff :
    (OnlyProof (outcome (fun _ => 0) [] 0 keyedClient capitalResponse)
        (getStatusCode capitalMessage) (capitalMessage.getHeader acceptName) (secAccept sampleKey) ↔
      ¬ Lenient capitalMessage (capitalMessage.getHeader acceptName)
        (capitalMessage.getHeader acceptName) (secAccept sampleKey)) ∧
    (OnlyProof (outcome (fun _ => 0) [] 0 keyedClient capitalResponse)
        (getStatusCode capitalMessage) (trim (acceptLine capitalResponse)) (secAccept sampleKey) ↔
      ¬ Lenient capitalMessage (stored (acceptLine capitalResponse))
        (trim (acceptLine capitalResponse)) (secAccept sampleKey)) := by
  have hiff := only_proof_iff (s := keyedClient) rfl (capitals_key []) capitals_receives [] 0
  have hempty := parser.settle_wait (parser.empty reset)
  refine ⟨hiff.1, hiff.2 [] capitalResponse ?_ ?_ ?_⟩
  · rw [hempty]
    rfl
  · rw [hempty]
  · rw [hempty]
    rfl

/-- The capital letters connect. -/
theorem capitals_connect :
    ¬ OnlyProof (outcome (fun _ => 0) [] 0 keyedClient capitalResponse)
      (getStatusCode capitalMessage) (trim (acceptLine capitalResponse)) (secAccept sampleKey) := by
  have hvalid : checkHandshakeResponseValid capitalMessage sampleKey = true := by
    refine checkHandshakeResponseValid_iff.2 ⟨by decide, by decide, by decide, ?_⟩
    rw [sampleKey_accept]
    decide
  have hne : trim (acceptLine capitalResponse) ≠ secAccept sampleKey := by
    rw [sampleKey_accept]
    decide +kernel
  have hconnected := outcome_ready (s := keyedClient) rfl (capitals_key []) capitals_receives [] 0
  rw [hvalid, if_pos rfl] at hconnected
  intro h
  exact hne (h.1 hconnected).2

end WebSocketProtocol

end Brickred
