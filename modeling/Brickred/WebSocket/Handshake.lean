import Brickred.Codec.Base64
import Brickred.Codec.Sha1
import Brickred.Http.Reader
import Brickred.Http.Write
import Brickred.WebSocket.Protocol

/-!
# The handshake (model of `web_socket_protocol.cc`)

* `startAsClient`, `startAsServer`, `setHandshakeHeader`.
* `readHandshakeRequest`, `readHandshakeResponse` — the status handlers, on the `HttpProtocol` of
  the object; `handlers` puts them in their places.
* `httpRecvMessage_eq` — the call of `HttpProtocol::recvMessage` always returns.
-/

set_option autoImplicit false

namespace Brickred

namespace WebSocketProtocol

open StringUtil HttpMessage Codec

/-- `http_protocol_` and `handshake_headers_`. -/
structure Handshake where
  httpProtocol : HttpProtocol
  handshakeHeaders : HeaderMap

/-- The constructor, and `setOutputCallback` where there is a callback. -/
def new (outputCb : Bool) : WebSocketProtocol Handshake :=
  ⟨.detached, outputCb, ⟨.reset, .empty⟩, [], false, false, -1, .error⟩

def setHandshakeHeader (s : WebSocketProtocol Handshake) (key value : List UInt8) :
    WebSocketProtocol Handshake :=
  { s with
    http := { s.http with handshakeHeaders := s.http.handshakeHeaders.insert key value } }

/-- The loops that set the handshake headers of a message. -/
def setHandshakeHeaders (message : HttpMessage) (headers : HeaderMap) : HttpMessage :=
  headers.entries.foldl (fun message header => message.setHeader header.1 header.2) message

/-! ## Starting -/

/-- `getIp()` and `getPort()`. -/
structure PeerAddress where
  ip : List UInt8
  port : UInt16

def handshakeRequest (requestUri : List UInt8) (headers : HeaderMap) : HttpMessage :=
  let request := HttpMessage.new (.request .get requestUri) .http11
  let request := request.setHeader (bytes "Upgrade") (bytes "websocket")
  let request := request.setHeader (bytes "Connection") (bytes "Upgrade")
  let request := request.setHeader (bytes "Sec-WebSocket-Version") (bytes "13")
  setHandshakeHeaders request headers

/-- The headers `startAsClient` sets unless they are set already; `random` are the results of
`nextInt(256)`. -/
def setClientHeaders (s : WebSocketProtocol Handshake) (peerAddr : PeerAddress)
    (random : Fin 16 → UInt8) : WebSocketProtocol Handshake :=
  let s :=
    if (s.http.handshakeHeaders.find (bytes "Sec-WebSocket-Key")).isNone then
      s.setHandshakeHeader (bytes "Sec-WebSocket-Key") (base64Encode (List.ofFn random))
    else s
  if (s.http.handshakeHeaders.find (bytes "Host")).isNone then
    s.setHandshakeHeader (bytes "Host")
      (peerAddr.ip ++ bytes ":" ++ StringUtil.toString peerAddr.port.toNat)
  else s

/-- What a call that starts the protocol returns, and the object and the output it leaves. -/
structure Started where
  ret : Bool
  self : WebSocketProtocol Handshake
  output : List (List UInt8)

/-- `requestUri` is a C string. -/
def startAsClient (s : WebSocketProtocol Handshake) (peerAddr : PeerAddress)
    (random : Fin 16 → UInt8) (requestUri : List UInt8) : Started :=
  if s.status ≠ .detached then ⟨false, s, []⟩
  else
    let s := { s with status := .waitingHandshakeResponse, isClient := true }
    let s := s.setClientHeaders peerAddr random
    let request := handshakeRequest (cStr requestUri) s.http.handshakeHeaders
    ⟨true, s, HttpProtocol.sendMessage s.outputCb request⟩

def startAsServer (s : WebSocketProtocol Handshake) : Started :=
  if s.status ≠ .detached then ⟨false, s, []⟩
  else ⟨true, { s with status := .waitingHandshakeRequest, isClient := false }, []⟩

/-! ## The checks and the response -/

/-- The accept value for a key. -/
def secAccept (secKey : List UInt8) : List UInt8 :=
  base64Encode (sha1Binary (secKey ++ bytes "258EAFA5-E914-47DA-95CA-C5AB0DC85B11"))

def checkHandshakeRequestValid (request : HttpMessage) : Bool :=
  if request.hasHeader (bytes "Host") = false then false
  else if request.headerContain (bytes "Upgrade") (bytes "websocket") = false then false
  else if request.headerContain (bytes "Connection") (bytes "Upgrade") = false then false
  else if (request.getHeader (bytes "Sec-WebSocket-Key")).length ≠ 24 then false
  else if request.headerEqual (bytes "Sec-WebSocket-Version") (bytes "13") = false then false
  else true

def sendHandshakeErrorResponse (s : WebSocketProtocol Handshake) : List (List UInt8) :=
  s.emit (bytes "HTTP/1.1 400 Bad Request\r\n\r\n")

/-- `date` is the text `setDate` stores: the time, formatted. -/
def handshakeResponse (request : HttpMessage) (headers : HeaderMap) (date : List UInt8) :
    HttpMessage :=
  let secKey := request.getHeader (bytes "Sec-WebSocket-Key")
  let response := HttpMessage.new (.response 101 (bytes "Switching Protocols")) .http11
  let response := response.setHeader (bytes "Upgrade") (bytes "websocket")
  let response := response.setHeader (bytes "Connection") (bytes "Upgrade")
  let response := response.setHeader (bytes "Sec-WebSocket-Accept") (secAccept secKey)
  let response := setHandshakeHeaders response headers
  if response.hasHeader (bytes "Date") then response.setHeader (bytes "Date") date else response

def sendHandshakeSuccessResponse (s : WebSocketProtocol Handshake) (request : HttpMessage)
    (date : List UInt8) : List (List UInt8) :=
  HttpProtocol.sendMessage s.outputCb (handshakeResponse request s.http.handshakeHeaders date)

/-- `getStatusCode()` of an `HttpResponse`. -/
def getStatusCode (response : HttpMessage) : Int :=
  match response.kind with
  | .response statusCode _ => statusCode
  | .request _ _ => 0

def checkHandshakeResponseValid (response : HttpMessage) (secKey : List UInt8) : Bool :=
  if getStatusCode response ≠ 101 then false
  else if response.headerContain (bytes "Upgrade") (bytes "websocket") = false then false
  else if response.headerContain (bytes "Connection") (bytes "Upgrade") = false then false
  else if response.headerEqual (bytes "Sec-WebSocket-Accept") (secAccept secKey) = false then false
  else true

/-! ## The status handlers -/

def setHttpProtocol (s : WebSocketProtocol Handshake) (httpProtocol : HttpProtocol) :
    WebSocketProtocol Handshake :=
  { s with http := { s.http with httpProtocol } }

/-- `http_protocol_.recvMessage(buffer)`; `beyond` is what lies in memory behind the readable
bytes.  That it always returns is `httpRecvMessage_eq`. -/
def httpRecvMessage (beyond : Nat → UInt8) (s : WebSocketProtocol Handshake)
    (buffer : List UInt8) : HttpProtocol.Received :=
  (HttpProtocol.recvMessage beyond (buffer.length + 2) s.http.httpProtocol buffer).getD
    ⟨.error, s.http.httpProtocol, buffer⟩

/-- `CONNECTED`, and `CONNECTION_ESTABLISHED` is returned. -/
def establish (s : WebSocketProtocol Handshake) : WebSocketProtocol Handshake :=
  { s with status := .connected, retCode := .connectionEstablished }

def readHandshakeRequest (beyond : Nat → UInt8) (date : List UInt8) : StatusHandler Handshake :=
  fun s buffer =>
    let r := httpRecvMessage beyond s buffer
    let s := s.setHttpProtocol r.self
    match r.code with
    | .waitingMoreData => ⟨0, s, r.buffer, []⟩
    | .messageReady =>
      match r.self.retrieveRequest with
      | none => ⟨-1, s, r.buffer, s.sendHandshakeErrorResponse⟩
      | some (request, httpProtocol) =>
        let s := s.setHttpProtocol httpProtocol
        if checkHandshakeRequestValid request = false then
          ⟨-1, s, r.buffer, s.sendHandshakeErrorResponse⟩
        else ⟨2, s.establish, r.buffer, s.sendHandshakeSuccessResponse request date⟩
    | .error => ⟨-1, s, r.buffer, s.sendHandshakeErrorResponse⟩

/-- `handshake_headers_["Sec-WebSocket-Key"]` makes an entry where there is none. -/
def readHandshakeResponse (beyond : Nat → UInt8) : StatusHandler Handshake :=
  fun s buffer =>
    let r := httpRecvMessage beyond s buffer
    let s := s.setHttpProtocol r.self
    match r.code with
    | .waitingMoreData => ⟨0, s, r.buffer, []⟩
    | .messageReady =>
      match r.self.retrieveResponse with
      | none => ⟨-1, s, r.buffer, []⟩
      | some (response, httpProtocol) =>
        let s := s.setHttpProtocol httpProtocol
        let secKey := (s.http.handshakeHeaders.find (bytes "Sec-WebSocket-Key")).getD []
        let s := s.setHandshakeHeader (bytes "Sec-WebSocket-Key") secKey
        if checkHandshakeResponseValid response secKey = false then ⟨-1, s, r.buffer, []⟩
        else ⟨2, s.establish, r.buffer, []⟩
    | .error => ⟨-1, s, r.buffer, []⟩

def handlers (beyond : Nat → UInt8) (date : List UInt8) : HandshakeHandlers Handshake :=
  ⟨readHandshakeRequest beyond date, readHandshakeResponse beyond⟩

/-- **The HTTP parser** returns. -/
theorem httpRecvMessage_eq {beyond : Nat → UInt8} {s : WebSocketProtocol Handshake}
    {buffer : List UInt8} {r : HttpProtocol.Received} :
    httpRecvMessage beyond s buffer = r ↔
      HttpProtocol.Receives beyond s.http.httpProtocol buffer r := by
  obtain ⟨r', hr'⟩ := HttpProtocol.receives_total beyond s.http.httpProtocol buffer
  have hself : httpRecvMessage beyond s buffer = r' := by
    unfold httpRecvMessage
    rw [hr' _ (le_refl _)]
    rfl
  rw [hself]
  constructor
  · rintro rfl
    exact hr'
  · intro hr
    exact Option.some.inj ((hr' _ (le_refl _)).symm.trans (hr _ (le_refl _)))

end WebSocketProtocol

end Brickred
