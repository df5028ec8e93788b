import Brickred.Http.Message

/-!
# `HttpProtocol` (model of `http_protocol.cc`): the parser

The parser works on the readable bytes of the application's `DynamicBuffer`.  One comparison of
`readBody` can leave these bytes; what lies in memory behind them is an input (`beyond`).

* `readStartLine`, `readHeader`, `readBody` — the status handlers.
* `recvMessage`, `retrieveRequest`, `retrieveResponse`.
* `pump` — the application's loop, which retrieves each message by its type; `receive` — the loop
  run for each piece of the stream that arrives.
-/

set_option autoImplicit false

namespace Brickred

open StringUtil HttpMessage HttpRequest

/-- `status_`, with `message_` where it is not null, and `chunk_buffer_`. -/
inductive HttpProtocol where
  | readingStartLine
  | readingHeader (message : HttpMessage) (chunkBuffer : Option (List UInt8))
  | readingBody (message : HttpMessage) (chunkBuffer : Option (List UInt8))
  | finished (message : HttpMessage) (chunkBuffer : Option (List UInt8))
  | pendingError (message : Option HttpMessage) (chunkBuffer : Option (List UInt8))
  deriving DecidableEq

namespace HttpProtocol

/-- As the constructor and `reset` leave it. -/
def reset : HttpProtocol := .readingStartLine

/-- `status_ = Status::PENDING_ERROR` -/
def setPendingError : HttpProtocol → HttpProtocol
  | .readingStartLine => .pendingError none none
  | .readingHeader message chunkBuffer => .pendingError (some message) chunkBuffer
  | .readingBody message chunkBuffer => .pendingError (some message) chunkBuffer
  | .finished message chunkBuffer => .pendingError (some message) chunkBuffer
  | .pendingError message chunkBuffer => .pendingError message chunkBuffer

inductive RetCode where
  | error
  | waitingMoreData
  | messageReady
  deriving DecidableEq

/-- What a status handler returns, and the object and the buffer it leaves. -/
structure Handled where
  ret : Int
  self : HttpProtocol
  buffer : List UInt8

/-! ## The status handlers -/

/-- The message a start line announces. -/
def parseStartLine (line : List UInt8) : Option HttpMessage :=
  match split line [32] 3 with
  | [part₀, part₁, part₂] =>
    if bytes "HTTP" <+: part₀ then
      let version := versionStrToEnum part₀
      let statusCode := atoi part₁
      if version = .unknown then none
      else if statusCode < 0 then none
      else some (.new (.response statusCode part₂) version)
    else
      let method := methodStrToEnum part₀
      let version := versionStrToEnum part₂
      if method = .unknown then none
      else if version = .unknown then none
      else some (.new (.request method part₁) version)
  | _ => none

def readStartLine (buffer : List UInt8) : Handled :=
  match find buffer crlf with
  | none => ⟨0, .readingStartLine, buffer⟩
  | some lineLength =>
    match parseStartLine (buffer.take lineLength) with
    | none => ⟨-1, .readingStartLine, buffer⟩
    | some message => ⟨1, .readingHeader message none, buffer.drop (lineLength + 2)⟩

/-- The loop over the header lines; `false`: a line has no colon. -/
def setHeaders (message : HttpMessage) : List (List UInt8) → HttpMessage × Bool
  | [] => (message, true)
  | header :: headers =>
    match find header [58] with
    | none => (message, false)
    | some colon =>
      setHeaders (message.setHeader (trim (header.take colon))
        (trim (cStr (header.drop (colon + 1))))) headers

def readHeader (message : HttpMessage) (chunkBuffer : Option (List UInt8))
    (buffer : List UInt8) : Handled :=
  if buffer.length < 2 then ⟨0, .readingHeader message chunkBuffer, buffer⟩
  else if buffer.take 2 = crlf then ⟨1, .finished message chunkBuffer, buffer.drop 2⟩
  else
    match find buffer (crlf ++ crlf) with
    | none => ⟨0, .readingHeader message chunkBuffer, buffer⟩
    | some headerLength =>
      match setHeaders message (split (buffer.take headerLength) crlf (-1)) with
      | (message, false) => ⟨-1, .readingHeader message chunkBuffer, buffer⟩
      | (message, true) => ⟨1, .readingBody message chunkBuffer, buffer.drop (headerLength + 4)⟩

/-- `readBegin()[i]`; the byte may lie behind the readable ones. -/
def memoryAt (buffer : List UInt8) (beyond : Nat → UInt8) (i : Nat) : UInt8 :=
  buffer[i]?.getD (beyond (i - buffer.length))

/-- The message whose body has been put together in `chunk_buffer_`. -/
def decoded (message : HttpMessage) (chunkBuffer : List UInt8) : HttpMessage :=
  ((message.setBody chunkBuffer).setHeader (bytes "Content-Length")
    (toString chunkBuffer.length)).removeHeader (bytes "Transfer-Encoding")

/-- The loop over the chunks.  `none`: not finished within `fuel` turns. -/
def readChunks (beyond : Nat → UInt8) :
    Nat → HttpMessage → List UInt8 → List UInt8 → Option Handled
  | 0, _, _, _ => none
  | fuel + 1, message, chunkBuffer, buffer =>
    let self := .readingBody message (some chunkBuffer)
    match find buffer crlf with
    | none => some ⟨0, self, buffer⟩
    | some crlfAt =>
      match scanHex (buffer.take crlfAt) with
      | none => some ⟨-1, self, buffer⟩
      | some chunkSize =>
        let totalChunkSize := if 0 = chunkSize then crlfAt + 2 else crlfAt + 2 + chunkSize + 2
        if buffer.length < totalChunkSize then some ⟨0, self, buffer⟩
        else if [memoryAt buffer beyond (crlfAt + 2 + chunkSize),
            memoryAt buffer beyond (crlfAt + 2 + chunkSize + 1)] ≠ crlf then
          some ⟨-1, self, buffer⟩
        else
          let chunkBuffer :=
            if chunkSize > 0 then chunkBuffer ++ (buffer.drop (crlfAt + 2)).take chunkSize
            else chunkBuffer
          let buffer := buffer.drop totalChunkSize
          if 0 = chunkSize then
            some ⟨1, .readingHeader (decoded message chunkBuffer) (some chunkBuffer), buffer⟩
          else readChunks beyond fuel message chunkBuffer buffer

def contentLength (message : HttpMessage) : Int := atoi (message.getHeader (bytes "Content-Length"))

def chunked (message : HttpMessage) : Bool :=
  message.headerContain (bytes "Transfer-Encoding") (bytes "chunked")

def readBody (beyond : Nat → UInt8) (message : HttpMessage) (chunkBuffer : Option (List UInt8))
    (buffer : List UInt8) : Option Handled :=
  if contentLength message > 0 then
    if buffer.length < (contentLength message).toNat then
      some ⟨0, .readingBody message chunkBuffer, buffer⟩
    else
      some ⟨1, .finished (message.setBody (buffer.take (contentLength message).toNat)) chunkBuffer,
        buffer.drop (contentLength message).toNat⟩
  else if chunked message then
    readChunks beyond (buffer.length + 1) message (chunkBuffer.getD []) buffer
  else some ⟨1, .finished message chunkBuffer, buffer⟩

/-! ## Receiving -/

/-- `s_status_handler_`: the handler's result; `none` where there is no handler. -/
def statusHandler (beyond : Nat → UInt8) (s : HttpProtocol) (buffer : List UInt8) :
    Option (Option Handled) :=
  match s with
  | .readingStartLine => some (some (readStartLine buffer))
  | .readingHeader message chunkBuffer => some (some (readHeader message chunkBuffer buffer))
  | .readingBody message chunkBuffer => some (readBody beyond message chunkBuffer buffer)
  | .finished _ _ => none
  | .pendingError _ _ => none

/-- What `recvMessage` returns, and the object and the buffer it leaves. -/
structure Received where
  code : RetCode
  self : HttpProtocol
  buffer : List UInt8
  deriving DecidableEq

/-- `none`: not finished within `fuel` turns. -/
def recvMessage (beyond : Nat → UInt8) : Nat → HttpProtocol → List UInt8 → Option Received
  | 0, _, _ => none
  | fuel + 1, s, buffer =>
    match statusHandler beyond s buffer with
    | none => some ⟨.error, s, buffer⟩
    | some none => none
    | some (some r) =>
      if 0 = r.ret then some ⟨.waitingMoreData, r.self, r.buffer⟩
      else if -1 = r.ret then some ⟨.error, r.self.setPendingError, r.buffer⟩
      else
        match r.self with
        | .finished _ _ => some ⟨.messageReady, r.self, r.buffer⟩
        | _ => recvMessage beyond fuel r.self r.buffer

/-- `none` is `false`. -/
def retrieveRequest (s : HttpProtocol) : Option (HttpMessage × HttpProtocol) :=
  match s with
  | .finished ⟨.request method requestUri, version, headers, body⟩ _ =>
    some (⟨.request method requestUri, version, headers, body⟩, reset)
  | _ => none

def retrieveResponse (s : HttpProtocol) : Option (HttpMessage × HttpProtocol) :=
  match s with
  | .finished ⟨.response statusCode reasonPhrase, version, headers, body⟩ _ =>
    some (⟨.response statusCode reasonPhrase, version, headers, body⟩, reset)
  | _ => none

/-! ## The application's loop -/

/-- The messages retrieved, what the last `recvMessage` returned, and what is left. -/
structure Pumped where
  messages : List HttpMessage
  code : RetCode
  self : HttpProtocol
  buffer : List UInt8
  deriving DecidableEq

/-- `recvMessage` until it returns something else than `MESSAGE_READY`. -/
def pump (beyond : Nat → UInt8) : Nat → HttpProtocol → List UInt8 → Option Pumped
  | 0, _, _ => none
  | fuel + 1, s, buffer => do
    let r ← recvMessage beyond (buffer.length + 2) s buffer
    match r.code with
    | .messageReady =>
      let (message, s) ← r.self.retrieveRequest.or r.self.retrieveResponse
      let p ← pump beyond fuel s r.buffer
      some { p with messages := message :: p.messages }
    | code => some ⟨[], code, r.self, r.buffer⟩

/-- A piece of the stream, and what lies in memory behind the readable bytes once it has been
appended to them. -/
structure Arrival where
  bytes : List UInt8
  beyond : Nat → UInt8

/-- The loop is run for each piece. -/
def receive (s : HttpProtocol) (buffer : List UInt8) (arrival : Arrival) :
    List Arrival → Option Pumped
  | [] => pump arrival.beyond ((buffer ++ arrival.bytes).length + 1) s (buffer ++ arrival.bytes)
  | next :: arrivals => do
    let p ← pump arrival.beyond ((buffer ++ arrival.bytes).length + 1) s (buffer ++ arrival.bytes)
    let q ← receive p.self p.buffer next arrivals
    some { q with messages := p.messages ++ q.messages }

end HttpProtocol

end Brickred
