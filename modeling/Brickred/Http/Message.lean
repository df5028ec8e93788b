import Brickred.Lib.SortedMap
import Brickred.StringUtil

/-!
# `HttpMessage`, `HttpRequest`, `HttpResponse`

A message is a request or a response: what the two derived classes add is its `Kind`.  The
headers are a `std::map` under `CaseInsensitiveLess`.

* `getHeader_setHeader`, `getHeader_removeHeader` — a header is found whatever the case of its
  name.
* `versionStrToEnum_enumToStr`, `methodStrToEnum_enumToStr` — names and values.
-/

set_option autoImplicit false

namespace Brickred

open StringUtil

/-- `HttpMessage::Version`. -/
inductive HttpMessage.Version where
  | unknown
  | http10
  | http11
  deriving DecidableEq

/-- `HttpRequest::Method`. -/
inductive HttpRequest.Method where
  | unknown
  | get
  | post
  deriving DecidableEq

/-- `HttpMessage::MessageType`, with the members of `HttpRequest` or of `HttpResponse`. -/
inductive HttpMessage.Kind where
  | request (method : HttpRequest.Method) (requestUri : List UInt8)
  | response (statusCode : Int) (reasonPhrase : List UInt8)
  deriving DecidableEq

/-- `HttpMessage::HeaderMap`. -/
abbrev HeaderMap := SortedMap (List UInt8) rank

structure HttpMessage where
  kind : HttpMessage.Kind
  version : HttpMessage.Version
  headers : HeaderMap
  body : List UInt8
  deriving DecidableEq

namespace HttpMessage

/-- A new `HttpRequest` or `HttpResponse` whose start line is set. -/
def new (kind : Kind) (version : Version) : HttpMessage := ⟨kind, version, .empty, []⟩

def getHeader (message : HttpMessage) (key : List UInt8) : List UInt8 :=
  (message.headers.find key).getD []

def hasHeader (message : HttpMessage) (key : List UInt8) : Bool :=
  (message.headers.find key).isSome

def headerEqual (message : HttpMessage) (key value : List UInt8) : Bool :=
  stricmp (message.getHeader key) value

def headerContain (message : HttpMessage) (key value : List UInt8) : Bool :=
  contains (toLower (message.getHeader key)) (toLower value)

def setHeader (message : HttpMessage) (key value : List UInt8) : HttpMessage :=
  { message with headers := message.headers.insert key value }

def removeHeader (message : HttpMessage) (key : List UInt8) : HttpMessage :=
  { message with headers := message.headers.erase key }

def setBody (message : HttpMessage) (body : List UInt8) : HttpMessage := { message with body }

def versionStrToEnum (versionStr : List UInt8) : Version :=
  if versionStr = bytes "HTTP/1.1" then .http11
  else if versionStr = bytes "HTTP/1.0" then .http10
  else .unknown

def versionEnumToStr : Version → List UInt8
  | .http11 => bytes "HTTP/1.1"
  | .http10 => bytes "HTTP/1.0"
  | .unknown => bytes "UNKNOWN"

theorem versionStrToEnum_enumToStr : ∀ version : Version, version ≠ .unknown →
    versionStrToEnum (versionEnumToStr version) = version
  | .unknown, h => absurd rfl h
  | .http10, _ => by decide
  | .http11, _ => by decide

section Headers

variable (message : HttpMessage) (key key' value : List UInt8)

theorem getHeader_setHeader : (message.setHeader key value).getHeader key' =
    if rank key = rank key' then value else message.getHeader key' := by
  unfold getHeader setHeader
  dsimp only
  rw [SortedMap.find_insert]
  split <;> rfl

theorem getHeader_removeHeader (h : rank key ≠ rank key') :
    (message.removeHeader key).getHeader key' = message.getHeader key' := by
  unfold getHeader removeHeader
  dsimp only
  rw [SortedMap.find_erase_of_ne message.headers h]

end Headers

end HttpMessage

namespace HttpRequest

def methodStrToEnum (methodStr : List UInt8) : Method :=
  if methodStr = bytes "GET" then .get
  else if methodStr = bytes "POST" then .post
  else .unknown

def methodEnumToStr : Method → List UInt8
  | .get => bytes "GET"
  | .post => bytes "POST"
  | .unknown => bytes "UNKNOWN"

theorem methodStrToEnum_enumToStr : ∀ method : Method, method ≠ .unknown →
    methodStrToEnum (methodEnumToStr method) = method
  | .unknown, h => absurd rfl h
  | .get, _ => by decide
  | .post, _ => by decide

end HttpRequest

end Brickred
