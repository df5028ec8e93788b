import Brickred.Http.Reader
import Brickred.Lib.Runs

/-!
# The object behind `HttpProtocol`

`HttpProtocol::Impl` with its two pointers.  `HttpProtocol` has the states in which the pointers
are as the handlers expect them; here they can be null in every state, and a handler that follows a
null pointer has no result.

* `Impl`, `Impl.recvMessage`, `Impl.Op` — the object, and the calls an application makes.
* `recvMessage_impl` — from a state of `HttpProtocol` the object does what `HttpProtocol` does.
* `Passes` — the states in which handlers are called.
* `recvMessage_safe` — `recvMessage` returns after any calls, with `message_` in place.
-/

set_option autoImplicit false

namespace Brickred

namespace HttpProtocol

open StringUtil HttpMessage HttpRequest

/-- `HttpProtocol::Status`. -/
inductive Status where
  | readingStartLine
  | readingHeader
  | readingBody
  | finished
  | pendingError
  deriving DecidableEq

/-- `status_`, `message_` and `chunk_buffer_`. -/
structure Impl where
  status : Status
  message : Option HttpMessage
  chunkBuffer : Option (List UInt8)

namespace Impl

/-- As the constructor and `reset` leave it. -/
def reset : Impl := ⟨.readingStartLine, none, none⟩

/-- What a status handler returns, and the object and the buffer it leaves. -/
structure Handled where
  ret : Int
  self : Impl
  buffer : List UInt8

/-- What `recvMessage` returns, and the object and the buffer it leaves. -/
structure Received where
  code : RetCode
  self : Impl
  buffer : List UInt8

/-! ## The handlers -/

def readStartLine (s : Impl) (buffer : List UInt8) : Handled :=
  match find buffer crlf with
  | none => ⟨0, s, buffer⟩
  | some lineLength =>
    match parseStartLine (buffer.take lineLength) with
    | none => ⟨-1, s, buffer⟩
    | some message =>
      ⟨1, { s with message := some message, status := .readingHeader },
        buffer.drop (lineLength + 2)⟩

/-- The loop over the header lines, through `message_`. -/
def setHeaders (message : Option HttpMessage) :
    List (List UInt8) → Option (Option HttpMessage × Bool)
  | [] => some (message, true)
  | header :: headers =>
    match find header [58] with
    | none => some (message, false)
    | some colon => do
      let message ← message
      setHeaders (some (message.setHeader (trim (header.take colon))
        (trim (cStr (header.drop (colon + 1)))))) headers

def readHeader (s : Impl) (buffer : List UInt8) : Option Handled :=
  if buffer.length < 2 then some ⟨0, s, buffer⟩
  else if buffer.take 2 = crlf then some ⟨1, { s with status := .finished }, buffer.drop 2⟩
  else
    match find buffer (crlf ++ crlf) with
    | none => some ⟨0, s, buffer⟩
    | some headerLength => do
      let (message, allSet) ← setHeaders s.message (split (buffer.take headerLength) crlf (-1))
      if allSet then
        some ⟨1, { s with message := message, status := .readingBody },
          buffer.drop (headerLength + 4)⟩
      else some ⟨-1, { s with message := message }, buffer⟩

/-- The loop over the chunks.  `none`: a null pointer, or not finished within `fuel` turns. -/
def readChunks (beyond : Nat → UInt8) : Nat → Impl → List UInt8 → Option Handled
  | 0, _, _ => none
  | fuel + 1, s, buffer =>
    match find buffer crlf with
    | none => some ⟨0, s, buffer⟩
    | some crlfAt =>
      match scanHex (buffer.take crlfAt) with
      | none => some ⟨-1, s, buffer⟩
      | some chunkSize =>
        let totalChunkSize := if 0 = chunkSize then crlfAt + 2 else crlfAt + 2 + chunkSize + 2
        if buffer.length < totalChunkSize then some ⟨0, s, buffer⟩
        else if [memoryAt buffer beyond (crlfAt + 2 + chunkSize),
            memoryAt buffer beyond (crlfAt + 2 + chunkSize + 1)] ≠ crlf then
          some ⟨-1, s, buffer⟩
        else do
          let chunkBuffer ← s.chunkBuffer
          let chunkBuffer :=
            if chunkSize > 0 then chunkBuffer ++ (buffer.drop (crlfAt + 2)).take chunkSize
            else chunkBuffer
          let s := { s with chunkBuffer := some chunkBuffer }
          let buffer := buffer.drop totalChunkSize
          if 0 = chunkSize then do
            let message ← s.message
            some ⟨1, { s with
              message := some (decoded message chunkBuffer)
              status := .readingHeader }, buffer⟩
          else readChunks beyond fuel s buffer

def readBody (beyond : Nat → UInt8) (s : Impl) (buffer : List UInt8) : Option Handled := do
  let message ← s.message
  if contentLength message > 0 then
    if buffer.length < (contentLength message).toNat then some ⟨0, s, buffer⟩
    else
      some ⟨1, { s with
        message := some (message.setBody (buffer.take (contentLength message).toNat))
        status := .finished }, buffer.drop (contentLength message).toNat⟩
  else if chunked message then
    readChunks beyond (buffer.length + 1) { s with chunkBuffer := some (s.chunkBuffer.getD []) }
      buffer
  else some ⟨1, { s with status := .finished }, buffer⟩

/-- `s_status_handler_`: the handler's result; `none` where there is no handler. -/
def statusHandler (beyond : Nat → UInt8) (s : Impl) (buffer : List UInt8) :
    Option (Option Handled) :=
  match s.status with
  | .readingStartLine => some (some (readStartLine s buffer))
  | .readingHeader => some (readHeader s buffer)
  | .readingBody => some (readBody beyond s buffer)
  | .finished => none
  | .pendingError => none

/-! ## The calls -/

/-- `none`: a null pointer, or not finished within `fuel` turns. -/
def recvMessage (beyond : Nat → UInt8) : Nat → Impl → List UInt8 → Option Received
  | 0, _, _ => none
  | fuel + 1, s, buffer =>
    match statusHandler beyond s buffer with
    | none => some ⟨.error, s, buffer⟩
    | some none => none
    | some (some r) =>
      if 0 = r.ret then some ⟨.waitingMoreData, r.self, r.buffer⟩
      else if -1 = r.ret then some ⟨.error, { r.self with status := .pendingError }, r.buffer⟩
      else if r.self.status = .finished then some ⟨.messageReady, r.self, r.buffer⟩
      else recvMessage beyond fuel r.self r.buffer

/-- `none` is `false`. -/
def retrieveRequest (s : Impl) : Option (HttpMessage × Impl) :=
  if s.status ≠ .finished then none
  else
    match s.message with
    | none => none
    | some message =>
      match message.kind with
      | .request _ _ => some (message, reset)
      | .response _ _ => none

def retrieveResponse (s : Impl) : Option (HttpMessage × Impl) :=
  if s.status ≠ .finished then none
  else
    match s.message with
    | none => none
    | some message =>
      match message.kind with
      | .request _ _ => none
      | .response _ _ => some (message, reset)

/-- The calls; `recvMessage` with the bytes of the buffer and what lies in memory behind them. -/
inductive Op where
  | recvMessage (buffer : List UInt8) (beyond : Nat → UInt8)
  | retrieveRequest
  | retrieveResponse
  | reset

def step (s : Impl) : Op → Option Impl
  | .recvMessage buffer beyond => (recvMessage beyond (buffer.length + 2) s buffer).map (·.self)
  | .retrieveRequest => some ((retrieveRequest s).elim s Prod.snd)
  | .retrieveResponse => some ((retrieveResponse s).elim s Prod.snd)
  | .reset => some reset

/-- The states in which `recvMessage` calls a handler, each with the unused bytes. -/
inductive Passes (beyond : Nat → UInt8) (s₀ : Impl) (buffer₀ : List UInt8) :
    Impl → List UInt8 → Prop where
  | start : Passes beyond s₀ buffer₀ s₀ buffer₀
  | next {s : Impl} {buffer : List UInt8} {r : Handled} (h : Passes beyond s₀ buffer₀ s buffer)
      (hr : statusHandler beyond s buffer = some (some r)) (hnext : r.ret ≠ 0 ∧ r.ret ≠ -1)
      (hself : r.self.status ≠ .finished) : Passes beyond s₀ buffer₀ r.self r.buffer

end Impl

/-! ## The object does what `HttpProtocol` does -/

/-- The object in a state of `HttpProtocol`. -/
def impl : HttpProtocol → Impl
  | .readingStartLine => ⟨.readingStartLine, none, none⟩
  | .readingHeader message chunkBuffer => ⟨.readingHeader, some message, chunkBuffer⟩
  | .readingBody message chunkBuffer => ⟨.readingBody, some message, chunkBuffer⟩
  | .finished message chunkBuffer => ⟨.finished, some message, chunkBuffer⟩
  | .pendingError message chunkBuffer => ⟨.pendingError, message, chunkBuffer⟩

def Handled.impl (r : Handled) : Impl.Handled := ⟨r.ret, r.self.impl, r.buffer⟩

def Received.impl (r : Received) : Impl.Received := ⟨r.code, r.self.impl, r.buffer⟩

section Refinement

variable (beyond : Nat → UInt8) (s : HttpProtocol) (message : HttpMessage)
  (chunkBuffer : Option (List UInt8)) (buffer : List UInt8)

theorem setPendingError_impl :
    s.setPendingError.impl = { s.impl with status := .pendingError } := by
  cases s <;> rfl

theorem readStartLine_impl :
    Impl.readStartLine Impl.reset buffer = (readStartLine buffer).impl := by
  unfold Impl.readStartLine readStartLine
  cases find buffer crlf with
  | none => rfl
  | some n =>
    dsimp only
    cases parseStartLine (buffer.take n) <;> rfl

theorem setHeaders_impl : ∀ (headers : List (List UInt8)) (message : HttpMessage),
    Impl.setHeaders (some message) headers =
      some (some (setHeaders message headers).1, (setHeaders message headers).2)
  | [], _ => rfl
  | header :: headers, message => by
    unfold Impl.setHeaders setHeaders
    cases find header [58] with
    | none => rfl
    | some colon =>
      dsimp only
      exact setHeaders_impl headers _

theorem readHeader_impl :
    Impl.readHeader (readingHeader message chunkBuffer).impl buffer =
      some (readHeader message chunkBuffer buffer).impl := by
  unfold Impl.readHeader readHeader
  split
  · rfl
  split
  · rfl
  cases find buffer (crlf ++ crlf) with
  | none => rfl
  | some n =>
    dsimp only [impl]
    rw [setHeaders_impl]
    obtain ⟨m, _ | _⟩ := setHeaders message (split (buffer.take n) crlf (-1)) <;> rfl

theorem readChunks_impl : ∀ (fuel : Nat) (chunkBuffer buffer : List UInt8),
    Impl.readChunks beyond fuel (readingBody message (some chunkBuffer)).impl buffer =
      (readChunks beyond fuel message chunkBuffer buffer).map Handled.impl
  | 0, _, _ => rfl
  | fuel + 1, chunkBuffer, buffer => by
    unfold Impl.readChunks readChunks
    cases find buffer crlf with
    | none => rfl
    | some n =>
      dsimp only
      cases scanHex (buffer.take n) with
      | none => rfl
      | some size =>
        dsimp only
        by_cases hlen : buffer.length < (if 0 = size then n + 2 else n + 2 + size + 2)
        · rw [if_pos hlen, if_pos hlen]
          rfl
        · rw [if_neg hlen, if_neg hlen]
          by_cases hcrlf : [memoryAt buffer beyond (n + 2 + size),
              memoryAt buffer beyond (n + 2 + size + 1)] ≠ crlf
          · rw [if_pos hcrlf, if_pos hcrlf]
            rfl
          · rw [if_neg hcrlf, if_neg hcrlf]
            dsimp only [impl, bind, Option.bind_some]
            by_cases hzero : 0 = size
            · rw [if_pos hzero, if_pos hzero, if_pos hzero]
              rfl
            · rw [if_neg hzero, if_neg hzero, if_neg hzero]
              exact readChunks_impl fuel _ _

theorem readBody_impl :
    Impl.readBody beyond (readingBody message chunkBuffer).impl buffer =
      (readBody beyond message chunkBuffer buffer).map Handled.impl := by
  unfold Impl.readBody readBody
  dsimp only [impl, bind, Option.bind_some]
  split
  · split <;> rfl
  · split
    · exact readChunks_impl beyond message _ _ _
    · rfl

/-- **A handler call** on the object. -/
theorem statusHandler_impl :
    Impl.statusHandler beyond s.impl buffer =
      (statusHandler beyond s buffer).map (Option.map Handled.impl) := by
  cases s with
  | readingStartLine => exact congrArg (some ∘ some) (readStartLine_impl buffer)
  | readingHeader message chunkBuffer =>
    exact congrArg some (readHeader_impl message chunkBuffer buffer)
  | readingBody message chunkBuffer =>
    exact congrArg some (readBody_impl beyond message chunkBuffer buffer)
  | finished message chunkBuffer => rfl
  | pendingError message chunkBuffer => rfl

/-- **A call of `recvMessage`** on the object. -/
theorem recvMessage_impl : ∀ (fuel : Nat) (s : HttpProtocol) (buffer : List UInt8),
    Impl.recvMessage beyond fuel s.impl buffer =
      (recvMessage beyond fuel s buffer).map Received.impl
  | 0, _, _ => rfl
  | fuel + 1, s, buffer => by
    rw [Impl.recvMessage, recvMessage, statusHandler_impl]
    rcases statusHandler beyond s buffer with _ | _ | ⟨ret, self, rest⟩
    · rfl
    · rfl
    · simp only [Option.map_some, Handled.impl]
      split
      · rfl
      · split
        · rw [Option.map_some, Received.impl, setPendingError_impl]
        · cases self with
          | finished message chunkBuffer => rfl
          | _ => exact recvMessage_impl fuel _ rest

theorem retrieveRequest_impl :
    Impl.retrieveRequest s.impl = s.retrieveRequest.map (Prod.map id impl) := by
  cases s with
  | finished message chunkBuffer =>
    obtain ⟨kind, version, headers, body⟩ := message
    cases kind <;> rfl
  | _ => rfl

theorem retrieveResponse_impl :
    Impl.retrieveResponse s.impl = s.retrieveResponse.map (Prod.map id impl) := by
  cases s with
  | finished message chunkBuffer =>
    obtain ⟨kind, version, headers, body⟩ := message
    cases kind <;> rfl
  | _ => rfl

end Refinement

/-! ## What is left of the bytes -/

section Suffix

variable {beyond : Nat → UInt8}

theorem readChunks_suffix {message : HttpMessage} : ∀ {fuel : Nat} {acc buffer : List UInt8}
    {r : Handled}, readChunks beyond fuel message acc buffer = some r → r.buffer <:+ buffer
  | 0, _, _, _, h => by cases h
  | fuel + 1, acc, buffer, r, h => by
    rw [readChunks] at h
    split at h
    · cases h
      exact List.suffix_refl _
    · split at h
      · cases h
        exact List.suffix_refl _
      · rename_i n _ _ size _
        dsimp only at h
        by_cases hlen : buffer.length < (if 0 = size then n + 2 else n + 2 + size + 2)
        · rw [if_pos hlen] at h
          cases h
          exact List.suffix_refl _
        · rw [if_neg hlen] at h
          by_cases hcrlf : [memoryAt buffer beyond (n + 2 + size),
              memoryAt buffer beyond (n + 2 + size + 1)] ≠ crlf
          · rw [if_pos hcrlf] at h
            cases h
            exact List.suffix_refl _
          · rw [if_neg hcrlf] at h
            by_cases hzero : 0 = size
            · rw [if_pos hzero] at h
              cases h
              exact List.drop_suffix _ _
            · rw [if_neg hzero] at h
              exact (readChunks_suffix h).trans (List.drop_suffix _ _)

theorem statusHandler_suffix {s : HttpProtocol} {buffer : List UInt8} {r : Handled}
    (h : statusHandler beyond s buffer = some (some r)) : r.buffer <:+ buffer := by
  cases s with
  | readingStartLine =>
    cases h
    unfold readStartLine
    split
    · exact List.suffix_refl _
    · split
      · exact List.suffix_refl _
      · exact List.drop_suffix _ _
  | readingHeader message chunkBuffer =>
    cases h
    unfold readHeader
    split
    · exact List.suffix_refl _
    · split
      · exact List.drop_suffix _ _
      · split
        · exact List.suffix_refl _
        · split
          · exact List.suffix_refl _
          · exact List.drop_suffix _ _
  | readingBody message chunkBuffer =>
    have hbody : readBody beyond message chunkBuffer buffer = some r := Option.some.inj h
    unfold readBody at hbody
    split at hbody
    · split at hbody
      · cases hbody
        exact List.suffix_refl _
      · cases hbody
        exact List.drop_suffix _ _
    · split at hbody
      · exact readChunks_suffix hbody
      · cases hbody
        exact List.suffix_refl _
  | finished message chunkBuffer => cases h
  | pendingError message chunkBuffer => cases h

theorem recvMessage_suffix : ∀ {fuel : Nat} {s : HttpProtocol} {buffer : List UInt8}
    {r : Received}, recvMessage beyond fuel s buffer = some r → r.buffer <:+ buffer
  | 0, _, _, _, h => by cases h
  | fuel + 1, s, buffer, r, h => by
    rw [recvMessage] at h
    rcases hcalled : statusHandler beyond s buffer with _ | _ | ⟨ret, self, rest⟩ <;>
      rw [hcalled] at h
    · cases h
      exact List.suffix_refl _
    · cases h
    · have hrest : rest <:+ buffer := statusHandler_suffix hcalled
      dsimp only at h
      split at h
      · cases h
        exact hrest
      · split at h
        · cases h
          exact hrest
        · split at h
          · cases h
            exact hrest
          · exact (recvMessage_suffix h).trans hrest

end Suffix

/-! ## Any calls -/

/-- From a state of `HttpProtocol`, handlers are called in states of `HttpProtocol`. -/
theorem passes_impl {beyond : Nat → UInt8} {s₀ : HttpProtocol} {buffer₀ : List UInt8} {s : Impl}
    {buffer : List UInt8} (h : Impl.Passes beyond s₀.impl buffer₀ s buffer) :
    ∃ s' : HttpProtocol, s = s'.impl := by
  induction h with
  | start => exact ⟨s₀, rfl⟩
  | next h hr hnext hself ih =>
    obtain ⟨s', rfl⟩ := ih
    rw [statusHandler_impl] at hr
    obtain ⟨called, hcalled, hr⟩ := Option.map_eq_some_iff.1 hr
    obtain ⟨r', hr', rfl⟩ := Option.map_eq_some_iff.1 hr
    exact ⟨r'.self, rfl⟩

theorem message_of_reading {s : HttpProtocol}
    (h : s.impl.status = .readingHeader ∨ s.impl.status = .readingBody) :
    s.impl.message ≠ none := by
  cases s with
  | readingStartLine => rcases h with h | h <;> cases h
  | pendingError message chunkBuffer => rcases h with h | h <;> cases h
  | _ => exact Option.some_ne_none _

/-- A call that an application makes leaves a state of `HttpProtocol`. -/
theorem step_impl (s : HttpProtocol) (op : Impl.Op) :
    ∃ s' : HttpProtocol, s.impl.step op = some s'.impl := by
  cases op with
  | recvMessage buffer beyond =>
    obtain ⟨r, hr⟩ := receives_total beyond s buffer
    refine ⟨r.self, ?_⟩
    rw [Impl.step, recvMessage_impl, hr _ le_rfl]
    rfl
  | retrieveRequest =>
    rw [Impl.step, retrieveRequest_impl]
    cases s.retrieveRequest with
    | none => exact ⟨s, rfl⟩
    | some p => exact ⟨p.2, rfl⟩
  | retrieveResponse =>
    rw [Impl.step, retrieveResponse_impl]
    cases s.retrieveResponse with
    | none => exact ⟨s, rfl⟩
    | some p => exact ⟨p.2, rfl⟩
  | reset => exact ⟨.reset, rfl⟩

/-- **`recvMessage` is safe** after any calls: it returns, what is left of the bytes is their end,
and whenever a header or a body is read there is a message. -/
theorem recvMessage_safe (ops : List Impl.Op) :
    ∃ s, Runs.run Impl.step Impl.reset ops = some s ∧
      ∀ (beyond : Nat → UInt8) (buffer : List UInt8),
        (∃ r, (∀ fuel, buffer.length + 2 ≤ fuel →
          Impl.recvMessage beyond fuel s buffer = some r) ∧ r.buffer <:+ buffer) ∧
        ∀ s' buffer', Impl.Passes beyond s buffer s' buffer' →
          s'.status = .readingHeader ∨ s'.status = .readingBody → s'.message ≠ none := by
  have hstep : ∀ (s : Impl) (op : Impl.Op), (∃ t : HttpProtocol, s = t.impl) → True →
      ∃ s', s.step op = some s' ∧ ∃ t : HttpProtocol, s' = t.impl := by
    rintro _ op ⟨t, rfl⟩ _
    obtain ⟨t', ht'⟩ := step_impl t op
    exact ⟨_, ht', t', rfl⟩
  have hall : Runs.EachStep Impl.step (fun _ _ => True) Impl.reset ops :=
    Runs.eachStep_of_forall (fun _ _ => trivial) _ _
  obtain ⟨_, hrun, t, rfl⟩ := Runs.run_isSome hstep ⟨HttpProtocol.reset, rfl⟩ hall
  refine ⟨_, hrun, fun beyond buffer => ⟨?_, ?_⟩⟩
  · obtain ⟨r, hr⟩ := receives_total beyond t buffer
    refine ⟨r.impl, fun fuel hfuel => ?_, recvMessage_suffix (hr _ le_rfl)⟩
    rw [recvMessage_impl, hr fuel hfuel]
    rfl
  · intro s' buffer' h hreading
    obtain ⟨t', rfl⟩ := passes_impl h
    exact message_of_reading hreading

end HttpProtocol

end Brickred
