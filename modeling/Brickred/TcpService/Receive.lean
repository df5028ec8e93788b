import Brickred.DynamicBuffer
import Brickred.TcpService.Interest

/-!
# The read side of a connection

`onSocketRead` in full: the loop over `recv` into the read buffer, with its four ends, and what the
application is told behind it.  What the kernel answers in each turn is an input; the
`RecvMessageCallback` may do anything to the service and to the read buffer.

* `readLoop` — the loop, on the read buffer itself; `readLoop_buffer` — what it puts there;
  `readLoop_failed_iff` — when it ends in an error; `readLoop_refines` — it does what the loop on
  the bytes does.
* `onSocketRead` — the whole function, with a record of what it reads and of whom it calls;
  `onSocketRead_service` — what it does to the service.
* `onSocketRead_delivers_iff` — when all bytes are handed over before anything is reported.
-/

set_option autoImplicit false

namespace Brickred

namespace TcpService

namespace Receive

variable {κ : Type}

/-- The check for buffer overflow, when `readable` bytes are in the buffer. -/
def Overflows (maxSize readable : Nat) (turn : Turn) : Prop :=
  maxSize > 0 ∧ toSize (turn.bytesToRead + readable) > maxSize

instance (maxSize readable : Nat) (turn : Turn) : Decidable (Overflows maxSize readable turn) :=
  inferInstanceAs (Decidable (_ ∧ _))

/-- The read buffer behind the loop, what each `recv` has put into it, and how the loop ends. -/
structure ReadLoop where
  readBuffer : DynamicBuffer
  received : List (List UInt8)
  readEnd : ReadEnd

/-- It has no result when it does not end with the last turn, or when the storage would get larger
than a vector can be. -/
def readLoop (maxSize : Nat) : List Turn → DynamicBuffer → Option ReadLoop
  | [], _ => none
  | turn :: turns, d =>
    if Overflows maxSize d.readableBytes turn then
      if turns = [] then some ⟨d, [], .peerClose⟩ else none
    else do
      let d ← d.reserveWritableBytes turn.bytesToRead
      match turn.result with
      | .bytes bytes =>
        let d ← d.store 0 bytes
        let loop ← readLoop maxSize turns (d.write bytes.length)
        some { loop with received := bytes :: loop.received }
      | .fails errno =>
        if turns ≠ [] then none
        else if errno = EAGAIN then some ⟨d, [], .drained⟩
        else some ⟨d, [], .failed errno⟩
      | .endOfStream => if turns = [] then some ⟨d, [], .peerClose⟩ else none

/-- Which callbacks are set; what the first one does. -/
structure ReadCallbacks (κ : Type) where
  recvMessageCb : Option (TcpService κ → DynamicBuffer → TcpService κ × DynamicBuffer)
  peerCloseCb : Bool
  errorCb : Bool

inductive ReadEvent where
  /-- `recv` has put these bytes into the read buffer -/
  | received (bytes : List UInt8)
  /-- the callback is called with the read buffer -/
  | recvMessage (readBuffer : DynamicBuffer)
  | peerClose
  | error (errno : Int)

structure ReadRun (κ : Type) where
  service : TcpService κ
  readBuffer : DynamicBuffer
  events : List ReadEvent

/-- `if (data_arrive) { … }` -/
def deliver (cbs : ReadCallbacks κ) (s : TcpService κ) (loop : ReadLoop) : ReadRun κ :=
  let received := loop.received.map ReadEvent.received
  match cbs.recvMessageCb with
  | none => ⟨s, loop.readBuffer, received⟩
  | some cb =>
    if loop.received ≠ [] then
      let (s, readBuffer) := cb s loop.readBuffer
      ⟨s, readBuffer, received ++ [.recvMessage loop.readBuffer]⟩
    else ⟨s, loop.readBuffer, received⟩

/-- A report at the end of the function, where its callback is set. -/
def report (set : Bool) (event : ReadEvent) : List ReadEvent := if set then [event] else []

def onSocketRead (cbs : ReadCallbacks κ) (maxSize : Nat) (s : TcpService κ) (id : SocketId)
    (readBuffer : DynamicBuffer) (turns : List Turn) : Option (ReadRun κ) :=
  if (s.connections id).isNone then some ⟨s, readBuffer, []⟩
  else do
    let loop ← readLoop maxSize turns readBuffer
    match loop.readEnd with
    | .failed errno =>
      some ⟨s.onSocketRead id (.failed errno), loop.readBuffer,
        loop.received.map ReadEvent.received ++ report cbs.errorCb (.error errno)⟩
    | .drained => some (deliver cbs s loop)
    | .peerClose =>
      let run := deliver cbs s loop
      -- the callback has closed the socket
      if loop.received ≠ [] ∧ (run.service.connections id).isNone then some run
      else
        some { run with
          service := run.service.onSocketRead id .peerClose
          events := run.events ++ report cbs.peerCloseCb .peerClose }

/-! ## The loop -/

/-- What a turn puts into the buffer. -/
def turnBytes (turn : Turn) : List UInt8 :=
  match turn.result with
  | .bytes bytes => bytes
  | _ => []

/-- How the loop ends in a turn that receives nothing, when `readable` bytes are in the buffer. -/
inductive LastTurn (maxSize readable : Nat) (turn : Turn) : ReadEnd → Prop where
  | full (h : Overflows maxSize readable turn) : LastTurn maxSize readable turn .peerClose
  | drained (h : turn.result = .fails EAGAIN) : LastTurn maxSize readable turn .drained
  | failed {errno : Int} (hfits : ¬ Overflows maxSize readable turn)
      (h : turn.result = .fails errno) (herrno : errno ≠ EAGAIN) :
      LastTurn maxSize readable turn (.failed errno)
  | endOfStream (h : turn.result = .endOfStream) : LastTurn maxSize readable turn .peerClose

/-- The last turn is an error that is reported, and the turns before it have received something. -/
def ErrorBehindData (maxSize readable : Nat) (turns : List Turn) : Prop :=
  ∃ data turn errno, turns = data ++ [turn] ∧ data ≠ [] ∧ turn.result = .fails errno ∧
    errno ≠ EAGAIN ∧ ¬ Overflows maxSize (readable + (data.flatMap turnBytes).length) turn

section Loop

variable {maxSize : Nat} {turn : Turn} {turns : List Turn} {d : DynamicBuffer} {loop : ReadLoop}

/-- **A turn of the loop** receives bytes, or ends it. -/
theorem readLoop_cons (h : readLoop maxSize (turn :: turns) d = some loop) :
    (∃ bytes d' loop', turn.result = .bytes bytes ∧ ¬ Overflows maxSize d.readableBytes turn ∧
      readLoop maxSize turns d' = some loop' ∧ d'.readable = d.readable ++ bytes ∧
      loop = { loop' with received := bytes :: loop'.received }) ∨
    turns = [] ∧ loop.readBuffer.readable = d.readable ∧ loop.received = [] ∧
      LastTurn maxSize d.readableBytes turn loop.readEnd := by
  rw [readLoop] at h
  split at h
  · rename_i hfull
    split at h
    · rename_i hturns
      cases h
      exact Or.inr ⟨hturns, rfl, rfl, .full hfull⟩
    · cases h
  rename_i hfits
  obtain ⟨d₁, hd₁, h⟩ := Option.bind_eq_some_iff.1 h
  have hread₁ := DynamicBuffer.reserve_readable hd₁
  cases hresult : turn.result with
  | bytes bytes =>
    rw [hresult] at h
    obtain ⟨d₂, hd₂, h⟩ := Option.bind_eq_some_iff.1 h
    obtain ⟨loop', hloop', h⟩ := Option.bind_eq_some_iff.1 h
    cases h
    have hread₂ := DynamicBuffer.store_readable hd₂
    exact Or.inl ⟨bytes, _, loop', rfl, hfits, hloop', by rw [hread₂, hread₁], rfl⟩
  | fails errno =>
    rw [hresult] at h
    dsimp only at h
    split at h
    · cases h
    rename_i hturns
    split at h
    · rename_i herrno
      cases h
      exact Or.inr ⟨not_not.1 hturns, hread₁, rfl, .drained (herrno ▸ hresult)⟩
    · rename_i herrno
      cases h
      exact Or.inr ⟨not_not.1 hturns, hread₁, rfl, .failed hfits hresult herrno⟩
  | endOfStream =>
    rw [hresult] at h
    dsimp only at h
    split at h
    · rename_i hturns
      cases h
      exact Or.inr ⟨hturns, hread₁, rfl, .endOfStream hresult⟩
    · cases h

/-- **The read buffer grows** by what is received. -/
theorem readLoop_buffer : ∀ {turns : List Turn} {d : DynamicBuffer} {loop : ReadLoop},
    readLoop maxSize turns d = some loop →
    loop.readBuffer.readable = d.readable ++ loop.received.flatten
  | [], _, _, h => by cases h
  | turn :: turns, d, loop, h => by
    rcases readLoop_cons h with ⟨bytes, d', loop', -, -, hloop', hread, rfl⟩ |
      ⟨-, hread, hreceived, -⟩
    · have ih := readLoop_buffer hloop'
      rw [hread] at ih
      rw [List.flatten_cons, ← List.append_assoc]
      exact ih
    · rw [hread, hreceived, List.flatten_nil, List.append_nil]

/-- The turns of a loop that ends: all but the last one receive bytes. -/
theorem readLoop_turns : ∀ {turns : List Turn} {d : DynamicBuffer} {loop : ReadLoop},
    readLoop maxSize turns d = some loop →
    ∃ data turn, turns = data ++ [turn] ∧ (∀ t ∈ data, ∃ bytes, t.result = .bytes bytes) ∧
      loop.received = data.map turnBytes ∧
      LastTurn maxSize (d.readableBytes + (data.flatMap turnBytes).length) turn loop.readEnd
  | [], _, _, h => by cases h
  | turn :: turns, d, loop, h => by
    rcases readLoop_cons h with ⟨bytes, d', loop', hresult, -, hloop', hread, rfl⟩ |
      ⟨rfl, -, hreceived, hend⟩
    · obtain ⟨data, last, rfl, hbytes, hreceived, hend⟩ := readLoop_turns hloop'
      have hturn : turnBytes turn = bytes := by
        unfold turnBytes
        rw [hresult]
      have hlen : d'.readableBytes = d.readableBytes + bytes.length := by
        rw [← d'.readable_length, hread, List.length_append, d.readable_length]
      refine ⟨turn :: data, last, rfl, ?_, ?_, ?_⟩
      · intro t ht
        rcases List.mem_cons.1 ht with rfl | ht
        · exact ⟨bytes, hresult⟩
        · exact hbytes t ht
      · rw [List.map_cons, hturn, hreceived]
      · rw [hlen, Nat.add_assoc] at hend
        rw [List.flatMap_cons, List.length_append, hturn]
        exact hend
    · exact ⟨[], turn, rfl, fun t ht => absurd ht List.not_mem_nil, hreceived, hend⟩

/-- A loop ends in an error behind what it has received exactly if its turns say so. -/
theorem readLoop_failed_iff (h : readLoop maxSize turns d = some loop) :
    (∃ errno, loop.readEnd = .failed errno) ∧ loop.received ≠ [] ↔
      ErrorBehindData maxSize d.readableBytes turns := by
  obtain ⟨data, turn, rfl, -, hreceived, hend⟩ := readLoop_turns h
  rw [hreceived, Ne, List.map_eq_nil_iff]
  constructor
  · rintro ⟨⟨errno, herror⟩, hne⟩
    rw [herror] at hend
    cases hend with
    | failed hfits hresult herrno => exact ⟨data, turn, errno, rfl, hne, hresult, herrno, hfits⟩
  · rintro ⟨data', turn', errno, heq, hne, hresult, herrno, hfits⟩
    obtain ⟨rfl, hturn⟩ := List.append_inj' heq rfl
    obtain rfl := (List.cons.inj hturn).1
    refine ⟨?_, hne⟩
    generalize loop.readEnd = readEnd at hend
    cases hend with
    | full hfull => exact absurd hfull hfits
    | drained h =>
      rw [hresult] at h
      cases h
      exact absurd rfl herrno
    | failed _ _ _ => exact ⟨_, rfl⟩
    | endOfStream h =>
      rw [hresult] at h
      cases h

/-- What is received is not empty, as `recv` returns `0` for the end of the stream only. -/
theorem readLoop_flatten (hvalid : ∀ turn ∈ turns, turn.Valid)
    (h : readLoop maxSize turns d = some loop) :
    loop.received.flatten = [] ↔ loop.received = [] := by
  refine ⟨fun hflat => ?_, fun hnil => by rw [hnil]; rfl⟩
  obtain ⟨data, turn, rfl, hbytes, hreceived, -⟩ := readLoop_turns h
  cases data with
  | nil => exact hreceived
  | cons t data =>
    obtain ⟨bytes, hresult⟩ := hbytes t List.mem_cons_self
    have hne := (hvalid t List.mem_cons_self bytes hresult).1
    rw [hreceived, List.map_cons, List.flatten_cons, List.append_eq_nil_iff] at hflat
    unfold turnBytes at hflat
    rw [hresult] at hflat
    exact absurd hflat.1 hne

/-- A turn that receives nothing ends the loop on the bytes as it ends the loop. -/
theorem readLoop_quiet {d₁ : DynamicBuffer} {dataArrive arrived : Bool} {readBuffer : List UInt8}
    {readEnd : ReadEnd} (hquiet : ∀ bytes, turn.result ≠ .bytes bytes)
    (hfits : ¬ Overflows maxSize d.readableBytes turn)
    (hd₁ : d.reserveWritableBytes turn.bytesToRead = some d₁)
    (h : TcpService.readLoop maxSize (turn :: turns) d.readable dataArrive =
      some (readBuffer, arrived, readEnd)) :
    readLoop maxSize (turn :: turns) d = some ⟨d₁, [], readEnd⟩ ∧ d₁.readable = readBuffer ∧
      arrived = dataArrive := by
  have hread₁ := DynamicBuffer.reserve_readable hd₁
  rw [TcpService.readLoop, d.readable_length, if_neg (show ¬ (_ ∧ _) from hfits)] at h
  rw [readLoop, if_neg hfits, hd₁, Option.bind_eq_bind, Option.bind_some]
  split at h
  · cases h
  cases hresult : turn.result with
  | bytes bytes => exact absurd hresult (hquiet bytes)
  | fails errno =>
    rw [hresult] at h
    dsimp only at h ⊢
    split at h
    · cases h
    rename_i hlast
    rw [if_neg hlast]
    split at h
    · rename_i herrno
      cases h
      rw [if_pos herrno]
      exact ⟨rfl, hread₁, rfl⟩
    · rename_i herrno
      cases h
      rw [if_neg herrno]
      exact ⟨rfl, hread₁, rfl⟩
  | endOfStream =>
    rw [hresult] at h
    dsimp only at h ⊢
    split at h
    · rename_i hlast
      cases h
      rw [if_pos hlast]
      exact ⟨rfl, hread₁, rfl⟩
    · cases h

/-- **The loop on the bytes** is what the loop does, as long as a vector can hold them: its last
reservation may take two blocks more than the bytes it is for. -/
theorem readLoop_refines : ∀ {turns : List Turn} {d : DynamicBuffer} {dataArrive arrived : Bool}
    {readBuffer : List UInt8} {readEnd : ReadEnd}, d.Sized →
    (∀ turn ∈ turns, turn.Valid ∧ turn.readableBytes < 2 ^ 31) →
    d.readableBytes + (turns.flatMap turnBytes).length + 2 ^ 31 + 2 * d.expandSize < 2 ^ 63 →
    TcpService.readLoop maxSize turns d.readable dataArrive =
      some (readBuffer, arrived, readEnd) →
    ∃ loop, readLoop maxSize turns d = some loop ∧ loop.readBuffer.readable = readBuffer ∧
      loop.readEnd = readEnd ∧ (arrived = true ↔ dataArrive = true ∨ loop.received ≠ [])
  | [], _, _, _, _, _, _, _, _, h => by cases h
  | turn :: turns, d, dataArrive, arrived, readBuffer, readEnd, hd, hturns, hroom, h => by
    obtain ⟨hvalid, hint⟩ := hturns turn List.mem_cons_self
    have hbytes : turn.bytesToRead < 2 ^ 31 := by
      unfold Turn.bytesToRead
      omega
    have hlen := d.readable_length
    rw [List.flatMap_cons, List.length_append] at hroom
    by_cases hfull : Overflows maxSize d.readableBytes turn
    · rw [TcpService.readLoop, hlen, if_pos (show _ ∧ _ from hfull)] at h
      rw [readLoop, if_pos hfull]
      split at h
      · rename_i hlast
        cases h
        rw [if_pos hlast]
        exact ⟨_, rfl, rfl, rfl, by simp⟩
      · cases h
    have hfits : d.Fits turn.bytesToRead := DynamicBuffer.fits_of_lt hd (by omega)
    by_cases hquiet : ∀ bytes, turn.result ≠ .bytes bytes
    · obtain ⟨d₁, hd₁, -⟩ := DynamicBuffer.reserve_spec hd (by omega) hfits
      obtain ⟨hloop, hread₁, rfl⟩ := readLoop_quiet hquiet hfull hd₁ h
      exact ⟨_, hloop, hread₁, rfl, by simp⟩
    · push Not at hquiet
      obtain ⟨bytes, hresult⟩ := hquiet
      obtain ⟨d₁, d₂, hd₁, hd₂, hread, hexpand, hsized⟩ :=
        DynamicBuffer.fill_spec hd (by omega) hfits (hvalid bytes hresult).2
      have hreadable : (d₂.write bytes.length).readableBytes = d.readableBytes + bytes.length := by
        rw [← DynamicBuffer.readable_length, hread, List.length_append, hlen]
      have hturn : turnBytes turn = bytes := by
        unfold turnBytes
        rw [hresult]
      rw [hturn] at hroom
      rw [TcpService.readLoop, hlen, if_neg (show ¬ (_ ∧ _) from hfull), if_neg (by omega),
        hresult] at h
      have hrest : TcpService.readLoop maxSize turns (d₂.write bytes.length).readable true =
          some (readBuffer, arrived, readEnd) := by
        rw [hread]
        exact h
      obtain ⟨loop', hloop', hbuffer, hend, harrived⟩ := readLoop_refines hsized
        (fun t ht => hturns t (List.mem_cons_of_mem turn ht)) (by rw [hreadable, hexpand]; omega)
        hrest
      rw [readLoop, if_neg hfull, hd₁, Option.bind_eq_bind, Option.bind_some, hresult]
      dsimp only
      rw [hd₂, Option.bind_eq_bind, Option.bind_some, hloop']
      refine ⟨_, rfl, hbuffer, hend, iff_of_true (harrived.2 (Or.inl rfl)) (Or.inr ?_)⟩
      exact List.cons_ne_nil _ _

end Loop

/-! ## What the application is told -/

def ReadEvent.bytes : ReadEvent → List UInt8
  | received bytes => bytes
  | _ => []

/-- The event is an `ErrorCallback` or a `PeerCloseCallback`. -/
def ReadEvent.isReport : ReadEvent → Bool
  | peerClose => true
  | error _ => true
  | _ => false

/-- All bytes that are read. -/
def received (events : List ReadEvent) : List UInt8 := events.flatMap ReadEvent.bytes

/-- All bytes that are read are in the buffer the `RecvMessageCallback` gets, and it is called
before anything is reported. -/
def DeliveredFirst (before : List UInt8) (events : List ReadEvent) : Prop :=
  received events ≠ [] → ∃ pre readBuffer post,
    events = pre ++ .recvMessage readBuffer :: post ∧
      readBuffer.readable = before ++ received events ∧ ∀ e ∈ pre, e.isReport = false

/-- The read buffer grows by the bytes that are read: as the callback gets it, and, where it is not
called, as it stays. -/
structure GrowsBy (before : List UInt8) (run : ReadRun κ) : Prop where
  handed : ∀ readBuffer, ReadEvent.recvMessage readBuffer ∈ run.events →
    readBuffer.readable = before ++ received run.events
  kept : (∀ readBuffer, ReadEvent.recvMessage readBuffer ∉ run.events) →
    run.readBuffer.readable = before ++ received run.events

theorem received_append (events events' : List ReadEvent) :
    received (events ++ events') = received events ++ received events' := List.flatMap_append

theorem received_map (chunks : List (List UInt8)) :
    received (chunks.map ReadEvent.received) = chunks.flatten := by
  induction chunks with
  | nil => rfl
  | cons bytes chunks ih =>
    rw [List.map_cons, List.flatten_cons, ← ih]
    rfl

theorem received_report {set : Bool} {event : ReadEvent} (h : event.isReport = true) :
    received (report set event) = [] := by
  cases set <;> cases event <;> first | rfl | cases h

theorem recvMessage_notMem_map (chunks : List (List UInt8)) (readBuffer : DynamicBuffer) :
    ReadEvent.recvMessage readBuffer ∉ chunks.map ReadEvent.received := by
  intro h
  obtain ⟨bytes, -, heq⟩ := List.mem_map.1 h
  cases heq

theorem recvMessage_notMem_report {set : Bool} {event : ReadEvent} (h : event.isReport = true)
    (readBuffer : DynamicBuffer) : ReadEvent.recvMessage readBuffer ∉ report set event := by
  intro hmem
  cases set with
  | false => cases hmem
  | true =>
    rw [← List.mem_singleton.1 hmem] at h
    cases h

theorem isReport_map {chunks : List (List UInt8)} {e : ReadEvent}
    (h : e ∈ chunks.map ReadEvent.received) : e.isReport = false := by
  obtain ⟨bytes, -, rfl⟩ := List.mem_map.1 h
  rfl

section Run

variable {cbs : ReadCallbacks κ} {maxSize : Nat} {s : TcpService κ} {id : SocketId}
  {d : DynamicBuffer} {turns : List Turn}
  {run : ReadRun κ} {loop : ReadLoop} {before : List UInt8} {set : Bool} {event : ReadEvent}

/-- Behind a loop that only reports. -/
theorem failed_delivers_iff
    (hbuffer : loop.readBuffer.readable = before ++ loop.received.flatten)
    (hevent : event.isReport = true)
    (hevents : run.events = loop.received.map ReadEvent.received ++ report set event)
    (hread : run.readBuffer = loop.readBuffer) :
    GrowsBy before run ∧ (DeliveredFirst before run.events ↔ loop.received.flatten = []) := by
  have hreceived : received run.events = loop.received.flatten := by
    rw [hevents, received_append, received_map, received_report hevent, List.append_nil]
  have hnone : ∀ readBuffer, ReadEvent.recvMessage readBuffer ∉ run.events := by
    intro readBuffer hmem
    rw [hevents] at hmem
    rcases List.mem_append.1 hmem with hmem | hmem
    · exact recvMessage_notMem_map _ _ hmem
    · exact recvMessage_notMem_report hevent _ hmem
  refine ⟨⟨fun readBuffer hmem => absurd hmem (hnone readBuffer), fun _ => ?_⟩, ?_⟩
  · rw [hread, hbuffer, hreceived]
  · unfold DeliveredFirst
    rw [hreceived]
    constructor
    · intro h
      by_contra hne
      obtain ⟨pre, readBuffer, post, heq, -⟩ := h hne
      exact hnone readBuffer (heq ▸ List.mem_append_right _ List.mem_cons_self)
    · exact fun h hne => absurd h hne

theorem deliver_nothing (h : cbs.recvMessageCb = none ∨ loop.received = []) :
    deliver cbs s loop = ⟨s, loop.readBuffer, loop.received.map ReadEvent.received⟩ := by
  unfold deliver
  rcases h with h | h
  · rw [h]
  · rw [h]
    cases cbs.recvMessageCb with
    | none => rfl
    | some cb => exact if_neg (not_not_intro rfl)

theorem deliver_events {cb : TcpService κ → DynamicBuffer → TcpService κ × DynamicBuffer}
    (hcb : cbs.recvMessageCb = some cb) (h : loop.received ≠ []) :
    (deliver cbs s loop).events =
      loop.received.map ReadEvent.received ++ [.recvMessage loop.readBuffer] := by
  unfold deliver
  rw [hcb]
  dsimp only
  rw [if_pos h]

/-- Behind a loop that hands over what it has received, whatever is reported then. -/
theorem deliver_delivers (hbuffer : loop.readBuffer.readable = before ++ loop.received.flatten)
    (hevent : event.isReport = true)
    (hevents : run.events = (deliver cbs s loop).events ++ report set event)
    (hread : run.readBuffer = (deliver cbs s loop).readBuffer) :
    (cbs.recvMessageCb.isSome → DeliveredFirst before run.events) ∧ GrowsBy before run := by
  by_cases hcall : cbs.recvMessageCb = none ∨ loop.received = []
  · rw [deliver_nothing hcall] at hevents hread
    obtain ⟨hgrows, hiff⟩ := failed_delivers_iff hbuffer hevent hevents hread
    refine ⟨fun hset => hiff.2 ?_, hgrows⟩
    rw [hcall.resolve_left (Option.isSome_iff_ne_none.1 hset), List.flatten_nil]
  · obtain ⟨hcb, hne⟩ := not_or.1 hcall
    obtain ⟨cb, hcb⟩ := Option.ne_none_iff_exists'.1 hcb
    rw [deliver_events hcb hne] at hevents
    have hreceived : received run.events = loop.received.flatten := by
      rw [hevents, received_append, received_append, received_map, received_report hevent,
        List.append_nil]
      exact List.append_nil _
    have hmem : ReadEvent.recvMessage loop.readBuffer ∈ run.events := by
      rw [hevents]
      exact List.mem_append_left _ (List.mem_append_right _ List.mem_cons_self)
    refine ⟨fun _ _ => ⟨loop.received.map ReadEvent.received, loop.readBuffer, report set event,
      ?_, hreceived ▸ hbuffer, fun e he => isReport_map he⟩, fun readBuffer hmem' => ?_,
      fun hnone => absurd hmem (hnone _)⟩
    · rw [hevents, List.append_assoc, List.singleton_append]
    · rw [hevents] at hmem'
      rcases List.mem_append.1 hmem' with hmem' | hmem'
      · rcases List.mem_append.1 hmem' with hmem' | hmem'
        · exact absurd hmem' (recvMessage_notMem_map _ _)
        · cases List.mem_singleton.1 hmem'
          rw [hbuffer, hreceived]
      · exact absurd hmem' (recvMessage_notMem_report hevent _)

/-! ## The whole function -/

/-- What the function does behind its loop. -/
theorem onSocketRead_cases (hconn : (s.connections id).isNone = false)
    (h : onSocketRead cbs maxSize s id d turns = some run) :
    ∃ loop, readLoop maxSize turns d = some loop ∧
      ((∃ errno, loop.readEnd = .failed errno ∧
          run.events =
            loop.received.map ReadEvent.received ++ report cbs.errorCb (.error errno) ∧
          run.readBuffer = loop.readBuffer) ∨
        (∀ errno, loop.readEnd ≠ .failed errno) ∧ ∃ set,
          run.events = (deliver cbs s loop).events ++ report set .peerClose ∧
          run.readBuffer = (deliver cbs s loop).readBuffer) := by
  unfold onSocketRead at h
  rw [if_neg (by rw [hconn]; decide)] at h
  obtain ⟨loop, hloop, h⟩ := Option.bind_eq_some_iff.1 h
  refine ⟨loop, hloop, ?_⟩
  cases hend : loop.readEnd with
  | failed errno =>
    rw [hend] at h
    cases h
    exact Or.inl ⟨errno, rfl, rfl, rfl⟩
  | drained =>
    rw [hend] at h
    cases h
    exact Or.inr ⟨fun errno heq => (by cases heq), false, (List.append_nil _).symm, rfl⟩
  | peerClose =>
    rw [hend] at h
    dsimp only at h
    refine Or.inr ⟨fun errno heq => (by cases heq), ?_⟩
    split at h
    · cases h
      exact ⟨false, (List.append_nil _).symm, rfl⟩
    · cases h
      exact ⟨cbs.peerCloseCb, rfl, rfl⟩

theorem onSocketRead_drained (s : TcpService κ) (id : SocketId) :
    s.onSocketRead id .drained = s := by
  unfold TcpService.onSocketRead
  cases s.connections id <;> rfl

theorem onSocketRead_unknown (h : (s.connections id).isNone) (readEnd : ReadEnd) :
    s.onSocketRead id readEnd = s := by
  unfold TcpService.onSocketRead
  rw [Option.isNone_iff_eq_none.1 h]

/-- The service behind the call is the one of the coarser model, which begins behind the loop and
the `RecvMessageCallback`. -/
theorem onSocketRead_service (hconn : (s.connections id).isNone = false)
    (h : onSocketRead cbs maxSize s id d turns = some run) :
    ∃ loop s', readLoop maxSize turns d = some loop ∧
      (s' = s ∨ s' = (deliver cbs s loop).service) ∧
      run.service = s'.onSocketRead id loop.readEnd := by
  unfold onSocketRead at h
  rw [if_neg (by rw [hconn]; decide)] at h
  obtain ⟨loop, hloop, h⟩ := Option.bind_eq_some_iff.1 h
  cases hend : loop.readEnd with
  | failed errno =>
    rw [hend] at h
    cases h
    exact ⟨loop, s, hloop, Or.inl rfl, by rw [hend]⟩
  | drained =>
    rw [hend] at h
    cases h
    refine ⟨loop, _, hloop, Or.inr rfl, ?_⟩
    rw [hend, onSocketRead_drained]
  | peerClose =>
    rw [hend] at h
    dsimp only at h
    refine ⟨loop, _, hloop, Or.inr rfl, ?_⟩
    rw [hend]
    split at h
    · rename_i hclosed
      cases h
      exact (onSocketRead_unknown hclosed.2 _).symm
    · cases h
      rfl

/-- There is no `RecvMessageCallback`, or no connection, or the loop does not end in an error that
is behind bytes. -/
def NoErrorBehindData (cbs : ReadCallbacks κ) (maxSize : Nat) (s : TcpService κ) (id : SocketId)
    (readBuffer : DynamicBuffer) (turns : List Turn) : Prop :=
  cbs.recvMessageCb = none ∨ s.connections id = none ∨
    ¬ ErrorBehindData maxSize readBuffer.readableBytes turns

/-- **Received data is delivered before a failure is reported** exactly when the loop does not end
in an error that is behind bytes; the read buffer grows by the bytes in any case. -/
theorem onSocketRead_delivers_iff (hvalid : ∀ turn ∈ turns, turn.Valid)
    (h : onSocketRead cbs maxSize s id d turns = some run) :
    ((cbs.recvMessageCb.isSome → DeliveredFirst d.readable run.events) ∧
        GrowsBy d.readable run) ↔
      NoErrorBehindData cbs maxSize s id d turns := by
  unfold NoErrorBehindData
  by_cases hconn : s.connections id = none
  · unfold onSocketRead at h
    rw [hconn] at h
    cases h
    refine iff_of_true ⟨fun _ hne => absurd rfl hne, fun readBuffer hmem => ?_, fun _ => ?_⟩
      (Or.inr (Or.inl hconn))
    · cases hmem
    · exact (List.append_nil _).symm
  obtain ⟨loop, hloop, hcase⟩ :=
    onSocketRead_cases (Option.isNone_eq_false_iff.2 (Option.isSome_iff_ne_none.2 hconn)) h
  have hbuffer := readLoop_buffer hloop
  rw [← readLoop_failed_iff hloop]
  rcases hcase with ⟨errno, hend, hevents, hread⟩ | ⟨hend, set, hevents, hread⟩
  · obtain ⟨hgrows, hiff⟩ := failed_delivers_iff hbuffer rfl hevents hread
    rw [and_iff_left hgrows, hiff, readLoop_flatten hvalid hloop, Option.isSome_iff_ne_none]
    simp [hconn, hend, or_iff_not_imp_left]
  · refine iff_of_true (deliver_delivers hbuffer rfl hevents hread) ?_
    refine Or.inr (Or.inr ?_)
    rintro ⟨⟨errno, herror⟩, -⟩
    exact hend errno herror

end Run

/-! ## A connection that is reset -/

def ECONNRESET : Int := 104

/-- All callbacks are set; the first one leaves the bytes in the read buffer. -/
def keepingCallbacks : ReadCallbacks Unit := ⟨some fun s readBuffer => (s, readBuffer), true, true⟩

/-- One byte, and then the answer `last`, on a new connection. -/
def readByteThen (last : RecvResult) : Option (ReadRun Unit) :=
  onSocketRead keepingCallbacks 0 (init.buildConnectedSocket 5) (2 ^ 32 + 5)
    (DynamicBuffer.new 16 16) [⟨1, .bytes [7]⟩, ⟨0, last⟩]

theorem close_behind_data : ∃ run, readByteThen .endOfStream = some run ∧
    DeliveredFirst [] run.events ∧ GrowsBy [] run := by
  obtain ⟨run, hrun⟩ : ∃ run, readByteThen .endOfStream = some run :=
    Option.isSome_iff_exists.1 rfl
  have hvalid : ∀ turn ∈ [(⟨1, .bytes [7]⟩ : Turn), ⟨0, .endOfStream⟩], turn.Valid := by
    intro turn hturn bytes hbytes
    rcases List.mem_cons.1 hturn with rfl | hturn
    · cases hbytes
      decide
    · cases List.mem_singleton.1 hturn
      cases hbytes
  have hloop : NoErrorBehindData keepingCallbacks 0 (init.buildConnectedSocket 5) (2 ^ 32 + 5)
      (DynamicBuffer.new 16 16) [⟨1, .bytes [7]⟩, ⟨0, .endOfStream⟩] := by
    refine Or.inr (Or.inr ?_)
    rintro ⟨data, turn, errno, heq, -, hresult, -⟩
    have hlast := congrArg List.getLast? heq
    rw [List.getLast?_concat] at hlast
    cases hlast
    cases hresult
  have hfirst := (onSocketRead_delivers_iff hvalid hrun).2 hloop
  exact ⟨run, hrun, hfirst.1 rfl, hfirst.2⟩

/-- **Data behind which the connection is reset**: the error is reported, and the byte that was
read before is not handed over. -/
theorem reset_behind_data :
    (readByteThen (.fails ECONNRESET)).map ReadRun.events =
        some [.received [7], .error ECONNRESET] ∧
      ¬ DeliveredFirst [] [.received [7], .error ECONNRESET] := by
  refine ⟨rfl, fun h => ?_⟩
  obtain ⟨pre, readBuffer, post, heq, -⟩ := h (by decide)
  have hmem : ReadEvent.recvMessage readBuffer ∈
      [ReadEvent.received [7], ReadEvent.error ECONNRESET] :=
    heq ▸ List.mem_append_right _ List.mem_cons_self
  simp at hmem

end Receive

end TcpService

end Brickred
