import Brickred.Lib.Segmentation
import Brickred.Http.Protocol

/-!
# The parser as a reader

* `parser` — the parser as a `Segmentation.Reader`: a turn takes a start line, a header block, a
  body or a chunk off the stream.
* `receives_wait`, `receives_stop`, `receives_silent`, `receives_message` — a call of `recvMessage`
  does what the turns of the reader do, unless a comparison leaves the readable bytes (`Overread`).
-/

set_option autoImplicit false

namespace Brickred

namespace HttpProtocol

open StringUtil HttpMessage Segmentation

/-! ## Turns -/

def startLineTurn (buffer : List UInt8) : Turn HttpProtocol HttpMessage :=
  match find buffer crlf with
  | none => .wait
  | some n =>
    match parseStartLine (buffer.take n) with
    | none => .stop []
    | some message => .take (.readingHeader message none) (n + 2) [] true

/-- Behind a header block of `used` bytes. -/
def headersTurn (chunkBuffer : Option (List UInt8)) (used : Nat) :
    HttpMessage × Bool → Turn HttpProtocol HttpMessage
  | (_, false) => .stop []
  | (message, true) =>
    if contentLength message > 0 then .take (.readingBody message chunkBuffer) used [] true
    else if chunked message then
      .take (.readingBody message (some (chunkBuffer.getD []))) used [] true
    else .take .readingStartLine used [message] true

def headerTurn (message : HttpMessage) (chunkBuffer : Option (List UInt8))
    (buffer : List UInt8) : Turn HttpProtocol HttpMessage :=
  if buffer.length < 2 then .wait
  else if buffer.take 2 = crlf then .take .readingStartLine 2 [message] true
  else
    match find buffer (crlf ++ crlf) with
    | none => .wait
    | some n =>
      headersTurn chunkBuffer (n + 4) (setHeaders message (split (buffer.take n) crlf (-1)))

def contentTurn (message : HttpMessage) (buffer : List UInt8) : Turn HttpProtocol HttpMessage :=
  if buffer.length < (contentLength message).toNat then .wait
  else
    .take .readingStartLine (contentLength message).toNat
      [message.setBody (buffer.take (contentLength message).toNat)] true

/-- The bytes behind a line end at `n`: a chunk of `size` bytes and a line end, or the line end
of the last chunk. -/
def chunkTurn (message : HttpMessage) (chunkBuffer buffer : List UInt8) :
    Turn HttpProtocol HttpMessage :=
  match find buffer crlf with
  | none => .wait
  | some n =>
    match scanHex (buffer.take n) with
    | none => .stop []
    | some size =>
      if buffer.length < n + 2 + size + 2 then .wait
      else if (buffer.drop (n + 2 + size)).take 2 ≠ crlf then .stop []
      else if 0 = size then
        .take .readingStartLine (n + 2 + size + 2) [decoded message chunkBuffer] true
      else
        .take (.readingBody message (some (chunkBuffer ++ (buffer.drop (n + 2)).take size)))
          (n + 2 + size + 2) [] true

def turn : HttpProtocol → List UInt8 → Turn HttpProtocol HttpMessage
  | .readingStartLine => startLineTurn
  | .readingHeader message chunkBuffer => headerTurn message chunkBuffer
  | .readingBody message chunkBuffer =>
    if contentLength message > 0 then contentTurn message
    else if chunked message then chunkTurn message (chunkBuffer.getD [])
    else fun _ => .wait
  | .finished _ _ => fun _ => .wait
  | .pendingError _ _ => fun _ => .wait

section Find

variable {buffer keyword : List UInt8} {n : Nat}

theorem find_append (h : find buffer keyword = some n) (ext : List UInt8) :
    find (buffer ++ ext) keyword = some n := by
  unfold find at h ⊢
  split at h
  · cases h
  · rename_i hne
    rw [if_neg hne]
    exact Search.firstIndex_append h ext

theorem find_le (h : find buffer keyword = some n) : n + keyword.length ≤ buffer.length := by
  unfold find at h
  split at h
  · cases h
  · rename_i hne
    exact Search.firstIndex_le h hne

theorem find_take (h : find buffer keyword = some n) :
    find (buffer.take (n + keyword.length)) keyword = some n := by
  unfold find at h ⊢
  split at h
  · cases h
  · rename_i hne
    rw [if_neg hne]
    exact Search.firstIndex_take h hne

/-- What `find` has found stays there when fewer bytes are taken. -/
theorem find_take_of_le (h : find buffer keyword = some n) {used : Nat}
    (hle : n + keyword.length ≤ used) : find (buffer.take used) keyword = some n := by
  have ht := find_append (find_take h) ((buffer.take used).drop (n + keyword.length))
  have htake : buffer.take (n + keyword.length) = (buffer.take used).take (n + keyword.length) := by
    rw [List.take_take, Nat.min_eq_left hle]
  rwa [htake, List.take_append_drop] at ht

end Find

theorem startLineTurn_isTurn : IsTurn startLineTurn where
  empty := rfl
  take {buffer s' used out more} h := by
    unfold startLineTurn at h
    split at h
    · cases h
    · rename_i n hn
      have hle := find_le hn
      change n + 2 ≤ _ at hle
      split at h
      · cases h
      · rename_i message hmessage
        cases h
        refine ⟨by omega, hle, ?_⟩
        unfold startLineTurn
        rw [find_take_of_le hn (show n + 2 ≤ _ by omega)]
        dsimp only
        split <;> exact fun hw => by cases hw
  extend {buffer} ext h := by
    unfold startLineTurn at h ⊢
    cases hn : find buffer crlf with
    | none => rw [hn] at h; exact absurd rfl h
    | some n =>
      have hle := find_le hn
      rw [find_append hn]
      dsimp only
      rw [List.take_append_of_le_length (by omega)]

theorem headersTurn_take {chunkBuffer : Option (List UInt8)} {n used : Nat}
    {r : HttpMessage × Bool} {s' : HttpProtocol} {out : List HttpMessage} {more : Bool}
    (h : headersTurn chunkBuffer n r = .take s' used out more) : used = n := by
  obtain ⟨message, _ | _⟩ := r
  · cases h
  · unfold headersTurn at h
    dsimp only at h
    split at h
    · cases h; rfl
    · split at h <;> cases h <;> rfl

theorem headersTurn_ne_wait (chunkBuffer : Option (List UInt8)) (n : Nat)
    (r : HttpMessage × Bool) : headersTurn chunkBuffer n r ≠ .wait := by
  obtain ⟨message, _ | _⟩ := r
  · exact fun hw => by cases hw
  · unfold headersTurn
    dsimp only
    split
    · exact fun hw => by cases hw
    · split <;> exact fun hw => by cases hw

theorem headerTurn_isTurn (message : HttpMessage) (chunkBuffer : Option (List UInt8)) :
    IsTurn (headerTurn message chunkBuffer) where
  empty := rfl
  take {buffer s' used out more} h := by
    unfold headerTurn at h
    split at h
    · cases h
    · rename_i hlen
      split at h
      · rename_i hcrlf
        cases h
        refine ⟨by omega, by omega, ?_⟩
        unfold headerTurn
        rw [if_neg (by rw [List.length_take]; omega), List.take_take, Nat.min_self, if_pos hcrlf]
        exact fun hw => by cases hw
      · rename_i hcrlf
        split at h
        · cases h
        · rename_i n hn
          have hle := find_le hn
          change n + 4 ≤ _ at hle
          obtain rfl := headersTurn_take h
          refine ⟨by omega, hle, ?_⟩
          unfold headerTurn
          rw [if_neg (by rw [List.length_take]; omega), List.take_take, Nat.min_eq_left (by omega),
            if_neg hcrlf, find_take_of_le hn (show n + 4 ≤ _ by omega)]
          exact headersTurn_ne_wait _ _ _
  extend {buffer} ext h := by
    unfold headerTurn at h ⊢
    by_cases hlen : buffer.length < 2
    · rw [if_pos hlen] at h; exact absurd rfl h
    · rw [if_neg hlen] at h ⊢
      rw [if_neg (by rw [List.length_append]; omega), List.take_append_of_le_length (by omega)]
      by_cases hcrlf : buffer.take 2 = crlf
      · rw [if_pos hcrlf, if_pos hcrlf]
      · rw [if_neg hcrlf] at h ⊢
        rw [if_neg hcrlf]
        cases hn : find buffer (crlf ++ crlf) with
        | none => rw [hn] at h; exact absurd rfl h
        | some n =>
          have hle := find_le hn
          rw [find_append hn]
          dsimp only
          rw [List.take_append_of_le_length (by omega)]

theorem contentTurn_isTurn {message : HttpMessage} (hpos : contentLength message > 0) :
    IsTurn (contentTurn message) where
  empty := by
    unfold contentTurn
    rw [if_pos (by rw [List.length_nil]; omega)]
  take {buffer s' used out more} h := by
    unfold contentTurn at h
    split at h
    · cases h
    · rename_i hlen
      cases h
      refine ⟨by omega, by omega, ?_⟩
      unfold contentTurn
      rw [if_neg (by rw [List.length_take]; omega)]
      exact fun hw => by cases hw
  extend {buffer} ext h := by
    unfold contentTurn at h ⊢
    by_cases hlen : buffer.length < (contentLength message).toNat
    · rw [if_pos hlen] at h; exact absurd rfl h
    · rw [if_neg hlen, if_neg (by rw [List.length_append]; omega),
        List.take_append_of_le_length (by omega)]

/-- What is on the stream when a chunk is taken from it, or the line end of the last one. -/
theorem chunkTurn_take {message : HttpMessage} {chunkBuffer buffer : List UInt8}
    {s' : HttpProtocol} {used : Nat} {out : List HttpMessage} {more : Bool}
    (h : chunkTurn message chunkBuffer buffer = .take s' used out more) :
    ∃ n size, find buffer crlf = some n ∧ scanHex (buffer.take n) = some size ∧
      used = n + 2 + size + 2 ∧ used ≤ buffer.length ∧
      (buffer.drop (n + 2 + size)).take 2 = crlf ∧
      (0 = size ∧ s' = .readingStartLine ∧ out = [decoded message chunkBuffer] ∨
        0 ≠ size ∧ out = [] ∧ s' =
          .readingBody message (some (chunkBuffer ++ (buffer.drop (n + 2)).take size))) := by
  unfold chunkTurn at h
  split at h
  · cases h
  · rename_i n hn
    split at h
    · cases h
    · rename_i size hsize
      split at h
      · cases h
      · rename_i hlen
        split at h
        · cases h
        · rename_i hcrlf
          refine ⟨n, size, hn, hsize, ?_⟩
          split at h
          · rename_i hzero
            cases h
            exact ⟨rfl, not_lt.1 hlen, not_ne_iff.1 hcrlf, .inl ⟨hzero, rfl, rfl⟩⟩
          · rename_i hzero
            cases h
            exact ⟨rfl, not_lt.1 hlen, not_ne_iff.1 hcrlf, .inr ⟨hzero, rfl, rfl⟩⟩

theorem chunkTurn_isTurn (message : HttpMessage) (chunkBuffer : List UInt8) :
    IsTurn (chunkTurn message chunkBuffer) where
  empty := rfl
  take {buffer s' used out more} h := by
    obtain ⟨n, size, hn, hsize, rfl, hlen, _, _⟩ := chunkTurn_take h
    refine ⟨by omega, hlen, ?_⟩
    unfold chunkTurn
    rw [find_take_of_le hn (show n + 2 ≤ _ by omega)]
    dsimp only
    rw [List.take_take, Nat.min_eq_left (by omega), hsize]
    dsimp only
    rw [if_neg (by rw [List.length_take]; omega)]
    split
    · exact fun hw => by cases hw
    · split <;> exact fun hw => by cases hw
  extend {buffer} ext h := by
    unfold chunkTurn at h ⊢
    cases hn : find buffer crlf with
    | none => rw [hn] at h; exact absurd rfl h
    | some n =>
      have hle := find_le hn
      change n + 2 ≤ _ at hle
      rw [hn] at h
      dsimp only at h
      rw [find_append hn]
      dsimp only
      rw [List.take_append_of_le_length (by omega)]
      cases hsize : scanHex (buffer.take n) with
      | none => rfl
      | some size =>
        rw [hsize] at h
        dsimp only at h ⊢
        by_cases hlen : buffer.length < n + 2 + size + 2
        · rw [if_pos hlen] at h; exact absurd rfl h
        · rw [if_neg hlen, if_neg (by rw [List.length_append]; omega),
            List.drop_append_of_le_length (by omega), List.drop_append_of_le_length (by omega),
            List.take_append_of_le_length (by rw [List.length_drop]; omega),
            List.take_append_of_le_length (by rw [List.length_drop]; omega)]

/-- The parser as a reader. -/
def parser : Reader HttpProtocol UInt8 HttpMessage :=
  .ofTurns turn fun s => by
    cases s with
    | readingStartLine => exact startLineTurn_isTurn
    | readingHeader message chunkBuffer => exact headerTurn_isTurn message chunkBuffer
    | readingBody message chunkBuffer =>
      dsimp only [turn]
      split
      · rename_i hpos
        exact contentTurn_isTurn hpos
      · split
        · exact chunkTurn_isTurn message _
        · exact isTurn_wait
    | finished message chunkBuffer => exact isTurn_wait
    | pendingError message chunkBuffer => exact isTurn_wait

/-! ## One call of `recvMessage` -/

/-- `recvMessage` uses fewer turns than there are bytes, but for two. -/
def Receives (beyond : Nat → UInt8) (s : HttpProtocol) (buffer : List UInt8) (r : Received) :
    Prop :=
  ∀ fuel, buffer.length + 2 ≤ fuel → recvMessage beyond fuel s buffer = some r

/-- The states between two calls of the handlers. -/
def Running : HttpProtocol → Prop
  | .readingStartLine => True
  | .readingHeader _ _ => True
  | .readingBody message chunkBuffer =>
    contentLength message > 0 ∨ chunked message = true ∧ chunkBuffer.isSome = true
  | .finished _ _ => False
  | .pendingError _ _ => False

/-- The line of the last chunk is there, the line end behind it is not: `memcmp` compares bytes
that have not been received. -/
def Overread : HttpProtocol → List UInt8 → Prop
  | .readingBody message _, buffer =>
    ¬ contentLength message > 0 ∧ chunked message = true ∧
      ∃ n, find buffer crlf = some n ∧ scanHex (buffer.take n) = some 0 ∧ buffer.length < n + 4
  | _, _ => False

/-- The state behind an error; the header lines in front of the bad one are set. -/
def failed (s : HttpProtocol) (buffer : List UInt8) : HttpProtocol :=
  match s with
  | .readingHeader message chunkBuffer =>
    .pendingError (some (setHeaders message
      (split (buffer.take ((find buffer (crlf ++ crlf)).getD 0)) crlf (-1))).1) chunkBuffer
  | s => s.setPendingError

section Receives

variable {beyond : Nat → UInt8} {s s' : HttpProtocol} {buffer : List UInt8} {r : Handled}
  {used : Nat} {out : List HttpMessage} {more : Bool} {message : HttpMessage}
  {chunkBuffer : Option (List UInt8)} {acc : List UInt8}

theorem receives_waiting (h : statusHandler beyond s buffer = some (some r)) (hret : r.ret = 0) :
    Receives beyond s buffer ⟨.waitingMoreData, r.self, r.buffer⟩ := by
  rintro (_ | fuel) hfuel
  · omega
  · rw [recvMessage, h]
    dsimp only
    rw [hret, if_pos rfl]

theorem receives_error (h : statusHandler beyond s buffer = some (some r)) (hret : r.ret = -1) :
    Receives beyond s buffer ⟨.error, r.self.setPendingError, r.buffer⟩ := by
  rintro (_ | fuel) hfuel
  · omega
  · rw [recvMessage, h]
    dsimp only
    rw [hret, if_neg (by decide), if_pos rfl]

theorem receives_ready {rest : List UInt8}
    (h : statusHandler beyond s buffer = some (some ⟨1, .finished message chunkBuffer, rest⟩)) :
    Receives beyond s buffer ⟨.messageReady, .finished message chunkBuffer, rest⟩ := by
  rintro (_ | fuel) hfuel
  · omega
  · rw [recvMessage, h]
    rfl

/-- A handler that uses bytes and goes on. -/
theorem receives_next {rest : List UInt8} {received : Received}
    (h : statusHandler beyond s buffer = some (some ⟨1, s', rest⟩))
    (hs : ∀ message chunkBuffer, s' ≠ .finished message chunkBuffer)
    (hlt : rest.length < buffer.length) (hrest : Receives beyond s' rest received) :
    Receives beyond s buffer received := by
  rintro (_ | fuel) hfuel
  · omega
  · rw [recvMessage, h]
    dsimp only
    rw [if_neg (by decide), if_neg (by decide)]
    split
    · exact absurd rfl (hs _ _)
    · exact hrest fuel (by omega)

/-- Two states in which the same handler call is made. -/
theorem receives_same {rest : List UInt8} {received : Received} {called : Option Handled}
    (h : statusHandler beyond s buffer = some called)
    (h' : statusHandler beyond s' rest = some called) (hle : rest.length ≤ buffer.length)
    (hrest : Receives beyond s' rest received) : Receives beyond s buffer received := by
  rintro (_ | fuel) hfuel
  · omega
  · have hr := hrest (fuel + 1) (by omega)
    rw [recvMessage, h'] at hr
    rw [recvMessage, h]
    cases called <;> exact hr

/-! ## The handlers and the turns -/

theorem readChunks_fuel : ∀ (fuel fuel' : Nat) {acc buffer : List UInt8}, buffer.length < fuel →
    buffer.length < fuel' →
    readChunks beyond fuel message acc buffer = readChunks beyond fuel' message acc buffer
  | 0, _, _, _, h, _ => absurd h (Nat.not_lt_zero _)
  | _, 0, _, _, _, h => absurd h (Nat.not_lt_zero _)
  | fuel + 1, fuel' + 1, acc, buffer, h, h' => by
    rw [readChunks, readChunks]
    dsimp only
    cases find buffer crlf with
    | none => rfl
    | some n =>
      dsimp only
      cases scanHex (buffer.take n) with
      | none => rfl
      | some size =>
        dsimp only
        by_cases hzero : 0 = size
        · rw [if_pos hzero, if_pos hzero, if_pos hzero]
        · rw [if_neg hzero, if_neg hzero, if_neg hzero]
          by_cases hlen : buffer.length < n + 2 + size + 2
          · rw [if_pos hlen, if_pos hlen]
          · rw [if_neg hlen, if_neg hlen,
              readChunks_fuel fuel fuel' (by rw [List.length_drop]; omega)
                (by rw [List.length_drop]; omega)]

/-- What a handler does that has not finished the message: it waits, fails, or uses bytes. -/
def Proceeds (buffer : List UInt8) (r : Handled) : Prop :=
  r.ret = 0 ∨ r.ret = -1 ∨ r.ret = 1 ∧
    ((∃ message chunkBuffer, r.self = .finished message chunkBuffer) ∨
      (∀ message chunkBuffer, r.self ≠ .finished message chunkBuffer) ∧
        r.buffer.length < buffer.length)

theorem readChunks_proceeds (beyond : Nat → UInt8) (message : HttpMessage) :
    ∀ (fuel : Nat) {acc buffer : List UInt8}, buffer.length < fuel →
    ∃ r, readChunks beyond fuel message acc buffer = some r ∧ Proceeds buffer r
  | 0, _, _, h => absurd h (Nat.not_lt_zero _)
  | fuel + 1, acc, buffer, h => by
    rw [readChunks]
    dsimp only
    cases hn : find buffer crlf with
    | none => exact ⟨_, rfl, Or.inl rfl⟩
    | some n =>
      have hle := find_le hn
      change n + 2 ≤ _ at hle
      dsimp only
      cases scanHex (buffer.take n) with
      | none => exact ⟨_, rfl, Or.inr (Or.inl rfl)⟩
      | some size =>
        dsimp only
        by_cases hzero : 0 = size
        · rw [if_pos hzero, if_pos hzero]
          split
          · exact ⟨_, rfl, Or.inl rfl⟩
          · split
            · exact ⟨_, rfl, Or.inr (Or.inl rfl)⟩
            · refine ⟨_, rfl, Or.inr (Or.inr ⟨rfl, Or.inr ⟨fun _ _ h => (by cases h), ?_⟩⟩)⟩
              rw [List.length_drop]
              omega
        · rw [if_neg hzero, if_neg hzero]
          split
          · exact ⟨_, rfl, Or.inl rfl⟩
          · split
            · exact ⟨_, rfl, Or.inr (Or.inl rfl)⟩
            · have hrest : (buffer.drop (n + 2 + size + 2)).length < fuel := by
                rw [List.length_drop]
                omega
              obtain ⟨r, hr, hproceeds⟩ := @readChunks_proceeds beyond message fuel
                (if size > 0 then acc ++ (buffer.drop (n + 2)).take size else acc) _ hrest
              refine ⟨r, hr, hproceeds.imp_right (Or.imp_right fun h => ⟨h.1, h.2.imp_right ?_⟩)⟩
              rintro ⟨hself, hlen⟩
              rw [List.length_drop] at hlen
              exact ⟨hself, by omega⟩

theorem statusHandler_proceeds {called : Option Handled}
    (h : statusHandler beyond s buffer = some called) :
    ∃ r, called = some r ∧ Proceeds buffer r := by
  cases s with
  | readingStartLine =>
    cases h
    refine ⟨_, rfl, ?_⟩
    unfold readStartLine
    split
    · exact Or.inl rfl
    · rename_i n hn
      have hle := find_le hn
      change n + 2 ≤ _ at hle
      split
      · exact Or.inr (Or.inl rfl)
      · refine Or.inr (Or.inr ⟨rfl, Or.inr ⟨fun _ _ h => (by cases h), ?_⟩⟩)
        rw [List.length_drop]
        omega
  | readingHeader message chunkBuffer =>
    cases h
    refine ⟨_, rfl, ?_⟩
    unfold readHeader
    split
    · exact Or.inl rfl
    · split
      · exact Or.inr (Or.inr ⟨rfl, Or.inl ⟨_, _, rfl⟩⟩)
      · split
        · exact Or.inl rfl
        · rename_i hlen _ n _
          split
          · exact Or.inr (Or.inl rfl)
          · refine Or.inr (Or.inr ⟨rfl, Or.inr ⟨fun _ _ h => (by cases h), ?_⟩⟩)
            rw [List.length_drop]
            omega
  | readingBody message chunkBuffer =>
    cases h
    unfold readBody
    split
    · split
      · exact ⟨_, rfl, Or.inl rfl⟩
      · exact ⟨_, rfl, Or.inr (Or.inr ⟨rfl, Or.inl ⟨_, _, rfl⟩⟩)⟩
    · split
      · exact readChunks_proceeds beyond message _ (Nat.lt_succ_self _)
      · exact ⟨_, rfl, Or.inr (Or.inr ⟨rfl, Or.inl ⟨_, _, rfl⟩⟩)⟩
  | finished message chunkBuffer => cases h
  | pendingError message chunkBuffer => cases h

/-- **`recvMessage` is total.** -/
theorem receives_total (beyond : Nat → UInt8) (s : HttpProtocol) (buffer : List UInt8) :
    ∃ r, Receives beyond s buffer r := by
  induction hlen : buffer.length using Nat.strong_induction_on generalizing s buffer with
  | _ n ih =>
    cases hcalled : statusHandler beyond s buffer with
    | none =>
      refine ⟨⟨.error, s, buffer⟩, ?_⟩
      rintro (_ | fuel) hfuel
      · omega
      · rw [recvMessage, hcalled]
    | some called =>
      obtain ⟨r, rfl, hret | hret | ⟨hret, ⟨message, chunkBuffer, hself⟩ | ⟨hself, hlt⟩⟩⟩ :=
        statusHandler_proceeds hcalled
      · exact ⟨_, receives_waiting hcalled hret⟩
      · exact ⟨_, receives_error hcalled hret⟩
      · obtain ⟨ret, self, rest⟩ := r
        cases hret
        cases hself
        exact ⟨_, receives_ready hcalled⟩
      · obtain ⟨ret, self, rest⟩ := r
        cases hret
        obtain ⟨received, hr⟩ := ih rest.length (hlen ▸ hlt) self rest rfl
        exact ⟨received, receives_next hcalled hself hlt hr⟩

/-- Two bytes that have been received. -/
theorem memoryAt_eq {i : Nat} (h : i + 2 ≤ buffer.length) :
    [memoryAt buffer beyond i, memoryAt buffer beyond (i + 1)] = (buffer.drop i).take 2 := by
  unfold memoryAt
  rw [List.getElem?_eq_getElem (by omega), List.getElem?_eq_getElem (by omega),
    List.drop_eq_getElem_cons (by omega), List.drop_eq_getElem_cons (by omega)]
  rfl

theorem chunk_wait (h : chunkTurn message acc buffer = .wait)
    (hread : ¬ ∃ n, find buffer crlf = some n ∧ scanHex (buffer.take n) = some 0 ∧
      buffer.length < n + 4) (fuel : Nat) :
    readChunks beyond (fuel + 1) message acc buffer =
      some ⟨0, .readingBody message (some acc), buffer⟩ := by
  unfold chunkTurn at h
  rw [readChunks]
  cases hn : find buffer crlf with
  | none => rfl
  | some n =>
    rw [hn] at h
    dsimp only at h ⊢
    cases hsize : scanHex (buffer.take n) with
    | none => rw [hsize] at h; cases h
    | some size =>
      rw [hsize] at h
      dsimp only at h ⊢
      by_cases hlen : buffer.length < n + 2 + size + 2
      · have hpos : 0 ≠ size := by
          rintro rfl
          exact hread ⟨n, hn, hsize, by omega⟩
        rw [if_neg hpos, if_pos hlen]
      · rw [if_neg hlen] at h
        split at h
        · cases h
        · split at h <;> cases h

theorem chunk_stop (h : chunkTurn message acc buffer = .stop out) (fuel : Nat) :
    readChunks beyond (fuel + 1) message acc buffer =
      some ⟨-1, .readingBody message (some acc), buffer⟩ := by
  unfold chunkTurn at h
  rw [readChunks]
  cases hn : find buffer crlf with
  | none => rw [hn] at h; cases h
  | some n =>
    rw [hn] at h
    dsimp only at h ⊢
    cases hsize : scanHex (buffer.take n) with
    | none => rfl
    | some size =>
      rw [hsize] at h
      dsimp only at h ⊢
      by_cases hlen : buffer.length < n + 2 + size + 2
      · rw [if_pos hlen] at h; cases h
      · rw [if_neg hlen] at h
        rw [if_neg (by split <;> omega), memoryAt_eq (by omega)]
        by_cases hcrlf : (buffer.drop (n + 2 + size)).take 2 ≠ crlf
        · rw [if_pos hcrlf]
        · rw [if_neg hcrlf] at h
          split at h <;> cases h

variable (beyond) in
/-- A chunk is taken, and the loop goes on. -/
theorem chunk_next (h : chunkTurn message acc buffer = .take s' used [] more) :
    ∃ acc', s' = .readingBody message (some acc') ∧
      readChunks beyond (buffer.length + 1) message acc buffer =
        readChunks beyond ((buffer.drop used).length + 1) message acc' (buffer.drop used) := by
  obtain ⟨n, size, hn, hsize, rfl, hlen, hcrlf, ⟨_, _, hout⟩ | ⟨hzero, _, rfl⟩⟩ := chunkTurn_take h
  · cases hout
  · refine ⟨_, rfl, ?_⟩
    rw [readChunks, hn]
    dsimp only
    rw [hsize]
    dsimp only
    rw [if_neg hzero, if_neg (not_lt.2 hlen), memoryAt_eq hlen, if_neg (not_ne_iff.2 hcrlf),
      if_neg hzero, if_pos (by omega)]
    exact readChunks_fuel _ _ (by rw [List.length_drop]; omega) (Nat.lt_succ_self _)

variable (beyond) in
/-- The last chunk, with the line end behind it. -/
theorem chunk_last {out₀ : HttpMessage}
    (h : chunkTurn message acc buffer = .take s' used (out₀ :: out) more) :
    s' = .readingStartLine ∧ out₀ :: out = [decoded message acc] ∧
      ∃ rest, readChunks beyond (buffer.length + 1) message acc buffer =
          some ⟨1, .readingHeader (decoded message acc) (some acc), rest⟩ ∧
        rest.length < buffer.length ∧ 2 ≤ rest.length ∧ rest.take 2 = crlf ∧
          rest.drop 2 = buffer.drop used := by
  obtain ⟨n, size, hn, hsize, rfl, hlen, hcrlf, ⟨rfl, rfl, hout⟩ | ⟨_, hout, _⟩⟩ :=
    chunkTurn_take h
  · refine ⟨rfl, hout, buffer.drop (n + 2), ?_, ?_, ?_, hcrlf, ?_⟩
    · rw [readChunks, hn]
      dsimp only
      rw [hsize]
      dsimp only
      rw [if_pos rfl, if_neg (by omega), memoryAt_eq hlen, if_neg (not_ne_iff.2 hcrlf), if_pos rfl,
        if_neg (by omega), Nat.add_zero]
    · rw [List.length_drop]
      omega
    · rw [List.length_drop]
      omega
    · rw [List.drop_drop, Nat.add_zero]
  · cases hout

theorem turn_content (hpos : contentLength message > 0) :
    turn (.readingBody message chunkBuffer) = contentTurn message := if_pos hpos

theorem turn_chunk (hnone : ¬ contentLength message > 0) (hchunked : chunked message = true) :
    turn (.readingBody message chunkBuffer) = chunkTurn message (chunkBuffer.getD []) := by
  rw [turn, if_neg hnone, if_pos hchunked]

theorem statusHandler_chunk (hnone : ¬ contentLength message > 0)
    (hchunked : chunked message = true) (acc : List UInt8) :
    statusHandler beyond (.readingBody message (some acc)) buffer =
      some (readChunks beyond (buffer.length + 1) message acc buffer) := by
  unfold statusHandler readBody
  dsimp only
  rw [if_neg hnone, if_pos hchunked]
  rfl

/-- A body that is neither measured nor chunked is empty. -/
theorem statusHandler_bodiless (hnone : ¬ contentLength message > 0)
    (hchunked : ¬ chunked message = true) :
    statusHandler beyond (.readingBody message chunkBuffer) buffer =
      some (some ⟨1, .finished message chunkBuffer, buffer⟩) := by
  unfold statusHandler readBody
  dsimp only
  rw [if_neg hnone, if_neg hchunked]

theorem statusHandler_content (hpos : contentLength message > 0)
    (hlen : ¬ buffer.length < (contentLength message).toNat) :
    statusHandler beyond (.readingBody message chunkBuffer) buffer =
      some (some ⟨1, .finished (message.setBody (buffer.take (contentLength message).toNat))
        chunkBuffer, buffer.drop (contentLength message).toNat⟩) := by
  unfold statusHandler readBody
  dsimp only
  rw [if_pos hpos, if_neg hlen]

theorem statusHandler_startLine {n : Nat} (hn : find buffer crlf = some n)
    (hmessage : parseStartLine (buffer.take n) = some message) :
    statusHandler beyond .readingStartLine buffer =
      some (some ⟨1, .readingHeader message none, buffer.drop (n + 2)⟩) := by
  unfold statusHandler readStartLine
  dsimp only
  rw [hn]
  dsimp only
  rw [hmessage]

theorem statusHandler_headersEnd (hlen : ¬ buffer.length < 2) (hcrlf : buffer.take 2 = crlf) :
    statusHandler beyond (.readingHeader message chunkBuffer) buffer =
      some (some ⟨1, .finished message chunkBuffer, buffer.drop 2⟩) := by
  unfold statusHandler readHeader
  dsimp only
  rw [if_neg hlen, if_pos hcrlf]

theorem statusHandler_headers {message' : HttpMessage} {n : Nat} (hlen : ¬ buffer.length < 2)
    (hcrlf : ¬ buffer.take 2 = crlf) (hn : find buffer (crlf ++ crlf) = some n)
    (hset : setHeaders message (split (buffer.take n) crlf (-1)) = (message', true)) :
    statusHandler beyond (.readingHeader message chunkBuffer) buffer =
      some (some ⟨1, .readingBody message' chunkBuffer, buffer.drop (n + 4)⟩) := by
  unfold statusHandler readHeader
  dsimp only
  rw [if_neg hlen, if_neg hcrlf, hn]
  dsimp only
  rw [hset]

theorem receives_wait (hs : Running s) (ht : turn s buffer = .wait) (hread : ¬ Overread s buffer) :
    Receives beyond s buffer ⟨.waitingMoreData, s, buffer⟩ := by
  cases s with
  | readingStartLine =>
    refine receives_waiting (r := ⟨0, .readingStartLine, buffer⟩) ?_ rfl
    change startLineTurn buffer = .wait at ht
    unfold startLineTurn at ht
    unfold statusHandler readStartLine
    dsimp only
    cases hn : find buffer crlf with
    | none => rfl
    | some n =>
      rw [hn] at ht
      dsimp only at ht
      split at ht <;> cases ht
  | readingHeader message chunkBuffer =>
    refine receives_waiting (r := ⟨0, .readingHeader message chunkBuffer, buffer⟩) ?_ rfl
    change headerTurn message chunkBuffer buffer = .wait at ht
    unfold headerTurn at ht
    unfold statusHandler readHeader
    dsimp only
    by_cases hlen : buffer.length < 2
    · rw [if_pos hlen]
    · rw [if_neg hlen] at ht
      by_cases hcrlf : buffer.take 2 = crlf
      · rw [if_pos hcrlf] at ht; cases ht
      · rw [if_neg hcrlf] at ht
        rw [if_neg hlen, if_neg hcrlf]
        cases hn : find buffer (crlf ++ crlf) with
        | none => rfl
        | some n =>
          rw [hn] at ht
          exact absurd ht (headersTurn_ne_wait _ _ _)
  | readingBody message chunkBuffer =>
    refine receives_waiting (r := ⟨0, .readingBody message chunkBuffer, buffer⟩) ?_ rfl
    by_cases hpos : contentLength message > 0
    · rw [turn_content hpos] at ht
      unfold contentTurn at ht
      unfold statusHandler readBody
      dsimp only
      rw [if_pos hpos]
      split at ht
      · rename_i hlen
        rw [if_pos hlen]
      · cases ht
    · obtain ⟨hchunked, hsome⟩ := hs.resolve_left hpos
      obtain ⟨acc, rfl⟩ := Option.isSome_iff_exists.1 hsome
      rw [turn_chunk hpos hchunked] at ht
      change chunkTurn message acc buffer = .wait at ht
      rw [statusHandler_chunk hpos hchunked,
        chunk_wait ht fun h => hread ⟨hpos, hchunked, h⟩]
  | finished message chunkBuffer => exact absurd hs id
  | pendingError message chunkBuffer => exact absurd hs id

theorem receives_stop (hs : Running s) (ht : turn s buffer = .stop out) :
    Receives beyond s buffer ⟨.error, failed s buffer, buffer⟩ := by
  cases s with
  | readingStartLine =>
    refine receives_error (r := ⟨-1, .readingStartLine, buffer⟩) ?_ rfl
    change startLineTurn buffer = .stop out at ht
    unfold startLineTurn at ht
    unfold statusHandler readStartLine
    dsimp only
    cases hn : find buffer crlf with
    | none => rw [hn] at ht; cases ht
    | some n =>
      rw [hn] at ht
      dsimp only at ht ⊢
      cases hmessage : parseStartLine (buffer.take n) with
      | none => rfl
      | some message => rw [hmessage] at ht; cases ht
  | readingHeader message chunkBuffer =>
    change headerTurn message chunkBuffer buffer = .stop out at ht
    unfold headerTurn at ht
    by_cases hlen : buffer.length < 2
    · rw [if_pos hlen] at ht; cases ht
    · rw [if_neg hlen] at ht
      by_cases hcrlf : buffer.take 2 = crlf
      · rw [if_pos hcrlf] at ht; cases ht
      · rw [if_neg hcrlf] at ht
        cases hn : find buffer (crlf ++ crlf) with
        | none => rw [hn] at ht; cases ht
        | some n =>
          rw [hn] at ht
          dsimp only at ht
          cases hset : setHeaders message (split (buffer.take n) crlf (-1)) with
          | mk message' ok =>
            rw [hset] at ht
            cases ok with
            | true =>
              unfold headersTurn at ht
              dsimp only at ht
              split at ht
              · cases ht
              · split at ht <;> cases ht
            | false =>
              have hfailed : failed (.readingHeader message chunkBuffer) buffer =
                  (readingHeader message' chunkBuffer).setPendingError := by
                rw [failed, hn]
                dsimp only [Option.getD_some]
                rw [hset]
                rfl
              rw [hfailed]
              refine receives_error (r := ⟨-1, .readingHeader message' chunkBuffer, buffer⟩) ?_ rfl
              unfold statusHandler readHeader
              dsimp only
              rw [if_neg hlen, if_neg hcrlf, hn]
              dsimp only
              rw [hset]
  | readingBody message chunkBuffer =>
    by_cases hpos : contentLength message > 0
    · rw [turn_content hpos] at ht
      unfold contentTurn at ht
      split at ht <;> cases ht
    · obtain ⟨hchunked, hsome⟩ := hs.resolve_left hpos
      obtain ⟨acc, rfl⟩ := Option.isSome_iff_exists.1 hsome
      rw [turn_chunk hpos hchunked] at ht
      change chunkTurn message acc buffer = .stop out at ht
      refine receives_error (r := ⟨-1, .readingBody message (some acc), buffer⟩) ?_ rfl
      rw [statusHandler_chunk hpos hchunked, chunk_stop ht]
  | finished message chunkBuffer => exact absurd hs id
  | pendingError message chunkBuffer => exact absurd hs id

/-- What `headersTurn` can take. -/
theorem headersTurn_cases {n : Nat} {result : HttpMessage × Bool}
    (h : headersTurn chunkBuffer n result = .take s' used out more) :
    ∃ message, result = (message, true) ∧ used = n ∧
      ((contentLength message > 0 ∧ s' = .readingBody message chunkBuffer ∧ out = []) ∨
      (¬ contentLength message > 0 ∧ chunked message = true ∧
        s' = .readingBody message (some (chunkBuffer.getD [])) ∧ out = []) ∨
      (¬ contentLength message > 0 ∧ ¬ chunked message = true ∧ s' = .readingStartLine ∧
        out = [message])) := by
  obtain ⟨message, _ | _⟩ := result
  · cases h
  · refine ⟨message, rfl, headersTurn_take h, ?_⟩
    unfold headersTurn at h
    dsimp only at h
    split at h
    · rename_i hpos
      cases h
      exact Or.inl ⟨hpos, rfl, rfl⟩
    · rename_i hnone
      split at h
      · rename_i hchunked
        cases h
        exact Or.inr (Or.inl ⟨hnone, hchunked, rfl, rfl⟩)
      · rename_i hchunked
        cases h
        exact Or.inr (Or.inr ⟨hnone, hchunked, rfl, rfl⟩)

/-- What `headerTurn` can take: the empty line, or a header block. -/
theorem headerTurn_cases (h : headerTurn message chunkBuffer buffer = .take s' used out more) :
    ¬ buffer.length < 2 ∧
      ((buffer.take 2 = crlf ∧ s' = .readingStartLine ∧ used = 2 ∧ out = [message]) ∨
      (¬ buffer.take 2 = crlf ∧ ∃ n, find buffer (crlf ++ crlf) = some n ∧
        headersTurn chunkBuffer (n + 4) (setHeaders message (split (buffer.take n) crlf (-1))) =
          .take s' used out more)) := by
  unfold headerTurn at h
  split at h
  · cases h
  · rename_i hlen
    refine ⟨hlen, ?_⟩
    split at h
    · rename_i hcrlf
      cases h
      exact Or.inl ⟨hcrlf, rfl, rfl, rfl⟩
    · rename_i hcrlf
      split at h
      · cases h
      · rename_i n hn
        exact Or.inr ⟨hcrlf, n, hn, h⟩

theorem startLineTurn_cases (h : startLineTurn buffer = .take s' used out more) :
    ∃ n message, find buffer crlf = some n ∧ parseStartLine (buffer.take n) = some message ∧
      s' = .readingHeader message none ∧ used = n + 2 ∧ out = [] := by
  unfold startLineTurn at h
  split at h
  · cases h
  · rename_i n hn
    split at h
    · cases h
    · rename_i message hmessage
      cases h
      exact ⟨n, message, hn, hmessage, rfl, rfl, rfl⟩

theorem contentTurn_cases (h : contentTurn message buffer = .take s' used out more) :
    ¬ buffer.length < (contentLength message).toNat ∧ s' = .readingStartLine ∧
      used = (contentLength message).toNat ∧
      out = [message.setBody (buffer.take (contentLength message).toNat)] := by
  unfold contentTurn at h
  split at h
  · cases h
  · rename_i hlen
    cases h
    exact ⟨hlen, rfl, rfl, rfl⟩

theorem chunkTurn_next (h : chunkTurn message acc buffer = .take s' used out more) :
    s' = .readingStartLine ∨ ∃ acc', s' = .readingBody message (some acc') := by
  cases out with
  | nil =>
    obtain ⟨acc', hs', _⟩ := chunk_next (fun _ => 0) h
    exact Or.inr ⟨acc', hs'⟩
  | cons m out => exact Or.inl (chunk_last (fun _ => 0) h).1

/-- A turn leads to a state between two calls of the handlers. -/
theorem turn_running (hs : Running s) (ht : turn s buffer = .take s' used out more) :
    Running s' := by
  cases s with
  | readingStartLine =>
    obtain ⟨n, message, _, _, rfl, _⟩ := startLineTurn_cases ht
    trivial
  | readingHeader message chunkBuffer =>
    obtain ⟨_, ⟨_, rfl, _⟩ | ⟨_, n, _, hturn⟩⟩ := headerTurn_cases ht
    · trivial
    · obtain ⟨message', _, _, ⟨hpos, rfl, _⟩ | ⟨_, hchunked, rfl, _⟩ | ⟨_, _, rfl, _⟩⟩ :=
        headersTurn_cases hturn
      · exact Or.inl hpos
      · exact Or.inr ⟨hchunked, rfl⟩
      · trivial
  | readingBody message chunkBuffer =>
    by_cases hpos : contentLength message > 0
    · rw [turn_content hpos] at ht
      obtain ⟨_, rfl, _⟩ := contentTurn_cases ht
      trivial
    · obtain ⟨hchunked, _⟩ := hs.resolve_left hpos
      rw [turn_chunk hpos hchunked] at ht
      obtain rfl | ⟨acc', rfl⟩ := chunkTurn_next ht
      · trivial
      · exact Or.inr ⟨hchunked, rfl⟩
  | finished message chunkBuffer => exact absurd hs id
  | pendingError message chunkBuffer => exact absurd hs id

/-- **A turn without a message** is part of the call of `recvMessage`. -/
theorem receives_silent (hs : Running s) (ht : turn s buffer = .take s' used [] more)
    {received : Received} (hrest : Receives beyond s' (buffer.drop used) received) :
    Receives beyond s buffer received := by
  cases s with
  | readingStartLine =>
    obtain ⟨n, message, hn, hmessage, rfl, rfl, _⟩ := startLineTurn_cases ht
    have hle := find_le hn
    change n + 2 ≤ _ at hle
    exact receives_next (statusHandler_startLine hn hmessage) (fun _ _ heq => by cases heq)
      (by rw [List.length_drop]; omega) hrest
  | readingHeader message chunkBuffer =>
    obtain ⟨hlen, ⟨_, _, _, hout⟩ | ⟨hcrlf, n, hn, hturn⟩⟩ := headerTurn_cases ht
    · cases hout
    · have hle := find_le hn
      change n + 4 ≤ _ at hle
      obtain ⟨message', hset, rfl, ⟨_, rfl, _⟩ | ⟨hnone, hchunked, rfl, _⟩ | ⟨_, _, _, hout⟩⟩ :=
        headersTurn_cases hturn
      · exact receives_next (statusHandler_headers hlen hcrlf hn hset)
          (fun _ _ heq => by cases heq) (by rw [List.length_drop]; omega) hrest
      · -- `readBody` makes the chunk buffer
        refine receives_next (statusHandler_headers hlen hcrlf hn hset)
          (fun _ _ heq => by cases heq) (by rw [List.length_drop]; omega) ?_
        refine receives_same ?_ (statusHandler_chunk hnone hchunked _) (le_refl _) hrest
        unfold statusHandler readBody
        dsimp only
        rw [if_neg hnone, if_pos hchunked]
      · cases hout
  | readingBody message chunkBuffer =>
    by_cases hpos : contentLength message > 0
    · rw [turn_content hpos] at ht
      obtain ⟨_, _, _, hout⟩ := contentTurn_cases ht
      cases hout
    · obtain ⟨hchunked, hsome⟩ := hs.resolve_left hpos
      obtain ⟨acc, rfl⟩ := Option.isSome_iff_exists.1 hsome
      rw [turn_chunk hpos hchunked] at ht
      obtain ⟨acc', rfl, hchunks⟩ := chunk_next beyond ht
      refine receives_same (statusHandler_chunk hpos hchunked acc) ?_
        (by rw [List.length_drop]; omega) hrest
      rw [statusHandler_chunk hpos hchunked, ← hchunks]
      rfl
  | finished message chunkBuffer => exact absurd hs id
  | pendingError message chunkBuffer => exact absurd hs id

variable (beyond) in
/-- **A turn with a message** is what the call of `recvMessage` ends with. -/
theorem receives_message (hs : Running s) {m : HttpMessage}
    (ht : turn s buffer = .take s' used (m :: out) more) :
    out = [] ∧ s' = .readingStartLine ∧ ∃ chunkBuffer,
      Receives beyond s buffer ⟨.messageReady, .finished m chunkBuffer, buffer.drop used⟩ := by
  cases s with
  | readingStartLine =>
    obtain ⟨_, _, _, _, _, _, hout⟩ := startLineTurn_cases ht
    cases hout
  | readingHeader message chunkBuffer =>
    obtain ⟨hlen, ⟨hcrlf, rfl, rfl, hout⟩ | ⟨hcrlf, n, hn, hturn⟩⟩ := headerTurn_cases ht
    · cases hout
      exact ⟨rfl, rfl, chunkBuffer, receives_ready (statusHandler_headersEnd hlen hcrlf)⟩
    · have hle := find_le hn
      change n + 4 ≤ _ at hle
      obtain ⟨message', hset, rfl, ⟨_, _, hout⟩ | ⟨_, _, _, hout⟩ | ⟨hnone, hchunked, rfl, hout⟩⟩ :=
        headersTurn_cases hturn
      · cases hout
      · cases hout
      · cases hout
        refine ⟨rfl, rfl, chunkBuffer, ?_⟩
        exact receives_next (statusHandler_headers hlen hcrlf hn hset)
          (fun _ _ heq => by cases heq) (by rw [List.length_drop]; omega)
          (receives_ready (statusHandler_bodiless hnone hchunked))
  | readingBody message chunkBuffer =>
    by_cases hpos : contentLength message > 0
    · rw [turn_content hpos] at ht
      obtain ⟨hlen, rfl, rfl, hout⟩ := contentTurn_cases ht
      cases hout
      exact ⟨rfl, rfl, chunkBuffer, receives_ready (statusHandler_content hpos hlen)⟩
    · obtain ⟨hchunked, hsome⟩ := hs.resolve_left hpos
      obtain ⟨acc, rfl⟩ := Option.isSome_iff_exists.1 hsome
      rw [turn_chunk hpos hchunked] at ht
      obtain ⟨rfl, hout, rest, hchunks, hlt, hlen, hcrlf, hdrop⟩ := chunk_last beyond ht
      cases hout
      refine ⟨rfl, rfl, some acc, ?_⟩
      rw [← hdrop]
      refine receives_next ((statusHandler_chunk hpos hchunked acc).trans (congrArg some hchunks))
        (fun _ _ heq => by cases heq) hlt ?_
      exact receives_ready (statusHandler_headersEnd (by omega) hcrlf)
  | finished message chunkBuffer => exact absurd hs id
  | pendingError message chunkBuffer => exact absurd hs id

end Receives

/-! ## Lines -/

section Lines

variable {message : HttpMessage} {line : List UInt8} {lines : List (List UInt8)}

theorem find_line (h : 13 ∉ line) (rest : List UInt8) :
    find (line ++ (crlf ++ rest)) crlf = some line.length :=
  (find_eq (by decide) _).trans (Search.firstIndex_of_notMem h rest)

/-- A start line is taken off. -/
theorem turn_line (h : 13 ∉ line) (hmessage : parseStartLine line = some message)
    (rest : List UInt8) :
    turn .readingStartLine (line ++ (crlf ++ rest)) =
      .take (.readingHeader message none) (line ++ crlf).length [] true := by
  show startLineTurn _ = _
  unfold startLineTurn
  rw [find_line h]
  dsimp only
  rw [List.take_left, hmessage, List.length_append]
  rfl

/-- A block of header lines is taken off. -/
theorem turn_lines (message : HttpMessage) (chunkBuffer : Option (List UInt8))
    (h : ∀ l ∈ line :: lines, 13 ∉ l) (hne : ∀ l ∈ line :: lines, l ≠ []) (rest : List UInt8) :
    turn (.readingHeader message chunkBuffer) (joinLines line lines ++ (crlf ++ crlf ++ rest)) =
      headersTurn chunkBuffer (joinLines line lines ++ (crlf ++ crlf)).length
        (setHeaders message (line :: lines)) := by
  have hfind := (find_eq (show crlf ++ crlf ≠ [] by decide) _).trans
    (firstIndex_joinLines rest h fun l hl => hne l (List.mem_cons_of_mem line hl))
  have hle := find_le hfind
  -- the block does not begin with an empty line
  have hcrlf : ¬ (joinLines line lines ++ (crlf ++ crlf ++ rest)).take 2 = crlf := by
    obtain ⟨c, cs, rfl⟩ := List.exists_cons_of_ne_nil (hne line List.mem_cons_self)
    have hc : c ≠ 13 := fun hc => h (c :: cs) List.mem_cons_self (hc ▸ List.mem_cons_self)
    rw [joinLines]
    intro htake
    have hhead := congrArg List.head? htake
    simp only [List.cons_append, List.take_succ_cons, List.head?_cons] at hhead
    exact hc (Option.some.inj hhead)
  show headerTurn _ chunkBuffer _ = _
  unfold headerTurn
  change _ + 4 ≤ _ at hle
  rw [if_neg (by omega), if_neg hcrlf, hfind]
  dsimp only
  rw [List.take_left, split_joinLines h, List.length_append]
  rfl

end Lines

end HttpProtocol

end Brickred
