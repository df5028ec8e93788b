import Brickred.WebSocket.Delivery

/-!
# What a delivered message is made of

`readFrame` appends the payload of every frame to `message_`, and knows the open message only
through `last_op_code_`.  A continuation without FIN is not checked against it, nor is a data
frame inside a message.

* `Fragments` — the fragments of a well-formed sequence before its last frame.
* `Delivery.Sound` — a delivered message is the payload of such a sequence.
* `Orderly` — whenever a frame makes the endpoint deliver, it ends such a sequence, and the frames
  since the last one with FIN carry the bytes of the sequence's fragments, and no others.
* `deliveries_sound_iff` — the deliveries from a stream are sound iff its frames are orderly.
-/

set_option autoImplicit false

namespace Brickred

namespace WebSocketProtocol

open Segmentation

variable {η : Type}

/-! ## Fragment sequences -/

/-- The first frame of a message. -/
def Frame.starts (f : Frame) : Bool := f.opcode = 0x1 || f.opcode = 0x2

def Frame.continues (f : Frame) : Bool := f.opcode = 0x0

/-- Frames after which a message is unfinished. -/
def Unfinished (frames : List Frame) : Prop :=
  ∃ earlier start later, frames = earlier ++ start :: later ∧ start.starts = true ∧
    ∀ f ∈ start :: later, f.starts || f.continues → f.fin = false

/-- `last` ends a fragment sequence of the stream, and `payload` is that of the fragments before
it, which are found among the frames `before`. -/
def Fragments (before : List Frame) (last : Frame) (payload : List UInt8) : Prop :=
  last.fin = true ∧
    ((last.starts = true ∧ ¬ Unfinished before ∧ payload = []) ∨
      (last.continues = true ∧ ∃ earlier start later, before = earlier ++ start :: later ∧
        start.starts = true ∧ start.fin = false ∧ ¬ Unfinished earlier ∧
        (∀ f ∈ later, f.starts = false ∧ (f.continues = true → f.fin = false)) ∧
        payload = start.payload ++ (later.filter Frame.continues).flatMap Frame.payload))

/-! ## The frames of a stream -/

/-- The whole frames at the front of a stream, up to a malformed one. -/
def framesFuel (isClient : Bool) : Nat → List UInt8 → List Frame
  | 0, _ => []
  | fuel + 1, stream =>
    match parseFrame isClient stream with
    | .ok f => f :: framesFuel isClient fuel (stream.drop f.size)
    | .error _ => []

def framesIn (isClient : Bool) (stream : List UInt8) : List Frame :=
  framesFuel isClient (stream.length + 1) stream

/-- `last_op_code_` after one more frame, if the connection goes on. -/
def nextOpCode (lastOpCode : Int) (f : Frame) : Option Int :=
  if f.fin then
    if GoesOn lastOpCode f then some (lastOpCodeAfter lastOpCode f.opcode.toNat) else none
  else some (if (f.opcode.toNat : Int) ≠ 0x0 then f.opcode.toNat else lastOpCode)

/-- The payload of the frames since the last one with FIN. -/
def pending (frames : List Frame) : List UInt8 :=
  frames.foldl (fun p f => if f.fin then [] else p ++ f.payload) []

/-- After the frames `before`, the frame `f` makes the endpoint deliver a message. -/
def Completes (before : List Frame) (f : Frame) : Prop :=
  ∃ lastOpCode, before.foldlM nextOpCode (-1) = some lastOpCode ∧ f.fin = true ∧
    (effectiveOpcode lastOpCode f.opcode.toNat = 0x1 ∨
      effectiveOpcode lastOpCode f.opcode.toNat = 0x2)

/-- A frame that makes the endpoint deliver ends a fragment sequence, whose bytes so far are those
since the last frame with FIN. -/
def Orderly (frames : List Frame) : Prop :=
  ∀ before f behind, frames = before ++ f :: behind → Completes before f →
    Fragments before f (pending before)

/-! ## Deliveries -/

/-- A message, the frame that made the endpoint deliver it, and the frames before. -/
structure Delivery where
  before : List Frame
  last : Frame
  message : List UInt8

/-- The message is the payload of the fragment sequence that `last` ends. -/
def Delivery.Sound (d : Delivery) : Prop :=
  ∃ payload, Fragments d.before d.last payload ∧ d.message = payload ++ d.last.payload

def deliveriesFrom (before : List Frame) : Connected η → List Frame → List Delivery
  | _, [] => []
  | s, f :: frames =>
    match stepFrame s f with
    | .stop _ => []
    | .next s' out _ =>
      (messages out).map (fun message => ⟨before, f, message⟩) ++
        deliveriesFrom (before ++ [f]) s' frames

/-- What an endpoint delivers, frame by frame. -/
def deliveries (s : Connected η) (frames : List Frame) : List Delivery := deliveriesFrom [] s frames

section Frames

variable {isClient : Bool} {stream : List UInt8} {f : Frame}

theorem framesFuel_eq : ∀ (fuel fuel' : Nat) {stream : List UInt8}, stream.length < fuel →
    stream.length < fuel' → framesFuel isClient fuel stream = framesFuel isClient fuel' stream
  | 0, _, _, h, _ => absurd h (Nat.not_lt_zero _)
  | _, 0, _, _, h => absurd h (Nat.not_lt_zero _)
  | fuel + 1, fuel' + 1, stream, h, h' => by
    rw [framesFuel, framesFuel]
    cases hp : parseFrame isClient stream with
    | error => rfl
    | ok f =>
      obtain ⟨hpos, hle⟩ := parseFrame_size hp
      have hlen : (stream.drop f.size).length = stream.length - f.size := List.length_drop
      dsimp only
      rw [framesFuel_eq fuel fuel' (by omega) (by omega)]

theorem framesIn_error {why : Stop} (h : parseFrame isClient stream = .error why) :
    framesIn isClient stream = [] := by
  rw [framesIn, framesFuel, h]

theorem framesIn_ok (h : parseFrame isClient stream = .ok f) :
    framesIn isClient stream = f :: framesIn isClient (stream.drop f.size) := by
  obtain ⟨hpos, hle⟩ := parseFrame_size h
  have hlen : (stream.drop f.size).length = stream.length - f.size := List.length_drop
  rw [framesIn, framesFuel, h, framesIn]
  dsimp only
  rw [framesFuel_eq stream.length ((stream.drop f.size).length + 1) (by omega) (by omega)]

theorem pending_concat (frames : List Frame) (f : Frame) :
    pending (frames ++ [f]) = if f.fin then [] else pending frames ++ f.payload := by
  unfold pending
  rw [List.foldl_append]
  rfl

theorem lastOpCode_concat {before : List Frame} {lastOpCode : Int}
    (h : before.foldlM nextOpCode (-1) = some lastOpCode) (f : Frame) :
    (before ++ [f]).foldlM nextOpCode (-1) = nextOpCode lastOpCode f := by
  rw [List.foldlM_append, h]
  simp

end Frames

/-! ## One frame -/

section Step

variable {s s' : Connected η} {f : Frame} {out : List Event} {more : Bool}

/-- **What a frame does** to `message_` and `last_op_code_`, and what it delivers. -/
theorem stepFrame_next (h : stepFrame s f = .next s' out more) :
    nextOpCode s.1.lastOpCode f = some s'.1.lastOpCode ∧
      s'.1.message = (if f.fin then [] else s.1.message ++ f.payload) ∧
      messages out = (if f.fin = true ∧ (s.effective f.opcode.toNat = 0x1 ∨
        s.effective f.opcode.toNat = 0x2) then [s.1.message ++ f.payload] else []) := by
  unfold nextOpCode
  cases hfin : f.fin with
  | false =>
    rw [stepFrame_fragment hfin] at h
    cases h
    exact ⟨rfl, rfl, rfl⟩
  | true =>
    by_cases hgo : GoesOn s.1.lastOpCode f
    · rw [if_pos rfl, if_pos hgo]
      unfold stepFrame step at h
      rw [hfin] at h
      simp only [Bool.not_true, Bool.false_eq_true, if_false] at h
      split at h
      · rename_i hdata
        cases h
        exact ⟨rfl, rfl, (if_pos ⟨rfl, hdata⟩).symm⟩
      · rename_i hdata
        have hnone : ∀ l : List (List UInt8), [] = if true = true ∧
            (s.effective f.opcode.toNat = 0x1 ∨ s.effective f.opcode.toNat = 0x2) then l else [] :=
          fun l => (if_neg fun h => hdata h.2).symm
        repeat' split at h
        all_goals cases h
        all_goals exact ⟨rfl, rfl, hnone _⟩
    · obtain ⟨e, hstop⟩ := stepFrame_ends hfin hgo
      rw [hstop] at h
      cases h

theorem stepFrame_stop {e : Event} (h : stepFrame s f = .stop e) :
    nextOpCode s.1.lastOpCode f = none := by
  unfold nextOpCode
  cases hfin : f.fin with
  | false => rw [stepFrame_fragment hfin] at h; cases h
  | true =>
    by_cases hgo : GoesOn s.1.lastOpCode f
    · obtain ⟨_, _, hnext⟩ := stepFrame_goesOn hfin hgo
      rw [hnext] at h
      cases h
    · rw [if_pos rfl, if_neg hgo]

/-- A frame that completes a message lets the connection go on. -/
theorem nextOpCode_of_completes {lastOpCode : Int} (hfin : f.fin = true)
    (hdata : effectiveOpcode lastOpCode f.opcode.toNat = 0x1 ∨
      effectiveOpcode lastOpCode f.opcode.toNat = 0x2) :
    nextOpCode lastOpCode f ≠ none := by
  unfold nextOpCode
  have hgo : GoesOn lastOpCode f := by
    unfold GoesOn
    rcases hdata with h | h <;> rw [h] <;> decide
  rw [hfin, if_pos rfl, if_pos hgo]
  simp

end Step

/-! ## A whole stream -/

theorem messages_append (out out' : List Event) :
    messages (out ++ out') = messages out ++ messages out' := List.filterMap_append

/-- The events of the patient driver are those of the frames. -/
theorem messages_ideal (s : Connected η) (stream : List UInt8) : ∀ before,
    messages ((reader η).ideal s stream) =
      (deliveriesFrom before s (framesIn s.1.isClient stream)).map Delivery.message := by
  induction s, stream using frame_induction with
  | noFrame s stream why hp =>
    intro before
    rw [framesIn_error hp]
    cases why with
    | waiting => rw [Reader.ideal_wait (turn_waiting hp)]; rfl
    | invalid => rw [Reader.ideal_stop (turn_invalid hp)]; rfl
  | frame s stream f hp ih =>
    intro before
    rw [framesIn_ok hp, deliveriesFrom]
    cases hstep : stepFrame s f with
    | stop e =>
      rw [Reader.ideal_stop (turn_stop hp hstep)]
      unfold stepFrame step at hstep
      repeat' split at hstep
      all_goals cases hstep
      all_goals rfl
    | next s' out more =>
      have hclient : s'.1.isClient = s.1.isClient := by
        unfold stepFrame step at hstep
        repeat' split at hstep
        all_goals first | (cases hstep; rfl) | cases hstep
      rw [Reader.ideal_take (turn_next hp hstep), messages_append, ih s' (before ++ [f]), hclient,
        List.map_append, List.map_map]
      congr 1
      exact (List.map_id _).symm

/-- **Frame by frame**: sound deliveries, and frames that complete fragment sequences. -/
theorem deliveriesFrom_sound_iff : ∀ (frames : List Frame) (before : List Frame) (s : Connected η),
    s.1.message = pending before → before.foldlM nextOpCode (-1) = some s.1.lastOpCode →
    ((∀ d ∈ deliveriesFrom before s frames, d.Sound) ↔
      ∀ between f behind, frames = between ++ f :: behind → Completes (before ++ between) f →
        Fragments (before ++ between) f (pending (before ++ between)))
  | [], before, s, _, _ => by
    refine iff_of_true (fun d hd => by cases hd) fun between f behind heq => ?_
    cases between <;> cases heq
  | f :: frames, before, s, hmessage, hcode => by
    -- the frames from the second on, seen from the first
    have hsplit : (∀ between g behind, f :: frames = between ++ g :: behind →
          Completes (before ++ between) g →
            Fragments (before ++ between) g (pending (before ++ between))) ↔
        (Completes before f → Fragments before f (pending before)) ∧
          ∀ between g behind, frames = between ++ g :: behind →
            Completes (before ++ [f] ++ between) g →
              Fragments (before ++ [f] ++ between) g (pending (before ++ [f] ++ between)) := by
      constructor
      · intro h
        refine ⟨fun hc => ?_, fun between g behind heq hc => ?_⟩
        · have := h [] f frames rfl (by rwa [List.append_nil])
          rwa [List.append_nil] at this
        · have := h (f :: between) g behind (by rw [heq]; rfl) (by simpa using hc)
          simpa using this
      · rintro ⟨hfirst, hrest⟩ between g behind heq hc
        cases between with
        | nil =>
          cases heq
          rw [List.append_nil] at hc ⊢
          exact hfirst hc
        | cons b between =>
          cases heq
          have := hrest between g behind rfl (by simpa using hc)
          simpa using this
    rw [hsplit, deliveriesFrom]
    have hcompletes : Completes before f ↔ f.fin = true ∧
        (s.effective f.opcode.toNat = 0x1 ∨ s.effective f.opcode.toNat = 0x2) := by
      unfold Completes
      constructor
      · rintro ⟨lastOpCode, hl, hfin, hdata⟩
        rw [hcode] at hl
        cases hl
        exact ⟨hfin, hdata⟩
      · exact fun h => ⟨_, hcode, h⟩
    cases hstep : stepFrame s f with
    | stop e =>
      have hnone := stepFrame_stop hstep
      refine iff_of_true (fun d hd => by cases hd) ⟨fun hc => ?_, fun between g behind _ hc => ?_⟩
      · obtain ⟨hfin, hdata⟩ := hcompletes.1 hc
        exact absurd hnone (nextOpCode_of_completes hfin hdata)
      · obtain ⟨lastOpCode, hl, _⟩ := hc
        rw [List.foldlM_append, lastOpCode_concat hcode, hnone] at hl
        cases hl
    | next s' out more =>
      obtain ⟨hnext, hmsg, hout⟩ := stepFrame_next hstep
      have ih := deliveriesFrom_sound_iff frames (before ++ [f]) s'
        (by rw [hmsg, pending_concat, hmessage]) (by rw [lastOpCode_concat hcode, hnext])
      dsimp only
      rw [← ih, hcompletes, hout]
      simp only [List.mem_append, or_imp, forall_and]
      refine and_congr_left fun _ => ?_
      by_cases hc : f.fin = true ∧
          (s.effective f.opcode.toNat = 0x1 ∨ s.effective f.opcode.toNat = 0x2)
      · rw [if_pos hc, hmessage]
        simp only [List.map_cons, List.map_nil, List.mem_singleton, forall_eq]
        constructor
        · rintro ⟨payload, hfrag, heq⟩ _
          rwa [List.append_cancel_right heq]
        · exact fun hfrag => ⟨_, hfrag hc, rfl⟩
      · rw [if_neg hc]
        exact iff_of_true (fun d hd => by cases hd) fun h => absurd h hc

/-- **When the deliveries are sound.**  Whatever the cuts, the messages an application sees are
deliveries from the frames of the stream, and all of them when the stream is consumed. -/
theorem deliveries_sound_iff (handlers : HandshakeHandlers η) (s : Connected η)
    (hmessage : s.1.message = []) (hlast : s.1.lastOpCode = -1) (stream : List UInt8) :
    (∃ events c, consume handlers s.1 stream = some (events, c) ∧
      messages events = (deliveries s (framesIn s.1.isClient stream)).map Delivery.message) ∧
    (∀ pieces : List (List UInt8), pieces.flatten = stream →
      ∃ events, receive handlers (some (s.1, [])) pieces = some events ∧
        messages events <+: (deliveries s (framesIn s.1.isClient stream)).map Delivery.message) ∧
    ((∀ d ∈ deliveries s (framesIn s.1.isClient stream), d.Sound) ↔
      Orderly (framesIn s.1.isClient stream)) := by
  refine ⟨⟨_, _, pump_eq handlers true _ s stream (Nat.lt_succ_self _), messages_ideal s stream []⟩,
    fun pieces hflat => ⟨_, receive_eq handlers pieces (some (s, [])), ?_⟩, ?_⟩
  · have hbegin := (reader η).feed_prefix_ideal pieces (some (s, []))
    rw [Reader.idealFrom, List.nil_append, hflat] at hbegin
    unfold deliveries
    rw [← messages_ideal s stream []]
    exact hbegin.filterMap _
  · have h := deliveriesFrom_sound_iff (framesIn s.1.isClient stream) [] s hmessage
      (by rw [hlast]; rfl)
    simp only [List.nil_append] at h
    exact h

/-- A stray fragment, and a whole message. -/
def strayThenText : List UInt8 := [0x00, 0x01, 0x61, 0x81, 0x01, 0x62]

/-- The stray fragment becomes part of the message. -/
theorem stray_fragment_delivered :
    (consume noHandshake (fresh true).1 strayThenText).map (fun r => messages r.1) =
        some [[0x61, 0x62]] ∧
      ¬ ∀ d ∈ deliveries (fresh true) (framesIn true strayThenText), d.Sound := by
  refine ⟨by decide, fun h => ?_⟩
  obtain ⟨payload, ⟨_, hfrag⟩, hmessage⟩ := h
    ⟨[⟨false, 0x0, [0x61], 3⟩], ⟨true, 0x1, [0x62], 3⟩, [0x61, 0x62]⟩ (List.mem_singleton.2 rfl)
  rcases hfrag with ⟨_, _, rfl⟩ | ⟨hcont, _⟩
  · cases hmessage
  · cases hcont

/-- A text in two fragments with a ping in front. -/
def pingThenText : List UInt8 := [0x89, 0x00, 0x01, 0x01, 0x61, 0x80, 0x01, 0x62]

theorem pingThenText_sound :
    (∃ events c, consume noHandshake (fresh true).1 pingThenText = some (events, c) ∧
      messages events = (deliveries (fresh true) (framesIn true pingThenText)).map Delivery.message) ∧
    (∀ pieces : List (List UInt8), pieces.flatten = pingThenText →
      ∃ events, receive noHandshake (some ((fresh true).1, [])) pieces = some events ∧
        messages events <+:
          (deliveries (fresh true) (framesIn true pingThenText)).map Delivery.message) ∧
    ((∀ d ∈ deliveries (fresh true) (framesIn true pingThenText), d.Sound) ↔
      Orderly (framesIn true pingThenText)) :=
  deliveries_sound_iff noHandshake (fresh true) rfl rfl pingThenText

end WebSocketProtocol

end Brickred
