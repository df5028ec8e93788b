import Brickred.WebSocket.Driver

/-!
# Reassembly of messages

What a connected endpoint makes of a sequence of frames when it is driven until the stream is
consumed.

* `consume_play` — the bytes of a list of frames are consumed frame by frame.
* `play_sequenced` — for frames in a proper sequence the events are `expected`.
* `reassembly` — messages cut into fragments in any way are delivered whole, in order, once.
* `control_frames_harmless_iff` — pings and pongs between the frames lose nothing iff each
  stands where no byte of an open message has been received: `processFrame` clears `message_`,
  which also holds the fragments of the open message.
-/

set_option autoImplicit false

namespace Brickred

namespace WebSocketProtocol

open Segmentation

variable {η : Type}

/-! ## Frame by frame -/

/-- The steps of a list of frames, and the object after them. -/
def play (s : Connected η) : List SentFrame → List Event × Option (Connected η)
  | [] => ([], some s)
  | f :: fs =>
    match step s f.fin f.opcode.toNat f.payload with
    | .stop e => ([e], none)
    | .next s' out _ => (out ++ (play s' fs).1, (play s' fs).2)

theorem step_isClient {s s' : Connected η} {fin : Bool} {opcode : Int} {payload : List UInt8}
    {out : List Event} {more : Bool} (h : step s fin opcode payload = .next s' out more) :
    s'.1.isClient = s.1.isClient := by
  unfold step at h
  repeat' split at h
  all_goals first | (cases h; rfl) | cases h

theorem drive_play : ∀ (fs : List SentFrame) (s : Connected η),
    (∀ f ∈ fs, f.Proper s.1.isClient) →
    (reader η).patient.drive s (fs.flatMap SentFrame.bytes) =
      ((play s fs).1, (play s fs).2.map fun s' => (s', []))
  | [], s, _ => Reader.drive_wait ((reader η).patient.empty s)
  | f :: fs, s, hfs => by
    have hparse := parseFrame_bytes (hfs f (List.mem_cons_self ..)) (fs.flatMap SentFrame.bytes)
    rw [List.flatMap_cons, play]
    cases hstep : step s f.fin f.opcode.toNat f.payload with
    | stop e => exact Reader.drive_stop (Reader.patient_stop (turn_stop hparse hstep))
    | next s' out more =>
      have ih := drive_play fs s' fun g hg => by
        rw [step_isClient hstep]; exact hfs g (List.mem_cons_of_mem _ hg)
      rw [Reader.drive_more (Reader.patient_take (turn_next hparse hstep)), List.drop_left, ih]

/-- **The stream is consumed** frame by frame. -/
theorem consume_play (handlers : HandshakeHandlers η) (s : Connected η) (fs : List SentFrame)
    (hfs : ∀ f ∈ fs, f.Proper s.1.isClient) :
    consume handlers s.1 (fs.flatMap SentFrame.bytes) =
      some ((play s fs).1, (play s fs).2.map fun s' => (s'.1, [])) := by
  have hdrive := drive_play fs s hfs
  unfold consume
  rw [pump_eq handlers true _ s _ (Nat.lt_succ_self _)]
  simp only [driver, if_true, hdrive, connection, Option.map_map]
  rfl

/-! ## Frames in sequence -/

/-- A ping or a pong. -/
def SentFrame.isPingPong (f : SentFrame) : Bool := f.opcode = 0x9 || f.opcode = 0xa

/-- Outside of a message a frame opens one, inside it continues it; pings and pongs are not cut
and may stand anywhere. -/
def Sequenced : Bool → List SentFrame → Prop
  | _, [] => True
  | inside, f :: fs =>
    if f.isPingPong then f.fin = true ∧ Sequenced inside fs
    else (if inside then f.opcode = 0x0 else f.opcode = 0x1 ∨ f.opcode = 0x2) ∧
      Sequenced (!f.fin) fs

/-- The events of frames in sequence, when `message` holds the open message so far. -/
def expected (message : List UInt8) : List SentFrame → List Event
  | [] => []
  | f :: fs =>
    if f.isPingPong then
      (if f.opcode = 0x9 then Event.pingFrame else .pongFrame) :: expected [] fs
    else if f.fin then .message (message ++ f.payload) :: expected [] fs
    else expected (message ++ f.payload) fs

/-- What `message_` holds after them. -/
def openAfter (message : List UInt8) : List SentFrame → List UInt8
  | [] => message
  | f :: fs =>
    if f.isPingPong then openAfter [] fs
    else if f.fin then openAfter [] fs
    else openAfter (message ++ f.payload) fs

/-- Whether a message is open after them. -/
def insideAfter (inside : Bool) : List SentFrame → Bool
  | [] => inside
  | f :: fs => if f.isPingPong then insideAfter inside fs else insideAfter (!f.fin) fs

theorem step_pingPong {s : Connected η} {f : SentFrame} (hp : f.isPingPong = true)
    (hfin : f.fin = true) :
    ∃ retCode, step s f.fin f.opcode.toNat f.payload = .next (s.final f.opcode.toNat retCode)
      [if f.opcode = 0x9 then Event.pingFrame else .pongFrame] true := by
  unfold SentFrame.isPingPong at hp
  rw [Bool.or_eq_true, decide_eq_true_eq, decide_eq_true_eq] at hp
  rw [hfin]
  rcases hp with h | h <;> rw [h] <;> exact ⟨_, rfl⟩

/-- A frame with FIN that opens or continues a message ends it. -/
theorem step_data_fin {s : Connected η} {f : SentFrame} (hfin : f.fin = true)
    (hop : s.effective f.opcode.toNat = 0x1 ∨ s.effective f.opcode.toNat = 0x2) :
    step s f.fin f.opcode.toNat f.payload = .next (s.final f.opcode.toNat s.1.retCode)
      [.message (s.1.message ++ f.payload)] true := by
  unfold step
  rw [hfin, if_neg (by decide), if_pos hop]

/-- A fragment keeps the opcode it is processed by. -/
theorem fragment_lastOpCode (s : Connected η) (opcode : Int) (payload : List UInt8) :
    (s.fragment opcode payload).1.lastOpCode = s.effective opcode := ite_not ..

/-- A data frame in its place is processed as text or binary. -/
theorem effective_data {s : Connected η} {inside : Bool} {opcode : UInt8}
    (hop : if inside then opcode = 0x0 else opcode = 0x1 ∨ opcode = 0x2)
    (hlast : inside = true → s.1.lastOpCode = 0x1 ∨ s.1.lastOpCode = 0x2) :
    s.effective opcode.toNat = 0x1 ∨ s.effective opcode.toNat = 0x2 := by
  cases inside with
  | true =>
    rw [show opcode = 0x0 from hop]
    exact hlast rfl
  | false =>
    rcases (show opcode = 0x1 ∨ opcode = 0x2 from hop) with h | h <;> rw [h]
    · exact Or.inl rfl
    · exact Or.inr rfl

theorem play_sequenced : ∀ (fs : List SentFrame) (inside : Bool) (s : Connected η),
    Sequenced inside fs → (inside = true → s.1.lastOpCode = 0x1 ∨ s.1.lastOpCode = 0x2) →
    ∃ s', play s fs = (expected s.1.message fs, some s') ∧
      s'.1.message = openAfter s.1.message fs ∧
      ((inside = false → s.1.lastOpCode = -1) →
        insideAfter inside fs = false → s'.1.lastOpCode = -1)
  | [], _, s, _, _ => ⟨s, rfl, rfl, fun h => h⟩
  | f :: fs, inside, s, hseq, hlast => by
    rw [Sequenced] at hseq
    rw [play, expected, openAfter, insideAfter]
    by_cases hp : f.isPingPong = true
    · rw [if_pos hp] at hseq
      obtain ⟨hfin, hseq⟩ := hseq
      obtain ⟨retCode, hstep⟩ := step_pingPong (s := s) hp hfin
      have h0 : ¬ (f.opcode.toNat : Int) = 0x0 := by
        unfold SentFrame.isPingPong at hp
        rw [Bool.or_eq_true, decide_eq_true_eq, decide_eq_true_eq] at hp
        rcases hp with h | h <;> rw [h] <;> decide
      have hl : (s.final f.opcode.toNat retCode).1.lastOpCode = s.1.lastOpCode := if_neg h0
      obtain ⟨s', hplay, hopen, hend⟩ := play_sequenced fs inside (s.final f.opcode.toNat retCode)
        hseq (by rw [hl]; exact hlast)
      rw [hl] at hend
      rw [hstep, if_pos hp, if_pos hp, if_pos hp]
      exact ⟨s', by dsimp only; rw [hplay]; rfl, hopen, hend⟩
    · rw [if_neg hp] at hseq
      obtain ⟨hop, hseq⟩ := hseq
      rw [if_neg hp, if_neg hp, if_neg hp]
      cases hfin : f.fin with
      | true =>
        rw [hfin] at hseq
        have hstep := step_data_fin hfin (effective_data hop hlast)
        obtain ⟨s', hplay, hopen, hend⟩ := play_sequenced fs false
          (s.final f.opcode.toNat s.1.retCode) hseq (by simp)
        rw [hfin] at hstep
        rw [hstep]
        refine ⟨s', by dsimp only; rw [hplay]; rfl, hopen, fun hl => hend fun _ => ?_⟩
        cases inside with
        | true => rw [show f.opcode = 0x0 from hop]; rfl
        | false =>
          have h0 : ¬ (f.opcode.toNat : Int) = 0x0 := by
            rcases (show f.opcode = 0x1 ∨ f.opcode = 0x2 from hop) with h | h <;> rw [h] <;> decide
          exact (if_neg h0).trans (hl rfl)
      | false =>
        rw [hfin] at hseq
        have hl : (s.fragment f.opcode.toNat f.payload).1.lastOpCode = 0x1 ∨
            (s.fragment f.opcode.toNat f.payload).1.lastOpCode = 0x2 := by
          rw [fragment_lastOpCode]
          exact effective_data hop hlast
        obtain ⟨s', hplay, hopen, hend⟩ := play_sequenced fs true
          (s.fragment f.opcode.toNat f.payload) hseq (fun _ => hl)
        exact ⟨s', by show ([] ++ _, _) = _; rw [hplay]; rfl, hopen, fun _ => hend (by simp)⟩

/-! ## Messages -/

structure Fragment where
  maskKey : Option (Fin 4 → UInt8)
  payload : List UInt8

/-- The frame of a fragment, with the shortest length form. -/
def Fragment.frame (fr : Fragment) (fin : Bool) (opcode : UInt8) : SentFrame :=
  ⟨.minimal fr.payload.length, fin, opcode, fr.maskKey, fr.payload⟩

/-- A text or binary message, cut into one fragment or more. -/
structure DataMessage where
  opcode : UInt8
  fragments : List Fragment
  opcode_data : opcode = 0x1 ∨ opcode = 0x2
  nonempty : fragments ≠ []

/-- The frames of the fragments from one on that has the opcode `opcode`. -/
def fragmentFrames : UInt8 → List Fragment → List SentFrame
  | _, [] => []
  | opcode, [fr] => [fr.frame true opcode]
  | opcode, fr :: fr' :: frs => fr.frame false opcode :: fragmentFrames 0x0 (fr' :: frs)

namespace DataMessage

def payload (m : DataMessage) : List UInt8 := m.fragments.flatMap Fragment.payload

def frames (m : DataMessage) : List SentFrame := fragmentFrames m.opcode m.fragments

/-- The sizes fit the 64-bit length, and a client is sent unmasked frames only. -/
structure Proper (isClient : Bool) (m : DataMessage) : Prop where
  size : ∀ fr ∈ m.fragments, fr.payload.length < 2 ^ 64
  unmasked : isClient = true → ∀ fr ∈ m.fragments, fr.maskKey = none

end DataMessage

theorem not_pingPong {f : SentFrame} (h : f.opcode = 0x0 ∨ f.opcode = 0x1 ∨ f.opcode = 0x2) :
    ¬ f.isPingPong = true := by
  unfold SentFrame.isPingPong
  rcases h with h | h | h <;> rw [h] <;> decide

/-- What the fragments of one message do to a sequence of frames. -/
theorem fragmentFrames_append : ∀ (frs : List Fragment) (inside : Bool) (opcode : UInt8)
    (message : List UInt8) (rest : List SentFrame), frs ≠ [] →
    (if inside then opcode = 0x0 else opcode = 0x1 ∨ opcode = 0x2) →
    expected message (fragmentFrames opcode frs ++ rest) =
        .message (message ++ frs.flatMap Fragment.payload) :: expected [] rest ∧
      openAfter message (fragmentFrames opcode frs ++ rest) = openAfter [] rest ∧
      insideAfter inside (fragmentFrames opcode frs ++ rest) = insideAfter false rest ∧
      (Sequenced inside (fragmentFrames opcode frs ++ rest) ↔ Sequenced false rest)
  | [], _, _, _, _, hne, _ => absurd rfl hne
  | [fr], inside, opcode, message, rest, _, hop => by
    have hp : ¬ (fr.frame true opcode).isPingPong = true := not_pingPong <| by
      cases inside with
      | true => exact Or.inl hop
      | false => exact Or.inr hop
    have hfin : (fr.frame true opcode).fin = true := rfl
    rw [fragmentFrames, List.singleton_append, expected, openAfter, insideAfter, Sequenced,
      if_neg hp, if_neg hp, if_neg hp, if_neg hp, if_pos hfin, if_pos hfin, List.flatMap_singleton]
    exact ⟨rfl, rfl, rfl, fun h => h.2, fun h => ⟨hop, h⟩⟩
  | fr :: fr' :: frs, inside, opcode, message, rest, _, hop => by
    have hp : ¬ (fr.frame false opcode).isPingPong = true := not_pingPong <| by
      cases inside with
      | true => exact Or.inl hop
      | false => exact Or.inr hop
    have hfin : ¬ (fr.frame false opcode).fin = true := Bool.false_ne_true
    obtain ⟨hexp, hopen, hins, hseq⟩ := fragmentFrames_append (fr' :: frs) true 0x0
      (message ++ fr.payload) rest (by simp) rfl
    rw [fragmentFrames, List.cons_append, expected, openAfter, insideAfter, Sequenced,
      if_neg hp, if_neg hp, if_neg hp, if_neg hp, if_neg hfin, if_neg hfin]
    refine ⟨?_, hopen, hins, fun h => hseq.1 h.2, fun h => ⟨hop, hseq.2 h⟩⟩
    rw [List.flatMap_cons, ← List.append_assoc]
    exact hexp

theorem frames_append (m : DataMessage) (message : List UInt8) (rest : List SentFrame) :
    expected message (m.frames ++ rest) = .message (message ++ m.payload) :: expected [] rest ∧
      openAfter message (m.frames ++ rest) = openAfter [] rest ∧
      insideAfter false (m.frames ++ rest) = insideAfter false rest ∧
      (Sequenced false (m.frames ++ rest) ↔ Sequenced false rest) :=
  fragmentFrames_append m.fragments false m.opcode message rest m.nonempty m.opcode_data

/-- The frames of whole messages. -/
theorem expected_messages (data : List DataMessage) :
    expected [] (data.flatMap DataMessage.frames) = data.map (fun m => .message m.payload) ∧
      openAfter [] (data.flatMap DataMessage.frames) = [] ∧
      insideAfter false (data.flatMap DataMessage.frames) = false ∧
      Sequenced false (data.flatMap DataMessage.frames) := by
  induction data with
  | nil => exact ⟨rfl, rfl, rfl, trivial⟩
  | cons m data ih =>
    obtain ⟨hexp, hopen, hins, hseq⟩ := frames_append m [] (data.flatMap DataMessage.frames)
    rw [List.flatMap_cons, hexp, hopen, hins, hseq, ih.1]
    exact ⟨rfl, ih.2⟩

theorem fragmentFrames_mem : ∀ {frs : List Fragment} {opcode : UInt8} {f : SentFrame},
    f ∈ fragmentFrames opcode frs →
    ∃ fr ∈ frs, ∃ fin op, f = fr.frame fin op ∧ (op = opcode ∨ op = 0x0)
  | [fr], opcode, f, h => by
    rw [fragmentFrames, List.mem_singleton] at h
    exact ⟨fr, List.mem_cons_self .., true, opcode, h, Or.inl rfl⟩
  | fr :: fr' :: frs, opcode, f, h => by
    rw [fragmentFrames, List.mem_cons] at h
    rcases h with h | h
    · exact ⟨fr, List.mem_cons_self .., false, opcode, h, Or.inl rfl⟩
    · obtain ⟨fr'', hmem, fin, op, hf, hop⟩ := fragmentFrames_mem h
      exact ⟨fr'', List.mem_cons_of_mem _ hmem, fin, op, hf, Or.inr (hop.elim id id)⟩

theorem DataMessage.frames_mem {m : DataMessage} {f : SentFrame} (h : f ∈ m.frames) :
    ∃ fr ∈ m.fragments, ∃ fin op, f = fr.frame fin op ∧ (op = 0x0 ∨ op = 0x1 ∨ op = 0x2) := by
  obtain ⟨fr, hmem, fin, op, hf, hop⟩ := fragmentFrames_mem h
  refine ⟨fr, hmem, fin, op, hf, ?_⟩
  rcases hop with rfl | rfl
  · exact Or.inr m.opcode_data
  · exact Or.inl rfl

theorem frames_proper {isClient : Bool} {data : List DataMessage}
    (hdata : ∀ m ∈ data, m.Proper isClient) {f : SentFrame}
    (hf : f ∈ data.flatMap DataMessage.frames) : f.Proper isClient := by
  obtain ⟨m, hm, hf⟩ := List.mem_flatMap.1 hf
  obtain ⟨fr, hmem, fin, op, rfl, hop⟩ := DataMessage.frames_mem hf
  refine ⟨?_, LengthForm.minimal_accepts ((hdata m hm).size fr hmem),
    fun hc => (hdata m hm).unmasked hc fr hmem⟩
  show op < 16
  rcases hop with rfl | rfl | rfl <;> decide

/-- **Reassembly.** -/
theorem reassembly (handlers : HandshakeHandlers η) (s : Connected η) (hmessage : s.1.message = [])
    (hlast : s.1.lastOpCode = -1) (data : List DataMessage)
    (hdata : ∀ m ∈ data, m.Proper s.1.isClient) :
    ∃ s', consume handlers s.1 ((data.flatMap DataMessage.frames).flatMap SentFrame.bytes) =
        some (data.map fun m => .message m.payload, some (s', [])) ∧
      s'.status = .connected ∧ s'.message = [] ∧ s'.lastOpCode = -1 := by
  obtain ⟨hexp, hopen, hins, hseq⟩ := expected_messages data
  obtain ⟨s', hplay, hmsg, hend⟩ := play_sequenced _ false s hseq (by simp)
  rw [hmessage] at hplay hmsg
  rw [hexp] at hplay
  refine ⟨s'.1, ?_, s'.2, hmsg.trans hopen, hend (fun _ => hlast) hins⟩
  rw [consume_play handlers s _ fun f hf => frames_proper hdata hf, hplay]
  rfl

/-- A text in two masked fragments, then an empty binary message. -/
def twoMessages : List DataMessage :=
  [⟨0x1, [⟨some fun i => UInt8.ofNat (i + 1), [0x61]⟩,
      ⟨some fun i => UInt8.ofNat (5 * i), [0x62, 0x63]⟩], by decide, by simp⟩,
    ⟨0x2, [⟨some fun _ => 9, []⟩], by decide, by simp⟩]

theorem twoMessages_proper : ∀ m ∈ twoMessages, m.Proper false := by
  intro m hm
  simp only [twoMessages, List.mem_cons, List.not_mem_nil, or_false] at hm
  rcases hm with rfl | rfl <;> exact ⟨by decide, fun h => by cases h⟩

theorem twoMessages_reassembled :
    ∃ s', consume noHandshake (fresh false).1
        ((twoMessages.flatMap DataMessage.frames).flatMap SentFrame.bytes) =
          some ([.message [0x61, 0x62, 0x63], .message []], some (s', [])) ∧
      s'.status = .connected ∧ s'.message = [] ∧ s'.lastOpCode = -1 :=
  reassembly noHandshake (fresh false) rfl rfl twoMessages twoMessages_proper

/-! ## Pings and pongs between the frames -/

/-- Every ping and pong stands where the open message has no byte yet, or behind the last data
frame. -/
def Undisturbed (message : List UInt8) : List SentFrame → Prop
  | [] => True
  | f :: fs =>
    if f.isPingPong then
      (message = [] ∨ ∀ g ∈ fs, g.isPingPong = true) ∧ Undisturbed [] fs
    else Undisturbed (if f.fin then [] else message ++ f.payload) fs

def dataFrames (fs : List SentFrame) : List SentFrame := fs.filter fun f => !f.isPingPong

theorem dataFrames_pingPong {f : SentFrame} (fs : List SentFrame) (h : f.isPingPong = true) :
    dataFrames (f :: fs) = dataFrames fs := by
  unfold dataFrames
  rw [List.filter_cons_of_neg (by rw [h]; decide)]

theorem dataFrames_data {f : SentFrame} (fs : List SentFrame) (h : ¬ f.isPingPong = true) :
    dataFrames (f :: fs) = f :: dataFrames fs := by
  unfold dataFrames
  rw [List.filter_cons_of_pos (by simpa using h)]

theorem dataFrames_eq_nil {fs : List SentFrame} :
    dataFrames fs = [] ↔ ∀ g ∈ fs, g.isPingPong = true := by
  unfold dataFrames
  rw [List.filter_eq_nil_iff]
  simp

theorem sequenced_dataFrames : ∀ {fs : List SentFrame} {inside : Bool},
    (∀ f ∈ fs, f.isPingPong = true → f.fin = true) → Sequenced inside (dataFrames fs) →
    Sequenced inside fs
  | [], _, _, _ => trivial
  | f :: fs, inside, hfin, hseq => by
    have hfin' : ∀ g ∈ fs, g.isPingPong = true → g.fin = true := fun g hg =>
      hfin g (List.mem_cons_of_mem _ hg)
    rw [Sequenced]
    by_cases hp : f.isPingPong = true
    · rw [dataFrames_pingPong fs hp] at hseq
      rw [if_pos hp]
      exact ⟨hfin f (List.mem_cons_self ..) hp, sequenced_dataFrames hfin' hseq⟩
    · rw [dataFrames_data fs hp, Sequenced, if_neg hp] at hseq
      rw [if_neg hp]
      exact ⟨hseq.1, sequenced_dataFrames hfin' hseq.2⟩

/-- The messages among the expected events. -/
def delivered (message : List UInt8) : List SentFrame → List (List UInt8)
  | [] => []
  | f :: fs =>
    if f.isPingPong then delivered [] fs
    else if f.fin then (message ++ f.payload) :: delivered [] fs
    else delivered (message ++ f.payload) fs

theorem messages_expected : ∀ (fs : List SentFrame) (message : List UInt8),
    messages (expected message fs) = delivered message fs
  | [], _ => rfl
  | f :: fs, message => by
    rw [expected, delivered]
    by_cases hp : f.isPingPong = true
    · rw [if_pos hp, if_pos hp, ← messages_expected fs []]
      split <;> rfl
    · rw [if_neg hp, if_neg hp]
      by_cases hfin : f.fin = true
      · rw [if_pos hfin, if_pos hfin, ← messages_expected fs []]; rfl
      · rw [if_neg hfin, if_neg hfin, messages_expected fs]

/-- The last data frame has FIN: no message stays open. -/
def Closed (fs : List SentFrame) : Prop := ∀ f ∈ (dataFrames fs).getLast?, f.fin = true

def byteCount (l : List (List UInt8)) : Nat := (l.map List.length).sum

/-- All bytes of the data frames, and those already received. -/
def total (message : List UInt8) (fs : List SentFrame) : Nat :=
  message.length + ((dataFrames fs).map fun f => f.payload.length).sum

theorem total_pingPong {f : SentFrame} (fs : List SentFrame) (message : List UInt8)
    (h : f.isPingPong = true) : total message (f :: fs) = total message fs := by
  unfold total
  rw [dataFrames_pingPong fs h]

theorem total_data {f : SentFrame} (fs : List SentFrame) (message : List UInt8)
    (h : ¬ f.isPingPong = true) :
    total message (f :: fs) = message.length + f.payload.length + total [] fs := by
  unfold total
  rw [dataFrames_data fs h, List.map_cons, List.sum_cons, List.length_nil]
  omega

theorem total_append (fs : List SentFrame) (message : List UInt8) :
    total message fs = message.length + total [] fs := by
  unfold total
  rw [List.length_nil, Nat.zero_add]

/-- Never more is delivered than was received. -/
theorem delivered_le : ∀ (fs : List SentFrame) (message : List UInt8),
    byteCount (delivered message fs) ≤ total message fs
  | [], _ => Nat.zero_le _
  | f :: fs, message => by
    rw [delivered]
    by_cases hp : f.isPingPong = true
    · have ih := delivered_le fs []
      rw [if_pos hp, total_pingPong fs message hp, total_append]
      omega
    · rw [if_neg hp, total_data fs message hp]
      by_cases hfin : f.fin = true
      · have ih := delivered_le fs []
        rw [if_pos hfin]
        show (message ++ f.payload).length + byteCount (delivered [] fs) ≤ _
        rw [List.length_append]
        omega
      · have ih := delivered_le fs (message ++ f.payload)
        rw [total_append, List.length_append] at ih
        rw [if_neg hfin]
        omega

/-- Without pings and pongs every byte of a closed sequence is delivered. -/
theorem delivered_closed : ∀ (fs : List SentFrame) (message : List UInt8),
    dataFrames fs = fs → fs ≠ [] → Closed fs →
    byteCount (delivered message fs) = total message fs
  | [], _, _, hne, _ => absurd rfl hne
  | f :: fs, message, hdata, _, hclosed => by
    have hp : ¬ f.isPingPong = true := by
      have hmem : f ∈ dataFrames (f :: fs) := by rw [hdata]; exact List.mem_cons_self ..
      have := (List.mem_filter.1 hmem).2
      simpa using this
    rw [dataFrames_data fs hp] at hdata
    have hdata' : dataFrames fs = fs := (List.cons.inj hdata).2
    have hlast : fs ≠ [] → Closed fs := fun hne g hg => by
      refine hclosed g ?_
      rw [dataFrames_data fs hp, hdata', List.getLast?_cons_of_ne_nil hne, ← hdata']
      exact hg
    rw [delivered, if_neg hp, total_data fs message hp]
    by_cases hfin : f.fin = true
    · rw [if_pos hfin]
      show (message ++ f.payload).length + byteCount (delivered [] fs) = _
      rw [List.length_append]
      by_cases hne : fs = []
      · rw [hne]; rfl
      · rw [delivered_closed fs [] hdata' hne (hlast hne)]
    · have hne : fs ≠ [] := by
        rintro rfl
        refine hfin (hclosed f ?_)
        rw [dataFrames_data [] hp]
        exact rfl
      rw [if_neg hfin, delivered_closed fs _ hdata' hne (hlast hne), total_append,
        List.length_append]

theorem delivered_pingPong {fs : List SentFrame} (h : ∀ g ∈ fs, g.isPingPong = true) :
    ∀ message, delivered message fs = [] ∧ (message = [] → Undisturbed message fs) := by
  induction fs with
  | nil => exact fun _ => ⟨rfl, fun _ => trivial⟩
  | cons f fs ih =>
    intro message
    have hp := h f (List.mem_cons_self ..)
    have ih := ih (fun g hg => h g (List.mem_cons_of_mem _ hg)) []
    rw [delivered, Undisturbed, if_pos hp, if_pos hp]
    exact ⟨ih.1, fun hm => ⟨Or.inl hm, ih.2 rfl⟩⟩

/-- **Pings and pongs lose nothing** exactly when they are undisturbing. -/
theorem delivered_dataFrames : ∀ (fs : List SentFrame) (message : List UInt8), Closed fs →
    (delivered message fs = delivered message (dataFrames fs) ↔ Undisturbed message fs)
  | [], _, _ => ⟨fun _ => trivial, fun _ => rfl⟩
  | f :: fs, message, hclosed => by
    rw [delivered, Undisturbed]
    by_cases hp : f.isPingPong = true
    · have hclosed' : Closed fs := by
        unfold Closed at hclosed ⊢
        rwa [dataFrames_pingPong fs hp] at hclosed
      rw [if_pos hp, if_pos hp, dataFrames_pingPong fs hp]
      by_cases hnone : dataFrames fs = []
      · have hall := dataFrames_eq_nil.1 hnone
        obtain ⟨hdel, hund⟩ := delivered_pingPong hall []
        rw [hnone, hdel]
        exact ⟨fun _ => ⟨Or.inr hall, hund rfl⟩, fun _ => rfl⟩
      · have hidem : dataFrames (dataFrames fs) = dataFrames fs := by
          unfold dataFrames; rw [List.filter_filter]; simp
        have hnot : ¬ ∀ g ∈ fs, g.isPingPong = true := fun hall =>
          hnone (dataFrames_eq_nil.2 hall)
        constructor
        · intro heq
          have hle := delivered_le fs []
          have hfull := delivered_closed (dataFrames fs) message hidem hnone (by
            unfold Closed; rw [hidem]; exact hclosed')
          have htot : total [] (dataFrames fs) = total [] fs := by unfold total; rw [hidem]
          rw [← heq, total_append, htot] at hfull
          have hm : message = [] := List.eq_nil_of_length_eq_zero (by omega)
          subst hm
          exact ⟨Or.inl rfl, (delivered_dataFrames fs [] hclosed').1 heq⟩
        · rintro ⟨hm, hund⟩
          rw [hm.resolve_right hnot]
          exact (delivered_dataFrames fs [] hclosed').2 hund
    · have hclosed' : Closed fs := fun g hg => by
        refine hclosed g ?_
        rw [dataFrames_data fs hp]
        have hne : dataFrames fs ≠ [] := by rintro hnil; rw [hnil] at hg; cases hg
        rw [List.getLast?_cons_of_ne_nil hne]
        exact hg
      rw [if_neg hp, if_neg hp, dataFrames_data fs hp, delivered, if_neg hp]
      by_cases hfin : f.fin = true
      · rw [if_pos hfin, if_pos hfin, if_pos hfin, List.cons_inj_right]
        exact delivered_dataFrames fs [] hclosed'
      · rw [if_neg hfin, if_neg hfin, if_neg hfin]
        exact delivered_dataFrames fs _ hclosed'

theorem fragmentFrames_getLast : ∀ {frs : List Fragment} (opcode : UInt8), frs ≠ [] →
    ∃ f, (fragmentFrames opcode frs).getLast? = some f ∧ f.fin = true
  | [fr], opcode, _ => ⟨fr.frame true opcode, rfl, rfl⟩
  | fr :: fr' :: frs, opcode, _ => by
    obtain ⟨f, hf, hfin⟩ := fragmentFrames_getLast 0x0 (List.cons_ne_nil fr' frs)
    refine ⟨f, ?_, hfin⟩
    rw [fragmentFrames, List.getLast?_cons_of_ne_nil]
    · exact hf
    · intro hnil; rw [hnil] at hf; cases hf

theorem messages_getLast (data : List DataMessage) :
    ∀ f ∈ (data.flatMap DataMessage.frames).getLast?, f.fin = true := by
  induction data with
  | nil => intro f hf; cases hf
  | cons m data ih =>
    obtain ⟨g, hg, hfin⟩ := fragmentFrames_getLast m.opcode m.nonempty
    rw [List.flatMap_cons]
    intro f hf
    rw [List.getLast?_append] at hf
    cases hl : (data.flatMap DataMessage.frames).getLast? with
    | none =>
      rw [hl] at hf
      have : m.frames.getLast? = some f := hf
      rw [show m.frames.getLast? = some g from hg] at this
      cases this; exact hfin
    | some g' =>
      rw [hl] at hf
      cases hf
      exact ih f hl

/-- **When pings and pongs between the frames do not disturb the messages.** -/
theorem control_frames_harmless_iff (handlers : HandshakeHandlers η) (s : Connected η)
    (data : List DataMessage) (hdata : ∀ m ∈ data, m.Proper s.1.isClient)
    (frames : List SentFrame) (hins : dataFrames frames = data.flatMap DataMessage.frames)
    (hcontrol : ∀ f ∈ frames, f.isPingPong = true → f.fin = true ∧ f.Proper s.1.isClient) :
    ∃ events events' s₁ s₂,
      consume handlers s.1 (frames.flatMap SentFrame.bytes) = some (events, some (s₁, [])) ∧
      consume handlers s.1 ((data.flatMap DataMessage.frames).flatMap SentFrame.bytes) =
        some (events', some (s₂, [])) ∧
      (messages events = messages events' ↔ Undisturbed s.1.message frames) := by
  obtain ⟨_, _, _, hseq⟩ := expected_messages data
  have hseq' : Sequenced false frames :=
    sequenced_dataFrames (fun f hf hp => (hcontrol f hf hp).1) (hins ▸ hseq)
  have hproper : ∀ f ∈ frames, f.Proper s.1.isClient := fun f hf => by
    by_cases hp : f.isPingPong = true
    · exact (hcontrol f hf hp).2
    · refine frames_proper hdata ?_
      rw [← hins]
      exact List.mem_filter.2 ⟨hf, by simpa using hp⟩
  obtain ⟨s₁, hplay₁, _⟩ := play_sequenced frames false s hseq' (by simp)
  obtain ⟨s₂, hplay₂, _⟩ := play_sequenced _ false s hseq (by simp)
  refine ⟨expected s.1.message frames, expected s.1.message (data.flatMap DataMessage.frames),
    s₁.1, s₂.1, ?_, ?_, ?_⟩
  · rw [consume_play handlers s frames hproper, hplay₁]; rfl
  · rw [consume_play handlers s _ fun f hf => frames_proper hdata hf, hplay₂]; rfl
  · rw [messages_expected, messages_expected, ← hins]
    refine delivered_dataFrames frames s.1.message ?_
    unfold Closed
    rw [hins]
    exact messages_getLast data

/-- A text in two fragments. -/
def splitText : List DataMessage :=
  [⟨0x1, [⟨none, [0x61]⟩, ⟨none, [0x62]⟩], by decide, by simp⟩]

theorem splitText_proper : ∀ m ∈ splitText, m.Proper true := by
  intro m hm
  simp only [splitText, List.mem_singleton] at hm
  subst hm
  exact ⟨by decide, fun _ => by decide⟩

/-- The text with a ping between its fragments. -/
def pingedText : List SentFrame :=
  [⟨.bits7, false, 0x1, none, [0x61]⟩, ⟨.bits7, true, 0x9, none, []⟩, ⟨.bits7, true, 0x0, none, [0x62]⟩]

theorem pingedText_control :
    ∀ f ∈ pingedText, f.isPingPong = true → f.fin = true ∧ f.Proper true := by
  intro f hf hp
  simp only [pingedText, List.mem_cons, List.not_mem_nil, or_false] at hf
  rcases hf with rfl | rfl | rfl
  · cases hp
  · exact ⟨rfl, by decide, show 0 < 126 by decide, fun _ => rfl⟩
  · cases hp

theorem pingedText_iff :
    ∃ events events' s₁ s₂,
      consume noHandshake (fresh true).1 (pingedText.flatMap SentFrame.bytes) =
        some (events, some (s₁, [])) ∧
      consume noHandshake (fresh true).1
        ((splitText.flatMap DataMessage.frames).flatMap SentFrame.bytes) =
          some (events', some (s₂, [])) ∧
      (messages events = messages events' ↔ Undisturbed [] pingedText) :=
  control_frames_harmless_iff noHandshake (fresh true) splitText splitText_proper pingedText rfl
    pingedText_control

/-- The ping takes the first fragment with it. -/
theorem ping_loses_fragment :
    dataFrames pingedText = splitText.flatMap DataMessage.frames ∧
      (consume noHandshake (fresh true).1 (pingedText.flatMap SentFrame.bytes)).map
        (fun r => messages r.1) = some [[0x62]] ∧
      (consume noHandshake (fresh true).1
        ((splitText.flatMap DataMessage.frames).flatMap SentFrame.bytes)).map
          (fun r => messages r.1) = some [[0x61, 0x62]] :=
  ⟨rfl, by decide, by decide⟩

end WebSocketProtocol

end Brickred
