import Brickred.LogCore

/-!
# Texts that do not fit into the buffer

`vsnprintf` stores one character less than the buffer holds and a NUL, and returns the length of the
whole text.

* `textOf_vsnprintf` — so a text that fills the buffer reaches the sinks with the NUL behind it.
* `truncates_iff` — the sinks get what `vsnprintf` stores of the text, and nothing else, exactly for
  the shorter texts.
-/

set_option autoImplicit false

namespace Brickred

namespace LogCore

variable {σ ν : Type} {printed : List UInt8 → ν → Option (List UInt8)} {text : List UInt8}

/-- What the sinks get of a text. -/
theorem textOf_vsnprintf {call : Call ν} (h : printed call.format call.args = some text)
    {buffer : List UInt8} (hsize : 1 ≤ buffer.length) :
    textOf buffer.length buffer call (vsnprintf printed) =
      if text.length < buffer.length then text else text.take (buffer.length - 1) ++ [0] := by
  unfold textOf vsnprintf
  rw [h]
  dsimp only
  rw [List.take_take, Nat.min_eq_left (Nat.min_le_right _ _)]
  split
  · rename_i hlt
    have hall : text.take (buffer.length - 1) = text := List.take_of_length_le (by omega)
    rw [Nat.min_eq_left (by omega), hall, List.append_assoc, List.take_left]
  · rename_i hle
    have hwritten : (text.take (buffer.length - 1) ++ [0]).length = buffer.length := by
      rw [List.length_append, List.length_take, List.length_singleton]
      omega
    rw [Nat.min_eq_right (by omega), List.take_left' hwritten]

namespace Logger

/-- The sinks that get a message of this level. -/
def admitting (l : Logger σ ν) (level : Int) : List (Sink σ ν) :=
  if level < l.levelFilter then [] else l.sinks.filter (Sink.admits level)

/-- Neither the logger nor one of its sinks has a formatter. -/
def NullFormatters (l : Logger σ ν) : Prop :=
  l.formatter = none ∧ ∀ s ∈ l.sinks, s.formatter = none

/-- Each admitting sink gets the beginning of the text, as much of it as `vsnprintf` stores. -/
def Truncates (l : Logger σ ν) (level : Int) (text : List UInt8)
    (delivered : List (σ × List UInt8)) : Prop :=
  delivered = (l.admitting level).map fun s =>
    (s.sink, text.take (min text.length (l.maxLogSize - 1)))

variable {l : Logger σ ν} {call : Call ν} {buffer : List UInt8}

theorem plainLog_delivers (l : Logger σ ν) (call : Call ν) (buffer : List UInt8) :
    l.plainLog printed buffer call = (l.admitting call.level).map fun s =>
      (s.sink, textOf l.maxLogSize buffer call (vsnprintf printed)) := by
  unfold plainLog admitting
  split
  · rfl
  · exact (deliver_own_iff buffer l.sinks).2 fun _ _ _ _ _ _ => rfl

/-- Without formatters `log` is `plainLog`. -/
theorem log_plainLog (hnull : l.NullFormatters) (call : Call ν) (buffer : List UInt8) :
    l.log printed buffer call = l.plainLog printed buffer call := by
  have hformat : ∀ s ∈ l.sinks, l.formatterOf printed s = vsnprintf printed := by
    intro s hs
    unfold formatterOf
    rw [hnull.2 s hs, hnull.1]
  rw [plainLog_delivers]
  unfold log admitting
  split
  · rfl
  · refine ((deliver_own_iff buffer l.sinks).2 fun s hs s' hs' _ _ => ?_).trans ?_
    · rw [hformat s hs, hformat s' hs']
    · refine List.map_congr_left fun s hs => ?_
      rw [hformat s (List.mem_filter.1 hs).1]

/-- What `vsnprintf` stores is what is delivered, unless the text fills the buffer. -/
theorem plainLog_truncates_iff (hprinted : printed call.format call.args = some text)
    (hbuffer : buffer.length = l.maxLogSize) (hsize : 1 ≤ l.maxLogSize) :
    l.Truncates call.level text (l.plainLog printed buffer call) ↔
      l.admitting call.level = [] ∨ text.length < l.maxLogSize := by
  have htext : textOf buffer.length buffer call (vsnprintf printed) = _ :=
    textOf_vsnprintf hprinted (by rw [hbuffer]; exact hsize)
  rw [hbuffer] at htext
  rw [Truncates, plainLog_delivers, htext, List.map_inj_left]
  by_cases hlt : text.length < l.maxLogSize
  · rw [if_pos hlt]
    refine iff_of_true (fun s _ => ?_) (Or.inr hlt)
    rw [List.take_of_length_le (by omega)]
  · rw [if_neg hlt, or_iff_left hlt, Nat.min_eq_right (by omega)]
    constructor
    · intro h
      by_contra hne
      obtain ⟨s, hs⟩ := List.exists_mem_of_ne_nil _ hne
      -- the NUL is one character more
      have hlength := congrArg List.length (Prod.ext_iff.1 (h s hs)).2
      simp only [List.length_append, List.length_singleton] at hlength
      omega
    · intro hnil s hs
      rw [hnil] at hs
      exact absurd hs List.not_mem_nil

end Logger

open Logger in
/-- **The sinks get what is stored of the text** exactly when it is shorter than the buffer, or when
no sink takes it: a larger one is delivered with the NUL. -/
theorem truncates_iff {c : LogCore σ ν} {loggerId : Int} {l : Logger σ ν}
    (hl : c.logger loggerId = some l) {call : Call ν}
    (hprinted : printed call.format call.args = some text) {buffer : List UInt8}
    (hbuffer : buffer.length = l.maxLogSize) (hsize : 1 ≤ l.maxLogSize) :
    (l.Truncates call.level text (c.plainLog printed buffer loggerId call) ↔
      l.admitting call.level = [] ∨ text.length < l.maxLogSize) ∧
    (l.NullFormatters →
      (l.Truncates call.level text (c.log printed buffer loggerId call) ↔
        l.admitting call.level = [] ∨ text.length < l.maxLogSize)) := by
  unfold plainLog log
  rw [hl]
  dsimp only
  refine ⟨plainLog_truncates_iff hprinted hbuffer hsize, fun hnull => ?_⟩
  rw [log_plainLog hnull]
  exact plainLog_truncates_iff hprinted hbuffer hsize

/-- A text of two characters in a buffer of four. -/
theorem hi_truncates :
    ((twoLogger none).Truncates 0 [104, 105]
        ((twoSinks none).plainLog (fun format _ => some format) [7, 7, 7, 7] 0 hiCall) ↔
      (twoLogger none).admitting 0 = [] ∨ 2 < 4) ∧
    ((twoLogger none).NullFormatters →
      ((twoLogger none).Truncates 0 [104, 105]
          ((twoSinks none).log (fun format _ => some format) [7, 7, 7, 7] 0 hiCall) ↔
        (twoLogger none).admitting 0 = [] ∨ 2 < 4)) :=
  @truncates_iff Nat Unit (fun format _ => some format) [104, 105] (twoSinks none) 0
    (twoLogger none) rfl hiCall rfl [7, 7, 7, 7] rfl (by decide)

def fullCall : Call Unit := { hiCall with format := [104, 105, 33, 33] }

/-- A text that fills the buffer loses its last character and gets a NUL. -/
theorem full_not_truncated :
    (twoSinks none).logger 0 = some (twoLogger none) ∧
      (twoSinks none).plainLog (fun format _ => some format) [7, 7, 7, 7] 0 fullCall =
        [(0, [104, 105, 33, 0]), (1, [104, 105, 33, 0])] ∧
      ¬ (twoLogger none).Truncates 0 [104, 105, 33, 33]
        ((twoSinks none).plainLog (fun format _ => some format) [7, 7, 7, 7] 0 fullCall) := by
  refine ⟨rfl, by decide, ?_⟩
  unfold Logger.Truncates
  decide

end LogCore

end Brickred
