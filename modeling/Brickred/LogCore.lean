import Mathlib.Order.Basic
import Brickred.StringUtil

/-!
# `LogCore` (model of `log_core.cc`)

A log call is formatted into one buffer, by the first sink that takes it, and the buffer is handed
to every sink that takes it.

* `Logger.log`, `Logger.plainLog` — the loop over the sinks (`deliver`).
* `LogCore` — the table of loggers.
* `deliver_eq` — every sink gets the text of the first one.
* `log_own_format_iff` — when that is the text of its own formatter.
* `plainLog_eq` — without formatters it is one text anyway.
-/

set_option autoImplicit false

namespace Brickred

namespace LogCore

variable {σ ν : Type}

/-- The arguments of a call of `log`, with the `va_list` behind them. -/
structure Call (ν : Type) where
  level : Int
  filename : List UInt8
  line : Int
  function : List UInt8
  format : List UInt8
  args : ν

/-- What a formatter makes of the bytes of the buffer, and the `size_t` it returns. -/
abbrev LogFormatter (ν : Type) := List UInt8 → Call ν → List UInt8 × Nat

/-- `vsnprintf`, given the text a format stands for; `none` is an error, a result of `-1`. -/
def vsnprintf (printed : List UInt8 → ν → Option (List UInt8)) : LogFormatter ν :=
  fun buffer call =>
    match printed call.format call.args with
    | none => (buffer, 2 ^ 64 - 1)
    | some text =>
      let written := text.take (buffer.length - 1) ++ [0]
      ((written ++ buffer.drop written.length).take buffer.length, text.length)

/-- An entry of `sinks_`, `sink_formatters_` and `sink_level_filters_`. -/
structure Sink (σ ν : Type) where
  sink : σ
  formatter : Option (LogFormatter ν)
  levelFilter : Int

structure Logger (σ ν : Type) where
  formatter : Option (LogFormatter ν)
  levelFilter : Int
  maxLogSize : Nat
  sinks : List (Sink σ ν)

/-- `buffer`, `count` and `buffer_ready`. -/
structure LogBuffer where
  buffer : List UInt8
  count : Nat
  bufferReady : Bool

namespace Logger

def init (formatter : Option (LogFormatter ν)) (levelFilter : Int) (maxLogSize : Nat) :
    Logger σ ν := ⟨formatter, levelFilter, maxLogSize, []⟩

def addSink (l : Logger σ ν) (sink : σ) (formatter : Option (LogFormatter ν))
    (levelFilter : Int) : Logger σ ν :=
  { l with sinks := l.sinks ++ [⟨sink, formatter, levelFilter⟩] }

def setLevelFilter (l : Logger σ ν) (levelFilter : Int) : Logger σ ν :=
  { l with levelFilter := levelFilter }

/-- The branch under `lazy format`. -/
def lazyFormat (maxLogSize : Nat) (call : Call ν) (format : LogFormatter ν) (b : LogBuffer) :
    LogBuffer :=
  if b.bufferReady then b
  else
    let (buffer, count) := format b.buffer call
    ⟨buffer, min count maxLogSize, true⟩

/-- The loop over the sinks, with the calls `sinks_[i]->log(buffer.get(), count)`. -/
def deliver (maxLogSize : Nat) (call : Call ν) (format : Sink σ ν → LogFormatter ν) :
    LogBuffer → List (Sink σ ν) → List (σ × List UInt8)
  | _, [] => []
  | b, s :: sinks =>
    if call.level < s.levelFilter then deliver maxLogSize call format b sinks
    else
      let b := lazyFormat maxLogSize call (format s) b
      (s.sink, b.buffer.take b.count) :: deliver maxLogSize call format b sinks

/-- The formatter `log` takes for a sink. -/
def formatterOf (printed : List UInt8 → ν → Option (List UInt8)) (l : Logger σ ν)
    (s : Sink σ ν) : LogFormatter ν :=
  match s.formatter with
  | some formatter => formatter
  | none =>
    match l.formatter with
    | some formatter => formatter
    | none => vsnprintf printed

/-- `buffer` is what is in the new `char[max_log_size_]`. -/
def log (printed : List UInt8 → ν → Option (List UInt8)) (l : Logger σ ν) (buffer : List UInt8)
    (call : Call ν) : List (σ × List UInt8) :=
  if call.level < l.levelFilter then []
  else deliver l.maxLogSize call (l.formatterOf printed) ⟨buffer, 0, false⟩ l.sinks

def plainLog (printed : List UInt8 → ν → Option (List UInt8)) (l : Logger σ ν)
    (buffer : List UInt8) (call : Call ν) : List (σ × List UInt8) :=
  if call.level < l.levelFilter then []
  else deliver l.maxLogSize call (fun _ => vsnprintf printed) ⟨buffer, 0, false⟩ l.sinks

end Logger

end LogCore

open LogCore in
structure LogCore (σ ν : Type) where
  loggers : List (Option (Logger σ ν))
  maxLogSize : Nat

namespace LogCore

variable {σ ν : Type}

/-- The checks all functions of `Impl` begin with: `logger_id` is in range, and not `NULL`. -/
def logger (c : LogCore σ ν) (loggerId : Int) : Option (Logger σ ν) :=
  if loggerId < 0 ∨ loggerId ≥ c.loggers.length then none
  else (c.loggers[loggerId.toNat]?).getD none

def setLogger (c : LogCore σ ν) (loggerId : Int) (l : Option (Logger σ ν)) : LogCore σ ν :=
  { c with loggers := c.loggers.set loggerId.toNat l }

def setMaxLoggerCount (c : LogCore σ ν) (count : Int) : LogCore σ ν :=
  if count < 0 then c
  else
    { c with
      loggers := c.loggers.take count.toNat ++
        List.replicate (count.toNat - c.loggers.length) none }

def setMaxLogSize (c : LogCore σ ν) (size : Int) : LogCore σ ν :=
  if size ≤ 0 then c else { c with maxLogSize := size.toNat }

/-- The constructor, with the default arguments. -/
def init : LogCore σ ν := setMaxLogSize (setMaxLoggerCount ⟨[], 0⟩ 1) 4096

def registerLogger (c : LogCore σ ν) (loggerId : Int) (formatter : Option (LogFormatter ν))
    (levelFilter : Int) : Bool × LogCore σ ν :=
  if loggerId < 0 ∨ loggerId ≥ c.loggers.length then (false, c)
  else
    match c.logger loggerId with
    | some _ => (false, c)
    | none => (true, c.setLogger loggerId (some (Logger.init formatter levelFilter c.maxLogSize)))

def removeLogger (c : LogCore σ ν) (loggerId : Int) : LogCore σ ν :=
  match c.logger loggerId with
  | none => c
  | some _ => c.setLogger loggerId none

def addSink (c : LogCore σ ν) (loggerId : Int) (sink : σ) (formatter : Option (LogFormatter ν))
    (levelFilter : Int) : Bool × LogCore σ ν :=
  match c.logger loggerId with
  | none => (false, c)
  | some l => (true, c.setLogger loggerId (some (l.addSink sink formatter levelFilter)))

def setLevelFilter (c : LogCore σ ν) (loggerId : Int) (levelFilter : Int) : LogCore σ ν :=
  match c.logger loggerId with
  | none => c
  | some l => c.setLogger loggerId (some (l.setLevelFilter levelFilter))

def log (printed : List UInt8 → ν → Option (List UInt8)) (c : LogCore σ ν) (buffer : List UInt8)
    (loggerId : Int) (call : Call ν) : List (σ × List UInt8) :=
  match c.logger loggerId with
  | none => []
  | some l => l.log printed buffer call

def plainLog (printed : List UInt8 → ν → Option (List UInt8)) (c : LogCore σ ν)
    (buffer : List UInt8) (loggerId : Int) (call : Call ν) : List (σ × List UInt8) :=
  match c.logger loggerId with
  | none => []
  | some l => l.plainLog printed buffer call

/-! ## What the sinks get -/

/-- The level filter of a sink lets the call through. -/
def Sink.admits (level : Int) (s : Sink σ ν) : Bool := s.levelFilter ≤ level

/-- What a formatter makes of a call, in a new buffer. -/
def textOf (maxLogSize : Nat) (buffer : List UInt8) (call : Call ν) (format : LogFormatter ν) :
    List UInt8 :=
  (format buffer call).1.take (min (format buffer call).2 maxLogSize)

namespace Logger

variable {maxLogSize : Nat} {call : Call ν} {format : Sink σ ν → LogFormatter ν}

theorem deliver_skip {s : Sink σ ν} (h : s.admits call.level = false) (b : LogBuffer)
    (sinks : List (Sink σ ν)) :
    deliver maxLogSize call format b (s :: sinks) = deliver maxLogSize call format b sinks := by
  have hlt : call.level < s.levelFilter := not_le.1 (of_decide_eq_false h)
  rw [deliver, if_pos hlt]

theorem deliver_take {s : Sink σ ν} (h : s.admits call.level = true) (b : LogBuffer)
    (sinks : List (Sink σ ν)) :
    deliver maxLogSize call format b (s :: sinks) =
      (s.sink, (lazyFormat maxLogSize call (format s) b).buffer.take
        (lazyFormat maxLogSize call (format s) b).count) ::
        deliver maxLogSize call format (lazyFormat maxLogSize call (format s) b) sinks := by
  have hle : ¬ call.level < s.levelFilter := not_lt.2 (of_decide_eq_true h)
  rw [deliver, if_neg hle]

/-- Once the buffer is ready, what is in it goes to every sink. -/
theorem deliver_ready (buffer : List UInt8) (count : Nat) : ∀ sinks : List (Sink σ ν),
    deliver maxLogSize call format ⟨buffer, count, true⟩ sinks =
      (sinks.filter (Sink.admits call.level)).map fun s => (s.sink, buffer.take count)
  | [] => rfl
  | s :: sinks => by
    have ih := deliver_ready buffer count sinks
    cases hs : s.admits call.level with
    | false => rw [deliver_skip hs, List.filter_cons_of_neg (by simp [hs]), ih]
    | true =>
      rw [deliver_take hs, List.filter_cons_of_pos hs, List.map_cons]
      exact congrArg _ ih

/-- The loop, by the sinks the level is let through to: they all get the text of the first. -/
theorem deliver_eq (buffer : List UInt8) : ∀ sinks : List (Sink σ ν),
    deliver maxLogSize call format ⟨buffer, 0, false⟩ sinks =
      (sinks.filter (Sink.admits call.level)).map fun s =>
        (s.sink, ((sinks.filter (Sink.admits call.level)).head?.map fun s =>
          textOf maxLogSize buffer call (format s)).getD [])
  | [] => rfl
  | s :: sinks => by
    cases hs : s.admits call.level with
    | false =>
      rw [deliver_skip hs, List.filter_cons_of_neg (by simp [hs])]
      exact deliver_eq buffer sinks
    | true =>
      rw [deliver_take hs, List.filter_cons_of_pos hs, List.map_cons]
      exact congrArg _ (deliver_ready (format s buffer call).1
        (min (format s buffer call).2 maxLogSize) sinks)

/-- The loop gives each sink the text of its own format exactly where the formats of the sinks
agree on this call. -/
theorem deliver_own_iff (buffer : List UInt8) (sinks : List (Sink σ ν)) :
    deliver maxLogSize call format ⟨buffer, 0, false⟩ sinks =
        (sinks.filter (Sink.admits call.level)).map
          (fun s => (s.sink, textOf maxLogSize buffer call (format s))) ↔
      ∀ s ∈ sinks, ∀ s' ∈ sinks, s.admits call.level → s'.admits call.level →
        textOf maxLogSize buffer call (format s) = textOf maxLogSize buffer call (format s') := by
  rw [deliver_eq, List.map_inj_left]
  cases hf : sinks.filter (Sink.admits call.level) with
  | nil =>
    refine iff_of_true (fun s hs => absurd hs List.not_mem_nil) fun s hs s' _ hadm _ => ?_
    have hmem := List.mem_filter.2 ⟨hs, hadm⟩
    rw [hf] at hmem
    exact absurd hmem List.not_mem_nil
  | cons s₀ tail =>
    have hmem : ∀ s, s ∈ s₀ :: tail ↔ s ∈ sinks ∧ s.admits call.level = true := fun s => by
      rw [← hf, List.mem_filter]
    constructor
    · intro h s hs s' hs' hadm hadm'
      have heq := (Prod.ext_iff.1 (h s ((hmem s).2 ⟨hs, hadm⟩))).2
      have heq' := (Prod.ext_iff.1 (h s' ((hmem s').2 ⟨hs', hadm'⟩))).2
      exact heq.symm.trans heq'
    · intro h s hs
      obtain ⟨hs₀, hadm₀⟩ := (hmem s₀).1 List.mem_cons_self
      obtain ⟨hs, hadm⟩ := (hmem s).1 hs
      exact congrArg (Prod.mk s.sink) (h s₀ hs₀ s hs hadm₀ hadm)

end Logger

variable {printed : List UInt8 → ν → Option (List UInt8)} {c : LogCore σ ν} {loggerId : Int}
  {l : Logger σ ν}

/-- Without formatters it is one text, which every sink gets. -/
theorem plainLog_eq (h : c.logger loggerId = some l) {call : Call ν}
    (hlevel : l.levelFilter ≤ call.level) (buffer : List UInt8) :
    c.plainLog printed buffer loggerId call =
      (l.sinks.filter (Sink.admits call.level)).map fun s =>
        (s.sink, textOf l.maxLogSize buffer call (vsnprintf printed)) := by
  unfold plainLog
  rw [h]
  dsimp only
  rw [Logger.plainLog, if_neg (not_lt.2 hlevel)]
  exact (Logger.deliver_own_iff buffer l.sinks).2 fun _ _ _ _ _ _ => rfl

/-- No two sinks that take the call would format it differently. -/
def FormattedAlike (printed : List UInt8 → ν → Option (List UInt8)) (l : Logger σ ν)
    (buffer : List UInt8) (call : Call ν) : Prop :=
  ∀ s ∈ l.sinks, ∀ s' ∈ l.sinks, s.admits call.level → s'.admits call.level →
    textOf l.maxLogSize buffer call (l.formatterOf printed s) =
      textOf l.maxLogSize buffer call (l.formatterOf printed s')

/-- **Every sink gets its own format** exactly when no other sink that takes the call would
format it differently. -/
theorem log_own_format_iff (h : c.logger loggerId = some l) {call : Call ν}
    (hlevel : l.levelFilter ≤ call.level) (buffer : List UInt8) :
    c.log printed buffer loggerId call =
        (l.sinks.filter (Sink.admits call.level)).map
          (fun s => (s.sink, textOf l.maxLogSize buffer call (l.formatterOf printed s))) ↔
      FormattedAlike printed l buffer call := by
  unfold log
  rw [h]
  dsimp only
  rw [Logger.log, if_neg (not_lt.2 hlevel)]
  exact Logger.deliver_own_iff buffer l.sinks

/-- A formatter that puts `#` before the format. -/
def hashFormatter : LogFormatter Unit :=
  fun buffer call =>
    ((35 :: call.format ++ buffer.drop (call.format.length + 1)).take buffer.length,
      call.format.length + 1)

/-- A logger with two sinks, the second one with the given formatter. -/
def twoSinks (formatter : Option (LogFormatter Unit)) : LogCore Nat Unit :=
  ((((((init : LogCore Nat Unit).setMaxLogSize 4).registerLogger 0 none (-1)).2.addSink 0 0
    none (-1)).2.addSink 0 1 formatter (-1)).2)

def hiCall : Call Unit := ⟨0, [], 0, [], [104, 105], ()⟩

def twoLogger (formatter : Option (LogFormatter Unit)) : Logger Nat Unit :=
  ⟨none, -1, 4, [⟨0, none, -1⟩, ⟨1, formatter, -1⟩]⟩

theorem plain_sinks_own_format :
    (twoSinks none).log (fun format _ => some format) [0, 0, 0, 0] 0 hiCall =
      [(0, [104, 105]), (1, [104, 105])] := by
  have halike : FormattedAlike (fun format _ => some format) (twoLogger none) [0, 0, 0, 0]
      hiCall := by
    unfold FormattedAlike
    decide
  exact (@log_own_format_iff _ _ _ (twoSinks none) 0 (twoLogger none) rfl hiCall (by decide)
    [0, 0, 0, 0]).2 halike

/-- The second sink gets the text of the first one. -/
theorem second_formatter_ignored :
    (twoSinks (some hashFormatter)).logger 0 = some (twoLogger (some hashFormatter)) ∧
      (twoLogger (some hashFormatter)).levelFilter ≤ hiCall.level ∧
      (twoSinks (some hashFormatter)).log (fun format _ => some format) [0, 0, 0, 0] 0 hiCall =
        [(0, [104, 105]), (1, [104, 105])] ∧
      (twoSinks (some hashFormatter)).log (fun format _ => some format) [0, 0, 0, 0] 0 hiCall ≠
        ((twoLogger (some hashFormatter)).sinks.filter (Sink.admits hiCall.level)).map
          (fun s => (s.sink, textOf 4 [0, 0, 0, 0] hiCall
            ((twoLogger (some hashFormatter)).formatterOf (fun format _ => some format) s))) :=
  ⟨rfl, by decide, by decide, by decide⟩

end LogCore

end Brickred
