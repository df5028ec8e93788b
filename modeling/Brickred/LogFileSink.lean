import Brickred.Lib.Runs
import Brickred.StringUtil

/-!
# `LogFileSink` (model of `log_file_sink.cc`)

The path of the file is formatted anew for each call, and another file is opened when it has
changed.  The C library is seen through its calls: a `FILE *` is the number of a stream `fopen` has
returned.

* `openFile`, `log`.
* `Machine` — calls of a sink one after the other, whatever the clock and `fopen` do.
* `survives_iff` — the handle is the one of the file exactly as long as no path is formatted again
  right after it could not be opened.
-/

set_option autoImplicit false

namespace Brickred

open StringUtil

/-- A stream `fopen` has returned; it keeps its number when it is closed. -/
structure Stream where
  path : List UInt8
  isOpen : Bool
  deriving DecidableEq

/-- `class LogFileSink::Impl`; `fp` is `none` where it is NULL. -/
structure LogFileSink where
  filePath : List UInt8
  actualFilePath : List UInt8
  fp : Option Nat
  deriving DecidableEq

namespace LogFileSink

/-- What the sink calls; `baseError` is `BASE_ERROR` with the formatted text. -/
inductive LibCall where
  | fopen (path mode : List UInt8)
  | fclose (fp : Nat)
  | setbuf (fp : Nat)
  | fwrite (buffer : List UInt8) (fp : Option Nat)
  | baseError (message : List UInt8)
  deriving DecidableEq

def LibCall.isFopen : LibCall → Bool
  | .fopen _ _ => true
  | _ => false

/-- What `openFile` returns, and the object, the streams and the calls a function leaves. -/
structure Done where
  ret : Bool
  self : LogFileSink
  streams : List Stream
  calls : List LibCall
  deriving DecidableEq

def new (filePath : List UInt8) : LogFileSink := ⟨filePath, [], none⟩

section Format

/- `Timestamp::format`: what it makes of a format and a time. -/
variable (format : List UInt8 → Int → List UInt8)

/-- The C string in the local `actual_file_path`. -/
def formatPath (s : LogFileSink) (second : Int) : List UInt8 :=
  cStr (format (cStr s.filePath) second)

/-- `opens`: whether `fopen` succeeds, if it is called. -/
def openFile (s : LogFileSink) (streams : List Stream) (second : Int) (opens : Bool) : Done :=
  let path := s.formatPath format second
  if s.actualFilePath = path then ⟨true, s, streams, []⟩
  else
    let s := { s with actualFilePath := path }
    if opens = false then ⟨false, s, streams, [.fopen path (bytes "a")]⟩
    else
      let fp := streams.length
      let streams := streams ++ [⟨path, true⟩]
      match s.fp with
      | none => ⟨true, { s with fp := some fp }, streams, [.fopen path (bytes "a"), .setbuf fp]⟩
      | some old =>
        ⟨true, { s with fp := some fp }, streams.modify old fun f => { f with isOpen := false },
          [.fopen path (bytes "a"), .fclose old, .setbuf fp]⟩

/-- `reason` is `strerror(errno)`. -/
def log (s : LogFileSink) (streams : List Stream) (second : Int) (opens : Bool)
    (reason buffer : List UInt8) : Done :=
  let r := s.openFile format streams second opens
  if r.ret = false then
    { r with
      calls := r.calls ++ [.baseError
        (bytes "open file " ++ r.self.actualFilePath ++ bytes " failed: " ++ reason)] }
  else { r with calls := r.calls ++ [.fwrite buffer r.self.fp] }

end Format

/-! ## Calls one after the other -/

inductive Op where
  | openFile
  | log (reason buffer : List UInt8)

/-- A call from outside: the time it is made at, and whether `fopen` succeeds. -/
structure Call where
  op : Op
  second : Int
  opens : Bool

/-- `opened` is whether the last `fopen` has succeeded, `none` before the first. -/
structure Machine where
  sink : LogFileSink
  streams : List Stream
  opened : Option Bool
  deriving DecidableEq

namespace Machine

variable (format : List UInt8 → Int → List UInt8)

def new (filePath : List UInt8) : Machine := ⟨.new filePath, [], none⟩

def call (m : Machine) (c : Call) : Done :=
  match c.op with
  | .openFile => m.sink.openFile format m.streams c.second c.opens
  | .log reason buffer => m.sink.log format m.streams c.second c.opens reason buffer

def step (m : Machine) (c : Call) : Option Machine :=
  let r := m.call format c
  some ⟨r.self, r.streams, if r.calls.any LibCall.isFopen then some c.opens else m.opened⟩

/-- A stream that is open, of the file with this path. -/
def OpenOn (streams : List Stream) (path : List UInt8) (fp : Option Nat) : Prop :=
  ∃ i, fp = some i ∧ streams[i]? = some ⟨path, true⟩

/-- The call leaves a handle of the file if `openFile` returns true, writes to nothing else, and
tries to open the file if the last `fopen` has failed. -/
structure Survives (m : Machine) (c : Call) : Prop where
  handle : (m.call format c).ret = true →
    OpenOn (m.call format c).streams (m.call format c).self.actualFilePath (m.call format c).self.fp
  writes : ∀ buffer fp, .fwrite buffer fp ∈ (m.call format c).calls →
    OpenOn (m.call format c).streams (m.sink.formatPath format c.second) fp
  again : m.opened = some false →
    .fopen (m.sink.formatPath format c.second) (bytes "a") ∈ (m.call format c).calls

/-- The path is the one the object has, though no file has been opened for it. -/
def Stale (m : Machine) (c : Call) : Prop :=
  m.sink.formatPath format c.second = m.sink.actualFilePath ∧ m.opened ≠ some true

/-- Before the first `fopen` there is no handle, and behind one that has succeeded it is the handle
of the file. -/
structure Inv (m : Machine) : Prop where
  unopened : m.opened = none → m.sink.fp = none
  opened : m.opened = some true → OpenOn m.streams m.sink.actualFilePath m.sink.fp
  known : ∀ i, m.sink.fp = some i → i < m.streams.length

section Step

variable {format} {m : Machine} {c : Call}

theorem openOn_last {streams : List Stream} {path : List UInt8} :
    OpenOn (streams ++ [⟨path, true⟩]) path (some streams.length) :=
  ⟨_, rfl, List.getElem?_concat_length⟩

/-- What `openFile` does, in a call of its own or of `log`. -/
theorem call_eq (m : Machine) (c : Call) :
    let r := m.sink.openFile format m.streams c.second c.opens
    ∃ calls, m.call format c = ⟨r.ret, r.self, r.streams, r.calls ++ calls⟩ ∧
      calls.any LibCall.isFopen = false ∧
      ∀ buffer fp, .fwrite buffer fp ∈ calls → r.ret = true ∧ fp = r.self.fp := by
  intro r
  obtain ⟨op, second, opens⟩ := c
  cases op with
  | openFile =>
    refine ⟨[], ?_, rfl, fun _ _ h => absurd h List.not_mem_nil⟩
    rw [List.append_nil]
    rfl
  | log reason buffer =>
    cases hret : r.ret with
    | false =>
      refine ⟨_, (if_pos hret).trans (by rw [← hret]), rfl, fun _ _ h => ?_⟩
      cases List.mem_singleton.1 h
    | true =>
      refine ⟨_, (if_neg (by rw [hret]; decide)).trans (by rw [← hret]), rfl, fun _ _ h => ?_⟩
      cases List.mem_singleton.1 h
      exact ⟨rfl, rfl⟩

/-- The three ways `openFile` takes. -/
theorem openFile_cases (hI : m.Inv) (second : Int) (opens : Bool) :
    let path := m.sink.formatPath format second
    let r := m.sink.openFile format m.streams second opens
    (path = m.sink.actualFilePath ∧ r = ⟨true, m.sink, m.streams, []⟩) ∨
    (path ≠ m.sink.actualFilePath ∧ r.self.actualFilePath = path ∧
      .fopen path (bytes "a") ∈ r.calls ∧ (∀ buffer fp, .fwrite buffer fp ∉ r.calls) ∧
      r.ret = opens ∧ (∀ i, r.self.fp = some i → i < r.streams.length) ∧
      (opens = true → OpenOn r.streams path r.self.fp)) := by
  intro path r
  by_cases hpath : m.sink.actualFilePath = path
  · exact Or.inl ⟨hpath.symm, if_pos hpath⟩
  refine Or.inr ⟨Ne.symm hpath, ?_⟩
  have hr : r = _ := if_neg hpath
  cases opens with
  | false =>
    rw [hr, if_pos rfl]
    exact ⟨rfl, List.mem_singleton_self _, by simp, rfl, hI.known, nofun⟩
  | true =>
    rw [hr, if_neg (by decide)]
    cases hfp : m.sink.fp with
    | none =>
      dsimp only
      refine ⟨rfl, List.mem_cons_self, by simp, rfl, fun i hi => ?_, fun _ => openOn_last⟩
      cases hi
      simp
    | some old =>
      have hne : old ≠ m.streams.length := (hI.known old hfp).ne
      dsimp only
      refine ⟨rfl, List.mem_cons_self, by simp, rfl, fun i hi => ?_, fun _ => ⟨_, rfl, ?_⟩⟩
      · cases hi
        simp
      · rw [List.getElem?_modify_ne _ _ hne, List.getElem?_concat_length]

theorem inv_new (filePath : List UInt8) : (new filePath).Inv := ⟨fun _ => rfl, nofun, nofun⟩

/-- **Every call** keeps the invariant. -/
theorem inv_step (hI : m.Inv) {m' : Machine} (h : m.step format c = some m') : m'.Inv := by
  obtain ⟨calls, hcall, hquiet, _⟩ := @call_eq format m c
  unfold step at h
  cases h
  rw [hcall]
  dsimp only
  rw [List.any_append, hquiet, Bool.or_false]
  rcases @openFile_cases format m hI c.second c.opens with ⟨_, hr⟩ |
    ⟨_, hpath, hfopen, _, _, hknown, hopen⟩
  · rw [hr]
    exact ⟨hI.unopened, hI.opened, hI.known⟩
  · rw [List.any_eq_true.2 ⟨_, hfopen, rfl⟩, if_pos rfl]
    refine ⟨nofun, fun hopened => ?_, hknown⟩
    rw [hpath]
    exact hopen (Option.some.inj hopened)

/-- **A call is in order** exactly when its path is not one that could not be opened. -/
theorem survives_iff_not_stale (hI : m.Inv) : m.Survives format c ↔ ¬ m.Stale format c := by
  obtain ⟨calls, hcall, hcalls, hwrites⟩ := @call_eq format m c
  rcases @openFile_cases format m hI c.second c.opens with ⟨hpath, hr⟩ |
    ⟨hpath, hself, hfopen, hquiet, hret, _, hopen⟩
  · -- `fopen` is not called
    rw [hr] at hcall hwrites
    constructor
    · rintro h ⟨_, hopened⟩
      cases hlast : m.opened with
      | none =>
        obtain ⟨i, hi, _⟩ := h.handle (by rw [hcall])
        rw [hcall] at hi
        rw [hI.unopened hlast] at hi
        cases hi
      | some succeeded =>
        cases succeeded with
        | true => exact hopened hlast
        | false =>
          have hagain := h.again hlast
          rw [hcall] at hagain
          have hany : calls.any LibCall.isFopen = true := List.any_eq_true.2 ⟨_, hagain, rfl⟩
          rw [hcalls] at hany
          cases hany
    · intro h
      have hopened : m.opened = some true := by
        by_contra hne
        exact h ⟨hpath, hne⟩
      have hon := hI.opened hopened
      refine ⟨fun _ => ?_, fun buffer fp hmem => ?_, fun hlast => ?_⟩
      · rw [hcall]
        exact hon
      · rw [hcall] at hmem ⊢
        obtain ⟨_, rfl⟩ := hwrites buffer fp hmem
        rw [hpath]
        exact hon
      · rw [hopened] at hlast
        cases hlast
  · refine iff_of_true ⟨fun hok => ?_, fun buffer fp hmem => ?_, fun _ => ?_⟩ fun h => hpath h.1
    · rw [hcall] at hok ⊢
      dsimp only
      rw [hself]
      exact hopen (hret.symm.trans hok)
    · rw [hcall] at hmem ⊢
      rcases List.mem_append.1 hmem with hmem | hmem
      · exact absurd hmem (hquiet buffer fp)
      · obtain ⟨hok, rfl⟩ := hwrites buffer fp hmem
        exact hopen (hret.symm.trans hok)
    · rw [hcall]
      exact List.mem_append_left _ hfopen

end Step

/-- **Failed opens are survived** in exactly the runs where no path is formatted once more after it
could not be opened, and the first one is not empty: whatever the clock says and `fopen` does. -/
theorem survives_iff (filePath : List UInt8) (calls : List Call) :
    Runs.EachStep (step format) (Survives format) (new filePath) calls ↔
      Runs.EachStep (step format) (fun m c => ¬ m.Stale format c) (new filePath) calls :=
  Runs.eachStep_congr (I := Inv) (fun _ _ _ hI h => inv_step hI h)
    (fun _ _ hI => survives_iff_not_stale hI) (inv_new filePath)

/-- Two messages for a file in a directory that does not exist. -/
def missing : Machine := new (bytes "/missing/log")

def missingCall : Call := ⟨.log (bytes "No such file or directory") (bytes "x"), 0, false⟩

/-- The second one is written to a NULL handle. -/
theorem missing_not_survived :
    ((missing.step (fun f _ => f) missingCall).map fun m => (m.call (fun f _ => f) missingCall)) =
        some ⟨true, ⟨bytes "/missing/log", bytes "/missing/log", none⟩, [],
          [.fwrite (bytes "x") none]⟩ ∧
      ¬ Runs.EachStep (step fun f _ => f) (Survives fun f _ => f) missing
        [missingCall, missingCall] := by
  have hfirst : missing.step (fun f _ => f) missingCall =
      some ⟨⟨bytes "/missing/log", bytes "/missing/log", none⟩, [], some false⟩ := by decide +kernel
  have hsecond : (Machine.mk ⟨bytes "/missing/log", bytes "/missing/log", none⟩ []
      (some false)).call (fun f _ => f) missingCall =
        ⟨true, ⟨bytes "/missing/log", bytes "/missing/log", none⟩, [],
          [.fwrite (bytes "x") none]⟩ := by decide +kernel
  refine ⟨by rw [hfirst, Option.map_some, hsecond], fun h => ?_⟩
  obtain ⟨i, hi, _⟩ := (h.2 _ hfirst).1.handle (by rw [hsecond])
  rw [hsecond] at hi
  cases hi

end Machine

end LogFileSink

end Brickred
