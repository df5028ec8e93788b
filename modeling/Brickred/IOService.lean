import Mathlib.Data.List.Basic
import Mathlib.Logic.Function.Basic
import Brickred.Lib.Runs

/-!
# `IOService` (model of `io_service.cc`, `io_device.cc`)

The loop of the service, and the devices it calls.  An epoll event carries the address of a
device, which may be gone when its turn comes, with another device at its place.

* `Machine.step` — one step of the loop, or something a callback or the application does to a
  device.  The loop returns to its next check after any number of those.
* `Inv`, `step_inv` — an address among the pending events is in `removed_io_devices_`, or the device
  there has been attached all the time.
* `dispatch_current` — every run.
-/

set_option autoImplicit false

namespace Brickred

namespace IOService

/-- Where an `IODevice` is. -/
abbrev Address := Nat

/-! ## Events -/

def EPOLLIN : UInt32 := 0x001
def EPOLLPRI : UInt32 := 0x002
def EPOLLOUT : UInt32 := 0x004
def EPOLLERR : UInt32 := 0x008
def EPOLLHUP : UInt32 := 0x010
def EPOLLRDHUP : UInt32 := 0x2000

/-- `struct epoll_event`. -/
structure EpollEvent where
  events : UInt32
  ioDevice : Address

inductive Callback where
  | write
  | read
  | error
  deriving DecidableEq

/-- The callbacks an event asks for, in the order of the loop. -/
def EpollEvent.callbacks (e : EpollEvent) : List Callback :=
  (if e.events &&& EPOLLOUT ≠ 0 then [.write] else []) ++
  (if e.events &&& (EPOLLIN ||| EPOLLPRI ||| EPOLLRDHUP) ≠ 0 then [.read] else []) ++
  (if e.events &&& (EPOLLERR ||| EPOLLHUP) ≠ 0 then [.error] else [])

/-! ## Devices -/

/-- `current`: the device was attached when `epoll_wait` returned, and has not been detached
since. -/
structure IODevice where
  attached : Bool
  current : Bool

/-- Where the thread is in `loop`. -/
inductive Loop where
  | outside
  /-- in `epoll_wait` -/
  | waiting
  /-- events, and the callbacks that are left of each -/
  | dispatching (events : List (Address × List Callback))
  /-- in `timer_heap_.checkTimeout` -/
  | timers

end IOService

open IOService

/-- `class IOService::Impl`. -/
structure IOService where
  quit : Bool
  removedIODevices : List Address

namespace IOService

def checkIODeviceExist (s : IOService) (a : Address) : Bool := a ∉ s.removedIODevices

/-- `epoll_ctl(EPOLL_CTL_DEL)` succeeds. -/
def removeIODevice (s : IOService) (a : Address) : IOService :=
  { s with removedIODevices := a :: s.removedIODevices }

/-! ## The system -/

/-- The service, the thread in `loop` and the devices there are. -/
structure Machine where
  self : IOService
  loop : Loop
  devices : Address → Option IODevice

inductive Action where
  /-- the application calls `loop()` -/
  | loop
  | epollReturns (events : List EpollEvent)
  /-- an error other than `EINTR` -/
  | epollFails
  /-- the next check, and the callback it lets through -/
  | dispatch
  | checkTimeout
  /-- the rest of the pass -/
  | clear
  | quit
  /-- `new IODevice` -/
  | create (a : Address)
  /-- `~IODevice` -/
  | destroy (a : Address)
  /-- `attachIOService`; `ok` is the result of `epoll_ctl(EPOLL_CTL_ADD)` -/
  | attach (a : Address) (ok : Bool)
  | detach (a : Address)

namespace Machine

def init : Machine := ⟨⟨false, []⟩, .outside, fun _ => none⟩

def Attached (m : Machine) (a : Address) : Prop := (m.devices a).any (·.attached)

instance (m : Machine) (a : Address) : Decidable (m.Attached a) :=
  inferInstanceAs (Decidable (_ = true))

/-- The device at the address is `current`. -/
def Current (m : Machine) (a : Address) : Prop :=
  ∃ d, m.devices a = some d ∧ d.attached = true ∧ d.current = true

/-- `epoll_wait` returns. -/
def epollReturns (m : Machine) (events : List EpollEvent) : Machine :=
  { m with
    loop := .dispatching (events.map fun e => (e.ioDevice, e.callbacks))
    devices := fun a => (m.devices a).map fun d => { d with current := d.attached } }

/-- The callback that a step of the loop calls. -/
def invokes (m : Machine) : Action → Option (Address × Callback)
  | .dispatch =>
    match m.loop with
    | .dispatching ((a, cb :: _) :: _) =>
      if m.self.checkIODeviceExist a then some (a, cb) else none
    | _ => none
  | _ => none

def dispatch (m : Machine) : Option Machine :=
  match m.loop with
  | .dispatching ((a, _ :: callbacks) :: events) =>
    if m.self.checkIODeviceExist a then
      some { m with loop := .dispatching ((a, callbacks) :: events) }
    else some { m with loop := .dispatching events }
  | .dispatching ((_, []) :: events) => some { m with loop := .dispatching events }
  | _ => none

def detach (m : Machine) (a : Address) (d : IODevice) : Machine :=
  if d.attached then
    { m with
      self := m.self.removeIODevice a
      devices := Function.update m.devices a (some ⟨false, false⟩) }
  else m

/-- A device that is attached is detached first. -/
def attach (m : Machine) (a : Address) (d : IODevice) (ok : Bool) : Machine :=
  let m := m.detach a d
  { m with devices := Function.update m.devices a (some ⟨ok, false⟩) }

def destroy (m : Machine) (a : Address) (d : IODevice) : Machine :=
  let m := m.detach a d
  { m with devices := Function.update m.devices a none }

def step (m : Machine) : Action → Option Machine
  | .loop =>
    match m.loop with
    | .outside => some { m with self := { m.self with quit := false }, loop := .waiting }
    | _ => none
  | .epollReturns events =>
    match m.loop with
    | .waiting => if ∀ e ∈ events, m.Attached e.ioDevice then some (m.epollReturns events) else none
    | _ => none
  | .epollFails =>
    match m.loop with
    | .waiting => some { m with loop := .outside }
    | _ => none
  | .dispatch => m.dispatch
  | .checkTimeout =>
    match m.loop with
    | .dispatching [] => some { m with loop := .timers }
    | _ => none
  | .clear =>
    match m.loop with
    | .timers =>
      some { m with
        self := { m.self with removedIODevices := [] }
        loop := if m.self.quit then .outside else .waiting }
    | _ => none
  | .quit => some { m with self := { m.self with quit := true } }
  | .create a =>
    match m.devices a with
    | none => some { m with devices := Function.update m.devices a (some ⟨false, false⟩) }
    | some _ => none
  | .destroy a => (m.devices a).map (m.destroy a)
  | .attach a ok => (m.devices a).map (m.attach a · ok)
  | .detach a => (m.devices a).map (m.detach a)

/-! ## The invariant -/

/-- The addresses of the events whose turn is still to come. -/
def pending (m : Machine) : List Address :=
  match m.loop with
  | .dispatching events => events.map Prod.fst
  | _ => []

def Inv (m : Machine) : Prop := ∀ a ∈ m.pending, a ∈ m.self.removedIODevices ∨ m.Current a

variable {m m' : Machine} {a : Address} {d : IODevice}

/-- What comes to an address that no check lets through does not matter. -/
theorem Inv.replace (hm : m.Inv) (ha : a ∈ m.self.removedIODevices ∨ ¬ m.Current a)
    (new : Option IODevice) : Inv { m with devices := Function.update m.devices a new } := by
  intro x hx
  by_cases hxa : x = a
  · subst hxa
    obtain hremoved | hcurrent := hm x hx
    · exact .inl hremoved
    · exact .inl (ha.resolve_right fun h => h hcurrent)
  · refine (hm x hx).imp_right fun ⟨d, hd, hcurrent⟩ => ⟨d, ?_, hcurrent⟩
    exact (Function.update_of_ne hxa new m.devices).trans hd

theorem Inv.removeIODevice (hm : m.Inv) : Inv { m with self := m.self.removeIODevice a } :=
  fun x hx => (hm x hx).imp_left (List.mem_cons_of_mem a)

theorem detach_inv (hm : m.Inv) (d : IODevice) : (m.detach a d).Inv := by
  unfold detach
  split
  · exact (hm.removeIODevice (a := a)).replace (.inl (List.mem_cons_self ..)) _
  · exact hm

/-- After `detachIOService`, a pending event for the address is not let through. -/
theorem detach_removed (hd : m.devices a = some d) :
    a ∈ (m.detach a d).self.removedIODevices ∨ ¬ (m.detach a d).Current a := by
  unfold detach
  split
  · exact .inl (List.mem_cons_self ..)
  · rename_i hattached
    refine .inr ?_
    rintro ⟨d', hd', hattached', _⟩
    rw [hd] at hd'
    cases hd'
    exact hattached hattached'

theorem epollReturns_inv {events : List EpollEvent}
    (hevents : ∀ e ∈ events, m.Attached e.ioDevice) : (m.epollReturns events).Inv := by
  intro a ha
  obtain ⟨p, hp, rfl⟩ := List.mem_map.1 ha
  obtain ⟨e, he, rfl⟩ := List.mem_map.1 hp
  obtain ⟨d, hd, hattached⟩ := (Option.any_eq_true _ _).1 (hevents e he)
  refine .inr ⟨{ d with current := d.attached }, ?_, hattached, hattached⟩
  exact congrArg (Option.map _) hd

theorem pending_eq {events : List (Address × List Callback)} (h : m.loop = .dispatching events) :
    m.pending = events.map Prod.fst := by
  unfold pending
  rw [h]

/-- The loop goes on with some of the events. -/
theorem Inv.advance (hm : m.Inv) {loop : Loop}
    (h : ∀ x ∈ pending { m with loop }, x ∈ m.pending) : Inv { m with loop } :=
  fun x hx => hm x (h x hx)

theorem dispatch_inv (hm : m.Inv) (h : m.dispatch = some m') : m'.Inv := by
  unfold dispatch at h
  split at h
  · rename_i a cb callbacks events hloop
    split at h
    · cases h
      refine hm.advance fun x hx => ?_
      rw [pending_eq hloop]
      exact hx
    · cases h
      refine hm.advance fun x hx => ?_
      rw [pending_eq hloop]
      exact List.mem_cons_of_mem a hx
  · rename_i a events hloop
    cases h
    refine hm.advance fun x hx => ?_
    rw [pending_eq hloop]
    exact List.mem_cons_of_mem a hx
  · cases h

theorem step_inv {action : Action} (hm : m.Inv) (h : m.step action = some m') : m'.Inv := by
  cases action with
  | loop =>
    dsimp only [step] at h
    split at h
    · cases h
      exact fun x hx => absurd hx List.not_mem_nil
    · cases h
  | epollReturns events =>
    dsimp only [step] at h
    split at h
    · obtain ⟨hevents, h⟩ := Option.ite_none_right_eq_some.1 h
      cases h
      exact epollReturns_inv hevents
    · cases h
  | epollFails =>
    dsimp only [step] at h
    split at h
    · cases h
      exact fun x hx => absurd hx List.not_mem_nil
    · cases h
  | dispatch => exact dispatch_inv hm h
  | checkTimeout =>
    dsimp only [step] at h
    split at h
    · cases h
      exact fun x hx => absurd hx List.not_mem_nil
    · cases h
  | clear =>
    -- no event is left that the set is needed for
    dsimp only [step] at h
    split at h
    · cases h
      intro x hx
      cases hquit : m.self.quit with
      | false =>
        simp only [pending, hquit] at hx
        cases hx
      | true =>
        simp only [pending, hquit] at hx
        cases hx
    · cases h
  | quit =>
    cases h
    exact hm
  | create a =>
    dsimp only [step] at h
    split at h
    · rename_i hnone
      cases h
      refine hm.replace (.inr ?_) _
      rintro ⟨d, hd, _⟩
      rw [hnone] at hd
      cases hd
    · cases h
  | destroy a =>
    obtain ⟨d, hd, h⟩ := Option.map_eq_some_iff.1 h
    subst h
    exact (detach_inv hm d).replace (detach_removed hd) none
  | attach a ok =>
    obtain ⟨d, hd, h⟩ := Option.map_eq_some_iff.1 h
    subst h
    exact (detach_inv hm d).replace (detach_removed hd) _
  | detach a =>
    obtain ⟨d, hd, h⟩ := Option.map_eq_some_iff.1 h
    subst h
    exact detach_inv hm d

/-- A check lets a callback through only to a device that has stayed attached. -/
theorem invokes_current (hm : m.Inv) {action : Action} {cb : Callback}
    (h : m.invokes action = some (a, cb)) : m.Current a := by
  unfold invokes at h
  split at h
  · split at h
    · rename_i x cb' callbacks events hloop
      obtain ⟨hexist, h⟩ := Option.ite_none_right_eq_some.1 h
      cases h
      refine (hm a ?_).resolve_left (of_decide_eq_true hexist)
      rw [pending_eq hloop]
      exact List.mem_cons_self ..
    · cases h
  · cases h

end Machine

/-- **Dispatch never reaches a removed device**: in every run of the loop, whatever the callbacks
and the application do to the devices, a callback is called on a device that was attached when
`epoll_wait` returned and has not been detached since. -/
theorem dispatch_current (actions : List Action) :
    Runs.EachStep Machine.step
      (fun m action => ∀ a cb, m.invokes action = some (a, cb) →
        ∃ d, m.devices a = some d ∧ d.attached = true ∧ d.current = true)
      Machine.init actions := by
  have hinit : Machine.init.Inv := fun a ha => absurd ha List.not_mem_nil
  have hrun : Runs.Along Machine.step Machine.Inv Machine.init actions :=
    Runs.along_of_step (fun _ _ _ => Machine.step_inv) hinit actions
  exact hrun.eachStep.mono fun m action hm a cb h => Machine.invokes_current hm.1 h

end IOService

end Brickred
