import Mathlib.Logic.Function.Basic
import Brickred.Lib.CondVar
import Brickred.Lib.Runs

/-!
# `Thread` (model of `thread.cc`)

A critical section is one step.  Any number of threads, the elements of a type `ι`, are in calls of
`join` and `detach`, and `pthread_join` is called outside the lock, between two critical sections.

* `Impl` — the flags, and what each critical section does to them.
* `Machine` — the callers and the spawned thread.
* `Inv`, `step_inv` — the handle is free, or one `join` has it, or it is gone.
* `handle_protocol` — every interleaving.
-/

set_option autoImplicit false

namespace Brickred

namespace Thread

/-- `class Thread::Impl`, without the function and the handle. -/
structure Impl (ι : Type) where
  doneCond : CondVar ι
  started : Bool
  done : Bool
  joinStarted : Bool
  joined : Bool

variable {ι : Type}

/-- Where a thread is in `join`. -/
inductive Phase where
  | outside
  /-- in `while (!done_)` -/
  | waitsDone
  /-- in `while (!joined_)` -/
  | waitsJoined
  /-- with `do_join`, behind the first critical section -/
  | joining
  | inPthreadJoin
  /-- before the second critical section -/
  | pthreadJoined
  deriving DecidableEq

/-- The thread has set `join_started_` and not yet `joined_`. -/
def Phase.holds : Phase → Bool
  | joining | inPthreadJoin | pthreadJoined => true
  | _ => false

namespace Impl

def new : Impl ι := ⟨.new, false, false, false, false⟩

/-- `created`: whether `pthread_create` succeeds. -/
def start (t : Impl ι) (created : Bool) : Except String (Impl ι) :=
  if t.started then .error "thread has already started"
  else if !created then .error "create thread failed in pthread_create"
  else .ok { t with started := true }

def joinable (t : Impl ι) : Bool := t.started && !t.joined

/-- `join` from `while (!joined_)` on. -/
def joinedLoop (t : Impl ι) (i : ι) : Impl ι × Phase :=
  if !t.joined then ({ t with doneCond := t.doneCond.wait i }, .waitsJoined) else (t, .outside)

/-- `join` from `while (!done_)` on. -/
def doneLoop (t : Impl ι) (i : ι) : Impl ι × Phase :=
  if !t.done then ({ t with doneCond := t.doneCond.wait i }, .waitsDone)
  else if !t.joinStarted then ({ t with joinStarted := true }, .joining)
  else t.joinedLoop i

/-- `equal`: what `pthread_equal` says of the handle and the calling thread. -/
def join (t : Impl ι) (i : ι) (equal : Bool) : Except String (Impl ι × Phase) :=
  if equal then .error "thread try to join itself" else .ok (t.doneLoop i)

/-- The second critical section of `join`. -/
def finishJoin (t : Impl ι) : Impl ι :=
  { t with
    joined := true
    doneCond := t.doneCond.notifyAll }

/-- The boolean says whether `pthread_detach` is called. -/
def detach (t : Impl ι) : Bool × Impl ι :=
  if !t.joinStarted then
    (true, { t with
      joinStarted := true
      joined := true })
  else (false, t)

def setDone (t : Impl ι) : Impl ι := { t with done := true }

def notifyDone (t : Impl ι) : Impl ι := { t with doneCond := t.doneCond.notifyAll }

section Flags

variable (t : Impl ι) (i : ι)

theorem joinedLoop_joined : (t.joinedLoop i).1.joined = t.joined := by
  unfold joinedLoop
  split <;> rfl

theorem doneLoop_joined : (t.doneLoop i).1.joined = t.joined := by
  unfold doneLoop
  split
  · rfl
  · split
    · rfl
    · exact joinedLoop_joined t i

theorem detach_joined (h : t.joined = true) : t.detach.2.joined = true := by
  unfold detach
  split
  · rfl
  · exact h

theorem joinedLoop_done : (t.joinedLoop i).1.done = t.done := by
  unfold joinedLoop
  split <;> rfl

theorem doneLoop_done : (t.doneLoop i).1.done = t.done := by
  unfold doneLoop
  split
  · rfl
  · split
    · rfl
    · exact joinedLoop_done t i

theorem joinedLoop_phase : (t.joinedLoop i).2 ≠ .pthreadJoined := by
  unfold joinedLoop
  split
  · exact Phase.noConfusion
  · exact Phase.noConfusion

/-- Behind the first loop `done_` is set. -/
theorem doneLoop_phase (h : (t.doneLoop i).2 ≠ .waitsDone) :
    t.done = true ∧ (t.doneLoop i).2 ≠ .pthreadJoined := by
  unfold doneLoop at h ⊢
  split at h
  · exact absurd rfl h
  · rename_i hdone
    refine ⟨by simpa using hdone, ?_⟩
    rw [if_neg hdone]
    split
    · exact Phase.noConfusion
    · exact joinedLoop_phase t i

theorem detach_done : t.detach.2.done = t.done := by
  unfold detach
  split <;> rfl

end Flags

end Impl

/-! ## The threads -/

/-- Where the spawned thread is. -/
inductive Spawned where
  /-- in the thread function -/
  | running
  | returned
  /-- behind the critical section of `threadProxy` -/
  | done
  | exited
  deriving DecidableEq

/-- `returns`: where the spawned thread was whenever a `join` has returned.  `unjoined`: a call of
`detach` has found no `join` started. -/
structure Machine (ι : Type) where
  self : Impl ι
  phase : ι → Phase
  spawned : Spawned
  pthreadJoins : Nat
  pthreadDetaches : Nat
  returns : List Spawned
  unjoined : Bool

inductive Action (ι : Type) where
  /-- after the thread has been joined, the handle may be that of any other thread -/
  | join (i : ι) (equal : Bool)
  /-- a woken thread in `join` has the mutex again -/
  | resume (i : ι)
  /-- a waiting thread wakes up for no reason -/
  | wake (i : ι)
  | callPthreadJoin (i : ι)
  | pthreadJoinReturns (i : ι)
  | finishJoin (i : ι)
  | detach (i : ι)
  /-- the thread function returns -/
  | functionReturns
  /-- the critical section of `threadProxy` -/
  | proxySection
  | exits

namespace Machine

/-- After `start`. -/
def init : Machine ι :=
  ⟨{ (Impl.new : Impl ι) with started := true }, fun _ => .outside, .running, 0, 0, [], false⟩

def withCond (m : Machine ι) (doneCond : CondVar ι) : Machine ι :=
  { m with self := { m.self with doneCond } }

section Step

variable [DecidableEq ι]

/-- A thread comes to a point in `join`, or returns from it. -/
def enter (m : Machine ι) (i : ι) (r : Impl ι × Phase) : Machine ι :=
  { m with
    self := r.1
    phase := Function.update m.phase i r.2
    returns := if r.2 = .outside then m.spawned :: m.returns else m.returns }

/-- A waiting thread tests the condition of its loop again. -/
def goOn (m : Machine ι) (i : ι) : Option (Machine ι) :=
  match m.phase i with
  | .waitsDone => some (m.enter i (m.self.doneLoop i))
  | .waitsJoined => some (m.enter i (m.self.joinedLoop i))
  | _ => none

def step (m : Machine ι) : Action ι → Option (Machine ι)
  | .join i equal =>
    if m.phase i = .outside then
      some (match m.self.join i equal with
        | .error _ => m
        | .ok r => m.enter i r)
    else none
  | .resume i =>
    (m.self.doneCond.resume i).bind fun doneCond => (m.withCond doneCond).goOn i
  | .wake i => (m.self.doneCond.wake i).map m.withCond
  | .callPthreadJoin i =>
    if m.phase i = .joining then
      some { m with
        phase := Function.update m.phase i .inPthreadJoin
        pthreadJoins := m.pthreadJoins + 1 }
    else none
  | .pthreadJoinReturns i =>
    if m.phase i = .inPthreadJoin ∧ m.spawned = .exited then
      some { m with phase := Function.update m.phase i .pthreadJoined }
    else none
  | .finishJoin i =>
    if m.phase i = .pthreadJoined then some (m.enter i (m.self.finishJoin, .outside)) else none
  | .detach i =>
    if m.phase i = .outside then
      some { m with
        self := m.self.detach.2
        pthreadDetaches := m.pthreadDetaches + m.self.detach.1.toNat
        unjoined := m.unjoined || !m.self.joinStarted }
    else none
  | .functionReturns => if m.spawned = .running then some { m with spawned := .returned } else none
  | .proxySection =>
    if m.spawned = .returned then
      some { m with
        self := m.self.setDone.notifyDone
        spawned := .done }
    else none
  | .exits => if m.spawned = .done then some { m with spawned := .exited } else none

end Step

/-! ## Who has the handle -/

/-- Neither `pthread_join` nor `pthread_detach` has been called, or is about to be. -/
structure Free (m : Machine ι) : Prop where
  joinStarted : m.self.joinStarted = false
  joined : m.self.joined = false
  calls : m.pthreadJoins + m.pthreadDetaches = 0
  nobody : ∀ j, (m.phase j).holds = false

/-- The thread `i` is between the two critical sections of `join`. -/
structure Held (m : Machine ι) (i : ι) : Prop where
  joinStarted : m.self.joinStarted = true
  joined : m.self.joined = false
  calls : m.pthreadJoins + m.pthreadDetaches = if m.phase i = .joining then 0 else 1
  only : ∀ j, (m.phase j).holds = true ↔ j = i

/-- The thread is joined or detached. -/
structure Gone (m : Machine ι) : Prop where
  joinStarted : m.self.joinStarted = true
  joined : m.self.joined = true
  calls : m.pthreadJoins + m.pthreadDetaches = 1
  nobody : ∀ j, (m.phase j).holds = false

def Handle (m : Machine ι) : Prop := m.Free ∨ (∃ i, m.Held i) ∨ m.Gone

structure Inv (m : Machine ι) : Prop where
  started : m.self.started = true
  done : m.self.done = true → m.spawned ≠ .running
  /-- nobody is past the first loop too early -/
  past : ∀ i, m.phase i ≠ .outside → m.phase i ≠ .waitsDone → m.self.done = true
  returns : ∀ s ∈ m.returns, s ≠ .running
  ended : m.returns ≠ [] ∨ m.unjoined = true → m.self.joined = true
  handle : m.Handle

section Handle

variable {m m' : Machine ι} {i : ι} {phase : Phase}

/-- A move that has nothing to do with the handle. -/
theorem Handle.move (h : m.Handle) (hjoinStarted : m'.self.joinStarted = m.self.joinStarted)
    (hjoined : m'.self.joined = m.self.joined)
    (hcalls : m'.pthreadJoins + m'.pthreadDetaches = m.pthreadJoins + m.pthreadDetaches)
    (hholds : ∀ j, (m'.phase j).holds = (m.phase j).holds)
    (hjoining : ∀ j, m'.phase j = .joining ↔ m.phase j = .joining) : m'.Handle := by
  obtain hfree | ⟨i, hheld⟩ | hgone := h
  · exact Or.inl ⟨hjoinStarted.trans hfree.joinStarted, hjoined.trans hfree.joined,
      hcalls.trans hfree.calls, fun j => (hholds j).trans (hfree.nobody j)⟩
  · refine Or.inr (Or.inl ⟨i, hjoinStarted.trans hheld.joinStarted, hjoined.trans hheld.joined,
      ?_, fun j => ?_⟩)
    · rw [hcalls, hheld.calls]
      exact if_congr (hjoining i).symm rfl rfl
    · rw [hholds]
      exact hheld.only j
  · exact Or.inr (Or.inr ⟨hjoinStarted.trans hgone.joinStarted, hjoined.trans hgone.joined,
      hcalls.trans hgone.calls, fun j => (hholds j).trans (hgone.nobody j)⟩)

/-- Whoever is between the critical sections has the handle. -/
theorem Handle.held (h : m.Handle) (hi : (m.phase i).holds = true) : m.Held i := by
  obtain hfree | ⟨j, hheld⟩ | hgone := h
  · rw [hfree.nobody i] at hi
    cases hi
  · rwa [(hheld.only i).1 hi]
  · rw [hgone.nobody i] at hi
    cases hi

/-- The handle is free as long as no `join` is started. -/
theorem Handle.free (h : m.Handle) (hjoinStarted : m.self.joinStarted = false) : m.Free := by
  obtain hfree | ⟨j, hheld⟩ | hgone := h
  · exact hfree
  · rw [hheld.joinStarted] at hjoinStarted
    cases hjoinStarted
  · rw [hgone.joinStarted] at hjoinStarted
    cases hjoinStarted

/-- The phases in which a thread has nothing to do with the handle. -/
theorem joining_ne (hi : (m.phase i).holds = false) : m.phase i ≠ .joining := by
  intro hjoining
  rw [hjoining] at hi
  cases hi

theorem withCond_inv (h : m.Inv) (doneCond : CondVar ι) : (m.withCond doneCond).Inv :=
  ⟨h.started, h.done, h.past, h.returns, h.ended,
    h.handle.move rfl rfl rfl (fun _ => rfl) fun _ => Iff.rfl⟩

variable [DecidableEq ι]

theorem update_holds (hphase : phase.holds = (m.phase i).holds) (j : ι) :
    (Function.update m.phase i phase j).holds = (m.phase j).holds := by
  by_cases hj : j = i
  · rw [hj, Function.update_self, hphase]
  · rw [Function.update_of_ne hj]

theorem update_joining (hphase : phase ≠ .joining) (hi : m.phase i ≠ .joining) (j : ι) :
    Function.update m.phase i phase j = .joining ↔ m.phase j = .joining := by
  by_cases hj : j = i
  · rw [hj, Function.update_self]
    exact iff_of_false hphase hi
  · rw [Function.update_of_ne hj]

/-- Nobody else comes past the first loop. -/
theorem update_past (h : ∀ j, m.phase j ≠ .outside → m.phase j ≠ .waitsDone → m.self.done = true)
    (hphase : phase ≠ .outside → phase ≠ .waitsDone → m.self.done = true) (j : ι) :
    Function.update m.phase i phase j ≠ .outside → Function.update m.phase i phase j ≠ .waitsDone →
      m.self.done = true := by
  by_cases hj : j = i
  · rw [hj, Function.update_self]
    exact hphase
  · rw [Function.update_of_ne hj]
    exact h j

end Handle

/-! ## Steps of `join` -/

section Join

variable [DecidableEq ι] {m m' : Machine ι} {i : ι}

/-- A thread that comes to wait, or returns when the thread is joined. -/
theorem enter_inv {phase : Phase} (h : m.Inv) (hi : (m.phase i).holds = false)
    (hphase : phase.holds = false)
    (hpast : phase ≠ .outside → phase ≠ .waitsDone → m.self.done = true)
    (houtside : phase = .outside → m.self.done = true ∧ m.self.joined = true) :
    (m.enter i (m.self, phase)).Inv := by
  have hjoining : phase ≠ .joining := by
    rintro rfl
    cases hphase
  have hhandle : (m.enter i (m.self, phase)).Handle :=
    h.handle.move rfl rfl rfl (update_holds (hphase.trans hi.symm))
      (update_joining hjoining (joining_ne hi))
  refine ⟨h.started, h.done, update_past h.past hpast, ?_, ?_, hhandle⟩
  · change ∀ s ∈ (if phase = .outside then m.spawned :: m.returns else m.returns), s ≠ .running
    split
    · rename_i hout
      intro s hs
      obtain rfl | hs := List.mem_cons.1 hs
      · exact h.done (houtside hout).1
      · exact h.returns s hs
    · exact h.returns
  · change (if phase = .outside then m.spawned :: m.returns else m.returns) ≠ [] ∨ _ → _
    split
    · rename_i hout
      exact fun _ => (houtside hout).2
    · exact h.ended

/-- The first `join` to come past the loop takes the handle. -/
theorem enter_joining (h : m.Inv) (hdone : m.self.done = true)
    (hjoinStarted : m.self.joinStarted = false) :
    (m.enter i ({ m.self with joinStarted := true }, .joining)).Inv := by
  have hfree := h.handle.free hjoinStarted
  refine ⟨h.started, h.done, update_past h.past fun _ _ => hdone, h.returns, h.ended, ?_⟩
  refine Or.inr (Or.inl ⟨i, rfl, hfree.joined, ?_, fun j => ?_⟩)
  · change _ = if Function.update m.phase i .joining i = .joining then 0 else 1
    rw [Function.update_self, if_pos rfl]
    exact hfree.calls
  · change (Function.update m.phase i .joining j).holds = true ↔ j = i
    by_cases hj : j = i
    · rw [hj, Function.update_self]
      exact iff_of_true rfl rfl
    · rw [Function.update_of_ne hj, hfree.nobody j]
      exact iff_of_false Bool.false_ne_true hj

theorem joinedLoop_inv (h : m.Inv) (hi : (m.phase i).holds = false) (hdone : m.self.done = true) :
    (m.enter i (m.self.joinedLoop i)).Inv := by
  unfold Impl.joinedLoop
  split
  · exact @enter_inv _ _ (m.withCond (m.self.doneCond.wait i)) i .waitsJoined (withCond_inv h _) hi
      rfl (fun _ _ => hdone) fun hout => by cases hout
  · rename_i hjoined
    exact enter_inv h hi rfl (fun hout => absurd rfl hout)
      fun _ => ⟨hdone, by simpa using hjoined⟩

theorem doneLoop_inv (h : m.Inv) (hi : (m.phase i).holds = false) :
    (m.enter i (m.self.doneLoop i)).Inv := by
  unfold Impl.doneLoop
  split
  · exact @enter_inv _ _ (m.withCond (m.self.doneCond.wait i)) i .waitsDone (withCond_inv h _) hi
      rfl (fun _ hwaits => absurd rfl hwaits) fun hout => by cases hout
  · rename_i hdone
    have hdone' : m.self.done = true := by simpa using hdone
    split
    · rename_i hjoinStarted
      exact enter_joining h hdone' (by simpa using hjoinStarted)
    · exact joinedLoop_inv h hi hdone'

theorem goOn_inv (h : m.Inv) (hs : m.goOn i = some m') : m'.Inv := by
  unfold goOn at hs
  cases hi : m.phase i with
  | waitsDone =>
    rw [hi] at hs
    cases hs
    exact doneLoop_inv h (by rw [hi]; rfl)
  | waitsJoined =>
    rw [hi] at hs
    cases hs
    exact joinedLoop_inv h (by rw [hi]; rfl) (h.past i (by rw [hi]; decide) (by rw [hi]; decide))
  | outside | joining | inPthreadJoin | pthreadJoined =>
    rw [hi] at hs
    cases hs

theorem callPthreadJoin_inv (h : m.Inv) (hi : m.phase i = .joining) :
    Inv { m with
      phase := Function.update m.phase i .inPthreadJoin
      pthreadJoins := m.pthreadJoins + 1 } := by
  have hheld := h.handle.held (i := i) (by rw [hi]; rfl)
  have hcalls := hheld.calls
  rw [if_pos hi] at hcalls
  have hdone := h.past i (by rw [hi]; decide) (by rw [hi]; decide)
  refine ⟨h.started, h.done, update_past h.past fun _ _ => hdone, h.returns, h.ended, ?_⟩
  refine Or.inr (Or.inl ⟨i, hheld.joinStarted, hheld.joined, ?_, fun j => ?_⟩)
  · change m.pthreadJoins + 1 + m.pthreadDetaches =
      if Function.update m.phase i .inPthreadJoin i = .joining then 0 else 1
    rw [Function.update_self, if_neg (by decide)]
    omega
  · change (Function.update m.phase i .inPthreadJoin j).holds = true ↔ j = i
    rw [update_holds (by rw [hi]; rfl)]
    exact hheld.only j

theorem pthreadJoinReturns_inv (h : m.Inv) (hi : m.phase i = .inPthreadJoin) :
    Inv { m with phase := Function.update m.phase i .pthreadJoined } := by
  have hdone := h.past i (by rw [hi]; decide) (by rw [hi]; decide)
  exact ⟨h.started, h.done, update_past h.past fun _ _ => hdone, h.returns, h.ended,
    h.handle.move rfl rfl rfl (update_holds (by rw [hi]; rfl))
      (update_joining (by decide) (by rw [hi]; decide))⟩

theorem finishJoin_inv (h : m.Inv) (hi : m.phase i = .pthreadJoined) :
    (m.enter i (m.self.finishJoin, .outside)).Inv := by
  have hheld := h.handle.held (i := i) (by rw [hi]; rfl)
  have hcalls := hheld.calls
  rw [if_neg (by rw [hi]; decide)] at hcalls
  have hdone := h.past i (by rw [hi]; decide) (by rw [hi]; decide)
  refine ⟨h.started, h.done, update_past h.past fun hout => absurd rfl hout, ?_, fun _ => rfl, ?_⟩
  · intro s hs
    obtain rfl | hs := List.mem_cons.1 hs
    · exact h.done hdone
    · exact h.returns s hs
  · refine Or.inr (Or.inr ⟨hheld.joinStarted, rfl, hcalls, fun j => ?_⟩)
    change (Function.update m.phase i .outside j).holds = false
    by_cases hj : j = i
    · rw [hj, Function.update_self]
      rfl
    · rw [Function.update_of_ne hj]
      exact Bool.eq_false_iff.2 fun hholds => hj ((hheld.only j).1 hholds)

end Join

/-! ## Other steps -/

section Others

variable {m : Machine ι}

theorem detach_inv (h : m.Inv) :
    Inv { m with
      self := m.self.detach.2
      pthreadDetaches := m.pthreadDetaches + m.self.detach.1.toNat
      unjoined := m.unjoined || !m.self.joinStarted } := by
  cases hjoinStarted : m.self.joinStarted with
  | true =>
    have hdetach : m.self.detach = (false, m.self) := by
      rw [Impl.detach, hjoinStarted]
      rfl
    rw [hdetach]
    refine ⟨h.started, h.done, h.past, h.returns, ?_, h.handle.move rfl rfl rfl (fun _ => rfl)
      fun _ => Iff.rfl⟩
    simpa using h.ended
  | false =>
    have hfree := h.handle.free hjoinStarted
    have hdetach : m.self.detach =
        (true, { m.self with joinStarted := true, joined := true }) := by
      rw [Impl.detach, hjoinStarted]
      rfl
    rw [hdetach]
    refine ⟨h.started, h.done, h.past, h.returns, fun _ => rfl, Or.inr (Or.inr ?_)⟩
    refine ⟨rfl, rfl, ?_, hfree.nobody⟩
    have hcalls := hfree.calls
    change m.pthreadJoins + (m.pthreadDetaches + 1) = 1
    omega

/-- The spawned thread goes on, behind the thread function. -/
theorem spawned_inv (h : m.Inv) {spawned : Spawned} (hspawned : spawned ≠ .running) :
    Inv { m with spawned } :=
  ⟨h.started, fun _ => hspawned, h.past, h.returns, h.ended,
    h.handle.move rfl rfl rfl (fun _ => rfl) fun _ => Iff.rfl⟩

theorem proxySection_inv (h : m.Inv) :
    Inv { m with
      self := m.self.setDone.notifyDone
      spawned := .done } := by
  have hdone : Spawned.done ≠ .running := by decide
  exact ⟨h.started, fun _ => hdone, fun _ _ _ => rfl, h.returns, h.ended,
    h.handle.move rfl rfl rfl (fun _ => rfl) fun _ => Iff.rfl⟩

end Others

section Run

variable [DecidableEq ι]

theorem step_inv (m : Machine ι) (a : Action ι) (m' : Machine ι) (h : m.Inv)
    (hs : m.step a = some m') : m'.Inv := by
  cases a with
  | join i equal =>
    obtain ⟨hi, hm⟩ := Option.ite_none_right_eq_some.1 hs
    cases hm
    cases equal with
    | true => exact h
    | false => exact doneLoop_inv h (by rw [hi]; rfl)
  | resume i =>
    obtain ⟨doneCond, _, hgo⟩ := Option.bind_eq_some_iff.1 hs
    exact goOn_inv (withCond_inv h doneCond) hgo
  | wake i =>
    obtain ⟨doneCond, _, rfl⟩ := Option.map_eq_some_iff.1 hs
    exact withCond_inv h doneCond
  | callPthreadJoin i =>
    obtain ⟨hi, hm⟩ := Option.ite_none_right_eq_some.1 hs
    cases hm
    exact callPthreadJoin_inv h hi
  | pthreadJoinReturns i =>
    obtain ⟨hi, hm⟩ := Option.ite_none_right_eq_some.1 hs
    cases hm
    exact pthreadJoinReturns_inv h hi.1
  | finishJoin i =>
    obtain ⟨hi, hm⟩ := Option.ite_none_right_eq_some.1 hs
    cases hm
    exact finishJoin_inv h hi
  | detach i =>
    obtain ⟨_, hm⟩ := Option.ite_none_right_eq_some.1 hs
    cases hm
    exact detach_inv h
  | functionReturns =>
    obtain ⟨_, hm⟩ := Option.ite_none_right_eq_some.1 hs
    cases hm
    exact spawned_inv h (by decide)
  | proxySection =>
    obtain ⟨_, hm⟩ := Option.ite_none_right_eq_some.1 hs
    cases hm
    exact proxySection_inv h
  | exits =>
    obtain ⟨_, hm⟩ := Option.ite_none_right_eq_some.1 hs
    cases hm
    exact spawned_inv h (by decide)

/-- Nobody resets `joined_`. -/
theorem step_joined (m : Machine ι) (a : Action ι) (m' : Machine ι) (h : m.self.joined = true)
    (hs : m.step a = some m') : m'.self.joined = true := by
  cases a with
  | join i equal =>
    obtain ⟨_, hm⟩ := Option.ite_none_right_eq_some.1 hs
    cases hm
    cases equal with
    | true => exact h
    | false => exact (m.self.doneLoop_joined i).trans h
  | resume i =>
    obtain ⟨doneCond, _, hgo⟩ := Option.bind_eq_some_iff.1 hs
    unfold goOn at hgo
    split at hgo
    · cases hgo
      exact ((m.withCond doneCond).self.doneLoop_joined i).trans h
    · cases hgo
      exact ((m.withCond doneCond).self.joinedLoop_joined i).trans h
    · cases hgo
  | wake i =>
    obtain ⟨doneCond, _, rfl⟩ := Option.map_eq_some_iff.1 hs
    exact h
  | detach i =>
    obtain ⟨_, hm⟩ := Option.ite_none_right_eq_some.1 hs
    cases hm
    exact m.self.detach_joined h
  | finishJoin i =>
    obtain ⟨_, hm⟩ := Option.ite_none_right_eq_some.1 hs
    cases hm
    rfl
  | callPthreadJoin i | pthreadJoinReturns i | functionReturns | proxySection | exits =>
    obtain ⟨_, hm⟩ := Option.ite_none_right_eq_some.1 hs
    cases hm
    exact h

/-! ## Runs -/

omit [DecidableEq ι] in
theorem init_inv : (init : Machine ι).Inv := by
  refine ⟨rfl, fun h => ?_, fun _ hout => absurd rfl hout, fun s hs => ?_, fun h => ?_,
    Or.inl ⟨rfl, rfl, rfl, fun _ => rfl⟩⟩
  · cases h
  · exact absurd hs List.not_mem_nil
  · obtain h | h := h
    · exact absurd rfl h
    · cases h

/-- A `join` has returned, or a `detach` has found none. -/
def Ended (m : Machine ι) : Prop := m.returns ≠ [] ∨ m.unjoined = true

structure Protocol (m : Machine ι) : Prop where
  once : m.pthreadJoins + m.pthreadDetaches ≤ 1
  finished : ∀ s ∈ m.returns, s ≠ .running
  ended : m.Ended → ∀ later, Runs.Along step (fun m' => m'.self.joinable = false) m later

omit [DecidableEq ι] in
theorem Inv.once {m : Machine ι} (h : m.Inv) : m.pthreadJoins + m.pthreadDetaches ≤ 1 := by
  obtain hfree | ⟨i, hheld⟩ | hgone := h.handle
  · rw [hfree.calls]
    decide
  · rw [hheld.calls]
    split <;> decide
  · exact Nat.le_of_eq hgone.calls

theorem Inv.protocol {m : Machine ι} (h : m.Inv) : m.Protocol := by
  refine ⟨h.once, h.returns, fun hended later => ?_⟩
  have hjoined := Runs.along_of_step step_joined (h.ended hended) later
  refine hjoined.mono fun m' hm' => ?_
  unfold Impl.joinable
  rw [hm', Bool.not_true, Bool.and_false]

/-- **The handle protocol**, along every interleaving of any number of threads in `join` and
`detach` with the spawned thread: the handle is joined or detached at most once, a `join` returns
only when the thread function has returned, and from then on the thread is not joinable. -/
theorem handle_protocol (actions : List (Action ι)) :
    (Impl.new : Impl ι).start true = .ok init.self ∧
      Runs.Along step Protocol (init : Machine ι) actions :=
  ⟨rfl, (Runs.along_of_step step_inv init_inv actions).mono fun _ => Inv.protocol⟩

/-- Two joiners and the spawned thread; the second joiner waits for the first. -/
example : (Runs.run step (init : Machine Bool) [.join true false, .functionReturns, .proxySection,
    .resume true, .join false false, .exits, .callPthreadJoin true, .pthreadJoinReturns true,
    .finishJoin true, .resume false]).map (fun m => (m.returns, m.pthreadJoins)) =
      some ([.exited, .exited], 1) := by decide

end Run

end Machine

end Thread

end Brickred
