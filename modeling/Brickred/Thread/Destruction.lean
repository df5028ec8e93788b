import Brickred.Thread

/-!
# The end of a `Thread` (model of `~Impl` and `threadProxy`)

The spawned thread has a pointer to the `Impl`, which its owner may destroy.  Here every access of
`threadProxy` is a step of its own.

* `Proxy.next` — the accesses, one after the other.
* `Machine` — the spawned thread and the owner, up to the destruction of the members.
* `destruction_safe_iff` — nothing is accessed after `~Impl` exactly if the members are destroyed
  behind the critical section of `threadProxy`.
* `ready_of_joined` — that is so after a `join`.
-/

set_option autoImplicit false

namespace Brickred

namespace Thread

namespace Destruction

/-- What `threadProxy` accesses. -/
inductive Member where
  | threadFunc
  | dataMutex
  | done
  | doneCond
  deriving DecidableEq

/-- Where the spawned thread is. -/
inductive Proxy where
  | created
  /-- in the thread function -/
  | running
  | returned
  | locked
  | doneSet
  | notified
  | unlocked
  | exited
  deriving DecidableEq

namespace Proxy

/-- The next access, if there is one, and where it leads. -/
def next : Proxy → Option (Option Member × Proxy)
  | created => some (some .threadFunc, running)
  | running => some (none, returned)
  | returned => some (some .dataMutex, locked)
  | locked => some (some .done, doneSet)
  | doneSet => some (some .doneCond, notified)
  | notified => some (some .dataMutex, unlocked)
  | unlocked => some (none, exited)
  | exited => none

def holdsMutex : Proxy → Bool
  | locked | doneSet | notified => true
  | _ => false

/-- `done_` has been set. -/
def isDone : Proxy → Bool
  | doneSet | notified | unlocked | exited => true
  | _ => false

/-- There are no more accesses. -/
def isLast : Proxy → Bool
  | unlocked | exited => true
  | _ => false

end Proxy

/-- Where the owner is. -/
inductive Owner where
  | inJoin (phase : Phase)
  /-- in `~Impl`, where `joinable()` has returned true -/
  | detaching
  /-- in `~Impl`, before the members are destroyed -/
  | destroying
  | destroyed
  deriving DecidableEq

/-- `returned`: a `join` has returned.  `stray`: what was accessed after `~Impl`. -/
structure Machine where
  self : Impl Unit
  owner : Owner
  proxy : Proxy
  returned : Bool
  stray : List Member

inductive Action where
  /-- the owner is not the spawned thread -/
  | join
  | resume
  | wake
  | pthreadJoin
  | finishJoin
  | detach
  /-- `~Impl` calls `joinable()` -/
  | testJoinable
  /-- `~Impl` calls `detach()` -/
  | detachLast
  | destroyMembers
  /-- the spawned thread takes its next step -/
  | spawned
  deriving DecidableEq

namespace Machine

/-- After `start`. -/
def init : Machine := ⟨{ (Impl.new : Impl Unit) with started := true }, .inJoin .outside, .created,
  false, []⟩

/-- The owner comes to a point in `join`, or returns from it. -/
def enter (m : Machine) (r : Impl Unit × Phase) : Machine :=
  { m with
    self := r.1
    owner := .inJoin r.2
    returned := m.returned || r.2 = .outside }

/-- A critical section of the owner. -/
def locking (m : Machine) (owner : Owner) (next : Machine) : Option Machine :=
  if m.owner = owner ∧ m.proxy.holdsMutex = false then some next else none

def withCond (m : Machine) (doneCond : CondVar Unit) : Machine :=
  { m with self := { m.self with doneCond } }

def goOn (m : Machine) : Option Machine :=
  match m.owner with
  | .inJoin .waitsDone => some (m.enter (m.self.doneLoop ()))
  | .inJoin .waitsJoined => some (m.enter (m.self.joinedLoop ()))
  | _ => none

/-- What the spawned thread does to the object. -/
def effect (self : Impl Unit) : Option Member → Impl Unit
  | some .done => self.setDone
  | some .doneCond => self.notifyDone
  | _ => self

def step (m : Machine) : Action → Option Machine
  | .join => m.locking (.inJoin .outside) (m.enter (m.self.doneLoop ()))
  | .resume =>
    if m.proxy.holdsMutex = false then
      (m.self.doneCond.resume ()).bind fun doneCond => (m.withCond doneCond).goOn
    else none
  | .wake => (m.self.doneCond.wake ()).map m.withCond
  | .pthreadJoin =>
    if m.owner = .inJoin .joining ∧ m.proxy = .exited then
      some { m with owner := .inJoin .pthreadJoined }
    else none
  | .finishJoin => m.locking (.inJoin .pthreadJoined) (m.enter (m.self.finishJoin, .outside))
  | .detach => m.locking (.inJoin .outside) { m with self := m.self.detach.2 }
  | .testJoinable =>
    m.locking (.inJoin .outside)
      { m with owner := if m.self.joinable then .detaching else .destroying }
  | .detachLast =>
    m.locking .detaching { m with self := m.self.detach.2, owner := .destroying }
  | .destroyMembers => if m.owner = .destroying then some { m with owner := .destroyed } else none
  | .spawned =>
    m.proxy.next.map fun (member, proxy) =>
      { m with
        proxy
        self := effect m.self member
        stray := m.stray ++ if m.owner = .destroyed then member.toList else [] }

/-- The members are destroyed only when `done_` is set and the mutex is free. -/
def Ready (m : Machine) (a : Action) : Prop :=
  a = .destroyMembers ∧ m.owner = .destroying → m.self.done = true ∧ m.proxy.holdsMutex = false

instance (m : Machine) (a : Action) : Decidable (m.Ready a) :=
  inferInstanceAs (Decidable (_ → _))

/-! ## Steps -/

structure Inv (m : Machine) : Prop where
  done : m.self.done = m.proxy.isDone
  clean : m.stray = []
  destroyed : m.owner = .destroyed → m.proxy.isLast = true

/-- Something has been accessed after `~Impl`, or is going to be. -/
def Bad (m : Machine) : Prop :=
  m.stray ≠ [] ∨ (m.owner = .destroyed ∧ m.proxy.isLast = false)

theorem isLast_next {p q : Proxy} {member : Option Member} (h : p.next = some (member, q))
    (hlast : p.isLast = true) : member = none ∧ q.isLast = true := by
  cases p <;> cases h <;> first | exact ⟨rfl, rfl⟩ | cases hlast

/-- A step that accesses nothing does not lead behind the last access. -/
theorem isLast_back {p q : Proxy} (h : p.next = some (none, q)) (hlast : p.isLast = false) :
    q.isLast = false := by
  cases p <;> cases h <;> first | rfl | cases hlast

theorem isDone_next {p q : Proxy} {member : Option Member} (h : p.next = some (member, q))
    (hdone : p.isDone = true) : q.isDone = true := by
  cases p <;> cases h <;> first | rfl | cases hdone

/-- The flag is that of the steps taken. -/
theorem effect_done {p q : Proxy} {member : Option Member} {self : Impl Unit}
    (h : p.next = some (member, q)) (hdone : self.done = p.isDone) :
    (effect self member).done = q.isDone := by
  cases p <;> cases h <;> first | rfl | exact hdone

theorem isLast_iff (p : Proxy) : p.isLast = true ↔ p.isDone = true ∧ p.holdsMutex = false := by
  cases p <;> decide

variable {m m' : Machine} {a : Action}

/-- **What the owner does** leaves the spawned thread and its flag alone.  `~Impl` comes to its end
with the members only, and there is nothing behind it. -/
structure Moves (m : Machine) (a : Action) (m' : Machine) : Prop where
  proxy : m'.proxy = m.proxy
  stray : m'.stray = m.stray
  done : m'.self.done = m.self.done
  stays : m.owner = .destroyed → m'.owner = .destroyed
  comes : m'.owner = .destroyed → m.owner = .destroyed ∨ a = .destroyMembers ∧ m.owner = .destroying

theorem Moves.of_self {self : Impl Unit} (h : self.done = m.self.done) :
    Moves m a { m with self } := ⟨rfl, rfl, h, id, Or.inl⟩

/-- A step before the end. -/
theorem Moves.of_owner {self : Impl Unit} {owner owner' : Owner} {returned : Bool}
    (howner : m.owner = owner) (h : self.done = m.self.done) (hne : owner ≠ .destroyed)
    (hne' : owner' ≠ .destroyed) : Moves m a { m with self, owner := owner', returned } := by
  refine ⟨rfl, rfl, h, fun hend => absurd (howner.symm.trans hend) hne, fun hend => ?_⟩
  exact absurd hend hne'

theorem locking_cases {owner : Owner} {next : Machine} (h : m.locking owner next = some m') :
    m.owner = owner ∧ m.proxy.holdsMutex = false ∧ m' = next := by
  obtain ⟨⟨howner, hmutex⟩, hnext⟩ := Option.ite_none_right_eq_some.1 h
  exact ⟨howner, hmutex, (Option.some.inj hnext).symm⟩

theorem goOn_cases (h : m.goOn = some m') :
    (m.owner = .inJoin .waitsDone ∧ m' = m.enter (m.self.doneLoop ())) ∨
      (m.owner = .inJoin .waitsJoined ∧ m' = m.enter (m.self.joinedLoop ())) := by
  unfold goOn at h
  split at h
  · rename_i howner
    exact Or.inl ⟨howner, (Option.some.inj h).symm⟩
  · rename_i howner
    exact Or.inr ⟨howner, (Option.some.inj h).symm⟩
  · cases h

theorem step_moves (ha : a ≠ .spawned) (hs : m.step a = some m') : Moves m a m' := by
  cases a with
  | join =>
    obtain ⟨howner, _, rfl⟩ := locking_cases hs
    exact .of_owner howner (m.self.doneLoop_done ()) Owner.noConfusion Owner.noConfusion
  | resume =>
    obtain ⟨_, hresume⟩ := Option.ite_none_right_eq_some.1 hs
    obtain ⟨doneCond, _, hgo⟩ := Option.bind_eq_some_iff.1 hresume
    obtain ⟨howner, rfl⟩ | ⟨howner, rfl⟩ := goOn_cases hgo
    · exact .of_owner howner ((m.withCond doneCond).self.doneLoop_done ()) Owner.noConfusion
        Owner.noConfusion
    · exact .of_owner howner ((m.withCond doneCond).self.joinedLoop_done ()) Owner.noConfusion
        Owner.noConfusion
  | wake =>
    obtain ⟨doneCond, _, rfl⟩ := Option.map_eq_some_iff.1 hs
    exact .of_self rfl
  | pthreadJoin =>
    obtain ⟨⟨howner, _⟩, hm⟩ := Option.ite_none_right_eq_some.1 hs
    cases hm
    exact .of_owner howner rfl Owner.noConfusion Owner.noConfusion
  | finishJoin =>
    obtain ⟨howner, _, rfl⟩ := locking_cases hs
    exact .of_owner howner rfl Owner.noConfusion Owner.noConfusion
  | detach =>
    obtain ⟨_, _, rfl⟩ := locking_cases hs
    exact .of_self m.self.detach_done
  | testJoinable =>
    obtain ⟨howner, _, rfl⟩ := locking_cases hs
    refine .of_owner howner rfl Owner.noConfusion ?_
    split <;> exact Owner.noConfusion
  | detachLast =>
    obtain ⟨howner, _, rfl⟩ := locking_cases hs
    exact .of_owner howner m.self.detach_done Owner.noConfusion Owner.noConfusion
  | destroyMembers =>
    obtain ⟨howner, hm⟩ := Option.ite_none_right_eq_some.1 hs
    cases hm
    exact ⟨rfl, rfl, rfl, fun _ => rfl, fun _ => Or.inr ⟨rfl, howner⟩⟩
  | spawned => exact absurd rfl ha

theorem step_inv (m : Machine) (a : Action) (m' : Machine) (h : m.Inv) (hready : m.Ready a)
    (hs : m.step a = some m') : m'.Inv := by
  by_cases ha : a = .spawned
  · subst ha
    obtain ⟨⟨member, proxy⟩, hnext, rfl⟩ := Option.map_eq_some_iff.1 hs
    refine ⟨effect_done hnext h.done, ?_, fun hend => (isLast_next hnext (h.destroyed hend)).2⟩
    change (m.stray ++ if m.owner = .destroyed then member.toList else []) = []
    rw [h.clean]
    split
    · rename_i hend
      rw [(isLast_next hnext (h.destroyed hend)).1]
      rfl
    · rfl
  · obtain ⟨hproxy, hstray, hdone, _, hcomes⟩ := step_moves ha hs
    refine ⟨?_, hstray.trans h.clean, fun hend => ?_⟩
    · rw [hdone, hproxy]
      exact h.done
    · rw [hproxy]
      obtain hend | hlast := hcomes hend
      · exact h.destroyed hend
      · obtain ⟨hdone', hmutex⟩ := hready hlast
        rw [h.done] at hdone'
        exact (isLast_iff m.proxy).2 ⟨hdone', hmutex⟩

theorem step_bad (m : Machine) (a : Action) (m' : Machine) (h : m.Inv) (hready : ¬ m.Ready a)
    (hs : m.step a = some m') : m'.Bad := by
  obtain ⟨⟨rfl, howner⟩, hearly⟩ := Classical.not_imp.1 hready
  obtain ⟨_, hm⟩ := Option.ite_none_right_eq_some.1 hs
  cases hm
  refine Or.inr ⟨rfl, Bool.eq_false_iff.2 fun hlast => hearly ?_⟩
  obtain ⟨hdone, hmutex⟩ := (isLast_iff m.proxy).1 hlast
  exact ⟨h.done.trans hdone, hmutex⟩

theorem step_keeps (m : Machine) (a : Action) (m' : Machine) (h : m.Bad)
    (hs : m.step a = some m') : m'.Bad := by
  by_cases ha : a = .spawned
  · subst ha
    obtain ⟨⟨member, proxy⟩, hnext, rfl⟩ := Option.map_eq_some_iff.1 hs
    obtain hstray | ⟨hend, hlast⟩ := h
    · exact Or.inl fun hnil => hstray (List.append_eq_nil_iff.1 hnil).1
    · cases member with
      | none => exact Or.inr ⟨hend, isLast_back hnext hlast⟩
      | some member =>
        refine Or.inl fun hnil => ?_
        have hlater := (List.append_eq_nil_iff.1 hnil).2
        rw [if_pos hend] at hlater
        cases hlater
  · obtain ⟨hproxy, hstray, _, hstays, _⟩ := step_moves ha hs
    obtain hne | ⟨hend, hlast⟩ := h
    · exact Or.inl (by rw [hstray]; exact hne)
    · exact Or.inr ⟨hstays hend, by rw [hproxy]; exact hlast⟩

theorem not_bad_of_inv (m : Machine) (h : m.Inv) : ¬ m.Bad := by
  rintro (hstray | ⟨hend, hlast⟩)
  · exact hstray h.clean
  · rw [h.destroyed hend] at hlast
    cases hlast

theorem init_inv : init.Inv := ⟨rfl, rfl, fun hend => by cases hend⟩

/-! ## Runs -/

theorem strays_next {member : Member} {proxy : Proxy} (hend : m.owner = .destroyed)
    (hnext : m.proxy.next = some (some member, proxy)) :
    ∃ m', m.step .spawned = some m' ∧ m'.stray ≠ [] := by
  refine ⟨_, congrArg (Option.map _) hnext, fun hnil => ?_⟩
  have hlater := (List.append_eq_nil_iff.1 hnil).2
  rw [if_pos hend] at hlater
  cases hlater

/-- The spawned thread alone: at most two steps on, it has accessed something. -/
theorem bad_strays (h : m.Bad) : ∃ n m', Runs.run step m (List.replicate n .spawned) = some m' ∧
    m'.stray ≠ [] := by
  obtain hstray | ⟨hend, hlast⟩ := h
  · exact ⟨0, m, rfl, hstray⟩
  have hone : (∃ member proxy, m.proxy.next = some (some member, proxy)) →
      ∃ n m', Runs.run step m (List.replicate n .spawned) = some m' ∧ m'.stray ≠ [] := by
    rintro ⟨member, proxy, hnext⟩
    obtain ⟨m', hs, hstray⟩ := strays_next hend hnext
    exact ⟨1, m', Runs.run_cons [] hs, hstray⟩
  cases hproxy : m.proxy with
  | running =>
    -- the thread function returns first
    have hnext : m.proxy.next = some (none, .returned) := by rw [hproxy]; rfl
    obtain ⟨m', hs, hstray⟩ := @strays_next
      { m with proxy := .returned, stray := m.stray ++ if m.owner = .destroyed then [] else [] }
      .dataMutex .locked hend rfl
    refine ⟨2, m', ?_, hstray⟩
    rw [List.replicate_succ, Runs.run_cons _ (congrArg (Option.map _) hnext)]
    exact Runs.run_cons [] hs
  | created => exact hone ⟨_, _, by rw [hproxy]; rfl⟩
  | returned => exact hone ⟨_, _, by rw [hproxy]; rfl⟩
  | locked => exact hone ⟨_, _, by rw [hproxy]; rfl⟩
  | doneSet => exact hone ⟨_, _, by rw [hproxy]; rfl⟩
  | notified => exact hone ⟨_, _, by rw [hproxy]; rfl⟩
  | unlocked | exited =>
    rw [hproxy] at hlast
    cases hlast

theorem ready_spawned : ∀ (n : Nat) (m : Machine),
    Runs.EachStep step Ready m (List.replicate n .spawned)
  | 0, _ => trivial
  | n + 1, _ => ⟨fun h => (by cases h.1), fun m' _ => ready_spawned n m'⟩

/-- **Nothing is accessed after `~Impl`**, however the spawned thread goes on, exactly if the
members have been destroyed behind its critical section. -/
theorem destruction_safe_iff {actions : List Action} (hr : Runs.run step init actions = some m) :
    (∀ n m', Runs.run step m (List.replicate n .spawned) = some m' → m'.stray = []) ↔
      Runs.EachStep step Ready init actions := by
  obtain ⟨hiff, hinv⟩ :=
    Runs.run_iff_eachStep step_inv step_bad step_keeps not_bad_of_inv init_inv hr
  constructor
  · intro h
    refine hiff.1 fun hbad => ?_
    obtain ⟨n, m', hrun, hstray⟩ := bad_strays hbad
    exact hstray (h n m' hrun)
  · intro h n m' hrun
    exact ((Runs.along_of_eachStep step_inv (hinv h) (ready_spawned n m)).last hrun).clean

/-- The owner joins the thread and destroys it. -/
def joinedFirst : List Action :=
  [.spawned, .join, .spawned, .spawned, .spawned, .spawned, .spawned, .resume, .spawned,
    .pthreadJoin, .finishJoin, .testJoinable, .destroyMembers]

theorem destruction_safe_joined : ∃ m, Runs.run step init joinedFirst = some m ∧
    ((∀ n m', Runs.run step m (List.replicate n .spawned) = some m' → m'.stray = []) ↔
      Runs.EachStep step Ready init joinedFirst) :=
  ⟨_, rfl, @destruction_safe_iff _ joinedFirst rfl⟩

/-- The owner destroys a thread that is running, which locks the mutex afterwards. -/
theorem destruction_unsafe : ∃ m, Runs.run step init [.spawned, .testJoinable, .detachLast,
    .destroyMembers, .spawned, .spawned] = some m ∧ m.owner = .destroyed ∧
      m.stray = [.dataMutex] :=
  ⟨_, rfl, rfl, rfl⟩

/-! ## After a `join` -/

/-- What a `join` that has returned says of the spawned thread. -/
structure Joined (m : Machine) : Prop where
  done : m.self.done = m.proxy.isDone
  returned : m.returned = true → m.proxy.isLast = true
  pthreadJoined : m.owner = .inJoin .pthreadJoined → m.proxy.isLast = true
  waitsJoined : m.owner = .inJoin .waitsJoined → m.self.done = true
  ending : m.owner = .detaching ∨ m.owner = .destroying ∨ m.owner = .destroyed →
    m.returned = true

/-- The owner is alone with the lock, and past the first loop only if `done_` is set. -/
theorem enter_joined {r : Impl Unit × Phase} (h : m.Joined) (hmutex : m.proxy.holdsMutex = false)
    (hdone : r.1.done = m.self.done) (hphase : r.2 ≠ .pthreadJoined)
    (hpast : r.2 ≠ .waitsDone → m.self.done = true) : (m.enter r).Joined := by
  have hlast : m.self.done = true → m.proxy.isLast = true := fun hset =>
    (isLast_iff m.proxy).2 ⟨h.done.symm.trans hset, hmutex⟩
  refine ⟨hdone.trans h.done, fun hret => ?_, fun howner => ?_, fun howner => ?_, fun hend => ?_⟩
  · obtain hret | hout := Bool.or_eq_true_iff.1 hret
    · exact h.returned hret
    · refine hlast (hpast ?_)
      rw [of_decide_eq_true hout]
      decide
  · injection howner with howner
    exact absurd howner hphase
  · injection howner with howner
    refine hdone.trans (hpast ?_)
    rw [howner]
    decide
  · obtain hend | hend | hend := hend <;> cases hend

theorem doneLoop_joined (h : m.Joined) (hmutex : m.proxy.holdsMutex = false) :
    (m.enter (m.self.doneLoop ())).Joined := by
  refine enter_joined h hmutex (m.self.doneLoop_done ()) (fun hphase => ?_)
    fun hphase => (m.self.doneLoop_phase () hphase).1
  refine (m.self.doneLoop_phase () ?_).2 hphase
  rw [hphase]
  decide

/-- Nothing changes but the owner, who does not come to one of these points. -/
theorem Joined.move {self : Impl Unit} {owner : Owner} (h : m.Joined)
    (hdone : self.done = m.self.done) (hpthread : owner ≠ .inJoin .pthreadJoined)
    (hwaits : owner = .inJoin .waitsJoined → m.self.done = true)
    (hending : owner = .detaching ∨ owner = .destroying ∨ owner = .destroyed →
      m.returned = true) : Joined { m with self, owner } :=
  ⟨hdone.trans h.done, h.returned, fun howner => absurd howner hpthread,
    fun howner => hdone.trans (hwaits howner), hending⟩

theorem withCond_joined (h : m.Joined) (doneCond : CondVar Unit) : (m.withCond doneCond).Joined :=
  ⟨h.done, h.returned, h.pthreadJoined, h.waitsJoined, h.ending⟩

theorem step_joined (m : Machine) (a : Action) (m' : Machine) (h : m.Joined)
    (hjoined : a = .testJoinable → m.returned = true) (hs : m.step a = some m') : m'.Joined := by
  cases a with
  | join =>
    obtain ⟨_, hmutex, rfl⟩ := locking_cases hs
    exact doneLoop_joined h hmutex
  | resume =>
    obtain ⟨hmutex, hresume⟩ := Option.ite_none_right_eq_some.1 hs
    obtain ⟨doneCond, _, hgo⟩ := Option.bind_eq_some_iff.1 hresume
    have hcond := withCond_joined h doneCond
    obtain ⟨_, rfl⟩ | ⟨howner, rfl⟩ := goOn_cases hgo
    · exact doneLoop_joined hcond hmutex
    · exact enter_joined hcond hmutex (Impl.joinedLoop_done _ ()) (Impl.joinedLoop_phase _ ())
        fun _ => hcond.waitsJoined howner
  | wake =>
    obtain ⟨doneCond, _, rfl⟩ := Option.map_eq_some_iff.1 hs
    exact withCond_joined h doneCond
  | pthreadJoin =>
    obtain ⟨⟨_, hexited⟩, hm⟩ := Option.ite_none_right_eq_some.1 hs
    cases hm
    refine ⟨h.done, h.returned, fun _ => ?_, fun howner => ?_, fun hend => ?_⟩
    · change m.proxy.isLast = true
      rw [hexited]
      rfl
    · cases howner
    · obtain hend | hend | hend := hend <;> cases hend
  | finishJoin =>
    obtain ⟨howner, hmutex, rfl⟩ := locking_cases hs
    have hset := ((isLast_iff m.proxy).1 (h.pthreadJoined howner)).1
    exact enter_joined h hmutex rfl Phase.noConfusion fun _ => h.done.trans hset
  | detach =>
    obtain ⟨howner, _, rfl⟩ := locking_cases hs
    refine h.move m.self.detach_done ?_ (fun hwaits => ?_) h.ending
    · rw [howner]
      decide
    · exact h.waitsJoined hwaits
  | testJoinable =>
    obtain ⟨_, _, rfl⟩ := locking_cases hs
    refine h.move rfl ?_ (fun hwaits => ?_) fun _ => hjoined rfl
    · split <;> exact Owner.noConfusion
    · split at hwaits <;> cases hwaits
  | detachLast =>
    obtain ⟨howner, _, rfl⟩ := locking_cases hs
    exact h.move m.self.detach_done Owner.noConfusion (fun hwaits => by cases hwaits)
      fun _ => h.ending (Or.inl howner)
  | destroyMembers =>
    obtain ⟨howner, hm⟩ := Option.ite_none_right_eq_some.1 hs
    cases hm
    exact h.move rfl Owner.noConfusion (fun hwaits => by cases hwaits)
      fun _ => h.ending (Or.inr (Or.inl howner))
  | spawned =>
    obtain ⟨⟨member, proxy⟩, hnext, rfl⟩ := Option.map_eq_some_iff.1 hs
    refine ⟨effect_done hnext h.done, fun hret => (isLast_next hnext (h.returned hret)).2,
      fun howner => (isLast_next hnext (h.pthreadJoined howner)).2, fun howner => ?_, h.ending⟩
    refine (effect_done hnext h.done).trans (isDone_next hnext ?_)
    exact h.done.symm.trans (h.waitsJoined howner)

/-- **A `join` before the destruction** is enough. -/
theorem ready_of_joined {actions : List Action}
    (hjoined : Runs.EachStep step (fun m a => a = .testJoinable → m.returned = true) init actions) :
    Runs.EachStep step Ready init actions := by
  have hinit : init.Joined := by
    refine ⟨rfl, fun hret => ?_, fun howner => ?_, fun howner => ?_, fun hend => ?_⟩
    · cases hret
    · cases howner
    · cases howner
    · obtain hend | hend | hend := hend <;> cases hend
  refine (Runs.along_of_eachStep step_joined hinit hjoined).eachStep.mono fun m a h => ?_
  rintro ⟨_, howner⟩
  have hlast := h.1.returned (h.1.ending (Or.inr (Or.inl howner)))
  obtain ⟨hset, hmutex⟩ := (isLast_iff m.proxy).1 hlast
  exact ⟨h.1.done.trans hset, hmutex⟩

end Machine

end Destruction

end Thread

end Brickred
