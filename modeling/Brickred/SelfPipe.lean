import Mathlib.Data.List.Count
import Mathlib.Data.List.Nodup
import Mathlib.Logic.Function.Basic
import Brickred.Lib.Runs

/-!
# The descriptors of a `SelfPipe` (model of `self_pipe.cc`)

The kernel hands out any numbers that are free, to the `SelfPipe` and to others; others act between
the calls of the `SelfPipe`, and between the system calls that it makes in one of them.

* `Machine.close`, `Machine.open`.
* `Holding`, `Empty` — the two descriptors got last are there, or none is.
* `closesOnce_iff` — the descriptors are closed once each, and nothing else is, exactly if `close`
  is never called on a pipe that has been closed.
-/

set_option autoImplicit false

namespace Brickred

namespace SelfPipe

/-! ## The kernel -/

/-- Who has a descriptor. -/
inductive Owner where
  /-- the `SelfPipe`; they are counted in the order they were got -/
  | pipe (k : Nat)
  | other
  deriving DecidableEq

/-- The numbers that are open. -/
abbrev Table := Int → Option Owner

/-- What others do. -/
inductive Other where
  | opens (n : Int)
  | closes (n : Int)

def Other.step (table : Table) : Other → Option Table
  | opens n =>
    if 0 ≤ n ∧ table n = none then some (Function.update table n (some .other)) else none
  | closes n => if table n = some .other then some (Function.update table n none) else none

/-! ## The object -/

/-- `fd_` and `fd1_`, and what has become of the descriptors: how many were got from `::pipe`, and
who had the number that `::close` was called with, call by call. -/
structure Machine where
  alive : Bool
  fd : Int
  fd1 : Int
  table : Table
  obtained : Nat
  closed : List (Option Owner)

namespace Machine

/-- Numbers may be taken when the object is made. -/
def new (taken : Int → Bool) : Machine :=
  ⟨true, -1, -1, fun n => if taken n then some .other else none, 0, []⟩

/-- `::close` -/
def sysClose (m : Machine) (n : Int) : Machine :=
  { m with table := Function.update m.table n none, closed := m.closed ++ [m.table n] }

/-- `::pipe` -/
def sysPipe (m : Machine) (fd fd1 : Int) : Option Machine :=
  if 0 ≤ fd ∧ 0 ≤ fd1 ∧ fd ≠ fd1 ∧ m.table fd = none ∧ m.table fd1 = none then
    some { m with
      table := Function.update (Function.update m.table fd (some (.pipe m.obtained)))
        fd1 (some (.pipe (m.obtained + 1)))
      obtained := m.obtained + 2 }
  else none

def others (m : Machine) (acts : List Other) : Option Machine :=
  (Runs.run Other.step m.table acts).map fun table => { m with table }

def closeFirst (m : Machine) : Machine :=
  if m.fd ≠ -1 then { m.sysClose m.fd with fd := -1 } else m

/-- Here it is `fd_` again that is reset. -/
def closeSecond (m : Machine) : Machine :=
  if m.fd1 ≠ -1 then { m.sysClose m.fd1 with fd := -1 } else m

/-- `between`: what others do between the two. -/
def close (m : Machine) (between : List Other) : Option Machine :=
  (m.closeFirst.others between).map closeSecond

end Machine

/-- `pipefd`: what `::pipe` makes, if it succeeds. -/
def Machine.open (m : Machine) (between before : List Other) (pipefd : Option (Int × Int)) :
    Option (Bool × Machine) :=
  ((if m.fd ≠ -1 then m.close between else some m).bind fun m => m.others before).bind fun m =>
    match pipefd with
    | none => some (false, m)
    | some (fd, fd1) => (m.sysPipe fd fd1).map fun m => (true, { m with fd, fd1 })

inductive Call where
  | callOpen (between before : List Other) (pipefd : Option (Int × Int))
  | callClose (between : List Other)
  | destroy (between : List Other)
  | others (acts : List Other)

namespace Machine

def step (m : Machine) : Call → Option Machine
  | .callOpen between before pipefd =>
    if m.alive then (m.open between before pipefd).map Prod.snd else none
  | .callClose between => if m.alive then m.close between else none
  | .destroy between =>
    if m.alive then (m.close between).map fun m => { m with alive := false } else none
  | .others acts => m.others acts

/-- Each descriptor has been closed once, and no other number has been closed. -/
structure ClosesOnce (m : Machine) : Prop where
  owned : ∀ o ∈ m.closed, ∃ k, o = some (.pipe k)
  once : ∀ k < m.obtained, m.closed.count (some (.pipe k)) = 1

/-- `close` does not find the number of a descriptor that it has closed before. -/
def Fresh (m : Machine) : Call → Prop
  | .callClose _ | .destroy _ => m.fd ≠ -1 ∨ m.fd1 = -1
  | _ => True

instance (m : Machine) : ∀ c : Call, Decidable (m.Fresh c)
  | .callClose _ => inferInstanceAs (Decidable (m.fd ≠ -1 ∨ m.fd1 = -1))
  | .destroy _ => inferInstanceAs (Decidable (m.fd ≠ -1 ∨ m.fd1 = -1))
  | .callOpen _ _ _ => inferInstanceAs (Decidable True)
  | .others _ => inferInstanceAs (Decidable True)

/-! ## What it has between calls -/

/-- Only these numbers are the object's. -/
def OwnsOnly (m : Machine) (ns : List Int) : Prop :=
  ∀ n k, m.table n = some (.pipe k) → n ∈ ns

/-- The first `n` descriptors are closed, in the order they were got. -/
def ClosedUpTo (m : Machine) (n : Nat) : Prop :=
  m.closed = (List.range n).map fun k => some (.pipe k)

/-- It has the two descriptors it has got last. -/
structure Holding (m : Machine) : Prop where
  open_fd : m.fd ≠ -1
  open_fd1 : m.fd1 ≠ -1
  owner : ∃ k, m.obtained = k + 2 ∧ m.table m.fd = some (.pipe k) ∧
    m.table m.fd1 = some (.pipe (k + 1)) ∧ m.ClosedUpTo k
  only : m.OwnsOnly [m.fd, m.fd1]

/-- It has none. -/
structure Empty (m : Machine) : Prop where
  no_fd : m.fd = -1
  only : m.OwnsOnly []
  closed : m.ClosedUpTo m.obtained

def Inv (m : Machine) : Prop := m.Empty ∨ (m.alive = true ∧ m.Holding)

/-- A number was closed that was not the object's. -/
def Bad (m : Machine) : Prop := ∃ o ∈ m.closed, ∀ k, o ≠ some (.pipe k)

theorem closesOnce_of_empty {m : Machine} (h : m.Empty) : m.ClosesOnce := by
  have hclosed := h.closed
  unfold ClosedUpTo at hclosed
  refine ⟨fun o ho => ?_, fun k hk => ?_⟩
  · rw [hclosed, List.mem_map] at ho
    obtain ⟨k, _, rfl⟩ := ho
    exact ⟨k, rfl⟩
  · have hinj : Function.Injective fun k => some (Owner.pipe k) := by
      intro j k hjk
      cases hjk
      rfl
    rw [hclosed, List.count_map_of_injective _ _ hinj]
    exact List.count_eq_one_of_mem List.nodup_range (List.mem_range.2 hk)

theorem not_closesOnce_of_bad {m : Machine} (h : m.Bad) : ¬ m.ClosesOnce := by
  obtain ⟨o, ho, hother⟩ := h
  rintro ⟨howned, _⟩
  obtain ⟨k, hk⟩ := howned o ho
  exact hother k hk

/-! ## What others do -/

/-- Others have no hold of the numbers of the object. -/
theorem other_step {table table' : Table} {a : Other} (hs : Other.step table a = some table')
    (n : Int) (k : Nat) : table' n = some (.pipe k) ↔ table n = some (.pipe k) := by
  cases a with
  | opens j =>
    simp only [Other.step] at hs
    split at hs
    · rename_i hfree
      cases hs
      by_cases hn : n = j
      · rw [hn, Function.update_self, hfree.2]
        exact iff_of_false (fun h => by cases h) fun h => by cases h
      · rw [Function.update_of_ne hn]
    · cases hs
  | closes j =>
    simp only [Other.step] at hs
    split at hs
    · rename_i hother
      cases hs
      by_cases hn : n = j
      · rw [hn, Function.update_self, hother]
        exact iff_of_false (fun h => by cases h) fun h => by cases h
      · rw [Function.update_of_ne hn]
    · cases hs

theorem others_spec {m m' : Machine} {acts : List Other} (h : m.others acts = some m') :
    ∃ table, m' = { m with table } ∧
      ∀ n k, table n = some (.pipe k) ↔ m.table n = some (.pipe k) := by
  obtain ⟨table, hrun, rfl⟩ := Option.map_eq_some_iff.1 h
  refine ⟨table, rfl, fun n k => ?_⟩
  have hkeep : ∀ t a t', (t n = some (.pipe k) ↔ m.table n = some (.pipe k)) →
      Other.step t a = some t' → (t' n = some (.pipe k) ↔ m.table n = some (.pipe k)) :=
    fun t a t' ht hs => (other_step hs n k).trans ht
  exact (Runs.along_of_step hkeep Iff.rfl acts).last hrun

theorem Empty.others {m m' : Machine} {acts : List Other} (h : m.Empty)
    (hothers : m.others acts = some m') : m'.Empty := by
  obtain ⟨table, rfl, htable⟩ := others_spec hothers
  exact ⟨h.no_fd, fun n k hn => h.only n k ((htable n k).1 hn), h.closed⟩

theorem Holding.others {m m' : Machine} {acts : List Other} (h : m.Holding)
    (hothers : m.others acts = some m') : m'.Holding := by
  obtain ⟨table, rfl, htable⟩ := others_spec hothers
  obtain ⟨k, hobtained, hfd, hfd1, hclosed⟩ := h.owner
  exact ⟨h.open_fd, h.open_fd1, ⟨k, hobtained, (htable _ _).2 hfd, (htable _ _).2 hfd1, hclosed⟩,
    fun n j hn => h.only n j ((htable n j).1 hn)⟩

/-! ## Calls -/

section Calls

variable {m m' : Machine} {between before : List Other}

/-- One of the two descriptors is closed. -/
theorem sysClose_closed {k : Nat} (n : Int) (hn : m.table n = some (.pipe k))
    (h : m.ClosedUpTo k) : (m.sysClose n).ClosedUpTo (k + 1) := by
  unfold ClosedUpTo at h ⊢
  rw [List.range_succ, List.map_append, ← h]
  exact congrArg (m.closed ++ [·]) hn

theorem sysClose_only {n : Int} {ns : List Int} (h : m.OwnsOnly (n :: ns)) :
    (m.sysClose n).OwnsOnly ns := by
  intro j k hj
  have hj' : Function.update m.table n none j = some (.pipe k) := hj
  have hne : j ≠ n := by
    rintro rfl
    rw [Function.update_self] at hj'
    cases hj'
  rw [Function.update_of_ne hne] at hj'
  exact (List.mem_cons.1 (h j k hj')).resolve_left hne

/-- **`close` closes both**, whatever others do in between. -/
theorem close_holding (h : m.Holding) (hclose : m.close between = some m') : m'.Empty := by
  obtain ⟨hopen, hopen1, ⟨k, hobtained, hfd, hfd1, hclosed⟩, honly⟩ := h
  obtain ⟨m₁, hothers, rfl⟩ := Option.map_eq_some_iff.1 hclose
  rw [closeFirst, if_pos hopen] at hothers
  obtain ⟨table, hm₁, htable⟩ := others_spec hothers
  have hne : m.fd1 ≠ m.fd := by
    intro heq
    rw [heq, hfd] at hfd1
    injection hfd1 with hfd1
    injection hfd1 with hk
    omega
  have hfd₁ : m₁.fd1 = m.fd1 := by rw [hm₁]; rfl
  have hsecond : m₁.table m₁.fd1 = some (.pipe (k + 1)) := by
    rw [hfd₁, hm₁]
    exact (htable _ _).2 ((Function.update_of_ne hne _ _).trans hfd1)
  have honly₁ : m₁.OwnsOnly [m₁.fd1] := by
    rw [hfd₁, hm₁]
    exact fun n j hn => sysClose_only honly n j ((htable n j).1 hn)
  have hclosed₁ : m₁.ClosedUpTo (k + 1) := by
    rw [hm₁]
    exact sysClose_closed m.fd hfd hclosed
  have hobtained₁ : m₁.obtained = k + 1 + 1 := by
    rw [hm₁]
    exact hobtained
  rw [closeSecond, if_pos (by rw [hfd₁]; exact hopen1)]
  refine ⟨rfl, sysClose_only honly₁, ?_⟩
  change ClosedUpTo _ m₁.obtained
  rw [hobtained₁]
  exact sysClose_closed m₁.fd1 hsecond hclosed₁

theorem closeFirst_alive (m : Machine) : m.closeFirst.alive = m.alive := by
  unfold closeFirst
  split <;> rfl

theorem closeSecond_alive (m : Machine) : m.closeSecond.alive = m.alive := by
  unfold closeSecond
  split <;> rfl

theorem others_alive {acts : List Other} (h : m.others acts = some m') : m'.alive = m.alive := by
  obtain ⟨table, rfl, _⟩ := others_spec h
  rfl

theorem close_alive (hclose : m.close between = some m') : m'.alive = m.alive := by
  obtain ⟨m₁, hothers, rfl⟩ := Option.map_eq_some_iff.1 hclose
  rw [closeSecond_alive, others_alive hothers, closeFirst_alive]

/-- `close` of an object that has nothing finds what `fd1_` says. -/
theorem close_empty (h : m.Empty) (hclose : m.close between = some m') :
    ∃ m₁ : Machine, m' = m₁.closeSecond ∧ m₁.Empty ∧ m₁.fd1 = m.fd1 := by
  obtain ⟨m₁, hothers, rfl⟩ := Option.map_eq_some_iff.1 hclose
  rw [closeFirst, if_neg (not_not_intro h.no_fd)] at hothers
  refine ⟨m₁, rfl, h.others hothers, ?_⟩
  obtain ⟨table, rfl, _⟩ := others_spec hothers
  rfl

theorem close_unopened (h : m.Empty) (hfd1 : m.fd1 = -1) (hclose : m.close between = some m') :
    m'.Empty := by
  obtain ⟨m₁, rfl, hempty, hfd1'⟩ := close_empty h hclose
  rw [closeSecond, if_neg (not_not_intro (hfd1'.trans hfd1))]
  exact hempty

/-- **`close` of a closed pipe** closes a number that is not the object's. -/
theorem close_again (h : m.Empty) (hfd1 : m.fd1 ≠ -1) (hclose : m.close between = some m') :
    m'.Bad := by
  obtain ⟨m₁, rfl, hempty, hfd1'⟩ := close_empty h hclose
  rw [closeSecond, if_pos (by rw [hfd1']; exact hfd1)]
  refine ⟨m₁.table m₁.fd1, List.mem_append_right _ (List.mem_singleton_self _), fun k hk => ?_⟩
  exact List.not_mem_nil (hempty.only m₁.fd1 k hk)

theorem close_inv (h : m.Inv) (hfresh : m.fd ≠ -1 ∨ m.fd1 = -1)
    (hclose : m.close between = some m') : m'.Empty := by
  obtain hempty | ⟨_, hholding⟩ := h
  · exact close_unopened hempty (hfresh.resolve_left (not_not_intro hempty.no_fd)) hclose
  · exact close_holding hholding hclose

/-- `::pipe` on an object that has nothing. -/
theorem sysPipe_holding {fd fd1 : Int} (h : m.Empty) (hpipe : m.sysPipe fd fd1 = some m') :
    Holding { m' with fd, fd1 } := by
  unfold sysPipe at hpipe
  split at hpipe
  · rename_i hfree
    obtain ⟨hfd, hfd1, hne, _, _⟩ := hfree
    have hopen : fd ≠ -1 ∧ fd1 ≠ -1 := by omega
    cases hpipe
    refine ⟨hopen.1, hopen.2, ⟨m.obtained, rfl, ?_, Function.update_self _ _ _, h.closed⟩, ?_⟩
    · exact (Function.update_of_ne hne _ _).trans (Function.update_self _ _ _)
    · intro n k hn
      by_cases hn1 : n = fd1
      · simp [hn1]
      · by_cases hn0 : n = fd
        · simp [hn0]
        · change Function.update (Function.update m.table fd _) fd1 _ n = _ at hn
          rw [Function.update_of_ne hn1, Function.update_of_ne hn0] at hn
          exact absurd (h.only n k hn) List.not_mem_nil
  · cases hpipe

theorem sysPipe_alive {fd fd1 : Int} (h : m.sysPipe fd fd1 = some m') : m'.alive = m.alive := by
  unfold sysPipe at h
  split at h
  · cases h
    rfl
  · cases h

/-- `open` closes what is open, and never comes to a closed pipe. -/
theorem open_inv {pipefd : Option (Int × Int)} {ret : Bool} (h : m.Inv) (halive : m.alive = true)
    (hopen : m.open between before pipefd = some (ret, m')) : m'.Inv := by
  obtain ⟨m₂, hbefore, hpipe⟩ := Option.bind_eq_some_iff.1 hopen
  obtain ⟨m₁, hclose, hothers⟩ := Option.bind_eq_some_iff.1 hbefore
  have hempty : m₁.Empty ∧ m₁.alive = true := by
    split at hclose
    · rename_i hfd
      refine ⟨?_, (close_alive hclose).trans halive⟩
      obtain hempty | ⟨_, hholding⟩ := h
      · exact absurd hempty.no_fd hfd
      · exact close_holding hholding hclose
    · rename_i hfd
      cases hclose
      refine ⟨?_, halive⟩
      obtain hempty | ⟨_, hholding⟩ := h
      · exact hempty
      · exact absurd hholding.open_fd hfd
  have hempty₂ := hempty.1.others hothers
  cases pipefd with
  | none =>
    cases hpipe
    exact Or.inl hempty₂
  | some fds =>
    obtain ⟨m₃, hsys, hm'⟩ := Option.map_eq_some_iff.1 hpipe
    cases hm'
    refine Or.inr ⟨?_, sysPipe_holding hempty₂ hsys⟩
    exact (sysPipe_alive hsys).trans ((others_alive hothers).trans hempty.2)

/-- **What a step does.** -/
theorem step_cases {c : Call} (hs : m.step c = some m') :
    (∃ between before pipefd ret, c = .callOpen between before pipefd ∧ m.alive = true ∧
      m.open between before pipefd = some (ret, m')) ∨
    (∃ between, c = .callClose between ∧ m.close between = some m') ∨
    (∃ between m₁, c = .destroy between ∧ m.close between = some m₁ ∧
      m' = { m₁ with alive := false }) ∨
    ∃ acts, c = .others acts ∧ m.others acts = some m' := by
  cases c with
  | callOpen between before pipefd =>
    obtain ⟨halive, hcall⟩ := Option.ite_none_right_eq_some.1 hs
    obtain ⟨⟨ret, m₁⟩, hopen, rfl⟩ := Option.map_eq_some_iff.1 hcall
    exact Or.inl ⟨between, before, pipefd, ret, rfl, halive, hopen⟩
  | callClose between =>
    obtain ⟨_, hclose⟩ := Option.ite_none_right_eq_some.1 hs
    exact Or.inr (Or.inl ⟨between, rfl, hclose⟩)
  | destroy between =>
    obtain ⟨_, hdestroy⟩ := Option.ite_none_right_eq_some.1 hs
    obtain ⟨m₁, hclose, rfl⟩ := Option.map_eq_some_iff.1 hdestroy
    exact Or.inr (Or.inr (Or.inl ⟨between, m₁, rfl, hclose, rfl⟩))
  | others acts => exact Or.inr (Or.inr (Or.inr ⟨acts, rfl, hs⟩))

theorem step_inv (m : Machine) (c : Call) (m' : Machine) (h : m.Inv) (hfresh : m.Fresh c)
    (hs : m.step c = some m') : m'.Inv := by
  obtain ⟨_, _, _, _, _, halive, hopen⟩ | ⟨_, rfl, hclose⟩ | ⟨_, m₁, rfl, hclose, rfl⟩ |
    ⟨_, _, hothers⟩ := step_cases hs
  · exact open_inv h halive hopen
  · exact Or.inl (close_inv h hfresh hclose)
  · have hempty := close_inv h hfresh hclose
    exact Or.inl ⟨hempty.no_fd, hempty.only, hempty.closed⟩
  · obtain hempty | ⟨halive, hholding⟩ := h
    · exact Or.inl (hempty.others hothers)
    · exact Or.inr ⟨(others_alive hothers).trans halive, hholding.others hothers⟩

theorem close_bad (h : m.Inv) (hstale : ¬ (m.fd ≠ -1 ∨ m.fd1 = -1))
    (hclose : m.close between = some m') : m'.Bad := by
  obtain ⟨hfd, hfd1⟩ := not_or.1 hstale
  obtain hempty | ⟨_, hholding⟩ := h
  · exact close_again hempty hfd1 hclose
  · exact absurd hholding.open_fd hfd

/-- The calls that find a closed pipe. -/
theorem step_bad (m : Machine) (c : Call) (m' : Machine) (h : m.Inv) (hfresh : ¬ m.Fresh c)
    (hs : m.step c = some m') : m'.Bad := by
  obtain ⟨_, _, _, _, rfl, _, _⟩ | ⟨_, rfl, hclose⟩ | ⟨_, m₁, rfl, hclose, rfl⟩ | ⟨_, rfl, _⟩ :=
    step_cases hs
  · exact absurd trivial hfresh
  · exact close_bad h hfresh hclose
  · exact show m₁.Bad from close_bad h hfresh hclose
  · exact absurd trivial hfresh

/-! ## What has been closed stays so -/

theorem closeFirst_keeps (m : Machine) : m.closed ⊆ m.closeFirst.closed := by
  unfold closeFirst
  split
  · exact List.subset_append_left _ _
  · exact List.Subset.refl _

theorem closeSecond_keeps (m : Machine) : m.closed ⊆ m.closeSecond.closed := by
  unfold closeSecond
  split
  · exact List.subset_append_left _ _
  · exact List.Subset.refl _

theorem others_keeps {acts : List Other} (h : m.others acts = some m') :
    m.closed ⊆ m'.closed := by
  obtain ⟨table, rfl, _⟩ := others_spec h
  exact List.Subset.refl _

theorem close_keeps (hclose : m.close between = some m') : m.closed ⊆ m'.closed := by
  obtain ⟨m₁, hothers, rfl⟩ := Option.map_eq_some_iff.1 hclose
  exact List.Subset.trans (closeFirst_keeps m)
    (List.Subset.trans (others_keeps hothers) (closeSecond_keeps m₁))

theorem sysPipe_keeps {fd fd1 : Int} (h : m.sysPipe fd fd1 = some m') : m.closed ⊆ m'.closed := by
  unfold sysPipe at h
  split at h
  · cases h
    exact List.Subset.refl _
  · cases h

theorem open_keeps {pipefd : Option (Int × Int)} {ret : Bool}
    (hopen : m.open between before pipefd = some (ret, m')) : m.closed ⊆ m'.closed := by
  obtain ⟨m₂, hbefore, hpipe⟩ := Option.bind_eq_some_iff.1 hopen
  obtain ⟨m₁, hclose, hothers⟩ := Option.bind_eq_some_iff.1 hbefore
  have hkeeps : m.closed ⊆ m₂.closed := by
    refine List.Subset.trans ?_ (others_keeps hothers)
    split at hclose
    · exact close_keeps hclose
    · cases hclose
      exact List.Subset.refl _
  cases pipefd with
  | none =>
    cases hpipe
    exact hkeeps
  | some fds =>
    obtain ⟨m₃, hsys, hm'⟩ := Option.map_eq_some_iff.1 hpipe
    cases hm'
    exact List.Subset.trans hkeeps (show m₂.closed ⊆ m₃.closed from sysPipe_keeps hsys)

theorem step_keeps (m : Machine) (c : Call) (m' : Machine) (h : m.Bad)
    (hs : m.step c = some m') : m'.Bad := by
  suffices hkeeps : m.closed ⊆ m'.closed by
    obtain ⟨o, ho, hother⟩ := h
    exact ⟨o, hkeeps ho, hother⟩
  obtain ⟨_, _, _, _, _, _, hopen⟩ | ⟨_, _, hclose⟩ | ⟨_, m₁, _, hclose, rfl⟩ | ⟨_, _, hothers⟩ :=
    step_cases hs
  · exact open_keeps hopen
  · exact close_keeps hclose
  · exact show m.closed ⊆ m₁.closed from close_keeps hclose
  · exact others_keeps hothers

end Calls

/-! ## Runs -/

theorem not_bad_of_inv (m : Machine) (h : m.Inv) : ¬ m.Bad := by
  rintro ⟨o, ho, hother⟩
  obtain hempty | ⟨_, hholding⟩ := h
  · exact not_closesOnce_of_bad ⟨o, ho, hother⟩ (closesOnce_of_empty hempty)
  · obtain ⟨k, _, _, _, hclosed⟩ := hholding.owner
    rw [hclosed, List.mem_map] at ho
    obtain ⟨j, _, rfl⟩ := ho
    exact hother j rfl

theorem new_inv (taken : Int → Bool) : (new taken).Inv := by
  refine Or.inl ⟨rfl, fun n k hn => ?_, rfl⟩
  have hn' : (if taken n then some Owner.other else none) = some (.pipe k) := hn
  split at hn' <;> cases hn'

/-- **Each descriptor is closed once**, and no other number is closed, exactly if neither `close`
nor the destructor finds a pipe that has been closed and not been opened again. -/
theorem closesOnce_iff {taken : Int → Bool} {calls : List Call} {m : Machine}
    (hr : Runs.run step (new taken) calls = some m) (hdestroyed : m.alive = false) :
    m.ClosesOnce ↔ Runs.EachStep step Fresh (new taken) calls := by
  obtain ⟨hiff, hinv⟩ :=
    Runs.run_iff_eachStep step_inv step_bad step_keeps not_bad_of_inv (new_inv taken) hr
  refine ⟨fun h => hiff.1 fun hbad => not_closesOnce_of_bad hbad h, fun h => ?_⟩
  obtain hempty | ⟨halive, _⟩ := hinv h
  · exact closesOnce_of_empty hempty
  · rw [hdestroyed] at halive
    cases halive

/-- The pipe is opened again before it is destroyed. -/
def reopened : List Call :=
  [.callOpen [] [] (some (3, 4)), .callClose [.opens 3], .others [.opens 4],
    .callOpen [] [] (some (5, 6)), .destroy []]

theorem closesOnce_reopened :
    ∃ m, Runs.run step (new fun _ => false) reopened = some m ∧ m.alive = false ∧
      (m.ClosesOnce ↔ Runs.EachStep step Fresh (new fun _ => false) reopened) :=
  ⟨_, rfl, rfl, @closesOnce_iff (fun _ => false) reopened _ rfl rfl⟩

/-- Another thread gets the number between `close` and the destruction, which closes it. -/
theorem not_closesOnce_closed :
    ∃ m, Runs.run step (new fun _ => false) [.callOpen [] [] (some (3, 4)), .callClose [],
        .others [.opens 4], .destroy []] = some m ∧ m.alive = false ∧
      some .other ∈ m.closed ∧ ¬ m.ClosesOnce :=
  ⟨_, rfl, rfl, by decide, fun h => by
    obtain ⟨k, hk⟩ := h.owned (some .other) (by decide)
    cases hk⟩

end Machine

end SelfPipe

end Brickred
