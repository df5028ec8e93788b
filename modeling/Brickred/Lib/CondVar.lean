import Mathlib.Data.List.Basic

/-!
# Condition variables

The critical sections of a monitor are atomic, so all that is left of a condition variable are
the threads that wait at it: `waiting` threads sleep, `notified` and `spurious` ones have been
woken, by a call of `notifyOne` or for no reason, and still have to take the mutex again.

* `Covers n` — as long as a thread sleeps, `n` threads are notified.  A monitor that keeps this for
  the number of things its threads wait for has no lost wake-up (`Covers.notified_ne_nil`).
* `Covers.notifyOne`, `Covers.resume`, `Covers.wait`, … — what each operation does to it.
-/

set_option autoImplicit false

structure CondVar (ι : Type*) where
  waiting : List ι
  notified : List ι
  spurious : List ι

namespace CondVar

variable {ι : Type*}

def new : CondVar ι := ⟨[], [], []⟩

/-- The thread releases the mutex and sleeps. -/
def wait (c : CondVar ι) (i : ι) : CondVar ι := { c with waiting := i :: c.waiting }

/-- Wakes all threads that sleep. -/
def notifyAll (c : CondVar ι) : CondVar ι :=
  { c with waiting := [], notified := c.waiting ++ c.notified }

/-- As long as a thread sleeps, `n` threads are notified. -/
def Covers (c : CondVar ι) (n : ℕ) : Prop := c.waiting ≠ [] → n ≤ c.notified.length

section Covers

variable {c : CondVar ι} {m n : ℕ}

theorem covers_zero : c.Covers 0 := fun _ => Nat.zero_le _

theorem Covers.mono (h : c.Covers n) (hle : m ≤ n) : c.Covers m := fun hw => Nat.le_trans hle (h hw)

/-- **No lost wake-up.** -/
theorem Covers.notified_ne_nil (h : c.Covers n) (hn : 0 < n) (hw : c.waiting ≠ []) :
    c.notified ≠ [] :=
  List.ne_nil_of_length_pos (Nat.lt_of_lt_of_le hn (h hw))

end Covers

variable [DecidableEq ι]

/-- A thread is at the condition variable. -/
def At (c : CondVar ι) (i : ι) : Prop := i ∈ c.waiting ∨ i ∈ c.notified ∨ i ∈ c.spurious

instance (c : CondVar ι) (i : ι) : Decidable (c.At i) := inferInstanceAs (Decidable (_ ∨ _))

/-- Wakes one of the threads that sleep, if there is one; which one is open. -/
def notifyOne (c : CondVar ι) (pick : ℕ) : CondVar ι :=
  match c.waiting[pick % c.waiting.length]? with
  | none => c
  | some i => { c with waiting := c.waiting.erase i, notified := i :: c.notified }

/-- A spurious wake-up. -/
def wake (c : CondVar ι) (i : ι) : Option (CondVar ι) :=
  if i ∈ c.waiting then
    some { c with waiting := c.waiting.erase i, spurious := i :: c.spurious }
  else none

/-- A woken thread has the mutex again. -/
def resume (c : CondVar ι) (i : ι) : Option (CondVar ι) :=
  if i ∈ c.notified then some { c with notified := c.notified.erase i }
  else if i ∈ c.spurious then some { c with spurious := c.spurious.erase i }
  else none

variable {c c' : CondVar ι} {i : ι} {n : ℕ}

/-- One more thing to wait for, and one more thread notified. -/
theorem Covers.notifyOne (h : c.Covers n) (pick : ℕ) : (c.notifyOne pick).Covers (n + 1) := by
  unfold CondVar.notifyOne
  cases hw : c.waiting with
  | nil => exact fun hne => absurd hw hne
  | cons j waiting =>
    have hlt : pick % (j :: waiting).length < (j :: waiting).length :=
      Nat.mod_lt _ (Nat.succ_pos _)
    rw [List.getElem?_eq_getElem hlt]
    intro _
    have hlen := h (by rw [hw]; exact List.cons_ne_nil _ _)
    exact Nat.succ_le_succ hlen

theorem Covers.wake (h : c.Covers n) (hc : c.wake i = some c') : c'.Covers n := by
  unfold CondVar.wake at hc
  split at hc
  · rename_i hmem
    cases hc
    exact fun _ => h (List.ne_nil_of_mem hmem)
  · cases hc

/-- A thread that goes on takes one of the things that were waited for. -/
theorem Covers.resume (h : c.Covers n) (hc : c.resume i = some c') : c'.Covers (n - 1) := by
  unfold CondVar.resume at hc
  split at hc
  · rename_i hmem
    cases hc
    intro hw
    have hlen := h hw
    have herase := List.length_erase_of_mem hmem
    change n - 1 ≤ (c.notified.erase i).length
    omega
  · split at hc
    · cases hc
      exact fun hw => Nat.le_trans (Nat.sub_le n 1) (h hw)
    · cases hc

/-- Waking changes who sleeps, and lets nobody go to sleep. -/
theorem resume_waiting (hc : c.resume i = some c') : c'.waiting = c.waiting := by
  unfold CondVar.resume at hc
  split at hc
  · cases hc; rfl
  · split at hc
    · cases hc; rfl
    · cases hc

theorem notifyOne_waiting (h : c.waiting = []) (pick : ℕ) : (c.notifyOne pick).waiting = [] := by
  unfold CondVar.notifyOne
  rw [h]
  exact h

theorem wake_waiting (h : c.waiting = []) : c.wake i = none := by
  unfold CondVar.wake
  rw [h, if_neg List.not_mem_nil]

end CondVar
