import Mathlib.Algebra.BigOperators.Group.Finset.Basic
import Mathlib.Algebra.Order.BigOperators.Group.Finset
import Mathlib.Order.Basic

/-!
# Serving an agenda

An agenda is a partial map from ids to entries.  Serving it means to take a due entry with the
least key, to replace it by its `next` (or to drop it), and to go on until no entry is due; ties
may be broken in any way.  This is what a timer queue, a calendar or an event simulator is for,
whatever it keeps its entries in.

* `Serves s l s'` — serving `s` fires the entries `l`, in this order, and ends in `s'`.
* `Alone e l r` — the same for one entry by itself; it is deterministic.

Principal results: `Serves.alone` (each id is served as if it were alone), `Serves.sorted` (keys
come in order), `weight_update_lt` (the measure for termination).
-/

set_option autoImplicit false

namespace Agenda

variable {ι ε β : Type*}

/-- The rules an entry is served by. -/
structure Policy (ε β : Type*) where
  key : ε → β
  due : ε → Prop
  next : ε → Option ε

variable [DecidableEq ι] [LinearOrder β] {pol : Policy ε β} {s s' : ι → Option ε}
  {l : List (ι × ε)}

inductive Serves (pol : Policy ε β) : (ι → Option ε) → List (ι × ε) → (ι → Option ε) → Prop where
  | done {s : ι → Option ε} (hdone : ∀ i e, s i = some e → ¬ pol.due e) : Serves pol s [] s
  | fire {s s' : ι → Option ε} {l : List (ι × ε)} {i : ι} {e : ε} (hi : s i = some e)
      (hdue : pol.due e) (hleast : ∀ j f, s j = some f → pol.key e ≤ pol.key f)
      (hrest : Serves pol (Function.update s i (pol.next e)) l s') : Serves pol s ((i, e) :: l) s'

inductive Alone (pol : Policy ε β) : Option ε → List ε → Option ε → Prop where
  | gone : Alone pol none [] none
  | rest {e : ε} (hnot : ¬ pol.due e) : Alone pol (some e) [] (some e)
  | fire {e : ε} {l : List ε} {r : Option ε} (hdue : pol.due e) (hrest : Alone pol (pol.next e) l r) :
      Alone pol (some e) (e :: l) r

/-- What an agenda fires under the id `i`. -/
def firingsOf (i : ι) (l : List (ι × ε)) : List ε := (l.filter fun p => p.1 = i).map Prod.snd

/-- **Each id is served as if it were alone.** -/
theorem Serves.alone (h : Serves pol s l s') (i : ι) :
    Alone pol (s i) (firingsOf i l) (s' i) := by
  induction h with
  | @done s hdone =>
    cases hi : s i with
    | none => exact .gone
    | some e => exact .rest (hdone i e hi)
  | @fire s s' l j e hj hdue _ _ ih =>
    by_cases hji : j = i
    · subst hji
      rw [Function.update_self] at ih
      have hl : firingsOf j ((j, e) :: l) = e :: firingsOf j l := by simp [firingsOf]
      rw [hj, hl]
      exact .fire hdue ih
    · rw [Function.update_of_ne (Ne.symm hji)] at ih
      have hl : firingsOf i ((j, e) :: l) = firingsOf i l := by simp [firingsOf, hji]
      rw [hl]; exact ih

theorem Serves.not_due (h : Serves pol s l s') : ∀ i e, s' i = some e → ¬ pol.due e := by
  induction h with
  | done hdone => exact hdone
  | fire _ _ _ _ ih => exact ih

/-! ## Order -/

section Order

variable {Good : ε → Prop}
  (hnext : ∀ e f, Good e → pol.next e = some f → Good f ∧ pol.key e ≤ pol.key f)

include hnext in
/-- Firing an entry keeps a lower bound of the keys. -/
theorem bound_update {b : β} {i : ι} {e : ε} (hi : s i = some e)
    (hs : ∀ j f, s j = some f → Good f ∧ b ≤ pol.key f) :
    ∀ j f, Function.update s i (pol.next e) j = some f → Good f ∧ b ≤ pol.key f := by
  intro j f hj
  by_cases hji : j = i
  · subst hji
    rw [Function.update_self] at hj
    obtain ⟨hge, hbe⟩ := hs j e hi
    obtain ⟨hgf, hef⟩ := hnext e f hge hj
    exact ⟨hgf, hbe.trans hef⟩
  · rw [Function.update_of_ne hji] at hj
    exact hs j f hj

include hnext in
theorem Serves.bound (h : Serves pol s l s') {b : β}
    (hs : ∀ j f, s j = some f → Good f ∧ b ≤ pol.key f) : ∀ p ∈ l, b ≤ pol.key p.2 := by
  induction h with
  | done => simp
  | fire hi _ _ _ ih =>
    intro p hp
    rcases List.mem_cons.1 hp with rfl | hp
    · exact (hs _ _ hi).2
    · exact ih (bound_update hnext hi hs) p hp

include hnext in
/-- **Entries are fired in the order of their keys.** -/
theorem Serves.sorted (h : Serves pol s l s') (hs : ∀ j f, s j = some f → Good f) :
    l.Pairwise fun p q => pol.key p.2 ≤ pol.key q.2 := by
  induction h with
  | done => exact List.Pairwise.nil
  | @fire s _ l i e hi _ hleast hrest ih =>
    have hbound := bound_update hnext hi fun j f hj => ⟨hs j f hj, hleast j f hj⟩
    exact List.Pairwise.cons (hrest.bound hnext hbound) (ih fun j f hj => (hbound j f hj).1)

end Order

/-! ## Termination -/

/-- The firings left on an agenda whose ids are among `S`. -/
def weight (rank : Option ε → ℕ) (S : Finset ι) (s : ι → Option ε) : ℕ := ∑ i ∈ S, rank (s i)

theorem weight_update_lt {rank : Option ε → ℕ} {S : Finset ι} {i : ι} {e : Option ε} (hi : i ∈ S)
    (hlt : rank e < rank (s i)) : weight rank S (Function.update s i e) < weight rank S s := by
  refine Finset.sum_lt_sum (fun j _ => ?_) ⟨i, hi, by rw [Function.update_self]; exact hlt⟩
  by_cases hji : j = i
  · subst hji; rw [Function.update_self]; exact hlt.le
  · rw [Function.update_of_ne hji]

end Agenda
