import Mathlib.Data.List.GetD
import Mathlib.Logic.Function.Iterate

/-!
# Sequences made by a sliding window

A sequence with `x (k + n) = f (x k) (x (k + 1)) (x (k + m))` is kept as a window of its next `n`
terms: a turn drops the first and appends a new one.  A generator that has its window in an array
makes `n` terms at one time instead, each in the place of the one it follows.

* `getD_iterate_slide`, `term_add` — the window holds consecutive terms, and they obey the rule.
* `refreshAll_eq` — making all terms in place is sliding the window by its length.
* `term_of_agree` — terms that agree in a window agree from there on.
* `Alike` — windows that differ at most in what no later term reads of the first one;
  `alike_slide_iff` says that sliding neither makes nor breaks this, when `f` can be undone.
-/

set_option autoImplicit false

namespace SlidingWindow

variable {α : Type*} (f : α → α → α → α) (m : Nat) (d : α)

/-- The term that follows the window. -/
def next (w : List α) : α := f (w.getD 0 d) (w.getD 1 d) (w.getD m d)

def slide (w : List α) : List α := w.tail ++ [next f m d w]

/-- The `k`-th term of the sequence that starts with the window. -/
def term (w : List α) (k : Nat) : α := ((slide f m d)^[k] w).getD 0 d

/-- The term `n` places after the `i`-th one, put in its place. -/
def refresh (w : List α) (i : Nat) : List α :=
  w.set i (f (w.getD i d) (w.getD ((i + 1) % w.length) d) (w.getD ((i + m) % w.length) d))

def refreshAll (w : List α) : List α := (List.range w.length).foldl (refresh f m d) w

/-! ## The window and the sequence -/

section Terms

variable {f m d} {w : List α}

theorem length_slide (h : 0 < w.length) : (slide f m d w).length = w.length := by
  simp [slide]
  omega

theorem length_iterate_slide (h : 0 < w.length) (k : Nat) :
    ((slide f m d)^[k] w).length = w.length := by
  induction k with
  | zero => rfl
  | succ k ih =>
    rw [Function.iterate_succ_apply', length_slide (by omega), ih]

theorem getD_slide_of_lt {j : Nat} (h : j + 1 < w.length) :
    (slide f m d w).getD j d = w.getD (j + 1) d := by
  cases w with
  | nil => simp at h
  | cons a w =>
    simp only [List.length_cons, Nat.add_lt_add_iff_right] at h
    simp [slide, List.getElem?_append_left h]

theorem getD_slide_last {j : Nat} (h : j + 1 = w.length) :
    (slide f m d w).getD j d = next f m d w := by
  have hj : j = w.tail.length := by simp [← h]
  simp [slide, hj]

/-- The window, `k` turns on, holds the terms from the `k`-th on. -/
theorem getD_iterate_slide {j : Nat} (h : j < w.length) (k : Nat) :
    ((slide f m d)^[k] w).getD j d = term f m d w (k + j) := by
  induction j generalizing k with
  | zero => rfl
  | succ j ih =>
    have hlength := @length_iterate_slide _ f m d w (by omega) k
    rw [← getD_slide_of_lt (by omega), ← Function.iterate_succ_apply' (slide f m d),
      ih (by omega), Nat.succ_add_eq_add_succ]

theorem term_of_lt {k : Nat} (h : k < w.length) : term f m d w k = w.getD k d := by
  have hterm := getD_iterate_slide (f := f) (m := m) (d := d) h 0
  rw [Nat.zero_add] at hterm
  exact hterm.symm

theorem term_iterate_slide (j k : Nat) :
    term f m d ((slide f m d)^[j] w) k = term f m d w (k + j) := by
  rw [term, term, ← Function.iterate_add_apply]

/-- **The rule of the sequence.** -/
theorem term_add (hm : m < w.length) (h : 1 < w.length) (k : Nat) :
    term f m d w (k + w.length) =
      f (term f m d w k) (term f m d w (k + 1)) (term f m d w (k + m)) := by
  have hlength := @length_iterate_slide _ f m d w (by omega) k
  have hlast : ((slide f m d)^[k + 1] w).getD (w.length - 1) d =
      next f m d ((slide f m d)^[k] w) := by
    rw [Function.iterate_succ_apply']
    exact getD_slide_last (by omega)
  have hindex : k + 1 + (w.length - 1) = k + w.length := by omega
  rw [getD_iterate_slide (by omega), hindex] at hlast
  rw [hlast, next, getD_iterate_slide (by omega), getD_iterate_slide h, getD_iterate_slide hm]
  rfl

/-- Terms that agree in a window agree from there on. -/
theorem iterate_slide_of_agree {v : List α} (hlength : v.length = w.length)
    (h : 0 < w.length) {k : Nat}
    (hagree : ∀ j, j < w.length → term f m d v (k + j) = term f m d w (k + j)) :
    (slide f m d)^[k] v = (slide f m d)^[k] w := by
  have hv := @length_iterate_slide _ f m d v (by omega) k
  have hw := @length_iterate_slide _ f m d w h k
  refine List.ext_getElem (by omega) fun i hi _ => ?_
  rw [← List.getD_eq_getElem _ d hi, ← List.getD_eq_getElem _ d (by omega : i < _),
    getD_iterate_slide (by omega), getD_iterate_slide (by omega), hagree i (by omega)]

theorem term_of_agree {v : List α} (hlength : v.length = w.length) (h : 0 < w.length) {k : Nat}
    (hagree : ∀ j, j < w.length → term f m d v (k + j) = term f m d w (k + j)) (j : Nat) :
    term f m d v (k + j) = term f m d w (k + j) := by
  rw [Nat.add_comm, ← term_iterate_slide, iterate_slide_of_agree hlength h hagree,
    term_iterate_slide]

end Terms

/-! ## In place -/

section InPlace

variable {f m d} {w : List α}

theorem length_refresh (w : List α) (i : Nat) : (refresh f m d w i).length = w.length := by
  simp [refresh]

theorem length_foldl_refresh (is : List Nat) (w : List α) :
    (is.foldl (refresh f m d) w).length = w.length := by
  induction is generalizing w with
  | nil => rfl
  | cons i is ih => rw [List.foldl_cons, ih, length_refresh]

/-- After `i` turns the first `i` places are a window ahead of the others. -/
theorem getD_foldl_refresh (hpos : 0 < m) (hm : m < w.length) {i j : Nat} (hi : i ≤ w.length)
    (hj : j < w.length) :
    ((List.range i).foldl (refresh f m d) w).getD j d =
      term f m d w (if j < i then j + w.length else j) := by
  induction i generalizing j with
  | zero => simp [term_of_lt hj]
  | succ i ih =>
    have hlength := @length_foldl_refresh _ f m d (List.range i) w
    rw [List.range_succ, List.foldl_append, List.foldl_cons, List.foldl_nil, refresh, hlength]
    by_cases hij : i = j
    · subst hij
      -- the next place is ahead already where the window wraps, and so may the far one be
      have hnext : (if (i + 1) % w.length < i then (i + 1) % w.length + w.length
          else (i + 1) % w.length) = i + 1 := by
        rcases Nat.lt_or_ge (i + 1) w.length with hlt | hge
        · rw [Nat.mod_eq_of_lt hlt, if_neg (by omega)]
        · have heq : i + 1 = w.length := by omega
          rw [heq, Nat.mod_self, if_pos (by omega)]
          omega
      have hfar : (if (i + m) % w.length < i then (i + m) % w.length + w.length
          else (i + m) % w.length) = i + m := by
        rcases Nat.lt_or_ge (i + m) w.length with hlt | hge
        · rw [Nat.mod_eq_of_lt hlt, if_neg (by omega)]
        · rw [Nat.mod_eq_sub_mod hge, Nat.mod_eq_of_lt (by omega), if_pos (by omega)]
          omega
      rw [ih (by omega) hj, if_neg (by omega), ih (by omega) (Nat.mod_lt _ (by omega)), hnext,
        ih (by omega) (Nat.mod_lt _ (by omega)), hfar, if_pos (by omega),
        term_add hm (by omega)]
      simp [hlength, hj]
    · have hset : ∀ a, ((List.foldl (refresh f m d) w (List.range i)).set i a).getD j d =
          ((List.range i).foldl (refresh f m d) w).getD j d := by
        intro a
        simp [List.getElem?_set_ne hij]
      rw [hset, ih (by omega) hj]
      congr 1
      split <;> split <;> omega

/-- **In place**: all terms made anew are the window slid by its length. -/
theorem refreshAll_eq (hpos : 0 < m) (hm : m < w.length) :
    refreshAll f m d w = (slide f m d)^[w.length] w := by
  have hleft : (refreshAll f m d w).length = w.length := length_foldl_refresh _ w
  have hright := @length_iterate_slide _ f m d w (by omega) w.length
  refine List.ext_getElem (by omega) fun j hj _ => ?_
  rw [← List.getD_eq_getElem _ d hj, ← List.getD_eq_getElem _ d (by omega : j < _),
    getD_iterate_slide (by omega), refreshAll,
    getD_foldl_refresh hpos hm (Nat.le_refl _) (by omega), if_pos (by omega), Nat.add_comm]

end InPlace

/-! ## Windows with the same later terms -/

section Alike

variable {β γ : Type*} (up : α → β) (low : α → γ)

/-- A new term tells what part of the first term, and of the second, it was made of; the two
parts of one term tell the term. -/
structure Reversible : Prop where
  eq_iff : ∀ a b c a' b', f a b c = f a' b' c ↔ up a = up a' ∧ low b = low b'
  join : ∀ a a', up a = up a' → low a = low a' → a = a'

/-- Windows that differ at most in the lower part of the first term. -/
structure Alike (v w : List α) : Prop where
  first : up (v.getD 0 d) = up (w.getD 0 d)
  others : ∀ j, 0 < j → j < w.length → v.getD j d = w.getD j d

variable {f m d up low} {v w : List α}

/-- **Alike now, alike before and after.**  A turn can be undone up to what it did not read. -/
theorem alike_slide_iff
    (hf : Reversible f up low) (hpos : 1 < m) (hm : m < w.length)
    (hlength : v.length = w.length) :
    Alike d up (slide f m d v) (slide f m d w) ↔ Alike d up v w := by
  have hslide := @length_slide _ f m d w (by omega)
  have hshift : ∀ {u : List α} {j}, u.length = w.length → j + 1 < w.length →
      (slide f m d u).getD j d = u.getD (j + 1) d :=
    fun hu hj => getD_slide_of_lt (by omega)
  have hlast : ∀ {u : List α}, u.length = w.length →
      (slide f m d u).getD (w.length - 1) d = next f m d u :=
    fun hu => getD_slide_last (by omega)
  constructor
  · intro h
    have hlater : ∀ j, 1 < j → j < w.length → v.getD j d = w.getD j d := by
      intro j hj hjw
      have hbefore := h.others (j - 1) (by omega) (by omega)
      rwa [hshift hlength (by omega), hshift rfl (by omega), Nat.sub_add_cancel (by omega)]
        at hbefore
    have hnext := h.others (w.length - 1) (by omega) (by omega)
    rw [hlast hlength, hlast rfl, next, next, hlater m hpos hm, hf.eq_iff] at hnext
    have hup := h.first
    rw [hshift hlength (by omega), hshift rfl (by omega)] at hup
    refine ⟨hnext.1, fun j hj hjw => ?_⟩
    rcases Nat.lt_or_ge 1 j with hlt | hge
    · exact hlater j hlt hjw
    · have hone : j = 1 := by omega
      subst hone
      exact hf.join _ _ hup hnext.2
  · intro h
    refine ⟨?_, fun j hj hjw => ?_⟩
    · rw [hshift hlength (by omega), hshift rfl (by omega), h.others _ (by omega) (by omega)]
    · rcases Nat.lt_or_ge (j + 1) w.length with hlt | hge
      · rw [hshift hlength hlt, hshift rfl hlt, h.others _ (by omega) hlt]
      · have hj' : j = w.length - 1 := by omega
        rw [hj', hlast hlength, hlast rfl, next, next, h.others m (by omega) hm, hf.eq_iff]
        exact ⟨h.first, by rw [h.others 1 (by omega) (by omega)]⟩

theorem alike_iterate_slide_iff
    (hf : Reversible f up low) (hpos : 1 < m) (hm : m < w.length)
    (hlength : v.length = w.length) (k : Nat) :
    Alike d up ((slide f m d)^[k] v) ((slide f m d)^[k] w) ↔ Alike d up v w := by
  induction k with
  | zero => rfl
  | succ k ih =>
    have hv := @length_iterate_slide _ f m d v (by omega) k
    have hw := @length_iterate_slide _ f m d w (by omega) k
    rw [Function.iterate_succ_apply', Function.iterate_succ_apply',
      alike_slide_iff hf hpos (by omega) (by omega), ih]

/-- Alike windows have the same terms but for the first. -/
theorem Alike.term_eq
    (hf : Reversible f up low) (hpos : 1 < m) (hm : m < w.length)
    (hlength : v.length = w.length) (h : Alike d up v w) {k : Nat}
    (hk : 0 < k) : term f m d v k = term f m d w k := by
  obtain ⟨k, rfl⟩ : ∃ i, k = i + 1 := ⟨k - 1, by omega⟩
  have halike := (alike_iterate_slide_iff hf hpos hm hlength k).2 h
  have hv := @length_iterate_slide _ f m d v (by omega) k
  have hw := @length_iterate_slide _ f m d w (by omega) k
  rw [← getD_iterate_slide (by omega), ← getD_iterate_slide (by omega),
    halike.others 1 (by decide) (by omega)]

/-- Terms that agree in a window are those of alike windows. -/
theorem alike_of_agree
    (hf : Reversible f up low) (hpos : 1 < m) (hm : m < w.length)
    (hlength : v.length = w.length) {k : Nat}
    (hagree : ∀ j, j < w.length → term f m d v (k + j) = term f m d w (k + j)) :
    Alike d up v w := by
  rw [← alike_iterate_slide_iff hf hpos hm hlength k,
    iterate_slide_of_agree hlength (by omega) hagree]
  exact ⟨rfl, fun _ _ _ => rfl⟩

end Alike

end SlidingWindow
