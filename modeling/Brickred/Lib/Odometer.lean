import Mathlib.Data.List.Basic
import Mathlib.Data.List.ProdSigma

/-!
# Odometers

A wheel shows something and can be turned, until it ends.  Two wheels make an odometer: the outer
one turns once the inner one has gone round.

* `Wheel.Lists` — what a wheel shows from a state on; `Lists.shown` — turn by turn.
* `Lists.pair` — an odometer shows the product of what its wheels show.
* `spans`, `lists_spans` — a wheel that counts through spans of numbers, one span after the other.
* `Wheel.Endless` — a wheel that can always be turned; `endless_spans` — one that does not see the
  end of a span.
-/

set_option autoImplicit false

namespace Odometer

variable {σ τ α β : Type}

structure Wheel (σ α : Type) where
  first : σ
  /-- `none` at the end -/
  next : σ → Option σ
  face : σ → α

namespace Wheel

/-- What the wheel shows from a state on. -/
inductive Lists (w : Wheel σ α) : σ → List α → Prop
  | last {s : σ} (hend : w.next s = none) : Lists w s [w.face s]
  | turn {s s' : σ} {xs : List α} (hnext : w.next s = some s') (hrest : Lists w s' xs) :
    Lists w s (w.face s :: xs)

/-- The state after `n` turns. -/
def turned (w : Wheel σ α) : ℕ → σ → Option σ
  | 0, s => some s
  | n + 1, s => (w.next s).bind (w.turned n)

/-- The outer wheel turns with the inner one's going back. -/
def pair (outer : Wheel σ α) (inner : Wheel τ β) : Wheel (σ × τ) (α × β) where
  first := (outer.first, inner.first)
  next p :=
    match inner.next p.2 with
    | some t => some (p.1, t)
    | none => (outer.next p.1).map fun s => (s, inner.first)
  face p := (outer.face p.1, inner.face p.2)

section Lists

variable {w : Wheel σ α} {s s' : σ} {xs : List α}

/-- **Turn by turn** the wheel shows its list. -/
theorem Lists.shown (h : w.Lists s xs) (n : ℕ) : (w.turned n s).map w.face = xs[n]? := by
  induction h generalizing n with
  | @last s hend =>
    cases n with
    | zero => rfl
    | succ n =>
      rw [turned, hend]
      rfl
  | @turn s s' xs hnext _ ih =>
    cases n with
    | zero => rfl
    | succ n =>
      rw [turned, hnext, List.getElem?_cons_succ]
      exact ih n

variable {inner : Wheel τ β} {t : τ} {x : α} {ys zs : List β}

/-- The inner wheel goes on to its end. -/
theorem Lists.pair_inner (ht : inner.Lists t zs) {rest : List (α × β)}
    (hcarry : ∀ t, inner.next t = none →
      match (w.next s).map (fun s => (s, inner.first)) with
      | none => rest = []
      | some p => (w.pair inner).Lists p rest) :
    (w.pair inner).Lists (s, t) (zs.map (fun z => (w.face s, z)) ++ rest) := by
  induction ht with
  | @last t hend =>
    have hcarry := hcarry t hend
    have hnext : (w.pair inner).next (s, t) = (w.next s).map fun s => (s, inner.first) := by
      rw [pair]
      dsimp only
      rw [hend]
    cases hp : (w.next s).map (fun s => (s, inner.first)) with
    | none =>
      rw [hp] at hcarry
      rw [hcarry]
      exact .last (hnext.trans hp)
    | some p =>
      rw [hp] at hcarry
      exact .turn (hnext.trans hp) hcarry
  | @turn t t' zs hturn _ ih =>
    refine @Lists.turn _ _ _ _ (s, t') _ ?_ ih
    rw [pair]
    dsimp only
    rw [hturn]

/-- **An odometer** shows the product. -/
theorem Lists.pair (hinner : inner.Lists inner.first ys) (h : w.Lists s xs) :
    (w.pair inner).Lists (s, inner.first) (xs ×ˢ ys) := by
  induction h with
  | @last s hend =>
    have hone : [w.face s] ×ˢ ys = ys.map (fun y => (w.face s, y)) ++ [] := by
      rw [List.product_cons, List.nil_product]
    rw [hone]
    exact hinner.pair_inner fun t _ => by rw [hend]; rfl
  | @turn s s' xs hnext _ ih =>
    rw [List.product_cons]
    exact hinner.pair_inner fun t _ => by rw [hnext]; exact ih

end Lists

/-- Where `P` holds the wheel can be turned, and it holds again. -/
def Endless (w : Wheel σ α) (P : σ → Prop) : Prop := ∀ s, P s → ∃ s', w.next s = some s' ∧ P s'

section Endless

variable {w : Wheel σ α} {P : σ → Prop} {s : σ}

theorem Endless.turned (h : w.Endless P) (hs : P s) (n : ℕ) : (w.turned n s).isSome := by
  induction n generalizing s with
  | zero => rfl
  | succ n ih =>
    obtain ⟨s', hnext, hs'⟩ := h s hs
    rw [Wheel.turned, hnext]
    exact ih hs'

theorem Endless.pair (h : w.Endless P) (inner : Wheel τ β) :
    (w.pair inner).Endless fun p => P p.1 := by
  rintro ⟨s, t⟩ hs
  rw [Wheel.pair]
  dsimp only
  cases inner.next t with
  | some t' => exact ⟨(s, t'), rfl, hs⟩
  | none =>
    obtain ⟨s', hnext, hs'⟩ := h s hs
    rw [hnext]
    exact ⟨(s', inner.first), rfl, hs'⟩

end Endless

end Wheel

/-! ## Spans of numbers -/

section Spans

variable (past : α → α → Bool) (succ : α → α) (ranges : List (α × α))

/-- A place is which of the spans it is in and where; `past` tells the end of a span. -/
def spans (origin : α) : Wheel (ℕ × α) α where
  first := (0, origin)
  next p :=
    ranges[p.1]?.bind fun r =>
      if past p.2 r.2 then ranges[p.1 + 1]?.map fun r => (p.1 + 1, r.1)
      else some (p.1, succ p.2)
  face p := p.2

variable (toNat : α → ℕ) (ofNat : ℕ → α)

/-- The numbers of a span. -/
def span (r : α × α) : List α :=
  (List.range' (toNat r.1) (toNat r.2 + 1 - toNat r.1)).map ofNat

/-- What the code takes for the successor counts as long as the end is not reached. -/
structure Counts : Prop where
  inverse : ∀ a, ofNat (toNat a) = a
  injective : ∀ a b, toNat a = toNat b → a = b
  toNat_succ : ∀ a b, toNat a < toNat b → toNat (succ a) = toNat a + 1
  not_past : ∀ a b, toNat a < toNat b → past a b = false

variable {past succ ranges toNat ofNat}

theorem span_self (h : Counts past succ toNat ofNat) (a : α) : span toNat ofNat (a, a) = [a] := by
  have hone : toNat a + 1 - toNat a = 1 := by omega
  rw [span, hone, List.range'_one, List.map_singleton, h.inverse]

theorem span_cons (h : Counts past succ toNat ofNat) {a b : α} (hlt : toNat a < toNat b) :
    span toNat ofNat (a, b) = a :: span toNat ofNat (succ a, b) := by
  have hlength : toNat b + 1 - toNat a = toNat b + 1 - (toNat a + 1) + 1 := by omega
  rw [span, span, h.toNat_succ a b hlt]
  dsimp only
  rw [hlength, List.range'_succ, List.map_cons, h.inverse]

/-- The rest of a span, and what comes after it. -/
theorem lists_span (h : Counts past succ toNat ofNat) {origin a : α} {i : ℕ} {r : α × α}
    (hr : ranges[i]? = some r) (hpast : past r.2 r.2 = true) {rest : List α}
    (hafter : match ranges[i + 1]? with
      | none => rest = []
      | some r' => (spans past succ ranges origin).Lists (i + 1, r'.1) rest)
    (hle : toNat a ≤ toNat r.2) :
    (spans past succ ranges origin).Lists (i, a) (span toNat ofNat (a, r.2) ++ rest) := by
  obtain ⟨n, hn⟩ := Nat.exists_eq_add_of_le hle
  induction n generalizing a with
  | zero =>
    obtain rfl := h.injective _ _ hn.symm
    rw [span_self h]
    have hnext : (spans past succ ranges origin).next (i, r.2) =
        ranges[i + 1]?.map fun r => (i + 1, r.1) := by
      rw [spans]
      dsimp only
      rw [hr, Option.bind_some, if_pos hpast]
    cases hr' : ranges[i + 1]? with
    | none =>
      rw [hr'] at hafter hnext
      rw [hafter]
      exact .last hnext
    | some r' =>
      rw [hr'] at hafter hnext
      exact .turn hnext hafter
  | succ n ih =>
    have hlt : toNat a < toNat r.2 := by omega
    have hsucc := h.toNat_succ a r.2 hlt
    rw [span_cons h hlt, List.cons_append]
    refine @Wheel.Lists.turn _ _ _ _ (i, succ a) _ ?_ (ih (by omega) (by omega))
    rw [spans]
    dsimp only
    rw [hr, Option.bind_some, h.not_past a r.2 hlt, if_neg Bool.false_ne_true]

/-- **The wheel counts** through the spans. -/
theorem lists_spans (h : Counts past succ toNat ofNat) {origin : α} : ∀ {i : ℕ} {r : α × α}
    {later : List (α × α)}, ranges.drop i = r :: later →
    (∀ r ∈ ranges.drop i, toNat r.1 ≤ toNat r.2 ∧ past r.2 r.2 = true) →
    (spans past succ ranges origin).Lists (i, r.1) ((r :: later).flatMap (span toNat ofNat))
  | i, r, later, hdrop, hranges => by
    have hr : ranges[i]? = some r := by
      rw [← List.head?_drop, hdrop, List.head?_cons]
    have hlater : ranges.drop (i + 1) = later := by
      rw [← List.tail_drop, hdrop, List.tail_cons]
    rw [hdrop] at hranges
    obtain ⟨hle, hpast⟩ := hranges r List.mem_cons_self
    rw [List.flatMap_cons]
    refine lists_span h hr hpast ?_ hle
    rw [← List.head?_drop, hlater]
    cases later with
    | nil => rfl
    | cons r' later =>
      refine lists_spans h hlater fun q hq => ?_
      rw [hlater] at hq
      exact hranges q (List.mem_cons_of_mem _ hq)
  termination_by i => ranges.length - i
  decreasing_by
    have hlt : i < ranges.length := by
      by_contra hge
      rw [List.drop_of_length_le (by omega)] at hdrop
      cases hdrop
    omega

/-- The wheel stays in a span whose end is not told. -/
theorem endless_spans {origin : α} {r : α × α} (hnever : ∀ a, past a r.2 = false) :
    (spans past succ ranges origin).Endless fun p => ∃ i, p.1 ≤ i ∧ ranges[i]? = some r := by
  rintro ⟨j, a⟩ ⟨i, hle, hr⟩
  obtain ⟨hi, _⟩ := List.getElem?_eq_some_iff.1 hr
  dsimp only at hle
  have hj : j < ranges.length := by omega
  rw [spans]
  dsimp only
  rw [List.getElem?_eq_getElem hj, Option.bind_some]
  by_cases hpast : past a ranges[j].2 = true
  · have hne : j ≠ i := by
      rintro rfl
      rw [List.getElem?_eq_getElem hj] at hr
      obtain rfl := Option.some.inj hr
      rw [hnever a] at hpast
      cases hpast
    have hj' : j + 1 < ranges.length := by omega
    rw [if_pos hpast, List.getElem?_eq_getElem hj']
    exact ⟨_, rfl, i, by dsimp only; omega, hr⟩
  · rw [if_neg hpast]
    exact ⟨_, rfl, i, hle, hr⟩

end Spans

end Odometer
