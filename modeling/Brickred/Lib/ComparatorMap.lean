import Mathlib.Order.RelClasses
import Brickred.Lib.SortedMap

/-!
# Maps under a comparator

A `std::map` knows its keys through a comparator `less` only: the entries stand in its order, and
two keys neither of which is less than the other are one key.  When `less` compares ranks, the map
is the one sorted by the rank.

* `Compares.strictWeakOrder`, `Compares.incomparable_iff` — comparing ranks is a strict weak order,
  and the keys of one rank are its ties.
* `find_eq`, `assign_eq`, `erase_eq` — what the calls do is what `SortedMap` does.
-/

set_option autoImplicit false

universe u v w

namespace ComparatorMap

variable {α : Type u} {γ : Type v} {β : Type w}

/-- The entries from `lower_bound(k)` on. -/
def lowerBound (less : α → α → Bool) (es : List (α × β)) (k : α) : List (α × β) :=
  es.dropWhile fun e => less e.1 k

/-- The entries from `upper_bound(k)` on. -/
def upperBound (less : α → α → Bool) (es : List (α × β)) (k : α) : List (α × β) :=
  es.dropWhile fun e => !less k e.1

/-- `find(k)` -/
def find (less : α → α → Bool) (es : List (α × β)) (k : α) : Option β :=
  match lowerBound less es k with
  | [] => none
  | e :: _ => if less k e.1 then none else some e.2

/-- `m[k] = v` -/
def assign (less : α → α → Bool) (es : List (α × β)) (k : α) (v : β) : List (α × β) :=
  es.takeWhile (fun e => less e.1 k) ++
    match lowerBound less es k with
    | [] => [(k, v)]
    | e :: rest => if less k e.1 then (k, v) :: e :: rest else (e.1, v) :: rest

/-- `erase(k)`: the entries of `equal_range(k)` go. -/
def erase (less : α → α → Bool) (es : List (α × β)) (k : α) : List (α × β) :=
  es.takeWhile (fun e => less e.1 k) ++ upperBound less (lowerBound less es k) k

/-- The comparator compares ranks. -/
def Compares [LT γ] (less : α → α → Bool) (rank : α → γ) : Prop :=
  ∀ a b, less a b = true ↔ rank a < rank b

section Compares

variable [LinearOrder γ] {less : α → α → Bool} {rank : α → γ} {k : α} {e : α × β}
  {es : List (α × β)}

theorem Compares.incomparable_iff (h : Compares less rank) (a b : α) :
    ¬ less a b = true ∧ ¬ less b a = true ↔ rank a = rank b := by
  rw [h a b, h b a, not_lt, not_lt]
  exact ⟨fun hab => le_antisymm hab.2 hab.1, fun hab => ⟨hab.ge, hab.le⟩⟩

/-- **Comparing ranks is a strict weak order.** -/
theorem Compares.strictWeakOrder (h : Compares less rank) :
    IsStrictWeakOrder α fun a b => less a b = true where
  irrefl a := fun ha => lt_irrefl _ ((h a a).1 ha)
  trans a b c := fun hab hbc => (h a c).2 (((h a b).1 hab).trans ((h b c).1 hbc))
  incomp_trans a b c := fun hab hbc =>
    (h.incomparable_iff a c).2
      (((h.incomparable_iff a b).1 hab).trans ((h.incomparable_iff b c).1 hbc))

/-! ## Finding -/

theorem lowerBound_cons (e : α × β) (es : List (α × β)) (k : α) :
    lowerBound less (e :: es) k = if less e.1 k then lowerBound less es k else e :: es := by
  unfold lowerBound
  rw [List.dropWhile_cons]

/-- Behind the entries of greater rank nothing is found. -/
theorem findEntry_of_lt : ∀ {es : List (α × β)}, (∀ e ∈ es, rank k < rank e.1) →
    SortedMap.findEntry rank es k = none
  | [], _ => rfl
  | e :: es, h => by
    rw [SortedMap.findEntry_cons, if_neg (h e List.mem_cons_self).ne']
    exact findEntry_of_lt fun e' he' => h e' (List.mem_cons_of_mem e he')

/-- **`find`** finds the entry of the rank of the key. -/
theorem find_eq (h : Compares less rank) (k : α) : ∀ {es : List (α × β)},
    (es.Pairwise fun e e' => rank e.1 < rank e'.1) →
    find less es k = SortedMap.findEntry rank es k
  | [], _ => rfl
  | e :: es, hs => by
    obtain ⟨hhead, htail⟩ := List.pairwise_cons.1 hs
    have ih := find_eq h k htail
    unfold find at ih ⊢
    rw [lowerBound_cons, SortedMap.findEntry_cons]
    by_cases hlt : rank e.1 < rank k
    · rw [if_pos ((h _ _).2 hlt), if_neg hlt.ne]
      exact ih
    · rw [if_neg (mt (h _ _).1 hlt)]
      dsimp only
      by_cases hgt : rank k < rank e.1
      · rw [if_pos ((h _ _).2 hgt), if_neg hgt.ne']
        exact (findEntry_of_lt fun e' he' => hgt.trans (hhead e' he')).symm
      · have heq : rank e.1 = rank k := le_antisymm (not_lt.1 hgt) (not_lt.1 hlt)
        rw [if_neg (mt (h _ _).1 hgt), if_pos heq]

/-! ## Storing and erasing -/

/-- **`m[k] = v`** stores where the rank of the key belongs. -/
theorem assign_eq (h : Compares less rank) (k : α) (v : β) : ∀ es : List (α × β),
    assign less es k v = SortedMap.insertEntry rank k v es
  | [] => rfl
  | e :: es => by
    have ih := assign_eq h k v es
    unfold assign at ih ⊢
    unfold SortedMap.insertEntry
    rw [lowerBound_cons, List.takeWhile_cons]
    by_cases hlt : rank e.1 < rank k
    · rw [if_pos ((h _ _).2 hlt), if_pos ((h _ _).2 hlt), if_neg hlt.asymm, if_pos hlt, ← ih]
      rfl
    · rw [if_neg (mt (h _ _).1 hlt), if_neg (mt (h _ _).1 hlt)]
      dsimp only
      by_cases hgt : rank k < rank e.1
      · rw [if_pos ((h _ _).2 hgt), if_pos hgt]
        rfl
      · rw [if_neg (mt (h _ _).1 hgt), if_neg hgt, if_neg hlt]
        rfl

theorem filter_of_lt (hes : ∀ e ∈ es, rank k < rank e.1) :
    (es.filter fun e => rank e.1 ≠ rank k) = es :=
  List.filter_eq_self.2 fun e he => decide_eq_true (hes e he).ne'

/-- Behind an entry that is not less stand the entries of greater rank. -/
theorem upperBound_eq (h : Compares less rank) (hle : ¬ rank e.1 < rank k)
    (hhead : ∀ e' ∈ es, rank e.1 < rank e'.1) :
    upperBound less (e :: es) k = (e :: es).filter fun e => rank e.1 ≠ rank k := by
  have hes : ∀ e' ∈ es, rank k < rank e'.1 := fun e' he' => (not_lt.1 hle).trans_lt (hhead e' he')
  unfold upperBound
  rw [List.dropWhile_cons, List.filter_cons, filter_of_lt hes]
  by_cases hgt : rank k < rank e.1
  · rw [(h _ _).2 hgt, if_neg (by decide), if_pos (decide_eq_true hgt.ne')]
  · have heq : rank e.1 = rank k := le_antisymm (not_lt.1 hgt) (not_lt.1 hle)
    rw [Bool.eq_false_iff.2 (mt (h _ _).1 hgt), if_pos (by decide),
      if_neg (by simpa using heq)]
    cases es with
    | nil => rfl
    | cons e' es =>
      rw [List.dropWhile_cons, (h _ _).2 (hes e' List.mem_cons_self), if_neg (by decide)]

/-- **`erase`** takes the entry of the rank of the key out. -/
theorem erase_eq (h : Compares less rank) (k : α) : ∀ {es : List (α × β)},
    (es.Pairwise fun e e' => rank e.1 < rank e'.1) →
    erase less es k = es.filter fun e => rank e.1 ≠ rank k
  | [], _ => rfl
  | e :: es, hs => by
    obtain ⟨hhead, htail⟩ := List.pairwise_cons.1 hs
    have ih := erase_eq h k htail
    unfold erase at ih ⊢
    rw [lowerBound_cons, List.takeWhile_cons]
    by_cases hlt : rank e.1 < rank k
    · rw [if_pos ((h _ _).2 hlt), if_pos ((h _ _).2 hlt), List.filter_cons,
        if_pos (decide_eq_true hlt.ne), List.cons_append, ih]
    · rw [if_neg (mt (h _ _).1 hlt), if_neg (mt (h _ _).1 hlt)]
      exact upperBound_eq h hlt hhead

end Compares

end ComparatorMap
