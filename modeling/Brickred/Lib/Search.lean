import Mathlib.Data.List.Infix
import Mathlib.Data.Int.Notation

/-!
# The first occurrence of a word

* `firstIndex kw xs` — where the word `kw` first occurs in `xs`.
* `firstIndex_append`, `firstIndex_take` — it is found as soon as it is there, whatever follows.
* `firstIndex_of_notMem` — a word stands behind a front without its first letter.
* `firstIndex_skip` — the search goes past a front the word does not begin in.
* `occurrences` — how often a word occurs without overlaps, counted from the left
  (`occurrences_none`, `occurrences_some`).
* `Pieces` — a list cut at the first of these occurrences (`Pieces.single`, `Pieces.cons`).
-/

set_option autoImplicit false

namespace Search

variable {α : Type*} [DecidableEq α]

def firstIndex (kw : List α) : List α → Option ℕ
  | [] => none
  | x :: xs => if kw <+: x :: xs then some 0 else (firstIndex kw xs).map (· + 1)

variable {kw xs : List α} {n : ℕ}

theorem firstIndex_cons_pos {x : α} (h : kw <+: x :: xs) : firstIndex kw (x :: xs) = some 0 :=
  if_pos h

theorem firstIndex_cons_neg {x : α} (h : ¬ kw <+: x :: xs) :
    firstIndex kw (x :: xs) = (firstIndex kw xs).map (· + 1) := if_neg h

theorem prefix_at_firstIndex : ∀ {xs : List α} {n : ℕ}, firstIndex kw xs = some n →
    kw <+: xs.drop n
  | [], _, h => by cases h
  | x :: xs, n, h => by
    by_cases hp : kw <+: x :: xs
    · rw [firstIndex_cons_pos hp] at h
      cases h
      exact hp
    · rw [firstIndex_cons_neg hp] at h
      obtain ⟨m, hm, rfl⟩ := Option.map_eq_some_iff.1 h
      have ih := prefix_at_firstIndex hm
      exact ih

theorem firstIndex_le (h : firstIndex kw xs = some n) (hn : kw ≠ []) :
    n + kw.length ≤ xs.length := by
  have hlen := (prefix_at_firstIndex h).length_le
  have hpos := List.length_pos_iff.2 hn
  rw [List.length_drop] at hlen
  omega

/-- The word, with what stands before it and behind it. -/
theorem firstIndex_split (h : firstIndex kw xs = some n) :
    xs = xs.take n ++ kw ++ xs.drop (n + kw.length) := by
  obtain ⟨rest, hrest⟩ := prefix_at_firstIndex h
  have hdrop : xs.drop (n + kw.length) = rest := by
    rw [← List.drop_drop, ← hrest, List.drop_left]
  rw [hdrop, List.append_assoc, hrest, List.take_append_drop]

theorem firstIndex_append : ∀ {xs : List α} {n : ℕ}, firstIndex kw xs = some n →
    ∀ ys : List α, firstIndex kw (xs ++ ys) = some n
  | [], _, h, _ => by cases h
  | x :: xs, n, h, ys => by
    rw [List.cons_append]
    by_cases hp : kw <+: x :: xs
    · rw [firstIndex_cons_pos hp] at h
      have hlong : kw <+: x :: (xs ++ ys) := hp.trans (List.prefix_append (x :: xs) ys)
      rw [firstIndex_cons_pos hlong]
      exact h
    · rw [firstIndex_cons_neg hp] at h
      obtain ⟨m, hm, rfl⟩ := Option.map_eq_some_iff.1 h
      -- the word is in `xs`, so it would have to end there
      have hlen : kw.length ≤ (x :: xs).length := by
        have := (prefix_at_firstIndex hm).length_le
        rw [List.length_drop] at this
        rw [List.length_cons]
        omega
      have hp' : ¬ kw <+: x :: (xs ++ ys) := fun hlong =>
        hp (List.prefix_of_prefix_length_le hlong (List.prefix_append (x :: xs) ys) hlen)
      rw [firstIndex_cons_neg hp', firstIndex_append hm ys]
      rfl

theorem firstIndex_take (h : firstIndex kw xs = some n) (hkw : kw ≠ []) :
    firstIndex kw (xs.take (n + kw.length)) = some n := by
  have hle := firstIndex_le h hkw
  cases ht : firstIndex kw (xs.take (n + kw.length)) with
  | some m =>
    have hm := firstIndex_append ht (xs.drop (n + kw.length))
    rw [List.take_append_drop, h] at hm
    exact hm.symm
  | none =>
    exfalso
    have hsplit : xs.take (n + kw.length) = xs.take n ++ kw := by
      conv_lhs => rw [firstIndex_split h]
      rw [List.take_left']
      rw [List.length_append, List.length_take]
      omega
    rw [hsplit] at ht
    clear h hle hsplit
    generalize xs.take n = front at ht
    induction front with
    | nil =>
      obtain ⟨a, as, rfl⟩ := List.exists_cons_of_ne_nil hkw
      rw [List.nil_append, firstIndex_cons_pos (List.prefix_refl _)] at ht
      cases ht
    | cons x front ih =>
      rw [List.cons_append] at ht
      by_cases hp : kw <+: x :: (front ++ kw)
      · rw [firstIndex_cons_pos hp] at ht
        cases ht
      · rw [firstIndex_cons_neg hp, Option.map_eq_none_iff] at ht
        exact ih ht

/-! ## Past a front -/

/-- The word does not begin in the front. -/
theorem firstIndex_skip {ys : List α} : ∀ {front : List α},
    (∀ i < front.length, ¬ kw <+: (front ++ ys).drop i) →
    firstIndex kw (front ++ ys) = (firstIndex kw ys).map (· + front.length)
  | [], _ => by simp
  | x :: front, h => by
    have hhead : ¬ kw <+: x :: (front ++ ys) := h 0 (Nat.zero_lt_succ _)
    have hrest : ∀ i < front.length, ¬ kw <+: (front ++ ys).drop i := fun i hi =>
      h (i + 1) (Nat.succ_lt_succ hi)
    rw [List.cons_append, firstIndex_cons_neg hhead, firstIndex_skip hrest, Option.map_map]
    rfl

variable {a : α} {front : List α}

omit [DecidableEq α] in
theorem not_prefix_of_notMem {ys : List α} (h : a ∉ front) :
    ∀ i < front.length, ¬ a :: kw <+: (front ++ ys).drop i := by
  intro i hi hp
  rw [List.drop_append_of_le_length (Nat.le_of_lt hi), List.drop_eq_getElem_cons hi,
    List.cons_append, List.cons_prefix_cons] at hp
  exact h (hp.1 ▸ List.getElem_mem hi)

/-- **The word behind a front** without its first letter. -/
theorem firstIndex_of_notMem (h : a ∉ front) (ys : List α) :
    firstIndex (a :: kw) (front ++ (a :: kw ++ ys)) = some front.length := by
  rw [firstIndex_skip (not_prefix_of_notMem h), List.cons_append,
    firstIndex_cons_pos (by rw [← List.cons_append]; exact List.prefix_append _ _)]
  simp

theorem firstIndex_eq_none (h : a ∉ xs) : firstIndex (a :: kw) xs = none := by
  have hskip := @firstIndex_skip _ _ (a :: kw) [] xs (not_prefix_of_notMem h)
  rw [List.append_nil] at hskip
  rw [hskip]
  rfl

theorem firstIndex_none_iff (hkw : kw ≠ []) : ∀ {xs : List α},
    firstIndex kw xs = none ↔ ¬ kw <:+: xs
  | [] => iff_of_true rfl fun h => hkw (List.infix_nil.1 h)
  | x :: xs => by
    by_cases hp : kw <+: x :: xs
    · rw [firstIndex_cons_pos hp]
      exact iff_of_false nofun (not_not.2 hp.isInfix)
    · rw [firstIndex_cons_neg hp, Option.map_eq_none_iff, firstIndex_none_iff hkw,
        List.infix_cons_iff, or_iff_right hp]

/-- The front of the first occurrence does not contain the word. -/
theorem firstIndex_front (hkw : kw ≠ []) (h : firstIndex kw xs = some n) :
    ¬ kw <:+: xs.take n := by
  rw [← firstIndex_none_iff hkw]
  cases ht : firstIndex kw (xs.take n) with
  | none => rfl
  | some m =>
    have hm := firstIndex_append ht (xs.drop n)
    rw [List.take_append_drop, h] at hm
    cases hm
    have hle := firstIndex_le ht hkw
    have hpos := List.length_pos_iff.2 hkw
    rw [List.length_take] at hle
    omega

/-! ## Counting -/

/-- The scan from the left; `k` letters still belong to the last occurrence. -/
def countFrom (kw : List α) : ℕ → List α → ℕ
  | _, [] => 0
  | k + 1, _ :: xs => countFrom kw k xs
  | 0, x :: xs => if kw <+: x :: xs then countFrom kw (kw.length - 1) xs + 1 else countFrom kw 0 xs

/-- The number of occurrences that do not overlap, the leftmost one first. -/
def occurrences (kw xs : List α) : ℕ := countFrom kw 0 xs

theorem countFrom_eq : ∀ (k : ℕ) (xs : List α), countFrom kw k xs = occurrences kw (xs.drop k)
  | 0, _ => rfl
  | _ + 1, [] => rfl
  | k + 1, _ :: xs => countFrom_eq k xs

theorem occurrences_none : ∀ {xs : List α}, firstIndex kw xs = none → occurrences kw xs = 0
  | [], _ => rfl
  | x :: xs, h => by
    by_cases hp : kw <+: x :: xs
    · rw [firstIndex_cons_pos hp] at h
      cases h
    · rw [firstIndex_cons_neg hp, Option.map_eq_none_iff] at h
      rw [occurrences, countFrom, if_neg hp]
      exact occurrences_none h

theorem occurrences_some (hkw : kw ≠ []) : ∀ {xs : List α} {n : ℕ}, firstIndex kw xs = some n →
    occurrences kw xs = occurrences kw (xs.drop (n + kw.length)) + 1
  | [], _, h => by cases h
  | x :: xs, n, h => by
    by_cases hp : kw <+: x :: xs
    · rw [firstIndex_cons_pos hp] at h
      cases h
      obtain ⟨k, hk⟩ := Nat.exists_eq_succ_of_ne_zero (List.length_pos_iff.2 hkw).ne'
      rw [occurrences, countFrom, if_pos hp, countFrom_eq, hk, Nat.zero_add]
      rfl
    · rw [firstIndex_cons_neg hp] at h
      obtain ⟨m, hm, rfl⟩ := Option.map_eq_some_iff.1 h
      rw [occurrences, countFrom, if_neg hp, Nat.add_right_comm]
      exact occurrences_some hkw hm

/-! ## Cutting -/

/-- `parts` are what is between the occurrences of `sep` in `xs`; if `limit` is positive there are
at most as many, and the last one has the rest of the occurrences in it. -/
structure Pieces (sep xs : List α) (limit : ℤ) (parts : List (List α)) : Prop where
  ne_nil : parts ≠ []
  join : sep.intercalate parts = xs
  front : ∀ part ∈ parts.dropLast, ¬ sep <:+: part
  last : ∀ part ∈ parts.getLast?, sep <:+: part → 0 < limit ∧ limit < occurrences sep xs + 1
  length : (parts.length : ℤ) =
    if 0 < limit then min limit (occurrences sep xs + 1) else occurrences sep xs + 1

variable {sep : List α} {limit limit' : ℤ} {parts : List (List α)}

/-- Nothing is cut where there is nothing to cut, or where a single piece is allowed. -/
theorem Pieces.single (hsep : sep ≠ []) (h : limit = 1 ∨ firstIndex sep xs = none) :
    Pieces sep xs limit [xs] := by
  refine ⟨List.cons_ne_nil _ _, List.intercalate_singleton, nofun, ?_, ?_⟩
  · intro part hpart hin
    rw [List.getLast?_singleton, Option.mem_some_iff] at hpart
    subst hpart
    obtain rfl | hnone := h
    · cases hfirst : firstIndex sep xs with
      | none => exact absurd hin ((firstIndex_none_iff hsep).1 hfirst)
      | some n =>
        rw [occurrences_some hsep hfirst]
        omega
    · exact absurd hin ((firstIndex_none_iff hsep).1 hnone)
  · rw [List.length_singleton]
    obtain rfl | hnone := h
    · rw [if_pos Int.one_pos]
      omega
    · rw [occurrences_none hnone]
      split <;> omega

/-- The first piece, and those of what follows the separator. -/
theorem Pieces.cons (hsep : sep ≠ []) (h : firstIndex sep xs = some n)
    (hlimit : limit ≤ 0 ∧ limit' ≤ 0 ∨ 1 < limit ∧ limit' = limit - 1)
    (hrest : Pieces sep (xs.drop (n + sep.length)) limit' parts) :
    Pieces sep xs limit (xs.take n :: parts) := by
  have hocc := occurrences_some hsep h
  obtain ⟨part, parts, rfl⟩ := List.exists_cons_of_ne_nil hrest.ne_nil
  refine ⟨List.cons_ne_nil _ _, ?_, ?_, ?_, ?_⟩
  · rw [List.intercalate_cons_cons, hrest.join]
    exact (firstIndex_split h).symm
  · intro p hp
    rw [List.dropLast_cons_cons, List.mem_cons] at hp
    obtain rfl | hp := hp
    · exact firstIndex_front hsep h
    · exact hrest.front p hp
  · intro p hp hin
    rw [List.getLast?_cons_cons] at hp
    have hlast := hrest.last p hp hin
    omega
  · have hlength := hrest.length
    rw [List.length_cons, hocc]
    obtain ⟨hle, hle'⟩ | ⟨hlt, rfl⟩ := hlimit
    · rw [if_neg (by omega)] at hlength ⊢
      omega
    · rw [if_pos (by omega)] at hlength ⊢
      omega

end Search
