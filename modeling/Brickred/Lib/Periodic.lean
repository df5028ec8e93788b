import Mathlib.Data.List.Rotate

/-!
# Words that go round

When `m` in front of `r` is `r` in front of `w`, then `r` repeats `m`, and `w` is a rotation of `m`:
a word that is passed round a ring of queues, with `r` behind it and `w` still on the way.

* `isRotated_of_append_eq` — what is on the way.
* `prefix_repeat_of_append_eq` — what is behind.
-/

set_option autoImplicit false

namespace Periodic

variable {α : Type*} {m r w : List α}

/-- Either `r` ends within the first `m`, or it begins with `m` and the rest goes on alike. -/
theorem append_eq_cases (h : m ++ r = r ++ w) :
    (∃ t, m = r ++ t ∧ w = t ++ r) ∨ ∃ r', r = m ++ r' ∧ m ++ r' = r' ++ w := by
  rcases List.append_eq_append_iff.1 h with ⟨r', hr, hw⟩ | ⟨t, hm, hw⟩
  · refine Or.inr ⟨r', hr, ?_⟩
    rw [← hw]
    exact hr.symm
  · exact Or.inl ⟨t, hm, hw⟩

theorem isRotated_of_append_eq (h : m ++ r = r ++ w) : w.IsRotated m := by
  by_cases hm : m = []
  · subst hm
    have hw : w = [] := List.append_right_eq_self.1 h.symm
    rw [hw]
  induction hn : r.length using Nat.strong_induction_on generalizing r with
  | _ n ih =>
    rcases append_eq_cases h with ⟨t, rfl, rfl⟩ | ⟨r', rfl, h'⟩
    · exact List.isRotated_append
    · refine ih r'.length ?_ h' rfl
      rw [← hn, List.length_append]
      exact Nat.lt_add_of_pos_left (List.length_pos_of_ne_nil hm)

theorem prefix_repeat_of_append_eq (hm : m ≠ []) (h : m ++ r = r ++ w) :
    ∃ n, r <+: (List.replicate n m).flatten := by
  induction hn : r.length using Nat.strong_induction_on generalizing r with
  | _ n ih =>
    rcases append_eq_cases h with ⟨t, rfl, rfl⟩ | ⟨r', rfl, h'⟩
    · exact ⟨1, t, by simp⟩
    · obtain ⟨k, hk⟩ := ih r'.length (by
        rw [← hn, List.length_append]
        exact Nat.lt_add_of_pos_left (List.length_pos_of_ne_nil hm)) h' rfl
      refine ⟨k + 1, ?_⟩
      rw [List.replicate_succ, List.flatten_cons]
      exact (List.prefix_append_right_inj m).2 hk

end Periodic
