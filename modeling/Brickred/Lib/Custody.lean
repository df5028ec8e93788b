import Mathlib.Data.List.Nodup

/-!
# Custody

Things are handed from holder to holder: `held h` lists what `h` holds.

* `Custody held live` — every live thing has exactly one holder, which holds it once, and nothing
  else is held.
* `Custody.create`, `Custody.drop`, `Custody.move` — what a new thing, a discarded one and one
  that changes hands have to do to the lists for custody to be kept.
-/

set_option autoImplicit false

structure Custody {H A : Type*} (held : H → List A) (live : A → Prop) : Prop where
  nodup : ∀ h, (held h).Nodup
  holder : ∀ a, live a → ∃! h, a ∈ held h
  live_of_mem : ∀ h, ∀ a ∈ held h, live a

namespace Custody

variable {H A : Type*} {held held' : H → List A} {live live' : A → Prop} {a : A} {h : H}

theorem eq_of_mem {h₁ h₂ : H} (hc : Custody held live) (h₁mem : a ∈ held h₁)
    (h₂mem : a ∈ held h₂) : h₁ = h₂ :=
  (hc.holder a (hc.live_of_mem h₁ a h₁mem)).unique h₁mem h₂mem

theorem congr (hc : Custody held live) (hheld : ∀ h, held' h = held h)
    (hlive : ∀ a, live' a ↔ live a) : Custody held' live' := by
  obtain rfl : held' = held := funext hheld
  obtain rfl : live' = live := funext fun a => propext (hlive a)
  exact hc

/-- A new thing comes into the hands of `h`. -/
theorem create (hc : Custody held live) (ha : ¬ live a) (hgain : (held' h).Perm (a :: held h))
    (hsame : ∀ k, k ≠ h → held' k = held k) : Custody held' fun x => x = a ∨ live x := by
  have hnone : ∀ k, a ∉ held k := fun k hk => ha (hc.live_of_mem k a hk)
  refine ⟨fun k => ?_, fun x hx => ?_, fun k x hx => ?_⟩
  · by_cases hk : k = h
    · rw [hk, hgain.nodup_iff]
      exact List.nodup_cons.2 ⟨hnone h, hc.nodup h⟩
    · rw [hsame k hk]
      exact hc.nodup k
  · obtain rfl | hx := hx
    · refine ⟨h, hgain.mem_iff.2 (List.mem_cons_self ..), fun k hk => ?_⟩
      by_contra hne
      exact hnone k (hsame k hne ▸ hk)
    · obtain ⟨k₀, hk₀, hunique⟩ := hc.holder x hx
      have hmem : ∀ k, x ∈ held' k ↔ x ∈ held k := fun k => by
        by_cases hk : k = h
        · subst hk
          rw [hgain.mem_iff, List.mem_cons, or_iff_right]
          rintro rfl
          exact ha hx
        · rw [hsame k hk]
      exact ⟨k₀, (hmem k₀).2 hk₀, fun k hk => hunique k ((hmem k).1 hk)⟩
  · by_cases hk : k = h
    · subst hk
      exact (List.mem_cons.1 (hgain.mem_iff.1 hx)).imp_right (hc.live_of_mem k x)
    · exact .inr (hc.live_of_mem k x (hsame k hk ▸ hx))

/-- What `h` discards is not held any more. -/
theorem drop (hc : Custody held live) (hloss : (held h).Perm (a :: held' h))
    (hsame : ∀ k, k ≠ h → held' k = held k) : Custody held' fun x => x ≠ a ∧ live x := by
  have hmine : a ∈ held h := hloss.mem_iff.2 (List.mem_cons_self ..)
  have hnodup := List.nodup_cons.1 (hloss.nodup_iff.1 (hc.nodup h))
  have hmem : ∀ k x, x ∈ held' k ↔ x ≠ a ∧ x ∈ held k := fun k x => by
    by_cases hk : k = h
    · subst hk
      rw [hloss.mem_iff, List.mem_cons]
      refine ⟨fun hx => ⟨?_, .inr hx⟩, fun hx => hx.2.resolve_left hx.1⟩
      rintro rfl
      exact hnodup.1 hx
    · rw [hsame k hk]
      refine ⟨fun hx => ⟨?_, hx⟩, And.right⟩
      rintro rfl
      exact hk (hc.eq_of_mem hx hmine)
  refine ⟨fun k => ?_, fun x hx => ?_, fun k x hx => ?_⟩
  · by_cases hk : k = h
    · rw [hk]
      exact hnodup.2
    · rw [hsame k hk]
      exact hc.nodup k
  · obtain ⟨k₀, hk₀, hunique⟩ := hc.holder x hx.2
    exact ⟨k₀, (hmem k₀ x).2 ⟨hx.1, hk₀⟩, fun k hk => hunique k ((hmem k x).1 hk).2⟩
  · obtain ⟨hne, hx⟩ := (hmem k x).1 hx
    exact ⟨hne, hc.live_of_mem k x hx⟩

open Classical in
/-- **A thing changes hands.** -/
theorem move (hc : Custody held live) (h₁ h₂ : H) (hne : h₁ ≠ h₂)
    (hloss : (held h₁).Perm (a :: held' h₁))
    (hgain : (held' h₂).Perm (a :: held h₂)) (hsame : ∀ k, k ≠ h₁ → k ≠ h₂ → held' k = held k) :
    Custody held' live := by
  have hlive : live a := hc.live_of_mem h₁ a (hloss.mem_iff.2 (List.mem_cons_self ..))
  -- on the way, nobody holds it
  have hdrop : Custody (fun k => if k = h₂ then held h₂ else held' k) fun x => x ≠ a ∧ live x := by
    refine hc.drop (a := a) (h := h₁) ?_ fun k hk => ?_
    · rwa [if_neg hne]
    · split
      · rename_i h
        rw [h]
      · rename_i h
        exact hsame k hk h
  refine (hdrop.create (a := a) (h := h₂) (fun h => h.1 rfl) ?_ fun k hk => ?_).congr
    (fun _ => rfl) fun x => ?_
  · rwa [if_pos rfl]
  · rw [if_neg hk]
  · refine ⟨fun hx => ?_, fun hx => ?_⟩
    · by_cases h : x = a
      · exact .inl h
      · exact .inr ⟨h, hx⟩
    · obtain rfl | hx := hx
      · exact hlive
      · exact hx.2

end Custody
