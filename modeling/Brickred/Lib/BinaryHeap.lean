import Mathlib.Logic.Equiv.Basic
import Mathlib.Order.Lattice

/-!
# The order of an array-embedded binary min-heap

The heap is a key function `v : ℕ → β` on the slots `1 … n`; the parent of slot `i` is
slot `i / 2`.  Nothing is said about how the slots are stored: a sift loop over pointers or
records uses these lemmas through the keys it reads, and an exchange of two slots is the
composition of the keys with `Equiv.swap`.

* `IsHeap` — every slot holds a key not below its parent's.
* `UpAt v n i` — the heap order up to the edge above slot `i` (the sift towards the root).
* `DownAt v n i` — the heap order up to the edges below slot `i` (the sift towards the leaves).

Principal results: `UpAt.exchange` / `UpAt.isHeap` and `DownAt.exchange` / `DownAt.isHeap` (one
turn of each sift, and the end of it), `upAt_push` (a new last slot), `downAt_fill` (a hole
filled from the last slot, when the filler is not below the hole's parent), `IsHeap.root_le`.
-/

set_option autoImplicit false

namespace BinaryHeap

variable {β : Type*} [LinearOrder β] {v w : ℕ → β} {n i c p : ℕ}

/-- Min-heap order on the slots `1 … n`. -/
def IsHeap (v : ℕ → β) (n : ℕ) : Prop := ∀ i, 2 ≤ i → i ≤ n → v (i / 2) ≤ v i

theorem IsHeap.root_le (h : IsHeap v n) : ∀ i, 1 ≤ i → i ≤ n → v 1 ≤ v i := by
  intro i
  induction i using Nat.strongRecOn with
  | ind i ih =>
    intro h1 hn
    rcases (show i = 1 ∨ 2 ≤ i by omega) with rfl | h2
    · exact le_refl _
    · exact (ih (i / 2) (by omega) (by omega) (by omega)).trans (h i h2 hn)

theorem IsHeap.congr {m : ℕ} (h : IsHeap v n) (hmn : m ≤ n)
    (hw : ∀ k, 1 ≤ k → k ≤ m → w k = v k) : IsHeap w m := by
  intro k h2 hk
  rw [hw k (by omega) hk, hw (k / 2) (by omega) (by omega)]
  exact h k h2 (by omega)

/-- Heap order everywhere but on the edge from slot `i` to its parent. -/
structure UpAt (v : ℕ → β) (n i : ℕ) : Prop where
  except : ∀ k, 2 ≤ k → k ≤ n → k ≠ i → v (k / 2) ≤ v k
  grand : ∀ c, 2 ≤ c → c ≤ n → c / 2 = i → 2 ≤ i → v (i / 2) ≤ v c

/-- Heap order everywhere but on the edges from slot `i` to its children. -/
structure DownAt (v : ℕ → β) (n i : ℕ) : Prop where
  except : ∀ k, 2 ≤ k → k ≤ n → k / 2 ≠ i → v (k / 2) ≤ v k
  grand : ∀ c, 2 ≤ c → c ≤ n → c / 2 = i → 2 ≤ i → v (i / 2) ≤ v c

/-! ## Sifting towards the root -/

/-- The sift stops: slot `i` is the root or is not below its parent. -/
theorem UpAt.isHeap (h : UpAt v n i) (hstop : 2 ≤ i → v (i / 2) ≤ v i) : IsHeap v n := by
  intro k h2 hn
  by_cases hk : k = i
  · subst hk; exact hstop h2
  · exact h.except k h2 hn hk

/-- One turn of the sift: slot `i` trades places with its parent. -/
theorem UpAt.exchange (h : UpAt v n i) (hi : 2 ≤ i) (hle : v i ≤ v (i / 2)) (hn : i ≤ n) :
    UpAt (v ∘ Equiv.swap (i / 2) i) n (i / 2) := by
  have hq : ∀ k, k ≠ i → k ≠ i / 2 → Equiv.swap (i / 2) i k = k := fun k h1 h2 =>
    Equiv.swap_apply_of_ne_of_ne h2 h1
  constructor
  · intro k h2 hkn hk
    simp only [Function.comp_apply]
    by_cases hki : k = i
    · subst hki
      rw [Equiv.swap_apply_left, Equiv.swap_apply_right]; exact hle
    · rw [hq k hki hk]
      by_cases hpi : k / 2 = i
      · -- a child of the old slot now has the old parent above it
        rw [hpi, Equiv.swap_apply_right]
        exact h.grand k h2 hkn hpi hi
      · by_cases hpq : k / 2 = i / 2
        · -- the sibling
          rw [hpq, Equiv.swap_apply_left]
          exact hle.trans (hpq ▸ h.except k h2 hkn hki)
        · rw [hq _ hpi hpq]; exact h.except k h2 hkn hki
  · intro c h2 hcn hc hq2
    simp only [Function.comp_apply]
    have hup : v (i / 2 / 2) ≤ v (i / 2) := h.except (i / 2) hq2 (by omega) (by omega)
    rw [hq (i / 2 / 2) (by omega) (by omega)]
    by_cases hci : c = i
    · subst hci; rw [Equiv.swap_apply_right]; exact hup
    · rw [hq c hci (by omega)]
      exact hup.trans (hc ▸ h.except c h2 hcn hci)

/-- A new key in a new last slot. -/
theorem upAt_push (h : IsHeap v n) (hw : ∀ k, 1 ≤ k → k ≤ n → w k = v k) :
    UpAt w (n + 1) (n + 1) := by
  constructor
  · intro k h2 hk hne
    rw [hw k (by omega) (by omega), hw (k / 2) (by omega) (by omega)]
    exact h k h2 (by omega)
  · intro c _ hc hc2 _
    omega

/-! ## Sifting towards the leaves -/

/-- The sift stops: slot `i` is not above any of its children. -/
theorem DownAt.isHeap (h : DownAt v n i)
    (hstop : ∀ c, 2 ≤ c → c ≤ n → c / 2 = i → v i ≤ v c) : IsHeap v n := by
  intro k h2 hn
  by_cases hk : k / 2 = i
  · rw [hk]; exact hstop k h2 hn hk
  · exact h.except k h2 hn hk

theorem IsHeap.downAt (h : IsHeap v n) : DownAt v n i := by
  refine ⟨fun k h2 hk _ => h k h2 hk, fun c h2 hc hci hi2 => ?_⟩
  exact (h i hi2 (by omega)).trans (hci ▸ h c h2 hc)

/-- One turn of the sift: slot `i` trades places with its least child `c`. -/
theorem DownAt.exchange (h : DownAt v n i) (hi : 1 ≤ i) (hc : c / 2 = i) (hcn : c ≤ n)
    (hle : v c ≤ v i) (hsib : ∀ d, 2 ≤ d → d ≤ n → d / 2 = i → v c ≤ v d) :
    DownAt (v ∘ Equiv.swap i c) n c := by
  have hq : ∀ k, k ≠ i → k ≠ c → Equiv.swap i c k = k := fun k h1 h2 =>
    Equiv.swap_apply_of_ne_of_ne h1 h2
  constructor
  · intro k h2 hkn hkc
    simp only [Function.comp_apply]
    by_cases hk : k = c
    · subst hk
      rw [hc, Equiv.swap_apply_left, Equiv.swap_apply_right]; exact hle
    · by_cases hki : k = i
      · -- the child that moves up is not below the parent of its new slot
        subst hki
        rw [Equiv.swap_apply_left, hq (k / 2) (by omega) hkc]
        exact h.grand c (by omega) hcn hc h2
      · rw [hq k hki hk]
        by_cases hpi : k / 2 = i
        · rw [hpi, Equiv.swap_apply_left]; exact hsib k h2 hkn hpi
        · rw [hq (k / 2) hpi hkc]; exact h.except k h2 hkn hpi
  · intro d h2 hdn hd _
    simp only [Function.comp_apply]
    rw [hc, Equiv.swap_apply_left, hq d (by omega) (by omega)]
    exact hd ▸ h.except d h2 hdn (by omega)

/-- A hole at slot `p` filled with the key of the last slot, which goes away. -/
theorem downAt_fill (h : IsHeap v n) (hp : 1 ≤ p) (hpn : p ≤ n) (hfill : w p = v n)
    (hw : ∀ k, 1 ≤ k → k < n → k ≠ p → w k = v k) (hok : 2 ≤ p → v (p / 2) ≤ v n) :
    DownAt w (n - 1) p := by
  constructor
  · intro k h2 hk hne
    by_cases hkp : k = p
    · subst hkp
      rw [hfill, hw (k / 2) (by omega) (by omega) hne]; exact hok h2
    · rw [hw k (by omega) (by omega) hkp, hw (k / 2) (by omega) (by omega) hne]
      exact h k h2 (by omega)
  · intro c h2 hc hcp hp2
    rw [hw (p / 2) (by omega) (by omega) (by omega), hw c (by omega) (by omega) (by omega)]
    exact (h p hp2 hpn).trans (hcp ▸ h c h2 (by omega))

end BinaryHeap
