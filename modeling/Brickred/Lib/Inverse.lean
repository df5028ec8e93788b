import Mathlib.Logic.Function.Basic

/-!
# Two maps that are inverse to each other

A partial injection kept as two maps, one for each direction.

* `Inverse` — the maps say the same.
* `Inverse.insert`, `Inverse.erase` — a pair is added to both, or taken out of both.
-/

set_option autoImplicit false

def Inverse {α β : Type*} (f : α → Option β) (g : β → Option α) : Prop :=
  ∀ a b, f a = some b ↔ g b = some a

namespace Inverse

variable {α β : Type*} {f : α → Option β} {g : β → Option α} {a : α} {b : β}

theorem empty : Inverse (fun _ : α => (none : Option β)) fun _ => none :=
  fun _ _ => ⟨nofun, nofun⟩

theorem right_none (h : Inverse f g) (hb : ∀ a, f a ≠ some b) : g b = none := by
  cases hg : g b with
  | none => rfl
  | some a => exact absurd ((h a b).2 hg) (hb a)

variable [DecidableEq α] [DecidableEq β]

theorem insert (h : Inverse f g) (ha : f a = none) (hb : g b = none) :
    Inverse (Function.update f a (some b)) (Function.update g b (some a)) := by
  intro x y
  by_cases hx : x = a
  · subst hx
    rw [Function.update_self]
    by_cases hy : y = b
    · rw [hy, Function.update_self]
      exact iff_of_true rfl rfl
    · rw [Function.update_of_ne hy, ← h x y, ha]
      exact iff_of_false (fun hb => hy (Option.some.inj hb).symm) nofun
  · rw [Function.update_of_ne hx]
    by_cases hy : y = b
    · rw [hy, Function.update_self, h x b, hb]
      exact iff_of_false nofun fun ha => hx (Option.some.inj ha).symm
    · rw [Function.update_of_ne hy]
      exact h x y

theorem erase (h : Inverse f g) (hab : f a = some b) :
    Inverse (Function.update f a none) (Function.update g b none) := by
  intro x y
  by_cases hx : x = a
  · subst hx
    rw [Function.update_self]
    by_cases hy : y = b
    · rw [hy, Function.update_self]
      exact iff_of_false nofun nofun
    · rw [Function.update_of_ne hy, ← h x y, hab]
      exact iff_of_false nofun fun hb => hy (Option.some.inj hb).symm
  · rw [Function.update_of_ne hx]
    by_cases hy : y = b
    · rw [hy, Function.update_self, h x b, (h a b).1 hab]
      exact iff_of_false (fun ha => hx (Option.some.inj ha).symm) nofun
    · rw [Function.update_of_ne hy]
      exact h x y

end Inverse
