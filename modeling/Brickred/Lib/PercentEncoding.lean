import Mathlib.Algebra.BigOperators.Group.List.Basic
import Mathlib.Data.UInt

/-!
# Percent-encoding

The characters RFC 3986 calls unreserved stand for themselves, and `%` with two hexadecimal
digits of either case for a byte.

* `Denotes` — the texts that are percent-encoded, and the bytes they stand for.
* `encodedLength` — the length of the shortest text for given bytes (`Denotes.encodedLength_le`).
-/

set_option autoImplicit false

namespace PercentEncoding

/-- Letters, digits, `-`, `.`, `_` and `~`. -/
def Unreserved (c : UInt8) : Prop :=
  (65 ≤ c ∧ c ≤ 90) ∨ (97 ≤ c ∧ c ≤ 122) ∨ (48 ≤ c ∧ c ≤ 57) ∨ c = 45 ∨ c = 46 ∨ c = 95 ∨ c = 126

instance (c : UInt8) : Decidable (Unreserved c) := inferInstanceAs (Decidable (_ ∨ _))

def hexValue (c : UInt8) : Option ℕ :=
  if 48 ≤ c ∧ c ≤ 57 then some (c.toNat - 48)
  else if 65 ≤ c ∧ c ≤ 70 then some (c.toNat - 55)
  else if 97 ≤ c ∧ c ≤ 102 then some (c.toNat - 87)
  else none

/-- The text `t` stands for the bytes `s`. -/
inductive Denotes : List UInt8 → List UInt8 → Prop
  | nil : Denotes [] []
  | char {c : UInt8} {t s : List UInt8} : Unreserved c → Denotes t s → Denotes (c :: t) (c :: s)
  | escape {high low : UInt8} {x y : ℕ} {t s : List UInt8} :
    hexValue high = some x → hexValue low = some y → Denotes t s →
      Denotes (37 :: high :: low :: t) (UInt8.ofNat (16 * x + y) :: s)

def encodedLength (s : List UInt8) : ℕ := (s.map fun b => if Unreserved b then 1 else 3).sum

theorem encodedLength_cons (b : UInt8) (s : List UInt8) :
    encodedLength (b :: s) = (if Unreserved b then 1 else 3) + encodedLength s := by
  rw [encodedLength, List.map_cons, List.sum_cons]
  rfl

theorem encodedLength_bounds (s : List UInt8) :
    s.length ≤ encodedLength s ∧ encodedLength s ≤ s.length * 3 := by
  induction s with
  | nil => exact ⟨le_rfl, le_rfl⟩
  | cons b s ih =>
    rw [encodedLength_cons, List.length_cons]
    split <;> omega

theorem encodedLength_append (s t : List UInt8) :
    encodedLength (s ++ t) = encodedLength s + encodedLength t := by
  rw [encodedLength, List.map_append, List.sum_append]
  rfl

theorem encodedLength_take_le (n : ℕ) (s : List UInt8) :
    encodedLength (s.take n) ≤ encodedLength s := by
  have h := encodedLength_append (s.take n) (s.drop n)
  rw [List.take_append_drop] at h
  omega

/-- No text for the bytes is shorter. -/
theorem Denotes.encodedLength_le {t s : List UInt8} (h : Denotes t s) :
    encodedLength s ≤ t.length := by
  induction h with
  | nil => exact le_rfl
  | char hc _ ih =>
    rw [encodedLength_cons, if_pos hc, List.length_cons]
    omega
  | escape _ _ _ ih =>
    rw [encodedLength_cons, List.length_cons, List.length_cons, List.length_cons]
    split <;> omega

end PercentEncoding
