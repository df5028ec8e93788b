import Brickred.Lib.ComparatorMap
import Brickred.StringUtil

/-!
# `stricmp` and `CaseInsensitiveLess` under any `::tolower`

`::tolower` depends on the locale.  Here it is any function from the characters to `int`; with
`charRank`, the one of the C locale, the two functions are those of `StringUtil`.

* `caseInsensitiveLess_compares` — `CaseInsensitiveLess` compares the strings folded, character by
  character, a prefix being less.
* `incomparable_iff_stricmp` — its ties are what `stricmp` holds of.
* `caseInsensitiveLess_charRank`, `stricmp_charRank` — the C locale.
-/

set_option autoImplicit false

namespace Brickred

namespace StringUtil

namespace Locale

/-- `CaseInsensitiveLess`: the first position below both sizes where the folded characters differ
decides, and when there is none the sizes do. -/
def caseInsensitiveLess (tolower : UInt8 → Int) (lhs rhs : List UInt8) : Bool :=
  match (lhs.zip rhs).find? fun c => tolower c.1 ≠ tolower c.2 with
  | some c => tolower c.1 < tolower c.2
  | none => lhs.length < rhs.length

def stricmp (tolower : UInt8 → Int) (lhs rhs : List UInt8) : Bool :=
  if lhs.length ≠ rhs.length then false
  else (lhs.zip rhs).all fun c => tolower c.1 = tolower c.2

variable (tolower : UInt8 → Int)

/-- **`CaseInsensitiveLess`** is the lexicographic order of the folded strings. -/
theorem caseInsensitiveLess_compares :
    ComparatorMap.Compares (caseInsensitiveLess tolower) (List.map tolower)
  | [], [] => by simp [caseInsensitiveLess]
  | [], c :: rhs => by simp [caseInsensitiveLess]
  | c :: lhs, [] => by simp [caseInsensitiveLess]
  | c₁ :: lhs, c₂ :: rhs => by
    have ih := caseInsensitiveLess_compares lhs rhs
    unfold caseInsensitiveLess at ih ⊢
    rw [List.zip_cons_cons, List.find?_cons, List.map_cons, List.map_cons, List.cons_lt_cons_iff]
    by_cases hc : tolower c₁ = tolower c₂
    · rw [decide_eq_false (not_not.2 hc), List.length_cons, List.length_cons]
      simp only [Nat.add_lt_add_iff_right, hc, lt_irrefl, true_and, false_or]
      exact ih
    · rw [decide_eq_true hc]
      simp only [hc, false_and, or_false, decide_eq_true_eq]

/-- **`stricmp`** compares the folded strings. -/
theorem stricmp_iff : ∀ lhs rhs : List UInt8,
    stricmp tolower lhs rhs = true ↔ lhs.map tolower = rhs.map tolower
  | [], [] => by simp [stricmp]
  | [], c :: rhs => by simp [stricmp]
  | c :: lhs, [] => by simp [stricmp]
  | c₁ :: lhs, c₂ :: rhs => by
    have ih := stricmp_iff lhs rhs
    unfold stricmp at ih ⊢
    rw [List.map_cons, List.map_cons, List.cons.injEq, ← ih, List.length_cons, List.length_cons,
      List.zip_cons_cons, List.all_cons]
    by_cases hlen : lhs.length = rhs.length
    · simp [hlen]
    · simp [hlen]

theorem incomparable_iff_stricmp (lhs rhs : List UInt8) :
    ¬ caseInsensitiveLess tolower lhs rhs = true ∧ ¬ caseInsensitiveLess tolower rhs lhs = true ↔
      stricmp tolower lhs rhs = true :=
  ((caseInsensitiveLess_compares tolower).incomparable_iff lhs rhs).trans
    (stricmp_iff tolower lhs rhs).symm

/-! ## The C locale -/

theorem caseInsensitiveLess_charRank (lhs rhs : List UInt8) :
    caseInsensitiveLess charRank lhs rhs = StringUtil.caseInsensitiveLess lhs rhs :=
  Bool.eq_iff_iff.2 ((caseInsensitiveLess_compares charRank lhs rhs).trans
    (caseInsensitiveLess_iff lhs rhs).symm)

/-- Strings of one rank are equal in lower case. -/
theorem rank_inj {lhs rhs : List UInt8} :
    rank lhs = rank rhs ↔ lhs.map StringUtil.tolower = rhs.map StringUtil.tolower := by
  have hinj : Function.Injective fun b : UInt8 => if b = 255 then (-1 : Int) else b.toNat := by
    intro b c h
    rw [← UInt8.toNat_inj]
    dsimp only at h
    split_ifs at h <;> simp_all
  have hrank : ∀ s, rank s = (s.map StringUtil.tolower).map fun b =>
      if b = 255 then (-1 : Int) else b.toNat := fun s => by
    rw [List.map_map]
    rfl
  rw [hrank, hrank]
  exact (List.map_injective_iff.2 hinj).eq_iff

theorem stricmp_charRank (lhs rhs : List UInt8) :
    stricmp charRank lhs rhs = StringUtil.stricmp lhs rhs := by
  have hlower : StringUtil.stricmp lhs rhs = true ↔
      lhs.map StringUtil.tolower = rhs.map StringUtil.tolower := decide_eq_true_iff
  exact Bool.eq_iff_iff.2 ((stricmp_iff charRank lhs rhs).trans (rank_inj.trans hlower.symm))

end Locale

end StringUtil

end Brickred
