import Brickred.StringUtil

/-!
# The two case foldings of `string_util.cc`

`stricmp` and `CaseInsensitiveLess` fold with `::tolower`; `toLower` calls `::toupper` and folds the
letters the other way.  Between the two ranges of letters there are six more characters.  The order
of `std::string` is that of the lists of bytes.

* `stricmp_iff_toLower` — the foldings agree on which strings are equal.
* `caseInsensitiveLess_iff_tolower` — with `::tolower` in `toLower` they would agree on the order.
* `foldings_agree_iff` — when they do.
-/

set_option autoImplicit false

namespace Brickred

namespace StringUtil

theorem toupper_toNat (b : UInt8) :
    (toupper b).toNat = if 97 ≤ b.toNat ∧ b.toNat ≤ 122 then b.toNat - 32 else b.toNat := by
  unfold toupper
  simp only [UInt8.le_iff_toNat_le, UInt8.reduceToNat]
  split
  · have hb := b.toNat_lt
    rw [UInt8.toNat_sub, show (32 : UInt8).toNat = 32 from rfl]
    omega
  · rfl

theorem tolower_toNat (b : UInt8) :
    (tolower b).toNat = if 65 ≤ b.toNat ∧ b.toNat ≤ 90 then b.toNat + 32 else b.toNat := by
  unfold tolower
  simp only [UInt8.le_iff_toNat_le, UInt8.reduceToNat]
  split
  · rw [UInt8.toNat_add, show (32 : UInt8).toNat = 32 from rfl]
    omega
  · rfl

/-! ## Equality -/

theorem toupper_tolower (b : UInt8) : toupper (tolower b) = toupper b := by
  rw [← UInt8.toNat_inj, toupper_toNat, tolower_toNat, toupper_toNat]
  split_ifs <;> omega

theorem tolower_toupper (b : UInt8) : tolower (toupper b) = tolower b := by
  rw [← UInt8.toNat_inj, tolower_toNat, toupper_toNat, tolower_toNat]
  split_ifs <;> omega

/-- **Equality**: what `stricmp` holds of are the strings that `toLower` makes equal. -/
theorem stricmp_iff_toLower (a b : List UInt8) : stricmp a b = true ↔ toLower a = toLower b := by
  have hup : ∀ s : List UInt8, (s.map tolower).map toupper = s.map toupper := fun s => by
    rw [List.map_map]
    exact List.map_congr_left fun c _ => toupper_tolower c
  have hlow : ∀ s : List UInt8, (s.map toupper).map tolower = s.map tolower := fun s => by
    rw [List.map_map]
    exact List.map_congr_left fun c _ => tolower_toupper c
  unfold stricmp toLower
  rw [decide_eq_true_iff]
  constructor
  · intro h
    rw [← hup a, ← hup b, h]
  · intro h
    rw [← hlow a, ← hlow b, h]

/-! ## Order -/

/-- Only characters of ASCII. -/
def Ascii (s : List UInt8) : Prop := ∀ b ∈ s, b < 128

def isLetter (b : UInt8) : Bool := (65 ≤ b && b ≤ 90) || (97 ≤ b && b ≤ 122)

/-- One of the characters between the ranges of letters, `[` up to the backquote. -/
def isBetween (b : UInt8) : Bool := 91 ≤ b && b ≤ 96

/-- One character, or one letter in two cases. -/
def SameLetter (x y : UInt8) : Prop :=
  x = y ∨ isLetter x = true ∧ isLetter y = true ∧ x % 32 = y % 32

instance (x y : UInt8) : Decidable (SameLetter x y) := inferInstanceAs (Decidable (_ ∨ _))

/-- A letter against a character between the ranges. -/
def Straddles (x y : UInt8) : Prop :=
  isLetter x = true ∧ isBetween y = true ∨ isBetween x = true ∧ isLetter y = true

instance (x y : UInt8) : Decidable (Straddles x y) := inferInstanceAs (Decidable (_ ∨ _))

/-- Where the strings first differ, but for the case, not a letter stands against a character
between the ranges. -/
def FoldsAlike : List UInt8 → List UInt8 → Prop
  | x :: a, y :: b => if SameLetter x y then FoldsAlike a b else ¬ Straddles x y
  | _, _ => True

instance decidableFoldsAlike : ∀ a b : List UInt8, Decidable (FoldsAlike a b)
  | [], [] => .isTrue trivial
  | [], _ :: _ => .isTrue trivial
  | _ :: _, [] => .isTrue trivial
  | x :: a, y :: b =>
    have := decidableFoldsAlike a b
    inferInstanceAs (Decidable (if SameLetter x y then FoldsAlike a b else ¬ Straddles x y))

section Bytes

variable {x y : UInt8}

theorem charRank_of_ascii (h : x < 128) : charRank x = (tolower x).toNat := by
  have hx := UInt8.lt_iff_toNat_lt.1 h
  have hlow : (tolower x).toNat < 128 := by
    rw [tolower_toNat]
    change x.toNat < 128 at hx
    split_ifs <;> omega
  exact if_neg fun h255 => absurd (h255 ▸ hlow) (by decide)

theorem tolower_eq_iff : tolower x = tolower y ↔ SameLetter x y := by
  unfold SameLetter isLetter
  simp only [← UInt8.toNat_inj, tolower_toNat, UInt8.toNat_mod, UInt8.le_iff_toNat_le,
    UInt8.reduceToNat, Bool.or_eq_true, Bool.and_eq_true, decide_eq_true_eq]
  split_ifs <;> omega

theorem toupper_eq_iff : toupper x = toupper y ↔ SameLetter x y := by
  unfold SameLetter isLetter
  simp only [← UInt8.toNat_inj, toupper_toNat, UInt8.toNat_mod, UInt8.le_iff_toNat_le,
    UInt8.reduceToNat, Bool.or_eq_true, Bool.and_eq_true, decide_eq_true_eq]
  split_ifs <;> omega

/-- Both cases put two characters in one order, unless they straddle an end of a range. -/
theorem tolower_lt_iff_toupper_lt :
    (tolower x < tolower y ↔ toupper x < toupper y) ↔ ¬ Straddles x y := by
  unfold Straddles isLetter isBetween
  simp only [tolower_toNat, toupper_toNat, UInt8.le_iff_toNat_le, UInt8.lt_iff_toNat_lt,
    UInt8.reduceToNat, Bool.or_eq_true, Bool.and_eq_true, decide_eq_true_eq]
  split_ifs <;> omega

end Bytes

/-- **With `::tolower`** the order of `std::string` would be that of `CaseInsensitiveLess`. -/
theorem caseInsensitiveLess_iff_tolower : ∀ {a b : List UInt8}, Ascii a → Ascii b →
    (caseInsensitiveLess a b = true ↔ a.map tolower < b.map tolower)
  | [], [], _, _ => by simp [caseInsensitiveLess]
  | [], y :: b, _, _ => by simp [caseInsensitiveLess]
  | x :: a, [], _, _ => by simp [caseInsensitiveLess]
  | x :: a, y :: b, ha, hb => by
    have ih : caseInsensitiveLess a b = true ↔ a.map tolower < b.map tolower :=
      caseInsensitiveLess_iff_tolower (fun c hc => ha c (List.mem_cons_of_mem x hc))
        fun c hc => hb c (List.mem_cons_of_mem y hc)
    have hx := charRank_of_ascii (ha x List.mem_cons_self)
    have hy := charRank_of_ascii (hb y List.mem_cons_self)
    rw [caseInsensitiveLess, List.map_cons, List.map_cons, List.cons_lt_cons_iff, hx, hy]
    by_cases heq : tolower x = tolower y
    · rw [if_neg (by simp [heq]), ih]
      simp [heq]
    · have hne : (tolower x).toNat ≠ (tolower y).toNat := mt UInt8.toNat_inj.1 heq
      rw [if_pos (by exact_mod_cast hne), decide_eq_true_iff, UInt8.lt_iff_toNat_lt]
      simp [heq]

/-- The two cases order two strings alike when they do so where the strings first differ. -/
theorem tolower_order_iff : ∀ a b : List UInt8,
    (a.map tolower < b.map tolower ↔ a.map toupper < b.map toupper) ↔ FoldsAlike a b
  | [], [] => by simp [FoldsAlike]
  | [], y :: b => by simp [FoldsAlike]
  | x :: a, [] => by simp [FoldsAlike]
  | x :: a, y :: b => by
    have ih := tolower_order_iff a b
    rw [FoldsAlike]
    simp only [List.map_cons, List.cons_lt_cons_iff, tolower_eq_iff, toupper_eq_iff]
    by_cases hsame : SameLetter x y
    · have hlow : ¬ tolower x < tolower y := by simp [tolower_eq_iff.2 hsame]
      have hup : ¬ toupper x < toupper y := by simp [toupper_eq_iff.2 hsame]
      simp only [hsame, hlow, hup, true_and, false_or, if_true]
      exact ih
    · simp only [hsame, false_and, or_false, if_false]
      exact tolower_lt_iff_toupper_lt

/-- **When the foldings agree**: unless, where the strings first differ but for the case, a letter
stands against one of the characters between the ranges. -/
theorem foldings_agree_iff {a b : List UInt8} (ha : Ascii a) (hb : Ascii b) :
    (caseInsensitiveLess a b = true ↔ toLower a < toLower b) ∧
      (stricmp a b = true ↔ toLower a = toLower b) ↔ FoldsAlike a b := by
  rw [and_iff_left (stricmp_iff_toLower a b), caseInsensitiveLess_iff_tolower ha hb]
  exact tolower_order_iff a b

theorem foldings_agree_names :
    (caseInsensitiveLess (bytes "X_Date") (bytes "x_host") = true ↔
        toLower (bytes "X_Date") < toLower (bytes "x_host")) ∧
      (stricmp (bytes "X_Date") (bytes "x_host") = true ↔
        toLower (bytes "X_Date") = toLower (bytes "x_host")) :=
  (foldings_agree_iff (by unfold Ascii; decide) (by unfold Ascii; decide)).2 (by decide)

/-- **The underscore** precedes the letters for `CaseInsensitiveLess`, and follows them in what
`toLower` makes of them. -/
theorem foldings_disagree :
    ¬ ∀ a b : List UInt8, Ascii a → Ascii b →
      (caseInsensitiveLess a b = true ↔ toLower a < toLower b) ∧
        (stricmp a b = true ↔ toLower a = toLower b) := by
  intro h
  have hless := (h (bytes "x_id") (bytes "xpid") (by unfold Ascii; decide)
    (by unfold Ascii; decide)).1
  exact absurd (hless.1 (by decide)) (by decide)

end StringUtil

end Brickred
