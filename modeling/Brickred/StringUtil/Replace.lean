import Brickred.StringUtil.Split

/-!
# `replace` (model of `string_util.cc`)

The string is edited while it is searched: what is in front of `pos` is done, what is behind it has
not been touched.

* `replaceLoop_eq` — so the loop does to the rest what splitting and joining would do.
* `replace_split` — `replace` is `split`, and the pieces joined with the replacement.
* `replace_returns_iff` — when it returns at all: an empty `search` is found for ever.
-/

set_option autoImplicit false

namespace Brickred

namespace StringUtil

/-- `str.find(search, pos)` -/
def findFrom (str search : List UInt8) (pos : Nat) : Option Nat :=
  if str.length < pos then none
  else if search = [] then some pos
  else (Search.firstIndex search (str.drop pos)).map (· + pos)

/-- The loop of `replace`; `none` when it takes more than `fuel` turns. -/
def replaceLoop (search replacement : List UInt8) (maxReplace : Int) :
    Nat → List UInt8 → Nat → Int → Option (List UInt8)
  | 0, _, _, _ => none
  | fuel + 1, ret, pos, count =>
    match findFrom ret search pos with
    | none => some ret
    | some pos =>
      let ret := ret.take pos ++ replacement ++ ret.drop (pos + search.length)
      if maxReplace > 0 ∧ count + 1 ≥ maxReplace then some ret
      else replaceLoop search replacement maxReplace fuel ret (pos + replacement.length) (count + 1)

def replace (fuel : Nat) (str search replacement : List UInt8) (maxReplace : Int) :
    Option (List UInt8) :=
  if maxReplace = 0 then some str else replaceLoop search replacement maxReplace fuel str 0 0

section Replace

variable {str search replacement : List UInt8} {maxReplace maxSplit : Int}

theorem findFrom_append (hne : search ≠ []) (front rest : List UInt8) :
    findFrom (front ++ rest) search front.length =
      (Search.firstIndex search rest).map (· + front.length) := by
  have hle : ¬ (front ++ rest).length < front.length := by
    rw [List.length_append]
    omega
  rw [findFrom, if_neg hle, if_neg hne, List.drop_left]

/-- **One turn and all the others**: the loop joins what `split` would make of the rest. -/
theorem replaceLoop_eq (hne : search ≠ [])
    (hmax : maxReplace < 0 ∧ maxSplit < 0 ∨ 0 < maxReplace ∧ maxSplit = maxReplace + 1) :
    ∀ {fuel fuel' : Nat} {count : Int} (front : List UInt8) {rest : List UInt8},
    rest.length < fuel → rest.length < fuel' → (0 < maxReplace → count < maxReplace) →
    replaceLoop search replacement maxReplace fuel (front ++ rest) front.length count =
      some (front ++ replacement.intercalate (splitFrom search maxSplit fuel' count rest))
  | 0, _, _, _, _, hfuel, _, _ => absurd hfuel (Nat.not_lt_zero _)
  | _, 0, _, _, _, _, hfuel', _ => absurd hfuel' (Nat.not_lt_zero _)
  | fuel + 1, fuel' + 1, count, front, rest, hfuel, hfuel', hcount => by
    have hmore : ¬ (maxSplit > 0 ∧ count + 1 ≥ maxSplit) := by omega
    rw [replaceLoop, findFrom_append hne]
    cases hnext : Search.firstIndex search rest with
    | none =>
      rw [splitFrom_none hnext, List.intercalate_singleton]
      rfl
    | some next =>
      have hle := Search.firstIndex_le hnext hne
      have hpos := List.length_pos_iff.2 hne
      have htake : (front ++ rest).take (next + front.length) = front ++ rest.take next := by
        rw [Nat.add_comm, List.take_length_add_append]
      have hdrop : (front ++ rest).drop (next + front.length + search.length) =
          rest.drop (next + search.length) := by
        rw [Nat.add_right_comm, Nat.add_comm, List.drop_length_add_append]
      -- the piece and the replacement are done
      have hfront : next + front.length + replacement.length =
          (front ++ rest.take next ++ replacement).length := by
        simp only [List.length_append, List.length_take]
        omega
      rw [splitFrom_some hmore hnext, Option.map_some]
      dsimp only
      rw [htake, hdrop, hfront]
      have hlength : (rest.drop (next + search.length)).length < rest.length := by
        rw [List.length_drop]
        omega
      obtain ⟨piece, pieces, hpieces⟩ := List.exists_cons_of_ne_nil
        (splitFrom_ne_nil search maxSplit fuel' (count + 1) (rest.drop (next + search.length)))
      split
      · rename_i hlast
        obtain ⟨k, rfl⟩ : ∃ k, fuel' = k + 1 := Nat.exists_eq_succ_of_ne_zero (by omega)
        rw [splitFrom_last (by omega), List.intercalate_cons_cons, List.intercalate_singleton]
        simp only [List.append_assoc]
      · rename_i hlast
        have hcount' : 0 < maxReplace → count + 1 < maxReplace := by omega
        have hfuels : (rest.drop (next + search.length)).length < fuel ∧
            (rest.drop (next + search.length)).length < fuel' := by omega
        rw [replaceLoop_eq hne hmax (front ++ rest.take next ++ replacement) hfuels.1 hfuels.2
          hcount', hpieces, List.intercalate_cons_cons]
        simp only [List.append_assoc]

/-- **`replace` agrees with `split`**: the result is the pieces joined with the replacement, for
every fuel that exceeds the length of the string. -/
theorem replace_split (hstr : 0 ∉ str) (hsearch : 0 ∉ search) (hne : search ≠ [])
    (replacement : List UInt8) {fuel : Nat} (hfuel : str.length < fuel) (n : Int) :
    (1 ≤ n → n < 2 ^ 31 - 1 → replace fuel str search replacement n =
      some (replacement.intercalate (splitCString str search (n + 1)))) ∧
    (n < 0 → replace fuel str search replacement n =
      some (replacement.intercalate (splitCString str search (-1)))) := by
  have hloop : ∀ {maxReplace maxSplit : Int}, maxReplace ≠ 0 →
      maxReplace < 0 ∧ maxSplit < 0 ∨ 0 < maxReplace ∧ maxSplit = maxReplace + 1 →
      replace fuel str search replacement maxReplace =
        some (replacement.intercalate (splitCString str search maxSplit)) := by
    intro maxReplace maxSplit hzero hmax
    rw [splitCString_eq hstr hsearch, split, if_neg hne, replace, if_neg hzero]
    exact replaceLoop_eq hne hmax [] hfuel (Nat.lt_succ_self _) id
  exact ⟨fun hlow _ => hloop (by omega) (Or.inr ⟨by omega, rfl⟩),
    fun hneg => hloop (by omega) (Or.inl ⟨hneg, by decide⟩)⟩

/-- `"1;1;1"` -/
def ones : List UInt8 := bytes "1;1;1"

theorem replace_ones :
    replace 6 ones [49] [50] 2 = some ([50].intercalate (splitCString ones [49] 3)) ∧
      replace 6 ones [49] [50] (-1) = some ([50].intercalate (splitCString ones [49] (-1))) :=
  have h := fun n =>
    @replace_split ones [49] (by decide) (by decide) (by decide) [50] 6 (by decide) n
  ⟨(h 2).1 (by decide) (by decide), (h (-1)).2 (by decide)⟩

example : replace 6 ones [49] [50] 2 = some (bytes "2;2;1") := by decide

/-! ## An empty string to search for -/

theorem findFrom_nil {pos : Nat} (h : pos ≤ str.length) : findFrom str [] pos = some pos := by
  rw [findFrom, if_neg (Nat.not_lt.2 h), if_pos rfl]

/-- It is found where the search begins, and `pos` stays in the string. -/
theorem replaceLoop_nil {fuel pos : Nat} {ret : List UInt8} (count : Int) (h : pos ≤ ret.length) :
    ∃ ret' : List UInt8, pos + replacement.length ≤ ret'.length ∧
      replaceLoop [] replacement maxReplace (fuel + 1) ret pos count =
        if maxReplace > 0 ∧ count + 1 ≥ maxReplace then some ret'
        else replaceLoop [] replacement maxReplace fuel ret' (pos + replacement.length)
          (count + 1) := by
  refine ⟨ret.take pos ++ replacement ++ ret.drop (pos + 0), ?_, ?_⟩
  · simp only [List.length_append, List.length_take]
    omega
  · rw [replaceLoop, findFrom_nil h]
    rfl

theorem replaceLoop_limited : ∀ {fuel pos : Nat} {count : Int} {ret : List UInt8},
    pos ≤ ret.length → maxReplace - count ≤ fuel → 0 ≤ count → count < maxReplace →
    ∃ result, replaceLoop [] replacement maxReplace fuel ret pos count = some result
  | 0, _, count, _, _, hfuel, _, hcount => by omega
  | fuel + 1, pos, count, ret, hpos, hfuel, hlow, hcount => by
    obtain ⟨ret', hpos', hturn⟩ := @replaceLoop_nil replacement maxReplace fuel pos ret count hpos
    rw [hturn]
    split
    · exact ⟨ret', rfl⟩
    · exact replaceLoop_limited hpos' (by omega) (by omega) (by omega)

theorem replaceLoop_forever (hmax : maxReplace < 0) : ∀ {fuel pos : Nat} {ret : List UInt8}
    (count : Int), pos ≤ ret.length →
    replaceLoop [] replacement maxReplace fuel ret pos count = none
  | 0, _, _, _, _ => rfl
  | fuel + 1, pos, ret, count, hpos => by
    obtain ⟨ret', hpos', hturn⟩ := @replaceLoop_nil replacement maxReplace fuel pos ret count hpos
    rw [hturn, if_neg (by omega)]
    exact replaceLoop_forever hmax (count + 1) hpos'

/-- **`replace` returns** unless it is to replace an empty string without a limit. -/
theorem replace_returns_iff (str search replacement : List UInt8) (maxReplace : Int) :
    (∃ fuel result, replace fuel str search replacement maxReplace = some result) ↔
      search ≠ [] ∨ 0 ≤ maxReplace := by
  unfold replace
  by_cases hzero : maxReplace = 0
  · exact iff_of_true ⟨0, str, if_pos hzero⟩ (Or.inr (Int.le_of_eq hzero.symm))
  by_cases hne : search = []
  · subst hne
    by_cases hmax : 0 ≤ maxReplace
    · refine iff_of_true ⟨maxReplace.toNat, ?_⟩ (Or.inr hmax)
      rw [if_neg hzero]
      exact replaceLoop_limited (Nat.zero_le _) (by omega) (le_refl 0) (by omega)
    · refine iff_of_false ?_ (by simpa using Int.not_le.1 hmax)
      rintro ⟨fuel, result, h⟩
      rw [if_neg hzero, replaceLoop_forever (Int.not_le.1 hmax) 0 (Nat.zero_le _)] at h
      cases h
  · refine iff_of_true ⟨str.length + 1, ?_⟩ (Or.inl hne)
    rw [if_neg hzero]
    obtain hmax | hmax : maxReplace < 0 ∨ 0 < maxReplace := by omega
    · exact ⟨_, replaceLoop_eq hne (Or.inl ⟨hmax, (by decide : (-1 : Int) < 0)⟩) []
        (Nat.lt_succ_self _) (Nat.lt_succ_self _) fun h => absurd h (by omega)⟩
    · exact ⟨_, replaceLoop_eq hne (Or.inr ⟨hmax, rfl⟩) [] (Nat.lt_succ_self _)
        (Nat.lt_succ_self _) id⟩

/-- `replace("a", "", "b")` never does. -/
theorem replace_empty_forever :
    ¬ ∃ fuel result, replace fuel [97] [] [98] (-1) = some result := by
  rintro ⟨fuel, result, h⟩
  rw [replace, if_neg (by decide), replaceLoop_forever (by decide) 0 (Nat.zero_le _)] at h
  cases h

end Replace

end StringUtil

end Brickred
