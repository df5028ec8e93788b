import Brickred.StringUtil

/-!
# `split` (model of `string_util.cc`)

There are two of them: `split` takes a pointer and a length and uses `std::search`, `splitCString`
takes a C string and uses `strstr`.

* `splitFrom_pieces` — what the loop of `split` has still to find.
* `split_inverse` — `split` is the inverse of joining, and on C strings both are the same.
-/

set_option autoImplicit false

namespace Brickred

namespace StringUtil

/-- Where `strstr` finds the needle. -/
def strstr (haystack needle : List UInt8) : Option Nat :=
  if cStr needle = [] then some 0 else Search.firstIndex (cStr needle) (cStr haystack)

/-- The loop over the C string at `last`; `fuel` above its length is enough. -/
def splitCStringFrom (sep : List UInt8) (maxSplit : Int) :
    Nat → Int → List UInt8 → List (List UInt8)
  | 0, _, last => [cStr last]
  | fuel + 1, count, last =>
    if maxSplit > 0 ∧ count + 1 ≥ maxSplit then [cStr last]
    else
      match strstr last sep with
      | none => [cStr last]
      | some next =>
        last.take next ::
          splitCStringFrom sep maxSplit fuel (count + 1) (last.drop (next + (cStr sep).length))

/-- The overload for C strings. -/
def splitCString (str sep : List UInt8) (maxSplit : Int) : List (List UInt8) :=
  if cStr sep = [] then [] else splitCStringFrom sep maxSplit (str.length + 1) 0 str

section Split

variable {s sep : List UInt8} {maxSplit : Int}

theorem splitFrom_ne_nil (sep : List UInt8) (maxSplit : Int) (fuel : Nat) (count : Int)
    (s : List UInt8) : splitFrom sep maxSplit fuel count s ≠ [] := by
  cases fuel with
  | zero => exact List.cons_ne_nil _ _
  | succ fuel =>
    rw [splitFrom]
    split
    · exact List.cons_ne_nil _ _
    · split <;> exact List.cons_ne_nil _ _

/-- **The loop** of `split`, with what the counter still allows. -/
theorem splitFrom_pieces (hsep : sep ≠ []) : ∀ {fuel : Nat} {count limit : Int} {s : List UInt8},
    s.length < fuel → maxSplit ≤ 0 ∧ limit ≤ 0 ∨ 0 < limit ∧ limit = maxSplit - count ∧ 0 ≤ count →
    Search.Pieces sep s limit (splitFrom sep maxSplit fuel count s)
  | 0, _, _, _, hfuel, _ => absurd hfuel (Nat.not_lt_zero _)
  | fuel + 1, count, limit, s, hfuel, hlimit => by
    rw [splitFrom]
    split
    · exact Search.Pieces.single hsep (Or.inl (by omega))
    · rename_i hcount
      cases hnext : Search.firstIndex sep s with
      | none => exact Search.Pieces.single hsep (Or.inr hnext)
      | some next =>
        have hpos := List.length_pos_iff.2 hsep
        have hle := Search.firstIndex_le hnext hsep
        have hrest : (s.drop (next + sep.length)).length < fuel := by
          rw [List.length_drop]
          omega
        exact @Search.Pieces.cons _ _ s _ sep limit (limit - 1) _ hsep hnext (by omega)
          (splitFrom_pieces hsep hrest (by omega))

theorem splitCStringFrom_eq (hsep : 0 ∉ sep) (hne : sep ≠ []) : ∀ {fuel : Nat} {count : Int}
    {s : List UInt8}, 0 ∉ s →
    splitCStringFrom sep maxSplit fuel count s = splitFrom sep maxSplit fuel count s
  | 0, _, s, hs => by rw [splitCStringFrom, splitFrom, cStr_of_notMem hs]
  | fuel + 1, count, s, hs => by
    have hstrstr : strstr s sep = Search.firstIndex sep s := by
      rw [strstr, cStr_of_notMem hsep, cStr_of_notMem hs, if_neg hne]
    rw [splitCStringFrom, splitFrom, hstrstr, cStr_of_notMem hs, cStr_of_notMem hsep]
    cases Search.firstIndex sep s with
    | none => rfl
    | some next =>
      have hrest : 0 ∉ s.drop (next + sep.length) := fun h => hs (List.mem_of_mem_drop h)
      dsimp only
      rw [splitCStringFrom_eq hsep hne hrest]

theorem splitCString_eq (hs : 0 ∉ s) (hsep : 0 ∉ sep) :
    splitCString s sep maxSplit = split s sep maxSplit := by
  unfold splitCString split
  rw [cStr_of_notMem hsep]
  split
  · rfl
  · rename_i hne
    exact splitCStringFrom_eq hsep hne hs

/-- **`split` is the inverse of joining**: the pieces joined give the string, no piece contains
the separator but the last one where `maxSplit` leaves occurrences over, and there is one piece
more than there are occurrences unless `maxSplit` is less.  The overload for C strings makes the
same pieces. -/
theorem split_inverse (hsep : sep ≠ []) (s : List UInt8) (maxSplit : Int) :
    Search.Pieces sep s maxSplit (split s sep maxSplit) ∧
      (0 ∉ s → 0 ∉ sep → splitCString s sep maxSplit = split s sep maxSplit) := by
  refine ⟨?_, fun hs hnul => splitCString_eq hs hnul⟩
  rw [split, if_neg hsep]
  exact splitFrom_pieces hsep (Nat.lt_succ_self _) (by omega)

/-- `";1;2;3;"` -/
def semicolons : List UInt8 := bytes ";1;2;3;"

theorem split_semicolons : Search.Pieces [59] semicolons (-1) (split semicolons [59] (-1)) ∧
    splitCString semicolons [59] (-1) = split semicolons [59] (-1) :=
  have h := @split_inverse [59] (by decide) semicolons (-1)
  ⟨h.1, h.2 (by decide) (by decide)⟩

example : split semicolons [59] (-1) = [[], [49], [50], [51], []] := by decide

end Split

end StringUtil

end Brickred
