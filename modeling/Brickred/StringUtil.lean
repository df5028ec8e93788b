import Mathlib.Data.List.DropRight
import Mathlib.Data.List.Lex
import Mathlib.Data.Nat.Digits.Lemmas
import Mathlib.Algebra.Group.Int.Defs
import Mathlib.Algebra.Group.Nat.Even
import Brickred.Lib.Search
import Brickred.MachineInt

/-!
# `string_util` (model of `string_util.cc`), and what is used of the C library

A `std::string` is the list of its bytes.  A C function sees the bytes of `c_str()` up to the
first NUL only (`cStr`).

* `split`, `trim`, `find` — and what they do to text that was put together.
* `charRun` — characters that follow one another, as the tables of the codecs are made of.
* `CaseInsensitiveLess` — is the order of the ranks.
* `atoi`, `scanHex` (`sscanf("%x")`), `toString` — `atoi_toString`: reading what was printed.
-/

set_option autoImplicit false

namespace Brickred

namespace StringUtil

/-- What holds of all members of a list is checked on the list. -/
instance decidableForallMem {α : Type} (p : α → Prop) [DecidablePred p] (xs : List α) :
    Decidable (∀ x, x ∈ xs → p x) := List.decidableBAll p xs

/-- A literal of ASCII characters. -/
def bytes (s : String) : List UInt8 := s.toList.map fun c => UInt8.ofNat c.toNat

def crlf : List UInt8 := [13, 10]

/-- What a C function sees of `c_str()`. -/
def cStr (s : List UInt8) : List UInt8 := s.takeWhile (· ≠ 0)

/-- The position `string_util::find` returns a pointer to. -/
def find (str keyword : List UInt8) : Option Nat :=
  if keyword = [] then none else Search.firstIndex keyword str

/-- The loop of `split`, with `count` and `last`; `fuel` above the length of `last` is enough. -/
def splitFrom (sep : List UInt8) (maxSplit : Int) : Nat → Int → List UInt8 → List (List UInt8)
  | 0, _, last => [last]
  | fuel + 1, count, last =>
    if maxSplit > 0 ∧ count + 1 ≥ maxSplit then [last]
    else
      match Search.firstIndex sep last with
      | none => [last]
      | some next =>
        last.take next :: splitFrom sep maxSplit fuel (count + 1) (last.drop (next + sep.length))

def split (str sep : List UInt8) (maxSplit : Int) : List (List UInt8) :=
  if sep = [] then [] else splitFrom sep maxSplit (str.length + 1) 0 str

/-- The characters `trim` removes unless told otherwise. -/
def blanks : List UInt8 := [32, 9]

def ltrim (str ws : List UInt8) : List UInt8 := str.dropWhile (· ∈ ws)

def rtrim (str ws : List UInt8) : List UInt8 := str.rdropWhile (· ∈ ws)

def trim (str : List UInt8) : List UInt8 := rtrim (ltrim str blanks) blanks

/-- `::toupper` in the C locale. -/
def toupper (b : UInt8) : UInt8 := if 97 ≤ b ∧ b ≤ 122 then b - 32 else b

/-- `::tolower` in the C locale. -/
def tolower (b : UInt8) : UInt8 := if 65 ≤ b ∧ b ≤ 90 then b + 32 else b

/-- The source's `toLower` calls `::toupper`. -/
def toLower (str : List UInt8) : List UInt8 := str.map toupper

/-- `str.find(search) != std::string::npos` -/
def contains (str search : List UInt8) : Bool :=
  search.isEmpty || (Search.firstIndex search str).isSome

def stricmp (lhs rhs : List UInt8) : Bool := lhs.map tolower = rhs.map tolower

/-- What `::tolower` returns of a `char`, which is signed: in the table of glibc the characters from
`0x80` on stand behind the others, and `0xff` is `EOF`. -/
def charRank (b : UInt8) : Int := if tolower b = 255 then -1 else (tolower b).toNat

def caseInsensitiveLess : List UInt8 → List UInt8 → Bool
  | c₁ :: lhs, c₂ :: rhs =>
    if charRank c₁ ≠ charRank c₂ then charRank c₁ < charRank c₂ else caseInsensitiveLess lhs rhs
  | lhs, rhs => lhs.length < rhs.length

/-- Strings of one rank are equal but for the case. -/
def rank (s : List UInt8) : List Int := s.map charRank

/-! ## Runs of characters -/

/-- `count` characters from `first` on. -/
def charRun (first count : Nat) : List UInt8 := (List.range' first count).map UInt8.ofNat

section CharRun

variable {c : UInt8} {first count i : Nat}

theorem ofNat_eq_iff (h : first < 256) : UInt8.ofNat first = c ↔ first = c.toNat := by
  rw [← UInt8.toNat_inj, UInt8.toNat_ofNat_of_lt' h]

theorem mem_charRun (h : first + count ≤ 256) :
    c ∈ charRun first count ↔ first ≤ c.toNat ∧ c.toNat < first + count := by
  rw [charRun, List.mem_map]
  constructor
  · rintro ⟨n, hn, hc⟩
    have hrange := List.mem_range'_1.1 hn
    rwa [← (ofNat_eq_iff (by omega)).1 hc]
  · exact fun hc => ⟨c.toNat, List.mem_range'_1.2 hc, UInt8.ofNat_toNat⟩

theorem findIdx?_charRun : ∀ {count first : Nat}, first + count ≤ 256 →
    (charRun first count).findIdx? (· = c) =
      if first ≤ c.toNat ∧ c.toNat < first + count then some (c.toNat - first) else none
  | 0, first, _ => by
    rw [if_neg (by omega)]
    rfl
  | count + 1, first, h => by
    have ih := @findIdx?_charRun count (first + 1) (by omega)
    rw [charRun, List.range'_succ, List.map_cons, List.findIdx?_cons]
    by_cases hc : UInt8.ofNat first = c
    · have hfirst := (ofNat_eq_iff (by omega)).1 hc
      rw [if_pos (decide_eq_true hc), if_pos (by omega), hfirst, Nat.sub_self]
    · have hfirst : first ≠ c.toNat := fun heq => hc ((ofNat_eq_iff (by omega)).2 heq)
      rw [if_neg (by rwa [decide_eq_true_eq])]
      change ((charRun (first + 1) count).findIdx? (· = c)).map (· + 1) = _
      rw [ih]
      by_cases hrange : first + 1 ≤ c.toNat ∧ c.toNat < first + 1 + count
      · have hrange' : first ≤ c.toNat ∧ c.toNat < first + (count + 1) := by omega
        rw [if_pos hrange, if_pos hrange', Option.map_some]
        congr 1
        omega
      · have hrange' : ¬ (first ≤ c.toNat ∧ c.toNat < first + (count + 1)) := by omega
        rw [if_neg hrange, if_neg hrange', Option.map_none]

theorem charRun_getElem? :
    (charRun first count)[i]? = if i < count then some (UInt8.ofNat (first + i)) else none := by
  rw [charRun, List.getElem?_map]
  by_cases h : i < count
  · rw [if_pos h, List.getElem?_range' h, Nat.one_mul]
    rfl
  · rw [if_neg h, List.getElem?_eq_none (by rw [List.length_range']; omega)]
    rfl

@[simp] theorem charRun_length : (charRun first count).length = count := by
  rw [charRun, List.length_map, List.length_range']

end CharRun

/-! ## Numbers -/

def isSpace (b : UInt8) : Bool := b = 32 || (9 ≤ b && b ≤ 13)

def digitValue (b : UInt8) : Option Nat :=
  if 48 ≤ b ∧ b ≤ 57 then some (b.toNat - 48)
  else if 97 ≤ b ∧ b ≤ 122 then some (b.toNat - 87)
  else if 65 ≤ b ∧ b ≤ 90 then some (b.toNat - 55)
  else none

/-- The value of the digits the text begins with. -/
def readDigits (base : Nat) : Nat → List UInt8 → Nat
  | acc, [] => acc
  | acc, b :: bs =>
    match digitValue b with
    | none => acc
    | some d => if d < base then readDigits base (acc * base + d) bs else acc

/-- The sign a number begins with: whether it is `-`, and the rest. -/
def readSign : List UInt8 → Bool × List UInt8
  | [] => (false, [])
  | b :: bs => if b = 45 then (true, bs) else if b = 43 then (false, bs) else (false, b :: bs)

/-- `strtol` saturates, and its `long` becomes an `int`. -/
def atoi (str : List UInt8) : Int :=
  let (negative, text) := readSign ((cStr str).dropWhile isSpace)
  let value := readDigits 10 0 text
  if negative then toInt (max (-2 ^ 63) (-(value : Int)))
  else toInt (min (2 ^ 63 - 1) (value : Int))

/-- The hexadecimal digits, behind `0x` if there is one; `none` when there is no digit. -/
def readHex (text : List UInt8) : Option Nat :=
  match text with
  | [] => none
  | b :: bs =>
    match digitValue b with
    | none => none
    | some d =>
      if d < 16 then
        if b = 48 ∧ (bs.head? = some 120 ∨ bs.head? = some 88) then
          some (readDigits 16 0 bs.tail)
        else some (readDigits 16 d bs)
      else none

/-- `sscanf(str, "%x", …)`: the value stored, or `none` when nothing is converted.  `strtoul`
saturates, and its `unsigned long` becomes an `unsigned int`. -/
def scanHex (str : List UInt8) : Option Nat :=
  let (negative, text) := readSign ((cStr str).dropWhile isSpace)
  (readHex text).map fun value =>
    (if 2 ^ 64 ≤ value then 2 ^ 64 - 1
      else if negative then (2 ^ 64 - value) % 2 ^ 64 else value) % 2 ^ 32

def digitChar (d : Nat) : UInt8 := UInt8.ofNat (48 + d)

/-- `"%lu"` -/
def toString (n : Nat) : List UInt8 :=
  if n = 0 then [48] else (Nat.digits 10 n).reverse.map digitChar

/-- `"%d"` -/
def intToString (i : Int) : List UInt8 :=
  if i < 0 then 45 :: toString (-i).toNat else toString i.toNat

/-! ## Ranks -/

/-- **`CaseInsensitiveLess` is an order.** -/
theorem caseInsensitiveLess_iff : ∀ lhs rhs : List UInt8,
    caseInsensitiveLess lhs rhs = true ↔ rank lhs < rank rhs
  | [], [] => by simp [caseInsensitiveLess, rank]
  | [], c :: rhs => by simp [caseInsensitiveLess, rank]
  | c :: lhs, [] => by simp [caseInsensitiveLess, rank]
  | c₁ :: lhs, c₂ :: rhs => by
    have ih := caseInsensitiveLess_iff lhs rhs
    unfold rank at ih ⊢
    rw [caseInsensitiveLess, List.map_cons, List.map_cons, List.cons_lt_cons_iff]
    by_cases hc : charRank c₁ = charRank c₂
    · rw [if_neg (not_not.2 hc), ih]
      simp [hc]
    · rw [if_pos hc]
      simp [hc]

/-! ## Text that was put together -/

section Text

variable {s sep : List UInt8} {b : UInt8}

theorem find_eq {keyword : List UInt8} (h : keyword ≠ []) (str : List UInt8) :
    find str keyword = Search.firstIndex keyword str := if_neg h

theorem cStr_of_notMem (h : 0 ∉ s) : cStr s = s := by
  unfold cStr
  rw [List.takeWhile_eq_self_iff]
  intro b hb
  simpa using fun h0 : b = 0 => h (h0 ▸ hb)

theorem splitFrom_none {maxSplit : Int} {fuel : Nat} {count : Int}
    (h : Search.firstIndex sep s = none) : splitFrom sep maxSplit fuel count s = [s] := by
  cases fuel with
  | zero => rfl
  | succ fuel => rw [splitFrom, h]; split <;> rfl

theorem splitFrom_some {maxSplit : Int} {fuel next : Nat} {count : Int}
    (hcount : ¬ (maxSplit > 0 ∧ count + 1 ≥ maxSplit))
    (h : Search.firstIndex sep s = some next) :
    splitFrom sep maxSplit (fuel + 1) count s =
      s.take next :: splitFrom sep maxSplit fuel (count + 1) (s.drop (next + sep.length)) := by
  rw [splitFrom, if_neg hcount, h]

theorem splitFrom_last {maxSplit : Int} {fuel : Nat} {count : Int}
    (hcount : maxSplit > 0 ∧ count + 1 ≥ maxSplit) :
    splitFrom sep maxSplit (fuel + 1) count s = [s] := by
  rw [splitFrom, if_pos hcount]

/-- A word and a separator in front. -/
theorem splitFrom_word {maxSplit : Int} {fuel : Nat} {count : Int} {front rest : List UInt8}
    (hcount : ¬ (maxSplit > 0 ∧ count + 1 ≥ maxSplit)) (h : b ∉ front) :
    splitFrom (b :: sep) maxSplit (fuel + 1) count (front ++ (b :: sep ++ rest)) =
      front :: splitFrom (b :: sep) maxSplit fuel (count + 1) rest := by
  rw [splitFrom_some hcount (Search.firstIndex_of_notMem h rest), List.take_left,
    ← List.drop_drop, List.drop_left, List.drop_left]

/-- **The three parts of a start line.** -/
theorem split_three {first second : List UInt8} (third : List UInt8) (h₁ : 32 ∉ first)
    (h₂ : 32 ∉ second) :
    split (first ++ ([32] ++ (second ++ ([32] ++ third)))) [32] 3 = [first, second, third] := by
  unfold split
  have hlen : (first ++ ([32] ++ (second ++ ([32] ++ third)))).length + 1 =
      (first.length + second.length + third.length) + 1 + 1 + 1 := by
    simp only [List.length_append, List.length_singleton]
    omega
  rw [if_neg (by simp), hlen, splitFrom_word (by omega) h₁, splitFrom_word (by omega) h₂,
    splitFrom_last (by omega)]

/-- Lines with line ends between them. -/
def joinLines (line : List UInt8) (lines : List (List UInt8)) : List UInt8 :=
  line ++ lines.flatMap (crlf ++ ·)

theorem joinLines_cons (line line' : List UInt8) (lines : List (List UInt8)) :
    joinLines line (line' :: lines) = line ++ (crlf ++ joinLines line' lines) := by
  simp [joinLines]

theorem splitFrom_joinLines : ∀ {lines : List (List UInt8)} {line : List UInt8} {fuel : Nat}
    {count : Int}, (∀ l ∈ line :: lines, 13 ∉ l) → lines.length < fuel →
    splitFrom crlf (-1) fuel count (joinLines line lines) = line :: lines
  | [], line, _, _, h, _ => by
    rw [joinLines, List.flatMap_nil, List.append_nil]
    exact splitFrom_none (Search.firstIndex_eq_none (h line List.mem_cons_self))
  | line' :: lines, line, 0, _, _, hfuel => absurd hfuel (Nat.not_lt_zero _)
  | line' :: lines, line, fuel + 1, count, h, hfuel => by
    rw [joinLines_cons]
    refine (splitFrom_word (by omega) (h line List.mem_cons_self)).trans ?_
    rw [List.length_cons] at hfuel
    exact congrArg _ (splitFrom_joinLines (fun l hl => h l (List.mem_cons_of_mem line hl))
      (by omega))

theorem length_le_joinLines : ∀ (lines : List (List UInt8)) (line : List UInt8),
    lines.length ≤ (joinLines line lines).length
  | [], _ => Nat.zero_le _
  | line' :: lines, line => by
    have ih := length_le_joinLines lines line'
    rw [joinLines_cons, List.length_append, List.length_append, List.length_cons]
    show _ ≤ line.length + (2 + _)
    omega

/-- **The lines** of a header block. -/
theorem split_joinLines {line : List UInt8} {lines : List (List UInt8)}
    (h : ∀ l ∈ line :: lines, 13 ∉ l) : split (joinLines line lines) crlf (-1) = line :: lines := by
  unfold split
  rw [if_neg (by decide)]
  exact splitFrom_joinLines h (Nat.lt_succ_of_le (length_le_joinLines lines line))

/-- The search for the empty line goes past a line and its end. -/
theorem firstIndex_line {line rest : List UInt8} (h : 13 ∉ line) (hrest : rest.head? ≠ some 13) :
    Search.firstIndex (crlf ++ crlf) (line ++ (crlf ++ rest)) =
      (Search.firstIndex (crlf ++ crlf) rest).map (· + (line ++ crlf).length) := by
  -- the line end is followed by another letter
  have hend : ∀ i < crlf.length, ¬ crlf ++ crlf <+: (crlf ++ rest).drop i := by
    intro i hi hp
    match i, hi with
    | 0, _ =>
      have hp' := (List.cons_prefix_cons.1 (List.cons_prefix_cons.1 hp).2).2
      obtain ⟨tail, rfl⟩ := hp'
      exact hrest rfl
    | 1, _ => exact absurd (List.cons_prefix_cons.1 hp).1 (by decide)
  have hline : ∀ i < line.length, ¬ crlf ++ crlf <+: (line ++ (crlf ++ rest)).drop i :=
    Search.not_prefix_of_notMem h
  rw [Search.firstIndex_skip hline, Search.firstIndex_skip hend, Option.map_map,
    List.length_append]
  congr 1
  funext n
  show n + crlf.length + line.length = _
  omega

/-- The line end that is followed by another one is the first behind the last line. -/
theorem firstIndex_joinLines (rest : List UInt8) : ∀ {lines : List (List UInt8)}
    {line : List UInt8}, (∀ l ∈ line :: lines, 13 ∉ l) → (∀ l ∈ lines, l ≠ []) →
    Search.firstIndex (crlf ++ crlf) (joinLines line lines ++ (crlf ++ crlf ++ rest)) =
      some (joinLines line lines).length
  | [], line, h, _ => by
    rw [joinLines, List.flatMap_nil, List.append_nil]
    exact Search.firstIndex_of_notMem (h line List.mem_cons_self) rest
  | line' :: lines, line, h, hne => by
    have ih := firstIndex_joinLines rest (fun l hl => h l (List.mem_cons_of_mem line hl))
      fun l hl => hne l (List.mem_cons_of_mem line' hl)
    obtain ⟨c, cs, rfl⟩ := List.exists_cons_of_ne_nil (hne line' List.mem_cons_self)
    have hc : c ≠ 13 := fun hc => h (c :: cs)
      (List.mem_cons_of_mem line List.mem_cons_self) (hc ▸ List.mem_cons_self)
    have hhead : (joinLines (c :: cs) lines ++ (crlf ++ crlf ++ rest)).head? ≠ some 13 :=
      fun h => hc (Option.some.inj h)
    rw [joinLines_cons, List.append_assoc, List.append_assoc,
      firstIndex_line (h line List.mem_cons_self) hhead, ih, Option.map_some]
    simp only [List.length_append]
    congr 1
    omega

/-! ## Blanks -/

/-- Without blanks at the ends. -/
def Trimmed (s : List UInt8) : Prop := ∀ b ∈ blanks, s.head? ≠ some b ∧ s.getLast? ≠ some b

instance (s : List UInt8) : Decidable (Trimmed s) :=
  inferInstanceAs (Decidable (∀ b ∈ blanks, _))

theorem trim_of_trimmed (h : Trimmed s) : trim s = s := by
  have hl : ltrim s blanks = s := by
    unfold ltrim
    cases s with
    | nil => rfl
    | cons a s =>
      refine List.dropWhile_cons_of_neg ?_
      rw [decide_eq_true_eq]
      exact fun ha => (h a ha).1 rfl
  have hr : rtrim s blanks = s := by
    unfold rtrim
    rw [List.rdropWhile_eq_self_iff]
    intro hne
    rw [decide_eq_true_eq]
    exact fun ha => (h _ ha).2 (List.getLast?_eq_some_getLast hne)
  rw [trim, hl, hr]

/-- The blank that is put in front of a value. -/
theorem trim_blank (s : List UInt8) : trim (32 :: s) = trim s := rfl

/-- The blanks that are removed at the ends. -/
theorem trim_ends (s : List UInt8) : ∃ front back, (∀ b ∈ front, b ∈ blanks) ∧
    (∀ b ∈ back, b ∈ blanks) ∧ s = front ++ (trim s ++ back) := by
  refine ⟨s.takeWhile (· ∈ blanks), (ltrim s blanks).rtakeWhile (· ∈ blanks),
    fun b hb => by simpa using List.mem_takeWhile_imp hb,
    fun b hb => by simpa using List.mem_rtakeWhile_imp hb, ?_⟩
  unfold trim rtrim
  rw [List.rdropWhile_append_rtakeWhile]
  exact List.takeWhile_append_dropWhile.symm

end Text

/-! ## Reading numbers that were printed -/

section Numbers

theorem digitChar_value : ∀ d < 10, digitValue (digitChar d) = some d := by decide

theorem digitChar_range : ∀ d < 10, 48 ≤ digitChar d ∧ digitChar d ≤ 57 := by decide

theorem readDigits_map : ∀ {ds : List Nat}, (∀ d ∈ ds, d < 10) → ∀ acc : Nat,
    readDigits 10 acc (ds.map digitChar) = ds.foldl (fun a d => a * 10 + d) acc
  | [], _, _ => rfl
  | d :: ds, h, acc => by
    have hd := h d List.mem_cons_self
    rw [List.map_cons, readDigits, digitChar_value d hd]
    dsimp only
    rw [if_pos hd, readDigits_map fun e he => h e (List.mem_cons_of_mem d he)]
    rfl

theorem mem_toString {n : Nat} {b : UInt8} (h : b ∈ toString n) : 48 ≤ b ∧ b ≤ 57 := by
  unfold toString at h
  split at h
  · rw [List.mem_singleton.1 h]
    decide
  · obtain ⟨d, hd, rfl⟩ := List.mem_map.1 h
    exact digitChar_range d (Nat.digits_lt_base (by decide) (List.mem_reverse.1 hd))

theorem toString_ne_nil (n : Nat) : toString n ≠ [] := by
  unfold toString
  split
  · simp
  · rename_i hn
    simpa using Nat.digits_ne_nil_iff_ne_zero.2 hn

theorem readDigits_toString (n : Nat) : readDigits 10 0 (toString n) = n := by
  unfold toString
  split
  · rename_i hn
    rw [hn]
    rfl
  · rw [readDigits_map fun d hd => Nat.digits_lt_base (by decide) (List.mem_reverse.1 hd),
      List.foldl_reverse]
    conv_rhs => rw [← Nat.ofDigits_digits 10 n]
    rw [Nat.ofDigits_eq_foldr]
    congr 1
    funext d a
    rw [Nat.mul_comm, Nat.add_comm]
    rfl

theorem readDigits_blanks {base : Nat} {back : List UInt8} (hback : ∀ b ∈ back, b ∈ blanks) :
    ∀ (text : List UInt8) (acc : Nat), readDigits base acc (text ++ back) = readDigits base acc text
  | [], acc => by
    cases back with
    | nil => rfl
    | cons b back =>
      have hb : digitValue b = none := by
        have hblank := hback b List.mem_cons_self
        simp only [blanks, List.mem_cons, List.not_mem_nil, or_false] at hblank
        rcases hblank with rfl | rfl <;> rfl
      rw [List.nil_append, readDigits.eq_def]
      dsimp only
      rw [hb]
      rfl
  | b :: text, acc => by
    rw [List.cons_append, readDigits, readDigits]
    cases digitValue b with
    | none => rfl
    | some d =>
      dsimp only
      rw [readDigits_blanks hback text]

/-- `atoi` does not look at the blanks around a number. -/
theorem atoi_trim {s : List UInt8} (h : 0 ∉ s) : atoi (trim s) = atoi s := by
  obtain ⟨front, back, hfront, hback, hs⟩ := trim_ends s
  have hspace : ∀ b ∈ blanks, isSpace b = true := by decide
  have htrim : 0 ∉ trim s := fun h0 => h (by
    rw [hs]
    exact List.mem_append_right _ (List.mem_append_left _ h0))
  unfold atoi
  rw [cStr_of_notMem htrim, cStr_of_notMem h]
  conv_rhs => rw [hs]
  rw [List.dropWhile_append_of_pos fun b hb => hspace b (hfront b hb), List.dropWhile_append]
  cases hdigits : (trim s).dropWhile isSpace with
  | nil =>
    have hnone : back.dropWhile isSpace = [] :=
      List.dropWhile_eq_nil_iff.2 fun b hb => hspace b (hback b hb)
    simp [hnone]
  | cons b text =>
    have hsign : readSign (b :: text ++ back) =
        ((readSign (b :: text)).1, (readSign (b :: text)).2 ++ back) := by
      rw [List.cons_append, readSign, readSign]
      split_ifs <;> rfl
    rw [List.isEmpty_cons, if_neg (by decide), hsign]
    dsimp only
    rw [readDigits_blanks hback]

/-- **`atoi` inverts `%d`.** -/
theorem atoi_toString {n : Nat} (h : n < 2 ^ 31) : atoi (toString n) = n := by
  have hread := readDigits_toString n
  have hmem := fun b hb => @mem_toString n b hb
  obtain ⟨c, cs, hcons⟩ := List.exists_cons_of_ne_nil (toString_ne_nil n)
  rw [hcons] at hread hmem
  have hc := hmem c List.mem_cons_self
  have hnul : 0 ∉ c :: cs := fun h0 => absurd (hmem 0 h0).1 (by decide)
  have hspace : isSpace c = false := by
    have h57 := UInt8.le_iff_toNat_le.1 hc.1
    unfold isSpace
    simp [UInt8.le_iff_toNat_le, ← UInt8.toNat_inj] at h57 ⊢
    omega
  have hsign : readSign (c :: cs) = (false, c :: cs) := by
    have h48 := UInt8.le_iff_toNat_le.1 hc.1
    show (if c = 45 then _ else if c = 43 then _ else _) = _
    rw [if_neg, if_neg] <;> rintro rfl <;> exact absurd h48 (by decide)
  unfold atoi
  rw [hcons, cStr_of_notMem hnul, List.dropWhile_cons_of_neg (by simp [hspace]), hsign]
  dsimp only
  rw [hread, if_neg (by decide), min_eq_right (by omega)]
  exact toInt_eq (by omega) (by omega)

theorem toString_length {n : Nat} (h : n < 2 ^ 32) : (toString n).length ≤ 10 := by
  unfold toString
  split
  · exact Nat.le_of_ble_eq_true rfl
  · rw [List.length_map, List.length_reverse]
    exact (Nat.digits_length_le_iff (by decide) n).2 (by omega)

theorem intToString_of_nonneg {i : Int} (h : 0 ≤ i) : intToString i = toString i.toNat :=
  if_neg (by omega)

theorem intToString_length {i : Int} (hlo : -2 ^ 31 ≤ i) (hhi : i < 2 ^ 31) :
    (intToString i).length ≤ 11 := by
  unfold intToString
  split
  · have := @toString_length (-i).toNat (by omega)
    rw [List.length_cons]
    omega
  · have := @toString_length i.toNat (by omega)
    omega

theorem notMem_intToString (i : Int) : 0 ∉ intToString i := by
  have hdigits : ∀ n : Nat, 0 ∉ toString n := fun n hmem =>
    absurd (mem_toString hmem).1 (by decide)
  unfold intToString
  split
  · rw [List.mem_cons, not_or]
    exact ⟨by decide, hdigits _⟩
  · exact hdigits _

end Numbers

end StringUtil

end Brickred
