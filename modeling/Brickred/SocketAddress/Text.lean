import Brickred.SocketAddress

/-!
# The texts of addresses

* `Inet.Documented` — what the manual says of `inet_pton` and `inet_ntop`.
* `Inet.plain`, `Inet.plain_documented` — dotted decimals, and groups of four hexadecimal digits
  with no group left out.
-/

set_option autoImplicit false

namespace Brickred

/-- `INET_ADDRSTRLEN`, `INET6_ADDRSTRLEN` -/
def Family.strLen : Family → Nat
  | .inet => 16
  | .inet6 => 46

namespace Inet

/-- What `inet_pton(3)` and `inet_ntop(3)` promise. -/
structure Documented (inet : Inet) : Prop where
  /-- an address has a text, from which it is read back -/
  inverse : ∀ {af : Family} {addr : List UInt8} {size : Nat}, addr.length = af.size →
    af.strLen ≤ size →
    ∃ text, inet.ntop af addr size = some text ∧ 0 ∉ text ∧ inet.pton af text = some addr
  /-- IPv4: dotted decimals, `ddd.ddd.ddd.ddd` -/
  dotted : ∀ {addr text : List UInt8} {size : Nat}, inet.ntop .inet addr size = some text →
    58 ∉ text
  /-- IPv6: hexadecimal groups with colons between them -/
  colons : ∀ {addr text : List UInt8}, inet.pton .inet6 text = some addr → 58 ∈ text

/-! ## Items with a separator -/

section Separated

variable {α : Type} {sep : UInt8} {write : α → List UInt8} {read : List UInt8 → Option α}
  {xs : List α}

def render (sep : UInt8) (write : α → List UInt8) (xs : List α) : List UInt8 :=
  [sep].intercalate (xs.map write)

def parse (sep : UInt8) (read : List UInt8 → Option α) (text : List UInt8) : Option (List α) :=
  (text.splitOn sep).mapM read

theorem parse_rendered (hread : ∀ x, read (write x) = some x) (hsep : ∀ x, sep ∉ write x)
    (hne : xs ≠ []) : parse sep read (render sep write xs) = some xs := by
  have hitems : ∀ item ∈ xs.map write, sep ∉ item := by
    intro item hitem
    obtain ⟨x, _, rfl⟩ := List.mem_map.1 hitem
    exact hsep x
  have hpure : read ∘ write = pure := funext hread
  unfold parse render
  rw [List.splitOn_intercalate sep hitems (by simpa using hne), List.mapM_map, hpure,
    List.mapM_pure, List.map_id']
  rfl

theorem render_singleton (x : α) : render sep write [x] = write x :=
  List.intercalate_singleton

theorem render_cons_cons (x x' : α) (xs : List α) :
    render sep write (x :: x' :: xs) = write x ++ sep :: render sep write (x' :: xs) := by
  unfold render
  rw [List.map_cons, List.map_cons, List.intercalate_cons_cons, List.append_assoc]
  rfl

theorem mem_render {c : UInt8} : ∀ {xs : List α}, c ∈ render sep write xs →
    c = sep ∨ ∃ x, c ∈ write x
  | [], hc => by cases hc
  | [x], hc => by
    rw [render_singleton] at hc
    exact Or.inr ⟨x, hc⟩
  | x :: x' :: xs, hc => by
    rw [render_cons_cons, List.mem_append, List.mem_cons] at hc
    obtain hc | hc | hc := hc
    · exact Or.inr ⟨x, hc⟩
    · exact Or.inl hc
    · exact mem_render hc

theorem render_length {k : Nat} (hk : ∀ x, (write x).length ≤ k) :
    ∀ xs : List α, (render sep write xs).length ≤ (k + 1) * xs.length - 1
  | [] => by simp [render]
  | [x] => by
    have hx := hk x
    rw [render_singleton, List.length_singleton]
    omega
  | x :: x' :: xs => by
    have hx := hk x
    have ih := render_length hk (x' :: xs)
    have hmul : (k + 1) * (x' :: xs).length = (k + 1) * xs.length + (k + 1) := Nat.mul_succ _ _
    rw [render_cons_cons, List.length_append, List.length_cons, List.length_cons, Nat.mul_succ]
    omega

/-- More than one item has a separator. -/
theorem sep_mem_of_parse {text : List UInt8} (hparse : parse sep read text = some xs)
    (hmany : 1 < xs.length) : sep ∈ text := by
  by_contra hsep
  unfold parse at hparse
  rw [List.splitOn_eq_singleton hsep] at hparse
  simp only [List.mapM_cons, List.mapM_nil] at hparse
  cases hread : read text with
  | none => simp [hread] at hparse
  | some x =>
    have hone : [x] = xs := by simpa [hread] using hparse
    rw [← hone] at hmany
    exact absurd hmany (Nat.lt_irrefl 1)

end Separated

/-! ## A notation without choice -/

namespace Plain

def decimal (b : UInt8) : List UInt8 :=
  if b < 10 then [48 + b]
  else if b < 100 then [48 + b / 10, 48 + b % 10]
  else [48 + b / 100, 48 + b / 10 % 10, 48 + b % 10]

/-- Reads a number, and takes it if it is written as it is meant to be. -/
def octet (text : List UInt8) : Option UInt8 :=
  let b := text.foldl (fun b digit => 10 * b + (digit - 48)) 0
  if decimal b = text then some b else none

def hexDigit (d : UInt8) : UInt8 := if d < 10 then 48 + d else 87 + d

def hexValue (c : UInt8) : UInt8 := if c < 58 then c - 48 else c - 87

def group (w : UInt8 × UInt8) : List UInt8 :=
  [hexDigit (w.1 / 16), hexDigit (w.1 % 16), hexDigit (w.2 / 16), hexDigit (w.2 % 16)]

def word : List UInt8 → Option (UInt8 × UInt8)
  | [a, b, c, d] =>
    let w := (16 * hexValue a + hexValue b, 16 * hexValue c + hexValue d)
    if group w = [a, b, c, d] then some w else none
  | _ => none

def pairs : List UInt8 → List (UInt8 × UInt8)
  | a :: b :: bs => (a, b) :: pairs bs
  | _ => []

def flatten (ws : List (UInt8 × UInt8)) : List UInt8 := ws.flatMap fun w => [w.1, w.2]

def text (addr : List UInt8) : Family → List UInt8
  | .inet => render 46 decimal addr
  | .inet6 => render 58 group (pairs addr)

def pton (af : Family) (text : List UInt8) : Option (List UInt8) :=
  let addr := match af with
    | .inet => parse 46 octet text
    | .inet6 => (parse 58 word text).map flatten
  addr.filter fun addr => addr.length = af.size

def ntop (af : Family) (addr : List UInt8) (size : Nat) : Option (List UInt8) :=
  if (text addr af).length < size then some (text addr af) else none

/-- What holds of the number of each byte holds of the bytes. -/
theorem forall_byte {P : UInt8 → Prop} (h : ∀ n : Fin 256, P (UInt8.ofNat n)) (b : UInt8) :
    P b := by
  simpa using h ⟨b.toNat, b.toNat_lt⟩

theorem octet_decimal : ∀ b, octet (decimal b) = some b := forall_byte (by decide +kernel)

theorem decimal_chars : ∀ b, ∀ c ∈ decimal b, 48 ≤ c ∧ c ≤ 57 := forall_byte (by decide +kernel)

theorem decimal_length (b : UInt8) : (decimal b).length ≤ 3 := by
  unfold decimal
  split
  · exact Nat.le_of_ble_eq_true rfl
  · split <;> exact Nat.le_of_ble_eq_true rfl

theorem hexDigit_byte : ∀ b, 16 * hexValue (hexDigit (b / 16)) + hexValue (hexDigit (b % 16)) = b :=
  forall_byte (by decide +kernel)

theorem hexDigit_chars : ∀ b, ∀ c ∈ [hexDigit (b / 16), hexDigit (b % 16)], 48 ≤ c ∧ c ≠ 58 :=
  forall_byte (by decide +kernel)

theorem word_group (w : UInt8 × UInt8) : word (group w) = some w := by
  unfold word group
  dsimp only
  rw [hexDigit_byte, hexDigit_byte, if_pos rfl]

theorem group_chars (w : UInt8 × UInt8) : ∀ c ∈ group w, 48 ≤ c ∧ c ≠ 58 := by
  intro c hc
  have hsplit : c ∈ [hexDigit (w.1 / 16), hexDigit (w.1 % 16)] ++
      [hexDigit (w.2 / 16), hexDigit (w.2 % 16)] := hc
  obtain hc | hc := List.mem_append.1 hsplit
  · exact hexDigit_chars w.1 c hc
  · exact hexDigit_chars w.2 c hc

theorem flatten_pairs : ∀ {n : ℕ} {addr : List UInt8}, addr.length = 2 * n →
    flatten (pairs addr) = addr ∧ (pairs addr).length = n
  | n, [], h => ⟨rfl, by simpa [pairs, eq_comm] using h⟩
  | n, [_], h => by
    rw [List.length_singleton] at h
    omega
  | n, a :: b :: bs, h => by
    rw [List.length_cons, List.length_cons] at h
    obtain ⟨hflatten, hlength⟩ := @flatten_pairs (n - 1) bs (by omega)
    refine ⟨congrArg (a :: b :: ·) hflatten, ?_⟩
    rw [pairs, List.length_cons, hlength]
    omega

theorem flatten_length (ws : List (UInt8 × UInt8)) : (flatten ws).length = 2 * ws.length := by
  induction ws with
  | nil => rfl
  | cons w ws ih =>
    rw [flatten, List.flatMap_cons, List.length_append, ← flatten, ih, List.length_cons]
    exact (Nat.add_comm _ _).trans (Nat.mul_succ 2 _).symm

/-- The characters of a text come from the separator and the items. -/
theorem text_chars {addr : List UInt8} {af : Family} : ∀ c ∈ text addr af,
    46 ≤ c ∧ (af = .inet → c ≠ 58) := by
  intro c hc
  cases af with
  | inet =>
    obtain rfl | ⟨b, hb⟩ := mem_render hc
    · decide
    · obtain ⟨hlow, hhigh⟩ := decimal_chars b c hb
      rw [UInt8.le_iff_toNat_le] at hlow hhigh ⊢
      refine ⟨le_trans (by decide) hlow, fun _ hcolon => ?_⟩
      rw [hcolon] at hhigh
      exact absurd hhigh (by decide)
  | inet6 =>
    refine ⟨?_, fun hne => by cases hne⟩
    obtain rfl | ⟨w, hw⟩ := mem_render hc
    · decide
    · have hlow := (group_chars w c hw).1
      rw [UInt8.le_iff_toNat_le] at hlow ⊢
      exact le_trans (by decide) hlow

theorem text_length {addr : List UInt8} {af : Family} (h : addr.length = af.size) :
    (text addr af).length < af.strLen := by
  cases af with
  | inet =>
    have hlength := @render_length _ 46 decimal 3 decimal_length addr
    rw [h] at hlength
    exact Nat.lt_of_le_of_lt hlength (by decide)
  | inet6 =>
    have hgroup : ∀ w, (group w).length ≤ 4 := fun _ => Nat.le_refl 4
    have hlength := @render_length _ 58 group 4 hgroup (pairs addr)
    rw [(flatten_pairs (n := 8) h).2] at hlength
    exact Nat.lt_of_le_of_lt hlength (by decide)

theorem pton_text {addr : List UInt8} {af : Family} (h : addr.length = af.size) :
    pton af (text addr af) = some addr := by
  have hne : addr ≠ [] := by
    rintro rfl
    cases af <;> cases h
  cases af with
  | inet =>
    have hdot : ∀ b, 46 ∉ decimal b := fun b hb =>
      absurd (decimal_chars b 46 hb).1 (by decide)
    unfold pton text
    dsimp only
    rw [parse_rendered octet_decimal hdot hne, Option.filter_some, if_pos (by simpa using h)]
  | inet6 =>
    obtain ⟨hflatten, hlength⟩ := flatten_pairs (n := 8) h
    have hcolon : ∀ w, 58 ∉ group w := fun w hw => (group_chars w 58 hw).2 rfl
    have hwords : pairs addr ≠ [] := by
      rintro hnil
      rw [hnil] at hlength
      cases hlength
    unfold pton text
    dsimp only
    rw [parse_rendered word_group hcolon hwords, Option.map_some, hflatten, Option.filter_some,
      if_pos (by simpa using h)]

end Plain

/-- Reads and writes addresses without leaving anything out. -/
def plain : Inet where
  pton := Plain.pton
  ntop := Plain.ntop
  pton_length h := by
    unfold Plain.pton at h
    simpa using (Option.filter_eq_some_iff.1 h).2

theorem plain_documented : plain.Documented where
  inverse := by
    intro af addr size hlength hsize
    have htext := Plain.text_length hlength
    refine ⟨Plain.text addr af, if_pos (by omega), fun hnul => ?_, Plain.pton_text hlength⟩
    exact absurd (Plain.text_chars 0 hnul).1 (by decide)
  dotted := by
    intro addr text size h hcolon
    have htext : Plain.ntop .inet addr size = some text := h
    unfold Plain.ntop at htext
    split at htext
    · cases htext
      exact (Plain.text_chars 58 hcolon).2 rfl rfl
    · cases htext
  colons := by
    intro addr text h
    obtain ⟨hparse, hlength⟩ := Option.filter_eq_some_iff.1 (show Plain.pton .inet6 text = _ from h)
    obtain ⟨ws, hws, rfl⟩ := Option.map_eq_some_iff.1 hparse
    refine sep_mem_of_parse hws ?_
    have hwords : 2 * ws.length = 16 := by
      rw [← Plain.flatten_length]
      exact of_decide_eq_true hlength
    omega

end Inet

end Brickred
