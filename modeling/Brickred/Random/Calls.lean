import Brickred.Lib.Runs
import Brickred.Random.Seeding

/-!
# The calls made to a `Random`

A program seeds its generator, draws from it, and may seed it again.  To it the generator is a
`Stream`: a sequence of words that the last seeding fixed, and a place in it.

* `Random.call`, `Stream.call` — the calls, on the generator and on a stream.
* `answers_determined` — every program gets from the generator what it would get from the stream.
* `words_determined` — 624 words in a row determine all others.
* `exists_word_ne_zero` — they are never all zero.
* `streams_differ` — other seeds, other streams.
-/

set_option autoImplicit false

namespace Brickred

namespace Random

open Runs SlidingWindow

inductive Call where
  | seed (s : UInt32)
  | seedKey (key : List UInt32)
  | nextInt
  | nextDouble
  | nextIntBelow (max : UInt32)
  | nextIntIn (min max : UInt32)

/-- What a call returns. -/
inductive Value where
  | nothing
  | word (v : UInt32)
  | fraction (v : ℚ)

def Call.seeds : Call → Bool
  | .seed _ | .seedKey _ => true
  | _ => false

def call (r : Random) : Call → Option (Value × Random)
  | .seed s => some (.nothing, r.seed s)
  | .seedKey key => (r.seedKey key).map fun r => (.nothing, r)
  | .nextInt => some (.word r.nextInt.1, r.nextInt.2)
  | .nextDouble => some (.fraction r.nextDouble.1, r.nextDouble.2)
  | .nextIntBelow max =>
    some (.word (r.nextIntBelow toDouble max).1, (r.nextIntBelow toDouble max).2)
  | .nextIntIn min max =>
    some (.word (r.nextIntIn toDouble min max).1, (r.nextIntIn toDouble min max).2)

/-! ## The stream -/

/-- The words that a seeding fixes, and the number of them drawn. -/
structure Stream where
  words : Nat → UInt32
  position : Nat

namespace Stream

/-- The stream of a seeded array: the tempered words behind it. -/
def start (mt : List UInt32) : Stream := ⟨fun k => temper (Random.term mt (k + n)), 0⟩

/-- The word `j` places on. -/
def peek (s : Stream) (j : Nat) : UInt32 := s.words (s.position + j)

def skip (s : Stream) (j : Nat) : Stream := { s with position := s.position + j }

/-- The fraction made of the next two words. -/
def double (s : Stream) : ℚ := fraction (s.peek 0) (s.peek 1)

/-- The array `seed(s)` leaves. -/
def seedArray (s : UInt32) : List UInt32 := (List.range n).map (seedTerm s)

/-- The array `seed(key, key_length)` leaves. -/
def keyArray (key : List UInt32) : Option (List UInt32) :=
  (keyTurns key (rounds key) ⟨seedArray 19650218, 1, 0⟩).map finish

/-- Each draw from a stream uses as many words as the generator makes for it. -/
def call (s : Stream) : Call → Option (Value × Stream)
  | .seed seed => some (.nothing, start (seedArray seed))
  | .seedKey key => (keyArray key).map fun mt => (.nothing, start mt)
  | .nextInt => some (.word (s.peek 0), s.skip 1)
  | .nextDouble => some (.fraction s.double, s.skip 2)
  | .nextIntBelow max => some (.word (scale toDouble s.double max), s.skip 2)
  | .nextIntIn min max =>
    if min ≥ max then some (.word min, s)
    else some (.word (min + scale toDouble s.double (max - min + 1)), s.skip 2)

end Stream

/-! ## One call -/

section Calls

variable {r r' : Random}

/-- The generator has still to make the words of the stream. -/
structure Follows (r : Random) (s : Stream) : Prop where
  valid : r.Valid
  word : ∀ j, r.word j = s.peek j

theorem word_succ (r : Random) (k : Nat) : r.word (k + 1) = r.nextInt.2.word k := rfl

theorem Follows.nextInt {s : Stream} (h : Follows r s) :
    r.nextInt.1 = s.peek 0 ∧ Follows r.nextInt.2 (s.skip 1) := by
  refine ⟨h.word 0, nextInt_valid h.valid, fun j => ?_⟩
  rw [← word_succ, h.word, Stream.peek, Stream.peek, Stream.skip, Nat.add_assoc, Nat.add_comm 1 j]

theorem Follows.nextDouble {s : Stream} (h : Follows r s) :
    r.nextDouble.1 = s.double ∧ Follows r.nextDouble.2 (s.skip 2) := by
  obtain ⟨hfirst, h₁⟩ := h.nextInt
  obtain ⟨hsecond, h₂⟩ := h₁.nextInt
  refine ⟨?_, h₂⟩
  change fraction r.nextInt.1 r.nextInt.2.nextInt.1 = _
  rw [hfirst, hsecond]
  rfl

theorem peek_start (mt : List UInt32) (j : Nat) :
    (Stream.start mt).peek j = temper (Random.term mt (j + n)) := by
  rw [Stream.peek, Stream.start, Nat.zero_add]

theorem follows_start {mt : List UInt32} (h : mt.length = n) :
    Follows ⟨mt, n⟩ (Stream.start mt) := by
  refine ⟨valid_mk h, fun j => ?_⟩
  rw [word_eq (valid_mk h), peek_start, window]
  exact congrArg temper (term_iterate_slide n j)

theorem length_seedArray (s : UInt32) : (Stream.seedArray s).length = n := by
  simp [Stream.seedArray]

theorem getD_seedArray (s : UInt32) {j : Nat} (hj : j < n) :
    (Stream.seedArray s).getD j 0 = seedTerm s j := by
  simp [Stream.seedArray, hj]

theorem seedArray_eq (h : r.mt.length = n) (s : UInt32) :
    r.seed s = ⟨Stream.seedArray s, n⟩ := by
  obtain ⟨hvalid, hterms⟩ := seed_spec h s
  have harray : (r.seed s).mt = Stream.seedArray s := by
    refine eq_of_getD hvalid.length (length_seedArray s) fun j hj => ?_
    rw [hterms j hj, getD_seedArray s hj]
  rw [seed_mt] at harray
  rw [seed, harray]

theorem seedKey_eq (h : r.mt.length = n) (key : List UInt32) :
    r.seedKey key = (Stream.keyArray key).map fun mt => ⟨mt, n⟩ := by
  have harray : (r.seed 19650218).mt = Stream.seedArray 19650218 := by rw [seedArray_eq h]
  rw [seedKey, harray, Stream.keyArray, Option.map_map]
  rfl

/-- **A call to the generator** is answered as by the stream. -/
theorem call_follows {s : Stream} (c : Call) (h : Follows r s ∨ r.mt.length = n ∧ c.seeds = true) :
    (call r c = none ∧ s.call c = none) ∨
      ∃ v r' s', call r c = some (v, r') ∧ s.call c = some (v, s') ∧ Follows r' s' := by
  have hlength : r.mt.length = n := h.elim (fun h => h.valid.length) And.left
  cases c with
  | seed seed =>
    refine .inr ⟨.nothing, _, _, rfl, rfl, ?_⟩
    rw [seedArray_eq hlength]
    exact follows_start (length_seedArray seed)
  | seedKey key =>
    have hkey := seedKey_eq hlength key
    have hvalid := (seedKey_spec hlength key).2
    cases harray : Stream.keyArray key with
    | none =>
      rw [harray] at hkey
      exact .inl ⟨by rw [call, hkey]; rfl, by rw [Stream.call, harray]; rfl⟩
    | some mt =>
      rw [harray, Option.map_some] at hkey
      refine .inr ⟨.nothing, ⟨mt, n⟩, Stream.start mt, by rw [call, hkey]; rfl,
        by rw [Stream.call, harray]; rfl, follows_start (hvalid _ hkey).length⟩
  | nextInt =>
    obtain ⟨hvalue, hnext⟩ := (h.resolve_right (by simp [Call.seeds])).nextInt
    exact .inr ⟨_, _, _, rfl, by rw [Stream.call, hvalue], hnext⟩
  | nextDouble =>
    obtain ⟨hvalue, hnext⟩ := (h.resolve_right (by simp [Call.seeds])).nextDouble
    exact .inr ⟨_, _, _, rfl, by rw [Stream.call, hvalue], hnext⟩
  | nextIntBelow max =>
    obtain ⟨hvalue, hnext⟩ := (h.resolve_right (by simp [Call.seeds])).nextDouble
    refine .inr ⟨_, _, _, rfl, ?_, hnext⟩
    rw [Stream.call, ← hvalue]
    rfl
  | nextIntIn min max =>
    have hfollows := h.resolve_right (by simp [Call.seeds])
    obtain ⟨hvalue, hnext⟩ := hfollows.nextDouble
    by_cases hge : min ≥ max
    · have hcall : r.nextIntIn toDouble min max = (min, r) := by rw [nextIntIn, if_pos hge]
      exact .inr ⟨.word min, r, s, by rw [call, hcall], by rw [Stream.call, if_pos hge], hfollows⟩
    · have hcall : r.nextIntIn toDouble min max =
          (min + scale toDouble r.nextDouble.1 (max - min + 1), r.nextDouble.2) := by
        rw [nextIntIn, if_neg hge]
        rfl
      refine .inr ⟨_, _, s.skip 2, rfl, ?_, ?_⟩
      · rw [Stream.call, if_neg hge, hcall, hvalue]
      · rw [hcall]
        exact hnext

/-- A call fails only where it seeds with an empty key. -/
theorem call_eq_none_iff (h : r.mt.length = n) (c : Call) : call r c = none ↔ c = .seedKey [] := by
  cases c with
  | seedKey key => simp [call, (seedKey_spec h key).1]
  | _ => simp [call]

/-- **The generator is a stream**: whatever program runs, all its calls are answered as by the
stream that its last seeding starts, and fail only at an empty key. -/
theorem answers_determined (h : r.mt.length = n) {c : Call} (hc : c.seeds = true) (cs : List Call)
    (s : Stream) :
    answers call r (c :: cs) = answers Stream.call s (c :: cs) ∧
      (answers call r (c :: cs) = none ↔ Call.seedKey [] ∈ c :: cs) := by
  have hstep : ∀ r s c, Follows r s → (call r c = none ∧ s.call c = none) ∨
      ∃ v r' s', call r c = some (v, r') ∧ s.call c = some (v, s') ∧ Follows r' s' :=
    fun r s c h => call_follows c (.inl h)
  have hvalid : ∀ (r : Random) c v r', r.Valid → call r c = some (v, r') → r'.Valid := by
    intro r c v r' hr hcall
    have hfollows : Follows r ⟨r.word, 0⟩ := ⟨hr, fun j => by rw [Stream.peek, Nat.zero_add]⟩
    rcases hstep r _ c hfollows with ⟨hnone, -⟩ | ⟨v', r'', s', hsome, -, h'⟩
    · rw [hnone] at hcall
      cases hcall
    · rw [hsome] at hcall
      cases hcall
      exact h'.valid
  have hnone : ∀ (cs : List Call) (r : Random), r.Valid →
      (answers call r cs = none ↔ ∃ c ∈ cs, c = .seedKey []) :=
    fun cs r hr => answers_eq_none_iff (fun r c hr => call_eq_none_iff hr.length c) hvalid hr
  rcases call_follows (s := s) c (.inr ⟨h, hc⟩) with ⟨hr, hs⟩ | ⟨v, r', s', hr, hs, h'⟩
  · have hmem := List.mem_cons_self (a := c) (l := cs)
    simp only [answers, hr, hs, true_and, true_iff]
    exact (call_eq_none_iff h c).1 hr ▸ hmem
  · have hne : c ≠ .seedKey [] := fun hc => by rw [(call_eq_none_iff h c).2 hc] at hr; cases hr
    simp only [answers, hr, hs]
    rw [answers_simulates hstep h', Option.map_eq_none_iff, ← answers_simulates hstep h',
      hnone cs r' h'.valid]
    simp [Ne.symm hne]

/-- Memory that holds zeros. -/
def blank : Random := ⟨List.replicate n 0, 0⟩

theorem length_blank : blank.mt.length = n := List.length_replicate

theorem answers_die :
    answers call blank [.seed 5489, .nextIntIn 1 6, .nextDouble] =
        answers Stream.call ⟨fun _ => 0, 0⟩ [.seed 5489, .nextIntIn 1 6, .nextDouble] ∧
      (answers call blank [.seed 5489, .nextIntIn 1 6, .nextDouble] = none ↔
        Call.seedKey [] ∈ [.seed 5489, .nextIntIn 1 6, .nextDouble]) :=
  answers_determined length_blank rfl _ _

end Calls

/-! ## Every generator there is -/

section Reached

/-- The memory of a generator holds anything until it is seeded first. -/
def Reached (r : Random) : Prop :=
  ∃ (r₀ : Random) (c : Call) (cs : List Call), r₀.mt.length = n ∧ c.seeds = true ∧
    run (after call) r₀ (c :: cs) = some r

/-- The window without a bit set that a later word is made of. -/
def Dead (w : List UInt32) : Prop := Alike 0 upper w (List.replicate n 0)

variable {r r' : Random}

/-- What holds of every generator reached: it is in order, and not dead. -/
structure Alive (r : Random) : Prop where
  valid : r.Valid
  window : ¬ Dead r.window

theorem getD_zeros (i : Nat) : (List.replicate n (0 : UInt32)).getD i 0 = 0 := by
  simp

theorem turn_zeros : turn (List.replicate n 0) = List.replicate n 0 := by
  have hnext : next mix m 0 (List.replicate n 0) = 0 := by
    rw [next, getD_zeros, getD_zeros, getD_zeros]
    rfl
  have hn : n = n - 1 + 1 := by decide
  rw [turn, slide, hnext, List.tail_replicate]
  exact (List.replicate_succ' ..).symm.trans (by rw [← hn])

theorem iterate_turn_zeros (k : Nat) : turn^[k] (List.replicate n 0) = List.replicate n 0 :=
  Function.iterate_fixed turn_zeros k

/-- Dead windows come of dead windows only. -/
theorem dead_iterate_turn_iff {w : List UInt32} (h : w.length = n) (k : Nat) :
    Dead (turn^[k] w) ↔ Dead w := by
  have hzeros := iterate_turn_zeros k
  have hlength : (List.replicate n (0 : UInt32)).length = n := List.length_replicate
  rw [Dead, ← hzeros]
  exact alike_iterate_slide_iff mix_reversible (by decide) (by rw [hlength]; decide)
    (by rw [h, hlength]) k

theorem Alive.nextInt (h : Alive r) : Alive r.nextInt.2 := by
  obtain ⟨-, hwindow, hvalid⟩ := nextInt_spec h.valid
  refine ⟨hvalid, ?_⟩
  rw [hwindow]
  exact (dead_iterate_turn_iff h.valid.length_window 1).not.2 h.window

theorem alive_start {mt : List UInt32} (h : mt.length = n) (hdead : ¬ Dead mt) : Alive ⟨mt, n⟩ :=
  ⟨valid_mk h, (dead_iterate_turn_iff h n).not.2 hdead⟩

theorem not_dead_seedArray (s : UInt32) : ¬ Dead (Stream.seedArray s) := by
  intro hdead
  have hone := hdead.others 1 (by decide) (by rw [List.length_replicate]; decide)
  have htwo := hdead.others 2 (by decide) (by rw [List.length_replicate]; decide)
  rw [getD_zeros, getD_seedArray s (by decide)] at hone
  -- a word that is zero is followed by its index
  rw [getD_zeros, getD_seedArray s (by decide), seedTerm, sweep, ← seedTerm, hone] at htwo
  exact absurd htwo (by decide)

theorem not_dead_finish {s : Mixing} (h : s.mt.length = n) : ¬ Dead (finish s) := by
  intro hdead
  have hfirst := hdead.first
  rw [getD_zeros, finish, getD_set (by rw [length_iterate_indexTurn, h]; decide), if_pos rfl]
    at hfirst
  exact absurd hfirst (by decide)

theorem Alive.call {c : Call} {v : Value} (h : Alive r ∨ r.mt.length = n ∧ c.seeds = true)
    (hcall : call r c = some (v, r')) : Alive r' := by
  have hlength : r.mt.length = n := h.elim (fun h => h.valid.length) And.left
  cases c with
  | seed s =>
    cases hcall
    rw [seedArray_eq hlength]
    exact alive_start (length_seedArray s) (not_dead_seedArray s)
  | seedKey key =>
    by_cases hkey : key = []
    · rw [(call_eq_none_iff hlength _).2 (congrArg Call.seedKey hkey)] at hcall
      cases hcall
    · obtain ⟨s, hs, hmt⟩ := keyTurns_isSome (k := rounds key) (i := 1)
        (seed_spec hlength 19650218).1.length (List.length_pos_iff.2 hkey)
      rw [Random.call, seedKey, hs] at hcall
      cases hcall
      exact alive_start (length_finish hmt) (not_dead_finish hmt)
  | nextInt =>
    cases hcall
    exact (h.resolve_right (by simp [Call.seeds])).nextInt
  | nextDouble =>
    cases hcall
    exact (h.resolve_right (by simp [Call.seeds])).nextInt.nextInt
  | nextIntBelow max =>
    cases hcall
    exact (h.resolve_right (by simp [Call.seeds])).nextInt.nextInt
  | nextIntIn min max =>
    cases hcall
    have halive := h.resolve_right (by simp [Call.seeds])
    unfold nextIntIn
    split
    · exact halive
    · exact halive.nextInt.nextInt

theorem Reached.alive (h : Reached r) : Alive r := by
  obtain ⟨r₀, c, cs, hlength, hc, hrun⟩ := h
  have hstep : ∀ (r : Random) c r', Alive r → after call r c = some r' → Alive r' := by
    intro r c r' hr hnext
    obtain ⟨⟨v, r''⟩, hcall, rfl⟩ := Option.map_eq_some_iff.1 hnext
    exact Alive.call (.inl hr) hcall
  cases hfirst : after call r₀ c with
  | none => simp [run, hfirst] at hrun
  | some r₁ =>
    rw [run_cons cs hfirst] at hrun
    obtain ⟨⟨v, r''⟩, hcall, rfl⟩ := Option.map_eq_some_iff.1 hfirst
    exact (along_of_step hstep (Alive.call (.inr ⟨hlength, hc⟩) hcall) cs).last hrun

/-- Words in a row that agree are made of terms that do. -/
theorem term_of_word (h : r.Valid) (h' : r'.Valid) {k : Nat} (hword : r.word k = r'.word k) :
    term r.window k = term r'.window k := by
  rw [word_eq h, word_eq h'] at hword
  exact temper_injective hword

/-- **Recovery**: each word is made of three that were drawn before it, and generators that agree
on 624 words in a row agree on all, before and after, but for the very next one. -/
theorem words_determined (h : Reached r) (h' : Reached r') :
    (∀ k, r.word (k + n) =
      temper (mix (untemper (r.word k)) (untemper (r.word (k + 1))) (untemper (r.word (k + m))))) ∧
    ∀ k, (∀ j, j < n → r.word (k + j) = r'.word (k + j)) →
      ∀ j, 0 < j ∨ k = 0 → r.word j = r'.word j := by
  have hvalid := h.alive.valid
  have hvalid' := h'.alive.valid
  refine ⟨fun k => ?_, fun k hagree j hj => ?_⟩
  · rw [word_eq hvalid, word_eq hvalid, word_eq hvalid, word_eq hvalid, untemper_temper,
      untemper_temper, untemper_temper, term_rule hvalid.length_window]
  · have hlength := hvalid'.length_window
    have hterms : ∀ i, i < r'.window.length → term r.window (k + i) = term r'.window (k + i) :=
      fun i hi => term_of_word hvalid hvalid' (hagree i (by rwa [hlength] at hi))
    rw [word_eq hvalid, word_eq hvalid']
    rcases hj with hpos | rfl
    · have halike := alike_of_agree (m := m) mix_reversible (by decide) (by rw [hlength]; decide)
        (by rw [hlength, hvalid.length_window]) hterms
      exact congrArg temper (halike.term_eq (m := m) mix_reversible (by decide)
        (by rw [hlength]; decide) (by rw [hlength, hvalid.length_window]) hpos)
    · have hagree' := term_of_agree (by rw [hlength, hvalid.length_window])
        (by rw [hlength]; decide) hterms j
      rw [Nat.zero_add] at hagree'
      exact congrArg temper hagree'

theorem reached_blank (s : UInt32) : Reached (blank.seed s) :=
  ⟨blank, .seed s, [], length_blank, rfl, rfl⟩

theorem words_determined_blank :
    (∀ k, (blank.seed 1).word (k + n) = temper (mix (untemper ((blank.seed 1).word k))
      (untemper ((blank.seed 1).word (k + 1))) (untemper ((blank.seed 1).word (k + m))))) ∧
    ∀ k, (∀ j, j < n → (blank.seed 1).word (k + j) = (blank.seed 2).word (k + j)) →
      ∀ j, 0 < j ∨ k = 0 → (blank.seed 1).word j = (blank.seed 2).word j :=
  words_determined (reached_blank 1) (reached_blank 2)

/-- **Not dead**: of 624 words in a row one is not zero. -/
theorem exists_word_ne_zero (h : Reached r) (k : Nat) : ∃ j < n, r.word (k + j) ≠ 0 := by
  obtain ⟨hvalid, hdead⟩ := h.alive
  by_contra hall
  push Not at hall
  refine hdead ?_
  have hzeros : ∀ i, term (List.replicate n 0) i = 0 := fun i => by
    rw [term, SlidingWindow.term, ← turn, iterate_turn_zeros, getD_zeros]
  refine alike_of_agree (m := m) mix_reversible (by decide) (by rw [List.length_replicate]; decide)
    (by rw [hvalid.length_window, List.length_replicate]) (k := k) fun j hj => ?_
  rw [List.length_replicate] at hj
  have hword := hall j hj
  rw [word_eq hvalid] at hword
  exact (temper_injective hword).trans (hzeros (k + j)).symm

theorem exists_word_ne_zero_blank : ∃ j < n, (blank.seed 0).word (7 + j) ≠ 0 :=
  exists_word_ne_zero (reached_blank 0) 7

end Reached

/-! ## Seeds -/

section Seeds

variable {r r' : Random}

/-- Generators that agree on 624 words in a row were seeded with arrays alike. -/
theorem alike_of_words {mt mt' : List UInt32} (h : mt.length = n) (h' : mt'.length = n) {k : Nat}
    (hagree : ∀ j, j < n → (⟨mt, n⟩ : Random).word (k + j) = (⟨mt', n⟩ : Random).word (k + j)) :
    Alike 0 upper mt mt' := by
  refine alike_of_agree (m := m) mix_reversible (by decide) (by rw [h']; decide) (by rw [h, h'])
    (k := k + n) fun j hj => ?_
  have hword := (follows_start h).word (k + j)
  have hword' := (follows_start h').word (k + j)
  rw [hagree j (h' ▸ hj), hword', peek_start, peek_start] at hword
  rw [Nat.add_right_comm]
  exact (temper_injective hword).symm

/-- **Other seeds, other streams**: in any 624 words in a row two generators differ somewhere, if
they were seeded with different words, or with different keys of one length that is at most
622. -/
theorem streams_differ (h : r.mt.length = n) (h' : r'.mt.length = n) :
    (∀ s s', s ≠ s' → ∀ k, ∃ j < n, (r.seed s).word (k + j) ≠ (r'.seed s').word (k + j)) ∧
    ∀ key key', key ≠ key' → key.length = key'.length → key.length ≤ 622 →
      ∃ t t', r.seedKey key = some t ∧ r'.seedKey key' = some t' ∧
        ∀ k, ∃ j < n, t.word (k + j) ≠ t'.word (k + j) := by
  constructor
  · intro s s' hne k
    by_contra hall
    push Not at hall
    rw [seedArray_eq h, seedArray_eq h'] at hall
    have hone := (alike_of_words (length_seedArray s) (length_seedArray s') hall).others 1
      (by decide) (by rw [length_seedArray]; decide)
    rw [getD_seedArray s (by decide), getD_seedArray s' (by decide)] at hone
    exact hne (seed_injective hone)
  · intro key key' hne hsame hshort
    have hkey : 0 < key.length := by
      by_contra hzero
      have hnil := List.length_eq_zero_iff.1 (Nat.eq_zero_of_not_pos hzero)
      have hnil' := List.length_eq_zero_iff.1 (hsame ▸ Nat.eq_zero_of_not_pos hzero)
      exact hne (hnil.trans hnil'.symm)
    have hlt : key.length < n - 1 := by
      unfold n
      omega
    obtain ⟨mt, hsome, hlength, -, hfirst, hothers⟩ := getD_seedKey h hkey (by omega)
    obtain ⟨mt', hsome', hlength', -, hfirst', hothers'⟩ :=
      getD_seedKey h' (hsame ▸ hkey) (by omega)
    refine ⟨_, _, hsome, hsome', fun k => ?_⟩
    by_contra hall
    push Not at hall
    have halike := alike_of_words hlength hlength' hall
    refine hne (seedKey_injective hsame hkey hlt ?_ fun j hj hjn => ?_)
    · rw [← hfirst, ← hfirst', halike.others 1 (by decide) (by rw [hlength']; decide)]
    · have hplace : j + 1 < n := by omega
      have hj' := halike.others (j + 1) (by omega) (by rw [hlength']; exact hplace)
      rwa [hothers _ (by omega) hplace, hothers' _ (by omega) hplace, Nat.add_sub_cancel] at hj'

theorem streams_differ_blank :
    (∀ s s', s ≠ s' → ∀ k, ∃ j < n, (blank.seed s).word (k + j) ≠ (blank.seed s').word (k + j)) ∧
    ∀ key key', key ≠ key' → key.length = key'.length → key.length ≤ 622 →
      ∃ t t', blank.seedKey key = some t ∧ blank.seedKey key' = some t' ∧
        ∀ k, ∃ j < n, t.word (k + j) ≠ t'.word (k + j) :=
  streams_differ length_blank length_blank

end Seeds

end Random

end Brickred
