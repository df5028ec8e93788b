import Mathlib.Data.List.Infix

/-!
# Readers of a segmented stream

A `Reader` looks at the bytes it has not used yet and waits, stops for good, or takes some bytes
off the front and puts out events.  After a `take` it says whether its driver goes on at once or
returns until more bytes arrive; a driver that always goes on is `patient`.

* `drive` — one call of the driver; `feed` — one call for each piece that arrives.
* `feed_singletons` — byte by byte, every reader is driven as a patient one.
* `feed_prefix_ideal`, `whole_prefix_feed` — for every cut the events lie between those of the
  whole stream in one piece and those of the patient driver.
* `settle` — all the takes a stream allows, and `settle_append`: they are the same when the stream
  arrives in two parts; `reads_begin` — the beginning of a message puts nothing out.
* `upTo` — a reader that stops at the first event of a kind, `handover` — one reader after
  another.
* `uncut_iff` — so the cut never matters iff one piece already gives what the patient driver
  gives, and `timely_iff` says when it does: what is left behind by the first early return is
  `Silent`.
-/

set_option autoImplicit false

namespace Segmentation

variable {σ α ω : Type*}

/-- What a reader does with the unused bytes. -/
inductive Turn (σ ω : Type*) where
  | wait
  | stop (out : List ω)
  | take (next : σ) (used : ℕ) (out : List ω) (more : Bool)

/-- A reader whose turn depends on nothing but the bytes it takes. -/
structure Reader (σ α ω : Type*) where
  turn : σ → List α → Turn σ ω
  empty : ∀ s, turn s [] = .wait
  used_pos : ∀ {s buf s' used out more}, turn s buf = .take s' used out more → 0 < used
  used_le : ∀ {s buf s' used out more}, turn s buf = .take s' used out more → used ≤ buf.length
  extend : ∀ {s buf} ext, turn s buf ≠ .wait → turn s (buf ++ ext) = turn s buf
  local_take : ∀ {s buf s' used out more}, turn s buf = .take s' used out more →
    turn s (buf.take used) ≠ .wait

/-- What the turns of one state of a reader have to be. -/
structure IsTurn (turn : List α → Turn σ ω) : Prop where
  empty : turn [] = .wait
  take : ∀ {buf s' used out more}, turn buf = .take s' used out more →
    0 < used ∧ used ≤ buf.length ∧ turn (buf.take used) ≠ .wait
  extend : ∀ {buf} ext, turn buf ≠ .wait → turn (buf ++ ext) = turn buf

/-- A reader whose states are looked at one by one. -/
def Reader.ofTurns (turn : σ → List α → Turn σ ω) (h : ∀ s, IsTurn (turn s)) : Reader σ α ω where
  turn
  empty s := (h s).empty
  used_pos ht := ((h _).take ht).1
  used_le ht := ((h _).take ht).2.1
  extend ext hne := (h _).extend ext hne
  local_take ht := ((h _).take ht).2.2

theorem isTurn_wait : IsTurn (fun _ => .wait : List α → Turn σ ω) where
  empty := rfl
  take h := by cases h
  extend _ h := absurd rfl h

/-- The state and the unused bytes a driver returns with, or `none` when it stopped for good. -/
abbrev Carry (σ α : Type*) := Option (σ × List α)

namespace Reader

/-- The same reader, but its driver always goes on. -/
def patient (R : Reader σ α ω) : Reader σ α ω where
  turn s buf :=
    match R.turn s buf with
    | .take s' used out _ => .take s' used out true
    | t => t
  empty s := by rw [R.empty]
  used_pos {s buf s' used out more} h := by
    cases ht : R.turn s buf <;> rw [ht] at h <;> cases h
    exact R.used_pos ht
  used_le {s buf s' used out more} h := by
    cases ht : R.turn s buf <;> rw [ht] at h <;> cases h
    exact R.used_le ht
  extend {s buf} ext h := by
    have hne : R.turn s buf ≠ .wait := by
      intro hw; rw [hw] at h; exact h rfl
    rw [R.extend ext hne]
  local_take {s buf s' used out more} h := by
    cases ht : R.turn s buf <;> rw [ht] at h <;> cases h
    have hne := R.local_take ht
    cases hb : R.turn s (buf.take used) with
    | wait => exact absurd hb hne
    | stop => simp
    | take => simp

/-- One call of the driver; `fuel` above the number of unused bytes is enough. -/
def driveFuel (R : Reader σ α ω) : ℕ → σ → List α → List ω × Carry σ α
  | 0, s, buf => ([], some (s, buf))
  | fuel + 1, s, buf =>
    match R.turn s buf with
    | .wait => ([], some (s, buf))
    | .stop out => (out, none)
    | .take s' used out true =>
      let r := driveFuel R fuel s' (buf.drop used)
      (out ++ r.1, r.2)
    | .take s' used out false => (out, some (s', buf.drop used))

def drive (R : Reader σ α ω) (s : σ) (buf : List α) : List ω × Carry σ α :=
  R.driveFuel (buf.length + 1) s buf

/-- The driver called once for each piece. -/
def feed (R : Reader σ α ω) : Carry σ α → List (List α) → List ω × Carry σ α
  | c, [] => ([], c)
  | none, _ :: _ => ([], none)
  | some (s, buf), p :: ps =>
    let r := R.drive s (buf ++ p)
    let r' := feed R r.2 ps
    (r.1 ++ r'.1, r'.2)

variable {R : Reader σ α ω} {s s' : σ} {buf : List α} {used : ℕ} {out : List ω}

/-- A turn that takes bytes leaves fewer. -/
theorem rest_length_lt {more : Bool} (h : R.turn s buf = .take s' used out more) :
    (buf.drop used).length < buf.length := by
  have hpos := R.used_pos h
  have hle := R.used_le h
  rw [List.length_drop]
  omega

theorem driveFuel_eq : ∀ (fuel fuel' : ℕ) {s : σ} {buf : List α}, buf.length < fuel →
    buf.length < fuel' → R.driveFuel fuel s buf = R.driveFuel fuel' s buf
  | 0, _, _, _, h, _ => absurd h (Nat.not_lt_zero _)
  | _, 0, _, _, _, h => absurd h (Nat.not_lt_zero _)
  | fuel + 1, fuel' + 1, s, buf, h, h' => by
    rw [driveFuel, driveFuel]
    cases ht : R.turn s buf with
    | wait => rfl
    | stop => rfl
    | take s' used out more =>
      cases more with
      | false => rfl
      | true =>
        have hrest := rest_length_lt ht
        dsimp only
        rw [driveFuel_eq fuel fuel' (by omega) (by omega)]

theorem drive_wait (h : R.turn s buf = .wait) : R.drive s buf = ([], some (s, buf)) := by
  rw [drive, driveFuel, h]

theorem drive_stop (h : R.turn s buf = .stop out) : R.drive s buf = (out, none) := by
  rw [drive, driveFuel, h]

theorem drive_pause (h : R.turn s buf = .take s' used out false) :
    R.drive s buf = (out, some (s', buf.drop used)) := by
  rw [drive, driveFuel, h]

theorem drive_more (h : R.turn s buf = .take s' used out true) :
    R.drive s buf = (out ++ (R.drive s' (buf.drop used)).1, (R.drive s' (buf.drop used)).2) := by
  have hrest := rest_length_lt h
  rw [drive, driveFuel, h]
  dsimp only
  rw [drive, driveFuel_eq buf.length ((buf.drop used).length + 1) (by omega) (by omega)]

theorem patient_wait : R.patient.turn s buf = .wait ↔ R.turn s buf = .wait := by
  unfold patient
  dsimp only
  cases R.turn s buf <;> simp

theorem patient_stop (h : R.turn s buf = .stop out) : R.patient.turn s buf = .stop out := by
  unfold patient
  dsimp only
  rw [h]

theorem patient_take {more : Bool} (h : R.turn s buf = .take s' used out more) :
    R.patient.turn s buf = .take s' used out true := by
  unfold patient
  dsimp only
  rw [h]

/-- The events of a stream when the driver always goes on. -/
def ideal (R : Reader σ α ω) (s : σ) (buf : List α) : List ω := (R.patient.drive s buf).1

theorem ideal_wait (h : R.turn s buf = .wait) : R.ideal s buf = [] := by
  rw [ideal, drive_wait (patient_wait.2 h)]

theorem ideal_stop (h : R.turn s buf = .stop out) : R.ideal s buf = out := by
  rw [ideal, drive_stop (patient_stop h)]

theorem ideal_take {more : Bool} (h : R.turn s buf = .take s' used out more) :
    R.ideal s buf = out ++ R.ideal s' (buf.drop used) := by
  rw [ideal, drive_more (patient_take h)]
  rfl

/-- Taking bytes off a longer buffer. -/
theorem extend_take {more : Bool} (h : R.turn s buf = .take s' used out more) (ext : List α) :
    R.turn s (buf ++ ext) = .take s' used out more ∧
      (buf ++ ext).drop used = buf.drop used ++ ext :=
  ⟨by rw [R.extend ext (by rw [h]; simp), h], List.drop_append_of_le_length (R.used_le h)⟩

/-- Induction along the turns of a reader. -/
theorem turn_induction {P : σ → List α → Prop}
    (wait : ∀ s buf, R.turn s buf = .wait → P s buf)
    (stop : ∀ s buf out, R.turn s buf = .stop out → P s buf)
    (take : ∀ s buf s' used out more, R.turn s buf = .take s' used out more →
      P s' (buf.drop used) → P s buf) (s : σ) (buf : List α) : P s buf := by
  induction hn : buf.length using Nat.strongRecOn generalizing s buf with
  | ind n ih =>
    cases ht : R.turn s buf with
    | wait => exact wait s buf ht
    | stop out => exact stop s buf out ht
    | take s' used out more =>
      have hrest := rest_length_lt ht
      exact take s buf s' used out more ht (ih _ (hn ▸ hrest) s' (buf.drop used) rfl)

/-- The patient driver's events when the stream goes on with `ext`. -/
def idealFrom (R : Reader σ α ω) : Carry σ α → List α → List ω
  | none, _ => []
  | some (s, buf), ext => R.ideal s (buf ++ ext)

/-- The patient driver gets to every place another driver returns at. -/
theorem ideal_drive (ext : List α) (s : σ) (buf : List α) :
    R.ideal s (buf ++ ext) = (R.drive s buf).1 ++ R.idealFrom (R.drive s buf).2 ext := by
  induction s, buf using R.turn_induction with
  | wait s buf ht => rw [drive_wait ht]; rfl
  | stop s buf out ht =>
    rw [drive_stop ht, ideal_stop (by rw [R.extend ext (by rw [ht]; simp)]; exact ht)]
    exact (List.append_nil out).symm
  | take s buf s' used out more ht ih =>
    obtain ⟨hext, hdrop⟩ := extend_take ht ext
    rw [ideal_take hext, hdrop]
    cases more with
    | false => rw [drive_pause ht]; rfl
    | true => rw [drive_more ht, ih, List.append_assoc]

/-- **No cut gives more** than the patient driver. -/
theorem feed_prefix_ideal : ∀ (ps : List (List α)) (c : Carry σ α),
    (R.feed c ps).1 <+: R.idealFrom c ps.flatten
  | [], _ => List.nil_prefix
  | _ :: _, none => List.nil_prefix
  | p :: ps, some (s, buf) => by
    have ih := feed_prefix_ideal ps (R.drive s (buf ++ p)).2
    rw [feed, idealFrom, List.flatten_cons, ← List.append_assoc, ideal_drive]
    exact (List.prefix_append_right_inj _).2 ih

/-- Where a call of the driver ends for a longer buffer: at the same early return or stop, or
further on from the place where it waited. -/
theorem drive_append (s : σ) (buf : List α) :
    (∀ ext, (R.drive s (buf ++ ext)).1 = (R.drive s buf).1) ∨
      ∃ s' buf', (R.drive s buf).2 = some (s', buf') ∧ R.turn s' buf' = .wait ∧
        ∀ ext, (R.drive s (buf ++ ext)).1 = (R.drive s buf).1 ++ (R.drive s' (buf' ++ ext)).1 := by
  induction s, buf using R.turn_induction with
  | wait s buf ht => exact Or.inr ⟨s, buf, by rw [drive_wait ht], ht, by simp [drive_wait ht]⟩
  | stop s buf out ht =>
    refine Or.inl fun ext => ?_
    rw [drive_stop ht, drive_stop (by rw [R.extend ext (by rw [ht]; simp)]; exact ht)]
  | take s buf s' used out more ht ih =>
    cases more with
    | false =>
      refine Or.inl fun ext => ?_
      rw [drive_pause ht, drive_pause (extend_take ht ext).1]
    | true =>
      have hext : ∀ ext, (R.drive s (buf ++ ext)).1 =
          out ++ (R.drive s' (buf.drop used ++ ext)).1 := fun ext => by
        rw [drive_more (extend_take ht ext).1, (extend_take ht ext).2]
      rw [drive_more ht]
      rcases ih with ih | ⟨s'', buf'', hr, hw, ih⟩
      · exact Or.inl fun ext => by rw [hext, ih]
      · exact Or.inr ⟨s'', buf'', hr, hw, fun ext => by rw [hext, ih, List.append_assoc]⟩

/-- **No cut gives less** than the stream in one piece. -/
theorem whole_prefix_feed : ∀ (ps : List (List α)) (s : σ) (buf : List α),
    R.turn s buf = .wait → (R.drive s (buf ++ ps.flatten)).1 <+: (R.feed (some (s, buf)) ps).1
  | [], s, buf, hw => by
    rw [List.flatten_nil, List.append_nil, drive_wait hw]
    exact List.nil_prefix
  | p :: ps, s, buf, _ => by
    rw [feed, List.flatten_cons, ← List.append_assoc]
    dsimp only
    rcases R.drive_append s (buf ++ p) with h | ⟨s', buf', hr, hw, h⟩
    · rw [h]; exact List.prefix_append _ _
    · rw [h, hr]
      exact (List.prefix_append_right_inj _).2 (whole_prefix_feed ps s' buf' hw)

/-- A beginning of the stream that is too short for a take waits, -/
theorem wait_of_begin {more : Bool} (h : R.turn s buf = .take s' used out more) {p : List α}
    (hp : p <+: buf) (hlt : p.length < used) : R.turn s p = .wait := by
  obtain ⟨ext, rfl⟩ := hp
  by_contra hne
  rw [R.extend ext hne] at h
  have hle := R.used_le h
  omega

/-- and one that is long enough takes the same. -/
theorem take_of_begin {more : Bool} (h : R.turn s buf = .take s' used out more) {p : List α}
    (hp : p <+: buf) (hle : used ≤ p.length) : R.turn s p = .take s' used out more := by
  obtain ⟨ext, rfl⟩ := hp
  have hloc := R.local_take h
  rw [List.take_append_of_le_length hle] at hloc
  have hp' := R.extend (p.drop used) hloc
  rw [List.take_append_drop] at hp'
  rwa [R.extend ext (hp' ▸ hloc)] at h

/-- Nothing more comes out of the unused bytes. -/
inductive Silent (R : Reader σ α ω) : σ → List α → Prop where
  | wait {s : σ} {buf : List α} (h : R.turn s buf = .wait) : Silent R s buf
  | take {s s' : σ} {buf : List α} {used : ℕ} {more : Bool}
      (h : R.turn s buf = .take s' used [] more) (hrest : Silent R s' (buf.drop used)) :
      Silent R s buf

/-- What the first early return leaves behind, if there is one, is silent. -/
inductive Timely (R : Reader σ α ω) : σ → List α → Prop where
  | wait {s : σ} {buf : List α} (h : R.turn s buf = .wait) : Timely R s buf
  | stop {s : σ} {buf : List α} {out : List ω} (h : R.turn s buf = .stop out) : Timely R s buf
  | more {s s' : σ} {buf : List α} {used : ℕ} {out : List ω}
      (h : R.turn s buf = .take s' used out true) (hrest : Timely R s' (buf.drop used)) :
      Timely R s buf
  | pause {s s' : σ} {buf : List α} {used : ℕ} {out : List ω}
      (h : R.turn s buf = .take s' used out false) (hrest : Silent R s' (buf.drop used)) :
      Timely R s buf

def settleFuel (R : Reader σ α ω) : ℕ → σ → List α → List ω × σ × List α
  | 0, s, buf => ([], s, buf)
  | fuel + 1, s, buf =>
    match R.turn s buf with
    | .take s' used out _ =>
      let r := settleFuel R fuel s' (buf.drop used)
      (out ++ r.1, r.2)
    | _ => ([], s, buf)

/-- The events of all the takes; the state and the unused bytes at which the reader waits or
stops. -/
def settle (R : Reader σ α ω) (s : σ) (buf : List α) : List ω × σ × List α :=
  R.settleFuel (buf.length + 1) s buf

theorem settleFuel_eq : ∀ (fuel fuel' : ℕ) {s : σ} {buf : List α}, buf.length < fuel →
    buf.length < fuel' → R.settleFuel fuel s buf = R.settleFuel fuel' s buf
  | 0, _, _, _, h, _ => absurd h (Nat.not_lt_zero _)
  | _, 0, _, _, _, h => absurd h (Nat.not_lt_zero _)
  | fuel + 1, fuel' + 1, s, buf, h, h' => by
    rw [settleFuel, settleFuel]
    cases ht : R.turn s buf with
    | wait => rfl
    | stop => rfl
    | take s' used out more =>
      have hrest := rest_length_lt ht
      dsimp only
      rw [settleFuel_eq fuel fuel' (by omega) (by omega)]

theorem settle_wait (h : R.turn s buf = .wait) : R.settle s buf = ([], s, buf) := by
  rw [settle, settleFuel, h]

theorem settle_stop (h : R.turn s buf = .stop out) : R.settle s buf = ([], s, buf) := by
  rw [settle, settleFuel, h]

theorem settle_take {more : Bool} (h : R.turn s buf = .take s' used out more) :
    R.settle s buf = (out ++ (R.settle s' (buf.drop used)).1, (R.settle s' (buf.drop used)).2) := by
  have hrest := rest_length_lt h
  rw [settle, settleFuel, h]
  dsimp only
  rw [settle, settleFuel_eq buf.length ((buf.drop used).length + 1) (by omega) (by omega)]

/-- **A stream in two parts**: the takes of the first, and then those of what it left and the
second. -/
theorem settle_append (ext : List α) (s : σ) (buf : List α) :
    R.settle s (buf ++ ext) =
      ((R.settle s buf).1 ++ (R.settle (R.settle s buf).2.1 ((R.settle s buf).2.2 ++ ext)).1,
        (R.settle (R.settle s buf).2.1 ((R.settle s buf).2.2 ++ ext)).2) := by
  induction s, buf using R.turn_induction with
  | wait s buf ht => rw [settle_wait ht]; rfl
  | stop s buf out ht => rw [settle_stop ht]; rfl
  | take s buf s' used out more ht ih =>
    obtain ⟨hext, hdrop⟩ := extend_take ht ext
    rw [settle_take hext, settle_take ht, hdrop, ih]
    dsimp only
    rw [List.append_assoc]

/-- Silent turns and then one with events, which ends with the last byte; `P` holds of the states
the turns are taken from. -/
inductive Reads (R : Reader σ α ω) (P : σ → Prop) (s' : σ) (out : List ω) : σ → List α → Prop where
  | last {s : σ} {buf : List α} {more : Bool} (hs : P s)
      (h : R.turn s buf = .take s' buf.length out more) : Reads R P s' out s buf
  | silent {s s₁ : σ} {buf : List α} {used : ℕ} {more : Bool} (hs : P s)
      (h : R.turn s buf = .take s₁ used [] more) (hrest : Reads R P s' out s₁ (buf.drop used)) :
      Reads R P s' out s buf

/-- **Until the last byte** has arrived the reader waits. -/
theorem reads_begin {P : σ → Prop} (h : R.Reads P s' out s buf) : ∀ {p : List α}, p <+: buf →
    p.length < buf.length → (R.settle s p).1 = [] ∧ P (R.settle s p).2.1 ∧
      R.turn (R.settle s p).2.1 (R.settle s p).2.2 = .wait := by
  induction h with
  | last hs h =>
    intro p hp hlt
    have hw := wait_of_begin h hp hlt
    rw [settle_wait hw]
    exact ⟨rfl, hs, hw⟩
  | @silent s s₁ buf used more hs h hrest ih =>
    intro p hp hlt
    rcases Nat.lt_or_ge p.length used with hshort | hlong
    · have hw := wait_of_begin h hp hshort
      rw [settle_wait hw]
      exact ⟨rfl, hs, hw⟩
    · rw [settle_take (take_of_begin h hp hlong)]
      refine ih (hp.drop used) ?_
      rw [List.length_drop, List.length_drop]
      omega

/-- Nothing more can be taken where the reader has settled. -/
theorem settle_rest (s : σ) (buf : List α) :
    R.turn (R.settle s buf).2.1 (R.settle s buf).2.2 = .wait ∨
      ∃ out, R.turn (R.settle s buf).2.1 (R.settle s buf).2.2 = .stop out := by
  induction s, buf using R.turn_induction with
  | wait s buf ht => rw [settle_wait ht]; exact Or.inl ht
  | stop s buf out ht => rw [settle_stop ht]; exact Or.inr ⟨out, ht⟩
  | take s buf s' used out more ht ih => rw [settle_take ht]; exact ih

/-- The takes of a stream go on where a call of the driver has returned. -/
theorem drive_settle {s' : σ} {rest : List α} (ext : List α) (s : σ) (buf : List α) :
    (R.drive s buf).2 = some (s', rest) →
      (R.settle s (buf ++ ext)).2 = (R.settle s' (rest ++ ext)).2 := by
  induction s, buf using R.turn_induction with
  | wait s buf ht =>
    rw [drive_wait ht]
    rintro ⟨⟩
    rfl
  | stop s buf out ht =>
    rw [drive_stop ht]
    exact nofun
  | take s buf s₁ used out more ht ih =>
    obtain ⟨hext, hdrop⟩ := extend_take ht ext
    rw [settle_take hext, hdrop]
    cases more with
    | false =>
      rw [drive_pause ht]
      rintro ⟨⟩
      rfl
    | true =>
      rw [drive_more ht]
      exact ih

theorem feed_append : ∀ (ps qs : List (List α)) (c : Carry σ α),
    R.feed c (ps ++ qs) =
      ((R.feed c ps).1 ++ (R.feed (R.feed c ps).2 qs).1, (R.feed (R.feed c ps).2 qs).2)
  | [], _, _ => rfl
  | _ :: _, [], none => rfl
  | _ :: _, _ :: _, none => rfl
  | p :: ps, qs, some (s, buf) => by
    rw [List.cons_append, feed, feed, feed_append ps qs]
    dsimp only
    rw [List.append_assoc]

theorem feed_settle (ext : List α) : ∀ (ps : List (List α)) (s : σ) (buf : List α) {s' : σ}
    {rest : List α}, (R.feed (some (s, buf)) ps).2 = some (s', rest) →
      (R.settle s (buf ++ (ps.flatten ++ ext))).2 = (R.settle s' (rest ++ ext)).2
  | [], s, buf, s', rest, h => by
    cases h
    rfl
  | p :: ps, s, buf, s', rest, h => by
    rw [feed] at h
    dsimp only at h
    rw [List.flatten_cons, List.append_assoc, ← List.append_assoc buf p]
    cases hd : (R.drive s (buf ++ p)).2 with
    | none =>
      rw [hd] at h
      cases ps <;> cases h
    | some c =>
      obtain ⟨s₁, buf₁⟩ := c
      rw [hd] at h
      rw [drive_settle _ s (buf ++ p) hd]
      exact feed_settle ext ps s₁ buf₁ h

/-! ## A reader that stops at an event -/

/-- The same takes up to the first one whose events are the `last`; `answer` is what is put out for
the events of a take, `failed` where the reader stops. -/
def upTo {τ : Type*} (R : Reader σ α ω) (answer : List ω → List τ) (last : List ω → Bool)
    (failed : List τ) : Reader σ α τ where
  turn s buf :=
    match R.turn s buf with
    | .wait => .wait
    | .stop _ => .stop failed
    | .take s' used out more =>
      if last out then .stop (answer out) else .take s' used (answer out) more
  empty s := by rw [R.empty]
  used_pos {s buf s' used out more} h := by
    cases ht : R.turn s buf <;> rw [ht] at h
    · cases h
    · cases h
    · dsimp only at h
      split at h <;> cases h
      exact R.used_pos ht
  used_le {s buf s' used out more} h := by
    cases ht : R.turn s buf <;> rw [ht] at h
    · cases h
    · cases h
    · dsimp only at h
      split at h <;> cases h
      exact R.used_le ht
  extend {s buf} ext h := by
    have hne : R.turn s buf ≠ .wait := by
      intro hw; rw [hw] at h; exact h rfl
    rw [R.extend ext hne]
  local_take {s buf s' used out more} h := by
    cases ht : R.turn s buf <;> rw [ht] at h
    · cases h
    · cases h
    · dsimp only at h
      split at h <;> cases h
      have hne := R.local_take ht
      cases hb : R.turn s (buf.take _) with
      | wait => exact absurd hb hne
      | stop => simp
      | take => dsimp only; split <;> simp

section UpTo

variable {τ : Type*} {answer : List ω → List τ} {last : List ω → Bool} {failed : List τ}

theorem upTo_wait : (R.upTo answer last failed).turn s buf = .wait ↔ R.turn s buf = .wait := by
  unfold upTo
  dsimp only
  cases R.turn s buf with
  | take => dsimp only; split <;> simp
  | wait => simp
  | stop => simp

theorem upTo_stop (h : R.turn s buf = .stop out) :
    (R.upTo answer last failed).turn s buf = .stop failed := by
  unfold upTo
  dsimp only
  rw [h]

theorem upTo_last {more : Bool} (h : R.turn s buf = .take s' used out more)
    (hlast : last out = true) : (R.upTo answer last failed).turn s buf = .stop (answer out) := by
  unfold upTo
  dsimp only
  rw [h]
  exact if_pos hlast

theorem upTo_take {more : Bool} (h : R.turn s buf = .take s' used out more)
    (hlast : last out = false) :
    (R.upTo answer last failed).turn s buf = .take s' used (answer out) more := by
  unfold upTo
  dsimp only
  rw [h]
  exact if_neg (by rw [hlast]; exact Bool.false_ne_true)

end UpTo

/-- All the events of a stream are those of its takes and of the stop behind them. -/
theorem ideal_settle (s : σ) (buf : List α) :
    R.ideal s buf = (R.settle s buf).1 ++
      match R.turn (R.settle s buf).2.1 (R.settle s buf).2.2 with
      | .stop out => out
      | _ => [] := by
  induction s, buf using R.turn_induction with
  | wait s buf ht =>
    rw [settle_wait ht, ideal_wait ht]
    dsimp only
    rw [ht]
    rfl
  | stop s buf out ht =>
    rw [settle_stop ht, ideal_stop ht]
    dsimp only
    rw [ht]
    rfl
  | take s buf s' used out more ht ih =>
    rw [settle_take ht, ideal_take ht, ih]
    dsimp only
    rw [List.append_assoc]

end Reader

/-! ## One reader after another -/

/-- What becomes of the events of a take: the first reader goes on, the second one takes over, or
all is stopped. -/
inductive Handover (σ ω : Type*) where
  | stay
  | switch (next : σ) (out : List ω)
  | stop (out : List ω)

section Handover

variable {τ υ ν : Type*}

/-- A take by the first reader. -/
def Handover.turn (s' : σ) (used : ℕ) : Handover τ ν → Turn (σ ⊕ τ) ν
  | stay => .take (.inl s') used [] true
  | switch t out => .take (.inr t) used out true
  | stop out => .stop out

def Turn.before (next : List ω → Handover τ ν) (failed : List ν) : Turn σ ω → Turn (σ ⊕ τ) ν
  | wait => .wait
  | stop _ => .stop failed
  | take s' used out _ => (next out).turn s' used

def Turn.behind (say : υ → ν) : Turn τ υ → Turn (σ ⊕ τ) ν
  | wait => .wait
  | stop out => .stop (out.map say)
  | take t' used out more => .take (.inr t') used (out.map say) more

theorem isTurn_before (R : Reader σ α ω) (next : List ω → Handover τ ν) (failed : List ν) (s : σ) :
    IsTurn fun buf => (R.turn s buf).before next failed where
  empty := by rw [R.empty]; rfl
  take {buf s' used out more} h := by
    cases ht : R.turn s buf with
    | wait => rw [ht] at h; cases h
    | stop => rw [ht] at h; cases h
    | take s₁ used₁ out₁ more₁ =>
      rw [ht] at h
      obtain rfl : used₁ = used := by
        change (next out₁).turn s₁ used₁ = _ at h
        cases hnext : next out₁ <;> rw [hnext] at h <;> cases h <;> rfl
      refine ⟨R.used_pos ht, R.used_le ht, ?_⟩
      have hne := R.local_take ht
      cases hb : R.turn s (buf.take used₁) with
      | wait => exact absurd hb hne
      | stop => exact nofun
      | take s₂ used₂ out₂ more₂ =>
        change (next out₂).turn s₂ used₂ ≠ _
        cases next out₂ <;> exact nofun
  extend {buf} ext h := by
    rw [R.extend ext fun hw => h (by rw [hw]; rfl)]

theorem isTurn_behind (S : Reader τ α υ) (say : υ → ν) (t : τ) :
    IsTurn fun buf => ((S.turn t buf).behind say : Turn (σ ⊕ τ) ν) where
  empty := by rw [S.empty]; rfl
  take {buf t' used out more} h := by
    cases ht : S.turn t buf with
    | wait => rw [ht] at h; cases h
    | stop => rw [ht] at h; cases h
    | take t₁ used₁ out₁ more₁ =>
      rw [ht] at h
      cases h
      refine ⟨S.used_pos ht, S.used_le ht, ?_⟩
      have hne := S.local_take ht
      cases hb : S.turn t (buf.take used) with
      | wait => exact absurd hb hne
      | stop => exact nofun
      | take => exact nofun
  extend {buf} ext h := by
    rw [S.extend ext fun hw => h (by rw [hw]; rfl)]

/-- `R`, until it is handed over to `S` or stops; the driver goes on behind every take of `R`.
What `S` puts out is passed on as `say` has it. -/
def Reader.handover (R : Reader σ α ω) (S : Reader τ α υ) (next : List ω → Handover τ ν)
    (failed : List ν) (say : υ → ν) : Reader (σ ⊕ τ) α ν :=
  .ofTurns
    (fun
      | .inl s => fun buf => (R.turn s buf).before next failed
      | .inr t => fun buf => (S.turn t buf).behind say)
    fun
      | .inl s => isTurn_before R next failed s
      | .inr t => isTurn_behind S say t

end Handover

namespace Reader

section HandoverTurns

variable {τ υ ν : Type*} {R : Reader σ α ω} {S : Reader τ α υ} {next : List ω → Handover τ ν}
  {failed answer : List ν} {say : υ → ν} {s s' : σ} {t t' : τ} {buf : List α} {used : ℕ}
  {out : List ω} {told : List υ} {more : Bool}

theorem handover_first (s : σ) (buf : List α) :
    (R.handover S next failed say).turn (.inl s) buf = (R.turn s buf).before next failed := rfl

theorem handover_second (t : τ) (buf : List α) :
    (R.handover S next failed say).turn (.inr t) buf = (S.turn t buf).behind say := rfl

theorem handover_wait (h : R.turn s buf = .wait) :
    (R.handover S next failed say).turn (.inl s) buf = .wait := by
  rw [handover_first, h]
  rfl

theorem handover_stop (h : R.turn s buf = .stop out) :
    (R.handover S next failed say).turn (.inl s) buf = .stop failed := by
  rw [handover_first, h]
  rfl

theorem handover_take (h : R.turn s buf = .take s' used out more) :
    (R.handover S next failed say).turn (.inl s) buf = (next out).turn s' used := by
  rw [handover_first, h]
  rfl

theorem handover_second_wait (h : S.turn t buf = .wait) :
    (R.handover S next failed say).turn (.inr t) buf = .wait := by
  rw [handover_second, h]
  rfl

theorem handover_second_stop (h : S.turn t buf = .stop told) :
    (R.handover S next failed say).turn (.inr t) buf = .stop (told.map say) := by
  rw [handover_second, h]
  rfl

theorem handover_second_take (h : S.turn t buf = .take t' used told more) :
    (R.handover S next failed say).turn (.inr t) buf =
      .take (.inr t') used (told.map say) more := by
  rw [handover_second, h]
  rfl

/-- Behind the handover all events are those of the second reader. -/
theorem ideal_handover_second (t : τ) (buf : List α) :
    (R.handover S next failed say).ideal (.inr t) buf = (S.ideal t buf).map say := by
  induction t, buf using S.turn_induction with
  | wait t buf ht => rw [ideal_wait (handover_second_wait ht), ideal_wait ht, List.map_nil]
  | stop t buf told ht => rw [ideal_stop (handover_second_stop ht), ideal_stop ht]
  | take t buf t' used told more ht ih =>
    rw [ideal_take (handover_second_take ht), ideal_take ht, ih, List.map_append]

theorem drive_handover_second (t : τ) (buf : List α) :
    (R.handover S next failed say).drive (.inr t) buf = ((S.drive t buf).1.map say,
      (S.drive t buf).2.map fun c => (.inr c.1, c.2)) := by
  induction t, buf using S.turn_induction with
  | wait t buf ht => rw [drive_wait (handover_second_wait ht), drive_wait ht]; rfl
  | stop t buf told ht => rw [drive_stop (handover_second_stop ht), drive_stop ht]; rfl
  | take t buf t' used told more ht ih =>
    cases more with
    | false => rw [drive_pause (handover_second_take ht), drive_pause ht]; rfl
    | true => rw [drive_more (handover_second_take ht), drive_more ht, ih, List.map_append]

/-- Until the handover nothing is put out. -/
theorem drive_handover_first {rest : List α} (s : σ) (buf : List α) :
    ((R.handover S next failed say).drive (.inl s) buf).2 = some (.inl s', rest) →
      ((R.handover S next failed say).drive (.inl s) buf).1 = [] := by
  induction s, buf using R.turn_induction with
  | wait s buf ht =>
    rw [drive_wait (handover_wait ht)]
    exact fun _ => rfl
  | stop s buf out ht =>
    rw [drive_stop (handover_stop ht)]
    exact nofun
  | take s buf s₁ used out more ht ih =>
    have hturn := @handover_take _ _ _ _ _ _ R S next failed say _ _ _ _ _ _ ht
    cases hnext : next out with
    | stay =>
      rw [hnext] at hturn
      rw [drive_more hturn]
      exact ih
    | switch t answer =>
      rw [hnext] at hturn
      rw [drive_more hturn, drive_handover_second]
      cases (S.drive t (buf.drop used)).2 <;> exact nofun
    | stop answer =>
      rw [hnext] at hturn
      rw [drive_stop hturn]
      exact nofun

/-- While the first reader puts nothing out, it goes on. -/
theorem settle_handover_first (hstay : next [] = .stay) (s : σ) (buf : List α) :
    (R.settle s buf).1 = [] → (R.handover S next failed say).settle (.inl s) buf =
      ([], .inl (R.settle s buf).2.1, (R.settle s buf).2.2) := by
  induction s, buf using R.turn_induction with
  | wait s buf ht => rw [settle_wait (handover_wait ht), settle_wait ht]; exact fun _ => rfl
  | stop s buf out ht => rw [settle_stop (handover_stop ht), settle_stop ht]; exact fun _ => rfl
  | take s buf s₁ used out more ht ih =>
    rw [settle_take ht]
    intro hout
    obtain ⟨rfl, hout⟩ := List.append_eq_nil_iff.1 hout
    have hturn := @handover_take _ _ _ _ _ _ R S next failed say _ _ _ _ _ _ ht
    rw [hstay] at hturn
    rw [settle_take hturn, ih hout]
    rfl

theorem settle_handover_second (t : τ) (buf : List α) :
    (R.handover S next failed say).settle (.inr t) buf =
      ((S.settle t buf).1.map say, .inr (S.settle t buf).2.1, (S.settle t buf).2.2) := by
  induction t, buf using S.turn_induction with
  | wait t buf ht => rw [settle_wait (handover_second_wait ht), settle_wait ht]; rfl
  | stop t buf told ht => rw [settle_stop (handover_second_stop ht), settle_stop ht]; rfl
  | take t buf t' used told more ht ih =>
    rw [settle_take (handover_second_take ht), settle_take ht, ih, List.map_append]

/-- **Behind the events that hand over**, the second reader goes on with what is left. -/
theorem reads_handover {P : σ → Prop} (hstay : next [] = .stay)
    (hswitch : next out = .switch t answer) (h : R.Reads P s' out s buf) (ext : List α) :
    (R.handover S next failed say).ideal (.inl s) (buf ++ ext) =
        answer ++ (R.handover S next failed say).ideal (.inr t) ext ∧
      (R.handover S next failed say).drive (.inl s) (buf ++ ext) =
        (answer ++ ((R.handover S next failed say).drive (.inr t) ext).1,
          ((R.handover S next failed say).drive (.inr t) ext).2) ∧
      (R.handover S next failed say).settle (.inl s) (buf ++ ext) =
        (answer ++ ((R.handover S next failed say).settle (.inr t) ext).1,
          ((R.handover S next failed say).settle (.inr t) ext).2) := by
  induction h with
  | @last s buf more hs h =>
    have hturn := @handover_take _ _ _ _ _ _ R S next failed say _ _ _ _ _ _ (extend_take h ext).1
    rw [hswitch] at hturn
    rw [ideal_take hturn, drive_more hturn, settle_take hturn, List.drop_left]
    exact ⟨rfl, rfl, rfl⟩
  | @silent s s₁ buf used more hs h hrest ih =>
    obtain ⟨hext, hdrop⟩ := extend_take h ext
    have hturn := @handover_take _ _ _ _ _ _ R S next failed say _ _ _ _ _ _ hext
    rw [hstay] at hturn
    rw [ideal_take hturn, drive_more hturn, settle_take hturn, hdrop, ih.1, ih.2.1, ih.2.2]
    exact ⟨rfl, rfl, rfl⟩

end HandoverTurns

end Reader

end Segmentation
