import Brickred.CommandLineOption.RoundTrip

/-!
# A parameter behind its option, or in the next argument

* `Extends`, `parseFrom_extends` — parameters are added, and none is taken away.
* `parseFrom_append` — the loop over two parts of a command line.
* `attached_iff` — both ways to write a parameter are the same, exactly for the options and the
  parameters that can be written both ways.
-/

set_option autoImplicit false

namespace Brickred

namespace CommandLineOption

/-! ## What is added -/

/-- The same options, and the parameters of each begin with those it has had. -/
structure Extends (o o' : CommandLineOption) : Prop where
  optionTypes : o'.optionTypes = o.optionTypes
  params : ∀ opt, o.getParameters opt <+: o'.getParameters opt

theorem Extends.refl (o : CommandLineOption) : Extends o o := ⟨rfl, fun _ => List.prefix_rfl⟩

theorem Extends.trans {o o' o'' : CommandLineOption} (h : Extends o o') (h' : Extends o' o'') :
    Extends o o'' :=
  ⟨h'.optionTypes.trans h.optionTypes, fun opt => (h.params opt).trans (h'.params opt)⟩

theorem extends_pushAll (o : CommandLineOption) (given : List (List UInt8 × List UInt8)) :
    Extends o (o.pushAll given) := by
  refine ⟨pushAll_optionTypes given o, fun opt => ?_⟩
  rw [getParameters_pushAll]
  exact List.prefix_append _ _

/-- What has been given for the option is there, whatever follows. -/
theorem Extends.pushed {o o' : CommandLineOption} {opt param : List UInt8}
    (h : Extends (o.push opt param) o') :
    o.getParameters opt ++ [param] <+: o'.getParameters opt := by
  have hopt := h.params opt
  rwa [getParameters_push, if_pos rfl] at hopt

/-! ## One argument -/

/-- An argument that is an option, with what may be its parameter. -/
def readOption (o : CommandLineOption) (arg next : List UInt8) : Option Nat × CommandLineOption :=
  if isLongOption arg then processLongOption o arg next
  else processShortOption next o (arg.drop 1)

/-- What an argument gives, and how many arguments behind it are read: one if it is there, and
none otherwise. -/
structure Reads (o : CommandLineOption) (next : List UInt8) (r : Option Nat × CommandLineOption) :
    Prop where
  given : ∃ given, r.2 = o.pushAll given
  count : r.1 = Option.none ∨ r.1 = some 1 ∨ (r.1 = some 2 ∧ next ≠ [])

theorem processLongOption_reads (o : CommandLineOption) (arg next : List UInt8) :
    processLongOption o arg next = (Option.none, o) ∨
      ∃ opt param, (processLongOption o arg next).2 = o.push opt param ∧
        ((processLongOption o arg next).1 = some 1 ∨
          (processLongOption o arg next).1 = some 2 ∧ next ≠ []) := by
  unfold processLongOption
  dsimp only
  split
  · exact Or.inl rfl
  · split
    · exact Or.inl rfl
    · exact Or.inr ⟨_, _, rfl, Or.inl rfl⟩
  · split
    · exact Or.inr ⟨_, _, rfl, Or.inl rfl⟩
    · split
      · exact Or.inl rfl
      · rename_i hnext
        exact Or.inr ⟨_, _, rfl, Or.inr ⟨rfl, hnext⟩⟩

theorem processShortOption_reads (next : List UInt8) : ∀ (cs : List UInt8) (o : CommandLineOption),
    Reads o next (processShortOption next o cs)
  | [], o => ⟨⟨[], rfl⟩, Or.inr (Or.inl rfl)⟩
  | c :: rest, o => by
    rw [processShortOption]
    split
    · exact ⟨⟨[], rfl⟩, Or.inl rfl⟩
    · obtain ⟨⟨given, hgiven⟩, hcount⟩ := processShortOption_reads next rest (o.push [c] [])
      exact ⟨⟨([c], []) :: given, hgiven⟩, hcount⟩
    · split
      · exact ⟨⟨[([c], rest)], rfl⟩, Or.inr (Or.inl rfl)⟩
      · split
        · exact ⟨⟨[], rfl⟩, Or.inl rfl⟩
        · rename_i hnext
          exact ⟨⟨[([c], next)], rfl⟩, Or.inr (Or.inr ⟨rfl, hnext⟩)⟩

theorem readOption_reads (o : CommandLineOption) (arg next : List UInt8) :
    Reads o next (readOption o arg next) := by
  unfold readOption
  split
  · obtain hfail | ⟨opt, param, hpush, hcount⟩ := processLongOption_reads o arg next
    · rw [hfail]
      exact ⟨⟨[], rfl⟩, Or.inl rfl⟩
    · exact ⟨⟨[(opt, param)], hpush⟩, Or.inr hcount⟩
  · exact processShortOption_reads next _ o

theorem parseFrom_option {arg : List UInt8} (hopt : isOption arg = true) (hne : arg ≠ [45, 45])
    (o : CommandLineOption) (rest : List (List UInt8)) :
    parseFrom o (arg :: rest) =
      match readOption o arg (nextParam rest) with
      | (Option.none, o) => (false, o)
      | (some ret, o) => parseFrom o (rest.drop (ret - 1)) := by
  rw [parseFrom, if_neg hne, if_neg (by rw [hopt]; decide), readOption]
  generalize (if isLongOption arg = true then processLongOption o arg (nextParam rest)
    else processShortOption (nextParam rest) o (arg.drop 1)) = r
  obtain ⟨_ | ret, o'⟩ := r <;> rfl

theorem parseFrom_dashes {name : List UInt8} (hne : name ≠ []) (o : CommandLineOption)
    (rest : List (List UInt8)) :
    parseFrom o ((45 :: 45 :: name) :: rest) =
      match processLongOption o (45 :: 45 :: name) (nextParam rest) with
      | (Option.none, o) => (false, o)
      | (some ret, o) => parseFrom o (rest.drop (ret - 1)) := by
  rw [parseFrom_option (isOption_dashes name) (by simpa using hne), readOption,
    if_pos (isLongOption_dashes hne)]

theorem not_optionLike {arg : List UInt8} (h : ¬ isOption arg = true) : ¬ OptionLike arg :=
  fun hlike => h (isOption_iff.2 hlike)

/-! ## The loop -/

theorem parseFrom_extends : ∀ (args : List (List UInt8)) (o : CommandLineOption),
    Extends o (parseFrom o args).2
  | [], o => by
    rw [parseFrom]
    exact Extends.refl o
  | arg :: rest, o => by
    by_cases hdash : arg = [45, 45]
    · rw [hdash, parseFrom_rest]
      exact ⟨rfl, fun _ => List.prefix_rfl⟩
    by_cases hopt : isOption arg = true
    · obtain ⟨⟨given, hgiven⟩, _⟩ := readOption_reads o arg (nextParam rest)
      rw [parseFrom_option hopt hdash]
      generalize readOption o arg (nextParam rest) = r at hgiven
      obtain ⟨ret, o'⟩ := r
      have hread : Extends o o' := by
        rw [show o' = o.pushAll given from hgiven]
        exact extends_pushAll o given
      cases ret with
      | none => exact hread
      | some ret => exact hread.trans (parseFrom_extends (rest.drop (ret - 1)) o')
    · rw [parseFrom_left (not_optionLike hopt)]
      obtain ⟨htypes, hparams⟩ := parseFrom_extends rest { o with leftArgs := o.leftArgs ++ [arg] }
      exact ⟨htypes, hparams⟩
  termination_by args => args.length
  decreasing_by
    · rw [List.length_drop, List.length_cons]
      omega
    · exact Nat.lt_succ_self _

/-- The next argument is looked at only to see whether it is an option. -/
theorem nextParam_append {tail : List (List UInt8)} (htail : nextParam tail = []) :
    ∀ rest : List (List UInt8), nextParam (rest ++ tail) = nextParam rest
  | [] => htail
  | _ :: _ => rfl

/-- The arguments that are read with an option are among those of the first part. -/
theorem drop_append_of_reads {rest tail : List (List UInt8)} {ret : Nat}
    (h : ret = 1 ∨ (ret = 2 ∧ nextParam rest ≠ [])) :
    (rest ++ tail).drop (ret - 1) = rest.drop (ret - 1) ++ tail ∧
      ([45, 45] ∈ rest.drop (ret - 1) ↔ [45, 45] ∈ rest) := by
  obtain rfl | ⟨rfl, hnext⟩ := h
  · exact ⟨rfl, Iff.rfl⟩
  · cases rest with
    | nil => exact absurd rfl hnext
    | cons next rest =>
      refine ⟨rfl, ?_⟩
      have hne : [45, 45] ≠ next := by
        rintro rfl
        exact hnext rfl
      exact ⟨List.mem_cons_of_mem _, fun h => (List.mem_cons.1 h).resolve_left hne⟩

/-- **A command line in two parts**, of which the second begins with an option: the loop fails in
the first one, or it comes to a `--` there, or it goes on with the second. -/
theorem parseFrom_append {tail : List (List UInt8)} (htail : nextParam tail = []) :
    ∀ (pre : List (List UInt8)) (o : CommandLineOption),
    parseFrom o (pre ++ tail) =
      if (parseFrom o pre).1 = false then parseFrom o pre
      else if [45, 45] ∈ pre then
        (true, { (parseFrom o pre).2 with leftArgs := (parseFrom o pre).2.leftArgs ++ tail })
      else parseFrom (parseFrom o pre).2 tail
  | [], o => by
    rw [show parseFrom o [] = (true, o) by rw [parseFrom]]
    rfl
  | arg :: rest, o => by
    rw [List.cons_append]
    by_cases hdash : arg = [45, 45]
    · rw [hdash, parseFrom_rest, parseFrom_rest, if_neg Bool.noConfusion, if_pos List.mem_cons_self,
        List.append_assoc]
    have hmem : [45, 45] ∈ arg :: rest ↔ [45, 45] ∈ rest :=
      ⟨fun h => (List.mem_cons.1 h).resolve_left (Ne.symm hdash), List.mem_cons_of_mem _⟩
    by_cases hopt : isOption arg = true
    · obtain ⟨_, hcount⟩ := readOption_reads o arg (nextParam rest)
      rw [parseFrom_option hopt hdash, parseFrom_option hopt hdash, nextParam_append htail]
      generalize readOption o arg (nextParam rest) = r at hcount
      obtain ⟨_ | ret, o'⟩ := r
      · rfl
      · have hret : ret = 1 ∨ (ret = 2 ∧ nextParam rest ≠ []) := by simpa using hcount
        obtain ⟨hdrop, hmem'⟩ := @drop_append_of_reads rest tail ret hret
        dsimp only
        rw [hdrop, parseFrom_append htail (rest.drop (ret - 1)) o']
        exact if_congr Iff.rfl rfl (if_congr (hmem'.trans hmem.symm) rfl rfl)
    · rw [parseFrom_left (not_optionLike hopt), parseFrom_left (not_optionLike hopt),
        parseFrom_append htail rest]
      exact if_congr Iff.rfl rfl (if_congr hmem.symm rfl rfl)
  termination_by pre => pre.length
  decreasing_by
    · rw [List.length_drop, List.length_cons]
      omega
    · exact Nat.lt_succ_self _

/-! ## Two ways to write a parameter -/

inductive Opt where
  | long (name : List UInt8)
  | short (c : UInt8)

namespace Opt

def name : Opt → List UInt8
  | long name => name
  | short c => [c]

/-- `--name`, `-c` -/
def arg : Opt → List UInt8
  | long name => 45 :: 45 :: name
  | short c => [45, c]

/-- `--name=param`, `-cparam` -/
def attached (param : List UInt8) : Opt → List UInt8
  | long name => 45 :: 45 :: (name ++ 61 :: param)
  | short c => 45 :: c :: param

/-- Both ways are the same: a name that ends where it is meant to, or one that is rejected both
times, and a parameter that is not taken for none. -/
def Agrees (o : CommandLineOption) (param : List UInt8) : Opt → Prop
  | long name =>
    if 61 ∈ name then o.optionTypes.find (name.takeWhile (· ≠ 61)) ≠ some .required
    else name ≠ [] ∧ param ≠ []
  | short c => c ≠ 45

end Opt

/-- The same result, and the same is stored. -/
structure Same (r r' : Bool × CommandLineOption) : Prop where
  result : r.1 = r'.1
  params : ∀ opt, r.2.getParameters opt = r'.2.getParameters opt
  left : r.2.getLeftArguments = r'.2.getLeftArguments

theorem Same.refl (r : Bool × CommandLineOption) : Same r r := ⟨rfl, fun _ => rfl, rfl⟩

section Forms

variable {o : CommandLineOption} {param : List UInt8} {post : List (List UInt8)}

/-- A parameter that was pushed on one side only. -/
theorem not_same_of_pushed {opt x : List UInt8} {r r' : Bool × CommandLineOption}
    (h : Extends (o.push opt x) r.2) (h' : r'.2.getParameters opt = o.getParameters opt) :
    ¬ Same r r' := by
  intro hsame
  have hlength := h.pushed.length_le
  rw [hsame.params, h', List.length_append, List.length_singleton] at hlength
  omega

/-- Different parameters at the same place. -/
theorem not_same_of_ne {opt x x' : List UInt8} {r r' : Bool × CommandLineOption} (hne : x ≠ x')
    (h : Extends (o.push opt x) r.2) (h' : Extends (o.push opt x') r'.2) : ¬ Same r r' := by
  intro hsame
  have hx := h.pushed
  rw [hsame.params] at hx
  have heq := List.prefix_of_prefix_length_le hx h'.pushed (by simp)
  have heq' := heq.eq_of_length (by simp)
  exact hne (List.cons.inj (List.append_cancel_left heq')).1

/-- An argument with `=` in it is an option up to there. -/
theorem processLongOption_equals {name x next : List UInt8} (h : 61 ∉ name)
    (hnul : 0 ∉ name ++ 61 :: x) :
    processLongOption o (45 :: 45 :: (name ++ 61 :: x)) next =
      if o.optionTypes.find name = some .required then (some 1, o.push name x)
      else (Option.none, o) := by
  unfold processLongOption
  rw [split_argument hnul, split_joined h]
  cases hfind : o.optionTypes.find name with
  | none => simp [hfind]
  | some paramType => cases paramType <;> simp [hfind]

theorem parseFrom_equals {name x : List UInt8} {rest : List (List UInt8)} (h : 61 ∉ name)
    (hnul : 0 ∉ name ++ 61 :: x) :
    parseFrom o ((45 :: 45 :: (name ++ 61 :: x)) :: rest) =
      if o.optionTypes.find name = some .required then parseFrom (o.push name x) rest
      else (false, o) := by
  have hne : name ++ 61 :: x ≠ [] := by simp
  rw [parseFrom_dashes hne, processLongOption_equals h hnul]
  split_ifs <;> rfl

/-- A name with `=` in it. -/
theorem name_equals {name : List UInt8} (h : 61 ∈ name) :
    ∃ rest, name = name.takeWhile (· ≠ 61) ++ 61 :: rest ∧ 61 ∉ name.takeWhile (· ≠ 61) := by
  obtain ⟨front, rest, rfl, hfront⟩ := List.eq_append_cons_of_mem h
  have htake : (front ++ 61 :: rest).takeWhile (· ≠ 61) = front := by
    have hpos : ∀ c ∈ front, decide (c ≠ 61) = true := fun c hc =>
      decide_eq_true fun heq => hfront (heq ▸ hc)
    rw [List.takeWhile_append_of_pos hpos, List.takeWhile_cons_of_neg (by decide), List.append_nil]
  rw [htake]
  exact ⟨rest, rfl, hfront⟩

/-- An empty argument is taken for none. -/
theorem parseFrom_missing {name : List UInt8} (h : IsLong o name .required) (hnul : 0 ∉ name) :
    parseFrom o ((45 :: 45 :: name) :: [] :: post) = (false, o) := by
  have hread : processLongOption o (45 :: 45 :: name) (nextParam ([] :: post)) =
      (Option.none, o) := by
    unfold processLongOption
    rw [split_argument hnul, split_name h.2.1]
    simp [h.2.2, nextParam, isOption]
  rw [parseFrom_dashes h.1, hread]

/-- **The option and its parameter**, at the head of the command line. -/
theorem same_long_iff {name : List UInt8} (hrequired : o.optionTypes.find name = some .required)
    (hvalue : isOption param = false) (hnul : 0 ∉ name ++ 61 :: param) :
    Same (parseFrom o ((Opt.long name).attached param :: post))
        (parseFrom o ((Opt.long name).arg :: param :: post)) ↔
      (Opt.long name).Agrees o param := by
  unfold Opt.attached Opt.arg Opt.Agrees
  dsimp only
  by_cases hequals : 61 ∈ name
  · rw [if_pos hequals]
    obtain ⟨rest, hname, hfront⟩ := name_equals hequals
    generalize name.takeWhile (· ≠ 61) = front at hname hfront ⊢
    subst hname
    rw [List.append_assoc, List.cons_append] at hnul ⊢
    rw [parseFrom_equals hfront hnul, parseFrom_equals hfront fun h0 => hnul (by
      rw [List.mem_append, List.mem_cons] at h0 ⊢
      exact h0.imp_right (Or.imp_right (List.mem_append_left _)))]
    by_cases hfind : o.optionTypes.find front = some .required
    · rw [if_pos hfind, if_pos hfind]
      refine iff_of_false ?_ (not_not_intro hfind)
      refine not_same_of_ne ?_ (parseFrom_extends _ _) (parseFrom_extends _ _)
      intro heq
      have hlength := congrArg List.length heq
      simp at hlength
    · rw [if_neg hfind, if_neg hfind]
      exact iff_of_true (Same.refl _) hfind
  · rw [if_neg hequals, parseFrom_equals hequals hnul, if_pos hrequired]
    have hfirst := parseFrom_extends post (o.push name param)
    by_cases hname : name = []
    · subst hname
      rw [parseFrom_rest]
      exact iff_of_false (not_same_of_pushed hfirst rfl) fun h => h.1 rfl
    have hlong : IsLong o name .required := ⟨hname, hequals, hrequired⟩
    have hnul' : 0 ∉ name := fun h0 => hnul (List.mem_append_left _ h0)
    by_cases hparam : param = []
    · subst hparam
      rw [parseFrom_missing hlong hnul']
      exact iff_of_false (not_same_of_pushed hfirst rfl) fun h => h.2 rfl
    · have hread : processLongOption o (45 :: 45 :: name) (nextParam (param :: post)) =
          (some 2, o.push name param) := by
        rw [nextParam_separate (separate_of_isOption hparam hvalue)]
        exact processLongOption_apart hlong hnul' hparam
      rw [parseFrom_long (k := 1) hname hread]
      exact iff_of_true (Same.refl _) ⟨hname, hparam⟩

theorem same_short_iff {c : UInt8} (hrequired : o.optionTypes.find [c] = some .required)
    (hvalue : isOption param = false) (hparam : param ≠ []) :
    Same (parseFrom o ((Opt.short c).attached param :: post))
        (parseFrom o ((Opt.short c).arg :: param :: post)) ↔
      (Opt.short c).Agrees o param := by
  unfold Opt.attached Opt.arg Opt.Agrees
  dsimp only
  by_cases hc : c = 45
  · subst hc
    rw [parseFrom_rest]
    refine iff_of_false (fun hsame => ?_) (not_not_intro rfl)
    rw [parseFrom_dashes hparam] at hsame
    obtain hfail | ⟨name, x, hpush, _⟩ := processLongOption_reads o (45 :: 45 :: param)
      (nextParam post)
    · rw [hfail] at hsame
      exact Bool.false_ne_true hsame.result
    · generalize processLongOption o (45 :: 45 :: param) (nextParam post) = r at hpush hsame
      obtain ⟨ret, o'⟩ := r
      have hpush' : o' = o.push name x := hpush
      subst hpush'
      cases ret with
      | none => exact Bool.false_ne_true hsame.result
      | some ret =>
        have hread := parseFrom_extends (post.drop (ret - 1)) (o.push name x)
        exact absurd hsame (not_same_of_pushed hread rfl)
  · have hread : processShortOption (nextParam (param :: post)) o [c] =
        (some 2, o.push [c] param) := by
      rw [nextParam_separate (separate_of_isOption hparam hvalue)]
      exact processShortOption_apart ⟨hc, hrequired⟩ hparam
    rw [parseFrom_short (k := 1) hc hread,
      parseFrom_short (k := 0) hc (processShortOption_joined ⟨hc, hrequired⟩ hparam)]
    exact iff_of_true (Same.refl _) hc

/-! ## Anywhere in a command line -/

/-- Behind a `--` both are left over, as one argument or as two. -/
theorem not_same_left (args args' : List (List UInt8)) (h : args.length ≠ args'.length) :
    ¬ Same (true, { o with leftArgs := o.leftArgs ++ args })
      (true, { o with leftArgs := o.leftArgs ++ args' }) := by
  intro hsame
  have hlength := congrArg List.length hsame.left
  change (o.leftArgs ++ args).length = (o.leftArgs ++ args').length at hlength
  rw [List.length_append, List.length_append] at hlength
  omega

theorem Opt.Agrees.congr {o' : CommandLineOption} (h : o'.optionTypes = o.optionTypes) (opt : Opt) :
    opt.Agrees o' param ↔ opt.Agrees o param := by
  cases opt with
  | long name =>
    unfold Opt.Agrees
    rw [h]
  | short c => exact Iff.rfl

theorem nextParam_option {arg : List UInt8} (h : isOption arg = true)
    (rest : List (List UInt8)) : nextParam (arg :: rest) = [] := if_pos h

end Forms

/-- Two command lines that differ in the way a parameter is written. -/
structure BothForms (o : CommandLineOption) (pre : List (List UInt8)) (opt : Opt)
    (param : List UInt8) (post : List (List UInt8)) (argv argv' : List CString) : Prop where
  required : o.optionTypes.find opt.name = some .required
  value : isOption param = false
  /-- a short option with nothing behind it has no parameter there -/
  short : ∀ c, opt = .short c → param ≠ []
  attached : (argv.drop 1).map Subtype.val = pre ++ opt.attached param :: post
  apart : (argv'.drop 1).map Subtype.val = pre ++ opt.arg :: param :: post

section BothForms

variable {o : CommandLineOption} {pre post : List (List UInt8)} {opt : Opt} {param : List UInt8}
  {argv argv' : List CString}

/-- The two ways at the head of what is left of the command line. -/
theorem BothForms.same_iff (h : BothForms o pre opt param post argv argv') {o' : CommandLineOption}
    (htypes : o'.optionTypes = o.optionTypes) :
    Same (parseFrom o' (opt.attached param :: post)) (parseFrom o' (opt.arg :: param :: post)) ↔
      opt.Agrees o param := by
  rw [← Opt.Agrees.congr htypes]
  have hrequired := h.required
  rw [← htypes] at hrequired
  cases opt with
  | long name =>
    refine same_long_iff hrequired h.value fun h0 => ?_
    have hmem : (Opt.long name).attached param ∈ (argv.drop 1).map Subtype.val := by
      rw [h.attached]
      exact List.mem_append_right _ List.mem_cons_self
    obtain ⟨s, _, hs⟩ := List.mem_map.1 hmem
    refine s.2 ?_
    rw [hs]
    exact List.mem_cons_of_mem _ (List.mem_cons_of_mem _ h0)
  | short c => exact same_short_iff hrequired h.value (h.short c rfl)

/-- **Attached or apart**: the same is parsed if the loop fails before it comes to the option, and
otherwise exactly if it comes to it, and not to a `--` before, and both ways agree. -/
theorem attached_iff (h : BothForms o pre opt param post argv argv') :
    Same (parse o argv) (parse o argv') ↔
      (parseFrom o pre).1 = false ∨ ([45, 45] ∉ pre ∧ opt.Agrees o param) := by
  have hattached : nextParam (opt.attached param :: post) = [] := by
    refine nextParam_option (isOption_iff.2 ?_) post
    cases opt <;> exact ⟨rfl, by simp [Opt.attached]⟩
  have hapart : nextParam (opt.arg :: param :: post) = [] := by
    refine nextParam_option (isOption_iff.2 ?_) _
    cases opt <;> exact ⟨rfl, by simp [Opt.arg]⟩
  unfold parse
  rw [h.attached, h.apart, parseFrom_append hattached, parseFrom_append hapart]
  by_cases hfail : (parseFrom o pre).1 = false
  · rw [if_pos hfail, if_pos hfail]
    exact iff_of_true (Same.refl _) (Or.inl hfail)
  · rw [if_neg hfail, if_neg hfail, or_iff_right hfail]
    by_cases hdash : [45, 45] ∈ pre
    · rw [if_pos hdash, if_pos hdash]
      exact iff_of_false (not_same_left _ _ (by simp)) fun hagree => hagree.1 hdash
    · rw [if_neg hdash, if_neg hdash, and_iff_right hdash]
      exact h.same_iff (parseFrom_extends pre o).optionTypes

end BothForms

/-- `q z --out=y` -/
def outAttached : List CString :=
  [⟨[113], by decide⟩, ⟨[122], by decide⟩, ⟨[45, 45, 111, 117, 116, 61, 121], by decide⟩]

/-- `q z --out y` -/
def outApart : List CString :=
  [⟨[113], by decide⟩, ⟨[122], by decide⟩, ⟨[45, 45, 111, 117, 116], by decide⟩,
    ⟨[121], by decide⟩]

theorem attached_out :
    Same (parse (declare formsTable) outAttached) (parse (declare formsTable) outApart) ↔
      (parseFrom (declare formsTable) [[122]]).1 = false ∨
        (([45, 45] : List UInt8) ∉ [[122]] ∧
          (Opt.long [111, 117, 116]).Agrees (declare formsTable) [121]) := by
  have hforms : BothForms (declare formsTable) [[122]] (.long [111, 117, 116]) [121] []
      outAttached outApart := ⟨by decide, by decide, fun c h => (by cases h), rfl, rfl⟩
  exact attached_iff hforms

/-- `prog --out=` and `prog --out ""` -/
theorem not_same_empty : ∃ argv argv',
    BothForms (declare formsTable) [] (.long [111, 117, 116]) [] [] argv argv' ∧
      ¬ Same (parse (declare formsTable) argv) (parse (declare formsTable) argv') := by
  have hforms : BothForms (declare formsTable) [] (.long [111, 117, 116]) [] []
      [⟨[112], by decide⟩, ⟨[45, 45, 111, 117, 116, 61], by decide⟩]
      [⟨[112], by decide⟩, ⟨[45, 45, 111, 117, 116], by decide⟩, ⟨[], by decide⟩] :=
    ⟨by decide, by decide, fun c h => (by cases h), rfl, rfl⟩
  refine ⟨_, _, hforms, fun hsame => ?_⟩
  have hagree := (hforms.same_iff rfl).1 hsame
  unfold Opt.Agrees at hagree
  dsimp only at hagree
  rw [if_neg (by decide)] at hagree
  exact hagree.2 rfl

end CommandLineOption

end Brickred
