import Brickred.CommandLineOption

/-!
# Parsing a rendered command line

* `Item` — what a command line is made of, in every form in which it may be written; `render` is
  the one or two arguments of it.
* `Item.given`, `Item.left` — the parameters an item gives, and the argument that is left over.
* `parseFrom_item` — the loop goes past the arguments of one item, whatever follows.
* `parse_render` — and so past those of all items.
-/

set_option autoImplicit false

namespace Brickred

namespace CommandLineOption

inductive Item where
  /-- `--n` -/
  | longFlag (name : List UInt8)
  /-- `--n=v` -/
  | longJoined (name param : List UInt8)
  /-- `--n v` -/
  | longApart (name param : List UInt8)
  /-- `-abc` -/
  | cluster (flags : List UInt8)
  /-- `-abcxv` -/
  | clusterJoined (flags : List UInt8) (opt : UInt8) (param : List UInt8)
  /-- `-abcx v` -/
  | clusterApart (flags : List UInt8) (opt : UInt8) (param : List UInt8)
  | positional (arg : List UInt8)

namespace Item

def render : Item → List (List UInt8)
  | longFlag name => [45 :: 45 :: name]
  | longJoined name param => [45 :: 45 :: (name ++ 61 :: param)]
  | longApart name param => [45 :: 45 :: name, param]
  | cluster flags => [45 :: flags]
  | clusterJoined flags opt param => [45 :: (flags ++ opt :: param)]
  | clusterApart flags opt param => [45 :: (flags ++ [opt]), param]
  | positional arg => [arg]

/-- The options with their parameters; a flag has an empty one. -/
def given : Item → List (List UInt8 × List UInt8)
  | longFlag name => [(name, [])]
  | longJoined name param => [(name, param)]
  | longApart name param => [(name, param)]
  | cluster flags => flags.map fun c => ([c], [])
  | clusterJoined flags opt param => flags.map (fun c => ([c], [])) ++ [([opt], param)]
  | clusterApart flags opt param => flags.map (fun c => ([c], [])) ++ [([opt], param)]
  | positional _ => []

def left : Item → List (List UInt8)
  | positional arg => [arg]
  | _ => []

end Item

/-- `-` is followed by something. -/
def OptionLike (arg : List UInt8) : Prop := arg.head? = some 45 ∧ arg ≠ [45]

/-- What may be given as an argument of its own. -/
def Separate (param : List UInt8) : Prop := param ≠ [] ∧ ¬ OptionLike param

def IsLong (o : CommandLineOption) (name : List UInt8) (paramType : ParameterType) : Prop :=
  name ≠ [] ∧ 61 ∉ name ∧ o.optionTypes.find name = some paramType

def IsShort (o : CommandLineOption) (opt : UInt8) (paramType : ParameterType) : Prop :=
  opt ≠ 45 ∧ o.optionTypes.find [opt] = some paramType

/-- The options of the item are declared, with or without a parameter as they are used. -/
def Item.Accepted (o : CommandLineOption) : Item → Prop
  | longFlag name => IsLong o name .none
  | longJoined name _ => IsLong o name .required
  | longApart name param => IsLong o name .required ∧ Separate param
  | cluster flags => flags ≠ [] ∧ ∀ c ∈ flags, IsShort o c .none
  | clusterJoined flags opt param =>
    (∀ c ∈ flags, IsShort o c .none) ∧ IsShort o opt .required ∧ param ≠ []
  | clusterApart flags opt param =>
    (∀ c ∈ flags, IsShort o c .none) ∧ IsShort o opt .required ∧ Separate param
  | positional arg => ¬ OptionLike arg

section Decide

variable (o : CommandLineOption)

instance (arg : List UInt8) : Decidable (OptionLike arg) :=
  inferInstanceAs (Decidable (_ ∧ _))

instance (param : List UInt8) : Decidable (Separate param) :=
  inferInstanceAs (Decidable (_ ∧ _))

instance (name : List UInt8) (paramType : ParameterType) : Decidable (IsLong o name paramType) :=
  inferInstanceAs (Decidable (_ ∧ _))

instance (opt : UInt8) (paramType : ParameterType) : Decidable (IsShort o opt paramType) :=
  inferInstanceAs (Decidable (_ ∧ _))

instance : (it : Item) → Decidable (it.Accepted o)
  | .longFlag _ | .longJoined _ _ => inferInstanceAs (Decidable (IsLong _ _ _))
  | .longApart _ _ | .cluster _ | .clusterJoined _ _ _ | .clusterApart _ _ _ =>
    inferInstanceAs (Decidable (_ ∧ _))
  | .positional arg => inferInstanceAs (Decidable (¬ OptionLike arg))

end Decide

/-- What follows `--`, where there is one. -/
def renderRest : Option (List (List UInt8)) → List (List UInt8)
  | none => []
  | some rest => [45, 45] :: rest

/-! ## Arguments -/

theorem isOption_iff {arg : List UInt8} : isOption arg = true ↔ OptionLike arg := by
  unfold isOption OptionLike
  rw [decide_eq_true_eq]
  match arg with
  | [] => simp
  | [c] => simp
  | c :: c' :: rest => simp

theorem isOption_eq_false {arg : List UInt8} (h : ¬ OptionLike arg) : isOption arg = false :=
  Bool.eq_false_iff.2 fun hopt => h (isOption_iff.1 hopt)

theorem nextParam_separate {param : List UInt8} (h : Separate param)
    (rest : List (List UInt8)) : nextParam (param :: rest) = param := by
  have hopt : ¬ isOption param = true := fun hp => h.2 (isOption_iff.1 hp)
  exact if_neg hopt

theorem separate_of_isOption {param : List UInt8} (hne : param ≠ [])
    (h : isOption param = false) : Separate param := by
  refine ⟨hne, fun hlike => ?_⟩
  rw [isOption_iff.2 hlike] at h
  cases h

theorem isOption_dashes (name : List UInt8) : isOption (45 :: 45 :: name) = true :=
  isOption_iff.2 ⟨rfl, by simp⟩

theorem isLongOption_dashes {name : List UInt8} (h : name ≠ []) :
    isLongOption (45 :: 45 :: name) = true := by
  have hpos := List.length_pos_iff.2 h
  simp [isLongOption, hpos]

section Steps

variable {o o' : CommandLineOption} {arg : List UInt8} {rest : List (List UInt8)}

theorem parseFrom_rest (o : CommandLineOption) (rest : List (List UInt8)) :
    parseFrom o ([45, 45] :: rest) = (true, { o with leftArgs := o.leftArgs ++ rest }) := by
  rw [parseFrom, if_pos rfl]

theorem parseFrom_left (h : ¬ OptionLike arg) :
    parseFrom o (arg :: rest) = parseFrom { o with leftArgs := o.leftArgs ++ [arg] } rest := by
  have hne : arg ≠ [45, 45] := fun heq => h (heq ▸ ⟨rfl, by decide⟩)
  rw [parseFrom, if_neg hne, if_pos (isOption_eq_false h)]

/-- An argument that begins with `--`, and is read with `k` arguments behind it. -/
theorem parseFrom_long {name : List UInt8} {k : Nat} (hname : name ≠ [])
    (h : processLongOption o (45 :: 45 :: name) (nextParam rest) = (some (k + 1), o')) :
    parseFrom o ((45 :: 45 :: name) :: rest) = parseFrom o' (rest.drop k) := by
  have hne : (45 :: 45 :: name : List UInt8) ≠ [45, 45] := by simpa using hname
  rw [parseFrom, if_neg hne, if_neg (by rw [isOption_dashes]; decide),
    if_pos (isLongOption_dashes hname), h]
  rfl

/-- An argument that begins with a single `-`, and is read with `k` arguments behind it. -/
theorem parseFrom_short {c : UInt8} {cs : List UInt8} {k : Nat} (hc : c ≠ 45)
    (h : processShortOption (nextParam rest) o (c :: cs) = (some (k + 1), o')) :
    parseFrom o ((45 :: c :: cs) :: rest) = parseFrom o' (rest.drop k) := by
  have hne : (45 :: c :: cs : List UInt8) ≠ [45, 45] := by simp [hc]
  have hopt : isOption (45 :: c :: cs) = true := isOption_iff.2 ⟨rfl, by simp⟩
  have hlong : ¬ isLongOption (45 :: c :: cs) = true := by simp [isLongOption, hc]
  rw [parseFrom, if_neg hne, if_neg (by rw [hopt]; decide), if_neg hlong, List.drop_one,
    List.tail_cons, h]
  rfl

end Steps

/-! ## Long options -/

theorem split_name {name : List UInt8} (h : 61 ∉ name) : StringUtil.split name [61] 2 = [name] :=
  StringUtil.splitFrom_none (Search.firstIndex_eq_none h)

theorem split_joined {name : List UInt8} (h : 61 ∉ name) (param : List UInt8) :
    StringUtil.split (name ++ 61 :: param) [61] 2 = [name, param] := by
  have hlen : (name ++ 61 :: param).length = name.length + param.length + 1 := by
    rw [List.length_append, List.length_cons, Nat.add_assoc]
  unfold StringUtil.split
  rw [if_neg (by decide), hlen]
  refine (StringUtil.splitFrom_word (by decide) h).trans ?_
  rw [StringUtil.splitFrom_last (by decide)]

/-- What is split is the argument behind its two dashes. -/
theorem split_argument {text : List UInt8} (h : 0 ∉ text) :
    StringUtil.split (StringUtil.cStr ((45 :: 45 :: text).drop 2)) [61] 2 =
      StringUtil.split text [61] 2 := by
  rw [List.drop_succ_cons, List.drop_succ_cons, List.drop_zero, StringUtil.cStr_of_notMem h]

section Long

variable {o : CommandLineOption} {name next : List UInt8}

theorem processLongOption_flag (h : IsLong o name .none) (hnul : 0 ∉ name) :
    processLongOption o (45 :: 45 :: name) next = (some 1, o.push name []) := by
  unfold processLongOption
  rw [split_argument hnul, split_name h.2.1]
  simp [h.2.2]

theorem processLongOption_joined (h : IsLong o name .required) {param : List UInt8}
    (hnul : 0 ∉ name ++ 61 :: param) :
    processLongOption o (45 :: 45 :: (name ++ 61 :: param)) next =
      (some 1, o.push name param) := by
  unfold processLongOption
  rw [split_argument hnul, split_joined h.2.1]
  simp [h.2.2]

theorem processLongOption_apart (h : IsLong o name .required) (hnul : 0 ∉ name)
    (hnext : next ≠ []) :
    processLongOption o (45 :: 45 :: name) next = (some 2, o.push name next) := by
  unfold processLongOption
  rw [split_argument hnul, split_name h.2.1]
  simp [h.2.2, hnext]

end Long

/-! ## Short options -/

/-- The flags of a cluster, and what is read from there on. -/
theorem processShortOption_flags (next cs : List UInt8) :
    ∀ (flags : List UInt8) (o : CommandLineOption), (∀ c ∈ flags, IsShort o c .none) →
    processShortOption next o (flags ++ cs) =
      processShortOption next (o.pushAll (flags.map fun c => ([c], []))) cs
  | [], _, _ => rfl
  | c :: flags, o, h => by
    have hc := (h c List.mem_cons_self).2
    -- what is declared stays as it is
    have ih := processShortOption_flags next cs flags (o.push [c] []) fun c' hc' =>
      h c' (List.mem_cons_of_mem c hc')
    rw [List.cons_append, processShortOption, hc]
    exact ih

theorem processShortOption_joined {o : CommandLineOption} {next param : List UInt8} {opt : UInt8}
    (h : IsShort o opt .required) (hparam : param ≠ []) :
    processShortOption next o (opt :: param) = (some 1, o.push [opt] param) := by
  rw [processShortOption, h.2]
  exact if_pos hparam

theorem processShortOption_apart {o : CommandLineOption} {next : List UInt8} {opt : UInt8}
    (h : IsShort o opt .required) (hnext : next ≠ []) :
    processShortOption next o [opt] = (some 2, o.push [opt] next) := by
  rw [processShortOption, h.2]
  dsimp only
  rw [if_neg (not_not_intro rfl), if_neg hnext]

/-! ## One item, and all items -/

/-- The object after an item. -/
def takeItem (o : CommandLineOption) (it : Item) : CommandLineOption :=
  { o.pushAll it.given with leftArgs := o.leftArgs ++ it.left }

/-- An item that leaves nothing over. -/
theorem takeItem_of_option {o : CommandLineOption} {it : Item} (h : it.left = []) :
    o.takeItem it = o.pushAll it.given := by
  unfold takeItem
  rw [h, List.append_nil, ← pushAll_leftArgs it.given o]

theorem IsShort.pushAll {o : CommandLineOption} {opt : UInt8} {paramType : ParameterType}
    (h : IsShort o opt paramType) (given : List (List UInt8 × List UInt8)) :
    IsShort (o.pushAll given) opt paramType := by
  refine ⟨h.1, ?_⟩
  rw [pushAll_optionTypes]
  exact h.2

/-- The first character of a cluster is an option, so it is not `-`. -/
theorem head_ne_dash {o : CommandLineOption} {flags cs : List UInt8} {c opt : UInt8}
    {paramType : ParameterType} (hflags : ∀ c ∈ flags, IsShort o c .none)
    (hopt : IsShort o opt paramType) {param : List UInt8}
    (heq : flags ++ opt :: param = c :: cs) : c ≠ 45 := by
  cases flags with
  | nil =>
    obtain ⟨rfl, -⟩ := List.cons.inj heq
    exact hopt.1
  | cons f flags =>
    obtain ⟨rfl, -⟩ := List.cons.inj heq
    exact (hflags _ List.mem_cons_self).1

/-- **The arguments of one item** are read, and no other: whatever follows them. -/
theorem parseFrom_item {o : CommandLineOption} {it : Item} (h : it.Accepted o)
    (hnul : ∀ arg ∈ it.render, 0 ∉ arg) (rest : List (List UInt8)) :
    parseFrom o (it.render ++ rest) = parseFrom (o.takeItem it) rest := by
  cases it with
  | longFlag name =>
    have hname : 0 ∉ name := fun hz => hnul _ List.mem_cons_self (by simp [hz])
    rw [takeItem_of_option rfl]
    exact parseFrom_long h.1 (processLongOption_flag h hname)
  | longJoined name param =>
    have hname : 0 ∉ name ++ 61 :: param := fun hz =>
      hnul _ List.mem_cons_self (List.mem_cons_of_mem _ (List.mem_cons_of_mem _ hz))
    rw [takeItem_of_option rfl]
    exact parseFrom_long (by simp) (processLongOption_joined h hname)
  | longApart name param =>
    obtain ⟨hlong, hparam⟩ := h
    have hname : 0 ∉ name := fun hz => hnul _ List.mem_cons_self (by simp [hz])
    have hread : processLongOption o (45 :: 45 :: name) (nextParam (param :: rest)) =
        (some 2, o.push name param) := by
      rw [nextParam_separate hparam]
      exact processLongOption_apart hlong hname hparam.1
    rw [takeItem_of_option rfl]
    exact parseFrom_long (k := 1) hlong.1 hread
  | cluster flags =>
    obtain ⟨hne, hflags⟩ := h
    obtain ⟨c, cs, rfl⟩ := List.exists_cons_of_ne_nil hne
    have hread := processShortOption_flags (nextParam rest) [] (c :: cs) o hflags
    rw [List.append_nil] at hread
    rw [takeItem_of_option rfl]
    exact parseFrom_short (hflags c List.mem_cons_self).1 hread
  | clusterJoined flags opt param =>
    obtain ⟨hflags, hopt, hparam⟩ := h
    have hread := processShortOption_flags (nextParam rest) (opt :: param) flags o hflags
    rw [processShortOption_joined (hopt.pushAll _) hparam] at hread
    obtain ⟨c, cs, heq⟩ : ∃ c cs, flags ++ opt :: param = c :: cs :=
      List.exists_cons_of_ne_nil (by simp)
    have hc := head_ne_dash hflags hopt heq
    rw [takeItem_of_option rfl, Item.given, pushAll_append, Item.render, heq]
    rw [heq] at hread
    exact parseFrom_short hc hread
  | clusterApart flags opt param =>
    obtain ⟨hflags, hopt, hparam⟩ := h
    have hread : processShortOption (nextParam (param :: rest)) o (flags ++ [opt]) =
        (some 2, (o.pushAll (flags.map fun c => ([c], []))).push [opt] param) := by
      rw [nextParam_separate hparam, processShortOption_flags _ _ _ _ hflags]
      exact processShortOption_apart (hopt.pushAll _) hparam.1
    obtain ⟨c, cs, heq⟩ : ∃ c cs, flags ++ [opt] = c :: cs :=
      List.exists_cons_of_ne_nil (by simp)
    have hc := head_ne_dash hflags hopt heq
    rw [takeItem_of_option rfl, Item.given, pushAll_append, Item.render, heq]
    rw [heq] at hread
    exact parseFrom_short (k := 1) hc hread
  | positional arg => exact parseFrom_left h

theorem pushAll_of_leftArgs (args : List (List UInt8)) :
    ∀ (given : List (List UInt8 × List UInt8)) (o : CommandLineOption),
    ({ o with leftArgs := args } : CommandLineOption).pushAll given =
      { o.pushAll given with leftArgs := args }
  | [], _ => rfl
  | g :: given, o => pushAll_of_leftArgs args given (o.push g.1 g.2)

theorem takeItem_optionTypes (o : CommandLineOption) (it : Item) :
    (o.takeItem it).optionTypes = o.optionTypes := pushAll_optionTypes it.given o

/-- What is accepted depends on the declared options only. -/
theorem Item.Accepted.of_optionTypes {o o' : CommandLineOption} {it : Item}
    (h : it.Accepted o) (htypes : o'.optionTypes = o.optionTypes) : it.Accepted o' := by
  unfold Item.Accepted IsLong IsShort at h ⊢
  rwa [htypes]

/-- The loop over all items, and over what follows `--`. -/
theorem parseFrom_items (rest : Option (List (List UInt8))) : ∀ (items : List Item)
    (o : CommandLineOption), (∀ it ∈ items, it.Accepted o) →
    (∀ arg ∈ items.flatMap Item.render, 0 ∉ arg) →
    parseFrom o (items.flatMap Item.render ++ renderRest rest) =
      (true, { o.pushAll (items.flatMap Item.given) with
        leftArgs := o.leftArgs ++ items.flatMap Item.left ++ rest.getD [] })
  | [], o, _, _ => by
    cases rest with
    | none =>
      rw [List.flatMap_nil, List.nil_append, renderRest, parseFrom]
      simp [pushAll]
    | some rest =>
      refine (parseFrom_rest o rest).trans ?_
      simp [pushAll]
  | it :: items, o, hacc, hnul => by
    have hit := hacc it List.mem_cons_self
    have hitems : ∀ it' ∈ items, it'.Accepted (o.takeItem it) := fun it' hit' =>
      (hacc it' (List.mem_cons_of_mem it hit')).of_optionTypes (takeItem_optionTypes o it)
    rw [List.flatMap_cons] at hnul
    have ih := parseFrom_items rest items (o.takeItem it) hitems fun arg harg =>
      hnul arg (List.mem_append_right _ harg)
    rw [List.flatMap_cons, List.append_assoc,
      parseFrom_item hit fun arg harg => hnul arg (List.mem_append_left _ harg), ih]
    unfold takeItem
    rw [pushAll_of_leftArgs, ← pushAll_append]
    simp only [List.flatMap_cons, List.append_assoc]

/-- **Parsing inverts rendering**: an object that declares a table of options reads any items in
any of their forms, with the parameters of each option and the positional arguments in order. -/
theorem parse_render (table : List (List UInt8 × ParameterType)) {items : List Item}
    (hitems : ∀ it ∈ items, it.Accepted (declare table)) (rest : Option (List (List UInt8)))
    {argv : List CString}
    (hargv : (argv.drop 1).map Subtype.val = items.flatMap Item.render ++ renderRest rest) :
    (parse (declare table) argv).1 = true ∧
      (∀ opt, (parse (declare table) argv).2.getParameters opt =
        valuesOf opt (items.flatMap Item.given)) ∧
      (parse (declare table) argv).2.getLeftArguments =
        items.flatMap Item.left ++ rest.getD [] := by
  have hnul : ∀ arg ∈ items.flatMap Item.render, 0 ∉ arg := by
    intro arg harg
    have hmem : arg ∈ (argv.drop 1).map Subtype.val := hargv ▸ List.mem_append_left _ harg
    obtain ⟨s, -, rfl⟩ := List.mem_map.1 hmem
    exact s.2
  have hfresh := declare_fresh table
  unfold parse
  rw [hargv, parseFrom_items rest items _ hitems hnul]
  refine ⟨rfl, fun opt => ?_, ?_⟩
  · have hgiven := getParameters_pushAll opt (items.flatMap Item.given) (declare table)
    rw [hfresh.getParameters, List.nil_append] at hgiven
    exact hgiven
  · change (declare table).leftArgs ++ _ ++ _ = _
    rw [hfresh.leftArgs, List.nil_append]

/-- A flag `v`, and `o` and `out` with a parameter. -/
def formsTable : List (List UInt8 × ParameterType) :=
  [([118], .none), ([111], .required), ([111, 117, 116], .required)]

/-- `prog -vo x --out= - -- -v` -/
def formsArgv : List CString :=
  [⟨[112], by decide⟩, ⟨[45, 118, 111], by decide⟩, ⟨[120], by decide⟩,
    ⟨[45, 45, 111, 117, 116, 61], by decide⟩, ⟨[45], by decide⟩, ⟨[45, 45], by decide⟩,
    ⟨[45, 118], by decide⟩]

theorem parse_render_forms :
    (parse (declare formsTable) formsArgv).1 = true ∧
      (parse (declare formsTable) formsArgv).2.getParameters [118] = [[]] ∧
      (parse (declare formsTable) formsArgv).2.getParameters [111] = [[120]] ∧
      (parse (declare formsTable) formsArgv).2.getParameters [111, 117, 116] = [[]] ∧
      (parse (declare formsTable) formsArgv).2.getLeftArguments = [[45], [45, 118]] := by
  obtain ⟨htrue, hparams, hleft⟩ := @parse_render formsTable
    [.clusterApart [118] 111 [120], .longJoined [111, 117, 116] [], .positional [45]]
    (by decide) (some [[45, 118]]) formsArgv (by decide)
  exact ⟨htrue, hparams [118], hparams [111], hparams [111, 117, 116], hleft⟩

end CommandLineOption

end Brickred
