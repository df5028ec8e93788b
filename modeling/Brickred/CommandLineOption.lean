import Brickred.Lib.SortedMap
import Brickred.StringUtil

/-!
# `CommandLineOption` (model of `command_line_option.cc`)

The declared options, the parameters that were given for each of them, and what was left over.

* `processLongOption`, `processShortOption` — one argument that is an option; the result is by how
  much `i` advances, `none` for the `-1` of a failure.
* `parse` — the loop over `argv`.
* `getParameters_pushAll` — what is found after a number of `option_params[opt].push_back`.
-/

set_option autoImplicit false

namespace Brickred

/-- An element of `argv`. -/
abbrev CString := { s : List UInt8 // (0 : UInt8) ∉ s }

namespace CommandLineOption

inductive ParameterType where
  | none
  | required
  deriving DecidableEq, Repr

/-- The order of a `std::string`. -/
def stringRank (s : List UInt8) : List Nat := s.map UInt8.toNat

end CommandLineOption

open CommandLineOption in
structure CommandLineOption where
  optionTypes : SortedMap ParameterType stringRank
  optionParams : SortedMap (List (List UInt8)) stringRank
  leftArgs : List (List UInt8)

namespace CommandLineOption

def init : CommandLineOption := ⟨SortedMap.empty, SortedMap.empty, []⟩

/-- `std::map::insert` leaves a key that is there as it is. -/
def insertNew {β : Type} (m : SortedMap β stringRank) (k : List UInt8) (v : β) :
    SortedMap β stringRank :=
  if (m.find k).isSome then m else m.insert k v

def addOption (o : CommandLineOption) (opt : List UInt8) (paramType : ParameterType) :
    CommandLineOption :=
  { o with
    optionTypes := insertNew o.optionTypes opt paramType
    optionParams := insertNew o.optionParams opt [] }

/-- `option_params[opt].push_back(param)` -/
def push (o : CommandLineOption) (opt param : List UInt8) : CommandLineOption :=
  { o with
    optionParams := o.optionParams.insert opt ((o.optionParams.find opt).getD [] ++ [param]) }

def isOption (arg : List UInt8) : Bool := arg.length > 1 ∧ arg.head? = some 45

def isLongOption (arg : List UInt8) : Bool := arg.length > 2 ∧ arg.take 2 = [45, 45]

def processLongOption (o : CommandLineOption) (arg nextParam : List UInt8) :
    Option Nat × CommandLineOption :=
  let parts := StringUtil.split (StringUtil.cStr (arg.drop 2)) [61] 2
  let opt := parts.headD []
  match o.optionTypes.find opt with
  | Option.none => (Option.none, o)
  | some ParameterType.none =>
    if parts.length > 1 then (Option.none, o) else (some 1, o.push opt [])
  | some ParameterType.required =>
    match parts[1]? with
    | some param => (some 1, o.push opt param)
    | Option.none =>
      if nextParam = [] then (Option.none, o) else (some 2, o.push opt nextParam)

/-- The loop of `processShortOption` over the characters from `arg[1]` on. -/
def processShortOption (nextParam : List UInt8) : CommandLineOption → List UInt8 →
    Option Nat × CommandLineOption
  | o, [] => (some 1, o)
  | o, c :: rest =>
    match o.optionTypes.find [c] with
    | Option.none => (Option.none, o)
    | some ParameterType.none => processShortOption nextParam (o.push [c] []) rest
    | some ParameterType.required =>
      if rest ≠ [] then (some 1, o.push [c] rest)
      else if nextParam = [] then (Option.none, o)
      else (some 2, o.push [c] nextParam)

/-- The next argument, where it may be a parameter. -/
def nextParam : List (List UInt8) → List UInt8
  | [] => []
  | next :: _ => if isOption next then [] else next

/-- The loop of `parse`, over the arguments from `argv[i]` on. -/
def parseFrom (o : CommandLineOption) : List (List UInt8) → Bool × CommandLineOption
  | [] => (true, o)
  | arg :: rest =>
    if arg = [45, 45] then (true, { o with leftArgs := o.leftArgs ++ rest })
    else if isOption arg = false then parseFrom { o with leftArgs := o.leftArgs ++ [arg] } rest
    else
      let (ret, o) :=
        if isLongOption arg then processLongOption o arg (nextParam rest)
        else processShortOption (nextParam rest) o (arg.drop 1)
      match ret with
      | Option.none => (false, o)
      -- `i += ret`
      | some ret => parseFrom o (rest.drop (ret - 1))
  termination_by args => args.length
  decreasing_by
    · exact Nat.lt_succ_self _
    · rw [List.length_drop, List.length_cons]
      omega

def parse (o : CommandLineOption) (argv : List CString) : Bool × CommandLineOption :=
  parseFrom o ((argv.drop 1).map Subtype.val)

def getParameters (o : CommandLineOption) (opt : List UInt8) : List (List UInt8) :=
  (o.optionParams.find opt).getD []

def getLeftArguments (o : CommandLineOption) : List (List UInt8) := o.leftArgs

/-- The object after the options of a table have been added. -/
def declare (table : List (List UInt8 × ParameterType)) : CommandLineOption :=
  table.foldl (fun o d => o.addOption d.1 d.2) init

/-! ## What is stored -/

theorem stringRank_injective : Function.Injective stringRank :=
  List.map_injective_iff.2 fun _ _ => UInt8.toNat_inj.1

theorem stringRank_eq_iff {s t : List UInt8} : stringRank s = stringRank t ↔ s = t :=
  stringRank_injective.eq_iff

section Push

variable {o : CommandLineOption} {opt : List UInt8}

theorem getParameters_push (o : CommandLineOption) (name param opt : List UInt8) :
    (o.push name param).getParameters opt =
      o.getParameters opt ++ if name = opt then [param] else [] := by
  unfold push getParameters
  dsimp only
  rw [SortedMap.find_insert]
  by_cases h : name = opt
  · rw [if_pos (congrArg stringRank h), if_pos h, h]
    rfl
  · rw [if_neg fun hr => h (stringRank_eq_iff.1 hr), if_neg h, List.append_nil]

/-- The parameters in the order in which they are given, each with its option. -/
def pushAll (o : CommandLineOption) (given : List (List UInt8 × List UInt8)) :
    CommandLineOption :=
  given.foldl (fun o g => o.push g.1 g.2) o

/-- Those of one option. -/
def valuesOf (opt : List UInt8) (given : List (List UInt8 × List UInt8)) : List (List UInt8) :=
  (given.filter fun g => g.1 = opt).map Prod.snd

theorem pushAll_append (o : CommandLineOption) (given given' : List (List UInt8 × List UInt8)) :
    o.pushAll (given ++ given') = (o.pushAll given).pushAll given' := List.foldl_append

@[simp] theorem pushAll_optionTypes : ∀ (given : List (List UInt8 × List UInt8))
    (o : CommandLineOption), (o.pushAll given).optionTypes = o.optionTypes
  | [], _ => rfl
  | _ :: given, o => pushAll_optionTypes given (o.push _ _)

@[simp] theorem pushAll_leftArgs : ∀ (given : List (List UInt8 × List UInt8))
    (o : CommandLineOption), (o.pushAll given).leftArgs = o.leftArgs
  | [], _ => rfl
  | _ :: given, o => pushAll_leftArgs given (o.push _ _)

theorem valuesOf_cons (opt : List UInt8) (g : List UInt8 × List UInt8)
    (given : List (List UInt8 × List UInt8)) :
    valuesOf opt (g :: given) = (if g.1 = opt then [g.2] else []) ++ valuesOf opt given := by
  unfold valuesOf
  by_cases h : g.1 = opt
  · rw [List.filter_cons_of_pos (by rwa [decide_eq_true_eq]), List.map_cons, if_pos h,
      List.singleton_append]
  · rw [List.filter_cons_of_neg (by rwa [decide_eq_true_eq]), if_neg h, List.nil_append]

theorem getParameters_pushAll (opt : List UInt8) : ∀ (given : List (List UInt8 × List UInt8))
    (o : CommandLineOption),
    (o.pushAll given).getParameters opt = o.getParameters opt ++ valuesOf opt given
  | [], o => (List.append_nil _).symm
  | g :: given, o => by
    have ih := getParameters_pushAll opt given (o.push g.1 g.2)
    rw [getParameters_push, List.append_assoc, ← valuesOf_cons] at ih
    exact ih

end Push

/-! ## Declared options -/

/-- Nothing has been given for any option, and nothing is left over. -/
structure Fresh (o : CommandLineOption) : Prop where
  getParameters : ∀ opt, o.getParameters opt = []
  leftArgs : o.leftArgs = []

theorem Fresh.addOption {o : CommandLineOption} (h : o.Fresh) (opt : List UInt8)
    (paramType : ParameterType) : (o.addOption opt paramType).Fresh := by
  refine ⟨fun opt' => ?_, h.leftArgs⟩
  have hold : (o.optionParams.find opt').getD [] = [] := h.getParameters opt'
  unfold CommandLineOption.addOption insertNew CommandLineOption.getParameters
  dsimp only
  split
  · exact hold
  · rw [SortedMap.find_insert]
    split
    · rfl
    · exact hold

theorem declare_fresh (table : List (List UInt8 × ParameterType)) : (declare table).Fresh := by
  have hstep : ∀ (ds : List (List UInt8 × ParameterType)) (o : CommandLineOption), o.Fresh →
      (ds.foldl (fun o d => o.addOption d.1 d.2) o).Fresh := by
    intro ds
    induction ds with
    | nil => exact fun o ho => ho
    | cons d ds ih => exact fun o ho => ih _ (ho.addOption d.1 d.2)
  exact hstep table init ⟨fun _ => rfl, rfl⟩

end CommandLineOption

end Brickred
