import Mathlib.Data.List.Induction
import Brickred.Http.Message
import Brickred.StringUtil.CaseFolding
import Brickred.StringUtil.CaseInsensitive

/-!
# `HttpMessage::HeaderMap` under any `::tolower`

The headers are a `std::map` whose only knowledge of its keys is `CaseInsensitiveLess`.  A run is
any sequence of `setHeader` and `removeHeader` on a new message.

* `step_entries`, `run_entries` — the entries are those of the map sorted by the folded keys.
* `find_run` — what is found is what the last call with a spelling of the key has set.
* `headers_coherent` — the comparator is a strict weak order with the ties of `stricmp`, and the map
  is right under it.
* `getHeader_charRank`, `setHeader_charRank`, `removeHeader_charRank` — in the C locale these are
  the functions of `HttpMessage`.
* `headerContain_stricmp` — `headerContain` looks for a value in any case.
-/

set_option autoImplicit false

namespace Brickred

open StringUtil.Locale

namespace HttpMessage

namespace Locale

/-- The entries of `headers_`, in the order of the map. -/
abbrev Headers := List (List UInt8 × List UInt8)

section Calls

variable (tolower : UInt8 → Int)

def getHeader (headers : Headers) (key : List UInt8) : List UInt8 :=
  (ComparatorMap.find (caseInsensitiveLess tolower) headers key).getD []

def setHeader (headers : Headers) (key value : List UInt8) : Headers :=
  ComparatorMap.assign (caseInsensitiveLess tolower) headers key value

def removeHeader (headers : Headers) (key : List UInt8) : Headers :=
  ComparatorMap.erase (caseInsensitiveLess tolower) headers key

inductive Call where
  | setHeader (key value : List UInt8)
  | removeHeader (key : List UInt8)

def Call.key : Call → List UInt8
  | .setHeader key _ => key
  | .removeHeader key => key

/-- What a call leaves under its key. -/
def Call.value : Call → Option (List UInt8)
  | .setHeader _ value => some value
  | .removeHeader _ => none

def step (headers : Headers) : Call → Headers
  | .setHeader key value => setHeader tolower headers key value
  | .removeHeader key => removeHeader tolower headers key

/-- The calls on a new message. -/
def run (calls : List Call) : Headers := calls.foldl (step tolower) []

/-- What the last call with a spelling of `key` has left there. -/
def lastSet (calls : List Call) (key : List UInt8) : Option (List UInt8) :=
  (calls.reverse.find? fun call => stricmp tolower call.key key).bind Call.value

end Calls

/-! ## The map sorted by the folded keys -/

section Sorted

variable {tolower : UInt8 → Int}

/-- The abstract map, and what a call does to it. -/
abbrev Map (tolower : UInt8 → Int) := SortedMap (List UInt8) (List.map tolower)

def Map.step (map : Map tolower) : Call → Map tolower
  | .setHeader key value => map.insert key value
  | .removeHeader key => map.erase key

/-- A call does to the entries what it does to the map. -/
theorem step_entries (map : Map tolower) (call : Call) :
    step tolower map.entries call = (map.step call).entries := by
  cases call with
  | setHeader key value =>
    exact ComparatorMap.assign_eq (caseInsensitiveLess_compares tolower) key value map.entries
  | removeHeader key =>
    exact ComparatorMap.erase_eq (caseInsensitiveLess_compares tolower) key map.sorted

theorem run_entries (calls : List Call) :
    run tolower calls = (calls.foldl Map.step (.empty : Map tolower)).entries := by
  induction calls using List.reverseRecOn with
  | nil => rfl
  | append_singleton calls call ih =>
    unfold run at ih ⊢
    rw [List.foldl_concat, List.foldl_concat, ih, step_entries]

theorem getHeader_entries (map : Map tolower) (key : List UInt8) :
    getHeader tolower map.entries key = (map.find key).getD [] :=
  congrArg (Option.getD · [])
    (ComparatorMap.find_eq (caseInsensitiveLess_compares tolower) key map.sorted)

/-- After a call its key is found with what the call left, in any spelling, and the other keys as
before. -/
theorem find_step (map : Map tolower) (call : Call) (key : List UInt8) :
    (map.step call).find key =
      if stricmp tolower call.key key then call.value else map.find key := by
  have hsame := stricmp_iff tolower call.key key
  by_cases hkey : call.key.map tolower = key.map tolower
  · rw [if_pos (hsame.2 hkey)]
    cases call with
    | setHeader key' value => exact (SortedMap.find_insert map key' key value).trans (if_pos hkey)
    | removeHeader key' => exact SortedMap.find_erase_self map hkey
  · rw [if_neg (mt hsame.1 hkey)]
    cases call with
    | setHeader key' value => exact (SortedMap.find_insert map key' key value).trans (if_neg hkey)
    | removeHeader key' => exact SortedMap.find_erase_of_ne map hkey

theorem find_run (calls : List Call) (key : List UInt8) :
    (calls.foldl Map.step (.empty : Map tolower)).find key = lastSet tolower calls key := by
  induction calls using List.reverseRecOn with
  | nil => rfl
  | append_singleton calls call ih =>
    unfold lastSet at ih ⊢
    rw [List.foldl_concat, find_step, ih, List.reverse_concat, List.find?_cons]
    cases stricmp tolower call.key key with
    | true => rfl
    | false => rfl

/-- A name has one entry at most. -/
theorem spellings_le_one (map : Map tolower) (key : List UInt8) :
    (map.entries.filter fun e => stricmp tolower e.1 key).length ≤ 1 :=
  SortedMap.length_filter_le_one fun e _ hkey => (stricmp_iff tolower e.1 key).1 hkey

end Sorted

/-- **Header keys are ordered case-insensitively**: under any `::tolower` the comparator is a strict
weak order whose ties are what `stricmp` holds of; after any calls a name has one entry at most, and
`getHeader` returns what was set last under any spelling, or the empty string. -/
theorem headers_coherent (tolower : UInt8 → Int) :
    (IsStrictWeakOrder (List UInt8) fun lhs rhs => caseInsensitiveLess tolower lhs rhs = true) ∧
    (∀ lhs rhs, ¬ caseInsensitiveLess tolower lhs rhs = true ∧
      ¬ caseInsensitiveLess tolower rhs lhs = true ↔ stricmp tolower lhs rhs = true) ∧
    ∀ (calls : List Call) (key : List UInt8),
      ((run tolower calls).filter fun e => stricmp tolower e.1 key).length ≤ 1 ∧
      getHeader tolower (run tolower calls) key = (lastSet tolower calls key).getD [] := by
  refine ⟨(caseInsensitiveLess_compares tolower).strictWeakOrder,
    incomparable_iff_stricmp tolower, fun calls key => ?_⟩
  rw [run_entries]
  refine ⟨spellings_le_one _ key, ?_⟩
  rw [getHeader_entries, find_run]

/-! ## The C locale -/

/-- The entry keeps the spelling it was first stored under. -/
example : run StringUtil.charRank [.setHeader (StringUtil.bytes "Host") (StringUtil.bytes "a"),
      .setHeader (StringUtil.bytes "HOST") (StringUtil.bytes "b")] =
    [(StringUtil.bytes "Host", StringUtil.bytes "b")] := by decide

section CLocale

variable (message : HttpMessage) (key value : List UInt8)

theorem getHeader_charRank :
    getHeader StringUtil.charRank message.headers.entries key = message.getHeader key :=
  getHeader_entries message.headers key

theorem setHeader_charRank : setHeader StringUtil.charRank message.headers.entries key value =
    (message.setHeader key value).headers.entries :=
  step_entries message.headers (.setHeader key value)

theorem removeHeader_charRank : removeHeader StringUtil.charRank message.headers.entries key =
    (message.removeHeader key).headers.entries :=
  step_entries message.headers (.removeHeader key)

/-- What `stricmp` holds of, `headerContain` takes for one value. -/
theorem headerContain_stricmp {value' : List UInt8}
    (h : StringUtil.stricmp value value' = true) :
    message.headerContain key value = message.headerContain key value' := by
  unfold headerContain
  rw [(StringUtil.stricmp_iff_toLower value value').1 h]

end CLocale

end Locale

end HttpMessage

end Brickred
