import Mathlib.Order.Lattice
import Mathlib.Data.List.Pairwise

/-!
# Maps sorted by a rank

A map whose entries are sorted by the rank of their keys, with no two keys of one rank.  Two keys
of the same rank are the same key to the map; an entry keeps the key it was first stored under.

* `find_insert`, `find_erase_of_ne`, `find_erase_self`, `find_insertAll`, `find_merge` — what is
  found.
* `length_filter_le_one` — a rank has one entry at most.
* `insertAll_entries` — storing the entries of a map into an empty one, in their order, gives the
  map back; `insertAll_mapValues` — with other values, the map with these values.
-/

set_option autoImplicit false

universe u v w

structure SortedMap {α : Type u} {γ : Type v} [LinearOrder γ] (β : Type w) (rank : α → γ) where
  entries : List (α × β)
  sorted : entries.Pairwise fun e e' => rank e.1 < rank e'.1

namespace SortedMap

variable {α : Type u} {γ : Type v} {β : Type w} [LinearOrder γ] {rank : α → γ}

theorem eq_of_entries : ∀ {m m' : SortedMap β rank}, m.entries = m'.entries → m = m'
  | ⟨_, _⟩, ⟨_, _⟩, rfl => rfl

instance [DecidableEq α] [DecidableEq β] : DecidableEq (SortedMap β rank) := fun m m' =>
  decidable_of_iff (m.entries = m'.entries) ⟨eq_of_entries, congrArg entries⟩

def empty : SortedMap β rank := ⟨[], .nil⟩

/-- Storing `v` under `k`; a key of the same rank stays. -/
def insertEntry (rank : α → γ) (k : α) (v : β) : List (α × β) → List (α × β)
  | [] => [(k, v)]
  | e :: es =>
    if rank k < rank e.1 then (k, v) :: e :: es
    else if rank e.1 < rank k then e :: insertEntry rank k v es
    else (e.1, v) :: es

section Entries

variable {k : α} {v : β} {e : α × β}

theorem mem_insertEntry : ∀ {es : List (α × β)}, e ∈ insertEntry rank k v es →
    e ∈ es ∨ e.2 = v ∧ (e.1 = k ∨ rank e.1 = rank k ∧ ∃ v', (e.1, v') ∈ es)
  | [], h => by
    rw [insertEntry, List.mem_singleton] at h
    exact Or.inr ⟨h ▸ rfl, Or.inl (h ▸ rfl)⟩
  | e' :: es, h => by
    unfold insertEntry at h
    split at h
    · rcases List.mem_cons.1 h with rfl | h
      · exact Or.inr ⟨rfl, Or.inl rfl⟩
      · exact Or.inl h
    · rename_i hlt
      split at h
      · rcases List.mem_cons.1 h with rfl | h
        · exact Or.inl List.mem_cons_self
        · rcases mem_insertEntry h with h | ⟨hv, hk | ⟨hk, v', hmem⟩⟩
          · exact Or.inl (List.mem_cons_of_mem _ h)
          · exact Or.inr ⟨hv, Or.inl hk⟩
          · exact Or.inr ⟨hv, Or.inr ⟨hk, v', List.mem_cons_of_mem _ hmem⟩⟩
      · rename_i hgt
        rcases List.mem_cons.1 h with rfl | h
        · exact Or.inr ⟨rfl, Or.inr ⟨le_antisymm (not_lt.1 hlt) (not_lt.1 hgt), e'.2,
            List.mem_cons_self⟩⟩
        · exact Or.inl (List.mem_cons_of_mem _ h)

theorem insertEntry_sorted : ∀ {es : List (α × β)},
    (es.Pairwise fun e e' => rank e.1 < rank e'.1) →
    (insertEntry rank k v es).Pairwise fun e e' => rank e.1 < rank e'.1
  | [], _ => List.pairwise_singleton _ _
  | e :: es, h => by
    obtain ⟨hhead, htail⟩ := List.pairwise_cons.1 h
    unfold insertEntry
    split
    · rename_i hlt
      refine List.pairwise_cons.2 ⟨fun e' he' => ?_, h⟩
      rcases List.mem_cons.1 he' with rfl | he'
      · exact hlt
      · exact hlt.trans (hhead e' he')
    · split
      · rename_i hgt
        refine List.pairwise_cons.2 ⟨fun e' he' => ?_, insertEntry_sorted htail⟩
        rcases mem_insertEntry he' with he' | ⟨_, rfl | ⟨hk, _⟩⟩
        · exact hhead e' he'
        · exact hgt
        · rw [hk]; exact hgt
      · exact List.pairwise_cons.2 ⟨hhead, htail⟩

/-- What is found in a list of entries. -/
def findEntry (rank : α → γ) (es : List (α × β)) (k : α) : Option β :=
  (es.find? fun e => rank e.1 = rank k).map Prod.snd

theorem findEntry_cons (e : α × β) (es : List (α × β)) (k : α) :
    findEntry rank (e :: es) k = if rank e.1 = rank k then some e.2 else findEntry rank es k := by
  unfold findEntry
  rw [List.find?_cons]
  by_cases hk : rank e.1 = rank k
  · rw [if_pos hk, decide_eq_true hk]; rfl
  · rw [if_neg hk, decide_eq_false hk]

theorem findEntry_insertEntry (k k' : α) (v : β) : ∀ es : List (α × β),
    findEntry rank (insertEntry rank k v es) k' =
      if rank k = rank k' then some v else findEntry rank es k'
  | [] => findEntry_cons _ _ _
  | e :: es => by
    unfold insertEntry
    split
    · exact findEntry_cons _ _ _
    · rename_i hlt
      split
      · rename_i hgt
        rw [findEntry_cons, findEntry_cons, findEntry_insertEntry k k' v es]
        by_cases hk : rank e.1 = rank k'
        · rw [if_pos hk, if_pos hk, if_neg (by rw [← hk]; exact ne_of_gt hgt)]
        · rw [if_neg hk, if_neg hk]
      · rename_i hgt
        have heq : rank e.1 = rank k := le_antisymm (not_lt.1 hlt) (not_lt.1 hgt)
        rw [findEntry_cons, findEntry_cons]
        dsimp only
        rw [heq]
        split <;> rfl

/-- A key above all others goes to the end. -/
theorem insertEntry_last : ∀ {es : List (α × β)}, (∀ e ∈ es, rank e.1 < rank k) →
    insertEntry rank k v es = es ++ [(k, v)]
  | [], _ => rfl
  | e :: es, h => by
    have he := h e List.mem_cons_self
    have ih : insertEntry rank k v es = es ++ [(k, v)] :=
      insertEntry_last fun e' he' => h e' (List.mem_cons_of_mem e he')
    unfold insertEntry
    rw [if_neg (lt_asymm he), if_pos he, ih, List.cons_append]

end Entries

/-! ## Maps -/

def find (m : SortedMap β rank) (k : α) : Option β := findEntry rank m.entries k

def insert (m : SortedMap β rank) (k : α) (v : β) : SortedMap β rank :=
  ⟨insertEntry rank k v m.entries, insertEntry_sorted m.sorted⟩

def erase (m : SortedMap β rank) (k : α) : SortedMap β rank :=
  ⟨m.entries.filter fun e => rank e.1 ≠ rank k, m.sorted.filter _⟩

/-- The entries are stored one after the other. -/
def insertAll (m : SortedMap β rank) (es : List (α × β)) : SortedMap β rank :=
  es.foldl (fun m e => m.insert e.1 e.2) m

def mapValues (f : β → β) (m : SortedMap β rank) : SortedMap β rank :=
  ⟨m.entries.map fun e => (e.1, f e.2), List.pairwise_map.2 m.sorted⟩

section Maps

variable {m : SortedMap β rank} {k k' : α} {v : β}

theorem find_empty (k : α) : (empty : SortedMap β rank).find k = none := rfl

/-- What is found is an entry. -/
theorem mem_of_find (h : m.find k = some v) :
    ∃ key, rank key = rank k ∧ (key, v) ∈ m.entries := by
  obtain ⟨e, he, rfl⟩ := Option.map_eq_some_iff.1 h
  have hrank : rank e.1 = rank k := by simpa using List.find?_some he
  exact ⟨e.1, hrank, List.mem_of_find?_eq_some he⟩

theorem rank_ne_of_find (h : m.find k = none) : ∀ e ∈ m.entries, rank e.1 ≠ rank k := by
  intro e hmem
  simpa using List.find?_eq_none.1 (Option.map_eq_none_iff.1 h) e hmem

theorem find_insert (m : SortedMap β rank) (k k' : α) (v : β) :
    (m.insert k v).find k' = if rank k = rank k' then some v else m.find k' :=
  findEntry_insertEntry k k' v m.entries

theorem find_erase_of_ne (m : SortedMap β rank) (h : rank k ≠ rank k') :
    (m.erase k).find k' = m.find k' := by
  unfold find erase
  dsimp only
  induction m.entries with
  | nil => rfl
  | cons e es ih =>
    rw [List.filter_cons, findEntry_cons]
    by_cases he : rank e.1 = rank k
    · rw [if_neg (by simpa using he), ih, if_neg (by rw [he]; exact h)]
    · rw [if_pos (by simpa using he), findEntry_cons, ih]

theorem find_erase_self (m : SortedMap β rank) (h : rank k = rank k') :
    (m.erase k).find k' = none := by
  unfold find erase findEntry
  dsimp only
  rw [List.find?_eq_none.2, Option.map_none]
  intro e he heq
  have hne := of_decide_eq_true (List.mem_filter.1 he).2
  exact hne ((of_decide_eq_true heq).trans h.symm)

/-- Of one rank there is one entry at most. -/
theorem length_filter_le_one {p : α × β → Bool} {r : γ}
    (h : ∀ e ∈ m.entries, p e = true → rank e.1 = r) : (m.entries.filter p).length ≤ 1 := by
  have hrank : ∀ e ∈ m.entries.filter p, rank e.1 = r := fun e he =>
    h e (List.mem_filter.1 he).1 (List.mem_filter.1 he).2
  match m.entries.filter p, m.sorted.filter p, hrank with
  | [], _, _ => exact Nat.zero_le 1
  | [_], _, _ => exact Nat.le_refl 1
  | e :: e' :: _, hsorted, hrank =>
    have hlt := (List.pairwise_cons.1 hsorted).1 e' List.mem_cons_self
    rw [hrank e List.mem_cons_self, hrank e' (List.mem_cons_of_mem e List.mem_cons_self)] at hlt
    exact absurd hlt (lt_irrefl r)

theorem mem_insert {e : α × β} (h : e ∈ (m.insert k v).entries) :
    e ∈ m.entries ∨ e.2 = v ∧ (e.1 = k ∨ rank e.1 = rank k ∧ ∃ v', (e.1, v') ∈ m.entries) :=
  mem_insertEntry h

theorem find_insertAll (m : SortedMap β rank) (es : List (α × β)) (k : α)
    (h : ∀ e ∈ es, rank e.1 ≠ rank k) : (m.insertAll es).find k = m.find k := by
  induction es generalizing m with
  | nil => rfl
  | cons e es ih =>
    rw [insertAll, List.foldl_cons]
    refine (ih _ fun e' he' => h e' (List.mem_cons_of_mem e he')).trans ?_
    rw [find_insert, if_neg (h e List.mem_cons_self)]

/-- What is found after all the entries of a map have been stored. -/
theorem find_merge (m m' : SortedMap β rank) (k : α) :
    (m.insertAll m'.entries).find k = (m'.find k).or (m.find k) := by
  obtain ⟨es, hs⟩ := m'
  unfold find
  dsimp only
  induction es generalizing m with
  | nil => rfl
  | cons e es ih =>
    obtain ⟨hhead, htail⟩ := List.pairwise_cons.1 hs
    rw [insertAll, List.foldl_cons]
    refine (ih (m.insert e.1 e.2) htail).trans ?_
    change (findEntry rank es k).or ((m.insert e.1 e.2).find k) = _
    rw [find_insert, findEntry_cons]
    by_cases hk : rank e.1 = rank k
    · -- no other entry has this rank
      have hnone : findEntry rank es k = none := by
        unfold findEntry
        rw [List.find?_eq_none.2, Option.map_none]
        intro e' he' heq
        exact absurd (of_decide_eq_true heq) (hk ▸ (hhead e' he').ne')
      rw [if_pos hk, if_pos hk, hnone]
      rfl
    · rw [if_neg hk, if_neg hk]
      rfl

theorem find_mapValues (f : β → β) (m : SortedMap β rank) (k : α) :
    (m.mapValues f).find k = (m.find k).map f := by
  unfold find mapValues
  dsimp only
  induction m.entries with
  | nil => rfl
  | cons e es ih =>
    rw [List.map_cons, findEntry_cons, findEntry_cons, ih]
    dsimp only
    split <;> rfl

/-- Keys and values of a map come from what was stored. -/
theorem forall_insert {P : α → Prop} {Q : β → Prop}
    (h : ∀ e ∈ m.entries, P e.1 ∧ Q e.2) (hk : P k) (hv : Q v) :
    ∀ e ∈ (m.insert k v).entries, P e.1 ∧ Q e.2 := by
  intro e he
  rcases mem_insertEntry he with he | ⟨hv', hk' | ⟨_, v', hmem⟩⟩
  · exact h e he
  · exact ⟨hk' ▸ hk, hv' ▸ hv⟩
  · exact ⟨(h _ hmem).1, hv' ▸ hv⟩

theorem forall_insertAll {P : α → Prop} {Q : β → Prop} {es : List (α × β)}
    (h : ∀ e ∈ m.entries, P e.1 ∧ Q e.2) (hes : ∀ e ∈ es, P e.1 ∧ Q e.2) :
    ∀ e ∈ (m.insertAll es).entries, P e.1 ∧ Q e.2 := by
  induction es generalizing m with
  | nil => exact h
  | cons e es ih =>
    obtain ⟨hk, hv⟩ := hes e List.mem_cons_self
    exact ih (forall_insert h hk hv) fun e' he' => hes e' (List.mem_cons_of_mem e he')

theorem insertAll_last : ∀ {m : SortedMap β rank} {es : List (α × β)},
    ((m.entries ++ es).Pairwise fun e e' => rank e.1 < rank e'.1) →
    (m.insertAll es).entries = m.entries ++ es
  | m, [], _ => (List.append_nil _).symm
  | m, e :: es, h => by
    have hbelow : ∀ e' ∈ m.entries, rank e'.1 < rank e.1 := fun e' he' =>
      (List.pairwise_append.1 h).2.2 e' he' e List.mem_cons_self
    have hins : (m.insert e.1 e.2).entries = m.entries ++ [e] := insertEntry_last hbelow
    rw [insertAll, List.foldl_cons]
    refine (insertAll_last ?_).trans ?_ <;> rw [hins, List.append_assoc]
    · exact h
    · rfl

/-- **A map is rebuilt** from its entries. -/
theorem insertAll_entries (m : SortedMap β rank) : empty.insertAll m.entries = m :=
  eq_of_entries (insertAll_last m.sorted)

theorem insertAll_mapValues (f : β → β) (m : SortedMap β rank) :
    empty.insertAll (m.entries.map fun e => (e.1, f e.2)) = m.mapValues f :=
  insertAll_entries (m.mapValues f)

end Maps

end SortedMap
