import Mathlib.Data.List.Basic
import Mathlib.Data.List.Nodup
import Mathlib.Data.List.Perm.Basic

/-!
# Ledgers

Items are taken up one after the other.  An item gets its verdict at once, or it waits under a
number until it does.

* `wait`, `book`, `settle` — the three entries.
* `Balanced` — every item taken up has its verdict or waits, and no number is used twice.
* `balanced_wait`, `balanced_book`, `balanced_settle` — what the entries have to keep to.
-/

set_option autoImplicit false

variable {ι α ν : Type}

structure Ledger (ι α ν : Type) where
  /-- in the order in which they were taken up -/
  taken : List α
  waiting : List (ι × α)
  settled : List (α × ν)

namespace Ledger

def empty : Ledger ι α ν := ⟨[], [], []⟩

def wait (l : Ledger ι α ν) (i : ι) (a : α) : Ledger ι α ν :=
  { l with taken := l.taken ++ [a], waiting := l.waiting ++ [(i, a)] }

def book (l : Ledger ι α ν) (a : α) (v : ν) : Ledger ι α ν :=
  { l with taken := l.taken ++ [a], settled := l.settled ++ [(a, v)] }

section Settle

variable [DecidableEq ι]

/-- Nothing happens where nothing waits under the number. -/
def settle (l : Ledger ι α ν) (i : ι) (v : ν) : Ledger ι α ν :=
  match l.waiting.find? fun p => p.1 = i with
  | none => l
  | some p =>
    { l with
      waiting := l.waiting.eraseP fun p => p.1 = i
      settled := l.settled ++ [(p.2, v)] }

end Settle

/-- The items that have the verdict `v`. -/
def having [DecidableEq ν] (l : Ledger ι α ν) (v : ν) : List α :=
  (l.settled.filter fun p => p.2 = v).map Prod.fst

structure Balanced (l : Ledger ι α ν) : Prop where
  perm : l.taken.Perm (l.settled.map Prod.fst ++ l.waiting.map Prod.snd)
  nodup : (l.waiting.map Prod.fst).Nodup

section Law

variable {l : Ledger ι α ν} {i : ι} {a : α} {v : ν}

theorem balanced_empty : (empty : Ledger ι α ν).Balanced := ⟨.nil, List.nodup_nil⟩

theorem balanced_wait (h : l.Balanced) (hnew : ∀ a, (i, a) ∉ l.waiting) (a : α) :
    (l.wait i a).Balanced := by
  constructor
  · have hperm := h.perm.append_right [a]
    rw [List.append_assoc] at hperm
    rw [wait, List.map_append]
    exact hperm
  · rw [wait, List.map_append]
    refine List.nodup_append.2 ⟨h.nodup, List.nodup_singleton i, ?_⟩
    intro j hj k hk heq
    obtain ⟨p, hp, rfl⟩ := List.mem_map.1 hj
    obtain rfl := heq.trans (List.mem_singleton.1 hk)
    exact hnew p.2 hp

theorem balanced_book (h : l.Balanced) (a : α) (v : ν) : (l.book a v).Balanced := by
  refine ⟨?_, h.nodup⟩
  have hperm := h.perm.append_right [a]
  have hswap : (l.settled.map Prod.fst ++ l.waiting.map Prod.snd ++ [a]).Perm
      (l.settled.map Prod.fst ++ [a] ++ l.waiting.map Prod.snd) := by
    rw [List.append_assoc, List.append_assoc]
    exact List.perm_append_comm.append_left _
  rw [book, List.map_append]
  exact hperm.trans hswap

variable [DecidableEq ι]

/-- **The item that waits** under the number leaves its place and gets the verdict. -/
theorem settle_split (h : l.Balanced) (hmem : (i, a) ∈ l.waiting) (v : ν) :
    ∃ before after, l.waiting = before ++ (i, a) :: after ∧
      l.settle i v = { l with
        waiting := before ++ after
        settled := l.settled ++ [(a, v)] } := by
  obtain ⟨before, after, hsplit⟩ := List.append_of_mem hmem
  have hbefore : ∀ p ∈ before, ¬ decide (p.1 = i) = true := by
    intro p hp heq
    have hnodup := h.nodup
    rw [hsplit, List.map_append, List.map_cons, List.nodup_append] at hnodup
    refine hnodup.2.2 p.1 (List.mem_map_of_mem hp) i List.mem_cons_self ?_
    exact of_decide_eq_true heq
  have hself : decide ((i, a).1 = i) = true := decide_eq_true rfl
  have hfind : l.waiting.find? (fun p => p.1 = i) = some (i, a) := by
    rw [hsplit, List.find?_append, List.find?_eq_none.2 hbefore, Option.none_or]
    exact List.find?_cons_of_pos hself
  have herase : l.waiting.eraseP (fun p => p.1 = i) = before ++ after := by
    rw [hsplit, List.eraseP_append_right _ hbefore]
    exact congrArg _ (List.eraseP_cons_of_pos hself)
  exact ⟨before, after, hsplit, by rw [settle, hfind, herase]⟩

theorem balanced_settle (h : l.Balanced) (hmem : (i, a) ∈ l.waiting) (v : ν) :
    (l.settle i v).Balanced := by
  obtain ⟨before, after, hsplit, hsettle⟩ := settle_split h hmem v
  obtain ⟨hperm, hnodup⟩ := h
  rw [hsplit, List.map_append, List.map_cons] at hperm hnodup
  rw [hsettle]
  constructor
  · rw [List.map_append, List.map_append, List.append_assoc]
    exact hperm.trans (List.perm_middle.append_left _)
  · rw [List.map_append]
    exact (List.nodup_middle.1 hnodup).of_cons

/-- One waits less. -/
theorem length_settle (h : l.Balanced) (hmem : (i, a) ∈ l.waiting) (v : ν) :
    (l.settle i v).waiting.length + 1 = l.waiting.length := by
  obtain ⟨before, after, hsplit, hsettle⟩ := settle_split h hmem v
  rw [hsettle, hsplit, List.length_append, List.length_append, List.length_cons]
  omega

/-- The others go on waiting. -/
theorem mem_settle_iff (h : l.Balanced) (hmem : (i, a) ∈ l.waiting) (v : ν) (p : ι × α) :
    p ∈ (l.settle i v).waiting ↔ p ∈ l.waiting ∧ p.1 ≠ i := by
  obtain ⟨before, after, hsplit, hsettle⟩ := settle_split h hmem v
  have hnodup := h.nodup
  rw [hsplit, List.map_append, List.map_cons] at hnodup
  have hnot := (List.nodup_cons.1 (List.nodup_middle.1 hnodup)).1
  rw [← List.map_append] at hnot
  have hother : p ∈ before ++ after → p.1 ≠ i := by
    intro hp heq
    exact hnot (List.mem_map.2 ⟨p, hp, heq⟩)
  rw [hsettle, hsplit]
  dsimp only
  constructor
  · intro hp
    refine ⟨?_, hother hp⟩
    rw [List.mem_append] at hp ⊢
    exact hp.imp_right (List.mem_cons_of_mem _)
  · rintro ⟨hp, hne⟩
    rw [List.mem_append, List.mem_cons] at hp
    rw [List.mem_append]
    obtain hp | rfl | hp := hp
    · exact .inl hp
    · exact absurd rfl hne
    · exact .inr hp

theorem settled_settle (h : l.Balanced) (hmem : (i, a) ∈ l.waiting) (v : ν) :
    (l.settle i v).settled = l.settled ++ [(a, v)] := by
  obtain ⟨before, after, hsplit, hsettle⟩ := settle_split h hmem v
  rw [hsettle]

theorem taken_settle (l : Ledger ι α ν) (i : ι) (v : ν) : (l.settle i v).taken = l.taken := by
  unfold settle
  split <;> rfl

end Law

/-- The items that have a verdict, one entry later. -/
theorem having_append [DecidableEq ν] {l l' : Ledger ι α ν} {a : α} {v : ν}
    (h : l'.settled = l.settled ++ [(a, v)]) (v' : ν) :
    l'.having v' = l.having v' ++ if v = v' then [a] else [] := by
  rw [having, having, h, List.filter_append, List.map_append]
  by_cases heq : v = v'
  · have hone : [(a, v)].filter (fun p => p.2 = v') = [(a, v)] :=
      List.filter_cons_of_pos (decide_eq_true heq)
    rw [if_pos heq, hone, List.map_singleton]
  · have hnone : [(a, v)].filter (fun p => p.2 = v') = [] :=
      List.filter_cons_of_neg fun h => heq (of_decide_eq_true h)
    rw [if_neg heq, hnone, List.map_nil]

end Ledger
