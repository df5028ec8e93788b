import Brickred.Programs.PortScan.Sockets

/-!
# A scan

* `Inv`, `step_spec` — what holds between the events: every address that was tried is settled or
  waits on a socket of its own, and the counters count.
* `tryConnect_spec` — how the loop that opens connections ends.
* `scan_accounts` — **every address** is tried once, in order, and the ports reported as open are
  the ones on which a connection was made.
* `scan_ends` — a scan that ends has tried everything, and when one does not end.
* `scan_reports` — from the text of the ranges to the report.
-/

set_option autoImplicit false

namespace Brickred

namespace PortScan

open TcpService Runs

variable {κ : Type} {inet : Inet} {range : SocketAddressRange}

/-! ## The counters -/

theorem toInt_toInt_add (a b : Int) : toInt (toInt a + b) = toInt (a + b) :=
  Int.bmod_add_bmod

theorem toInt_toInt (a : Int) : toInt (toInt a) = toInt a := Int.bmod_bmod

namespace PortScanner

/-- The two counts may overflow; what is active is between them all the same. -/
structure Counters (s : PortScanner κ) : Prop where
  started : s.startedScanCount = toInt (s.finishedScanCount + s.activeConnCount)
  finished : toInt s.finishedScanCount = s.finishedScanCount

/-- What `activeConnCount` is: a lost connection is never freed, and one that was made at once is
freed a second time if there is an error on it. -/
def load (s : PortScanner κ) : Int :=
  s.ledger.waiting.length + (s.ledger.having .lost).length - s.again

section Counters

variable {s s' : PortScanner κ}

theorem load_congr (hwaiting : s'.ledger.waiting = s.ledger.waiting)
    (hlost : s'.ledger.having .lost = s.ledger.having .lost) (hagain : s'.again = s.again) :
    s'.load = s.load := by
  rw [load, load, hwaiting, hlost, hagain]

theorem Counters.congr (h : s.Counters) (hstarted : s'.startedScanCount = s.startedScanCount)
    (hfinished : s'.finishedScanCount = s.finishedScanCount)
    (hactive : s'.activeConnCount = s.activeConnCount) : s'.Counters :=
  ⟨by rw [hstarted, hfinished, hactive]; exact h.started, by rw [hfinished]; exact h.finished⟩

theorem Counters.allocated (h : s.Counters)
    (hstarted : s'.startedScanCount = toInt (s.startedScanCount + 1))
    (hfinished : s'.finishedScanCount = s.finishedScanCount)
    (hactive : s'.activeConnCount = s.activeConnCount + 1) : s'.Counters := by
  refine ⟨?_, by rw [hfinished]; exact h.finished⟩
  rw [hstarted, hfinished, hactive, h.started, toInt_toInt_add, Int.add_assoc]

theorem Counters.freed (h : s.Counters) (hstarted : s'.startedScanCount = s.startedScanCount)
    (hfinished : s'.finishedScanCount = toInt (s.finishedScanCount + 1))
    (hactive : s'.activeConnCount = s.activeConnCount - 1) : s'.Counters := by
  refine ⟨?_, by rw [hfinished, toInt_toInt]⟩
  rw [hstarted, hfinished, hactive, h.started, toInt_toInt_add]
  congr 1
  omega

/-- One that is started and finished at once. -/
theorem Counters.both (h : s.Counters)
    (hstarted : s'.startedScanCount = toInt (s.startedScanCount + 1))
    (hfinished : s'.finishedScanCount = toInt (s.finishedScanCount + 1))
    (hactive : s'.activeConnCount = s.activeConnCount) : s'.Counters := by
  refine ⟨?_, by rw [hfinished, toInt_toInt]⟩
  rw [hstarted, hfinished, hactive, h.started, toInt_toInt_add, toInt_toInt_add]
  congr 1
  omega

/-- Everything that was started is finished if nothing is active. -/
theorem Counters.finished_iff (h : s.Counters) (hlo : 0 ≤ s.activeConnCount)
    (hhi : s.activeConnCount < 2 ^ 32) :
    s.finishedScanCount = s.startedScanCount ↔ s.activeConnCount = 0 := by
  obtain ⟨hstarted, hfinished⟩ := h
  rw [hstarted]
  constructor
  · intro heq
    rw [← hfinished] at heq
    unfold toInt at heq
    rw [Int.bmod_add_bmod] at heq
    have hzero : (s.activeConnCount) % 2 ^ 32 = 0 := by
      unfold Int.bmod at heq
      dsimp only at heq
      split at heq <;> split at heq <;> omega
    omega
  · intro hzero
    rw [hzero, Int.add_zero, hfinished]

end Counters

/-! ## The addresses that were tried -/

/-- `taken` is what the range has given out, and `addrRange` gives out the rest. -/
structure Visits (inet : Inet) (range : SocketAddressRange) (taken : List Address)
    (addrRange : SocketAddressRange) : Prop where
  ahead : ∀ k, range.address inet (taken.length + k) = addrRange.address inet k
  taken : ∀ k, k < taken.length → range.address inet k = some taken[k]?

section Visits

variable {taken : List Address} {addrRange addrRange' : SocketAddressRange} {addr : Address}

theorem visits_nil : Visits inet range [] range :=
  ⟨fun k => by rw [List.length_nil, Nat.zero_add], nofun⟩

theorem Visits.next (h : Visits inet range taken addrRange)
    (hnext : addrRange.getNextAddress inet = some (some addr, addrRange')) :
    Visits inet range (taken ++ [addr]) addrRange' := by
  have hzero : addrRange.address inet 0 = some (some addr) := by
    rw [SocketAddressRange.address, hnext]
    rfl
  have hlater : ∀ k, addrRange.address inet (k + 1) = addrRange'.address inet k := by
    intro k
    rw [SocketAddressRange.address, hnext]
    rfl
  constructor
  · intro k
    rw [List.length_append, List.length_singleton, Nat.add_assoc, Nat.add_comm 1 k,
      h.ahead (k + 1), hlater]
  · intro k hk
    rw [List.length_append, List.length_singleton] at hk
    by_cases hold : k < taken.length
    · rw [List.getElem?_append_left hold]
      exact h.taken k hold
    · have heq : k = taken.length := by omega
      rw [heq, List.getElem?_concat_length, ← hzero, ← h.ahead 0, Nat.add_zero]

/-- The end comes again and again. -/
theorem getNextAddress_end (hnext : addrRange.getNextAddress inet = some (none, addrRange')) :
    addrRange' = addrRange ∧ addrRange.address inet 0 = some none := by
  have hzero : addrRange.address inet 0 = some none := by
    rw [SocketAddressRange.address, hnext]
    rfl
  refine ⟨?_, hzero⟩
  unfold SocketAddressRange.getNextAddress at hnext
  split at hnext
  · cases hnext
    rfl
  · obtain ⟨_, _, heq⟩ := Option.map_eq_some_iff.1 hnext
    cases heq

end Visits

/-! ## The ports that are reported -/

/-- The ports of the connections that were made. -/
def shown (ledger : Ledger SocketId Address Verdict) (ip : List UInt8) : List UInt16 :=
  ((ledger.having .opened).filter fun addr => addr.1 = ip).map Prod.snd

section Shown

variable {ledger ledger' : Ledger SocketId Address Verdict} {addr : Address} {v : Verdict}

theorem shown_opened (h : ledger'.settled = ledger.settled ++ [(addr, .opened)]) :
    shown ledger' = Function.update (shown ledger) addr.1 (shown ledger addr.1 ++ [addr.2]) := by
  funext ip
  rw [shown, Ledger.having_append h, if_pos rfl, List.filter_append, List.map_append]
  by_cases heq : ip = addr.1
  · subst heq
    have hone : [addr].filter (fun a => a.1 = addr.1) = [addr] :=
      List.filter_cons_of_pos (decide_eq_true rfl)
    rw [Function.update_self, hone, List.map_singleton]
    rfl
  · have hnone : [addr].filter (fun a => a.1 = ip) = [] :=
      List.filter_cons_of_neg fun h => heq (of_decide_eq_true h).symm
    rw [Function.update_of_ne heq, hnone, List.map_nil, List.append_nil]
    rfl

theorem shown_other (hv : v ≠ .opened) (h : ledger'.settled = ledger.settled ++ [(addr, v)]) :
    shown ledger' = shown ledger := by
  funext ip
  rw [shown, Ledger.having_append h, if_neg hv, List.append_nil]
  rfl

/-- What a verdict adds. -/
theorem shown_settled (h : ledger'.settled = ledger.settled ++ [(addr, v)]) :
    shown ledger' = if v = .opened then
      Function.update (shown ledger) addr.1 (shown ledger addr.1 ++ [addr.2])
    else shown ledger := by
  split
  · rename_i hv
    subst hv
    exact shown_opened h
  · rename_i hv
    exact shown_other hv h

end Shown

/-! ## The invariant -/

structure Inv (inet : Inet) (range : SocketAddressRange) (s : PortScanner κ) : Prop where
  registered : Registered s.machine.service s.ledger.waiting
  balanced : s.ledger.Balanced
  visits : Visits inet range s.ledger.taken s.addrRange
  openPorts : s.openPorts = shown s.ledger
  counters : s.Counters
  active : s.activeConnCount = s.load
  bound : s.activeConnCount ≤ max s.maxConnCount 0
  /-- an `int` -/
  maxConnCount : s.maxConnCount < 2 ^ 31

section Settling

variable {s s' : PortScanner κ} {m : Machine κ} {id : SocketId} {addr : Address} {v : Verdict}

/-- **An address gets its verdict**, and its socket is closed. -/
theorem Inv.settle (h : Inv inet range s) (hmem : (id, addr) ∈ s.ledger.waiting)
    (hothers : ∀ j, j ≠ id → Same s.machine.service m.service j)
    (hmachine : s'.machine.service = m.service.closeSocket id)
    (hledger : s'.ledger = s.ledger.settle id v) (haddrRange : s'.addrRange = s.addrRange)
    (hopenPorts : s'.openPorts = if v = .opened then
      Function.update s.openPorts addr.1 (s.openPorts addr.1 ++ [addr.2]) else s.openPorts)
    (hcounters : s'.Counters) (hagain : s'.again = s.again)
    (hmax : s'.maxConnCount = s.maxConnCount)
    (hactive : s'.activeConnCount = s.activeConnCount - if v = .lost then 0 else 1) :
    Inv inet range s' := by
  have hsettled := Ledger.settled_settle h.balanced hmem v
  have hlength := Ledger.length_settle h.balanced hmem v
  refine ⟨?_, ?_, ?_, ?_, hcounters, ?_, ?_, by rw [hmax]; exact h.maxConnCount⟩
  · rw [hmachine, hledger]
    exact h.registered.closed hothers (Ledger.mem_settle_iff h.balanced hmem v)
  · rw [hledger]
    exact Ledger.balanced_settle h.balanced hmem v
  · rw [hledger, haddrRange, Ledger.taken_settle]
    exact h.visits
  · rw [hopenPorts, hledger, h.openPorts]
    exact (shown_settled hsettled).symm
  · have hold := h.active
    rw [hactive, load, hledger, hagain, Ledger.having_append hsettled]
    rw [load] at hold
    split
    · rw [List.length_append, List.length_singleton]
      omega
    · rw [List.append_nil]
      omega
  · have hbound := h.bound
    rw [hactive, hmax]
    split <;> omega

theorem lost_book {ledger : Ledger SocketId Address Verdict} (hv : v ≠ .lost) :
    (ledger.book addr v).having .lost = ledger.having .lost := by
  rw [Ledger.having_append rfl, if_neg hv, List.append_nil]

/-- **An address is settled at once**, and its connection is freed again. -/
theorem Inv.book (h : Inv inet range s) (hv : v ≠ .lost)
    (hregistered : Registered s'.machine.service s.ledger.waiting)
    (hvisits : Visits inet range (s.ledger.taken ++ [addr]) s'.addrRange)
    (hledger : s'.ledger = s.ledger.book addr v)
    (hopenPorts : s'.openPorts = if v = .opened then
      Function.update s.openPorts addr.1 (s.openPorts addr.1 ++ [addr.2]) else s.openPorts)
    (hstarted : s'.startedScanCount = toInt (s.startedScanCount + 1))
    (hfinished : s'.finishedScanCount = toInt (s.finishedScanCount + 1))
    (hagain : s'.again = s.again) (hmax : s'.maxConnCount = s.maxConnCount)
    (hactive : s'.activeConnCount = s.activeConnCount) : Inv inet range s' := by
  refine ⟨?_, ?_, ?_, ?_, h.counters.both hstarted hfinished hactive, ?_, ?_,
    by rw [hmax]; exact h.maxConnCount⟩
  · rw [hledger]
    exact hregistered
  · rw [hledger]
    exact Ledger.balanced_book h.balanced addr v
  · rw [hledger]
    exact hvisits
  · rw [hopenPorts, hledger, h.openPorts]
    exact (shown_settled rfl).symm
  · have hload : s'.load = s.load := by
      refine load_congr ?_ ?_ hagain <;> rw [hledger]
      · rfl
      · exact lost_book hv
    rw [hactive, hload, h.active]
  · rw [hactive, hmax]
    exact h.bound

/-- **An address is tried**: it is settled at once or waits. -/
theorem Inv.connect (h : Inv inet range s) (hless : s.activeConnCount < s.maxConnCount)
    {addrRange : SocketAddressRange}
    (hnext : s.addrRange.getNextAddress inet = some (some addr, addrRange))
    {k : Creation.SystemCalls} (hadded : k.epollCtlAdd = true)
    (hs' : s' = { s with
      activeConnCount := s.activeConnCount + 1
      startedScanCount := toInt (s.startedScanCount + 1)
      addrRange }) :
    Inv inet range (s'.connect addr k) ∧ (s'.connect addr k).again = s.again ∧
      (s'.connect addr k).ledger.having .lost = s.ledger.having .lost ∧
      (s'.connect addr k).maxConnCount = s.maxConnCount ∧ (s'.connect addr k).quit = s.quit := by
  subst hs'
  have hvisits := h.visits.next hnext
  have hactive : s.activeConnCount =
      s.ledger.waiting.length + (s.ledger.having .lost).length - s.again := h.active
  have hbound : s.activeConnCount + 1 ≤ max s.maxConnCount 0 := by omega
  have hfreed : s.activeConnCount + 1 - 1 = s.activeConnCount := Int.add_sub_cancel _ _
  have hattempt := asyncConnect_attempt s.machine.service s.timeout hadded
  unfold PortScanner.connect asyncConnect
  dsimp only
  generalize Creation.asyncConnect s.machine.service .ipV4 s.timeout k = r at hattempt
  cases hattempt with
  | failed complete service hsockets hconnections =>
    have hnot : ¬ (-1 : SocketId) ≥ 0 := by decide
    dsimp only
    rw [if_pos rfl, if_neg hnot]
    refine ⟨h.book (v := .closed) Verdict.noConfusion ?_ hvisits rfl rfl rfl rfl rfl rfl hfreed,
      rfl, lost_book Verdict.noConfusion, rfl, rfl⟩
    exact h.registered.congr hsockets hconnections
  | made id service hopening hid =>
    dsimp only
    rw [if_neg hid]
    cases hopening with
    | inUse hid' => exact absurd hid' hid
    | created hnonneg hfree hsockets connection hconnections =>
      rw [if_pos hnonneg, if_pos rfl]
      refine ⟨h.book (v := .opened) Verdict.noConfusion ?_ hvisits rfl rfl rfl rfl rfl rfl hfreed,
        rfl, lost_book Verdict.noConfusion, rfl, rfl⟩
      exact h.registered.opened hfree hsockets hconnections (fun j addr _ => Iff.rfl)
        (.inr ⟨h.registered.new hfree, rfl⟩)
  | begun id service hopening hid =>
    dsimp only
    rw [if_neg hid]
    cases hopening with
    | inUse hid' => exact absurd hid' hid
    | created hnonneg hfree hsockets connection hconnections =>
      have hnew := h.registered.new hfree
      rw [if_pos hnonneg, if_neg (by decide)]
      refine ⟨⟨?_, Ledger.balanced_wait h.balanced hnew addr, hvisits, h.openPorts, ?_, ?_,
        hbound, h.maxConnCount⟩, rfl, rfl, rfl, rfl⟩
      · refine h.registered.opened hfree hsockets hconnections (fun j addr' hne => ?_)
          (.inl ⟨⟨addr, List.mem_append_right _ (List.mem_singleton_self _)⟩, rfl⟩)
        rw [Ledger.wait, List.mem_append, List.mem_singleton, Prod.mk.injEq]
        exact or_iff_left fun h => hne h.1
      · exact h.counters.allocated rfl rfl rfl
      · rw [load, Ledger.wait, List.length_append, List.length_singleton]
        change s.activeConnCount + 1 = ((s.ledger.waiting.length + 1 : ℕ) : Int) +
          (s.ledger.having .lost).length - s.again
        omega

/-- How `tryConnect` ends: as many connections as are allowed, or there are no more addresses. -/
structure Returned (inet : Inet) (s s' : PortScanner κ) : Prop where
  again : s'.again = s.again
  lost : s'.ledger.having .lost = s.ledger.having .lost
  maxConnCount : s'.maxConnCount = s.maxConnCount
  rests : s'.maxConnCount ≤ s'.activeConnCount ∧ s'.quit = s.quit ∨
    s'.addrRange.address inet 0 = some none ∧
      ((s'.finishedScanCount = s'.startedScanCount → s'.quit = true) ∧
        (s'.finishedScanCount ≠ s'.startedScanCount → s'.quit = s.quit))

/-- The head of the loop. -/
theorem head_cases {r : Head κ} (hr : s.head inet = some r) :
    (r = .returns s ∧ s.maxConnCount ≤ s.activeConnCount) ∨
      s.activeConnCount < s.maxConnCount ∧ ∃ addrRange,
        (s.addrRange.getNextAddress inet = some (none, addrRange) ∧ r = .returns { s with
          activeConnCount := s.activeConnCount + 1
          startedScanCount := toInt (s.startedScanCount + 1)
          addrRange }.freeConnection.checkFinished) ∨
        ∃ addr, s.addrRange.getNextAddress inet = some (some addr, addrRange) ∧
          r = .tries addr { s with
            activeConnCount := s.activeConnCount + 1
            startedScanCount := toInt (s.startedScanCount + 1)
            addrRange } := by
  unfold head allocateConnection at hr
  by_cases hfull : s.activeConnCount ≥ s.maxConnCount
  · rw [if_pos hfull] at hr
    cases hr
    exact .inl ⟨rfl, hfull⟩
  · rw [if_neg hfull] at hr
    dsimp only at hr
    obtain ⟨⟨next, addrRange⟩, hnext, rfl⟩ := Option.map_eq_some_iff.1 hr
    refine .inr ⟨by omega, addrRange, ?_⟩
    cases next with
    | none => exact .inl ⟨hnext, rfl⟩
    | some addr => exact .inr ⟨addr, hnext, rfl⟩

/-- There are no more addresses. -/
theorem Inv.exhausted (h : Inv inet range s) {addrRange : SocketAddressRange}
    (hnext : s.addrRange.getNextAddress inet = some (none, addrRange))
    (hs' : s' = { s with
      activeConnCount := s.activeConnCount + 1
      startedScanCount := toInt (s.startedScanCount + 1)
      addrRange }.freeConnection.checkFinished) :
    Inv inet range s' ∧ Returned inet s s' := by
  obtain ⟨rfl, hzero⟩ := getNextAddress_end hnext
  have hactive : s.activeConnCount + 1 - 1 = s.activeConnCount := Int.add_sub_cancel _ _
  have hcounters : Counters { s with
      activeConnCount := s.activeConnCount + 1
      startedScanCount := toInt (s.startedScanCount + 1) }.freeConnection :=
    h.counters.both rfl rfl hactive
  subst hs'
  unfold checkFinished
  split
  · rename_i heq
    exact ⟨⟨h.registered, h.balanced, h.visits, h.openPorts, hcounters.congr rfl rfl rfl,
      hactive.trans h.active, hactive.trans_le h.bound, h.maxConnCount⟩, rfl, rfl, rfl,
      .inr ⟨hzero, fun _ => rfl, fun hne => absurd heq hne⟩⟩
  · rename_i hne
    exact ⟨⟨h.registered, h.balanced, h.visits, h.openPorts, hcounters,
      hactive.trans h.active, hactive.trans_le h.bound, h.maxConnCount⟩, rfl, rfl, rfl,
      .inr ⟨hzero, fun heq => absurd heq hne, fun _ => rfl⟩⟩

/-- **The loop** keeps the invariant. -/
theorem tryConnect_spec : ∀ {answers : List Creation.SystemCalls} {s s' : PortScanner κ},
    Inv inet range s → Adds answers → tryConnect inet answers s = some s' →
    Inv inet range s' ∧ Returned inet s s'
  | [], s, s', h, _, hs => by
    unfold tryConnect at hs
    split at hs
    · rename_i s'' hhead
      cases hs
      obtain ⟨heq, hfull⟩ | ⟨_, addrRange, ⟨hnext, heq⟩ | ⟨addr, _, heq⟩⟩ := head_cases hhead
      · cases heq
        exact ⟨h, rfl, rfl, rfl, .inl ⟨hfull, rfl⟩⟩
      · cases heq
        exact h.exhausted hnext rfl
      · cases heq
    · cases hs
  | k :: answers, s, s', h, hadds, hs => by
    unfold tryConnect at hs
    split at hs
    · rename_i addr s'' hhead
      obtain ⟨heq, _⟩ | ⟨hless, addrRange, ⟨_, heq⟩ | ⟨addr', hnext, heq⟩⟩ := head_cases hhead
      · cases heq
      · cases heq
      · cases heq
        obtain ⟨hinv, hagain, hlost, hmax, hquit⟩ :=
          h.connect hless hnext (hadds k List.mem_cons_self) rfl
        obtain ⟨hinv', hreturned⟩ :=
          tryConnect_spec hinv (fun k' hk => hadds k' (List.mem_cons_of_mem _ hk)) hs
        obtain ⟨hagain', hlost', hmax', hrests⟩ := hreturned
        rw [hquit] at hrests
        exact ⟨hinv', hagain'.trans hagain, hlost'.trans hlost, hmax'.trans hmax, hrests⟩
    · cases hs

/-! ## A step -/

/-- Nothing changes for the ledger, or some callback runs `tryConnect`: behind the verdict for an
address that was waiting, or behind an error on a connection that had been made at once. -/
inductive Stepped (inet : Inet) (range : SocketAddressRange) (s s' : PortScanner κ) : Prop
  | quiet (hledger : s'.ledger = s.ledger) (hquit : s'.quit = s.quit)
    (hagain : s'.again = s.again) (haddrRange : s'.addrRange = s.addrRange)
  | worked (s₁ : PortScanner κ) (hinv : Inv inet range s₁) (hreturned : Returned inet s₁ s')
    (hquit : s₁.quit = s.quit) (hmax : s₁.maxConnCount = s.maxConnCount)
    (hprogress : s.again < s₁.again ∨ s₁.again = s.again ∧ s.ledger.waiting ≠ [] ∧
      s.ledger.having .lost <+: s₁.ledger.having .lost)

/-- Only the sockets change, and the ledger is right. -/
theorem Inv.machine (h : Inv inet range s) {machine : Machine κ}
    (hregistered : Registered machine.service s.ledger.waiting) :
    Inv inet range { s with machine } :=
  ⟨hregistered, h.balanced, h.visits, h.openPorts, h.counters.congr rfl rfl rfl, h.active, h.bound,
    h.maxConnCount⟩

/-- A callback that has given a verdict goes on with `tryConnect`. -/
theorem Inv.goesOn {s₁ : PortScanner κ} (h : Inv inet range s)
    (hmem : (id, addr) ∈ s.ledger.waiting) (hinv : Inv inet range s₁)
    (hledger : s₁.ledger = s.ledger.settle id v) (hquit : s₁.quit = s.quit) (hmax : s₁.maxConnCount = s.maxConnCount)
    (hagain : s₁.again = s.again) {answers : List Creation.SystemCalls} (hadds : Adds answers)
    (hs : tryConnect inet answers s₁ = some s') :
    Inv inet range s' ∧ Stepped inet range s s' := by
  obtain ⟨hinv', hreturned⟩ := tryConnect_spec hinv hadds hs
  refine ⟨hinv', .worked s₁ hinv hreturned hquit hmax (.inr ⟨hagain, List.ne_nil_of_mem hmem, ?_⟩)⟩
  rw [hledger, Ledger.having_append (Ledger.settled_settle h.balanced hmem v)]
  exact List.prefix_append _ _

theorem onNewConnection_spec (h : Inv inet range s) (hmem : (id, addr) ∈ s.ledger.waiting)
    (hothers : ∀ j, j ≠ id → Same s.machine.service m.service j) {peer : Option Address}
    (hpeer : ∀ a, peer = some a → a = addr) {answers : List Creation.SystemCalls}
    (hadds : Adds answers)
    (hs : onNewConnection inet { s with machine := m } id peer answers = some s') :
    Inv inet range s' ∧ Stepped inet range s s' := by
  unfold onNewConnection at hs
  dsimp only at hs
  cases peer with
  | some a =>
    obtain rfl := hpeer a rfl
    have hinv : Inv inet range (closeSocket (addSuccuss
        { s with machine := m, ledger := s.ledger.settle id .opened } a) id) :=
      h.settle hmem hothers rfl rfl rfl rfl (h.counters.freed rfl rfl rfl) rfl rfl rfl
    exact h.goesOn hmem hinv rfl rfl rfl rfl hadds hs
  | none =>
    have hinv : Inv inet range (closeSocket
        { s with machine := m, ledger := s.ledger.settle id .lost } id) :=
      h.settle hmem hothers rfl rfl rfl rfl (h.counters.congr rfl rfl rfl) rfl rfl
        (Int.sub_zero _).symm
    exact h.goesOn hmem hinv rfl rfl rfl rfl hadds hs

/-- The socket of no address is closed. -/
theorem Inv.closed (h : Inv inet range s) (hnot : ∀ addr, (id, addr) ∉ s.ledger.waiting)
    (hothers : ∀ j, j ≠ id → Same s.machine.service m.service j) :
    Registered (m.service.closeSocket id) s.ledger.waiting := by
  refine h.registered.closed hothers fun p => ⟨fun hp => ⟨hp, ?_⟩, fun hp => hp.1⟩
  rintro rfl
  exact hnot p.2 hp

theorem onError_spec (h : Inv inet range s)
    (hothers : ∀ j, j ≠ id → Same s.machine.service m.service j)
    {answers : List Creation.SystemCalls} (hadds : Adds answers)
    (hs : onError inet { s with machine := m } id answers = some s') :
    Inv inet range s' ∧ Stepped inet range s s' := by
  unfold onError at hs
  dsimp only at hs
  split at hs
  · rename_i hany
    obtain ⟨⟨i, addr⟩, hmem, hid⟩ := List.any_eq_true.1 hany
    obtain rfl : i = id := of_decide_eq_true hid
    have hinv : Inv inet range (closeSocket (addFailed
        { s with machine := m, ledger := s.ledger.settle i .closed }) i) :=
      h.settle hmem hothers rfl rfl rfl rfl (h.counters.freed rfl rfl rfl) rfl rfl rfl
    exact h.goesOn hmem hinv rfl rfl rfl rfl hadds hs
  · rename_i hnone
    have hnot : ∀ addr, (id, addr) ∉ s.ledger.waiting := by
      intro addr hmem
      exact hnone (List.any_eq_true.2 ⟨(id, addr), hmem, decide_eq_true rfl⟩)
    have hactive : s.activeConnCount =
        s.ledger.waiting.length + (s.ledger.having .lost).length - s.again := h.active
    have hload : s.activeConnCount - 1 =
        s.ledger.waiting.length + (s.ledger.having .lost).length - (s.again + 1 : ℕ) := by omega
    have hbound := h.bound
    have hinv : Inv inet range (closeSocket (addFailed
        { s with machine := m, again := s.again + 1 }) id) :=
      ⟨h.closed hnot hothers, h.balanced, h.visits, h.openPorts, h.counters.freed rfl rfl rfl,
        hload, show s.activeConnCount - 1 ≤ max s.maxConnCount 0 by omega, h.maxConnCount⟩
    obtain ⟨hinv', hreturned⟩ := tryConnect_spec hinv hadds hs
    exact ⟨hinv', .worked _ hinv hreturned rfl rfl (.inl (Nat.lt_succ_self _))⟩

/-- **An event** keeps the invariant. -/
theorem step_spec (h : Inv inet range s) {e : Event} (hE : s.Enabled e) (hF : s.Faithful e)
    (hs : step inet s e = some s') : Inv inet range s' ∧ Stepped inet range s s' := by
  obtain ⟨m, hm, hs⟩ := Option.bind_eq_some_iff.1 hs
  have htouches := step_touches h.registered hE hm
  cases hreport : s.machine.report e.op with
  | none =>
    rw [hreport] at hs
    dsimp only at hs
    split at hs
    · cases hs
      exact ⟨h.machine (h.registered.same (htouches.quiet hreport)), .quiet rfl rfl rfl rfl⟩
    · cases hs
  | some told =>
    obtain ⟨id, report⟩ := told
    rw [hreport] at hs
    dsimp only at hs
    have hothers := htouches.others id report hreport
    cases report with
    | newConnection =>
      obtain ⟨⟨addr, hmem⟩, kernel, error, peer, answers, rfl⟩ := htouches.made id hreport
      refine onNewConnection_spec h hmem hothers (fun a ha => ?_) hF.1 hs
      obtain rfl : peer = some a := ha
      exact hF.2 addr hmem
    | peerClose =>
      unfold told at hs
      dsimp only at hs
      split at hs
      · cases hs
        exact ⟨h.machine (h.closed (htouches.ended id hreport) hothers), .quiet rfl rfl rfl rfl⟩
      · cases hs
    | error => exact onError_spec h hothers hF.1 hs

end Settling

/-! ## A whole scan -/

/-- What is known about the addresses at any time. -/
structure Account (inet : Inet) (range : SocketAddressRange) (s : PortScanner κ) : Prop where
  inOrder : ∀ k, k < s.ledger.taken.length → range.address inet k = some s.ledger.taken[k]?
  /-- each of them has one verdict or waits -/
  perm : s.ledger.taken.Perm (s.ledger.settled.map Prod.fst ++ s.ledger.waiting.map Prod.snd)
  /-- on a socket of its own -/
  sockets : ∀ id addr, (id, addr) ∈ s.ledger.waiting → s.machine.service.sockets id = some connecting
  nodup : (s.ledger.waiting.map Prod.fst).Nodup
  atMost : (s.ledger.waiting.length : Int) + (s.ledger.having .lost).length ≤
    max s.maxConnCount 0 + s.again
  openPorts : s.openPorts = shown s.ledger

/-- How the scan stands, if no error came on a connection that had been made at once: when it has
ended, and when nothing is left that could end it. -/
structure Ending (inet : Inet) (range : SocketAddressRange) (stuck : Prop) (s : PortScanner κ) :
    Prop where
  quit : s.quit = true → s.ledger.waiting = [] ∧ s.ledger.having .lost = [] ∧
    range.address inet s.ledger.taken.length = some none
  stuck : s.ledger.having .lost = [] → (s.quit = false ∧ s.ledger.waiting = [] ↔ stuck)

section Whole

variable {s s' s₀ : PortScanner κ} {stuck : Prop} {maxConnCount timeout : Int}
  {answers : List Creation.SystemCalls}

theorem Inv.account (h : Inv inet range s) : Account inet range s := by
  have hactive : s.activeConnCount =
      s.ledger.waiting.length + (s.ledger.having .lost).length - s.again := h.active
  have hbound := h.bound
  exact ⟨h.visits.taken, h.balanced.perm, h.registered.waits, h.balanced.nodup, by omega,
    h.openPorts⟩

/-- With nothing active, nothing waits. -/
theorem Inv.idle_iff (h : Inv inet range s) (hagain : s.again = 0) :
    s.finishedScanCount = s.startedScanCount ↔
      s.ledger.waiting = [] ∧ s.ledger.having .lost = [] := by
  have hactive : s.activeConnCount =
      s.ledger.waiting.length + (s.ledger.having .lost).length - s.again := h.active
  have hbound := h.bound
  have hmax := h.maxConnCount
  rw [h.counters.finished_iff (by omega) (by omega), ← List.length_eq_zero_iff,
    ← List.length_eq_zero_iff]
  omega

/-- A callback that has run `tryConnect` has left something to wait for, or has ended the scan. -/
theorem Returned.ending (h : Returned inet s s') (hinv : Inv inet range s')
    (hagain : s'.again = 0) (hquit : s.quit = false) (hmax : 0 < s.maxConnCount) :
    (s'.quit = true → s'.ledger.waiting = [] ∧ s'.ledger.having .lost = [] ∧
      range.address inet s'.ledger.taken.length = some none) ∧
    (s'.ledger.having .lost = [] → ¬ (s'.quit = false ∧ s'.ledger.waiting = [])) := by
  have hidle := hinv.idle_iff hagain
  have hahead := hinv.visits.ahead 0
  obtain ⟨_, _, hmax', ⟨hfull, hquit'⟩ | ⟨hend, hequal, hdiffer⟩⟩ := h
  · refine ⟨fun htrue => ?_, fun hlost hstuck => ?_⟩
    · rw [hquit', hquit] at htrue
      cases htrue
    · have hactive : s'.activeConnCount =
          s'.ledger.waiting.length + (s'.ledger.having .lost).length - s'.again := hinv.active
      rw [hlost, hstuck.2, hagain, List.length_nil] at hactive
      dsimp only [List.length_nil] at hactive
      omega
  · refine ⟨fun htrue => ?_, fun hlost hstuck => ?_⟩
    · have heq : s'.finishedScanCount = s'.startedScanCount := by
        by_contra hne
        rw [hdiffer hne, hquit] at htrue
        cases htrue
      obtain ⟨hwaiting, hlost⟩ := hidle.1 heq
      exact ⟨hwaiting, hlost, by rw [← hend, ← hahead, Nat.add_zero]⟩
    · have htrue := hequal (hidle.2 ⟨hstuck.2, hlost⟩)
      rw [hstuck.1] at htrue
      cases htrue

/-- A step from a state whose ending is right. -/
theorem Stepped.ending (hinv : Inv inet range s) (hinv' : Inv inet range s')
    (h : Stepped inet range s s') (hold : s.again = 0 → Ending inet range stuck s)
    (hagain : s'.again = 0) : Ending inet range stuck s' := by
  cases h with
  | quiet hledger hquit hagain' haddrRange =>
    obtain ⟨hquit', hstuck⟩ := hold (hagain' ▸ hagain)
    refine ⟨?_, ?_⟩ <;> rw [hledger, hquit]
    · exact hquit'
    · exact hstuck
  | worked s₁ hinv₁ hreturned hquit hmax hprogress =>
    have hagain₁ : s₁.again = 0 := hreturned.again ▸ hagain
    obtain hless | ⟨hsame, hne, hlost⟩ := hprogress
    · omega
    obtain ⟨hquit', hstuck⟩ := hold (hsame ▸ hagain₁)
    have hrunning : s.quit = false := by
      cases hq : s.quit with
      | false => rfl
      | true => exact absurd (hquit' hq).1 hne
    have hpos : 0 < s₁.maxConnCount := by
      have hactive : s.activeConnCount =
          s.ledger.waiting.length + (s.ledger.having .lost).length - s.again := hinv.active
      have hbound := hinv.bound
      have hwaiting := List.length_pos_iff.2 hne
      omega
    obtain ⟨hends, hgoesOn⟩ := hreturned.ending hinv' hagain (hquit.trans hrunning) hpos
    refine ⟨hends, fun hlost' => iff_of_false (hgoesOn hlost') fun hstuck' => ?_⟩
    have hnil : s.ledger.having .lost = [] := by
      rw [hreturned.lost] at hlost'
      rw [hlost'] at hlost
      exact List.prefix_nil.1 hlost
    exact hne ((hstuck hnil).2 hstuck').2

/-- Before the first event. -/
theorem scan_inv (hmax : maxConnCount < 2 ^ 31) (hadds : Adds answers)
    (hscan : scan inet range maxConnCount timeout answers = some s₀) :
    Inv inet range s₀ ∧ s₀.quit = false := by
  obtain ⟨s, hs, rfl⟩ := Option.map_eq_some_iff.1 hscan
  have hinit : Inv inet range (⟨.init, false, range, fun _ => [], maxConnCount, timeout, 0, 0, 0,
      .empty, 0⟩ : PortScanner κ) :=
    ⟨registered_init, Ledger.balanced_empty, visits_nil, rfl, ⟨rfl, rfl⟩, rfl,
      Int.le_max_right _ _, hmax⟩
  obtain ⟨h, _⟩ := tryConnect_spec hinit hadds hs
  exact ⟨⟨h.registered, h.balanced, h.visits, h.openPorts, h.counters.congr rfl rfl rfl, h.active,
    h.bound, h.maxConnCount⟩, rfl⟩

/-- The invariant and the ending along a whole scan. -/
theorem scan_along (hmax : maxConnCount < 2 ^ 31) (hadds : Adds answers)
    (hscan : scan inet range maxConnCount timeout answers = some s₀) {events : List Event}
    (hevents : EachStep (step inet) (fun s e => s.Enabled e ∧ s.Faithful e) s₀ events) :
    Along (step inet) (fun s => Inv inet range s ∧
      (s.again = 0 → Ending inet range (s₀.ledger.waiting = []) s)) s₀ events := by
  obtain ⟨hinv, hquit⟩ := scan_inv hmax hadds hscan
  have hstart : s₀.again = 0 → Ending inet range (s₀.ledger.waiting = []) s₀ := fun _ =>
    ⟨fun htrue => (Bool.false_ne_true (hquit.symm.trans htrue)).elim,
      fun _ => and_iff_right hquit⟩
  refine along_of_eachStep (fun s e s' h hC hs => ?_) ⟨hinv, hstart⟩ hevents
  obtain ⟨hinv', hstepped⟩ := step_spec h.1 hC.1 hC.2 hs
  exact ⟨hinv', hstepped.ending h.1 hinv' h.2⟩

/-- **Every address is accounted for**: what was tried are the first addresses of the range, each of
them was tried once and is settled or waits, not more than allowed are waiting, and the ports
reported as open are those of the connections that were made. -/
theorem scan_accounts (hmax : maxConnCount < 2 ^ 31) (hadds : Adds answers)
    (hscan : scan inet range maxConnCount timeout answers = some s₀) (events : List Event)
    (hevents : EachStep (step inet) (fun s e => s.Enabled e ∧ s.Faithful e) s₀ events) :
    Along (step inet) (Account inet range) s₀ events :=
  (scan_along hmax hadds hscan hevents).mono fun _ h => h.1.account

/-- **How a scan ends**, as long as no error comes on a connection that was made at once.  When the
loop is left, every address has been tried and is settled, and no connection was lost.  The loop is
never left with nothing to wait for, where no connection is lost, unless that was so before it
began: then `quit` came too early or there is no first connection. -/
theorem scan_ends (hmax : maxConnCount < 2 ^ 31) (hadds : Adds answers)
    (hscan : scan inet range maxConnCount timeout answers = some s₀) (events : List Event)
    (hevents : EachStep (step inet) (fun s e => s.Enabled e ∧ s.Faithful e) s₀ events) :
    Along (step inet)
      (fun s => s.again = 0 → Ending inet range (s₀.ledger.waiting = []) s) s₀ events :=
  (scan_along hmax hadds hscan hevents).mono fun _ h => h.2

/-- What has been tried when the range is at its end is the range. -/
theorem Account.taken_eq {addrs : List Address} (h : Account inet range s)
    (hgives : ∀ k, range.address inet k = some addrs[k]?)
    (hend : range.address inet s.ledger.taken.length = some none) : s.ledger.taken = addrs := by
  have hlength : addrs.length ≤ s.ledger.taken.length := by
    rw [hgives] at hend
    exact List.getElem?_eq_none_iff.1 (Option.some.inj hend)
  refine List.ext_getElem? fun k => ?_
  by_cases hk : k < s.ledger.taken.length
  · exact Option.some.inj ((h.inOrder k hk).symm.trans (hgives k))
  · rw [List.getElem?_eq_none (by omega), List.getElem?_eq_none (by omega)]

open SocketAddressRange in
/-- **The report of a scan that ends.**  The range is read from what was written.  As long as no
error comes on a connection that was made at once, every address of it has one verdict when the
loop is left, no connection was lost, and the ports that are shown are those of the connections
that were made. -/
theorem scan_reports {ips : List (UInt32 × UInt32)} {ports : List (UInt16 × UInt16)}
    (h : inet.Documented) (hdotted : Dotted inet) (hips : ips ≠ []) (hports : ports ≠ [])
    (hips' : ∀ range ∈ ips, range.1 ≤ range.2) (hports' : ∀ range ∈ ports, range.1 ≤ range.2)
    (hlast : ∀ range ∈ ips, range.2 ≠ 0xFFFFFFFF) (hmax : maxConnCount < 2 ^ 31)
    (hadds : Adds answers)
    (hscan : scan inet (new.init inet (ipText inet ips) (portText ports)).2 maxConnCount timeout
      answers = some s₀) (events : List Event)
    (hevents : EachStep (step inet) (fun s e => s.Enabled e ∧ s.Faithful e) s₀ events)
    (hrun : run (step inet) s₀ events = some s) (hquit : s.quit = true) (hagain : s.again = 0) :
    (s.ledger.settled.map Prod.fst).Perm (addresses inet ips ports) ∧
      (∀ addr verdict, (addr, verdict) ∈ s.ledger.settled → verdict ≠ .lost) ∧
      s.openPorts = shown s.ledger := by
  rw [init_written h hdotted hips hports hips' hports'] at hscan
  obtain ⟨hinv, hending⟩ := (scan_along hmax hadds hscan hevents).last hrun
  have haccount := hinv.account
  obtain ⟨hwaiting, hlost, hend⟩ := (hending hagain).quit hquit
  have htaken := haccount.taken_eq (initial_gives hips hports hips' hports' hlast) hend
  have hperm := haccount.perm
  rw [hwaiting, List.map_nil, List.append_nil, htaken] at hperm
  refine ⟨hperm.symm, ?_, haccount.openPorts⟩
  rintro addr verdict hmem rfl
  have hmem' : addr ∈ s.ledger.having .lost :=
    List.mem_map.2 ⟨(addr, .lost), List.mem_filter.2 ⟨hmem, decide_eq_true rfl⟩, rfl⟩
  rw [hlost] at hmem'
  cases hmem'

end Whole

/-! ## Two ports of a host, one after the other -/

section TwoPorts

open SocketAddressRange

def oneHost : List (UInt32 × UInt32) := [(0x0A000001, 0x0A000001)]

def twoPorts : List (UInt16 × UInt16) := [(22, 23)]

def twoPortsRange : SocketAddressRange :=
  (new.init Inet.plain (ipText Inet.plain oneHost) (portText twoPorts)).2

/-- A `connect` that is in progress. -/
def pending : Creation.SystemCalls :=
  { Creation.answers true with connect := some Creation.EINPROGRESS }

/-- The first port is open, the second one refuses. -/
def twoPortsEvents : List Event :=
  [.writable (SocketIdAllocator.getId 0 5) (.accepts 0 0) 0
      (some (StringUtil.bytes "10.0.0.1", 22)) [pending],
    .socketError (SocketIdAllocator.getId 1 5) 111 0 []]

theorem pending_adds : Adds [pending] := by
  intro k hk
  rw [List.mem_singleton.1 hk]
  rfl

theorem twoPorts_scanned : ∃ s₀ : PortScanner Unit,
    scan Inet.plain twoPortsRange 1 1000 [pending] = some s₀ ∧
      EachStep (step Inet.plain) (fun s e => s.Enabled e ∧ s.Faithful e) s₀ twoPortsEvents ∧
      s₀.ledger.waiting ≠ [] ∧
      ∃ s, run (step Inet.plain) s₀ twoPortsEvents = some s ∧ s.quit = true ∧ s.again = 0 ∧
        s.openPorts (StringUtil.bytes "10.0.0.1") = [22] := by
  have hinit : twoPortsRange = initial oneHost twoPorts := congrArg Prod.snd
    (init_written Inet.plain_documented plain_dotted (by decide) (by decide) (by decide)
      (by decide))
  rw [hinit]
  obtain ⟨s₀, hscan⟩ : ∃ s₀ : PortScanner Unit,
    scan Inet.plain (initial oneHost twoPorts) 1 1000 [pending] = some s₀ := ⟨_, rfl⟩
  refine ⟨s₀, hscan, ?_⟩
  cases hscan
  refine ⟨⟨⟨⟨_, rfl, rfl, WriteCallback.noConfusion⟩, pending_adds, ?_⟩, ?_⟩,
    List.cons_ne_nil _ _, _, rfl, rfl, rfl, rfl⟩
  · intro addr hmem
    cases List.mem_singleton.1 hmem
    rfl
  rintro _ ⟨⟩
  refine ⟨⟨⟨_, rfl, rfl⟩, fun _ hk => (List.not_mem_nil hk).elim, trivial⟩, ?_⟩
  rintro _ ⟨⟩
  trivial

theorem scan_accounts_twoPorts : ∃ s₀ : PortScanner Unit,
    scan Inet.plain twoPortsRange 1 1000 [pending] = some s₀ ∧
      Along (step Inet.plain) (Account Inet.plain twoPortsRange) s₀ twoPortsEvents := by
  obtain ⟨s₀, hscan, hevents, -⟩ := twoPorts_scanned
  exact ⟨s₀, hscan, scan_accounts (by decide) pending_adds hscan twoPortsEvents hevents⟩

theorem scan_ends_twoPorts : ∃ s₀ : PortScanner Unit,
    scan Inet.plain twoPortsRange 1 1000 [pending] = some s₀ ∧ s₀.ledger.waiting ≠ [] ∧
      Along (step Inet.plain) (fun s => s.again = 0 →
        Ending Inet.plain twoPortsRange (s₀.ledger.waiting = []) s) s₀ twoPortsEvents := by
  obtain ⟨s₀, hscan, hevents, hwaiting, -⟩ := twoPorts_scanned
  exact ⟨s₀, hscan, hwaiting,
    scan_ends (by decide) pending_adds hscan twoPortsEvents hevents⟩

theorem scan_reports_twoPorts : ∃ s₀ s : PortScanner Unit,
    run (step Inet.plain) s₀ twoPortsEvents = some s ∧
      (s.ledger.settled.map Prod.fst).Perm (addresses Inet.plain oneHost twoPorts) ∧
      s.openPorts (StringUtil.bytes "10.0.0.1") = [22] := by
  obtain ⟨s₀, hscan, hevents, -, s, hrun, hquit, hagain, hopen⟩ := twoPorts_scanned
  obtain ⟨hperm, -⟩ := scan_reports Inet.plain_documented plain_dotted (by decide) (by decide)
    (by decide) (by decide) (by decide) (by decide) pending_adds hscan twoPortsEvents hevents
    hrun hquit hagain
  exact ⟨s₀, s, hrun, hperm, hopen⟩

end TwoPorts

end PortScanner

end PortScan

end Brickred
