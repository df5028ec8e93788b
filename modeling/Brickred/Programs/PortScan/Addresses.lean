import Brickred.Lib.Odometer
import Brickred.SocketAddress.Conversion
import Brickred.StringUtil.Split

/-!
# The addresses of a scan (model of `SocketAddressRange` in `port_scan.cc`)

Two texts, of spans of IPv4 addresses and of spans of ports, and an object that gives out one
address after the other: for every IP all ports.  It ends with a span by comparing the successor,
which for a port is an `int` and for an IP an `uint32_t`: after 255.255.255.255 comes 0.0.0.0.

* `address_eq` — the object is an odometer.
* `init_written` — spans that are written down are read back.
* `gives_addresses_iff` — when exactly the addresses of the spans are given out, and then the end.
-/

set_option autoImplicit false

namespace Brickred

namespace PortScan

open StringUtil Odometer

/-- What `setAddress` gets. -/
abbrev Address := List UInt8 × UInt16

/-- `class SocketAddressRange`, without the address that was given out last. -/
structure SocketAddressRange where
  ipRanges : List (UInt32 × UInt32)
  portRanges : List (UInt16 × UInt16)
  ipRangeIndex : ℕ
  portRangeIndex : ℕ
  ip : UInt32
  port : UInt16
  finished : Bool
  deriving DecidableEq

namespace SocketAddressRange

def new : SocketAddressRange := ⟨[], [], 0, 0, 0, 0, false⟩

/-! ## Reading the texts -/

/-- The loop over the pieces; what is read before a bad one stays. -/
def readRanges {α : Type} (read : List UInt8 → Option (α × α)) :
    List (List UInt8) → List (α × α) → Bool × List (α × α)
  | [], ranges => (true, ranges)
  | piece :: pieces, ranges =>
    match read piece with
    | none => (false, ranges)
    | some range => readRanges read pieces (ranges ++ [range])

def readIpRange (inet : Inet) (piece : List UInt8) : Option (UInt32 × UInt32) :=
  match splitCString piece (bytes "-") (-1) with
  | [text] => (SocketAddress.ipV4TextToBin inet text).map fun ip => (ip, ip)
  | [start, stop] => do
    let ipStart ← SocketAddress.ipV4TextToBin inet start
    let ipEnd ← SocketAddress.ipV4TextToBin inet stop
    if ipStart > ipEnd then none else some (ipStart, ipEnd)
  | _ => none

def readPortRange (piece : List UInt8) : Option (UInt16 × UInt16) :=
  match splitCString piece (bytes "-") (-1) with
  | [text] => some (UInt16.ofInt (atoi text), UInt16.ofInt (atoi text))
  | [start, stop] =>
    let portStart := UInt16.ofInt (atoi start)
    let portEnd := UInt16.ofInt (atoi stop)
    if portStart > portEnd then none else some (portStart, portEnd)
  | _ => none

def parseIpRange (inet : Inet) (s : SocketAddressRange) (ipRange : List UInt8) :
    Bool × SocketAddressRange :=
  match readRanges (readIpRange inet) (splitCString ipRange (bytes ",") (-1)) s.ipRanges with
  | (true, range :: ranges) =>
    (true, { s with ipRanges := range :: ranges, ipRangeIndex := 0, ip := range.1 })
  | (_, ipRanges) => (false, { s with ipRanges })

def parsePortRange (s : SocketAddressRange) (portRange : List UInt8) :
    Bool × SocketAddressRange :=
  match readRanges readPortRange (splitCString portRange (bytes ",") (-1)) s.portRanges with
  | (true, range :: ranges) =>
    (true, { s with portRanges := range :: ranges, portRangeIndex := 0, port := range.1 })
  | (_, portRanges) => (false, { s with portRanges })

def init (inet : Inet) (s : SocketAddressRange) (ipRange portRange : List UInt8) :
    Bool × SocketAddressRange :=
  let (ok, s) := s.parseIpRange inet ipRange
  if ok = false then (false, s)
  else
    let (ok, s) := s.parsePortRange portRange
    if ok = false then (false, s) else (true, { s with finished := false })

/-! ## Giving out addresses; `none` is an index behind the end of a vector -/

def addIpRange (s : SocketAddressRange) : Option SocketAddressRange :=
  let s := { s with ipRangeIndex := s.ipRangeIndex + 1 }
  if s.ipRangeIndex ≥ s.ipRanges.length then some { s with finished := true }
  else s.ipRanges[s.ipRangeIndex]?.map fun range => { s with ip := range.1 }

def addIp (s : SocketAddressRange) : Option SocketAddressRange := do
  let range ← s.ipRanges[s.ipRangeIndex]?
  let s ← if s.ip + 1 > range.2 then s.addIpRange else some { s with ip := s.ip + 1 }
  if !s.finished then some { s with portRangeIndex := 0 } else some s

def addPortRange (s : SocketAddressRange) : Option SocketAddressRange := do
  let s := { s with portRangeIndex := s.portRangeIndex + 1 }
  let s ← if s.portRangeIndex ≥ s.portRanges.length then s.addIp else some s
  if !s.finished then
    s.portRanges[s.portRangeIndex]?.map fun range => { s with port := range.1 }
  else some s

def addPort (s : SocketAddressRange) : Option SocketAddressRange := do
  let range ← s.portRanges[s.portRangeIndex]?
  if s.port.toNat + 1 > range.2.toNat then s.addPortRange
  else some { s with port := s.port + 1 }

/-- The first result is `NULL` behind the last address. -/
def getNextAddress (inet : Inet) (s : SocketAddressRange) :
    Option (Option Address × SocketAddressRange) :=
  if s.finished then some (none, s)
  else s.addPort.map fun s' => (some (SocketAddress.ipV4BinToText inet s.ip, s.port), s')

/-- What the call number `k` returns, counted from 0. -/
def address (inet : Inet) : ℕ → SocketAddressRange → Option (Option Address)
  | 0, s => (s.getNextAddress inet).map Prod.fst
  | k + 1, s => (s.getNextAddress inet).bind fun r => address inet k r.2

/-! ## The odometer -/

/-- Where the first span begins. -/
def origin {α : Type} (zero : α) (ranges : List (α × α)) : α :=
  (ranges.head?.map Prod.fst).getD zero

def ips (ranges : List (UInt32 × UInt32)) : Wheel (ℕ × UInt32) UInt32 :=
  spans (fun a b => decide (a + 1 > b)) (· + 1) ranges (origin 0 ranges)

def ports (ranges : List (UInt16 × UInt16)) : Wheel (ℕ × UInt16) UInt16 :=
  spans (fun a b => decide (a.toNat + 1 > b.toNat)) (· + 1) ranges (origin 0 ranges)

def odometer (s : SocketAddressRange) : Wheel ((ℕ × UInt32) × ℕ × UInt16) (UInt32 × UInt16) :=
  (ips s.ipRanges).pair (ports s.portRanges)

def position (s : SocketAddressRange) : (ℕ × UInt32) × ℕ × UInt16 :=
  ((s.ipRangeIndex, s.ip), s.portRangeIndex, s.port)

/-- The indices are inside the vectors. -/
structure Valid (s : SocketAddressRange) : Prop where
  ipRange : s.ipRangeIndex < s.ipRanges.length
  portRange : s.portRangeIndex < s.portRanges.length

/-- What `addPort` leaves: the end, or the odometer turned. -/
inductive Turned (s s' : SocketAddressRange) : Option ((ℕ × UInt32) × ℕ × UInt16) → Prop
  | finished (hfinished : s'.finished = true) : Turned s s' none
  | goesOn (hfinished : s'.finished = false) (hvalid : s'.Valid)
    (hodometer : s'.odometer = s.odometer) : Turned s s' (some s'.position)

/-! ### One turn -/

section Turn

variable {s : SocketAddressRange}

theorem origin_eq {α : Type} {zero : α} {ranges : List (α × α)} {range : α × α}
    (h : ranges[0]? = some range) : origin zero ranges = range.1 := by
  rw [origin, List.head?_eq_getElem?, h]
  rfl

theorem ips_next {range : UInt32 × UInt32} (h : s.ipRanges[s.ipRangeIndex]? = some range) :
    (ips s.ipRanges).next (s.ipRangeIndex, s.ip) =
      if s.ip + 1 > range.2 then
        s.ipRanges[s.ipRangeIndex + 1]?.map fun range => (s.ipRangeIndex + 1, range.1)
      else some (s.ipRangeIndex, s.ip + 1) := by
  rw [ips, spans]
  dsimp only
  rw [h, Option.bind_some]
  simp only [decide_eq_true_eq]

theorem ports_next {range : UInt16 × UInt16} (h : s.portRanges[s.portRangeIndex]? = some range) :
    (ports s.portRanges).next (s.portRangeIndex, s.port) =
      if s.port.toNat + 1 > range.2.toNat then
        s.portRanges[s.portRangeIndex + 1]?.map fun range => (s.portRangeIndex + 1, range.1)
      else some (s.portRangeIndex, s.port + 1) := by
  rw [ports, spans]
  dsimp only
  rw [h, Option.bind_some]
  simp only [decide_eq_true_eq]

/-- The next IP, with the first of the spans of ports. -/
theorem addIp_spec (hi : s.ipRangeIndex < s.ipRanges.length) (hf : s.finished = false) :
    ∃ s', s.addIp = some s' ∧
      match (ips s.ipRanges).next (s.ipRangeIndex, s.ip) with
      | none => s'.finished = true
      | some p => p.1 < s.ipRanges.length ∧
        s' = { s with ipRangeIndex := p.1, ip := p.2, portRangeIndex := 0 } := by
  have hrange := List.getElem?_eq_getElem hi
  rw [ips_next hrange, addIp, hrange]
  simp only [bind, Option.bind_some]
  by_cases hpast : s.ip + 1 > s.ipRanges[s.ipRangeIndex].2
  · rw [if_pos hpast, if_pos hpast, addIpRange]
    dsimp only
    by_cases hlast : s.ipRangeIndex + 1 ≥ s.ipRanges.length
    · rw [if_pos hlast, List.getElem?_eq_none hlast]
      exact ⟨_, rfl, rfl⟩
    · have hlt : s.ipRangeIndex + 1 < s.ipRanges.length := by omega
      rw [if_neg hlast, List.getElem?_eq_getElem hlt]
      simp only [Option.map_some, Option.bind_some, hf, Bool.not_false, if_true]
      exact ⟨_, rfl, hlt, rfl⟩
  · rw [if_neg hpast, if_neg hpast]
    simp only [hf, Bool.not_false, if_true]
    exact ⟨_, rfl, hi, rfl⟩

/-- **`addPort` turns the odometer.** -/
theorem addPort_spec (h : s.Valid) (hf : s.finished = false) :
    ∃ s', s.addPort = some s' ∧ Turned s s' (s.odometer.next s.position) := by
  obtain ⟨hi, hj⟩ := h
  have hrange := List.getElem?_eq_getElem hj
  rw [addPort, hrange]
  simp only [bind, Option.bind_some, odometer, Wheel.pair, position]
  rw [ports_next hrange]
  by_cases hpast : s.port.toNat + 1 > s.portRanges[s.portRangeIndex].2.toNat
  · rw [if_pos hpast, if_pos hpast, addPortRange]
    dsimp only
    by_cases hlast : s.portRangeIndex + 1 ≥ s.portRanges.length
    · rw [if_pos hlast, List.getElem?_eq_none hlast]
      obtain ⟨s', haddIp, hs'⟩ :=
        @addIp_spec { s with portRangeIndex := s.portRangeIndex + 1 } hi hf
      rw [haddIp]
      simp only [bind, Option.bind_some, Option.map_none]
      dsimp only at hs'
      cases hnext : (ips s.ipRanges).next (s.ipRangeIndex, s.ip) with
      | none =>
        rw [hnext] at hs'
        dsimp only at hs'
        rw [hs']
        exact ⟨_, rfl, .finished hs'⟩
      | some p =>
        rw [hnext] at hs'
        obtain ⟨hp, rfl⟩ := hs'
        have hfirst : 0 < s.portRanges.length := by omega
        have horigin := @origin_eq _ 0 _ _ (List.getElem?_eq_getElem hfirst)
        rw [List.getElem?_eq_getElem hfirst]
        simp only [hf, Bool.not_false, if_true, Option.map_some]
        refine ⟨_, rfl, ?_⟩
        have hports : (ports s.portRanges).first = (0, s.portRanges[0].1) := by
          rw [ports, spans, horigin]
        rw [hports]
        exact .goesOn rfl ⟨hp, hfirst⟩ rfl
    · have hlt : s.portRangeIndex + 1 < s.portRanges.length := by omega
      rw [if_neg hlast]
      simp only [bind, Option.bind_some, hf, Bool.not_false, if_true,
        List.getElem?_eq_getElem hlt, Option.map_some]
      exact ⟨_, rfl, .goesOn rfl ⟨hi, hlt⟩ rfl⟩
  · rw [if_neg hpast, if_neg hpast]
    exact ⟨_, rfl, .goesOn hf ⟨hi, hj⟩ rfl⟩

end Turn

/-- What the odometer shows, as `setAddress` gets it. -/
def written (inet : Inet) (p : UInt32 × UInt16) : Address :=
  (SocketAddress.ipV4BinToText inet p.1, p.2)

theorem address_finished (inet : Inet) {s : SocketAddressRange} (h : s.finished = true) :
    ∀ k : ℕ, s.address inet k = some none
  | 0 => by rw [address, getNextAddress, if_pos h]; rfl
  | k + 1 => by
    rw [address, getNextAddress, if_pos h]
    exact address_finished inet h k

/-- **The object is an odometer.** -/
theorem address_eq (inet : Inet) {s : SocketAddressRange} (h : s.Valid) (hf : s.finished = false)
    (k : ℕ) : s.address inet k =
      some ((s.odometer.turned k s.position).map fun p => written inet (s.odometer.face p)) := by
  induction k generalizing s with
  | zero =>
    obtain ⟨s', hadd, _⟩ := addPort_spec h hf
    rw [address, getNextAddress, if_neg (by rw [hf]; exact Bool.false_ne_true), hadd]
    rfl
  | succ k ih =>
    obtain ⟨s', hadd, hturned⟩ := addPort_spec h hf
    rw [address, getNextAddress, if_neg (by rw [hf]; exact Bool.false_ne_true), hadd, Wheel.turned]
    generalize s.odometer.next s.position = next at hturned
    cases hturned with
    | finished hfinished => exact address_finished inet hfinished k
    | goesOn hfinished hvalid hodometer =>
      rw [Option.map_some, Option.bind_some, Option.bind_some, ← hodometer]
      exact ih hvalid hfinished

/-! ## Spans that are written down -/

/-- What `inet_ntop(3)` promises of an IPv4 address: digits and dots. -/
def Dotted (inet : Inet) : Prop :=
  ∀ {addr text : List UInt8} {size : ℕ}, inet.ntop .inet addr size = some text →
    ∀ c ∈ text, 46 ≤ c ∧ c ≤ 57

/-- One text where the span is a single number. -/
def rangeText {α : Type} [DecidableEq α] (write : α → List UInt8) (range : α × α) : List UInt8 :=
  Inet.render 45 write (if range.1 = range.2 then [range.1] else [range.1, range.2])

def portDigits (port : UInt16) : List UInt8 := StringUtil.toString port.toNat

def ipText (inet : Inet) (ips : List (UInt32 × UInt32)) : List UInt8 :=
  Inet.render 44 (rangeText (SocketAddress.ipV4BinToText inet)) ips

def portText (ports : List (UInt16 × UInt16)) : List UInt8 :=
  Inet.render 44 (rangeText portDigits) ports

section Texts

variable {α : Type} {sep : UInt8} {write : α → List UInt8}

theorem splitFrom_render (h : ∀ x, sep ∉ write x) : ∀ {xs : List α} {x : α} {fuel : ℕ}
    {count : Int}, xs.length < fuel →
    splitFrom [sep] (-1) fuel count (Inet.render sep write (x :: xs)) = (x :: xs).map write
  | [], x, _, _, _ => by
    rw [Inet.render_singleton]
    exact splitFrom_none (Search.firstIndex_eq_none (h x))
  | x' :: xs, x, 0, _, hfuel => absurd hfuel (Nat.not_lt_zero _)
  | x' :: xs, x, fuel + 1, count, hfuel => by
    rw [Inet.render_cons_cons, List.map_cons]
    refine (splitFrom_word (by omega) (h x)).trans ?_
    rw [List.length_cons] at hfuel
    exact congrArg _ (splitFrom_render h (by omega))

theorem length_le_render : ∀ (xs : List α) (x : α),
    xs.length ≤ (Inet.render sep write (x :: xs)).length
  | [], _ => Nat.zero_le _
  | x' :: xs, x => by
    have ih := length_le_render xs x'
    rw [Inet.render_cons_cons, List.length_append, List.length_cons, List.length_cons]
    omega

/-- **Items with a separator** between them are split again. -/
theorem split_render (hsep : sep ≠ 0) (h : ∀ x, sep ∉ write x ∧ 0 ∉ write x) {xs : List α}
    (hne : xs ≠ []) : splitCString (Inet.render sep write xs) [sep] (-1) = xs.map write := by
  obtain ⟨x, xs, rfl⟩ := List.exists_cons_of_ne_nil hne
  have hnul : 0 ∉ Inet.render sep write (x :: xs) := by
    intro hmem
    obtain heq | ⟨x, hx⟩ := Inet.mem_render hmem
    · exact hsep heq.symm
    · exact (h x).2 hx
  rw [splitCString_eq hnul (by simpa using hsep.symm), split, if_neg (List.cons_ne_nil _ _)]
  exact splitFrom_render (fun x => (h x).1) (Nat.lt_succ_of_le (length_le_render xs x))

theorem readRanges_written {read : List UInt8 → Option (α × α)} {write : α × α → List UInt8}
    {ranges : List (α × α)} (h : ∀ range ∈ ranges, read (write range) = some range)
    (before : List (α × α)) :
    readRanges read (ranges.map write) before = (true, before ++ ranges) := by
  induction ranges generalizing before with
  | nil => rw [List.map_nil, readRanges, List.append_nil]
  | cons range ranges ih =>
    rw [List.map_cons, readRanges, h range List.mem_cons_self]
    dsimp only
    rw [ih (fun r hr => h r (List.mem_cons_of_mem _ hr)), List.append_assoc]
    rfl

/-- Characters between `.` and `9` are neither separators nor the end of a text. -/
theorem rangeText_chars [DecidableEq α] (h : ∀ x, ∀ c ∈ write x, 46 ≤ c ∧ c ≤ 57)
    (range : α × α) : 44 ∉ rangeText write range ∧ 0 ∉ rangeText write range := by
  have hout : ∀ b : UInt8, ¬ 46 ≤ b → b ≠ 45 → b ∉ rangeText write range := by
    intro b hlow hne hmem
    obtain heq | ⟨x, hx⟩ := Inet.mem_render hmem
    · exact hne heq
    · exact hlow (h x b hx).1
  exact ⟨hout 44 (by decide) (by decide), hout 0 (by decide) (by decide)⟩

theorem split_rangeText [DecidableEq α] (h : ∀ x, ∀ c ∈ write x, 46 ≤ c ∧ c ≤ 57)
    (range : α × α) : splitCString (rangeText write range) (bytes "-") (-1) =
      if range.1 = range.2 then [write range.1] else [write range.1, write range.2] := by
  have hout : ∀ x, 45 ∉ write x ∧ 0 ∉ write x := fun x =>
    ⟨fun hmem => absurd (h x 45 hmem).1 (by decide), fun hmem => absurd (h x 0 hmem).1 (by decide)⟩
  have hsplit : splitCString (rangeText write range) [45] (-1) =
      (if range.1 = range.2 then [range.1] else [range.1, range.2]).map write :=
    split_render (by decide) hout (by split <;> exact List.cons_ne_nil _ _)
  refine hsplit.trans ?_
  split <;> rfl

end Texts

section Written

variable {inet : Inet}

theorem ipV4BinToText_chars (h : inet.Documented) (hdotted : Dotted inet) (ip : UInt32) :
    ∀ c ∈ SocketAddress.ipV4BinToText inet ip, 46 ≤ c ∧ c ≤ 57 := by
  have hlength : (BigEndian.toBytes 4 ip.toNat).length = Family.inet.size :=
    BigEndian.toBytes_length 4 ip.toNat
  obtain ⟨text, hntop, hnul, _⟩ :=
    h.inverse hlength (show Family.inet.strLen ≤ 32 by decide)
  have htext : SocketAddress.ipV4BinToText inet ip = text := by
    unfold SocketAddress.ipV4BinToText SocketAddress.ipV4BinToTextInto
    rw [hntop]
    exact cStr_of_notMem hnul
  rw [htext]
  exact hdotted hntop

theorem port_chars (port : UInt16) : ∀ c ∈ portDigits port, 46 ≤ c ∧ c ≤ 57 := by
  intro c hc
  obtain ⟨hlow, hhigh⟩ := mem_toString hc
  rw [UInt8.le_iff_toNat_le] at hlow ⊢
  exact ⟨le_trans (by decide) hlow, hhigh⟩

theorem ofInt_atoi_toString (port : UInt16) :
    UInt16.ofInt (atoi (portDigits port)) = port := by
  rw [portDigits]
  have hlt : port.toNat < 2 ^ 16 := port.toNat_lt
  rw [atoi_toString (by omega), UInt16.ofInt]
  have hmod : ((port.toNat : Int) % 2 ^ 16).toNat = port.toNat := by omega
  rw [hmod, UInt16.ofNat_toNat]

theorem readIpRange_written (h : inet.Documented) (hdotted : Dotted inet)
    {range : UInt32 × UInt32} (hle : range.1 ≤ range.2) :
    readIpRange inet (rangeText (SocketAddress.ipV4BinToText inet) range) = some range := by
  obtain ⟨ipStart, ipEnd⟩ := range
  rw [readIpRange, split_rangeText (ipV4BinToText_chars h hdotted)]
  by_cases heq : ipStart = ipEnd
  · subst heq
    rw [if_pos rfl]
    dsimp only
    rw [SocketAddress.ipV4_roundTrips h, Option.map_some]
  · rw [if_neg heq]
    simp only [SocketAddress.ipV4_roundTrips h, bind, Option.bind_some]
    exact if_neg (UInt32.not_lt.2 hle)

theorem readPortRange_written {range : UInt16 × UInt16} (hle : range.1 ≤ range.2) :
    readPortRange (rangeText portDigits range) = some range := by
  obtain ⟨portStart, portEnd⟩ := range
  rw [readPortRange, split_rangeText port_chars]
  by_cases heq : portStart = portEnd
  · subst heq
    rw [if_pos rfl]
    dsimp only
    rw [ofInt_atoi_toString]
  · rw [if_neg heq]
    simp only [ofInt_atoi_toString]
    exact if_neg (UInt16.not_lt.2 hle)

variable {ips : List (UInt32 × UInt32)} {ports : List (UInt16 × UInt16)}

/-- The object that `init` leaves. -/
def initial (ips : List (UInt32 × UInt32)) (ports : List (UInt16 × UInt16)) : SocketAddressRange :=
  ⟨ips, ports, 0, 0, origin 0 ips, origin 0 ports, false⟩

/-- **What is written down is read back.** -/
theorem init_written (h : inet.Documented) (hdotted : Dotted inet) (hips : ips ≠ [])
    (hports : ports ≠ []) (hips' : ∀ range ∈ ips, range.1 ≤ range.2)
    (hports' : ∀ range ∈ ports, range.1 ≤ range.2) :
    new.init inet (ipText inet ips) (portText ports) = (true, initial ips ports) := by
  have hsplitIps : splitCString (ipText inet ips) (bytes ",") (-1) =
      ips.map (rangeText (SocketAddress.ipV4BinToText inet)) :=
    split_render (by decide) (rangeText_chars (ipV4BinToText_chars h hdotted)) hips
  have hsplitPorts : splitCString (portText ports) (bytes ",") (-1) =
      ports.map (rangeText portDigits) :=
    split_render (by decide) (rangeText_chars port_chars) hports
  have hreadIps := readRanges_written (fun range hr => readIpRange_written h hdotted
    (hips' range hr)) new.ipRanges
  have hreadPorts := readRanges_written (fun range hr => readPortRange_written
    (hports' range hr))
  obtain ⟨ip, ips, rfl⟩ := List.exists_cons_of_ne_nil hips
  obtain ⟨port, ports, rfl⟩ := List.exists_cons_of_ne_nil hports
  have hparseIps : new.parseIpRange inet (ipText inet (ip :: ips)) =
      (true, { new with ipRanges := ip :: ips, ipRangeIndex := 0, ip := ip.1 }) := by
    rw [parseIpRange, hsplitIps, hreadIps]
    rfl
  rw [init, hparseIps]
  dsimp only
  rw [if_neg (by decide), parsePortRange, hsplitPorts, hreadPorts]
  rfl

end Written

/-! ## What is given out -/

/-- For every IP all ports. -/
def addresses (inet : Inet) (ips : List (UInt32 × UInt32)) (ports : List (UInt16 × UInt16)) :
    List Address :=
  ((ips.flatMap (span UInt32.toNat UInt32.ofNat)) ×ˢ
    (ports.flatMap (span UInt16.toNat UInt16.ofNat))).map (written inet)

theorem ip_succ {a b : UInt32} (h : a.toNat < b.toNat) : (a + 1).toNat = a.toNat + 1 := by
  have hb := b.toNat_lt
  rw [UInt32.toNat_add]
  exact Nat.mod_eq_of_lt (by rw [UInt32.toNat_one]; omega)

theorem ip_counts :
    Counts (fun a b => decide (a + 1 > b)) (· + 1) UInt32.toNat UInt32.ofNat where
  inverse _ := UInt32.ofNat_toNat
  injective _ _ := UInt32.toNat_inj.1
  toNat_succ _ _ := ip_succ
  not_past a b h := by
    have hsucc := ip_succ h
    rw [decide_eq_false_iff_not, gt_iff_lt, UInt32.lt_iff_toNat_lt]
    omega

theorem port_counts : Counts (fun a b : UInt16 => decide (a.toNat + 1 > b.toNat)) (· + 1)
    UInt16.toNat UInt16.ofNat where
  inverse _ := UInt16.ofNat_toNat
  injective _ _ := UInt16.toNat_inj.1
  toNat_succ a b h := by
    have hb := b.toNat_lt
    rw [UInt16.toNat_add]
    exact Nat.mod_eq_of_lt (by rw [UInt16.toNat_one]; omega)
  not_past a b h := by
    rw [decide_eq_false_iff_not]
    omega

/-- The successor of the last IP is the first, and the only one that is not above. -/
theorem ip_past_iff (ip : UInt32) : ip + 1 > ip ↔ ip ≠ 0xFFFFFFFF := by
  have hlt := ip.toNat_lt
  rw [gt_iff_lt, UInt32.lt_iff_toNat_lt, UInt32.toNat_add, ne_eq, ← UInt32.toNat_inj]
  change ip.toNat < (ip.toNat + 1) % 2 ^ 32 ↔ ¬ ip.toNat = 4294967295
  omega

section Given

variable {inet : Inet} {ips : List (UInt32 × UInt32)} {ports : List (UInt16 × UInt16)}

theorem ports_lists (hports : ports ≠ []) (hle : ∀ range ∈ ports, range.1 ≤ range.2) :
    (SocketAddressRange.ports ports).Lists (SocketAddressRange.ports ports).first
      (ports.flatMap (span UInt16.toNat UInt16.ofNat)) := by
  obtain ⟨range, later, rfl⟩ := List.exists_cons_of_ne_nil hports
  refine lists_spans port_counts List.drop_zero fun r hr => ⟨hle r ?_, ?_⟩
  · rwa [List.drop_zero] at hr
  · exact decide_eq_true (Nat.lt_succ_self _)

theorem ips_lists (hips : ips ≠ []) (hle : ∀ range ∈ ips, range.1 ≤ range.2)
    (hlast : ∀ range ∈ ips, range.2 ≠ 0xFFFFFFFF) :
    (SocketAddressRange.ips ips).Lists (SocketAddressRange.ips ips).first
      (ips.flatMap (span UInt32.toNat UInt32.ofNat)) := by
  obtain ⟨range, later, rfl⟩ := List.exists_cons_of_ne_nil hips
  refine lists_spans ip_counts List.drop_zero fun r hr => ?_
  rw [List.drop_zero] at hr
  exact ⟨hle r hr, decide_eq_true ((ip_past_iff r.2).2 (hlast r hr))⟩

/-- A span that ends at 255.255.255.255 is never left. -/
theorem endless_ips {range : UInt32 × UInt32} (hlast : range.2 = 0xFFFFFFFF) :
    (SocketAddressRange.ips ips).Endless fun p => ∃ i, p.1 ≤ i ∧ ips[i]? = some range := by
  refine endless_spans fun a => ?_
  rw [hlast, decide_eq_false_iff_not, gt_iff_lt, UInt32.lt_iff_toNat_lt]
  have ha := (a + 1).toNat_lt
  change ¬ 4294967295 < (a + 1).toNat
  omega

theorem initial_valid (hips : ips ≠ []) (hports : ports ≠ []) : (initial ips ports).Valid :=
  ⟨List.length_pos_iff.2 hips, List.length_pos_iff.2 hports⟩

theorem initial_gives (hips : ips ≠ []) (hports : ports ≠ [])
    (hips' : ∀ range ∈ ips, range.1 ≤ range.2) (hports' : ∀ range ∈ ports, range.1 ≤ range.2)
    (hlast : ∀ range ∈ ips, range.2 ≠ 0xFFFFFFFF) (k : ℕ) :
    (initial ips ports).address inet k = some (addresses inet ips ports)[k]? := by
  have hlists := Wheel.Lists.pair (ports_lists hports hports') (ips_lists hips hips' hlast)
  rw [address_eq inet (initial_valid hips hports) rfl, addresses, List.getElem?_map,
    ← hlists.shown k, Option.map_map]
  rfl

/-- **What the object gives out**: the addresses of the spans in order and then the end, unless a
span of IPs goes up to 255.255.255.255. -/
theorem gives_addresses_iff (h : inet.Documented) (hdotted : Dotted inet) (hips : ips ≠ [])
    (hports : ports ≠ []) (hips' : ∀ range ∈ ips, range.1 ≤ range.2)
    (hports' : ∀ range ∈ ports, range.1 ≤ range.2) :
    ∃ s, new.init inet (ipText inet ips) (portText ports) = (true, s) ∧
      ((∀ k, s.address inet k = some (addresses inet ips ports)[k]?) ↔
        ∀ range ∈ ips, range.2 ≠ 0xFFFFFFFF) := by
  refine ⟨initial ips ports, init_written h hdotted hips hports hips' hports', ?_⟩
  constructor
  · intro hall range hmem hlast
    obtain ⟨i, hi⟩ := List.mem_iff_getElem?.1 hmem
    have hturns := ((@endless_ips ips range hlast).pair (SocketAddressRange.ports ports)).turned
      (s := (initial ips ports).position) ⟨i, Nat.zero_le i, hi⟩
      (addresses inet ips ports).length
    obtain ⟨p, hp⟩ := Option.isSome_iff_exists.1 hturns
    have hend := (hall (addresses inet ips ports).length).symm.trans
      (address_eq inet (initial_valid hips hports) rfl _)
    rw [List.getElem?_eq_none (Nat.le_refl _)] at hend
    have hnone := Option.some.inj hend
    rw [show (initial ips ports).odometer.turned _ _ = some p from hp] at hnone
    cases hnone
  · exact initial_gives hips hports hips' hports'

theorem plain_dotted : Dotted Inet.plain := by
  intro addr text size h c hc
  have htext : Inet.Plain.ntop .inet addr size = some text := h
  unfold Inet.Plain.ntop at htext
  split at htext
  · cases htext
    obtain rfl | ⟨b, hb⟩ := Inet.mem_render hc
    · decide
    · obtain ⟨hlow, hhigh⟩ := Inet.Plain.decimal_chars b c hb
      rw [UInt8.le_iff_toNat_le] at hlow ⊢
      exact ⟨le_trans (by decide) hlow, hhigh⟩
  · cases htext

/-- Two hosts and one more, three ports. -/
def hosts : List (UInt32 × UInt32) := [(0x0A000001, 0x0A000002), (0x7F000001, 0x7F000001)]

def services : List (UInt16 × UInt16) := [(22, 22), (80, 81)]

theorem gives_addresses_hosts : ∃ s,
    new.init Inet.plain (ipText Inet.plain hosts) (portText services) = (true, s) ∧
      ((∀ k, s.address Inet.plain k = some (addresses Inet.plain hosts services)[k]?) ↔
        ∀ range ∈ hosts, range.2 ≠ 0xFFFFFFFF) :=
  gives_addresses_iff Inet.plain_documented plain_dotted (by decide) (by decide) (by decide)
    (by decide)

example : ipText Inet.plain hosts = bytes "10.0.0.1-10.0.0.2,127.0.0.1" := by decide

end Given

end SocketAddressRange

end PortScan

end Brickred
