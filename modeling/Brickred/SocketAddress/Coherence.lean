import Brickred.Lib.Runs
import Brickred.SocketAddress.Text

/-!
# What `SocketAddress` keeps

* `Source` — what the last setter was given; `Source.methods` answers from it and keeps nothing.
* `Coherent` — what an object keeps belongs to its source: `loadAddress_coherent`,
  `loadNativeAddress_coherent`.
* `caches_coherent` — so the objects answer as their sources do, whatever getters were called.
-/

set_option autoImplicit false

namespace Brickred

namespace SocketAddress

open StringUtil

/-! ## Without a cache -/

/-- What the last successful setter was given. -/
inductive Source where
  | unset
  | address (ip : List UInt8) (port : UInt16)
  | native (af : Family) (nativeAddr : Sockaddr)

def protocolOf : Family → Protocol
  | .inet => .ipV4
  | .inet6 => .ipV6

/-- The family a text is tried with. -/
def textFamily (ip : List UInt8) : Option Family :=
  if 46 ∈ ip then some .inet else if 58 ∈ ip then some .inet6 else none

def sockaddrOf (port : UInt16) (addr : List UInt8) : Family → List UInt8
  | .inet => sockaddrIn port addr
  | .inet6 => sockaddrIn6 port addr

/-- The buffer that is given to `inet_ntop`. -/
def textSize : Family → Nat
  | .inet => 32
  | .inet6 => 128

namespace Source

variable (inet : Inet)

/-- The native address, with its family. -/
def nativeAddress : Source → Option (Family × List UInt8)
  | unset => none
  | address ip port =>
    (textFamily ip).bind fun af =>
      (inet.pton af (cStr ip)).map fun addr => (af, sockaddrOf port addr af)
  | native af nativeAddr => some (af, nativeAddr.bytes.take af.sockaddrSize)

/-- The text and the port. -/
def text : Source → List UInt8 × UInt16
  | unset => ([], 0)
  | address ip port => (ip, port)
  | native af nativeAddr =>
    match inet.ntop af (addrAt af nativeAddr.bytes) (textSize af) with
    | none => ([], 0)
    | some ip => (cStr ip, portAt nativeAddr.bytes)

def setNativeAddress (src : Source) (nativeAddr : Sockaddr) : Bool × Source :=
  match nativeAddr.family with
  | some af => (true, native af nativeAddr)
  | none => (false, src)

/-- Each getter makes its answer anew. -/
def methods : Methods Source where
  new _ := unset
  newAddress _ := address
  getIp src := ((src.text inet).1, src)
  getPort src := ((src.text inet).2, src)
  getProtocol src :=
    (((src.nativeAddress inet).map fun n => protocolOf n.1).getD .unknown, src)
  getNativeAddress src := ((src.nativeAddress inet).map Prod.snd, src)
  getNativeAddressSize src :=
    (((src.nativeAddress inet).map fun n => n.1.sockaddrSize).getD 0, src)
  setAddress _ := address
  setNativeAddress := setNativeAddress

end Source

/-! ## What is kept -/

/-- The object has this native address, or none. -/
def Impl.Holds (s : Impl) : Option (Family × List UInt8) → Prop
  | none => s.protocol = .unknown ∧ s.nativeAddrSize = 0
  | some (af, sockaddr) => s.protocol = protocolOf af ∧ s.nativeAddrSize = af.sockaddrSize ∧
    s.nativeAddr.take af.sockaddrSize = sockaddr

/-- The form that was set is there, and the other one is that of it if it is there. -/
def Coherent (inet : Inet) : Source → Impl → Prop
  | .unset, s => s.hasAddr = false ∧ s.hasNativeAddr = false ∧ (s.ip, s.port) = ([], 0) ∧
    s.Holds none
  | .address ip port, s => s.hasAddr = true ∧ (s.ip, s.port) = (ip, port) ∧
    (s.hasNativeAddr = true → s.Holds ((Source.address ip port).nativeAddress inet))
  | .native af nativeAddr, s => s.hasNativeAddr = true ∧
    s.Holds ((Source.native af nativeAddr).nativeAddress inet) ∧
    (s.hasAddr = true → (s.ip, s.port) = (Source.native af nativeAddr).text inet)

section Fields

variable {af : Family} {sockaddr sockaddr' : List UInt8}

/-- The fields are in the part that counts. -/
theorem addrAt_take (af : Family) (sockaddr : List UInt8) :
    addrAt af (sockaddr.take af.sockaddrSize) = addrAt af sockaddr := by
  unfold addrAt
  rw [List.drop_take, List.take_take]
  cases af <;> rfl

theorem portAt_take (af : Family) (sockaddr : List UInt8) :
    portAt (sockaddr.take af.sockaddrSize) = portAt sockaddr := by
  unfold portAt
  rw [List.drop_take, List.take_take]
  cases af <;> rfl

theorem sockaddrOf_length {port : UInt16} {addr : List UInt8} (h : addr.length = af.size) :
    (sockaddrOf port addr af).length = af.sockaddrSize := by
  cases af <;>
    simp [sockaddrOf, sockaddrIn, sockaddrIn6, h, Family.bytes, Family.size, Family.sockaddrSize]

theorem family_whole {nativeAddr : Sockaddr} (h : nativeAddr.family = some af) :
    af.sockaddrSize ≤ nativeAddr.bytes.length := by
  unfold Sockaddr.family at h
  split at h
  · cases h
    exact nativeAddr.whole _ ‹_›
  · split at h
    · cases h
      exact nativeAddr.whole _ ‹_›
    · cases h

end Fields

section Load

variable {inet : Inet} {s : Impl} {src : Source}

/-- **The text of a native address** is what it is without a cache. -/
theorem readAddress_spec {af : Family} {nativeAddr : Sockaddr}
    (h : s.nativeAddr.take af.sockaddrSize = nativeAddr.bytes.take af.sockaddrSize) :
    ∃ hasAddr, s.readAddress inet af (textSize af) =
      { s with
        ip := ((Source.native af nativeAddr).text inet).1
        port := ((Source.native af nativeAddr).text inet).2
        hasAddr } := by
  have haddr : addrAt af s.nativeAddr = addrAt af nativeAddr.bytes := by
    rw [← addrAt_take af s.nativeAddr, h, addrAt_take]
  have hport : portAt s.nativeAddr = portAt nativeAddr.bytes := by
    rw [← portAt_take af s.nativeAddr, h, portAt_take]
  unfold Impl.readAddress
  rw [haddr, hport]
  cases hntop : inet.ntop af (addrAt af nativeAddr.bytes) (textSize af) with
  | none => exact ⟨s.hasAddr, by simp only [Source.text, hntop]⟩
  | some ip => exact ⟨true, by simp only [Source.text, hntop]⟩

theorem translateNativeAddressToAddress_spec {af : Family} {nativeAddr : Sockaddr}
    (h : s.Holds ((Source.native af nativeAddr).nativeAddress inet)) :
    ∃ hasAddr, s.translateNativeAddressToAddress inet =
      { s with
        ip := ((Source.native af nativeAddr).text inet).1
        port := ((Source.native af nativeAddr).text inet).2
        hasAddr } := by
  obtain ⟨hprotocol, _, hbytes⟩ := h
  have hread : s.translateNativeAddressToAddress inet = s.readAddress inet af (textSize af) := by
    unfold Impl.translateNativeAddressToAddress
    rw [hprotocol]
    cases af <;> rfl
  rw [hread]
  exact readAddress_spec hbytes

/-- **The native address of a text** is what it is without a cache. -/
theorem translateAddressToNativeAddress_spec (inet : Inet) (s : Impl) :
    ∃ hasNativeAddr protocol nativeAddr nativeAddrSize, s.translateAddressToNativeAddress inet =
        { s with hasNativeAddr, protocol, nativeAddr, nativeAddrSize } ∧
      (s.translateAddressToNativeAddress inet).Holds
        ((Source.address s.ip s.port).nativeAddress inet) := by
  unfold Impl.translateAddressToNativeAddress Source.nativeAddress textFamily
  dsimp only
  split
  · cases hpton : inet.pton .inet (cStr s.ip) with
    | none => exact ⟨_, _, _, _, rfl, by simp [hpton, Impl.Holds]⟩
    | some addr =>
      have hlength := @sockaddrOf_length .inet s.port addr (inet.pton_length hpton)
      refine ⟨_, _, _, _, rfl, ?_⟩
      simp only [Option.bind_some, hpton, Option.map_some]
      exact ⟨rfl, rfl, List.take_left' hlength⟩
  · split
    · cases hpton : inet.pton .inet6 (cStr s.ip) with
      | none => exact ⟨_, _, _, _, rfl, by simp [hpton, Impl.Holds]⟩
      | some addr =>
        have hlength := @sockaddrOf_length .inet6 s.port addr (inet.pton_length hpton)
        refine ⟨_, _, _, _, rfl, ?_⟩
        simp only [Option.bind_some, hpton, Option.map_some]
        exact ⟨rfl, rfl, List.take_of_length_le (Nat.le_of_eq hlength)⟩
    · exact ⟨_, _, _, _, rfl, rfl, rfl⟩

/-- **After the text has been asked for** it is that of the source. -/
theorem loadAddress_coherent (h : Coherent inet src s) :
    Coherent inet src (s.loadAddress inet) ∧
      ((s.loadAddress inet).ip, (s.loadAddress inet).port) = src.text inet := by
  unfold Impl.loadAddress
  cases src with
  | unset =>
    obtain ⟨haddr, hnative, htext, hholds⟩ := h
    rw [if_neg (by rw [hnative]; exact fun h => Bool.false_ne_true h.2)]
    exact ⟨⟨haddr, hnative, htext, hholds⟩, htext⟩
  | address ip port =>
    obtain ⟨haddr, htext, hholds⟩ := h
    rw [if_neg (by rw [haddr]; exact fun h => Bool.false_ne_true h.1.symm)]
    exact ⟨⟨haddr, htext, hholds⟩, htext⟩
  | native af nativeAddr =>
    obtain ⟨hnative, hholds, htext⟩ := h
    split
    · obtain ⟨hasAddr, htranslate⟩ := translateNativeAddressToAddress_spec hholds
      rw [htranslate]
      exact ⟨⟨hnative, hholds, fun _ => rfl⟩, rfl⟩
    · rename_i hload
      have haddr : s.hasAddr = true := by
        by_contra hne
        exact hload ⟨Bool.eq_false_iff.2 hne, hnative⟩
      exact ⟨⟨hnative, hholds, htext⟩, htext haddr⟩

/-- **After the native address has been asked for** it is that of the source. -/
theorem loadNativeAddress_coherent (h : Coherent inet src s) :
    Coherent inet src (s.loadNativeAddress inet) ∧
      (s.loadNativeAddress inet).Holds (src.nativeAddress inet) := by
  unfold Impl.loadNativeAddress
  cases src with
  | unset =>
    obtain ⟨haddr, hnative, htext, hholds⟩ := h
    rw [if_neg (by rw [haddr]; exact fun h => Bool.false_ne_true h.2)]
    exact ⟨⟨haddr, hnative, htext, hholds⟩, hholds⟩
  | address ip port =>
    obtain ⟨haddr, htext, hholds⟩ := h
    split
    · obtain ⟨hasNativeAddr, protocol, nativeAddr, size, htranslate, htranslated⟩ :=
        translateAddressToNativeAddress_spec inet s
      obtain ⟨rfl, rfl⟩ := Prod.mk.inj htext
      rw [htranslate] at htranslated ⊢
      exact ⟨⟨haddr, rfl, fun _ => htranslated⟩, htranslated⟩
    · rename_i hload
      have hnative : s.hasNativeAddr = true := by
        by_contra hne
        exact hload ⟨Bool.eq_false_iff.2 hne, haddr⟩
      exact ⟨⟨haddr, htext, hholds⟩, hholds hnative⟩
  | native af nativeAddr =>
    obtain ⟨hnative, hholds, htext⟩ := h
    rw [if_neg (by rw [hnative]; exact fun h => Bool.false_ne_true h.1.symm)]
    exact ⟨⟨hnative, hholds, htext⟩, hholds⟩

theorem getNativeAddress_snd (inet : Inet) (s : Impl) :
    (s.getNativeAddress inet).2 = s.loadNativeAddress inet := by
  unfold Impl.getNativeAddress
  dsimp only
  split <;> rfl

theorem getNativeAddress_fst {n : Option (Family × List UInt8)}
    (h : (s.loadNativeAddress inet).Holds n) :
    (s.getNativeAddress inet).1 = n.map Prod.snd := by
  unfold Impl.getNativeAddress
  cases n with
  | none =>
    dsimp only
    rw [h.1]
    rfl
  | some n =>
    obtain ⟨af, sockaddr⟩ := n
    obtain ⟨hprotocol, _, hbytes⟩ := h
    dsimp only
    rw [hprotocol]
    cases af <;> exact congrArg some hbytes

/-- **The getters answer** as the source does. -/
theorem answers_eq (h : Coherent inet src s) :
    (Impl.methods inet).answers s = (Source.methods inet).answers src := by
  obtain ⟨_, htext⟩ := loadAddress_coherent h
  obtain ⟨_, hholds⟩ := loadNativeAddress_coherent h
  have hip : (s.getIp inet).1 = (src.text inet).1 := congrArg Prod.fst htext
  have hport : (s.getPort inet).1 = (src.text inet).2 := congrArg Prod.snd htext
  have hnative := getNativeAddress_fst hholds
  have hkind : (s.getProtocol inet).1 =
        ((src.nativeAddress inet).map fun n => protocolOf n.1).getD .unknown ∧
      (s.getNativeAddressSize inet).1 =
        ((src.nativeAddress inet).map fun n => n.1.sockaddrSize).getD 0 := by
    cases hsrc : src.nativeAddress inet with
    | none =>
      rw [hsrc] at hholds
      exact hholds
    | some n =>
      rw [hsrc] at hholds
      exact ⟨hholds.1, hholds.2.1⟩
  unfold Methods.answers
  simp only [Impl.methods, Source.methods, hip, hport, hnative, hkind]

theorem setNativeAddress_coherent (h : Coherent inet src s) (nativeAddr : Sockaddr) :
    Coherent inet (src.setNativeAddress nativeAddr).2 (s.setNativeAddress nativeAddr).2 := by
  unfold Impl.setNativeAddress Source.setNativeAddress
  cases hfamily : nativeAddr.family with
  | none => exact h
  | some af =>
    have hwhole := family_whole hfamily
    have hbytes : (nativeAddr.bytes.take af.sockaddrSize ++
        s.nativeAddr.drop af.sockaddrSize).take af.sockaddrSize =
          nativeAddr.bytes.take af.sockaddrSize :=
      List.take_left' (List.length_take_of_le hwhole)
    cases af <;> exact ⟨rfl, ⟨rfl, rfl, hbytes⟩, fun haddr => absurd haddr Bool.false_ne_true⟩

end Load

/-! ## Any number of objects -/

section Objects

variable {inet : Inet} {objects objects' : Nat → Option Impl} {sources : Nat → Option Source}

/-- Each object has its source. -/
def Related (inet : Inet) (objects : Nat → Option Impl) (sources : Nat → Option Source) : Prop :=
  ∀ i, Option.Rel (fun s src => Coherent inet src s) (objects i) (sources i)

theorem Related.update (h : Related inet objects sources) (i : Nat) {o : Option Impl}
    {src : Option Source} (hrel : Option.Rel (fun s src => Coherent inet src s) o src) :
    Related inet (Function.update objects i o) (Function.update sources i src) := by
  intro j
  by_cases hj : j = i
  · rw [hj, Function.update_self, Function.update_self]
    exact hrel
  · rw [Function.update_of_ne hj, Function.update_of_ne hj]
    exact h j

theorem Related.cases (h : Related inet objects sources) (i : Nat) :
    (objects i = none ∧ sources i = none) ∨
      ∃ s src, objects i = some s ∧ sources i = some src ∧ Coherent inet src s := by
  have hi := h i
  cases ho : objects i with
  | none =>
    cases hsrc : sources i with
    | none => exact Or.inl ⟨rfl, rfl⟩
    | some src => rw [ho, hsrc] at hi; cases hi
  | some s =>
    cases hsrc : sources i with
    | none => rw [ho, hsrc] at hi; cases hi
    | some src =>
      rw [ho, hsrc] at hi
      cases hi with
      | some hcoherent => exact Or.inr ⟨s, src, rfl, rfl, hcoherent⟩

/-- What a method makes of one object is put in the place of another, or of the same. -/
theorem Related.put (h : Related inet objects sources) {i j : Nat} {method : Impl → Impl}
    {method' : Source → Source}
    (hmethod : ∀ s src, Coherent inet src s → Coherent inet (method' src) (method s))
    (hs : ((objects j).map fun s => Function.update objects i (some (method s))) =
      some objects') :
    ∃ sources', ((sources j).map fun src => Function.update sources i (some (method' src))) =
        some sources' ∧ Related inet objects' sources' := by
  obtain ⟨ho, _⟩ | ⟨s, src, ho, hsrc, hcoherent⟩ := h.cases j
  · rw [ho] at hs
    cases hs
  · rw [ho] at hs
    rw [hsrc]
    cases hs
    exact ⟨_, rfl, h.update i (.some (hmethod s src hcoherent))⟩

/-- A call of a method that keeps an object coherent. -/
theorem Related.call (h : Related inet objects sources) {i : Nat} {method : Impl → Impl}
    {method' : Source → Source}
    (hmethod : ∀ s src, Coherent inet src s → Coherent inet (method' src) (method s))
    (hcall : Methods.call objects i method = some objects') :
    ∃ sources', Methods.call sources i method' = some sources' ∧
      Related inet objects' sources' :=
  h.put hmethod hcall

/-- A getter changes what is kept, and not what it is of. -/
theorem Related.get (h : Related inet objects sources) {i : Nat} {method : Impl → Impl}
    (hmethod : ∀ s src, Coherent inet src s → Coherent inet src (method s))
    (hcall : Methods.call objects i method = some objects') :
    ∃ sources', Methods.call sources i id = some sources' ∧ Related inet objects' sources' :=
  h.call hmethod hcall

theorem Related.isSome (h : Related inet objects sources) (i : Nat) :
    (sources i).isSome = (objects i).isSome := by
  obtain ⟨ho, hsrc⟩ | ⟨s, src, ho, hsrc, _⟩ := h.cases i
  · rw [ho, hsrc]
    rfl
  · rw [ho, hsrc]
    rfl

/-- A constructor. -/
theorem Related.create (h : Related inet objects sources) {i : Nat} {s : Impl} {src : Source}
    (hcoherent : Coherent inet src s)
    (hs : (if (objects i).isSome then none else some (Function.update objects i (some s))) =
      some objects') :
    ∃ sources', (if (sources i).isSome then none
        else some (Function.update sources i (some src))) = some sources' ∧
      Related inet objects' sources' := by
  obtain ⟨hnone, ho⟩ := Option.ite_none_left_eq_some.1 hs
  cases ho
  refine ⟨_, if_neg ?_, h.update i (.some hcoherent)⟩
  rw [h.isSome]
  exact hnone

/-- **One operation** on the objects is the same operation on their sources. -/
theorem step_related (h : Related inet objects sources) {op : Op}
    (hs : (Impl.methods inet).step objects op = some objects') :
    ∃ sources', (Source.methods inet).step sources op = some sources' ∧
      Related inet objects' sources' := by
  cases op with
  | new i memory =>
    have hcoherent : Coherent inet .unset (.new memory) := ⟨rfl, rfl, rfl, rfl, rfl⟩
    exact h.create hcoherent hs
  | newAddress i memory ip port =>
    have hcoherent : Coherent inet (.address ip port) (.newAddress memory ip port) :=
      ⟨rfl, rfl, fun h => absurd h Bool.false_ne_true⟩
    exact h.create hcoherent hs
  | copy i j =>
    obtain ⟨hnone, hcopy⟩ := Option.ite_none_left_eq_some.1 hs
    rw [Methods.step, h.isSome, if_neg hnone]
    exact h.put (fun _ _ => id) hcopy
  | assign i j =>
    obtain ⟨hsome, hcopy⟩ := Option.ite_none_right_eq_some.1 hs
    rw [Methods.step, h.isSome, if_pos hsome]
    exact h.put (fun _ _ => id) hcopy
  | destroy i =>
    obtain ⟨hsome, ho⟩ := Option.ite_none_right_eq_some.1 hs
    cases ho
    rw [Methods.step, h.isSome, if_pos hsome]
    exact ⟨_, rfl, h.update i .none⟩
  | setAddress i ip port =>
    exact h.call (fun _ _ _ => ⟨rfl, rfl, fun h => absurd h Bool.false_ne_true⟩) hs
  | setNativeAddress i nativeAddr =>
    exact h.call (fun _ _ hcoherent => setNativeAddress_coherent hcoherent nativeAddr) hs
  | getIp i => exact h.get (fun _ _ hcoherent => (loadAddress_coherent hcoherent).1) hs
  | getPort i => exact h.get (fun _ _ hcoherent => (loadAddress_coherent hcoherent).1) hs
  | getProtocol i =>
    exact h.get (fun _ _ hcoherent => (loadNativeAddress_coherent hcoherent).1) hs
  | getNativeAddress i =>
    refine h.get (fun s _ hcoherent => ?_) hs
    change Coherent inet _ (s.getNativeAddress inet).2
    rw [getNativeAddress_snd]
    exact (loadNativeAddress_coherent hcoherent).1
  | getNativeAddressSize i =>
    exact h.get (fun _ _ hcoherent => (loadNativeAddress_coherent hcoherent).1) hs

/-- A method that changes nothing changes no object. -/
theorem call_id {i : Nat} {sources' : Nat → Option Source}
    (hcall : Methods.call sources i id = some sources') : sources' = sources := by
  unfold Methods.call at hcall
  cases hsrc : sources i with
  | none =>
    rw [hsrc] at hcall
    cases hcall
  | some src =>
    rw [hsrc] at hcall
    cases hcall
    exact Function.update_eq_self_iff.2 hsrc.symm

/-- Without a cache a getter changes nothing. -/
theorem source_getter {op : Op} {sources' : Nat → Option Source} (hop : op.isGetter = true)
    (hs : (Source.methods inet).step sources op = some sources') : sources' = sources := by
  cases op with
  | getIp i => exact call_id hs
  | getPort i => exact call_id hs
  | getProtocol i => exact call_id hs
  | getNativeAddress i => exact call_id hs
  | getNativeAddressSize i => exact call_id hs
  | _ => cases hop

/-- Without a cache the getters need not be called. -/
theorem source_setters : ∀ {ops : List Op} {sources sources' : Nat → Option Source},
    Runs.run (Source.methods inet).step sources ops = some sources' →
    Runs.run (Source.methods inet).step sources (ops.filter fun op => !op.isGetter) = some sources'
  | [], _, _, h => h
  | op :: ops, sources, sources', h => by
    cases hs : (Source.methods inet).step sources op with
    | none =>
      simp only [Runs.run, hs] at h
      cases h
    | some sources₁ =>
      rw [Runs.run_cons ops hs] at h
      have ih := source_setters h
      by_cases hop : op.isGetter = true
      · rw [List.filter_cons_of_neg (by rw [hop]; decide), ← source_getter hop hs]
        exact ih
      · rw [List.filter_cons_of_pos (by simpa using hop), Runs.run_cons _ hs]
        exact ih

/-- **What the objects answer**, after any calls, is what their sources answer. -/
theorem run_answers {ops : List Op}
    (hr : Runs.run (Impl.methods inet).step (fun _ => none) ops = some objects) :
    ∃ sources, Runs.run (Source.methods inet).step (fun _ => none) ops = some sources ∧
      ∀ i, (objects i).map (Impl.methods inet).answers =
        (sources i).map (Source.methods inet).answers := by
  have hnone : Related inet (fun _ => none) fun _ => none := fun _ => .none
  have hstep : ∀ objects sources op objects', Related inet objects sources →
      (Impl.methods inet).step objects op = some objects' →
      ∃ sources', (Source.methods inet).step sources op = some sources' ∧
        Related inet objects' sources' := fun _ _ _ _ h hs => step_related h hs
  obtain ⟨sources, hsources, hrel⟩ := Runs.run_simulates hstep hnone hr
  refine ⟨sources, hsources, fun i => ?_⟩
  obtain ⟨ho, hsrc⟩ | ⟨s, src, ho, hsrc, hcoherent⟩ := hrel.cases i
  · rw [ho, hsrc]
    rfl
  · rw [ho, hsrc]
    exact congrArg some (answers_eq hcoherent)

/-- **The caches cannot be seen**: objects answer what they would without a cache, and the getters
that were called, in whatever order, make no difference. -/
theorem caches_coherent (inet : Inet) :
    (∀ ops objects, Runs.run (Impl.methods inet).step (fun _ => none) ops = some objects →
      ∃ sources, Runs.run (Source.methods inet).step (fun _ => none) ops = some sources ∧
        ∀ i, (objects i).map (Impl.methods inet).answers =
          (sources i).map (Source.methods inet).answers) ∧
    ∀ ops ops' objects objects',
      Runs.run (Impl.methods inet).step (fun _ => none) ops = some objects →
      Runs.run (Impl.methods inet).step (fun _ => none) ops' = some objects' →
      (ops.filter fun op => !op.isGetter) = (ops'.filter fun op => !op.isGetter) →
      ∀ i, (objects i).map (Impl.methods inet).answers =
        (objects' i).map (Impl.methods inet).answers := by
  refine ⟨fun ops objects => run_answers, fun ops ops' objects objects' hr hr' hsetters i => ?_⟩
  obtain ⟨sources, hsources, hanswers⟩ := run_answers hr
  obtain ⟨sources', hsources', hanswers'⟩ := run_answers hr'
  have hsame := source_setters hsources'
  rw [← hsetters, source_setters hsources] at hsame
  rw [hanswers i, hanswers' i, Option.some.inj hsame]

end Objects

/-- `10.1.2.3:80` -/
def setText : List Op := [.new 0 [], .setAddress 0 [49, 48, 46, 49, 46, 50, 46, 51] 80]

/-- A getter between the setter and the answer makes no difference. -/
theorem caches_coherent_text : ∃ objects objects',
    Runs.run (Impl.methods .plain).step (fun _ => none) (setText ++ [.getNativeAddress 0]) =
      some objects ∧
    Runs.run (Impl.methods .plain).step (fun _ => none) setText = some objects' ∧
    (objects 0).map (Impl.methods .plain).answers =
      (objects' 0).map (Impl.methods .plain).answers :=
  ⟨_, _, rfl, rfl,
    (caches_coherent .plain).2 (setText ++ [.getNativeAddress 0]) setText _ _ rfl rfl rfl 0⟩

end SocketAddress

end Brickred
