import Mathlib.Logic.Function.Basic
import Brickred.Lib.BigEndian
import Brickred.StringUtil

/-!
# `SocketAddress` (model of `socket_address.cc`)

An address is a text with a port, or a native `sockaddr`; each of them is made of the other when it
is asked for, and kept.  `inet_pton` and `inet_ntop` are functions of the C library.

* `Impl` — both forms, each with a flag that says whether it is there.
* `Methods`, `Op` — any number of objects, and what can be done with them.
-/

set_option autoImplicit false

namespace Brickred

open StringUtil

/-- `AF_INET`, `AF_INET6` -/
inductive Family where
  | inet
  | inet6
  deriving DecidableEq, Repr

namespace Family

/-- `sizeof(struct in_addr)`, `sizeof(struct in6_addr)` -/
def size : Family → Nat
  | inet => 4
  | inet6 => 16

/-- The constant, in the bytes of a `sa_family_t`. -/
def bytes : Family → List UInt8
  | inet => [2, 0]
  | inet6 => [10, 0]

/-- `sizeof(struct sockaddr_in)`, `sizeof(struct sockaddr_in6)` -/
def sockaddrSize : Family → Nat
  | inet => 16
  | inet6 => 28

/-- Where `sin_addr` and `sin6_addr` are. -/
def addrOffset : Family → Nat
  | inet => 4
  | inet6 => 8

end Family

/-- `inet_pton`, and `inet_ntop` with the size of its buffer; `none` when they fail. -/
structure Inet where
  pton : Family → List UInt8 → Option (List UInt8)
  ntop : Family → List UInt8 → Nat → Option (List UInt8)
  pton_length : ∀ {af : Family} {text addr : List UInt8}, pton af text = some addr →
    addr.length = af.size

/-- A `struct sockaddr`, with what is behind `sa_family` as its family has it. -/
structure Sockaddr where
  bytes : List UInt8
  whole : ∀ af : Family, bytes.take 2 = af.bytes → af.sockaddrSize ≤ bytes.length

/-- `sa_family`, if it is one of the two. -/
def Sockaddr.family (a : Sockaddr) : Option Family :=
  if a.bytes.take 2 = Family.inet.bytes then some .inet
  else if a.bytes.take 2 = Family.inet6.bytes then some .inet6
  else none

namespace SocketAddress

inductive Protocol where
  | unknown
  | ipV4
  | ipV6
  deriving DecidableEq, Repr

/-- `native_addr_` is the memory of the union. -/
structure Impl where
  hasAddr : Bool
  ip : List UInt8
  port : UInt16
  hasNativeAddr : Bool
  protocol : Protocol
  nativeAddr : List UInt8
  nativeAddrSize : Nat

/-- `sin_port` -/
def portAt (sockaddr : List UInt8) : UInt16 :=
  UInt16.ofNat (BigEndian.ofBytes ((sockaddr.drop 2).take 2))

/-- `sin_addr`, `sin6_addr` -/
def addrAt (af : Family) (sockaddr : List UInt8) : List UInt8 :=
  (sockaddr.drop af.addrOffset).take af.size

/-- A `sockaddr_in` of zeros, but for the family, the port and the address. -/
def sockaddrIn (port : UInt16) (addr : List UInt8) : List UInt8 :=
  Family.inet.bytes ++ BigEndian.toBytes 2 port.toNat ++ addr ++ List.replicate 8 0

def sockaddrIn6 (port : UInt16) (addr : List UInt8) : List UInt8 :=
  Family.inet6.bytes ++ BigEndian.toBytes 2 port.toNat ++ List.replicate 4 0 ++ addr ++
    List.replicate 4 0

namespace Impl

/-- `memory` is what the union happens to hold. -/
def new (memory : List UInt8) : Impl := ⟨false, [], 0, false, .unknown, memory, 0⟩

def newAddress (memory ip : List UInt8) (port : UInt16) : Impl :=
  ⟨true, ip, port, false, .unknown, memory, 0⟩

variable (inet : Inet)

/-- The two branches of `translateNativeAddressToAddress`, with the size of the buffer. -/
def readAddress (s : Impl) (af : Family) (size : Nat) : Impl :=
  match inet.ntop af (addrAt af s.nativeAddr) size with
  | none => { s with ip := [], port := 0 }
  | some ip => { s with ip := cStr ip, port := portAt s.nativeAddr, hasAddr := true }

def translateNativeAddressToAddress (s : Impl) : Impl :=
  match s.protocol with
  | .ipV4 => s.readAddress inet .inet 32
  | .ipV6 => s.readAddress inet .inet6 128
  | .unknown => { s with ip := [], port := 0 }

def translateAddressToNativeAddress (s : Impl) : Impl :=
  let s := { s with
    nativeAddr := List.replicate 28 0
    protocol := .unknown
    nativeAddrSize := 0 }
  if 46 ∈ s.ip then
    match inet.pton .inet (cStr s.ip) with
    | none => s
    | some addr =>
      { s with
        nativeAddr := sockaddrIn s.port addr ++ List.replicate 12 0
        protocol := .ipV4
        nativeAddrSize := 16
        hasNativeAddr := true }
  else if 58 ∈ s.ip then
    match inet.pton .inet6 (cStr s.ip) with
    | none => s
    | some addr =>
      { s with
        nativeAddr := sockaddrIn6 s.port addr
        protocol := .ipV6
        nativeAddrSize := 28
        hasNativeAddr := true }
  else s

/-- What `getIp` and `getPort` begin with. -/
def loadAddress (s : Impl) : Impl :=
  if s.hasAddr = false ∧ s.hasNativeAddr = true then s.translateNativeAddressToAddress inet else s

/-- What the other getters begin with. -/
def loadNativeAddress (s : Impl) : Impl :=
  if s.hasNativeAddr = false ∧ s.hasAddr = true then s.translateAddressToNativeAddress inet else s

def getIp (s : Impl) : List UInt8 × Impl :=
  let s := s.loadAddress inet
  (s.ip, s)

def getPort (s : Impl) : UInt16 × Impl :=
  let s := s.loadAddress inet
  (s.port, s)

def getProtocol (s : Impl) : Protocol × Impl :=
  let s := s.loadNativeAddress inet
  (s.protocol, s)

/-- What the pointer points to; `none` for NULL. -/
def getNativeAddress (s : Impl) : Option (List UInt8) × Impl :=
  let s := s.loadNativeAddress inet
  match s.protocol with
  | .ipV4 => (some (s.nativeAddr.take 16), s)
  | .ipV6 => (some (s.nativeAddr.take 28), s)
  | .unknown => (none, s)

def getNativeAddressSize (s : Impl) : Nat × Impl :=
  let s := s.loadNativeAddress inet
  (s.nativeAddrSize, s)

def setAddress (s : Impl) (ip : List UInt8) (port : UInt16) : Impl :=
  { s with ip, port, hasAddr := true, hasNativeAddr := false }

def setNativeAddress (s : Impl) (nativeAddr : Sockaddr) : Bool × Impl :=
  let copied (protocol : Protocol) (size : Nat) : Impl :=
    { s with
      protocol
      nativeAddrSize := size
      nativeAddr := nativeAddr.bytes.take size ++ s.nativeAddr.drop size
      hasAddr := false
      hasNativeAddr := true }
  match nativeAddr.family with
  | some .inet => (true, copied .ipV4 16)
  | some .inet6 => (true, copied .ipV6 28)
  | none => (false, s)

end Impl

/-! ## Objects and their methods -/

/-- What can be done with an address, for an implementation with the states `σ`. -/
structure Methods (σ : Type) where
  new : List UInt8 → σ
  newAddress : List UInt8 → List UInt8 → UInt16 → σ
  getIp : σ → List UInt8 × σ
  getPort : σ → UInt16 × σ
  getProtocol : σ → Protocol × σ
  getNativeAddress : σ → Option (List UInt8) × σ
  getNativeAddressSize : σ → Nat × σ
  setAddress : σ → List UInt8 → UInt16 → σ
  setNativeAddress : σ → Sockaddr → Bool × σ

inductive Op where
  | new (i : Nat) (memory : List UInt8)
  | newAddress (i : Nat) (memory ip : List UInt8) (port : UInt16)
  /-- the copy constructor makes `i` of `j` -/
  | copy (i j : Nat)
  /-- `operator=` -/
  | assign (i j : Nat)
  | destroy (i : Nat)
  | setAddress (i : Nat) (ip : List UInt8) (port : UInt16)
  | setNativeAddress (i : Nat) (nativeAddr : Sockaddr)
  | getIp (i : Nat)
  | getPort (i : Nat)
  | getProtocol (i : Nat)
  | getNativeAddress (i : Nat)
  | getNativeAddressSize (i : Nat)

/-- The calls that are not meant to change anything. -/
def Op.isGetter : Op → Bool
  | getIp _ | getPort _ | getProtocol _ | getNativeAddress _ | getNativeAddressSize _ => true
  | _ => false

/-- What the getters answer. -/
structure Answers where
  ip : List UInt8
  port : UInt16
  protocol : Protocol
  nativeAddress : Option (List UInt8)
  nativeAddressSize : Nat
  deriving DecidableEq

namespace Methods

variable {σ : Type} (c : Methods σ)

/-- The objects that there are, by name. -/
def call (objects : Nat → Option σ) (i : Nat) (method : σ → σ) : Option (Nat → Option σ) :=
  (objects i).map fun s => Function.update objects i (some (method s))

def step (objects : Nat → Option σ) : Op → Option (Nat → Option σ)
  | .new i memory =>
    if (objects i).isSome then none else some (Function.update objects i (some (c.new memory)))
  | .newAddress i memory ip port =>
    if (objects i).isSome then none
    else some (Function.update objects i (some (c.newAddress memory ip port)))
  | .copy i j =>
    if (objects i).isSome then none
    else (objects j).map fun s => Function.update objects i (some s)
  | .assign i j =>
    if (objects i).isSome then (objects j).map fun s => Function.update objects i (some s) else none
  | .destroy i => if (objects i).isSome then some (Function.update objects i none) else none
  | .setAddress i ip port => call objects i (c.setAddress · ip port)
  | .setNativeAddress i nativeAddr => call objects i fun s => (c.setNativeAddress s nativeAddr).2
  | .getIp i => call objects i fun s => (c.getIp s).2
  | .getPort i => call objects i fun s => (c.getPort s).2
  | .getProtocol i => call objects i fun s => (c.getProtocol s).2
  | .getNativeAddress i => call objects i fun s => (c.getNativeAddress s).2
  | .getNativeAddressSize i => call objects i fun s => (c.getNativeAddressSize s).2

def answers (s : σ) : Answers :=
  ⟨(c.getIp s).1, (c.getPort s).1, (c.getProtocol s).1, (c.getNativeAddress s).1,
    (c.getNativeAddressSize s).1⟩

end Methods

/-- The methods of `SocketAddress`. -/
def Impl.methods (inet : Inet) : Methods Impl where
  new := .new
  newAddress := .newAddress
  getIp := Impl.getIp inet
  getPort := Impl.getPort inet
  getProtocol := Impl.getProtocol inet
  getNativeAddress := Impl.getNativeAddress inet
  getNativeAddressSize := Impl.getNativeAddressSize inet
  setAddress := Impl.setAddress
  setNativeAddress := Impl.setNativeAddress

end SocketAddress

end Brickred
