import Brickred.SocketAddress.Text

/-!
# Texts and binary addresses (model of `ipV4TextToBin` … `ipV6BinToText`)

* `ipV4_roundTrips` — the text of an IPv4 address is read back as that address.
* `ipV6BinToText_spec` — the text of an IPv6 address is that of its first four bytes, as an IPv4
  address.
* `ip_roundTrips_iff` — so exactly the IPv4 addresses come back.
-/

set_option autoImplicit false

namespace Brickred

namespace SocketAddress

open StringUtil

section Functions

variable (inet : Inet)

/-- `none` when it returns false, and `*binary` is as it was. -/
def ipV4TextToBin (text : List UInt8) : Option UInt32 :=
  (inet.pton .inet (cStr text)).map fun addr => UInt32.ofNat (BigEndian.ofBytes addr)

/-- What is in `*text` afterwards. -/
def ipV4BinToTextInto (binary : UInt32) (text : List UInt8) : List UInt8 :=
  match inet.ntop .inet (BigEndian.toBytes 4 binary.toNat) 32 with
  | none => text
  | some ip => cStr ip

def ipV4BinToText (binary : UInt32) : List UInt8 := ipV4BinToTextInto inet binary []

def ipV6TextToBin (text : List UInt8) : Option (List UInt8) := inet.pton .inet6 (cStr text)

/-- `inet_ntop` is called with `AF_INET`, so that it reads a `struct in_addr`. -/
def ipV6BinToTextInto (binary : List UInt8) (text : List UInt8) : List UInt8 :=
  match inet.ntop .inet (binary.take 4) 128 with
  | none => text
  | some ip => cStr ip

def ipV6BinToText (binary : List UInt8) : List UInt8 := ipV6BinToTextInto inet binary []

end Functions

/-- A `uint32_t`, or a `uint8_t[16]`. -/
inductive Binary where
  | ipV4 (b : UInt32)
  | ipV6 (b : List UInt8) (size : b.length = 16)

/-- The text of the address is read back as the address. -/
def RoundTrips (inet : Inet) : Binary → Prop
  | .ipV4 b => ipV4TextToBin inet (ipV4BinToText inet b) = some b
  | .ipV6 b _ => ipV6TextToBin inet (ipV6BinToText inet b) = some b

def Binary.IsIpV4 : Binary → Prop
  | ipV4 _ => True
  | ipV6 _ _ => False

section RoundTrip

variable {inet : Inet}

theorem ofBytes_toBytes_word (b : UInt32) :
    UInt32.ofNat (BigEndian.ofBytes (BigEndian.toBytes 4 b.toNat)) = b := by
  rw [BigEndian.ofBytes_toBytes, Nat.mod_eq_of_lt b.toNat_lt, UInt32.ofNat_toNat]

theorem ipV4_roundTrips (h : inet.Documented) (b : UInt32) :
    ipV4TextToBin inet (ipV4BinToText inet b) = some b := by
  have hsize : Family.inet.strLen ≤ 32 := by decide
  have hlength : (BigEndian.toBytes 4 b.toNat).length = Family.inet.size :=
    BigEndian.toBytes_length 4 b.toNat
  obtain ⟨text, hntop, hnul, hpton⟩ := h.inverse hlength hsize
  have htext : ipV4BinToText inet b = text := by
    unfold ipV4BinToText ipV4BinToTextInto
    rw [hntop]
    exact cStr_of_notMem hnul
  unfold ipV4TextToBin
  rw [htext, cStr_of_notMem hnul, hpton, Option.map_some, ofBytes_toBytes_word]

/-- **The text of an IPv6 address** is the IPv4 text of its first four bytes. -/
theorem ipV6BinToText_spec (h : inet.Documented) {b : List UInt8} (hb : b.length = 16) :
    ∃ text, ipV6BinToText inet b = text ∧ 0 ∉ text ∧ 58 ∉ text ∧
      inet.pton .inet text = some (b.take 4) := by
  have hlength : (b.take 4).length = Family.inet.size := by
    rw [List.length_take_of_le (by omega)]
    rfl
  have hsize : Family.inet.strLen ≤ 128 := by decide
  obtain ⟨text, hntop, hnul, hpton⟩ := h.inverse hlength hsize
  refine ⟨text, ?_, hnul, h.dotted hntop, hpton⟩
  unfold ipV6BinToText ipV6BinToTextInto
  rw [hntop]
  exact cStr_of_notMem hnul

/-- **A round trip succeeds** for the IPv4 addresses, and for no IPv6 address. -/
theorem ip_roundTrips_iff (h : inet.Documented) (b : Binary) : RoundTrips inet b ↔ b.IsIpV4 := by
  cases b with
  | ipV4 b => exact iff_of_true (ipV4_roundTrips h b) trivial
  | ipV6 b hb =>
    refine iff_of_false (fun hround => ?_) id
    obtain ⟨text, htext, hnul, hcolon, _⟩ := ipV6BinToText_spec h hb
    -- a text without a colon is no IPv6 address
    have hread : inet.pton .inet6 text = some b := by
      have hround' : ipV6TextToBin inet (ipV6BinToText inet b) = some b := hround
      rw [htext] at hround'
      unfold ipV6TextToBin at hround'
      rwa [cStr_of_notMem hnul] at hround'
    exact hcolon (h.colons hread)

end RoundTrip

/-- `2001:1db8:1111:2222:3333:4444:5555:6666` -/
def documentation : Binary :=
  .ipV6 [0x20, 0x01, 0x1d, 0xb8, 0x11, 0x11, 0x22, 0x22, 0x33, 0x33, 0x44, 0x44, 0x55, 0x55, 0x66,
    0x66] rfl

theorem roundTrips_documentation : RoundTrips .plain documentation ↔ documentation.IsIpV4 :=
  ip_roundTrips_iff Inet.plain_documented documentation

/-- The text is `32.1.29.184`, which is no IPv6 address. -/
theorem not_roundTrips_ipV6 : Inet.plain.Documented ∧ ¬ RoundTrips .plain documentation :=
  ⟨Inet.plain_documented, fun h => absurd (show ipV6TextToBin .plain _ = some _ from h)
    (by decide +kernel)⟩

end SocketAddress

end Brickred
