import Brickred.Lib.BigEndian

/-!
# `Sha1` (model of `sha1.cc`)

* `sha1ProcessBlock` — the rounds on one block of 64 bytes.
* `Sha1.update`, `Sha1.digest` — the bytes are hashed block by block; what does not fill a block
  is kept in `workBlock`.
* `sha1Binary` — 20 bytes (`sha1Binary_length`).
-/

set_option autoImplicit false

namespace Brickred

namespace Codec

/-- `hash_[5]`, and the five variables of the rounds. -/
structure Sha1.Hash where
  a : UInt32
  b : UInt32
  c : UInt32
  d : UInt32
  e : UInt32
  deriving DecidableEq

/-- `ROTL32` -/
def rotl32 (dword n : UInt32) : UInt32 := dword <<< n ^^^ dword >>> (32 - n)

/-- The words of the block, `ntohl` applied. -/
def blockWords (workBlock : List UInt8) : List UInt32 :=
  (List.range 16).map fun i =>
    UInt32.ofNat (BigEndian.ofBytes ((workBlock.drop (4 * i)).take 4))

/-- `count` more words of the array `w`. -/
def extendWords : Nat → List UInt32 → List UInt32
  | 0, w => w
  | count + 1, w =>
    let i := w.length
    extendWords count (w ++ [rotl32
      (w.getD (i - 3) 0 ^^^ w.getD (i - 8) 0 ^^^ w.getD (i - 14) 0 ^^^ w.getD (i - 16) 0) 1])

/-- One turn of a round with the function `f` and the constant `k`. -/
def sha1Round (f : UInt32 → UInt32 → UInt32 → UInt32) (k : UInt32) (h : Sha1.Hash) (w : UInt32) :
    Sha1.Hash :=
  ⟨rotl32 h.a 5 + f h.b h.c h.d + h.e + w + k, h.a, rotl32 h.b 30, h.c, h.d⟩

def sha1ProcessBlock (hash : Sha1.Hash) (workBlock : List UInt8) : Sha1.Hash :=
  let w := extendWords 64 (blockWords workBlock)
  let h := (w.take 20).foldl (sha1Round (fun b c d => (b &&& c) ||| (~~~b &&& d)) 0x5a827999) hash
  let h := ((w.drop 20).take 20).foldl (sha1Round (fun b c d => b ^^^ c ^^^ d) 0x6ed9eba1) h
  let h := ((w.drop 40).take 20).foldl
    (sha1Round (fun b c d => (b &&& c) ||| (b &&& d) ||| (c &&& d)) 0x8f1bbcdc) h
  let h := ((w.drop 60).take 20).foldl (sha1Round (fun b c d => b ^^^ c ^^^ d) 0xca62c1d6) h
  ⟨hash.a + h.a, hash.b + h.b, hash.c + h.c, hash.d + h.d, hash.e + h.e⟩

/-- `class Sha1`; the bytes of `workBlock` behind the ones in use are never looked at. -/
structure Sha1 where
  hash : Sha1.Hash
  workBlock : List UInt8
  messageSize : UInt64

namespace Sha1

/-- As the constructor and `reset` leave it. -/
def reset : Sha1 :=
  ⟨⟨0x67452301, 0xefcdab89, 0x98badcfe, 0x10325476, 0xc3d2e1f0⟩, List.replicate 64 0, 0⟩

/-- `memcpy(work_block_ + i, bytes, size)` -/
def store (ctx : Sha1) (i : Nat) (bytes : List UInt8) : Sha1 :=
  { ctx with
    workBlock := ctx.workBlock.take i ++ bytes ++ ctx.workBlock.drop (i + bytes.length) }

def processBlock (ctx : Sha1) (workBlock : List UInt8) : Sha1 :=
  { ctx with hash := sha1ProcessBlock ctx.hash workBlock }

/-- The whole blocks, and the bytes that are left over; a turn more than there are blocks is
enough. -/
def updateBlocks : Nat → Sha1 → List UInt8 → Sha1
  | 0, ctx, _ => ctx
  | turns + 1, ctx, buffer =>
    if buffer.length ≥ 64 then
      updateBlocks turns (ctx.processBlock (buffer.take 64)) (buffer.drop 64)
    else if buffer.length > 0 then ctx.store 0 buffer
    else ctx

def update (ctx : Sha1) (buffer : List UInt8) : Sha1 :=
  let wbSize := (ctx.messageSize &&& 63).toNat
  let ctx := { ctx with messageSize := ctx.messageSize + UInt64.ofNat buffer.length }
  if wbSize > 0 then
    let left := 64 - wbSize
    let ctx := ctx.store wbSize (buffer.take left)
    if buffer.length < left then ctx
    else updateBlocks (buffer.length + 1) (ctx.processBlock ctx.workBlock) (buffer.drop left)
  else updateBlocks (buffer.length + 1) ctx buffer

/-- `static const uint8_t pad[64]` -/
def pad : List UInt8 := 0x80 :: List.replicate 63 0

def digest (ctx : Sha1) : List UInt8 :=
  let padLen := BigEndian.toBytes 4 (ctx.messageSize >>> 29).toNat ++
    BigEndian.toBytes 4 (ctx.messageSize <<< 3).toNat
  let wbSize := (ctx.messageSize &&& 63).toNat
  let ctx :=
    if wbSize > 55 then (ctx.update (pad.take (64 - wbSize + 56))).update padLen
    else (ctx.update (pad.take (56 - wbSize))).update padLen
  [ctx.hash.a, ctx.hash.b, ctx.hash.c, ctx.hash.d, ctx.hash.e].flatMap fun word =>
    BigEndian.toBytes 4 word.toNat

end Sha1

def sha1Binary (str : List UInt8) : List UInt8 := (Sha1.reset.update str).digest

theorem sha1Binary_length (str : List UInt8) : (sha1Binary str).length = 20 := by
  unfold sha1Binary Sha1.digest
  simp only [List.flatMap_cons, List.flatMap_nil, List.length_append, BigEndian.toBytes_length,
    List.length_nil]

end Codec

end Brickred
