import Brickred.Codec.Sha1
import Brickred.Codec.BlockHash

/-!
# `Sha256` (model of `sha256.cc`)

* `sha256ProcessBlock` — the 64 rounds on one block.
* `Sha256.update`, `Sha256.digest`, `sha256Binary` — on the context of `BlockHash`.
-/

set_option autoImplicit false

namespace Brickred

namespace Codec

/-- `hash_[8]`, and the eight variables of the rounds. -/
structure Sha256.Hash where
  a : UInt32
  b : UInt32
  c : UInt32
  d : UInt32
  e : UInt32
  f : UInt32
  g : UInt32
  h : UInt32
  deriving DecidableEq

namespace Sha256

/-- `static const uint32_t k[64]` -/
def k : List UInt32 :=
  [0x428a2f98, 0x71374491, 0xb5c0fbcf, 0xe9b5dba5, 0x3956c25b, 0x59f111f1, 0x923f82a4, 0xab1c5ed5,
    0xd807aa98, 0x12835b01, 0x243185be, 0x550c7dc3, 0x72be5d74, 0x80deb1fe, 0x9bdc06a7, 0xc19bf174,
    0xe49b69c1, 0xefbe4786, 0x0fc19dc6, 0x240ca1cc, 0x2de92c6f, 0x4a7484aa, 0x5cb0a9dc, 0x76f988da,
    0x983e5152, 0xa831c66d, 0xb00327c8, 0xbf597fc7, 0xc6e00bf3, 0xd5a79147, 0x06ca6351, 0x14292967,
    0x27b70a85, 0x2e1b2138, 0x4d2c6dfc, 0x53380d13, 0x650a7354, 0x766a0abb, 0x81c2c92e, 0x92722c85,
    0xa2bfe8a1, 0xa81a664b, 0xc24b8b70, 0xc76c51a3, 0xd192e819, 0xd6990624, 0xf40e3585, 0x106aa070,
    0x19a4c116, 0x1e376c08, 0x2748774c, 0x34b0bcb5, 0x391c0cb3, 0x4ed8aa4a, 0x5b9cca4f, 0x682e6ff3,
    0x748f82ee, 0x78a5636f, 0x84c87814, 0x8cc70208, 0x90befffa, 0xa4506ceb, 0xbef9a3f7, 0xc67178f2]

/-- `ROTRIGHT` -/
def rotright (a b : UInt32) : UInt32 := a >>> b ||| a <<< (32 - b)

/-- `CH` -/
def ch (x y z : UInt32) : UInt32 := (x &&& y) ^^^ (~~~x &&& z)

/-- `MAJ` -/
def maj (x y z : UInt32) : UInt32 := (x &&& y) ^^^ (x &&& z) ^^^ (y &&& z)

/-- `EP0` -/
def ep0 (x : UInt32) : UInt32 := rotright x 2 ^^^ rotright x 13 ^^^ rotright x 22

/-- `EP1` -/
def ep1 (x : UInt32) : UInt32 := rotright x 6 ^^^ rotright x 11 ^^^ rotright x 25

/-- `SIG0` -/
def sig0 (x : UInt32) : UInt32 := rotright x 7 ^^^ rotright x 18 ^^^ x >>> 3

/-- `SIG1` -/
def sig1 (x : UInt32) : UInt32 := rotright x 17 ^^^ rotright x 19 ^^^ x >>> 10

/-- `count` more words of the array `w`. -/
def extendWords : Nat → List UInt32 → List UInt32
  | 0, w => w
  | count + 1, w =>
    let i := w.length
    extendWords count (w ++ [sig1 (w.getD (i - 2) 0) + w.getD (i - 7) 0 +
      sig0 (w.getD (i - 15) 0) + w.getD (i - 16) 0])

/-- One turn of the loop of the rounds. -/
def round (h : Hash) (k w : UInt32) : Hash :=
  let t1 := h.h + ep1 h.e + ch h.e h.f h.g + k + w
  let t2 := ep0 h.a + maj h.a h.b h.c
  ⟨t1 + t2, h.a, h.b, h.c, h.d + t1, h.e, h.f, h.g⟩

end Sha256

def sha256ProcessBlock (hash : Sha256.Hash) (workBlock : List UInt8) : Sha256.Hash :=
  let w := Sha256.extendWords 48 (blockWords workBlock)
  let h := (List.range 64).foldl
    (fun h i => Sha256.round h (Sha256.k.getD i 0) (w.getD i 0)) hash
  ⟨hash.a + h.a, hash.b + h.b, hash.c + h.c, hash.d + h.d, hash.e + h.e, hash.f + h.f,
    hash.g + h.g, hash.h + h.h⟩

/-- `class Sha256` -/
abbrev Sha256 := BlockHash Sha256.Hash

namespace Sha256

/-- `reset` does not touch `work_block_`. -/
def reset (ctx : Sha256) : Sha256 :=
  { ctx with
    hash := ⟨0x6a09e667, 0xbb67ae85, 0x3c6ef372, 0xa54ff53a, 0x510e527f, 0x9b05688c, 0x1f83d9ab,
      0x5be0cd19⟩
    messageSize := 0 }

/-- The constructor; the bytes of `work_block_` are not looked at before they are stored. -/
def new : Sha256 := reset ⟨⟨0, 0, 0, 0, 0, 0, 0, 0⟩, List.replicate 64 0, 0⟩

def update (ctx : Sha256) (buffer : List UInt8) : Sha256 :=
  BlockHash.update sha256ProcessBlock ctx buffer

def digest (ctx : Sha256) : List UInt8 :=
  let hash := (BlockHash.digest sha256ProcessBlock ctx).hash
  [hash.a, hash.b, hash.c, hash.d, hash.e, hash.f, hash.g, hash.h].flatMap fun word =>
    BigEndian.toBytes 4 word.toNat

end Sha256

def sha256Binary (str : List UInt8) : List UInt8 := (Sha256.new.update str).digest

end Codec

end Brickred
