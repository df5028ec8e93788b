import Brickred.Codec.Sha256

/-!
# The digests are those of FIPS 180

`sha1ProcessBlock` and `sha256ProcessBlock` are the standard's functions on a block, and the
contexts hash the padded message block by block.

* `sha1ProcessBlock_eq`, `sha256ProcessBlock_eq` — one block.
* `Sha1.update_context`, `Sha1.digest_context` — `Sha1` is a `BlockHash` too.
* `incremental_hashing` — any number of updates, then the digest.
-/

set_option autoImplicit false

namespace Brickred

namespace Codec

open Fips180

/-! ## Words -/

theorem xor_shift (x : BitVec 32) {n m : Nat} (h : n + m = 32) :
    x <<< n ^^^ x >>> m = x <<< n ||| x >>> m := by
  ext i hi
  rw [BitVec.getElem_xor, BitVec.getElem_or, BitVec.getElem_shiftLeft, BitVec.getElem_ushiftRight]
  by_cases hlow : i < n
  · simp [hlow]
  · rw [BitVec.getLsbD_of_ge x (m + i) (by omega), Bool.xor_false, Bool.or_false]

/-- The rotations of the source are those by 1, 5 and 30. -/
theorem rotl32_eq (x : UInt32) :
    rotl32 x 1 = rotl 1 x ∧ rotl32 x 5 = rotl 5 x ∧ rotl32 x 30 = rotl 30 x :=
  ⟨UInt32.toBitVec_inj.1 (@xor_shift x.toBitVec 1 31 rfl),
    UInt32.toBitVec_inj.1 (@xor_shift x.toBitVec 5 27 rfl),
    UInt32.toBitVec_inj.1 (@xor_shift x.toBitVec 30 2 rfl)⟩

theorem ch_eq (b c d : UInt32) : (b &&& c) ||| (~~~b &&& d) = ch b c d := by
  apply UInt32.toBitVec_inj.1
  ext i hi
  simp only [ch, UInt32.toBitVec_or, UInt32.toBitVec_and, UInt32.toBitVec_not, UInt32.toBitVec_xor,
    BitVec.getElem_or, BitVec.getElem_and, BitVec.getElem_not, BitVec.getElem_xor]
  cases b.toBitVec[i] <;> simp

theorem maj_eq (b c d : UInt32) : (b &&& c) ||| (b &&& d) ||| (c &&& d) = maj b c d := by
  apply UInt32.toBitVec_inj.1
  ext i hi
  simp only [maj, UInt32.toBitVec_or, UInt32.toBitVec_and, UInt32.toBitVec_xor, BitVec.getElem_or,
    BitVec.getElem_and, BitVec.getElem_xor]
  cases b.toBitVec[i] <;> cases c.toBitVec[i] <;> simp

theorem blockWords_eq (block : List UInt8) : blockWords block = (List.range 16).map (word block) :=
  rfl

/-- The words a table has been filled with. -/
theorem getD_range {w : Nat → UInt32} {i n : Nat} (h : i < n) :
    ((List.range n).map w).getD i 0 = w i := by
  rw [List.getD_eq_getElem?_getD, List.getElem?_map, List.getElem?_range h, Option.map_some,
    Option.getD_some]

/-! ## SHA-1 -/

def Sha1.Hash.state (h : Sha1.Hash) : Sha1State := ⟨h.a, h.b, h.c, h.d, h.e⟩

theorem sha1_schedule (block : List UInt8) : ∀ {count n : Nat}, 16 ≤ n →
    extendWords count ((List.range n).map (Fips180.Sha1.schedule block)) =
      (List.range (n + count)).map (Fips180.Sha1.schedule block)
  | 0, _, _ => rfl
  | count + 1, n, h => by
    obtain ⟨hrotl, _, _⟩ := rotl32_eq (Fips180.Sha1.schedule block (n - 3) ^^^
      Fips180.Sha1.schedule block (n - 8) ^^^ Fips180.Sha1.schedule block (n - 14) ^^^
        Fips180.Sha1.schedule block (n - 16))
    have hnext : Fips180.Sha1.schedule block n = rotl 1 (Fips180.Sha1.schedule block (n - 3) ^^^
        Fips180.Sha1.schedule block (n - 8) ^^^ Fips180.Sha1.schedule block (n - 14) ^^^
          Fips180.Sha1.schedule block (n - 16)) := by
      rw [Fips180.Sha1.schedule, if_neg (by omega)]
    unfold extendWords
    dsimp only
    rw [List.length_map, List.length_range, getD_range (by omega), getD_range (by omega),
      getD_range (by omega), getD_range (by omega), hrotl, ← hnext, ← List.map_singleton,
      ← List.map_append, ← List.range_succ, sha1_schedule block (by omega), Nat.succ_add_eq_add_succ]

theorem sha1Round_state {f : UInt32 → UInt32 → UInt32 → UInt32} {t : Nat} {k : UInt32}
    (hf : ∀ b c d, f b c d = Fips180.Sha1.f t b c d) (hk : k = Fips180.Sha1.constant t)
    (h : Sha1.Hash) (w : UInt32) : (sha1Round f k h w).state = Fips180.Sha1.round t w h.state := by
  obtain ⟨_, h5, _⟩ := rotl32_eq h.a
  obtain ⟨_, _, h30⟩ := rotl32_eq h.b
  unfold sha1Round Fips180.Sha1.round Sha1.Hash.state
  rw [h5, h30, hf, hk]
  have hsum : ∀ v : UInt32, v + w + Fips180.Sha1.constant t = v + Fips180.Sha1.constant t + w :=
    fun v => by rw [UInt32.add_assoc, UInt32.add_comm w, ← UInt32.add_assoc]
  rw [hsum]

/-- The rounds of one of the four loops. -/
theorem sha1_rounds {f : UInt32 → UInt32 → UInt32 → UInt32} {k : UInt32} {w : Nat → UInt32}
    {s : Sha1State} : ∀ {count first : Nat} {h : Sha1.Hash},
    (∀ t, first ≤ t → t < first + count →
      (∀ b c d, f b c d = Fips180.Sha1.f t b c d) ∧ k = Fips180.Sha1.constant t) →
    h.state = Fips180.Sha1.rounds w s first →
    (((List.range' first count).map w).foldl (sha1Round f k) h).state =
      Fips180.Sha1.rounds w s (first + count)
  | 0, _, _, _, hs => hs
  | count + 1, first, h, hround, hs => by
    obtain ⟨hf, hk⟩ := hround first le_rfl (by omega)
    rw [List.range'_succ, List.map_cons, List.foldl_cons,
      sha1_rounds (fun t hle hlt => hround t (by omega) (by omega))
        ((sha1Round_state hf hk h (w first)).trans (by rw [hs]; rfl)), Nat.succ_add_eq_add_succ]

theorem sha1_words (block : List UInt8) :
    extendWords 64 (blockWords block) = (List.range 80).map (Fips180.Sha1.schedule block) := by
  have hfirst : blockWords block = (List.range 16).map (Fips180.Sha1.schedule block) := by
    rw [blockWords_eq]
    refine List.map_congr_left fun t ht => ?_
    rw [Fips180.Sha1.schedule, if_pos (List.mem_range.1 ht)]
  rw [hfirst, sha1_schedule block le_rfl]

theorem sha1ProcessBlock_eq (hash : Sha1.Hash) (block : List UInt8) :
    (sha1ProcessBlock hash block).state = Fips180.Sha1.compress hash.state block := by
  have hcut : ∀ n count, (((List.range 80).map (Fips180.Sha1.schedule block)).drop n).take count =
      (((List.range 80).drop n).take count).map (Fips180.Sha1.schedule block) := fun n count => by
    rw [List.map_take, List.map_drop]
  have h20 := @sha1_rounds (fun b c d => (b &&& c) ||| (~~~b &&& d)) 0x5a827999
    (Fips180.Sha1.schedule block) hash.state 20 0 hash
    (fun t _ hlt => by
      rw [Fips180.Sha1.f, Fips180.Sha1.constant, if_pos (by omega), if_pos (by omega)]
      exact ⟨ch_eq, rfl⟩) rfl
  have h40 := @sha1_rounds (fun b c d => b ^^^ c ^^^ d) 0x6ed9eba1 _ _ 20 20 _
    (fun t hle hlt => by
      rw [Fips180.Sha1.f, Fips180.Sha1.constant, if_neg (by omega), if_pos (by omega),
        if_neg (by omega), if_pos (by omega)]
      exact ⟨fun _ _ _ => rfl, rfl⟩) h20
  have h60 := @sha1_rounds (fun b c d => (b &&& c) ||| (b &&& d) ||| (c &&& d)) 0x8f1bbcdc _ _ 20 40 _
    (fun t hle hlt => by
      rw [Fips180.Sha1.f, Fips180.Sha1.constant, if_neg (by omega), if_neg (by omega),
        if_pos (by omega), if_neg (by omega), if_neg (by omega), if_pos (by omega)]
      exact ⟨maj_eq, rfl⟩) h40
  have h80 := @sha1_rounds (fun b c d => b ^^^ c ^^^ d) 0xca62c1d6 _ _ 20 60 _
    (fun t hle hlt => by
      rw [Fips180.Sha1.f, Fips180.Sha1.constant, if_neg (by omega), if_neg (by omega),
        if_neg (by omega), if_neg (by omega), if_neg (by omega), if_neg (by omega)]
      exact ⟨fun _ _ _ => rfl, rfl⟩) h60
  unfold sha1ProcessBlock
  dsimp only
  rw [sha1_words, hcut, hcut, hcut, ← List.map_take]
  unfold Fips180.Sha1.compress
  rw [← h80]
  rfl

/-! ## SHA-256 -/

def Sha256.Hash.state (h : Sha256.Hash) : Sha256State := ⟨h.a, h.b, h.c, h.d, h.e, h.f, h.g, h.h⟩

theorem sha256_schedule (block : List UInt8) : ∀ {count n : Nat}, 16 ≤ n →
    Sha256.extendWords count ((List.range n).map (Fips180.Sha256.schedule block)) =
      (List.range (n + count)).map (Fips180.Sha256.schedule block)
  | 0, _, _ => rfl
  | count + 1, n, h => by
    have hnext : Fips180.Sha256.schedule block n =
        Sha256.sig1 (Fips180.Sha256.schedule block (n - 2)) +
          Fips180.Sha256.schedule block (n - 7) +
            Sha256.sig0 (Fips180.Sha256.schedule block (n - 15)) +
              Fips180.Sha256.schedule block (n - 16) := by
      rw [Fips180.Sha256.schedule, if_neg (by omega)]
      rfl
    unfold Sha256.extendWords
    dsimp only
    rw [List.length_map, List.length_range, getD_range (by omega), getD_range (by omega),
      getD_range (by omega), getD_range (by omega), ← hnext, ← List.map_singleton,
      ← List.map_append, ← List.range_succ, sha256_schedule block (by omega),
      Nat.succ_add_eq_add_succ]

theorem sha256_words (block : List UInt8) :
    Sha256.extendWords 48 (blockWords block) =
      (List.range 64).map (Fips180.Sha256.schedule block) := by
  have hfirst : blockWords block = (List.range 16).map (Fips180.Sha256.schedule block) := by
    rw [blockWords_eq]
    refine List.map_congr_left fun t ht => ?_
    rw [Fips180.Sha256.schedule, if_pos (List.mem_range.1 ht)]
  rw [hfirst, sha256_schedule block le_rfl]

/-- The table of the source is that of the standard. -/
theorem k_eq : Sha256.k = primes.map (rootFraction 3) := by
  rw [primes_eq]
  exact map_rootFraction (by decide +kernel)

theorem k_getD {t : Nat} (h : t < 64) : Sha256.k.getD t 0 = Fips180.Sha256.constant t := by
  have hlen : primes.length = 64 := by
    have := congrArg List.length k_eq
    rw [List.length_map] at this
    exact this.symm
  unfold Fips180.Sha256.constant
  rw [k_eq, List.getD_eq_getElem?_getD, List.getD_eq_getElem?_getD, List.getElem?_map,
    List.getElem?_eq_getElem (by omega)]
  rfl

theorem sha256_rounds {w : Nat → UInt32} (hash : Sha256.Hash) : ∀ {count : Nat}, count ≤ 64 →
    ((List.range count).foldl (fun h i => Sha256.round h (Sha256.k.getD i 0)
      (((List.range 64).map w).getD i 0)) hash).state =
        Fips180.Sha256.rounds w hash.state count
  | 0, _ => rfl
  | count + 1, h => by
    rw [@List.range_succ count, List.foldl_append, List.foldl_cons, List.foldl_nil, k_getD h,
      getD_range h, Fips180.Sha256.rounds, ← sha256_rounds hash (Nat.le_of_succ_le h)]
    rfl

theorem sha256ProcessBlock_eq (hash : Sha256.Hash) (block : List UInt8) :
    (sha256ProcessBlock hash block).state = Fips180.Sha256.compress hash.state block := by
  unfold sha256ProcessBlock Fips180.Sha256.compress
  rw [← sha256_rounds hash le_rfl, sha256_words]
  rfl

theorem sha256_initial (ctx : Sha256) :
    ctx.reset.hash.state = Fips180.Sha256.initial := by
  change Sha256.new.hash.state = Fips180.Sha256.initial
  decide +kernel

/-! ## The contexts -/

/-- A `Sha1` as the context the two share. -/
def Sha1.context (ctx : Sha1) : BlockHash Sha1.Hash := ⟨ctx.hash, ctx.workBlock, ctx.messageSize⟩

/-- `reset` does not touch `work_block_`. -/
def Sha1.resetUsed (ctx : Sha1) : Sha1 :=
  { Sha1.reset with workBlock := ctx.workBlock }

theorem Sha1.updateBlocks_context : ∀ (turns : Nat) (ctx : Sha1) (buffer : List UInt8),
    (Sha1.updateBlocks turns ctx buffer).context =
      BlockHash.updateBlocks sha1ProcessBlock turns ctx.context buffer
  | 0, _, _ => rfl
  | turns + 1, ctx, buffer => by
    unfold Sha1.updateBlocks BlockHash.updateBlocks
    split
    · exact Sha1.updateBlocks_context turns _ _
    · split <;> rfl

theorem Sha1.update_context (ctx : Sha1) (buffer : List UInt8) :
    (ctx.update buffer).context = ctx.context.update sha1ProcessBlock buffer := by
  unfold Sha1.update BlockHash.update
  dsimp only [Sha1.context]
  split
  · split
    · rfl
    · exact Sha1.updateBlocks_context _ _ _
  · exact Sha1.updateBlocks_context _ _ _

theorem Sha1.updates_context : ∀ (buffers : List (List UInt8)) (ctx : Sha1),
    (buffers.foldl Sha1.update ctx).context =
      buffers.foldl (BlockHash.update sha1ProcessBlock) ctx.context
  | [], _ => rfl
  | buffer :: buffers, ctx => by
    rw [List.foldl_cons, List.foldl_cons, ← Sha1.update_context]
    exact Sha1.updates_context buffers _

theorem Sha1.digest_context (ctx : Sha1) :
    ctx.digest = Fips180.Sha1.bytes (ctx.context.digest sha1ProcessBlock).hash.state := by
  have hstep : ∀ first second : List UInt8,
      Fips180.Sha1.bytes ((ctx.update first).update second).hash.state =
        Fips180.Sha1.bytes ((ctx.context.update sha1ProcessBlock first).update sha1ProcessBlock
          second).hash.state := fun first second => by
    rw [← Sha1.update_context, ← Sha1.update_context]
    rfl
  unfold Sha1.digest BlockHash.digest
  by_cases h : (ctx.messageSize &&& 63).toNat > 55
  · dsimp only [Sha1.context] at hstep ⊢
    rw [if_pos h, if_pos h]
    exact hstep _ _
  · dsimp only [Sha1.context] at hstep ⊢
    rw [if_neg h, if_neg h]
    exact hstep _ _

/-- The chaining state of the standard, block after block. -/
theorem foldl_state {H S : Type} {state : H → S} {process : H → List UInt8 → H}
    {compress : S → List UInt8 → S} (h : ∀ hash block,
      state (process hash block) = compress (state hash) block) :
    ∀ (blocks : List (List UInt8)) (hash : H),
      state (blocks.foldl process hash) = blocks.foldl compress (state hash)
  | [], _ => rfl
  | block :: blocks, hash => by
    rw [List.foldl_cons, List.foldl_cons, foldl_state h blocks, h]

theorem absorbed_nil {H : Type} {process : H → List UInt8 → H} {initial : H} {ctx : BlockHash H}
    (hsize : ctx.messageSize = 0) (hhash : ctx.hash = initial)
    (hroom : ctx.workBlock.length = 64) : BlockHash.Absorbed process initial ctx [] :=
  ⟨hsize, hhash, hroom, rfl⟩

theorem sha1_digest {ctx : Sha1} (hroom : ctx.workBlock.length = 64)
    {buffers : List (List UInt8)} (hlength : buffers.flatten.length < 2 ^ 61) :
    (buffers.foldl Sha1.update ctx.resetUsed).digest = sha1 buffers.flatten := by
  have h : BlockHash.Absorbed sha1ProcessBlock Sha1.reset.hash ctx.resetUsed.context [] :=
    absorbed_nil rfl rfl hroom
  rw [Sha1.digest_context, Sha1.updates_context, BlockHash.digest_hash h hlength,
    foldl_state sha1ProcessBlock_eq]
  rfl

theorem sha256_digest {ctx : Sha256} (hroom : ctx.workBlock.length = 64)
    {buffers : List (List UInt8)} (hlength : buffers.flatten.length < 2 ^ 61) :
    (buffers.foldl Sha256.update ctx.reset).digest = sha256 buffers.flatten := by
  have h : BlockHash.Absorbed sha256ProcessBlock ctx.reset.hash ctx.reset [] :=
    absorbed_nil rfl rfl hroom
  have hhash := BlockHash.digest_hash h hlength
  change Fips180.Sha256.bytes (Sha256.Hash.state _) = _
  unfold Sha256.update
  rw [hhash, foldl_state sha256ProcessBlock_eq, sha256_initial]
  rfl

/-- **Hashing in pieces** gives the hash of the whole, for both digests and from a context that
was in use before. -/
theorem incremental_hashing (buffers : List (List UInt8))
    (hlength : buffers.flatten.length < 2 ^ 61) :
    (∀ ctx : Sha1, ctx.workBlock.length = 64 →
      (buffers.foldl Sha1.update ctx.resetUsed).digest = sha1 buffers.flatten) ∧
    (∀ ctx : Sha256, ctx.workBlock.length = 64 →
      (buffers.foldl Sha256.update ctx.reset).digest = sha256 buffers.flatten) ∧
    sha1Binary buffers.flatten = sha1 buffers.flatten ∧
    sha256Binary buffers.flatten = sha256 buffers.flatten := by
  have hwhole : [buffers.flatten].flatten = buffers.flatten := List.flatten_singleton
  refine ⟨fun ctx h => sha1_digest h hlength, fun ctx h => sha256_digest h hlength, ?_, ?_⟩
  · have h := @sha1_digest Sha1.reset rfl [buffers.flatten] (by rwa [hwhole])
    rwa [hwhole] at h
  · have h := @sha256_digest Sha256.new rfl [buffers.flatten] (by rwa [hwhole])
    rwa [hwhole] at h

/-- Sixty bytes, and ten more across the end of the block. -/
theorem across_a_block :
    ([List.replicate 60 97, List.replicate 10 98].foldl Sha1.update Sha1.reset).digest =
        sha1Binary (List.replicate 60 97 ++ List.replicate 10 98) ∧
      ([List.replicate 60 97, List.replicate 10 98].foldl Sha256.update Sha256.new).digest =
        sha256Binary (List.replicate 60 97 ++ List.replicate 10 98) := by
  obtain ⟨hsha1, hsha256, hwhole1, hwhole256⟩ :=
    incremental_hashing [List.replicate 60 97, List.replicate 10 98] (by decide)
  exact ⟨(hsha1 Sha1.reset rfl).trans hwhole1.symm,
    (hsha256 Sha256.new rfl).trans hwhole256.symm⟩

end Codec

end Brickred
