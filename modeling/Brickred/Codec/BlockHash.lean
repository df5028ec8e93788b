import Brickred.Lib.Fips180

/-!
# `update` and `digest` (the text `sha1.cc` and `sha256.cc` share)

The bytes are hashed block by block as they come; what does not fill a block is kept in
`workBlock`.  `H` is the chaining state and `process` the function on one block.

* `Absorbed` — what the context holds after a message, however it was cut.
* `update_absorbed`, `digest_absorbed` — `update` appends to the message, `digest` its padding.
-/

set_option autoImplicit false

namespace Brickred

namespace Codec

open Blocks Fips180

/-- The members; the bytes of `workBlock` behind the ones in use are never looked at. -/
structure BlockHash (H : Type) where
  hash : H
  workBlock : List UInt8
  messageSize : UInt64

namespace BlockHash

variable {H : Type} (process : H → List UInt8 → H)

/-- `memcpy(work_block_ + i, bytes, size)` -/
def store (ctx : BlockHash H) (i : Nat) (bytes : List UInt8) : BlockHash H :=
  { ctx with
    workBlock := ctx.workBlock.take i ++ bytes ++ ctx.workBlock.drop (i + bytes.length) }

def processBlock (ctx : BlockHash H) (workBlock : List UInt8) : BlockHash H :=
  { ctx with hash := process ctx.hash workBlock }

/-- The whole blocks, and the bytes that are left over; a turn more than there are blocks is
enough. -/
def updateBlocks : Nat → BlockHash H → List UInt8 → BlockHash H
  | 0, ctx, _ => ctx
  | turns + 1, ctx, buffer =>
    if buffer.length ≥ 64 then
      updateBlocks turns (ctx.processBlock process (buffer.take 64)) (buffer.drop 64)
    else if buffer.length > 0 then ctx.store 0 buffer
    else ctx

def update (ctx : BlockHash H) (buffer : List UInt8) : BlockHash H :=
  let wbSize := (ctx.messageSize &&& 63).toNat
  let ctx := { ctx with messageSize := ctx.messageSize + UInt64.ofNat buffer.length }
  if wbSize > 0 then
    let left := 64 - wbSize
    let ctx := ctx.store wbSize (buffer.take left)
    if buffer.length < left then ctx
    else
      updateBlocks process (buffer.length + 1) (ctx.processBlock process ctx.workBlock)
        (buffer.drop left)
  else updateBlocks process (buffer.length + 1) ctx buffer

/-- `static const uint8_t pad[64]` -/
def pad : List UInt8 := 0x80 :: List.replicate 63 0

/-- The context when `digest` reads `hash_`. -/
def digest (ctx : BlockHash H) : BlockHash H :=
  let padLen := BigEndian.toBytes 4 (ctx.messageSize >>> 29).toNat ++
    BigEndian.toBytes 4 (ctx.messageSize <<< 3).toNat
  let wbSize := (ctx.messageSize &&& 63).toNat
  if wbSize > 55 then (ctx.update process (pad.take (64 - wbSize + 56))).update process padLen
  else (ctx.update process (pad.take (56 - wbSize))).update process padLen

/-! ## The message so far -/

/-- The context that started from `initial` has hashed the whole blocks of `message`, and keeps
the rest. -/
structure Absorbed (initial : H) (ctx : BlockHash H) (message : List UInt8) : Prop where
  messageSize : ctx.messageSize = UInt64.ofNat message.length
  hash : ctx.hash = (blocks 64 message).foldl process initial
  room : ctx.workBlock.length = 64
  workBlock : ctx.workBlock.take (message.length % 64) = rest 64 message

variable {process} {initial : H} {ctx : BlockHash H} {message : List UInt8}

theorem wbSize_eq (n : Nat) : (UInt64.ofNat n &&& 63).toNat = n % 64 := by
  rw [UInt64.toNat_and, UInt64.toNat_ofNat']
  exact (Nat.and_two_pow_sub_one_eq_mod _ 6).trans (Nat.mod_mod_of_dvd n (by decide))

theorem store_room {i : Nat} {bytes : List UInt8} (h : i + bytes.length ≤ ctx.workBlock.length) :
    (ctx.store i bytes).workBlock.length = ctx.workBlock.length := by
  simp only [store, List.length_append, List.length_take, List.length_drop]
  omega

/-- The bytes up to the end of what is stored. -/
theorem store_take {i : Nat} {bytes : List UInt8} (h : i ≤ ctx.workBlock.length) :
    (ctx.store i bytes).workBlock.take (i + bytes.length) = ctx.workBlock.take i ++ bytes := by
  have hlen : (ctx.workBlock.take i ++ bytes).length = i + bytes.length := by
    rw [List.length_append, List.length_take, Nat.min_eq_left h]
  unfold store
  rw [← hlen, List.take_left]

theorem updateBlocks_spec : ∀ {turns : Nat} {ctx : BlockHash H} {buffer : List UInt8},
    buffer.length < turns * 64 → ctx.workBlock.length = 64 →
    (updateBlocks process turns ctx buffer).messageSize = ctx.messageSize ∧
      (updateBlocks process turns ctx buffer).hash =
        (blocks 64 buffer).foldl process ctx.hash ∧
      (updateBlocks process turns ctx buffer).workBlock.length = 64 ∧
      (updateBlocks process turns ctx buffer).workBlock.take (buffer.length % 64) = rest 64 buffer
  | 0, _, _, h, _ => by omega
  | turns + 1, ctx, buffer, h, hroom => by
    unfold updateBlocks
    split
    · rename_i hfull
      rw [blocks_cons (by decide) hfull, rest_cons (by decide) hfull]
      have hlen : buffer.length % 64 = (buffer.drop 64).length % 64 := by
        rw [List.length_drop]; omega
      rw [hlen]
      exact @updateBlocks_spec turns (ctx.processBlock process (buffer.take 64)) (buffer.drop 64)
        (by rw [List.length_drop]; omega) hroom
    · rename_i hshort
      rw [blocks_short (by omega), rest_short (by omega), Nat.mod_eq_of_lt (by omega)]
      split
      · refine ⟨rfl, rfl, (store_room (by omega)).trans hroom, ?_⟩
        have htake := @store_take _ ctx 0 buffer (Nat.zero_le _)
        rwa [Nat.zero_add] at htake
      · rename_i hempty
        rw [List.length_eq_zero_iff.1 (Nat.eq_zero_of_not_pos hempty)]
        exact ⟨rfl, rfl, hroom, rfl⟩

/-- The turns of the loop absorb `tail`, the end of the message `whole`. -/
theorem updateBlocks_absorbed {turns : Nat} {done : List (List UInt8)} {tail whole : List UInt8}
    (hsize : ctx.messageSize = UInt64.ofNat whole.length)
    (hhash : ctx.hash = done.foldl process initial) (hroom : ctx.workBlock.length = 64)
    (hblocks : blocks 64 whole = done ++ blocks 64 tail) (hrest : rest 64 whole = rest 64 tail)
    (hturns : tail.length < turns * 64) :
    Absorbed process initial (updateBlocks process turns ctx tail) whole := by
  obtain ⟨hms, hh, hr, htake⟩ := @updateBlocks_spec _ process turns ctx tail hturns hroom
  refine ⟨hms.trans hsize, ?_, hr, ?_⟩
  · rw [hh, hhash, hblocks, List.foldl_append]
  · rw [hrest, ← htake, ← rest_length, hrest, rest_length]

section Update

variable (h : Absorbed process initial ctx message) (buffer : List UInt8)

include h

theorem update_eq :
    ctx.update process buffer =
      let ctx := { ctx with messageSize := UInt64.ofNat (message ++ buffer).length }
      if message.length % 64 > 0 then
        let left := 64 - message.length % 64
        let ctx := ctx.store (message.length % 64) (buffer.take left)
        if buffer.length < left then ctx
        else
          updateBlocks process (buffer.length + 1) (ctx.processBlock process ctx.workBlock)
            (buffer.drop left)
      else updateBlocks process (buffer.length + 1) ctx buffer := by
  unfold update
  rw [h.messageSize, wbSize_eq, List.length_append, UInt64.ofNat_add]

/-- The block is still not full. -/
theorem absorbed_short (hshort : message.length % 64 + buffer.length < 64) :
    Absorbed process initial
      (({ ctx with messageSize := UInt64.ofNat (message ++ buffer).length } : BlockHash H).store
        (message.length % 64) buffer) (message ++ buffer) := by
  have hle : message.length % 64 ≤ ctx.workBlock.length := by rw [h.room]; omega
  have hjoined : (rest 64 message ++ buffer).length < 64 := by
    rwa [List.length_append, rest_length]
  have hmod : (message ++ buffer).length % 64 = message.length % 64 + buffer.length := by
    rw [List.length_append]; omega
  refine ⟨rfl, ?_, ?_, ?_⟩
  · rw [blocks_split (by decide), blocks_short hjoined, List.append_nil]
    exact h.hash
  · refine Eq.trans (store_room ?_) h.room
    exact le_of_lt (hshort.trans_eq h.room.symm)
  · rw [rest_split (by decide), rest_short hjoined, hmod, ← h.workBlock]
    exact store_take hle

/-- The block is filled up and hashed. -/
theorem absorbed_full {left : Nat} (hleft : message.length % 64 + left = 64)
    (hfull : left ≤ buffer.length) :
    Absorbed process initial
      (updateBlocks process (buffer.length + 1)
        ((({ ctx with messageSize := UInt64.ofNat (message ++ buffer).length } :
          BlockHash H).store (message.length % 64) (buffer.take left)).processBlock process
            (rest 64 message ++ buffer.take left)) (buffer.drop left)) (message ++ buffer) := by
  have htake : (buffer.take left).length = left := by
    rw [List.length_take, Nat.min_eq_left hfull]
  have hblock : (rest 64 message ++ buffer.take left).length = 64 := by
    rw [List.length_append, rest_length, htake, hleft]
  have hassoc : rest 64 message ++ buffer =
      (rest 64 message ++ buffer.take left) ++ buffer.drop left := by
    rw [List.append_assoc, List.take_append_drop]
  have hdvd : 64 ∣ (rest 64 message ++ buffer.take left).length := by rw [hblock]
  have hhash : process ctx.hash (rest 64 message ++ buffer.take left) =
      (blocks 64 message ++ [rest 64 message ++ buffer.take left]).foldl process initial := by
    rw [List.foldl_append, ← h.hash]; rfl
  refine updateBlocks_absorbed rfl hhash ?_ ?_ ?_ ?_
  · refine Eq.trans (store_room ?_) h.room
    rw [htake, hleft]
    exact h.room.ge
  · rw [blocks_split (by decide), hassoc, blocks_append (by decide) hdvd,
      blocks_one hblock (by decide), List.append_assoc]
  · rw [rest_split (by decide), hassoc, rest_split (by decide), rest_eq_nil hdvd, List.nil_append]
  · rw [List.length_drop]
    omega

/-- **A step**: `update` appends to the message. -/
theorem update_absorbed :
    Absorbed process initial (ctx.update process buffer) (message ++ buffer) := by
  have hlt : message.length % 64 < 64 := Nat.mod_lt _ (by decide)
  rw [update_eq h]
  dsimp only
  split
  · split
    · rename_i hshort
      rw [List.take_of_length_le (Nat.le_of_lt hshort)]
      exact absorbed_short h buffer (by omega)
    · rename_i hfull
      have hleft : message.length % 64 + (64 - message.length % 64) = 64 := by omega
      have htake : (buffer.take (64 - message.length % 64)).length = 64 - message.length % 64 := by
        rw [List.length_take, Nat.min_eq_left (by omega)]
      have hblock := @store_take _ { ctx with
          messageSize := UInt64.ofNat (message ++ buffer).length } (message.length % 64)
        (buffer.take (64 - message.length % 64)) (by rw [h.room]; omega)
      rw [htake, hleft, List.take_of_length_le (by
        rw [store_room (by rw [htake, hleft, h.room]), h.room]), h.workBlock] at hblock
      rw [hblock]
      exact absorbed_full h buffer hleft (by omega)
  · have hnil : rest 64 message = [] := List.length_eq_zero_iff.1 (by rw [rest_length]; omega)
    refine updateBlocks_absorbed rfl h.hash h.room ?_ ?_ (by omega)
    · rw [blocks_split (by decide), hnil, List.nil_append]
    · rw [rest_split (by decide), hnil, List.nil_append]

end Update

theorem absorbed_updates {ctx : BlockHash H} : ∀ {buffers : List (List UInt8)}
    {message : List UInt8}, Absorbed process initial ctx message →
    Absorbed process initial (buffers.foldl (update process) ctx) (message ++ buffers.flatten)
  | [], _, h => by rwa [List.flatten_nil, List.append_nil]
  | buffer :: buffers, message, h => by
    rw [List.flatten_cons, ← List.append_assoc]
    exact absorbed_updates (update_absorbed h buffer)

/-! ## The padding -/

/-- The two words of the length. -/
theorem padLen_eq {length : Nat} (h : length < 2 ^ 61) :
    BigEndian.toBytes 4 (UInt64.ofNat length >>> 29).toNat ++
      BigEndian.toBytes 4 (UInt64.ofNat length <<< 3).toNat =
        BigEndian.toBytes 8 (8 * length) := by
  have hsize : length % 2 ^ 64 = length := Nat.mod_eq_of_lt (h.trans (by decide))
  rw [BigEndian.toBytes_add 4 4]
  congr 1
  · rw [UInt64.toNat_shiftRight, UInt64.toNat_ofNat', hsize, Nat.shiftRight_eq_div_pow,
      Nat.shiftRight_eq_div_pow]
    congr 1
    change length / 2 ^ 29 = 8 * length / 2 ^ 32
    omega
  · rw [UInt64.toNat_shiftLeft, UInt64.toNat_ofNat', hsize, Nat.shiftLeft_eq]
    have hmul : length * 2 ^ 3 = 8 * length := Nat.mul_comm _ _
    exact (congrArg (fun v => BigEndian.toBytes 4 (v % 2 ^ 64)) hmul).trans
      (BigEndian.toBytes_mod (k := 8) (by decide) _)

theorem padding_eq (length : Nat) :
    (if length % 64 > 55 then pad.take (64 - length % 64 + 56) else pad.take (56 - length % 64)) ++
      BigEndian.toBytes 8 (8 * length) = padding length := by
  have hpad : ∀ n, pad.take (n + 1) = 0x80 :: List.replicate (min n 63) 0 := fun n => by
    rw [pad, List.take_succ_cons, List.take_replicate]
  have hlt : length % 64 < 64 := Nat.mod_lt _ (by decide)
  unfold padding zeroBytes
  congr 1
  split
  · rw [show 64 - length % 64 + 56 = 119 - length % 64 + 1 by omega, hpad,
      Nat.min_eq_left (by omega), show (119 - length % 64) % 64 = 119 - length % 64 by omega]
  · rw [show 56 - length % 64 = 55 - length % 64 + 1 by omega, hpad, Nat.min_eq_left (by omega),
      show (119 - length % 64) % 64 = 55 - length % 64 by omega]

theorem digest_absorbed (h : Absorbed process initial ctx message)
    (hlength : message.length < 2 ^ 61) :
    Absorbed process initial (ctx.digest process) (message ++ padding message.length) := by
  unfold digest
  rw [h.messageSize, wbSize_eq, padLen_eq hlength, ← padding_eq, ← List.append_assoc]
  dsimp only
  split
  · exact update_absorbed (update_absorbed h _) _
  · exact update_absorbed (update_absorbed h _) _

/-- **The digest** of a message, however it is cut. -/
theorem digest_hash {buffers : List (List UInt8)} (h : Absorbed process initial ctx [])
    (hlength : buffers.flatten.length < 2 ^ 61) :
    ((buffers.foldl (update process) ctx).digest process).hash =
      (blocks 64 (buffers.flatten ++ padding buffers.flatten.length)).foldl process initial :=
  (digest_absorbed (absorbed_updates h) hlength).hash

end BlockHash

end Codec

end Brickred
