import Mathlib.Data.List.Basic
import Mathlib.Data.List.TakeDrop
import Brickred.Lib.BigEndian
import Brickred.MachineInt

/-!
# `DynamicBuffer` (model of `dynamic_buffer.cc`)

The buffer keeps its storage (a vector) with a name of its own: a pointer is a storage name and
an offset, and reading through a pointer whose storage the buffer has given up has no result.
An operation that would leave the storage, divide by zero or allocate more than a vector can
hold has no result either (`none`).

* `reserveWritableBytes` — replaces the storage when there is too little room behind the write
  index, in `size_t` arithmetic.
* `writeBytes` — `reserveWritableBytes`, `memcpy`, `write`, as all callers use them.
* `peekInt` — `peekInt16`, `peekInt32`, `peekInt64` on the readable bytes.
-/

set_option autoImplicit false

namespace Brickred

/-- `class DynamicBuffer`, and the name of the storage `buffer_` owns. -/
@[ext]
structure DynamicBuffer where
  storage : Nat
  buffer : List UInt8
  expandSize : Nat
  readIndex : Nat
  writeIndex : Nat
  read_le_write : readIndex ≤ writeIndex
  write_le_size : writeIndex ≤ buffer.length

/-- A `char *` into the storage of a buffer. -/
structure Pointer where
  storage : Nat
  offset : Nat

namespace DynamicBuffer

/-- The constructor. -/
def new (initSize expandSize : Nat) : DynamicBuffer :=
  ⟨0, List.replicate initSize 0, expandSize, 0, 0, le_rfl, Nat.zero_le _⟩

def discardableBytes (d : DynamicBuffer) : Nat := d.readIndex

def readableBytes (d : DynamicBuffer) : Nat := d.writeIndex - d.readIndex

def writableBytes (d : DynamicBuffer) : Nat := d.buffer.length - d.writeIndex

def writeBegin (d : DynamicBuffer) : Pointer := ⟨d.storage, d.writeIndex⟩

/-- The bytes from `readBegin()` on, `readableBytes()` of them. -/
def readable (d : DynamicBuffer) : List UInt8 := (d.buffer.take d.writeIndex).drop d.readIndex

/-- `p[i]` read. -/
def load (d : DynamicBuffer) (p : Pointer) (i : Nat) : Option UInt8 :=
  if p.storage = d.storage then d.buffer[p.offset + i]? else none

/-- `memcpy(writeBegin() + i, bytes, size)`. -/
def store (d : DynamicBuffer) (i : Nat) (bytes : List UInt8) : Option DynamicBuffer :=
  if h : d.writeIndex + i + bytes.length ≤ d.buffer.length then
    some { d with
      buffer := d.buffer.take (d.writeIndex + i) ++ bytes ++
        d.buffer.drop (d.writeIndex + i + bytes.length)
      write_le_size := by
        have := d.write_le_size
        simp only [List.length_append, List.length_take, List.length_drop]
        omega }
  else none

/-- `writeBegin()[i] = f(writeBegin()[i])`. -/
def modify (d : DynamicBuffer) (i : Nat) (f : UInt8 → UInt8) : Option DynamicBuffer := do
  let b ← d.load d.writeBegin i
  d.store i [f b]

/-- `write`: moves the write index over bytes that are already in place. -/
def write (d : DynamicBuffer) (size : Nat) : DynamicBuffer :=
  { d with
    writeIndex := d.writeIndex + min size d.writableBytes
    read_le_write := d.read_le_write.trans (Nat.le_add_right _ _)
    write_le_size := by have := d.write_le_size; unfold writableBytes; omega }

def clear (d : DynamicBuffer) : DynamicBuffer :=
  { d with
    readIndex := 0
    writeIndex := 0
    read_le_write := le_rfl
    write_le_size := Nat.zero_le _ }

/-- `read`: drops bytes from the front. -/
def read (d : DynamicBuffer) (size : Nat) : DynamicBuffer :=
  if d.readIndex + min size d.readableBytes = d.writeIndex then d.clear
  else
    { d with
      readIndex := d.readIndex + min size d.readableBytes
      read_le_write := by have := d.read_le_write; unfold readableBytes; omega }

/-- The size of the storage `reserveWritableBytes(size)` allocates. -/
def expandedSize (d : DynamicBuffer) (size : Nat) : Option Nat :=
  let freeBytes := toSize (d.discardableBytes + d.writableBytes)
  if freeBytes ≥ size ∧ freeBytes - size < d.expandSize then
    some (toSize (d.buffer.length + d.expandSize))
  else if d.expandSize = 0 then none
  else
    let missing := toSize (size + (2 ^ 64 - freeBytes))
    some (toSize (d.buffer.length +
      toSize (d.expandSize * toSize (missing / d.expandSize + 1))))

/-- The new storage holds the readable bytes from its start on, and has a new name. -/
def reserveWritableBytes (d : DynamicBuffer) (size : Nat) : Option DynamicBuffer :=
  if d.writableBytes ≥ size then some d
  else do
    let newSize ← d.expandedSize size
    if h : d.readableBytes ≤ newSize ∧ newSize < 2 ^ 63 then
      some {
        storage := d.storage + 1
        buffer := d.readable ++ List.replicate (newSize - d.readableBytes) 0
        expandSize := d.expandSize
        readIndex := 0
        writeIndex := d.readableBytes
        read_le_write := Nat.zero_le _
        write_le_size := by
          have := d.write_le_size
          simp only [readable, readableBytes, List.length_append, List.length_replicate,
            List.length_drop, List.length_take]
          omega }
    else none

/-- The bytes are copied to `writeBegin()` after enough room was reserved. -/
def writeBytes (d : DynamicBuffer) (bytes : List UInt8) : Option DynamicBuffer := do
  let d ← d.reserveWritableBytes bytes.length
  let d ← d.store 0 bytes
  some (d.write bytes.length)

def writeInt8 (d : DynamicBuffer) (v : Nat) : Option DynamicBuffer :=
  d.writeBytes (BigEndian.toBytes 1 v)

def writeInt16 (d : DynamicBuffer) (v : Nat) : Option DynamicBuffer :=
  d.writeBytes (BigEndian.toBytes 2 v)

def writeInt32 (d : DynamicBuffer) (v : Nat) : Option DynamicBuffer :=
  d.writeBytes (BigEndian.toBytes 4 v)

def writeInt64 (d : DynamicBuffer) (v : Nat) : Option DynamicBuffer :=
  d.writeBytes (BigEndian.toBytes 8 v)

/-! ## Growing -/

/-- What a constructor and a vector allow. -/
structure Sized (d : DynamicBuffer) : Prop where
  expand_pos : 0 < d.expandSize
  expand_lt : d.expandSize < 2 ^ 64
  size_lt : d.buffer.length < 2 ^ 63

/-- The size of the storage with room for `size` more bytes, as a mathematical integer; a buffer
with more than `expandSize` bytes too many shrinks. -/
def neededSize (d : DynamicBuffer) (size : Nat) : Nat :=
  let freeBytes := d.discardableBytes + d.writableBytes
  if freeBytes < size then
    d.buffer.length + d.expandSize * ((size - freeBytes) / d.expandSize + 1)
  else if freeBytes - size < d.expandSize then d.buffer.length + d.expandSize
  else d.buffer.length

/-- `reserveWritableBytes(size)` needs no storage, or no more than a vector can hold. -/
def Fits (d : DynamicBuffer) (size : Nat) : Prop :=
  size ≤ d.writableBytes ∨ d.neededSize size < 2 ^ 63

instance (d : DynamicBuffer) (size : Nat) : Decidable (d.Fits size) :=
  inferInstanceAs (Decidable (_ ∨ _))

section Growing

variable {d d' : DynamicBuffer} {size : Nat} {bytes : List UInt8}

theorem readable_length (d : DynamicBuffer) : d.readable.length = d.readableBytes := by
  have := d.write_le_size
  rw [readable, readableBytes, List.length_drop, List.length_take]
  omega

theorem length_eq (d : DynamicBuffer) :
    d.buffer.length = d.readableBytes + (d.discardableBytes + d.writableBytes) := by
  have := d.write_le_size
  have := d.read_le_write
  unfold readableBytes discardableBytes writableBytes
  omega

/-- In `size_t` arithmetic the product behaves as one sum. -/
theorem toSize_grown (length expandSize blocks : Nat) :
    toSize (length + toSize (expandSize * toSize blocks)) =
      (length + expandSize * blocks) % 2 ^ 64 := by
  unfold toSize
  rw [Nat.mul_mod_mod, Nat.add_mod_mod]

/-- **The new storage** has room for more than `size` bytes. -/
theorem expandedSize_spec (hd : d.Sized) (hsize : size < 2 ^ 64)
    (hfits : d.neededSize size < 2 ^ 63) :
    ∃ newSize, d.expandedSize size = some newSize ∧ d.readableBytes + size < newSize ∧
      newSize < 2 ^ 63 := by
  obtain ⟨hpos, hexpand, hlen⟩ := hd
  have heq := d.length_eq
  have hfree : toSize (d.discardableBytes + d.writableBytes) =
      d.discardableBytes + d.writableBytes := toSize_eq (by omega)
  unfold expandedSize
  unfold neededSize at hfits
  dsimp only at hfits ⊢
  rw [hfree]
  generalize d.discardableBytes + d.writableBytes = free at *
  by_cases hlt : free < size
  · rw [if_pos hlt] at hfits
    rw [if_neg (by omega), if_neg (by omega), toSize_grown]
    have hmissing : toSize (size + (2 ^ 64 - free)) = size - free := by
      unfold toSize
      omega
    have hblocks := Nat.div_add_mod (size - free) d.expandSize
    have hmod := Nat.mod_lt (size - free) hpos
    rw [hmissing]
    rw [Nat.mul_add, Nat.mul_one] at hfits ⊢
    refine ⟨_, rfl, ?_, ?_⟩ <;> rw [Nat.mod_eq_of_lt (by omega)] <;> omega
  · rw [if_neg hlt] at hfits
    by_cases hnear : free - size < d.expandSize
    · rw [if_pos hnear] at hfits
      rw [if_pos ⟨by omega, hnear⟩, toSize_eq (by omega)]
      exact ⟨_, rfl, by omega, hfits⟩
    · rw [if_neg (by omega), if_neg (by omega), toSize_grown]
      have hmissing : toSize (size + (2 ^ 64 - free)) = 2 ^ 64 - (free - size) := by
        unfold toSize
        omega
      -- the subtraction wraps around, and the sum wraps back
      have hblocks := Nat.div_add_mod (2 ^ 64 - (free - size)) d.expandSize
      have hmod := Nat.mod_lt (2 ^ 64 - (free - size)) hpos
      rw [hmissing, Nat.mul_add, Nat.mul_one]
      refine ⟨_, rfl, ?_, ?_⟩ <;> omega

/-- The readable bytes, `size` more and two blocks are more than the storage needs. -/
theorem fits_of_lt (hd : d.Sized) (h : d.readableBytes + size + 2 * d.expandSize < 2 ^ 63) :
    d.Fits size := by
  have heq := d.length_eq
  refine Or.inr ?_
  unfold neededSize
  dsimp only
  split
  · rename_i hlt
    have hblocks := Nat.div_mul_le_self (size - (d.discardableBytes + d.writableBytes)) d.expandSize
    rw [Nat.mul_comm] at hblocks
    rw [Nat.mul_add, Nat.mul_one]
    omega
  · split
    · omega
    · exact hd.size_lt

theorem readable_clear (d : DynamicBuffer) : d.clear.readable = [] := by
  unfold readable clear
  simp

/-- **Reading** drops bytes from the front, at most all of them. -/
theorem readable_read (d : DynamicBuffer) (size : Nat) :
    (d.read size).readable = d.readable.drop size := by
  have hlen := d.readable_length
  have hr := d.read_le_write
  unfold readableBytes at hlen
  unfold read
  split
  · rename_i hall
    unfold readableBytes at hall
    rw [readable_clear, List.drop_eq_nil_of_le (by omega)]
  · rename_i hsome
    unfold readableBytes at hsome
    show (d.buffer.take d.writeIndex).drop (d.readIndex + min size d.readableBytes) = _
    unfold readableBytes readable
    rw [List.drop_drop, Nat.min_eq_left (by omega)]

theorem reserve_expandSize (h : d.reserveWritableBytes size = some d') :
    d'.expandSize = d.expandSize := by
  unfold reserveWritableBytes at h
  split at h
  · cases h; rfl
  · obtain ⟨newSize, _, h⟩ := Option.bind_eq_some_iff.1 h
    split at h <;> cases h
    rfl

theorem store_expandSize {i : Nat} (h : d.store i bytes = some d') :
    d'.expandSize = d.expandSize := by
  unfold store at h
  split at h <;> cases h
  rfl

theorem new_expandSize (initSize expandSize : Nat) :
    (new initSize expandSize).expandSize = expandSize := rfl

theorem write_expandSize (d : DynamicBuffer) (size : Nat) :
    (d.write size).expandSize = d.expandSize := rfl

theorem modify_expandSize {i : Nat} {f : UInt8 → UInt8} (h : d.modify i f = some d') :
    d'.expandSize = d.expandSize := by
  obtain ⟨b, _, h⟩ := Option.bind_eq_some_iff.1 h
  exact store_expandSize h

theorem writeBytes_expandSize (h : d.writeBytes bytes = some d') :
    d'.expandSize = d.expandSize := by
  obtain ⟨d1, h1, h⟩ := Option.bind_eq_some_iff.1 h
  obtain ⟨d2, h2, h⟩ := Option.bind_eq_some_iff.1 h
  cases h
  exact (store_expandSize h2).trans (reserve_expandSize h1)

theorem reserve_noop (h : size ≤ d.writableBytes) : d.reserveWritableBytes size = some d :=
  if_pos h

/-- Reserving keeps the readable bytes, in whatever storage. -/
theorem reserve_readable (h : d.reserveWritableBytes size = some d') :
    d'.readable = d.readable := by
  unfold reserveWritableBytes at h
  split at h
  · cases h; rfl
  · obtain ⟨newSize, _, h⟩ := Option.bind_eq_some_iff.1 h
    split at h
    · cases h
      have hlen := d.readable_length
      rw [readable, List.drop_zero]
      exact List.take_left' hlen
    · cases h

/-- **Reserving** makes room and keeps the readable bytes. -/
theorem reserve_spec (hd : d.Sized) (hsize : size < 2 ^ 64) (hfits : d.Fits size) :
    ∃ d', d.reserveWritableBytes size = some d' ∧ d'.readable = d.readable ∧
      size ≤ d'.writableBytes ∧ (d.writableBytes < size → size < d'.writableBytes) ∧ d'.Sized := by
  by_cases hroom : size ≤ d.writableBytes
  · exact ⟨d, reserve_noop hroom, rfl, hroom, fun h => by omega, hd⟩
  obtain ⟨newSize, hnew, hlt, hmax⟩ := expandedSize_spec hd hsize (hfits.resolve_left hroom)
  have hlen := d.readable_length
  have hgrown : (d.readable ++ List.replicate (newSize - d.readableBytes) (0 : UInt8)).length =
      newSize := by
    rw [List.length_append, hlen, List.length_replicate]; omega
  refine ⟨⟨d.storage + 1, d.readable ++ List.replicate (newSize - d.readableBytes) 0,
    d.expandSize, 0, d.readableBytes, Nat.zero_le _, by omega⟩, ?_, ?_, ?_, ?_, ?_⟩
  · unfold reserveWritableBytes
    rw [if_neg hroom, hnew]
    exact dif_pos ⟨by omega, hmax⟩
  · show ((d.readable ++ List.replicate _ 0).take d.readableBytes).drop 0 = d.readable
    rw [List.drop_zero, List.take_left' hlen]
  · show size ≤ (d.readable ++ List.replicate _ 0).length - d.readableBytes
    omega
  · intro _
    show size < (d.readable ++ List.replicate _ 0).length - d.readableBytes
    omega
  · exact ⟨hd.expand_pos, hd.expand_lt, hgrown.trans_lt hmax⟩

theorem store_room (h : d.store 0 bytes = some d') : bytes.length ≤ d.writableBytes := by
  unfold DynamicBuffer.store at h
  split at h
  · unfold writableBytes
    omega
  · cases h

/-- Moving the write index makes the bytes behind it readable. -/
theorem readable_write (d : DynamicBuffer) (count : Nat) :
    (d.write count).readable = d.readable ++ (d.buffer.drop d.writeIndex).take count := by
  have hw := d.write_le_size
  have hr := d.read_le_write
  have hcount : (d.buffer.drop d.writeIndex).take (min count d.writableBytes) =
      (d.buffer.drop d.writeIndex).take count := by
    rw [← List.take_take, List.take_of_length_le (i := d.writableBytes)
      (by rw [List.length_drop]; exact le_rfl)]
  show (d.buffer.take (d.writeIndex + min count d.writableBytes)).drop d.readIndex = _
  rw [List.take_add, hcount, List.drop_append_of_le_length (by rw [List.length_take]; omega)]
  rfl

theorem readable_prefix_write (d : DynamicBuffer) (count : Nat) :
    d.readable <+: (d.write count).readable :=
  ⟨_, (readable_write d count).symm⟩

/-- Storing behind the write index leaves the readable bytes alone. -/
theorem store_keeps {i : Nat} (h : d.store i bytes = some d') : d'.readable = d.readable := by
  have hw := d.write_le_size
  unfold DynamicBuffer.store at h
  split at h
  · cases h
    unfold readable
    dsimp only
    rw [List.append_assoc, List.take_append_of_le_length (by rw [List.length_take]; omega),
      List.take_take, Nat.min_eq_left (by omega)]
  · cases h

theorem modify_keeps {i : Nat} {f : UInt8 → UInt8} (h : d.modify i f = some d') :
    d'.readable = d.readable := by
  obtain ⟨b, _, h⟩ := Option.bind_eq_some_iff.1 h
  exact store_keeps h

theorem store_isSome (h : bytes.length ≤ d.writableBytes) : ∃ d', d.store 0 bytes = some d' := by
  have hw := d.write_le_size
  unfold writableBytes at h
  have hfit : d.writeIndex + 0 + bytes.length ≤ d.buffer.length := by omega
  exact ⟨_, dif_pos hfit⟩

/-- A store moves no index, and changes nothing behind its bytes. -/
theorem store_behind (h : d.store 0 bytes = some d') :
    d'.readIndex = d.readIndex ∧ d'.writeIndex = d.writeIndex ∧
      d'.buffer.length = d.buffer.length ∧
      d'.buffer.drop d.writeIndex = bytes ++ d.buffer.drop (d.writeIndex + bytes.length) := by
  have hw := d.write_le_size
  have hfront : (d.buffer.take (d.writeIndex + 0)).length = d.writeIndex := by
    rw [List.length_take]
    omega
  unfold DynamicBuffer.store at h
  split at h
  · cases h
    refine ⟨rfl, rfl, ?_, ?_⟩
    · simp only [List.length_append, List.length_take, List.length_drop]
      omega
    · dsimp only
      rw [List.append_assoc, List.drop_left' hfront]
      rfl
  · cases h

/-- Storing behind the write index and moving it over some of the bytes. -/
theorem store_write (h : bytes.length ≤ d.writableBytes) {count : Nat}
    (hcount : count ≤ bytes.length) :
    ∃ d', d.store 0 bytes = some d' ∧ (d'.write count).readable = d.readable ++ bytes.take count ∧
      (d'.write count).writableBytes = d.writableBytes - count ∧
      d'.buffer.length = d.buffer.length ∧ d'.expandSize = d.expandSize := by
  obtain ⟨d', hstore⟩ := store_isSome h
  obtain ⟨_, hindex, hlength, hbehind⟩ := store_behind hstore
  refine ⟨d', hstore, ?_, ?_, hlength, store_expandSize hstore⟩
  · rw [readable_write, store_keeps hstore, hindex, hbehind,
      List.take_append_of_le_length hcount]
  · unfold writableBytes at h ⊢
    unfold write writableBytes
    dsimp only
    rw [hlength, hindex]
    omega

/-- Storing behind the write index and moving it over the bytes. -/
theorem store_spec (h : bytes.length ≤ d.writableBytes) :
    ∃ d', d.store 0 bytes = some d' ∧ (d'.write bytes.length).readable = d.readable ++ bytes ∧
      (d'.write bytes.length).writableBytes = d.writableBytes - bytes.length ∧
      d'.buffer.length = d.buffer.length ∧ d'.expandSize = d.expandSize := by
  have hstore := store_write h (le_refl _)
  rwa [List.take_length] at hstore

/-- A store that succeeds had the room. -/
theorem store_readable (h : d.store 0 bytes = some d') :
    (d'.write bytes.length).readable = d.readable ++ bytes := by
  obtain ⟨d'', hd'', hread, -⟩ := store_spec (store_room h)
  obtain rfl : d' = d'' := Option.some.inj (h.symm.trans hd'')
  exact hread

/-- Reserving, and filling some of the room. -/
theorem fill_spec (hd : d.Sized) (hsize : size < 2 ^ 64) (hfits : d.Fits size)
    (hle : bytes.length ≤ size) :
    ∃ d₁ d₂, d.reserveWritableBytes size = some d₁ ∧ d₁.store 0 bytes = some d₂ ∧
      (d₂.write bytes.length).readable = d.readable ++ bytes ∧
      (d₂.write bytes.length).expandSize = d.expandSize ∧ (d₂.write bytes.length).Sized := by
  obtain ⟨d₁, hd₁, hread, hroom, _, hsized⟩ := reserve_spec hd hsize hfits
  obtain ⟨d₂, hd₂, happ, _, hlen, hexp⟩ := store_spec (hle.trans hroom)
  refine ⟨d₁, d₂, hd₁, hd₂, by rw [happ, hread], hexp.trans (reserve_expandSize hd₁), ?_⟩
  exact ⟨hexp ▸ hsized.expand_pos, hexp ▸ hsized.expand_lt, hlen ▸ hsized.size_lt⟩

/-- **`writeBytes` appends.** -/
theorem writeBytes_spec (hd : d.Sized) (hsize : bytes.length < 2 ^ 64)
    (hfits : d.Fits bytes.length) :
    ∃ d', d.writeBytes bytes = some d' ∧ d'.readable = d.readable ++ bytes ∧ d'.Sized := by
  obtain ⟨d₁, d₂, hd₁, hd₂, hread, -, hsized⟩ := fill_spec hd hsize hfits le_rfl
  refine ⟨d₂.write bytes.length, ?_, hread, hsized⟩
  unfold writeBytes
  rw [hd₁]
  simp only [bind, Option.bind_some, hd₂]

end Growing

/-! ## A buffer nothing has been read from -/

/-- `front` is readable, and `room` lies behind the write index. -/
structure Holds (d : DynamicBuffer) (storage : Nat) (front room : List UInt8) : Prop where
  storage_eq : d.storage = storage
  buffer_eq : d.buffer = front ++ room
  readIndex_eq : d.readIndex = 0
  writeIndex_eq : d.writeIndex = front.length

section Holds

variable {d : DynamicBuffer} {storage : Nat} {front room bytes rest : List UInt8} {b : UInt8}

theorem holds_new (initSize expandSize : Nat) :
    (new initSize expandSize).Holds 0 [] (List.replicate initSize 0) := ⟨rfl, rfl, rfl, rfl⟩

theorem Holds.readable_eq (h : d.Holds storage front room) : d.readable = front := by
  unfold readable
  rw [h.buffer_eq, h.readIndex_eq, h.writeIndex_eq, List.take_left, List.drop_zero]

theorem Holds.writableBytes_eq (h : d.Holds storage front room) :
    d.writableBytes = room.length := by
  unfold writableBytes
  rw [h.buffer_eq, h.writeIndex_eq, List.length_append]
  omega

theorem Holds.reserve (h : d.Holds storage front room) {size : Nat} (hs : size ≤ room.length) :
    d.reserveWritableBytes size = some d := by
  unfold reserveWritableBytes
  rw [if_pos (by rw [h.writableBytes_eq]; exact hs)]

/-- Without room the bytes move to another storage. -/
theorem Holds.reserve_storage (h : d.Holds storage front room) {size : Nat}
    (hs : room.length < size) {d' : DynamicBuffer} (hd : d.reserveWritableBytes size = some d') :
    d'.storage = storage + 1 := by
  unfold reserveWritableBytes at hd
  rw [if_neg (by rw [h.writableBytes_eq]; omega)] at hd
  obtain ⟨newSize, _, hd⟩ := Option.bind_eq_some_iff.1 hd
  split at hd <;> cases hd
  rw [← h.storage_eq]

theorem Holds.sized (h : d.Holds storage front room) (hexp : d.expandSize = 1024)
    (hlen : front.length + room.length = 1024) : d.Sized := by
  refine ⟨by omega, by omega, ?_⟩
  rw [h.buffer_eq, List.length_append]
  omega

/-- Without much behind the write index, the readable bytes and `size` more are what counts. -/
theorem Holds.fits (h : d.Holds storage front room) (hexp : d.expandSize = 1024)
    (hlen : front.length + room.length = 1024) {size : Nat} (hsize : size < 2 ^ 62) :
    d.Fits size := by
  have hw := h.writableBytes_eq
  have hlen' : d.buffer.length = 1024 := by rw [h.buffer_eq, List.length_append, hlen]
  have hfree : d.discardableBytes = 0 := h.readIndex_eq
  by_cases hroom : size ≤ d.writableBytes
  · exact Or.inl hroom
  · refine Or.inr ?_
    unfold neededSize
    dsimp only
    rw [hexp, hlen', hfree]
    split
    · omega
    · split <;> omega

theorem store_storage {i : Nat} {d' : DynamicBuffer} (hd : d.store i bytes = some d') :
    d'.storage = d.storage := by
  unfold store at hd
  split at hd <;> cases hd
  rfl

/-- Storing over bytes behind the write index. -/
theorem Holds.store (done bytes : List UInt8) {old : List UInt8}
    (h : d.Holds storage front (done ++ old ++ rest))
    (hlen : bytes.length = old.length) :
    ∃ d', d.store done.length bytes = some d' ∧ d'.Holds storage front (done ++ bytes ++ rest) := by
  have hbuf : d.buffer = (front ++ done) ++ (old ++ rest) := by rw [h.buffer_eq]; simp
  have hw := h.writeIndex_eq
  have hfit : d.writeIndex + done.length + bytes.length ≤ d.buffer.length := by
    rw [hbuf, hw]
    simp only [List.length_append]
    omega
  unfold DynamicBuffer.store
  rw [dif_pos hfit]
  refine ⟨_, rfl, h.storage_eq, ?_, h.readIndex_eq, hw⟩
  have htake : d.buffer.take (d.writeIndex + done.length) = front ++ done := by
    rw [hbuf, hw, List.take_left' (by rw [List.length_append])]
  have hdrop : d.buffer.drop (d.writeIndex + done.length + bytes.length) = rest := by
    rw [hbuf, hw, ← List.append_assoc, List.drop_left']
    simp only [List.length_append]
    omega
  dsimp only
  rw [htake, hdrop]
  simp

theorem Holds.store_first (bytes : List UInt8) (h : d.Holds storage front room)
    (hlen : bytes.length ≤ room.length) :
    ∃ d', d.store 0 bytes = some d' ∧
      d'.Holds storage front (bytes ++ room.drop bytes.length) := by
  have h' : d.Holds storage front ([] ++ room.take bytes.length ++ room.drop bytes.length) := by
    rw [List.nil_append, List.take_append_drop]; exact h
  exact h'.store [] bytes (by rw [List.length_take]; omega)

theorem Holds.load {done : List UInt8} (h : d.Holds storage front (done ++ b :: rest)) :
    d.load d.writeBegin done.length = some b := by
  unfold DynamicBuffer.load writeBegin
  rw [if_pos rfl, h.buffer_eq, h.writeIndex_eq, List.getElem?_append_right (by dsimp only; omega)]
  dsimp only
  rw [Nat.add_sub_cancel_left, List.getElem?_append_right (le_refl _), Nat.sub_self]
  rfl

theorem Holds.modify (done : List UInt8) (f : UInt8 → UInt8)
    (h : d.Holds storage front (done ++ b :: rest)) :
    ∃ d', d.modify done.length f = some d' ∧ d'.Holds storage front (done ++ f b :: rest) := by
  have h' : d.Holds storage front (done ++ [b] ++ rest) := by simpa using h
  obtain ⟨d', hd', hh⟩ := h'.store done [f b] rfl
  unfold DynamicBuffer.modify
  refine ⟨d', by rw [h.load]; exact hd', ?_⟩
  simpa using hh

theorem Holds.write (bytes : List UInt8) (h : d.Holds storage front (bytes ++ rest)) :
    (d.write bytes.length).Holds storage (front ++ bytes) rest := by
  refine ⟨h.storage_eq, ?_, h.readIndex_eq, ?_⟩
  · show d.buffer = _
    rw [h.buffer_eq, List.append_assoc]
  · show d.writeIndex + min bytes.length d.writableBytes = _
    rw [h.writableBytes_eq, h.writeIndex_eq, List.length_append, List.length_append]
    omega

/-- `writeBytes` appends, where there is room. -/
theorem Holds.writeBytes (bytes : List UInt8) (h : d.Holds storage front room)
    (hlen : bytes.length ≤ room.length) :
    ∃ d', d.writeBytes bytes = some d' ∧
      d'.Holds storage (front ++ bytes) (room.drop bytes.length) := by
  obtain ⟨d', hd', hh⟩ := h.store_first bytes hlen
  refine ⟨d'.write bytes.length, ?_, hh.write bytes⟩
  unfold DynamicBuffer.writeBytes
  rw [h.reserve hlen]
  simp only [bind, Option.bind_some, hd']

/-- A pointer to bytes that have been written. -/
theorem Holds.load_front {before key behind : List UInt8} {i : Nat}
    (h : d.Holds storage (before ++ key ++ behind) room) (hi : i < key.length) :
    d.load ⟨storage, before.length⟩ i = some (key.getD i 0) := by
  unfold DynamicBuffer.load
  rw [if_pos h.storage_eq.symm, h.buffer_eq, List.append_assoc, List.append_assoc,
    List.getElem?_append_right (Nat.le_add_right _ _), Nat.add_sub_cancel_left,
    List.getElem?_append_left hi, List.getD_eq_getElem?_getD, List.getElem?_eq_getElem hi]
  rfl

end Holds

/-! ## Reading integers off the readable bytes -/

def peekInt (n : Nat) (readable : List UInt8) (offset : Nat) : Option Nat :=
  if readable.length < offset + n then none
  else some (BigEndian.ofBytes ((readable.drop offset).take n))

def peekInt8 (readable : List UInt8) (offset : Nat) : Option Nat := peekInt 1 readable offset

def peekInt16 (readable : List UInt8) (offset : Nat) : Option Nat := peekInt 2 readable offset

def peekInt32 (readable : List UInt8) (offset : Nat) : Option Nat := peekInt 4 readable offset

def peekInt64 (readable : List UInt8) (offset : Nat) : Option Nat := peekInt 8 readable offset

/-- Only the bytes up to the end of the integer matter. -/
theorem peekInt_congr {n offset : Nat} {readable readable' : List UInt8}
    (h : readable'.take (offset + n) = readable.take (offset + n)) :
    peekInt n readable' offset = peekInt n readable offset := by
  have hlen := congrArg List.length h
  rw [List.length_take, List.length_take] at hlen
  unfold peekInt
  by_cases hshort : readable.length < offset + n
  · rw [if_pos (by omega), if_pos hshort]
  · rw [if_neg (by omega), if_neg hshort, List.take_drop, List.take_drop, h]

theorem peekInt_length {n offset v : Nat} {readable : List UInt8}
    (h : peekInt n readable offset = some v) : offset + n ≤ readable.length := by
  unfold peekInt at h
  split at h
  · cases h
  · omega

/-- The integer that `toBytes` wrote. -/
theorem peekInt_toBytes {n v : Nat} (front rest : List UInt8) (hv : v < 2 ^ (8 * n)) :
    peekInt n (front ++ (BigEndian.toBytes n v ++ rest)) front.length = some v := by
  unfold peekInt
  rw [if_neg (by simp only [List.length_append, BigEndian.toBytes_length]; omega),
    List.drop_left, List.take_left' (BigEndian.toBytes_length n v), BigEndian.ofBytes_toBytes,
    Nat.mod_eq_of_lt hv]

end DynamicBuffer

end Brickred
