import Brickred.DynamicBuffer

/-!
# The size of a new storage

`reserveWritableBytes` computes in `size_t`.  Its second branch is for a request beyond the free
bytes, but a request far below them takes it too: `size - free_bytes` then wraps around, is
divided and multiplied, and the sum wraps back.

* `expandedSize_beyond`, `expandedSize_near`, `expandedSize_below` — the three cases, with the
  room behind the readable bytes in closed form.
* `expandedSize_room` — the room is enough and less than two blocks too much.
* `reserve_arithmetic` — what `reserveWritableBytes` does with it.
-/

set_option autoImplicit false

namespace Brickred

namespace DynamicBuffer

variable {d : DynamicBuffer} {size : Nat}

/-- The bytes the storage has besides the readable ones. -/
def freeBytes (d : DynamicBuffer) : Nat := d.discardableBytes + d.writableBytes

section Bounds

variable (hexpand : 1 ≤ d.expandSize) (hcapacity : d.buffer.length < 2 ^ 62)
  (hexpandSize : d.expandSize < 2 ^ 62) (hsize : size < 2 ^ 62)

include hcapacity in
theorem toSize_freeBytes :
    toSize (d.discardableBytes + d.writableBytes) = d.freeBytes := by
  have := d.length_eq
  exact toSize_eq (by omega)

include hexpand hcapacity hexpandSize hsize in
/-- The request is beyond the free bytes: nothing wraps around. -/
theorem expandedSize_beyond (h : d.freeBytes < size) :
    d.expandedSize size = some (d.readableBytes +
      (d.freeBytes + d.expandSize * ((size - d.freeBytes) / d.expandSize + 1))) := by
  have hlen := d.length_eq
  have hfree := toSize_freeBytes hcapacity
  have hmissing : toSize (size + (2 ^ 64 - d.freeBytes)) = size - d.freeBytes := by
    unfold toSize
    omega
  have hblocks := Nat.div_mul_le_self (size - d.freeBytes) d.expandSize
  rw [Nat.mul_comm] at hblocks
  unfold expandedSize
  dsimp only
  rw [hfree, if_neg (by omega), if_neg (by omega), hmissing, toSize_grown]
  unfold freeBytes at *
  rw [Nat.mod_eq_of_lt (by rw [Nat.mul_add, Nat.mul_one]; omega)]
  congr 1
  omega

include hcapacity hexpandSize in
/-- One block is enough. -/
theorem expandedSize_near (h : size ≤ d.freeBytes) (hnear : d.freeBytes - size < d.expandSize) :
    d.expandedSize size = some (d.readableBytes + (d.freeBytes + d.expandSize)) := by
  have hlen := d.length_eq
  have hfree := toSize_freeBytes hcapacity
  unfold expandedSize
  dsimp only
  rw [hfree, if_pos ⟨h, hnear⟩, toSize_eq (by omega)]
  unfold freeBytes
  congr 1
  omega

include hexpand hcapacity in
/-- The request is far below the free bytes: the difference wraps around and the sum wraps back,
to the request and what is missing from it to a multiple of `expand_size_`, modulo `2 ^ 64`. -/
theorem expandedSize_below (h : d.expandSize ≤ d.freeBytes - size) :
    d.expandedSize size = some (d.readableBytes +
      (size + (d.expandSize - (2 ^ 64 - (d.freeBytes - size)) % d.expandSize))) := by
  have hlen := d.length_eq
  have hfree := toSize_freeBytes hcapacity
  have hmissing : toSize (size + (2 ^ 64 - d.freeBytes)) = 2 ^ 64 - (d.freeBytes - size) := by
    unfold freeBytes toSize at *
    omega
  have hblocks := Nat.div_add_mod (2 ^ 64 - (d.freeBytes - size)) d.expandSize
  have hmod := Nat.mod_lt (2 ^ 64 - (d.freeBytes - size)) hexpand
  unfold expandedSize
  dsimp only
  rw [hfree, if_neg (by omega), if_neg (by omega), hmissing, toSize_grown, Nat.mul_add, Nat.mul_one]
  congr 1
  unfold freeBytes at *
  omega

include hexpand hcapacity hexpandSize hsize in
/-- **The room behind the readable bytes**, in each of the cases. -/
theorem expandedSize_room : ∃ room, d.expandedSize size = some (d.readableBytes + room) ∧
    size ≤ room ∧ room < size + 2 * d.expandSize := by
  by_cases hbeyond : d.freeBytes < size
  · refine ⟨_, expandedSize_beyond hexpand hcapacity hexpandSize hsize hbeyond, ?_⟩
    have hblocks := Nat.div_add_mod (size - d.freeBytes) d.expandSize
    have hmod := Nat.mod_lt (size - d.freeBytes) hexpand
    rw [Nat.mul_add, Nat.mul_one]
    constructor <;> omega
  · rw [not_lt] at hbeyond
    by_cases hnear : d.freeBytes - size < d.expandSize
    · refine ⟨_, expandedSize_near hcapacity hexpandSize hbeyond hnear, ?_⟩
      constructor <;> omega
    · refine ⟨_, expandedSize_below hexpand hcapacity (not_lt.1 hnear), ?_⟩
      have hmod := Nat.mod_lt (2 ^ 64 - (d.freeBytes - size)) hexpand
      constructor <;> omega

end Bounds

/-- A storage of the computed size, where a vector can have it; `std::length_error` otherwise. -/
theorem reserve_expanded {room : Nat} (hroom : d.writableBytes < size)
    (hnew : d.expandedSize size = some (d.readableBytes + room)) :
    (d.reserveWritableBytes size = none ↔ 2 ^ 63 ≤ d.readableBytes + room) ∧
    ∀ d', d.reserveWritableBytes size = some d' → d'.readable = d.readable ∧
      d'.writableBytes = room := by
  have hlen := d.readable_length
  unfold reserveWritableBytes
  rw [if_neg (by omega), hnew]
  dsimp only [bind, Option.bind_some]
  by_cases hmax : d.readableBytes + room < 2 ^ 63
  · rw [dif_pos ⟨Nat.le_add_right _ _, hmax⟩]
    refine ⟨⟨fun h => (Option.some_ne_none _ h).elim, fun h => absurd hmax (not_lt.2 h)⟩, ?_⟩
    rintro d' ⟨⟩
    constructor
    · rw [readable, List.drop_zero]
      exact List.take_left' hlen
    · show (d.readable ++ List.replicate _ 0).length - d.readableBytes = room
      rw [List.length_append, hlen, List.length_replicate]
      omega
  · rw [dif_neg (fun h => hmax h.2)]
    exact ⟨⟨fun _ => not_lt.1 hmax, fun _ => rfl⟩, fun d' h => (Option.some_ne_none _ h.symm).elim⟩

/-- **The arithmetic of `reserveWritableBytes`.**  When it returns, the readable bytes are the same,
there is the room that was asked for, and a new storage has less than two blocks more.  The size
it computes is always right; it does not return where a vector cannot have that size. -/
theorem reserve_arithmetic (d : DynamicBuffer) (size : Nat) (hexpand : 1 ≤ d.expandSize)
    (hcapacity : d.buffer.length < 2 ^ 62) (hexpandSize : d.expandSize < 2 ^ 62)
    (hsize : size < 2 ^ 62) :
    (∀ d', d.reserveWritableBytes size = some d' → d'.readable = d.readable ∧
      size ≤ d'.writableBytes ∧
      (d'.storage ≠ d.storage → d'.writableBytes < size + 2 * d.expandSize)) ∧
    (size ≤ d.writableBytes → d.reserveWritableBytes size = some d) ∧
    (d.writableBytes < size → ∃ room, d.expandedSize size = some (d.readableBytes + room) ∧
      size ≤ room ∧ room < size + 2 * d.expandSize ∧
      (d.reserveWritableBytes size = none ↔ 2 ^ 63 ≤ d.readableBytes + room)) := by
  obtain ⟨room, hnew, hlo, hhi⟩ := expandedSize_room hexpand hcapacity hexpandSize hsize
  refine ⟨fun d' h => ?_, reserve_noop, fun hroom => ?_⟩
  · by_cases hroom : size ≤ d.writableBytes
    · rw [reserve_noop hroom] at h
      cases h
      exact ⟨rfl, hroom, fun hne => absurd rfl hne⟩
    · obtain ⟨hreadable, hwritable⟩ := (reserve_expanded (not_le.1 hroom) hnew).2 d' h
      rw [hwritable]
      exact ⟨hreadable, hlo, fun _ => hhi⟩
  · exact ⟨room, hnew, hlo, hhi, (reserve_expanded hroom hnew).1⟩

/-- Five readable bytes at the end of a storage of 100, in blocks of three. -/
def almostRead : DynamicBuffer := ⟨0, List.replicate 100 7, 3, 90, 95, by decide, by decide⟩

/-- Six bytes are asked for: the difference wraps around, and the storage shrinks to twelve. -/
theorem almostRead_shrinks :
    ∃ room, almostRead.expandedSize 6 = some (almostRead.readableBytes + room) ∧ 6 ≤ room ∧
      room < 12 ∧ almostRead.expandedSize 6 = some 12 := by
  obtain ⟨room, hnew, hlo, hhi, _⟩ :=
    (reserve_arithmetic almostRead 6 (by decide) (by decide) (by decide) (by decide)).2.2 (by decide)
  exact ⟨room, hnew, hlo, hhi, by decide⟩

end DynamicBuffer

end Brickred
