import Brickred.MachineInt

/-!
# The output of a codec

The buffer forms of `url.cc` and `base64.cc` write from `out` on, byte after byte, and return
the count or `-1`; the wrappers take the string from a buffer of their own.

* `Written` — the bytes a call writes, and whether it comes to its end.
* `Written.ret`, `Written.str` — what the buffer form and the wrapper return.
-/

set_option autoImplicit false

namespace Brickred

namespace Codec

/-- What a buffer form writes; `complete` is false when it returns in the middle of its loop. -/
structure Written where
  complete : Bool
  bytes : List UInt8
  deriving DecidableEq

namespace Written

/-- `return -1` -/
def fail : Written := ⟨false, []⟩

/-- One turn of the loop, and the turns behind it. -/
def put (group : List UInt8) (w : Written) : Written := ⟨w.complete, group ++ w.bytes⟩

/-- `out - out_start` is returned as an `int`. -/
def ret (w : Written) : Int := if w.complete then toInt w.bytes.length else -1

/-- The string the wrapper makes of its buffer. -/
def str (w : Written) : List UInt8 := if w.ret ≤ 0 then [] else w.bytes.take w.ret.toNat

variable {w : Written}

theorem ret_eq (h : w.complete = true) (hlength : w.bytes.length < 2 ^ 31) :
    w.ret = w.bytes.length := by
  rw [ret, if_pos h, toInt_eq (by omega) (by omega)]

theorem str_eq (h : w.complete = true) (hlength : w.bytes.length < 2 ^ 31) : w.str = w.bytes := by
  rw [str, ret_eq h hlength, Int.toNat_natCast, List.take_length]
  split
  · exact (List.length_eq_zero_iff.1 (by omega)).symm
  · rfl

end Written

end Codec

end Brickred
