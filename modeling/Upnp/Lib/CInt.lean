import Mathlib.Tactic.Ring
import Mathlib.Data.Int.Order.Basic

/-!
# Machine integers of the C side

A C `int` is modelled by an `Int` kept in `[-2^31, 2^31)`.  Arithmetic whose
overflow a result depends on is followed by `wrap32`, two's complement
wrap-around; everything else is plain integer arithmetic.
-/

namespace Upnp.Lib

/-- The largest `int`, `2^31 - 1`. -/
def intMax : Int := 2147483647

/-- Two's complement wrap-around to 32 bits. -/
def wrap32 (x : Int) : Int := Int.bmod x 4294967296

/-- Values in range are unchanged. -/
theorem wrap32_of_range {x : Int} (hl : -2147483648 ≤ x) (hu : x ≤ 2147483647) :
    wrap32 x = x := by
  unfold wrap32
  rw [Int.bmod_def]
  omega

/-- The result is a 32 bit value. -/
theorem wrap32_range (x : Int) : -2147483648 ≤ wrap32 x ∧ wrap32 x ≤ 2147483647 := by
  unfold wrap32
  rw [Int.bmod_def]
  omega

/-- Wrapping changes a value by a multiple of `2^32`. -/
theorem wrap32_dvd (x : Int) : (4294967296 : Int) ∣ wrap32 x - x := by
  unfold wrap32
  rw [Int.bmod_def]
  split <;> omega

/-- One past the largest `int` is the smallest. -/
theorem wrap32_succ_intMax : wrap32 (intMax + 1) = -2147483648 := by decide

end Upnp.Lib
