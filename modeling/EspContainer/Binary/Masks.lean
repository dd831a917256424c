/-
# Sets as bit masks

A mask is a set of bits. One mask is inside another if it has no bit that the other
lacks, and that is an order.
-/

import Mathlib.Data.UInt

namespace Binary

/-- What is inside a mask is inside every larger one. -/
theorem and_not_eq_zero_trans {first second third : UInt32} (hfirst : first &&& ~~~second = 0)
    (hsecond : second &&& ~~~third = 0) : first &&& ~~~third = 0 := by
  rw [← UInt32.toBitVec_inj] at hfirst hsecond ⊢
  simp only [UInt32.toBitVec_and, UInt32.toBitVec_not] at hfirst hsecond ⊢
  ext index hindex
  have hfirstBit := congrArg (fun bits => bits[index]) hfirst
  have hsecondBit := congrArg (fun bits => bits[index]) hsecond
  simp at hfirstBit hsecondBit ⊢
  grind

end Binary
