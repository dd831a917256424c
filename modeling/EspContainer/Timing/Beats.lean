/-
# Beats

A beat is to be repeated every period. If it is looked at late, a number of whole
periods has been missed, and the next beat is the first one that is still to come. It
stays on the grid of the first beat however late anyone looks.
-/

import Mathlib.Order.Bounds.Basic

namespace Timing

variable {beat period moment : Nat}

/-- The number of whole periods from a beat to a moment. -/
def missed (beat period moment : Nat) : Nat := (moment - beat) / period

/-- The first beat after a moment. -/
def nextBeat (beat period moment : Nat) : Nat := beat + (missed beat period moment + 1) * period

/-- It is reached from the moment by what is left of the period. -/
theorem nextBeat_eq (hperiod : 0 < period) (hdue : beat ≤ moment) :
    nextBeat beat period moment = moment + (period - (moment - beat) % period) := by
  have hparts := Nat.div_add_mod (moment - beat) period
  have hrest := Nat.mod_lt (moment - beat) hperiod
  rw [nextBeat, missed, Nat.add_mul, Nat.one_mul, Nat.mul_comm _ period]
  omega

/-- It is at most one period away. -/
theorem nextBeat_le (hperiod : 0 < period) (hdue : beat ≤ moment) :
    nextBeat beat period moment ≤ moment + period := by
  rw [nextBeat_eq hperiod hdue]
  exact Nat.add_le_add_left (Nat.sub_le _ _) _

/-- The next beat is the least on the grid that is later than the moment. -/
theorem isLeast_nextBeat (hperiod : 0 < period) (hdue : beat ≤ moment) :
    IsLeast {later | moment < later ∧ ∃ count, later = beat + count * period}
      (nextBeat beat period moment) := by
  constructor
  · refine ⟨?_, _, rfl⟩
    rw [nextBeat_eq hperiod hdue]
    have hrest := Nat.mod_lt (moment - beat) hperiod
    omega
  · rintro later ⟨hlater, count, rfl⟩
    -- A beat after the moment is more than the missed ones away.
    have hcount : missed beat period moment < count := by
      rw [missed, Nat.div_lt_iff_lt_mul hperiod]
      omega
    exact Nat.add_le_add_left (Nat.mul_le_mul_right period hcount) beat

end Timing
