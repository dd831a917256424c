/-
# Reflected shift registers

A register of `w` bits that shifts towards its low end and adds a polynomial
whenever a one falls out: the machine behind a reflected CRC of any width. It is
linear in the register and the bits it is fed. If the top bit of the polynomial is
set, shifting loses nothing, and no burst of at most `w` bits is fed to the zero
register without leaving a trace in it, however many zeros follow.
-/

import Mathlib.Data.List.Basic
import Mathlib.Data.BitVec

namespace Binary

variable {w : Nat} (poly : BitVec w)

/-- One shift of the register. -/
def shiftBit (register : BitVec w) : BitVec w :=
  (register >>> 1) ^^^ if register.getLsbD 0 then poly else 0#w

/-- Add a bit at the low end and shift. -/
def feedBit (register : BitVec w) (bit : Bool) : BitVec w :=
  shiftBit poly (register ^^^ if bit then 1#w else 0#w)

/-- The register after it was fed some bits. -/
def feedBits (register : BitVec w) (bits : List Bool) : BitVec w :=
  bits.foldl (feedBit poly) register

@[simp]
theorem feedBits_nil (register : BitVec w) : feedBits poly register [] = register := rfl

@[simp]
theorem feedBits_cons (register : BitVec w) (bit : Bool) (bits : List Bool) :
    feedBits poly register (bit :: bits) = feedBits poly (feedBit poly register bit) bits := rfl

theorem feedBits_append (register : BitVec w) (first second : List Bool) :
    feedBits poly register (first ++ second) =
      feedBits poly (feedBits poly register first) second := List.foldl_append

/-! ## Linearity -/

/-- Shifting is linear. -/
theorem shiftBit_xor (first second : BitVec w) :
    shiftBit poly (first ^^^ second) = shiftBit poly first ^^^ shiftBit poly second := by
  apply BitVec.eq_of_getLsbD_eq
  intro index _
  simp only [shiftBit, BitVec.getLsbD_xor, BitVec.ushiftRight_xor_distrib]
  cases first.getLsbD 0 <;> cases second.getLsbD 0 <;>
    cases (first >>> 1).getLsbD index <;> cases (second >>> 1).getLsbD index <;>
    cases hpoly : poly.getLsbD index <;> simp [hpoly]

@[simp]
theorem shiftBit_zero : shiftBit poly 0#w = 0#w := by
  simp [shiftBit]

/-- The register after so many shifts. -/
def shiftBits (count : Nat) (register : BitVec w) : BitVec w := (shiftBit poly)^[count] register

@[simp]
theorem shiftBits_none (register : BitVec w) : shiftBits poly 0 register = register := rfl

theorem shiftBits_succ (count : Nat) (register : BitVec w) :
    shiftBits poly (count + 1) register = shiftBits poly count (shiftBit poly register) := rfl

theorem shiftBits_xor (count : Nat) (first second : BitVec w) :
    shiftBits poly count (first ^^^ second) =
      shiftBits poly count first ^^^ shiftBits poly count second := by
  induction count generalizing first second with
  | zero => rfl
  | succ count ih => rw [shiftBits_succ, shiftBit_xor, ih, ← shiftBits_succ, ← shiftBits_succ]

@[simp]
theorem shiftBits_zero (count : Nat) : shiftBits poly count 0#w = 0#w := by
  induction count with
  | zero => rfl
  | succ count ih => rw [shiftBits_succ, shiftBit_zero, ih]

/-! ## Feeding a word -/

/-- The word of some bits, the first of them lowest. -/
def wordOfBits : List Bool → BitVec w
  | [] => 0#w
  | bit :: bits => (if bit then 1#w else 0#w) ^^^ (wordOfBits bits <<< 1)

/-- The bits of a word. -/
theorem getLsbD_wordOfBits (bits : List Bool) {index : Nat} (hindex : index < w) :
    (wordOfBits bits : BitVec w).getLsbD index = bits.getD index false := by
  induction bits generalizing index with
  | nil => simp [wordOfBits]
  | cons bit bits ih =>
      rw [wordOfBits, BitVec.getLsbD_xor, BitVec.getLsbD_shiftLeft]
      cases index with
      | zero => cases bit <;> simp [hindex]
      | succ index =>
          have hbit : (if bit then 1#w else 0#w).getLsbD (index + 1) = false := by
            cases bit <;> simp
          rw [hbit, Nat.add_sub_cancel, ih (Nat.lt_of_succ_lt hindex)]
          simp [hindex]

/-- Shifting down what was shifted up. -/
theorem shiftBit_shiftLeft {register : BitVec w} (htop : register.msb = false) :
    shiftBit poly (register <<< 1) = register := by
  apply BitVec.eq_of_getLsbD_eq
  intro index hindex
  have hlow : (register <<< 1).getLsbD 0 = false := by simp
  rw [shiftBit, hlow, BitVec.getLsbD_xor, BitVec.getLsbD_ushiftRight, BitVec.getLsbD_shiftLeft]
  by_cases hlast : 1 + index < w
  · simp [hlast]
  · have htopBit : register.getLsbD index = false := by
      rw [BitVec.msb_eq_getLsbD_last] at htop
      rwa [show index = w - 1 by omega]
    simp [hlast, htopBit]

/-- Feeding at most `w` bits is adding their word and shifting. -/
theorem feedBits_eq_shiftBits (register : BitVec w) {bits : List Bool} (hbits : bits.length ≤ w) :
    feedBits poly register bits =
      shiftBits poly bits.length (register ^^^ wordOfBits bits) := by
  induction bits generalizing register with
  | nil => simp [wordOfBits]
  | cons bit bits ih =>
      rw [List.length_cons] at hbits
      have htop : (wordOfBits bits : BitVec w).msb = false := by
        rw [BitVec.msb_eq_getLsbD_last, getLsbD_wordOfBits bits (by omega)]
        rw [List.getD_eq_getElem?_getD, List.getElem?_eq_none (by omega)]
        rfl
      rw [feedBits_cons, ih _ (by omega), List.length_cons, shiftBits_succ, wordOfBits,
        ← BitVec.xor_assoc, shiftBit_xor poly _ (wordOfBits bits <<< 1), shiftBit_shiftLeft poly htop]
      rfl

/-! ## Bursts -/

variable {poly}

/-- A polynomial with its top bit set keeps a set bit in the register: it stays, one place
lower, or the top bit is set. -/
theorem feedBit_keeps (hpoly : poly.msb = true) {register : BitVec w} {lowest : Nat}
    (hset : ∃ index, lowest + 1 ≤ index ∧ index < w ∧ register.getLsbD index = true) (bit : Bool) :
    ∃ index, lowest ≤ index ∧ index < w ∧ (feedBit poly register bit).getLsbD index = true := by
  obtain ⟨index, hlowest, hindex, hbit⟩ := hset
  have hadded : (register ^^^ if bit then 1#w else 0#w).getLsbD index = true := by
    have hone : (if bit then 1#w else 0#w).getLsbD index = false := by
      cases bit with
      | false => simp
      | true => simp; omega
    rw [BitVec.getLsbD_xor, hbit, hone]
    rfl
  rw [feedBit, shiftBit]
  cases hlow : (register ^^^ if bit then 1#w else 0#w).getLsbD 0 with
  | true =>
      refine ⟨w - 1, by omega, by omega, ?_⟩
      rw [BitVec.msb_eq_getLsbD_last] at hpoly
      rw [BitVec.getLsbD_xor, BitVec.getLsbD_ushiftRight, BitVec.getLsbD_of_ge _ _ (by omega),
        if_pos rfl, hpoly]
      rfl
  | false =>
      refine ⟨index - 1, by omega, by omega, ?_⟩
      rw [if_neg Bool.false_ne_true, BitVec.xor_zero, BitVec.getLsbD_ushiftRight,
        show 1 + (index - 1) = index by omega, hadded]

/-- As long as a set bit is high enough, feeding does not clear the register. -/
theorem feedBits_ne_zero (hpoly : poly.msb = true) {register : BitVec w} {bits : List Bool}
    (hset : ∃ index, bits.length ≤ index ∧ index < w ∧ register.getLsbD index = true) :
    feedBits poly register bits ≠ 0#w := by
  induction bits generalizing register with
  | nil =>
      obtain ⟨index, -, -, hbit⟩ := hset
      rintro rfl
      simp at hbit
  | cons bit bits ih => exact ih (feedBit_keeps hpoly hset bit)

/-- Shifting clears nothing but the zero register. -/
theorem shiftBit_eq_zero (hpoly : poly.msb = true) {register : BitVec w}
    (hzero : shiftBit poly register = 0#w) : register = 0#w := by
  have hbits : ∀ index, (register >>> 1).getLsbD index =
      (if register.getLsbD 0 then poly else 0#w).getLsbD index := by
    intro index
    have hbit := congrArg (fun word : BitVec w => word.getLsbD index) hzero
    simpa [shiftBit] using hbit
  -- The top bit is the one that fell out.
  have hlow : register.getLsbD 0 = false := by
    have htop := hbits (w - 1)
    rw [BitVec.msb_eq_getLsbD_last] at hpoly
    rw [BitVec.getLsbD_ushiftRight, BitVec.getLsbD_of_ge _ _ (by omega)] at htop
    cases hlow : register.getLsbD 0 with
    | false => rfl
    | true =>
        rw [hlow, if_pos rfl, hpoly] at htop
        cases htop
  apply BitVec.eq_of_getLsbD_eq
  intro index _
  cases index with
  | zero => simpa using hlow
  | succ index =>
      have hbit := hbits index
      rw [hlow, if_neg Bool.false_ne_true, BitVec.getLsbD_ushiftRight, Nat.add_comm] at hbit
      simpa using hbit

/-- A register that is not zero is not cleared by zeros. -/
theorem feedBits_replicate_ne_zero (hpoly : poly.msb = true) {register : BitVec w}
    (hregister : register ≠ 0#w) (count : Nat) :
    feedBits poly register (List.replicate count false) ≠ 0#w := by
  induction count generalizing register with
  | zero => exact hregister
  | succ count ih =>
      apply ih
      intro hzero
      rw [feedBit, if_neg Bool.false_ne_true, BitVec.xor_zero] at hzero
      exact hregister (shiftBit_eq_zero hpoly hzero)

/-- The bit one sets the top bit of the zero register. -/
theorem feedBit_one (hpoly : poly.msb = true) (hw : 0 < w) :
    (feedBit poly 0#w true).getLsbD (w - 1) = true := by
  have hone : (1#w).getLsbD 0 = true := by
    simp [hw]
  rw [BitVec.msb_eq_getLsbD_last] at hpoly
  rw [feedBit, if_pos rfl, BitVec.zero_xor, shiftBit, hone, if_pos rfl, BitVec.getLsbD_xor,
    BitVec.getLsbD_ushiftRight, BitVec.getLsbD_of_ge _ _ (by omega), hpoly]
  rfl

/-- No burst of at most `w` bits goes unnoticed, wherever it begins. -/
theorem feedBits_burst (hpoly : poly.msb = true) {bits : List Bool} (hsome : true ∈ bits)
    {start : Nat}
    (hburst : ∀ index, bits[index]? = some true → start ≤ index ∧ index < start + w) :
    feedBits poly 0#w bits ≠ 0#w := by
  induction bits generalizing start with
  | nil => cases hsome
  | cons bit bits ih =>
      rw [feedBits_cons]
      cases bit with
      | false =>
          have hzero : feedBit poly 0#w false = 0#w := by simp [feedBit]
          have hlater : ∀ index, bits[index]? = some true →
              start - 1 ≤ index ∧ index < start - 1 + w := by
            intro index hindex
            have hwithin := hburst (index + 1) hindex
            omega
          rw [hzero]
          exact ih (by simpa using hsome) hlater
      | true =>
          have hstart := hburst 0 rfl
          -- Behind the first `w` bits there are only zeros.
          have hzeros : bits.drop (w - 1) = List.replicate (bits.drop (w - 1)).length false := by
            apply List.eq_replicate_of_mem
            intro bit hbit
            obtain ⟨index, hindex⟩ := List.mem_iff_getElem?.mp hbit
            rw [List.getElem?_drop] at hindex
            cases bit with
            | false => rfl
            | true =>
                have hwithin := hburst (w - 1 + index + 1) hindex
                omega
          rw [← List.take_append_drop (w - 1) bits, feedBits_append, hzeros]
          apply feedBits_replicate_ne_zero hpoly
          apply feedBits_ne_zero hpoly
          exact ⟨w - 1, List.length_take_le _ _, by omega, feedBit_one hpoly (by omega)⟩

end Binary
