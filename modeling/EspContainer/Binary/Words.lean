/-
# Little-endian words

A word is taken apart into bytes, lowest first, and put together again by shifting each
byte to its place. After the first bytes the word has its lowest bits, and after as many
as it has bytes it is whole.
-/

import EspContainer.Binary.Bytes

namespace Binary

/-- The next byte fills the next eight bits. -/
theorem or_shiftLeft_byte (value count : Nat) :
    value % 2 ^ (8 * count) ||| (value >>> (8 * count) % 2 ^ 8) <<< (8 * count) =
      value % 2 ^ (8 * (count + 1)) := by
  apply Nat.eq_of_testBit_eq
  intro index
  rw [Nat.testBit_or, Nat.testBit_mod_two_pow, Nat.testBit_shiftLeft, Nat.testBit_mod_two_pow,
    Nat.testBit_shiftRight, Nat.testBit_mod_two_pow]
  by_cases hlow : index < 8 * count
  · have hnotYet : ¬ 8 * count ≤ index := by omega
    have hbelow : index < 8 * (count + 1) := by omega
    simp only [hlow, hnotYet, hbelow, decide_true, decide_false, Bool.true_and, Bool.false_and,
      Bool.or_false]
  · have hreached : 8 * count ≤ index := by omega
    have hshift : 8 * count + (index - 8 * count) = index := by omega
    have hwithin : index - 8 * count < 8 ↔ index < 8 * (count + 1) := by omega
    simp only [hlow, hreached, hshift, hwithin, decide_true, decide_false, Bool.true_and,
      Bool.false_and, Bool.false_or]

/-- A byte in its place is part of a word that reaches so far. -/
theorem shiftLeft_byte_lt (value : Nat) {count width : Nat} (hwidth : 8 * (count + 1) ≤ width) :
    (value % 2 ^ 8) <<< (8 * count) < 2 ^ width := by
  have hbyte : value % 2 ^ 8 < 2 ^ 8 := Nat.mod_lt _ (by decide)
  have hplaced : value % 2 ^ 8 * 2 ^ (8 * count) < 2 ^ (8 + 8 * count) := by
    rw [Nat.pow_add]
    exact Nat.mul_lt_mul_of_pos_right hbyte (Nat.two_pow_pos _)
  rw [Nat.shiftLeft_eq]
  apply Nat.lt_of_lt_of_le hplaced
  apply Nat.pow_le_pow_right (by decide)
  omega

/-- The first bytes of a word of 64 bits. -/
theorem toNat_assemble64 (value : UInt64) {count : Nat} (hcount : count ≤ 8) :
    ((List.range count).foldl (fun word index => word |||
      (value >>> (index * 8).toUInt64).toUInt8.toUInt64 <<< (index * 8).toUInt64) 0).toNat =
      value.toNat % 2 ^ (8 * count) := by
  induction count with
  | zero => simp [Nat.mod_one]
  | succ count ih =>
      have hplace : ((count * 8).toUInt64).toNat % 64 = 8 * count := by
        rw [Nat.toUInt64, UInt64.toNat_ofNat']
        omega
      rw [List.range_succ, List.foldl_append, List.foldl_cons, List.foldl_nil, UInt64.toNat_or,
        ih (by omega), ← or_shiftLeft_byte, UInt64.toNat_shiftLeft, UInt8.toNat_toUInt64,
        UInt64.toNat_toUInt8, UInt64.toNat_shiftRight, hplace,
        Nat.mod_eq_of_lt (shiftLeft_byte_lt _ (by omega))]

/-- The first bytes of a word of 32 bits. -/
theorem toNat_assemble32 (value : UInt32) {count : Nat} (hcount : count ≤ 4) :
    ((List.range count).foldl (fun word index => word |||
      (value >>> (index * 8).toUInt32).toUInt8.toUInt32 <<< (index * 8).toUInt32) 0).toNat =
      value.toNat % 2 ^ (8 * count) := by
  induction count with
  | zero => simp [Nat.mod_one]
  | succ count ih =>
      have hplace : ((count * 8).toUInt32).toNat % 32 = 8 * count := by
        rw [Nat.toUInt32, UInt32.toNat_ofNat']
        omega
      rw [List.range_succ, List.foldl_append, List.foldl_cons, List.foldl_nil, UInt32.toNat_or,
        ih (by omega), ← or_shiftLeft_byte, UInt32.toNat_shiftLeft, UInt8.toNat_toUInt32,
        UInt32.toNat_toUInt8, UInt32.toNat_shiftRight, hplace,
        Nat.mod_eq_of_lt (shiftLeft_byte_lt _ (by omega))]

/-- All bytes of a word of 64 bits make it whole. -/
theorem assemble64 (value : UInt64) :
    (List.range 8).foldl (fun word index => word |||
      (value >>> (index * 8).toUInt64).toUInt8.toUInt64 <<< (index * 8).toUInt64) 0 = value := by
  apply UInt64.toNat_inj.mp
  rw [toNat_assemble64 value (le_refl 8)]
  exact Nat.mod_eq_of_lt value.toNat_lt

/-- All bytes of a word of 32 bits make it whole. -/
theorem assemble32 (value : UInt32) :
    (List.range 4).foldl (fun word index => word |||
      (value >>> (index * 8).toUInt32).toUInt8.toUInt32 <<< (index * 8).toUInt32) 0 = value := by
  apply UInt32.toNat_inj.mp
  rw [toNat_assemble32 value (le_refl 4)]
  exact Nat.mod_eq_of_lt value.toNat_lt

end Binary
