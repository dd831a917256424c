/-
# Numbers in digits

The decimal digits of a number as code points, and the number that digits spell. The two are
inverse to each other once leading zeros are excluded, so a number has one text.
-/

import Mathlib.Algebra.Group.Nat.Defs
import Mathlib.Data.List.Induction
import Mathlib.Order.Basic
import EspContainer.Text.Codes

namespace Text

/-- `0` to `9`. -/
def isDecimalDigit (code : Nat) : Bool := 48 ≤ code && code ≤ 57

/-- Read on from a value, digit by digit. -/
def readDecimal (value : Nat) (digits : List Nat) : Nat :=
  digits.foldl (fun value digit => value * 10 + (digit - 48)) value

/-- The digits of a number. -/
def decimal (number : Nat) : List Nat := (Nat.toDigits 10 number).map Char.toNat

/-- A hexadecimal digit, in lower case. -/
def hexDigit (value : Nat) : Nat := if value < 10 then 48 + value else 87 + value

/-- Digits, and no zero before others. -/
structure IsDecimal (digits : List Nat) : Prop where
  each : ∀ digit ∈ digits, isDecimalDigit digit = true
  nonempty : digits ≠ []
  leading : digits.head? = some 48 → digits.length = 1

@[simp]
theorem readDecimal_nil (value : Nat) : readDecimal value [] = value := rfl

theorem readDecimal_cons (value digit : Nat) (digits : List Nat) :
    readDecimal value (digit :: digits) = readDecimal (value * 10 + (digit - 48)) digits := by
  rw [readDecimal, List.foldl_cons, readDecimal]

theorem readDecimal_append (value : Nat) (first second : List Nat) :
    readDecimal value (first ++ second) = readDecimal (readDecimal value first) second :=
  List.foldl_append

/-- Reading on never makes a value smaller. -/
theorem le_readDecimal (digits : List Nat) (value : Nat) : value ≤ readDecimal value digits := by
  induction digits generalizing value with
  | nil => exact Nat.le_refl value
  | cons digit digits ih =>
      rw [readDecimal_cons]
      calc
        value ≤ value * 10 + (digit - 48) := by omega
        _ ≤ readDecimal (value * 10 + (digit - 48)) digits := ih _

theorem readDecimal_eq_ofDigitChars (digits : List Char) (value : Nat) :
    readDecimal value (digits.map Char.toNat) = Nat.ofDigitChars 10 digits value := by
  induction digits generalizing value with
  | nil => rfl
  | cons digit digits ih =>
      rw [List.map_cons, readDecimal_cons, ih, Nat.ofDigitChars_cons, Nat.mul_comm 10]
      rfl

/-- A number is what its digits spell. -/
@[simp]
theorem readDecimal_decimal (number : Nat) : readDecimal 0 (decimal number) = number := by
  rw [decimal, readDecimal_eq_ofDigitChars, Nat.ofDigitChars_ten_toDigits]

theorem decimal_injective : Function.Injective decimal :=
  Function.LeftInverse.injective readDecimal_decimal

theorem decimal_of_lt {number : Nat} (hdigit : number < 10) : decimal number = [48 + number] := by
  rw [decimal, Nat.toDigits_of_lt_base hdigit, List.map_singleton,
    Nat.toNat_digitChar_of_lt_ten hdigit]

/-- The last digit of a number of several digits. -/
theorem decimal_append {number digit : Nat} (hnumber : 0 < number) (hdigit : digit < 10) :
    decimal (number * 10 + digit) = decimal number ++ [48 + digit] := by
  rw [← decimal_of_lt hdigit, decimal, decimal, decimal, ← List.map_append,
    Nat.toDigits_append_toDigits (by decide) hnumber hdigit, Nat.mul_comm]

theorem isDecimalDigit_of_mem_decimal {number digit : Nat} (hmem : digit ∈ decimal number) :
    isDecimalDigit digit = true := by
  obtain ⟨character, hcharacter, rfl⟩ := List.mem_map.mp hmem
  have hdigit := Nat.isDigit_of_mem_toDigits (by decide) (by decide) hcharacter
  simp only [Char.isDigit, Bool.and_eq_true, decide_eq_true_eq] at hdigit
  rw [isDecimalDigit, Bool.and_eq_true, decide_eq_true_eq, decide_eq_true_eq]
  exact ⟨hdigit.1, hdigit.2⟩

theorem decimal_ne_nil (number : Nat) : decimal number ≠ [] := by
  rw [decimal]
  simp

theorem length_decimal_le {number count : Nat} (hcount : 0 < count) (hnumber : number < 10 ^ count) :
    (decimal number).length ≤ count := by
  rw [decimal, List.length_map]
  exact (Nat.length_toDigits_le_iff (by decide) hcount).mpr hnumber

namespace IsDecimal

theorem of_digit {digit : Nat} (hdigit : isDecimalDigit digit = true) : IsDecimal [digit] where
  each other hmem := by rwa [List.mem_singleton.mp hmem]
  nonempty := List.cons_ne_nil _ _
  leading _ := rfl

/-- More digits behind a first one are digits behind a positive number. -/
theorem pos_of_append {digits : List Nat} {digit : Nat} (hdecimal : IsDecimal (digits ++ [digit]))
    (hdigits : digits ≠ []) : IsDecimal digits ∧ 0 < readDecimal 0 digits := by
  obtain ⟨first, rest, rfl⟩ := List.exists_cons_of_ne_nil hdigits
  have hfirst : first ≠ 48 := by
    rintro rfl
    have hlength := hdecimal.leading rfl
    simp at hlength
  have hdigit : isDecimalDigit first = true := hdecimal.each first (by simp)
  refine ⟨⟨fun other hother => hdecimal.each other (List.mem_append_left _ hother), hdigits,
    fun hhead => absurd (Option.some.inj hhead) hfirst⟩, ?_⟩
  simp only [isDecimalDigit, Bool.and_eq_true, decide_eq_true_eq] at hdigit
  calc
    0 < 0 * 10 + (first - 48) := by omega
    _ ≤ readDecimal (0 * 10 + (first - 48)) rest := le_readDecimal rest _
    _ = readDecimal 0 (first :: rest) := (readDecimal_cons 0 first rest).symm

/-- Digits without leading zeros are the text of the number they spell. -/
theorem eq_decimal {digits : List Nat} (hdecimal : IsDecimal digits) :
    digits = decimal (readDecimal 0 digits) := by
  induction digits using List.reverseRecOn with
  | nil => exact absurd rfl hdecimal.nonempty
  | append_singleton digits digit ih =>
      have hdigit : isDecimalDigit digit = true := hdecimal.each digit (by simp)
      simp only [isDecimalDigit, Bool.and_eq_true, decide_eq_true_eq] at hdigit
      rcases eq_or_ne digits [] with rfl | hdigits
      · rw [List.nil_append, readDecimal_cons, readDecimal_nil, decimal_of_lt (by omega)]
        congr 1
        omega
      · obtain ⟨hbefore, hpos⟩ := hdecimal.pos_of_append hdigits
        rw [readDecimal_append, readDecimal_cons, readDecimal_nil,
          decimal_append hpos (by omega), ← ih hbefore]
        congr 2
        omega

end IsDecimal

/-- No number but zero begins with a zero. -/
theorem isDecimal_decimal (number : Nat) : IsDecimal (decimal number) := by
  refine ⟨fun _ => isDecimalDigit_of_mem_decimal, decimal_ne_nil number, ?_⟩
  induction number using Nat.strongRecOn with
  | ind number ih =>
      rcases Nat.lt_or_ge number 10 with hnumber | hnumber
      · rw [decimal_of_lt hnumber]
        exact fun _ => rfl
      · have hsplit : decimal number = decimal (number / 10) ++ [48 + number % 10] := by
          rw [← decimal_append (by omega) (Nat.mod_lt _ (by decide)), Nat.div_add_mod']
        obtain ⟨first, rest, hrest⟩ := List.exists_cons_of_ne_nil (decimal_ne_nil (number / 10))
        have hlength := ih (number / 10) (by omega)
        rw [hsplit, hrest]
        rw [hrest] at hlength
        intro hhead
        -- The digits before the last one would be a single zero.
        obtain rfl : first = 48 := Option.some.inj hhead
        obtain rfl : rest = [] := List.length_eq_zero_iff.mp (Nat.succ.inj (hlength rfl))
        have hzero := congrArg (readDecimal 0) hrest
        rw [readDecimal_decimal] at hzero
        change number / 10 = 0 at hzero
        omega

end Text
