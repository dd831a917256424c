/-
# Words joined by hyphens

The texts of `[letters]+(?:-[letters]+)*`. Said once as the words between the hyphens, and
once as a scan that remembers whether a letter came last; the scan is what a hand-written
loop does.
-/

import Mathlib.Data.Bool.Basic
import EspContainer.Text.Decimal

namespace Text

/-- Every word between the hyphens has letters, and nothing else. -/
def isHyphenated (letter : Nat → Bool) (hyphen : Nat) (text : List Nat) : Bool :=
  (text.splitOn hyphen).all fun word => !word.isEmpty && word.all letter

/-- The scan of such a text; the flag says that a letter came last. -/
def hyphenatedFrom (letter : Nat → Bool) (hyphen : Nat) : Bool → List Nat → Bool
  | lettered, [] => lettered
  | lettered, code :: rest =>
      if code == hyphen then lettered && hyphenatedFrom letter hyphen false rest
      else letter code && hyphenatedFrom letter hyphen true rest

variable {letter : Nat → Bool} {hyphen : Nat}

/-- After a letter the first word may have ended. -/
theorem hyphenatedFrom_eq (lettered : Bool) (text : List Nat) :
    hyphenatedFrom letter hyphen lettered text =
      ((lettered || !((text.splitOn hyphen).headD []).isEmpty) &&
        ((text.splitOn hyphen).headD []).all letter &&
        (text.splitOn hyphen).tail.all fun word => !word.isEmpty && word.all letter) := by
  induction text generalizing lettered with
  | nil => simp [hyphenatedFrom]
  | cons code rest ih =>
      obtain ⟨word, words, hwords⟩ := List.exists_cons_of_ne_nil (List.splitOn_ne_nil hyphen rest)
      rw [hyphenatedFrom, List.splitOn_cons_eq_if_modifyHead, hwords]
      cases hhyphen : code == hyphen with
      | true =>
          rw [ih, hwords]
          cases lettered <;> simp
      | false =>
          have hrest := ih true
          rw [hwords] at hrest
          cases lettered <;> simp [hrest, Bool.and_assoc]

/-- The scan reads exactly these texts. -/
theorem isHyphenated_eq_hyphenatedFrom (text : List Nat) :
    isHyphenated letter hyphen text = hyphenatedFrom letter hyphen false text := by
  obtain ⟨word, words, hwords⟩ := List.exists_cons_of_ne_nil (List.splitOn_ne_nil hyphen text)
  rw [hyphenatedFrom_eq, isHyphenated, hwords]
  simp

/-! ## Identifiers -/

/-- `[a-z0-9]`. -/
def isLowerAlphanumeric (code : Nat) : Bool := (97 ≤ code && code ≤ 122) || isDecimalDigit code

/-- `[a-z0-9]+(?:-[a-z0-9]+)*`, the whole text. -/
def isIdentifier (text : List Nat) : Bool := isHyphenated isLowerAlphanumeric 45 text

/-- A part of an identifier is of letters, digits and hyphens. -/
theorem mem_hyphenatedFrom {lettered : Bool} {text : List Nat}
    (htext : hyphenatedFrom letter hyphen lettered text = true) :
    ∀ code ∈ text, letter code = true ∨ code = hyphen := by
  induction text generalizing lettered with
  | nil => simp
  | cons code rest ih =>
      rw [hyphenatedFrom] at htext
      rw [List.forall_mem_cons]
      split at htext
      · next hcode => exact ⟨.inr (beq_iff_eq.mp hcode), ih (Bool.and_eq_true_iff.mp htext).2⟩
      · exact ⟨.inl (Bool.and_eq_true_iff.mp htext).1, ih (Bool.and_eq_true_iff.mp htext).2⟩

theorem mem_identifier {text : List Nat} (htext : isIdentifier text = true) :
    ∀ code ∈ text, isLowerAlphanumeric code = true ∨ code = 45 := by
  rw [isIdentifier, isHyphenated_eq_hyphenatedFrom] at htext
  exact mem_hyphenatedFrom htext

/-- Identifiers are ASCII texts without quotes, backslashes or control characters. -/
theorem range_of_mem_identifier {text : List Nat} (htext : isIdentifier text = true) {code : Nat}
    (hcode : code ∈ text) : 45 ≤ code ∧ code < 123 ∧ code ≠ 92 := by
  rcases mem_identifier htext code hcode with hletter | rfl
  · simp only [isLowerAlphanumeric, isDecimalDigit, Bool.or_eq_true, Bool.and_eq_true,
      decide_eq_true_eq] at hletter
    omega
  · omega

end Text
