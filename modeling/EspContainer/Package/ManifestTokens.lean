/-
# The tokens of a manifest

The languages of the manifest scanner's tokens: numbers, identifiers and digests. A
number is read as far as there are digits, so what follows it matters.
-/

import EspContainer.Package.Manifest
import EspContainer.Text.Decimal
import EspContainer.Text.Words

namespace Package

open Binary Text

/-- Code points below 256 as bytes. -/
def encoded (text : List Nat) : List UInt8 := text.map UInt8.ofNat

@[simp]
theorem encoded_nil : encoded [] = [] := rfl

@[simp]
theorem encoded_append (first second : List Nat) :
    encoded (first ++ second) = encoded first ++ encoded second := List.map_append

@[simp]
theorem length_encoded (text : List Nat) : (encoded text).length = text.length := List.length_map _

theorem ascii_eq_encoded (text : String) : ascii text = encoded (codes text) := by
  rw [ascii, encoded, codes, List.map_map]
  rfl

@[simp]
theorem encoded_toNat (bytes : List UInt8) : encoded (bytes.map UInt8.toNat) = bytes := by
  rw [encoded, List.map_map]
  conv_rhs => rw [← List.map_id bytes]
  exact List.map_congr_left fun byte _ => UInt8.ofNat_toNat

theorem toNat_encoded {text : List Nat} (hbytes : ∀ code ∈ text, code < 256) :
    (encoded text).map UInt8.toNat = text := by
  rw [encoded, List.map_map]
  conv_rhs => rw [← List.map_id text]
  exact List.map_congr_left fun code hcode => UInt8.toNat_ofNat_of_lt' (hbytes code hcode)

/-! ## Numbers -/

theorem isDigit_eq (byte : UInt8) : isDigit byte = isDecimalDigit byte.toNat := by
  simp only [isDigit, isDecimalDigit, UInt8.le_iff_toNat_le]
  rfl

/-- The next byte, if there is one, is no digit. -/
def DigitsEnd (rest : List UInt8) : Prop := ∀ byte ∈ rest.head?, isDigit byte = false

theorem digitsEnd_nil : DigitsEnd [] := by
  rintro byte ⟨⟩

theorem digitsEnd_cons {byte : UInt8} {rest : List UInt8} :
    DigitsEnd (byte :: rest) ↔ isDigit byte = false := by
  simp [DigitsEnd]

/-- A digit is read if the number stays within its bounds, the bounds being those of the
whole number. -/
theorem digitBounds {value digits : Nat} {byte : UInt8} {text : List UInt8}
    (hbounds : readDecimal value ((byte :: text).map UInt8.toNat) ≤ uint32Max ∧
      digits + (byte :: text).length ≤ 10) :
    ¬ (digits + 1 > 10 || value * 10 + digitValue byte > uint32Max) = true := by
  rw [List.map_cons, readDecimal_cons, List.length_cons] at hbounds
  have hvalue := le_readDecimal (text.map UInt8.toNat) (value * 10 + (byte.toNat - 48))
  rw [Bool.or_eq_true, decide_eq_true_eq, decide_eq_true_eq, digitValue]
  rintro (hdigits | hexceeds)
  · omega
  · exact absurd (hvalue.trans hbounds.1) (Nat.not_le_of_gt hexceeds)

/-- The digit loop reads all digits there are; the value and the number of digits stay
within bounds from the first digit on. -/
theorem jsonDigits_eq_some {value digits position : Nat} {input : List UInt8} {read : Nat × Nat}
    {behind : Nat} {rest : List UInt8} :
    jsonDigits value digits position input = some (read, ⟨behind, rest⟩) ↔
      ∃ text, input = text ++ rest ∧ behind = position + text.length ∧
        (∀ byte ∈ text, isDigit byte = true) ∧ DigitsEnd rest ∧
        read = (readDecimal value (text.map UInt8.toNat), digits + text.length) ∧
        (text ≠ [] → read.1 ≤ uint32Max ∧ read.2 ≤ 10) := by
  induction input generalizing value digits position with
  | nil =>
      rw [jsonDigits, Option.some.injEq, Prod.mk.injEq, Cursor.mk.injEq]
      constructor
      · rintro ⟨rfl, rfl, rfl⟩
        exact ⟨[], rfl, rfl, by simp, digitsEnd_nil, rfl, absurd rfl⟩
      · rintro ⟨text, hsplit, rfl, -, -, rfl, -⟩
        obtain ⟨rfl, rfl⟩ := List.append_eq_nil_iff.mp hsplit.symm
        exact ⟨rfl, rfl, rfl⟩
  | cons byte input ih =>
      rw [jsonDigits]
      cases hdigit : isDigit byte with
      | false =>
          rw [if_neg (by simp), Option.some.injEq, Prod.mk.injEq, Cursor.mk.injEq]
          constructor
          · rintro ⟨rfl, rfl, rfl⟩
            exact ⟨[], rfl, rfl, by simp, digitsEnd_cons.mpr hdigit, rfl, absurd rfl⟩
          · rintro ⟨text, hsplit, rfl, htext, -, rfl, -⟩
            cases text with
            | nil => exact ⟨rfl, rfl, hsplit⟩
            | cons first text =>
                obtain ⟨rfl, -⟩ := List.cons.inj hsplit
                rw [htext byte List.mem_cons_self] at hdigit
                cases hdigit
      | true =>
          rw [if_pos rfl]
          split
          · next hexceeds =>
            constructor
            · rintro ⟨⟩
            · rintro ⟨text, hsplit, -, -, hend, rfl, hbounds⟩
              cases text with
              | nil =>
                  rw [List.nil_append] at hsplit
                  rw [← hsplit, digitsEnd_cons, hdigit] at hend
                  cases hend
              | cons first text =>
                  obtain ⟨rfl, -⟩ := List.cons.inj hsplit
                  exact absurd hexceeds (digitBounds (hbounds (List.cons_ne_nil _ _)))
          · next hwithin =>
            simp only [Bool.or_eq_true, decide_eq_true_eq, not_or, Nat.not_lt] at hwithin
            rw [ih]
            constructor
            · rintro ⟨text, rfl, rfl, htext, hend, rfl, hbounds⟩
              refine ⟨byte :: text, rfl, by rw [List.length_cons]; omega, ?_, hend, ?_, fun _ => ?_⟩
              · rw [List.forall_mem_cons]
                exact ⟨hdigit, htext⟩
              · rw [List.map_cons, readDecimal_cons, List.length_cons, digitValue,
                  Nat.add_assoc digits, Nat.add_comm 1]
              · rcases eq_or_ne text [] with rfl | htext
                · exact ⟨hwithin.2, hwithin.1⟩
                · exact hbounds htext
            · rintro ⟨text, hsplit, rfl, htext, hend, rfl, hbounds⟩
              cases text with
              | nil =>
                  rw [List.nil_append] at hsplit
                  rw [← hsplit, digitsEnd_cons, hdigit] at hend
                  cases hend
              | cons first text =>
                  obtain ⟨rfl, hrest⟩ := List.cons.inj hsplit
                  rw [List.forall_mem_cons] at htext
                  refine ⟨text, hrest, by rw [List.length_cons]; omega, htext.2, hend, ?_,
                    fun _ => hbounds (List.cons_ne_nil _ _)⟩
                  rw [List.map_cons, readDecimal_cons, List.length_cons, digitValue,
                    Nat.add_assoc digits, Nat.add_comm 1]

theorem lt_of_mem_decimal {number code : Nat} (hmem : code ∈ decimal number) : code < 256 := by
  have hdigit := isDecimalDigit_of_mem_decimal hmem
  rw [isDecimalDigit, Bool.and_eq_true, decide_eq_true_eq, decide_eq_true_eq] at hdigit
  omega

theorem toNat_encoded_decimal (number : Nat) :
    (encoded (decimal number)).map UInt8.toNat = decimal number :=
  toNat_encoded fun _ => lt_of_mem_decimal

theorem isDigit_of_mem_encoded_decimal {number : Nat} {byte : UInt8}
    (hmem : byte ∈ encoded (decimal number)) : isDigit byte = true := by
  rw [isDigit_eq]
  have hcode : byte.toNat ∈ decimal number := by
    rw [← toNat_encoded_decimal]
    exact List.mem_map_of_mem hmem
  exact isDecimalDigit_of_mem_decimal hcode

/-- Bytes are the digits of a number as the scanner wants them. -/
theorem isDecimal_iff {text : List UInt8} :
    IsDecimal (text.map UInt8.toNat) ↔
      (∀ byte ∈ text, isDigit byte = true) ∧ text ≠ [] ∧
        (text.head? = some 48 → text.length = 1) := by
  have hhead : (text.map UInt8.toNat).head? = some 48 ↔ text.head? = some 48 := by
    rw [List.head?_map, Option.map_eq_some_iff]
    constructor
    · rintro ⟨byte, hbyte, hcode⟩
      rw [hbyte, UInt8.toNat_inj.mp (hcode.trans (by decide : 48 = (48 : UInt8).toNat))]
    · exact fun hbyte => ⟨48, hbyte, rfl⟩
  constructor
  · rintro ⟨heach, hnonempty, hleading⟩
    refine ⟨fun byte hbyte => ?_, by simpa using hnonempty, fun hzero => ?_⟩
    · rw [isDigit_eq]
      exact heach _ (List.mem_map_of_mem hbyte)
    · simpa using hleading (hhead.mpr hzero)
  · rintro ⟨heach, hnonempty, hleading⟩
    refine ⟨fun code hcode => ?_, by simpa using hnonempty, fun hzero => ?_⟩
    · obtain ⟨byte, hbyte, rfl⟩ := List.mem_map.mp hcode
      rw [← isDigit_eq]
      exact heach byte hbyte
    · simpa using hleading (hhead.mp hzero)

/-- What `json_uint32` looks at once the digits are read. -/
theorem jsonUint32_checked {allowZero : Bool} {text rest : List UInt8} {value : Nat} :
    (text.length == 0 || ((text ++ rest).head? == some 48 && text.length != 1) ||
        (!allowZero && value == 0)) = false ↔
      text ≠ [] ∧ (text.head? = some 48 → text.length = 1) ∧ (allowZero = false → value ≠ 0) := by
  cases text with
  | nil => simp
  | cons byte text =>
      cases allowZero <;> by_cases hzero : byte = 48 <;> simp [hzero]

theorem recognizes_jsonUint32 (allowZero : Bool) :
    Recognizes (jsonUint32 allowZero) fun _ text rest number =>
      text = encoded (decimal number.toNat) ∧ DigitsEnd rest ∧ (allowZero = false → number ≠ 0) := by
  intro start input number behind rest
  rw [jsonUint32]
  constructor
  · intro hread
    cases hdigits : jsonDigits 0 0 start input with
    | none => simp [hdigits] at hread
    | some found =>
        obtain ⟨⟨value, digits⟩, ⟨position, remaining⟩⟩ := found
        obtain ⟨text, rfl, rfl, htext, hend, hvalue, hbounds⟩ := jsonDigits_eq_some.mp hdigits
        obtain ⟨rfl, rfl⟩ := Prod.mk.inj hvalue
        simp only [hdigits, Nat.zero_add, Option.ite_none_left_eq_some, Bool.not_eq_true,
          jsonUint32_checked, Option.some.injEq, Prod.mk.injEq, Cursor.mk.injEq] at hread
        obtain ⟨⟨hnonempty, hleading, hzero⟩, rfl, rfl, rfl⟩ := hread
        have hsmall := (hbounds hnonempty).1
        have hnumber : (UInt32.ofNat (readDecimal 0 (text.map UInt8.toNat))).toNat =
            readDecimal 0 (text.map UInt8.toNat) :=
          UInt32.toNat_ofNat_of_lt' (Nat.lt_succ_of_le hsmall)
        have hdecimal := (isDecimal_iff.mpr ⟨htext, hnonempty, hleading⟩).eq_decimal
        refine ⟨text, rfl, rfl, ?_, hend, fun hallow hnone => hzero hallow ?_⟩
        · rw [hnumber, ← hdecimal, encoded_toNat]
        · rw [← hnumber, hnone]
          rfl
  · rintro ⟨text, rfl, rfl, rfl, hend, hzero⟩
    have hdecimal : IsDecimal ((encoded (decimal number.toNat)).map UInt8.toNat) := by
      rw [toNat_encoded_decimal]
      exact isDecimal_decimal _
    obtain ⟨htext, hnonempty, hleading⟩ := isDecimal_iff.mp hdecimal
    have hsmall : number.toNat ≤ uint32Max := Nat.le_of_lt_succ number.toNat_lt
    have hdigits := (@jsonDigits_eq_some 0 0 start _ _ _ rest).mpr
      ⟨_, rfl, rfl, htext, hend, rfl, fun _ => ⟨?_, ?_⟩⟩
    · simp only [hdigits, Nat.zero_add, Option.ite_none_left_eq_some, Bool.not_eq_true,
        jsonUint32_checked, toNat_encoded_decimal, readDecimal_decimal, UInt32.ofNat_toNat, and_true]
      refine ⟨hnonempty, hleading, fun hallow hnone => hzero hallow ?_⟩
      exact UInt32.toNat_inj.mp hnone
    · simpa [toNat_encoded_decimal] using hsmall
    · simp only [Nat.zero_add, length_encoded]
      exact length_decimal_le (by decide) (hsmall.trans_lt (by decide))

/-! ## Identifiers -/

theorem isAlphanumeric_eq (byte : UInt8) : isAlphanumeric byte = isLowerAlphanumeric byte.toNat := by
  rw [isAlphanumeric, isLowerAlphanumeric, isDigit_eq]
  simp only [UInt8.le_iff_toNat_le]
  rfl

theorem isHyphen_eq (byte : UInt8) : (byte == 45) = (byte.toNat == 45) := by
  rw [Bool.eq_iff_iff, beq_iff_eq, beq_iff_eq]
  exact UInt8.toNat_inj.symm

/-- A letter or a digit was read last. -/
def lettered (taken : List UInt8) : Bool := !(taken.isEmpty || taken.head? == some 45)

/-- The next byte, if there is one, is not of an identifier. -/
def IdentifierEnds (rest : List UInt8) : Prop :=
  ∀ byte ∈ rest.head?, (isAlphanumeric byte || byte == 45) = false

theorem identifierEnds_cons {byte : UInt8} {rest : List UInt8} :
    IdentifierEnds (byte :: rest) ↔ (isAlphanumeric byte || byte == 45) = false := by
  simp [IdentifierEnds]

theorem hyphenatedFrom_cons (begun : Bool) (byte : UInt8) (text : List UInt8) :
    hyphenatedFrom isLowerAlphanumeric 45 begun ((byte :: text).map UInt8.toNat) =
      if byte == 45 then begun && hyphenatedFrom isLowerAlphanumeric 45 false (text.map UInt8.toNat)
      else isAlphanumeric byte && hyphenatedFrom isLowerAlphanumeric 45 true (text.map UInt8.toNat) := by
  rw [List.map_cons, hyphenatedFrom, isAlphanumeric_eq, isHyphen_eq]

/-- The identifier loop reads as far as it can and comes to a proper end exactly if the bytes
it read continue an identifier. -/
theorem jsonIdentifierLoop_eq_some {taken : List UInt8} {position : Nat} {input : List UInt8}
    {read : List UInt8} {behind : Nat} {rest : List UInt8} :
    jsonIdentifierLoop taken position input = some (read, ⟨behind, rest⟩) ∧ lettered read = true ↔
      ∃ text, input = text ++ rest ∧ behind = position + text.length ∧
        hyphenatedFrom isLowerAlphanumeric 45 (lettered taken) (text.map UInt8.toNat) = true ∧
        IdentifierEnds rest ∧ read = text.reverse ++ taken := by
  induction input generalizing taken position with
  | nil =>
      rw [jsonIdentifierLoop, Option.some.injEq, Prod.mk.injEq, Cursor.mk.injEq]
      constructor
      · rintro ⟨⟨rfl, rfl, rfl⟩, hlettered⟩
        exact ⟨[], rfl, rfl, hlettered, by simp [IdentifierEnds], rfl⟩
      · rintro ⟨text, hsplit, rfl, htext, -, rfl⟩
        obtain ⟨rfl, rfl⟩ := List.append_eq_nil_iff.mp hsplit.symm
        exact ⟨⟨rfl, rfl, rfl⟩, htext⟩
  | cons byte input ih =>
      rw [jsonIdentifierLoop]
      split
      · next hother =>
        have hends : (isAlphanumeric byte || byte == 45) = false := by
          simpa [bne_iff_ne] using hother
        rw [Option.some.injEq, Prod.mk.injEq, Cursor.mk.injEq]
        constructor
        · rintro ⟨⟨rfl, rfl, rfl⟩, hlettered⟩
          exact ⟨[], rfl, rfl, hlettered, identifierEnds_cons.mpr hends, rfl⟩
        · rintro ⟨text, hsplit, rfl, htext, -, rfl⟩
          cases text with
          | nil => exact ⟨⟨rfl, rfl, hsplit⟩, htext⟩
          | cons first text =>
              obtain ⟨rfl, -⟩ := List.cons.inj hsplit
              rw [Bool.or_eq_false_iff] at hends
              rw [hyphenatedFrom_cons, hends.1, hends.2] at htext
              cases htext
      · next hpart =>
        -- The byte is read, unless it is a hyphen out of place; an empty text would have
        -- stopped before it.
        have hsome (text : List UInt8) (hsplit : byte :: input = text ++ rest)
            (hends : IdentifierEnds rest) : ∃ others, text = byte :: others ∧ input = others ++ rest := by
          cases text with
          | nil =>
              rw [List.nil_append] at hsplit
              rw [← hsplit, identifierEnds_cons] at hends
              simp [Bool.or_eq_false_iff.mp hends, bne] at hpart
          | cons first others =>
              obtain ⟨rfl, hrest⟩ := List.cons.inj hsplit
              exact ⟨others, rfl, hrest⟩
        split
        · next hmisplaced =>
          constructor
          · rintro ⟨⟨⟩, -⟩
          · rintro ⟨text, hsplit, -, htext, hends, -⟩
            obtain ⟨others, rfl, -⟩ := hsome text hsplit hends
            obtain ⟨hhyphen, hunlettered⟩ := Bool.and_eq_true_iff.mp hmisplaced
            rw [hyphenatedFrom_cons, if_pos hhyphen, lettered, hunlettered] at htext
            cases htext
        · next hplaced =>
          have hbegun (text : List UInt8) :
              hyphenatedFrom isLowerAlphanumeric 45 (lettered taken) ((byte :: text).map UInt8.toNat) =
                hyphenatedFrom isLowerAlphanumeric 45 (lettered (byte :: taken))
                  (text.map UInt8.toNat) := by
            rw [hyphenatedFrom_cons]
            cases hhyphen : byte == 45 with
            | true =>
                obtain rfl := beq_iff_eq.mp hhyphen
                have hlettered : lettered taken = true := by
                  simpa [lettered] using hplaced
                rw [hlettered]
                rfl
            | false =>
                have hletter : isAlphanumeric byte = true := by
                  simpa [hhyphen, bne] using hpart
                have hlettered : lettered (byte :: taken) = true := by
                  simpa [lettered] using hhyphen
                rw [hletter, hlettered]
                rfl
          rw [ih]
          constructor
          · rintro ⟨text, rfl, rfl, htext, hends, rfl⟩
            refine ⟨byte :: text, rfl, by rw [List.length_cons]; omega, ?_, hends, by simp⟩
            rw [hbegun]
            exact htext
          · rintro ⟨text, hsplit, rfl, htext, hends, rfl⟩
            obtain ⟨others, rfl, hrest⟩ := hsome text hsplit hends
            rw [hbegun] at htext
            exact ⟨others, hrest, by rw [List.length_cons]; omega, htext, hends, by simp⟩

theorem recognizes_jsonIdentifierBytes :
    Recognizes jsonIdentifierBytes fun _ text rest bytes =>
      text = bytes ∧ isIdentifier (bytes.map UInt8.toNat) = true ∧ IdentifierEnds rest := by
  intro start input bytes behind rest
  have hloop := fun read => @jsonIdentifierLoop_eq_some [] start input read behind rest
  simp only [isIdentifier, isHyphenated_eq_hyphenatedFrom]
  rw [jsonIdentifierBytes]
  constructor
  · intro hread
    cases htaken : jsonIdentifierLoop [] start input with
    | none => simp [htaken] at hread
    | some found =>
        obtain ⟨taken, ⟨position, remaining⟩⟩ := found
        simp only [htaken, Option.ite_none_left_eq_some, Bool.not_eq_true, Option.some.injEq,
          Prod.mk.injEq, Cursor.mk.injEq] at hread
        obtain ⟨hlettered, rfl, rfl, rfl⟩ := hread
        obtain ⟨text, hinput, hbehind, htext, hends, rfl⟩ :=
          (hloop taken).mp ⟨htaken, by rw [lettered, hlettered]; rfl⟩
        simp only [List.append_nil, List.reverse_reverse]
        exact ⟨text, hinput, hbehind, rfl, htext, hends⟩
  · rintro ⟨text, rfl, rfl, rfl, htext, hends⟩
    obtain ⟨htaken, hlettered⟩ := (hloop text.reverse).mpr ⟨text, rfl, rfl, htext, hends, by simp⟩
    rw [lettered, Bool.not_eq_true'] at hlettered
    simp only [htaken, hlettered, List.reverse_reverse, Bool.false_eq_true, if_false]

theorem identifierEnds_quote (rest : List UInt8) : IdentifierEnds (ascii "\"" ++ rest) := by
  rw [show ascii "\"" ++ rest = 34 :: rest from rfl, identifierEnds_cons]
  decide

theorem recognizes_jsonIdentifier :
    Recognizes jsonIdentifier fun start text _ identifier =>
      text = ascii "\"" ++ (identifier.bytes ++ ascii "\"") ∧
        isIdentifier (identifier.bytes.map UInt8.toNat) = true ∧
        identifier.offsetBytes = start + 1 := by
  refine (Recognizes.literal_bind (Recognizes.position.bind fun offset =>
    recognizes_jsonIdentifierBytes.bind fun bytes => Recognizes.literal_bind
      (Recognizes.pure (Identifier.mk offset bytes)))).congr fun start text rest identifier => ?_
  constructor
  · rintro ⟨_, rfl, _, _, offset, rfl, ⟨rfl, rfl⟩, bytes, _, _, rfl, ⟨rfl, htext, -⟩, _, rfl, rfl, rfl⟩
    exact ⟨by simp, htext, rfl⟩
  · rintro ⟨rfl, htext, hoffset⟩
    refine ⟨_, rfl, [], _, start + 1, rfl, ⟨rfl, rfl⟩, identifier.bytes, _, identifier.bytes, rfl,
      ⟨rfl, htext, ?_⟩, [], by simp, rfl, ?_⟩
    · exact identifierEnds_quote rest
    · rw [← hoffset]

/-! ## Digests -/

/-- Two digits for each byte, as `hexdigest` writes them. -/
def hexText (octets : List UInt8) : List Nat :=
  octets.flatMap fun octet => [hexDigit (octet.toNat / 16), hexDigit (octet.toNat % 16)]

/-- Every byte that has a value is the digit of it. -/
theorem hexDigit_hexValue : ∀ code < 256, (hexValue (UInt8.ofNat code)).all fun value =>
    UInt8.ofNat code == UInt8.ofNat (hexDigit value.toNat) && decide (value.toNat < 16) := by
  decide +kernel

theorem hexValue_hexDigit :
    ∀ value < 16, hexValue (UInt8.ofNat (hexDigit value)) = some (UInt8.ofNat value) := by
  decide

theorem hexValue_eq_some {byte value : UInt8} :
    hexValue byte = some value ↔ byte = UInt8.ofNat (hexDigit value.toNat) ∧ value.toNat < 16 := by
  constructor
  · intro hvalue
    have hdigit := hexDigit_hexValue byte.toNat byte.toNat_lt
    rw [UInt8.ofNat_toNat, hvalue, Option.all_some, Bool.and_eq_true, beq_iff_eq,
      decide_eq_true_eq] at hdigit
    exact hdigit
  · rintro ⟨rfl, hvalue⟩
    rw [hexValue_hexDigit _ hvalue, UInt8.ofNat_toNat]

theorem toNat_hexOctet : ∀ high < 16, ∀ low < 16,
    (UInt8.ofNat high <<< 4 ||| UInt8.ofNat low).toNat = high * 16 + low := by
  decide +kernel

/-- Two digits are one byte. -/
theorem hexOctet {high low octet : UInt8} (hhigh : high.toNat < 16) (hlow : low.toNat < 16) :
    (high <<< 4 ||| low) = octet ↔ high.toNat = octet.toNat / 16 ∧ low.toNat = octet.toNat % 16 := by
  have hoctet := toNat_hexOctet high.toNat hhigh low.toNat hlow
  rw [UInt8.ofNat_toNat, UInt8.ofNat_toNat] at hoctet
  rw [← UInt8.toNat_inj, hoctet]
  omega

theorem hexText_cons (octet : UInt8) (octets : List UInt8) :
    encoded (hexText (octet :: octets)) = UInt8.ofNat (hexDigit (octet.toNat / 16)) ::
      UInt8.ofNat (hexDigit (octet.toNat % 16)) :: encoded (hexText octets) := by
  rw [hexText, List.flatMap_cons, encoded_append]
  rfl

theorem length_hexText (octets : List UInt8) : (hexText octets).length = 2 * octets.length := by
  induction octets with
  | nil => rfl
  | cons octet octets ih =>
      rw [hexText, List.flatMap_cons, List.length_append, ← hexText, ih]
      simp only [List.length_cons, List.length_nil]
      omega

theorem jsonHex_eq_some {count : Nat} {input octets rest : List UInt8} :
    jsonHex count input = some (octets, rest) ↔
      octets.length = count ∧ input = encoded (hexText octets) ++ rest := by
  induction count generalizing input octets with
  | zero =>
      rw [jsonHex, Option.some.injEq, Prod.mk.injEq]
      constructor
      · rintro ⟨rfl, rfl⟩
        exact ⟨rfl, rfl⟩
      · rintro ⟨hlength, rfl⟩
        rw [List.length_eq_zero_iff] at hlength
        exact ⟨hlength.symm, by rw [hlength]; rfl⟩
  | succ count ih =>
      constructor
      · intro hread
        cases input with
        | nil => simp [jsonHex] at hread
        | cons high input =>
            cases input with
            | nil => simp [jsonHex] at hread
            | cons low input =>
                simp only [jsonHex, Option.bind_eq_bind, Option.bind_eq_some_iff,
                  Option.pure_def, Option.some.injEq, Prod.mk.injEq, Prod.exists] at hread
                obtain ⟨first, hfirst, second, hsecond, others, _, hothers, rfl, rfl⟩ := hread
                obtain ⟨rfl, hhigh⟩ := hexValue_eq_some.mp hfirst
                obtain ⟨rfl, hlow⟩ := hexValue_eq_some.mp hsecond
                obtain ⟨hlength, rfl⟩ := ih.mp hothers
                obtain ⟨hnibble, hother⟩ := (hexOctet hhigh hlow).mp rfl
                refine ⟨by rw [List.length_cons, hlength], ?_⟩
                rw [hexText_cons, ← hnibble, ← hother]
                rfl
      · rintro ⟨hlength, rfl⟩
        obtain ⟨octet, octets, rfl⟩ := List.exists_cons_of_length_eq_add_one hlength
        have hhigh : octet.toNat / 16 < 16 := by
          have := octet.toNat_lt
          omega
        have hlow : octet.toNat % 16 < 16 := Nat.mod_lt _ (by decide)
        have hothers := ih.mpr ⟨Nat.succ.inj hlength, rfl⟩
        rw [hexText_cons, List.cons_append, List.cons_append, jsonHex, hexValue_hexDigit _ hhigh,
          hexValue_hexDigit _ hlow, hothers]
        simp only [Option.bind_eq_bind, Option.bind_some, Option.pure_def, Option.some.injEq,
          Prod.mk.injEq, List.cons.injEq, and_true]
        apply UInt8.toNat_inj.mp
        rw [toNat_hexOctet _ hhigh _ hlow]
        omega

theorem recognizes_jsonSha256Digits :
    Recognizes jsonSha256Digits fun _ text rest digest =>
      text = encoded (hexText digest.toList) ∧ rest ≠ [] := by
  intro start input digest behind rest
  rw [jsonSha256Digits]
  constructor
  · intro hread
    rw [Option.ite_none_left_eq_some] at hread
    obtain ⟨hlong, hread⟩ := hread
    cases hhex : jsonHex 32 input with
    | none => simp [hhex] at hread
    | some found =>
        obtain ⟨octets, remaining⟩ := found
        simp only [hhex, Option.some.injEq, Prod.mk.injEq, Cursor.mk.injEq] at hread
        obtain ⟨rfl, rfl, rfl⟩ := hread
        obtain ⟨hlength, rfl⟩ := jsonHex_eq_some.mp hhex
        rw [bytesAt_eq_of_length hlength]
        refine ⟨_, rfl, ?_, rfl, ?_⟩
        · rw [length_encoded, length_hexText, hlength]
        · rintro rfl
          simp [length_hexText, hlength] at hlong
  · rintro ⟨text, rfl, rfl, rfl, hrest⟩
    have hhex := (@jsonHex_eq_some 32 _ _ rest).mpr ⟨digest.length_toList, rfl⟩
    have hlong : ¬ (encoded (hexText digest.toList) ++ rest).length < 65 := by
      have := List.length_pos_iff.mpr hrest
      rw [List.length_append, length_encoded, length_hexText, digest.length_toList]
      omega
    rw [if_neg hlong]
    simp [hhex, length_hexText]

theorem recognizes_jsonSha256 :
    Recognizes jsonSha256 fun _ text _ digest =>
      text = ascii "\"" ++ (encoded (hexText digest.toList) ++ ascii "\"") := by
  refine (Recognizes.literal_bind (recognizes_jsonSha256Digits.bind fun digest =>
    Recognizes.literal_bind (Recognizes.pure digest))).congr fun start text rest digest => ?_
  constructor
  · rintro ⟨_, rfl, _, _, found, rfl, ⟨rfl, -⟩, _, rfl, rfl, rfl⟩
    simp
  · rintro rfl
    exact ⟨_, rfl, _, _, digest, rfl, ⟨rfl, by simp [ascii]⟩, [], by simp, rfl, rfl⟩

theorem hexDigit_injective : ∀ first < 16, ∀ second < 16, hexDigit first = hexDigit second →
    first = second := by
  decide

/-- The digits of octets determine them. -/
theorem hexText_injective {first second : List UInt8} (hsame : hexText first = hexText second) :
    first = second := by
  induction first generalizing second with
  | nil =>
      cases second with
      | nil => rfl
      | cons octet octets => cases hsame
  | cons octet octets ih =>
      cases second with
      | nil => cases hsame
      | cons other others =>
          have hoctet := octet.toNat_lt
          have hother := other.toNat_lt
          rw [hexText, hexText, List.flatMap_cons, List.flatMap_cons] at hsame
          obtain ⟨hhigh, hsame⟩ := List.cons.inj hsame
          obtain ⟨hlow, hsame⟩ := List.cons.inj hsame
          have hupper := hexDigit_injective _ (by omega) _ (by omega) hhigh
          have hlower := hexDigit_injective _ (by omega) _ (by omega) hlow
          rw [ih hsame, UInt8.toNat_inj.mp (show octet.toNat = other.toNat by omega)]

theorem exists_hexDigit {code : Nat} (hcode : (isDecimalDigit code || (97 ≤ code && code ≤ 102)) = true) :
    ∃ value < 16, hexDigit value = code := by
  simp only [isDecimalDigit, Bool.or_eq_true, Bool.and_eq_true, decide_eq_true_eq] at hcode
  rcases hcode with hcode | hcode
  · exact ⟨code - 48, by omega, by rw [hexDigit, if_pos (by omega)]; omega⟩
  · exact ⟨code - 87, by omega, by rw [hexDigit, if_neg (by omega)]; omega⟩

/-- Pairs of digits are the digits of octets. -/
theorem exists_hexText {count : Nat} {text : List Nat} (hlength : text.length = 2 * count)
    (htext : ∀ code ∈ text, (isDecimalDigit code || (97 ≤ code && code ≤ 102)) = true) :
    ∃ octets : List UInt8, octets.length = count ∧ hexText octets = text := by
  induction count generalizing text with
  | zero => exact ⟨[], rfl, (List.length_eq_zero_iff.mp hlength).symm⟩
  | succ count ih =>
      obtain ⟨high, low, rest, rfl⟩ : ∃ high low rest, text = high :: low :: rest := by
        cases text with
        | nil => cases hlength
        | cons high text =>
            cases text with
            | nil =>
                rw [List.length_singleton] at hlength
                omega
            | cons low rest => exact ⟨high, low, rest, rfl⟩
      rw [List.forall_mem_cons, List.forall_mem_cons] at htext
      obtain ⟨upper, hupper, rfl⟩ := exists_hexDigit htext.1
      obtain ⟨lower, hlower, rfl⟩ := exists_hexDigit htext.2.1
      simp only [List.length_cons] at hlength
      obtain ⟨octets, hcount, rfl⟩ := ih (by omega) htext.2.2
      refine ⟨UInt8.ofNat (upper * 16 + lower) :: octets, by rw [List.length_cons, hcount], ?_⟩
      have hvalue : (UInt8.ofNat (upper * 16 + lower)).toNat = upper * 16 + lower :=
        UInt8.toNat_ofNat_of_lt' (by rw [UInt8.size]; omega)
      rw [hexText, List.flatMap_cons, hvalue, show (upper * 16 + lower) / 16 = upper by omega,
        show (upper * 16 + lower) % 16 = lower by omega]
      rfl
end Package
