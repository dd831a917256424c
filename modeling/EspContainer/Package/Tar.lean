/-
# Archive headers

A package is a ustar archive with exactly three members in a fixed order, and
every header byte but the size and the checksum is fixed. The device therefore
reads the size field of a header, builds the one header a member of that name
and size may have, and compares.
-/

import Mathlib.Algebra.Order.BigOperators.Group.List
import Mathlib.Algebra.Order.Group.Nat
import Mathlib.Algebra.GroupWithZero.Nat
import EspContainer.Binary.Bytes

namespace Package

open Binary

/-- `TAR_BLOCK_BYTES`. -/
abbrev tarBlockBytes : Nat := 512

/-- `TAR_RECORD_BYTES`. -/
abbrev tarRecordBytes : Nat := 10240

/-- The digit loop of `tar_size`: eleven octal digits of at most `UINT32_MAX`. -/
def tarSizeDigits (value : Nat) : List UInt8 → Option Nat
  | [] => some value
  | byte :: rest =>
      if byte < 48 || byte > 55 then
        none
      else if value * 8 + (byte.toNat - 48) > uint32Max then
        none
      else
        tarSizeDigits (value * 8 + (byte.toNat - 48)) rest

/-- `tar_size`. -/
def tarSize (header : Bytes 512) : Option Nat := do
  let value ← tarSizeDigits 0 (bytesAt header.toList 124 11).toList
  if byteAt header.toList 135 != 0 then none else some value

/-- The digits of `tar_octal`, most significant first. -/
def octalDigits : Nat → Nat → List UInt8
  | 0, _ => []
  | digits + 1, number => octalDigits digits (number / 8) ++ [UInt8.ofNat (48 + number % 8)]

/-- `tar_octal`: the digits and their terminating zero, if the number fits. -/
def tarOctal (digits number : Nat) : Option (List UInt8) :=
  if number / 8 ^ digits = 0 then some (octalDigits digits number ++ [0]) else none

/-- The fields of an expected header around the size and the checksum field. -/
def tarFields (name sizeField checksumField : List UInt8) : List UInt8 :=
  name ++ List.replicate (100 - name.length) 0 ++
    ascii "0000644" ++ [0] ++ ascii "0000000" ++ [0] ++ ascii "0000000" ++ [0] ++
    sizeField ++ ascii "00000000000" ++ [0] ++ checksumField ++
    ascii "0" ++ List.replicate 100 0 ++ ascii "ustar" ++ [0] ++ ascii "00" ++
    List.replicate 247 0

/-- The sum over the header with a blank checksum field. -/
def tarChecksum (name sizeField : List UInt8) : Nat :=
  ((tarFields name sizeField (List.replicate 8 32)).map UInt8.toNat).sum

/-- The header that `tar_header_matches` expects, if there is one. -/
def tarHeader (name : List UInt8) (sizeBytes : Nat) : Option (List UInt8) := do
  if name.length ≥ 100 then
    none
  else
    let sizeField ← tarOctal 11 sizeBytes
    let checksumField ← tarOctal 6 (tarChecksum name sizeField)
    -- Six digits and a zero, and the blank of the eight that is put back.
    some (tarFields name sizeField (checksumField ++ [32]))

/-- `tar_header_matches`. -/
def tarHeaderMatches (actual : Bytes 512) (name : List UInt8) (sizeBytes : Nat) : Bool :=
  tarHeader name sizeBytes == some actual.toList

/-! ## One header for each member -/

@[simp]
theorem length_octalDigits (digits number : Nat) : (octalDigits digits number).length = digits := by
  induction digits generalizing number with
  | zero => rfl
  | succ digits ih => simp [octalDigits, ih]

theorem tarSizeDigits_append (value : Nat) (first second : List UInt8) :
    tarSizeDigits value (first ++ second) =
      (tarSizeDigits value first).bind fun value => tarSizeDigits value second := by
  induction first generalizing value with
  | nil => rfl
  | cons byte first ih =>
      rw [List.cons_append, tarSizeDigits, tarSizeDigits]
      split_ifs
      · rfl
      · rfl
      · exact ih _

/-- One more octal digit. -/
theorem tarSizeDigits_digit {value digit : Nat} (hdigit : digit < 8)
    (hbound : value * 8 + digit ≤ uint32Max) :
    tarSizeDigits value [UInt8.ofNat (48 + digit)] = some (value * 8 + digit) := by
  have hbyte : (UInt8.ofNat (48 + digit)).toNat = 48 + digit := by
    rw [UInt8.toNat_ofNat']
    omega
  have hlow : ¬ UInt8.ofNat (48 + digit) < 48 := by
    rw [UInt8.lt_iff_toNat_lt, hbyte]
    simp
  have hhigh : ¬ UInt8.ofNat (48 + digit) > 55 := by
    rw [gt_iff_lt, UInt8.lt_iff_toNat_lt, hbyte]
    simp
    omega
  simp only [tarSizeDigits, hlow, hhigh, hbyte, decide_false, Bool.or_self, Bool.false_eq_true,
    if_false, Nat.add_sub_cancel_left, gt_iff_lt, Nat.not_lt.mpr hbound]

/-- The size of an expected header field reads back. -/
theorem tarSizeDigits_octalDigits {digits number value : Nat} (hfits : number < 8 ^ digits)
    (hbound : value * 8 ^ digits + number ≤ uint32Max) :
    tarSizeDigits value (octalDigits digits number) = some (value * 8 ^ digits + number) := by
  induction digits generalizing number with
  | zero =>
      obtain rfl : number = 0 := by simpa using hfits
      simp [octalDigits, tarSizeDigits]
  | succ digits ih =>
      have hsplit : (value * 8 ^ digits + number / 8) * 8 + number % 8 =
          value * 8 ^ (digits + 1) + number := by
        rw [Nat.pow_succ, ← Nat.mul_assoc]
        omega
      have hlast : (value * 8 ^ digits + number / 8) * 8 + number % 8 ≤ uint32Max :=
        hsplit ▸ hbound
      rw [octalDigits, tarSizeDigits_append,
        ih (by rw [Nat.pow_succ] at hfits; omega) (by clear hbound; omega),
        Option.bind_some, tarSizeDigits_digit (Nat.mod_lt _ (by decide)) hlast, hsplit]

/-- The header of a member. -/
def memberHeader (name : List UInt8) (sizeBytes : Nat) : List UInt8 :=
  let sizeField := octalDigits 11 sizeBytes ++ [0]
  tarFields name sizeField (octalDigits 6 (tarChecksum name sizeField) ++ [0] ++ [32])

theorem length_tarFields {name sizeField checksumField : List UInt8} (hname : name.length < 100)
    (hsize : sizeField.length = 12) (hchecksum : checksumField.length = 8) :
    (tarFields name sizeField checksumField).length = 512 := by
  have hmode : (ascii "0000644").length = 7 := by decide
  have howner : (ascii "0000000").length = 7 := by decide
  have htime : (ascii "00000000000").length = 11 := by decide
  have htype : (ascii "0").length = 1 := by decide
  have hmagic : (ascii "ustar").length = 5 := by decide
  have hversion : (ascii "00").length = 2 := by decide
  simp only [tarFields, List.length_append, List.length_replicate, List.length_singleton, hsize,
    hchecksum, hmode, howner, htime, htype, hmagic, hversion]
  omega

theorem length_memberHeader {name : List UInt8} (hname : name.length < 100) (sizeBytes : Nat) :
    (memberHeader name sizeBytes).length = 512 :=
  length_tarFields hname (by simp) (by simp)

/-- The digits of a header's checksum field always hold its checksum. -/
theorem tarChecksum_lt {name sizeField : List UInt8} (hname : name.length < 100)
    (hsize : sizeField.length = 12) : tarChecksum name sizeField < 8 ^ 6 := by
  have hbytes : ∀ value ∈ (tarFields name sizeField (List.replicate 8 32)).map UInt8.toNat,
      value ≤ 255 := by
    intro value hvalue
    obtain ⟨byte, -, rfl⟩ := List.mem_map.mp hvalue
    exact Nat.le_of_lt_succ byte.toNat_lt
  have hsum := List.sum_le_card_nsmul _ _ hbytes
  rw [List.length_map, length_tarFields hname hsize (by simp)] at hsum
  exact lt_of_le_of_lt hsum (by decide)

/-- The expected header of a 32-bit size. -/
theorem tarHeader_eq {name : List UInt8} (hname : name.length < 100) {sizeBytes : Nat}
    (hbound : sizeBytes ≤ uint32Max) :
    tarHeader name sizeBytes = some (memberHeader name sizeBytes) := by
  have hsize : sizeBytes / 8 ^ 11 = 0 := Nat.div_eq_of_lt (lt_of_le_of_lt hbound (by decide))
  have hchecksum : tarChecksum name (octalDigits 11 sizeBytes ++ [0]) / 8 ^ 6 = 0 :=
    Nat.div_eq_of_lt (tarChecksum_lt hname (by simp))
  simp only [tarHeader, tarOctal, if_neg (Nat.not_le.mpr hname), hsize, if_true,
    Option.bind_eq_bind, Option.bind_some, hchecksum, memberHeader]

/-- The size field of an expected header. -/
theorem tarSize_memberHeader {name : List UInt8} (hname : name.length < 100) {sizeBytes : Nat}
    (hbound : sizeBytes ≤ uint32Max) {header : Bytes 512}
    (hheader : header.toList = memberHeader name sizeBytes) : tarSize header = some sizeBytes := by
  obtain ⟨before, after, hbefore, hfields⟩ : ∃ before after : List UInt8, before.length = 124 ∧
      memberHeader name sizeBytes = before ++ (octalDigits 11 sizeBytes ++ ([0] ++ after)) := by
    have hmode : (ascii "0000644").length = 7 := by decide
    have howner : (ascii "0000000").length = 7 := by decide
    refine ⟨name ++ List.replicate (100 - name.length) 0 ++
      ascii "0000644" ++ [0] ++ ascii "0000000" ++ [0] ++ ascii "0000000" ++ [0], ?_, ?_, ?_⟩
    rotate_left
    · simp only [List.length_append, List.length_replicate, List.length_singleton, hmode, howner]
      omega
    · simp only [memberHeader, tarFields, List.append_assoc]
      rfl
  have hdigits : (bytesAt header.toList 124 11).toList = octalDigits 11 sizeBytes := by
    rw [hheader, hfields, bytesAt_append_right (by omega), hbefore, Nat.sub_self,
      bytesAt_append_left (by simp), toList_bytesAt_of_le (by simp), List.drop_zero,
      List.take_of_length_le (by simp)]
  have hzero : byteAt header.toList 135 = 0 := by
    rw [hheader, hfields, byteAt, List.getD_eq_getElem?_getD,
      List.getElem?_append_right (by omega), hbefore,
      List.getElem?_append_right (by simp)]
    simp
  have hvalue : tarSizeDigits 0 (octalDigits 11 sizeBytes) = some sizeBytes := by
    simpa using tarSizeDigits_octalDigits (lt_of_le_of_lt hbound (by decide))
      (show 0 * 8 ^ 11 + sizeBytes ≤ uint32Max by omega)
  simp [tarSize, hdigits, hvalue, hzero]

theorem tarSizeDigits_le {value size : Nat} (hvalue : value ≤ uint32Max) {digits : List UInt8}
    (hsize : tarSizeDigits value digits = some size) : size ≤ uint32Max := by
  induction digits generalizing value with
  | nil => exact Option.some.inj hsize ▸ hvalue
  | cons byte rest ih =>
      rw [tarSizeDigits] at hsize
      split_ifs at hsize with hdigit hmax
      exact ih (by omega) hsize

/-- A header block is accepted exactly if it is the expected header of its size. -/
theorem tarHeader_accepts {name : List UInt8} (hname : name.length < 100) {header : Bytes 512}
    {sizeBytes : Nat} :
    (tarSize header = some sizeBytes ∧ tarHeaderMatches header name sizeBytes = true) ↔
      sizeBytes ≤ uint32Max ∧ header.toList = memberHeader name sizeBytes := by
  constructor
  · rintro ⟨hsize, hmatches⟩
    have hbound : sizeBytes ≤ uint32Max := by
      obtain ⟨value, hvalue, hrest⟩ := Option.bind_eq_some_iff.mp hsize
      split_ifs at hrest
      exact Option.some.inj hrest ▸ tarSizeDigits_le (by decide) hvalue
    rw [tarHeaderMatches, tarHeader_eq hname hbound, beq_iff_eq, Option.some.injEq] at hmatches
    exact ⟨hbound, hmatches.symm⟩
  · rintro ⟨hbound, hheader⟩
    refine ⟨tarSize_memberHeader hname hbound hheader, ?_⟩
    rw [tarHeaderMatches, tarHeader_eq hname hbound, hheader, beq_self_eq_true]

end Package
