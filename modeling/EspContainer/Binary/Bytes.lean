/-
# Fixed-width byte strings

A fixed C buffer is a byte string whose length is part of its type. Reading a
field out of a larger record is `bytesAt`, which is total: past the end of the
record it reads zeros, and the records below are always long enough.

The two groups of lemmas are the two halves of every fixed layout. Reading
through a concatenation finds the field that was written, and adjacent fields
read from one record concatenate to the record.
-/

import Mathlib.Data.Vector.Basic
import Mathlib.Data.List.TakeDrop

namespace Binary

/-- `UINT32_MAX`. -/
abbrev uint32Max : Nat := 4294967295

/-- A buffer of exactly `n` bytes. -/
abbrev Bytes (n : Nat) : Type := List.Vector UInt8 n

instance lawfulBEq_bytes : LawfulBEq (List UInt8) := inferInstance

/-- The characters of an ASCII literal as bytes. -/
def ascii (text : String) : List UInt8 :=
  text.toList.map fun character => UInt8.ofNat character.toNat

namespace Bytes

variable {n : Nat}

/-- The buffer of zeros. -/
def zero (n : Nat) : Bytes n := List.Vector.replicate n 0

@[simp]
theorem length_toList (bytes : Bytes n) : bytes.toList.length = n := bytes.2

@[ext]
theorem ext {first second : Bytes n} (htoList : first.toList = second.toList) :
    first = second := Subtype.ext htoList

@[simp]
theorem toList_mk (list : List UInt8) (hlength : list.length = n) :
    List.Vector.toList (⟨list, hlength⟩ : Bytes n) = list := rfl

@[simp]
theorem toList_zero (n : Nat) : (zero n).toList = List.replicate n 0 := rfl

end Bytes

/-! ## Reading fields -/

/-- The `n` bytes of `source` at `offset`, reading zeros past its end. -/
def bytesAt (source : List UInt8) (offset n : Nat) : Bytes n :=
  ⟨(source.drop offset).takeD n 0, List.takeD_length _ _ _⟩

/-- One byte of `source`. -/
def byteAt (source : List UInt8) (offset : Nat) : UInt8 := source.getD offset 0

theorem toList_bytesAt_of_le {source : List UInt8} {offset n : Nat}
    (hbound : offset + n ≤ source.length) :
    (bytesAt source offset n).toList = (source.drop offset).take n := by
  rw [bytesAt, Bytes.toList_mk]
  exact List.takeD_eq_take _ (by rw [List.length_drop]; omega)

theorem bytesAt_append_left {first second : List UInt8} {offset n : Nat}
    (hbound : offset + n ≤ first.length) :
    bytesAt (first ++ second) offset n = bytesAt first offset n := by
  apply Bytes.ext
  rw [toList_bytesAt_of_le hbound, toList_bytesAt_of_le (by simp; omega),
    List.drop_append_of_le_length (by omega), List.take_append_of_le_length (by simp; omega)]

theorem bytesAt_append_right {first second : List UInt8} {offset n : Nat}
    (hbound : first.length ≤ offset) :
    bytesAt (first ++ second) offset n = bytesAt second (offset - first.length) n := by
  apply Bytes.ext
  simp [bytesAt, List.drop_append, List.drop_eq_nil_of_le hbound]

@[simp]
theorem bytesAt_cons_succ (byte : UInt8) (rest : List UInt8) (offset n : Nat) :
    bytesAt (byte :: rest) (offset + 1) n = bytesAt rest offset n := rfl

@[simp]
theorem bytesAt_toList {n : Nat} (bytes : Bytes n) : bytesAt bytes.toList 0 n = bytes := by
  apply Bytes.ext
  rw [toList_bytesAt_of_le (by simp)]
  simp

theorem bytesAt_eq_of_length {source : List UInt8} {n : Nat} (hlength : source.length = n) :
    bytesAt source 0 n = ⟨source, hlength⟩ := by
  apply Bytes.ext
  rw [toList_bytesAt_of_le (by omega)]
  simp [← hlength]

/-- Adjacent fields of one record concatenate. -/
theorem bytesAt_append_bytesAt {source : List UInt8} {offset next n m : Nat}
    (hnext : next = offset + n) (hbound : next + m ≤ source.length) :
    (bytesAt source offset n).toList ++ (bytesAt source next m).toList =
      (bytesAt source offset (n + m)).toList := by
  subst hnext
  rw [toList_bytesAt_of_le (by omega), toList_bytesAt_of_le (by omega),
    toList_bytesAt_of_le (by omega), ← List.drop_drop, List.take_add]

/-- Reading a field inside a field. -/
theorem bytesAt_bytesAt {source : List UInt8} {offset n inner m : Nat}
    (hfield : offset + n ≤ source.length) (hinner : inner + m ≤ n) :
    bytesAt (bytesAt source offset n).toList inner m = bytesAt source (offset + inner) m := by
  apply Bytes.ext
  rw [toList_bytesAt_of_le (by simpa using hinner), toList_bytesAt_of_le hfield,
    toList_bytesAt_of_le (by omega), List.drop_take, List.drop_drop, List.take_take,
    Nat.min_eq_left (by omega)]

/-- The first byte of a nonempty field is the byte at its offset. -/
theorem toList_bytesAt_one {source : List UInt8} {offset : Nat}
    (hbound : offset < source.length) :
    (bytesAt source offset 1).toList = [byteAt source offset] := by
  rw [toList_bytesAt_of_le hbound, List.drop_eq_getElem_cons hbound]
  simp only [List.take_succ_cons, List.take_zero, byteAt, List.getD_eq_getElem?_getD,
    List.getElem?_eq_getElem hbound, Option.getD_some]

end Binary
