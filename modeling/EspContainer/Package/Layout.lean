/-
# The package format

A package is an archive of three members, each a header, its data and zeros up
to a whole block, followed by zeros up to the least whole number of records that
leaves two blocks.

`Stream.between` is the stream that has read the first of two parts. Each reading
function returns a value exactly if what is left begins with the bytes it wants.
-/

import Mathlib.Data.FinEnum
import Mathlib.Order.Bounds.Basic
import EspContainer.Package.Reads

namespace Package

open Binary Interaction

/-! ## Layout -/

/-- An archive member. -/
def archiveMember (name data : List UInt8) : List UInt8 :=
  memberHeader name data.length ++ data ++ List.replicate (paddingBytes data.length) 0

/-- The three members of a package. -/
def packageMembers (manifest signature wasm : List UInt8) : List UInt8 :=
  archiveMember (ascii "manifest.json") manifest ++
    archiveMember (ascii "signature.bin") signature ++ archiveMember (ascii "app.wasm") wasm

/-- The canonical layout: the members, and zeros up to the least multiple of a
record that leaves at least two blocks of them. -/
def IsPackage (package manifest signature wasm : List UInt8) : Prop :=
  IsLeast {size | tarRecordBytes ∣ size ∧
      (packageMembers manifest signature wasm).length + 2 * tarBlockBytes ≤ size} package.length ∧
    ∃ zeros, package = packageMembers manifest signature wasm ++ List.replicate zeros 0

/-- Rounding up to whole records. -/
theorem isLeast_records {members size : Nat} :
    IsLeast {size | tarRecordBytes ∣ size ∧ members + 2 * tarBlockBytes ≤ size} size ↔
      (members + 2 * tarBlockBytes + tarRecordBytes - 1) / tarRecordBytes * tarRecordBytes =
        size := by
  have hround : IsLeast {size | tarRecordBytes ∣ size ∧ members + 2 * tarBlockBytes ≤ size}
      ((members + 2 * tarBlockBytes + tarRecordBytes - 1) / tarRecordBytes * tarRecordBytes) := by
    simp only [tarRecordBytes, tarBlockBytes]
    refine ⟨⟨Nat.dvd_mul_left _ _, by omega⟩, ?_⟩
    rintro larger ⟨⟨records, rfl⟩, hlarger⟩
    omega
  exact ⟨fun hsize => hround.unique hsize, fun hsize => hsize ▸ hround⟩

/-! ## Reading a snapshot -/

/-- A fixed snapshot: reads inside it return its bytes, and digests work. -/
def snapshot (bytes : List UInt8) : (request : ReadPort.Call) → ReadPort.Answer request
  | .read offset sizeBytes =>
      if offset + sizeBytes ≤ bytes.length then .ok (bytesAt bytes offset sizeBytes)
      else .failed none
  | .digest _ => true

/-- The stream that has read the first of two parts of a package. -/
def Stream.between (before after : List UInt8) : Stream :=
  ⟨(before ++ after).length, before.length, before⟩

variable {package before after : List UInt8}

theorem eval_digestStep (step : DigestCall) :
    Fallible.eval (snapshot package) (digestStep step) = .ok () := rfl

theorem eval_streamRead (hpackage : before ++ after = package) (count : Nat) :
    Fallible.eval (snapshot package) (streamRead (.between before after) count) =
      if count ≤ tarBlockBytes ∧ count ≤ after.length then
        .ok (bytesAt after 0 count, .between (before ++ after.take count) (after.drop count))
      else .error .invalid := by
  subst hpackage
  have hcheck : (!(decide (count > tarBlockBytes) ||
      decide (count > (Stream.between before after).sizeBytes -
        (Stream.between before after).cursor))) =
      decide (count ≤ tarBlockBytes ∧ count ≤ after.length) := by
    rw [Bool.eq_iff_iff]
    simp [Stream.between]
  rw [streamRead, hcheck, Fallible.eval_bind, Fallible.eval_require]
  by_cases hfits : count ≤ tarBlockBytes ∧ count ≤ after.length
  · have hread : snapshot (before ++ after) (.read (Stream.between before after).cursor count) =
        .ok (bytesAt after 0 count) := by
      simp only [snapshot, Stream.between, List.length_append]
      rw [if_pos (by omega), bytesAt_append_right le_rfl, Nat.sub_self]
    have hbytes : (bytesAt after 0 count).toList = after.take count := by
      rw [toList_bytesAt_of_le (by omega), List.drop_zero]
    have hstream : (⟨(Stream.between before after).sizeBytes,
        (Stream.between before after).cursor + count,
        (Stream.between before after).digest ++ after.take count⟩ : Stream) =
        .between (before ++ after.take count) (after.drop count) := by
      simp [Stream.between, hfits.2]
    rw [if_pos hfits, ← hstream, ← hbytes, decide_eq_true hfits, if_pos rfl,
      Fallible.eval_call_bind, hread]
    rfl
  · rw [if_neg hfits, decide_eq_false hfits]
    rfl

/-- The stream that has also read the first bytes of what was left. -/
def Stream.into (before after : List UInt8) (offset : Nat) : Stream :=
  .between (before ++ after.take offset) (after.drop offset)

theorem Stream.into_zero (before after : List UInt8) :
    Stream.into before after 0 = .between before after := by
  simp [Stream.into]

/-- Reading on from inside what is left. -/
theorem eval_streamRead_into (hpackage : before ++ after = package) {offset count : Nat}
    (hoffset : offset ≤ after.length) (hcount : count ≤ tarBlockBytes) :
    Fallible.eval (snapshot package) (streamRead (.into before after offset) count) =
      if offset + count ≤ after.length then
        .ok (bytesAt after offset count, .into before after (offset + count))
      else .error .invalid := by
  rw [Stream.into,
    eval_streamRead (by rw [List.append_assoc, List.take_append_drop, hpackage]),
    List.append_assoc, ← List.take_add, List.drop_drop]
  have hfits : (count ≤ tarBlockBytes ∧ count ≤ (after.drop offset).length) ↔
      offset + count ≤ after.length := by
    rw [List.length_drop]
    omega
  simp only [hfits]
  rfl

theorem eval_streamBytes (hpackage : before ++ after = package) (count : Nat) :
    Fallible.eval (snapshot package) (streamBytes (.between before after) count) =
      if count ≤ after.length then .ok (after.take count, .into before after count)
      else .error .invalid := by
  rw [streamBytes, ← Stream.into_zero]
  refine Fallible.eval_chunked (by decide)
    (fun offset => (after.take offset, Stream.into before after offset))
    (fun offset => offset ≤ after.length) PackageError.invalid
    (fun _ _ hle hpassed => hle.trans hpassed) ?_ (Nat.zero_le _)
  rintro offset amount hoffset rfl hpassed
  rw [Fallible.eval_bind, eval_streamRead_into hpackage hpassed (min_le_left _ _)]
  split
  · next hfits =>
    change Except.ok (after.take offset ++ (bytesAt after offset _).toList, _) = _
    rw [toList_bytesAt_of_le hfits, ← List.take_add]
  · rfl

/-- The block is all zeros. -/
theorem all_zero_bytesAt {offset count : Nat} (hfits : offset + count ≤ after.length) :
    ((bytesAt after offset count).toList.all fun byte => byte == 0) = true ↔
      ∀ byte ∈ (after.drop offset).take count, byte = 0 := by
  simp [toList_bytesAt_of_le hfits]

theorem eval_streamZeros (hpackage : before ++ after = package) (count : Nat) :
    Fallible.eval (snapshot package) (streamZeros (.between before after) count) =
      if count ≤ after.length ∧ ∀ byte ∈ after.take count, byte = 0 then
        .ok (.into before after count)
      else .error .invalid := by
  rw [streamZeros, ← Stream.into_zero]
  refine Fallible.eval_chunked (by decide) (fun offset => Stream.into before after offset)
    (fun offset => offset ≤ after.length ∧ ∀ byte ∈ after.take offset, byte = 0)
    PackageError.invalid ?_ ?_ (by simp)
  · rintro first second hle ⟨hfits, hzeros⟩
    exact ⟨hle.trans hfits, fun byte hbyte => hzeros byte (List.take_subset_take_left _ hle hbyte)⟩
  · rintro offset amount hoffset rfl ⟨hpassed, hzeros⟩
    rw [Fallible.eval_bind, eval_streamRead_into hpackage hpassed (min_le_left _ _)]
    split
    · next hfits =>
      have hchecked : ((bytesAt after offset (min tarBlockBytes (count - offset))).toList.all
            fun byte => byte == 0) = true ↔
          offset + min tarBlockBytes (count - offset) ≤ after.length ∧
            ∀ byte ∈ after.take (offset + min tarBlockBytes (count - offset)), byte = 0 := by
        rw [all_zero_bytesAt hfits, List.take_add]
        simp only [List.mem_append, or_imp, forall_and, hfits, true_and]
        exact ⟨fun hrest => ⟨hzeros, hrest⟩, And.right⟩
      change Fallible.eval _ (_ >>= _) = _
      rw [Fallible.eval_bind, Fallible.eval_require]
      simp only [hchecked]
      split <;> rfl
    · next hfits =>
      rw [if_neg fun hall => hfits hall.1]
      rfl

/-- The header check of the first payload block says how the payload begins. -/
theorem wasmHeader_checked {offset amount count : Nat} (hamount : offset = 0 → 8 ≤ amount)
    (hcount : 8 ≤ count) (hfits : offset + amount ≤ after.length)
    (hbegins : 0 < offset → wasmHeader <+: after.take count) :
    (offset != 0 || (bytesAt after offset amount).toList.take wasmHeader.length == wasmHeader) =
      true ↔ wasmHeader <+: after.take count := by
  have hheader : wasmHeader.length = 8 := by decide
  rcases Nat.eq_zero_or_pos offset with rfl | hpos
  · rw [toList_bytesAt_of_le hfits, List.drop_zero, List.take_take, List.prefix_iff_eq_take,
      List.take_take, hheader, min_eq_left (hamount rfl), min_eq_left hcount,
      bne_self_eq_false, Bool.false_or, beq_iff_eq]
    exact eq_comm
  · simp [hpos.ne', hbegins hpos]

theorem eval_streamWasm (hpackage : before ++ after = package) {count : Nat} (hcount : 8 ≤ count) :
    Fallible.eval (snapshot package) (streamWasm (.between before after) count) =
      if count ≤ after.length ∧ wasmHeader <+: after.take count then
        .ok (after.take count, .into before after count)
      else .error .invalid := by
  have hwhole : (count ≤ after.length ∧ wasmHeader <+: after.take count) ↔
      count ≤ after.length ∧ (0 < count → wasmHeader <+: after.take count) :=
    and_congr_right fun _ => ⟨fun hbegins _ => hbegins, fun hbegins => hbegins (by omega)⟩
  rw [if_congr hwhole rfl rfl, streamWasm, ← Stream.into_zero]
  refine Fallible.eval_chunked (by decide)
    (fun offset => (after.take offset, Stream.into before after offset))
    (fun offset => offset ≤ after.length ∧ (0 < offset → wasmHeader <+: after.take count))
    PackageError.invalid ?_ ?_ (by simp)
  · rintro first second hle ⟨hfits, hbegins⟩
    exact ⟨hle.trans hfits, fun hpos => hbegins (by omega)⟩
  · rintro offset amount hoffset rfl ⟨hpassed, hbegins⟩
    rw [Fallible.eval_bind, eval_streamRead_into hpackage hpassed (min_le_left _ _)]
    split
    · next hfits =>
      have hpos := chunk_pos hoffset
      have hchecked := wasmHeader_checked (by simp only [tarBlockBytes]; omega) hcount hfits hbegins
      have hpassedOn : wasmHeader <+: after.take count ↔
          offset + min tarBlockBytes (count - offset) ≤ after.length ∧
            (0 < offset + min tarBlockBytes (count - offset) →
              wasmHeader <+: after.take count) := by
        simp [hfits, show 0 < offset + min tarBlockBytes (count - offset) by omega]
      change Fallible.eval _ (_ >>= _) = _
      rw [Fallible.eval_bind, Fallible.eval_require]
      simp only [hchecked, ← hpassedOn]
      split
      · change Except.ok (after.take offset ++ (bytesAt after offset _).toList, _) = _
        rw [toList_bytesAt_of_le hfits, ← List.take_add]
      · rfl
    · next hfits =>
      rw [if_neg fun hall => hfits hall.1]
      rfl

/-! ## What each step accepts -/

theorem streamBytes_eq_ok (hpackage : before ++ after = package) {count : Nat}
    {read : List UInt8 × Stream} :
    Fallible.eval (snapshot package) (streamBytes (.between before after) count) = .ok read ↔
      ∃ bytes rest, before ++ bytes ++ rest = package ∧ bytes.length = count ∧
        read = (bytes, .between (before ++ bytes) rest) := by
  rw [eval_streamBytes hpackage, ← hpackage]
  simp only [List.append_assoc, List.append_cancel_left_eq]
  constructor
  · intro hread
    split at hread
    · next hfits =>
      exact ⟨after.take count, after.drop count, List.take_append_drop _ _,
        List.length_take_of_le hfits, (Except.ok.inj hread).symm⟩
    · cases hread
  · rintro ⟨bytes, rest, rfl, rfl, rfl⟩
    rw [if_pos (by simp), Stream.into, List.take_left, List.drop_left]

theorem streamZeros_eq_ok (hpackage : before ++ after = package) {count : Nat} {next : Stream} :
    Fallible.eval (snapshot package) (streamZeros (.between before after) count) = .ok next ↔
      ∃ rest, before ++ List.replicate count 0 ++ rest = package ∧
        next = .between (before ++ List.replicate count 0) rest := by
  rw [eval_streamZeros hpackage, ← hpackage]
  simp only [List.append_assoc, List.append_cancel_left_eq]
  constructor
  · intro hnext
    split at hnext
    · next hzeros =>
      have htake : after.take count = List.replicate count 0 :=
        List.eq_replicate_iff.mpr ⟨List.length_take_of_le hzeros.1, hzeros.2⟩
      rw [← htake]
      exact ⟨after.drop count, List.take_append_drop _ _, (Except.ok.inj hnext).symm⟩
    · cases hnext
  · rintro ⟨rest, rfl, rfl⟩
    have hcount : (List.replicate count (0 : UInt8)).length = count := List.length_replicate
    rw [Stream.into, List.take_left' hcount, List.drop_left' hcount, if_pos ⟨by simp, by simp⟩]

theorem streamWasm_eq_ok (hpackage : before ++ after = package) {count : Nat} (hcount : 8 ≤ count)
    {read : List UInt8 × Stream} :
    Fallible.eval (snapshot package) (streamWasm (.between before after) count) = .ok read ↔
      ∃ bytes rest, before ++ bytes ++ rest = package ∧ bytes.length = count ∧
        wasmHeader <+: bytes ∧ read = (bytes, .between (before ++ bytes) rest) := by
  rw [eval_streamWasm hpackage hcount, ← hpackage]
  simp only [List.append_assoc, List.append_cancel_left_eq]
  constructor
  · intro hread
    split at hread
    · next hfits =>
      exact ⟨after.take count, after.drop count, List.take_append_drop _ _,
        List.length_take_of_le hfits.1, hfits.2, (Except.ok.inj hread).symm⟩
    · cases hread
  · rintro ⟨bytes, rest, rfl, rfl, hheader, rfl⟩
    rw [Stream.into, List.take_left, List.drop_left, if_pos ⟨by simp, hheader⟩]

/-- The size a header block gives a member of this name. -/
theorem headerBlock_eq_ok {name : List UInt8} (hname : name.length < 100) (block : Bytes 512)
    (stream : Stream) {read : Nat × Stream} :
    Fallible.eval (snapshot package) (match tarSize block with
      | none => throw PackageError.invalid
      | some sizeBytes => do
          Fallible.require (tarHeaderMatches block name sizeBytes) .invalid
          pure (sizeBytes, stream) : Reading (Nat × Stream)) = .ok read ↔
      ∃ sizeBytes, sizeBytes ≤ uint32Max ∧ block.toList = memberHeader name sizeBytes ∧
        read = (sizeBytes, stream) := by
  simp only [← and_assoc, ← tarHeader_accepts hname]
  cases tarSize block with
  | none => simp
  | some sizeBytes =>
      simp only [Fallible.eval_require_bind_eq_ok, Fallible.eval_pure, Except.ok.injEq,
        Option.some.injEq]
      constructor
      · rintro ⟨hmatches, rfl⟩
        exact ⟨sizeBytes, ⟨rfl, hmatches⟩, rfl⟩
      · rintro ⟨_, ⟨rfl, hmatches⟩, rfl⟩
        exact ⟨hmatches, rfl⟩

theorem streamHeader_eq_ok (hpackage : before ++ after = package) {name : List UInt8}
    (hname : name.length < 100) {read : Nat × Stream} :
    Fallible.eval (snapshot package) (streamHeader (.between before after) name) = .ok read ↔
      ∃ sizeBytes rest, before ++ memberHeader name sizeBytes ++ rest = package ∧
        sizeBytes ≤ uint32Max ∧
        read = (sizeBytes, .between (before ++ memberHeader name sizeBytes) rest) := by
  rw [streamHeader, Fallible.eval_bind_eq_ok, eval_streamRead hpackage]
  constructor
  · rintro ⟨⟨block, stream⟩, hread, hsize⟩
    split at hread
    · next hfits =>
      obtain ⟨rfl, rfl⟩ := Prod.mk.inj (Except.ok.inj hread)
      obtain ⟨sizeBytes, hbound, hheader, rfl⟩ := (headerBlock_eq_ok hname _ _).mp hsize
      rw [toList_bytesAt_of_le ((Nat.zero_add _).trans_le hfits.2), List.drop_zero] at hheader
      refine ⟨sizeBytes, after.drop tarBlockBytes, ?_, hbound, by rw [hheader]⟩
      rw [← hheader, List.append_assoc, List.take_append_drop, hpackage]
    · cases hread
  · rintro ⟨sizeBytes, rest, hsplit, hsize, rfl⟩
    obtain ⟨header, hheader⟩ : ∃ header : Bytes tarBlockBytes,
        header.toList = memberHeader name sizeBytes :=
      ⟨⟨_, length_memberHeader hname sizeBytes⟩, rfl⟩
    have hblock : bytesAt (header.toList ++ rest) 0 tarBlockBytes = header := by
      rw [bytesAt_append_left (by simp), bytesAt_toList]
    rw [← hpackage, List.append_assoc, List.append_cancel_left_eq] at hsplit
    rw [← hsplit, ← hheader, if_pos ⟨le_rfl, by simp⟩, hblock,
      List.take_left' (Bytes.length_toList header), List.drop_left' (Bytes.length_toList header),
      hheader]
    exact ⟨_, rfl, (headerBlock_eq_ok hname header _).mpr ⟨sizeBytes, hsize, hheader, rfl⟩⟩

/-! ## Members and the end -/

/-- The bytes in front of a member's zeros. -/
theorem append_archiveMember (before name data rest : List UInt8) :
    before ++ archiveMember name data ++ rest =
      before ++ memberHeader name data.length ++ data ++
        List.replicate (paddingBytes data.length) 0 ++ rest := by
  simp [archiveMember]

theorem verifyEnd_eq_ok (hpackage : before ++ after = package) {last : Stream} :
    Fallible.eval (snapshot package) (verifyEnd package.length (.between before after)) =
        .ok last ↔
      IsLeast {size | tarRecordBytes ∣ size ∧ before.length + 2 * tarBlockBytes ≤ size}
          package.length ∧
        (∃ zeros, package = before ++ List.replicate zeros 0) ∧
        last = .between package [] := by
  have hleft : package.length - before.length = after.length := by simp [← hpackage]
  rw [verifyEnd, isLeast_records]
  constructor
  · intro hlast
    obtain ⟨hsize, hlast⟩ := Fallible.eval_require_bind_eq_ok.mp hlast
    obtain ⟨stream, hstream, hlast⟩ := Fallible.eval_bind_eq_ok.mp hlast
    obtain ⟨rest, hsplit, rfl⟩ := (streamZeros_eq_ok hpackage).mp hstream
    obtain ⟨_, -, hlast⟩ := Fallible.eval_bind_eq_ok.mp hlast
    obtain rfl : rest = [] := by
      have hlength := congrArg List.length (hsplit.trans hpackage.symm)
      simp only [List.length_append, List.length_replicate] at hlength
      refine List.eq_nil_of_length_eq_zero ?_
      change _ + (package.length - before.length) + _ = _ at hlength
      omega
    rw [List.append_nil] at hsplit
    refine ⟨beq_iff_eq.mp hsize, ⟨_, hsplit.symm⟩, ?_⟩
    rw [← Except.ok.inj hlast, hsplit]
  · rintro ⟨hsize, ⟨zeros, hzeros⟩, rfl⟩
    obtain rfl : zeros = package.length - before.length := by
      rw [hzeros]
      simp
    refine Fallible.eval_require_bind_eq_ok.mpr ⟨beq_iff_eq.mpr hsize, ?_⟩
    refine Fallible.eval_bind_eq_ok.mpr ⟨_, (streamZeros_eq_ok hpackage).mpr
      ⟨[], by rw [List.append_nil]; exact hzeros.symm, rfl⟩, ?_⟩
    refine Fallible.eval_bind_eq_ok.mpr ⟨_, eval_digestStep _, ?_⟩
    rw [Fallible.eval_pure]
    exact congrArg (fun read => Except.ok (Stream.between read [])) hzeros.symm

end Package
