/-
# The archive checks of the device

`econtainer_package_verify` checks two things at once: that the bytes are an archive of
three members in the canonical layout, and that the contents of these members are those
of a trusted package. Here the first is singled out: the same readings in the same order, with
nothing asked of the contents of the members.
-/

import EspContainer.Package.Layout

namespace Package

open Binary Interaction

/-- The first member, without a look at the manifest. -/
def archiveManifest (stream : Stream) : Reading (List UInt8 × Stream) := do
  let (memberSize, stream) ← streamHeader stream (ascii "manifest.json")
  Fallible.require (!(memberSize == 0 || memberSize > packageManifestMaxBytes)) .invalid
  let (manifestBytes, stream) ← streamBytes stream memberSize
  let stream ← streamZeros stream (paddingBytes memberSize)
  pure (manifestBytes, stream)

/-- The second member, without a look at the signature. -/
def archiveSignature (stream : Stream) : Reading (List UInt8 × Stream) := do
  let (memberSize, stream) ← streamHeader stream (ascii "signature.bin")
  Fallible.require (memberSize == packageSignatureBytes) .invalid
  let (signature, stream) ← streamBytes stream memberSize
  let stream ← streamZeros stream (tarBlockBytes - memberSize)
  pure (signature, stream)

/-- The third member, without a look at the payload. -/
def archivePayload (maxWasmBytes : Nat) (stream : Stream) : Reading (List UInt8 × Stream) := do
  let (memberSize, stream) ← streamHeader stream (ascii "app.wasm")
  Fallible.require (!(memberSize < 8 || memberSize > maxWasmBytes)) .invalid
  let (wasm, stream) ← streamBytes stream memberSize
  let stream ← streamZeros stream (paddingBytes memberSize)
  pure (wasm, stream)

/-- The archive checks behind the check of the package size. -/
def archiveStream (packageSizeBytes maxWasmBytes : Nat) :
    Reading (List UInt8 × List UInt8 × List UInt8) := do
  let (manifestBytes, stream) ← archiveManifest ⟨packageSizeBytes, 0, []⟩
  let (signature, stream) ← archiveSignature stream
  let (wasm, stream) ← archivePayload maxWasmBytes stream
  let _ ← verifyEnd packageSizeBytes stream
  pure (manifestBytes, signature, wasm)

/-- The archive checks on a package that is read without faults. -/
def archiveMembers (package : List UInt8) (maxWasmBytes : Nat) :
    Except PackageError (List UInt8 × List UInt8 × List UInt8) :=
  if package.length % tarBlockBytes != 0 ||
      package.length > maxWasmBytes + packageManifestMaxBytes + 8192 then
    .error .invalid
  else Fallible.eval (snapshot package) (archiveStream package.length maxWasmBytes)

/-! ## What they accept -/

/-- What the archive checks demand of a package besides its size. -/
structure IsArchive (maxWasmBytes : Nat) (package manifestBytes signature wasm : List UInt8) :
    Prop where
  layout : IsPackage package manifestBytes signature wasm
  manifest_pos : 1 ≤ manifestBytes.length
  manifest_le : manifestBytes.length ≤ packageManifestMaxBytes
  signature_length : signature.length = packageSignatureBytes
  wasm_ge : 8 ≤ wasm.length
  wasm_le : wasm.length ≤ maxWasmBytes

variable {package before after : List UInt8} {maxWasmBytes : Nat}

theorem manifestSize_checked {size : Nat} :
    (!(size == 0 || decide (size > packageManifestMaxBytes))) = true ↔
      1 ≤ size ∧ size ≤ packageManifestMaxBytes := by
  simp [Nat.one_le_iff_ne_zero]

theorem archiveManifest_eq_ok (hpackage : before ++ after = package) {read : List UInt8 × Stream} :
    Fallible.eval (snapshot package) (archiveManifest (.between before after)) = .ok read ↔
      ∃ manifestBytes rest,
        before ++ archiveMember (ascii "manifest.json") manifestBytes ++ rest = package ∧
        1 ≤ manifestBytes.length ∧ manifestBytes.length ≤ packageManifestMaxBytes ∧
        read = (manifestBytes, .between
          (before ++ archiveMember (ascii "manifest.json") manifestBytes) rest) := by
  have hname : (ascii "manifest.json").length < 100 := by decide
  simp only [append_archiveMember]
  rw [archiveManifest]
  constructor
  · intro hread
    obtain ⟨header, hheader, hread⟩ := Fallible.eval_bind_eq_ok.mp hread
    obtain ⟨memberSize, rest, hsplit, -, rfl⟩ := (streamHeader_eq_ok hpackage hname).mp hheader
    obtain ⟨hsize, hread⟩ := Fallible.eval_require_bind_eq_ok.mp hread
    obtain ⟨bytes, hbytes, hread⟩ := Fallible.eval_bind_eq_ok.mp hread
    obtain ⟨manifestBytes, rest, hsplit, rfl, rfl⟩ := (streamBytes_eq_ok hsplit).mp hbytes
    obtain ⟨stream, hstream, hread⟩ := Fallible.eval_bind_eq_ok.mp hread
    obtain ⟨rest, hsplit, rfl⟩ := (streamZeros_eq_ok hsplit).mp hstream
    obtain ⟨hpos, hmax⟩ := manifestSize_checked.mp hsize
    refine ⟨manifestBytes, rest, hsplit, hpos, hmax, ?_⟩
    rw [← Except.ok.inj hread]
    simp [archiveMember]
  · rintro ⟨manifestBytes, rest, hsplit, hpos, hmax, rfl⟩
    have hfits : manifestBytes.length ≤ uint32Max := hmax.trans (by decide)
    refine Fallible.eval_bind_eq_ok.mpr ⟨_, (streamHeader_eq_ok hpackage hname).mpr
      ⟨_, _, by simpa using hsplit, hfits, rfl⟩, ?_⟩
    refine Fallible.eval_require_bind_eq_ok.mpr ⟨manifestSize_checked.mpr ⟨hpos, hmax⟩, ?_⟩
    refine Fallible.eval_bind_eq_ok.mpr ⟨_, (streamBytes_eq_ok (by simpa using hsplit)).mpr
      ⟨_, _, by simpa using hsplit, rfl, rfl⟩, ?_⟩
    refine Fallible.eval_bind_eq_ok.mpr ⟨_, (streamZeros_eq_ok (by simpa using hsplit)).mpr
      ⟨_, hsplit, rfl⟩, ?_⟩
    simp [archiveMember]

theorem archiveSignature_eq_ok (hpackage : before ++ after = package) {read : List UInt8 × Stream} :
    Fallible.eval (snapshot package) (archiveSignature (.between before after)) = .ok read ↔
      ∃ signature rest,
        before ++ archiveMember (ascii "signature.bin") signature ++ rest = package ∧
        signature.length = packageSignatureBytes ∧
        read = (signature, .between
          (before ++ archiveMember (ascii "signature.bin") signature) rest) := by
  have hname : (ascii "signature.bin").length < 100 := by decide
  have hpadding : paddingBytes packageSignatureBytes = tarBlockBytes - packageSignatureBytes := by
    decide
  simp only [append_archiveMember]
  rw [archiveSignature]
  constructor
  · intro hread
    obtain ⟨header, hheader, hread⟩ := Fallible.eval_bind_eq_ok.mp hread
    obtain ⟨memberSize, rest, hsplit, -, rfl⟩ := (streamHeader_eq_ok hpackage hname).mp hheader
    obtain ⟨hsize, hread⟩ := Fallible.eval_require_bind_eq_ok.mp hread
    obtain rfl := beq_iff_eq.mp hsize
    obtain ⟨bytes, hbytes, hread⟩ := Fallible.eval_bind_eq_ok.mp hread
    obtain ⟨signature, rest, hsplit, hlength, rfl⟩ := (streamBytes_eq_ok hsplit).mp hbytes
    obtain ⟨stream, hstream, hread⟩ := Fallible.eval_bind_eq_ok.mp hread
    obtain ⟨rest, hsplit, rfl⟩ := (streamZeros_eq_ok hsplit).mp hstream
    refine ⟨signature, rest, by rwa [hlength, hpadding], hlength, ?_⟩
    rw [← Except.ok.inj hread, archiveMember, hlength, hpadding]
    simp
  · rintro ⟨signature, rest, hsplit, hlength, rfl⟩
    rw [hlength, hpadding] at hsplit
    refine Fallible.eval_bind_eq_ok.mpr ⟨_, (streamHeader_eq_ok hpackage hname).mpr
      ⟨_, _, by simpa using hsplit, by decide, rfl⟩, ?_⟩
    refine Fallible.eval_require_bind_eq_ok.mpr ⟨beq_self_eq_true _, ?_⟩
    refine Fallible.eval_bind_eq_ok.mpr ⟨_, (streamBytes_eq_ok (by simpa using hsplit)).mpr
      ⟨_, _, by simpa using hsplit, hlength, rfl⟩, ?_⟩
    refine Fallible.eval_bind_eq_ok.mpr ⟨_, (streamZeros_eq_ok (by simpa using hsplit)).mpr
      ⟨_, hsplit, rfl⟩, ?_⟩
    simp [archiveMember, hlength, hpadding]

theorem wasmSize_checked {size : Nat} :
    (!(decide (size < 8) || decide (size > maxWasmBytes))) = true ↔ 8 ≤ size ∧ size ≤ maxWasmBytes := by
  simp

theorem archivePayload_eq_ok (hmaxWasm : maxWasmBytes ≤ packageWasmMaxBytes)
    (hpackage : before ++ after = package) {read : List UInt8 × Stream} :
    Fallible.eval (snapshot package) (archivePayload maxWasmBytes (.between before after)) =
        .ok read ↔
      ∃ wasm rest,
        before ++ archiveMember (ascii "app.wasm") wasm ++ rest = package ∧
        8 ≤ wasm.length ∧ wasm.length ≤ maxWasmBytes ∧
        read = (wasm, .between (before ++ archiveMember (ascii "app.wasm") wasm) rest) := by
  have hname : (ascii "app.wasm").length < 100 := by decide
  simp only [append_archiveMember]
  rw [archivePayload]
  constructor
  · intro hread
    obtain ⟨header, hheader, hread⟩ := Fallible.eval_bind_eq_ok.mp hread
    obtain ⟨memberSize, rest, hsplit, -, rfl⟩ := (streamHeader_eq_ok hpackage hname).mp hheader
    obtain ⟨hsize, hread⟩ := Fallible.eval_require_bind_eq_ok.mp hread
    obtain ⟨bytes, hbytes, hread⟩ := Fallible.eval_bind_eq_ok.mp hread
    obtain ⟨wasm, rest, hsplit, rfl, rfl⟩ := (streamBytes_eq_ok hsplit).mp hbytes
    obtain ⟨stream, hstream, hread⟩ := Fallible.eval_bind_eq_ok.mp hread
    obtain ⟨rest, hsplit, rfl⟩ := (streamZeros_eq_ok hsplit).mp hstream
    obtain ⟨hmin, hmax⟩ := wasmSize_checked.mp hsize
    refine ⟨wasm, rest, hsplit, hmin, hmax, ?_⟩
    rw [← Except.ok.inj hread]
    simp [archiveMember]
  · rintro ⟨wasm, rest, hsplit, hmin, hmax, rfl⟩
    have hfits : wasm.length ≤ uint32Max := (hmax.trans hmaxWasm).trans (by decide)
    refine Fallible.eval_bind_eq_ok.mpr ⟨_, (streamHeader_eq_ok hpackage hname).mpr
      ⟨_, _, by simpa using hsplit, hfits, rfl⟩, ?_⟩
    refine Fallible.eval_require_bind_eq_ok.mpr ⟨wasmSize_checked.mpr ⟨hmin, hmax⟩, ?_⟩
    refine Fallible.eval_bind_eq_ok.mpr ⟨_, (streamBytes_eq_ok (by simpa using hsplit)).mpr
      ⟨_, _, by simpa using hsplit, rfl, rfl⟩, ?_⟩
    refine Fallible.eval_bind_eq_ok.mpr ⟨_, (streamZeros_eq_ok (by simpa using hsplit)).mpr
      ⟨_, hsplit, rfl⟩, ?_⟩
    simp [archiveMember]

/-- The archive checks succeed exactly on the archives, and return their members. -/
theorem archiveStream_eq_ok (hmaxWasm : maxWasmBytes ≤ packageWasmMaxBytes)
    {manifestBytes signature wasm : List UInt8} :
    Fallible.eval (snapshot package) (archiveStream package.length maxWasmBytes) =
        .ok (manifestBytes, signature, wasm) ↔
      IsArchive maxWasmBytes package manifestBytes signature wasm := by
  have hstart : ([] : List UInt8) ++ package = package := List.nil_append _
  rw [archiveStream]
  constructor
  · intro hmembers
    obtain ⟨read, hread, hmembers⟩ := Fallible.eval_bind_eq_ok.mp hmembers
    obtain ⟨_, rest, hsplit, hpos, hmax, rfl⟩ := (archiveManifest_eq_ok hstart).mp hread
    obtain ⟨read, hread, hmembers⟩ := Fallible.eval_bind_eq_ok.mp hmembers
    obtain ⟨_, rest, hsplit, hlength, rfl⟩ := (archiveSignature_eq_ok hsplit).mp hread
    obtain ⟨read, hread, hmembers⟩ := Fallible.eval_bind_eq_ok.mp hmembers
    obtain ⟨_, rest, hsplit, hwasmMin, hwasmMax, rfl⟩ :=
      (archivePayload_eq_ok hmaxWasm hsplit).mp hread
    obtain ⟨last, hlast, hmembers⟩ := Fallible.eval_bind_eq_ok.mp hmembers
    obtain ⟨hleast, hzeros, rfl⟩ := (verifyEnd_eq_ok hsplit).mp hlast
    rw [Fallible.eval_pure, Except.ok.injEq, Prod.mk.injEq, Prod.mk.injEq] at hmembers
    obtain ⟨rfl, rfl, rfl⟩ := hmembers
    exact ⟨⟨hleast, hzeros⟩, hpos, hmax, hlength, hwasmMin, hwasmMax⟩
  · intro harchive
    obtain ⟨hleast, zeros, hzeros⟩ := harchive.layout
    have hmembers : [] ++ archiveMember (ascii "manifest.json") manifestBytes ++
        archiveMember (ascii "signature.bin") signature ++
        archiveMember (ascii "app.wasm") wasm ++ List.replicate zeros 0 = package := hzeros.symm
    refine Fallible.eval_bind_eq_ok.mpr ⟨_, (archiveManifest_eq_ok hstart).mpr
      ⟨_, _, by simpa using hmembers, harchive.manifest_pos, harchive.manifest_le, rfl⟩, ?_⟩
    refine Fallible.eval_bind_eq_ok.mpr ⟨_, (archiveSignature_eq_ok (by simpa using hmembers)).mpr
      ⟨_, _, by simpa using hmembers, harchive.signature_length, rfl⟩, ?_⟩
    refine Fallible.eval_bind_eq_ok.mpr ⟨_,
      (archivePayload_eq_ok hmaxWasm (by simpa using hmembers)).mpr
        ⟨_, _, hmembers, harchive.wasm_ge, harchive.wasm_le, rfl⟩, ?_⟩
    refine Fallible.eval_bind_eq_ok.mpr ⟨_, (verifyEnd_eq_ok hmembers).mpr
      ⟨hleast, ⟨zeros, hzeros⟩, rfl⟩, ?_⟩
    rw [Fallible.eval_pure]

/-- An archive is a whole number of blocks. -/
theorem IsPackage.blocks {manifestBytes signature wasm : List UInt8}
    (hlayout : IsPackage package manifestBytes signature wasm) : tarBlockBytes ∣ package.length :=
  Dvd.dvd.trans (by decide) hlayout.1.1.1

/-- The checks of a whole package, its size included. -/
theorem archiveMembers_eq_ok (hmaxWasm : maxWasmBytes ≤ packageWasmMaxBytes)
    {manifestBytes signature wasm : List UInt8} :
    archiveMembers package maxWasmBytes = .ok (manifestBytes, signature, wasm) ↔
      IsArchive maxWasmBytes package manifestBytes signature wasm ∧
        package.length ≤ maxWasmBytes + 12288 := by
  rw [archiveMembers, ← archiveStream_eq_ok hmaxWasm]
  constructor
  · intro hmembers
    split at hmembers
    · cases hmembers
    · next hguard =>
      refine ⟨hmembers, ?_⟩
      simp only [Bool.or_eq_true, bne_iff_ne, decide_eq_true_eq, not_or, not_lt] at hguard
      simpa [Nat.add_assoc] using hguard.2
  · rintro ⟨hstream, hbound⟩
    have hblocks := ((archiveStream_eq_ok hmaxWasm).mp hstream).layout.blocks
    rw [if_neg, hstream]
    simp only [Bool.or_eq_true, bne_iff_ne, decide_eq_true_eq, not_or, not_lt, not_not]
    exact ⟨Nat.mod_eq_zero_of_dvd hblocks, by simpa [Nat.add_assoc] using hbound⟩

end Package
