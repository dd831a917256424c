/-
# What verification accepts

Verification over a fixed snapshot accepts exactly the archives whose manifest parses,
whose signature verifies and whose payload is the one the manifest names. The manifest
and the signature are read by the archive checks and then looked at; the payload is
looked at while it is read.
-/

import EspContainer.Package.ArchiveChecks

namespace Package

open Binary Interaction

/-- What verification demands of a package besides its size, under a key, a key id
and a bound on the payload. -/
structure Accepted (crypto : Crypto) (maxWasmBytes : Nat) (publicKey expectedKeyId : List UInt8)
    (package manifestBytes signature wasm : List UInt8) (manifest : Manifest) : Prop where
  layout : IsPackage package manifestBytes signature wasm
  manifest_pos : 1 ≤ manifestBytes.length
  manifest_le : manifestBytes.length ≤ packageManifestMaxBytes
  signature_length : signature.length = packageSignatureBytes
  wasm_ge : 8 ≤ wasm.length
  wasm_le : wasm.length ≤ maxWasmBytes
  parsed : parseManifest manifestBytes expectedKeyId maxWasmBytes = some manifest
  signed : signatureVerify crypto publicKey manifestBytes signature = true
  wasm_header : wasmHeader <+: wasm
  wasm_length : wasm.length = manifest.wasmSizeBytes.toNat
  wasm_digest : crypto.sha256 wasm = manifest.wasmSha256

/-- Where the payload begins: behind two members and a header. -/
def wasmOffset (manifestBytes signature : List UInt8) : Nat :=
  (archiveMember (ascii "manifest.json") manifestBytes ++
    archiveMember (ascii "signature.bin") signature).length + tarBlockBytes

/-- What verification reports about an accepted package. -/
def verifiedPackage (crypto : Crypto) (package manifestBytes signature wasm : List UInt8)
    (manifest : Manifest) : Verified where
  info := manifest.info package.length manifestBytes.length (wasmOffset manifestBytes signature)
    wasm.length (crypto.sha256 wasm) (crypto.sha256 package)
  manifest := manifestBytes
  signature := signature

/-! ## The members -/

variable {package before after : List UInt8} {crypto : Crypto} {maxWasmBytes : Nat}
  {publicKey expectedKeyId : List UInt8}

/-- What is accepted is an archive with contents that are accepted. -/
theorem accepted_iff {manifestBytes signature wasm : List UInt8} {manifest : Manifest} :
    Accepted crypto maxWasmBytes publicKey expectedKeyId package manifestBytes signature wasm
        manifest ↔
      IsArchive maxWasmBytes package manifestBytes signature wasm ∧
        parseManifest manifestBytes expectedKeyId maxWasmBytes = some manifest ∧
        signatureVerify crypto publicKey manifestBytes signature = true ∧ wasmHeader <+: wasm ∧
        wasm.length = manifest.wasmSizeBytes.toNat ∧ crypto.sha256 wasm = manifest.wasmSha256 := by
  constructor
  · rintro ⟨hlayout, hpos, hmax, hlength, hmin, hfits, hparsed, hsigned, hheader, hsize, hdigest⟩
    exact ⟨⟨hlayout, hpos, hmax, hlength, hmin, hfits⟩, hparsed, hsigned, hheader, hsize, hdigest⟩
  · rintro ⟨⟨hlayout, hpos, hmax, hlength, hmin, hfits⟩, hparsed, hsigned, hheader, hsize, hdigest⟩
    exact ⟨hlayout, hpos, hmax, hlength, hmin, hfits, hparsed, hsigned, hheader, hsize, hdigest⟩

/-- The manifest is parsed once it is read. -/
theorem verifyManifest_eq (stream : Stream) :
    verifyManifest expectedKeyId maxWasmBytes stream = archiveManifest stream >>= fun read =>
      match parseManifest read.1 expectedKeyId maxWasmBytes with
      | none => throw .invalid
      | some manifest => pure (read.1, manifest, read.2) := by
  simp only [verifyManifest, archiveManifest, bind_assoc, pure_bind] <;> rfl

theorem verifyManifest_eq_ok (hpackage : before ++ after = package)
    {read : List UInt8 × Manifest × Stream} :
    Fallible.eval (snapshot package)
        (verifyManifest expectedKeyId maxWasmBytes (.between before after)) = .ok read ↔
      ∃ manifestBytes manifest rest,
        before ++ archiveMember (ascii "manifest.json") manifestBytes ++ rest = package ∧
        1 ≤ manifestBytes.length ∧ manifestBytes.length ≤ packageManifestMaxBytes ∧
        parseManifest manifestBytes expectedKeyId maxWasmBytes = some manifest ∧
        read = (manifestBytes, manifest, .between
          (before ++ archiveMember (ascii "manifest.json") manifestBytes) rest) := by
  rw [verifyManifest_eq]
  constructor
  · intro hread
    obtain ⟨member, hmember, hread⟩ := Fallible.eval_bind_eq_ok.mp hread
    obtain ⟨manifestBytes, rest, hsplit, hpos, hmax, rfl⟩ :=
      (archiveManifest_eq_ok hpackage).mp hmember
    cases hparsed : parseManifest manifestBytes expectedKeyId maxWasmBytes with
    | none => simp [hparsed] at hread
    | some manifest =>
        simp only [hparsed, Fallible.eval_pure, Except.ok.injEq] at hread
        exact ⟨manifestBytes, manifest, rest, hsplit, hpos, hmax, hparsed, hread.symm⟩
  · rintro ⟨manifestBytes, manifest, rest, hsplit, hpos, hmax, hparsed, rfl⟩
    refine Fallible.eval_bind_eq_ok.mpr ⟨_, (archiveManifest_eq_ok hpackage).mpr
      ⟨_, _, hsplit, hpos, hmax, rfl⟩, ?_⟩
    simp [hparsed]

/-- The signature is checked once it is read. -/
theorem verifySignature_eq (manifestBytes : List UInt8) (stream : Stream) :
    verifySignature crypto publicKey manifestBytes stream = archiveSignature stream >>= fun read =>
      Fallible.require (signatureVerify crypto publicKey manifestBytes read.1) .untrusted >>= fun _ =>
        pure (read.1, read.2) := by
  simp only [verifySignature, archiveSignature, bind_assoc, pure_bind]

theorem verifySignature_eq_ok (hpackage : before ++ after = package) {manifestBytes : List UInt8}
    {read : List UInt8 × Stream} :
    Fallible.eval (snapshot package)
        (verifySignature crypto publicKey manifestBytes (.between before after)) = .ok read ↔
      ∃ signature rest,
        before ++ archiveMember (ascii "signature.bin") signature ++ rest = package ∧
        signature.length = packageSignatureBytes ∧
        signatureVerify crypto publicKey manifestBytes signature = true ∧
        read = (signature, .between
          (before ++ archiveMember (ascii "signature.bin") signature) rest) := by
  rw [verifySignature_eq]
  constructor
  · intro hread
    obtain ⟨member, hmember, hread⟩ := Fallible.eval_bind_eq_ok.mp hread
    obtain ⟨signature, rest, hsplit, hlength, rfl⟩ := (archiveSignature_eq_ok hpackage).mp hmember
    obtain ⟨hsigned, hread⟩ := Fallible.eval_require_bind_eq_ok.mp hread
    exact ⟨signature, rest, hsplit, hlength, hsigned, (Except.ok.inj hread).symm⟩
  · rintro ⟨signature, rest, hsplit, hlength, hsigned, rfl⟩
    refine Fallible.eval_bind_eq_ok.mpr ⟨_, (archiveSignature_eq_ok hpackage).mpr
      ⟨_, _, hsplit, hlength, rfl⟩, ?_⟩
    exact Fallible.eval_require_bind_eq_ok.mpr ⟨hsigned, Fallible.eval_pure _ _⟩

theorem payloadSize_checked {size expected : Nat} :
    (!(size != expected || decide (size < 8) || decide (size > maxWasmBytes))) = true ↔
      size = expected ∧ 8 ≤ size ∧ size ≤ maxWasmBytes := by
  simp [and_assoc]

theorem verifyPayload_eq_ok (hpackage : before ++ after = package) {manifest : Manifest}
    {read : List UInt8 × Nat × Stream} :
    Fallible.eval (snapshot package)
        (verifyPayload crypto manifest maxWasmBytes (.between before after)) = .ok read ↔
      ∃ wasm rest,
        before ++ archiveMember (ascii "app.wasm") wasm ++ rest = package ∧
        wasm.length = manifest.wasmSizeBytes.toNat ∧ 8 ≤ wasm.length ∧
        wasm.length ≤ maxWasmBytes ∧ wasmHeader <+: wasm ∧
        crypto.sha256 wasm = manifest.wasmSha256 ∧
        read = (wasm, before.length + tarBlockBytes, .between
          (before ++ archiveMember (ascii "app.wasm") wasm) rest) := by
  have hname : (ascii "app.wasm").length < 100 := by decide
  have hoffset (size : Nat) (rest : List UInt8) :
      (Stream.between (before ++ memberHeader (ascii "app.wasm") size) rest).cursor =
        before.length + tarBlockBytes := by
    change (before ++ memberHeader (ascii "app.wasm") size).length = _
    rw [List.length_append, length_memberHeader hname]
  simp only [append_archiveMember]
  rw [verifyPayload]
  constructor
  · intro hread
    obtain ⟨header, hheader, hread⟩ := Fallible.eval_bind_eq_ok.mp hread
    obtain ⟨memberSize, rest, hsplit, -, rfl⟩ := (streamHeader_eq_ok hpackage hname).mp hheader
    obtain ⟨hsize, hread⟩ := Fallible.eval_require_bind_eq_ok.mp hread
    obtain ⟨hmanifest, hmin, hmax⟩ := payloadSize_checked.mp hsize
    obtain ⟨_, -, hread⟩ := Fallible.eval_bind_eq_ok.mp hread
    obtain ⟨bytes, hbytes, hread⟩ := Fallible.eval_bind_eq_ok.mp hread
    obtain ⟨wasm, rest, hsplit, rfl, hheader, rfl⟩ := (streamWasm_eq_ok hsplit hmin).mp hbytes
    obtain ⟨_, -, hread⟩ := Fallible.eval_bind_eq_ok.mp hread
    obtain ⟨hdigest, hread⟩ := Fallible.eval_require_bind_eq_ok.mp hread
    obtain ⟨stream, hstream, hread⟩ := Fallible.eval_bind_eq_ok.mp hread
    obtain ⟨rest, hsplit, rfl⟩ := (streamZeros_eq_ok hsplit).mp hstream
    refine ⟨wasm, rest, hsplit, hmanifest, hmin, hmax, hheader, beq_iff_eq.mp hdigest, ?_⟩
    rw [← Except.ok.inj hread, hoffset]
    simp [archiveMember]
  · rintro ⟨wasm, rest, hsplit, hmanifest, hmin, hmax, hheader, hdigest, rfl⟩
    have hfits : wasm.length ≤ uint32Max := by
      rw [hmanifest]
      exact Nat.le_of_lt_succ manifest.wasmSizeBytes.toNat_lt
    refine Fallible.eval_bind_eq_ok.mpr ⟨_, (streamHeader_eq_ok hpackage hname).mpr
      ⟨_, _, by simpa using hsplit, hfits, rfl⟩, ?_⟩
    refine Fallible.eval_require_bind_eq_ok.mpr
      ⟨payloadSize_checked.mpr ⟨hmanifest, hmin, hmax⟩, ?_⟩
    refine Fallible.eval_bind_eq_ok.mpr ⟨_, eval_digestStep _, ?_⟩
    refine Fallible.eval_bind_eq_ok.mpr ⟨_, (streamWasm_eq_ok (by simpa using hsplit) hmin).mpr
      ⟨_, _, by simpa using hsplit, rfl, hheader, rfl⟩, ?_⟩
    refine Fallible.eval_bind_eq_ok.mpr ⟨_, eval_digestStep _, ?_⟩
    refine Fallible.eval_require_bind_eq_ok.mpr ⟨beq_iff_eq.mpr hdigest, ?_⟩
    refine Fallible.eval_bind_eq_ok.mpr ⟨_, (streamZeros_eq_ok (by simpa using hsplit)).mpr
      ⟨_, hsplit, rfl⟩, ?_⟩
    rw [Fallible.eval_pure, hoffset]
    simp [archiveMember]

/-- Verification of a snapshot succeeds exactly on the accepted packages, and reports
what they contain. -/
theorem verifyStream_eq_ok {verified : Verified} :
    Fallible.eval (snapshot package)
        (verifyStream crypto package.length maxWasmBytes publicKey expectedKeyId) =
        .ok verified ↔
      ∃ manifestBytes signature wasm manifest,
        Accepted crypto maxWasmBytes publicKey expectedKeyId package manifestBytes signature wasm
          manifest ∧
        verified = verifiedPackage crypto package manifestBytes signature wasm manifest := by
  have hstart : ([] : List UInt8) ++ package = package := List.nil_append _
  rw [verifyStream]
  constructor
  · intro hverified
    obtain ⟨read, hread, hverified⟩ := Fallible.eval_bind_eq_ok.mp hverified
    obtain ⟨manifestBytes, manifest, rest, hsplit, hpos, hmax, hparsed, rfl⟩ :=
      (verifyManifest_eq_ok hstart).mp hread
    obtain ⟨read, hread, hverified⟩ := Fallible.eval_bind_eq_ok.mp hverified
    obtain ⟨signature, rest, hsplit, hlength, hsigned, rfl⟩ :=
      (verifySignature_eq_ok hsplit).mp hread
    obtain ⟨read, hread, hverified⟩ := Fallible.eval_bind_eq_ok.mp hverified
    obtain ⟨wasm, rest, hsplit, hwasmLength, hwasmMin, hwasmMax, hheader, hdigest, rfl⟩ :=
      (verifyPayload_eq_ok hsplit).mp hread
    obtain ⟨last, hlast, hverified⟩ := Fallible.eval_bind_eq_ok.mp hverified
    obtain ⟨hleast, hzeros, rfl⟩ := (verifyEnd_eq_ok hsplit).mp hlast
    exact ⟨manifestBytes, signature, wasm, manifest,
      { layout := ⟨hleast, hzeros⟩
        manifest_pos := hpos
        manifest_le := hmax
        signature_length := hlength
        wasm_ge := hwasmMin
        wasm_le := hwasmMax
        parsed := hparsed
        signed := hsigned
        wasm_header := hheader
        wasm_length := hwasmLength
        wasm_digest := hdigest },
      (Except.ok.inj hverified).symm⟩
  · rintro ⟨manifestBytes, signature, wasm, manifest, haccepted, rfl⟩
    obtain ⟨hleast, zeros, hzeros⟩ := haccepted.layout
    have hmembers : [] ++ archiveMember (ascii "manifest.json") manifestBytes ++
        archiveMember (ascii "signature.bin") signature ++
        archiveMember (ascii "app.wasm") wasm ++ List.replicate zeros 0 = package := hzeros.symm
    refine Fallible.eval_bind_eq_ok.mpr ⟨_, (verifyManifest_eq_ok hstart).mpr
      ⟨_, _, _, by simpa using hmembers, haccepted.manifest_pos, haccepted.manifest_le,
        haccepted.parsed, rfl⟩, ?_⟩
    refine Fallible.eval_bind_eq_ok.mpr ⟨_, (verifySignature_eq_ok (by simpa using hmembers)).mpr
      ⟨_, _, by simpa using hmembers, haccepted.signature_length, haccepted.signed, rfl⟩, ?_⟩
    refine Fallible.eval_bind_eq_ok.mpr ⟨_, (verifyPayload_eq_ok (by simpa using hmembers)).mpr
      ⟨_, _, hmembers, haccepted.wasm_length, haccepted.wasm_ge, haccepted.wasm_le,
        haccepted.wasm_header, haccepted.wasm_digest, rfl⟩, ?_⟩
    refine Fallible.eval_bind_eq_ok.mpr ⟨_, (verifyEnd_eq_ok hmembers).mpr
      ⟨hleast, ⟨zeros, hzeros⟩, rfl⟩, ?_⟩
    rfl

end Package
