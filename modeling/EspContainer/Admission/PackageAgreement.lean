/-
# Packages on the host and on the device

`verify_package` and the two device functions that a package has to pass, verification and
the check of its module, accept the same packages under the same key, except that the device
also takes manifests with a comma behind the last capability.
-/

import EspContainer.Admission.ManifestAgreement
import EspContainer.Package.Admission
import EspContainer.Tools.Packing

namespace Package

open Binary Interaction Text Wasm

/-- Host and device have the same hash function, and the public key that the tool loads verifies
what the key on the device does. -/
structure SameTrust {P S : Type} (crypto : Crypto) (cryptography : Tools.Cryptography P S)
    (publicKey pem : List UInt8) : Prop where
  sha256 : cryptography.sha256 = crypto.sha256
  key : ∃ key, cryptography.loadPublicKey pem = .ok (.rsa key 3072) ∧
    ∀ message signature, signature.length = packageSignatureBytes →
      cryptography.verify key message signature = crypto.pssVerify publicKey message signature

/-- An authorization for everything. -/
def openAuthorization : WasmAuthorization := ⟨capAll, 0xFFFFFFFF, 0xFFFFFFFF⟩

variable {F P S : Type} {interpreter : Tools.Interpreter F} {cryptography : Tools.Cryptography P S}
  {crypto : Crypto} {publicKey pem manifestBytes signature wasm package : List UInt8}
  {expectedKeyId : String} {maxWasmBytes : Nat} {record : Tools.ManifestRecord} {found : Manifest}

/-! ## The package of the module that logs -/

/-- A library with one digest and one key, whose signatures are all zeros. -/
def constantCryptography : Tools.Cryptography Unit Unit where
  sha256 := fun _ => .zero 32
  loadPublicKey := fun _ => .ok (.rsa () 3072)
  loadPrivateKey := fun _ => .ok (.rsa () 3072)
  sign := fun _ _ _ => List.replicate packageSignatureBytes 0
  verify := fun _ _ _ => true

/-- The package, with a signature of zeros. -/
def loggingPackage : List UInt8 :=
  Tools.canonicalPackage (encoded loggingRecord.text) (List.replicate packageSignatureBytes 0)
    loggingModule

theorem sameTrust_constant : SameTrust constantCrypto constantCryptography [0] [] where
  sha256 := rfl
  key := ⟨(), rfl, fun _ _ _ => rfl⟩

theorem verifySignature_constant {message signature : List UInt8}
    (hsignature : signature.length = packageSignatureBytes) :
    Tools.verifySignature constantCryptography message signature [] = .ok () := by
  rw [Tools.verifySignature, hsignature]
  rfl

theorem payloadMatches_logging :
    Tools.payloadMatches constantCryptography loggingRecord loggingModule = true := by
  decide +kernel

theorem checkDeclaredCapabilities_logging :
    Tools.checkDeclaredCapabilities loggingModule loggingRecord = .ok () := by
  decide +kernel

theorem length_loggingPackage : loggingPackage.length ≤ packageWasmMaxBytes + 12288 := by
  refine Tools.length_canonicalPackage_le ?_ (List.length_replicate ..) (by decide +kernel)
  rw [length_encoded]
  exact length_loggingRecord

/-- The tools accept it. -/
theorem verifyPackage_logging :
    Tools.verifyPackage plainInterpreter constantCryptography loggingPackage [] "test-key"
      packageWasmMaxBytes = .ok loggingRecord :=
  (Tools.verifyPackage_eq_ok (by decide)).mpr ⟨_, _, loggingModule, Tools.isPackage_iff.mpr rfl,
    by decide +kernel, length_loggingPackage, manifest_logging, rfl,
    verifySignature_constant (List.length_replicate ..), payloadMatches_logging,
    checkDeclaredCapabilities_logging⟩

/-! ## Signatures and digests -/

theorem verifySignature_iff (htrust : SameTrust crypto cryptography publicKey pem) :
    Tools.verifySignature cryptography manifestBytes signature pem = .ok () ↔
      signature.length = packageSignatureBytes ∧
        signatureVerify crypto publicKey manifestBytes signature = true := by
  obtain ⟨key, hkey, hverify⟩ := htrust.key
  have hloaded : Tools.publicKey cryptography pem = .ok key := by
    rw [Tools.publicKey, hkey]
    rfl
  rw [Tools.verifySignature, Tools.raising_bind_eq_ok]
  simp only [Tools.demand_eq_ok, beq_iff_eq, exists_const]
  refine and_congr_right fun hlength => ?_
  rw [hloaded, signatureVerify, ← hverify _ _ hlength]
  exact Tools.demand_eq_ok

theorem codes_hexDigest (digest : Sha256) : codes (Tools.hexDigest digest) = hexText digest.toList := by
  refine codes_ofList fun code hcode => ?_
  exact Nat.lt_trans (mem_hexText hcode).1 (by decide)

/-- The payload is the one of the record exactly if it is the one of what the scanner found. -/
theorem payloadMatches_iff (hfound : ManifestFound record found)
    (hsha256 : cryptography.sha256 = crypto.sha256) :
    Tools.payloadMatches cryptography record wasm = true ↔
      wasm.length = found.wasmSizeBytes.toNat ∧ crypto.sha256 wasm = found.wasmSha256 := by
  rw [Tools.payloadMatches, Bool.and_eq_true, beq_iff_eq, beq_iff_eq, hfound.wasmSize, hsha256,
    eq_comm]
  refine and_congr_right fun _ => ?_
  rw [← codes_injective.eq_iff, codes_hexDigest, ← hfound.wasmDigest]
  constructor
  · intro hdigits
    exact Bytes.ext (hexText_injective hdigits).symm
  · intro hdigest
    rw [hdigest]

/-! ## Modules -/

/-- What the device knows of an accepted package is what its record says. -/
theorem Accepted.signedFacts (hfound : ManifestFound record found)
    (haccepted : Accepted crypto maxWasmBytes publicKey (ascii expectedKeyId) package manifestBytes
      signature wasm found) :
    SignedFacts crypto record wasm package
      (verifiedPackage crypto package manifestBytes signature wasm found).info where
  guestAbi := hfound.guestAbi
  profile := hfound.profile
  capabilities := hfound.capabilities
  unknown := hfound.unknown
  memory := hfound.memory
  stack := hfound.stack
  payload := haccepted.payloadAt
  wasmSize := rfl
  packageSize := rfl
  digest := rfl

theorem allows_openAuthorization (hrecord : record.Valid) : Allows openAuthorization record where
  capabilities := rfl
  memory := Nat.max_le.mpr ⟨hrecord.memory.2, by decide⟩
  stack := hrecord.stack.2

/-- The check of the module is the tools' check. -/
theorem packageWasmCheck_iff {info : Info} (hrecord : record.Valid)
    (hfacts : SignedFacts crypto record wasm package info) (hminimum : 8 ≤ wasm.length)
    (hmaximum : wasm.length ≤ packageWasmMaxBytes) :
    (packageWasmCheck crypto true (some info) (some openAuthorization) true).eval (snapshot package) =
        .ok () ↔
      Tools.checkDeclaredCapabilities wasm record = .ok () := by
  have hallows := allows_openAuthorization hrecord
  rw [eval_packageWasmCheck_eq_ok hfacts.payload hfacts.wasmSize.symm,
    wasmBoundsValid_iff hfacts hallows hrecord.stack.1, wasmProfileSupported_iff hfacts,
    hfacts.capabilities, hfacts.memory, Tools.checkDeclaredCapabilities_eq_ok]
  constructor
  · rintro ⟨-, hsupported, -, ⟨sections, imports, exported, typeCount, definedCount, haccepted⟩, -⟩
    obtain ⟨required, found, haccepts, hcapabilities⟩ := haccepted.scanAccepts
    have hrequested := haccepted.requested
    rw [hcapabilities] at hrequested
    exact ⟨hsupported, required, (Tools.wasmScan_eq_ok hmaximum).mpr ⟨found, haccepts⟩,
      (capabilityMask_and_not_eq_zero haccepts.imports.known).mp hrequested⟩
  · rintro ⟨hsupported, required, hscan, hsubset⟩
    obtain ⟨found, haccepts⟩ := (Tools.wasmScan_eq_ok hmaximum).mp hscan
    have hrequested := (capabilityMask_and_not_eq_zero haccepts.imports.known).mpr hsubset
    obtain ⟨sections, imports, exported, typeCount, definedCount, haccepted, -⟩ :=
      moduleAccepted_of_scanAccepts haccepts hrequested
    exact ⟨⟨hminimum, hmaximum, page_le_of_scanAccepts haccepts⟩, hsupported,
      wasmAuthorized_of_allows hfacts hallows, ⟨_, _, _, _, _, haccepted⟩, hfacts.digest.symm⟩

/-- A module that the tools have checked begins as every module does. -/
theorem wasmHeader_prefix (hmaximum : wasm.length ≤ packageWasmMaxBytes)
    (hchecked : Tools.checkDeclaredCapabilities wasm record = .ok ()) : wasmHeader <+: wasm := by
  obtain ⟨-, required, hscan, -⟩ := Tools.checkDeclaredCapabilities_eq_ok.mp hchecked
  obtain ⟨found, haccepts⟩ := (Tools.wasmScan_eq_ok hmaximum).mp hscan
  obtain ⟨content, -, rfl, -⟩ := haccepts.sections
  exact List.prefix_append wasmHeader content

/-! ## The device -/

/-- The device lets a package in: verification succeeds and leaves this manifest in the
workspace, and the check of the module succeeds with what verification has reported. -/
structure LetIn (crypto : Crypto) (authorization : WasmAuthorization) (package : List UInt8)
    (outcome : VerifyOutcome) (manifestBytes : List UInt8) : Prop where
  verified : outcome.result = .ok ()
  manifest : ∃ workspace, outcome.workspace = some workspace ∧
    workspace.manifest.toList.take outcome.info.manifestSizeBytes = manifestBytes
  checked : (packageWasmCheck crypto true (some outcome.info) (some authorization) true).eval
    (snapshot package) = .ok ()

theorem letIn_iff {keyId : List UInt8} {authorization : WasmAuthorization} {buffers : Workspace}
    (hmin : 8 ≤ maxWasmBytes) (hmax : maxWasmBytes ≤ packageWasmMaxBytes)
    (hkey : 1 ≤ publicKey.length ∧ publicKey.length ≤ 1024) :
    LetIn crypto authorization package ((packageVerify crypto
        (.complete package.length maxWasmBytes publicKey keyId) (some buffers)).eval (snapshot package))
        manifestBytes ↔
      package.length ≤ maxWasmBytes + 12288 ∧ ∃ signature wasm found,
        Accepted crypto maxWasmBytes publicKey keyId package manifestBytes signature wasm found ∧
        (packageWasmCheck crypto true
          (some (verifiedPackage crypto package manifestBytes signature wasm found).info)
          (some authorization) true).eval (snapshot package) = .ok () := by
  cases hrefused : (VerifyArguments.complete package.length maxWasmBytes publicKey keyId).refused
      publicKey with
  | true =>
      rw [packageVerify_complete, hrefused, if_pos rfl]
      constructor
      · intro hletIn
        cases hletIn.verified
      · rintro ⟨hbound, signature, wasm, found, haccepted, -⟩
        rw [(refused_complete hmin hmax hkey).mpr ⟨haccepted.layout.blocks, hbound⟩] at hrefused
        cases hrefused
  | false =>
      rw [and_iff_right ((refused_complete hmin hmax hkey).mp hrefused).2, eval_packageVerify hrefused]
      constructor
      · intro hletIn
        have hverified := hletIn.verified
        cases hstream : Fallible.eval (snapshot package)
            (verifyStream crypto package.length maxWasmBytes publicKey keyId) with
        | error error =>
            rw [hstream] at hverified
            cases hverified
        | ok verified =>
            obtain ⟨text, signature, wasm, found, haccepted, rfl⟩ := verifyStream_eq_ok.mp hstream
            obtain ⟨workspace, hworkspace, hmanifest⟩ := hletIn.manifest
            have hchecked := hletIn.checked
            rw [hstream] at hworkspace hmanifest hchecked
            cases hworkspace
            -- The workspace begins with the manifest that was verified.
            have htext : ((overwrite buffers.manifest text).toList.drop 0).take text.length =
                (text.drop 0).take text.length :=
              overwrite_part haccepted.manifest_le (Nat.le_of_eq (Nat.zero_add _))
            rw [List.drop_zero, List.drop_zero, List.take_length] at htext
            obtain rfl : text = manifestBytes := htext.symm.trans hmanifest
            exact ⟨signature, wasm, found, haccepted, hchecked⟩
      · rintro ⟨signature, wasm, found, haccepted, hchecked⟩
        rw [verifyStream_eq_ok.mpr ⟨manifestBytes, signature, wasm, found, haccepted, rfl⟩]
        refine ⟨rfl, ⟨_, rfl, ?_⟩, hchecked⟩
        have htext := @overwrite_part _ buffers.manifest _ haccepted.manifest_le 0 manifestBytes.length
          (Nat.le_of_eq (Nat.zero_add _))
        rwa [List.drop_zero, List.drop_zero, List.take_length] at htext

/-! ## Agreement -/

theorem eq_of_ascii {first second : String} (hfirst : IsAscii (codes first))
    (hsecond : IsAscii (codes second)) (hsame : ascii first = ascii second) : first = second := by
  have hbyte {text : String} (htext : IsAscii (codes text)) : spelling (ascii text) = text :=
    spelling_ascii fun code hcode => Nat.lt_trans (htext code hcode) (by decide)
  rw [← hbyte hfirst, hsame, hbyte hsecond]

/-- What the tools accept is accepted by verification. -/
theorem accepted_of_verified (htrust : SameTrust crypto cryptography publicKey pem)
    (hmax : maxWasmBytes ≤ packageWasmMaxBytes)
    (hlayout : IsPackage package manifestBytes signature wasm) (hwasm : wasm.length ≤ maxWasmBytes)
    (hmanifest : Tools.manifest interpreter manifestBytes = .ok record)
    (hkeyId : record.signingKeyId = expectedKeyId)
    (hsigned : Tools.verifySignature cryptography manifestBytes signature pem = .ok ())
    (hpayload : Tools.payloadMatches cryptography record wasm = true)
    (hchecked : Tools.checkDeclaredCapabilities wasm record = .ok ()) :
    ∃ found, ManifestFound record found ∧ Accepted crypto maxWasmBytes publicKey (ascii expectedKeyId)
      package manifestBytes signature wasm found := by
  obtain ⟨hvalid, htext, hlength⟩ := Tools.eq_text_of_manifest hmanifest
  have hsize : record.payloadSizeBytes = wasm.length := by
    rw [Tools.payloadMatches, Bool.and_eq_true, beq_iff_eq] at hpayload
    exact hpayload.1
  obtain ⟨found, hfound⟩ := exists_found hvalid
    (hsize.trans_le (hwasm.trans (hmax.trans (by decide))))
  obtain ⟨hsignature, hverified⟩ := (verifySignature_iff htrust).mp hsigned
  obtain ⟨hwasmLength, hwasmDigest⟩ := (payloadMatches_iff hfound htrust.sha256).mp hpayload
  refine ⟨found, hfound, ?_⟩
  exact
    { layout := hlayout
      manifest_pos := by
        rw [htext, length_encoded]
        exact Tools.length_text_pos record
      manifest_le := hlength
      signature_length := hsignature
      wasm_ge := hsize ▸ hvalid.payloadSize
      wasm_le := hwasm
      parsed := parseManifest_of_manifest hmanifest (congrArg ascii hkeyId) (hsize.trans_le hwasm) hfound
      signed := hverified
      wasm_header := wasmHeader_prefix (hwasm.trans hmax) hchecked
      wasm_length := hwasmLength
      wasm_digest := hwasmDigest }

/-- What the tools accept is let in. -/
theorem letIn_of_verifyPackage (htrust : SameTrust crypto cryptography publicKey pem)
    (hmin : 8 ≤ maxWasmBytes) (hmax : maxWasmBytes ≤ packageWasmMaxBytes)
    (hkey : 1 ≤ publicKey.length ∧ publicKey.length ≤ 1024) (buffers : Workspace)
    (hverified : Tools.verifyPackage interpreter cryptography package pem expectedKeyId maxWasmBytes =
      .ok record) :
    LetIn crypto openAuthorization package ((packageVerify crypto
      (.complete package.length maxWasmBytes publicKey (ascii expectedKeyId)) (some buffers)).eval
        (snapshot package)) (encoded record.text) := by
  obtain ⟨manifestBytes, signature, wasm, hlayout, hwasm, hbound, hmanifest, hsame, hsigned, hpayload,
    hchecked⟩ := (Tools.verifyPackage_eq_ok (hmax.trans_lt (by decide))).mp hverified
  obtain ⟨found, hfound, haccepted⟩ := accepted_of_verified htrust hmax hlayout hwasm hmanifest hsame
    hsigned hpayload hchecked
  obtain ⟨hvalid, rfl, -⟩ := Tools.eq_text_of_manifest hmanifest
  exact (letIn_iff hmin hmax hkey).mpr ⟨hbound, signature, wasm, found, haccepted,
    (packageWasmCheck_iff hvalid (haccepted.signedFacts hfound) haccepted.wasm_ge
      (hwasm.trans hmax)).mpr hchecked⟩

/-- Host and device accept the same packages under the same key: the tools return a record
exactly if the device lets the package in with the text of this record for a manifest. So the
only packages that the device takes and the tools refuse are those whose manifest has a comma
behind the last capability. -/
theorem host_device_package (crypto : Crypto) (cryptography : Tools.Cryptography P S)
    (interpreter : Tools.Interpreter F) (hnesting : 2 ≤ interpreter.nesting)
    (publicKey pem : List UInt8) (htrust : SameTrust crypto cryptography publicKey pem)
    (hkey : 1 ≤ publicKey.length ∧ publicKey.length ≤ 1024) (expectedKeyId : String)
    (hkeyId : IsAscii (codes expectedKeyId)) (maxWasmBytes : Nat) (hmin : 8 ≤ maxWasmBytes)
    (hmax : maxWasmBytes ≤ packageWasmMaxBytes) (package : List UInt8) (buffers : Workspace) :
    (∀ record, Tools.verifyPackage interpreter cryptography package pem expectedKeyId maxWasmBytes =
        .ok record ↔
      record.Valid ∧ LetIn crypto openAuthorization package ((packageVerify crypto
        (.complete package.length maxWasmBytes publicKey (ascii expectedKeyId)) (some buffers)).eval
          (snapshot package)) (encoded record.text)) ∧
    ∀ manifestBytes, LetIn crypto openAuthorization package ((packageVerify crypto
        (.complete package.length maxWasmBytes publicKey (ascii expectedKeyId)) (some buffers)).eval
          (snapshot package)) manifestBytes →
      ∃ record, record.Valid ∧ (manifestBytes = encoded record.text ∨
        ExtraComma interpreter manifestBytes record) := by
  constructor
  · intro record
    constructor
    · intro hverified
      have hvalid : record.Valid := by
        obtain ⟨_, _, _, -, -, -, hmanifest, -⟩ :=
          (Tools.verifyPackage_eq_ok (hmax.trans_lt (by decide))).mp hverified
        exact (Tools.eq_text_of_manifest hmanifest).1
      exact ⟨hvalid, letIn_of_verifyPackage htrust hmin hmax hkey buffers hverified⟩
    · rw [letIn_iff hmin hmax hkey, Tools.verifyPackage_eq_ok (hmax.trans_lt (by decide))]
      rintro ⟨hvalid, hbound, signature, wasm, found, haccepted, hchecked⟩
      have hlength := haccepted.manifest_le
      rw [length_encoded] at hlength
      have hmanifest : Tools.manifest interpreter (encoded record.text) = .ok record :=
        Tools.manifest_text hnesting hvalid hlength
      obtain ⟨other, hfound, hsame, -, hother⟩ :=
        manifest_or_extraComma hnesting haccepted.manifest_le haccepted.parsed
      -- The text determines the record, and it is one that the tools accept.
      obtain rfl : record = other := by
        rcases hother with hother | hcomma
        · exact Except.ok.inj (hmanifest.symm.trans hother)
        · rw [hcomma.refused] at hmanifest
          cases hmanifest
      exact ⟨_, signature, wasm, haccepted.layout, haccepted.wasm_le, hbound, hmanifest,
        eq_of_ascii (Tools.isAscii_identifier hvalid.signingKeyId) hkeyId hsame,
        (verifySignature_iff htrust).mpr ⟨haccepted.signature_length, haccepted.signed⟩,
        (payloadMatches_iff hfound htrust.sha256).mpr ⟨haccepted.wasm_length, haccepted.wasm_digest⟩,
        (packageWasmCheck_iff hvalid (haccepted.signedFacts hfound) haccepted.wasm_ge
          (haccepted.wasm_le.trans hmax)).mp hchecked⟩
  · intro manifestBytes hletIn
    obtain ⟨-, signature, wasm, found, haccepted, -⟩ := (letIn_iff hmin hmax hkey).mp hletIn
    obtain ⟨record, -, -, -, hmanifest | hcomma⟩ :=
      manifest_or_extraComma hnesting haccepted.manifest_le haccepted.parsed
    · obtain ⟨hvalid, htext, -⟩ := Tools.eq_text_of_manifest hmanifest
      exact ⟨record, hvalid, .inl htext⟩
    · exact ⟨record, hcomma.valid, .inr hcomma⟩

/-- The device lets the package of the module that logs in. -/
theorem host_device_package_logging :
    LetIn constantCrypto openAuthorization loggingPackage ((packageVerify constantCrypto
      (.complete loggingPackage.length packageWasmMaxBytes [0] (ascii "test-key"))
        (some Workspace.zero)).eval (snapshot loggingPackage)) (encoded loggingRecord.text) :=
  (((host_device_package constantCrypto constantCryptography plainInterpreter (by decide) [0] []
    sameTrust_constant (by decide) "test-key" (by decide) packageWasmMaxBytes (by decide) le_rfl
    loggingPackage Workspace.zero).1 loggingRecord).mp verifyPackage_logging).2

end Package
