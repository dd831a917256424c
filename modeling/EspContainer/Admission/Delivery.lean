/-
# From a specification to the device

A manifest is created of a specification and a payload, signed, and packed with both; then
the package is verified on the host and let in by the device. Each step takes what the step
before it made. Only the bound on the length of a package may stand in the way, and it does
not where the bound on the payload is that of the device.
-/

import EspContainer.Admission.PackageAgreement
import EspContainer.Tools.Creating

namespace Package

open Binary Interaction Json Text

/-- Two files with the halves of one key: what the private half signs has the length of a
signature, and the public half verifies it. -/
structure KeyPair {P S : Type} (cryptography : Tools.Cryptography P S)
    (privatePem publicPem : List UInt8) : Prop where
  halves : ∃ secret key, cryptography.loadPrivateKey privatePem = .ok (.rsa secret 3072) ∧
    cryptography.loadPublicKey publicPem = .ok (.rsa key 3072) ∧ ∀ salt message,
      (cryptography.sign secret salt message).length = packageSignatureBytes ∧
        cryptography.verify key message (cryptography.sign secret salt message) = true

variable {F P S : Type} {interpreter : Tools.Interpreter F} {cryptography : Tools.Cryptography P S}
  {manifestBytes signature wasm package privatePem publicPem salt : List UInt8}
  {spec : List (List Nat × Value F)} {expectedKeyId : String} {record : Tools.ManifestRecord}

/-! ## Creating -/

/-- A manifest is created exactly of the specifications that, with the members that the tool
sets, are the value of a valid record that fits the payload, in whatever order the members of
their objects are; and it is the text of this record. -/
theorem created_manifest_exact (cryptography : Tools.Cryptography P S)
    (interpreter : Tools.Interpreter F) (hnesting : 2 ≤ interpreter.nesting)
    (hfloats : FloatsBack interpreter.decoder interpreter.formatFloat)
    (spec : List (List Nat × Value F)) (hspec : Keyed (.dict spec)) (wasm data : List UInt8) :
    Tools.createManifest interpreter cryptography spec wasm = .ok data ↔
      ∃ record : Tools.ManifestRecord, record.Valid ∧ data = encoded record.text ∧
        data.length ≤ packageManifestMaxBytes ∧
        arrange (.dict (Tools.completed cryptography spec wasm)) = record.value ∧
        Tools.payloadMatches cryptography record wasm = true ∧
        Tools.checkDeclaredCapabilities wasm record = .ok () := by
  constructor
  · intro hcreated
    obtain ⟨record, hmanifest, harranged, hchecked⟩ :=
      Tools.record_of_createManifest hfloats hspec hcreated
    obtain ⟨hvalid, htext, hlength⟩ := Tools.eq_text_of_manifest hmanifest
    exact ⟨record, hvalid, htext, hlength, harranged, Tools.payloadMatches_of_arrange harranged,
      hchecked⟩
  · rintro ⟨record, hvalid, rfl, hlength, harranged, -, hchecked⟩
    rw [length_encoded] at hlength
    exact Tools.createManifest_of_arrange hnesting hspec hvalid hlength harranged hchecked

/-- The specification of the module that logs, in some order. -/
def loggingSpec : List (List Nat × Value Unit) :=
  [(codes "product_id", .str (codes "counter")), (codes "product_version", .str (codes "1")),
    (codes "signing_key_id", .str (codes "test-key")),
    (codes "runtime_profile", .str (codes "wamr-classic-v1")),
    (codes "required_capabilities", .list [.str (codes "log"), .str (codes "timer")]),
    (codes "guest_abi_version", .int 1), (codes "data_schema_version", .int 1),
    (codes "limits", .dict
      [(codes "stack_limit_bytes", .int 4096), (codes "memory_limit_bytes", .int 65536),
        (codes "instruction_budget", .int 10000), (codes "event_queue_limit", .int 4),
        (codes "storage_limit_bytes", .int 0), (codes "host_call_timeout_ms", .int 100)])]

theorem keyed_loggingSpec : Keyed (.dict loggingSpec) := by
  refine .dict ?_ (by decide)
  simp only [loggingSpec, List.forall_mem_cons]
  refine ⟨.str _, .str _, .str _, .str _, .list ?_, .int _, .int _, .dict ?_ (by decide), by simp⟩
  · simp only [List.forall_mem_cons]
    exact ⟨.str _, .str _, by simp⟩
  · simp only [List.forall_mem_cons]
    exact ⟨.int _, .int _, .int _, .int _, .int _, .int _, by simp⟩

theorem floatsBack_plain : FloatsBack plainInterpreter.decoder plainInterpreter.formatFloat := by
  intro value text htext
  cases htext

set_option maxRecDepth 8192 in
theorem arrange_loggingSpec :
    arrange (.dict (Tools.completed constantCryptography loggingSpec loggingModule)) =
      loggingRecord.value := rfl

theorem createManifest_logging :
    Tools.createManifest plainInterpreter constantCryptography loggingSpec loggingModule =
      .ok (encoded loggingRecord.text) :=
  Tools.createManifest_of_arrange (by decide) keyed_loggingSpec loggingRecord_valid
    length_loggingRecord arrange_loggingSpec checkDeclaredCapabilities_logging

theorem created_manifest_exact_logging :
    ∃ record : Tools.ManifestRecord, record.Valid ∧
      encoded loggingRecord.text = encoded record.text ∧
      arrange (.dict (Tools.completed constantCryptography loggingSpec loggingModule)) =
        record.value := by
  obtain ⟨record, hvalid, htext, -, harranged, -⟩ := (created_manifest_exact constantCryptography
    plainInterpreter (by decide) floatsBack_plain loggingSpec keyed_loggingSpec loggingModule
    (encoded loggingRecord.text)).mp createManifest_logging
  exact ⟨record, hvalid, htext, harranged⟩

/-! ## Packing -/

/-- What was packed is verified under a bound exactly if the payload and the package are within
it, the key id is the expected one and the signature verifies. The package of a payload that
the device takes is always within the device's bound. -/
theorem packed_is_verified (cryptography : Tools.Cryptography P S) (interpreter : Tools.Interpreter F)
    (manifestBytes signature wasm package pem : List UInt8) (expectedKeyId : String)
    (packBound verifyBound : Nat) (hverify : verifyBound ≤ packageWasmMaxBytes)
    (hpacked : Tools.pack interpreter cryptography manifestBytes signature wasm packBound =
      .ok package) :
    ∃ record, Tools.manifest interpreter manifestBytes = .ok record ∧
      IsPackage package manifestBytes signature wasm ∧
      (Tools.verifyPackage interpreter cryptography package pem expectedKeyId verifyBound = .ok record ↔
        wasm.length ≤ verifyBound ∧ package.length ≤ verifyBound + 12288 ∧
          record.signingKeyId = expectedKeyId ∧
          Tools.verifySignature cryptography manifestBytes signature pem = .ok ()) ∧
      (wasm.length ≤ packageWasmMaxBytes → package.length ≤ packageWasmMaxBytes + 12288) := by
  have hverified := fun record => @Tools.verifyPackage_of_pack _ _ _ interpreter cryptography
    manifestBytes signature wasm package pem record expectedKeyId packBound verifyBound
    (hverify.trans_lt (by decide)) hpacked
  obtain ⟨record, hmanifest, hsignature, -, -, -, -, rfl⟩ := Tools.pack_eq_ok.mp hpacked
  refine ⟨record, hmanifest, Tools.isPackage_iff.mpr rfl, ?_, ?_⟩
  · rw [hverified record, and_iff_right hmanifest]
  · exact Tools.length_canonicalPackage_le (Tools.eq_text_of_manifest hmanifest).2.2 hsignature

/-- A file with the one key of the library. -/
theorem keyPair_constant : KeyPair constantCryptography [] [] where
  halves := ⟨(), (), rfl, rfl, fun _ _ => ⟨List.length_replicate .., rfl⟩⟩

theorem pack_logging :
    Tools.pack plainInterpreter constantCryptography (encoded loggingRecord.text)
      (List.replicate packageSignatureBytes 0) loggingModule packageWasmMaxBytes =
        .ok loggingPackage :=
  Tools.pack_eq_ok.mpr ⟨loggingRecord, manifest_logging, List.length_replicate .., by decide +kernel,
    payloadMatches_logging, checkDeclaredCapabilities_logging, by decide +kernel, rfl⟩

theorem packed_is_verified_logging :
    ∃ record, Tools.verifyPackage plainInterpreter constantCryptography loggingPackage [] "test-key"
      packageWasmMaxBytes = .ok record := by
  obtain ⟨record, hmanifest, -, hverified, hlength⟩ := packed_is_verified constantCryptography
    plainInterpreter _ _ loggingModule loggingPackage [] "test-key" packageWasmMaxBytes
    packageWasmMaxBytes le_rfl pack_logging
  obtain rfl : loggingRecord = record := Except.ok.inj (manifest_logging.symm.trans hmanifest)
  have hwasm : loggingModule.length ≤ packageWasmMaxBytes := by decide +kernel
  exact ⟨loggingRecord, hverified.mpr ⟨hwasm, hlength hwasm, rfl,
    verifySignature_constant (List.length_replicate ..)⟩⟩

/-! ## Delivering -/

/-- What was signed is a manifest under the expected key id, and the signature verifies. -/
theorem verifySignature_of_signManifest (hkeys : KeyPair cryptography privatePem publicPem)
    (hsigned : Tools.signManifest interpreter cryptography manifestBytes privatePem expectedKeyId salt =
      .ok signature) :
    (∃ record, Tools.manifest interpreter manifestBytes = .ok record ∧
        record.signingKeyId = expectedKeyId) ∧
      Tools.verifySignature cryptography manifestBytes signature publicPem = .ok () := by
  obtain ⟨secret, key, hprivate, hpublic, hpair⟩ := hkeys.halves
  have hloadedPrivate : Tools.privateKey cryptography privatePem = .ok secret := by
    rw [Tools.privateKey, hprivate]
    rfl
  have hloadedPublic : Tools.publicKey cryptography publicPem = .ok key := by
    rw [Tools.publicKey, hpublic]
    rfl
  simp only [Tools.signManifest, Tools.raising_bind_eq_ok, Tools.raising_pure_eq_ok,
    Tools.demand_eq_ok, beq_iff_eq, hloadedPrivate, Except.ok.injEq] at hsigned
  obtain ⟨record, hmanifest, _, hkeyId, _, rfl, rfl⟩ := hsigned
  obtain ⟨hlength, hverifies⟩ := hpair salt (packageDomain ++ manifestBytes)
  refine ⟨⟨record, hmanifest, hkeyId⟩, ?_⟩
  rw [Tools.verifySignature, Tools.raising_bind_eq_ok]
  refine ⟨(), Tools.demand_eq_ok.mpr (beq_iff_eq.mpr hlength), ?_⟩
  rw [hloadedPublic]
  exact Tools.demand_eq_ok.mpr hverifies

/-- What was created and signed is packed, if the payload is within the bound. -/
theorem pack_of_created (hfloats : FloatsBack interpreter.decoder interpreter.formatFloat)
    (hspec : Keyed (.dict spec)) (hkeys : KeyPair cryptography privatePem publicPem)
    (hcreated : Tools.createManifest interpreter cryptography spec wasm = .ok manifestBytes)
    (hsigned : Tools.signManifest interpreter cryptography manifestBytes privatePem expectedKeyId salt =
      .ok signature) {maxWasmBytes : Nat} (hmax : maxWasmBytes ≤ packageWasmMaxBytes)
    (hwasm : wasm.length ≤ maxWasmBytes) :
    ∃ package, Tools.pack interpreter cryptography manifestBytes signature wasm maxWasmBytes =
      .ok package := by
  obtain ⟨record, hmanifest, harranged, hchecked⟩ := Tools.record_of_createManifest hfloats hspec hcreated
  have hsignature := Tools.length_of_verifySignature (verifySignature_of_signManifest hkeys hsigned).2
  exact ⟨_, Tools.pack_eq_ok.mpr ⟨record, hmanifest, hsignature, hwasm,
    Tools.payloadMatches_of_arrange harranged, hchecked, (hwasm.trans hmax).trans_lt (by decide), rfl⟩⟩

/-- From a specification to the device: what was created and signed under one half of a key is
packed, and verified on the host and let in by the device under the other half, exactly if the
package is within the bound on packages. Under the device's own bound it always is. -/
theorem delivery (crypto : Crypto) (cryptography : Tools.Cryptography P S)
    (interpreter : Tools.Interpreter F)
    (hfloats : FloatsBack interpreter.decoder interpreter.formatFloat)
    (privatePem publicPem publicKey : List UInt8) (hkeys : KeyPair cryptography privatePem publicPem)
    (htrust : SameTrust crypto cryptography publicKey publicPem)
    (hkey : 1 ≤ publicKey.length ∧ publicKey.length ≤ 1024) (spec : List (List Nat × Value F))
    (hspec : Keyed (.dict spec)) (wasm salt : List UInt8) (expectedKeyId : String)
    (maxWasmBytes : Nat) (hmin : 8 ≤ maxWasmBytes) (hmax : maxWasmBytes ≤ packageWasmMaxBytes)
    (manifestBytes signature : List UInt8) (buffers : Workspace)
    (hcreated : Tools.createManifest interpreter cryptography spec wasm = .ok manifestBytes)
    (hsigned : Tools.signManifest interpreter cryptography manifestBytes privatePem expectedKeyId salt =
      .ok signature)
    (hwasm : wasm.length ≤ maxWasmBytes) :
    ∃ record package, manifestBytes = encoded record.text ∧
      Tools.pack interpreter cryptography manifestBytes signature wasm maxWasmBytes = .ok package ∧
      (Tools.verifyPackage interpreter cryptography package publicPem expectedKeyId maxWasmBytes =
        .ok record ↔ package.length ≤ maxWasmBytes + 12288) ∧
      (LetIn crypto openAuthorization package ((packageVerify crypto
        (.complete package.length maxWasmBytes publicKey (ascii expectedKeyId)) (some buffers)).eval
          (snapshot package)) manifestBytes ↔ package.length ≤ maxWasmBytes + 12288) ∧
      (maxWasmBytes = packageWasmMaxBytes → package.length ≤ maxWasmBytes + 12288) := by
  obtain ⟨package, hpacked⟩ := pack_of_created hfloats hspec hkeys hcreated hsigned hmax hwasm
  obtain ⟨⟨record, hmanifest, hkeyId⟩, hverifies⟩ := verifySignature_of_signManifest hkeys hsigned
  obtain ⟨-, htext, hlength⟩ := Tools.eq_text_of_manifest hmanifest
  have hverified : Tools.verifyPackage interpreter cryptography package publicPem expectedKeyId
      maxWasmBytes = .ok record ↔ package.length ≤ maxWasmBytes + 12288 := by
    rw [Tools.verifyPackage_of_pack (hmax.trans_lt (by decide)) hpacked, and_iff_right hmanifest,
      and_iff_right hwasm, and_iff_left ⟨hkeyId, hverifies⟩]
  refine ⟨record, package, htext, hpacked, hverified, ⟨?_, ?_⟩, ?_⟩
  · intro hletIn
    exact ((letIn_iff hmin hmax hkey).mp hletIn).1
  · intro hbound
    rw [htext]
    exact letIn_of_verifyPackage htrust hmin hmax hkey buffers (hverified.mpr hbound)
  · rintro rfl
    obtain ⟨_, -, hsignature, hfits, -, -, -, rfl⟩ := Tools.pack_eq_ok.mp hpacked
    exact Tools.length_canonicalPackage_le hlength hsignature hfits

/-- The module that logs is delivered. -/
theorem delivery_logging :
    ∃ package, LetIn constantCrypto openAuthorization package ((packageVerify constantCrypto
      (.complete package.length packageWasmMaxBytes [0] (ascii "test-key"))
        (some Workspace.zero)).eval (snapshot package)) (encoded loggingRecord.text) := by
  have hsigned : Tools.signManifest plainInterpreter constantCryptography (encoded loggingRecord.text)
      [] "test-key" [] = .ok (List.replicate packageSignatureBytes 0) := by
    rw [Tools.signManifest, manifest_logging]
    rfl
  obtain ⟨record, package, -, -, -, hletIn, hbound⟩ := delivery constantCrypto constantCryptography
    plainInterpreter floatsBack_plain [] [] [0] keyPair_constant sameTrust_constant (by decide)
    loggingSpec keyed_loggingSpec loggingModule [] "test-key" packageWasmMaxBytes (by decide) le_rfl
    _ _ Workspace.zero createManifest_logging hsigned (by decide +kernel)
  exact ⟨package, hletIn.mpr (hbound rfl)⟩

end Package
