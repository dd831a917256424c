/-
# What is let into a slot

Candidate admission is sound whatever fails. Where no read and no digest fails it is also
complete: it turns away no package that verification and the Wasm check accept and that is
what the operation and the policy ask for. A package that the tools have verified is therefore
let in exactly if it is what they ask for.
-/

import EspContainer.Admission.PackageAgreement
import EspContainer.Package.FaultReporting

namespace Package

open Binary Interaction Slots Text

variable {crypto : Crypto} {contents package manifestBytes signature wasm : List UInt8}
  {manifest : Manifest} {policy : SlotValidation} {operation : Operation}
  {productId publicKey expectedKeyId : List UInt8} {packageSizeBytes maxWasmBytes : Nat}
  {trace : ReadTrace}

/-! ## Accepting a verified package -/

/-- The product id is in an accepted manifest where it is reported to be. -/
theorem Accepted.slice_product
    (haccepted : Accepted crypto maxWasmBytes publicKey expectedKeyId package manifestBytes signature
      wasm manifest) :
    (manifestBytes.drop manifest.productId.offsetBytes).take manifest.productId.bytes.length =
        manifest.productId.bytes ∧
      manifest.productId.offsetBytes + manifest.productId.bytes.length ≤ manifestBytes.length := by
  obtain ⟨record, comma, hvalid, hcomma, rfl, -, -, hfound⟩ := parseManifest_eq_some.mp haccepted.parsed
  have hslice := slice_productId hcomma hfound
  have hbytes : manifest.productId.bytes = ascii record.productId := by rw [hfound.productId]
  have hsome : 0 < manifest.productId.bytes.length := by
    rw [hbytes, List.length_pos_iff]
    intro hnone
    have hidentifier := hvalid.productId
    rw [codes, List.map_eq_nil_iff.mp hnone] at hidentifier
    cases hidentifier
  have hlength := congrArg List.length hslice
  rw [List.length_take, List.length_drop, ← hbytes] at hlength
  exact ⟨hslice.trans hbytes.symm, by omega⟩

/-- The product comparison compares the product id of the manifest. -/
theorem productMatches_iff
    (haccepted : Accepted crypto maxWasmBytes publicKey expectedKeyId package manifestBytes signature
      wasm manifest) {signatureBuffer : Bytes packageSignatureBytes} :
    productMatches productId ⟨overwrite (.zero _) manifestBytes, signatureBuffer⟩
        (verifiedPackage crypto package manifestBytes signature wasm manifest).info = true ↔
      manifest.productId.bytes = productId := by
  obtain ⟨hslice, hbound⟩ := haccepted.slice_product
  constructor
  · intro hmatches
    rw [← hslice]
    exact product_slice (by rfl) haccepted.manifest_le hmatches
  · rintro rfl
    have hpart := @overwrite_part _ (.zero packageManifestMaxBytes) _ haccepted.manifest_le
      manifest.productId.offsetBytes manifest.productId.bytes.length hbound
    simp only [productMatches, Bool.and_eq_true, beq_iff_eq, decide_eq_true_eq]
    refine ⟨⟨⟨rfl, ?_⟩, ?_⟩, hpart.trans hslice⟩
    · exact Nat.le_of_add_right_le hbound
    · exact Nat.le_sub_of_add_le' hbound

/-- What admission compares of a verified package with the operation and the policy. -/
structure Matches (crypto : Crypto) (policy : SlotValidation) (operation : Operation)
    (productId package : List UInt8) (manifest : Manifest) : Prop where
  package_digest : crypto.sha256 package = operation.packageSha256
  guest_abi : manifest.guestAbiVersion = operation.guestAbiVersion
  data_schema : manifest.dataSchemaVersion = operation.dataSchemaVersion
  product : manifest.productId.bytes = productId
  event_queue : manifest.eventQueueLimit ≤ policy.maxEventQueueLimit
  instruction_budget : manifest.instructionBudget ≤ policy.maxInstructionBudget
  host_call_timeout : manifest.hostCallTimeoutMs ≤ policy.maxHostCallTimeoutMs
  storage : manifest.storageLimitBytes ≤ policy.maxStorageLimitBytes

theorem accepts_iff
    (haccepted : Accepted crypto maxWasmBytes publicKey expectedKeyId package manifestBytes signature
      wasm manifest) :
    policy.accepts productId operation (verifyOutcome .zero
        (.ok (verifiedPackage crypto package manifestBytes signature wasm manifest))) = true ↔
      Matches crypto policy operation productId package manifest := by
  have hproduct := @productMatches_iff crypto package manifestBytes signature wasm manifest productId
    publicKey expectedKeyId maxWasmBytes haccepted (overwrite (.zero _) signature)
  have hworkspace : (verifyOutcome .zero (.ok (verifiedPackage crypto package manifestBytes signature
      wasm manifest))).workspace =
        some ⟨overwrite (.zero _) manifestBytes, overwrite (.zero _) signature⟩ := rfl
  simp only [SlotValidation.accepts, hworkspace, Option.any_some, Bool.and_eq_true, beq_iff_eq,
    decide_eq_true_eq]
  constructor
  · rintro ⟨⟨⟨⟨⟨⟨⟨hdigest, habi⟩, hschema⟩, hsame⟩, hqueue⟩, hbudget⟩, htimeout⟩, hstorage⟩
    exact ⟨hdigest, habi, hschema, hproduct.mp hsame, hqueue, hbudget, htimeout, hstorage⟩
  · intro hmatches
    exact ⟨⟨⟨⟨⟨⟨⟨hmatches.package_digest, hmatches.guest_abi⟩, hmatches.data_schema⟩,
      hproduct.mpr hmatches.product⟩, hmatches.event_queue⟩, hmatches.instruction_budget⟩,
      hmatches.host_call_timeout⟩, hmatches.storage⟩

/-! ## Clean runs -/

/-- Verification reads within the size that it is given. -/
theorem uses_packageVerify_within :
    (packageVerify crypto (.complete packageSizeBytes maxWasmBytes publicKey expectedKeyId)
      (some .zero)).Uses (ReadsWithin packageSizeBytes) :=
  (uses_packageVerify crypto (.complete packageSizeBytes maxWasmBytes publicKey expectedKeyId)
    (some .zero)).mono fun _ hcall => hcall.within (Nat.zero_add _).le

/-- A clean verification of an accepted package verifies it. -/
theorem verified_of_accepted {σ : Type} {W : World ReadPort σ} {before after : σ}
    {verified : VerifyOutcome}
    (hexec : Exec W (packageVerify crypto (.complete packageSizeBytes maxWasmBytes publicKey
      expectedKeyId) (some .zero)) before trace (.ret verified) after)
    (hanswered : AnsweredFrom contents trace) (hclean : Clean trace)
    (hrefused : (VerifyArguments.complete packageSizeBytes maxWasmBytes publicKey
      expectedKeyId).refused publicKey = false)
    (haccepted : Accepted crypto maxWasmBytes publicKey expectedKeyId
      (contents.take packageSizeBytes) manifestBytes signature wasm manifest)
    (hlength : (contents.take packageSizeBytes).length = packageSizeBytes) :
    verified = verifyOutcome .zero (.ok (verifiedPackage crypto (contents.take packageSizeBytes)
      manifestBytes signature wasm manifest)) := by
  have heval := hexec.eval_eq (agrees_take hanswered hclean uses_packageVerify_within hexec)
  have hstream := verifyStream_eq_ok.mpr ⟨manifestBytes, signature, wasm, manifest, haccepted, rfl⟩
  rw [hlength] at hstream
  rw [← heval, eval_packageVerify hrefused, hstream]

/-- A clean run of admission lets an accepted package in if it is what was asked for and its
module passes the check. -/
theorem admitCandidate_iff {σ : Type} {W : World ReadPort σ} {before after : σ}
    {outcome : SlotValidationOutcome}
    (hexec : Exec W (admitCandidate crypto policy productId publicKey expectedKeyId .zero operation
      packageSizeBytes) before trace (.ret outcome) after)
    (hanswered : AnsweredFrom contents trace) (hclean : Clean trace)
    (hrefused : (VerifyArguments.complete packageSizeBytes policy.maxWasmBytes publicKey
      expectedKeyId).refused publicKey = false)
    (haccepted : Accepted crypto policy.maxWasmBytes publicKey expectedKeyId
      (contents.take packageSizeBytes) manifestBytes signature wasm manifest)
    (hlength : (contents.take packageSizeBytes).length = packageSizeBytes) :
    outcome.result = .ok ↔
      Matches crypto policy operation productId (contents.take packageSizeBytes) manifest ∧
      (packageWasmCheck crypto true (some (verifiedPackage crypto (contents.take packageSizeBytes)
        manifestBytes signature wasm manifest).info) (some policy.wasmAuthorization) true).eval
          (snapshot (contents.take packageSizeBytes)) = .ok () := by
  unfold admitCandidate at hexec
  rw [show (⟨true, packageSizeBytes, policy.maxWasmBytes, some publicKey, some expectedKeyId, true⟩ :
    VerifyArguments) = .complete packageSizeBytes policy.maxWasmBytes publicKey expectedKeyId from rfl,
    translate_readSlot uses_packageVerify_within] at hexec
  obtain ⟨verified, middle, verifyTrace, rest, rfl, hverify, hexec⟩ := hexec.of_bind
  obtain ⟨hverifyAnswered, hrestAnswered⟩ := answeredFrom_append.mp hanswered
  obtain ⟨hverifyClean, hrestClean⟩ := clean_append.mp hclean
  obtain rfl := verified_of_accepted hverify hverifyAnswered hverifyClean hrefused haccepted hlength
  set verified := verifiedPackage crypto (contents.take packageSizeBytes) manifestBytes signature wasm
    manifest with hverified
  obtain ⟨result, last, wasmTrace, final, rfl, hcheck, hexec⟩ := hexec.of_bind
  obtain ⟨hwasmAnswered, -⟩ := answeredFrom_append.mp hrestAnswered
  obtain ⟨hwasmClean, -⟩ := clean_append.mp hrestClean
  have hresult : outcome.result = result := by
    split at hexec
    · next hok =>
      cases hexec
      exact (eq_of_beq hok).symm
    · cases hexec
      rfl
  rw [hresult, ← accepts_iff haccepted]
  rw [checkAccepted] at hcheck
  split at hcheck
  · next haccepts =>
    have hwasm : (packageWasmCheck crypto true (some verified.info) (some policy.wasmAuthorization)
        true).Uses (ReadsWithin packageSizeBytes) :=
      (uses_packageWasmCheck crypto true verified.info (some policy.wasmAuthorization)
        true).mono fun _ hcall => hlength ▸ hcall.2
    rw [show (verifyOutcome .zero (.ok verified)).info = verified.info from rfl,
      translate_readSlot hwasm, ← bind_pure_comp] at hcheck
    obtain ⟨checked, _, checkTrace, rest, rfl, hchecks, hcheck⟩ := hcheck.of_bind
    cases hcheck
    rw [hchecks.eval_eq (agrees_take (answeredFrom_append.mp hwasmAnswered).1
      (clean_append.mp hwasmClean).1 hwasm hchecks), and_iff_right haccepts]
    rcases checked with (_ | _ | _ | _) | _ <;> simp [admissionResult]
  · next hother =>
    cases hcheck
    constructor
    · intro hok
      cases hok
    · rintro ⟨haccepts, -⟩
      exact absurd haccepts hother

/-! ## What the policy grants -/

/-- An authorization grants what a record asks for. -/
structure Grants (authorization : WasmAuthorization) (record : Tools.ManifestRecord) : Prop where
  known : authorization.allowedCapabilities &&& ~~~capAll = 0
  capabilities : capabilityMask record.requiredCapabilities.toFinset &&&
    ~~~authorization.allowedCapabilities = 0
  memory : record.memoryLimitBytes ≤ authorization.maxMemoryBytes.toNat
  stack : record.stackLimitBytes ≤ authorization.maxStackBytes.toNat

/-- What the first checks ask of an authorization alone. -/
theorem wasmBoundsValid_iff_open {info : Info} {authorization : WasmAuthorization} :
    wasmBoundsValid info authorization = true ↔
      wasmBoundsValid info openAuthorization = true ∧
        authorization.allowedCapabilities &&& ~~~capAll = 0 ∧
        wasmPageBytes ≤ authorization.maxMemoryBytes.toNat ∧ authorization.maxStackBytes ≠ 0 := by
  have hcapabilities : (openAuthorization.allowedCapabilities &&& ~~~capAll != 0) = false := rfl
  have hmemory : ¬ openAuthorization.maxMemoryBytes.toNat < wasmPageBytes := by decide
  have hstack : (openAuthorization.maxStackBytes == 0) = false := rfl
  simp only [wasmBoundsValid, hcapabilities, hmemory, hstack, decide_false, Bool.or_false,
    Bool.not_or, Bool.and_eq_true, Bool.not_eq_true', bne_eq_false_iff_eq, beq_eq_false_iff_ne,
    decide_eq_false_iff_not, Nat.not_lt, and_assoc]

variable {record : Tools.ManifestRecord} {info : Info} {authorization : WasmAuthorization}

theorem wasmAuthorized_iff (hfacts : SignedFacts crypto record wasm package info) :
    wasmAuthorized info authorization = true ↔
      capabilityMask record.requiredCapabilities.toFinset &&& ~~~authorization.allowedCapabilities = 0 ∧
        record.memoryLimitBytes ≤ authorization.maxMemoryBytes.toNat ∧
        record.stackLimitBytes ≤ authorization.maxStackBytes.toNat := by
  simp only [wasmAuthorized, hfacts.capabilities, ← hfacts.memory, ← hfacts.stack, Bool.not_or,
    Bool.and_eq_true, Bool.not_eq_true', bne_eq_false_iff_eq, decide_eq_false_iff_not, gt_iff_lt,
    UInt32.lt_iff_toNat_lt, Nat.not_lt, and_assoc]

/-- The check of the module under an authorization is the tools' check, and that the
authorization grants what the record asks for. -/
theorem packageWasmCheck_granted (hrecord : record.Valid)
    (hfacts : SignedFacts crypto record wasm package info) (hminimum : 8 ≤ wasm.length)
    (hmaximum : wasm.length ≤ packageWasmMaxBytes) :
    (packageWasmCheck crypto true (some info) (some authorization) true).eval (snapshot package) =
        .ok () ↔
      Tools.checkDeclaredCapabilities wasm record = .ok () ∧ Grants authorization record := by
  have hopen := wasmAuthorized_of_allows hfacts (allows_openAuthorization hrecord)
  rw [← packageWasmCheck_iff hrecord hfacts hminimum hmaximum,
    eval_packageWasmCheck_eq_ok hfacts.payload hfacts.wasmSize.symm,
    eval_packageWasmCheck_eq_ok hfacts.payload hfacts.wasmSize.symm, wasmBoundsValid_iff_open,
    wasmAuthorized_iff hfacts]
  constructor
  · rintro ⟨⟨hbounds, hknown, -, -⟩, hprofile, ⟨hcapabilities, hmemory, hstack⟩, hmodule⟩
    exact ⟨⟨hbounds, hprofile, hopen, hmodule⟩, ⟨hknown, hcapabilities, hmemory, hstack⟩⟩
  · rintro ⟨⟨hbounds, hprofile, -, hmodule⟩, hgrants⟩
    have hpage := ((wasmBoundsValid_iff hfacts (allows_openAuthorization hrecord)
      hrecord.stack.1).mp hbounds).2.2
    refine ⟨⟨hbounds, hgrants.known, hpage.trans hgrants.memory, ?_⟩, hprofile,
      ⟨hgrants.capabilities, hgrants.memory, hgrants.stack⟩, hmodule⟩
    intro hzero
    have hstack := hgrants.stack
    rw [hzero] at hstack
    exact absurd (hrecord.stack.1.trans_le hstack) (by decide)

/-! ## The validation callback -/

/-- A complete policy: no pointer in it is null. -/
structure Complete (policy : SlotValidation) (productId publicKey expectedKeyId : List UInt8) :
    Prop where
  product : policy.expectedProductId = some productId
  key : policy.publicKey = some publicKey
  keyId : policy.expectedKeyId = some expectedKeyId
  info : policy.hasVerifiedInfo = true

/-- The validation callback under a complete policy. -/
theorem packageSlotValidate_complete (hcomplete : Complete policy productId publicKey expectedKeyId)
    (workspace : Workspace) (operation : Operation) (packageSizeBytes : Nat) :
    packageSlotValidate crypto (some policy) (some workspace) (some operation) true packageSizeBytes =
      if policy.refused productId operation true packageSizeBytes then
        pure ⟨.untrusted, some .zero, some .zero⟩
      else admitCandidate crypto policy productId publicKey expectedKeyId .zero operation
        packageSizeBytes := by
  simp only [packageSlotValidate, hcomplete.product, hcomplete.key, hcomplete.keyId, hcomplete.info,
    Option.map_some, Bool.not_true, Bool.false_eq_true, if_false]

/-- An admitted package was not refused by the argument checks of verification. -/
theorem PackageAdmitted.not_refused {info : Info}
    (hadmitted : PackageAdmitted crypto policy operation productId publicKey expectedKeyId package
      manifestBytes signature wasm manifest info) :
    (VerifyArguments.complete package.length policy.maxWasmBytes publicKey expectedKeyId).refused
      publicKey = false := by
  have hverifies := hadmitted.verifies
  rw [packageVerify_complete] at hverifies
  split at hverifies
  · cases hverifies
  · next hrefused => exact Bool.eq_false_of_not_eq_true hrefused

/-- What an admitted package matches. -/
theorem PackageAdmitted.matched {info : Info}
    (hadmitted : PackageAdmitted crypto policy operation productId publicKey expectedKeyId package
      manifestBytes signature wasm manifest info) :
    Matches crypto policy operation productId package manifest where
  package_digest := hadmitted.package_digest
  guest_abi := hadmitted.guest_abi
  data_schema := hadmitted.data_schema
  product := by
    have hproduct := hadmitted.product
    rw [hadmitted.reported] at hproduct
    exact hadmitted.accepted.slice_product.1.symm.trans hproduct
  event_queue := hadmitted.event_queue
  instruction_budget := hadmitted.instruction_budget
  host_call_timeout := hadmitted.host_call_timeout
  storage := hadmitted.storage

/-! ## The package of the module that logs, in a slot -/

/-- The answers of a slot are its contents, and no read inside it fails. -/
theorem answered_snapshot {α : Type} {program : Program ReadPort α} {sizeBytes : Nat}
    (huses : program.Uses (ReadsWithin sizeBytes)) (hfits : sizeBytes ≤ contents.length) :
    AnsweredFrom contents (program.calls (snapshot contents)) ∧
      Clean (program.calls (snapshot contents)) := by
  have hexec := Exec.of_eval (snapshot contents) program
  have hanswers := Program.mem_calls (snapshot contents) program
  have hreads {offset count : Nat} {answer : ReadAnswer count}
      (hevent : (⟨.read offset count, answer⟩ : Event ReadPort) ∈ program.calls (snapshot contents)) :
      offset + count ≤ contents.length ∧ answer = .ok (bytesAt contents offset count) := by
    obtain ⟨-, -, hend⟩ := huses.of_mem hexec _ hevent
    have hbound := hend.trans hfits
    have hanswer : answer = snapshot contents (.read offset count) := hanswers _ hevent
    refine ⟨hbound, ?_⟩
    rw [hanswer, snapshot, if_pos hbound]
  refine ⟨?_, ?_, ?_⟩
  · intro offset count bytes hevent
    obtain ⟨hbound, hbytes⟩ := hreads hevent
    exact ⟨hbound, ReadAnswer.ok.inj hbytes⟩
  · rintro ⟨call, answer⟩ hevent
    cases call with
    | digest step => rfl
    | read offset count =>
        rw [(hreads hevent).2]
        rfl
  · rintro ⟨call, answer⟩ hevent
    cases call with
    | read offset count => rfl
    | digest step =>
        rw [show answer = snapshot contents (.digest step) from hanswers _ hevent]
        rfl

/-- A policy for this package. -/
def loggingPolicy : SlotValidation where
  expectedProductId := some (ascii "counter")
  publicKey := some [0]
  expectedKeyId := some (ascii "test-key")
  maxWasmBytes := packageWasmMaxBytes
  wasmAuthorization := ⟨capLog ||| capTimer, 65536, 4096⟩
  maxEventQueueLimit := 4
  maxInstructionBudget := 10000
  maxHostCallTimeoutMs := 100
  maxStorageLimitBytes := 0
  hasWasmWorkspace := true
  hasVerifiedInfo := true

theorem complete_loggingPolicy : Complete loggingPolicy (ascii "counter") [0] (ascii "test-key") :=
  ⟨rfl, rfl, rfl, rfl⟩

/-- The package is one record of the archive. -/
theorem length_loggingPackage_eq : loggingPackage.length = 10240 := by
  have htext := length_loggingRecord
  have hwasm : loggingModule.length ≤ 512 := by decide +kernel
  rw [loggingPackage, Tools.length_canonicalPackage, Tools.length_packageMembers, length_encoded,
    List.length_replicate]
  simp only [packageManifestMaxBytes, packageSignatureBytes] at htext ⊢
  omega

theorem take_loggingPackage : loggingPackage.take 10240 = loggingPackage :=
  List.take_of_length_le length_loggingPackage_eq.le

/-- The run of admission on a slot that holds it. -/
theorem exec_loggingSlot :
    Exec (World.free ReadPort) (packageSlotValidate constantCrypto (some loggingPolicy) (some .zero)
        (some sampleOperation) true 10240) ()
      ((packageSlotValidate constantCrypto (some loggingPolicy) (some .zero) (some sampleOperation)
        true 10240).calls (snapshot loggingPackage))
      (.ret ((packageSlotValidate constantCrypto (some loggingPolicy) (some .zero)
        (some sampleOperation) true 10240).eval (snapshot loggingPackage))) () :=
  Exec.of_eval _ _

theorem answered_loggingSlot :
    AnsweredFrom loggingPackage ((packageSlotValidate constantCrypto (some loggingPolicy) (some .zero)
        (some sampleOperation) true 10240).calls (snapshot loggingPackage)) ∧
      Clean ((packageSlotValidate constantCrypto (some loggingPolicy) (some .zero)
        (some sampleOperation) true 10240).calls (snapshot loggingPackage)) :=
  answered_snapshot (uses_packageSlotValidate constantCrypto (some loggingPolicy) (some .zero)
    (some sampleOperation) true 10240) length_loggingPackage_eq.ge

/-! ## Exactness -/

/-- Candidate admission is exact where nothing fails. In every run that reads from a slot and
in which no read and no digest fails, the result is never an I/O error, and it is OK exactly if
the size is that of the operation and lies within the slot, and what is in the slot is a
package that is admitted under the policy and for the operation. -/
theorem admission_exact (crypto : Crypto) (policy : SlotValidation) (workspace : Workspace)
    (operation : Operation) (productId publicKey expectedKeyId : List UInt8)
    (hcomplete : Complete policy productId publicKey expectedKeyId) (packageSizeBytes : Nat)
    (contents : List UInt8) :
    ∀ (σ : Type) (W : World ReadPort σ) before trace outcome after,
      Exec W (packageSlotValidate crypto (some policy) (some workspace) (some operation) true
        packageSizeBytes) before trace (.ret outcome) after →
      AnsweredFrom contents trace → Clean trace →
      outcome.result ≠ .ioFailed ∧
        (outcome.result = .ok ↔
          policy.refused productId operation true packageSizeBytes = false ∧
          packageSizeBytes ≤ contents.length ∧
          ∃ manifestBytes signature wasm manifest info, PackageAdmitted crypto policy operation
            productId publicKey expectedKeyId (contents.take packageSizeBytes) manifestBytes signature
            wasm manifest info) := by
  intro σ W before trace outcome after hexec hanswered hclean
  constructor
  · intro hfailed
    have hreports := (packageSlotValidate_reports_iff policy hexec).mpr ?_
    · exact hreports.mp hfailed hclean.1
    · rintro ⟨verifyTrace, wasmTrace, _, rfl, -, -, hmasked⟩
      exact hmasked.fault (faultFree_append.mp hclean.1).2
  rw [packageSlotValidate_complete hcomplete] at hexec
  split at hexec
  · next hrefused =>
    cases hexec
    rw [hrefused]
    exact iff_of_false (by rintro ⟨⟩) (by rintro ⟨⟨⟩, -⟩)
  · next hrefused =>
    rw [Bool.not_eq_true] at hrefused
    rw [and_iff_right hrefused]
    constructor
    · intro hresult
      obtain ⟨verified, verifyTrace, wasmTrace, middle, rfl, hverify, hverified, haccepts, hcheck, -⟩ :=
        admitCandidate_ok hexec hresult
      obtain ⟨hlength, manifestBytes, signature, wasm, manifest, hadmitted⟩ :=
        packageAdmitted_of_runs hverify hverified haccepts hcheck hanswered
      rw [List.length_take] at hlength
      exact ⟨by omega, manifestBytes, signature, wasm, manifest, _, hadmitted⟩
    · rintro ⟨hfits, manifestBytes, signature, wasm, manifest, info, hadmitted⟩
      have hlength : (contents.take packageSizeBytes).length = packageSizeBytes :=
        List.length_take_of_le hfits
      have hchecks := hadmitted.checks
      rw [hadmitted.reported] at hchecks
      have hargs := hadmitted.not_refused
      rw [hlength] at hargs
      exact (admitCandidate_iff hexec hanswered hclean hargs hadmitted.accepted hlength).mpr
        ⟨hadmitted.matched, hchecks⟩

/-- No fault is reported in the run on the package of the module that logs. -/
theorem admission_exact_logging :
    ((packageSlotValidate constantCrypto (some loggingPolicy) (some .zero) (some sampleOperation) true
      10240).eval (snapshot loggingPackage)).result ≠ .ioFailed :=
  (admission_exact constantCrypto loggingPolicy .zero sampleOperation (ascii "counter") [0]
    (ascii "test-key") complete_loggingPolicy 10240 loggingPackage Unit _ () _ _ () exec_loggingSlot
    answered_loggingSlot.1 answered_loggingSlot.2).1

/-! ## What the tools have verified -/

/-- What the operation and the policy ask of a package with a record. -/
structure AskedFor (crypto : Crypto) (policy : SlotValidation) (operation : Operation)
    (productId package : List UInt8) (record : Tools.ManifestRecord) : Prop where
  package_digest : crypto.sha256 package = operation.packageSha256
  guest_abi : record.guestAbiVersion = operation.guestAbiVersion.toNat
  data_schema : record.dataSchemaVersion = operation.dataSchemaVersion.toNat
  product : ascii record.productId = productId
  event_queue : record.eventQueueLimit ≤ policy.maxEventQueueLimit.toNat
  instruction_budget : record.instructionBudget ≤ policy.maxInstructionBudget.toNat
  host_call_timeout : record.hostCallTimeoutMs ≤ policy.maxHostCallTimeoutMs.toNat
  storage : record.storageLimitBytes ≤ policy.maxStorageLimitBytes.toNat
  granted : Grants policy.wasmAuthorization record

theorem askedFor_iff (hfound : ManifestFound record manifest) :
    AskedFor crypto policy operation productId package record ↔
      Matches crypto policy operation productId package manifest ∧
        Grants policy.wasmAuthorization record := by
  have hproduct : manifest.productId.bytes = ascii record.productId := by rw [hfound.productId]
  constructor
  · intro hasked
    refine ⟨⟨hasked.package_digest, UInt32.toNat_inj.mp (hfound.guestAbi.trans hasked.guest_abi),
      UInt32.toNat_inj.mp (hfound.dataSchema.trans hasked.data_schema), hproduct.trans hasked.product,
      UInt32.le_iff_toNat_le.mpr (hfound.eventQueue.trans_le hasked.event_queue),
      UInt32.le_iff_toNat_le.mpr (hfound.instructionBudget.trans_le hasked.instruction_budget),
      UInt32.le_iff_toNat_le.mpr (hfound.hostCallTimeout.trans_le hasked.host_call_timeout),
      UInt32.le_iff_toNat_le.mpr (hfound.storage.trans_le hasked.storage)⟩, hasked.granted⟩
  · rintro ⟨hmatches, hgrants⟩
    exact
      { package_digest := hmatches.package_digest
        guest_abi := by rw [← hfound.guestAbi, hmatches.guest_abi]
        data_schema := by rw [← hfound.dataSchema, hmatches.data_schema]
        product := hproduct.symm.trans hmatches.product
        event_queue := hfound.eventQueue ▸ UInt32.le_iff_toNat_le.mp hmatches.event_queue
        instruction_budget :=
          hfound.instructionBudget ▸ UInt32.le_iff_toNat_le.mp hmatches.instruction_budget
        host_call_timeout :=
          hfound.hostCallTimeout ▸ UInt32.le_iff_toNat_le.mp hmatches.host_call_timeout
        storage := hfound.storage ▸ UInt32.le_iff_toNat_le.mp hmatches.storage
        granted := hgrants }

/-- A package that the tools have verified is let into a slot, where nothing fails, exactly if
it is what the operation and the policy ask for: no check of the device turns it away that is
not about these. -/
theorem verified_package_admission {F P S : Type} (crypto : Crypto)
    (cryptography : Tools.Cryptography P S) (interpreter : Tools.Interpreter F)
    (policy : SlotValidation) (workspace : Workspace) (operation : Operation)
    (productId publicKey pem : List UInt8) (expectedKeyId : String)
    (hcomplete : Complete policy productId publicKey (ascii expectedKeyId))
    (htrust : SameTrust crypto cryptography publicKey pem)
    (hkey : 1 ≤ publicKey.length ∧ publicKey.length ≤ 1024) (hmin : 8 ≤ policy.maxWasmBytes)
    (hmax : policy.maxWasmBytes ≤ packageWasmMaxBytes) (contents : List UInt8)
    (packageSizeBytes : Nat) (hfits : packageSizeBytes ≤ contents.length)
    (record : Tools.ManifestRecord)
    (hverified : Tools.verifyPackage interpreter cryptography (contents.take packageSizeBytes) pem
      expectedKeyId policy.maxWasmBytes = .ok record) :
    ∀ (σ : Type) (W : World ReadPort σ) before trace outcome after,
      Exec W (packageSlotValidate crypto (some policy) (some workspace) (some operation) true
        packageSizeBytes) before trace (.ret outcome) after →
      AnsweredFrom contents trace → Clean trace →
      (outcome.result = .ok ↔
        policy.refused productId operation true packageSizeBytes = false ∧
          AskedFor crypto policy operation productId (contents.take packageSizeBytes) record) := by
  intro σ W before trace outcome after hexec hanswered hclean
  obtain ⟨manifestBytes, signature, wasm, hlayout, hwasm, hbound, hmanifest, hkeyId, hsigned, hpayload,
    hchecked⟩ := (Tools.verifyPackage_eq_ok (hmax.trans_lt (by decide))).mp hverified
  obtain ⟨manifest, hfound, haccepted⟩ := accepted_of_verified htrust hmax hlayout hwasm hmanifest
    hkeyId hsigned hpayload hchecked
  have hrecord := (Tools.eq_text_of_manifest hmanifest).1
  have hlength : (contents.take packageSizeBytes).length = packageSizeBytes :=
    List.length_take_of_le hfits
  have hargs : (VerifyArguments.complete packageSizeBytes policy.maxWasmBytes publicKey
      (ascii expectedKeyId)).refused publicKey = false := by
    rw [refused_complete hmin hmax hkey, ← hlength]
    exact ⟨haccepted.layout.blocks, hbound⟩
  rw [packageSlotValidate_complete hcomplete] at hexec
  split at hexec
  · next hrefused =>
    cases hexec
    rw [hrefused]
    exact iff_of_false (by rintro ⟨⟩) (by rintro ⟨⟨⟩, -⟩)
  · next hrefused =>
    rw [Bool.not_eq_true] at hrefused
    rw [and_iff_right hrefused, admitCandidate_iff hexec hanswered hclean hargs haccepted hlength,
      packageWasmCheck_granted hrecord (haccepted.signedFacts hfound) haccepted.wasm_ge
        (hwasm.trans hmax), and_iff_right hchecked, askedFor_iff hfound]

/-- The operation of a record of this size asks for the package of the module that logs. -/
theorem askedFor_logging :
    AskedFor constantCrypto loggingPolicy sampleOperation (ascii "counter") loggingPackage
      loggingRecord where
  package_digest := rfl
  guest_abi := rfl
  data_schema := rfl
  product := rfl
  event_queue := by decide
  instruction_budget := by decide
  host_call_timeout := by decide
  storage := by decide
  granted := ⟨by decide, by decide +kernel, by decide, by decide⟩

theorem verified_package_admission_logging :
    ((packageSlotValidate constantCrypto (some loggingPolicy) (some .zero) (some sampleOperation) true
      10240).eval (snapshot loggingPackage)).result = .ok := by
  have hverified := verifyPackage_logging
  have hasked := askedFor_logging
  rw [← take_loggingPackage] at hverified hasked
  exact (verified_package_admission constantCrypto constantCryptography plainInterpreter loggingPolicy
    .zero sampleOperation (ascii "counter") [0] [] "test-key" complete_loggingPolicy
    sameTrust_constant (by decide) (by decide) le_rfl loggingPackage 10240 length_loggingPackage_eq.ge
    loggingRecord hverified Unit _ () _ _ () exec_loggingSlot answered_loggingSlot.1
    answered_loggingSlot.2).mpr ⟨by decide, hasked⟩

end Package
