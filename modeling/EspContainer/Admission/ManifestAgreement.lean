/-
# Manifests on the host and on the device

The tools read a manifest as JSON and compare it with its canonical text; the device scans
this text in place and keeps what it needs. Both accept the same records. The device also
takes a comma behind the last capability, which is no JSON.
-/

import EspContainer.Admission.ManifestScan
import EspContainer.Tools.ManifestComma

namespace Package

open Binary Text

variable {record : Tools.ManifestRecord} {found : Manifest}

/-! ## The manifest of the module that logs -/

theorem loggingRecord_valid : loggingRecord.Valid where
  productId := by decide +kernel
  productVersion := by decide +kernel
  runtimeProfile := by decide +kernel
  signingKeyId := by decide +kernel
  guestAbi := by decide
  dataSchema := by decide
  names := by decide +kernel
  few := by decide
  sorted := by decide +kernel
  eventQueue := by decide
  hostCallTimeout := by decide
  instructionBudget := by decide
  memory := by decide
  stack := by decide
  storage := by decide
  payloadSize := by decide +kernel
  payloadDigest := by decide +kernel

theorem length_loggingRecord : loggingRecord.text.length ≤ packageManifestMaxBytes := by
  decide +kernel

/-- An interpreter without floats. -/
def plainInterpreter : Tools.Interpreter Unit := ⟨fun _ => (), fun _ => none, 2⟩

theorem manifest_logging :
    Tools.manifest plainInterpreter (encoded loggingRecord.text) = .ok loggingRecord :=
  Tools.manifest_text (by decide) loggingRecord_valid length_loggingRecord

/-! ## What the tools accept -/

/-- The tools accept the canonical texts of valid records that are not too long, and nothing
else. -/
theorem host_manifest_exact {F : Type} (interpreter : Tools.Interpreter F)
    (hnesting : 2 ≤ interpreter.nesting) (data : List UInt8) (record : Tools.ManifestRecord) :
    Tools.manifest interpreter data = .ok record ↔
      record.Valid ∧ data = encoded record.text ∧ data.length ≤ packageManifestMaxBytes := by
  constructor
  · exact Tools.eq_text_of_manifest
  · rintro ⟨hrecord, rfl, hlength⟩
    rw [length_encoded] at hlength
    exact Tools.manifest_text hnesting hrecord hlength

/-- The text of the record with a space behind it is refused. -/
theorem host_manifest_exact_space :
    Tools.manifest plainInterpreter (encoded loggingRecord.text ++ [32]) ≠ .ok loggingRecord := by
  intro hmanifest
  obtain ⟨-, htext, -⟩ :=
    (host_manifest_exact plainInterpreter (by decide) _ loggingRecord).mp hmanifest
  simp at htext

/-! ## What the scanner finds -/

/-- The scanner finds a valid record whose payload has a size of 32 bits. -/
theorem exists_found (hrecord : record.Valid) (hsize : record.payloadSizeBytes ≤ uint32Max) :
    ∃ found, ManifestFound record found := by
  have hdigest := hrecord.payloadDigest
  rw [Tools.isSha256, Bool.and_eq_true, beq_iff_eq, List.all_eq_true] at hdigest
  obtain ⟨octets, hoctets, htext⟩ := @exists_hexText 32 _ hdigest.1 hdigest.2
  have hnumber {number : Nat} (hsmall : number ≤ uint32Max) : (UInt32.ofNat number).toNat = number :=
    UInt32.toNat_ofNat_of_lt' (Nat.lt_succ_of_le hsmall)
  exact
    ⟨{ wasmSizeBytes := UInt32.ofNat record.payloadSizeBytes
       wasmSha256 := ⟨octets, hoctets⟩
       guestAbiVersion := UInt32.ofNat record.guestAbiVersion
       dataSchemaVersion := UInt32.ofNat record.dataSchemaVersion
       memoryLimitBytes := UInt32.ofNat record.memoryLimitBytes
       stackLimitBytes := UInt32.ofNat record.stackLimitBytes
       eventQueueLimit := UInt32.ofNat record.eventQueueLimit
       instructionBudget := UInt32.ofNat record.instructionBudget
       hostCallTimeoutMs := UInt32.ofNat record.hostCallTimeoutMs
       storageLimitBytes := UInt32.ofNat record.storageLimitBytes
       productId := ⟨record.productIdOffset, ascii record.productId⟩
       productVersion := ⟨record.productVersionOffset, ascii record.productVersion⟩
       requestedCapabilities := capabilityMask record.requiredCapabilities.toFinset
       hasUnknownCapability :=
         !record.requiredCapabilities.all fun name => Tools.knownCapabilities.contains name
       isClassicProfile := record.runtimeProfile == "wamr-classic-v1" },
     { wasmSize := hnumber hsize
       wasmDigest := htext
       guestAbi := hnumber hrecord.guestAbi.2
       dataSchema := hnumber hrecord.dataSchema.2
       memory := hnumber hrecord.memory.2
       stack := hnumber hrecord.stack.2
       eventQueue := hnumber hrecord.eventQueue.2
       instructionBudget := hnumber hrecord.instructionBudget.2
       hostCallTimeout := hnumber hrecord.hostCallTimeout.2
       storage := hnumber hrecord.storage
       productId := rfl
       productVersion := rfl
       capabilities := rfl
       unknown := rfl
       profile := rfl }⟩

/-- Under a key id and a bound on the payload, the scanner accepts exactly the texts of valid
records, with a comma behind the last capability or without, and the places it keeps are those
of the product's id and version in the text. -/
theorem manifest_scan_exact (data expectedKeyId : List UInt8) (maxWasmBytes : Nat) (found : Manifest) :
    parseManifest data expectedKeyId maxWasmBytes = some found ↔
      ∃ (record : Tools.ManifestRecord) (comma : Bool), record.Valid ∧ record.MayHaveComma comma ∧
        data = encoded (record.spelled comma) ∧ ascii record.signingKeyId = expectedKeyId ∧
        record.payloadSizeBytes ≤ maxWasmBytes ∧ ManifestFound record found ∧
        (data.drop found.productId.offsetBytes).take found.productId.bytes.length =
          ascii record.productId ∧
        (data.drop found.productVersion.offsetBytes).take found.productVersion.bytes.length =
          ascii record.productVersion := by
  rw [parseManifest_eq_some]
  constructor
  · rintro ⟨record, comma, hvalid, hcomma, rfl, hkey, hsize, hfound⟩
    exact ⟨record, comma, hvalid, hcomma, rfl, hkey, hsize, hfound, slice_productId hcomma hfound,
      slice_productVersion hcomma hfound⟩
  · rintro ⟨record, comma, hvalid, hcomma, hdata, hkey, hsize, hfound, -⟩
    exact ⟨record, comma, hvalid, hcomma, hdata, hkey, hsize, hfound⟩

/-! ## Agreement -/

variable {F : Type} {interpreter : Tools.Interpreter F} {data expectedKeyId : List UInt8}
  {maxWasmBytes : Nat}

/-- What the tools accept is found by the scanner. -/
theorem parseManifest_of_manifest (hmanifest : Tools.manifest interpreter data = .ok record)
    (hkey : ascii record.signingKeyId = expectedKeyId) (hsize : record.payloadSizeBytes ≤ maxWasmBytes)
    (hfound : ManifestFound record found) :
    parseManifest data expectedKeyId maxWasmBytes = some found := by
  obtain ⟨hvalid, hdata, -⟩ := Tools.eq_text_of_manifest hmanifest
  exact parseManifest_eq_some.mpr ⟨record, false, hvalid, by simp [Tools.ManifestRecord.MayHaveComma],
    hdata, hkey, hsize, hfound⟩

/-- A text that the scanner accepts and the tools do not: it has a comma too many, and is no
JSON to them. -/
structure ExtraComma (interpreter : Tools.Interpreter F) (data : List UInt8)
    (record : Tools.ManifestRecord) : Prop where
  valid : record.Valid
  few : 1 ≤ record.requiredCapabilities.length ∧ record.requiredCapabilities.length ≤ 15
  text : data = encoded (record.spelled true)
  refused : Tools.manifest interpreter data = Tools.raisePackageError "manifest 不是合法 UTF-8 JSON"

/-- What the scanner accepts is accepted by the tools, unless it has the comma. -/
theorem manifest_or_extraComma (hnesting : 2 ≤ interpreter.nesting)
    (hdata : data.length ≤ packageManifestMaxBytes)
    (hfound : parseManifest data expectedKeyId maxWasmBytes = some found) :
    ∃ record, ManifestFound record found ∧ ascii record.signingKeyId = expectedKeyId ∧
      record.payloadSizeBytes ≤ maxWasmBytes ∧
      (Tools.manifest interpreter data = .ok record ∨ ExtraComma interpreter data record) := by
  obtain ⟨record, comma, hvalid, hcomma, rfl, hkey, hsize, hfound⟩ := parseManifest_eq_some.mp hfound
  rw [length_encoded] at hdata
  refine ⟨record, hfound, hkey, hsize, ?_⟩
  cases comma with
  | false => exact .inl (Tools.manifest_text hnesting hvalid hdata)
  | true =>
      have hfew := hcomma rfl
      have hnames : record.requiredCapabilities ≠ [] := List.length_pos_iff.mp hfew.1
      exact .inr ⟨hvalid, hfew, rfl, Tools.manifest_comma hnesting hvalid hnames hdata⟩

/-- Host and device read the same records from manifests of an admissible size: the device
finds what a record says exactly if the tools accept the text with this record, or the text
has a comma behind the last capability, which the tools refuse. Every record that the tools
accept with a payload within the bound is found. -/
theorem host_device_manifest (hnesting : 2 ≤ interpreter.nesting) (data expectedKeyId : List UInt8)
    (hdata : data.length ≤ packageManifestMaxBytes) (maxWasmBytes : Nat)
    (hmax : maxWasmBytes ≤ packageWasmMaxBytes) :
    (∀ found, parseManifest data expectedKeyId maxWasmBytes = some found ↔
      ∃ record, ManifestFound record found ∧ ascii record.signingKeyId = expectedKeyId ∧
        record.payloadSizeBytes ≤ maxWasmBytes ∧
        (Tools.manifest interpreter data = .ok record ∨ ExtraComma interpreter data record)) ∧
    ∀ record, Tools.manifest interpreter data = .ok record →
      ascii record.signingKeyId = expectedKeyId → record.payloadSizeBytes ≤ maxWasmBytes →
      ∃ found, parseManifest data expectedKeyId maxWasmBytes = some found ∧
        ManifestFound record found := by
  constructor
  · intro found
    constructor
    · exact manifest_or_extraComma hnesting hdata
    · rintro ⟨record, hfound, hkey, hsize, hmanifest | hcomma⟩
      · exact parseManifest_of_manifest hmanifest hkey hsize hfound
      · exact parseManifest_eq_some.mpr ⟨record, true, hcomma.valid, fun _ => hcomma.few, hcomma.text,
          hkey, hsize, hfound⟩
  · intro record hmanifest hkey hsize
    obtain ⟨found, hfound⟩ := exists_found (Tools.eq_text_of_manifest hmanifest).1
      (hsize.trans (hmax.trans (by decide)))
    exact ⟨found, parseManifest_of_manifest hmanifest hkey hsize hfound, hfound⟩

theorem host_device_manifest_logging :
    ∃ found, parseManifest (encoded loggingRecord.text) (ascii "test-key") packageWasmMaxBytes =
      some found ∧ ManifestFound loggingRecord found := by
  have hlength : (encoded loggingRecord.text).length ≤ packageManifestMaxBytes := by
    rw [length_encoded]
    exact length_loggingRecord
  exact (host_device_manifest (by decide : 2 ≤ plainInterpreter.nesting) _ (ascii "test-key") hlength
    packageWasmMaxBytes le_rfl).2 loggingRecord manifest_logging rfl (by decide +kernel)

end Package
