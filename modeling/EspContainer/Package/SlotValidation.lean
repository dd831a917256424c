/-
# Candidate admission

`econtainer_package_slot_validate` is the validation callback of the slot engine.
It verifies the package that was written to the slot, compares what was signed with
the durable operation and with the platform's policy, and scans the payload. Its
outputs, the workspace and the verified info, are cleared first and hold something
only when it returns OK.
-/

import EspContainer.Package.WasmCheck
import EspContainer.Slots.Engine

namespace Package

open Binary Interaction Slots

/-- `econtainer_package_slot_validation_t`; a null pointer is `none` or `false`, and the
two buffers it points to are outputs, passed by themselves. -/
structure SlotValidation where
  expectedProductId : Option (List UInt8)
  publicKey : Option (List UInt8)
  expectedKeyId : Option (List UInt8)
  maxWasmBytes : Nat
  wasmAuthorization : WasmAuthorization
  maxEventQueueLimit : UInt32
  maxInstructionBudget : UInt32
  maxHostCallTimeoutMs : UInt32
  maxStorageLimitBytes : UInt32
  hasWasmWorkspace : Bool
  hasVerifiedInfo : Bool

/-- What candidate admission returns and leaves behind its output pointers. -/
structure SlotValidationOutcome where
  result : ValidationResult
  workspace : Option Workspace
  verifiedInfo : Option Info

/-- `product_matches`. -/
def productMatches (expectedProductId : List UInt8) (workspace : Workspace) (info : Info) : Bool :=
  expectedProductId.length == info.productIdSizeBytes &&
    info.productIdOffsetBytes ≤ info.manifestSizeBytes &&
    expectedProductId.length ≤ info.manifestSizeBytes - info.productIdOffsetBytes &&
    (workspace.manifest.toList.drop info.productIdOffsetBytes).take expectedProductId.length ==
      expectedProductId

/-- `read_slot`: the bounded read callback of the slot, refused outside the package. -/
def readSlot (packageSizeBytes : Nat) :
    (request : ReadCall) → Program ReadPort (ReadPort.Answer request)
  | .read offset sizeBytes =>
      if sizeBytes > 0 && sizeBytes ≤ 512 && offset ≤ packageSizeBytes &&
          sizeBytes ≤ packageSizeBytes - offset then
        Program.call (I := ReadPort) (.read offset sizeBytes)
      else
        pure (.failed none)
  | .digest step => Program.call (I := ReadPort) (.digest step)

/-- The second check of `econtainer_package_slot_validate`, behind its null pointer checks. -/
def SlotValidation.refused (validation : SlotValidation) (productId : List UInt8)
    (operation : Operation) (hasReadFn : Bool) (packageSizeBytes : Nat) : Bool :=
  !hasReadFn || productId.isEmpty || !validation.hasWasmWorkspace ||
    validation.maxEventQueueLimit == 0 || validation.maxInstructionBudget == 0 ||
    validation.maxInstructionBudget > 2147483647 || validation.maxHostCallTimeoutMs == 0 ||
    packageSizeBytes != operation.packageSizeBytes.toNat

/-- `accepted`: what was signed matches the operation and the policy. -/
def SlotValidation.accepts (validation : SlotValidation) (productId : List UInt8)
    (operation : Operation) (verified : VerifyOutcome) : Bool :=
  verified.info.packageSha256 == operation.packageSha256 &&
    verified.info.guestAbiVersion == operation.guestAbiVersion &&
    verified.info.dataSchemaVersion == operation.dataSchemaVersion &&
    (verified.workspace.any fun workspace =>
      productMatches productId workspace verified.info) &&
    verified.info.eventQueueLimit ≤ validation.maxEventQueueLimit &&
    verified.info.instructionBudget ≤ validation.maxInstructionBudget &&
    verified.info.hostCallTimeoutMs ≤ validation.maxHostCallTimeoutMs &&
    verified.info.storageLimitBytes ≤ validation.maxStorageLimitBytes

/-- The result of admission for a result of the Wasm check. -/
def admissionResult : Except WasmError Unit → ValidationResult
  | .ok _ => .ok
  | .error .readFailed => .ioFailed
  | .error _ => .untrusted

/-- The result for a verified package: the Wasm check is only run on an accepted one. -/
def checkAccepted (crypto : Crypto) (validation : SlotValidation) (productId : List UInt8)
    (operation : Operation) (packageSizeBytes : Nat) (verified : VerifyOutcome) :
    Program ReadPort ValidationResult :=
  if validation.accepts productId operation verified then
    admissionResult <$> (packageWasmCheck crypto true (some verified.info)
      (some validation.wasmAuthorization) true).translate (readSlot packageSizeBytes)
  else
    pure .untrusted

/-- `econtainer_package_slot_validate` behind its argument checks. -/
def admitCandidate (crypto : Crypto) (validation : SlotValidation)
    (productId publicKey expectedKeyId : List UInt8) (buffers : Workspace) (operation : Operation)
    (packageSizeBytes : Nat) : Program ReadPort SlotValidationOutcome := do
  let verified ← (packageVerify crypto
    ⟨true, packageSizeBytes, validation.maxWasmBytes, some publicKey, some expectedKeyId, true⟩
    (some buffers)).translate (readSlot packageSizeBytes)
  match verified.result with
  | .error error =>
      pure ⟨if error == .readFailed then .ioFailed else .untrusted, verified.workspace,
        some .zero⟩
  | .ok _ =>
      let result ← checkAccepted crypto validation productId operation packageSizeBytes verified
      if result == .ok then
        pure ⟨.ok, verified.workspace, some verified.info⟩
      else
        pure ⟨result, some .zero, some .zero⟩

/-- `econtainer_package_slot_validate`. -/
def packageSlotValidate (crypto : Crypto) (validation : Option SlotValidation)
    (workspace : Option Workspace) (operation : Option Operation) (hasReadFn : Bool)
    (packageSizeBytes : Nat) : Program ReadPort SlotValidationOutcome :=
  match validation with
  | none => pure ⟨.untrusted, workspace, none⟩
  | some validation =>
      if !validation.hasVerifiedInfo then
        pure ⟨.untrusted, workspace, none⟩
      else
        let workspace := workspace.map fun _ => Workspace.zero
        match validation.expectedProductId, validation.publicKey, validation.expectedKeyId,
          workspace, operation with
        | some productId, some publicKey, some expectedKeyId, some buffers, some operation =>
            if validation.refused productId operation hasReadFn packageSizeBytes then
              pure ⟨.untrusted, some buffers, some .zero⟩
            else
              admitCandidate crypto validation productId publicKey expectedKeyId buffers operation
                packageSizeBytes
        | _, _, _, _, _ => pure ⟨.untrusted, workspace, some .zero⟩

end Package
