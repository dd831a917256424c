/-
# The slot record and its validity

The durable state of the three package slots is one record: a sequence number,
one binding per bootable firmware, and the latest operation with its phase.
This module carries the record types and the pure checks of `slots.c` on them:
the geometry check, the binding, operation and state checks, and the firmware
set checks.

Record fields that are stored as 32-bit words are `UInt32`. Geometry fields are
natural numbers, because the code only ever adds them after widening to 64 bits
and a valid geometry keeps every sum below `2 ^ 32`.
-/

import EspContainer.Package.Crypto
import Mathlib.Algebra.GroupWithZero.Nat
import Mathlib.Data.Fintype.Pi
import Mathlib.Data.Fintype.BigOperators

namespace Slots

open Binary Package

/-- `ECONTAINER_SLOT_COUNT`. -/
abbrev slotCount : Nat := 3

/-- `ECONTAINER_SLOT_BINDING_COUNT`. -/
abbrev bindingCount : Nat := 2

@[instance]
theorem bindingCount_neZero : NeZero bindingCount := ⟨by decide⟩

/-- `SLOT_IO_BYTES`, the size of the engine's own buffers. -/
abbrev slotIoBytes : Nat := 256

abbrev OperationId : Type := Bytes 16
abbrev BootId : Type := Bytes 16

/-- `econtainer_slots_result_t` without `OK`, which is success. -/
inductive SlotsError
  | empty
  | invalid
  | ioFailed
  | uncertain
  | busy
  | noSpace
  | conflict
  | untrusted
  deriving DecidableEq, Repr

/-- `econtainer_slot_phase_t`. -/
inductive Phase
  | idle
  | writing
  | prepared
  | trialStarted
  | healthVerified
  | confirmed
  | aborted
  deriving DecidableEq, Repr

namespace Phase

/-- The stored value of a phase; the code compares phases by it. -/
def code : Phase → UInt8
  | idle => 0
  | writing => 1
  | prepared => 2
  | trialStarted => 3
  | healthVerified => 4
  | confirmed => 5
  | aborted => 6

/-- The phase a stored byte stands for. Bytes above `ABORTED` are no phase;
`operation_valid` rejects them. -/
def ofCode (byte : UInt8) : Option Phase :=
  match byte with
  | 0 => some idle
  | 1 => some writing
  | 2 => some prepared
  | 3 => some trialStarted
  | 4 => some healthVerified
  | 5 => some confirmed
  | 6 => some aborted
  | _ => none

@[simp]
theorem ofCode_code (phase : Phase) : ofCode phase.code = some phase := by
  cases phase <;> rfl

theorem code_of_ofCode {byte : UInt8} {phase : Phase} (hcode : ofCode byte = some phase) :
    phase.code = byte := by
  unfold ofCode at hcode
  split at hcode <;> cases hcode <;> rfl

/-- `WRITING <= phase && phase <= HEALTH_VERIFIED`: a candidate occupies its
reserved slot. -/
def pending (phase : Phase) : Bool :=
  writing.code ≤ phase.code && phase.code ≤ healthVerified.code

theorem pending_eq_false_iff {phase : Phase} :
    phase.pending = false ↔ phase = idle ∨ phase = confirmed ∨ phase = aborted := by
  cases phase <;> decide

/-- `PREPARED <= phase && phase <= HEALTH_VERIFIED`: the candidate was written
completely. -/
def complete (phase : Phase) : Bool :=
  prepared.code ≤ phase.code && phase.code ≤ healthVerified.code

end Phase

/-- `econtainer_slot_region_t`. -/
structure Region where
  offsetBytes : Nat
  sizeBytes : Nat
  deriving DecidableEq, Repr, Inhabited

/-- `econtainer_slots_geometry_t`. -/
structure Geometry where
  partitionOffsetBytes : Nat
  partitionSizeBytes : Nat
  eraseUnitBytes : Nat
  writeUnitBytes : Nat
  slots : Fin slotCount → Region

/-- `geometry->slots[slot]`; every access is guarded by `slot < SLOT_COUNT`. -/
def Geometry.slot (geometry : Geometry) (slot : UInt8) : Region :=
  if h : slot.toNat < slotCount then geometry.slots ⟨slot.toNat, h⟩ else default

/-- `econtainer_slot_binding_t`. -/
structure Binding where
  present : Bool
  packagePresent : Bool
  slot : UInt8
  firmwareSha256 : Sha256
  packageSha256 : Sha256
  packageSizeBytes : UInt32
  guestAbiVersion : UInt32
  dataSchemaVersion : UInt32
  deriving DecidableEq

/-- `econtainer_slot_operation_t`. -/
structure Operation where
  operationId : OperationId
  targetFirmwareSha256 : Sha256
  packageSha256 : Sha256
  slot : UInt8
  packageSizeBytes : UInt32
  guestAbiVersion : UInt32
  dataSchemaVersion : UInt32
  trialBootId : BootId
  deriving DecidableEq

/-- `econtainer_slots_state_t`. -/
structure State where
  sequence : UInt32
  bindings : Fin bindingCount → Binding
  phase : Phase
  operation : Operation
  deriving DecidableEq

/-- `econtainer_slot_firmware_set_t`. -/
structure FirmwareSet where
  bootableCount : Nat
  bootableFirmwareSha256 : Fin bindingCount → Sha256
  runningFirmwareSha256 : Sha256

/-- `all_zero`. -/
def allZero {n : Nat} (bytes : Bytes n) : Bool :=
  bytes.toList.foldl (· ||| ·) 0 == 0

private theorem foldl_or_eq_zero_iff (list : List UInt8) (start : UInt8) :
    list.foldl (· ||| ·) start = 0 ↔ start = 0 ∧ ∀ byte ∈ list, byte = 0 := by
  induction list generalizing start with
  | nil => simp
  | cons byte list ih => simp [ih, UInt8.or_eq_zero_iff, and_assoc]

@[simp]
theorem allZero_iff {n : Nat} (bytes : Bytes n) : allZero bytes = true ↔ bytes = Bytes.zero n := by
  rw [allZero, beq_iff_eq, foldl_or_eq_zero_iff]
  constructor
  · rintro ⟨-, hzero⟩
    exact Bytes.ext (List.eq_replicate_iff.mpr ⟨bytes.2, hzero⟩)
  · rintro rfl
    exact ⟨rfl, fun byte hbyte => List.eq_of_mem_replicate hbyte⟩

/-- The all-zero binding. -/
def Binding.empty : Binding :=
  ⟨false, false, 0, Bytes.zero 32, Bytes.zero 32, 0, 0, 0⟩

/-- The all-zero operation an idle record carries. -/
def Operation.empty : Operation :=
  ⟨Bytes.zero 16, Bytes.zero 32, Bytes.zero 32, 0, 0, 0, 0, Bytes.zero 16⟩

/-- `memset(state, 0, sizeof(*state))`. -/
def State.zero : State :=
  ⟨0, fun _ => Binding.empty, .idle, Operation.empty⟩

/-! ## Geometry -/

namespace Region

/-- One past the last byte of a region. -/
def endBytes (region : Region) : Nat := region.offsetBytes + region.sizeBytes

/-- Two regions share a byte (for nonempty regions). -/
def overlaps (first second : Region) : Bool :=
  first.offsetBytes < second.endBytes && second.offsetBytes < first.endBytes

end Region

/-- `econtainer_slots_geometry_valid`. -/
def geometryValid (geometry : Geometry) : Bool :=
  if geometry.partitionSizeBytes == 0 ||
      geometry.eraseUnitBytes == 0 || geometry.writeUnitBytes == 0 ||
      geometry.writeUnitBytes > slotIoBytes ||
      slotIoBytes % geometry.writeUnitBytes != 0 ||
      geometry.eraseUnitBytes % geometry.writeUnitBytes != 0 ||
      geometry.eraseUnitBytes &&& (geometry.eraseUnitBytes - 1) != 0 ||
      geometry.writeUnitBytes &&& (geometry.writeUnitBytes - 1) != 0 ||
      geometry.partitionOffsetBytes + geometry.partitionSizeBytes > uint32Max then
    false
  else
    let partitionEnd := geometry.partitionOffsetBytes + geometry.partitionSizeBytes
    decide <| ∀ index : Fin slotCount,
      let slot := geometry.slots index
      slot.sizeBytes ≠ 0 ∧ geometry.partitionOffsetBytes ≤ slot.offsetBytes ∧
        slot.offsetBytes % geometry.eraseUnitBytes = 0 ∧
        slot.sizeBytes % geometry.eraseUnitBytes = 0 ∧
        slot.endBytes ≤ partitionEnd ∧
        ∀ other : Fin slotCount, other < index → ¬ slot.overlaps (geometry.slots other)

/-! ## Record checks -/

/-- `binding_valid`. -/
def bindingValid (binding : Binding) (geometry : Geometry) : Bool :=
  if !binding.present then
    !binding.packagePresent && binding.slot == 0 &&
      allZero binding.firmwareSha256 && allZero binding.packageSha256 &&
      binding.packageSizeBytes == 0 && binding.guestAbiVersion == 0 &&
      binding.dataSchemaVersion == 0
  else if allZero binding.firmwareSha256 then
    false
  else if !binding.packagePresent then
    binding.slot == 0 && allZero binding.packageSha256 &&
      binding.packageSizeBytes == 0 && binding.guestAbiVersion == 0 &&
      binding.dataSchemaVersion == 0
  else
    binding.slot.toNat < slotCount && !allZero binding.packageSha256 &&
      binding.packageSizeBytes > 0 &&
      binding.packageSizeBytes.toNat ≤ (geometry.slot binding.slot).sizeBytes &&
      binding.guestAbiVersion > 0 && binding.dataSchemaVersion > 0

/-- `operation_valid`. The code's range check on the phase is `Phase.ofCode`. -/
def operationValid (state : State) (geometry : Geometry) : Bool :=
  let operation := state.operation
  if state.phase = .idle then
    operation = Operation.empty
  else if allZero operation.operationId || allZero operation.targetFirmwareSha256 ||
      allZero operation.packageSha256 || operation.slot.toNat ≥ slotCount ||
      operation.packageSizeBytes == 0 ||
      operation.packageSizeBytes.toNat > (geometry.slot operation.slot).sizeBytes ||
      operation.guestAbiVersion == 0 || operation.dataSchemaVersion == 0 then
    false
  else if ∃ index, state.phase.pending ∧ (state.bindings index).packagePresent ∧
      (state.bindings index).slot = operation.slot then
    false
  else if ¬ ∃ index, (state.bindings index).present ∧
      (state.bindings index).firmwareSha256 = operation.targetFirmwareSha256 then
    false
  else if state.phase = .writing ∨ state.phase = .prepared then
    allZero operation.trialBootId
  else if state.phase = .trialStarted ∨ state.phase = .healthVerified ∨
      state.phase = .confirmed then
    !allZero operation.trialBootId
  else
    true

/-- Every field the operation asked for is what the binding now carries. -/
def Binding.installs (binding : Binding) (operation : Operation) : Bool :=
  binding.present && binding.packagePresent &&
    binding.firmwareSha256 == operation.targetFirmwareSha256 &&
    binding.slot == operation.slot &&
    binding.packageSizeBytes == operation.packageSizeBytes &&
    binding.packageSha256 == operation.packageSha256 &&
    binding.guestAbiVersion == operation.guestAbiVersion &&
    binding.dataSchemaVersion == operation.dataSchemaVersion

/-- `state_valid`. -/
def stateValid (state : State) (geometry : Geometry) : Bool :=
  let first := state.bindings 0
  let second := state.bindings 1
  if state.sequence == 0 || !bindingValid first geometry || !bindingValid second geometry ||
      (!first.present && !second.present) then
    false
  else if first.present && second.present && first.firmwareSha256 == second.firmwareSha256 then
    false
  else if first.packagePresent && second.packagePresent && first.slot == second.slot &&
      (first.packageSizeBytes != second.packageSizeBytes ||
        first.packageSha256 != second.packageSha256 ||
        first.guestAbiVersion != second.guestAbiVersion ||
        first.dataSchemaVersion != second.dataSchemaVersion) then
    false
  else if !operationValid state geometry then
    false
  else if state.phase = .confirmed then
    decide (∃ index, (state.bindings index).installs state.operation)
  else
    true

/-! ## Firmware sets -/

/-- `binding_for_firmware`: the first present binding of a firmware. -/
def bindingForFirmware (state : State) (firmwareSha256 : Sha256) : Option (Fin bindingCount) :=
  (List.finRange bindingCount).find? fun index =>
    (state.bindings index).present && (state.bindings index).firmwareSha256 == firmwareSha256

/-- `firmware_set_valid` on a non-null set. -/
def firmwareSetValid (firmwareSet : FirmwareSet) : Bool :=
  if firmwareSet.bootableCount == 0 || firmwareSet.bootableCount > bindingCount ||
      allZero firmwareSet.runningFirmwareSha256 then
    false
  else
    decide (∀ index : Fin bindingCount,
      if firmwareSet.bootableCount ≤ index.val then
        allZero (firmwareSet.bootableFirmwareSha256 index)
      else
        !allZero (firmwareSet.bootableFirmwareSha256 index) ∧
          ∀ previous < index, firmwareSet.bootableFirmwareSha256 index ≠
            firmwareSet.bootableFirmwareSha256 previous) &&
    decide (∃ index : Fin bindingCount, index.val < firmwareSet.bootableCount ∧
      firmwareSet.bootableFirmwareSha256 index = firmwareSet.runningFirmwareSha256)

/-- `firmware_set_matches`. -/
def firmwareSetMatches (state : State) (firmwareSet : FirmwareSet) : Bool :=
  decide (∀ index : Fin bindingCount, (state.bindings index).present →
    ∃ member : Fin bindingCount, member.val < firmwareSet.bootableCount ∧
      (state.bindings index).firmwareSha256 = firmwareSet.bootableFirmwareSha256 member) &&
  ((List.finRange bindingCount).filter fun index => (state.bindings index).present).length ==
    firmwareSet.bootableCount

end Slots
