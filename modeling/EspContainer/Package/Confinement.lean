/-
# Where a candidate is read

Admission of a candidate reads through two guards: `read_slot` keeps it inside the
package and `flash_relative_read` keeps it inside the slot. Neither guard is ever
needed. Verification reads forward and stops at the end of the package, the Wasm
check reads blocks of the member that verification found, and the engine calls the
validator with a package that fits its slot. So a request that fails, failed in
flash, and no package can make admission read another slot.
-/

import EspContainer.Package.FaultReporting
import EspContainer.Slots.Requests

namespace Package

open Binary Interaction Slots

variable {crypto : Crypto}

/-! ## Inside the package -/

/-- `read_slot` passes the request on. -/
def Admitted (packageSizeBytes : Nat) (call : ReadCall) : Prop :=
  readSlot packageSizeBytes call = Program.call (I := ReadPort) call

/-- Verification reads blocks of the package. -/
theorem uses_packageVerify (crypto : Crypto) (arguments : VerifyArguments)
    (workspace : Option Workspace) :
    (packageVerify crypto arguments workspace).Uses (ReadsMember 0 arguments.packageSizeBytes) := by
  apply Program.Safe.uses (safe_packageVerify crypto arguments workspace)
  intro past call hcall
  cases call with
  | digest step => trivial
  | read offset count =>
      obtain ⟨-, hpos, hblock, hend, -⟩ := hcall
      exact ⟨hpos, hblock, Nat.zero_le _, (Nat.zero_add _).symm ▸ hend⟩

/-- The Wasm check of a verified package reads blocks of its member, and is not refused by
`read_slot`. -/
theorem uses_wasmCheck_verified {σ : Type} {W : World ReadPort σ} {before after : σ}
    {trace : ReadTrace} {arguments : VerifyArguments} {workspace : Option Workspace}
    {verified : VerifyOutcome}
    (hexec : Exec W (packageVerify crypto arguments workspace) before trace (.ret verified) after)
    (hresult : verified.result = .ok ()) (hasReadFn : Bool)
    (authorization : Option WasmAuthorization) (hasWorkspace : Bool) :
    (packageWasmCheck crypto hasReadFn (some verified.info) authorization hasWorkspace).Uses
      (fun call => ReadsMember verified.info.wasmOffsetBytes verified.info.wasmSizeBytes call ∧
        Admitted arguments.packageSizeBytes call) := by
  have hpost := (safe_packageVerify crypto arguments workspace).post_of_trace hexec
  obtain ⟨-, -, hsize, -⟩ := hpost.complete hresult
  apply (uses_packageWasmCheck crypto hasReadFn verified.info authorization hasWorkspace).mono
  rintro call ⟨hmember, hwithin⟩
  exact ⟨hmember, readSlot_eq_call (hsize ▸ hwithin)⟩

/-! ## Inside the slot -/

/-- `econtainer_package_slot_validate` as the `validate_fn` of the engine. -/
def slotValidator (crypto : Crypto) (validation : Option SlotValidation)
    (workspace : Option Workspace) : ValidateFn := fun operation size =>
  SlotValidationOutcome.result <$>
    packageSlotValidate crypto validation workspace (some operation) true size

/-- Admission reads blocks of the package. -/
theorem uses_packageSlotValidate (crypto : Crypto) (validation : Option SlotValidation)
    (workspace : Option Workspace) (operation : Option Operation) (hasReadFn : Bool)
    (packageSizeBytes : Nat) :
    (packageSlotValidate crypto validation workspace operation hasReadFn packageSizeBytes).Uses
      (ReadsWithin packageSizeBytes) := by
  have hserved {α : Type} (program : Program ReadPort α) :
      (program.translate (readSlot packageSizeBytes)).Uses (ReadsWithin packageSizeBytes) :=
    (Program.uses_trivial program).translate fun call _ => uses_readSlot packageSizeBytes call
  unfold packageSlotValidate
  split
  · trivial
  · split
    · trivial
    simp only
    split
    · split
      · trivial
      apply (hserved _).bind
      intro verified
      cases verified.result with
      | error error => trivial
      | ok value =>
          apply Program.Uses.bind
          · unfold checkAccepted
            split
            · exact (hserved _).bind fun _ => trivial
            · trivial
          · intro result
            split <;> trivial
    · trivial

theorem uses_slotValidator (crypto : Crypto) (validation : Option SlotValidation)
    (workspace : Option Workspace) (operation : Operation) (size : Nat) :
    (slotValidator crypto validation workspace operation size).Uses (ReadsWithin size) :=
  (uses_packageSlotValidate _ _ _ _ _ _).bind fun _ => trivial

theorem readsBytes_slotValidator (crypto : Crypto) (validation : Option SlotValidation)
    (workspace : Option Workspace) :
    ReadsBytes (slotValidator crypto validation workspace) := by
  intro operation size
  apply (uses_slotValidator crypto validation workspace operation size).mono
  intro call hcall
  cases call with
  | digest step => trivial
  | read offset count => exact hcall.1

/-- `flash_relative_read` passes the request on, to addresses of the slot of the operation. -/
def ReachesSlot (geometry : Geometry) (operation : Operation) (size : Nat) : ReadCall → Prop
  | .read offset count =>
      let slot := geometry.slot operation.slot
      flashRelativeRead ⟨slot.offsetBytes, size⟩ offset count =
          Program.call (I := SlotsPort) (.flashRead (slot.offsetBytes + offset) count) ∧
        slot.offsetBytes + offset + count ≤ slot.endBytes
  | .digest _ => True

/-- A block of a package that fits its slot is read from the slot. -/
theorem reachesSlot_of_readsWithin {geometry : Geometry} {operation : Operation} {size : Nat}
    (hfits : CandidateFits geometry operation size) {call : ReadCall}
    (hcall : ReadsWithin size call) : ReachesSlot geometry operation size call := by
  cases call with
  | digest step => trivial
  | read offset count =>
      obtain ⟨-, -, hend⟩ := hcall
      have hsize := hfits.fits
      have hslot := hfits.slot_end
      rw [Region.endBytes] at hslot
      refine ⟨?_, ?_⟩
      · rw [flashRelativeRead, if_neg]
        simp only [Bool.or_eq_true, decide_eq_true_eq, not_or, gt_iff_lt, Nat.not_lt]
        exact ⟨⟨by omega, by omega⟩, by omega⟩
      · rw [Region.endBytes]
        omega

/-- The request that writes the sample package for admission. -/
def sampleAdmitting : Request :=
  .writeAndPrepare true 2 true (some (slotValidator constantCrypto none none)) true

end Package
