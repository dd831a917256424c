/-
# What the engine asks of flash

Whatever a record says and whatever the callbacks answer, the engine asks flash
for a non-empty range of one slot, erases in whole erase units and programs in
whole write units. Most of it needs no invariant: `hash_flash` checks the slot and
the size it is given. Only `write_and_prepare` relies on the record it loaded, which
is a decoded and therefore a valid one.

A validator is a parameter of the engine. `flash_relative_read` keeps it inside its
package, so the results hold for every validator that makes no empty request.
-/

import EspContainer.Slots.Operations

namespace Slots

open Binary Interaction Package
open Fallible (attempt require chunked)

variable {sha256 : List UInt8 → Sha256} {geometry : Geometry}

/-! ## Ranges -/

/-- The range is not empty and lies in one slot. -/
def InSlot (geometry : Geometry) (offset size : Nat) : Prop :=
  0 < size ∧ ∃ index, (geometry.slots index).offsetBytes ≤ offset ∧
    offset + size ≤ (geometry.slots index).endBytes

/-- A package of this size is the one of the operation and fits its slot, all of whose
addresses are 32-bit numbers. -/
structure CandidateFits (geometry : Geometry) (operation : Operation) (size : Nat) : Prop where
  slot_lt : operation.slot.toNat < slotCount
  size_eq : size = operation.packageSizeBytes.toNat
  fits : size ≤ (geometry.slot operation.slot).sizeBytes
  slot_end : (geometry.slot operation.slot).endBytes ≤ uint32Max

/-- The range of a flash call lies in one slot, in whole units where it is changed, and
a validator is called for a package that fits its slot. -/
def Placed (geometry : Geometry) : SlotsCall → Prop
  | .flashRead offset size => InSlot geometry offset size
  | .flashErase offset size =>
      InSlot geometry offset size ∧ geometry.eraseUnitBytes ∣ offset ∧
        geometry.eraseUnitBytes ∣ size
  | .flashWrite offset bytes =>
      InSlot geometry offset bytes.length ∧ geometry.writeUnitBytes ∣ offset ∧
        geometry.writeUnitBytes ∣ bytes.length
  | .validateEnter operation size => CandidateFits geometry operation size
  | _ => True

/-- A request for at least one byte. -/
def NonEmptyRead : ReadCall → Prop
  | .read _ count => 0 < count
  | .digest _ => True

/-- The validator makes no empty request. -/
def ReadsBytes (validateFn : ValidateFn) : Prop :=
  ∀ operation size, (validateFn operation size).Uses NonEmptyRead

theorem inSlot_of_slot {slot : UInt8} (hslot : slot.toNat < slotCount) {offset size : Nat}
    (hsize : 0 < size) (hlower : (geometry.slot slot).offsetBytes ≤ offset)
    (hupper : offset + size ≤ (geometry.slot slot).endBytes) : InSlot geometry offset size := by
  rw [Geometry.slot_eq hslot] at hlower hupper
  exact ⟨hsize, _, hlower, hupper⟩

/-- What a valid geometry says of each slot by itself. -/
theorem slots_of_geometryValid (hvalid : geometryValid geometry = true) (index : Fin slotCount) :
    (geometry.slots index).sizeBytes ≠ 0 ∧
      geometry.partitionOffsetBytes ≤ (geometry.slots index).offsetBytes ∧
      (geometry.slots index).offsetBytes % geometry.eraseUnitBytes = 0 ∧
      (geometry.slots index).endBytes ≤
        geometry.partitionOffsetBytes + geometry.partitionSizeBytes := by
  simp only [geometryValid, Bool.if_false_left, Bool.and_eq_true, decide_eq_true_eq] at hvalid
  obtain ⟨hsize, hlower, haligned, -, hupper, -⟩ := hvalid.2 index
  exact ⟨hsize, hlower, haligned, hupper⟩

/-- Every slot of a valid geometry starts at a whole erase unit. -/
theorem eraseUnit_dvd_offset (hvalid : geometryValid geometry = true) (index : Fin slotCount) :
    geometry.eraseUnitBytes ∣ (geometry.slots index).offsetBytes := by
  exact Nat.dvd_of_mod_eq_zero (slots_of_geometryValid hvalid index).2.2.1

theorem slot_eraseUnit_dvd (hvalid : geometryValid geometry = true) {slot : UInt8}
    (hslot : slot.toNat < slotCount) :
    geometry.eraseUnitBytes ∣ (geometry.slot slot).offsetBytes ∧
      geometry.eraseUnitBytes ∣ (geometry.slot slot).sizeBytes := by
  rw [Geometry.slot_eq hslot]
  exact ⟨eraseUnit_dvd_offset hvalid _,
    (wellPlaced_of_geometryValid hvalid).eraseUnit_dvd_size _⟩

/-- No slot of a valid geometry is empty. -/
theorem slot_size_pos (hvalid : geometryValid geometry = true) {slot : UInt8}
    (hslot : slot.toNat < slotCount) : 0 < (geometry.slot slot).sizeBytes := by
  rw [Geometry.slot_eq hslot]
  exact Nat.pos_of_ne_zero (slots_of_geometryValid hvalid _).1

/-! ## Reading back -/

/-- A relative read stays in the slot of its reader. -/
theorem placed_flashRelativeRead {slot : UInt8} (hslot : slot.toNat < slotCount) {size : Nat}
    (hsize : size ≤ (geometry.slot slot).sizeBytes) {offset count : Nat} (hcount : 0 < count) :
    (flashRelativeRead ⟨(geometry.slot slot).offsetBytes, size⟩ offset count).Uses
      (Placed geometry) := by
  unfold flashRelativeRead
  split
  · trivial
  · next hguard =>
    simp only [Bool.or_eq_true, decide_eq_true_eq, not_or, gt_iff_lt, Nat.not_lt] at hguard
    apply Program.uses_call
    apply inSlot_of_slot hslot hcount (Nat.le_add_right _ _)
    rw [Region.endBytes]
    omega

theorem placed_hashFlash (slot : UInt8) (sizeBytes : UInt32) (expectedSha256 : Sha256) :
    (hashFlash sha256 geometry slot sizeBytes expectedSha256).run.Uses (Placed geometry) := by
  unfold hashFlash
  apply Fallible.uses_require_bind
  intro hchecked
  simp only [Bool.and_eq_true, decide_eq_true_eq] at hchecked
  obtain ⟨⟨hslot, -⟩, hsize⟩ := hchecked
  apply Fallible.uses_bind (uses_ask trivial)
  intro started
  apply Fallible.uses_bind (Fallible.uses_require _ _)
  intro _
  apply Fallible.uses_bind
  · apply Fallible.uses_chunked
    intro offset fed hlt _
    apply Fallible.uses_bind
    · apply Fallible.uses_attempt
      exact placed_flashRelativeRead hslot hsize (Nat.lt_min.mpr ⟨by decide, Nat.sub_pos_of_lt hlt⟩)
    · intro answer
      cases answer with
      | failed left => trivial
      | ok buffer =>
          exact Fallible.uses_bind (uses_ask trivial) fun _ =>
            Fallible.uses_bind (Fallible.uses_require _ _) fun _ => trivial
  · intro fed
    exact Fallible.uses_bind (uses_ask trivial) fun _ =>
      Fallible.uses_bind (Fallible.uses_require _ _) fun _ => Fallible.uses_require _ _

theorem placed_checkBinding (binding : Binding) :
    (checkBinding sha256 geometry binding).run.Uses (Placed geometry) := by
  unfold checkBinding
  split
  · exact placed_hashFlash _ _ _
  · trivial

theorem placed_checkCandidate (state : State) :
    (checkCandidate sha256 geometry state).run.Uses (Placed geometry) := by
  unfold checkCandidate
  split
  · exact placed_hashFlash _ _ _
  · trivial

theorem placed_checkReferences (state : State) (candidate : Bool) :
    (checkReferences sha256 geometry state candidate).run.Uses (Placed geometry) := by
  apply Fallible.uses_bind (placed_checkBinding _)
  intro _
  apply Fallible.uses_bind (placed_checkBinding _)
  intro _
  cases candidate with
  | false => trivial
  | true => exact placed_checkCandidate state

/-! ## Writing a candidate -/

/-- Programming stays in the slot, in whole units. -/
theorem placed_programCandidate (hvalid : geometryValid geometry = true) {operation : Operation}
    (hslot : operation.slot.toNat < slotCount)
    (hfits : operation.packageSizeBytes.toNat ≤ (geometry.slot operation.slot).sizeBytes) :
    (programCandidate geometry operation).run.Uses (Placed geometry) := by
  have hplaced := wellPlaced_of_geometryValid hvalid
  obtain ⟨hoffsetUnits, hsizeUnits⟩ := slot_eraseUnit_dvd hvalid hslot
  unfold programCandidate
  apply Fallible.uses_bind
  · apply uses_ask
    exact ⟨inSlot_of_slot hslot (slot_size_pos hvalid hslot) le_rfl le_rfl, hoffsetUnits, hsizeUnits⟩
  intro erased
  apply Fallible.uses_require_bind
  intro _
  apply Fallible.uses_chunked
  intro offset _ hlt hstart
  set actual := min slotIoBytes (operation.packageSizeBytes.toNat - offset) with hactual
  have hend : offset + actual ≤ (geometry.slot operation.slot).sizeBytes := by
    have := min_le_right slotIoBytes (operation.packageSizeBytes.toNat - offset)
    omega
  have hpositive : 0 < actual := Nat.lt_min.mpr ⟨by decide, Nat.sub_pos_of_lt hlt⟩
  have haligned := hplaced.aligned_end hslot hstart hend
  have hpadded := hplaced.le_aligned actual
  have hbelow := hplaced.slot_endBytes hslot
  simp only [Region.endBytes, uint32Max] at hbelow
  apply Fallible.uses_bind (uses_ask trivial)
  intro answer
  cases answer with
  | failed left => trivial
  | ok buffer =>
      apply Fallible.uses_bind _ fun _ => Fallible.uses_require _ _
      apply uses_ask
      have hlength : (buffer.toList ++
          List.replicate (alignedBytes geometry actual - actual) (0xff : UInt8)).length =
          alignedBytes geometry actual := by
        rw [List.length_append, List.length_replicate, buffer.toList_length]
        exact Nat.add_sub_cancel' hpadded
      -- The address does not wrap: the padded chunk ends inside the slot.
      have haddress : ((geometry.slot operation.slot).offsetBytes + offset) % 4294967296 =
          (geometry.slot operation.slot).offsetBytes + offset := Nat.mod_eq_of_lt (by omega)
      refine ⟨?_, ?_, ?_⟩
      · rw [hlength, haddress]
        apply inSlot_of_slot hslot (hpositive.trans_le hpadded) (Nat.le_add_right _ _)
        rw [Region.endBytes]
        omega
      · rw [haddress]
        exact Nat.dvd_add (hplaced.writeUnit_dvd_eraseUnit.trans hoffsetUnits)
          (hplaced.writeUnit_dvd_buffer.trans hstart)
      · rw [hlength]
        exact Nat.dvd_mul_left _ _

/-- A validator reads the slot. -/
theorem placed_validateCandidate (hvalid : geometryValid geometry = true)
    {validateFn : ValidateFn} (hreads : ReadsBytes validateFn) {operation : Operation} (hslot : operation.slot.toNat < slotCount)
    (hfits : operation.packageSizeBytes.toNat ≤ (geometry.slot operation.slot).sizeBytes) :
    (validateCandidate geometry validateFn operation).run.Uses (Placed geometry) := by
  unfold validateCandidate
  apply Fallible.uses_bind (uses_ask (show Placed geometry (.validateEnter _ _) from
    ⟨hslot, rfl, hfits, (wellPlaced_of_geometryValid hvalid).slot_endBytes hslot⟩))
  intro _
  apply Fallible.uses_bind
  · apply Fallible.uses_attempt
    apply (hreads operation _).translate
    intro request hrequest
    cases request with
    | digest step => exact Program.uses_call trivial
    | read offset count => exact placed_flashRelativeRead hslot hfits hrequest
  · intro result
    exact Fallible.uses_bind (uses_ask trivial) fun _ => trivial

/-! ## Records -/

theorem placed_loadLocked : (loadLocked geometry).run.Uses (Placed geometry) :=
  Program.Safe.uses safe_loadLocked fun _ _ hcall => hcall ▸ trivial

theorem placed_persistLocked (before : Option State) (after : State) (hasState : Bool) :
    (persistLocked before after hasState).run.Uses (Placed geometry) := by
  unfold persistLocked
  apply Fallible.uses_bind (uses_ask trivial)
  intro committed
  apply Fallible.uses_bind (uses_ask trivial)
  intro answer
  cases answer with
  | notFound => trivial
  | readFailed => trivial
  | found observed =>
      simp only
      split
      · apply Fallible.uses_require_bind
        intro _
        cases hasState with
        | false => trivial
        | true => exact uses_ask trivial
      · split <;> trivial

theorem placed_commitNext (before next : State) :
    (commitNext geometry before next).run.Uses (Placed geometry) := by
  unfold commitNext
  apply Fallible.uses_require_bind
  intro _
  apply Fallible.uses_require_bind
  intro _
  exact placed_persistLocked _ _ _

/-- A transaction asks flash what its middle part asks of a record that was loaded. -/
theorem placed_transact {expectedSequence : UInt32} {prepare : State → Locked State}
    (hprepare : ∀ current, Loaded geometry current →
      (prepare current).run.Uses (Placed geometry)) :
    (transact geometry expectedSequence prepare).run.Uses (Placed geometry) := by
  have hbegin : Fallible.Safe (World.history SlotsPort) (fun _ call => Placed geometry call)
      (fun _ _ => True) (fun _ current => Loaded geometry current)
      (beginLocked geometry expectedSequence) [] :=
    (safe_beginLocked expectedSequence).mono (fun _ _ hcall => hcall ▸ trivial)
      (fun _ _ _ => trivial) fun _ _ hcurrent => hcurrent.1
  unfold transact
  apply Fallible.uses_bind_of_safe hbegin
  intro current hloaded
  exact Fallible.uses_bind (hprepare current hloaded) fun planned => placed_commitNext _ _

theorem placed_withLock {body : Locked Unit} (hbody : body.run.Uses (Placed geometry)) :
    (withLock body).Uses (Placed geometry) := by
  apply (Program.uses_call trivial).bind
  intro locked
  split
  · exact hbody.bind fun _ => (Program.uses_call trivial).bind fun _ => trivial
  · trivial

/-! ## Every request -/

/-- A middle part that only checks references before it plans. -/
theorem placed_planned (state planned : State) (candidate : Bool) :
    (do
      checkReferences sha256 geometry state candidate
      pure planned : Locked State).run.Uses (Placed geometry) :=
  Fallible.uses_bind (placed_checkReferences _ _) fun _ => trivial

theorem placed_reservePrepare (firmwareSet : FirmwareSet) (operation : Operation)
    (current : State) :
    (reservePrepare sha256 geometry firmwareSet operation current).run.Uses (Placed geometry) := by
  apply Fallible.uses_require_bind
  intro _
  apply Fallible.uses_require_bind
  intro _
  apply Fallible.uses_bind (placed_checkReferences _ _)
  intro _
  cases repeatedRequest current operation with
  | some code => trivial
  | none =>
      apply Fallible.uses_require_bind
      intro _
      cases selectSlot geometry current operation <;> trivial

theorem placed_confirmPrepare (runningFirmwareSha256 : Sha256) (bootId : BootId)
    (current : State) :
    (confirmPrepare sha256 geometry runningFirmwareSha256 bootId current).run.Uses
      (Placed geometry) := by
  unfold confirmPrepare
  cases bindingForFirmware current runningFirmwareSha256 with
  | none => trivial
  | some index => exact Fallible.uses_require_bind fun _ => placed_planned _ _ _

theorem placed_abandonPrepare (bootId : BootId) (hasTrialStopped : Bool) (current : State) :
    (abandonPrepare sha256 geometry bootId hasTrialStopped current).run.Uses
      (Placed geometry) := by
  apply Fallible.uses_require_bind
  intro _
  apply Fallible.uses_bind
  · unfold requireStopped
    split
    · apply Fallible.uses_require_bind
      intro _
      exact Fallible.uses_bind (uses_ask trivial) fun _ => Fallible.uses_require _ _
    · trivial
  · intro _
    exact placed_planned _ _ _

/-- Only here the record decides where flash is written. -/
theorem placed_writePrepare (hvalid : geometryValid geometry = true) {validateFn : ValidateFn}
    (hreads : ReadsBytes validateFn) {current : State} (hloaded : Loaded geometry current) :
    (writePrepare sha256 geometry validateFn current).run.Uses (Placed geometry) := by
  apply Fallible.uses_require_bind
  intro hphase
  rw [beq_iff_eq] at hphase
  have hsound := operationSound_of_stateValid hloaded.valid (by simp [hphase])
  apply Fallible.uses_bind (placed_checkReferences _ _)
  intro _
  apply Fallible.uses_bind (placed_programCandidate hvalid hsound.slot_lt hsound.fits)
  intro _
  apply Fallible.uses_bind (placed_hashFlash _ _ _)
  intro _
  apply Fallible.uses_bind (placed_validateCandidate hvalid hreads hsound.slot_lt hsound.fits)
  intro result
  cases result <;> trivial

theorem placed_load (io hasState : Bool) : (load io geometry hasState).Uses (Placed geometry) := by
  unfold load
  split
  · trivial
  apply (Program.uses_call trivial).bind
  intro _
  apply (Program.uses_call trivial).bind
  intro locked
  split
  · apply placed_loadLocked.bind
    intro result
    cases result with
    | ok state =>
        exact (Program.uses_call trivial).bind fun _ => (Program.uses_call trivial).bind fun _ =>
          trivial
    | error code =>
        exact (Program.uses_call trivial).bind fun _ => (Program.uses_call trivial).bind fun _ =>
          trivial
  · trivial

theorem placed_initializeLocked (firmwareSet : FirmwareSet)
    (bindings : Fin bindingCount → Binding) :
    (initializeLocked sha256 geometry firmwareSet bindings).run.Uses (Placed geometry) := by
  apply Fallible.uses_bind (Fallible.uses_attempt placed_loadLocked)
  intro result
  cases result with
  | ok state => trivial
  | error code =>
      cases code with
      | empty =>
          apply Fallible.uses_require_bind
          intro _
          apply Fallible.uses_bind (placed_checkReferences _ _)
          intro _
          exact placed_persistLocked _ _ _
      | _ => trivial

theorem placed_reconcileLocked (firmwareSet : FirmwareSet) :
    (reconcileLocked sha256 geometry firmwareSet).run.Uses (Placed geometry) := by
  have hreferences : (reconcileReferences sha256 geometry firmwareSet).run.Uses
      (Placed geometry) := by
    apply Fallible.uses_bind placed_loadLocked
    intro state
    apply Fallible.uses_bind (uses_ask trivial)
    intro _
    apply Fallible.uses_require_bind
    intro _
    exact placed_planned _ _ _
  apply Fallible.uses_bind (Fallible.uses_attempt hreferences)
  intro result
  cases result with
  | error code => exact Fallible.uses_bind (uses_ask trivial) fun _ => trivial
  | ok state =>
      apply Fallible.uses_bind (Fallible.uses_attempt (placed_checkCandidate state))
      intro outcome
      cases outcome with
      | ok value => exact uses_ask trivial
      | error code => exact Fallible.uses_bind (uses_ask trivial) fun _ => trivial

theorem placed_reconcile (io : Bool) (firmwareSet : Option FirmwareSet)
    (hasState hasDecision : Bool) :
    (reconcile sha256 io geometry firmwareSet hasState hasDecision).Uses (Placed geometry) := by
  have hclear : (clearDecision hasDecision).Uses (Placed geometry) ∧
      (clearState hasState).Uses (Placed geometry) := by
    unfold clearDecision clearState
    constructor
    · split
      · exact Program.uses_call trivial
      · trivial
    · split
      · exact Program.uses_call trivial
      · trivial
  apply hclear.1.bind
  intro _
  apply hclear.2.bind
  intro _
  cases firmwareSet with
  | none => trivial
  | some firmwareSet =>
      simp only
      split
      · trivial
      · exact placed_withLock (placed_reconcileLocked firmwareSet)

/-- The validator of a request, if it has one. -/
def Request.validator : Request → Option ValidateFn
  | .writeAndPrepare _ _ _ validateFn _ => validateFn
  | _ => none

/-- The middle parts other than that of `write_and_prepare`. -/
theorem placed_prepare (request : Request) (hvalidator : request.validator = none)
    (current : State) : (request.prepare sha256 geometry current).run.Uses (Placed geometry) := by
  unfold Request.prepare
  split
  · exact placed_reservePrepare _ _ _
  · cases hvalidator
  · exact Fallible.uses_require_bind fun _ => placed_planned _ _ _
  · exact Fallible.uses_require_bind fun _ => placed_planned _ _ _
  · exact placed_confirmPrepare _ _ _
  · exact placed_abandonPrepare _ _ _
  · trivial

/-- Every request asks flash for ranges of one slot only, in whole units when it changes
it, if its validator makes no empty request. -/
theorem placed_program (request : Request)
    (hreads : ∀ validateFn, request.validator = some validateFn → ReadsBytes validateFn) :
    (request.program sha256 geometry).Uses (Placed geometry) := by
  have htransacts (expectedSequence : UInt32)
      (hexpected : request.expectedSequence = some expectedSequence)
      (hvalidator : request.validator = none) :
      (request.program sha256 geometry).Uses (Placed geometry) := by
    rcases transacts_of_expectedSequence request hexpected with hrefused | ⟨hprogram, -⟩
    · rw [hrefused]
      trivial
    · rw [hprogram]
      exact placed_withLock (placed_transact fun current _ => placed_prepare _ hvalidator current)
  cases request with
  | initializeRecord io firmwareSet bindings =>
      cases firmwareSet with
      | none => trivial
      | some firmwareSet =>
          cases bindings with
          | none => trivial
          | some bindings =>
              simp only [Request.program, initializeRecord]
              split
              · trivial
              · exact placed_withLock (placed_initializeLocked _ _)
  | load io hasState => exact placed_load io hasState
  | reconcile io firmwareSet hasState hasDecision => exact placed_reconcile io firmwareSet _ _
  | writeAndPrepare io sequence hasSource validateFn hasState =>
      cases validateFn with
      | none => trivial
      | some validateFn =>
          simp only [Request.program, writeAndPrepare]
          split
          · trivial
          · next hchecked =>
            simp only [Bool.or_eq_true, Bool.not_eq_true', not_or, Bool.not_eq_false] at hchecked
            rw [writeAndPrepareLocked_eq]
            apply placed_withLock
            apply placed_transact
            intro current hloaded
            exact placed_writePrepare hchecked.1.1.2 (hreads _ rfl) hloaded
  | _ => exact htransacts _ rfl rfl

end Slots
