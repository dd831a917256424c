/-
# The slot engine

The nine public operations of `slots.c` as programs over the callbacks they are
given. A result of `.ok ()` is the code's `ECONTAINER_SLOTS_OK` and `.error code`
is any other code. What an operation writes through the output pointers of its
caller is a call too (`storeState`, `storeDecision`), so that an output left
alone is a call never made.

Pointer arguments that may be null are options, or a flag where the operation
only writes through them, and `io` says whether `io_valid` holds of the callback
table. A validator is a program over the bounded read callback; its calls are
served by `flash_relative_read`, and the two events around them mark entry to
and return from `validate_fn`.
-/

import EspContainer.Slots.Codec

namespace Slots

open Binary Interaction Package

/-- The outcome of `read_blob`. -/
inductive BlobAnswer
  | found (blob : Blob)
  | notFound
  | readFailed
  deriving DecidableEq

/-- `econtainer_slot_validation_result_t`. -/
inductive ValidationResult
  | ok
  | untrusted
  | ioFailed
  deriving DecidableEq, Repr

/-- `econtainer_slot_boot_decision_t`. -/
inductive BootDecision
  | bootBlocked
  | bootConfirmed
  | recoverConfirmed
  | recoverConfirmedCandidateInvalid
  deriving DecidableEq, Repr

/-- The callbacks of the engine: the io table, the source and validator of a
candidate, the executor's stop proof, the digest primitives, and the writes to
the caller's outputs. -/
inductive SlotsCall
  | lock
  | unlock
  | readBlob
  | writeBlob (blob : Blob)
  | flashRead (offset size : Nat)
  | flashErase (offset size : Nat)
  | flashWrite (offset : Nat) (bytes : List UInt8)
  | source (offset size : Nat)
  | validateEnter (operation : Operation) (packageSizeBytes : Nat)
  | validateReturn (result : ValidationResult)
  | trialStopped (operationId : OperationId)
  | digest (step : DigestCall)
  | storeState (state : State)
  | storeDecision (decision : BootDecision)

/-- The interface of the engine. -/
@[reducible]
def SlotsPort : Interface where
  Call := SlotsCall
  Answer
    | .lock => Bool
    | .unlock => Unit
    | .readBlob => BlobAnswer
    | .writeBlob _ => Bool
    | .flashRead _ size => ReadAnswer size
    | .flashErase _ _ => Bool
    | .flashWrite _ _ => Bool
    | .source _ size => ReadAnswer size
    | .validateEnter _ _ => Unit
    | .validateReturn _ => Unit
    | .trialStopped _ => Bool
    | .digest _ => Bool
    | .storeState _ => Unit
    | .storeDecision _ => Unit

/-- What a public operation returns. -/
abbrev Reply : Type := Except SlotsError Unit

/-- The part of an operation between `lock` and `unlock`. -/
abbrev Locked (α : Type) : Type := Fallible SlotsPort SlotsError α

/-- A validator: what `validate_fn` does with an operation, a package size and
the read callback. -/
abbrev ValidateFn : Type := Operation → Nat → Program ReadPort ValidationResult

/-- A call inside the locked part. -/
def ask (request : SlotsCall) : Locked (SlotsPort.Answer request) :=
  Fallible.attempt (Program.call (I := SlotsPort) request)

open Fallible (attempt require chunked)

/-! ## Records -/

/-- `load_locked`. -/
def loadLocked (geometry : Geometry) : Locked State := do
  match ← ask .readBlob with
  | .notFound => throw .empty
  | .readFailed => throw .ioFailed
  | .found blob =>
      match decodeState blob geometry with
      | some state => pure state
      | none => throw .invalid

/-- `persist_locked`; only the first record has no `before` and no state output. -/
def persistLocked (before : Option State) (after : State) (hasState : Bool) : Locked Unit := do
  let committed ← ask (.writeBlob (encodeState after))
  match ← ask .readBlob with
  | .found observed =>
      if observed = encodeState after then
        require committed .uncertain
        if hasState then ask (.storeState after) else pure ()
      else if before.map encodeState = some observed then
        throw .ioFailed
      else
        throw .uncertain
  | _ => throw .uncertain

/-- `commit_next`. -/
def commitNext (geometry : Geometry) (before next : State) : Locked Unit := do
  require (before.sequence != UInt32.ofNat uint32Max) .invalid
  let next := { next with sequence := before.sequence + 1 }
  require (stateValid next geometry) .invalid
  persistLocked (some before) next true

/-- `begin_locked`. -/
def beginLocked (geometry : Geometry) (expectedSequence : UInt32) : Locked State := do
  let current ← loadLocked geometry
  require (current.sequence == expectedSequence) .conflict
  pure current

/-! ## Flash -/

/-- `slot_reader_t`, less the io table. -/
structure SlotReader where
  offsetBytes : Nat
  sizeBytes : Nat

/-- `flash_relative_read`. The last check keeps the 32-bit sum from wrapping. -/
def flashRelativeRead (reader : SlotReader) (relativeOffsetBytes sizeBytes : Nat) :
    Program SlotsPort (ReadAnswer sizeBytes) :=
  if relativeOffsetBytes > reader.sizeBytes ||
      sizeBytes > reader.sizeBytes - relativeOffsetBytes ||
      relativeOffsetBytes > uint32Max - reader.offsetBytes then
    pure (.failed none)
  else
    Program.call (I := SlotsPort)
      (.flashRead (reader.offsetBytes + relativeOffsetBytes) sizeBytes)

section

variable (sha256 : List UInt8 → Sha256)

/-- The body of the read loop of `hash_flash`; `fed` is what the digest has been
given so far. -/
def hashChunk (reader : SlotReader) (offset count : Nat) (fed : List UInt8) :
    Locked (List UInt8) := do
  match ← attempt (flashRelativeRead reader offset count) with
  | .failed _ => throw .ioFailed
  | .ok buffer =>
      let updated ← ask (.digest (.update buffer.toList))
      require updated .ioFailed
      pure (fed ++ buffer.toList)

/-- `hash_flash`. -/
def hashFlash (geometry : Geometry) (slot : UInt8) (sizeBytes : UInt32)
    (expectedSha256 : Sha256) : Locked Unit := do
  require (slot.toNat < slotCount && sizeBytes != 0 &&
    sizeBytes.toNat ≤ (geometry.slot slot).sizeBytes) .invalid
  let started ← ask (.digest .start)
  require started .ioFailed
  let reader : SlotReader := ⟨(geometry.slot slot).offsetBytes, sizeBytes.toNat⟩
  let fed ← chunked slotIoBytes sizeBytes.toNat (hashChunk reader) []
  let finished ← ask (.digest .finish)
  require finished .ioFailed
  require (sha256 fed == expectedSha256) .untrusted

/-- The body of the binding loop of `check_references`. -/
def checkBinding (geometry : Geometry) (binding : Binding) : Locked Unit :=
  if binding.packagePresent then
    hashFlash sha256 geometry binding.slot binding.packageSizeBytes binding.packageSha256
  else
    pure ()

/-- The candidate part of `check_references`, also made by `reconcile`. -/
def checkCandidate (geometry : Geometry) (state : State) : Locked Unit :=
  if state.phase.complete then
    hashFlash sha256 geometry state.operation.slot state.operation.packageSizeBytes
      state.operation.packageSha256
  else
    pure ()

/-- `check_references`. -/
def checkReferences (geometry : Geometry) (state : State) (candidate : Bool) :
    Locked Unit := do
  checkBinding sha256 geometry (state.bindings 0)
  checkBinding sha256 geometry (state.bindings 1)
  if candidate then checkCandidate sha256 geometry state else pure ()

/-! ## Candidates -/

/-- `(actual + write_unit - 1) / write_unit * write_unit`. -/
def alignedBytes (geometry : Geometry) (actual : Nat) : Nat :=
  (actual + geometry.writeUnitBytes - 1) / geometry.writeUnitBytes * geometry.writeUnitBytes

/-- The body of the write loop of `write_and_prepare`: fetch a chunk of the
source and program it, padded with `0xff` to whole write units. -/
def programChunk (geometry : Geometry) (slot : Region) (offset actual : Nat) (_ : Unit) :
    Locked Unit := do
  match ← ask (.source offset actual) with
  | .failed _ => throw .ioFailed
  | .ok buffer =>
      let padding := List.replicate (alignedBytes geometry actual - actual) 0xff
      let written ← ask (.flashWrite ((slot.offsetBytes + offset) % 4294967296)
        (buffer.toList ++ padding))
      require written .ioFailed

/-- The erase and write part of `write_and_prepare`. -/
def programCandidate (geometry : Geometry) (operation : Operation) : Locked Unit := do
  let slot := geometry.slot operation.slot
  let erased ← ask (.flashErase slot.offsetBytes slot.sizeBytes)
  require erased .ioFailed
  chunked slotIoBytes operation.packageSizeBytes.toNat (programChunk geometry slot) ()

/-- Serve a validator's calls: reads go through `flash_relative_read`. -/
def serveValidator (reader : SlotReader) :
    (request : ReadCall) → Program SlotsPort (ReadPort.Answer request)
  | .read offset size => flashRelativeRead reader offset size
  | .digest step => Program.call (I := SlotsPort) (.digest step)

/-- The call of `validate_fn` in `write_and_prepare`. -/
def validateCandidate (geometry : Geometry) (validateFn : ValidateFn) (operation : Operation) :
    Locked ValidationResult := do
  let size := operation.packageSizeBytes.toNat
  let reader : SlotReader := ⟨(geometry.slot operation.slot).offsetBytes, size⟩
  ask (.validateEnter operation size)
  let result ← attempt ((validateFn operation size).translate (serveValidator reader))
  ask (.validateReturn result)
  pure result

/-! ## Operations -/

/-- Run a locked part between `lock` and `unlock`. -/
def withLock (body : Locked Unit) : Program SlotsPort Reply := do
  let locked ← Program.call (I := SlotsPort) .lock
  if locked then
    let result ← body.run
    Program.call (I := SlotsPort) .unlock
    pure result
  else
    pure (.error .busy)

/-- The first record, before its checks: `{0}` with sequence 1 and the bindings. -/
def initialState (bindings : Fin bindingCount → Binding) : State :=
  { State.zero with sequence := 1, bindings := bindings }

/-- The locked part of `econtainer_slots_initialize`. -/
def initializeLocked (geometry : Geometry) (firmwareSet : FirmwareSet)
    (bindings : Fin bindingCount → Binding) : Locked Unit := do
  match ← attempt (loadLocked geometry).run with
  | .ok _ => throw .conflict
  | .error .empty =>
      let initial := initialState bindings
      require (stateValid initial geometry && firmwareSetMatches initial firmwareSet) .invalid
      checkReferences sha256 geometry initial false
      persistLocked none initial false
  | .error code => throw code

/-- `econtainer_slots_initialize`. -/
def initializeRecord (io : Bool) (geometry : Geometry) (firmwareSet : Option FirmwareSet)
    (bindings : Option (Fin bindingCount → Binding)) : Program SlotsPort Reply :=
  match firmwareSet, bindings with
  | some firmwareSet, some bindings =>
      if !io || !geometryValid geometry || !firmwareSetValid firmwareSet then
        pure (.error .invalid)
      else
        withLock (initializeLocked sha256 geometry firmwareSet bindings)
  | _, _ => pure (.error .invalid)

/-- `econtainer_slots_load`. The state output is written outside the lock too. -/
def load (io : Bool) (geometry : Geometry) (hasState : Bool) : Program SlotsPort Reply :=
  if !io || !geometryValid geometry || !hasState then
    pure (.error .invalid)
  else do
    Program.call (I := SlotsPort) (.storeState State.zero)
    let locked ← Program.call (I := SlotsPort) .lock
    if locked then
      match ← (loadLocked geometry).run with
      | .ok state =>
          Program.call (I := SlotsPort) (.storeState state)
          Program.call (I := SlotsPort) .unlock
          pure (.ok ())
      | .error code =>
          Program.call (I := SlotsPort) .unlock
          Program.call (I := SlotsPort) (.storeState State.zero)
          pure (.error code)
    else
      pure (.error .busy)

/-- The part of `reconcile` that clears the state output when it fails. -/
def reconcileReferences (geometry : Geometry) (firmwareSet : FirmwareSet) : Locked State := do
  let state ← loadLocked geometry
  ask (.storeState state)
  require (firmwareSetMatches state firmwareSet) .conflict
  checkReferences sha256 geometry state false
  pure state

/-- The decision of `reconcile` once the references were found intact. -/
def decideBoot (geometry : Geometry) (state : State) : Locked Unit := do
  match ← attempt (checkCandidate sha256 geometry state).run with
  | .error code =>
      ask (.storeDecision .recoverConfirmedCandidateInvalid)
      throw code
  | .ok () =>
      ask (.storeDecision (if state.phase.pending then .recoverConfirmed else .bootConfirmed))

/-- The locked part of `econtainer_slots_reconcile`. -/
def reconcileLocked (geometry : Geometry) (firmwareSet : FirmwareSet) : Locked Unit := do
  match ← attempt (reconcileReferences sha256 geometry firmwareSet).run with
  | .error code =>
      ask (.storeState State.zero)
      throw code
  | .ok state => decideBoot sha256 geometry state

/-- `*decision = BOOT_BLOCKED` on a non-null pointer. -/
def clearDecision (hasDecision : Bool) : Program SlotsPort Unit :=
  if hasDecision then Program.call (I := SlotsPort) (.storeDecision .bootBlocked) else pure ()

/-- `memset(state, 0, sizeof(*state))` on a non-null pointer. -/
def clearState (hasState : Bool) : Program SlotsPort Unit :=
  if hasState then Program.call (I := SlotsPort) (.storeState State.zero) else pure ()

/-- `econtainer_slots_reconcile`. The outputs are cleared before any check. -/
def reconcile (io : Bool) (geometry : Geometry) (firmwareSet : Option FirmwareSet)
    (hasState hasDecision : Bool) : Program SlotsPort Reply := do
  clearDecision hasDecision
  clearState hasState
  match firmwareSet with
  | some firmwareSet =>
      if !io || !geometryValid geometry || !firmwareSetValid firmwareSet || !hasState ||
          !hasDecision then
        pure (.error .invalid)
      else
        withLock (reconcileLocked sha256 geometry firmwareSet)
  | none => pure (.error .invalid)

/-- The argument checks of `econtainer_slots_reserve` on its operation. -/
def reserveRequestValid (firmwareSet : FirmwareSet) (operation : Operation) : Bool :=
  !(allZero operation.operationId || allZero operation.packageSha256 ||
    operation.targetFirmwareSha256 != firmwareSet.runningFirmwareSha256 ||
    operation.slot != 0 || operation.packageSizeBytes == 0 ||
    operation.guestAbiVersion == 0 || operation.dataSchemaVersion == 0 ||
    !allZero operation.trialBootId)

/-- The running firmware has a binding, and if that has a package, the schema stays. -/
def schemaContinues (current : State) (firmwareSet : FirmwareSet) (operation : Operation) :
    Bool :=
  match bindingForFirmware current firmwareSet.runningFirmwareSha256 with
  | none => false
  | some index =>
      !((current.bindings index).packagePresent &&
        (current.bindings index).dataSchemaVersion != operation.dataSchemaVersion)

/-- The refusal of an operation id that the record already carries: a repeat is
busy, a different request under the same id is a conflict. -/
def repeatedRequest (current : State) (operation : Operation) : Option SlotsError :=
  if current.phase ≠ .idle ∧ current.operation.operationId = operation.operationId then
    if current.operation.targetFirmwareSha256 = operation.targetFirmwareSha256 ∧
        current.operation.packageSha256 = operation.packageSha256 ∧
        current.operation.packageSizeBytes = operation.packageSizeBytes ∧
        current.operation.guestAbiVersion = operation.guestAbiVersion ∧
        current.operation.dataSchemaVersion = operation.dataSchemaVersion then
      some .busy
    else
      some .conflict
  else
    none

/-- The first slot that no binding references and that is large enough. -/
def selectSlot (geometry : Geometry) (current : State) (operation : Operation) :
    Option (Fin slotCount) :=
  (List.finRange slotCount).find? fun index =>
    !decide (∃ binding, (current.bindings binding).packagePresent ∧
      (current.bindings binding).slot.toNat = index.val) &&
    operation.packageSizeBytes.toNat ≤ (geometry.slots index).sizeBytes

/-- The locked part of `econtainer_slots_reserve`. -/
def reserveLocked (geometry : Geometry) (expectedSequence : UInt32) (firmwareSet : FirmwareSet)
    (operation : Operation) : Locked Unit := do
  let current ← beginLocked geometry expectedSequence
  require (firmwareSetMatches current firmwareSet) .conflict
  require (schemaContinues current firmwareSet operation) .conflict
  checkReferences sha256 geometry current true
  match repeatedRequest current operation with
  | some code => throw code
  | none =>
      require (!current.phase.pending) .busy
      match selectSlot geometry current operation with
      | none => throw .noSpace
      | some selected =>
          commitNext geometry current
            { current with
              phase := .writing
              operation := { operation with slot := UInt8.ofNat selected } }

/-- `econtainer_slots_reserve`. -/
def reserve (io : Bool) (geometry : Geometry) (expectedSequence : UInt32)
    (firmwareSet : Option FirmwareSet) (operation : Option Operation) (hasState : Bool) :
    Program SlotsPort Reply :=
  match firmwareSet, operation with
  | some firmwareSet, some operation =>
      if !io || !geometryValid geometry || !firmwareSetValid firmwareSet || !hasState ||
          !reserveRequestValid firmwareSet operation then
        pure (.error .invalid)
      else
        withLock (reserveLocked sha256 geometry expectedSequence firmwareSet operation)
  | _, _ => pure (.error .invalid)

/-- The locked part of `econtainer_slots_write_and_prepare`. -/
def writeAndPrepareLocked (geometry : Geometry) (expectedSequence : UInt32)
    (validateFn : ValidateFn) : Locked Unit := do
  let current ← beginLocked geometry expectedSequence
  require (current.phase == .writing) .conflict
  checkReferences sha256 geometry current false
  programCandidate geometry current.operation
  hashFlash sha256 geometry current.operation.slot current.operation.packageSizeBytes
    current.operation.packageSha256
  match ← validateCandidate geometry validateFn current.operation with
  | .ioFailed => throw .ioFailed
  | .untrusted => throw .untrusted
  | .ok => commitNext geometry current { current with phase := .prepared }

/-- `econtainer_slots_write_and_prepare`. -/
def writeAndPrepare (io : Bool) (geometry : Geometry) (expectedSequence : UInt32)
    (hasSource : Bool) (validateFn : Option ValidateFn) (hasState : Bool) :
    Program SlotsPort Reply :=
  match validateFn with
  | some validateFn =>
      if !io || !geometryValid geometry || !hasSource || !hasState then
        pure (.error .invalid)
      else
        withLock (writeAndPrepareLocked sha256 geometry expectedSequence validateFn)
  | none => pure (.error .invalid)

/-- The locked part of `econtainer_slots_begin_trial`. -/
def beginTrialLocked (geometry : Geometry) (expectedSequence : UInt32)
    (runningFirmwareSha256 : Sha256) (bootId : BootId) : Locked Unit := do
  let current ← beginLocked geometry expectedSequence
  require (current.phase == .prepared &&
    current.operation.targetFirmwareSha256 == runningFirmwareSha256) .conflict
  checkReferences sha256 geometry current true
  commitNext geometry current
    { current with
      phase := .trialStarted
      operation := { current.operation with trialBootId := bootId } }

/-- `econtainer_slots_begin_trial`. -/
def beginTrial (io : Bool) (geometry : Geometry) (expectedSequence : UInt32)
    (runningFirmwareSha256 : Option Sha256) (bootId : Option BootId) (hasState : Bool) :
    Program SlotsPort Reply :=
  match runningFirmwareSha256, bootId with
  | some runningFirmwareSha256, some bootId =>
      if !io || !geometryValid geometry || !hasState || allZero bootId then
        pure (.error .invalid)
      else
        withLock (beginTrialLocked sha256 geometry expectedSequence runningFirmwareSha256 bootId)
  | _, _ => pure (.error .invalid)

/-- The locked part of `econtainer_slots_mark_healthy`. -/
def markHealthyLocked (geometry : Geometry) (expectedSequence : UInt32) (bootId : BootId) :
    Locked Unit := do
  let current ← beginLocked geometry expectedSequence
  require (current.phase == .trialStarted && current.operation.trialBootId == bootId) .conflict
  checkReferences sha256 geometry current true
  commitNext geometry current { current with phase := .healthVerified }

/-- `econtainer_slots_mark_healthy`. -/
def markHealthy (io : Bool) (geometry : Geometry) (expectedSequence : UInt32)
    (bootId : Option BootId) (hasState : Bool) : Program SlotsPort Reply :=
  match bootId with
  | some bootId =>
      if !io || !geometryValid geometry || !hasState then
        pure (.error .invalid)
      else
        withLock (markHealthyLocked sha256 geometry expectedSequence bootId)
  | none => pure (.error .invalid)

/-- What `confirm` writes into the binding of the running firmware. -/
def Binding.install (binding : Binding) (operation : Operation) : Binding :=
  { binding with
    packagePresent := true
    slot := operation.slot
    packageSizeBytes := operation.packageSizeBytes
    packageSha256 := operation.packageSha256
    guestAbiVersion := operation.guestAbiVersion
    dataSchemaVersion := operation.dataSchemaVersion }

/-- The locked part of `econtainer_slots_confirm`. -/
def confirmLocked (geometry : Geometry) (expectedSequence : UInt32)
    (runningFirmwareSha256 : Sha256) (bootId : BootId) : Locked Unit := do
  let current ← beginLocked geometry expectedSequence
  match bindingForFirmware current runningFirmwareSha256 with
  | none => throw .conflict
  | some index =>
      require (current.phase == .healthVerified &&
        current.operation.targetFirmwareSha256 == runningFirmwareSha256 &&
        current.operation.trialBootId == bootId) .conflict
      checkReferences sha256 geometry current true
      commitNext geometry current
        { current with
          bindings := Function.update current.bindings index
            ((current.bindings index).install current.operation)
          phase := .confirmed }

/-- `econtainer_slots_confirm`. -/
def confirm (io : Bool) (geometry : Geometry) (expectedSequence : UInt32)
    (runningFirmwareSha256 : Option Sha256) (bootId : Option BootId) (hasState : Bool) :
    Program SlotsPort Reply :=
  match runningFirmwareSha256, bootId with
  | some runningFirmwareSha256, some bootId =>
      if !io || !geometryValid geometry || !hasState then
        pure (.error .invalid)
      else
        withLock (confirmLocked sha256 geometry expectedSequence runningFirmwareSha256 bootId)
  | _, _ => pure (.error .invalid)

/-- A trial of the same boot may only be abandoned with a stop proof. -/
def requireStopped (current : State) (bootId : BootId) (hasTrialStopped : Bool) :
    Locked Unit :=
  if Phase.trialStarted.code ≤ current.phase.code ∧ current.operation.trialBootId = bootId then do
    require hasTrialStopped .busy
    let stopped ← ask (.trialStopped current.operation.operationId)
    require stopped .busy
  else
    pure ()

/-- The locked part of `econtainer_slots_abandon`. -/
def abandonLocked (geometry : Geometry) (expectedSequence : UInt32) (bootId : BootId)
    (hasTrialStopped : Bool) : Locked Unit := do
  let current ← beginLocked geometry expectedSequence
  require current.phase.pending .conflict
  requireStopped current bootId hasTrialStopped
  checkReferences sha256 geometry current false
  commitNext geometry current { current with phase := .aborted }

/-- `econtainer_slots_abandon`. -/
def abandon (io : Bool) (geometry : Geometry) (expectedSequence : UInt32)
    (bootId : Option BootId) (hasTrialStopped hasState : Bool) :
    Program SlotsPort Reply :=
  match bootId with
  | some bootId =>
      if !io || !geometryValid geometry || !hasState then
        pure (.error .invalid)
      else
        withLock (abandonLocked sha256 geometry expectedSequence bootId hasTrialStopped)
  | none => pure (.error .invalid)

end

end Slots
