/-
# The slot state machine

What the nine operations are for, said without their callbacks: the durable
record is absent or holds a state, and each operation may move it along one
edge. `Transition` lists the edges, with the arguments and the read-backs that
justify them.

The rest of the module says how an operation may use its callbacks: a record
write is justified by a transition from the record read under the same lock, and
an erase or a write stays inside the slot under construction. These are the
promises that `Operations` proves of the engine.
-/

import EspContainer.Slots.Device

namespace Slots

open Binary Interaction Package

/-! ## Requests -/

/-- A public operation with its arguments, less the io table and the geometry. -/
inductive Request
  | initializeRecord (io : Bool) (firmwareSet : Option FirmwareSet)
      (bindings : Option (Fin bindingCount → Binding))
  | load (io hasState : Bool)
  | reconcile (io : Bool) (firmwareSet : Option FirmwareSet) (hasState hasDecision : Bool)
  | reserve (io : Bool) (expectedSequence : UInt32) (firmwareSet : Option FirmwareSet)
      (operation : Option Operation) (hasState : Bool)
  | writeAndPrepare (io : Bool) (expectedSequence : UInt32) (hasSource : Bool)
      (validateFn : Option ValidateFn) (hasState : Bool)
  | beginTrial (io : Bool) (expectedSequence : UInt32) (runningFirmwareSha256 : Option Sha256)
      (bootId : Option BootId) (hasState : Bool)
  | markHealthy (io : Bool) (expectedSequence : UInt32) (bootId : Option BootId)
      (hasState : Bool)
  | confirm (io : Bool) (expectedSequence : UInt32) (runningFirmwareSha256 : Option Sha256)
      (bootId : Option BootId) (hasState : Bool)
  | abandon (io : Bool) (expectedSequence : UInt32) (bootId : Option BootId)
      (hasTrialStopped hasState : Bool)

namespace Request

/-- The program of a request. -/
def program (sha256 : List UInt8 → Sha256) (geometry : Geometry) :
    Request → Program SlotsPort Reply
  | initializeRecord io firmwareSet bindings =>
      Slots.initializeRecord sha256 io geometry firmwareSet bindings
  | load io hasState => Slots.load io geometry hasState
  | reconcile io firmwareSet hasState hasDecision =>
      Slots.reconcile sha256 io geometry firmwareSet hasState hasDecision
  | reserve io expectedSequence firmwareSet operation hasState =>
      Slots.reserve sha256 io geometry expectedSequence firmwareSet operation hasState
  | writeAndPrepare io expectedSequence hasSource validateFn hasState =>
      Slots.writeAndPrepare sha256 io geometry expectedSequence hasSource validateFn hasState
  | beginTrial io expectedSequence runningFirmwareSha256 bootId hasState =>
      Slots.beginTrial sha256 io geometry expectedSequence runningFirmwareSha256 bootId hasState
  | markHealthy io expectedSequence bootId hasState =>
      Slots.markHealthy sha256 io geometry expectedSequence bootId hasState
  | confirm io expectedSequence runningFirmwareSha256 bootId hasState =>
      Slots.confirm sha256 io geometry expectedSequence runningFirmwareSha256 bootId hasState
  | abandon io expectedSequence bootId hasTrialStopped hasState =>
      Slots.abandon sha256 io geometry expectedSequence bootId hasTrialStopped hasState

/-- The operations that change the durable record: all but `load` and `reconcile`. -/
def changesRecord : Request → Bool
  | load _ _ | reconcile _ _ _ _ => false
  | _ => true

/-- The operations with a state output; `initialize` has none. -/
def storesState : Request → Bool
  | initializeRecord _ _ _ => false
  | _ => true

/-- The sequence number a request expects the record to have. -/
def expectedSequence : Request → Option UInt32
  | reserve _ expectedSequence _ _ _ => some expectedSequence
  | writeAndPrepare _ expectedSequence _ _ _ => some expectedSequence
  | beginTrial _ expectedSequence _ _ _ => some expectedSequence
  | markHealthy _ expectedSequence _ _ => some expectedSequence
  | confirm _ expectedSequence _ _ _ => some expectedSequence
  | abandon _ expectedSequence _ _ _ => some expectedSequence
  | _ => none

/-- The boot id a request is made under. -/
def bootId : Request → Option BootId
  | beginTrial _ _ _ bootId _ => bootId
  | markHealthy _ _ bootId _ => bootId
  | confirm _ _ _ bootId _ => bootId
  | abandon _ _ bootId _ _ => bootId
  | _ => none

end Request

/-! ## Transitions -/

/-- The candidate of an operation was read back in full and hashed equal, then
the validator was given exactly this operation and answered OK, and nothing but
reads happened since the read-back began. -/
def CandidateValidated (sha256 : List UInt8 → Sha256) (geometry : Geometry)
    (operation : Operation) (own : SlotsTrace) : Prop :=
  ∃ earlier readBack reads, own = earlier ++ readBack ++
      (⟨.validateEnter operation operation.packageSizeBytes.toNat, ()⟩ :: reads ++
        [⟨.validateReturn .ok, ()⟩]) ∧
    OperationHashed sha256 geometry operation readBack ∧ ReadsFlash reads

/-- The edges of the state machine. `own` is what the operation did between
reading the record and writing it. -/
inductive Transition (sha256 : List UInt8 → Sha256) (geometry : Geometry) :
    Request → Option State → SlotsTrace → State → Prop
  | /-- `initialize` creates the idle record. -/
    founded {io : Bool} {firmwareSet : FirmwareSet} {bindings : Fin bindingCount → Binding}
      {own : SlotsTrace}
      (hhashed : ReferencesHashed sha256 geometry (initialState bindings) own) :
      Transition sha256 geometry (.initializeRecord io (some firmwareSet) (some bindings))
        none own (initialState bindings)
  | /-- `reserve` gives a new operation a slot no binding references. -/
    reserved {io hasState : Bool} {expectedSequence : UInt32} {firmwareSet : FirmwareSet}
      {operation : Operation} {current : State} {own : SlotsTrace} {selected : Fin slotCount}
      (hphase : current.phase.pending = false)
      (hselected : selectSlot geometry current operation = some selected) :
      Transition sha256 geometry
        (.reserve io expectedSequence (some firmwareSet) (some operation) hasState)
        (some current) own
        { current with
          sequence := current.sequence + 1
          phase := .writing
          operation := { operation with slot := UInt8.ofNat selected } }
  | /-- `write_and_prepare` completes the candidate. -/
    prepared {io hasSource hasState : Bool} {expectedSequence : UInt32}
      {validateFn : Option ValidateFn} {current : State} {own : SlotsTrace}
      (hphase : current.phase = .writing)
      (hvalidated : CandidateValidated sha256 geometry current.operation own) :
      Transition sha256 geometry
        (.writeAndPrepare io expectedSequence hasSource validateFn hasState)
        (some current) own
        { current with sequence := current.sequence + 1, phase := .prepared }
  | /-- `begin_trial` starts the trial of the running firmware's candidate. -/
    trialStarted {io hasState : Bool} {expectedSequence : UInt32} {bootId : BootId}
      {current : State} {own : SlotsTrace} (hphase : current.phase = .prepared)
      (hboot : bootId ≠ Bytes.zero 16) :
      Transition sha256 geometry
        (.beginTrial io expectedSequence (some current.operation.targetFirmwareSha256)
          (some bootId) hasState)
        (some current) own
        { current with
          sequence := current.sequence + 1
          phase := .trialStarted
          operation := { current.operation with trialBootId := bootId } }
  | /-- `mark_healthy` accepts the trial in the boot that started it. -/
    healthVerified {io hasState : Bool} {expectedSequence : UInt32} {current : State}
      {own : SlotsTrace} (hphase : current.phase = .trialStarted) :
      Transition sha256 geometry
        (.markHealthy io expectedSequence (some current.operation.trialBootId) hasState)
        (some current) own
        { current with sequence := current.sequence + 1, phase := .healthVerified }
  | /-- `confirm` installs the candidate in the binding of the running firmware. -/
    confirmed {io hasState : Bool} {expectedSequence : UInt32} {current : State}
      {own : SlotsTrace} {index : Fin bindingCount}
      (hindex : bindingForFirmware current current.operation.targetFirmwareSha256 = some index)
      (hphase : current.phase = .healthVerified) :
      Transition sha256 geometry
        (.confirm io expectedSequence (some current.operation.targetFirmwareSha256)
          (some current.operation.trialBootId) hasState)
        (some current) own
        { current with
          sequence := current.sequence + 1
          bindings := Function.update current.bindings index
            ((current.bindings index).install current.operation)
          phase := .confirmed }
  | /-- `abandon` gives up a candidate before it is confirmed. -/
    abandoned {io hasState hasTrialStopped : Bool} {expectedSequence : UInt32}
      {bootId : Option BootId} {current : State} {own : SlotsTrace}
      (hphase : current.phase.pending = true) :
      Transition sha256 geometry
        (.abandon io expectedSequence bootId hasTrialStopped hasState)
        (some current) own
        { current with sequence := current.sequence + 1, phase := .aborted }

/-- What a request builds from the record it found, before the sequence number is
advanced, with the arguments and the checks on the record that led there. -/
inductive Plan (geometry : Geometry) : Request → State → State → Prop
  | reserved {io hasState : Bool} {expectedSequence : UInt32} {firmwareSet : FirmwareSet}
      {operation : Operation} {current : State} {selected : Fin slotCount}
      (hrequest : reserveRequestValid firmwareSet operation = true)
      (hset : firmwareSetMatches current firmwareSet = true)
      (hschema : schemaContinues current firmwareSet operation = true)
      (hfresh : repeatedRequest current operation = none)
      (hphase : current.phase.pending = false)
      (hselected : selectSlot geometry current operation = some selected) :
      Plan geometry
        (.reserve io expectedSequence (some firmwareSet) (some operation) hasState) current
        { current with
          phase := .writing
          operation := { operation with slot := UInt8.ofNat selected } }
  | prepared {io hasSource hasState : Bool} {expectedSequence : UInt32}
      {validateFn : Option ValidateFn} {current : State} (hphase : current.phase = .writing) :
      Plan geometry (.writeAndPrepare io expectedSequence hasSource validateFn hasState) current
        { current with phase := .prepared }
  | trialStarted {io hasState : Bool} {expectedSequence : UInt32} {bootId : BootId}
      {current : State} (hphase : current.phase = .prepared) (hboot : bootId ≠ Bytes.zero 16) :
      Plan geometry
        (.beginTrial io expectedSequence (some current.operation.targetFirmwareSha256)
          (some bootId) hasState) current
        { current with
          phase := .trialStarted
          operation := { current.operation with trialBootId := bootId } }
  | healthVerified {io hasState : Bool} {expectedSequence : UInt32} {current : State}
      (hphase : current.phase = .trialStarted) :
      Plan geometry
        (.markHealthy io expectedSequence (some current.operation.trialBootId) hasState) current
        { current with phase := .healthVerified }
  | confirmed {io hasState : Bool} {expectedSequence : UInt32} {current : State}
      {index : Fin bindingCount}
      (hindex : bindingForFirmware current current.operation.targetFirmwareSha256 = some index)
      (hphase : current.phase = .healthVerified) :
      Plan geometry
        (.confirm io expectedSequence (some current.operation.targetFirmwareSha256)
          (some current.operation.trialBootId) hasState) current
        { current with
          bindings := Function.update current.bindings index
            ((current.bindings index).install current.operation)
          phase := .confirmed }
  | abandoned {io hasState hasTrialStopped : Bool} {expectedSequence : UInt32}
      {bootId : Option BootId} {current : State} (hphase : current.phase.pending = true) :
      Plan geometry (.abandon io expectedSequence bootId hasTrialStopped hasState) current
        { current with phase := .aborted }

/-! ## Promises -/

/-- The state is what the stored record decodes to. -/
def Loaded (geometry : Geometry) (state : State) : Prop :=
  decodeState (encodeState state) geometry = some state

/-- What opens the locked part of an operation that read an absent record or this one. -/
def opening : Option State → SlotsTrace
  | none => [⟨.lock, true⟩, ⟨.readBlob, BlobAnswer.notFound⟩]
  | some current => [⟨.lock, true⟩, ⟨.readBlob, BlobAnswer.found (encodeState current)⟩]

/-- The record number that follows an absent record or this one. -/
def nextSequence : Option State → Nat
  | none => 1
  | some current => current.sequence.toNat + 1

section

variable (sha256 : List UInt8 → Sha256) (geometry : Geometry) (request : Request)

/-- After this trace a request may write `next`: the lock was taken, `current`
read with the expected sequence number, and a transition leads from one to the
other. -/
structure Committing (past : SlotsTrace) (current : Option State) (next : State) : Prop where
  opened : ∃ own, past = opening current ++ own ∧ Inner own ∧
    Transition sha256 geometry request current own next
  loaded : ∀ state, current = some state → Loaded geometry state
  valid : stateValid next geometry = true
  sequence : next.sequence.toNat = nextSequence current
  expected : ∀ state, current = some state → request.expectedSequence = some state.sequence
  planned : ∀ state, current = some state → ∃ plan, Plan geometry request state plan ∧
    next = { plan with sequence := state.sequence + 1 }

/-- An erase or write of this range, after this much of the locked part, stays in
the slot under construction, and came after both references were found intact. -/
structure SlotProtected (current : State) (own : SlotsTrace) (offset size : Nat) : Prop where
  writing : current.phase = .writing
  lower : (geometry.slot current.operation.slot).offsetBytes ≤ offset
  upper : offset + size ≤ (geometry.slot current.operation.slot).endBytes
  hashed : ∃ references rest, own = references ++ rest ∧
    ReferencesHashed sha256 geometry current references

/-- What the locked part of an operation may call between reading the record and
writing it. -/
def InnerPromise (current : State) (own : SlotsTrace) (call : SlotsCall) : Prop :=
  call.inner = true ∧ ∀ offset size, call.target = some (offset, size) →
    SlotProtected sha256 geometry current own offset size

/-- How an operation may use its callbacks. -/
structure CallPromise (past : SlotsTrace) (call : SlotsCall) : Prop where
  write : ∀ blob, call = .writeBlob blob →
    ∃ current next, Committing sha256 geometry request past current next ∧
      blob = encodeState next
  flash : ∀ offset size, call.target = some (offset, size) →
    ∃ current own, past = opening (some current) ++ own ∧ Inner own ∧
      Loaded geometry current ∧ SlotProtected sha256 geometry current own offset size

/-- The calls of a successful commit after the record write was asked for. -/
def commitEvents (next : State) : SlotsTrace :=
  [⟨.writeBlob (encodeState next), true⟩, ⟨.readBlob, BlobAnswer.found (encodeState next)⟩] ++
    (if request.storesState then [⟨.storeState next, ()⟩] else [])

/-- The calls of a record write that was seen not to have taken effect. -/
def refusedEvents (current next : State) (answer : Bool) : SlotsTrace :=
  [⟨.writeBlob (encodeState next), answer⟩, ⟨.readBlob, BlobAnswer.found (encodeState current)⟩]

/-- Neither the record nor the state output was written. -/
def NothingWritten (trace : SlotsTrace) : Prop :=
  ∀ event ∈ trace, (∀ blob, event.1 ≠ .writeBlob blob) ∧ ∀ state, event.1 ≠ .storeState state

/-- What the locked part of a record-changing operation has done when it succeeds. -/
def BodyOk (trace : SlotsTrace) : Prop :=
  ∃ past current next, Committing sha256 geometry request past current next ∧
    trace = past ++ commitEvents request next

/-- What the locked part of a record-changing operation has done when it fails. -/
def BodyError (trace : SlotsTrace) (code : SlotsError) : Prop :=
  code = .uncertain ∨ NothingWritten trace ∨
    ∃ past current next answer, Committing sha256 geometry request past (some current) next ∧
      trace = past ++ refusedEvents current next answer

/-- What a record-changing operation has done when it returns. -/
def ReplyPost (trace : SlotsTrace) : Reply → Prop
  | .ok () => ∃ body, trace = body ++ [⟨.unlock, ()⟩] ∧ BodyOk sha256 geometry request body
  | .error code => code = .uncertain ∨ NothingWritten trace ∨
      ∃ body, trace = body ++ [⟨.unlock, ()⟩] ∧ BodyError sha256 geometry request body code

end

theorem Inner.nothingWritten {trace : SlotsTrace} (hinner : Inner trace) :
    NothingWritten trace := by
  intro event hevent
  refine ⟨hinner.not_writeBlob event hevent, fun state hcall => ?_⟩
  have hcontra := hinner event hevent
  rw [hcall] at hcontra
  cases hcontra

theorem NothingWritten.append {first second : SlotsTrace} (hfirst : NothingWritten first)
    (hsecond : NothingWritten second) : NothingWritten (first ++ second) :=
  fun event hevent => (List.mem_append.mp hevent).elim (hfirst event) (hsecond event)

theorem nothingWritten_opening (current : Option State) : NothingWritten (opening current) := by
  cases current <;> simp [NothingWritten, opening]

/-- A state that was loaded is valid. -/
theorem Loaded.valid {geometry : Geometry} {state : State} (hloaded : Loaded geometry state) :
    stateValid state geometry = true :=
  stateValid_of_decodeState hloaded

/-- What a transition wrote can be loaded again. -/
theorem Committing.loaded_next {sha256 : List UInt8 → Sha256} {geometry : Geometry}
    {request : Request} {past : SlotsTrace} {current : Option State} {next : State}
    (hcommitting : Committing sha256 geometry request past current next) :
    Loaded geometry next :=
  decodeState_encodeState hcommitting.valid

/-! ## A small installation -/

/-- Three slots of one erase unit each. -/
def sampleGeometry : Geometry where
  partitionOffsetBytes := 0
  partitionSizeBytes := 768
  eraseUnitBytes := 256
  writeUnitBytes := 4
  slots index := ⟨256 * index, 256⟩

/-- A digest that is not zero, and what the sample hash function always returns. -/
def sampleDigest : Sha256 := ⟨List.replicate 32 1, rfl⟩

/-- A boot id, and the id of the sample operation. -/
def sampleId : Bytes 16 := ⟨List.replicate 16 1, rfl⟩

/-- One firmware, which is running. -/
def sampleFirmwareSet : FirmwareSet :=
  ⟨1, fun index => if index = 0 then sampleDigest else .zero 32, sampleDigest⟩

/-- That firmware without a package. -/
def sampleBindings (index : Fin bindingCount) : Binding :=
  if index = 0 then { Binding.empty with present := true, firmwareSha256 := sampleDigest }
  else .empty

/-- A package of four bytes for that firmware. -/
def sampleOperation : Operation :=
  ⟨sampleId, sampleDigest, sampleDigest, 0, 4, 1, 1, .zero 16⟩

/-- The record while that package is being written. -/
def sampleWriting : State := ⟨2, sampleBindings, .writing, sampleOperation⟩

/-- A working device with this record and erased flash. -/
def sampleDevice (record : Option State) : Device :=
  ((record.map encodeState, fun _ => 0xff), ⟨State.zero, .bootBlocked⟩)

/-- What a request does on such a device. -/
def sampleRun (request : Request) (record : Option State) : SlotsTrace × Reply × Device :=
  (request.program (fun _ => sampleDigest) sampleGeometry).execute workingDevice
    (sampleDevice record)

theorem exec_sampleRun (request : Request) (record : Option State) :
    Exec deviceWorld (request.program (fun _ => sampleDigest) sampleGeometry)
      (sampleDevice record) (sampleRun request record).1 (.ret (sampleRun request record).2.1)
      (sampleRun request record).2.2 :=
  .of_device workingDevice_step _ _

/-- The request that founds the sample record. -/
def sampleFounding : Request :=
  .initializeRecord true (some sampleFirmwareSet) (some sampleBindings)

/-- The request that writes the sample package. -/
def samplePreparing : Request := .writeAndPrepare true 2 true (some fun _ _ => .ret .ok) true

theorem reply_sampleFounding : (sampleRun sampleFounding none).2.1 = .ok () := by
  decide +kernel

end Slots
