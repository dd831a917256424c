/-
# The nine operations keep their promises

Each record-changing operation is a transaction whose middle part is named here
and specified once; `safe_transact` does the rest. Only `write_and_prepare`
touches flash, so only its middle part needs the slot geometry. `load` and
`reconcile` write neither record nor flash.

The results are `safe_program`, which covers every request, and `post_program`
for the requests that change the record.
-/

import EspContainer.Slots.Geometry
import EspContainer.Slots.Steps

namespace Slots

open Binary Interaction Package
open Fallible (attempt require chunked)

variable {sha256 : List UInt8 → Sha256} {geometry : Geometry} {request : Request}

/-! ## What validity of a record gives -/

/-- What `operation_valid` guarantees of a record with an operation. -/
structure OperationSound (geometry : Geometry) (state : State) : Prop where
  slot_lt : state.operation.slot.toNat < slotCount
  fits : state.operation.packageSizeBytes.toNat ≤ (geometry.slot state.operation.slot).sizeBytes
  size_ne : state.operation.packageSizeBytes ≠ 0
  unreferenced : state.phase.pending = true → ∀ index,
    (state.bindings index).packagePresent = true →
      (state.bindings index).slot ≠ state.operation.slot
  untried : state.phase = .writing ∨ state.phase = .prepared →
    state.operation.trialBootId = Bytes.zero 16

/-- A valid record with an operation is sound. -/
theorem operationSound_of_stateValid {state : State} (hvalid : stateValid state geometry = true)
    (hphase : state.phase ≠ .idle) : OperationSound geometry state := by
  have hoperation : operationValid state geometry = true := by
    unfold stateValid at hvalid
    grind
  simp only [operationValid, if_neg hphase, Bool.if_false_left, Bool.and_eq_true,
    Bool.not_eq_true', decide_eq_false_iff_not, decide_eq_true_eq, Bool.or_eq_true, not_or, not_exists, not_and] at hoperation
  obtain ⟨hfields, hfree, -, huntried⟩ := hoperation
  obtain ⟨⟨⟨⟨⟨-, hslot⟩, hsize⟩, hfits⟩, -⟩, -⟩ := hfields
  refine ⟨by simpa using hslot, by simpa using hfits, by simpa using hsize,
    fun hpending index => hfree index hpending, fun hpending => ?_⟩
  rw [if_pos hpending] at huntried
  exact (allZero_iff _).mp huntried

theorem innerPromise_of_readsFlash {current : State} {own : SlotsTrace} {call : SlotsCall}
    (hreads : call.readsFlash = true) : InnerPromise sha256 geometry current own call :=
  ⟨SlotsCall.inner_of_readsFlash hreads, by simp [hreads]⟩

/-- A plan that needs nothing from its trace but the reference check. -/
theorem safe_planned {current planned : State} {candidate : Bool}
    (htransition : ∀ own, Transition sha256 geometry request (some current) own
      { planned with sequence := current.sequence + 1 })
    (hplan : Plan geometry request current planned) (past : SlotsTrace) :
    Fallible.Safe (World.history SlotsPort) (InnerPromise sha256 geometry current)
      (fun _ code => code ≠ .uncertain)
      (fun own planned => Transition sha256 geometry request (some current) own
          { planned with sequence := current.sequence + 1 } ∧
        Plan geometry request current planned)
      (do
        checkReferences sha256 geometry current candidate
        pure planned) past := by
  rw [Fallible.safe_bind]
  refine ((safe_checkReferences current candidate).shift past).mono ?_ ?_ ?_
  · rintro _ _ ⟨_, _, hreads⟩
    exact innerPromise_of_readsFlash hreads
  · rintro _ _ ⟨_, _, hcode⟩
    exact hcode
  · exact fun _ _ _ => ⟨htransition _, hplan⟩

/-- A guard before a preparation. -/
theorem prepares_require {current : State} {check : Bool} {code : SlotsError}
    {next : Locked State} (hcode : code ≠ .uncertain)
    (hnext : check = true → Prepares sha256 geometry request current next) :
    Prepares sha256 geometry request current (do
      require check code
      next) := by
  rw [Prepares, Fallible.safe_bind, Fallible.safe_require]
  exact ⟨hnext, fun _ => hcode⟩

/-! ## Reserve -/

/-- The middle part of `econtainer_slots_reserve`. -/
def reservePrepare (sha256 : List UInt8 → Sha256) (geometry : Geometry)
    (firmwareSet : FirmwareSet) (operation : Operation) (current : State) : Locked State := do
  require (firmwareSetMatches current firmwareSet) .conflict
  require (schemaContinues current firmwareSet operation) .conflict
  checkReferences sha256 geometry current true
  match repeatedRequest current operation with
  | some code => throw code
  | none =>
      require (!current.phase.pending) .busy
      match selectSlot geometry current operation with
      | none => throw .noSpace
      | some selected =>
          pure { current with
            phase := .writing
            operation := { operation with slot := UInt8.ofNat selected } }

theorem reserveLocked_eq (expectedSequence : UInt32) (firmwareSet : FirmwareSet)
    (operation : Operation) :
    reserveLocked sha256 geometry expectedSequence firmwareSet operation =
      transact geometry expectedSequence (reservePrepare sha256 geometry firmwareSet operation) := by
  simp only [reserveLocked, transact, reservePrepare, bind_assoc]
  refine bind_congr fun current => bind_congr fun _ => bind_congr fun _ => bind_congr fun _ => ?_
  cases repeatedRequest current operation with
  | some code => rfl
  | none =>
      simp only [bind_assoc]
      refine bind_congr fun _ => ?_
      cases selectSlot geometry current operation <;> rfl

theorem repeatedRequest_ne_uncertain {current : State} {operation : Operation}
    {code : SlotsError} (hrepeated : repeatedRequest current operation = some code) :
    code ≠ .uncertain := by
  unfold repeatedRequest at hrepeated
  grind

theorem prepares_reserve {io hasState : Bool} {expectedSequence : UInt32}
    (firmwareSet : FirmwareSet) (operation : Operation)
    (hrequest : reserveRequestValid firmwareSet operation = true) (current : State) :
    Prepares sha256 geometry
      (.reserve io expectedSequence (some firmwareSet) (some operation) hasState) current
      (reservePrepare sha256 geometry firmwareSet operation current) := by
  refine prepares_require (by decide) fun hset => prepares_require (by decide) fun hschema => ?_
  rw [Prepares, Fallible.safe_bind]
  refine (safe_checkReferences current true).mono
    (fun _ _ hreads => innerPromise_of_readsFlash hreads) (fun _ _ hcode => hcode) ?_
  intro own _ _
  cases hrepeated : repeatedRequest current operation with
  | some code => exact repeatedRequest_ne_uncertain hrepeated
  | none =>
      simp only [Fallible.safe_bind, Fallible.safe_require, Bool.not_eq_true',
        Bool.not_eq_false']
      refine ⟨fun hphase => ?_, fun _ => by decide⟩
      cases hselected : selectSlot geometry current operation with
      | none => simp
      | some selected =>
          exact ⟨.reserved hphase hselected,
            .reserved hrequest hset hschema hrepeated hphase hselected⟩

/-! ## Trials -/

/-- The middle part of `econtainer_slots_begin_trial`. -/
def beginTrialPrepare (sha256 : List UInt8 → Sha256) (geometry : Geometry)
    (runningFirmwareSha256 : Sha256) (bootId : BootId) (current : State) : Locked State := do
  require (current.phase == .prepared &&
    current.operation.targetFirmwareSha256 == runningFirmwareSha256) .conflict
  checkReferences sha256 geometry current true
  pure { current with
    phase := .trialStarted
    operation := { current.operation with trialBootId := bootId } }

theorem beginTrialLocked_eq (expectedSequence : UInt32) (runningFirmwareSha256 : Sha256)
    (bootId : BootId) :
    beginTrialLocked sha256 geometry expectedSequence runningFirmwareSha256 bootId =
      transact geometry expectedSequence
        (beginTrialPrepare sha256 geometry runningFirmwareSha256 bootId) := by
  simp only [beginTrialLocked, transact, beginTrialPrepare, bind_assoc, pure_bind]

theorem prepares_beginTrial {io hasState : Bool} {expectedSequence : UInt32}
    {runningFirmwareSha256 : Sha256} {bootId : BootId} (hboot : bootId ≠ Bytes.zero 16)
    (current : State) :
    Prepares sha256 geometry
      (.beginTrial io expectedSequence (some runningFirmwareSha256) (some bootId) hasState) current
      (beginTrialPrepare sha256 geometry runningFirmwareSha256 bootId current) := by
  refine prepares_require (by decide) fun hguard => ?_
  simp only [Bool.and_eq_true, beq_iff_eq] at hguard
  obtain ⟨hphase, rfl⟩ := hguard
  exact safe_planned (fun _ => .trialStarted hphase hboot) (.trialStarted hphase hboot) []

/-- The middle part of `econtainer_slots_mark_healthy`. -/
def markHealthyPrepare (sha256 : List UInt8 → Sha256) (geometry : Geometry) (bootId : BootId)
    (current : State) : Locked State := do
  require (current.phase == .trialStarted && current.operation.trialBootId == bootId) .conflict
  checkReferences sha256 geometry current true
  pure { current with phase := .healthVerified }

theorem markHealthyLocked_eq (expectedSequence : UInt32) (bootId : BootId) :
    markHealthyLocked sha256 geometry expectedSequence bootId =
      transact geometry expectedSequence (markHealthyPrepare sha256 geometry bootId) := by
  simp only [markHealthyLocked, transact, markHealthyPrepare, bind_assoc, pure_bind]

theorem prepares_markHealthy {io hasState : Bool} {expectedSequence : UInt32}
    {bootId : BootId} (current : State) :
    Prepares sha256 geometry (.markHealthy io expectedSequence (some bootId) hasState) current
      (markHealthyPrepare sha256 geometry bootId current) := by
  refine prepares_require (by decide) fun hguard => ?_
  simp only [Bool.and_eq_true, beq_iff_eq] at hguard
  obtain ⟨hphase, rfl⟩ := hguard
  exact safe_planned (fun _ => .healthVerified hphase) (.healthVerified hphase) []

/-- The middle part of `econtainer_slots_confirm`. -/
def confirmPrepare (sha256 : List UInt8 → Sha256) (geometry : Geometry)
    (runningFirmwareSha256 : Sha256) (bootId : BootId) (current : State) : Locked State :=
  match bindingForFirmware current runningFirmwareSha256 with
  | none => throw .conflict
  | some index => do
      require (current.phase == .healthVerified &&
        current.operation.targetFirmwareSha256 == runningFirmwareSha256 &&
        current.operation.trialBootId == bootId) .conflict
      checkReferences sha256 geometry current true
      pure { current with
        bindings := Function.update current.bindings index
          ((current.bindings index).install current.operation)
        phase := .confirmed }

theorem confirmLocked_eq (expectedSequence : UInt32) (runningFirmwareSha256 : Sha256)
    (bootId : BootId) :
    confirmLocked sha256 geometry expectedSequence runningFirmwareSha256 bootId =
      transact geometry expectedSequence
        (confirmPrepare sha256 geometry runningFirmwareSha256 bootId) := by
  simp only [confirmLocked, transact, confirmPrepare]
  refine bind_congr fun current => ?_
  cases bindingForFirmware current runningFirmwareSha256 with
  | none => rfl
  | some index => simp only [bind_assoc, pure_bind]

theorem prepares_confirm {io hasState : Bool} {expectedSequence : UInt32}
    (runningFirmwareSha256 : Sha256) (bootId : BootId) (current : State) :
    Prepares sha256 geometry
      (.confirm io expectedSequence (some runningFirmwareSha256) (some bootId) hasState) current
      (confirmPrepare sha256 geometry runningFirmwareSha256 bootId current) := by
  unfold confirmPrepare
  cases hindex : bindingForFirmware current runningFirmwareSha256 with
  | none => simp [Prepares]
  | some index =>
      refine prepares_require (by decide) fun hguard => ?_
      simp only [Bool.and_eq_true, beq_iff_eq] at hguard
      obtain ⟨⟨hphase, rfl⟩, rfl⟩ := hguard
      exact safe_planned (fun _ => .confirmed hindex hphase) (.confirmed hindex hphase) []

/-! ## Abandon -/

/-- The middle part of `econtainer_slots_abandon`. -/
def abandonPrepare (sha256 : List UInt8 → Sha256) (geometry : Geometry) (bootId : BootId)
    (hasTrialStopped : Bool) (current : State) : Locked State := do
  require current.phase.pending .conflict
  requireStopped current bootId hasTrialStopped
  checkReferences sha256 geometry current false
  pure { current with phase := .aborted }

theorem abandonLocked_eq (expectedSequence : UInt32) (bootId : BootId) (hasTrialStopped : Bool) :
    abandonLocked sha256 geometry expectedSequence bootId hasTrialStopped =
      transact geometry expectedSequence
        (abandonPrepare sha256 geometry bootId hasTrialStopped) := by
  simp only [abandonLocked, transact, abandonPrepare, bind_assoc, pure_bind]

theorem prepares_abandon {io hasState hasTrialStopped : Bool} {expectedSequence : UInt32}
    {bootId : BootId} (current : State) :
    Prepares sha256 geometry
      (.abandon io expectedSequence (some bootId) hasTrialStopped hasState) current
      (abandonPrepare sha256 geometry bootId hasTrialStopped current) := by
  refine prepares_require (by decide) fun hphase => ?_
  have hrest : ∀ past, Fallible.Safe (World.history SlotsPort) (InnerPromise sha256 geometry current)
      (fun _ code => code ≠ .uncertain)
      (fun own planned => Transition sha256 geometry
          (.abandon io expectedSequence (some bootId) hasTrialStopped hasState) (some current) own
          { planned with sequence := current.sequence + 1 } ∧
        Plan geometry (.abandon io expectedSequence (some bootId) hasTrialStopped hasState)
          current planned)
      (do
        checkReferences sha256 geometry current false
        pure { current with phase := .aborted }) past :=
    safe_planned (fun _ => .abandoned hphase) (.abandoned hphase)
  unfold requireStopped
  split
  · simp only [bind_assoc]
    refine prepares_require (by decide) fun _ => ?_
    simp only [Prepares, Fallible.safe_bind, ask, Program.call, Fallible.safe_attempt,
      Program.safe_ask_history, Program.safe_ret, Fallible.safe_require]
    refine ⟨⟨rfl, by simp [SlotsCall.target]⟩, fun stopped => ⟨fun _ => ?_, fun _ => by decide⟩⟩
    simpa only [Fallible.safe_bind] using hrest _
  · exact hrest []

/-! ## Write and prepare -/

/-- The middle part of `econtainer_slots_write_and_prepare`. -/
def writePrepare (sha256 : List UInt8 → Sha256) (geometry : Geometry) (validateFn : ValidateFn)
    (current : State) : Locked State := do
  require (current.phase == .writing) .conflict
  checkReferences sha256 geometry current false
  programCandidate geometry current.operation
  hashFlash sha256 geometry current.operation.slot current.operation.packageSizeBytes
    current.operation.packageSha256
  match ← validateCandidate geometry validateFn current.operation with
  | .ioFailed => throw .ioFailed
  | .untrusted => throw .untrusted
  | .ok => pure { current with phase := .prepared }

theorem writeAndPrepareLocked_eq (expectedSequence : UInt32) (validateFn : ValidateFn) :
    writeAndPrepareLocked sha256 geometry expectedSequence validateFn =
      transact geometry expectedSequence (writePrepare sha256 geometry validateFn) := by
  simp only [writeAndPrepareLocked, transact, writePrepare, bind_assoc]
  refine bind_congr fun current => bind_congr fun _ => bind_congr fun _ => bind_congr fun _ =>
    bind_congr fun _ => bind_congr fun result => ?_
  cases result <;> rfl

/-- Erasing and programming the candidate stays inside its slot. -/
theorem safe_programCandidate (hplaced : WellPlaced geometry) {current : State}
    (hphase : current.phase = .writing)
    (hslot : current.operation.slot.toNat < slotCount)
    (hfits : current.operation.packageSizeBytes.toNat ≤
      (geometry.slot current.operation.slot).sizeBytes)
    {references : SlotsTrace} (hhashed : ReferencesHashed sha256 geometry current references) :
    Fallible.Safe (World.history SlotsPort) (InnerPromise sha256 geometry current)
      (fun _ code => code ≠ .uncertain) (fun own _ => ∃ rest, own = references ++ rest)
      (programCandidate geometry current.operation) references := by
  have hprotected : ∀ rest offset size,
      (geometry.slot current.operation.slot).offsetBytes ≤ offset →
      offset + size ≤ (geometry.slot current.operation.slot).endBytes →
      SlotProtected sha256 geometry current (references ++ rest) offset size :=
    fun rest offset size hlower hupper => ⟨hphase, hlower, hupper, references, rest, rfl, hhashed⟩
  simp only [programCandidate, Fallible.safe_bind, ask, Program.call, Fallible.safe_attempt,
    Program.safe_ask_history, Program.safe_ret, Fallible.safe_require]
  refine ⟨⟨rfl, ?_⟩, fun erased => ⟨fun _ => ?_, fun _ => by decide⟩⟩
  · rintro offset size htarget
    obtain ⟨rfl, rfl⟩ := Prod.mk.inj (Option.some.inj htarget)
    simpa using hprotected [] _ _ le_rfl le_rfl
  -- Every chunk starts at a multiple of the buffer size, which is what keeps its padding inside.
  refine (Fallible.safe_chunked (by decide) (fun offset (_ : Unit) own =>
    (slotIoBytes ∣ offset ∨ current.operation.packageSizeBytes.toNat ≤ offset) ∧
      ∃ rest, own = references ++ rest) ?_ () _ ⟨.inl (Nat.dvd_zero _), _, rfl⟩).imp
    fun _ _ hinvariant => hinvariant.2
  rintro offset count _ own hlt rfl ⟨hoffset, rest, rfl⟩
  replace hoffset : slotIoBytes ∣ offset := hoffset.resolve_right (by omega)
  have hnext : slotIoBytes ∣ offset + min slotIoBytes
      (current.operation.packageSizeBytes.toNat - offset) ∨
      current.operation.packageSizeBytes.toNat ≤ offset + min slotIoBytes
        (current.operation.packageSizeBytes.toNat - offset) := by
    rcases le_total slotIoBytes (current.operation.packageSizeBytes.toNat - offset) with hle | hle
    · rw [min_eq_left hle]
      exact .inl (Nat.dvd_add hoffset (Nat.dvd_refl _))
    · rw [min_eq_right hle]
      exact .inr (by omega)
  have hactual : offset + min slotIoBytes (current.operation.packageSizeBytes.toNat - offset) ≤
      (geometry.slot current.operation.slot).sizeBytes := by omega
  have haligned := hplaced.aligned_end hslot hoffset hactual
  have hpadded := hplaced.le_aligned (min slotIoBytes
    (current.operation.packageSizeBytes.toNat - offset))
  have hend := hplaced.slot_endBytes hslot
  simp only [programChunk, Fallible.safe_bind, ask, Program.call, Fallible.safe_attempt,
    Program.safe_ask_history, Program.safe_ret]
  refine ⟨⟨rfl, by simp [SlotsCall.target]⟩, fun answer => ?_⟩
  cases answer with
  | failed left => simp
  | ok buffer =>
      simp only [Fallible.safe_bind, Fallible.safe_attempt, Program.safe_ask_history,
        Program.safe_ret, Fallible.safe_require]
      refine ⟨⟨rfl, ?_⟩, fun written => ⟨fun _ => ⟨hnext, _, by simp; rfl⟩, fun _ => by decide⟩⟩
      rintro start size htarget
      obtain ⟨rfl, rfl⟩ := Prod.mk.inj (Option.some.inj htarget)
      simp only [Region.endBytes, uint32Max] at hend
      rw [Nat.mod_eq_of_lt (by omega), List.append_assoc]
      refine hprotected _ _ _ (by omega) ?_
      simp only [List.length_append, List.length_replicate, Region.endBytes,
        show buffer.toList.length = _ from buffer.toList_length]
      omega

/-- A validator only reads, and its acceptance is recorded with what it was given. -/
theorem safe_validateCandidate (validateFn : ValidateFn) (operation : Operation) :
    Fallible.Safe (World.history SlotsPort)
      (fun _ call => call.inner = true ∧ call.target = none) (fun _ _ => False)
      (fun own result => ∃ reads, ReadsFlash reads ∧
        own = ⟨.validateEnter operation operation.packageSizeBytes.toNat, ()⟩ :: reads ++
          [⟨.validateReturn result, ()⟩])
      (validateCandidate geometry validateFn operation) [] := by
  simp only [validateCandidate, Fallible.safe_bind, ask, Program.call, Fallible.safe_attempt,
    Program.safe_ask_history, Program.safe_ret, List.nil_append]
  refine ⟨⟨rfl, rfl⟩, fun _ => ?_⟩
  have hserve : ∀ request past,
      (serveValidator ⟨(geometry.slot operation.slot).offsetBytes,
        operation.packageSizeBytes.toNat⟩ request).Safe (World.history SlotsPort)
        (fun _ call => call.readsFlash = true) (fun _ _ => True) past := by
    intro request past
    cases request with
    | read offset size =>
        refine ((safe_flashRelativeRead _ offset size).shift past).mono ?_ fun _ _ _ => trivial
        rintro _ _ ⟨_, _, hreads⟩
        exact hreads
    | digest step => exact (Program.safe_ask_history _ _ _).mpr ⟨rfl, fun _ => trivial⟩
  have htranslate : ((validateFn operation operation.packageSizeBytes.toNat).translate
      (serveValidator ⟨(geometry.slot operation.slot).offsetBytes,
        operation.packageSizeBytes.toNat⟩)).Safe (World.history SlotsPort)
      (fun _ call => call.readsFlash = true) (fun _ _ => True) [] :=
    Program.safe_translate _ (fun _ => True) (fun request past _ => hserve request past) _ trivial
  have hreads := htranslate.events (fun _ _ hcall => hcall) (by simp)
  refine (hreads.shift _).mono ?_ ?_
  · rintro _ call ⟨_, _, _, hcall⟩
    exact ⟨SlotsCall.inner_of_readsFlash hcall, SlotsCall.target_of_readsFlash hcall⟩
  · rintro _ result ⟨reads, rfl, hreads, -⟩
    exact ⟨⟨rfl, rfl⟩, fun _ => ⟨reads, hreads, by simp⟩⟩

theorem prepares_writeAndPrepare {io hasSource hasState : Bool} {expectedSequence : UInt32}
    (hplaced : WellPlaced geometry) (validateFn : ValidateFn) (current : State)
    (hloaded : Loaded geometry current) :
    Prepares sha256 geometry
      (.writeAndPrepare io expectedSequence hasSource (some validateFn) hasState) current
      (writePrepare sha256 geometry validateFn current) := by
  refine prepares_require (by decide) fun hphase => ?_
  rw [beq_iff_eq] at hphase
  have hsound := operationSound_of_stateValid hloaded.valid (by simp [hphase])
  rw [Prepares, Fallible.safe_bind]
  refine (safe_checkReferences current false).mono
    (fun _ _ hreads => innerPromise_of_readsFlash hreads) (fun _ _ hcode => hcode) ?_
  rintro _ _ ⟨references, rest, rfl, hhashed, hrest⟩
  rw [hrest rfl, List.append_nil, Fallible.safe_bind]
  refine (safe_programCandidate hplaced hphase hsound.slot_lt hsound.fits hhashed).imp ?_
  rintro _ _ ⟨rest, rfl⟩
  rw [Fallible.safe_bind]
  refine ((safe_hashFlash _ _ _).shift _).mono ?_ ?_ ?_
  · rintro _ call ⟨_, _, hreads⟩
    exact innerPromise_of_readsFlash hreads
  · rintro _ code ⟨_, _, hcode⟩
    exact hcode
  rintro _ _ ⟨readBack, rfl, hreadBack⟩
  rw [Fallible.safe_bind]
  refine ((safe_validateCandidate validateFn _).shift _).mono ?_ ?_ ?_
  · rintro _ call ⟨_, _, hinner, htarget⟩
    exact ⟨hinner, by simp [htarget]⟩
  · rintro _ code ⟨_, _, hfalse⟩
    exact hfalse.elim
  rintro _ result ⟨_, rfl, reads, hreads, rfl⟩
  cases result with
  | ioFailed => simp
  | untrusted => simp
  | ok => exact ⟨.prepared hphase ⟨_, readBack, reads, rfl, hreadBack, hreads⟩, .prepared hphase⟩

/-! ## Initialize -/

theorem safe_initializeLocked {io : Bool} (firmwareSet : FirmwareSet)
    (bindings : Fin bindingCount → Binding)
    (hrequest : request = .initializeRecord io (some firmwareSet) (some bindings)) :
    Fallible.Safe (World.history SlotsPort) (CallPromise sha256 geometry request)
      (BodyError sha256 geometry request) (fun past _ => BodyOk sha256 geometry request past)
      (initializeLocked sha256 geometry firmwareSet bindings) [⟨.lock, true⟩] := by
  subst hrequest
  rw [initializeLocked, Fallible.safe_bind, Fallible.safe_attempt]
  refine (Program.Safe.shift safe_loadLocked _).mono ?_ ?_
  · rintro _ _ ⟨_, _, rfl⟩
    exact callPromise_of_quiet rfl (by simp)
  rintro _ result ⟨own, rfl, hresult⟩
  have hlock : NothingWritten [⟨.lock, true⟩] := by simp [NothingWritten]
  cases result with
  | ok current =>
      obtain ⟨-, rfl⟩ := hresult
      exact .inr (.inl (hlock.append (by simp [NothingWritten])))
  | error code =>
      obtain ⟨-, hnothing, hempty⟩ := hresult
      have hfailed := hlock.append hnothing
      cases code with
      | empty =>
          rw [hempty rfl] at hfailed ⊢
          simp only [Fallible.safe_bind, Fallible.safe_require, Bool.and_eq_true]
          refine ⟨fun hchecked => ?_, fun _ => .inr (.inl hfailed)⟩
          have hchecks := (@safe_checkReferences sha256 geometry
            (initialState bindings) false).events (fun _ _ hreads => hreads) (by simp)
          refine (hchecks.shift _).mono ?_ ?_ ?_
          · rintro _ _ ⟨_, _, _, hreads⟩
            exact callPromise_of_readsFlash hreads
          · rintro _ _ ⟨own, rfl, hreads, -⟩
            exact .inr (.inl (hfailed.append (ReadsFlash.inner hreads).nothingWritten))
          rintro _ _ ⟨_, rfl, hreads, references, rest, rfl, hhashed, hrest⟩
          rw [hrest rfl, List.append_nil] at hreads ⊢
          have hcommitting : Committing sha256 geometry
              (.initializeRecord io (some firmwareSet) (some bindings))
              ([⟨.lock, true⟩] ++ [⟨.readBlob, BlobAnswer.notFound⟩] ++ references) none
              (initialState bindings) :=
            ⟨⟨references, rfl, ReadsFlash.inner hreads, .founded hhashed⟩, by simp, hchecked.1, rfl,
              by simp, by simp⟩
          exact safe_commit hcommitting
      | _ => exact .inr (.inl hfailed)

/-! ## Load and reconcile -/

/-- A call that changes neither record nor flash. -/
def Harmless (call : SlotsCall) : Prop :=
  call.target = none ∧ ∀ blob, call ≠ .writeBlob blob

theorem harmless_of_readsFlash {call : SlotsCall} (hreads : call.readsFlash = true) :
    Harmless call := by
  refine ⟨SlotsCall.target_of_readsFlash hreads, ?_⟩
  rintro blob rfl
  cases hreads

theorem uses_loadLocked : (loadLocked geometry).run.Uses Harmless :=
  Program.Safe.uses safe_loadLocked fun _ _ hcall => hcall ▸ ⟨rfl, by simp⟩

theorem uses_checkReferences (state : State) :
    (checkReferences sha256 geometry state false).run.Uses Harmless :=
  Program.Safe.uses (safe_checkReferences state false) fun _ _ => harmless_of_readsFlash

theorem uses_checkCandidate (state : State) :
    (checkCandidate sha256 geometry state).run.Uses Harmless := by
  unfold checkCandidate
  split
  · exact Program.Safe.uses (safe_hashFlash _ _ _) fun _ _ => harmless_of_readsFlash
  · trivial

/-- A call inside the locked part is a call. -/
theorem uses_ask {kind : SlotsCall → Prop} {call : SlotsCall} (hkind : kind call) :
    (ask call).run.Uses kind :=
  Fallible.uses_attempt (Program.uses_call hkind)

theorem uses_output {call : SlotsCall} (hstore : (∃ state, call = .storeState state) ∨
    ∃ decision, call = .storeDecision decision) : (ask call).run.Uses Harmless := by
  apply uses_ask
  rcases hstore with ⟨_, rfl⟩ | ⟨_, rfl⟩ <;> exact ⟨rfl, by simp⟩

theorem uses_withLock {body : Locked Unit} (hbody : body.run.Uses Harmless) :
    (withLock body).Uses Harmless := by
  refine (Program.uses_call ⟨rfl, by simp⟩).bind fun locked => ?_
  split
  · exact hbody.bind fun _ => (Program.uses_call ⟨rfl, by simp⟩).bind fun _ => trivial
  · trivial

theorem uses_load (io hasState : Bool) : (load io geometry hasState).Uses Harmless := by
  have hstore : ∀ state, (Program.call (I := SlotsPort) (.storeState state)).Uses Harmless :=
    fun state => Program.uses_call ⟨rfl, by simp⟩
  have hunlock : (Program.call (I := SlotsPort) .unlock).Uses Harmless :=
    Program.uses_call ⟨rfl, by simp⟩
  unfold load
  split
  · trivial
  refine (hstore _).bind fun _ => (Program.uses_call ⟨rfl, by simp⟩).bind fun locked => ?_
  split
  · refine uses_loadLocked.bind fun result => ?_
    cases result with
    | ok state => exact (hstore _).bind fun _ => hunlock.bind fun _ => trivial
    | error code => exact hunlock.bind fun _ => (hstore _).bind fun _ => trivial
  · trivial

theorem uses_reconcile (io : Bool) (firmwareSet : Option FirmwareSet)
    (hasState hasDecision : Bool) :
    (reconcile sha256 io geometry firmwareSet hasState hasDecision).Uses Harmless := by
  have hreferences : ∀ firmwareSet,
      (reconcileReferences sha256 geometry firmwareSet).run.Uses Harmless := fun firmwareSet =>
    Fallible.uses_bind uses_loadLocked fun state =>
      Fallible.uses_bind (uses_output (.inl ⟨_, rfl⟩)) fun _ =>
        Fallible.uses_bind (Fallible.uses_require _ _) fun _ =>
          Fallible.uses_bind (uses_checkReferences state) fun _ => trivial
  have hdecide : ∀ state, (decideBoot sha256 geometry state).run.Uses Harmless := fun state => by
    refine Fallible.uses_bind (Fallible.uses_attempt (uses_checkCandidate state)) fun result => ?_
    cases result with
    | ok value => exact uses_output (.inr ⟨_, rfl⟩)
    | error code => exact Fallible.uses_bind (uses_output (.inr ⟨_, rfl⟩)) fun _ => trivial
  have hlocked : ∀ firmwareSet,
      (reconcileLocked sha256 geometry firmwareSet).run.Uses Harmless := fun firmwareSet => by
    refine Fallible.uses_bind (Fallible.uses_attempt (hreferences firmwareSet)) fun result => ?_
    cases result with
    | ok state => exact hdecide state
    | error code => exact Fallible.uses_bind (uses_output (.inl ⟨_, rfl⟩)) fun _ => trivial
  have hclear : (clearDecision hasDecision).Uses Harmless ∧ (clearState hasState).Uses Harmless := by
    unfold clearDecision clearState
    constructor <;> split <;> first | exact Program.uses_call ⟨rfl, by simp⟩ | trivial
  refine hclear.1.bind fun _ => hclear.2.bind fun _ => ?_
  cases firmwareSet with
  | none => trivial
  | some firmwareSet =>
      simp only
      split
      · trivial
      · exact uses_withLock (hlocked firmwareSet)

/-! ## Every request -/

/-- The middle part of a request that succeeds a record; any other prepares nothing. -/
def Request.prepare (sha256 : List UInt8 → Sha256) (geometry : Geometry) :
    Request → State → Locked State
  | .reserve _ _ (some firmwareSet) (some operation) _ =>
      reservePrepare sha256 geometry firmwareSet operation
  | .writeAndPrepare _ _ _ (some validateFn) _ => writePrepare sha256 geometry validateFn
  | .beginTrial _ _ (some runningFirmwareSha256) (some bootId) _ =>
      beginTrialPrepare sha256 geometry runningFirmwareSha256 bootId
  | .markHealthy _ _ (some bootId) _ => markHealthyPrepare sha256 geometry bootId
  | .confirm _ _ (some runningFirmwareSha256) (some bootId) _ =>
      confirmPrepare sha256 geometry runningFirmwareSha256 bootId
  | .abandon _ _ (some bootId) hasTrialStopped _ =>
      abandonPrepare sha256 geometry bootId hasTrialStopped
  | _ => pure

/-- A request that succeeds a record is refused for its arguments, or it is a
transaction around a middle part that keeps its promises. -/
def Transacts (sha256 : List UInt8 → Sha256) (geometry : Geometry) (request : Request)
    (expectedSequence : UInt32) : Prop :=
  request.program sha256 geometry = pure (.error .invalid) ∨
    request.program sha256 geometry =
        withLock (transact geometry expectedSequence (request.prepare sha256 geometry)) ∧
      ∀ current, Loaded geometry current →
        Prepares sha256 geometry request current (request.prepare sha256 geometry current)

theorem transacts_of_guard {expectedSequence : UInt32} {check : Bool} {body : Locked Unit}
    (hprogram : request.program sha256 geometry =
      if check then pure (.error .invalid) else withLock body)
    (hbody : body = transact geometry expectedSequence (request.prepare sha256 geometry))
    (hprepares : check = false → ∀ current, Loaded geometry current →
      Prepares sha256 geometry request current (request.prepare sha256 geometry current)) :
    Transacts sha256 geometry request expectedSequence := by
  subst hbody
  cases check with
  | true => exact .inl hprogram
  | false => exact .inr ⟨hprogram, hprepares rfl⟩

/-- The six operations that succeed a record are transactions. -/
theorem transacts_of_expectedSequence (request : Request) {expectedSequence : UInt32}
    (hexpected : request.expectedSequence = some expectedSequence) :
    Transacts sha256 geometry request expectedSequence := by
  cases request with
  | initializeRecord io firmwareSet bindings => cases hexpected
  | load io hasState => cases hexpected
  | reconcile io firmwareSet hasState hasDecision => cases hexpected
  | reserve io sequence firmwareSet operation hasState =>
      obtain rfl := Option.some.inj hexpected
      cases firmwareSet with
      | none => exact .inl rfl
      | some firmwareSet =>
          cases operation with
          | none => exact .inl rfl
          | some operation =>
              apply transacts_of_guard rfl (reserveLocked_eq _ _ _)
              intro hchecks current _
              simp only [Bool.or_eq_false_iff, Bool.not_eq_false'] at hchecks
              exact prepares_reserve firmwareSet operation hchecks.2 current
  | writeAndPrepare io sequence hasSource validateFn hasState =>
      obtain rfl := Option.some.inj hexpected
      cases validateFn with
      | none => exact .inl rfl
      | some validateFn =>
          apply transacts_of_guard rfl (writeAndPrepareLocked_eq _ _)
          intro hchecks current hloaded
          simp only [Bool.or_eq_false_iff, Bool.not_eq_false'] at hchecks
          exact prepares_writeAndPrepare (wellPlaced_of_geometryValid hchecks.1.1.2) validateFn
            current hloaded
  | beginTrial io sequence runningFirmwareSha256 bootId hasState =>
      obtain rfl := Option.some.inj hexpected
      cases runningFirmwareSha256 with
      | none => exact .inl rfl
      | some runningFirmwareSha256 =>
          cases bootId with
          | none => exact .inl rfl
          | some bootId =>
              apply transacts_of_guard rfl (beginTrialLocked_eq _ _ _)
              intro hchecks current _
              apply prepares_beginTrial
              intro hzero
              rw [(allZero_iff bootId).mpr hzero, Bool.or_true] at hchecks
              cases hchecks
  | markHealthy io sequence bootId hasState =>
      obtain rfl := Option.some.inj hexpected
      cases bootId with
      | none => exact .inl rfl
      | some bootId =>
          exact transacts_of_guard rfl (markHealthyLocked_eq _ _) fun _ current _ =>
            prepares_markHealthy current
  | confirm io sequence runningFirmwareSha256 bootId hasState =>
      obtain rfl := Option.some.inj hexpected
      cases runningFirmwareSha256 with
      | none => exact .inl rfl
      | some runningFirmwareSha256 =>
          cases bootId with
          | none => exact .inl rfl
          | some bootId =>
              exact transacts_of_guard rfl (confirmLocked_eq _ _ _) fun _ current _ =>
                prepares_confirm runningFirmwareSha256 bootId current
  | abandon io sequence bootId hasTrialStopped hasState =>
      obtain rfl := Option.some.inj hexpected
      cases bootId with
      | none => exact .inl rfl
      | some bootId =>
          exact transacts_of_guard rfl (abandonLocked_eq _ _ _) fun _ current _ =>
            prepares_abandon current

/-- A transaction keeps its promises. -/
theorem Transacts.safe {expectedSequence : UInt32}
    (htransacts : Transacts sha256 geometry request expectedSequence)
    (hexpected : request.expectedSequence = some expectedSequence) :
    (request.program sha256 geometry).Safe (World.history SlotsPort)
      (CallPromise sha256 geometry request) (ReplyPost sha256 geometry request) [] := by
  rcases htransacts with hrefused | ⟨hprogram, hprepares⟩
  · rw [hrefused]
    exact safe_refuse _
  · rw [hprogram]
    apply safe_withLock
    apply safe_transact _ hexpected hprepares
    cases request <;> first | rfl | cases hexpected

/-- Every request that changes the record keeps its promises. -/
theorem safe_changing (request : Request)
    (hchanges : request.changesRecord = true) :
    (request.program sha256 geometry).Safe (World.history SlotsPort)
      (CallPromise sha256 geometry request) (ReplyPost sha256 geometry request) [] := by
  cases request with
  | load io hasState => cases hchanges
  | reconcile io firmwareSet hasState hasDecision => cases hchanges
  | initializeRecord io firmwareSet bindings =>
      cases firmwareSet with
      | none => exact safe_refuse _
      | some firmwareSet =>
          cases bindings with
          | none => exact safe_refuse _
          | some bindings =>
              simp only [Request.program, initializeRecord]
              split
              · exact safe_refuse _
              · exact safe_withLock (safe_initializeLocked firmwareSet bindings rfl)
  | _ => exact (transacts_of_expectedSequence _ rfl).safe rfl

/-- `load` and `reconcile` write neither record nor flash. -/
theorem uses_reading (request : Request) (hreading : request.changesRecord = false) :
    (request.program sha256 geometry).Uses Harmless := by
  cases request with
  | load io hasState => exact uses_load io hasState
  | reconcile io firmwareSet hasState hasDecision =>
      exact uses_reconcile io firmwareSet hasState hasDecision
  | _ => cases hreading

/-- Every request uses its callbacks as promised. -/
theorem safe_program (request : Request) :
    (request.program sha256 geometry).Safe (World.history SlotsPort)
      (CallPromise sha256 geometry request) (fun _ _ => True) [] := by
  cases hchanges : request.changesRecord with
  | true =>
      exact (safe_changing request hchanges).imp fun _ _ _ => trivial
  | false =>
      exact (uses_reading request hchanges).safe.mono
        (fun _ _ hharmless => callPromise_of_quiet hharmless.1 hharmless.2) fun _ _ _ => trivial

end Slots
