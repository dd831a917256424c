/-
# Provenance of a confirmed package

Where a record came from, for every run that starts without one. A record under
construction was reserved; a prepared one was in addition read back, hashed and
validated after its last flash write; a trial was started by a boot that is
carried along; and a confirmed one went through all of these, in order, with
nothing in between that changed the record or touched flash. Each fact is the
invariant of one phase, and the induction over the run adds one episode at a
time.
-/

import EspContainer.Slots.Durable

namespace Slots

open Binary Interaction Package

variable {sha256 : List UInt8 → Sha256} {geometry : Geometry} {request : Request}

/-- An episode of a run over a truthful record store. -/
abbrev RecordEpisode : Type := Episode Request SlotsPort Reply (Option Blob)

/-! ## Phase changes -/

/-- The phase of a durable record. -/
def recordPhase (geometry : Geometry) (record : Option Blob) : Option Phase :=
  record.bind fun blob => (decodeState blob geometry).map State.phase

/-- The phase changes that the operations may make. -/
inductive PhaseStep : Request → Option Phase → Option Phase → Prop
  | founded {io : Bool} {firmwareSet : Option FirmwareSet}
      {bindings : Option (Fin bindingCount → Binding)} :
      PhaseStep (.initializeRecord io firmwareSet bindings) none (some .idle)
  | reserved {io hasState : Bool} {expectedSequence : UInt32} {firmwareSet : Option FirmwareSet}
      {operation : Option Operation} {phase : Phase}
      (hphase : phase = .idle ∨ phase = .confirmed ∨ phase = .aborted) :
      PhaseStep (.reserve io expectedSequence firmwareSet operation hasState) (some phase)
        (some .writing)
  | prepared {io hasSource hasState : Bool} {expectedSequence : UInt32}
      {validateFn : Option ValidateFn} :
      PhaseStep (.writeAndPrepare io expectedSequence hasSource validateFn hasState)
        (some .writing) (some .prepared)
  | trialStarted {io hasState : Bool} {expectedSequence : UInt32}
      {runningFirmwareSha256 : Option Sha256} {bootId : Option BootId} :
      PhaseStep (.beginTrial io expectedSequence runningFirmwareSha256 bootId hasState)
        (some .prepared) (some .trialStarted)
  | healthVerified {io hasState : Bool} {expectedSequence : UInt32} {bootId : Option BootId} :
      PhaseStep (.markHealthy io expectedSequence bootId hasState) (some .trialStarted)
        (some .healthVerified)
  | confirmed {io hasState : Bool} {expectedSequence : UInt32}
      {runningFirmwareSha256 : Option Sha256} {bootId : Option BootId} :
      PhaseStep (.confirm io expectedSequence runningFirmwareSha256 bootId hasState)
        (some .healthVerified) (some .confirmed)
  | abandoned {io hasTrialStopped hasState : Bool} {expectedSequence : UInt32}
      {bootId : Option BootId} {phase : Phase} (hphase : phase.pending = true) :
      PhaseStep (.abandon io expectedSequence bootId hasTrialStopped hasState) (some phase)
        (some .aborted)

theorem recordPhase_of_loaded {state : State} (hloaded : Loaded geometry state) :
    recordPhase geometry (some (encodeState state)) = some state.phase := by
  simp [recordPhase, show decodeState (encodeState state) geometry = some state from hloaded]

/-- A transition changes the phase along one of these steps. -/
theorem phaseStep_of_transition {current : Option State} {own : SlotsTrace} {next : State}
    (htransition : Transition sha256 geometry request current own next) :
    PhaseStep request (current.map State.phase) (some next.phase) := by
  cases htransition with
  | founded hhashed => exact .founded
  | reserved hphase hselected => exact .reserved (Phase.pending_eq_false_iff.mp hphase)
  | prepared hphase hvalidated => simpa [hphase] using PhaseStep.prepared
  | trialStarted hphase hboot => simpa [hphase] using PhaseStep.trialStarted
  | healthVerified hphase => simpa [hphase] using PhaseStep.healthVerified
  | confirmed hindex hphase => simpa [hphase] using PhaseStep.confirmed
  | abandoned hphase => exact .abandoned hphase

/-- Every change of the record is such a phase change. -/
theorem phaseStep_of_exec {residual : Program SlotsPort Reply} {before after : Option Blob}
    {trace : SlotsTrace}
    (hexec : Exec recordWorld (request.program sha256 geometry) before trace residual after)
    (hchange : after ≠ before) :
    PhaseStep request (recordPhase geometry before) (recordPhase geometry after) := by
  cases effect_of_exec hexec with
  | unchanged heq => exact absurd heq hchange
  | @moved past future current next answer htrace hcommitting hbefore hafter =>
      obtain ⟨own, -, -, htransition⟩ := hcommitting.opened
      have hstep := phaseStep_of_transition htransition
      rw [hbefore, hafter, recordPhase_of_loaded hcommitting.loaded_next]
      cases current with
      | none => exact hstep
      | some state =>
          rwa [storedRecord, Option.map_some,
            recordPhase_of_loaded (hcommitting.loaded state rfl)]

/-! ## Where a record came from -/

/-- The record did not change. -/
def RecordStays (episode : RecordEpisode) : Prop := episode.after = episode.before

/-- Neither the record nor flash changed. -/
def DeviceStays (episode : RecordEpisode) : Prop :=
  episode.after = episode.before ∧ FlashUntouched episode.trace

/-- The run has a part that meets `origin`, then an episode that meets `move`,
and since then every episode met `stays`. -/
def Since (stays : RecordEpisode → Prop) (move : RecordEpisode → Prop)
    (origin : List RecordEpisode → Prop) (episodes : List RecordEpisode) : Prop :=
  ∃ earlier episode later, episodes = earlier ++ episode :: later ∧ origin earlier ∧
    move episode ∧ ∀ other ∈ later, stays other

theorem Since.now {stays move : RecordEpisode → Prop} {origin : List RecordEpisode → Prop}
    {episodes : List RecordEpisode} {episode : RecordEpisode} (horigin : origin episodes)
    (hmove : move episode) : Since stays move origin (episodes ++ [episode]) :=
  ⟨episodes, episode, [], rfl, horigin, hmove, by simp⟩

theorem Since.stay {stays move : RecordEpisode → Prop} {origin : List RecordEpisode → Prop}
    {episodes : List RecordEpisode} {episode : RecordEpisode}
    (hsince : Since stays move origin episodes) (hstays : stays episode) :
    Since stays move origin (episodes ++ [episode]) := by
  obtain ⟨earlier, moved, later, rfl, horigin, hmove, hlater⟩ := hsince
  refine ⟨earlier, moved, later ++ [episode], by simp, horigin, hmove, fun other hother => ?_⟩
  rcases List.mem_append.mp hother with hother | hother
  · exact hlater other hother
  · rw [List.mem_singleton.mp hother]
    exact hstays

/-- The episode moved the record to this phase and operation. -/
def MovesTo (phase : Phase) (operation : Operation) (episode : RecordEpisode) : Prop :=
  episode.after ≠ episode.before ∧ ∃ state, episode.after = some (encodeState state) ∧
    state.phase = phase ∧ state.operation = operation

section

variable (sha256 : List UInt8 → Sha256) (geometry : Geometry) (operation : Operation)

/-- Created by a `reserve` whose operation argument differs only in its slot. -/
def Reserved : List RecordEpisode → Prop :=
  Since RecordStays
    (fun episode => MovesTo .writing operation episode ∧
      ∃ io expectedSequence firmwareSet requested hasState, episode.request =
        .reserve io expectedSequence (some firmwareSet) (some requested) hasState ∧
        operation = { requested with slot := operation.slot })
    fun _ => True

/-- Then completed by a `write_and_prepare` that read the candidate back in full,
found its hash equal and had this very operation validated, without any flash
write since the read-back began. -/
def Prepared : List RecordEpisode → Prop :=
  Since DeviceStays
    (fun episode => MovesTo .prepared operation episode ∧
      ∃ io expectedSequence hasSource validateFn hasState, episode.request =
        .writeAndPrepare io expectedSequence hasSource validateFn hasState ∧
        ∃ earlier readBack reads later,
          episode.trace = earlier ++ readBack ++
            (⟨.validateEnter operation operation.packageSizeBytes.toNat, ()⟩ :: reads ++
              ⟨.validateReturn .ok, ()⟩ :: later) ∧
          OperationHashed sha256 geometry operation readBack ∧
          FlashUntouched reads ∧ FlashUntouched later)
    (Reserved operation)

variable (bootId : BootId)

/-- Then put on trial by the target firmware in a boot with this id. -/
def TrialStarted : List RecordEpisode → Prop :=
  Since DeviceStays
    (fun episode => MovesTo .trialStarted { operation with trialBootId := bootId } episode ∧
      FlashUntouched episode.trace ∧ bootId ≠ Bytes.zero 16 ∧
      ∃ io expectedSequence hasState, episode.request = .beginTrial io expectedSequence
        (some operation.targetFirmwareSha256) (some bootId) hasState)
    (Prepared sha256 geometry operation)

/-- Then marked healthy in the same boot. -/
def HealthVerified : List RecordEpisode → Prop :=
  Since DeviceStays
    (fun episode => MovesTo .healthVerified { operation with trialBootId := bootId } episode ∧
      FlashUntouched episode.trace ∧
      ∃ io expectedSequence hasState, episode.request =
        .markHealthy io expectedSequence (some bootId) hasState)
    (TrialStarted sha256 geometry operation bootId)

/-- Then confirmed by the target firmware in the same boot. -/
def Confirmed : List RecordEpisode → Prop :=
  Since DeviceStays
    (fun episode => MovesTo .confirmed { operation with trialBootId := bootId } episode ∧
      FlashUntouched episode.trace ∧
      ∃ io expectedSequence hasState, episode.request = .confirm io expectedSequence
        (some operation.targetFirmwareSha256) (some bootId) hasState)
    (HealthVerified sha256 geometry operation bootId)

end

/-- An operation as it was reserved, before any trial. -/
def Operation.reserved (operation : Operation) : Operation :=
  { operation with trialBootId := Bytes.zero 16 }

/-- What the run before a record with this state must have been. -/
def Provenance (sha256 : List UInt8 → Sha256) (geometry : Geometry) (state : State)
    (episodes : List RecordEpisode) : Prop :=
  match state.phase with
  | .idle | .aborted => True
  | .writing => Reserved state.operation episodes
  | .prepared => Prepared sha256 geometry state.operation episodes
  | .trialStarted => TrialStarted sha256 geometry state.operation.reserved
      state.operation.trialBootId episodes
  | .healthVerified => HealthVerified sha256 geometry state.operation.reserved
      state.operation.trialBootId episodes
  | .confirmed => Confirmed sha256 geometry state.operation.reserved
      state.operation.trialBootId episodes

/-! ## The run so far -/

/-- Without a record under construction, an execution does not touch flash. -/
theorem flashUntouched_of_not_writing {state : State} (hloaded : Loaded geometry state)
    (hphase : state.phase ≠ .writing) {residual : Program SlotsPort Reply}
    {after : Option Blob} {trace : SlotsTrace}
    (hexec : Exec recordWorld (request.program sha256 geometry) (some (encodeState state)) trace
      residual after) : FlashUntouched trace := by
  intro event hevent
  by_contra htarget
  obtain ⟨⟨offset, size⟩, hsome⟩ := Option.ne_none_iff_exists'.mp htarget
  obtain ⟨past, future, rfl⟩ := List.append_of_mem hevent
  obtain ⟨current, own, rfl, hinner, hcurrent, hprotected⟩ := protected_of_target hexec hsome
  obtain ⟨middle, hpast, -⟩ := World.path_append.mp hexec.path
  have hstored := (record_opened (some current) hinner hpast).1
  obtain rfl := hloaded.injective hcurrent (Option.some.inj hstored)
  exact hphase hprotected.writing

/-- An episode that leaves the record alone keeps its provenance. -/
theorem Provenance.stay {state : State} (hloaded : Loaded geometry state)
    {episodes : List RecordEpisode} (hprovenance : Provenance sha256 geometry state episodes)
    {residual : Program SlotsPort Reply} {trace : SlotsTrace}
    (hexec : Exec recordWorld (request.program sha256 geometry) (some (encodeState state)) trace
      residual (some (encodeState state))) :
    Provenance sha256 geometry state (episodes ++
      [⟨request, some (encodeState state), trace, residual, some (encodeState state)⟩]) := by
  unfold Provenance at hprovenance ⊢
  have hstays : state.phase ≠ .writing → DeviceStays ⟨request, some (encodeState state), trace,
      residual, some (encodeState state)⟩ := fun hphase =>
    ⟨rfl, flashUntouched_of_not_writing hloaded hphase hexec⟩
  cases hphase : state.phase <;> simp only [hphase] at hprovenance hstays ⊢
  · exact Since.stay hprovenance rfl
  all_goals exact Since.stay hprovenance (hstays (by decide))

/-- A state with an advanced sequence number is stored differently. -/
theorem Committing.changes {past : SlotsTrace} {current next : State}
    (hcommitting : Committing sha256 geometry request past (some current) next) :
    some (encodeState next) ≠ some (encodeState current) := by
  intro heq
  obtain rfl := hcommitting.loaded_next.injective (hcommitting.loaded current rfl)
    (Option.some.inj heq)
  have hsequence := hcommitting.sequence
  simp [nextSequence] at hsequence

/-- Before its trial an operation carries no boot id. -/
theorem trialBootId_of_untried {state : State} (hvalid : stateValid state geometry = true)
    (hphase : state.phase = .writing ∨ state.phase = .prepared) :
    state.operation.reserved = state.operation := by
  have hidle : state.phase ≠ .idle := by rcases hphase with h | h <;> simp [h]
  rw [Operation.reserved, ← (operationSound_of_stateValid hvalid hidle).untried hphase]

/-- An episode that moves the record extends its provenance. -/
theorem Provenance.move {state next : State} {episodes : List RecordEpisode}
    (hprovenance : Provenance sha256 geometry state episodes)
    {residual : Program SlotsPort Reply} {past future : SlotsTrace} {answer : Bool}
    (hcommitting : Committing sha256 geometry request past (some state) next)
    (hexec : Exec recordWorld (request.program sha256 geometry) (some (encodeState state))
      (past ++ ⟨.writeBlob (encodeState next), answer⟩ :: future) residual
      (some (encodeState next))) :
    Provenance sha256 geometry next (episodes ++
      [⟨request, some (encodeState state),
        past ++ ⟨.writeBlob (encodeState next), answer⟩ :: future, residual,
        some (encodeState next)⟩]) := by
  have hloaded := hcommitting.loaded state rfl
  have hchanges := hcommitting.changes
  have huntouched := fun hphase => flashUntouched_of_not_writing hloaded hphase hexec
  obtain ⟨own, rfl, hinner, htransition⟩ := hcommitting.opened
  unfold Provenance at hprovenance
  cases htransition with
  | reserved hphase hselected =>
      exact Since.now trivial ⟨⟨hchanges, _, rfl, rfl, rfl⟩, _, _, _, _, _, rfl, rfl⟩
  | prepared hphase hvalidated =>
      rw [hphase] at hprovenance
      obtain ⟨earlier, readBack, reads, rfl, hhashed, hreads⟩ := hvalidated
      refine Since.now hprovenance ⟨⟨hchanges, _, rfl, rfl, rfl⟩, _, _, _, _, _, rfl,
        opening (some state) ++ earlier, readBack, reads,
        ⟨.writeBlob (encodeState { state with sequence := state.sequence + 1, phase := .prepared }),
          answer⟩ :: future, ?_, hhashed, hreads.flashUntouched, ?_⟩
      · simp only [List.append_assoc, List.cons_append, List.nil_append]
      · intro event hevent
        rcases List.mem_cons.mp hevent with rfl | hevent
        · rfl
        · exact (quiet_after_write hexec).1 event hevent
  | @trialStarted _ _ _ bootId _ _ hphase hboot =>
      rw [hphase] at hprovenance
      have hreserved := trialBootId_of_untried hloaded.valid (.inr hphase)
      have hsame : (({ state.operation with trialBootId := bootId } : Operation)).reserved =
          state.operation := hreserved
      simp only [Provenance, hsame]
      exact Since.now hprovenance ⟨⟨hchanges, _, rfl, rfl, rfl⟩, huntouched (by simp [hphase]),
        hboot, _, _, _, rfl⟩
  | healthVerified hphase =>
      rw [hphase] at hprovenance
      exact Since.now hprovenance ⟨⟨hchanges, _, rfl, rfl, rfl⟩, huntouched (by simp [hphase]),
        _, _, _, rfl⟩
  | confirmed hindex hphase =>
      rw [hphase] at hprovenance
      exact Since.now hprovenance ⟨⟨hchanges, _, rfl, rfl, rfl⟩, huntouched (by simp [hphase]),
        _, _, _, rfl⟩
  | abandoned hphase => trivial

/-- Every record of a run that started without one decodes, and has its provenance. -/
theorem provenance_of_session {episodes : List RecordEpisode} {record : Option Blob}
    (hsession : Session recordWorld (Request.program sha256 geometry) none episodes record) :
    record = none ∨ ∃ state, record = some (encodeState state) ∧ Loaded geometry state ∧
      Provenance sha256 geometry state episodes := by
  induction hsession with
  | start => exact .inl rfl
  | @next before after episodes earlier request trace residual hlast ih =>
      cases effect_of_exec hlast with
      | unchanged heq =>
          rcases ih with rfl | ⟨state, rfl, hloaded, hprovenance⟩
          · exact .inl heq
          · subst heq
            exact .inr ⟨state, rfl, hloaded, hprovenance.stay hloaded hlast⟩
      | @moved past future current next answer htrace hcommitting hbefore hafter =>
          subst htrace hafter
          refine .inr ⟨next, rfl, hcommitting.loaded_next, ?_⟩
          rcases ih with rfl | ⟨state, rfl, hloaded, hprovenance⟩
          · obtain ⟨own, -, -, htransition⟩ := hcommitting.opened
            cases htransition with
            | founded hhashed => trivial
            | _ => cases hbefore
          · cases current with
            | none => cases hbefore
            | some current =>
                obtain rfl := hloaded.injective (hcommitting.loaded current rfl)
                  (Option.some.inj hbefore)
                exact hprovenance.move hcommitting hlast

/-- A trial moves on only under the boot id that started it, or is abandoned. -/
theorem trial_keeps_boot {state : State} (hloaded : Loaded geometry state)
    (hphase : state.phase = .trialStarted ∨ state.phase = .healthVerified)
    {residual : Program SlotsPort Reply} {after : Option Blob} {trace : SlotsTrace}
    (hexec : Exec recordWorld (request.program sha256 geometry) (some (encodeState state)) trace
      residual after) (hchange : after ≠ some (encodeState state)) :
    ∃ next, after = some (encodeState next) ∧ next.operation = state.operation ∧
      (request.bootId = some state.operation.trialBootId ∧ next.phase ≠ .aborted ∨
        next.phase = .aborted) := by
  cases effect_of_exec hexec with
  | unchanged heq => exact absurd heq hchange
  | @moved past future current next answer htrace hcommitting hbefore hafter =>
      refine ⟨next, hafter, ?_⟩
      obtain ⟨own, -, -, htransition⟩ := hcommitting.opened
      cases current with
      | none => cases hbefore
      | some current =>
          obtain rfl := hloaded.injective (hcommitting.loaded current rfl)
            (Option.some.inj hbefore)
          cases htransition with
          | reserved hidle hselected =>
              rcases hphase with h | h <;> simp [h, Phase.pending, Phase.code] at hidle
          | prepared hwriting hvalidated => simp [hwriting] at hphase
          | trialStarted hprepared hboot => simp [hprepared] at hphase
          | healthVerified hstarted => exact ⟨rfl, .inl ⟨rfl, by simp⟩⟩
          | confirmed hindex hverified => exact ⟨rfl, .inl ⟨rfl, by simp⟩⟩
          | abandoned hpending => exact ⟨rfl, .inr rfl⟩

/-- Provenance of a confirmed package. In every run of operations that starts
without a record, each change of the record is one of the phase steps; a
confirmed record is the end of a reservation, a validated `write_and_prepare`
with no flash write after its read-back, a trial, its health mark and its
confirmation, all under one boot id and for the target firmware; and a trial only
moves on under the boot id that started it, unless it is abandoned. -/
theorem confirmed_provenance (sha256 : List UInt8 → Sha256) (geometry : Geometry)
    {episodes : List RecordEpisode} {record : Option Blob}
    (hsession : Session recordWorld (Request.program sha256 geometry) none episodes record) :
    (∀ episode ∈ episodes, episode.after ≠ episode.before →
      PhaseStep episode.request (recordPhase geometry episode.before)
        (recordPhase geometry episode.after)) ∧
    (∀ blob state, record = some blob → decodeState blob geometry = some state →
      state.phase = .confirmed →
      Confirmed sha256 geometry state.operation.reserved state.operation.trialBootId episodes) ∧
    (∀ episode ∈ episodes, ∀ blob state, episode.before = some blob →
      decodeState blob geometry = some state →
      state.phase = .trialStarted ∨ state.phase = .healthVerified →
      episode.after ≠ episode.before →
      ∃ next, episode.after = some (encodeState next) ∧ next.operation = state.operation ∧
        (episode.request.bootId = some state.operation.trialBootId ∧ next.phase ≠ .aborted ∨
          next.phase = .aborted)) := by
  refine ⟨fun episode hepisode hchange => phaseStep_of_exec (hsession.exec episode hepisode) hchange,
    ?_, ?_⟩
  · rintro blob state rfl hdecode hphase
    obtain rfl := encodeState_of_decodeState hdecode
    obtain hnone | ⟨found, hfound, hloaded, hprovenance⟩ := provenance_of_session hsession
    · cases hnone
    · obtain rfl := hloaded.injective hdecode (Option.some.inj hfound).symm
      simpa only [Provenance, hphase] using hprovenance
  · rintro episode hepisode blob state hbefore hdecode hphase hchange
    obtain rfl := encodeState_of_decodeState hdecode
    have hexec := hsession.exec episode hepisode
    rw [hbefore] at hexec hchange
    exact trial_keeps_boot hdecode hphase hexec hchange

/-- The run that founds the sample record makes its first phase step. -/
theorem confirmed_provenance_sampleFounding :
    ∃ episodes record,
      Session recordWorld (Request.program (fun _ => sampleDigest) sampleGeometry) none episodes
        record ∧
      record ≠ none ∧
      ∃ episode ∈ episodes, PhaseStep episode.request (recordPhase sampleGeometry episode.before)
        (recordPhase sampleGeometry episode.after) := by
  have hexec : Exec recordWorld (sampleFounding.program (fun _ => sampleDigest) sampleGeometry)
      none _ _ _ := (exec_sampleRun sampleFounding none).fst.fst
  rw [reply_sampleFounding] at hexec
  generalize (sampleRun sampleFounding none).2.2.1.1 = record at hexec
  obtain ⟨_, _, next, -, -, -, rfl⟩ := committed_of_ok rfl hexec
  have hsession : Session recordWorld (Request.program (fun _ => sampleDigest) sampleGeometry)
      _ _ _ := .next (.start _) hexec
  exact ⟨_, _, hsession, Option.some_ne_none _, _, List.mem_singleton_self _,
    (confirmed_provenance _ _ hsession).1 _ (List.mem_singleton_self _) (Option.some_ne_none _)⟩

end Slots
