/-
# What the slot engine guarantees at every step

Two guarantees about runs of any length, with any arguments, where every
operation may fail at any callback or be cut there. Flash is only erased or
programmed inside the slot under construction, after both referenced packages
were read back intact, so no referenced package is ever touched. And a result
code never lies about the durable record.
-/

import EspContainer.Slots.Durable

namespace Slots

open Binary Interaction Package

variable {sha256 : List UInt8 → Sha256} {geometry : Geometry} {request : Request}

/-- A byte range lies inside a region. -/
def Region.Contains (region : Region) (offset size : Nat) : Prop :=
  region.offsetBytes ≤ offset ∧ offset + size ≤ region.endBytes

/-- A byte range lies outside a region. -/
def Region.Avoids (region : Region) (offset size : Nat) : Prop :=
  offset + size ≤ region.offsetBytes ∨ region.endBytes ≤ offset

/-- What must hold of the trace before an erase or a write of a range: under this
lock the record was read and decodes, it is in construction of the one slot that
holds the range, no binding references that slot, and both references were read
back and hashed equal before anything else. -/
def ErasePermitted (sha256 : List UInt8 → Sha256) (geometry : Geometry) (past : SlotsTrace)
    (offset size : Nat) : Prop :=
  ∃ blob record references rest,
    past = [⟨.lock, true⟩, ⟨.readBlob, BlobAnswer.found blob⟩] ++ references ++ rest ∧
    Inner (references ++ rest) ∧ decodeState blob geometry = some record ∧
    record.phase = .writing ∧ record.operation.slot.toNat < slotCount ∧
    (geometry.slot record.operation.slot).Contains offset size ∧
    (∀ index, (record.bindings index).packagePresent = true →
      (record.bindings index).slot ≠ record.operation.slot) ∧
    ReferencesHashed sha256 geometry record references

/-- Every erase and write of an execution is permitted by the trace before it. -/
theorem erasePermitted_of_exec {σ : Type} {W : World SlotsPort σ}
    {residual : Program SlotsPort Reply} {before after : σ} {past future : SlotsTrace}
    {event : SlotsEvent} {offset size : Nat}
    (hexec : Exec W (request.program sha256 geometry) before (past ++ event :: future)
      residual after) (htarget : event.1.target = some (offset, size)) :
    ErasePermitted sha256 geometry past offset size := by
  obtain ⟨current, own, rfl, hinner, hloaded, hprotected⟩ := protected_of_target hexec htarget
  obtain ⟨references, rest, rfl, hhashed⟩ := hprotected.hashed
  have hsound := operationSound_of_stateValid hloaded.valid (by simp [hprotected.writing])
  have hpending : current.phase.pending = true := by
    simp [hprotected.writing, Phase.pending, Phase.code]
  refine ⟨_, current, references, rest, by simp [opening], hinner, hloaded, hprotected.writing,
    hsound.slot_lt, ⟨hprotected.lower, hprotected.upper⟩, hsound.unreferenced hpending, hhashed⟩

/-- A permitted range avoids every slot that a binding of the stored record references. -/
theorem avoids_of_erasePermitted (hvalid : geometryValid geometry = true) {past : SlotsTrace}
    {offset size : Nat} (hpermitted : ErasePermitted sha256 geometry past offset size)
    {before durable : Option Blob} (hpath : recordWorld.Path before past durable)
    {blob : Blob} {record : State} (hdurable : durable = some blob)
    (hdecode : decodeState blob geometry = some record) (index : Fin bindingCount)
    (hpresent : (record.bindings index).packagePresent = true) :
    (geometry.slot (record.bindings index).slot).Avoids offset size := by
  obtain ⟨found, current, references, rest, rfl, hinner, hfound, -, hslot, hcontains, hfree, -⟩ :=
    hpermitted
  obtain rfl := encodeState_of_decodeState hfound
  rw [List.append_assoc] at hpath
  obtain ⟨hbefore, rfl⟩ := record_opened (some current) hinner hpath
  obtain rfl := Option.some.inj (hdurable.symm.trans hbefore)
  obtain rfl := Option.some.inj (hfound.symm.trans hdecode)
  have hvalidRecord := stateValid_of_decodeState hdecode
  rcases (wellPlaced_of_geometryValid hvalid).disjoint
    (binding_fits hvalidRecord index hpresent).1 hslot (hfree index hpresent) with hbelow | habove
  · exact .inr (hbelow.trans hcontains.1)
  · exact .inl (hcontains.2.trans habove)

/-- Slot protection: in every run of operations, whatever the callbacks answer,
each erase and each write is permitted; and where reported records are true, it
avoids every slot that a binding of the durable record references. -/
theorem slot_protection (sha256 : List UInt8 → Sha256) (geometry : Geometry)
    (hvalid : geometryValid geometry = true) :
    (∀ (σ : Type) (W : World SlotsPort σ) first episodes last,
      Session W (Request.program sha256 geometry) first episodes last →
      ∀ episode ∈ episodes, ∀ past event future offset size,
        episode.trace = past ++ event :: future → event.1.target = some (offset, size) →
        ErasePermitted sha256 geometry past offset size) ∧
    (∀ first episodes last,
      Session recordWorld (Request.program sha256 geometry) first episodes last →
      ∀ episode ∈ episodes, ∀ past event future offset size,
        episode.trace = past ++ event :: future → event.1.target = some (offset, size) →
        ∀ durable, recordWorld.Path episode.before past durable →
        ∀ blob record, durable = some blob → decodeState blob geometry = some record →
        ∀ index, (record.bindings index).packagePresent = true →
          (geometry.slot (record.bindings index).slot).Avoids offset size) := by
  constructor
  · intro σ W first episodes last hsession episode hepisode past event future offset size htrace
      htarget
    have hexec := hsession.exec episode hepisode
    rw [htrace] at hexec
    exact erasePermitted_of_exec hexec htarget
  · intro first episodes last hsession episode hepisode past event future offset size htrace
      htarget durable hpath blob record hdurable hdecode index hpresent
    have hexec := hsession.exec episode hepisode
    rw [htrace] at hexec
    exact avoids_of_erasePermitted hvalid (erasePermitted_of_exec hexec htarget) hpath hdurable
      hdecode index hpresent

/-- Writing the sample package erases its slot, and that is permitted. -/
theorem slot_protection_sampleGeometry :
    geometryValid sampleGeometry = true ∧
      ∃ episodes last,
        Session deviceWorld (Request.program (fun _ => sampleDigest) sampleGeometry)
          (sampleDevice (some sampleWriting)) episodes last ∧
        ∃ episode ∈ episodes, ∃ past event future,
          episode.trace = past ++ event :: future ∧ event.1.target = some (0, 256) ∧
          ErasePermitted (fun _ => sampleDigest) sampleGeometry past 0 256 := by
  have hvalid : geometryValid sampleGeometry = true := by decide
  have hsession : Session deviceWorld (Request.program (fun _ => sampleDigest) sampleGeometry)
      _ _ _ := .next (.start _) (exec_sampleRun samplePreparing (some sampleWriting))
  have herased : (sampleRun samplePreparing (some sampleWriting)).1.any
      (fun event => event.1.target == some (0, 256)) = true := by
    decide +kernel
  obtain ⟨event, hevent, htarget⟩ := List.any_eq_true.mp herased
  obtain ⟨past, future, htrace⟩ := List.append_of_mem hevent
  exact ⟨hvalid, _, _, hsession, _, List.mem_singleton_self _, past, event, future, htrace,
    beq_iff_eq.mp htarget, (slot_protection (fun _ => sampleDigest) sampleGeometry hvalid).1 _ _ _
      _ _ hsession _ (List.mem_singleton_self _) past event future 0 256 htrace
      (beq_iff_eq.mp htarget)⟩

/-- A result code never lies about the durable record: OK means the record is the
encoding of the next state and so is the state output, any other certain code
means that nothing changed, and `initialize` never alters an existing record. -/
theorem result_code_truthful (sha256 : List UInt8 → Sha256) (geometry : Geometry)
    (request : Request) (hchanges : request.changesRecord = true)
    (record record' : Option Blob) (outputs outputs' : Outputs) (trace : SlotsTrace) :
    (∀ reply, Exec (recordWorld.prod outputWorld) (request.program sha256 geometry)
        (record, outputs) trace (.ret reply) (record', outputs') →
      (reply = .ok () → ∃ current own next, record = storedRecord current ∧
        Transition sha256 geometry request current own next ∧
        next.sequence.toNat = nextSequence current ∧
        record' = some (encodeState next) ∧ decodeState (encodeState next) geometry = some next ∧
        outputs'.state = if request.storesState then next else outputs.state) ∧
      (∀ code, reply = .error code → code ≠ .uncertain →
        record' = record ∧ outputs'.state = outputs.state)) ∧
    (∀ io firmwareSet bindings blob residual, request = .initializeRecord io firmwareSet bindings →
      record = some blob → Exec (recordWorld.prod outputWorld) (request.program sha256 geometry)
        (record, outputs) trace residual (record', outputs') → record' = record) := by
  constructor
  · intro reply hexec
    refine ⟨fun hreply => ?_, (reply_matches_record hchanges hexec).2⟩
    obtain ⟨current, own, next, hbefore, htransition, hsequence, hloaded, hafter, hstate⟩ :=
      (reply_matches_record hchanges hexec).1 hreply
    exact ⟨current, own, next, hbefore, htransition, hsequence, hafter, hloaded, hstate⟩
  · rintro io firmwareSet bindings blob residual rfl rfl hexec
    exact record_kept_by_initialize hexec.fst

/-- Founding the sample record returns OK, and the record is there. -/
theorem result_code_truthful_sampleFounding :
    sampleFounding.changesRecord = true ∧
      ∃ record' outputs' trace,
        Exec (recordWorld.prod outputWorld)
          (sampleFounding.program (fun _ => sampleDigest) sampleGeometry)
          (none, (sampleDevice none).2) trace (.ret (.ok ())) (record', outputs') ∧
        ∃ next : State, record' = some (encodeState next) ∧ next.sequence.toNat = 1 := by
  have hexec := (exec_sampleRun sampleFounding none).map (W := deviceWorld) (V := recordWorld.prod outputWorld)
    (fun device => (device.1.1, device.2)) fun _ _ _ _ hstep => ⟨hstep.1.1, hstep.2⟩
  rw [reply_sampleFounding] at hexec
  obtain ⟨current, own, next, hrecord, -, hsequence, hstored, -⟩ :=
    ((result_code_truthful _ _ sampleFounding rfl _ _ _ _ _).1 _ hexec).1 rfl
  cases current with
  | none => exact ⟨rfl, _, _, _, hexec, next, hstored, hsequence⟩
  | some current => cases hrecord

end Slots
