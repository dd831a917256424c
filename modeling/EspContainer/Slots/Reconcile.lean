/-
# Reconciling an intact device

`reconcile` on a device whose record decodes and whose packages are intact, when
no callback fails. Every step of it is then determined: the record is found, each
read-back hashes as recorded, and the outputs end up holding the record's state
and a boot decision that lets the device start.
-/

import EspContainer.Slots.Crash

namespace Slots

open Binary Interaction Package
open Fallible (attempt require chunked)

variable {sha256 : List UInt8 → Sha256} {geometry : Geometry}

/-- The lock was granted, the read was made, the digest primitive worked. -/
def Succeeds (event : SlotsEvent) : Prop :=
  match event with
  | ⟨.lock, answer⟩ => answer = true
  | ⟨.readBlob, answer⟩ => answer ≠ BlobAnswer.readFailed
  | ⟨.flashRead _ _, answer⟩ => ReadAnswer.succeeded answer = true
  | ⟨.digest _, answer⟩ => answer = true
  | _ => True

theorem workingDevice_succeeds (device : Device) (request : SlotsCall) :
    Succeeds ⟨request, (workingDevice device request).1⟩ := by
  cases request with
  | readBlob =>
      obtain ⟨⟨record, flash⟩, outputs⟩ := device
      cases record <;> simp [Succeeds, workingDevice]
  | _ => simp [Succeeds, workingDevice, ReadAnswer.succeeded]

/-- A device none of whose reads fails. -/
def calmWorld : World SlotsPort Device := deviceWorld.restrict Succeeds

/-! ## Steps of a calm device -/

variable {before after : Device}

theorem calm_lock {answer : Bool} (hstep : calmWorld.Step before .lock answer after) :
    answer = true ∧ after = before :=
  ⟨hstep.2, Prod.ext (Prod.ext hstep.1.1.1 hstep.1.1.2) hstep.1.2⟩

theorem calm_unlock {answer : Unit} (hstep : calmWorld.Step before .unlock answer after) :
    after = before :=
  Prod.ext (Prod.ext hstep.1.1.1 hstep.1.1.2) hstep.1.2

theorem calm_readBlob {blob : Blob} {answer : BlobAnswer} (hstored : before.1.1 = some blob)
    (hstep : calmWorld.Step before .readBlob answer after) :
    answer = .found blob ∧ after = before := by
  obtain ⟨⟨⟨hrecord, hflash⟩, houtput⟩, hsucceeds⟩ := hstep
  cases answer with
  | notFound => exact absurd (hstored.symm.trans hrecord.1) (by simp)
  | readFailed => exact absurd rfl hsucceeds
  | found found =>
      obtain rfl := Option.some.inj (hrecord.1.symm.trans hstored)
      exact ⟨rfl, Prod.ext (Prod.ext hrecord.2 hflash) houtput⟩

theorem calm_flashRead {offset size : Nat} {answer : ReadAnswer size}
    (hstep : calmWorld.Step before (.flashRead offset size) answer after) :
    ∃ bytes, answer = .ok bytes ∧ bytes.toList = before.1.2.bytes offset size ∧
      after = before := by
  obtain ⟨⟨⟨hrecord, hflash⟩, houtput⟩, hsucceeds⟩ := hstep
  cases answer with
  | failed left => cases hsucceeds
  | ok bytes => exact ⟨bytes, rfl, hflash.1, Prod.ext (Prod.ext hrecord hflash.2) houtput⟩

theorem calm_digest {step : DigestCall} {answer : Bool}
    (hstep : calmWorld.Step before (.digest step) answer after) :
    answer = true ∧ after = before :=
  ⟨hstep.2, Prod.ext (Prod.ext hstep.1.1.1 hstep.1.1.2) hstep.1.2⟩

theorem calm_storeState {state : State} {answer : Unit}
    (hstep : calmWorld.Step before (.storeState state) answer after) :
    after = (before.1, { before.2 with state := state }) :=
  Prod.ext (Prod.ext hstep.1.1.1 hstep.1.1.2) hstep.1.2

theorem calm_storeDecision {decision : BootDecision} {answer : Unit}
    (hstep : calmWorld.Step before (.storeDecision decision) answer after) :
    after = (before.1, { before.2 with decision := decision }) :=
  Prod.ext (Prod.ext hstep.1.1.1 hstep.1.1.2) hstep.1.2

/-! ## Reading back -/

/-- Nothing is promised of the calls of a calm run. -/
def anyCall (_ : Device) (_ : SlotsCall) : Prop := True

/-- A read inside its slot delivers what flash holds. -/
theorem calm_flashRelativeRead {reader : SlotReader} {offset size : Nat}
    (hsize : offset + size ≤ reader.sizeBytes)
    (hend : reader.offsetBytes + reader.sizeBytes ≤ uint32Max) (device : Device) :
    (flashRelativeRead reader offset size).Safe calmWorld anyCall
      (fun after answer => ∃ bytes, answer = .ok bytes ∧
        bytes.toList = device.1.2.bytes (reader.offsetBytes + offset) size ∧ after = device)
      device := by
  have hguard : (decide (offset > reader.sizeBytes) || decide (size > reader.sizeBytes - offset) ||
      decide (offset > uint32Max - reader.offsetBytes)) = false := by
    simp only [Bool.or_eq_false_iff, decide_eq_false_iff_not, not_lt, gt_iff_lt]
    omega
  rw [flashRelativeRead, hguard]
  exact ⟨trivial, fun answer after hstep => calm_flashRead hstep⟩

/-- A digest call of a calm device, and what follows it. -/
theorem calm_ask_digest {α : Type} {step : DigestCall} {next : Bool → Locked α}
    {post : Device → α → Prop} {device : Device}
    (hnext : Fallible.Safe calmWorld anyCall (fun _ _ => False) post (next true) device) :
    Fallible.Safe calmWorld anyCall (fun _ _ => False) post (ask (.digest step) >>= next)
      device := by
  rw [Fallible.safe_bind, ask, Fallible.safe_attempt]
  refine ⟨trivial, fun answer after hstep => ?_⟩
  obtain ⟨rfl, rfl⟩ := calm_digest hstep
  exact hnext

/-- An intact package hashes as recorded. -/
theorem calm_hashFlash (hplaced : WellPlaced geometry) {slot : UInt8} {sizeBytes : UInt32}
    {expectedSha256 : Sha256} (hslot : slot.toNat < slotCount)
    (hpositive : sizeBytes ≠ 0) (hfits : sizeBytes.toNat ≤ (geometry.slot slot).sizeBytes)
    {device : Device}
    (hintact : PackageIntact sha256 geometry device.1.2 slot sizeBytes expectedSha256) :
    Fallible.Safe calmWorld anyCall (fun _ _ => False) (fun after _ => after = device)
      (hashFlash sha256 geometry slot sizeBytes expectedSha256) device := by
  have hend := hplaced.slot_endBytes hslot
  simp only [Region.endBytes] at hend
  rw [hashFlash, Fallible.safe_bind, Fallible.safe_require]
  refine ⟨fun _ => calm_ask_digest ?_, fun hguard => by simp [hslot, hpositive, hfits] at hguard⟩
  rw [Fallible.safe_bind, Fallible.safe_require]
  refine ⟨fun _ => ?_, fun hfalse => by cases hfalse⟩
  rw [Fallible.safe_bind]
  refine (Fallible.safe_chunked (by decide) (fun offset fed after =>
    fed = device.1.2.bytes (geometry.slot slot).offsetBytes offset ∧ after = device)
    ?_ [] device ⟨rfl, rfl⟩).imp ?_
  · rintro offset count fed _ hlt rfl ⟨rfl, rfl⟩
    rw [hashChunk, Fallible.safe_bind, Fallible.safe_attempt]
    refine (calm_flashRelativeRead (by simp only; omega) (by simp only; omega) _).imp ?_
    rintro _ _ ⟨bytes, rfl, hbytes, rfl⟩
    refine calm_ask_digest ?_
    simp only [Fallible.safe_bind, Fallible.safe_require, Fallible.safe_pure]
    exact ⟨fun _ => ⟨by rw [hbytes, Flash.bytes_add], trivial⟩, fun hfalse => by cases hfalse⟩
  · rintro _ fed ⟨rfl, rfl⟩
    refine calm_ask_digest ?_
    rw [Fallible.safe_bind, Fallible.safe_require, Fallible.safe_require]
    refine ⟨fun _ => ⟨fun _ => rfl, fun hsha => ?_⟩, fun hfalse => by cases hfalse⟩
    rw [show sha256 _ = expectedSha256 from hintact, beq_self_eq_true] at hsha
    cases hsha

/-- The package of every binding is intact. -/
def BoundIntact (sha256 : List UInt8 → Sha256) (geometry : Geometry) (flash : Flash)
    (state : State) : Prop :=
  ∀ index, (state.bindings index).packagePresent = true →
    PackageIntact sha256 geometry flash (state.bindings index).slot
      (state.bindings index).packageSizeBytes (state.bindings index).packageSha256

theorem calm_checkBinding (hplaced : WellPlaced geometry) {state : State}
    (hvalid : stateValid state geometry = true) {device : Device}
    (hbound : BoundIntact sha256 geometry device.1.2 state) (index : Fin bindingCount) :
    Fallible.Safe calmWorld anyCall (fun _ _ => False) (fun after _ => after = device)
      (checkBinding sha256 geometry (state.bindings index)) device := by
  unfold checkBinding
  split
  · next hpresent =>
    obtain ⟨hslot, hfits, hpositive⟩ := binding_fits hvalid index hpresent
    exact calm_hashFlash hplaced hslot hpositive hfits (hbound index hpresent)
  · rfl

/-- The references of a record are found intact if they are. -/
theorem calm_checkReferences (hplaced : WellPlaced geometry) {state : State}
    (hvalid : stateValid state geometry = true) {device : Device}
    (hbound : BoundIntact sha256 geometry device.1.2 state) :
    Fallible.Safe calmWorld anyCall (fun _ _ => False) (fun after _ => after = device)
      (checkReferences sha256 geometry state false) device := by
  rw [checkReferences, Fallible.safe_bind]
  refine (calm_checkBinding hplaced hvalid hbound 0).imp ?_
  rintro _ _ rfl
  rw [Fallible.safe_bind]
  refine (calm_checkBinding hplaced hvalid hbound 1).imp ?_
  rintro _ _ rfl
  rfl

/-- And so is its candidate, if complete. -/
theorem calm_checkCandidate (hplaced : WellPlaced geometry) {state : State}
    (hvalid : stateValid state geometry = true) {device : Device}
    (hintact : Intact sha256 geometry device.1.2 state) :
    Fallible.Safe calmWorld anyCall (fun _ _ => False) (fun after _ => after = device)
      (checkCandidate sha256 geometry state) device := by
  unfold checkCandidate
  split
  · next hcomplete =>
    have hphase : state.phase ≠ .idle := by
      intro hidle
      rw [hidle] at hcomplete
      cases hcomplete
    have hsound := operationSound_of_stateValid hvalid hphase
    exact calm_hashFlash hplaced hsound.slot_lt hsound.size_ne hsound.fits
      (hintact.candidate hcomplete)
  · rfl

/-! ## Reconcile -/

/-- The boot decision for a record whose packages are all intact. -/
def intactDecision (state : State) : BootDecision :=
  if state.phase.pending then .recoverConfirmed else .bootConfirmed

/-- A stored record is loaded. -/
theorem calm_loadLocked {state : State} (hloaded : Loaded geometry state) {device : Device}
    (hstored : device.1.1 = some (encodeState state)) :
    Fallible.Safe calmWorld anyCall (fun _ _ => False)
      (fun after loaded => loaded = state ∧ after = device) (loadLocked geometry) device := by
  rw [loadLocked, Fallible.safe_bind, ask, Fallible.safe_attempt]
  refine ⟨trivial, fun answer after hstep => ?_⟩
  obtain ⟨rfl, rfl⟩ := calm_readBlob hstored hstep
  rw [Program.safe_ret]
  simp only [show decodeState (encodeState state) geometry = some state from hloaded]
  exact ⟨rfl, rfl⟩

private theorem calm_reconcileReferences (hplaced : WellPlaced geometry) {state : State}
    (hloaded : Loaded geometry state) {device : Device}
    (hstored : device.1.1 = some (encodeState state))
    (hintact : Intact sha256 geometry device.1.2 state) {firmwareSet : FirmwareSet}
    (hmatches : firmwareSetMatches state firmwareSet = true) :
    Fallible.Safe calmWorld anyCall (fun _ _ => False)
      (fun after loaded => loaded = state ∧
        after = (device.1, { device.2 with state := state }))
      (reconcileReferences sha256 geometry firmwareSet) device := by
  rw [reconcileReferences, Fallible.safe_bind]
  refine (calm_loadLocked hloaded hstored).imp ?_
  rintro _ _ ⟨rfl, rfl⟩
  rw [Fallible.safe_bind, ask, Fallible.safe_attempt]
  refine ⟨trivial, fun _ cleared hstep => ?_⟩
  obtain rfl := calm_storeState hstep
  rw [Program.safe_ret, Fallible.safe_bind, Fallible.safe_require, hmatches]
  refine ⟨fun _ => ?_, fun hfalse => by cases hfalse⟩
  rw [Fallible.safe_bind]
  refine Fallible.Safe.imp (calm_checkReferences hplaced hloaded.valid ?_) ?_
  · exact hintact.bound
  · rintro _ _ rfl
    exact ⟨rfl, rfl⟩

private theorem calm_decideBoot (hplaced : WellPlaced geometry) {state : State}
    (hvalid : stateValid state geometry = true) {device : Device}
    (hintact : Intact sha256 geometry device.1.2 state) :
    Fallible.Safe calmWorld anyCall (fun _ _ => False)
      (fun after _ => after = (device.1, { device.2 with decision := intactDecision state }))
      (decideBoot sha256 geometry state) device := by
  rw [decideBoot, Fallible.safe_bind, Fallible.safe_attempt]
  refine Program.Safe.imp (calm_checkCandidate hplaced hvalid hintact) fun _ result hresult => ?_
  cases result with
  | error code => exact hresult.elim
  | ok value =>
      obtain rfl := hresult
      simp only [ask, Fallible.safe_attempt]
      exact ⟨trivial, fun _ after hstep => calm_storeDecision hstep⟩

private theorem calm_reconcileLocked (hplaced : WellPlaced geometry) {state : State}
    (hloaded : Loaded geometry state) (device : Device)
    (hstored : device.1.1 = some (encodeState state))
    (hintact : Intact sha256 geometry device.1.2 state) {firmwareSet : FirmwareSet}
    (hmatches : firmwareSetMatches state firmwareSet = true) :
    Fallible.Safe calmWorld anyCall (fun _ _ => False)
      (fun after _ => after = (device.1, ⟨state, intactDecision state⟩))
      (reconcileLocked sha256 geometry firmwareSet) device := by
  rw [reconcileLocked, Fallible.safe_bind, Fallible.safe_attempt]
  refine Program.Safe.imp (calm_reconcileReferences hplaced hloaded hstored hintact hmatches)
    fun _ result hresult => ?_
  cases result with
  | error code => exact hresult.elim
  | ok value =>
      obtain ⟨rfl, rfl⟩ := hresult
      refine Fallible.Safe.imp (calm_decideBoot hplaced hloaded.valid ?_) ?_
      · exact hintact
      · rintro _ _ rfl
        rfl

/-- Reconciling an intact device with reads that succeed lets it start. -/
theorem calm_reconcile (hvalid : geometryValid geometry = true) {state : State}
    (hloaded : Loaded geometry state) {device : Device}
    (hstored : device.1.1 = some (encodeState state))
    (hintact : Intact sha256 geometry device.1.2 state) {firmwareSet : FirmwareSet}
    (hset : firmwareSetValid firmwareSet = true)
    (hmatches : firmwareSetMatches state firmwareSet = true) :
    (reconcile sha256 true geometry (some firmwareSet) true true).Safe calmWorld anyCall
      (fun after reply => reply = .ok () ∧ after = (device.1, ⟨state, intactDecision state⟩))
      device := by
  have hplaced := wellPlaced_of_geometryValid hvalid
  rw [reconcile, Program.safe_bind]
  refine ⟨trivial, fun _ blocked hstep => ?_⟩
  obtain rfl := calm_storeDecision hstep
  rw [Program.safe_ret, Program.safe_bind]
  refine ⟨trivial, fun _ cleared hstep => ?_⟩
  obtain rfl := calm_storeState hstep
  simp only [hvalid, hset, Bool.not_true, Bool.or_self, Bool.false_eq_true, if_false,
    Program.safe_ret, withLock, Program.safe_bind]
  refine ⟨trivial, fun locked opened hstep => ?_⟩
  obtain ⟨rfl, rfl⟩ := calm_lock hstep
  simp only [if_true, Program.safe_ret, Program.safe_bind]
  have hlocked := calm_reconcileLocked hplaced hloaded
    (device.1, ⟨State.zero, .bootBlocked⟩) hstored hintact hmatches
  refine Program.Safe.imp hlocked fun _ result hresult => ⟨trivial, fun _ after hstep => ?_⟩
  cases result with
  | error code => exact hresult.elim
  | ok value => exact ⟨rfl, (calm_unlock hstep).trans hresult⟩

/-! ## Firmware sets -/

/-- The firmware digests of a set. -/
def FirmwareSet.members (firmwareSet : FirmwareSet) : Set Sha256 :=
  { digest | ∃ index : Fin bindingCount, index.val < firmwareSet.bootableCount ∧
    firmwareSet.bootableFirmwareSha256 index = digest }

/-- The firmware digests a record has bindings for. -/
def State.firmware (state : State) : Set Sha256 :=
  { digest | ∃ index, (state.bindings index).present = true ∧
    (state.bindings index).firmwareSha256 = digest }

/-- A valid set holds one digest, or two different ones. -/
theorem FirmwareSet.count_of_valid {firmwareSet : FirmwareSet}
    (hset : firmwareSetValid firmwareSet = true) :
    firmwareSet.bootableCount = 1 ∨ firmwareSet.bootableCount = 2 ∧
      firmwareSet.bootableFirmwareSha256 1 ≠ firmwareSet.bootableFirmwareSha256 0 := by
  have htwo : bindingCount = 2 := rfl
  simp only [firmwareSetValid, Bool.or_eq_true, beq_iff_eq, decide_eq_true_eq,
    Bool.if_false_left, Fin.forall_fin_two, Bool.and_eq_true] at hset
  simp at hset
  by_cases hcount : firmwareSet.bootableCount = 2
  · have hsecond := hset.2.1.2
    simp [hcount] at hsecond
    exact .inr ⟨hcount, hsecond.2⟩
  · exact .inl (by omega)

/-- The bindings present in a record, counted. -/
theorem State.present_count (state : State) :
    ((List.finRange bindingCount).filter fun index => (state.bindings index).present).length =
      (if (state.bindings 0).present then 1 else 0) +
        (if (state.bindings 1).present then 1 else 0) := by
  simp only [List.finRange_succ, List.finRange_zero, List.map_nil, List.map_cons,
    List.filter_cons, List.filter_nil, Fin.succ_zero_eq_one]
  cases (state.bindings 0).present <;> cases (state.bindings 1).present <;> rfl

/-- A valid set with the firmware of a valid record matches it. -/
theorem firmwareSetMatches_of_members_eq {state : State} {firmwareSet : FirmwareSet}
    (hvalid : stateValid state geometry = true) (hset : firmwareSetValid firmwareSet = true)
    (hmembers : firmwareSet.members = state.firmware) :
    firmwareSetMatches state firmwareSet = true := by
  have hlisted : ∀ index, (state.bindings index).present = true →
      ∃ member : Fin bindingCount, member.val < firmwareSet.bootableCount ∧
        (state.bindings index).firmwareSha256 = firmwareSet.bootableFirmwareSha256 member := by
    intro index hpresent
    have hmem : (state.bindings index).firmwareSha256 ∈ firmwareSet.members :=
      hmembers ▸ ⟨index, hpresent, rfl⟩
    obtain ⟨member, hlt, heq⟩ := hmem
    exact ⟨member, hlt, heq.symm⟩
  have hbound : ∀ member : Fin bindingCount, member.val < firmwareSet.bootableCount →
      ∃ index, (state.bindings index).present = true ∧
        (state.bindings index).firmwareSha256 = firmwareSet.bootableFirmwareSha256 member := by
    intro member hlt
    have hmem : firmwareSet.bootableFirmwareSha256 member ∈ state.firmware :=
      hmembers ▸ ⟨member, hlt, rfl⟩
    exact hmem
  have hdistinct : (state.bindings 0).present = true → (state.bindings 1).present = true →
      (state.bindings 0).firmwareSha256 ≠ (state.bindings 1).firmwareSha256 := by
    unfold stateValid at hvalid
    grind
  simp only [firmwareSetMatches, Bool.and_eq_true, decide_eq_true_eq, beq_iff_eq]
  refine ⟨hlisted, ?_⟩
  rw [state.present_count]
  -- Both sides list distinct digests, so with one or two of them the counts agree.
  have hfirst := hlisted 0
  have hsecond := hlisted 1
  have hzero := hbound 0
  have hone := hbound 1
  have hval : (0 : Fin bindingCount).val = 0 ∧ (1 : Fin bindingCount).val = 1 := ⟨rfl, rfl⟩
  simp only [Fin.exists_fin_two] at hfirst hsecond hzero hone
  rcases FirmwareSet.count_of_valid hset with hcount | ⟨hcount, hne⟩ <;>
  · simp only [hcount, hval.1, hval.2] at hfirst hsecond hzero hone
    grind

/-! ## From a fresh record to any crash -/

/-- A successful `initialize` needs a valid geometry. -/
theorem geometryValid_of_initialized {io : Bool} {firmwareSet : Option FirmwareSet}
    {bindings : Option (Fin bindingCount → Binding)} {σ : Type} {W : World SlotsPort σ}
    {before after : σ} {trace : SlotsTrace}
    (hexec : Exec W ((Request.initializeRecord io firmwareSet bindings).program sha256 geometry)
      before trace (.ret (.ok ())) after) : geometryValid geometry = true := by
  by_contra hinvalid
  have hrefused : (Request.initializeRecord io firmwareSet bindings).program sha256 geometry =
      .ret (.error .invalid) := by
    cases firmwareSet <;> cases bindings <;>
      simp [Request.program, initializeRecord, hinvalid]
  rw [hrefused] at hexec
  cases hexec

/-- A successful `initialize` establishes the invariant. -/
theorem intact_of_initialized {io : Bool} {firmwareSet : Option FirmwareSet}
    {bindings : Option (Fin bindingCount → Binding)} {before after : Option Blob × Flash}
    {trace : SlotsTrace}
    (hexec : Exec (recordWorld.prod flashWorld)
      ((Request.initializeRecord io firmwareSet bindings).program sha256 geometry)
      before trace (.ret (.ok ())) after) :
    Consistent sha256 geometry after := by
  obtain ⟨past, current, next, hcommitting, rfl, hbefore, hafter⟩ :=
    committed_of_ok rfl hexec.fst
  obtain ⟨own, rfl, hinner, htransition⟩ := hcommitting.opened
  refine ⟨next, hafter, hcommitting.loaded_next, ?_⟩
  cases htransition with
  | @founded _ _ bindings _ hhashed =>
      -- An erase would have needed a record, and there was none.
      have hflash : after.2 = before.2 := by
        refine FlashUntouched.flash_eq (fun event hevent => ?_) hexec.snd.path
        by_contra htarget
        obtain ⟨⟨offset, size⟩, hsome⟩ := Option.ne_none_iff_exists'.mp htarget
        obtain ⟨past, future, htrace⟩ := List.append_of_mem hevent
        rw [htrace] at hexec
        obtain ⟨current, own, rfl, hown, -⟩ := protected_of_target hexec hsome
        obtain ⟨middle, hpast, -⟩ := World.path_append.mp hexec.fst.path
        have hstored := (record_opened (some current) hown hpast).1
        cases hbefore.symm.trans hstored
      obtain ⟨opened, hopened, hrest⟩ := World.path_append.mp hexec.snd.path
      obtain ⟨start, hstart, hreferences⟩ := World.path_append.mp hopened
      have hstartEq : start = before.2 :=
        FlashUntouched.flash_eq (by simp [FlashUntouched, opening, SlotsCall.target]) hstart
      subst hstartEq
      rw [hflash]
      refine ⟨fun index hpresent => ?_, fun hcomplete => by cases hcomplete⟩
      obtain ⟨first, second, rfl, hfirst, hsecond⟩ := hhashed
      obtain ⟨middle, hpathFirst, hpathSecond⟩ := World.path_append.mp hreferences
      have hmiddle := hfirst.readsFlash.flashUntouched.flash_eq hpathFirst
      subst hmiddle
      have hcases : ∀ index : Fin bindingCount, index = 0 ∨ index = 1 := by decide
      obtain rfl | rfl := hcases index
      · rw [BindingHashed, if_pos hpresent] at hfirst
        exact hfirst.sha256_bytes hpathFirst
      · rw [BindingHashed, if_pos hpresent] at hsecond
        exact hsecond.sha256_bytes hpathSecond

/-- Crash consistency. After a successful `initialize`, any operations with cuts
anywhere, one more operation cut anywhere and perhaps some reads, a `reconcile`
with reads that succeed and the firmware set of the record lets the device start,
with every bound package intact and the bindings of before the last operation,
unless that was a `confirm` whose record write took effect. -/
theorem crash_consistency (sha256 : List UInt8 → Sha256) (geometry : Geometry)
    {io : Bool} {founders : Option FirmwareSet} {bindings : Option (Fin bindingCount → Binding)}
    {blank founded running stopped resting rebooted : Option Blob × Flash}
    {founding trace reconciling : SlotsTrace}
    {episodes reads : List (Episode Request SlotsPort Reply (Option Blob × Flash))}
    {request : Request} {residual : Program SlotsPort Reply} {firmwareSet : FirmwareSet}
    {outputs outputs' : Outputs} {reply : Reply}
    (hinitialized : Exec (recordWorld.prod flashWorld)
      ((Request.initializeRecord io founders bindings).program sha256 geometry) blank founding
      (.ret (.ok ())) founded)
    (hrun : Session (recordWorld.prod flashWorld) (Request.program sha256 geometry) founded
      episodes running)
    (hinterrupted : Exec (recordWorld.prod flashWorld) (request.program sha256 geometry) running
      trace residual stopped)
    (hlater : Session (recordWorld.prod flashWorld) (Request.program sha256 geometry) stopped
      reads resting)
    (hreads : ∀ episode ∈ reads, episode.request.changesRecord = false)
    (hset : firmwareSetValid firmwareSet = true)
    (hmembers : ∀ blob state, resting.1 = some blob → decodeState blob geometry = some state →
      firmwareSet.members = state.firmware)
    (hreconciled : Exec deviceWorld (reconcile sha256 true geometry (some firmwareSet) true true)
      (resting, outputs) reconciling (.ret reply) (rebooted, outputs'))
    (hsucceeds : ∀ event ∈ reconciling, Succeeds event) :
    ∃ before after, running.1 = some (encodeState before) ∧
      decodeState (encodeState before) geometry = some before ∧
      stopped.1 = some (encodeState after) ∧ rebooted = resting ∧
      reply = .ok () ∧ outputs'.state = after ∧ outputs'.decision ≠ .bootBlocked ∧
      (∀ index, (after.bindings index).packagePresent = true →
        PackageIntact sha256 geometry rebooted.2 (after.bindings index).slot
          (after.bindings index).packageSizeBytes (after.bindings index).packageSha256) ∧
      (after.bindings = before.bindings ∨
        ∃ confirmIo expectedSequence hasState index answer,
          request = .confirm confirmIo expectedSequence
            (some before.operation.targetFirmwareSha256) (some before.operation.trialBootId)
            hasState ∧
          ⟨.writeBlob (encodeState after), answer⟩ ∈ trace ∧ after.phase = .confirmed ∧
          bindingForFirmware before before.operation.targetFirmwareSha256 = some index ∧
          after.bindings = Function.update before.bindings index
            ((before.bindings index).install before.operation)) ∧
      (after.phase.pending = true → ∀ index, (after.bindings index).packagePresent = true →
        (after.bindings index).slot ≠ after.operation.slot) := by
  have hvalid := geometryValid_of_initialized hinitialized
  have hplaced := wellPlaced_of_geometryValid hvalid
  obtain ⟨before, hbefore, hloaded, hintact⟩ :=
    consistent_of_session hplaced hrun (intact_of_initialized hinitialized)
  obtain ⟨record, flash⟩ := running
  obtain rfl : record = some (encodeState before) := hbefore
  obtain ⟨after, hafter, hnext, hkept, hsuccessor⟩ :=
    intact_of_exec hplaced hloaded hintact hinterrupted
  obtain ⟨settled, hsettled, hsettledLoaded, hsettledIntact⟩ :=
    consistent_of_session hplaced hlater ⟨after, hafter, hnext, hkept⟩
  have hsame := record_eq_of_reading_session hlater hreads
  obtain rfl := hsettledLoaded.injective hnext
    (Option.some.inj (hsettled.symm.trans (hsame.trans hafter)))
  obtain ⟨rfl, hdevice⟩ := (@calm_reconcile _ _ hvalid _ hsettledLoaded (resting, outputs)
    hsettled hsettledIntact _ hset (firmwareSetMatches_of_members_eq hsettledLoaded.valid hset
      (hmembers _ _ hsettled hsettledLoaded))).post_of_exec (hreconciled.restrict hsucceeds)
  obtain ⟨rfl, rfl⟩ := Prod.mk.inj hdevice
  have hunreferenced : settled.phase.pending = true → ∀ index,
      (settled.bindings index).packagePresent = true →
        (settled.bindings index).slot ≠ settled.operation.slot := fun hpending =>
    (operationSound_of_stateValid hsettledLoaded.valid fun hidle => by
      rw [hidle] at hpending
      cases hpending).unreferenced hpending
  refine ⟨before, settled, rfl, hloaded, hafter, rfl, rfl, rfl, ?_, hsettledIntact.bound, ?_,
    hunreferenced⟩
  · simp only [intactDecision]
    split <;> decide
  · cases hsuccessor with
    | same => exact .inl rfl
    | moved hchanges hbindings => exact .inl hbindings
    | installed hrequest hwritten hindex hphase hbindings =>
        exact .inr ⟨_, _, _, _, _, hrequest, hwritten, hphase, hindex, hbindings⟩

/-- A device that was founded and cut off at once reconciles. -/
theorem crash_consistency_sampleFounding :
    ∃ reconciling reply rebooted outputs,
      Exec deviceWorld
        (reconcile (fun _ => sampleDigest) true sampleGeometry (some sampleFirmwareSet) true true)
        ((sampleRun sampleFounding none).2.2.1, (sampleDevice none).2) reconciling (.ret reply)
        (rebooted, outputs) ∧
      reply = .ok () ∧ outputs.decision ≠ .bootBlocked := by
  have hexec := (exec_sampleRun sampleFounding none).fst
  rw [reply_sampleFounding] at hexec
  have hstored : (sampleRun sampleFounding none).2.2.1.1 =
      some (encodeState (initialState sampleBindings)) := by
    decide +kernel
  generalize (sampleRun sampleFounding none).2.2.1 = founded at hexec hstored ⊢
  have hreconciled := Exec.of_device workingDevice_step
    (reconcile (fun _ => sampleDigest) true sampleGeometry (some sampleFirmwareSet) true true)
    (founded, (sampleDevice none).2)
  have hmembers : ∀ blob state, founded.1 = some blob →
      decodeState blob sampleGeometry = some state →
      sampleFirmwareSet.members = state.firmware := by
    intro blob state hblob hdecode
    obtain rfl := Option.some.inj (hblob.symm.trans hstored)
    rw [decodeState_encodeState (by decide)] at hdecode
    obtain rfl := Option.some.inj hdecode
    ext digest
    simp [FirmwareSet.members, State.firmware, initialState, sampleFirmwareSet, sampleBindings,
      Fin.exists_fin_two, Binding.empty]
  obtain ⟨-, -, -, -, -, -, hreply, -, hdecision, -⟩ :=
    crash_consistency _ _ hexec (.start founded) (.stop (samplePreparing.program _ _) founded)
      (.start founded) (by simp) (by decide) hmembers hreconciled
      (Program.events_execute workingDevice_succeeds _ _)
  exact ⟨_, _, _, _, hreconciled, hreply, hdecision⟩
end Slots
