/-
# The boot decision

`reconcile` on a device whose lock is granted and whose digest primitives work, while
the record and the flash may hold anything and any read of them may fail at any time.
The decision follows from the record, the firmware set and the flash: a package counts
as unreadable if a read of its slot failed in the run, and the trace of the run says
which did.
-/

import EspContainer.Slots.Reconcile

namespace Slots

open Binary Interaction Package
open Fallible (attempt require chunked)

variable {sha256 : List UInt8 → Sha256} {geometry : Geometry}

/-- The lock was granted, the digest primitive worked. -/
def Granted : SlotsEvent → Prop
  | ⟨.lock, answer⟩ => answer = true
  | ⟨.digest _, answer⟩ => answer = true
  | _ => True

/-- A device that grants the lock and digests. -/
def bootWorld : World SlotsPort Device := deviceWorld.restrict Granted

/-! ## Failed reads -/

/-- A read in a region failed. -/
def ReadFailed (region : Region) (trace : SlotsTrace) : Prop :=
  ∃ event ∈ trace, ∃ offset size left, event = ⟨.flashRead offset size, ReadAnswer.failed left⟩ ∧
    region.offsetBytes ≤ offset ∧ offset < region.endBytes

/-- The reads of a trace are in a region. -/
def ReadsIn (region : Region) (trace : SlotsTrace) : Prop :=
  ∀ event ∈ trace, ∀ offset size, event.1 = .flashRead offset size →
    region.offsetBytes ≤ offset ∧ offset < region.endBytes

/-- No read of a trace failed. -/
def AllRead (trace : SlotsTrace) : Prop :=
  ∀ event ∈ trace, ∀ offset size left,
    event ≠ ⟨.flashRead offset size, ReadAnswer.failed left⟩

@[simp]
theorem readFailed_append {region : Region} {first second : SlotsTrace} :
    ReadFailed region (first ++ second) ↔ ReadFailed region first ∨ ReadFailed region second := by
  simp only [ReadFailed, List.mem_append, or_and_right, exists_or]

@[simp]
theorem allRead_append {first second : SlotsTrace} :
    AllRead (first ++ second) ↔ AllRead first ∧ AllRead second := List.forall_mem_append

theorem AllRead.not_readFailed {region : Region} {trace : SlotsTrace} (hread : AllRead trace) :
    ¬ ReadFailed region trace := by
  rintro ⟨event, hevent, offset, size, left, hequal, -⟩
  exact hread event hevent offset size left hequal

/-- What is read in one region does not fail in another. -/
theorem ReadsIn.not_readFailed {region other : Region} {trace : SlotsTrace}
    (hreads : ReadsIn region trace)
    (hapart : region.endBytes ≤ other.offsetBytes ∨ other.endBytes ≤ region.offsetBytes) :
    ¬ ReadFailed other trace := by
  rintro ⟨event, hevent, offset, size, left, rfl, hlower, hupper⟩
  obtain ⟨hfirst, hlast⟩ := hreads _ hevent offset size rfl
  omega

/-! ## Steps of a booting device -/

variable {past : SlotsTrace} {device : Device} {after : SlotsTrace × Device}

/-- Every event of a booting device is one of a device that grants it. -/
theorem boot_step {request : SlotsCall} {answer : SlotsPort.Answer request}
    (hstep : bootWorld.recorded.Step (past, device) request answer after) :
    after.1 = past ++ [⟨request, answer⟩] ∧ deviceWorld.Step device request answer after.2 ∧
      Granted ⟨request, answer⟩ := ⟨hstep.1, hstep.2.1, hstep.2.2⟩

/-- A call that neither writes nor stores leaves the device as it is. -/
theorem boot_still {request : SlotsCall} {answer : SlotsPort.Answer request}
    (hrecord : ∀ blob, request ≠ .writeBlob blob) (htarget : request.target = none)
    (hstate : ∀ state, request ≠ .storeState state)
    (hdecision : ∀ decision, request ≠ .storeDecision decision)
    (hstep : bootWorld.recorded.Step (past, device) request answer after) :
    after = (past ++ [⟨request, answer⟩], device) := by
  obtain ⟨htrace, ⟨⟨hrecordStep, hflashStep⟩, houtputStep⟩, -⟩ := boot_step hstep
  have hsameRecord := @record_eq_of_step ⟨request, answer⟩ _ _ hrecordStep hrecord
  have hsameFlash : after.2.1.2 = device.1.2 := funext fun address =>
    @flash_eq_of_step ⟨request, answer⟩ _ _ _ hflashStep fun offset size hsome => by
      rw [htarget] at hsome
      cases hsome
  have hsameOutput := @output_eq_of_step ⟨request, answer⟩ _ _ houtputStep hstate hdecision
  exact Prod.ext htrace (Prod.ext (Prod.ext hsameRecord hsameFlash) hsameOutput)

theorem boot_storeState {state : State} {answer : Unit}
    (hstep : bootWorld.recorded.Step (past, device) (.storeState state) answer after) :
    after = (past ++ [⟨.storeState state, answer⟩], device.1, { device.2 with state := state }) := by
  obtain ⟨htrace, ⟨⟨hrecord, hflash⟩, houtput⟩, -⟩ := boot_step hstep
  exact Prod.ext htrace (Prod.ext (Prod.ext hrecord hflash) houtput)

theorem boot_storeDecision {decision : BootDecision} {answer : Unit}
    (hstep : bootWorld.recorded.Step (past, device) (.storeDecision decision) answer after) :
    after = (past ++ [⟨.storeDecision decision, answer⟩], device.1,
      { device.2 with decision := decision }) := by
  obtain ⟨htrace, ⟨⟨hrecord, hflash⟩, houtput⟩, -⟩ := boot_step hstep
  exact Prod.ext htrace (Prod.ext (Prod.ext hrecord hflash) houtput)

/-- Nothing is promised of the calls of a boot. -/
def anyBootCall (_ : SlotsTrace × Device) (_ : SlotsCall) : Prop := True

/-- A digest call works and leaves the device as it is. -/
theorem boot_ask_digest {α : Type} {step : DigestCall} {next : Bool → Locked α}
    {onError : SlotsTrace × Device → SlotsError → Prop} {post : SlotsTrace × Device → α → Prop}
    (hnext : Fallible.Safe bootWorld.recorded anyBootCall onError post (next true)
      (past ++ [⟨.digest step, true⟩], device)) :
    Fallible.Safe bootWorld.recorded anyBootCall onError post (ask (.digest step) >>= next)
      (past, device) := by
  rw [Fallible.safe_bind, ask, Fallible.safe_attempt]
  refine ⟨trivial, fun answer after hstep => ?_⟩
  obtain rfl : answer = true := (boot_step hstep).2.2
  obtain rfl := boot_still (by simp) rfl (by simp) (by simp) hstep
  exact hnext

/-! ## Hashing a package -/

/-- What hashing a package adds to the trace: reads in its slot. If it succeeds they all
succeed and the package is intact, else one failed or it is not. -/
structure HashedOnBoot (sha256 : List UInt8 → Sha256) (geometry : Geometry) (flash : Flash)
    (slot : UInt8) (sizeBytes : UInt32) (expectedSha256 : Sha256) (own : SlotsTrace)
    (succeeded : Bool) : Prop where
  readsIn : ReadsIn (geometry.slot slot) own
  reads : ReadsFlash own
  success : succeeded = true →
    AllRead own ∧ PackageIntact sha256 geometry flash slot sizeBytes expectedSha256
  failure : succeeded = false →
    ReadFailed (geometry.slot slot) own ∨
      ¬ PackageIntact sha256 geometry flash slot sizeBytes expectedSha256

/-- A trace that digests. -/
theorem digest_onBoot (region : Region) (step : DigestCall) (answer : Bool) :
    ReadsIn region [⟨.digest step, answer⟩] ∧ ReadsFlash [⟨.digest step, answer⟩] ∧
      AllRead [⟨.digest step, answer⟩] := by
  simp [ReadsIn, ReadsFlash, AllRead, SlotsCall.readsFlash]

theorem readsIn_append {region : Region} {first second : SlotsTrace} :
    ReadsIn region (first ++ second) ↔ ReadsIn region first ∧ ReadsIn region second :=
  List.forall_mem_append

/-- A read inside its slot. -/
theorem boot_flashRelativeRead {reader : SlotReader} {offset size : Nat}
    (hsize : offset + size ≤ reader.sizeBytes)
    (hend : reader.offsetBytes + reader.sizeBytes ≤ uint32Max) (past : SlotsTrace)
    (device : Device) :
    (flashRelativeRead reader offset size).Safe bootWorld.recorded anyBootCall
      (fun after answer =>
        after = (past ++ [⟨.flashRead (reader.offsetBytes + offset) size, answer⟩], device) ∧
        ∀ bytes, answer = .ok bytes →
          bytes.toList = device.1.2.bytes (reader.offsetBytes + offset) size)
      (past, device) := by
  have hguard : (decide (offset > reader.sizeBytes) || decide (size > reader.sizeBytes - offset) ||
      decide (offset > uint32Max - reader.offsetBytes)) = false := by
    simp only [Bool.or_eq_false_iff, decide_eq_false_iff_not, not_lt, gt_iff_lt]
    omega
  rw [flashRelativeRead, hguard]
  refine ⟨trivial, fun answer after hstep => ⟨boot_still (by simp) rfl (by simp) (by simp) hstep, ?_⟩⟩
  rintro bytes rfl
  exact (boot_step hstep).2.1.1.2.1

/-- The read loop of a package: it reads on in the slot until a read fails. -/
theorem boot_hashChunks {slot : UInt8} {size : Nat} (hfits : size ≤ (geometry.slot slot).sizeBytes)
    (hend : (geometry.slot slot).offsetBytes + (geometry.slot slot).sizeBytes ≤ uint32Max)
    (past : SlotsTrace) (device : Device) :
    Fallible.Safe bootWorld.recorded anyBootCall
      (fun after _ => ∃ own, after = (past ++ own, device) ∧ ReadsIn (geometry.slot slot) own ∧
        ReadsFlash own ∧ ReadFailed (geometry.slot slot) own)
      (fun after fed => fed = device.1.2.bytes (geometry.slot slot).offsetBytes size ∧
        ∃ own, after = (past ++ own, device) ∧ ReadsIn (geometry.slot slot) own ∧ ReadsFlash own ∧
          AllRead own)
      (chunked slotIoBytes size (hashChunk ⟨(geometry.slot slot).offsetBytes, size⟩) [])
      (past, device) := by
  refine Fallible.safe_chunked (by decide) (fun offset fed after =>
    fed = device.1.2.bytes (geometry.slot slot).offsetBytes offset ∧
      ∃ own, after = (past ++ own, device) ∧ ReadsIn (geometry.slot slot) own ∧ ReadsFlash own ∧
        AllRead own) ?_ [] _ ⟨rfl, [], by simp, by simp [ReadsIn], by simp [ReadsFlash],
          by simp [AllRead]⟩
  rintro offset count fed _ hlt rfl ⟨rfl, own, rfl, hin, hreads, hall⟩
  rw [hashChunk, Fallible.safe_bind, Fallible.safe_attempt]
  refine (boot_flashRelativeRead (by simp only; omega) (by simp only; omega) _ _).imp ?_
  rintro _ answer ⟨rfl, hbytes⟩
  have hlower : (geometry.slot slot).offsetBytes ≤ (geometry.slot slot).offsetBytes + offset :=
    Nat.le_add_right _ _
  have hupper : (geometry.slot slot).offsetBytes + offset < (geometry.slot slot).endBytes := by
    simp only [Region.endBytes]
    omega
  have hreadIn : ReadsIn (geometry.slot slot)
      [⟨.flashRead ((geometry.slot slot).offsetBytes + offset) (min slotIoBytes (size - offset)),
        answer⟩] := by
    intro event hevent start amount hcall
    obtain rfl := List.mem_singleton.mp hevent
    cases hcall
    exact ⟨hlower, hupper⟩
  have hreadFlash : ReadsFlash
      [⟨.flashRead ((geometry.slot slot).offsetBytes + offset) (min slotIoBytes (size - offset)),
        answer⟩] := by
    simp [ReadsFlash, SlotsCall.readsFlash]
  cases answer with
  | failed left =>
      exact ⟨_, by rw [List.append_assoc], readsIn_append.mpr ⟨hin, hreadIn⟩,
        hreads.append hreadFlash, readFailed_append.mpr (.inr ⟨_, List.mem_singleton_self _, _, _,
          left, rfl, hlower, hupper⟩)⟩
  | ok bytes =>
      refine boot_ask_digest ?_
      obtain ⟨hdigestIn, hdigestReads, hdigestAll⟩ :=
        digest_onBoot (geometry.slot slot) (.update bytes.toList) true
      simp only [Fallible.safe_bind, Fallible.safe_require, Fallible.safe_pure]
      refine ⟨fun _ => ⟨?_, ?_⟩, fun hfalse => by cases hfalse⟩
      · rw [hbytes bytes rfl, Flash.bytes_add]
      · refine ⟨_, by rw [List.append_assoc, List.append_assoc],
          readsIn_append.mpr ⟨hin, readsIn_append.mpr ⟨hreadIn, hdigestIn⟩⟩,
          hreads.append (hreadFlash.append hdigestReads),
          allRead_append.mpr ⟨hall, allRead_append.mpr ⟨?_, hdigestAll⟩⟩⟩
        intro event hevent start amount left hequal
        obtain rfl := List.mem_singleton.mp hevent
        cases hequal

/-- Hashing a package of a valid size. -/
theorem boot_hashFlash (hplaced : WellPlaced geometry) {slot : UInt8} {sizeBytes : UInt32}
    {expectedSha256 : Sha256} (hslot : slot.toNat < slotCount) (hpositive : sizeBytes ≠ 0)
    (hfits : sizeBytes.toNat ≤ (geometry.slot slot).sizeBytes) (past : SlotsTrace)
    (device : Device) :
    Fallible.Safe bootWorld.recorded anyBootCall
      (fun after _ => ∃ own, after = (past ++ own, device) ∧
        HashedOnBoot sha256 geometry device.1.2 slot sizeBytes expectedSha256 own false)
      (fun after _ => ∃ own, after = (past ++ own, device) ∧
        HashedOnBoot sha256 geometry device.1.2 slot sizeBytes expectedSha256 own true)
      (hashFlash sha256 geometry slot sizeBytes expectedSha256) (past, device) := by
  have hend := hplaced.slot_endBytes hslot
  simp only [Region.endBytes] at hend
  rw [hashFlash, Fallible.safe_bind, Fallible.safe_require]
  refine ⟨fun _ => boot_ask_digest ?_, fun hguard => by simp [hslot, hpositive, hfits] at hguard⟩
  rw [Fallible.safe_bind, Fallible.safe_require]
  refine ⟨fun _ => ?_, fun hfalse => by cases hfalse⟩
  rw [Fallible.safe_bind]
  refine (boot_hashChunks hfits hend (past ++ [⟨.digest .start, true⟩]) device).mono ?_ ?_ ?_
  · exact fun _ _ h => h
  · rintro _ _ ⟨own, rfl, hin, hreads, hfailed⟩
    obtain ⟨hstartIn, hstartReads, -⟩ := digest_onBoot (geometry.slot slot) .start true
    exact ⟨[⟨.digest .start, true⟩] ++ own, by rw [List.append_assoc],
      { readsIn := readsIn_append.mpr ⟨hstartIn, hin⟩
        reads := hstartReads.append hreads
        success := by simp
        failure := fun _ => .inl (readFailed_append.mpr (.inr hfailed)) }⟩
  · rintro _ fed ⟨rfl, own, rfl, hin, hreads, hall⟩
    refine boot_ask_digest ?_
    obtain ⟨hstartIn, hstartReads, hstartAll⟩ := digest_onBoot (geometry.slot slot) .start true
    obtain ⟨hfinishIn, hfinishReads, hfinishAll⟩ := digest_onBoot (geometry.slot slot) .finish true
    have htrace : past ++ [⟨.digest .start, true⟩] ++ own ++ [⟨.digest .finish, true⟩] =
        past ++ ([⟨.digest .start, true⟩] ++ (own ++ [⟨.digest .finish, true⟩])) := by
      simp only [List.append_assoc]
    have hallIn := readsIn_append.mpr ⟨hstartIn, readsIn_append.mpr ⟨hin, hfinishIn⟩⟩
    have hallReads := hstartReads.append (hreads.append hfinishReads)
    have hallRead := allRead_append.mpr ⟨hstartAll, allRead_append.mpr ⟨hall, hfinishAll⟩⟩
    rw [Fallible.safe_bind, Fallible.safe_require, Fallible.safe_require]
    refine ⟨fun _ => ⟨fun hsha => ?_, fun hsha => ?_⟩, fun hfalse => by cases hfalse⟩
    · exact ⟨_, by rw [htrace],
        { readsIn := hallIn
          reads := hallReads
          success := fun _ => ⟨hallRead, beq_iff_eq.mp hsha⟩
          failure := by simp }⟩
    · exact ⟨_, by rw [htrace],
        { readsIn := hallIn
          reads := hallReads
          success := by simp
          failure := fun _ => .inr fun hintact => by
            rw [show sha256 _ = expectedSha256 from hintact, beq_self_eq_true] at hsha
            cases hsha }⟩

/-! ## References and candidate -/

/-- What checking the references adds to the trace. -/
structure ReferencesOnBoot (sha256 : List UInt8 → Sha256) (geometry : Geometry) (flash : Flash)
    (state : State) (own : SlotsTrace) (succeeded : Bool) : Prop where
  reads : ReadsFlash own
  success : succeeded = true → AllRead own ∧ BoundIntact sha256 geometry flash state
  failure : succeeded = false → ∃ index, (state.bindings index).packagePresent = true ∧
    (ReadFailed (geometry.slot (state.bindings index).slot) own ∨
      ¬ PackageIntact sha256 geometry flash (state.bindings index).slot
        (state.bindings index).packageSizeBytes (state.bindings index).packageSha256)

/-- The package of one binding. -/
theorem boot_checkBinding (hplaced : WellPlaced geometry) {state : State}
    (hvalid : stateValid state geometry = true) (index : Fin bindingCount) (past : SlotsTrace)
    (device : Device) :
    Fallible.Safe bootWorld.recorded anyBootCall
      (fun after _ => ∃ own, after = (past ++ own, device) ∧
        (state.bindings index).packagePresent = true ∧
        HashedOnBoot sha256 geometry device.1.2 (state.bindings index).slot
          (state.bindings index).packageSizeBytes (state.bindings index).packageSha256 own false)
      (fun after _ => ∃ own, after = (past ++ own, device) ∧ ReadsFlash own ∧ AllRead own ∧
        ((state.bindings index).packagePresent = true →
          PackageIntact sha256 geometry device.1.2 (state.bindings index).slot
            (state.bindings index).packageSizeBytes (state.bindings index).packageSha256))
      (checkBinding sha256 geometry (state.bindings index)) (past, device) := by
  unfold checkBinding
  split
  · next hpresent =>
    obtain ⟨hslot, hfits, hpositive⟩ := binding_fits hvalid index hpresent
    refine (boot_hashFlash hplaced hslot hpositive hfits past device).mono (fun _ _ h => h) ?_ ?_
    · rintro _ _ ⟨own, rfl, hhashed⟩
      exact ⟨own, rfl, hpresent, hhashed⟩
    · rintro _ _ ⟨own, rfl, hhashed⟩
      obtain ⟨hall, hintact⟩ := hhashed.success rfl
      exact ⟨own, rfl, hhashed.reads, hall, fun _ => hintact⟩
  · next habsent =>
    exact ⟨[], by simp, by simp [ReadsFlash], by simp [AllRead],
      fun hpresent => absurd hpresent habsent⟩

/-- The packages of both bindings, in order. -/
theorem boot_checkReferences (hplaced : WellPlaced geometry) {state : State}
    (hvalid : stateValid state geometry = true) (past : SlotsTrace) (device : Device) :
    Fallible.Safe bootWorld.recorded anyBootCall
      (fun after _ => ∃ own, after = (past ++ own, device) ∧
        ReferencesOnBoot sha256 geometry device.1.2 state own false)
      (fun after _ => ∃ own, after = (past ++ own, device) ∧
        ReferencesOnBoot sha256 geometry device.1.2 state own true)
      (checkReferences sha256 geometry state false) (past, device) := by
  rw [checkReferences, Fallible.safe_bind]
  refine (boot_checkBinding hplaced hvalid 0 past device).mono (fun _ _ h => h) ?_ ?_
  · rintro _ _ ⟨own, rfl, hpresent, hhashed⟩
    exact ⟨own, rfl,
      { reads := hhashed.reads
        success := by simp
        failure := fun _ => ⟨0, hpresent, hhashed.failure rfl⟩ }⟩
  rintro _ _ ⟨first, rfl, hfirstReads, hfirstAll, hfirstIntact⟩
  rw [Fallible.safe_bind]
  refine (boot_checkBinding hplaced hvalid 1 (past ++ first) device).mono (fun _ _ h => h) ?_ ?_
  · rintro _ _ ⟨own, rfl, hpresent, hhashed⟩
    exact ⟨first ++ own, by rw [List.append_assoc],
      { reads := hfirstReads.append hhashed.reads
        success := by simp
        failure := fun _ => ⟨1, hpresent, (hhashed.failure rfl).imp_left fun hfailed =>
          readFailed_append.mpr (.inr hfailed)⟩ }⟩
  rintro _ _ ⟨second, rfl, hsecondReads, hsecondAll, hsecondIntact⟩
  exact ⟨first ++ second, by rw [List.append_assoc],
    { reads := hfirstReads.append hsecondReads
      success := fun _ => ⟨allRead_append.mpr ⟨hfirstAll, hsecondAll⟩,
        Fin.forall_fin_two.mpr ⟨hfirstIntact, hsecondIntact⟩⟩
      failure := by simp }⟩

/-- The candidate of a complete phase counts as invalid if a read of it failed or its digest
differs. -/
def CandidateInvalid (sha256 : List UInt8 → Sha256) (geometry : Geometry) (flash : Flash)
    (state : State) (trace : SlotsTrace) : Prop :=
  state.phase.complete = true ∧
    (ReadFailed (geometry.slot state.operation.slot) trace ∨
      ¬ PackageIntact sha256 geometry flash state.operation.slot state.operation.packageSizeBytes
        state.operation.packageSha256)

/-- What checking the candidate adds to the trace. -/
theorem boot_checkCandidate (hplaced : WellPlaced geometry) {state : State}
    (hvalid : stateValid state geometry = true) (past : SlotsTrace) (device : Device) :
    Fallible.Safe bootWorld.recorded anyBootCall
      (fun after _ => ∃ own, after = (past ++ own, device) ∧ state.phase.complete = true ∧
        HashedOnBoot sha256 geometry device.1.2 state.operation.slot
          state.operation.packageSizeBytes state.operation.packageSha256 own false)
      (fun after _ => ∃ own, after = (past ++ own, device) ∧ ReadsFlash own ∧ AllRead own ∧
        ¬ CandidateInvalid sha256 geometry device.1.2 state own)
      (checkCandidate sha256 geometry state) (past, device) := by
  unfold checkCandidate
  split
  · next hcomplete =>
    have hphase : state.phase ≠ .idle := by
      intro hidle
      rw [hidle] at hcomplete
      cases hcomplete
    have hsound := operationSound_of_stateValid hvalid hphase
    refine (boot_hashFlash hplaced hsound.slot_lt hsound.size_ne hsound.fits past device).mono
      (fun _ _ h => h) ?_ ?_
    · rintro _ _ ⟨own, rfl, hhashed⟩
      exact ⟨own, rfl, hcomplete, hhashed⟩
    · rintro _ _ ⟨own, rfl, hhashed⟩
      obtain ⟨hall, hintact⟩ := hhashed.success rfl
      exact ⟨own, rfl, hhashed.reads, hall,
        fun hcandidate => hcandidate.2.elim hall.not_readFailed fun hbroken => hbroken hintact⟩
  · next hincomplete =>
    exact ⟨[], by simp, by simp [ReadsFlash], by simp [AllRead],
      fun hcandidate => absurd hcandidate.1 hincomplete⟩

/-! ## The locked part -/

/-- The record is loaded: it is there, its read did not fail and it decodes. -/
def RecordLoads (geometry : Geometry) (stored : Option Blob × Flash) (trace : SlotsTrace) (state : State) : Prop :=
  ⟨.readBlob, BlobAnswer.readFailed⟩ ∉ trace ∧
    ∃ blob, stored.1 = some blob ∧ decodeState blob geometry = some state

/-- A package that a binding references is unreadable or not the recorded one. -/
def ReferenceInvalid (sha256 : List UInt8 → Sha256) (geometry : Geometry) (flash : Flash)
    (state : State) (trace : SlotsTrace) : Prop :=
  ∃ index, (state.bindings index).packagePresent = true ∧
    (ReadFailed (geometry.slot (state.bindings index).slot) trace ∨
      ¬ PackageIntact sha256 geometry flash (state.bindings index).slot
        (state.bindings index).packageSizeBytes (state.bindings index).packageSha256)

/-- How a boot ends: blocked for a cause, with cleared outputs, or with the record and the
decision that its phase and its candidate call for. -/
inductive BootOutcome (sha256 : List UInt8 → Sha256) (geometry : Geometry)
    (firmwareSet : FirmwareSet) (stored : Option Blob × Flash) (trace : SlotsTrace) : Outputs → Reply → Prop
  | noRecord {error : SlotsError} (hnone : ∀ state, ¬ RecordLoads geometry stored trace state) :
      BootOutcome sha256 geometry firmwareSet stored trace ⟨State.zero, .bootBlocked⟩ (.error error)
  | blocked {state : State} {error : SlotsError} (hloads : RecordLoads geometry stored trace state)
      (hcause : firmwareSetMatches state firmwareSet = false ∨
        ReferenceInvalid sha256 geometry stored.2 state trace) :
      BootOutcome sha256 geometry firmwareSet stored trace ⟨State.zero, .bootBlocked⟩ (.error error)
  | candidateInvalid {state : State} {error : SlotsError}
      (hloads : RecordLoads geometry stored trace state)
      (hmatches : firmwareSetMatches state firmwareSet = true)
      (hreferences : ¬ ReferenceInvalid sha256 geometry stored.2 state trace)
      (hcandidate : CandidateInvalid sha256 geometry stored.2 state trace) :
      BootOutcome sha256 geometry firmwareSet stored trace
        ⟨state, .recoverConfirmedCandidateInvalid⟩ (.error error)
  | started {state : State} (hloads : RecordLoads geometry stored trace state)
      (hmatches : firmwareSetMatches state firmwareSet = true)
      (hreferences : ¬ ReferenceInvalid sha256 geometry stored.2 state trace)
      (hcandidate : ¬ CandidateInvalid sha256 geometry stored.2 state trace) :
      BootOutcome sha256 geometry firmwareSet stored trace ⟨state, intactDecision state⟩ (.ok ())

/-- The events of a trace neither read flash nor the record. -/
def Quiet (trace : SlotsTrace) : Prop :=
  ∀ event ∈ trace, event.1.readsFlash = false ∧ event.1 ≠ .readBlob

theorem Quiet.not_readFailed {region : Region} {trace : SlotsTrace} (hquiet : Quiet trace) :
    ¬ ReadFailed region trace := by
  rintro ⟨event, hevent, offset, size, left, rfl, -⟩
  exact absurd (hquiet _ hevent).1 (by simp [SlotsCall.readsFlash])

theorem Quiet.not_readBlob {trace : SlotsTrace} {answer : BlobAnswer} (hquiet : Quiet trace) :
    ⟨.readBlob, answer⟩ ∉ trace := fun hevent => (hquiet _ hevent).2 rfl

variable {firmwareSet : FirmwareSet}

/-- Quiet events around a trace change none of it. -/
theorem BootOutcome.around {first last own : SlotsTrace} {outputs : Outputs} {reply : Reply}
    (houtcome : BootOutcome sha256 geometry firmwareSet device.1 own outputs reply)
    (hfirst : Quiet first) (hlast : Quiet last) :
    BootOutcome sha256 geometry firmwareSet device.1 (first ++ own ++ last) outputs reply := by
  have hread (region : Region) :
      ReadFailed region (first ++ own ++ last) ↔ ReadFailed region own := by
    simp [hfirst.not_readFailed, hlast.not_readFailed]
  have hloads (state : State) :
      RecordLoads geometry device.1 (first ++ own ++ last) state ↔
        RecordLoads geometry device.1 own state := by
    simp [RecordLoads, hfirst.not_readBlob, hlast.not_readBlob]
  have hreferences (state : State) :
      ReferenceInvalid sha256 geometry device.1.2 state (first ++ own ++ last) ↔
        ReferenceInvalid sha256 geometry device.1.2 state own := by
    simp only [ReferenceInvalid, hread]
  have hcandidate (state : State) :
      CandidateInvalid sha256 geometry device.1.2 state (first ++ own ++ last) ↔
        CandidateInvalid sha256 geometry device.1.2 state own := by
    simp only [CandidateInvalid, hread]
  cases houtcome with
  | noRecord hnone => exact .noRecord fun state h => hnone state ((hloads state).mp h)
  | blocked hload hcause =>
      exact .blocked ((hloads _).mpr hload) (hcause.imp_right (hreferences _).mpr)
  | candidateInvalid hload hmatches hreference hinvalid =>
      exact .candidateInvalid ((hloads _).mpr hload) hmatches
        (fun h => hreference ((hreferences _).mp h)) ((hcandidate _).mpr hinvalid)
  | started hload hmatches hreference hvalid =>
      exact .started ((hloads _).mpr hload) hmatches
        (fun h => hreference ((hreferences _).mp h)) fun h => hvalid ((hcandidate _).mp h)

/-- Quiet events behind a trace change none of it. -/
theorem BootOutcome.behind {last own : SlotsTrace} {outputs : Outputs} {reply : Reply}
    (houtcome : BootOutcome sha256 geometry firmwareSet device.1 own outputs reply)
    (hlast : Quiet last) :
    BootOutcome sha256 geometry firmwareSet device.1 (own ++ last) outputs reply := by
  have hnothing : Quiet [] := by simp [Quiet]
  simpa using houtcome.around hnothing hlast

/-- Reads of packages do not read the record. -/
theorem ReadsFlash.not_readBlob {trace : SlotsTrace} {answer : BlobAnswer}
    (hreads : ReadsFlash trace) : ⟨.readBlob, answer⟩ ∉ trace := by
  intro hevent
  cases hreads _ hevent

/-- Loading the record: it decodes, or there is nothing to load. -/
theorem boot_loadLocked (past : SlotsTrace) (device : Device) :
    Fallible.Safe bootWorld.recorded anyBootCall
      (fun after _ => ∃ answer, after = (past ++ [⟨.readBlob, answer⟩], device) ∧
        ∀ state, ¬ RecordLoads geometry device.1 [⟨.readBlob, answer⟩] state)
      (fun after state => ∃ answer, after = (past ++ [⟨.readBlob, answer⟩], device) ∧
        RecordLoads geometry device.1 [⟨.readBlob, answer⟩] state)
      (loadLocked geometry) (past, device) := by
  rw [loadLocked, Fallible.safe_bind, ask, Fallible.safe_attempt]
  refine ⟨trivial, fun answer after hstep => ?_⟩
  have hrecord := (boot_step hstep).2.1.1.1
  obtain rfl := boot_still (by simp) rfl (by simp) (by simp) hstep
  rw [Program.safe_ret]
  cases answer with
  | notFound =>
      refine ⟨.notFound, rfl, ?_⟩
      rintro state ⟨-, blob, hblob, -⟩
      rw [hrecord.1] at hblob
      cases hblob
  | readFailed => exact ⟨.readFailed, rfl, fun state hloads => hloads.1 (List.mem_singleton_self _)⟩
  | found blob =>
      cases hdecode : decodeState blob geometry with
      | none =>
          simp only [hdecode]
          refine ⟨.found blob, rfl, ?_⟩
          rintro state ⟨-, stored, hstored, hstate⟩
          obtain rfl := Option.some.inj (hrecord.1.symm.trans hstored)
          rw [hdecode] at hstate
          cases hstate
      | some state =>
          simp only [hdecode]
          exact ⟨.found blob, rfl, by simp, blob, hrecord.1, hdecode⟩

/-- The part of `reconcile` that decides whether the device may start at all. -/
theorem boot_reconcileReferences (hplaced : WellPlaced geometry) (past : SlotsTrace)
    (device : Device) :
    Fallible.Safe bootWorld.recorded anyBootCall
      (fun after _ => ∃ own state, after = (past ++ own, device.1, { device.2 with state := state }) ∧
        ((∀ state, ¬ RecordLoads geometry device.1 own state) ∨
          ∃ state, RecordLoads geometry device.1 own state ∧
            (firmwareSetMatches state firmwareSet = false ∨
              ReferenceInvalid sha256 geometry device.1.2 state own)))
      (fun after state => ∃ own, after = (past ++ own, device.1, { device.2 with state := state }) ∧
        RecordLoads geometry device.1 own state ∧ firmwareSetMatches state firmwareSet = true ∧
        AllRead own ∧ BoundIntact sha256 geometry device.1.2 state)
      (reconcileReferences sha256 geometry firmwareSet) (past, device) := by
  rw [reconcileReferences, Fallible.safe_bind]
  refine (boot_loadLocked past device).mono (fun _ _ h => h) ?_ ?_
  · rintro _ _ ⟨answer, rfl, hnone⟩
    exact ⟨_, device.2.state, rfl, .inl hnone⟩
  rintro _ state ⟨answer, rfl, hloads⟩
  have hvalid : stateValid state geometry = true := by
    obtain ⟨-, blob, -, hdecode⟩ := hloads
    exact stateValid_of_decodeState hdecode
  rw [Fallible.safe_bind, ask, Fallible.safe_attempt]
  refine ⟨trivial, fun _ stored hstep => ?_⟩
  obtain rfl := boot_storeState hstep
  -- So far the record was read and stored.
  have hopened : ∀ own, ReadsFlash own → RecordLoads geometry device.1
      ([⟨.readBlob, answer⟩] ++ ([⟨.storeState state, ()⟩] ++ own)) state := by
    intro own hreads
    refine ⟨?_, hloads.2⟩
    simp only [List.mem_append, not_or]
    exact ⟨hloads.1, by simp, hreads.not_readBlob⟩
  have htrace : ∀ own : SlotsTrace, past ++ [⟨.readBlob, answer⟩] ++ [⟨.storeState state, ()⟩] ++ own =
      past ++ ([⟨.readBlob, answer⟩] ++ ([⟨.storeState state, ()⟩] ++ own)) := by
    simp
  rw [Program.safe_ret, Fallible.safe_bind, Fallible.safe_require]
  refine ⟨fun hmatches => ?_, fun hmatches => ?_⟩
  · rw [Fallible.safe_bind]
    refine (boot_checkReferences hplaced hvalid _ _).mono (fun _ _ h => h) ?_ ?_
    · rintro _ _ ⟨own, rfl, hown⟩
      obtain ⟨index, hpresent, hcause⟩ := hown.failure rfl
      exact ⟨_, state, by rw [htrace], .inr ⟨state, hopened own hown.reads, .inr ⟨index, hpresent,
        hcause.imp_left fun hfailed => readFailed_append.mpr (.inr (readFailed_append.mpr
          (.inr hfailed)))⟩⟩⟩
    · rintro _ _ ⟨own, rfl, hown⟩
      obtain ⟨hall, hbound⟩ := hown.success rfl
      refine ⟨_, by rw [htrace], hopened own hown.reads, hmatches, ?_, hbound⟩
      exact allRead_append.mpr ⟨by simp [AllRead], allRead_append.mpr ⟨by simp [AllRead], hall⟩⟩
  · have hnothing := htrace []
    rw [List.append_nil] at hnothing
    exact ⟨_, state, by rw [hnothing], .inr ⟨state, hopened [] (by simp [ReadsFlash]), .inl hmatches⟩⟩

/-- A slot in construction is none that a binding references. -/
theorem candidate_apart (hplaced : WellPlaced geometry) {state : State}
    (hvalid : stateValid state geometry = true) (hcomplete : state.phase.complete = true)
    (index : Fin bindingCount) (hpresent : (state.bindings index).packagePresent = true) :
    (geometry.slot state.operation.slot).endBytes ≤
        (geometry.slot (state.bindings index).slot).offsetBytes ∨
      (geometry.slot (state.bindings index).slot).endBytes ≤
        (geometry.slot state.operation.slot).offsetBytes := by
  have hphase : state.phase ≠ .idle := by
    intro hidle
    rw [hidle] at hcomplete
    cases hcomplete
  have hpending : state.phase.pending = true := by
    revert hcomplete
    cases state.phase <;> decide
  have hsound := operationSound_of_stateValid hvalid hphase
  exact hplaced.disjoint hsound.slot_lt (binding_fits hvalid index hpresent).1
    (hsound.unreferenced hpending index hpresent).symm

/-- The references stay valid while only the candidate is read. -/
theorem references_kept (hplaced : WellPlaced geometry) {state : State}
    (hvalid : stateValid state geometry = true) {flash : Flash} {first second : SlotsTrace}
    (hall : AllRead first) (hbound : BoundIntact sha256 geometry flash state)
    (hsecond : AllRead second ∨ state.phase.complete = true ∧
      ReadsIn (geometry.slot state.operation.slot) second) :
    ¬ ReferenceInvalid sha256 geometry flash state (first ++ second) := by
  rintro ⟨index, hpresent, hcause⟩
  rcases hcause with hfailed | hbroken
  · rcases readFailed_append.mp hfailed with hfailed | hfailed
    · exact hall.not_readFailed hfailed
    · rcases hsecond with hread | ⟨hcomplete, hin⟩
      · exact hread.not_readFailed hfailed
      · exact hin.not_readFailed (candidate_apart hplaced hvalid hcomplete index hpresent) hfailed
  · exact hbroken (hbound index hpresent)

/-- The decision, once the device may start. -/
theorem boot_decideBoot (hplaced : WellPlaced geometry) {state : State}
    (past own : SlotsTrace) {device : Device} {decision : BootDecision}
    (hloads : RecordLoads geometry device.1 own state)
    (hmatches : firmwareSetMatches state firmwareSet = true) (hall : AllRead own)
    (hbound : BoundIntact sha256 geometry device.1.2 state) :
    Fallible.Safe bootWorld.recorded anyBootCall
      (fun after error => ∃ whole outputs, after = (past ++ whole, device.1, outputs) ∧
        BootOutcome sha256 geometry firmwareSet device.1 whole outputs (.error error))
      (fun after value => ∃ whole outputs, after = (past ++ whole, device.1, outputs) ∧
        BootOutcome sha256 geometry firmwareSet device.1 whole outputs (.ok value))
      (decideBoot sha256 geometry state) (past ++ own, device.1, ⟨state, decision⟩) := by
  have hvalid : stateValid state geometry = true := by
    obtain ⟨-, blob, -, hdecode⟩ := hloads
    exact stateValid_of_decodeState hdecode
  have hstore : ∀ decision : BootDecision, Quiet [⟨.storeDecision decision, ()⟩] := by
    simp [Quiet, SlotsCall.readsFlash]
  have hloaded : ∀ reads, ReadsFlash reads → RecordLoads geometry device.1 (own ++ reads) state := by
    intro reads hreads
    refine ⟨?_, hloads.2⟩
    rw [List.mem_append, not_or]
    exact ⟨hloads.1, hreads.not_readBlob⟩
  rw [decideBoot, Fallible.safe_bind, Fallible.safe_attempt]
  refine Program.Safe.imp (boot_checkCandidate hplaced hvalid (past ++ own) _) fun _ result hresult => ?_
  cases result with
  | error code =>
      obtain ⟨reads, rfl, hcomplete, hhashed⟩ := hresult
      simp only [Fallible.safe_bind, ask, Fallible.safe_attempt]
      refine ⟨trivial, fun _ after hstep => ?_⟩
      obtain rfl := boot_storeDecision hstep
      have hinvalid : CandidateInvalid sha256 geometry device.1.2 state (own ++ reads) :=
        ⟨hcomplete, (hhashed.failure rfl).imp_left fun hfailed =>
          readFailed_append.mpr (.inr hfailed)⟩
      have houtcome : BootOutcome sha256 geometry firmwareSet device.1 (own ++ reads)
          ⟨state, .recoverConfirmedCandidateInvalid⟩ (.error code) :=
        .candidateInvalid (hloaded reads hhashed.reads) hmatches
          (references_kept hplaced hvalid hall hbound (.inr ⟨hcomplete, hhashed.readsIn⟩)) hinvalid
      exact ⟨own ++ reads ++ [⟨.storeDecision .recoverConfirmedCandidateInvalid, ()⟩], _,
        by simp only [List.append_assoc], houtcome.behind (hstore _)⟩
  | ok value =>
      obtain ⟨reads, rfl, hreads, hread, hcandidate⟩ := hresult
      simp only [ask, Fallible.safe_attempt]
      refine ⟨trivial, fun _ after hstep => ?_⟩
      obtain rfl := boot_storeDecision hstep
      have hvalidCandidate : ¬ CandidateInvalid sha256 geometry device.1.2 state (own ++ reads) := by
        rintro ⟨hcomplete, hcause⟩
        refine hcandidate ⟨hcomplete, hcause.imp_left fun hfailed => ?_⟩
        exact (readFailed_append.mp hfailed).resolve_left hall.not_readFailed
      have houtcome : BootOutcome sha256 geometry firmwareSet device.1 (own ++ reads)
          ⟨state, intactDecision state⟩ (.ok ()) :=
        .started (hloaded reads hreads) hmatches
          (references_kept hplaced hvalid hall hbound (.inl hread)) hvalidCandidate
      exact ⟨own ++ reads ++ [⟨.storeDecision (intactDecision state), ()⟩], _,
        by simp only [List.append_assoc, intactDecision], houtcome.behind (hstore _)⟩

/-- The locked part of `reconcile`. -/
theorem boot_reconcileLocked (hplaced : WellPlaced geometry) (past : SlotsTrace) {device : Device}
    (hblocked : device.2.decision = .bootBlocked) :
    Fallible.Safe bootWorld.recorded anyBootCall
      (fun after error => ∃ own outputs, after = (past ++ own, device.1, outputs) ∧
        BootOutcome sha256 geometry firmwareSet device.1 own outputs (.error error))
      (fun after value => ∃ own outputs, after = (past ++ own, device.1, outputs) ∧
        BootOutcome sha256 geometry firmwareSet device.1 own outputs (.ok value))
      (reconcileLocked sha256 geometry firmwareSet) (past, device) := by
  rw [reconcileLocked, Fallible.safe_bind, Fallible.safe_attempt]
  have hreferences := @boot_reconcileReferences sha256 geometry firmwareSet hplaced past device
  refine Program.Safe.imp hreferences fun _ result hresult => ?_
  cases result with
  | error code =>
      obtain ⟨own, state, rfl, hcause⟩ := hresult
      simp only [Fallible.safe_bind, ask, Fallible.safe_attempt]
      refine ⟨trivial, fun _ after hstep => ?_⟩
      obtain rfl := boot_storeState hstep
      have houtcome : BootOutcome sha256 geometry firmwareSet device.1 own
          ⟨State.zero, .bootBlocked⟩ (.error code) := by
        rcases hcause with hnone | ⟨state, hloads, hcause⟩
        · exact .noRecord hnone
        · exact .blocked hloads hcause
      exact ⟨own ++ [⟨.storeState State.zero, ()⟩], _, by simp only [List.append_assoc, hblocked],
        houtcome.behind (by simp [Quiet, SlotsCall.readsFlash])⟩
  | ok state =>
      obtain ⟨own, rfl, hloads, hmatches, hall, hbound⟩ := hresult
      exact boot_decideBoot hplaced past own hloads hmatches hall hbound

/-- `reconcile`, once it has got the lock. -/
theorem boot_reconcile (hvalid : geometryValid geometry = true)
    (hset : firmwareSetValid firmwareSet = true) (device : Device) :
    (reconcile sha256 true geometry (some firmwareSet) true true).Safe bootWorld.recorded anyBootCall
      (fun after reply => after.2.1 = device.1 ∧
        BootOutcome sha256 geometry firmwareSet device.1 after.1 after.2.2 reply)
      ([], device) := by
  have hplaced := wellPlaced_of_geometryValid hvalid
  rw [reconcile, Program.safe_bind]
  refine ⟨trivial, fun _ blocked hstep => ?_⟩
  obtain rfl := boot_storeDecision hstep
  rw [Program.safe_ret, Program.safe_bind]
  refine ⟨trivial, fun _ cleared hstep => ?_⟩
  obtain rfl := boot_storeState hstep
  simp only [hvalid, hset, Bool.not_true, Bool.or_self, Bool.false_eq_true, if_false,
    Program.safe_ret, withLock, Program.safe_bind]
  refine ⟨trivial, fun locked opened hstep => ?_⟩
  obtain rfl : locked = true := (boot_step hstep).2.2
  obtain rfl := boot_still (by simp) rfl (by simp) (by simp) hstep
  simp only [if_true, Program.safe_ret, Program.safe_bind]
  refine Program.Safe.imp (boot_reconcileLocked hplaced _ rfl) fun _ result hresult =>
    ⟨trivial, fun _ after hstep => ?_⟩
  have hopening : Quiet [⟨.storeDecision .bootBlocked, ()⟩, ⟨.storeState State.zero, ()⟩,
      ⟨.lock, true⟩] := by
    simp [Quiet, SlotsCall.readsFlash]
  have hclosing : Quiet [⟨.unlock, ()⟩] := by simp [Quiet, SlotsCall.readsFlash]
  have hfinish : ∀ own outputs, BootOutcome sha256 geometry firmwareSet device.1 own outputs result →
      bootWorld.recorded.Step ([⟨.storeDecision .bootBlocked, ()⟩] ++ [⟨.storeState State.zero, ()⟩] ++
        [⟨.lock, true⟩] ++ own, device.1, outputs) .unlock () after →
      after.2.1 = device.1 ∧
        BootOutcome sha256 geometry firmwareSet device.1 after.1 after.2.2 result := by
    intro own outputs houtcome hunlock
    obtain rfl := boot_still (by simp) rfl (by simp) (by simp) hunlock
    exact ⟨rfl, houtcome.around hopening hclosing⟩
  cases result with
  | error code =>
      obtain ⟨own, outputs, rfl, houtcome⟩ := hresult
      exact hfinish own outputs houtcome hstep
  | ok value =>
      obtain ⟨own, outputs, rfl, houtcome⟩ := hresult
      exact hfinish own outputs houtcome hstep

/-! ## The decision -/

/-- Two valid sets with the same members count the same. -/
theorem bootableCount_eq {other : FirmwareSet} (hset : firmwareSetValid firmwareSet = true)
    (hother : firmwareSetValid other = true) (hmembers : other.members = firmwareSet.members) :
    other.bootableCount = firmwareSet.bootableCount := by
  have htwo {first second : FirmwareSet} (hfirst : first.bootableCount = 1)
      (hsecond : second.bootableCount = 2)
      (hdistinct : second.bootableFirmwareSha256 1 ≠ second.bootableFirmwareSha256 0) :
      first.members ≠ second.members := by
    intro hsame
    have honly : ∀ digest ∈ first.members, digest = first.bootableFirmwareSha256 0 := by
      rintro digest ⟨index, hindex, rfl⟩
      rw [hfirst, Nat.lt_one_iff] at hindex
      rw [show index = 0 from Fin.ext hindex]
    have hzero : second.bootableFirmwareSha256 0 ∈ first.members :=
      hsame ▸ ⟨0, by rw [hsecond]; decide, rfl⟩
    have hone : second.bootableFirmwareSha256 1 ∈ first.members :=
      hsame ▸ ⟨1, by rw [hsecond]; decide, rfl⟩
    exact hdistinct ((honly _ hone).trans (honly _ hzero).symm)
  rcases FirmwareSet.count_of_valid hset with hcount | ⟨hcount, hdistinct⟩ <;>
    rcases FirmwareSet.count_of_valid hother with hcount' | ⟨hcount', hdistinct'⟩
  · rw [hcount, hcount']
  · exact absurd hmembers.symm (htwo hcount hcount' hdistinct')
  · exact absurd hmembers (htwo hcount' hcount hdistinct)
  · rw [hcount, hcount']

/-- Matching depends on the members of a set alone. -/
theorem firmwareSetMatches_congr {other : FirmwareSet} (hset : firmwareSetValid firmwareSet = true)
    (hother : firmwareSetValid other = true) (hmembers : other.members = firmwareSet.members)
    (state : State) : firmwareSetMatches state other = firmwareSetMatches state firmwareSet := by
  have hlisted (digest : Sha256) :
      (∃ member : Fin bindingCount, member.val < other.bootableCount ∧
        digest = other.bootableFirmwareSha256 member) ↔
      ∃ member : Fin bindingCount, member.val < firmwareSet.bootableCount ∧
        digest = firmwareSet.bootableFirmwareSha256 member := by
    have hmem : digest ∈ other.members ↔ digest ∈ firmwareSet.members := by rw [hmembers]
    simpa only [FirmwareSet.members, Set.mem_ofPred_eq, eq_comm] using hmem
  simp only [firmwareSetMatches, hlisted]
  rw [bootableCount_eq hset hother hmembers]

/-- A valid set matches a valid record exactly if it has its firmware. -/
theorem firmwareSetMatches_iff {state : State} (hvalid : stateValid state geometry = true)
    (hset : firmwareSetValid firmwareSet = true) :
    firmwareSetMatches state firmwareSet = true ↔ firmwareSet.members = state.firmware := by
  refine ⟨fun hmatches => ?_, firmwareSetMatches_of_members_eq hvalid hset⟩
  simp only [firmwareSetMatches, Bool.and_eq_true, decide_eq_true_eq, beq_iff_eq,
    state.present_count] at hmatches
  obtain ⟨hlisted, hpresent⟩ := hmatches
  have hdistinct : (state.bindings 0).present = true → (state.bindings 1).present = true →
      (state.bindings 0).firmwareSha256 ≠ (state.bindings 1).firmwareSha256 := by
    unfold stateValid at hvalid
    grind
  have hfirst := hlisted 0
  have hsecond := hlisted 1
  have hval : (0 : Fin bindingCount).val = 0 ∧ (1 : Fin bindingCount).val = 1 := ⟨rfl, rfl⟩
  ext digest
  simp only [FirmwareSet.members, State.firmware, Set.mem_ofPred_eq, Fin.exists_fin_two]
  simp only [Fin.exists_fin_two] at hfirst hsecond
  -- Both sides list distinct digests, so with one or two of them they list the same.
  rcases FirmwareSet.count_of_valid hset with hcount | ⟨hcount, hne⟩ <;>
  · simp only [hcount, hval.1, hval.2] at hfirst hsecond hpresent ⊢
    grind

/-- `reconcile` takes the lock only behind its checks. -/
theorem checked_of_locked {io hasState hasDecision : Bool} {firmwareSet : Option FirmwareSet}
    {σ : Type} {W : World SlotsPort σ} {before after : σ} {trace : SlotsTrace}
    {residual : Program SlotsPort Reply}
    (hexec : Exec W (reconcile sha256 io geometry firmwareSet hasState hasDecision) before trace
      residual after) (hlocked : (⟨.lock, true⟩ : SlotsEvent) ∈ trace) :
    io = true ∧ geometryValid geometry = true ∧ hasState = true ∧ hasDecision = true ∧
      ∃ members, firmwareSet = some members ∧ firmwareSetValid members = true := by
  by_contra hunchecked
  have hrefused : (reconcile sha256 io geometry firmwareSet hasState hasDecision).Uses
      (· ≠ SlotsCall.lock) := by
    have hclear : (clearDecision hasDecision).Uses (· ≠ SlotsCall.lock) ∧
        (clearState hasState).Uses (· ≠ SlotsCall.lock) := by
      unfold clearDecision clearState
      constructor <;> split <;> first | exact Program.uses_call (by simp) | trivial
    refine hclear.1.bind fun _ => hclear.2.bind fun _ => ?_
    cases firmwareSet with
    | none => trivial
    | some members =>
        simp only
        split
        · trivial
        · next hchecks =>
          simp only [Bool.or_eq_true, Bool.not_eq_true', not_or, Bool.not_eq_false] at hchecks
          obtain ⟨⟨⟨⟨hio, hgeometry⟩, hset⟩, hstate⟩, hdecision⟩ := hchecks
          exact absurd ⟨hio, hgeometry, hstate, hdecision, members, rfl, hset⟩ hunchecked
  obtain ⟨past, future, rfl⟩ := List.append_of_mem hlocked
  exact hrefused.safe.promise_of_mem hexec rfl

/-- A phase is pending or one of the three that start the confirmed package. -/
theorem intactDecision_eq_bootConfirmed {state : State} :
    intactDecision state = .bootConfirmed ↔
      state.phase = .idle ∨ state.phase = .confirmed ∨ state.phase = .aborted := by
  rw [← Phase.pending_eq_false_iff, intactDecision]
  cases state.phase.pending <;> simp

theorem intactDecision_eq_recoverConfirmed {state : State} :
    intactDecision state = .recoverConfirmed ↔
      ¬ (state.phase = .idle ∨ state.phase = .confirmed ∨ state.phase = .aborted) := by
  rw [← Phase.pending_eq_false_iff, intactDecision]
  cases state.phase.pending <;> simp

/-- What is loaded is one state. -/
theorem RecordLoads.unique {stored : Option Blob × Flash} {trace : SlotsTrace} {first second : State}
    (hfirst : RecordLoads geometry stored trace first)
    (hsecond : RecordLoads geometry stored trace second) : first = second := by
  obtain ⟨-, blob, hblob, hdecode⟩ := hfirst
  obtain ⟨-, blob', hblob', hdecode'⟩ := hsecond
  obtain rfl := Option.some.inj (hblob.symm.trans hblob')
  exact Option.some.inj (hdecode.symm.trans hdecode')

theorem RecordLoads.valid {stored : Option Blob × Flash} {trace : SlotsTrace} {state : State}
    (hloads : RecordLoads geometry stored trace state) : stateValid state geometry = true := by
  obtain ⟨-, blob, -, hdecode⟩ := hloads
  exact stateValid_of_decodeState hdecode

/-- When a boot is blocked. -/
theorem BootOutcome.blocked_iff {stored : Option Blob × Flash} {trace : SlotsTrace}
    {outputs : Outputs} {reply : Reply} (hset : firmwareSetValid firmwareSet = true)
    (houtcome : BootOutcome sha256 geometry firmwareSet stored trace outputs reply) :
    outputs.decision = .bootBlocked ↔
      (∀ state, ¬ RecordLoads geometry stored trace state) ∨
      ∃ state, RecordLoads geometry stored trace state ∧
        (firmwareSet.members ≠ state.firmware ∨
          ReferenceInvalid sha256 geometry stored.2 state trace) := by
  have hstarts {state : State} (hloads : RecordLoads geometry stored trace state)
      (hmatches : firmwareSetMatches state firmwareSet = true)
      (hreferences : ¬ ReferenceInvalid sha256 geometry stored.2 state trace) :
      ¬ ((∀ state, ¬ RecordLoads geometry stored trace state) ∨
        ∃ state, RecordLoads geometry stored trace state ∧
          (firmwareSet.members ≠ state.firmware ∨
            ReferenceInvalid sha256 geometry stored.2 state trace)) := by
    rintro (hnone | ⟨other, hother, hcause⟩)
    · exact hnone state hloads
    · obtain rfl := hother.unique hloads
      rcases hcause with hdiffers | hinvalid
      · exact hdiffers ((firmwareSetMatches_iff hloads.valid hset).mp hmatches)
      · exact hreferences hinvalid
  cases houtcome with
  | noRecord hnone => exact iff_of_true rfl (.inl hnone)
  | blocked hloads hcause =>
      refine iff_of_true rfl (.inr ⟨_, hloads, hcause.imp_left fun hdiffers hsame => ?_⟩)
      rw [(firmwareSetMatches_iff hloads.valid hset).mpr hsame] at hdiffers
      cases hdiffers
  | candidateInvalid hloads hmatches hreferences hcandidate =>
      exact iff_of_false (by simp) (hstarts hloads hmatches hreferences)
  | @started state hloads hmatches hreferences hcandidate =>
      refine iff_of_false ?_ (hstarts hloads hmatches hreferences)
      simp only [intactDecision]
      split <;> decide

/-- What a blocked boot leaves in the state output. -/
theorem BootOutcome.state_of_blocked {stored : Option Blob × Flash} {trace : SlotsTrace}
    {outputs : Outputs} {reply : Reply}
    (houtcome : BootOutcome sha256 geometry firmwareSet stored trace outputs reply)
    (hblocked : outputs.decision = .bootBlocked) : outputs.state = State.zero := by
  cases houtcome with
  | noRecord hnone => rfl
  | blocked hloads hcause => rfl
  | candidateInvalid hloads hmatches hreferences hcandidate => cases hblocked
  | @started state hloads hmatches hreferences hcandidate =>
      simp only [intactDecision] at hblocked
      split at hblocked <;> cases hblocked

/-- What a boot that is not blocked decides. -/
theorem BootOutcome.started_iff {stored : Option Blob × Flash} {trace : SlotsTrace}
    {outputs : Outputs} {reply : Reply}
    (houtcome : BootOutcome sha256 geometry firmwareSet stored trace outputs reply)
    (hstarted : outputs.decision ≠ .bootBlocked) :
    ∃ state, RecordLoads geometry stored trace state ∧ outputs.state = state ∧
      (outputs.decision = .bootConfirmed ↔
        state.phase = .idle ∨ state.phase = .confirmed ∨ state.phase = .aborted) ∧
      (outputs.decision = .recoverConfirmedCandidateInvalid ↔
        CandidateInvalid sha256 geometry stored.2 state trace) ∧
      (outputs.decision = .recoverConfirmed ↔
        ¬ (state.phase = .idle ∨ state.phase = .confirmed ∨ state.phase = .aborted) ∧
          ¬ CandidateInvalid sha256 geometry stored.2 state trace) ∧
      (outputs.decision = .recoverConfirmedCandidateInvalid → reply ≠ .ok ()) := by
  cases houtcome with
  | noRecord hnone => exact absurd rfl hstarted
  | blocked hloads hcause => exact absurd rfl hstarted
  | @candidateInvalid state error hloads hmatches hreferences hcandidate =>
      have hphase : ¬ (state.phase = .idle ∨ state.phase = .confirmed ∨ state.phase = .aborted) := by
        obtain ⟨hcomplete, -⟩ := hcandidate
        revert hcomplete
        cases state.phase <;> decide
      exact ⟨state, hloads, rfl, iff_of_false (by simp) hphase, iff_of_true rfl hcandidate,
        iff_of_false (by simp) (fun h => h.2 hcandidate), by simp⟩
  | @started state hloads hmatches hreferences hcandidate =>
      have hvalid : intactDecision state ≠ .recoverConfirmedCandidateInvalid := by
        simp only [intactDecision]
        split <;> decide
      exact ⟨state, hloads, rfl, intactDecision_eq_bootConfirmed, iff_of_false hvalid hcandidate,
        intactDecision_eq_recoverConfirmed.trans (and_iff_left hcandidate).symm,
        fun hinvalid => absurd hinvalid hvalid⟩

/-- Boot reconciliation decides exactly from the record, the firmware set and the flash, with
reads that may fail at any time. Nothing is written or erased; the boot is blocked exactly if
there is no record to load, the firmware differs or a referenced package is unreadable or not
the recorded one; and a set with the same members decides the same. -/
theorem boot_decision (sha256 : List UInt8 → Sha256) (geometry : Geometry)
    (io hasState hasDecision : Bool) (firmwareSet : Option FirmwareSet) (device device' : Device)
    (trace : SlotsTrace) (reply : Reply)
    (hexec : Exec bootWorld (reconcile sha256 io geometry firmwareSet hasState hasDecision) device
      trace (.ret reply) device') (hlocked : (⟨.lock, true⟩ : SlotsEvent) ∈ trace) :
    ∃ members, firmwareSet = some members ∧
      (∀ event ∈ trace, event.1.target = none ∧ ∀ blob, event.1 ≠ .writeBlob blob) ∧
      device'.1 = device.1 ∧
      (device'.2.decision = .bootBlocked ↔
        (∀ state, ¬ RecordLoads geometry device.1 trace state) ∨
        ∃ state, RecordLoads geometry device.1 trace state ∧
          (members.members ≠ state.firmware ∨
            ReferenceInvalid sha256 geometry device.1.2 state trace)) ∧
      (device'.2.decision = .bootBlocked → device'.2.state = State.zero) ∧
      (device'.2.decision ≠ .bootBlocked →
        ∃ state, RecordLoads geometry device.1 trace state ∧ device'.2.state = state ∧
          (device'.2.decision = .bootConfirmed ↔
            state.phase = .idle ∨ state.phase = .confirmed ∨ state.phase = .aborted) ∧
          (device'.2.decision = .recoverConfirmedCandidateInvalid ↔
            CandidateInvalid sha256 geometry device.1.2 state trace) ∧
          (device'.2.decision = .recoverConfirmed ↔
            ¬ (state.phase = .idle ∨ state.phase = .confirmed ∨ state.phase = .aborted) ∧
              ¬ CandidateInvalid sha256 geometry device.1.2 state trace) ∧
          (device'.2.decision = .recoverConfirmedCandidateInvalid → reply ≠ .ok ())) ∧
      ∀ other, firmwareSetValid other = true → other.members = members.members →
        reconcile sha256 io geometry (some other) hasState hasDecision =
          reconcile sha256 io geometry firmwareSet hasState hasDecision := by
  obtain ⟨rfl, hgeometry, rfl, rfl, members, rfl, hset⟩ := checked_of_locked hexec hlocked
  obtain ⟨hkept, houtcome⟩ := (boot_reconcile hgeometry hset device).post_of_exec
    (hexec.toRecorded [])
  rw [List.nil_append] at houtcome
  refine ⟨members, rfl, ?_, hkept, houtcome.blocked_iff hset, houtcome.state_of_blocked,
    houtcome.started_iff, ?_⟩
  · intro event hevent
    obtain ⟨past, future, rfl⟩ := List.append_of_mem hevent
    exact (uses_reconcile true (some members) true true).safe.promise_of_mem hexec
  · intro other hother hmembers
    have hsame : ∀ state, firmwareSetMatches state other = firmwareSetMatches state members :=
      firmwareSetMatches_congr hset hother hmembers
    simp only [reconcile, reconcileLocked, reconcileReferences, hset, hother, hsame]

/-- A working device grants what a boot needs. -/
theorem workingDevice_granted (device : Device) (request : SlotsCall) :
    Granted ⟨request, (workingDevice device request).1⟩ := by
  cases request <;> trivial

/-- A device without a record is not started. -/
theorem boot_decision_sampleFirmwareSet :
    ∃ trace reply device',
      Exec bootWorld
        (reconcile (fun _ => sampleDigest) true sampleGeometry (some sampleFirmwareSet) true true)
        (sampleDevice none) trace (.ret reply) device' ∧
      ⟨.lock, true⟩ ∈ trace ∧ device'.2.decision = .bootBlocked := by
  have hexec := (Exec.of_device workingDevice_step
    (reconcile (fun _ => sampleDigest) true sampleGeometry (some sampleFirmwareSet) true true)
    (sampleDevice none)).restrict (Program.events_execute workingDevice_granted _ _)
  have hlocked : (⟨.lock, true⟩ : SlotsEvent) ∈
      (Program.execute workingDevice (reconcile (fun _ => sampleDigest) true sampleGeometry
        (some sampleFirmwareSet) true true) (sampleDevice none)).1 :=
    .tail _ (.tail _ (.head _))
  obtain ⟨members, -, -, -, hblocked, -⟩ :=
    boot_decision _ _ true true true _ _ _ _ _ hexec hlocked
  refine ⟨_, _, _, hexec, hlocked, hblocked.mpr (.inl ?_)⟩
  rintro state ⟨-, blob, hblob, -⟩
  cases hblob

end Slots
