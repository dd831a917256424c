/-
# Programming a candidate

`write_and_prepare` erases the slot of its candidate, programs the source chunk by
chunk and reads it back. Every write it asks for begins and ends at write units of the
slot, the writes follow each other without a gap, and together they carry the source
and nothing else but the `0xff` that fills its last write unit.

On a flash that erases to `0xff` and stores what is written to erased bytes, the
read-back is therefore over the source itself, and the validator is entered exactly if
the source is the recorded package.
-/

import EspContainer.Binary.Nor
import EspContainer.Slots.Progress

namespace Slots

open Binary Interaction Package
open Fallible (attempt require chunked)

variable {sha256 : List UInt8 → Sha256} {geometry : Geometry}

/-! ## The writes of a run -/

/-- What a call programs. -/
def SlotsCall.write? : SlotsCall → Option Write
  | .flashWrite offset bytes => some ⟨offset, bytes⟩
  | _ => none

/-- The writes a trace asks for, in order. -/
def flashWrites (trace : SlotsTrace) : List Write :=
  trace.filterMap fun event => event.1.write?

@[simp]
theorem flashWrites_nil : flashWrites [] = [] := rfl

@[simp]
theorem flashWrites_append (first second : SlotsTrace) :
    flashWrites (first ++ second) = flashWrites first ++ flashWrites second :=
  List.filterMap_append

theorem flashWrites_flashWrite (offset : Nat) (bytes : List UInt8) (answer : Bool) :
    flashWrites [⟨.flashWrite offset bytes, answer⟩] = [⟨offset, bytes⟩] := rfl

theorem flashWrites_eq_nil {trace : SlotsTrace} (hnone : ∀ event ∈ trace, event.1.write? = none) :
    flashWrites trace = [] :=
  List.filterMap_eq_nil_iff.mpr hnone

/-- What a call that programs nothing adds. -/
theorem flashWrites_concat {past : SlotsTrace} {event : SlotsEvent} (hnone : event.1.write? = none) :
    flashWrites (past ++ [event]) = flashWrites past := by
  have hnothing : flashWrites [event] = [] := flashWrites_eq_nil (by simpa using hnone)
  rw [flashWrites_append, hnothing, List.append_nil]

/-- A call that programs nothing. -/
def WritesNothing (call : SlotsCall) : Prop := call.write? = none

theorem writesNothing_of_target {call : SlotsCall} (htarget : call.target = none) :
    WritesNothing call := by
  cases call with
  | flashWrite offset bytes => cases htarget
  | _ => rfl

/-- A call before the validator: it programs nothing and does not enter it. -/
def BeforeValidator (call : SlotsCall) : Prop :=
  WritesNothing call ∧ ∀ operation size, call ≠ .validateEnter operation size

theorem beforeValidator_of_readsFlash {call : SlotsCall} (hreads : call.readsFlash = true) :
    BeforeValidator call := by
  refine ⟨writesNothing_of_target (SlotsCall.target_of_readsFlash hreads), ?_⟩
  rintro operation size rfl
  cases hreads

/-- A program without writes leaves the writes as they are. -/
theorem safe_of_writesNothing {σ α : Type} {W : World SlotsPort σ} {program : Program SlotsPort α}
    (huses : program.Uses WritesNothing) {writes : List Write} {state : SlotsTrace × σ}
    (hwrites : flashWrites state.1 = writes) :
    program.Safe W.recorded (fun after _ => flashWrites after.1 = writes)
      (fun after _ => flashWrites after.1 = writes) state := by
  induction program generalizing state with
  | ret value => exact hwrites
  | ask request resume ih =>
      refine ⟨hwrites, fun answer after hstep => ih answer (huses.2 answer) ?_⟩
      have hkept : flashWrites (state.1 ++ [⟨request, answer⟩]) = flashWrites state.1 :=
        flashWrites_concat huses.1
      rw [hstep.1, hkept, hwrites]

/-- A part of an operation without writes leaves the writes as they are. -/
theorem safe_run_of_writesNothing {σ α : Type} {W : World SlotsPort σ} {program : Locked α}
    (huses : program.run.Uses WritesNothing) {writes : List Write} {state : SlotsTrace × σ}
    (hwrites : flashWrites state.1 = writes) :
    Fallible.Safe W.recorded (fun after _ => flashWrites after.1 = writes)
      (fun after _ => flashWrites after.1 = writes) (fun after _ => flashWrites after.1 = writes)
      program state :=
  (safe_of_writesNothing huses hwrites).imp fun _ outcome hafter => by
    cases outcome <;> exact hafter

/-- A source that delivers what it is asked for, given the byte at each of its offsets. -/
def Delivers (source : Nat → UInt8) : SlotsEvent → Prop
  | ⟨.source offset size, answer⟩ => ∃ bytes : Bytes size,
      answer = ReadAnswer.ok bytes ∧ bytes.toList = Flash.bytes source offset size
  | _ => True

/-- The writes program the first `count` bytes of the source into the slot of an operation. -/
structure ExactWrites (geometry : Geometry) (operation : Operation) (source : Nat → UInt8)
    (count : Nat) (writes : List Write) : Prop where
  /-- Every write covers whole write units of the slot, and not too many. -/
  placed : ∀ write ∈ writes, geometry.writeUnitBytes ∣ write.address ∧ 0 < write.bytes.length ∧
    geometry.writeUnitBytes ∣ write.bytes.length ∧ write.bytes.length ≤ slotIoBytes ∧
    (geometry.slot operation.slot).offsetBytes ≤ write.address ∧
    write.endAddress ≤ (geometry.slot operation.slot).endBytes ∧ write.endAddress ≤ uint32Max
  /-- No two writes share a byte. -/
  apart : writes.Pairwise fun first second => first.endAddress ≤ second.address
  /-- They fill the slot from its beginning on, without a gap. -/
  contiguous : Write.Contiguous (geometry.slot operation.slot).offsetBytes writes
  /-- They carry the source, filled up to the next write unit. -/
  carried : ∃ padding, padding < geometry.writeUnitBytes ∧
    geometry.writeUnitBytes ∣ count + padding ∧
    Write.carried writes = Flash.bytes source 0 count ++ List.replicate padding 0xff

/-! ## What the chunk loop keeps -/

/-- The state of the write loop once `count` bytes are programmed. -/
structure Programmed (geometry : Geometry) (operation : Operation) (source : Nat → UInt8)
    (count : Nat) (writes : List Write) : Prop where
  count_le : count ≤ operation.packageSizeBytes.toNat
  boundary : slotIoBytes ∣ count ∨ operation.packageSizeBytes.toNat ≤ count
  units : ∀ write ∈ writes, 0 < write.bytes.length ∧ geometry.writeUnitBytes ∣ write.bytes.length ∧
    write.bytes.length ≤ slotIoBytes
  contiguous : Write.Contiguous (geometry.slot operation.slot).offsetBytes writes
  carried : ∃ padding, padding < geometry.writeUnitBytes ∧
    geometry.writeUnitBytes ∣ count + padding ∧
    Write.carried writes = Flash.bytes source 0 count ++ List.replicate padding 0xff

/-- A valid geometry places every slot at a write unit. -/
theorem writeUnit_dvd_offset (hvalid : geometryValid geometry = true) {slot : UInt8}
    (hslot : slot.toNat < slotCount) :
    geometry.writeUnitBytes ∣ (geometry.slot slot).offsetBytes := by
  have hplaced := wellPlaced_of_geometryValid hvalid
  simp only [geometryValid, Bool.if_false_left, Bool.and_eq_true, decide_eq_true_eq] at hvalid
  rw [Geometry.slot_eq hslot]
  exact hplaced.writeUnit_dvd_eraseUnit.trans (Nat.dvd_of_mod_eq_zero (hvalid.2 _).2.2.1)

/-- A padded chunk consists of whole write units. -/
theorem writeUnit_dvd_aligned (actual : Nat) :
    geometry.writeUnitBytes ∣ alignedBytes geometry actual :=
  Nat.dvd_mul_left _ _

namespace WellPlaced

/-- A chunk is padded by less than a write unit. -/
theorem aligned_lt (hplaced : WellPlaced geometry) (actual : Nat) :
    alignedBytes geometry actual < actual + geometry.writeUnitBytes := by
  have hpos := hplaced.writeUnit_pos
  have hle := Nat.div_mul_le_self (actual + geometry.writeUnitBytes - 1) geometry.writeUnitBytes
  rw [alignedBytes]
  omega

/-- A padded chunk of at most a buffer fits into the buffer. -/
theorem aligned_le_buffer (hplaced : WellPlaced geometry) {actual : Nat}
    (hactual : actual ≤ slotIoBytes) : alignedBytes geometry actual ≤ slotIoBytes := by
  have hlt := hplaced.aligned_lt actual
  exact Nat.le_of_lt_add_of_dvd (by omega) (writeUnit_dvd_aligned actual)
    hplaced.writeUnit_dvd_buffer

end WellPlaced

namespace Programmed

variable {operation : Operation} {source : Nat → UInt8} {count : Nat} {writes : List Write}

/-- Nothing is programmed at first. -/
theorem nil (hplaced : WellPlaced geometry) : Programmed geometry operation source 0 [] where
  count_le := Nat.zero_le _
  boundary := .inl (Nat.dvd_zero _)
  units := by simp
  contiguous := trivial
  carried := ⟨0, hplaced.writeUnit_pos, Nat.dvd_zero _, rfl⟩

/-- Before the end of the package nothing is padded. -/
theorem unpadded (hprogrammed : Programmed geometry operation source count writes)
    (hplaced : WellPlaced geometry) (hlt : count < operation.packageSizeBytes.toNat) :
    geometry.writeUnitBytes ∣ count ∧ Write.carried writes = Flash.bytes source 0 count := by
  have hboundary := hprogrammed.boundary.resolve_right (by omega)
  have hdvd : geometry.writeUnitBytes ∣ count := hplaced.writeUnit_dvd_buffer.trans hboundary
  obtain ⟨padding, hless, hunits, hcarried⟩ := hprogrammed.carried
  have hnothing : padding = 0 :=
    Nat.eq_zero_of_dvd_of_lt ((Nat.dvd_add_right hdvd).mp hunits) hless
  rw [hnothing, List.replicate_zero, List.append_nil] at hcarried
  exact ⟨hdvd, hcarried⟩

/-- One chunk. -/
theorem concat (hprogrammed : Programmed geometry operation source count writes)
    (hplaced : WellPlaced geometry) (hlt : count < operation.packageSizeBytes.toNat) {actual : Nat}
    (hactual : actual = min slotIoBytes (operation.packageSizeBytes.toNat - count)) :
    Programmed geometry operation source (count + actual)
      (writes ++ [⟨(geometry.slot operation.slot).offsetBytes + count,
        Flash.bytes source count actual ++
          List.replicate (alignedBytes geometry actual - actual) 0xff⟩]) := by
  obtain ⟨hdvd, hcarried⟩ := hprogrammed.unpadded hplaced hlt
  have hboundary := hprogrammed.boundary.resolve_right (by omega)
  have hbuffer : 0 < slotIoBytes := by decide
  have hle := hplaced.le_aligned actual
  have hless := hplaced.aligned_lt actual
  have hfits := hplaced.aligned_le_buffer (show actual ≤ slotIoBytes by omega)
  have hlength : actual + (alignedBytes geometry actual - actual) = alignedBytes geometry actual := by
    omega
  constructor
  · omega
  · by_cases hlast : slotIoBytes ≤ operation.packageSizeBytes.toNat - count
    · rw [hactual, min_eq_left hlast]
      exact .inl (Nat.dvd_add hboundary (Nat.dvd_refl _))
    · exact .inr (by omega)
  · intro write hwrite
    rcases List.mem_append.mp hwrite with hwrite | hwrite
    · exact hprogrammed.units write hwrite
    · obtain rfl := List.mem_singleton.mp hwrite
      simp only [List.length_append, Flash.length_bytes, List.length_replicate, hlength]
      exact ⟨by omega, writeUnit_dvd_aligned actual, hfits⟩
  · rw [Write.contiguous_append]
    refine ⟨hprogrammed.contiguous, ?_, trivial⟩
    rw [hcarried, Flash.length_bytes]
  · refine ⟨alignedBytes geometry actual - actual, by omega, ?_, ?_⟩
    · rw [Nat.add_assoc, hlength]
      exact Nat.dvd_add hdvd (writeUnit_dvd_aligned actual)
    · have hsource := Flash.bytes_add source 0 count actual
      rw [Nat.zero_add] at hsource
      rw [Write.carried_append, Write.carried_cons, Write.carried_nil, List.append_nil, hcarried,
        hsource, List.append_assoc]

/-- What is programmed fits into the slot. -/
theorem length_le (hprogrammed : Programmed geometry operation source count writes)
    (hplaced : WellPlaced geometry) (hslot : operation.slot.toNat < slotCount)
    (hfits : operation.packageSizeBytes.toNat ≤ (geometry.slot operation.slot).sizeBytes) :
    (Write.carried writes).length ≤ (geometry.slot operation.slot).sizeBytes := by
  obtain ⟨padding, hless, hunits, hcarried⟩ := hprogrammed.carried
  have hcount := hprogrammed.count_le
  have hsize : geometry.writeUnitBytes ∣ (geometry.slot operation.slot).sizeBytes := by
    rw [Geometry.slot_eq hslot]
    exact hplaced.writeUnit_dvd_eraseUnit.trans (hplaced.eraseUnit_dvd_size _)
  rw [hcarried, List.length_append, Flash.length_bytes, List.length_replicate]
  exact Nat.le_of_lt_add_of_dvd (by omega) hunits hsize

/-- What the loop has written is exact. -/
theorem exact (hprogrammed : Programmed geometry operation source count writes)
    (hvalid : geometryValid geometry = true) (hslot : operation.slot.toNat < slotCount)
    (hfits : operation.packageSizeBytes.toNat ≤ (geometry.slot operation.slot).sizeBytes) :
    ExactWrites geometry operation source count writes := by
  have hplaced := wellPlaced_of_geometryValid hvalid
  have hend := hplaced.slot_endBytes hslot
  have hoffset := writeUnit_dvd_offset hvalid hslot
  have hinside := hprogrammed.length_le hplaced hslot hfits
  refine ⟨fun write hwrite => ?_, hprogrammed.contiguous.pairwise, hprogrammed.contiguous,
    hprogrammed.carried⟩
  obtain ⟨hpositive, hunits, hlength⟩ := hprogrammed.units write hwrite
  obtain ⟨hlower, hupper⟩ := hprogrammed.contiguous.bounds hwrite
  have haddress := hprogrammed.contiguous.dvd hoffset
    (fun write hwrite => (hprogrammed.units write hwrite).2.1) hwrite
  have hslotEnd : write.endAddress ≤ (geometry.slot operation.slot).endBytes := by
    rw [Region.endBytes]
    omega
  exact ⟨haddress, hpositive, hunits, hlength, hlower, hslotEnd, hslotEnd.trans hend⟩

end Programmed

/-! ## The write loop -/

/-- The calls of the write loop. -/
def SlotsCall.programs : SlotsCall → Bool
  | .source _ _ => true
  | .flashWrite _ _ => true
  | _ => false

/-- The writes of a trace are exact as far as they go. -/
def Programming (geometry : Geometry) (operation : Operation) (source : Nat → UInt8)
    (trace : SlotsTrace) : Prop :=
  ∃ count, Programmed geometry operation source count (flashWrites trace)

section

variable {σ : Type} {W : World SlotsPort σ} {source : Nat → UInt8} {operation : Operation}

/-- One round of the write loop. -/
theorem safe_programChunk (hdelivers : ∀ before request answer after,
      W.Step before request answer after → Delivers source ⟨request, answer⟩)
    (hplaced : WellPlaced geometry) (hslot : operation.slot.toNat < slotCount)
    (hfits : operation.packageSizeBytes.toNat ≤ (geometry.slot operation.slot).sizeBytes)
    {count actual : Nat} (hlt : count < operation.packageSizeBytes.toNat)
    (hactual : actual = min slotIoBytes (operation.packageSizeBytes.toNat - count))
    {past : SlotsTrace} {state : σ}
    (hprogrammed : Programmed geometry operation source count (flashWrites past)) :
    Fallible.Safe W.recorded (fun after _ => Programming geometry operation source after.1)
      (fun after _ => Programming geometry operation source after.1)
      (fun after _ =>
        Programmed geometry operation source (count + actual) (flashWrites after.1) ∧
        ∃ own, after.1 = past ++ own ∧ ∀ event ∈ own, event.1.programs = true)
      (programChunk geometry (geometry.slot operation.slot) count actual ()) (past, state) := by
  have hend := hplaced.slot_endBytes hslot
  simp only [Region.endBytes, uint32Max] at hend
  have haddress : ((geometry.slot operation.slot).offsetBytes + count) % 4294967296 =
      (geometry.slot operation.slot).offsetBytes + count := Nat.mod_eq_of_lt (by omega)
  have hprogramming : Programming geometry operation source past := ⟨count, hprogrammed⟩
  rw [programChunk, Fallible.safe_bind, ask, Fallible.safe_attempt]
  refine ⟨hprogramming, fun answer fetched hstep => ?_⟩
  obtain ⟨htrace, hworld⟩ := hstep
  obtain ⟨bytes, rfl, hbytes⟩ := hdelivers _ _ _ _ hworld
  have hfetched : flashWrites fetched.1 = flashWrites past := by
    rw [htrace]
    exact flashWrites_concat rfl
  simp only [Program.safe_ret, Fallible.safe_bind, ask, Fallible.safe_attempt]
  refine ⟨⟨count, by rwa [hfetched]⟩, fun written after hstep => ?_⟩
  have hwritten : flashWrites after.1 = flashWrites past ++
      [⟨(geometry.slot operation.slot).offsetBytes + count, bytes.toList ++
        List.replicate (alignedBytes geometry actual - actual) 0xff⟩] := by
    rw [hstep.1, flashWrites_append, hfetched, flashWrites_flashWrite, haddress]
  have hnext : Programmed geometry operation source (count + actual) (flashWrites after.1) := by
    rw [hwritten, hbytes]
    exact hprogrammed.concat hplaced hlt hactual
  rw [Program.safe_ret, Fallible.safe_require]
  refine ⟨fun _ => ⟨hnext, _, by rw [hstep.1, htrace, List.append_assoc], ?_⟩, fun _ => ⟨_, hnext⟩⟩
  simp [SlotsCall.programs]

/-- The write loop programs the source into the slot. -/
theorem safe_programChunks (hdelivers : ∀ before request answer after,
      W.Step before request answer after → Delivers source ⟨request, answer⟩)
    (hplaced : WellPlaced geometry) (hslot : operation.slot.toNat < slotCount)
    (hfits : operation.packageSizeBytes.toNat ≤ (geometry.slot operation.slot).sizeBytes)
    {past : SlotsTrace} (hpast : flashWrites past = []) (state : σ) :
    Fallible.Safe W.recorded (fun after _ => Programming geometry operation source after.1)
      (fun after _ => Programming geometry operation source after.1)
      (fun after _ => Programmed geometry operation source operation.packageSizeBytes.toNat
          (flashWrites after.1) ∧
        ∃ own, after.1 = past ++ own ∧ ∀ event ∈ own, event.1.programs = true)
      (chunked slotIoBytes operation.packageSizeBytes.toNat
        (programChunk geometry (geometry.slot operation.slot)) ()) (past, state) := by
  refine Fallible.safe_chunked (by decide) (fun count (_ : Unit) (after : SlotsTrace × σ) =>
    Programmed geometry operation source count (flashWrites after.1) ∧
      ∃ own, after.1 = past ++ own ∧ ∀ event ∈ own, event.1.programs = true) ?_ () _
    ⟨by simpa only [hpast] using Programmed.nil hplaced, [], by simp, by simp⟩
  rintro count actual _ ⟨_, between⟩ hlt hactual ⟨hprogrammed, earlier, rfl, hearlier⟩
  refine (safe_programChunk hdelivers hplaced hslot hfits hlt hactual hprogrammed).imp ?_
  rintro after _ ⟨hnext, own, hown, hkinds⟩
  refine ⟨hnext, earlier ++ own, by rw [hown, List.append_assoc], fun event hevent => ?_⟩
  rcases List.mem_append.mp hevent with hevent | hevent
  · exact hearlier event hevent
  · exact hkinds event hevent

end

/-! ## The rest of the operation -/

/-- What `write_and_prepare` does once the candidate is programmed. -/
def prepareProgrammed (sha256 : List UInt8 → Sha256) (geometry : Geometry)
    (validateFn : ValidateFn) (current : State) : Locked Unit := do
  hashFlash sha256 geometry current.operation.slot current.operation.packageSizeBytes
    current.operation.packageSha256
  match ← validateCandidate geometry validateFn current.operation with
  | .ioFailed => throw .ioFailed
  | .untrusted => throw .untrusted
  | .ok => commitNext geometry current { current with phase := .prepared }

theorem writeAndPrepareLocked_eq_bind (expectedSequence : UInt32) (validateFn : ValidateFn) :
    writeAndPrepareLocked sha256 geometry expectedSequence validateFn = (do
      let current ← beginLocked geometry expectedSequence
      require (current.phase == .writing) .conflict
      checkReferences sha256 geometry current false
      programCandidate geometry current.operation
      prepareProgrammed sha256 geometry validateFn current) := rfl

theorem uses_hashFlash (slot : UInt8) (sizeBytes : UInt32) (expectedSha256 : Sha256) :
    (hashFlash sha256 geometry slot sizeBytes expectedSha256).run.Uses BeforeValidator :=
  Program.Safe.uses (safe_hashFlash _ _ _) fun _ _ => beforeValidator_of_readsFlash

theorem uses_references (state : State) :
    (checkReferences sha256 geometry state false).run.Uses WritesNothing :=
  (uses_checkReferences state).mono fun _ hcall => writesNothing_of_target hcall.1

theorem uses_prepareProgrammed (validateFn : ValidateFn) (current : State) :
    (prepareProgrammed sha256 geometry validateFn current).run.Uses WritesNothing := by
  have hcommit : (commitNext geometry current { current with phase := .prepared }).run.Uses
      WritesNothing := by
    apply Fallible.uses_bind (Fallible.uses_require _ _)
    intro _
    apply Fallible.uses_bind (Fallible.uses_require _ _)
    intro _
    apply Program.Safe.uses (safe_persistLocked _ _ _)
    rintro _ call (⟨rfl, -⟩ | ⟨htarget, -⟩)
    · rfl
    · exact writesNothing_of_target htarget
  have hvalidate : (validateCandidate geometry validateFn current.operation).run.Uses
      WritesNothing :=
    Program.Safe.uses (safe_validateCandidate _ _) fun _ _ hcall => writesNothing_of_target hcall.2
  apply Fallible.uses_bind ((uses_hashFlash _ _ _).mono fun _ hcall => hcall.1)
  intro _
  apply Fallible.uses_bind hvalidate
  intro result
  cases result with
  | ok => exact hcommit
  | ioFailed => trivial
  | untrusted => trivial

/-- A device whose source delivers. -/
def sourcedWorld (source : Nat → UInt8) : World SlotsPort Device :=
  deviceWorld.restrict (Delivers source)

theorem sourcedWorld_delivers (source : Nat → UInt8) (before : Device) (request : SlotsCall)
    (answer : SlotsPort.Answer request) (after : Device)
    (hstep : (sourcedWorld source).Step before request answer after) :
    Delivers source ⟨request, answer⟩ := hstep.2

/-- Once it has the lock, all that `write_and_prepare` programs is the beginning of the source. -/
theorem programming_writeAndPrepareLocked (hplaced : WellPlaced geometry) {state : State}
    (hvalid : stateValid state geometry = true) (hphase : state.phase = .writing)
    (source : Nat → UInt8) (expectedSequence : UInt32) (validateFn : ValidateFn)
    {past : SlotsTrace} (hpast : flashWrites past = []) {device : Device}
    (hstored : device.1.1 = some (encodeState state)) :
    Fallible.Safe (sourcedWorld source).recorded
      (fun after _ => Programming geometry state.operation source after.1)
      (fun after _ => Programming geometry state.operation source after.1)
      (fun after _ => Programming geometry state.operation source after.1)
      (writeAndPrepareLocked sha256 geometry expectedSequence validateFn) (past, device) := by
  have hnothing : ∀ trace : SlotsTrace, flashWrites trace = [] →
      Programming geometry state.operation source trace := by
    intro trace htrace
    exact ⟨0, by rw [htrace]; exact Programmed.nil hplaced⟩
  have hsound := operationSound_of_stateValid hvalid (by simp [hphase])
  rw [writeAndPrepareLocked_eq_bind, beginLocked, bind_assoc, loadLocked, Fallible.safe_bind,
    Fallible.safe_bind, ask, Fallible.safe_attempt]
  refine ⟨hnothing _ hpast, fun answer after hstep => ?_⟩
  have hread : flashWrites after.1 = [] := by
    rw [hstep.1]
    exact (flashWrites_concat rfl).trans hpast
  cases answer with
  | notFound => exact hnothing _ hread
  | readFailed => exact hnothing _ hread
  | found blob =>
      obtain ⟨hrecord, -⟩ : device.1.1 = some blob ∧ _ := hstep.2.1.1.1
      obtain rfl := Option.some.inj (hstored.symm.trans hrecord)
      simp only [Program.safe_ret, decodeState_encodeState hvalid, Fallible.safe_pure,
        Fallible.safe_bind, Fallible.safe_require]
      refine ⟨fun _ => ⟨fun _ => ?_, fun _ => hnothing _ hread⟩, fun _ => hnothing _ hread⟩
      refine (safe_run_of_writesNothing (uses_references state) hread).mono
        (fun after _ => hnothing after.1) (fun after _ => hnothing after.1) ?_
      intro opened _ hopened
      rw [programCandidate, Fallible.safe_bind, ask, Fallible.safe_attempt]
      refine ⟨hnothing _ hopened, fun erased cleared hstep => ?_⟩
      have hcleared : flashWrites cleared.1 = [] := by
        rw [hstep.1]
        exact (flashWrites_concat rfl).trans hopened
      rw [Program.safe_ret, Fallible.safe_bind, Fallible.safe_require]
      refine ⟨fun _ => ?_, fun _ => hnothing _ hcleared⟩
      refine (safe_programChunks (sourcedWorld_delivers source) hplaced hsound.slot_lt hsound.fits
        hcleared cleared.2).imp ?_
      intro programmed _ hprogrammed
      have hfinal : Programming geometry state.operation source programmed.1 := ⟨_, hprogrammed.1⟩
      have hkept : ∀ trace : SlotsTrace, flashWrites trace = flashWrites programmed.1 →
          Programming geometry state.operation source trace := by
        intro trace htrace
        rwa [Programming, htrace]
      exact (safe_run_of_writesNothing (uses_prepareProgrammed validateFn state) rfl).mono
        (fun after _ => hkept after.1) (fun after _ => hkept after.1) (fun after _ => hkept after.1)

/-- All that `write_and_prepare` ever programs is the beginning of the source. -/
theorem programming_writeAndPrepare (hvalid : geometryValid geometry = true) {state : State}
    (hstate : stateValid state geometry = true) (hphase : state.phase = .writing)
    (source : Nat → UInt8) (io : Bool) (expectedSequence : UInt32) (hasSource : Bool)
    (validateFn : Option ValidateFn) (hasState : Bool) {device : Device}
    (hstored : device.1.1 = some (encodeState state)) :
    (writeAndPrepare sha256 io geometry expectedSequence hasSource validateFn hasState).Safe
      (sourcedWorld source).recorded
      (fun after _ => Programming geometry state.operation source after.1)
      (fun after _ => Programming geometry state.operation source after.1) ([], device) := by
  have hplaced := wellPlaced_of_geometryValid hvalid
  have hstart : ∀ trace : SlotsTrace, flashWrites trace = [] →
      Programming geometry state.operation source trace := by
    intro trace htrace
    exact ⟨0, by rw [htrace]; exact Programmed.nil hplaced⟩
  cases validateFn with
  | none => exact hstart [] rfl
  | some validateFn =>
      rw [writeAndPrepare]
      split
      · exact hstart [] rfl
      rw [withLock, Program.safe_bind]
      refine ⟨hstart [] rfl, fun locked opened hstep => ?_⟩
      have hopened : flashWrites opened.1 = [] := by
        rw [hstep.1]
        rfl
      have hrecord : opened.2.1.1 = some (encodeState state) := by
        obtain ⟨⟨⟨hsame, -⟩, -⟩, -⟩ := hstep.2
        exact (show opened.2.1.1 = device.1.1 from hsame).trans hstored
      rw [Program.safe_ret]
      cases locked with
      | false => exact hstart _ hopened
      | true =>
          rw [if_pos rfl, Program.safe_bind]
          have hbody := @programming_writeAndPrepareLocked sha256 geometry hplaced state hstate hphase
            source expectedSequence validateFn opened.1 hopened opened.2 hrecord
          refine Program.Safe.imp hbody fun after result hafter => ?_
          have hprogramming : Programming geometry state.operation source after.1 := by
            cases result <;> exact hafter
          obtain ⟨count, hprogrammed⟩ := hprogramming
          refine ⟨⟨count, hprogrammed⟩, fun _ closed hstep => ⟨count, ?_⟩⟩
          have hclosed : flashWrites closed.1 = flashWrites after.1 := by
            rw [hstep.1]
            exact flashWrites_concat rfl
          rwa [hclosed]

/-! ## A run in which nothing fails -/

/-- The callback did what it was asked to. -/
def Works (source : Nat → UInt8) : SlotsEvent → Prop
  | ⟨.lock, answer⟩ => answer = true
  | ⟨.readBlob, answer⟩ => answer ≠ BlobAnswer.readFailed
  | ⟨.flashRead _ _, answer⟩ => ReadAnswer.succeeded answer = true
  | ⟨.flashErase _ _, answer⟩ => answer = true
  | ⟨.flashWrite _ _, answer⟩ => answer = true
  | ⟨.source offset size, answer⟩ => ∃ bytes : Bytes size,
      answer = ReadAnswer.ok bytes ∧ bytes.toList = Flash.bytes source offset size
  | ⟨.digest _, answer⟩ => answer = true
  | _ => True

theorem Works.succeeds {source : Nat → UInt8} {event : SlotsEvent} (hworks : Works source event) :
    Succeeds event := by
  obtain ⟨request, answer⟩ := event
  cases request <;> first | exact hworks | trivial

theorem Works.delivers {source : Nat → UInt8} {event : SlotsEvent} (hworks : Works source event) :
    Delivers source event := by
  obtain ⟨request, answer⟩ := event
  cases request <;> first | exact hworks | trivial

/-- The events of reading a package back and digesting it. -/
def hashEvents (address : Nat) (chunks : List (Σ n, Bytes n)) : SlotsTrace :=
  ⟨.digest .start, true⟩ :: readBackEvents address chunks ++ [⟨.digest .finish, true⟩]

/-- The validator is entered in a trace. -/
def EntersValidator (trace : SlotsTrace) : Prop :=
  ∃ operation size, (⟨.validateEnter operation size, ()⟩ : SlotsEvent) ∈ trace

@[simp]
theorem entersValidator_append {first second : SlotsTrace} :
    EntersValidator (first ++ second) ↔ EntersValidator first ∨ EntersValidator second := by
  simp only [EntersValidator, List.mem_append, exists_or]

theorem not_entersValidator {trace : SlotsTrace}
    (hnone : ∀ event ∈ trace, ∀ operation size, event.1 ≠ .validateEnter operation size) :
    ¬ EntersValidator trace := by
  rintro ⟨operation, size, hmem⟩
  exact hnone _ hmem operation size rfl

/-- The whole programming of a candidate in a run: the slot is erased, the source is written
to it exactly, its bytes are read back in one digest, and the validator is entered exactly if
they have the recorded one. -/
structure CandidateProgrammed (sha256 : List UInt8 → Sha256) (geometry : Geometry)
    (operation : Operation) (source : Nat → UInt8) (trace opening programming : SlotsTrace)
    (chunks : List (Σ n, Bytes n)) (closing : SlotsTrace) : Prop where
  trace_eq : trace = opening ++ ⟨.flashErase (geometry.slot operation.slot).offsetBytes
    (geometry.slot operation.slot).sizeBytes, true⟩ :: (programming ++
      (hashEvents (geometry.slot operation.slot).offsetBytes chunks ++ closing))
  opening_writes : flashWrites opening = []
  programs : ∀ event ∈ programming, event.1.programs = true
  writes : Programmed geometry operation source operation.packageSizeBytes.toNat
    (flashWrites programming)
  readBack : (chunkContents chunks).length = operation.packageSizeBytes.toNat
  closing_writes : flashWrites closing = []
  validated : EntersValidator trace ↔ sha256 (chunkContents chunks) = operation.packageSha256

/-- A digest call of a calm device, recorded, and what follows it. -/
theorem calm_ask_digest_recorded {α : Type} {step : DigestCall} {next : Bool → Locked α}
    {onError : SlotsTrace × Device → SlotsError → Prop} {post : SlotsTrace × Device → α → Prop}
    {past : SlotsTrace} {device : Device}
    (hnext : Fallible.Safe calmWorld.recorded (fun _ _ => True) onError post (next true)
      (past ++ [⟨.digest step, true⟩], device)) :
    Fallible.Safe calmWorld.recorded (fun _ _ => True) onError post
      (ask (.digest step) >>= next) (past, device) := by
  rw [Fallible.safe_bind, ask, Fallible.safe_attempt]
  refine ⟨trivial, fun answer after hstep => ?_⟩
  obtain ⟨rfl, hsame⟩ := calm_digest hstep.2
  obtain rfl : after = (past ++ [⟨.digest step, true⟩], device) := Prod.ext hstep.1 hsame
  exact hnext

/-- The read-back of a device whose reads succeed. -/
theorem calm_hashFlash_recorded (hplaced : WellPlaced geometry) {slot : UInt8} {sizeBytes : UInt32}
    {expectedSha256 : Sha256} (hslot : slot.toNat < slotCount) (hpositive : sizeBytes ≠ 0)
    (hfits : sizeBytes.toNat ≤ (geometry.slot slot).sizeBytes) (past : SlotsTrace)
    (device : Device) :
    Fallible.Safe calmWorld.recorded (fun _ _ => True)
      (fun after _ => ∃ chunks, after = (past ++ hashEvents (geometry.slot slot).offsetBytes chunks,
          device) ∧ (chunkContents chunks).length = sizeBytes.toNat ∧
        sha256 (chunkContents chunks) ≠ expectedSha256)
      (fun after _ => ∃ chunks, after = (past ++ hashEvents (geometry.slot slot).offsetBytes chunks,
          device) ∧ (chunkContents chunks).length = sizeBytes.toNat ∧
        sha256 (chunkContents chunks) = expectedSha256)
      (hashFlash sha256 geometry slot sizeBytes expectedSha256) (past, device) := by
  have hend := hplaced.slot_endBytes hslot
  simp only [Region.endBytes] at hend
  rw [hashFlash, Fallible.safe_bind, Fallible.safe_require]
  refine ⟨fun _ => ?_, fun hguard => by simp [hslot, hpositive, hfits] at hguard⟩
  refine calm_ask_digest_recorded ?_
  rw [Fallible.safe_bind, Fallible.safe_require]
  refine ⟨fun _ => ?_, fun hfalse => by cases hfalse⟩
  rw [Fallible.safe_bind]
  -- The loop has digested the chunks read so far, which end where it stands.
  refine (Fallible.safe_chunked (by decide) (fun offset fed (after : SlotsTrace × Device) =>
    ∃ chunks, chunkContents chunks = fed ∧ fed.length = offset ∧
      after = (past ++ ⟨.digest .start, true⟩ ::
        readBackEvents (geometry.slot slot).offsetBytes chunks, device)) ?_ [] _
    ⟨[], rfl, rfl, by simp [readBackEvents]⟩).imp ?_
  · rintro offset count fed _ hlt rfl ⟨chunks, rfl, rfl, rfl⟩
    rw [hashChunk, Fallible.safe_bind, Fallible.safe_attempt, flashRelativeRead, if_neg (by
      simp only [Bool.or_eq_true, decide_eq_true_eq, not_or, not_lt, gt_iff_lt]
      omega)]
    refine ⟨trivial, fun answer read hstep => ?_⟩
    obtain ⟨bytes, rfl, -, hsame⟩ := calm_flashRead hstep.2
    obtain rfl : read = (_ ++ [_], device) := Prod.ext hstep.1 hsame
    refine calm_ask_digest_recorded ?_
    simp only [Fallible.safe_bind, Fallible.safe_require, Fallible.safe_pure]
    refine ⟨fun _ => ⟨chunks ++ [⟨_, bytes⟩], ?_, ?_, ?_⟩, fun hfalse => by cases hfalse⟩
    · simp [chunkContents]
    · simp [bytes.toList_length]
    · simp [readBackEvents_append, readBackEvents]
  · rintro after fed ⟨chunks, rfl, hlength, rfl⟩
    refine calm_ask_digest_recorded ?_
    rw [Fallible.safe_bind, Fallible.safe_require, Fallible.safe_require]
    refine ⟨fun _ => ⟨fun hsha => ⟨chunks, ?_, hlength, beq_iff_eq.mp hsha⟩, fun hsha =>
      ⟨chunks, ?_, hlength, beq_eq_false_iff_ne.mp hsha⟩⟩, fun hfalse => by cases hfalse⟩ <;>
    simp [hashEvents]

section

variable {σ : Type} {W : World SlotsPort σ} {view : σ → Device} {source : Nat → UInt8}
  {state : State} {before after : σ} {trace : SlotsTrace}

/-- The record is begun with. -/
theorem begun_of_exec (hcalm : ∀ before request answer after,
      W.Step before request answer after → calmWorld.Step (view before) request answer (view after))
    (hloaded : Loaded geometry state) (hstored : (view before).1.1 = some (encodeState state))
    {outcome : Except SlotsError State}
    (hexec : Exec W (beginLocked geometry state.sequence).run before trace (.ret outcome) after) :
    outcome = .ok state ∧ view after = view before ∧ ∀ event ∈ trace, BeforeValidator event.1 := by
  have hresult := Program.Safe.post_of_exec (calm_beginLocked hloaded hstored)
    (hexec.map view hcalm)
  have huses : (beginLocked geometry state.sequence).run.Uses BeforeValidator :=
    Program.Safe.uses (safe_beginLocked _) fun _ _ hcall => by
      rw [hcall]
      exact ⟨rfl, by simp⟩
  cases outcome with
  | error code => exact hresult.elim
  | ok current =>
      obtain ⟨rfl, hsame⟩ := hresult
      exact ⟨rfl, hsame, huses.of_mem hexec⟩

/-- The references are found intact. -/
theorem referenced_of_exec (hcalm : ∀ before request answer after,
      W.Step before request answer after → calmWorld.Step (view before) request answer (view after))
    (hplaced : WellPlaced geometry) (hvalid : stateValid state geometry = true)
    (hbound : BoundIntact sha256 geometry (view before).1.2 state) {outcome : Except SlotsError Unit}
    (hexec : Exec W (checkReferences sha256 geometry state false).run before trace (.ret outcome)
      after) :
    outcome = .ok () ∧ view after = view before ∧ ∀ event ∈ trace, BeforeValidator event.1 := by
  have hresult := Program.Safe.post_of_exec (calm_checkReferences hplaced hvalid hbound)
    (hexec.map view hcalm)
  have huses : (checkReferences sha256 geometry state false).run.Uses BeforeValidator :=
    Program.Safe.uses (safe_checkReferences state false) fun _ _ => beforeValidator_of_readsFlash
  cases outcome with
  | error code => exact hresult.elim
  | ok value => exact ⟨rfl, hresult, huses.of_mem hexec⟩

/-- A write loop whose callbacks work goes through. -/
theorem works_programChunks (hworks : ∀ before request answer after,
      W.Step before request answer after → Works source ⟨request, answer⟩)
    (slot : Region) (size : Nat) (start : σ) :
    Fallible.Safe W (fun _ _ => True) (fun _ _ => False) (fun _ _ => True)
      (chunked slotIoBytes size (programChunk geometry slot) ()) start := by
  refine Fallible.safe_chunked (by decide) (fun _ _ _ => True) ?_ () start trivial
  rintro offset count _ between - - -
  rw [programChunk, Fallible.safe_bind, ask, Fallible.safe_attempt]
  refine ⟨trivial, fun answer fetched hstep => ?_⟩
  obtain ⟨bytes, rfl, -⟩ := hworks _ _ _ _ hstep
  simp only [Program.safe_ret, Fallible.safe_bind, ask, Fallible.safe_attempt]
  refine ⟨trivial, fun written after hstep => ?_⟩
  obtain rfl : written = true := hworks _ _ _ _ hstep
  rw [Program.safe_ret, Fallible.safe_require]
  exact ⟨fun _ => trivial, fun hfalse => by cases hfalse⟩

/-- The candidate is erased and programmed. -/
theorem programmed_of_exec (hworks : ∀ before request answer after,
      W.Step before request answer after → Works source ⟨request, answer⟩)
    (hplaced : WellPlaced geometry) {operation : Operation}
    (hslot : operation.slot.toNat < slotCount)
    (hfits : operation.packageSizeBytes.toNat ≤ (geometry.slot operation.slot).sizeBytes)
    {outcome : Except SlotsError Unit}
    (hexec : Exec W (programCandidate geometry operation).run before trace (.ret outcome) after) :
    outcome = .ok () ∧ ∃ programming, trace = ⟨.flashErase (geometry.slot operation.slot).offsetBytes
        (geometry.slot operation.slot).sizeBytes, true⟩ :: programming ∧
      (∀ event ∈ programming, event.1.programs = true) ∧
      Programmed geometry operation source operation.packageSizeBytes.toNat
        (flashWrites programming) := by
  have hsplit := Fallible.of_bind hexec
  rcases hsplit with ⟨error, -, hfailed⟩ | ⟨erased, middle, first, second, rfl, herase, hrest⟩
  · obtain ⟨value, hvalue, -⟩ := Fallible.of_attempt hfailed
    cases hvalue
  obtain ⟨value, hvalue, herase⟩ := Fallible.of_attempt herase
  cases hvalue
  obtain ⟨rfl, hstep⟩ := herase.of_call
  obtain rfl : erased = true := hworks _ _ _ _ hstep
  have hloop : Exec W (chunked slotIoBytes operation.packageSizeBytes.toNat
      (programChunk geometry (geometry.slot operation.slot)) ()).run middle second
      (.ret outcome) after := hrest
  have hwent := Program.Safe.post_of_exec (works_programChunks hworks _ _ _) hloop
  have hexact := Program.Safe.post_of_exec (safe_programChunks
    (fun _ _ _ _ hstep => (hworks _ _ _ _ hstep).delivers) hplaced hslot hfits flashWrites_nil middle)
    (hloop.toRecorded [])
  cases outcome with
  | error code => exact hwent.elim
  | ok value =>
      obtain ⟨hprogrammed, own, rfl, hkinds⟩ := hexact
      exact ⟨rfl, _, rfl, hkinds, hprogrammed⟩

/-- Calling the validator enters it. -/
theorem entersValidator_of_exec {validateFn : ValidateFn} {operation : Operation}
    {outcome : Except SlotsError ValidationResult}
    (hexec : Exec W (validateCandidate geometry validateFn operation).run before trace
      (.ret outcome) after) : EntersValidator trace := by
  rw [validateCandidate] at hexec
  rcases Fallible.of_bind hexec with ⟨error, -, hfailed⟩ | ⟨_, _, first, second, rfl, henter, -⟩
  · obtain ⟨value, hvalue, -⟩ := Fallible.of_attempt hfailed
    cases hvalue
  obtain ⟨value, hvalue, henter⟩ := Fallible.of_attempt henter
  obtain ⟨rfl, -⟩ := henter.of_call
  exact entersValidator_append.mpr (.inl ⟨_, _, List.mem_singleton_self _⟩)

/-- The candidate is read back, and the validator entered if it is the package. -/
theorem readBack_of_exec (hcalm : ∀ before request answer after,
      W.Step before request answer after → calmWorld.Step (view before) request answer (view after))
    (hplaced : WellPlaced geometry) (hslot : state.operation.slot.toNat < slotCount)
    (hpositive : state.operation.packageSizeBytes ≠ 0)
    (hfits : state.operation.packageSizeBytes.toNat ≤
      (geometry.slot state.operation.slot).sizeBytes)
    {validateFn : ValidateFn} {outcome : Except SlotsError Unit}
    (hexec : Exec W (prepareProgrammed sha256 geometry validateFn state).run before trace
      (.ret outcome) after) :
    ∃ chunks closing,
      trace = hashEvents (geometry.slot state.operation.slot).offsetBytes chunks ++ closing ∧
      (chunkContents chunks).length = state.operation.packageSizeBytes.toNat ∧
      (EntersValidator trace ↔ sha256 (chunkContents chunks) = state.operation.packageSha256) := by
  have hhash {reply : Except SlotsError Unit} {middle : σ} {first : SlotsTrace}
      (hfirst : Exec W (hashFlash sha256 geometry state.operation.slot
        state.operation.packageSizeBytes state.operation.packageSha256).run before first
        (.ret reply) middle) :=
    Program.Safe.post_of_exec
      (calm_hashFlash_recorded hplaced hslot hpositive hfits [] (view before))
      ((hfirst.map view hcalm).toRecorded [])
  rcases Fallible.of_bind hexec with ⟨error, -, hfailed⟩ | ⟨_, middle, first, second, rfl, hfirst, hsecond⟩
  · obtain ⟨chunks, htrace, hlength, hsha⟩ := hhash hfailed
    obtain ⟨rfl, -⟩ := Prod.mk.inj htrace
    refine ⟨chunks, [], by simp, hlength, iff_of_false ?_ hsha⟩
    exact not_entersValidator fun event hevent => ((uses_hashFlash _ _ _).of_mem hfailed event hevent).2
  · obtain ⟨chunks, htrace, hlength, hsha⟩ := hhash hfirst
    obtain ⟨hfirstTrace, -⟩ := Prod.mk.inj htrace
    rw [List.nil_append, List.nil_append] at hfirstTrace
    refine ⟨chunks, second, by rw [hfirstTrace], hlength, iff_of_true ?_ hsha⟩
    rw [entersValidator_append]
    rcases Fallible.of_bind hsecond with ⟨_, -, hvalidate⟩ | ⟨_, _, _, _, rfl, hvalidate, -⟩
    · exact .inr (entersValidator_of_exec hvalidate)
    · exact .inr (entersValidator_append.mpr (.inl (entersValidator_of_exec hvalidate)))

/-- Between `lock` and `unlock` the candidate is programmed. -/
theorem candidateProgrammed_of_locked (hcalm : ∀ before request answer after,
      W.Step before request answer after → calmWorld.Step (view before) request answer (view after))
    (hworks : ∀ before request answer after, W.Step before request answer after →
      Works source ⟨request, answer⟩)
    (hplaced : WellPlaced geometry) (hvalid : stateValid state geometry = true)
    (hphase : state.phase = .writing) (hstored : (view before).1.1 = some (encodeState state))
    (hbound : BoundIntact sha256 geometry (view before).1.2 state) {validateFn : ValidateFn}
    {outcome : Except SlotsError Unit}
    (hexec : Exec W (writeAndPrepareLocked sha256 geometry state.sequence validateFn).run before
      trace (.ret outcome) after) :
    ∃ opening programming chunks closing, CandidateProgrammed sha256 geometry state.operation source
      trace opening programming chunks closing := by
  have hsound := operationSound_of_stateValid hvalid (by simp [hphase])
  have hloaded : Loaded geometry state := decodeState_encodeState hvalid
  rw [writeAndPrepareLocked_eq_bind] at hexec
  rcases Fallible.of_bind hexec with ⟨_, -, hfailed⟩ | ⟨current, begun, first, _, rfl, hbegin, hchecks⟩
  · cases (begun_of_exec hcalm hloaded hstored hfailed).1
  obtain ⟨hcurrent, hbegun, hfirst⟩ := begun_of_exec hcalm hloaded hstored hbegin
  cases hcurrent
  rcases Fallible.of_bind hchecks with ⟨_, -, hfailed⟩ | ⟨_, checked, _, _, rfl, hcheck, hreferences⟩
  · obtain ⟨-, -, houtcome⟩ := Fallible.of_require hfailed
    simp [hphase] at houtcome
  obtain ⟨rfl, rfl, -⟩ := Fallible.of_require hcheck
  rw [← hbegun] at hbound
  rcases Fallible.of_bind hreferences with ⟨_, -, hfailed⟩ | ⟨_, referenced, third, _, rfl, hrefer, hprogram⟩
  · cases (referenced_of_exec hcalm hplaced hvalid hbound hfailed).1
  obtain ⟨-, -, hthird⟩ := referenced_of_exec hcalm hplaced hvalid hbound hrefer
  rcases Fallible.of_bind hprogram with ⟨_, -, hfailed⟩ | ⟨_, written, _, _, rfl, hwrite, hreadBack⟩
  · cases (programmed_of_exec hworks hplaced hsound.slot_lt hsound.fits hfailed).1
  obtain ⟨-, programming, rfl, hprograms, hprogrammed⟩ :=
    programmed_of_exec hworks hplaced hsound.slot_lt hsound.fits hwrite
  obtain ⟨chunks, closing, rfl, hlength, hentered⟩ :=
    readBack_of_exec hcalm hplaced hsound.slot_lt hsound.size_ne hsound.fits hreadBack
  have hclosing : flashWrites closing = [] := flashWrites_eq_nil fun event hevent =>
    (uses_prepareProgrammed validateFn state).of_mem hreadBack event (List.mem_append_right _ hevent)
  have hopening : ∀ event ∈ first ++ third, BeforeValidator event.1 := by
    intro event hevent
    rcases List.mem_append.mp hevent with hevent | hevent
    · exact hfirst event hevent
    · exact hthird event hevent
  refine ⟨first ++ third, programming, chunks, closing, by simp,
    flashWrites_eq_nil fun event hevent => (hopening event hevent).1, hprograms, hprogrammed, hlength,
    hclosing, ?_⟩
  have hbefore : ¬ EntersValidator (first ++ third) :=
    not_entersValidator fun event hevent => (hopening event hevent).2
  have herase : ¬ EntersValidator (⟨.flashErase (geometry.slot state.operation.slot).offsetBytes
      (geometry.slot state.operation.slot).sizeBytes, true⟩ :: programming) := by
    apply not_entersValidator
    rintro event (_ | ⟨_, hevent⟩) operation size hequal
    · cases hequal
    · have hkind := hprograms event hevent
      rw [hequal] at hkind
      cases hkind
  rw [entersValidator_append, not_or] at hbefore
  rw [← hentered, List.nil_append, entersValidator_append, entersValidator_append,
    @entersValidator_append (_ :: programming), or_iff_right hbefore.1, or_iff_right hbefore.2,
    or_iff_right herase]

/-- A run of `write_and_prepare` in which nothing fails programs the candidate. -/
theorem candidateProgrammed_of_exec (view : σ → Device) (hcalm : ∀ before request answer after,
      W.Step before request answer after → calmWorld.Step (view before) request answer (view after))
    (hworks : ∀ before request answer after, W.Step before request answer after →
      Works source ⟨request, answer⟩)
    (hgeometry : geometryValid geometry = true) (hvalid : stateValid state geometry = true)
    (hphase : state.phase = .writing) (hstored : (view before).1.1 = some (encodeState state))
    (hbound : BoundIntact sha256 geometry (view before).1.2 state) {validateFn : ValidateFn}
    {reply : Reply}
    (hexec : Exec W (writeAndPrepare sha256 true geometry state.sequence true (some validateFn) true)
      before trace (.ret reply) after) :
    ∃ opening programming chunks closing, CandidateProgrammed sha256 geometry state.operation source
      trace opening programming chunks closing := by
  have hplaced := wellPlaced_of_geometryValid hgeometry
  have hlocked : writeAndPrepare sha256 true geometry state.sequence true (some validateFn) true =
      withLock (writeAndPrepareLocked sha256 geometry state.sequence validateFn) := by
    simp [writeAndPrepare, hgeometry]
  rw [hlocked, withLock] at hexec
  obtain ⟨locked, opened, _, _, rfl, hlock, hrest⟩ := hexec.of_bind
  obtain ⟨rfl, hstep⟩ := hlock.of_call
  obtain ⟨rfl, hopened⟩ := calm_lock (hcalm _ _ _ _ hstep)
  rw [if_pos rfl] at hrest
  obtain ⟨outcome, done, body, _, rfl, hbody, hunlock⟩ := hrest.of_bind
  obtain ⟨_, _, _, _, rfl, hunlock, hdone⟩ := hunlock.of_bind
  obtain ⟨rfl, -⟩ := hunlock.of_call
  cases hdone
  rw [← hopened] at hstored hbound
  obtain ⟨opening, programming, chunks, closing, hprogrammed⟩ :=
    candidateProgrammed_of_locked hcalm hworks hplaced hvalid hphase hstored hbound hbody
  have hlockOnly : ¬ EntersValidator [⟨.lock, true⟩] := not_entersValidator (by simp)
  have hunlockOnly : ¬ EntersValidator [⟨.unlock, ()⟩] := not_entersValidator (by simp)
  refine ⟨⟨.lock, true⟩ :: opening, programming, chunks, closing ++ [⟨.unlock, ()⟩], ?_, ?_,
    hprogrammed.programs, hprogrammed.writes, hprogrammed.readBack, ?_, ?_⟩
  · rw [hprogrammed.trace_eq]
    simp
  · exact hprogrammed.opening_writes
  · rw [flashWrites_append, hprogrammed.closing_writes]
    rfl
  · rw [entersValidator_append, entersValidator_append, or_iff_right hlockOnly, List.append_nil,
      or_iff_left hunlockOnly]
    exact hprogrammed.validated

end

theorem writesNothing_hashEvents (address : Nat) (chunks : List (Σ n, Bytes n)) :
    flashWrites (hashEvents address chunks) = [] := by
  apply flashWrites_eq_nil
  intro event hevent
  simp only [hashEvents, List.cons_append, List.mem_cons, List.mem_append, List.not_mem_nil,
    or_false] at hevent
  rcases hevent with rfl | hevent | rfl
  · rfl
  · exact writesNothing_of_target
      (SlotsCall.target_of_readsFlash (readsFlash_readBackEvents _ _ event hevent))
  · rfl

/-- The writes of such a run are those of its write loop. -/
theorem CandidateProgrammed.flashWrites_eq {operation : Operation} {source : Nat → UInt8}
    {trace opening programming closing : SlotsTrace} {chunks : List (Σ n, Bytes n)}
    (hprogrammed : CandidateProgrammed sha256 geometry operation source trace opening programming
      chunks closing) : flashWrites trace = flashWrites programming := by
  have herase : flashWrites [⟨.flashErase (geometry.slot operation.slot).offsetBytes
    (geometry.slot operation.slot).sizeBytes, true⟩] = [] := rfl
  rw [hprogrammed.trace_eq, flashWrites_append, hprogrammed.opening_writes, List.nil_append,
    ← List.singleton_append, flashWrites_append, herase, flashWrites_append, flashWrites_append,
    writesNothing_hashEvents, hprogrammed.closing_writes]
  simp

/-! ## NOR flash -/

/-- A device on which every callback works, whatever its flash then holds. -/
def workingWorld (source : Nat → UInt8) : World SlotsPort Device :=
  deviceWorld.restrict (Works source)

/-- Flash that erases to `0xff` and stores what is written to erased bytes. -/
def norWorld : World SlotsPort Nor where
  Step before request answer after :=
    match request, answer with
    | .flashRead address size, .ok bytes => bytes.toList = before.bytes address size ∧ after = before
    | .flashErase offset size, _ => before.Erases offset size after
    | .flashWrite offset bytes, _ => before.Programs ⟨offset, bytes⟩ after
    | _, _ => after = before

/-- The record, a NOR flash and the outputs. -/
abbrev NorDevice : Type := (Option Blob × Nor) × Outputs

/-- A device with a NOR flash on which every callback works. -/
def norDeviceWorld (source : Nat → UInt8) : World SlotsPort NorDevice :=
  ((recordWorld.prod norWorld).prod outputWorld).restrict (Works source)

/-- What a NOR flash holds. -/
def NorDevice.device (device : NorDevice) : Device :=
  ((device.1.1, device.1.2.contents), device.2)

theorem norWorld_step {before after : Nor} {request : SlotsCall} {answer : SlotsPort.Answer request}
    (hstep : norWorld.Step before request answer after) :
    flashWorld.Step before.contents request answer after.contents := by
  cases request with
  | flashRead offset size =>
      cases answer with
      | ok bytes => exact ⟨hstep.1, congrArg Nor.contents hstep.2⟩
      | failed left => exact congrArg Nor.contents hstep
  | flashErase offset size =>
      intro address houtside
      exact Nor.Erases.outside hstep address (by omega)
  | flashWrite offset bytes =>
      intro address houtside
      exact Nor.Programs.outside hstep address (by simp only [Write.endAddress]; omega)
  | _ => exact congrArg Nor.contents hstep

section

variable {source : Nat → UInt8}

theorem workingWorld_calm (before : Device) (request : SlotsCall) (answer : SlotsPort.Answer request)
    (after : Device) (hstep : (workingWorld source).Step before request answer after) :
    calmWorld.Step before request answer after := ⟨hstep.1, hstep.2.succeeds⟩

theorem workingWorld_works (before : Device) (request : SlotsCall) (answer : SlotsPort.Answer request)
    (after : Device) (hstep : (workingWorld source).Step before request answer after) :
    Works source ⟨request, answer⟩ := hstep.2

theorem norDeviceWorld_works (before : NorDevice) (request : SlotsCall)
    (answer : SlotsPort.Answer request) (after : NorDevice)
    (hstep : (norDeviceWorld source).Step before request answer after) :
    Works source ⟨request, answer⟩ := hstep.2

theorem norDeviceWorld_nor (before : NorDevice) (request : SlotsCall)
    (answer : SlotsPort.Answer request) (after : NorDevice)
    (hstep : (norDeviceWorld source).Step before request answer after) :
    norWorld.Step before.1.2 request answer after.1.2 := hstep.1.1.2

theorem norDeviceWorld_calm (before : NorDevice) (request : SlotsCall)
    (answer : SlotsPort.Answer request) (after : NorDevice)
    (hstep : (norDeviceWorld source).Step before request answer after) :
    calmWorld.Step before.device request answer after.device :=
  ⟨⟨⟨hstep.1.1.1, norWorld_step hstep.1.1.2⟩, hstep.1.2⟩, hstep.2.succeeds⟩

end

/-- A write loop on NOR flash makes its writes one after another. -/
theorem programsAll_of_path {before after : Nor} {programming : SlotsTrace}
    (hpath : norWorld.Path before programming after)
    (hkinds : ∀ event ∈ programming, event.1.programs = true) :
    before.ProgramsAll (flashWrites programming) after := by
  induction programming generalizing before with
  | nil => exact hpath
  | cons event programming ih =>
      obtain ⟨middle, hstep, hrest⟩ := hpath
      have hlater := ih hrest fun later hlater => hkinds later (List.mem_cons_of_mem _ hlater)
      obtain ⟨request, answer⟩ := event
      cases request with
      | source offset size =>
          obtain rfl : middle = before := hstep
          exact hlater
      | flashWrite offset bytes => exact ⟨middle, hstep, hlater⟩
      | _ => cases hkinds _ List.mem_cons_self

/-- On a NOR flash the candidate is read back as it was delivered. -/
theorem CandidateProgrammed.chunkContents_eq {operation : Operation} {source : Nat → UInt8}
    {trace opening programming closing : SlotsTrace} {chunks : List (Σ n, Bytes n)}
    (hprogrammed : CandidateProgrammed sha256 geometry operation source trace opening programming
      chunks closing) (hplaced : WellPlaced geometry) (hslot : operation.slot.toNat < slotCount)
    (hfits : operation.packageSizeBytes.toNat ≤ (geometry.slot operation.slot).sizeBytes)
    {before after : Nor} (hpath : norWorld.Path before trace after) :
    chunkContents chunks = Flash.bytes source 0 operation.packageSizeBytes.toNat := by
  have hlength := hprogrammed.writes.length_le hplaced hslot hfits
  obtain ⟨padding, -, -, hcarried⟩ := hprogrammed.writes.carried
  rw [hprogrammed.trace_eq] at hpath
  obtain ⟨opened, -, erased, herase, hpath⟩ := World.path_append.mp hpath
  obtain ⟨written, hprogramming, hpath⟩ := World.path_append.mp hpath
  obtain ⟨read, hread, -⟩ := World.path_append.mp hpath
  have herases : opened.Erases (geometry.slot operation.slot).offsetBytes
    (geometry.slot operation.slot).sizeBytes erased := herase
  have hstored := (programsAll_of_path hprogramming hprogrammed.programs).bytes_eq
    hprogrammed.writes.contiguous fun byte hlower hupper =>
      (herases.erased byte).mpr (.inr ⟨hlower, by omega⟩)
  rw [hcarried, List.length_append, Flash.length_bytes, Nor.bytes_add] at hstored
  have hsource := List.append_inj_left hstored (by simp [Nor.bytes])
  have hflash := hread.map (V := flashWorld) Nor.contents fun _ _ _ _ hstep => norWorld_step hstep
  obtain ⟨started, hstart, hflash⟩ := hflash
  obtain rfl : started = written.contents := hstart
  obtain ⟨_, hreadBack, -⟩ := World.path_append.mp hflash
  rw [contents_of_readBackEvents hreadBack, hprogrammed.readBack]
  exact hsource

/-! ## The result -/

/-- Programming a candidate is exact: whatever fails and wherever the run stops, its writes are
placed at the write units of the slot and carry the beginning of the source; if nothing fails
they carry all of it, filled up to the next write unit. On a NOR flash the read-back is then over
the source itself, and the validator is entered exactly if that is the recorded package. -/
theorem programming_exact (sha256 : List UInt8 → Sha256) (geometry : Geometry)
    (hgeometry : geometryValid geometry = true) (state : State)
    (hvalid : stateValid state geometry = true) (hphase : state.phase = .writing)
    (source : Nat → UInt8) :
    (∀ (io : Bool) (expectedSequence : UInt32) (hasSource : Bool) (validateFn : Option ValidateFn)
        (hasState : Bool) (device device' : Device) (trace : SlotsTrace)
        (residual : Program SlotsPort Reply),
      device.1.1 = some (encodeState state) →
      Exec (sourcedWorld source)
        (writeAndPrepare sha256 io geometry expectedSequence hasSource validateFn hasState) device
        trace residual device' →
      ∃ count ≤ state.operation.packageSizeBytes.toNat,
        ExactWrites geometry state.operation source count (flashWrites trace)) ∧
    (∀ (validateFn : ValidateFn) (device device' : Device) (trace : SlotsTrace) (reply : Reply),
      device.1.1 = some (encodeState state) → BoundIntact sha256 geometry device.1.2 state →
      Exec (workingWorld source)
        (writeAndPrepare sha256 true geometry state.sequence true (some validateFn) true) device
        trace (.ret reply) device' →
      ExactWrites geometry state.operation source state.operation.packageSizeBytes.toNat
        (flashWrites trace)) ∧
    ∀ (validateFn : ValidateFn) (device device' : NorDevice) (trace : SlotsTrace) (reply : Reply),
      device.1.1 = some (encodeState state) →
      BoundIntact sha256 geometry device.1.2.contents state →
      Exec (norDeviceWorld source)
        (writeAndPrepare sha256 true geometry state.sequence true (some validateFn) true) device
        trace (.ret reply) device' →
      ExactWrites geometry state.operation source state.operation.packageSizeBytes.toNat
          (flashWrites trace) ∧
        (∃ opening chunks closing, trace = opening ++
            (hashEvents (geometry.slot state.operation.slot).offsetBytes chunks ++ closing) ∧
          flashWrites closing = [] ∧
          chunkContents chunks = Flash.bytes source 0 state.operation.packageSizeBytes.toNat) ∧
        (EntersValidator trace ↔
          sha256 (Flash.bytes source 0 state.operation.packageSizeBytes.toNat) =
            state.operation.packageSha256) := by
  have hplaced := wellPlaced_of_geometryValid hgeometry
  have hsound := operationSound_of_stateValid hvalid (by simp [hphase])
  refine ⟨?_, ?_, ?_⟩
  · intro io expectedSequence hasSource validateFn hasState device device' trace residual hstored hexec
    have hsafe := (programming_writeAndPrepare hgeometry hvalid hphase source io expectedSequence
      hasSource validateFn hasState hstored).exec (hexec.toRecorded [])
    obtain ⟨count, hprogrammed⟩ : Programming geometry state.operation source ([] ++ trace) := by
      cases residual with
      | ret reply => exact hsafe
      | ask request resume => exact hsafe.1
    exact ⟨count, hprogrammed.count_le, hprogrammed.exact hgeometry hsound.slot_lt hsound.fits⟩
  · intro validateFn device device' trace reply hstored hbound hexec
    obtain ⟨opening, programming, chunks, closing, hprogrammed⟩ :=
      candidateProgrammed_of_exec id workingWorld_calm workingWorld_works hgeometry hvalid hphase
        hstored hbound hexec
    rw [hprogrammed.flashWrites_eq]
    exact hprogrammed.writes.exact hgeometry hsound.slot_lt hsound.fits
  · intro validateFn device device' trace reply hstored hbound hexec
    obtain ⟨opening, programming, chunks, closing, hprogrammed⟩ :=
      candidateProgrammed_of_exec NorDevice.device norDeviceWorld_calm norDeviceWorld_works hgeometry
        hvalid hphase hstored hbound hexec
    have hpath := hexec.path.map (V := norWorld) (fun device => device.1.2) norDeviceWorld_nor
    have hread := hprogrammed.chunkContents_eq hplaced hsound.slot_lt hsound.fits hpath
    have hevents := hprogrammed.trace_eq
    rw [← List.cons_append, ← List.append_assoc] at hevents
    refine ⟨?_, ⟨_, chunks, closing, hevents, hprogrammed.closing_writes, hread⟩, ?_⟩
    · rw [hprogrammed.flashWrites_eq]
      exact hprogrammed.writes.exact hgeometry hsound.slot_lt hsound.fits
    · rw [← hread]
      exact hprogrammed.validated

/-- The working device delivers zeros, and nothing fails on it. -/
theorem workingDevice_works (device : Device) (request : SlotsCall) :
    Works (fun _ => 0) ⟨request, (workingDevice device request).1⟩ := by
  cases request with
  | readBlob =>
      obtain ⟨⟨record, flash⟩, outputs⟩ := device
      cases record <;> simp [Works, workingDevice]
  | source offset size =>
      exact ⟨Bytes.zero size, rfl, by simp [Flash.bytes, List.map_const']⟩
  | _ => simp [Works, workingDevice, ReadAnswer.succeeded]

/-- Writing the sample package programs it exactly. -/
theorem programming_exact_sampleWriting :
    ∃ trace reply device,
      Exec (workingWorld fun _ => 0)
        (writeAndPrepare (fun _ => sampleDigest) true sampleGeometry 2 true
          (some fun _ _ => .ret .ok) true)
        (sampleDevice (some sampleWriting)) trace (.ret reply) device ∧
      ExactWrites sampleGeometry sampleOperation (fun _ => 0) 4 (flashWrites trace) := by
  have hexec := (Exec.of_device workingDevice_step
    (writeAndPrepare (fun _ => sampleDigest) true sampleGeometry 2 true
      (some fun _ _ => .ret .ok) true)
    (sampleDevice (some sampleWriting))).restrict (Program.events_execute workingDevice_works _ _)
  have hbound : BoundIntact (fun _ => sampleDigest) sampleGeometry
      (sampleDevice (some sampleWriting)).1.2 sampleWriting := by
    intro index hpresent
    cases hpresent.symm.trans (show (sampleBindings index).packagePresent = false by
      revert index
      decide)
  exact ⟨_, _, _, hexec, (programming_exact (fun _ => sampleDigest) sampleGeometry (by decide)
    sampleWriting (by decide +kernel) rfl fun _ => 0).2.1 _ _ _ _ _ rfl hbound hexec⟩

end Slots
