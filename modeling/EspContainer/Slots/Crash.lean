/-
# Crash consistency

The invariant that links the record to flash: the record decodes, every package
it binds is intact in flash, and so is the candidate once it was written
completely. A cut can leave the slot under construction in any state, but no
bound package and no complete candidate lives there, so every execution keeps
the invariant wherever it stops. Reconciling a record that meets it, with reads
that succeed, reports every bound package intact.
-/

import EspContainer.Slots.Durable

namespace Slots

open Binary Interaction Package
open Fallible (attempt require chunked)

variable {sha256 : List UInt8 → Sha256} {geometry : Geometry} {request : Request}

/-! ## The invariant -/

/-- The flash contents of a slot's first bytes hash to a digest. -/
def PackageIntact (sha256 : List UInt8 → Sha256) (geometry : Geometry) (flash : Flash)
    (slot : UInt8) (sizeBytes : UInt32) (expectedSha256 : Sha256) : Prop :=
  sha256 (flash.bytes (geometry.slot slot).offsetBytes sizeBytes.toNat) = expectedSha256

/-- Every bound package is intact, and a complete candidate too. -/
structure Intact (sha256 : List UInt8 → Sha256) (geometry : Geometry) (flash : Flash)
    (state : State) : Prop where
  bound : ∀ index, (state.bindings index).packagePresent = true →
    PackageIntact sha256 geometry flash (state.bindings index).slot
      (state.bindings index).packageSizeBytes (state.bindings index).packageSha256
  candidate : state.phase.complete = true →
    PackageIntact sha256 geometry flash state.operation.slot state.operation.packageSizeBytes
      state.operation.packageSha256

/-- A package that flash holds unchanged stays intact. -/
theorem PackageIntact.mono {before after : Flash} {slot : UInt8} {sizeBytes : UInt32}
    {expectedSha256 : Sha256}
    (hintact : PackageIntact sha256 geometry before slot sizeBytes expectedSha256)
    (hsame : ∀ index < sizeBytes.toNat, after ((geometry.slot slot).offsetBytes + index) =
      before ((geometry.slot slot).offsetBytes + index)) :
    PackageIntact sha256 geometry after slot sizeBytes expectedSha256 := by
  rw [PackageIntact, Flash.bytes_congr hsame]
  exact hintact

/-- What one execution may do to flash, given the state it started from: outside
the slot under construction nothing, and without one nothing at all. -/
def FlashKept (geometry : Geometry) (state : State) (before after : Flash) : Prop :=
  ∀ address, (state.phase = .writing →
    ¬ ((geometry.slot state.operation.slot).offsetBytes ≤ address ∧
      address < (geometry.slot state.operation.slot).endBytes)) → after address = before address

/-- Executions keep flash so. -/
theorem flashKept_of_exec {state : State} (hloaded : Loaded geometry state)
    {residual : Program SlotsPort Reply} {after : Option Blob × Flash} {before : Flash}
    {trace : SlotsTrace}
    (hexec : Exec (recordWorld.prod flashWorld) (request.program sha256 geometry)
      (some (encodeState state), before) trace residual after) :
    FlashKept geometry state before after.2 := by
  intro address hfree
  refine flash_eq_of_path hexec.snd.path fun event hevent offset size htarget hinside => ?_
  obtain ⟨past, future, rfl⟩ := List.append_of_mem hevent
  obtain ⟨current, own, rfl, hinner, hcurrent, hprotected⟩ := protected_of_target hexec htarget
  obtain ⟨middle, hpast, -⟩ := World.path_append.mp hexec.fst.path
  have hstored := (record_opened (some current) hinner hpast).1
  obtain rfl := hloaded.injective hcurrent (Option.some.inj hstored)
  have hlower := hprotected.lower
  have hupper := hprotected.upper
  exact hfree hprotected.writing (by omega)

theorem FlashKept.bound {state : State} (hvalid : stateValid state geometry = true)
    (hplaced : WellPlaced geometry) {before after : Flash}
    (hkept : FlashKept geometry state before after) (hintact : Intact sha256 geometry before state)
    (index : Fin bindingCount) (hpresent : (state.bindings index).packagePresent = true) :
    PackageIntact sha256 geometry after (state.bindings index).slot
      (state.bindings index).packageSizeBytes (state.bindings index).packageSha256 := by
  refine (hintact.bound index hpresent).mono fun offset hoffset => hkept _ fun hphase => ?_
  have hpending : state.phase.pending = true := by simp [hphase, Phase.pending, Phase.code]
  obtain ⟨hslot, hfits, -⟩ := binding_fits hvalid index hpresent
  have hsound := operationSound_of_stateValid hvalid (by simp [hphase])
  have hdisjoint := hplaced.disjoint hslot hsound.slot_lt
    (hsound.unreferenced hpending index hpresent)
  simp only [Region.endBytes] at hdisjoint ⊢
  omega

theorem FlashKept.eq_of_not_writing {state : State} (hphase : state.phase ≠ .writing)
    {before after : Flash} (hkept : FlashKept geometry state before after) : after = before :=
  funext fun address => hkept address fun hwriting => absurd hwriting hphase

theorem FlashKept.intact {state : State} (hvalid : stateValid state geometry = true)
    (hplaced : WellPlaced geometry) {before after : Flash}
    (hkept : FlashKept geometry state before after) (hintact : Intact sha256 geometry before state) :
    Intact sha256 geometry after state := by
  refine ⟨hkept.bound hvalid hplaced hintact, fun hcomplete => ?_⟩
  have hphase : state.phase ≠ .writing := by
    intro hwriting
    rw [hwriting] at hcomplete
    cases hcomplete
  rw [hkept.eq_of_not_writing hphase]
  exact hintact.candidate hcomplete

/-! ## Every execution keeps the invariant -/

/-- A validated candidate is what flash holds when its operation stops. -/
theorem candidate_of_validated {operation : Operation} {opened own future : SlotsTrace}
    {blob : Blob} {answer : Bool} {before after : Flash}
    (hvalidated : CandidateValidated sha256 geometry operation own)
    (hfuture : FlashUntouched future)
    (hpath : flashWorld.Path before (opened ++ own ++ ⟨.writeBlob blob, answer⟩ :: future) after) :
    PackageIntact sha256 geometry after operation.slot operation.packageSizeBytes
      operation.packageSha256 := by
  obtain ⟨earlier, readBack, reads, rfl, hhashed, hreads⟩ := hvalidated
  have hquiet : FlashUntouched (⟨.validateEnter operation operation.packageSizeBytes.toNat, ()⟩ ::
      reads ++ [⟨.validateReturn .ok, ()⟩] ++ ⟨.writeBlob blob, answer⟩ :: future) := by
    intro event hevent
    simp only [List.cons_append, List.append_assoc, List.nil_append, List.mem_cons,
      List.mem_append] at hevent
    rcases hevent with rfl | hevent | rfl | rfl | hevent
    · rfl
    · exact hreads.flashUntouched event hevent
    · rfl
    · rfl
    · exact hfuture event hevent
  rw [show opened ++ (earlier ++ readBack ++ (⟨.validateEnter operation
      operation.packageSizeBytes.toNat, ()⟩ :: reads ++ [⟨.validateReturn .ok, ()⟩])) ++
      ⟨.writeBlob blob, answer⟩ :: future = (opened ++ earlier) ++ (readBack ++
      (⟨.validateEnter operation operation.packageSizeBytes.toNat, ()⟩ :: reads ++
        [⟨.validateReturn .ok, ()⟩] ++ ⟨.writeBlob blob, answer⟩ :: future)) by simp] at hpath
  obtain ⟨programmed, -, hpath⟩ := World.path_append.mp hpath
  obtain ⟨read, hreadBack, hrest⟩ := World.path_append.mp hpath
  have hintact := hhashed.sha256_bytes hreadBack
  obtain rfl := hhashed.readsFlash.flashUntouched.flash_eq hreadBack
  rwa [hquiet.flash_eq hrest]

/-- What becomes of the state and its bindings in one execution. -/
inductive Successor (request : Request) (trace : SlotsTrace) (state : State) : State → Prop
  | /-- The record is what it was. -/
    same : Successor request trace state state
  | /-- The record moved, and the bindings stayed. -/
    moved {next : State} (hchanges : request.changesRecord = true)
      (hbindings : next.bindings = state.bindings) : Successor request trace state next
  | /-- The record write of `confirm` took effect: the candidate became the binding
    of the target firmware. -/
    installed {io hasState : Bool} {expectedSequence : UInt32} {next : State}
      {index : Fin bindingCount} {answer : Bool}
      (hrequest : request = .confirm io expectedSequence
        (some state.operation.targetFirmwareSha256) (some state.operation.trialBootId) hasState)
      (hwritten : ⟨.writeBlob (encodeState next), answer⟩ ∈ trace)
      (hindex : bindingForFirmware state state.operation.targetFirmwareSha256 = some index)
      (hphase : next.phase = .confirmed)
      (hbindings : next.bindings = Function.update state.bindings index
        ((state.bindings index).install state.operation)) : Successor request trace state next

/-- One execution, finished or cut, keeps the invariant. -/
theorem intact_of_exec (hplaced : WellPlaced geometry) {state : State}
    (hloaded : Loaded geometry state) {before : Flash}
    (hintact : Intact sha256 geometry before state) {residual : Program SlotsPort Reply}
    {after : Option Blob × Flash} {trace : SlotsTrace}
    (hexec : Exec (recordWorld.prod flashWorld) (request.program sha256 geometry)
      (some (encodeState state), before) trace residual after) :
    ∃ next, after.1 = some (encodeState next) ∧ Loaded geometry next ∧
      Intact sha256 geometry after.2 next ∧ Successor request trace state next := by
  have hkept := flashKept_of_exec hloaded hexec
  have hbound := hkept.bound hloaded.valid hplaced hintact
  have hcandidate := (hkept.intact hloaded.valid hplaced hintact).candidate
  cases effect_of_exec hexec.fst with
  | unchanged heq =>
      exact ⟨state, heq, hloaded, hkept.intact hloaded.valid hplaced hintact, .same⟩
  | @moved past future current next answer htrace hcommitting hbefore hafter =>
      refine ⟨next, hafter, hcommitting.loaded_next, ?_⟩
      obtain ⟨own, rfl, hinner, htransition⟩ := hcommitting.opened
      cases htransition with
      | founded hhashed => cases hbefore
      | @reserved _ _ _ _ _ current _ selected hphase hselected =>
          obtain rfl := hloaded.injective (hcommitting.loaded current rfl) (Option.some.inj hbefore)
          exact ⟨⟨hbound, fun hcomplete => by cases hcomplete⟩, .moved rfl rfl⟩
      | @prepared _ _ _ _ _ current _ hphase hvalidated =>
          obtain rfl := hloaded.injective (hcommitting.loaded current rfl) (Option.some.inj hbefore)
          subst htrace
          exact ⟨⟨hbound, fun _ => candidate_of_validated hvalidated (quiet_after_write hexec).1
            hexec.snd.path⟩, .moved rfl rfl⟩
      | @trialStarted _ _ _ _ current _ hphase hboot =>
          obtain rfl := hloaded.injective (hcommitting.loaded current rfl) (Option.some.inj hbefore)
          exact ⟨⟨hbound, fun _ => hcandidate (by simp [hphase, Phase.complete, Phase.code])⟩,
            .moved rfl rfl⟩
      | @healthVerified _ _ _ current _ hphase =>
          obtain rfl := hloaded.injective (hcommitting.loaded current rfl) (Option.some.inj hbefore)
          exact ⟨⟨hbound, fun _ => hcandidate (by simp [hphase, Phase.complete, Phase.code])⟩,
            .moved rfl rfl⟩
      | @confirmed _ _ _ current _ index hindex hphase =>
          obtain rfl := hloaded.injective (hcommitting.loaded current rfl) (Option.some.inj hbefore)
          refine ⟨⟨fun other hpresent => ?_, fun hcomplete => by cases hcomplete⟩,
            .installed rfl (htrace ▸ List.mem_append_right _ List.mem_cons_self) hindex rfl rfl⟩
          by_cases heq : other = index
          · subst heq
            simpa [Binding.install] using
              hcandidate (by simp [hphase, Phase.complete, Phase.code])
          · simp only [Function.update_of_ne heq] at hpresent ⊢
            exact hbound other hpresent
      | @abandoned _ _ _ _ _ current _ hphase =>
          obtain rfl := hloaded.injective (hcommitting.loaded current rfl) (Option.some.inj hbefore)
          exact ⟨⟨hbound, fun hcomplete => by cases hcomplete⟩, .moved rfl rfl⟩

/-- The invariant of a device: its record decodes to a state that is intact. -/
def Consistent (sha256 : List UInt8 → Sha256) (geometry : Geometry)
    (device : Option Blob × Flash) : Prop :=
  ∃ state, device.1 = some (encodeState state) ∧ Loaded geometry state ∧
    Intact sha256 geometry device.2 state

/-- Sessions of executions, each finished or cut, keep the invariant. -/
theorem consistent_of_session (hplaced : WellPlaced geometry)
    {first last : Option Blob × Flash}
    {episodes : List (Episode Request SlotsPort Reply (Option Blob × Flash))}
    (hsession : Session (recordWorld.prod flashWorld) (Request.program sha256 geometry) first
      episodes last) (hfirst : Consistent sha256 geometry first) :
    Consistent sha256 geometry last := by
  refine (hsession.keeps (Consistent sha256 geometry) ?_ hfirst).1
  rintro request ⟨record, flash⟩ trace residual after hexec ⟨state, rfl, hloaded, hintact⟩
  obtain ⟨next, hafter, hnext, hkept, -⟩ := intact_of_exec hplaced hloaded hintact hexec
  exact ⟨next, hafter, hnext, hkept⟩

/-- Sessions of `load` and `reconcile` leave the record alone. -/
theorem record_eq_of_reading_session {first last : Option Blob × Flash}
    {episodes : List (Episode Request SlotsPort Reply (Option Blob × Flash))}
    (hsession : Session (recordWorld.prod flashWorld) (Request.program sha256 geometry) first
      episodes last) (hreading : ∀ episode ∈ episodes, episode.request.changesRecord = false) :
    last.1 = first.1 := by
  induction hsession with
  | start => rfl
  | @next before after episodes earlier request trace residual hlast ih =>
      rw [← ih fun episode hepisode => hreading episode (List.mem_append_left _ hepisode)]
      have hrequest := hreading ⟨request, before, trace, residual, after⟩ (by simp)
      refine record_eq_of_path hlast.fst.path fun event hevent => ?_
      obtain ⟨past, future, rfl⟩ := List.append_of_mem hevent
      have hharmless : (request.program sha256 geometry).Safe (World.history SlotsPort)
          (fun _ call => Harmless call) (fun _ _ => True) [] :=
        (uses_reading request hrequest).safe
      exact (hharmless.promise_of_mem hlast).2

end Slots
