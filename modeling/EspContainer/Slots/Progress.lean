/-
# No dead ends

A valid record can always be succeeded. Whatever an operation builds from a valid
record after its own checks is valid again, so the check in `commit_next` never
stands in the way of a device that is not at the last sequence number. And the
two operations that lead out of every phase get there: `reserve` from a settled
record and `abandon` from one with a candidate under construction reach the
record write whenever the packages of the bindings are intact.
-/

import EspContainer.Slots.Bindings
import EspContainer.Slots.Reconcile

namespace Slots

open Binary Interaction Package
open Fallible (attempt require chunked Yields)

variable {sha256 : List UInt8 → Sha256} {geometry : Geometry} {request : Request}

/-! ## Validity, clause by clause -/

/-- The fields an operation of a valid record has in every phase but the first. -/
structure Operation.Filled (geometry : Geometry) (operation : Operation) : Prop where
  operationId : allZero operation.operationId = false
  targetFirmware : allZero operation.targetFirmwareSha256 = false
  package : allZero operation.packageSha256 = false
  slot_lt : operation.slot.toNat < slotCount
  size_ne : operation.packageSizeBytes ≠ 0
  fits : operation.packageSizeBytes.toNat ≤ (geometry.slot operation.slot).sizeBytes
  guestAbi_ne : operation.guestAbiVersion ≠ 0
  dataSchema_ne : operation.dataSchemaVersion ≠ 0

/-- The trial boot id is set from the start of the trial on. -/
def TrialRecorded (phase : Phase) (bootId : BootId) : Prop :=
  match phase with
  | .writing | .prepared => allZero bootId = true
  | .trialStarted | .healthVerified | .confirmed => allZero bootId = false
  | .idle | .aborted => True

theorem operationValid_iff {state : State} (hphase : state.phase ≠ .idle) :
    operationValid state geometry = true ↔
      state.operation.Filled geometry ∧
      (state.phase.pending = true → ∀ index, (state.bindings index).packagePresent = true →
        (state.bindings index).slot ≠ state.operation.slot) ∧
      (∃ index, (state.bindings index).present = true ∧
        (state.bindings index).firmwareSha256 = state.operation.targetFirmwareSha256) ∧
      TrialRecorded state.phase state.operation.trialBootId := by
  have hfilled : state.operation.Filled geometry ↔
      (allZero state.operation.operationId || allZero state.operation.targetFirmwareSha256 ||
      allZero state.operation.packageSha256 || state.operation.slot.toNat ≥ slotCount ||
      state.operation.packageSizeBytes == 0 ||
      state.operation.packageSizeBytes.toNat > (geometry.slot state.operation.slot).sizeBytes ||
      state.operation.guestAbiVersion == 0 || state.operation.dataSchemaVersion == 0) = false := by
    simp only [Bool.or_eq_false_iff, decide_eq_false_iff_not, ge_iff_le, not_le, gt_iff_lt, not_lt,
      beq_eq_false_iff_ne]
    constructor
    · rintro ⟨hid, htarget, hpackage, hslot, hsize, hfits, habi, hschema⟩
      exact ⟨⟨⟨⟨⟨⟨⟨hid, htarget⟩, hpackage⟩, hslot⟩, hsize⟩, hfits⟩, habi⟩, hschema⟩
    · rintro ⟨⟨⟨⟨⟨⟨⟨hid, htarget⟩, hpackage⟩, hslot⟩, hsize⟩, hfits⟩, habi⟩, hschema⟩
      exact ⟨hid, htarget, hpackage, hslot, hsize, hfits, habi, hschema⟩
  rw [hfilled]
  simp only [operationValid, if_neg hphase, Bool.if_false_left, Bool.and_eq_true,
    Bool.not_eq_true', decide_eq_false_iff_not, not_exists, not_and, not_forall, not_not,
    exists_prop, Bool.not_eq_true]
  refine and_congr Iff.rfl (and_congr ?_ (and_congr Iff.rfl ?_))
  · exact ⟨fun h hpending index => h index hpending, fun h index hpending => h hpending index⟩
  · unfold TrialRecorded
    cases hcases : state.phase <;> simp at *

/-- What `state_valid` guarantees, clause by clause. -/
structure StateSound (geometry : Geometry) (state : State) : Prop where
  sequence_ne : state.sequence ≠ 0
  bindings : ∀ index, bindingValid (state.bindings index) geometry = true
  present : ∃ index, (state.bindings index).present = true
  distinct : ∀ first second, (state.bindings first).present = true →
    (state.bindings second).present = true →
    (state.bindings first).firmwareSha256 = (state.bindings second).firmwareSha256 →
    first = second
  shared : ∀ first second, (state.bindings first).packagePresent = true →
    (state.bindings second).packagePresent = true →
    (state.bindings first).slot = (state.bindings second).slot →
    (state.bindings first).packageSizeBytes = (state.bindings second).packageSizeBytes ∧
      (state.bindings first).packageSha256 = (state.bindings second).packageSha256 ∧
      (state.bindings first).guestAbiVersion = (state.bindings second).guestAbiVersion ∧
      (state.bindings first).dataSchemaVersion = (state.bindings second).dataSchemaVersion
  operation : operationValid state geometry = true
  installed : state.phase = .confirmed → ∃ index,
    (state.bindings index).installs state.operation = true

theorem stateSound_of_stateValid {state : State} (hvalid : stateValid state geometry = true) :
    StateSound geometry state where
  sequence_ne := by
    unfold stateValid at hvalid
    grind
  bindings := by
    unfold stateValid at hvalid
    exact Fin.forall_fin_two.mpr ⟨by grind, by grind⟩
  present := by
    unfold stateValid at hvalid
    exact Fin.exists_fin_two.mpr (by grind)
  distinct := fun _ _ => binding_unique hvalid
  shared := fun _ _ => shared_slot hvalid
  operation := by
    unfold stateValid at hvalid
    grind
  installed := by
    unfold stateValid at hvalid
    grind

theorem StateSound.trialRecorded {state : State} (hsound : StateSound geometry state)
    (hphase : state.phase ≠ .idle) :
    TrialRecorded state.phase state.operation.trialBootId :=
  ((operationValid_iff hphase).mp hsound.operation).2.2.2

theorem StateSound.stateValid {state : State} (hsound : StateSound geometry state) :
    stateValid state geometry = true := by
  have hdistinct := hsound.distinct 0 1
  have hshared := hsound.shared 0 1
  have hpresent := Fin.exists_fin_two.mp hsound.present
  have hne := hsound.sequence_ne
  have hfirst := hsound.bindings 0
  have hsecond := hsound.bindings 1
  have hoperation := hsound.operation
  have hinstalled := hsound.installed
  unfold Slots.stateValid
  grind

/-! ## Slots for a new operation -/

/-- No binding references the slot, and it is large enough for the operation. -/
def Vacant (geometry : Geometry) (current : State) (operation : Operation)
    (index : Fin slotCount) : Prop :=
  (∀ binding, (current.bindings binding).packagePresent = true →
      (current.bindings binding).slot.toNat ≠ index.val) ∧
    operation.packageSizeBytes.toNat ≤ (geometry.slots index).sizeBytes

/-- A search through all indices finds the least one. -/
private theorem find?_finRange_eq_some_iff {n : Nat} {check : Fin n → Bool} {found : Fin n} :
    (List.finRange n).find? check = some found ↔ IsLeast { index | check index = true } found := by
  rw [List.find?_eq_some_iff_getElem]
  constructor
  · rintro ⟨hfound, place, hplace, hget, hearlier⟩
    obtain rfl : place = found.val := by
      rw [← hget, List.getElem_finRange]
      rfl
    refine ⟨hfound, fun other hother => ?_⟩
    by_contra hlt
    have hfailed := hearlier other.val (not_le.mp hlt)
    rw [List.getElem_finRange] at hfailed
    simp only [Fin.cast_mk, Fin.eta, Bool.not_eq_true'] at hfailed
    exact absurd hother (by simp [hfailed])
  · rintro ⟨hfound, hleast⟩
    refine ⟨hfound, found.val, by simp, by simp, fun earlier hlt => ?_⟩
    rw [List.getElem_finRange, Bool.not_eq_true', ← Bool.not_eq_true]
    intro hother
    exact absurd (hleast hother) (not_le.mpr hlt)

/-- `reserve` takes the lowest-numbered vacant slot. -/
theorem selectSlot_eq_some_iff {current : State} {operation : Operation}
    {selected : Fin slotCount} :
    selectSlot geometry current operation = some selected ↔
      IsLeast { index | Vacant geometry current operation index } selected := by
  rw [selectSlot, find?_finRange_eq_some_iff]
  simp only [Bool.and_eq_true, Bool.not_eq_true', decide_eq_false_iff_not, decide_eq_true_eq,
    not_exists, not_and, Vacant, ne_eq]

/-! ## Successors of a valid record are valid -/

/-- The stored number of a slot. -/
theorem toNat_ofNat_slot (selected : Fin slotCount) :
    (UInt8.ofNat selected.val).toNat = selected.val := by
  have hlt : selected.val < 3 := selected.isLt
  rw [UInt8.toNat_ofNat']
  omega

/-- The fields of a new operation in a vacant slot are filled. -/
theorem filled_of_reserved {current : State} (hsound : StateSound geometry current)
    {firmwareSet : FirmwareSet} {operation : Operation} {selected : Fin slotCount}
    {index : Fin bindingCount} (hrequest : reserveRequestValid firmwareSet operation = true)
    (hpresent : (current.bindings index).present = true)
    (hfirmware : (current.bindings index).firmwareSha256 = operation.targetFirmwareSha256)
    (hfits : operation.packageSizeBytes.toNat ≤ (geometry.slots selected).sizeBytes) :
    Operation.Filled geometry { operation with slot := UInt8.ofNat selected } := by
  have htarget : allZero operation.targetFirmwareSha256 = false := by
    have hbinding := hsound.bindings index
    rw [← hfirmware]
    unfold bindingValid at hbinding
    grind
  have hslot := toNat_ofNat_slot selected
  simp only [reserveRequestValid, Bool.not_eq_true', Bool.or_eq_false_iff, beq_eq_false_iff_ne]
    at hrequest
  obtain ⟨⟨⟨⟨⟨⟨⟨hid, hpackage⟩, -⟩, -⟩, hsize⟩, habi⟩, hschema⟩, -⟩ := hrequest
  refine ⟨hid, htarget, hpackage, by rw [hslot]; exact selected.isLt, hsize, ?_, habi, hschema⟩
  rw [Geometry.slot_eq (by rw [hslot]; exact selected.isLt)]
  simpa only [hslot] using hfits

/-- The operation of a candidate under construction stays valid in a later phase. -/
theorem operationValid_advance {current planned : State}
    (hoperation : operationValid current geometry = true) (hpending : current.phase.pending = true)
    (hbindings : planned.bindings = current.bindings) {bootId : BootId}
    (hplanned : planned.operation = { current.operation with trialBootId := bootId })
    (hphase : planned.phase ≠ .idle) (htrial : TrialRecorded planned.phase bootId) :
    operationValid planned geometry = true := by
  have hcurrent : current.phase ≠ .idle := by
    intro hidle
    rw [hidle] at hpending
    cases hpending
  obtain ⟨hfilled, hfree, hbound, -⟩ := (operationValid_iff hcurrent).mp hoperation
  rw [operationValid_iff hphase, hbindings, hplanned]
  exact ⟨⟨hfilled.operationId, hfilled.targetFirmware, hfilled.package, hfilled.slot_lt,
    hfilled.size_ne, hfilled.fits, hfilled.guestAbi_ne, hfilled.dataSchema_ne⟩,
    fun _ => hfree hpending, hbound, htrial⟩

/-- A successor with the same bindings is sound if its operation is valid. -/
theorem StateSound.succeed {current planned : State} (hsound : StateSound geometry current)
    (hsequence : current.sequence + 1 ≠ 0) (hbindings : planned.bindings = current.bindings)
    (hphase : planned.phase ≠ .confirmed) (hoperation : operationValid planned geometry = true) :
    StateSound geometry { planned with sequence := current.sequence + 1 } where
  sequence_ne := hsequence
  bindings := by simpa only [hbindings] using hsound.bindings
  present := by simpa only [hbindings] using hsound.present
  distinct := by simpa only [hbindings] using hsound.distinct
  shared := by simpa only [hbindings] using hsound.shared
  operation := hoperation
  installed := fun hconfirmed => absurd hconfirmed hphase

/-- Installing the candidate in the binding of its firmware keeps a record sound. -/
theorem StateSound.confirm {current : State} (hsound : StateSound geometry current)
    (hsequence : current.sequence + 1 ≠ 0) {index : Fin bindingCount}
    (hindex : bindingForFirmware current current.operation.targetFirmwareSha256 = some index)
    (hphase : current.phase = .healthVerified) :
    StateSound geometry
      { current with
        sequence := current.sequence + 1
        bindings := Function.update current.bindings index
          ((current.bindings index).install current.operation)
        phase := .confirmed } := by
  obtain ⟨hpresent, hfirmware⟩ := bindingForFirmware_spec hindex
  obtain ⟨hfilled, hfree, hbound, htrial⟩ :=
    (operationValid_iff (by simp [hphase])).mp hsound.operation
  have hunreferenced := hfree (by rw [hphase]; rfl)
  -- Which firmware a binding is for does not change, and only `index` gets a new slot.
  have hkept : ∀ other, (Function.update current.bindings index
        ((current.bindings index).install current.operation) other).present =
        (current.bindings other).present ∧
      (Function.update current.bindings index
        ((current.bindings index).install current.operation) other).firmwareSha256 =
        (current.bindings other).firmwareSha256 := by
    intro other
    by_cases hother : other = index
    · subst hother
      simp [Binding.install]
    · simp [Function.update_of_ne hother]
  have hinstalled : ((current.bindings index).install current.operation).installs
      current.operation = true := by
    simp [Binding.installs, Binding.install, hpresent, hfirmware]
  refine ⟨hsequence, fun other => ?_, ?_, fun first second => ?_, fun first second => ?_, ?_,
    fun _ => ⟨index, ?_⟩⟩
  · by_cases hother : other = index
    · subst hother
      have hnonzero : allZero (current.bindings other).firmwareSha256 = false := by
        rw [hfirmware]
        exact hfilled.targetFirmware
      have hsize := hfilled.size_ne
      have habi := hfilled.guestAbi_ne
      have hschema := hfilled.dataSchema_ne
      simp only [Function.update_self, Binding.install, bindingValid, hpresent, hnonzero]
      simp [hfilled.slot_lt, hfilled.package, hfilled.fits, UInt32.pos_iff_ne_zero, hsize, habi,
        hschema]
    · simpa only [Function.update_of_ne hother] using hsound.bindings other
  · exact ⟨index, (hkept index).1.trans hpresent⟩
  · simp only [hkept]
    exact hsound.distinct first second
  · by_cases hfirst : first = index
    · by_cases hsecond : second = index
      · simp [hfirst, hsecond]
      · subst hfirst
        simp only [Function.update_self, Function.update_of_ne hsecond, Binding.install]
        intro _ hpackage hslot
        exact absurd hslot.symm (hunreferenced second hpackage)
    · by_cases hsecond : second = index
      · subst hsecond
        simp only [Function.update_self, Function.update_of_ne hfirst, Binding.install]
        intro hpackage _ hslot
        exact absurd hslot (hunreferenced first hpackage)
      · simp only [Function.update_of_ne hfirst, Function.update_of_ne hsecond]
        exact hsound.shared first second
  · refine (operationValid_iff (by simp)).mpr ⟨hfilled, by rintro ⟨⟩, ⟨index, ?_⟩, ?_⟩
    · simp only [hkept]
      exact ⟨hpresent, hfirmware⟩
    · rw [hphase] at htrial
      exact htrial
  · simpa only [Function.update_self] using hinstalled

/-- Whatever an operation builds from a valid record is valid once the sequence
number is advanced. -/
theorem stateValid_of_plan {current planned : State} (hvalid : stateValid current geometry = true)
    (hlast : current.sequence ≠ UInt32.ofNat uint32Max)
    (hplan : Plan geometry request current planned) :
    stateValid { planned with sequence := current.sequence + 1 } geometry = true := by
  have hsound := stateSound_of_stateValid hvalid
  have hsequence : current.sequence + 1 ≠ 0 := by
    intro hzero
    apply hlast
    have hnat := congrArg UInt32.toNat hzero
    have hlt := current.sequence.toNat_lt
    apply UInt32.toNat.inj
    simp only [UInt32.toNat_add, UInt32.toNat_ofNat, UInt32.toNat_ofNat', uint32Max] at hnat ⊢
    omega
  apply StateSound.stateValid
  cases hplan with
  | @reserved _ _ _ firmwareSet operation _ selected hrequest hset hschema hfresh hphase hselected =>
      obtain ⟨⟨hfree, hfits⟩, -⟩ := selectSlot_eq_some_iff.mp hselected
      have hbound : ∃ index, (current.bindings index).present = true ∧
          (current.bindings index).firmwareSha256 = operation.targetFirmwareSha256 := by
        simp only [reserveRequestValid, Bool.not_eq_true', Bool.or_eq_false_iff,
          bne_eq_false_iff_eq] at hrequest
        unfold schemaContinues at hschema
        cases hfound : bindingForFirmware current firmwareSet.runningFirmwareSha256 with
        | none => simp [hfound] at hschema
        | some found =>
            obtain ⟨hpresent, hfirmware⟩ := bindingForFirmware_spec hfound
            exact ⟨found, hpresent, hfirmware.trans hrequest.1.1.1.1.1.2.symm⟩
      refine hsound.succeed hsequence rfl (by simp) ?_
      obtain ⟨index, hpresent, hfirmware⟩ := hbound
      refine (operationValid_iff (by simp)).mpr ⟨filled_of_reserved hsound hrequest hpresent hfirmware hfits, ?_,
        ⟨index, hpresent, hfirmware⟩, ?_⟩
      · intro _ other hpackage heq
        exact hfree other hpackage (by rw [heq]; exact toNat_ofNat_slot selected)
      · simp only [reserveRequestValid, Bool.not_eq_true', Bool.or_eq_false_iff,
          Bool.not_eq_false'] at hrequest
        exact hrequest.2
  | prepared hphase =>
      refine hsound.succeed hsequence rfl (by simp) ?_
      refine operationValid_advance hsound.operation (by rw [hphase]; rfl) rfl rfl (by simp) ?_
      have htrial := hsound.trialRecorded (by simp [hphase])
      rw [hphase] at htrial
      exact htrial
  | @trialStarted _ _ _ bootId _ hphase hboot =>
      refine hsound.succeed hsequence rfl (by simp) ?_
      refine operationValid_advance hsound.operation (by rw [hphase]; rfl) rfl rfl (by simp) ?_
      exact Bool.eq_false_iff.mpr fun hzero => hboot ((allZero_iff _).mp hzero)
  | healthVerified hphase =>
      refine hsound.succeed hsequence rfl (by simp) ?_
      refine operationValid_advance hsound.operation (by rw [hphase]; rfl) rfl rfl (by simp) ?_
      have htrial := hsound.trialRecorded (by simp [hphase])
      rw [hphase] at htrial
      exact htrial
  | confirmed hindex hphase => exact hsound.confirm hsequence hindex hphase
  | abandoned hphase =>
      refine hsound.succeed hsequence rfl (by simp) ?_
      exact operationValid_advance hsound.operation hphase rfl rfl (by simp) trivial

/-! ## What an operation can be refused with -/

/-- The codes of a read-back that did not show the expected package. -/
def ReadBackFails (code : SlotsError) : Prop := code = .ioFailed ∨ code = .untrusted

theorem yields_hashFlash {slot : UInt8} {sizeBytes : UInt32} {expectedSha256 : Sha256}
    (hslot : slot.toNat < slotCount) (hpositive : sizeBytes ≠ 0)
    (hfits : sizeBytes.toNat ≤ (geometry.slot slot).sizeBytes) :
    Yields ReadBackFails (fun _ => True)
      (hashFlash sha256 geometry slot sizeBytes expectedSha256) := by
  rw [hashFlash, Fallible.yields_bind, Fallible.yields_require]
  refine ⟨fun _ => ?_, fun hguard => by simp [hslot, hpositive, hfits] at hguard⟩
  rw [Fallible.yields_bind]
  refine Fallible.yields_attempt _ fun started => ?_
  rw [Fallible.yields_bind, Fallible.yields_require]
  refine ⟨fun _ => ?_, fun _ => .inl rfl⟩
  rw [Fallible.yields_bind]
  refine Fallible.Yields.mono (Fallible.yields_chunked (by decide) ?_ []) (fun _ h => h) ?_
  · intro offset count fed _
    rw [hashChunk, Fallible.yields_bind]
    refine Fallible.yields_attempt _ fun answer => ?_
    cases answer with
    | failed left => exact .inl rfl
    | ok buffer =>
        rw [Fallible.yields_bind]
        refine Fallible.yields_attempt _ fun updated => ?_
        rw [Fallible.yields_bind, Fallible.yields_require]
        exact ⟨fun _ => trivial, fun _ => .inl rfl⟩
  · intro fed _
    rw [Fallible.yields_bind]
    refine Fallible.yields_attempt _ fun finished => ?_
    rw [Fallible.yields_bind, Fallible.yields_require]
    refine ⟨fun _ => ?_, fun _ => .inl rfl⟩
    rw [Fallible.yields_require]
    exact ⟨fun _ => trivial, fun _ => .inr rfl⟩

theorem yields_checkReferences {state : State} (hvalid : stateValid state geometry = true)
    (candidate : Bool) :
    Yields ReadBackFails (fun _ => True) (checkReferences sha256 geometry state candidate) := by
  have hbinding : ∀ index, Yields ReadBackFails (fun _ => True)
      (checkBinding sha256 geometry (state.bindings index)) := by
    intro index
    unfold checkBinding
    split
    · next hpackage =>
      obtain ⟨hslot, hfits, hpositive⟩ := binding_fits hvalid index hpackage
      exact yields_hashFlash hslot hpositive hfits
    · trivial
  rw [checkReferences, Fallible.yields_bind]
  refine (hbinding 0).mono (fun _ h => h) fun _ _ => ?_
  rw [Fallible.yields_bind]
  refine (hbinding 1).mono (fun _ h => h) fun _ _ => ?_
  cases candidate with
  | false => trivial
  | true =>
      simp only [if_true, checkCandidate]
      split
      · next hcomplete =>
        have hphase : state.phase ≠ .idle := by
          intro hidle
          rw [hidle] at hcomplete
          cases hcomplete
        have hsound := operationSound_of_stateValid hvalid hphase
        exact yields_hashFlash hsound.slot_lt hsound.size_ne hsound.fits
      · trivial

theorem yields_programCandidate (operation : Operation) :
    Yields ReadBackFails (fun _ => True) (programCandidate geometry operation) := by
  rw [programCandidate, Fallible.yields_bind]
  refine Fallible.yields_attempt _ fun erased => ?_
  rw [Fallible.yields_bind, Fallible.yields_require]
  refine ⟨fun _ => Fallible.yields_chunked (by decide) ?_ (), fun _ => .inl rfl⟩
  intro offset actual _ _
  rw [programChunk, Fallible.yields_bind]
  refine Fallible.yields_attempt _ fun answer => ?_
  cases answer with
  | failed left => exact .inl rfl
  | ok buffer =>
      rw [Fallible.yields_bind]
      refine Fallible.yields_attempt _ fun written => ?_
      rw [Fallible.yields_require]
      exact ⟨fun _ => trivial, fun _ => .inl rfl⟩

theorem ReadBackFails.ne_invalid {code : SlotsError} (hfails : ReadBackFails code) :
    code ≠ .invalid := by
  rcases hfails with rfl | rfl
  · decide
  · decide

/-- A guard whose refusal is not INVALID. -/
theorem yields_guard {α : Type} {check : Bool} {code : SlotsError} {next : Locked α}
    (hcode : code ≠ .invalid)
    (hnext : check = true → Yields (· ≠ .invalid) (fun _ => True) next) :
    Yields (· ≠ .invalid) (fun _ => True) (do
      require check code
      next) := by
  rw [Fallible.yields_bind, Fallible.yields_require]
  exact ⟨hnext, fun _ => hcode⟩

/-- The reference check of a valid record, and what follows it. -/
theorem yields_referencesThen {α : Type} {state : State}
    (hvalid : stateValid state geometry = true) (candidate : Bool) {next : Locked α}
    (hnext : Yields (· ≠ .invalid) (fun _ => True) next) :
    Yields (· ≠ .invalid) (fun _ => True) (do
      checkReferences sha256 geometry state candidate
      next) := by
  rw [Fallible.yields_bind]
  exact (yields_checkReferences hvalid candidate).mono (fun _ => ReadBackFails.ne_invalid)
    fun _ _ => hnext

/-- On a valid record no operation finds fault with the record itself. -/
theorem yields_prepare {current : State} (hvalid : stateValid current geometry = true)
    (request : Request) :
    Yields (· ≠ .invalid) (fun _ => True) (request.prepare sha256 geometry current) := by
  unfold Request.prepare
  split
  · rename_i firmwareSet operation _
    refine yields_guard (by decide) fun _ => yields_guard (by decide) fun _ =>
      yields_referencesThen hvalid true ?_
    cases hrepeated : repeatedRequest current operation with
    | some code =>
        rw [Fallible.yields_throw]
        unfold repeatedRequest at hrepeated
        grind
    | none =>
        refine yields_guard (by decide) fun _ => ?_
        cases selectSlot geometry current operation with
        | none => exact (by decide : SlotsError.noSpace ≠ .invalid)
        | some selected => trivial
  · refine yields_guard (by decide) fun hphase => yields_referencesThen hvalid false ?_
    have hsound := operationSound_of_stateValid hvalid fun hidle => by
      rw [hidle] at hphase
      cases hphase
    rw [Fallible.yields_bind]
    refine (yields_programCandidate _).mono (fun _ => ReadBackFails.ne_invalid) fun _ _ => ?_
    rw [Fallible.yields_bind]
    refine (yields_hashFlash hsound.slot_lt hsound.size_ne hsound.fits).mono
      (fun _ => ReadBackFails.ne_invalid) fun _ _ => ?_
    rw [Fallible.yields_bind, validateCandidate, Fallible.yields_bind]
    refine Fallible.yields_attempt _ fun _ => ?_
    rw [Fallible.yields_bind]
    refine Fallible.yields_attempt _ fun result => ?_
    rw [Fallible.yields_bind]
    refine Fallible.yields_attempt _ fun _ => ?_
    cases result with
    | ok => trivial
    | ioFailed => exact (by decide : SlotsError.ioFailed ≠ .invalid)
    | untrusted => exact (by decide : SlotsError.untrusted ≠ .invalid)
  · exact yields_guard (by decide) fun _ => yields_referencesThen hvalid true trivial
  · exact yields_guard (by decide) fun _ => yields_referencesThen hvalid true trivial
  · unfold confirmPrepare
    split
    · exact (by decide : SlotsError.conflict ≠ .invalid)
    · exact yields_guard (by decide) fun _ => yields_referencesThen hvalid true trivial
  · refine yields_guard (by decide) fun _ => ?_
    rw [Fallible.yields_bind]
    have hreferences : Yields (· ≠ .invalid) (fun _ => True) (do
        checkReferences sha256 geometry current false
        pure { current with phase := .aborted }) := yields_referencesThen hvalid false trivial
    unfold requireStopped
    split
    · rw [Fallible.yields_bind, Fallible.yields_require]
      refine ⟨fun _ => ?_, fun _ => by decide⟩
      rw [Fallible.yields_bind]
      refine Fallible.yields_attempt _ fun stopped => ?_
      rw [Fallible.yields_require]
      exact ⟨fun _ => hreferences, fun _ => by decide⟩
    · exact hreferences
  · trivial

/-! ## Runs on a stored record -/

/-- Committing a plan whose successor is valid fails only in the record store. -/
theorem yields_commitNext {current planned : State}
    (hlast : current.sequence ≠ UInt32.ofNat uint32Max)
    (hnext : stateValid { planned with sequence := current.sequence + 1 } geometry = true)
    {refusal : SlotsError → Prop} (hio : refusal .ioFailed) (huncertain : refusal .uncertain) :
    Yields refusal (fun _ => True) (commitNext geometry current planned) := by
  rw [commitNext, Fallible.yields_bind, Fallible.yields_require]
  refine ⟨fun _ => ?_, fun hguard => absurd (bne_eq_false_iff_eq.mp hguard) hlast⟩
  rw [Fallible.yields_bind, Fallible.yields_require]
  refine ⟨fun _ => ?_, fun hguard => by rw [hnext] at hguard; cases hguard⟩
  rw [persistLocked, Fallible.yields_bind]
  refine Fallible.yields_attempt _ fun committed => ?_
  rw [Fallible.yields_bind]
  refine Fallible.yields_attempt _ fun answer => ?_
  cases answer with
  | notFound => exact huncertain
  | readFailed => exact huncertain
  | found observed =>
      simp only
      split
      · rw [Fallible.yields_bind, Fallible.yields_require]
        refine ⟨fun _ => ?_, fun _ => huncertain⟩
        exact Fallible.yields_attempt _ fun _ => trivial
      · split
        · exact hio
        · exact huncertain

/-- What a transaction on a stored valid record can be refused with. -/
theorem refusal_transact {current : State} (hvalid : stateValid current geometry = true)
    (hlast : current.sequence ≠ UInt32.ofNat uint32Max) {expectedSequence : UInt32}
    {refusal : SlotsError → Prop} (hio : refusal .ioFailed) (huncertain : refusal .uncertain)
    (hconflict : current.sequence ≠ expectedSequence → refusal .conflict)
    {prepare : State → Locked State}
    (hprepare : Yields refusal (fun planned =>
      stateValid { planned with sequence := current.sequence + 1 } geometry = true)
      (prepare current)) :
    Fallible.Safe recordWorld (fun _ _ => True) (fun _ code => refusal code) (fun _ _ => True)
      (transact geometry expectedSequence prepare) (some (encodeState current)) := by
  simp only [transact, beginLocked, loadLocked, bind_assoc]
  rw [Fallible.safe_bind, ask, Fallible.safe_attempt]
  refine ⟨trivial, fun answer after hstep => ?_⟩
  rw [Program.safe_ret]
  cases answer with
  | notFound => cases hstep.1
  | readFailed => exact hio
  | found blob =>
      obtain rfl := Option.some.inj hstep.1
      simp only [decodeState_encodeState hvalid, pure_bind]
      rw [Fallible.safe_bind, Fallible.safe_require]
      constructor
      · intro _
        rw [Fallible.safe_bind]
        exact (hprepare.safe _).imp fun _ planned hplanned =>
          (yields_commitNext hlast hplanned hio huncertain).safe _
      · intro hguard
        exact hconflict (beq_eq_false_iff_ne.mp hguard)

/-- Replies of an operation whose locked part is refused with these codes only. -/
theorem refusal_withLock {W : World SlotsPort (Option Blob)}
    (hworld : ∀ before request answer after, W.Step before request answer after →
      recordWorld.Step before request answer after)
    {refusal : SlotsError → Prop} {record : Option Blob}
    (hbusy : ∀ after, W.Step record .lock false after → refusal .busy) {body : Locked Unit}
    (hbody : Fallible.Safe recordWorld (fun _ _ => True) (fun _ code => refusal code)
      (fun _ _ => True) body record) :
    (withLock body).Safe W (fun _ _ => True)
      (fun _ reply => ∀ code, reply = .error code → refusal code) record := by
  rw [withLock, Program.safe_bind]
  refine ⟨trivial, fun locked after hstep => ?_⟩
  cases locked with
  | false =>
      rintro code ⟨⟩
      exact hbusy _ hstep
  | true =>
      obtain rfl : after = record := hworld _ _ _ _ hstep
      simp only [if_true, Program.safe_ret, Program.safe_bind]
      refine (Program.Safe.comap (W := recordWorld) (V := W) id hworld hbody).imp
        fun _ result hresult => ⟨trivial, fun _ _ _ => ?_⟩
      rintro code rfl
      exact hresult

/-- A record store behind a lock that is granted when asked for. -/
def grantedWorld : World SlotsPort (Option Blob) :=
  recordWorld.restrict fun event => event ≠ ⟨.lock, false⟩

/-- A stored record is begun with by whoever expects its number. -/
theorem calm_beginLocked {state : State} (hloaded : Loaded geometry state) {device : Device}
    (hstored : device.1.1 = some (encodeState state)) :
    Fallible.Safe calmWorld anyCall (fun _ _ => False)
      (fun after current => current = state ∧ after = device)
      (beginLocked geometry state.sequence) device := by
  rw [beginLocked, Fallible.safe_bind]
  refine (calm_loadLocked hloaded hstored).imp ?_
  rintro _ _ ⟨rfl, rfl⟩
  rw [Fallible.safe_bind, Fallible.safe_require]
  exact ⟨fun _ => ⟨rfl, rfl⟩, fun hguard => absurd rfl (beq_eq_false_iff_ne.mp hguard)⟩

/-- A transaction whose middle part cannot fail on a calm device asks for the record
write it planned. -/
theorem calm_commit_reached {W : World SlotsPort Device}
    (hcalm : ∀ before request answer after, W.Step before request answer after →
      calmWorld.Step before request answer after)
    {current planned : State} (hloaded : Loaded geometry current) {device : Device}
    (hstored : device.1.1 = some (encodeState current))
    (hlast : current.sequence ≠ UInt32.ofNat uint32Max)
    (hnext : stateValid { planned with sequence := current.sequence + 1 } geometry = true)
    {prepare : State → Locked State}
    (hprepare : Fallible.Safe W anyCall (fun _ _ => False) (fun _ result => result = planned)
      (prepare current) device)
    {trace : SlotsTrace} {reply : Reply} {after : Device}
    (hexec : Exec W (withLock (transact geometry current.sequence prepare)) device trace
      (.ret reply) after) :
    ∃ answer, ⟨.writeBlob (encodeState { planned with sequence := current.sequence + 1 }),
      answer⟩ ∈ trace := by
  let written (state : SlotsTrace × Device) : Prop := ∃ answer, ⟨.writeBlob (encodeState
    { planned with sequence := current.sequence + 1 }), answer⟩ ∈ state.1
  have hbody : ∀ past, Fallible.Safe W.recorded (fun _ _ => True) (fun after _ => written after)
      (fun after _ => written after) (transact geometry current.sequence prepare)
      (past, device) := by
    intro past
    rw [transact, Fallible.safe_bind]
    refine (Fallible.Safe.comap (W := calmWorld) (V := W.recorded) Prod.snd
      (fun _ _ _ _ hstep => hcalm _ _ _ _ hstep.2) (calm_beginLocked hloaded hstored)).mono
      (fun _ _ _ => trivial) (fun _ _ hfalse => hfalse.elim) ?_
    rintro ⟨past, _⟩ _ ⟨rfl, rfl⟩
    rw [Fallible.safe_bind]
    refine (Fallible.Safe.comap (W := W) (V := W.recorded) Prod.snd
      (fun _ _ _ _ hstep => hstep.2) hprepare).mono
      (fun _ _ _ => trivial) (fun _ _ hfalse => hfalse.elim) ?_
    rintro before _ rfl
    rw [commitNext, Fallible.safe_bind, Fallible.safe_require]
    refine ⟨fun _ => ?_, fun hguard => absurd (bne_eq_false_iff_eq.mp hguard) hlast⟩
    rw [Fallible.safe_bind, Fallible.safe_require]
    refine ⟨fun _ => ?_, fun hguard => by rw [hnext] at hguard; cases hguard⟩
    rw [persistLocked, Fallible.safe_bind]
    refine (Fallible.safe_attempt _ _).mpr ⟨trivial, fun answer after hstep => ?_⟩
    rw [Program.safe_ret]
    have hwritten : ⟨SlotsCall.writeBlob _, answer⟩ ∈ after.1 := by
      rw [hstep.1]
      exact List.mem_append_right _ (List.mem_singleton_self _)
    refine (Program.safe_recorded_of_mem _ hwritten).imp ?_
    rintro _ (_ | _) hmem
    · exact ⟨answer, hmem⟩
    · exact ⟨answer, hmem⟩
  have hsafe : (withLock (transact geometry current.sequence prepare)).Safe W.recorded
      (fun _ _ => True) (fun after _ => written after) ([], device) := by
    rw [withLock, Program.safe_bind]
    refine ⟨trivial, ?_⟩
    rintro locked ⟨past, opened⟩ ⟨rfl, hstep⟩
    obtain ⟨rfl, hopened⟩ := calm_lock (hcalm _ _ _ _ hstep)
    obtain rfl : opened = device := hopened
    simp only [if_true, Program.safe_ret, Program.safe_bind]
    refine Program.Safe.imp (hbody _) fun after result hresult => ?_
    obtain ⟨answer, hmem⟩ : written after := by cases result <;> exact hresult
    exact (Program.safe_recorded_of_mem _ hmem).imp fun _ _ hlater => ⟨answer, hlater⟩
  simpa [written] using hsafe.post_of_exec (hexec.toRecorded [])

/-! ## Reserving from a settled record -/

/-- A well-formed reservation that the record has no reason to turn down. -/
structure Reservable (geometry : Geometry) (current : State) (firmwareSet : FirmwareSet)
    (operation : Operation) : Prop where
  settled : current.phase = .idle ∨ current.phase = .confirmed ∨ current.phase = .aborted
  set_valid : firmwareSetValid firmwareSet = true
  request_valid : reserveRequestValid firmwareSet operation = true
  set_matches : firmwareSetMatches current firmwareSet = true
  bound : ∃ index, bindingForFirmware current firmwareSet.runningFirmwareSha256 = some index ∧
    ((current.bindings index).packagePresent = true →
      (current.bindings index).dataSchemaVersion = operation.dataSchemaVersion)
  fresh : operation.operationId ≠ current.operation.operationId
  vacant : ∃ index, Vacant geometry current operation index

namespace Reservable

variable {current : State} {firmwareSet : FirmwareSet} {operation : Operation}
  (hreservable : Reservable geometry current firmwareSet operation)

include hreservable

theorem not_pending : current.phase.pending = false :=
  Phase.pending_eq_false_iff.mpr hreservable.settled

theorem schemaContinues : schemaContinues current firmwareSet operation = true := by
  obtain ⟨index, hindex, hschema⟩ := hreservable.bound
  simp only [Slots.schemaContinues, hindex]
  cases hpackage : (current.bindings index).packagePresent with
  | false => rfl
  | true => simp [hschema hpackage]

theorem not_repeated : repeatedRequest current operation = none := by
  rw [repeatedRequest, if_neg]
  rintro ⟨-, hsame⟩
  exact hreservable.fresh hsame.symm

theorem selects : ∃ selected, selectSlot geometry current operation = some selected := by
  obtain ⟨index, hvacant⟩ := hreservable.vacant
  cases hselected : selectSlot geometry current operation with
  | some selected => exact ⟨selected, rfl⟩
  | none =>
      have hnone := List.find?_eq_none.mp hselected index (List.mem_finRange index)
      simp only [Bool.and_eq_true, Bool.not_eq_true', decide_eq_false_iff_not, decide_eq_true_eq,
        not_exists, not_and] at hnone
      exact absurd hvacant.2 (hnone hvacant.1)

/-- Reserving is a transaction from such a record on. -/
theorem program_eq (hgeometry : geometryValid geometry = true) (expectedSequence : UInt32) :
    (Request.reserve true expectedSequence (some firmwareSet) (some operation) true).program sha256
        geometry =
      withLock (transact geometry expectedSequence
        (reservePrepare sha256 geometry firmwareSet operation)) := by
  simp [Request.program, reserve, hgeometry, hreservable.set_valid, hreservable.request_valid,
    reserveLocked_eq]

/-- All that can go wrong before the commit is a read-back. -/
theorem yields_prepare (hvalid : stateValid current geometry = true) {selected : Fin slotCount}
    (hselected : selectSlot geometry current operation = some selected) :
    Yields ReadBackFails (fun planned => planned =
        { current with
          phase := .writing
          operation := { operation with slot := UInt8.ofNat selected } })
      (reservePrepare sha256 geometry firmwareSet operation current) := by
  simp only [reservePrepare, Fallible.yields_bind, Fallible.yields_require,
    hreservable.set_matches, hreservable.schemaContinues, hreservable.not_repeated,
    hreservable.not_pending, hselected]
  refine ⟨fun _ => ⟨fun _ => ?_, by simp⟩, by simp⟩
  exact (yields_checkReferences hvalid true).mono (fun _ h => h) fun _ _ =>
    ⟨fun _ => rfl, by simp⟩

/-- On a calm device with intact bindings nothing goes wrong. -/
theorem calm_prepare (hplaced : WellPlaced geometry)
    (hvalid : stateValid current geometry = true) {selected : Fin slotCount}
    (hselected : selectSlot geometry current operation = some selected) {device : Device}
    (hbound : BoundIntact sha256 geometry device.1.2 current) :
    Fallible.Safe calmWorld anyCall (fun _ _ => False) (fun _ planned => planned =
        { current with
          phase := .writing
          operation := { operation with slot := UInt8.ofNat selected } })
      (reservePrepare sha256 geometry firmwareSet operation current) device := by
  have hcomplete : current.phase.complete = false := by
    rcases hreservable.settled with hphase | hphase | hphase <;> rw [hphase] <;> rfl
  have hreferences : checkReferences sha256 geometry current true =
      checkReferences sha256 geometry current false := by
    simp [checkReferences, checkCandidate, hcomplete]
  simp only [reservePrepare, Fallible.safe_bind, Fallible.safe_require, hreferences,
    hreservable.set_matches, hreservable.schemaContinues, hreservable.not_repeated,
    hreservable.not_pending, hselected]
  refine ⟨fun _ => ⟨fun _ => ?_, by simp⟩, by simp⟩
  exact (calm_checkReferences hplaced hvalid hbound).imp fun _ _ _ => ⟨fun _ => rfl, by simp⟩

end Reservable

/-! ## Abandoning a candidate -/

/-- The trial, if there is one, was in another boot or is known to have stopped. -/
def TrialOver (current : State) (bootId : BootId) (hasTrialStopped : Bool) (trace : SlotsTrace) :
    Prop :=
  bootId ≠ current.operation.trialBootId ∨
    hasTrialStopped = true ∧
      ∀ operationId, (⟨.trialStopped operationId, false⟩ : SlotsEvent) ∉ trace

/-- A calm device, less the refusals of a stop proof that were not given. -/
def stoppedWorld (proven : Bool) : World SlotsPort Device :=
  calmWorld.restrict fun event => proven = true → ∀ operationId,
    event ≠ ⟨.trialStopped operationId, false⟩

theorem calm_abandonPrepare (hplaced : WellPlaced geometry) {current : State}
    (hvalid : stateValid current geometry = true) (hpending : current.phase.pending = true)
    {bootId : BootId} {hasTrialStopped proven : Bool} {device : Device}
    (hbound : BoundIntact sha256 geometry device.1.2 current)
    (hover : bootId ≠ current.operation.trialBootId ∨ hasTrialStopped = true ∧ proven = true) :
    Fallible.Safe (stoppedWorld proven) anyCall (fun _ _ => False)
      (fun _ planned => planned = { current with phase := .aborted })
      (abandonPrepare sha256 geometry bootId hasTrialStopped current) device := by
  have hstopped : Fallible.Safe (stoppedWorld proven) anyCall (fun _ _ => False)
      (fun after _ => after = device) (requireStopped current bootId hasTrialStopped) device := by
    unfold requireStopped
    split
    · next htrial =>
      obtain ⟨hproof, hproven⟩ := hover.resolve_left fun hother => hother htrial.2.symm
      rw [Fallible.safe_bind, Fallible.safe_require]
      refine ⟨fun _ => ?_, fun hguard => by rw [hproof] at hguard; cases hguard⟩
      rw [Fallible.safe_bind]
      refine (Fallible.safe_attempt _ _).mpr ⟨trivial, fun answer after hstep => ?_⟩
      rw [Program.safe_ret, Fallible.safe_require]
      refine ⟨fun _ => ?_, fun hrefused => ?_⟩
      · exact Prod.ext (Prod.ext hstep.1.1.1.1 hstep.1.1.1.2) hstep.1.1.2
      · subst hrefused
        exact hstep.2 hproven _ rfl
    · rfl
  simp only [abandonPrepare, Fallible.safe_bind, Fallible.safe_require, hpending]
  refine ⟨fun _ => hstopped.imp ?_, by simp⟩
  rintro _ _ rfl
  exact (Fallible.Safe.comap (W := calmWorld) (V := stoppedWorld proven) id
    (fun _ _ _ _ hstep => hstep.1) (calm_checkReferences hplaced hvalid hbound)).imp
    fun _ _ _ => rfl

/-! ## No dead ends -/

/-- A run of a transaction from a stored valid record is never refused as INVALID. -/
theorem not_invalid_of_exec {current : State} (hvalid : stateValid current geometry = true)
    (hlast : current.sequence ≠ UInt32.ofNat uint32Max) {request : Request}
    (hsucceeds : request.expectedSequence ≠ none) {trace : SlotsTrace} {reply : Reply}
    {after : Option Blob}
    (hexec : Exec recordWorld (request.program sha256 geometry) (some (encodeState current)) trace
      (.ret reply) after) (htrace : trace ≠ []) : reply ≠ .error .invalid := by
  obtain ⟨expectedSequence, hexpected⟩ := Option.ne_none_iff_exists'.mp hsucceeds
  rcases @transacts_of_expectedSequence sha256 geometry request _ hexpected with
    hrefused | ⟨hprogram, hprepares⟩
  · rw [hrefused] at hexec
    cases hexec
    exact absurd rfl htrace
  · rw [hprogram] at hexec
    have hplanned := Fallible.yields_of_history ((hprepares current
      (decodeState_encodeState hvalid)).mono (fun _ _ h => h) (fun _ _ h => h)
      fun _ planned hpost => stateValid_of_plan hvalid hlast hpost.2)
    have hprepare := (hplanned.and (yields_prepare hvalid request)).mono
      (fun _ h => h.2) fun _ h => h.1
    have hbody := @refusal_transact _ _ hvalid hlast expectedSequence (· ≠ .invalid) (by decide)
      (by decide) (fun _ => by decide) _ hprepare
    intro hreply
    exact (refusal_withLock (fun _ _ _ _ h => h) (fun _ _ => by decide) hbody).post_of_exec hexec
      _ hreply rfl

/-- No dead ends. What an operation builds from a valid record, short of the last
sequence number, is valid again, so no run that gets past its argument checks is
refused as INVALID. A well-formed reservation from a settled record commits the
lowest-numbered vacant slot and is refused neither as BUSY nor as CONFLICT nor as
NO_SPACE; a candidate under construction can be abandoned whatever its slot holds. -/
theorem no_dead_end (sha256 : List UInt8 → Sha256) (geometry : Geometry) {current : State}
    (hgeometry : geometryValid geometry = true) (hvalid : stateValid current geometry = true)
    (hlast : current.sequence ≠ UInt32.ofNat uint32Max) :
    (∀ (request : Request) (planned : State), Plan geometry request current planned →
      stateValid { planned with sequence := current.sequence + 1 } geometry = true) ∧
    (∀ (request : Request) trace (reply : Reply) after, request.expectedSequence ≠ none →
      Exec recordWorld (request.program sha256 geometry) (some (encodeState current)) trace
        (.ret reply) after →
      trace ≠ [] → reply ≠ .error .invalid) ∧
    (∀ firmwareSet operation, Reservable geometry current firmwareSet operation →
      ∃ selected, IsLeast { index | Vacant geometry current operation index } selected ∧
        (∀ trace (reply : Reply) after,
          Exec recordWorld ((Request.reserve true current.sequence (some firmwareSet)
            (some operation) true).program sha256 geometry) (some (encodeState current)) trace
            (.ret reply) after →
          (⟨.lock, false⟩ : SlotsEvent) ∉ trace →
          reply ≠ .error .busy ∧ reply ≠ .error .conflict ∧ reply ≠ .error .noSpace) ∧
        (∀ (device : Device) trace (reply : Reply) after, device.1.1 = some (encodeState current) →
          BoundIntact sha256 geometry device.1.2 current →
          Exec calmWorld ((Request.reserve true current.sequence (some firmwareSet)
            (some operation) true).program sha256 geometry) device trace (.ret reply) after →
          ∃ answer, ⟨.writeBlob (encodeState
            { current with
              sequence := current.sequence + 1
              phase := .writing
              operation := { operation with slot := UInt8.ofNat selected } }), answer⟩ ∈ trace)) ∧
    (∀ bootId hasTrialStopped (device : Device) trace (reply : Reply) after,
      current.phase.pending = true → device.1.1 = some (encodeState current) →
      BoundIntact sha256 geometry device.1.2 current →
      Exec calmWorld ((Request.abandon true current.sequence (some bootId) hasTrialStopped
        true).program sha256 geometry) device trace (.ret reply) after →
      TrialOver current bootId hasTrialStopped trace →
      ∃ answer, ⟨.writeBlob (encodeState
        { current with sequence := current.sequence + 1, phase := .aborted }), answer⟩ ∈ trace) := by
  have hplaced := wellPlaced_of_geometryValid hgeometry
  have hloaded : Loaded geometry current := decodeState_encodeState hvalid
  refine ⟨fun request planned => stateValid_of_plan hvalid hlast,
    fun request trace reply after hsucceeds hexec htrace =>
      not_invalid_of_exec hvalid hlast hsucceeds hexec htrace, ?_, ?_⟩
  · intro firmwareSet operation hreservable
    obtain ⟨selected, hselected⟩ := hreservable.selects
    have hplan := @Plan.reserved geometry true true current.sequence _ _ _ _
      hreservable.request_valid hreservable.set_matches hreservable.schemaContinues
      hreservable.not_repeated hreservable.not_pending hselected
    have hnext := stateValid_of_plan hvalid hlast hplan
    refine ⟨selected, selectSlot_eq_some_iff.mp hselected, ?_, ?_⟩
    · intro trace reply after hexec hlocked
      rw [hreservable.program_eq hgeometry] at hexec
      have hgranted : Exec grantedWorld _ _ trace (.ret reply) after :=
        hexec.restrict fun event hevent heq => hlocked (heq ▸ hevent)
      have hprepare : Yields (fun code => code ≠ .busy ∧ code ≠ .conflict ∧ code ≠ .noSpace)
          (fun planned => stateValid { planned with sequence := current.sequence + 1 } geometry =
            true) (reservePrepare sha256 geometry firmwareSet operation current) := by
        refine (hreservable.yields_prepare hvalid hselected).mono ?_ ?_
        · rintro _ (rfl | rfl) <;> decide
        · rintro planned rfl
          exact hnext
      have hbody := refusal_transact hvalid hlast (by decide) (by decide)
        (fun hne => absurd rfl hne) hprepare
      have hreply := (refusal_withLock (W := grantedWorld) (fun _ _ _ _ h => h.1)
        (fun _ hstep => absurd rfl hstep.2) hbody).post_of_exec hgranted
      exact ⟨fun h => (hreply _ h).1 rfl, fun h => (hreply _ h).2.1 rfl,
        fun h => (hreply _ h).2.2 rfl⟩
    · intro device trace reply after hstored hbound hexec
      rw [hreservable.program_eq hgeometry] at hexec
      exact calm_commit_reached (fun _ _ _ _ h => h) hloaded hstored hlast hnext
        (hreservable.calm_prepare hplaced hvalid hselected hbound) hexec
  · intro bootId hasTrialStopped device trace reply after hpending hstored hbound hexec hover
    have hplan := @Plan.abandoned geometry true true hasTrialStopped current.sequence (some bootId)
      current hpending
    have hnext := stateValid_of_plan hvalid hlast hplan
    have hprogram : (Request.abandon true current.sequence (some bootId) hasTrialStopped
        true).program sha256 geometry = withLock (transact geometry current.sequence
          (abandonPrepare sha256 geometry bootId hasTrialStopped)) := by
      simp [Request.program, abandon, hgeometry, abandonLocked_eq]
    rw [hprogram] at hexec
    rcases hover with hother | ⟨hproof, hproven⟩
    · have hgranted : Exec (stoppedWorld false) _ device trace (.ret reply) after :=
        hexec.restrict fun _ _ => by simp
      exact calm_commit_reached (W := stoppedWorld false) (fun _ _ _ _ h => h.1) hloaded hstored
        hlast hnext (calm_abandonPrepare hplaced hvalid hpending hbound (.inl hother)) hgranted
    · have hgranted : Exec (stoppedWorld true) _ device trace (.ret reply) after :=
        hexec.restrict fun event hevent _ operationId heq => hproven operationId (heq ▸ hevent)
      exact calm_commit_reached (W := stoppedWorld true) (fun _ _ _ _ h => h.1) hloaded hstored
        hlast hnext (calm_abandonPrepare hplaced hvalid hpending hbound (.inr ⟨hproof, rfl⟩))
        hgranted

/-- A freshly founded record has room for the sample operation. -/
theorem no_dead_end_sampleFounding :
    ∃ selected, IsLeast
      { index | Vacant sampleGeometry (initialState sampleBindings) sampleOperation index }
      selected := by
  obtain ⟨-, -, hreserve, -⟩ := @no_dead_end (fun _ => sampleDigest) sampleGeometry
    (initialState sampleBindings) (by decide) (by decide) (by decide)
  obtain ⟨selected, hleast, -⟩ := hreserve sampleFirmwareSet sampleOperation
    ⟨.inl rfl, by decide, by decide, by decide, ⟨0, by decide, nofun⟩, by decide,
      ⟨0, by decide, by decide⟩⟩
  exact ⟨selected, hleast⟩

end Slots
