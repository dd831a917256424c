/-
# Bindings across a run

Which firmware a binding is for is fixed when the record is founded, and once a
binding has a package its data schema stays for good. The schema of a candidate
is compared with its binding only when the candidate is reserved, and installed
several operations later, so what carries the law across the phases between is
an invariant of the record: while a candidate is under construction its schema
is that of the package it would replace.
-/

import EspContainer.Slots.Provenance

namespace Slots

open Binary Interaction Package

variable {sha256 : List UInt8 → Sha256} {geometry : Geometry} {request : Request}

/-! ## One step -/

/-- What a binding keeps for the rest of a run: its firmware, and the schema of its
package once it has one. -/
structure Binding.Persists (earlier later : Binding) : Prop where
  present : later.present = earlier.present
  firmware : later.firmwareSha256 = earlier.firmwareSha256
  schema : earlier.packagePresent = true →
    later.packagePresent = true ∧ later.dataSchemaVersion = earlier.dataSchemaVersion

theorem Binding.Persists.refl (binding : Binding) : binding.Persists binding :=
  ⟨rfl, rfl, fun hpackage => ⟨hpackage, rfl⟩⟩

theorem Binding.Persists.trans {first second third : Binding} (hfirst : first.Persists second)
    (hsecond : second.Persists third) : first.Persists third := by
  refine ⟨hsecond.present.trans hfirst.present, hsecond.firmware.trans hfirst.firmware, ?_⟩
  intro hpackage
  obtain ⟨hkept, hschema⟩ := hfirst.schema hpackage
  obtain ⟨hlast, hlastSchema⟩ := hsecond.schema hkept
  exact ⟨hlast, hlastSchema.trans hschema⟩

/-- A candidate under construction has the schema of the package it would replace. -/
def SchemaHeld (state : State) : Prop :=
  state.phase.pending = true → ∀ index,
    (state.bindings index).present = true →
    (state.bindings index).firmwareSha256 = state.operation.targetFirmwareSha256 →
    (state.bindings index).packagePresent = true →
    (state.bindings index).dataSchemaVersion = state.operation.dataSchemaVersion

/-- The binding found for a firmware is present and for that firmware. -/
theorem bindingForFirmware_spec {state : State} {firmwareSha256 : Sha256}
    {index : Fin bindingCount} (hindex : bindingForFirmware state firmwareSha256 = some index) :
    (state.bindings index).present = true ∧
      (state.bindings index).firmwareSha256 = firmwareSha256 := by
  have hfound := List.find?_some hindex
  simpa using hfound

/-- The bindings of a valid record are for different firmware. -/
theorem binding_unique {state : State} (hvalid : stateValid state geometry = true)
    {first second : Fin bindingCount} (hfirst : (state.bindings first).present = true)
    (hsecond : (state.bindings second).present = true)
    (hfirmware : (state.bindings first).firmwareSha256 =
      (state.bindings second).firmwareSha256) : first = second := by
  have hdistinct : ¬ ((state.bindings 0).present = true ∧ (state.bindings 1).present = true ∧
      (state.bindings 0).firmwareSha256 = (state.bindings 1).firmwareSha256) := by
    unfold stateValid at hvalid
    grind
  match first, second with
  | 0, 0 => rfl
  | 1, 1 => rfl
  | 0, 1 => exact absurd ⟨hfirst, hsecond, hfirmware⟩ hdistinct
  | 1, 0 => exact absurd ⟨hsecond, hfirst, hfirmware.symm⟩ hdistinct

/-- `reserve` takes over the schema of the package it would replace. -/
theorem schemaHeld_of_reserved {current : State} (hvalid : stateValid current geometry = true)
    {firmwareSet : FirmwareSet} {operation : Operation}
    (hrequest : reserveRequestValid firmwareSet operation = true)
    (hschema : schemaContinues current firmwareSet operation = true) :
    ∀ index, (current.bindings index).present = true →
      (current.bindings index).firmwareSha256 = operation.targetFirmwareSha256 →
      (current.bindings index).packagePresent = true →
      (current.bindings index).dataSchemaVersion = operation.dataSchemaVersion := by
  intro index hpresent hfirmware hpackage
  have htarget : operation.targetFirmwareSha256 = firmwareSet.runningFirmwareSha256 := by
    simp only [reserveRequestValid, Bool.not_eq_true', Bool.or_eq_false_iff, bne_eq_false_iff_eq]
      at hrequest
    exact hrequest.1.1.1.1.1.2
  unfold schemaContinues at hschema
  cases hfound : bindingForFirmware current firmwareSet.runningFirmwareSha256 with
  | none => simp [hfound] at hschema
  | some found =>
      obtain ⟨hfoundPresent, hfoundFirmware⟩ := bindingForFirmware_spec hfound
      obtain rfl : index = found := by
        apply binding_unique hvalid hpresent hfoundPresent
        rw [hfirmware, htarget, hfoundFirmware]
      simpa [hfound, hpackage] using hschema

/-- A transition keeps the firmware of both bindings and the schema of their packages,
and a candidate under construction stays compatible. -/
theorem persists_of_plan {current planned : State} (hvalid : stateValid current geometry = true)
    (hheld : SchemaHeld current) (hplan : Plan geometry request current planned) :
    SchemaHeld planned ∧ ∀ index, (current.bindings index).Persists (planned.bindings index) := by
  have hsame : ∀ index, (current.bindings index).Persists (current.bindings index) :=
    fun index => .refl _
  cases hplan with
  | reserved hrequest hset hschema hfresh hphase hselected =>
      have hkept := schemaHeld_of_reserved hvalid hrequest hschema
      exact ⟨fun _ => hkept, hsame⟩
  | prepared hphase => exact ⟨fun _ => hheld (by rw [hphase]; rfl), hsame⟩
  | trialStarted hphase hboot => exact ⟨fun _ => hheld (by rw [hphase]; rfl), hsame⟩
  | healthVerified hphase => exact ⟨fun _ => hheld (by rw [hphase]; rfl), hsame⟩
  | @confirmed _ _ _ _ index hindex hphase =>
      refine ⟨nofun, fun other => ?_⟩
      by_cases hother : other = index
      · subst hother
        obtain ⟨hpresent, hfirmware⟩ := bindingForFirmware_spec hindex
        simp only [Function.update_self]
        refine ⟨rfl, rfl, fun hpackage => ⟨rfl, ?_⟩⟩
        exact (hheld (by rw [hphase]; rfl) other hpresent hfirmware hpackage).symm
      · simp only [Function.update_of_ne hother]
        exact .refl _
  | abandoned hphase => exact ⟨nofun, hsame⟩

/-! ## Whole runs -/

/-- The durable records of a run that starts without one, oldest first. -/
def durableRecords (episodes : List RecordEpisode) : List (Option Blob) :=
  none :: episodes.map Episode.after

/-- Each binding of the earlier record persists in the later one. -/
def RecordPersists (geometry : Geometry) (earlier later : Option Blob) : Prop :=
  ∀ blob blob' state state', earlier = some blob → later = some blob' →
    decodeState blob geometry = some state → decodeState blob' geometry = some state' →
    ∀ index, (state.bindings index).Persists (state'.bindings index)

/-- What a run without a record at its start leaves: nothing yet, or a record whose
candidate is compatible and in which the bindings of all earlier ones persist. -/
def Continued (geometry : Geometry) (episodes : List RecordEpisode) (record : Option Blob) : Prop :=
  (record = none ∧ ∀ earlier ∈ durableRecords episodes, earlier = none) ∨
    ∃ state, record = some (encodeState state) ∧ Loaded geometry state ∧ SchemaHeld state ∧
      ∀ earlier ∈ durableRecords episodes, RecordPersists geometry earlier record

theorem durableRecords_append (episodes : List RecordEpisode) (episode : RecordEpisode) :
    durableRecords (episodes ++ [episode]) = durableRecords episodes ++ [episode.after] := by
  simp [durableRecords]

/-- What two records decode to, when one is known. -/
theorem recordPersists_of_loaded {earlier : Option Blob} {state : State}
    (hloaded : Loaded geometry state)
    (hpersists : ∀ blob state', earlier = some blob → decodeState blob geometry = some state' →
      ∀ index, (state'.bindings index).Persists (state.bindings index)) :
    RecordPersists geometry earlier (some (encodeState state)) := by
  intro blob blob' first second hearlier hlater hfirst hsecond
  obtain rfl := Option.some.inj hlater
  obtain rfl := Option.some.inj (hloaded.symm.trans hsecond)
  exact hpersists blob first hearlier hfirst

/-- One more execution, finished or cut, continues a run. -/
theorem Continued.next {episodes : List RecordEpisode} {before after : Option Blob}
    (hcontinued : Continued geometry episodes before) {trace : SlotsTrace}
    {residual : Program SlotsPort Reply}
    (hexec : Exec recordWorld (request.program sha256 geometry) before trace residual after) :
    Continued geometry (episodes ++ [⟨request, before, trace, residual, after⟩]) after := by
  have hself : ∀ state, Loaded geometry state →
      RecordPersists geometry (some (encodeState state)) (some (encodeState state)) := by
    intro state hloaded
    apply recordPersists_of_loaded hloaded
    intro blob state' hblob hdecode index
    obtain rfl := Option.some.inj hblob
    obtain rfl := Option.some.inj (hloaded.symm.trans hdecode)
    exact .refl _
  have hall : ∀ {record : Option Blob}, (∀ earlier ∈ durableRecords episodes,
      RecordPersists geometry earlier record) → RecordPersists geometry record record →
      ∀ earlier ∈ durableRecords (episodes ++ [⟨request, before, trace, residual, record⟩]),
        RecordPersists geometry earlier record := by
    intro record hearlier hlast earlier hmem
    rw [durableRecords_append, List.mem_append, List.mem_singleton] at hmem
    rcases hmem with hmem | rfl
    · exact hearlier earlier hmem
    · exact hlast
  cases effect_of_exec hexec with
  | unchanged heq =>
      subst heq
      rcases hcontinued with ⟨rfl, hnone⟩ | ⟨state, rfl, hloaded, hheld, hearlier⟩
      · refine .inl ⟨rfl, fun earlier hmem => ?_⟩
        rw [durableRecords_append, List.mem_append, List.mem_singleton] at hmem
        exact hmem.elim (hnone earlier) id
      · exact .inr ⟨state, rfl, hloaded, hheld, hall hearlier (hself state hloaded)⟩
  | @moved past future current next answer htrace hcommitting hbefore hafter =>
      subst hafter
      refine .inr ⟨next, rfl, hcommitting.loaded_next, ?_⟩
      cases current with
      | none =>
          rcases hcontinued with ⟨rfl, hnone⟩ | ⟨state, rfl, -⟩
          · obtain ⟨own, -, -, htransition⟩ := hcommitting.opened
            cases htransition
            refine ⟨nofun, hall (fun earlier hmem => ?_) (hself _ hcommitting.loaded_next)⟩
            rw [hnone earlier hmem]
            exact nofun
          · cases hbefore
      | some current =>
          rcases hcontinued with ⟨rfl, -⟩ | ⟨state, rfl, hloaded, hheld, hearlier⟩
          · cases hbefore
          · have hcurrent := hcommitting.loaded current rfl
            obtain rfl := hloaded.injective hcurrent (Option.some.inj hbefore)
            obtain ⟨planned, hplan, rfl⟩ := hcommitting.planned state rfl
            obtain ⟨hnext, hpersists⟩ := persists_of_plan hloaded.valid hheld hplan
            refine ⟨hnext, hall (fun earlier hmem => ?_) (hself _ hcommitting.loaded_next)⟩
            apply recordPersists_of_loaded hcommitting.loaded_next
            intro blob first hblob hdecode index
            exact (hearlier earlier hmem blob _ first state hblob rfl hdecode hloaded index).trans
              (hpersists index)

/-- Every run without a record at its start is continued, and its durable records persist
in the order they were written. -/
theorem continued_of_session {episodes : List RecordEpisode} {record : Option Blob}
    (hsession : Session recordWorld (Request.program sha256 geometry) none episodes record) :
    Continued geometry episodes record ∧
      (durableRecords episodes).Pairwise (RecordPersists geometry) := by
  induction hsession with
  | start => exact ⟨.inl ⟨rfl, by simp [durableRecords]⟩, by simp [durableRecords]⟩
  | @next before after episodes earlier request trace residual hlast ih =>
      obtain ⟨hbefore, hpairwise⟩ := ih
      have hafter := hbefore.next hlast
      refine ⟨hafter, ?_⟩
      rw [durableRecords_append, List.pairwise_append]
      refine ⟨hpairwise, List.pairwise_singleton _ _, fun first hfirst last hmemLast => ?_⟩
      rw [List.mem_singleton.mp hmemLast]
      have hmem : first ∈ durableRecords
          (episodes ++ [⟨request, before, trace, residual, after⟩]) := by
        rw [durableRecords_append]
        exact List.mem_append_left _ hfirst
      rcases hafter with ⟨-, hnone⟩ | ⟨state, -, -, -, hpersists⟩
      · rw [hnone first hmem]
        exact nofun
      · exact hpersists first hmem

/-- Only `confirm` changes a binding, and only that of the running target firmware. -/
theorem bindings_of_exec {before after : State} (hbefore : Loaded geometry before)
    (hafter : Loaded geometry after) {trace : SlotsTrace} {residual : Program SlotsPort Reply}
    (hexec : Exec recordWorld (request.program sha256 geometry) (some (encodeState before)) trace
      residual (some (encodeState after))) :
    after.bindings = before.bindings ∨
      ∃ io expectedSequence bootId hasState index,
        request = .confirm io expectedSequence (some before.operation.targetFirmwareSha256)
          bootId hasState ∧
        (before.bindings index).firmwareSha256 = before.operation.targetFirmwareSha256 ∧
        ∀ other, other ≠ index → after.bindings other = before.bindings other := by
  cases effect_of_exec hexec with
  | unchanged heq =>
      obtain rfl := hafter.injective hbefore (Option.some.inj heq)
      exact .inl rfl
  | @moved past future current next answer htrace hcommitting hstored hwritten =>
      obtain rfl := hafter.injective hcommitting.loaded_next (Option.some.inj hwritten)
      cases current with
      | none => cases hstored
      | some current =>
          have hcurrent := hcommitting.loaded current rfl
          obtain rfl := hbefore.injective hcurrent (Option.some.inj hstored)
          obtain ⟨planned, hplan, rfl⟩ := hcommitting.planned before rfl
          cases hplan with
          | @confirmed _ _ _ _ index hindex hphase =>
              refine .inr ⟨_, _, _, _, index, rfl, (bindingForFirmware_spec hindex).2, ?_⟩
              intro other hother
              exact Function.update_of_ne hother _ _
          | _ => exact .inl rfl

/-- Two bindings of a valid record that name one slot carry the same package. -/
theorem shared_slot {state : State} (hvalid : stateValid state geometry = true)
    {first second : Fin bindingCount} (hfirst : (state.bindings first).packagePresent = true)
    (hsecond : (state.bindings second).packagePresent = true)
    (hslot : (state.bindings first).slot = (state.bindings second).slot) :
    (state.bindings first).packageSizeBytes = (state.bindings second).packageSizeBytes ∧
      (state.bindings first).packageSha256 = (state.bindings second).packageSha256 ∧
      (state.bindings first).guestAbiVersion = (state.bindings second).guestAbiVersion ∧
      (state.bindings first).dataSchemaVersion = (state.bindings second).dataSchemaVersion := by
  have hshared : (state.bindings 0).packagePresent = true →
      (state.bindings 1).packagePresent = true → (state.bindings 0).slot = (state.bindings 1).slot →
      (state.bindings 0).packageSizeBytes = (state.bindings 1).packageSizeBytes ∧
        (state.bindings 0).packageSha256 = (state.bindings 1).packageSha256 ∧
        (state.bindings 0).guestAbiVersion = (state.bindings 1).guestAbiVersion ∧
        (state.bindings 0).dataSchemaVersion = (state.bindings 1).dataSchemaVersion := by
    unfold stateValid at hvalid
    grind
  match first, second with
  | 0, 0 => exact ⟨rfl, rfl, rfl, rfl⟩
  | 1, 1 => exact ⟨rfl, rfl, rfl, rfl⟩
  | 0, 1 => exact hshared hfirst hsecond hslot
  | 1, 0 =>
      obtain ⟨hsize, hdigest, habi, hschema⟩ := hshared hsecond hfirst hslot.symm
      exact ⟨hsize.symm, hdigest.symm, habi.symm, hschema.symm⟩

end Slots
