/-
# Operations and the durable record

What the promises of `Operations` mean for the record and for flash. Where
reported records are true, an operation leaves the record as it found it or
moves it along one edge of the state machine, whether it finishes or is cut, and
its result code tells which. Erases and writes stay inside the slot under
construction, which no binding of the record references.
-/

import EspContainer.Slots.Operations

namespace Slots

open Binary Interaction Package

variable {sha256 : List UInt8 → Sha256} {geometry : Geometry} {request : Request}

/-! ## Walking the record -/

/-- The blob a record state stands for. -/
def storedRecord (current : Option State) : Option Blob := current.map encodeState

theorem Loaded.injective {first second : State} (hfirst : Loaded geometry first)
    (hsecond : Loaded geometry second) (heq : encodeState first = encodeState second) :
    first = second := by
  rw [Loaded, heq] at hfirst
  exact Option.some.inj (hfirst.symm.trans hsecond)

/-- Opening an operation tells what is stored and changes nothing. -/
theorem record_opening {current : Option State} {before after : Option Blob}
    (hpath : recordWorld.Path before (opening current) after) :
    before = storedRecord current ∧ after = before := by
  cases current with
  | none =>
      obtain ⟨_, hlock, _, ⟨hfound, rfl⟩, rfl⟩ := hpath
      obtain rfl : _ = before := hlock
      exact ⟨hfound, rfl⟩
  | some current =>
      obtain ⟨_, hlock, _, ⟨hfound, rfl⟩, rfl⟩ := hpath
      obtain rfl : _ = before := hlock
      exact ⟨hfound, rfl⟩

theorem record_opened (current : Option State) {own : SlotsTrace} (hinner : Inner own)
    {before after : Option Blob} (hpath : recordWorld.Path before (opening current ++ own) after) :
    before = storedRecord current ∧ after = before := by
  obtain ⟨middle, hopening, hown⟩ := World.path_append.mp hpath
  obtain ⟨hstored, rfl⟩ := record_opening hopening
  exact ⟨hstored, hinner.record_eq hown⟩

/-- When a record write is justified, the record is the one that was read. -/
theorem Committing.record {past : SlotsTrace} {current : Option State} {next : State}
    (hcommitting : Committing sha256 geometry request past current next)
    {before after : Option Blob} (hpath : recordWorld.Path before past after) :
    before = storedRecord current ∧ after = before := by
  obtain ⟨own, rfl, hinner, -⟩ := hcommitting.opened
  exact record_opened _ hinner hpath

theorem not_writeBlob_opening (current : Option State) {own : SlotsTrace} (hinner : Inner own) :
    ∀ event ∈ opening current ++ own, ∀ blob, event.1 ≠ .writeBlob blob :=
  fun event hevent blob => ((nothingWritten_opening current).append hinner.nothingWritten
    event hevent).1 blob

/-! ## One record write at most -/

/-- The trace up to a record write holds no other, and justifies it. -/
theorem committing_of_write {σ : Type} {W : World SlotsPort σ} {residual : Program SlotsPort Reply}
    {before after : σ} {past future : SlotsTrace} {blob : Blob} {answer : Bool}
    (hexec : Exec W (request.program sha256 geometry) before
      (past ++ ⟨.writeBlob blob, answer⟩ :: future) residual after) :
    ∃ current next, Committing sha256 geometry request past current next ∧
      blob = encodeState next :=
  ((safe_program request).promise_of_mem hexec).write blob rfl

/-- After a record write an operation neither writes another nor touches flash. -/
theorem quiet_after_write {σ : Type} {W : World SlotsPort σ} {residual : Program SlotsPort Reply}
    {before after : σ} {past future : SlotsTrace} {blob : Blob} {answer : Bool}
    (hexec : Exec W (request.program sha256 geometry) before
      (past ++ ⟨.writeBlob blob, answer⟩ :: future) residual after) :
    FlashUntouched future ∧ ∀ event ∈ future, ∀ blob, event.1 ≠ .writeBlob blob := by
  have hpromise : ∀ event ∈ future, ∃ earlier,
      (⟨.writeBlob blob, answer⟩ : SlotsEvent) ∈ earlier ∧
        CallPromise sha256 geometry request earlier event.1 := by
    intro event hevent
    obtain ⟨first, second, rfl⟩ := List.append_of_mem hevent
    rw [← List.cons_append, ← List.append_assoc] at hexec
    exact ⟨past ++ ⟨.writeBlob blob, answer⟩ :: first, by simp,
      (safe_program request).promise_of_mem hexec⟩
  constructor
  · intro event hevent
    obtain ⟨earlier, hmem, hcall⟩ := hpromise event hevent
    by_contra htarget
    obtain ⟨⟨offset, size⟩, hsome⟩ := Option.ne_none_iff_exists'.mp htarget
    obtain ⟨current, own, rfl, hinner, -⟩ := hcall.flash offset size hsome
    exact not_writeBlob_opening _ hinner _ hmem blob rfl
  · intro event hevent other hwrite
    obtain ⟨earlier, hmem, hcall⟩ := hpromise event hevent
    obtain ⟨current, next, hcommitting, -⟩ := hcall.write other hwrite
    obtain ⟨own, rfl, hinner, -⟩ := hcommitting.opened
    exact not_writeBlob_opening _ hinner _ hmem blob rfl

/-- How an execution, finished or cut, can change the record: not at all, or by
its one justified write. -/
inductive Effect (sha256 : List UInt8 → Sha256) (geometry : Geometry) (request : Request)
    (before : Option Blob) (trace : SlotsTrace) (after : Option Blob) : Prop
  | /-- The record is what it was. -/
    unchanged (heq : after = before)
  | /-- The write took effect. -/
    moved {past future : SlotsTrace} {current : Option State} {next : State} {answer : Bool}
      (htrace : trace = past ++ ⟨.writeBlob (encodeState next), answer⟩ :: future)
      (hcommitting : Committing sha256 geometry request past current next)
      (hbefore : before = storedRecord current) (hafter : after = some (encodeState next))

/-- Every execution has such an effect on a truthful record store. -/
theorem effect_of_exec {residual : Program SlotsPort Reply} {before after : Option Blob}
    {trace : SlotsTrace}
    (hexec : Exec recordWorld (request.program sha256 geometry) before trace residual after) :
    Effect sha256 geometry request before trace after := by
  by_cases hwrites : ∃ event ∈ trace, ∃ blob, event.1 = .writeBlob blob
  · obtain ⟨⟨call, answer⟩, hevent, blob, hcall⟩ := hwrites
    obtain rfl : call = .writeBlob blob := hcall
    obtain ⟨past, future, rfl⟩ := List.append_of_mem hevent
    obtain ⟨current, next, hcommitting, rfl⟩ := committing_of_write hexec
    obtain ⟨middle, hpast, written, hwrite, hfuture⟩ := World.path_append.mp hexec.path
    obtain ⟨hbefore, rfl⟩ := hcommitting.record hpast
    obtain rfl : after = written := record_eq_of_path hfuture (quiet_after_write hexec).2
    rcases hwrite with rfl | rfl
    · exact .unchanged rfl
    · exact .moved rfl hcommitting hbefore rfl
  · refine .unchanged (record_eq_of_path hexec.path fun event hevent blob hcall => ?_)
    exact hwrites ⟨event, hevent, blob, hcall⟩

/-! ## Result codes -/

private theorem state_output_of_commit {next : State} {before after : Outputs}
    (hpath : outputWorld.Path before (commitEvents request next) after) :
    after.state = if request.storesState then next else before.state := by
  unfold commitEvents at hpath
  obtain ⟨_, hwrite, _, hread, hrest⟩ := hpath
  obtain rfl : _ = before := hwrite
  obtain rfl : _ = _ := hread
  cases hstores : request.storesState with
  | false =>
      rw [hstores] at hrest
      obtain rfl : _ = after := hrest
      rfl
  | true =>
      rw [hstores] at hrest
      obtain ⟨stored, hstore, rfl⟩ := hrest
      rw [show stored = { state := next, decision := _ } from hstore]
      rfl

private theorem record_of_commit {next : State} {before after : Option Blob}
    (hpath : recordWorld.Path before (commitEvents request next) after) :
    after = some (encodeState next) := by
  unfold commitEvents at hpath
  obtain ⟨written, -, _, ⟨hfound, rfl⟩, hrest⟩ := hpath
  refine (record_eq_of_path hrest fun event hevent blob hcall => ?_).trans hfound
  split at hevent
  · rw [List.mem_singleton.mp hevent] at hcall
    cases hcall
  · cases hevent

theorem NothingWritten.record_eq {trace : SlotsTrace} (hnothing : NothingWritten trace)
    {before after : Option Blob} (hpath : recordWorld.Path before trace after) :
    after = before :=
  record_eq_of_path hpath fun event hevent => (hnothing event hevent).1

theorem state_eq_of_path {trace : SlotsTrace} {before after : Outputs}
    (hpath : outputWorld.Path before trace after)
    (htrace : ∀ event ∈ trace, ∀ state, event.1 ≠ .storeState state) :
    after.state = before.state := by
  refine hpath.invariant (fun outputs => outputs.state = before.state) ?_ rfl
  rintro ⟨call, answer⟩ hevent middle next hstep hmiddle
  cases call with
  | storeState state => exact absurd rfl (htrace _ hevent state)
  | storeDecision decision =>
      rw [show next = { middle with decision := decision } from hstep]
      exact hmiddle
  | _ => exact (congrArg Outputs.state hstep).trans hmiddle

/-- A record-changing operation that returns OK has committed: its trace ends with
a record write that took effect. -/
theorem committed_of_ok (hchanges : request.changesRecord = true) {before after : Option Blob}
    {trace : SlotsTrace}
    (hexec : Exec recordWorld (request.program sha256 geometry) before trace
      (.ret (.ok ())) after) :
    ∃ past current next, Committing sha256 geometry request past current next ∧
      trace = past ++ (commitEvents request next ++ [⟨.unlock, ()⟩]) ∧
      before = storedRecord current ∧ after = some (encodeState next) := by
  obtain ⟨_, rfl, past, current, next, hcommitting, rfl⟩ :=
    (safe_changing request hchanges).post_of_trace hexec
  obtain ⟨committed, hrecord, released, hunlock, hafter⟩ := World.path_append.mp hexec.path
  obtain ⟨opened, hopened, hcommit⟩ := World.path_append.mp hrecord
  refine ⟨past, current, next, hcommitting, by simp, (hcommitting.record hopened).1, ?_⟩
  rw [← hafter, ← record_of_commit hcommit]
  exact hunlock

/-- What a finished record-changing operation says about the record is true. -/
theorem reply_matches_record (hchanges : request.changesRecord = true)
    {before after : Option Blob × Outputs} {trace : SlotsTrace} {reply : Reply}
    (hexec : Exec (recordWorld.prod outputWorld) (request.program sha256 geometry) before trace
      (.ret reply) after) :
    (reply = .ok () → ∃ current own next, before.1 = storedRecord current ∧
      Transition sha256 geometry request current own next ∧
      next.sequence.toNat = nextSequence current ∧ Loaded geometry next ∧
      after.1 = some (encodeState next) ∧
      after.2.state = if request.storesState then next else before.2.state) ∧
    (∀ code, reply = .error code → code ≠ .uncertain →
      after.1 = before.1 ∧ after.2.state = before.2.state) := by
  have hpost := (safe_changing request hchanges).post_of_trace hexec
  have hrecord := hexec.fst.path
  have houtput := hexec.snd.path
  constructor
  · rintro rfl
    obtain ⟨past, current, next, hcommitting, rfl, hbefore, hafter⟩ :=
      committed_of_ok hchanges hexec.fst
    obtain ⟨own, rfl, hinner, htransition⟩ := hcommitting.opened
    obtain ⟨clean, hclean, houtput⟩ := World.path_append.mp houtput
    obtain ⟨stored, hstore, released, hunlock, hreleased⟩ := World.path_append.mp houtput
    have hstate : clean.state = before.2.state :=
      state_eq_of_path hclean fun event hevent =>
        (((nothingWritten_opening current).append hinner.nothingWritten) event hevent).2
    refine ⟨current, own, next, hbefore, htransition, hcommitting.sequence,
      hcommitting.loaded_next, hafter, ?_⟩
    rw [← hstate, ← state_output_of_commit hstore, ← hreleased]
    exact congrArg Outputs.state hunlock
  · rintro code rfl hcertain
    have hnothing : NothingWritten trace → after.1 = before.1 ∧
        after.2.state = before.2.state := fun hnothing =>
      ⟨hnothing.record_eq hrecord, state_eq_of_path houtput fun event hevent =>
        (hnothing event hevent).2⟩
    have hunlock : NothingWritten [⟨.unlock, ()⟩] := by simp [NothingWritten]
    obtain hcode | hnone | ⟨_, rfl, hcode | hnone |
      ⟨past, current, next, answer, hcommitting, rfl⟩⟩ := hpost
    · exact absurd hcode hcertain
    · exact hnothing hnone
    · exact absurd hcode hcertain
    · exact hnothing (hnone.append hunlock)
    · obtain ⟨own, rfl, hinner, -⟩ := hcommitting.opened
      constructor
      · obtain ⟨observed, hrecord, released, hrelease, hafter⟩ := World.path_append.mp hrecord
        obtain ⟨opened, hopened, written, -, _, ⟨hfound, hread⟩, rfl⟩ :=
          World.path_append.mp hrecord
        rw [← hafter, show released = _ from hrelease, hread, hfound,
          (record_opened _ hinner hopened).1]
        rfl
      · refine state_eq_of_path houtput fun event hevent state hcall => ?_
        simp only [List.mem_append] at hevent
        rcases hevent with (hevent | hevent) | hevent
        · exact (((nothingWritten_opening (some current)).append hinner.nothingWritten) event
            (List.mem_append.mpr hevent)).2 state hcall
        · simp only [refusedEvents, List.mem_cons, List.not_mem_nil, or_false] at hevent
          rcases hevent with rfl | rfl <;> cases hcall
        · rw [List.mem_singleton.mp hevent] at hcall
          cases hcall

/-- `initialize` never alters an existing record, finished or cut. -/
theorem record_kept_by_initialize {io : Bool} {firmwareSet : Option FirmwareSet}
    {bindings : Option (Fin bindingCount → Binding)} {blob : Blob} {after : Option Blob}
    {trace : SlotsTrace} {residual : Program SlotsPort Reply}
    (hexec : Exec recordWorld
      ((Request.initializeRecord io firmwareSet bindings).program sha256 geometry) (some blob)
      trace residual after) : after = some blob := by
  cases effect_of_exec hexec with
  | unchanged heq => exact heq
  | moved htrace hcommitting hbefore hafter =>
      obtain ⟨own, -, -, htransition⟩ := hcommitting.opened
      cases htransition with
      | founded hhashed => cases hbefore

/-! ## Where flash may change -/

/-- A flash operation of an engine run, with what its operation had done before
it under the same lock. -/
theorem protected_of_target {σ : Type} {W : World SlotsPort σ}
    {residual : Program SlotsPort Reply} {before after : σ} {past future : SlotsTrace}
    {event : SlotsEvent} {offset size : Nat}
    (hexec : Exec W (request.program sha256 geometry) before (past ++ event :: future)
      residual after) (htarget : event.1.target = some (offset, size)) :
    ∃ current own, past = opening (some current) ++ own ∧ Inner own ∧
      Loaded geometry current ∧ SlotProtected sha256 geometry current own offset size :=
  ((safe_program request).promise_of_mem hexec).flash offset size htarget

/-- A package of a valid record lies in a slot. -/
theorem binding_fits {state : State} (hvalid : stateValid state geometry = true)
    (index : Fin bindingCount) (hpresent : (state.bindings index).packagePresent = true) :
    (state.bindings index).slot.toNat < slotCount ∧
      (state.bindings index).packageSizeBytes.toNat ≤
        (geometry.slot (state.bindings index).slot).sizeBytes ∧
      (state.bindings index).packageSizeBytes ≠ 0 := by
  have hbindings : ∀ index, bindingValid (state.bindings index) geometry = true := by
    unfold stateValid at hvalid
    refine Fin.forall_fin_two.mpr ⟨?_, ?_⟩ <;> grind
  have hbinding := hbindings index
  unfold bindingValid at hbinding
  grind

end Slots
