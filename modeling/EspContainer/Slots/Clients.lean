/-
# Clients of one record

Any number of clients may run slot operations on one device. Each operation
makes its blob and flash callbacks under one lock that it always gives back, so
with an exclusive lock the record an operation read is still the durable one
when it writes. Together with the expected sequence number that makes the record
an optimistic store without lost updates: every durable record was computed by
one operation from exactly the record before it.
-/

import EspContainer.Interaction.Locking
import EspContainer.Slots.Durable

namespace Slots

open Binary Interaction Package
open Fallible (attempt require chunked)

variable {sha256 : List UInt8 → Sha256} {geometry : Geometry} {request : Request}

/-! ## Operations and their lock -/

/-- The lock of the slot engine; blob and flash callbacks need it. -/
def slotsLock : LockUse SlotsPort where
  asks
    | .lock => true
    | _ => false
  given
    | ⟨.lock, answer⟩ => answer
    | _ => false
  returns
    | .unlock => true
    | _ => false
  needs
    | .readBlob | .writeBlob _ | .flashRead _ _ | .flashErase _ _ | .flashWrite _ _ => true
    | _ => false

/-- A call that leaves the lock alone. -/
def LeavesLock (call : SlotsCall) : Prop :=
  slotsLock.asks call = false ∧ slotsLock.returns call = false

theorem leavesLock_of_inner {call : SlotsCall} (hinner : call.inner = true) : LeavesLock call := by
  cases call <;> simp_all [SlotsCall.inner, LeavesLock, slotsLock]

theorem leavesLock_of_readsFlash {call : SlotsCall} (hreads : call.readsFlash = true) :
    LeavesLock call :=
  leavesLock_of_inner (SlotsCall.inner_of_readsFlash hreads)

theorem leavesLock_loadLocked : (loadLocked geometry).run.Uses LeavesLock := by
  apply Program.Safe.uses safe_loadLocked
  rintro _ _ rfl
  exact ⟨rfl, rfl⟩

theorem leavesLock_beginLocked (expectedSequence : UInt32) :
    (beginLocked geometry expectedSequence).run.Uses LeavesLock := by
  apply Program.Safe.uses (safe_beginLocked expectedSequence)
  rintro _ _ rfl
  exact ⟨rfl, rfl⟩

theorem leavesLock_checkReferences (state : State) (candidate : Bool) :
    (checkReferences sha256 geometry state candidate).run.Uses LeavesLock :=
  Program.Safe.uses (safe_checkReferences state candidate) fun _ _ => leavesLock_of_readsFlash

theorem leavesLock_hashFlash (slot : UInt8) (sizeBytes : UInt32) (expectedSha256 : Sha256) :
    (hashFlash sha256 geometry slot sizeBytes expectedSha256).run.Uses LeavesLock :=
  Program.Safe.uses (safe_hashFlash slot sizeBytes expectedSha256) fun _ _ =>
    leavesLock_of_readsFlash

theorem leavesLock_checkCandidate (state : State) :
    (checkCandidate sha256 geometry state).run.Uses LeavesLock := by
  unfold checkCandidate
  split
  · exact leavesLock_hashFlash _ _ _
  · trivial

theorem leavesLock_persistLocked (before : Option State) (after : State) (hasState : Bool) :
    (persistLocked before after hasState).run.Uses LeavesLock := by
  unfold persistLocked
  refine Fallible.uses_bind (uses_ask ⟨rfl, rfl⟩) fun committed => ?_
  refine Fallible.uses_bind (uses_ask ⟨rfl, rfl⟩) fun answer => ?_
  cases answer with
  | notFound => trivial
  | readFailed => trivial
  | found observed =>
      simp only
      split
      · refine Fallible.uses_bind (Fallible.uses_require _ _) fun _ => ?_
        split
        · exact uses_ask ⟨rfl, rfl⟩
        · trivial
      · split <;> trivial

theorem leavesLock_commitNext (before next : State) :
    (commitNext geometry before next).run.Uses LeavesLock := by
  unfold commitNext
  refine Fallible.uses_bind (Fallible.uses_require _ _) fun _ => ?_
  refine Fallible.uses_bind (Fallible.uses_require _ _) fun _ => ?_
  exact leavesLock_persistLocked _ _ _

/-- A preparation that keeps the inner promise leaves the lock alone. -/
theorem Prepares.leavesLock {current : State} {prepare : Locked State}
    (hprepare : Prepares sha256 geometry request current prepare) :
    prepare.run.Uses LeavesLock :=
  Program.Safe.uses hprepare fun _ _ hcall => leavesLock_of_inner hcall.1

/-- A transaction leaves the lock alone if its middle part does on loaded records. -/
theorem leavesLock_transact {expectedSequence : UInt32} {prepare : State → Locked State}
    (hprepare : ∀ current, Loaded geometry current → (prepare current).run.Uses LeavesLock) :
    (transact geometry expectedSequence prepare).run.Uses LeavesLock := by
  have hsafe : Fallible.Safe (World.history SlotsPort) (fun _ call => LeavesLock call)
      (fun _ _ => True) (fun _ _ => True) (transact geometry expectedSequence prepare) [] := by
    rw [transact, Fallible.safe_bind]
    refine (safe_beginLocked expectedSequence).mono ?_ (fun _ _ _ => trivial) ?_
    · rintro _ _ rfl
      exact ⟨rfl, rfl⟩
    · rintro _ current ⟨hloaded, -, -⟩
      exact (Fallible.uses_bind (hprepare current hloaded)
        fun planned => leavesLock_commitNext current planned).safe.imp fun _ result _ => by
          cases result <;> trivial
  exact Program.Safe.uses hsafe fun _ _ hcall => hcall

theorem leavesLock_initializeLocked (firmwareSet : FirmwareSet)
    (bindings : Fin bindingCount → Binding) :
    (initializeLocked sha256 geometry firmwareSet bindings).run.Uses LeavesLock := by
  unfold initializeLocked
  refine Fallible.uses_bind (Fallible.uses_attempt leavesLock_loadLocked) fun result => ?_
  cases result with
  | ok current => trivial
  | error code =>
      cases code with
      | empty =>
          refine Fallible.uses_bind (Fallible.uses_require _ _) fun _ => ?_
          refine Fallible.uses_bind (leavesLock_checkReferences _ _) fun _ => ?_
          exact leavesLock_persistLocked _ _ _
      | _ => trivial

theorem leavesLock_reconcileLocked (firmwareSet : FirmwareSet) :
    (reconcileLocked sha256 geometry firmwareSet).run.Uses LeavesLock := by
  unfold reconcileLocked
  refine Fallible.uses_bind (Fallible.uses_attempt ?_) fun result => ?_
  · refine Fallible.uses_bind leavesLock_loadLocked fun state => ?_
    refine Fallible.uses_bind (uses_ask ⟨rfl, rfl⟩) fun _ => ?_
    refine Fallible.uses_bind (Fallible.uses_require _ _) fun _ => ?_
    exact Fallible.uses_bind (leavesLock_checkReferences _ _) fun _ => trivial
  · cases result with
    | error code => exact Fallible.uses_bind (uses_ask ⟨rfl, rfl⟩) fun _ => trivial
    | ok state =>
        unfold decideBoot
        refine Fallible.uses_bind (Fallible.uses_attempt (leavesLock_checkCandidate _))
          fun result => ?_
        cases result with
        | error code => exact Fallible.uses_bind (uses_ask ⟨rfl, rfl⟩) fun _ => trivial
        | ok value => exact uses_ask ⟨rfl, rfl⟩

theorem stays_held {call : SlotsCall} (hleaves : LeavesLock call) :
    slotsLock.Stays .held call := by
  refine ⟨hleaves.1, fun answer => ?_⟩
  simp only [LockUse.next, hleaves.2, Bool.false_eq_true, if_false]

/-- Safety of a program that keeps the lock discipline from a trace on. -/
abbrev LockSafe {α : Type} (program : Program SlotsPort α) (past : SlotsTrace) : Prop :=
  program.Safe (World.history SlotsPort)
    (fun past call => slotsLock.Permits (slotsLock.phase past) call)
    (fun trace _ => slotsLock.phase trace ≠ .held) past

/-- `withLock` asks for the lock, keeps it around its body and gives it back. -/
theorem lockSafe_withLock {body : Locked Unit} (hbody : body.run.Uses LeavesLock)
    {past : SlotsTrace} (hpast : slotsLock.phase past = .fresh) : LockSafe (withLock body) past := by
  simp only [LockSafe, withLock, Program.safe_bind, Program.call, Program.safe_ask_history,
    Program.safe_ret]
  refine ⟨by rw [hpast]; exact ⟨rfl, rfl⟩, fun locked => ?_⟩
  cases locked with
  | false =>
      change slotsLock.phase (past ++ [⟨.lock, false⟩]) ≠ .held
      rw [LockUse.phase_append_singleton, hpast]
      decide
  | true =>
      simp only [if_true, Program.safe_bind, Program.safe_ask_history, Program.safe_ret]
      have hheld : slotsLock.phase (past ++ [⟨.lock, true⟩]) = .held := by
        rw [LockUse.phase_append_singleton, hpast]
        rfl
      have hinside : body.run.Uses (slotsLock.Stays .held) :=
        hbody.mono fun _ => stays_held
      refine (LockUse.safe_of_stays hinside hheld).imp fun trace result htrace => ?_
      refine ⟨by rw [htrace]; rfl, fun _ => ?_⟩
      rw [Program.pure_eq_ret, Program.safe_ret, LockUse.phase_append_singleton, htrace]
      exact (by decide : LockPhase.done ≠ .held)

/-- An operation that returns before taking the lock. -/
theorem lockSafe_refuse (reply : Reply) {past : SlotsTrace}
    (hpast : slotsLock.phase past = .fresh) : LockSafe (pure reply) past := by
  change slotsLock.phase past ≠ .held
  rw [hpast]
  nofun

theorem lockSafe_guarded {check : Bool} {code : SlotsError} {body : Locked Unit}
    (hbody : check = false → body.run.Uses LeavesLock) {past : SlotsTrace}
    (hpast : slotsLock.phase past = .fresh) :
    LockSafe (if check then pure (.error code) else withLock body) past := by
  cases check with
  | false => exact lockSafe_withLock (hbody rfl) hpast
  | true => exact lockSafe_refuse _ hpast

theorem lockSafe_load (io hasState : Bool) : LockSafe (load io geometry hasState) [] := by
  unfold load
  split
  · exact lockSafe_refuse _ rfl
  simp only [LockSafe, Program.safe_bind, Program.call, Program.safe_ask_history, Program.safe_ret]
  refine ⟨⟨rfl, rfl⟩, fun _ => ⟨⟨rfl, rfl⟩, fun locked => ?_⟩⟩
  cases locked with
  | false => exact (by decide : LockPhase.done ≠ .held)
  | true =>
      simp only [if_true, Program.safe_bind]
      have hinside : (loadLocked geometry).run.Uses (slotsLock.Stays .held) :=
        leavesLock_loadLocked.mono fun _ => stays_held
      refine (LockUse.safe_of_stays hinside rfl).imp fun trace result htrace => ?_
      cases result with
      | ok state =>
          simp only [Program.ask_bind, Program.ret_bind, Program.pure_eq_ret,
            Program.safe_ask_history, Program.safe_ret, LockUse.phase_append_singleton, htrace]
          exact ⟨rfl, fun _ => ⟨rfl, fun _ => (by decide : LockPhase.done ≠ .held)⟩⟩
      | error code =>
          simp only [Program.ask_bind, Program.ret_bind, Program.pure_eq_ret,
            Program.safe_ask_history, Program.safe_ret, LockUse.phase_append_singleton, htrace]
          exact ⟨rfl, fun _ => ⟨⟨rfl, rfl, rfl⟩, fun _ => (by decide : LockPhase.done ≠ .held)⟩⟩

theorem lockSafe_reconcile (io : Bool) (firmwareSet : Option FirmwareSet)
    (hasState hasDecision : Bool) :
    LockSafe (reconcile sha256 io geometry firmwareSet hasState hasDecision) [] := by
  have hclear : (clearDecision hasDecision).Uses (slotsLock.Stays .fresh) ∧
      (clearState hasState).Uses (slotsLock.Stays .fresh) := by
    have hstate : (Program.call (I := SlotsPort) (.storeState State.zero)).Uses
        (slotsLock.Stays .fresh) := Program.uses_call ⟨⟨rfl, rfl⟩, fun _ => rfl⟩
    have hdecision : (Program.call (I := SlotsPort) (.storeDecision .bootBlocked)).Uses
        (slotsLock.Stays .fresh) := Program.uses_call ⟨⟨rfl, rfl⟩, fun _ => rfl⟩
    unfold clearDecision clearState
    constructor
    · split
      · exact hdecision
      · trivial
    · split
      · exact hstate
      · trivial
  simp only [LockSafe, reconcile, Program.safe_bind]
  refine (LockUse.safe_of_stays hclear.1 rfl).imp fun first _ hfirst => ?_
  refine (LockUse.safe_of_stays hclear.2 hfirst).imp fun second _ hsecond => ?_
  cases firmwareSet with
  | none => exact lockSafe_refuse _ hsecond
  | some firmwareSet =>
      exact lockSafe_guarded (fun _ => leavesLock_reconcileLocked firmwareSet) hsecond

/-- A transaction keeps the lock discipline. -/
theorem disciplined_of_transacts {expectedSequence : UInt32}
    (htransacts : Transacts sha256 geometry request expectedSequence) :
    slotsLock.Disciplined (request.program sha256 geometry) := by
  rcases htransacts with hrefused | ⟨hprogram, hprepares⟩
  · rw [hrefused]
    exact lockSafe_refuse _ rfl
  · rw [hprogram]
    apply lockSafe_withLock _ rfl
    exact leavesLock_transact fun current hloaded => (hprepares current hloaded).leavesLock

/-- Every request keeps the lock discipline. -/
theorem disciplined_program (request : Request) :
    slotsLock.Disciplined (request.program sha256 geometry) := by
  cases request with
  | initializeRecord io firmwareSet bindings =>
      cases firmwareSet with
      | none => exact lockSafe_refuse _ rfl
      | some firmwareSet =>
          cases bindings with
          | none => exact lockSafe_refuse _ rfl
          | some bindings =>
              exact lockSafe_guarded (fun _ => leavesLock_initializeLocked firmwareSet bindings) rfl
  | load io hasState => exact lockSafe_load io hasState
  | reconcile io firmwareSet hasState hasDecision =>
      exact lockSafe_reconcile io firmwareSet hasState hasDecision
  | _ => exact disciplined_of_transacts (transacts_of_expectedSequence _ rfl)

/-! ## Shared runs -/

variable {κ : Type}

/-- What happens when clients share a device. -/
abbrev SlotsIncident (κ : Type) : Type :=
  Incident κ Request SlotsPort Reply (Option κ × Option Blob)

/-- A call of a client, with the holder of the lock and the record around it. -/
abbrev SlotsMoment (κ : Type) : Type := Moment κ Request SlotsPort Reply (Option κ × Option Blob)

/-- What clients do whose lock is exclusive and whose record store is truthful. -/
abbrev SharedRun [DecidableEq κ] (sha256 : List UInt8 → Sha256) (geometry : Geometry) (first : Option Blob)
    (incidents : List (SlotsIncident κ)) (pool : Pool κ Request SlotsPort Reply)
    (last : Option κ × Option Blob) : Prop :=
  Shared (slotsLock.exclusive recordWorld) (Request.program sha256 geometry) (none, first)
    incidents pool last

/-- Only calls that need the lock depend on the record or change it. -/
theorem guards_recordWorld : slotsLock.Guards recordWorld := by
  intro call hneeds before answer after hstep
  cases call with
  | readBlob => cases hneeds
  | writeBlob blob => cases hneeds
  | _ => exact ⟨hstep, fun _ => rfl⟩

/-- The sequence number of a record, 0 where there is none. -/
def recordSequence (geometry : Geometry) (record : Option Blob) : Nat :=
  ((record.bind fun blob => decodeState blob geometry).map fun state => state.sequence.toNat).getD 0

theorem recordSequence_of_loaded {state : State} (hloaded : Loaded geometry state) :
    recordSequence geometry (some (encodeState state)) = state.sequence.toNat := by
  simp [recordSequence, show decodeState (encodeState state) geometry = some state from hloaded]

/-- A change of the record: the calling operation found the present record under its lock,
with the sequence number it expected, and moves it along one edge of the state machine. -/
structure Update (sha256 : List UInt8 → Sha256) (geometry : Geometry) (moment : SlotsMoment κ)
    (current : Option State) (own : SlotsTrace) (next : State) : Prop where
  before : moment.before.2 = storedRecord current
  after : moment.after.2 = some (encodeState next)
  opened : moment.thread.trace = opening current ++ own ∧ Inner own
  transition : Transition sha256 geometry moment.thread.request current own next
  loaded : ∀ state, current = some state → decodeState (encodeState state) geometry = some state
  expected : ∀ state, current = some state →
    moment.thread.request.expectedSequence = some state.sequence
  stored : decodeState (encodeState next) geometry = some next
  sequence : next.sequence.toNat = nextSequence current

/-- A thread that is about to make a blob or flash callback holds the lock. -/
theorem held_of_needs [DecidableEq κ] {first : Option Blob} {incidents : List (SlotsIncident κ)}
    {pool : Pool κ Request SlotsPort Reply} {last : Option κ × Option Blob}
    (hshared : SharedRun sha256 geometry first incidents pool last) {client : κ}
    {thread : Thread Request SlotsPort Reply} (hthread : pool client = some thread)
    {call : SlotsCall} {resume : SlotsPort.Answer call → Program SlotsPort Reply}
    (hresidual : thread.residual = .ask call resume) (hneeds : slotsLock.needs call = true) :
    slotsLock.phase thread.trace = .held := by
  have hexec := hshared.exec client _ hthread
  rw [hresidual] at hexec
  have hpermits : slotsLock.Permits (slotsLock.phase thread.trace) call :=
    (disciplined_program thread.request).promise_of_exec (hexec.toHistory [])
  cases hphase : slotsLock.phase thread.trace with
  | held => rfl
  | fresh =>
      rw [hphase] at hpermits
      rw [hpermits.2] at hneeds
      cases hneeds
  | done =>
      rw [hphase] at hpermits
      rw [hpermits.2.2] at hneeds
      cases hneeds

/-- Every change of the record in a shared run is such an update. -/
theorem update_of_changed [DecidableEq κ] {first : Option Blob} {incidents : List (SlotsIncident κ)}
    {pool : Pool κ Request SlotsPort Reply} {last : Option κ × Option Blob}
    (hshared : SharedRun sha256 geometry first incidents pool last) {moment : SlotsMoment κ}
    (hmoment : .called moment ∈ incidents) (hchanged : moment.after.2 ≠ moment.before.2) :
    ∃ current own next, Update sha256 geometry moment current own next := by
  obtain ⟨earlier, pool, hearlier, hthread, hstep, resume, hresidual⟩ :=
    hshared.until_moment moment hmoment
  have hexec := hearlier.exec moment.client _ hthread
  rw [hresidual] at hexec
  have hwrite : ∃ blob, moment.event.1 = .writeBlob blob := by
    by_contra hnone
    rw [not_exists] at hnone
    exact hchanged (record_eq_of_step hstep.1 hnone)
  obtain ⟨blob, hblob⟩ := hwrite
  have hheld := held_of_needs hearlier hthread hresidual (by rw [hblob]; rfl)
  obtain ⟨start, hpath⟩ :=
    ((hearlier.attuned guards_recordWorld disciplined_program rfl).1 _ _ hthread).2.1 hheld
  obtain ⟨current, next, hcommitting, rfl⟩ :=
    ((safe_program moment.thread.request).promise_of_exec (hexec.toHistory [])).write blob hblob
  obtain ⟨hstart, hbefore⟩ := hcommitting.record hpath
  obtain ⟨own, htrace, hinner, htransition⟩ := hcommitting.opened
  rcases record_of_write hstep.1 hblob with hafter | hafter
  · exact absurd hafter hchanged
  · exact ⟨current, own, next, hbefore.trans hstart, hafter, ⟨htrace, hinner⟩, htransition,
      hcommitting.loaded, hcommitting.expected, hcommitting.loaded_next, hcommitting.sequence⟩

/-- An update raises the sequence number by one. -/
theorem Update.raises {moment : SlotsMoment κ} {current : Option State} {own : SlotsTrace}
    {next : State} (hupdate : Update sha256 geometry moment current own next) :
    recordSequence geometry moment.after.2 = recordSequence geometry moment.before.2 + 1 := by
  rw [hupdate.after, recordSequence_of_loaded hupdate.stored, hupdate.sequence, hupdate.before]
  cases current with
  | none => rfl
  | some state =>
      rw [storedRecord, Option.map_some, recordSequence_of_loaded (hupdate.loaded state rfl)]
      rfl

/-- The expected sequence number of an update is that of the record before it. -/
theorem Update.expected_eq {moment : SlotsMoment κ} {current : Option State} {own : SlotsTrace}
    {next : State} (hupdate : Update sha256 geometry moment current own next) {sequence : UInt32}
    (hexpected : moment.thread.request.expectedSequence = some sequence) :
    sequence.toNat = recordSequence geometry moment.before.2 := by
  cases hcurrent : current with
  | none =>
      have htransition := hupdate.transition
      rw [hcurrent] at htransition
      cases hrequest : moment.thread.request with
      | initializeRecord io firmwareSet bindings =>
          rw [hrequest] at hexpected
          cases hexpected
      | _ =>
          rw [hrequest] at htransition
          cases htransition
  | some state =>
      rw [hupdate.expected state hcurrent] at hexpected
      obtain rfl := Option.some.inj hexpected
      rw [hupdate.before, hcurrent, storedRecord, Option.map_some,
        recordSequence_of_loaded (hupdate.loaded state hcurrent)]

/-- The call of an incident, if it changed the record. -/
def changedMoment : SlotsIncident κ → Option (SlotsMoment κ)
  | .called moment => if moment.after.2 = moment.before.2 then none else some moment
  | _ => none

/-- The calls that changed the record, in order. -/
def changes (incidents : List (SlotsIncident κ)) : List (SlotsMoment κ) :=
  incidents.filterMap changedMoment

theorem mem_changes {incidents : List (SlotsIncident κ)} {moment : SlotsMoment κ} :
    moment ∈ changes incidents ↔
      .called moment ∈ incidents ∧ moment.after.2 ≠ moment.before.2 := by
  simp only [changes, List.mem_filterMap]
  constructor
  · rintro ⟨incident, hincident, hchanged⟩
    cases incident with
    | called found =>
        simp only [changedMoment] at hchanged
        split at hchanged
        · cases hchanged
        · next hne =>
          obtain rfl := Option.some.inj hchanged
          exact ⟨hincident, hne⟩
    | _ => cases hchanged
  · rintro ⟨hcalled, hne⟩
    exact ⟨.called moment, hcalled, by simp only [changedMoment, if_neg hne]⟩

theorem changes_append_of_quiet {incidents : List (SlotsIncident κ)} {incident : SlotsIncident κ}
    (hquiet : changedMoment incident = none) :
    changes (incidents ++ [incident]) = changes incidents := by
  simp [changes, hquiet]

theorem changes_append_of_changed {incidents : List (SlotsIncident κ)}
    {incident : SlotsIncident κ} {moment : SlotsMoment κ}
    (hchanged : changedMoment incident = some moment) :
    changes (incidents ++ [incident]) = changes incidents ++ [moment] := by
  simp [changes, hchanged]

/-- The sequence number grows from change to change. -/
theorem changes_ordered [DecidableEq κ] {first : Option Blob} {incidents : List (SlotsIncident κ)}
    {pool : Pool κ Request SlotsPort Reply} {last : Option κ × Option Blob}
    (hshared : SharedRun sha256 geometry first incidents pool last) :
    recordSequence geometry first ≤ recordSequence geometry last.2 ∧
      (∀ moment ∈ changes incidents,
        recordSequence geometry first ≤ recordSequence geometry moment.before.2 ∧
          recordSequence geometry moment.before.2 < recordSequence geometry last.2) ∧
      (changes incidents).Pairwise fun earlier later =>
        recordSequence geometry earlier.before.2 < recordSequence geometry later.before.2 := by
  induction hshared with
  | idle => simp [changes]
  | @begin state incidents pool earlier client hidle request ih =>
      have hquiet : changedMoment (.began client request : SlotsIncident κ) = none := rfl
      rw [changes_append_of_quiet hquiet]
      exact ih
  | @finish state incidents pool earlier client request trace reply hthread ih =>
      have hquiet : changedMoment
          (.ended client ⟨request, trace, .ret reply⟩ reply : SlotsIncident κ) = none := rfl
      rw [changes_append_of_quiet hquiet]
      exact ih
  | @call before after incidents pool earlier client request trace call resume hthread answer
      answered ih =>
      obtain ⟨hle, hall, hpairwise⟩ := ih
      set moment : SlotsMoment κ :=
        ⟨client, ⟨request, trace, .ask call resume⟩, ⟨call, answer⟩, before, after⟩ with hmoment
      by_cases hchanged : after.2 = before.2
      · have hquiet : changedMoment (.called moment) = none := if_pos hchanged
        rw [changes_append_of_quiet hquiet, hchanged]
        exact ⟨hle, hall, hpairwise⟩
      · have hnext := Shared.call earlier hthread answered
        obtain ⟨current, own, next, hupdate⟩ := update_of_changed hnext
          (List.mem_append_right _ (List.mem_singleton_self _)) hchanged
        have hraises : recordSequence geometry after.2 = recordSequence geometry before.2 + 1 :=
          hupdate.raises
        have hlast : changedMoment (.called moment) = some moment := if_neg hchanged
        rw [changes_append_of_changed hlast, hraises]
        simp only [List.mem_append, List.mem_singleton, List.pairwise_append]
        refine ⟨by omega, ?_, hpairwise, List.pairwise_singleton _ _, ?_⟩
        · rintro moment (hmoment | rfl)
          · obtain ⟨hstart, hlt⟩ := hall moment hmoment
            exact ⟨hstart, by omega⟩
          · exact ⟨hle, Nat.lt_succ_self _⟩
        · rintro moment hmoment later rfl
          exact (hall moment hmoment).2

/-- No lost update between clients. In every shared run of any number of clients, each
finished operation keeps its blob and flash callbacks between one lock and one unlock,
and a callback of these kinds is only ever made by the holder of the lock; every change
of the record raises its sequence number by one and was computed by one operation from
exactly the record before it, with the number it expected; so no two changes reach one
sequence number, and no two had the same number expected. -/
theorem no_lost_update [DecidableEq κ] (sha256 : List UInt8 → Sha256) (geometry : Geometry)
    {first : Option Blob} {incidents : List (SlotsIncident κ)}
    {pool : Pool κ Request SlotsPort Reply} {last : Option κ × Option Blob}
    (hshared : SharedRun sha256 geometry first incidents pool last) :
    (∀ client thread reply, .ended client thread reply ∈ incidents →
      slotsLock.Bracketed thread.trace) ∧
    (∀ moment, .called moment ∈ incidents → slotsLock.needs moment.event.1 = true →
      moment.before.1 = some moment.client) ∧
    (∀ moment ∈ changes incidents,
      ∃ current own next, Update sha256 geometry moment current own next) ∧
    (first :: (changes incidents).map fun moment => moment.after.2).Pairwise
      (fun earlier later => recordSequence geometry earlier < recordSequence geometry later) ∧
    (changes incidents).Pairwise (fun earlier later => ∀ sequence,
      ¬ (earlier.thread.request.expectedSequence = some sequence ∧
        later.thread.request.expectedSequence = some sequence)) := by
  have hupdates : ∀ moment ∈ changes incidents,
      ∃ current own next, Update sha256 geometry moment current own next := by
    intro moment hmoment
    obtain ⟨hcalled, hchanged⟩ := mem_changes.mp hmoment
    exact update_of_changed hshared hcalled hchanged
  obtain ⟨-, hall, hpairwise⟩ := changes_ordered hshared
  refine ⟨?_, ?_, hupdates, ?_, ?_⟩
  · intro client thread reply hended
    exact (disciplined_program thread.request).bracketed
      (hshared.exec_of_ended client thread reply hended)
  · intro moment hmoment hneeds
    obtain ⟨earlier, pool, hearlier, hthread, -, resume, hresidual⟩ :=
      hshared.until_moment moment hmoment
    exact ((hearlier.attuned guards_recordWorld disciplined_program rfl).1 _ _ hthread).1.mp
      (held_of_needs hearlier hthread hresidual hneeds)
  · rw [List.pairwise_cons, List.pairwise_map]
    constructor
    · intro record hrecord
      obtain ⟨moment, hmoment, rfl⟩ := List.mem_map.mp hrecord
      obtain ⟨current, own, next, hupdate⟩ := hupdates moment hmoment
      have hstart := (hall moment hmoment).1
      have hraises := hupdate.raises
      omega
    · refine hpairwise.imp_of_mem fun {earlier later} hearlier hlater hlt => ?_
      obtain ⟨_, _, _, hupdate⟩ := hupdates earlier hearlier
      obtain ⟨_, _, _, hupdate'⟩ := hupdates later hlater
      rw [hupdate.raises, hupdate'.raises]
      omega
  · refine hpairwise.imp_of_mem fun {earlier later} hearlier hlater hlt => ?_
    rintro sequence ⟨hexpected, hexpected'⟩
    obtain ⟨_, _, _, hupdate⟩ := hupdates earlier hearlier
    obtain ⟨_, _, _, hupdate'⟩ := hupdates later hlater
    have hfirst := hupdate.expected_eq hexpected
    have hsecond := hupdate'.expected_eq hexpected'
    omega

/-- One of two clients founds the sample record. -/
theorem no_lost_update_sampleFounding :
    ∃ incidents pool last,
      SharedRun (fun _ => sampleDigest) sampleGeometry none incidents pool
        (last : Option Bool × Option Blob) ∧
      last.2 ≠ none ∧
      ∀ moment ∈ changes incidents, ∃ current own next,
        Update (fun _ => sampleDigest) sampleGeometry moment current own next := by
  have hexec : Exec recordWorld (sampleFounding.program (fun _ => sampleDigest) sampleGeometry)
      none _ _ _ := (exec_sampleRun sampleFounding none).fst.fst
  rw [reply_sampleFounding] at hexec
  generalize (sampleRun sampleFounding none).2.2.1.1 = record at hexec
  obtain ⟨_, _, next, -, -, -, rfl⟩ := committed_of_ok rfl hexec
  have hbegun : SharedRun (fun _ => sampleDigest) sampleGeometry none [.began true sampleFounding]
      (Function.update (fun _ => none) true (some ⟨sampleFounding, [], sampleFounding.program
        (fun _ => sampleDigest) sampleGeometry⟩)) ((none, none) : Option Bool × Option Blob) :=
    .begin (.idle _) rfl sampleFounding
  obtain ⟨more, pool, hshared, -⟩ := hbegun.alone (Function.update_self true _ _)
    (LockUse.exec_exclusive (disciplined_program sampleFounding) hexec true)
  exact ⟨_, _, _, hshared, Option.some_ne_none _, (no_lost_update _ _ hshared).2.2.1⟩

end Slots
