/-
# Expiry of entries

An entry runs over if an import reads the clock at or after its deadline, or if the
guest returns without exception and the closing reading is. This is a clean cut: the
call says so, the instance has failed, no timer is left, the pending log record is the
one from before the entry, and nothing was done by an import that came too late. It
does not matter which import noticed first, or whether the guest trapped afterwards.
-/

import EspContainer.Runtime.Process

namespace Container

open Interaction Package

/-- The ownership check of an import read a time at or after a deadline. -/
def Imported.ReadsLate (imported : Imported) (deadlineMs : Nat) : Prop :=
  imported.world.owner = true ∧
    ∃ now, imported.world.ownerClock = some now ∧ deadlineMs ≤ now.toNat

/-- The entry a call may make. -/
def Call.entry : Call → Option Entry
  | .init entry => some entry
  | .onEvent _ _ _ entry => some entry
  | .stop entry => some entry
  | .pollTimer _ _ _ _ entry => some entry
  | _ => none

/-- The guest was entered and ran over the deadline of the entry. -/
def RunsOver (host : Host) (call : Call) (report : Report) : Prop :=
  ∃ entry began entered, call.entry = some entry ∧ entry.began = some began ∧
    report.entered = some entered ∧
    ((∃ imported ∈ entered.imported, imported.ReadsLate (host.runtime.deadlineAfter began)) ∨
      entry.ReturnsLate (host.runtime.deadlineAfter began))

/-- An import has changed no timer, no log record and no handle counter. -/
structure Imported.Idle (imported : Imported) : Prop where
  timers : imported.after.runtime.timers = imported.before.runtime.timers
  pendingLog : imported.after.runtime.pendingLog = imported.before.runtime.pendingLog
  pendingLogSize : imported.after.runtime.pendingLogSize = imported.before.runtime.pendingLogSize
  nextTimerHandle : imported.after.nextTimerHandle = imported.before.nextTimerHandle

/-- What an instance is after an entry that ran over. -/
structure Cut (host : Host) (report : Report) : Prop where
  state : report.host.runtime.state = .failed
  timers : ∀ index, (report.host.runtime.timers index).active = false
  pendingLogSize : report.host.runtime.pendingLogSize = host.runtime.pendingLogSize
  pending : report.host.runtime.pending = host.runtime.pending
  guestResult : report.guestResult = none
  timerEvent : report.timerEvent = none

/-- Expiry is reported exactly for entries that ran over, and then it is a clean cut. -/
structure CleanCut (host : Host) (call : Call) (report : Report) : Prop where
  reported : report.result = .error .entryExpired ↔ RunsOver host call report
  cut : RunsOver host call report → Cut host report
  late : ∀ entry began entered, call.entry = some entry → entry.began = some began →
    report.entered = some entered → ∀ imported ∈ entered.imported,
      imported.ReadsLate (host.runtime.deadlineAfter began) → imported.Idle

/-! ## Imports in an entry -/

/-- The ownership check in an entry finds it expired by the clock alone. -/
theorem nativeOwner_eq_expired {world : Surroundings} {runtime : Runtime}
    (hguest : runtime.guestActive = true) (hcall : runtime.callActive = true) :
    nativeOwner world runtime = .expired ↔ world.owner = true ∧
      ∃ now, world.ownerClock = some now ∧ runtime.entryDeadlineMs ≤ now := by
  unfold nativeOwner
  rw [hguest, hcall]
  cases world.owner with
  | false => simp
  | true =>
      cases world.ownerClock with
      | none => simp
      | some now => by_cases hlate : now ≥ runtime.entryDeadlineMs <;> simp_all

/-- In a walk of imports, an ownership check finds the entry expired exactly if it reads
late. -/
theorem readsLate_iff {opened closed : Host} {imported : List Imported}
    (hwalk : Walk ImportStep opened imported closed) (hguest : opened.runtime.guestActive = true)
    (hcall : opened.runtime.callActive = true) {deadlineMs : Nat}
    (hdeadline : opened.runtime.entryDeadlineMs.toNat = deadlineMs) :
    ∀ moment ∈ imported, Effect moment ∧
      (nativeOwner moment.world moment.before.runtime = .expired ↔ moment.ReadsLate deadlineMs) := by
  refine hwalk.forall_mem (J := fun host => opened.runtime.Framed host.runtime) ?_ ?_ (.refl _)
  · rintro _ moment _ hframed ⟨rfl, rfl, heffect, -⟩
    exact hframed.trans heffect.framed
  · rintro _ moment _ hframed ⟨rfl, rfl, heffect, -⟩
    refine ⟨heffect, ?_⟩
    rw [nativeOwner_eq_expired (hframed.guestActive.trans hguest) (hframed.callActive.trans hcall),
      hframed.deadline, Imported.ReadsLate, ← hdeadline]
    simp only [UInt64.le_iff_toNat_le]

/-- An import that finds the entry expired does nothing. -/
theorem Effect.idle_of_expired {imported : Imported} (heffect : Effect imported)
    (hexpired : nativeOwner imported.world imported.before.runtime = .expired) :
    imported.Idle := by
  cases heffect with
  | idle hcheck hdenied => exact absurd hexpired hcheck
  | expired hcheck hdenied => exact ⟨rfl, rfl, rfl, rfl⟩
  | logged hcheck hempty hsize =>
      rw [hcheck] at hexpired
      cases hexpired
  | started hcheck hstopping hnext hfree =>
      rw [hcheck] at hexpired
      cases hexpired
  | cancelled hcheck hstopping hslot =>
      rw [hcheck] at hexpired
      cases hexpired

/-! ## Calls -/

/-- What a call leaves as it was when it calls `invoke`. -/
structure Readied (host : Host) (call : Call) (entry : Entry) (prepared : Host) : Prop where
  makes : call.entry = some entry
  limits : prepared.runtime.limits = host.runtime.limits
  callActive : prepared.runtime.callActive = true
  pendingLog : prepared.runtime.pendingLog = host.runtime.pendingLog
  pendingLogSize : prepared.runtime.pendingLogSize = host.runtime.pendingLogSize

theorem Prepared.readied {host prepared : Host} {call : Call} {function : GuestFunction}
    {event : List UInt8} {entry : Entry} {timerEvent : Option TimerEvent}
    (hprepared : Prepared host call function event entry prepared timerEvent) :
    Readied host call entry prepared := by
  cases hprepared <;> exact ⟨rfl, rfl, rfl, rfl, rfl⟩

/-- The result does not depend on the timer to be reported. -/
theorem result_release (report : Report) (timerEvent : Option TimerEvent) :
    (report.deliver timerEvent).release.result = report.result := by
  obtain ⟨result, host, entered, guestResult, timer, log, deadlineMs⟩ := report
  cases result <;> rfl

/-- Only an invocation that expired makes a call report it. -/
theorem result_conclude (function : GuestFunction) (invocation : Invocation) :
    (conclude function invocation).result = .error .entryExpired ↔
      invocation.status = .error .entryExpired := by
  obtain ⟨status, host, entered⟩ := invocation
  cases status with
  | error code => simp [conclude, answer]
  | ok value =>
      refine iff_of_false (fun hresult => ?_) (by simp)
      cases function with
      | onEvent => cases hresult
      | init =>
          simp only [conclude] at hresult
          split at hresult <;> cases hresult
      | stop =>
          simp only [conclude] at hresult
          split at hresult <;> cases hresult

/-- Calls that never reach the guest do not expire. -/
theorem cleanCut_of_unentered {host : Host} {call : Call} {report : Report}
    (hentered : report.entered = none) (hresult : report.result ≠ .error .entryExpired) :
    CleanCut host call report := by
  have hnever : ¬ RunsOver host call report := by
    rintro ⟨entry, began, entered, -, -, hsome, -⟩
    rw [hentered] at hsome
    cases hsome
  refine ⟨iff_of_false hresult hnever, fun h => absurd h hnever, ?_⟩
  intro entry began entered _ _ hsome
  rw [hentered] at hsome
  cases hsome

/-- What a call makes of an expired invocation. -/
theorem cut_conclude {function : GuestFunction} {host closed : Host} {entered : Option Entered}
    {timerEvent : Option TimerEvent} (hconfined : closed.runtime.Confined)
    (hlog : host.runtime.pendingLogSize ≠ 0 → closed.runtime.pendingLog = host.runtime.pendingLog) :
    Cut host ((conclude function ⟨.error .entryExpired,
      (leave closed).onRuntime (expireEntry host.runtime.pendingLogSize), entered⟩).deliver
        timerEvent).release := by
  have hinactive : ∀ index,
      ((expireEntry host.runtime.pendingLogSize (leave closed).runtime).timers index).active =
        false := fun index => Runtime.clearTimers_inactive hconfined index
  have hpending : closed.runtime.pendingLog.take host.runtime.pendingLogSize =
      host.runtime.pending := by
    rw [Runtime.pending]
    by_cases hsize : host.runtime.pendingLogSize = 0
    · rw [hsize, List.take_zero, List.take_zero]
    · rw [hlog hsize]
  cases function with
  | init =>
      refine ⟨rfl, fun index => ?_, rfl, hpending, rfl, rfl⟩
      exact Runtime.clearTimers_inactive (fun index _ => hinactive index) index
  | onEvent => exact ⟨rfl, hinactive, rfl, hpending, rfl, rfl⟩
  | stop => exact ⟨rfl, hinactive, rfl, hpending, rfl, rfl⟩

/-- An entry whose imports are known. -/
structure Walked (host : Host) (call : Call) (entry : Entry) (began : UInt64) (entered : Entered)
    (closed : Host) : Prop where
  makes : call.entry = some entry
  begins : entry.began = some began
  checks : ∀ imported ∈ entered.imported, Effect imported ∧
    (nativeOwner imported.world imported.before.runtime = .expired ↔
      imported.ReadsLate (host.runtime.deadlineAfter began))
  expired : closed.runtime.entryExpired = true ↔ ∃ imported ∈ entered.imported,
    nativeOwner imported.world imported.before.runtime = .expired

theorem Readied.walked {host prepared closed : Host} {call : Call} {entry : Entry}
    (hreadied : Readied host call entry prepared) {began : UInt64} (hbegan : entry.began = some began)
    (hdeadline : (enter began prepared.runtime).entryDeadlineMs.toNat =
      prepared.runtime.deadlineAfter began) {imported : List Imported}
    (hwalk : Walk ImportStep (prepared.onRuntime (enter began)) imported closed)
    (function : GuestFunction) (event : List UInt8) :
    Walked host call entry began ⟨function, event, prepared.onRuntime (enter began), imported⟩
      closed where
  makes := hreadied.makes
  begins := hbegan
  checks := by
    rw [Runtime.deadlineAfter, hreadied.limits, ← Runtime.deadlineAfter] at hdeadline
    exact readsLate_iff hwalk rfl hreadied.callActive hdeadline
  expired := by
    rw [entryExpired_of_imports hwalk]
    simp [enter]

/-- When such an entry ran over. -/
theorem Walked.runsOver_iff {host closed : Host} {call : Call} {entry : Entry} {began : UInt64}
    {entered : Entered} (hwalked : Walked host call entry began entered closed) {report : Report}
    (hentered : report.entered = some entered) :
    RunsOver host call report ↔ closed.runtime.entryExpired = true ∨
      entry.ReturnsLate (host.runtime.deadlineAfter began) := by
  rw [hwalked.expired]
  constructor
  · rintro ⟨entry', began', entered', hentry, hbegan, hsome, hlate⟩
    obtain rfl := Option.some.inj (hwalked.makes.symm.trans hentry)
    obtain rfl := Option.some.inj (hwalked.begins.symm.trans hbegan)
    obtain rfl := Option.some.inj (hentered.symm.trans hsome)
    apply hlate.imp_left
    rintro ⟨imported, hmem, hreads⟩
    exact ⟨imported, hmem, (hwalked.checks imported hmem).2.mpr hreads⟩
  · intro hlate
    refine ⟨entry, began, entered, hwalked.makes, hwalked.begins, hentered, ?_⟩
    apply hlate.imp_left
    rintro ⟨imported, hmem, hexpired⟩
    exact ⟨imported, hmem, (hwalked.checks imported hmem).2.mp hexpired⟩

/-- The imports of such an entry that came too late did nothing. -/
theorem Walked.late {host closed : Host} {call : Call} {entry : Entry} {began : UInt64}
    {entered : Entered} (hwalked : Walked host call entry began entered closed) {report : Report}
    (hentered : report.entered = some entered) :
    ∀ entry began entered, call.entry = some entry → entry.began = some began →
      report.entered = some entered → ∀ imported ∈ entered.imported,
        imported.ReadsLate (host.runtime.deadlineAfter began) → imported.Idle := by
  intro entry' began' entered' hentry hbegan hsome imported hmem hreads
  obtain rfl := Option.some.inj (hwalked.makes.symm.trans hentry)
  obtain rfl := Option.some.inj (hwalked.begins.symm.trans hbegan)
  obtain rfl := Option.some.inj (hentered.symm.trans hsome)
  obtain ⟨heffect, hchecks⟩ := hwalked.checks imported hmem
  exact heffect.idle_of_expired (hchecks.mpr hreads)

/-- A call that reaches `invoke`. -/
theorem cleanCut_of_invoked {host prepared : Host} {call : Call} {function : GuestFunction}
    {event : List UInt8} {entry : Entry} {timerEvent : Option TimerEvent}
    {invocation : Invocation} (hreadied : Readied host call entry prepared)
    (hconfined : prepared.runtime.Confined)
    (hinvoked : Invoked function event entry prepared invocation) :
    CleanCut host call ((conclude function invocation).deliver timerEvent).release := by
  have hresult := (result_release (conclude function invocation) timerEvent).symm ▸
    result_conclude function invocation
  have hentered : ((conclude function invocation).deliver timerEvent).release.entered =
      invocation.entered :=
    (fades_release (conclude function invocation) timerEvent).2.trans
      (fades_conclude function invocation).2
  have hduration : ∀ began,
      prepared.runtime.deadlineAfter began = host.runtime.deadlineAfter began :=
    fun began => by rw [Runtime.deadlineAfter, Runtime.deadlineAfter, hreadied.limits]
  cases hinvoked with
  | unentered =>
      apply cleanCut_of_unentered hentered
      rw [ne_eq, hresult]
      simp
  | @expired began imported closed hbegan hdeadline hwalk hlate =>
      have hwalked := hreadied.walked hbegan hdeadline hwalk function event
      have hover := hwalked.runsOver_iff hentered
      rw [← hduration] at hover
      refine ⟨iff_of_true (hresult.mpr rfl) (hover.mpr hlate), fun _ => ?_, hwalked.late hentered⟩
      -- A record that was pending before the entry stayed as it was.
      have hlog : host.runtime.pendingLogSize ≠ 0 →
          closed.runtime.pendingLog = host.runtime.pendingLog := by
        intro hpending
        rw [← hreadied.pendingLogSize] at hpending
        exact (log_kept_of_imports hwalk hpending).1.trans hreadied.pendingLog
      rw [hreadied.pendingLogSize]
      have hclosed : Passage prepared
          (some ⟨function, event, prepared.onRuntime (enter began), imported⟩) closed :=
        .through ⟨.of_eq rfl rfl, rfl⟩ hwalk (.refl _)
      exact cut_conclude (hclosed.confined hconfined).2 hlog
  | failed hbegan hdeadline hwalk hcode hexpired hreturns =>
      have hwalked := hreadied.walked hbegan hdeadline hwalk function event
      have hover := hwalked.runsOver_iff hentered
      rw [← hduration, hexpired] at hover
      have hnot := mt hover.mp (not_or.mpr ⟨by simp, hreturns⟩)
      refine ⟨iff_of_false ?_ hnot, fun h => absurd h hnot, hwalked.late hentered⟩
      rw [hresult]
      obtain rfl | rfl := hcode
      · simp
      · simp
  | returned hbegan hdeadline hwalk hexpired hreturns =>
      have hwalked := hreadied.walked hbegan hdeadline hwalk function event
      have hover := hwalked.runsOver_iff hentered
      rw [← hduration, hexpired] at hover
      have hnot := mt hover.mp (not_or.mpr ⟨by simp, hreturns⟩)
      refine ⟨iff_of_false ?_ hnot, fun h => absurd h hnot, hwalked.late hentered⟩
      rw [hresult]
      simp

/-- Expiry is a clean cut for every call of a sound instance. -/
theorem Outcome.cleanCut {host : Host} {call : Call} {report : Report}
    (houtcome : Outcome host call report) (hconfined : host.runtime.Confined) :
    CleanCut host call report := by
  cases houtcome with
  | @refused _ code hcode hselected hstops =>
      apply cleanCut_of_unentered rfl
      intro hresult
      obtain rfl := Except.error.inj hresult
      cases hcode
  | unread hstate => exact cleanCut_of_unentered rfl nofun
  | stopped hstate => exact cleanCut_of_unentered rfl nofun
  | earliest hstate => exact cleanCut_of_unentered rfl nofun
  | tookLog hpending hcapacity => exact cleanCut_of_unentered rfl nofun
  | invoked hprepared =>
      exact cleanCut_of_invoked hprepared.readied (hprepared.fades.runtime.confined hconfined)
        (invoked_invoke _ _ _ _)

/-- Expiry is a clean cut, for every call in every reachable state. -/
theorem expiry_clean_cut {visits : List Visit} {process : Process} {runtime : Runtime}
    (hwalk : Walk VisitStep .boot visits process) (hruntime : process.runtime = some runtime)
    (call : Call) :
    CleanCut (process.host runtime) call (perform call (process.host runtime)) := by
  have hsound := sound_of_visits hwalk Process.sound_boot runtime hruntime
  have houtcome := outcome_perform call (show (process.host runtime).runtime.Sound from hsound)
  exact houtcome.cleanCut hsound.confined

/-- An entry at time 100 that may last ten milliseconds. It starts a timer in time and logs
too late, and the guest traps after that. -/
def overrunEntry : Entry where
  began := some 100
  imports := [(.timerStart 5 0, sampleSurroundings 101), (.log 1 3, sampleSurroundings 110)]
  ending := ⟨false, some "Exception: unreachable", 0⟩
  ended := none

theorem expiry_clean_cut_sampleProcess :
    (perform (.init overrunEntry) (sampleProcess.host sampleRuntime)).result =
        .error .entryExpired ∧
      CleanCut (sampleProcess.host sampleRuntime) (.init overrunEntry)
        (perform (.init overrunEntry) (sampleProcess.host sampleRuntime)) := by
  obtain ⟨visits, hwalk, -⟩ := walk_sampleOpen
  exact ⟨rfl, expiry_clean_cut hwalk rfl (.init overrunEntry)⟩

end Container
