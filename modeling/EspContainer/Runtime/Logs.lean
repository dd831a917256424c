/-
# Log records

An instance holds at most one log record. A log import puts one there if there is none,
`take_log` takes it away, and an entry that expires leaves what was there before it. So
the records that were taken, with the one that is held at the end, are those that were
accepted, in order, less those of expired entries.
-/

import EspContainer.Runtime.Lifecycle

namespace Container

open Interaction Package

/-- The records an instance holds: none, or the pending one. -/
def Runtime.held (runtime : Runtime) : List (List UInt8) :=
  if runtime.pendingLogSize = 0 then [] else [runtime.pending]

/-- The record an import accepted: the bytes of guest memory, if `log` returned 0. -/
def Imported.accepted (imported : Imported) : List (List UInt8) :=
  match imported.call, imported.answer with
  | .log offset sizeBytes, answer =>
      if answer = (0 : Int32) then [imported.world.bytes offset sizeBytes] else []
  | _, _ => []

/-- The records the imports of a call accepted. -/
def Report.accepted (report : Report) : List (List UInt8) :=
  match report.entered with
  | none => []
  | some entered => entered.imported.flatMap Imported.accepted

/-- The accepted records that count: not those of an entry that expired. -/
def Report.recorded (report : Report) : List (List UInt8) :=
  match report.result with
  | .error .entryExpired => []
  | _ => report.accepted

namespace Visit

/-- The records accepted in a visit, less those of an expired entry. -/
def recorded (visit : Visit) : List (List UInt8) := visit.report.toList.flatMap Report.recorded

/-- The record taken by a visit. -/
def taken (visit : Visit) : List (List UInt8) := visit.report.toList.flatMap (·.log.toList)

end Visit

/-! ## Imports -/

theorem Runtime.held_eq {before after : Runtime}
    (hsize : after.pendingLogSize = before.pendingLogSize)
    (hpending : after.pending = before.pending) : after.held = before.held := by
  rw [Runtime.held, Runtime.held, hsize, hpending]

/-- What is held depends on the log buffer only. -/
theorem Runtime.held_of_log {before after : Runtime} (hlog : after.pendingLog = before.pendingLog)
    (hsize : after.pendingLogSize = before.pendingLogSize) : after.held = before.held :=
  Runtime.held_eq hsize (by rw [Runtime.pending, Runtime.pending, hlog, hsize])

/-- A record that is kept is the one that is held. -/
theorem Runtime.held_keepLog (runtime : Runtime) {record : List UInt8} (hrecord : record ≠ []) :
    (runtime.keepLog record).held = [record] := by
  have hsize : ¬ record.length = 0 := by rwa [List.length_eq_zero_iff]
  simp [Runtime.held, Runtime.keepLog, Runtime.pending, hsize]

/-- An import adds what it accepted. -/
theorem Effect.held {imported : Imported} (heffect : Effect imported) :
    imported.after.runtime.held = imported.before.runtime.held ++ imported.accepted := by
  have hdenied : ∀ (call : ImportCall) (world : Surroundings) (before after : Host)
      (answer : call.Answer), Denied call answer →
      (Imported.mk call world before answer after).accepted = [] := by
    intro call world before after answer hanswer
    cases call with
    | log offset sizeBytes => exact if_neg hanswer
    | _ => rfl
  cases heffect with
  | idle hcheck hanswer => rw [hdenied _ _ _ _ _ hanswer, List.append_nil]
  | expired hcheck hanswer =>
      rw [hdenied _ _ _ _ _ hanswer, List.append_nil]
      exact Runtime.held_of_log rfl rfl
  | @logged offset sizeBytes world host hcheck hempty hsize =>
      have hrecord : world.bytes offset sizeBytes ≠ [] := by
        intro hnil
        have hlength := congrArg List.length hnil
        rw [Surroundings.length_bytes, List.length_nil] at hlength
        exact hsize (UInt32.toNat_inj.mp hlength)
      have hnone : host.runtime.held = [] := if_pos hempty
      rw [hnone, List.nil_append]
      exact host.runtime.held_keepLog hrecord
  | started hcheck hstopping hnext hfree =>
      rw [Imported.accepted, List.append_nil]
      exact Runtime.held_of_log rfl rfl
  | cancelled hcheck hstopping hslot =>
      rw [Imported.accepted, List.append_nil]
      exact Runtime.held_of_log rfl rfl

/-- The imports of an entry add what they accepted. -/
theorem held_of_imports {first last : Host} {imported : List Imported}
    (hwalk : Walk ImportStep first imported last) :
    last.runtime.held = first.runtime.held ++ imported.flatMap Imported.accepted := by
  have hconserved := hwalk.conserves (J := fun _ => True) (fun host => host.runtime.held)
    Imported.accepted (fun _ => []) (fun _ _ _ _ _ => trivial) (by
      rintro _ moment _ _ ⟨rfl, rfl, heffect, -⟩
      exact heffect.held) trivial
  rwa [List.flatMap_eq_nil_iff.mpr fun _ _ => rfl, List.nil_append] at hconserved

/-! ## Calls -/

/-- Preparing an invocation, concluding it and releasing the claim do not concern the log. -/
theorem held_conclude (function : GuestFunction) (invocation : Invocation)
    (timerEvent : Option TimerEvent) :
    ((conclude function invocation).deliver timerEvent).release.host.runtime.held =
        invocation.host.runtime.held ∧
      ((conclude function invocation).deliver timerEvent).release.log = none := by
  have hconclude : (conclude function invocation).host.runtime.held =
      invocation.host.runtime.held ∧ (conclude function invocation).log = none := by
    obtain ⟨status, host, entered⟩ := invocation
    cases status with
    | error code =>
        cases function with
        | init => exact ⟨Runtime.held_of_log rfl rfl, rfl⟩
        | onEvent => exact ⟨rfl, rfl⟩
        | stop => exact ⟨rfl, rfl⟩
    | ok value =>
        cases function with
        | onEvent => exact ⟨rfl, rfl⟩
        | init =>
            simp only [conclude]
            split
            · exact ⟨Runtime.held_of_log rfl rfl, rfl⟩
            · exact ⟨Runtime.held_of_log rfl rfl, rfl⟩
        | stop =>
            simp only [conclude]
            split
            · exact ⟨Runtime.held_of_log rfl rfl, rfl⟩
            · exact ⟨Runtime.held_of_log rfl rfl, rfl⟩
  rw [← hconclude.1, ← hconclude.2]
  unfold Report.deliver Report.release
  cases (conclude function invocation).result with
  | ok value => exact ⟨Runtime.held_of_log rfl rfl, rfl⟩
  | error code => exact ⟨Runtime.held_of_log rfl rfl, rfl⟩

/-- An invocation that did not expire adds what its imports accepted. -/
theorem Invoked.held {function : GuestFunction} {event : List UInt8} {entry : Entry} {host : Host}
    {invocation : Invocation} (hinvoked : Invoked function event entry host invocation)
    (hstatus : invocation.status ≠ .error .entryExpired) :
    invocation.host.runtime.held = host.runtime.held ++
      invocation.entered.toList.flatMap fun entered => entered.imported.flatMap Imported.accepted := by
  have hadded : ∀ {began : UInt64} {imported : List Imported} {closed : Host},
      Walk ImportStep (host.onRuntime (enter began)) imported closed →
      closed.runtime.held = host.runtime.held ++ imported.flatMap Imported.accepted := by
    intro began imported closed hwalk
    rw [held_of_imports hwalk]
    rfl
  cases hinvoked with
  | unentered =>
      rw [Option.toList_none, List.flatMap_nil, List.append_nil]
      exact Runtime.held_of_log rfl rfl
  | expired hbegan hdeadline hwalk hlate => exact absurd rfl hstatus
  | failed hbegan hdeadline hwalk hcode hexpired hreturns =>
      rw [Option.toList_some, List.flatMap_singleton, ← hadded hwalk]
      exact Runtime.held_of_log rfl rfl
  | returned hbegan hdeadline hwalk hexpired hreturns =>
      rw [Option.toList_some, List.flatMap_singleton, ← hadded hwalk]
      exact Runtime.held_of_log rfl rfl

/-- What is recorded by a call that did not expire. -/
theorem Report.recorded_eq {report : Report} (hresult : report.result ≠ .error .entryExpired) :
    report.recorded =
      report.entered.toList.flatMap fun entered => entered.imported.flatMap Imported.accepted := by
  have haccepted : report.accepted =
      report.entered.toList.flatMap fun entered => entered.imported.flatMap Imported.accepted := by
    unfold Report.accepted
    cases report.entered with
    | none => rfl
    | some entered => rw [Option.toList_some, List.flatMap_singleton]
  rw [← haccepted]
  unfold Report.recorded
  split
  · next hexpired => exact absurd hexpired hresult
  · rfl

/-- Every call takes from the front and puts at the end. -/
theorem Outcome.held {host : Host} {call : Call} {report : Report}
    (houtcome : Outcome host call report) (hconfined : host.runtime.Confined) :
    report.log.toList ++ report.host.runtime.held = host.runtime.held ++ report.recorded := by
  have hcut := houtcome.cleanCut hconfined
  by_cases hresult : report.result = .error .entryExpired
  · have hcut := hcut.cut (hcut.reported.mp hresult)
    have hlog : report.log = none := by
      cases houtcome with
      | tookLog hpending hcapacity => cases hresult
      | invoked hprepared => exact (held_conclude _ _ _).2
      | _ => rfl
    rw [hlog, Report.recorded, hresult, Option.toList_none, List.nil_append, List.append_nil]
    exact Runtime.held_eq hcut.pendingLogSize hcut.pending
  · rw [Report.recorded_eq hresult]
    cases houtcome with
    | refused hcode hselected hstops => simp [answer]
    | unread hstate => simp [answer]
    | stopped hstate => simp [answer]
    | earliest hstate => simp [answer]
    | tookLog hpending hcapacity => simp [answer, Runtime.held, hpending]
    | @invoked _ function event entry prepared timerEvent hprepared =>
        obtain ⟨hheld, hlog⟩ :=
          held_conclude function (invoke function event entry prepared) timerEvent
        rw [result_release, result_conclude] at hresult
        have hadded := (invoked_invoke function event entry prepared).held hresult
        have hreadied := hprepared.readied
        rw [hheld, hlog, (fades_release _ timerEvent).2, (fades_conclude _ _).2, hadded,
          Runtime.held_of_log hreadied.pendingLog hreadied.pendingLogSize]
        rfl

/-! ## Refusals -/

/-- A log import that is let through while a record is pending returns no zero and changes
nothing. -/
theorem Effect.log_refused {imported : Imported} (heffect : Effect imported)
    {offset sizeBytes : UInt32} (hcall : imported.call = .log offset sizeBytes)
    (hgranted : nativeOwner imported.world imported.before.runtime = .granted)
    (hpending : imported.before.runtime.pendingLogSize ≠ 0) :
    imported.accepted = [] ∧ imported.after = imported.before := by
  cases heffect with
  | idle hcheck hdenied =>
      obtain rfl := hcall
      exact ⟨if_neg hdenied, rfl⟩
  | expired hcheck hdenied =>
      rw [hcheck] at hgranted
      cases hgranted
  | logged hcheck hempty hsize => exact absurd hempty hpending
  | started hcheck hstopping hnext hfree => cases hcall
  | cancelled hcheck hstopping hslot => cases hcall

/-- A destination that cannot hold the pending record, or a null pointer. -/
def ShortFor (runtime : Runtime) (output : Option Nat) (hasSize : Bool) : Prop :=
  hasSize = false ∨ ∀ capacity, output = some capacity → capacity < runtime.pendingLogSize

/-- A pending record is not taken with such a destination. -/
theorem perform_takeLog_short {host : Host} (hidle : host.runtime.callActive = false)
    (hpending : host.runtime.pendingLogSize ≠ 0) {output : Option Nat} {hasSize : Bool}
    (hshort : ShortFor host.runtime output hasSize) :
    perform (.takeLog output hasSize) host = answer (.error .invalidInput) host := by
  cases hasSize with
  | false => rfl
  | true =>
      have hclaimed : takeLogClaimed output (claimedHost host) =
          answer (.error .invalidInput) (claimedHost host) := by
        have hpending' : (claimedHost host).runtime.pendingLogSize ≠ 0 := hpending
        unfold takeLogClaimed
        rw [if_neg hpending']
        cases output with
        | none => rfl
        | some capacity =>
            obtain hnull | hshort := hshort
            · cases hnull
            · exact if_pos (hshort capacity rfl)
      have hrelease := release_refused hidle (.error .invalidInput)
      rw [← hclaimed] at hrelease
      unfold perform withClaim
      simp only [Call.refused, Bool.not_true, Bool.false_eq_true, if_false, hidle]
      exact hrelease

/-! ## Runs -/

/-- The log imports of a guest entry that come while a record is pending. -/
def Entered.LogsKept (entered : Entered) : Prop :=
  ∀ imported ∈ entered.imported, ∀ offset sizeBytes, imported.call = .log offset sizeBytes →
    nativeOwner imported.world imported.before.runtime = .granted →
    imported.before.runtime.pendingLogSize ≠ 0 →
    imported.accepted = [] ∧ imported.after = imported.before

/-- Log records over a run that ends with an instance. -/
structure LogDelivery (visits : List Visit) (runtime : Runtime) : Prop where
  /-- What was taken and what is held is what was recorded, in order. -/
  conserved : visits.flatMap Visit.taken ++ runtime.held = visits.flatMap Visit.recorded
  /-- Nothing overwrites a pending record. -/
  kept : ∀ visit ∈ visits, ∀ entered, visit.entered = some entered → entered.LogsKept
  /-- A pending record stays if the destination is too small or missing. -/
  refused : ∀ visit ∈ visits, ∀ runtime output hasSize, visit.before.runtime = some runtime →
    visit.service = .calling (.takeLog output hasSize) → runtime.pendingLogSize ≠ 0 →
    ShortFor runtime output hasSize →
    visit.result = .error .invalidInput ∧ visit.after = visit.before

/-- The imports of an entry are imports. -/
theorem Passage.effects {first last : Host} {entered : Entered}
    (hpassage : Passage first (some entered) last) : ∀ imported ∈ entered.imported, Effect imported := by
  cases hpassage with
  | through hbefore hwalk hafter =>
      refine hwalk.forall_mem (J := fun _ => True) (fun _ _ _ _ _ => trivial) ?_ trivial
      rintro _ imported _ _ ⟨rfl, rfl, heffect, -⟩
      exact heffect

/-- A visit that calls the instance, if one is there. -/
def CallStep (before : Process) (visit : Visit) (after : Process) : Prop :=
  VisitStep before visit after ∧ ∃ call, visit.service = .calling call

/-- Such a visit performs the call. -/
theorem CallStep.performs {before after : Process} {visit : Visit}
    (hstep : CallStep before visit after) {runtime : Runtime}
    (hruntime : before.runtime = some runtime) :
    ∃ call, visit = before.call call ∧ after = (before.call call).after ∧
      visit.report = some (perform call (before.host runtime)) ∧
      after.runtime = some (perform call (before.host runtime)).host.runtime := by
  obtain ⟨hstep, call, hservice⟩ := hstep
  cases hstep with
  | opened hopens => cases hservice
  | notOpened hopens => cases hservice
  | called call' =>
      refine ⟨call', rfl, rfl, ?_, ?_⟩
      · rw [Process.call_some hruntime]
      · rw [Process.call_some hruntime]
  | closed =>
      unfold Process.close at hservice
      rw [hruntime] at hservice
      simp only at hservice
      split at hservice <;> cases hservice

/-- The records the instance of a process holds. -/
def Process.held (process : Process) : List (List UInt8) :=
  process.runtime.toList.flatMap Runtime.held

/-- The instance of a process is there, and sound. -/
def Process.Present (process : Process) : Prop :=
  ∃ runtime, process.runtime = some runtime ∧ runtime.Sound

/-- What one such visit does to the log. -/
theorem CallStep.logs {before after : Process} {visit : Visit} (hpresent : before.Present)
    (hstep : CallStep before visit after) :
    after.Present ∧ visit.taken ++ after.held = before.held ++ visit.recorded := by
  obtain ⟨runtime, hruntime, hsound⟩ := hpresent
  obtain ⟨call, -, -, hreport, hafter⟩ := hstep.performs hruntime
  have houtcome := outcome_perform call (show (before.host runtime).runtime.Sound from hsound)
  refine ⟨⟨_, hafter, houtcome.sound hsound⟩, ?_⟩
  have hheld := houtcome.held hsound.confined
  rw [Visit.taken, Visit.recorded, Process.held, Process.held, hreport, hruntime, hafter]
  simp only [Option.toList_some, List.flatMap_singleton]
  exact hheld

/-- What else it shows. -/
theorem CallStep.keepsLogs {before after : Process} {visit : Visit} (hpresent : before.Present)
    (hstep : CallStep before visit after) :
    (∀ entered, visit.entered = some entered → entered.LogsKept) ∧
      ∀ runtime output hasSize, visit.before.runtime = some runtime →
        visit.service = .calling (.takeLog output hasSize) → runtime.pendingLogSize ≠ 0 →
        ShortFor runtime output hasSize →
        visit.result = .error .invalidInput ∧ visit.after = visit.before := by
  obtain ⟨runtime, hruntime, hsound⟩ := hpresent
  obtain ⟨call, rfl, -, hreport, -⟩ := hstep.performs hruntime
  have houtcome := outcome_perform call (show (before.host runtime).runtime.Sound from hsound)
  constructor
  · intro entered hentered imported hmem offset sizeBytes hcall hgranted hpending
    rw [Visit.entered, hreport] at hentered
    have hpassage := houtcome.passage
    rw [show (perform call (before.host runtime)).entered = some entered from hentered] at hpassage
    exact (hpassage.effects imported hmem).log_refused hcall hgranted hpending
  · intro runtime' output hasSize hbefore hservice hpending hshort
    rw [Process.call_some hruntime] at hbefore hservice ⊢
    obtain rfl := Option.some.inj (hruntime.symm.trans hbefore)
    cases hservice
    have hpending' : (before.host runtime).runtime.pendingLogSize ≠ 0 := hpending
    have hrefused := perform_takeLog_short hsound.idle hpending' hshort
    simp only [hrefused, answer]
    refine ⟨trivial, ?_⟩
    rw [Process.host, ← hruntime]

/-- Log records are delivered exactly once, over every run of an instance. -/
theorem log_delivered_once {limits : Limits} (hlimits : limitsValid limits = true)
    {buffer : List UInt8} {nextTimerHandle : UInt64} {visits : List Visit} {last : Process}
    (hwalk : Walk VisitStep (.opened limits buffer nextTimerHandle) visits last)
    (hcalls : ∀ visit ∈ visits, ∃ call, visit.service = .calling call) :
    ∃ runtime, last.runtime = some runtime ∧ LogDelivery visits runtime := by
  have hfirst : (Process.opened limits buffer nextTimerHandle).Present :=
    ⟨_, rfl, Runtime.sound_opened hlimits buffer⟩
  have hrun : Walk CallStep (.opened limits buffer nextTimerHandle) visits last :=
    hwalk.restrict hcalls
  have hkept : ∀ before visit after, before.Present → CallStep before visit after →
      after.Present := fun _ _ _ hpresent hstep => (hstep.logs hpresent).1
  obtain ⟨runtime, hruntime, -⟩ := hrun.preserves hkept hfirst
  have hconserved := hrun.conserves Process.held Visit.recorded Visit.taken hkept
    (fun _ _ _ hpresent hstep => (hstep.logs hpresent).2) hfirst
  have hmembers := hrun.forall_mem hkept
    (fun _ _ _ hpresent hstep => hstep.keepsLogs hpresent) hfirst
  refine ⟨runtime, hruntime, ?_, fun visit hvisit => (hmembers visit hvisit).1,
    fun visit hvisit => (hmembers visit hvisit).2⟩
  have hlast : last.held = runtime.held := by simp [Process.held, hruntime]
  have hempty : (Process.opened limits buffer nextTimerHandle).held = [] := rfl
  rwa [hlast, hempty, List.nil_append] at hconserved

/-- A run of the sample instance: a record is accepted, and taken at the second attempt. -/
theorem log_delivered_once_sampleLimits : ∃ (visits : List Visit) (runtime : Runtime),
    visits.map (·.service) = [Call.init sampleEntry, .takeLog (some 2) true,
      .takeLog (some 3) true].map Service.calling ∧ LogDelivery visits runtime := by
  obtain ⟨visits, last, hwalk, hservices⟩ := walk_of_calls
    [Call.init sampleEntry, .takeLog (some 2) true, .takeLog (some 3) true]
    (.opened sampleLimits [] 1)
  obtain ⟨runtime, -, hdelivery⟩ := log_delivered_once (by decide) hwalk (by
    intro visit hvisit
    have hmem := List.mem_map_of_mem (f := fun visit : Visit => visit.service) hvisit
    rw [hservices] at hmem
    obtain ⟨call, -, hservice⟩ := List.mem_map.mp hmem
    exact ⟨call, hservice.symm⟩)
  exact ⟨visits, runtime, hservices, hdelivery⟩

end Container
