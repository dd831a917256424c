/-
# The lifecycle of an instance

An instance is loaded, then runs, and ends up stopped or failed. The automaton below
says which guest function takes it from where to where, and every call follows it. What
may happen once, what may happen only in one state and what never happens again are
facts about runs of this automaton; that refused calls change nothing, that outputs are
written on success only and that the claim is released are facts about every call.
-/

import EspContainer.Runtime.Expiry

namespace Container

open Interaction Package

/-! ## The automaton -/

/-- The state in which a guest function may be entered. -/
def GuestFunction.starts : GuestFunction → RuntimeState
  | .init => .loaded
  | .onEvent => .running
  | .stop => .running

/-- The state in which a guest function that succeeds leaves its instance. -/
def GuestFunction.leads : GuestFunction → RuntimeState
  | .init => .running
  | .onEvent => .running
  | .stop => .stopped

/-- A state that is never left. -/
def RuntimeState.final : RuntimeState → Bool
  | .stopped | .failed => true
  | _ => false

/-- From one state to another by entering a guest function, or none. -/
inductive Course : RuntimeState → Option GuestFunction → RuntimeState → Prop
  | stayed (state : RuntimeState) : Course state none state
  | unentered (function : GuestFunction) : Course function.starts none .failed
  | failed (function : GuestFunction) : Course function.starts (some function) .failed
  | passed (function : GuestFunction) : Course function.starts (some function) function.leads

namespace Course

variable {before after : RuntimeState} {entered : Option GuestFunction}

/-- A final state is never left, and no guest function is entered there. -/
theorem final (hcourse : Course before entered after) (hfinal : before.final = true) :
    entered = none ∧ after = before := by
  cases hcourse with
  | stayed state => exact ⟨rfl, rfl⟩
  | unentered function => cases function <;> cases hfinal
  | failed function => cases function <;> cases hfinal
  | passed function => cases function <;> cases hfinal

/-- A guest function is entered in the state it starts from. -/
theorem starts {function : GuestFunction} (hcourse : Course before (some function) after) :
    before = function.starts := by
  cases hcourse with
  | failed function => rfl
  | passed function => rfl

/-- No call leads back to the loaded state. -/
theorem loaded (hcourse : Course before entered after) (hloaded : after = .loaded) :
    before = .loaded ∧ entered = none := by
  cases hcourse with
  | stayed state => exact ⟨hloaded, rfl⟩
  | unentered function => cases hloaded
  | failed function => cases hloaded
  | passed function => cases function <;> cases hloaded

/-- After stop was entered the state is final. -/
theorem final_of_stop (hcourse : Course before (some .stop) after) : after.final = true := by
  cases hcourse with
  | failed => rfl
  | passed => rfl

end Course

/-! ## Calls follow it -/

/-- An invocation fails its instance, or enters the guest and leaves the state alone. -/
theorem Invoked.state {function : GuestFunction} {event : List UInt8} {entry : Entry} {host : Host}
    {invocation : Invocation} (hinvoked : Invoked function event entry host invocation) :
    (∃ code, invocation.status = .error code) ∧ invocation.host.runtime.state = .failed ∧
        invocation.entered.map (·.function) ∈ [none, some function] ∨
      (∃ value, invocation.status = .ok value) ∧
        invocation.host.runtime.state = host.runtime.state ∧
        invocation.entered.map (·.function) = some function := by
  cases hinvoked with
  | unentered => exact .inl ⟨⟨_, rfl⟩, rfl, by simp⟩
  | expired hbegan hdeadline hwalk hlate => exact .inl ⟨⟨_, rfl⟩, rfl, by simp⟩
  | failed hbegan hdeadline hwalk hcode hexpired hreturns => exact .inl ⟨⟨_, rfl⟩, rfl, by simp⟩
  | returned hbegan hdeadline hwalk hexpired hreturns =>
      exact .inr ⟨⟨_, rfl⟩, (framed_of_imports hwalk).state, rfl⟩

/-- What a call makes of an invocation follows the automaton. -/
theorem Invoked.course {function : GuestFunction} {event : List UInt8} {entry : Entry}
    {host : Host} {invocation : Invocation}
    (hinvoked : Invoked function event entry host invocation)
    (hstate : host.runtime.state = function.starts) :
    Course function.starts (invocation.entered.map (·.function))
      (conclude function invocation).host.runtime.state := by
  obtain ⟨⟨code, hstatus⟩, hfailed, hentered⟩ | ⟨⟨value, hstatus⟩, hkept, hentered⟩ :=
    hinvoked.state
  · have hafter : (conclude function invocation).host.runtime.state = .failed := by
      rw [← hfailed, conclude, hstatus]
      cases function <;> rfl
    rw [hafter]
    simp only [List.mem_cons, List.not_mem_nil, or_false] at hentered
    obtain hentered | hentered := hentered
    · rw [hentered]
      exact .unentered function
    · rw [hentered]
      exact .failed function
  · rw [hentered, conclude, hstatus]
    cases function with
    | onEvent =>
        simp only [answer]
        rw [hkept, hstate]
        exact .passed .onEvent
    | init =>
        simp only
        split
        · exact .failed .init
        · exact .passed .init
    | stop =>
        simp only
        split
        · exact .failed .stop
        · exact .passed .stop

/-- A guest function is called in the state it starts from, by a call that holds the claim. -/
theorem Prepared.starts {host prepared : Host} {call : Call} {function : GuestFunction}
    {event : List UInt8} {entry : Entry} {timerEvent : Option TimerEvent}
    (hprepared : Prepared host call function event entry prepared timerEvent) :
    host.runtime.state = function.starts ∧ prepared.runtime.state = function.starts := by
  cases hprepared with
  | init hstate => exact ⟨hstate, hstate⟩
  | onEvent hstate hreserved => exact ⟨hstate, hstate⟩
  | stop hstate => exact ⟨hstate, hstate⟩
  | pollTimer hstate hselected => exact ⟨hstate, hstate⟩

/-- Stop is called with every timer inactive. -/
theorem Prepared.inactive {host prepared : Host} {call : Call} {event : List UInt8} {entry : Entry}
    {timerEvent : Option TimerEvent} (hconfined : host.runtime.Confined)
    (hprepared : Prepared host call .stop event entry prepared timerEvent) :
    ∀ index, (prepared.runtime.timers index).active = false := by
  cases hprepared with
  | stop hstate => exact Runtime.clearTimers_inactive hconfined

/-- Every call follows the automaton. -/
theorem Outcome.course {host : Host} {call : Call} {report : Report}
    (houtcome : Outcome host call report) :
    Course host.runtime.state (report.entered.map (·.function)) report.host.runtime.state := by
  cases houtcome with
  | refused hcode hselected hstops => exact .stayed _
  | unread hstate => exact .stayed _
  | stopped hstate => exact .stayed _
  | earliest hstate => exact .stayed _
  | tookLog hpending hcapacity => exact .stayed _
  | @invoked _ function event entry prepared timerEvent hprepared =>
      obtain ⟨hstate, hstate'⟩ := hprepared.starts
      have hcourse := (invoked_invoke function event entry prepared).course hstate'
      generalize invoke function event entry prepared = invocation at hcourse ⊢
      rw [(fades_release _ timerEvent).2, (fades_conclude _ _).2, hstate]
      have hreleased : ((conclude function invocation).deliver timerEvent).release.host.runtime.state =
          (conclude function invocation).host.runtime.state := by
        unfold Report.deliver Report.release
        cases (conclude function invocation).result <;> rfl
      rw [hreleased]
      exact hcourse

/-! ## What every call shows -/

/-- A guest entry is made in its state, under the claim, and stop without timers. -/
structure Entered.Timely (entered : Entered) : Prop where
  state : entered.host.runtime.state = entered.function.starts
  claimed : entered.host.runtime.callActive = true
  inactive : entered.function = .stop → ∀ index, (entered.host.runtime.timers index).active = false

/-- The host of a guest entry is the one that was prepared, but for the deadline. -/
theorem Invoked.entered_eq {function : GuestFunction} {event : List UInt8} {entry : Entry}
    {host : Host} {invocation : Invocation}
    (hinvoked : Invoked function event entry host invocation) {entered : Entered}
    (hentered : invocation.entered = some entered) :
    entered.function = function ∧ entered.event = event ∧
      ∃ began, entered.host = host.onRuntime (enter began) := by
  cases hinvoked with
  | unentered => cases hentered
  | expired hbegan hdeadline hwalk hlate =>
      cases hentered
      exact ⟨rfl, rfl, _, rfl⟩
  | failed hbegan hdeadline hwalk hcode hexpired hreturns =>
      cases hentered
      exact ⟨rfl, rfl, _, rfl⟩
  | returned hbegan hdeadline hwalk hexpired hreturns =>
      cases hentered
      exact ⟨rfl, rfl, _, rfl⟩

/-- Every guest entry is timely. -/
theorem Outcome.timely {host : Host} {call : Call} {report : Report}
    (houtcome : Outcome host call report) (hconfined : host.runtime.Confined) {entered : Entered}
    (hentered : report.entered = some entered) : entered.Timely := by
  cases houtcome with
  | refused hcode hselected hstops => cases hentered
  | unread hstate => cases hentered
  | stopped hstate => cases hentered
  | earliest hstate => cases hentered
  | tookLog hpending hcapacity => cases hentered
  | @invoked _ function event entry prepared timerEvent hprepared =>
      rw [(fades_release _ timerEvent).2, (fades_conclude _ _).2] at hentered
      obtain ⟨rfl, -, began, hhost⟩ :=
        (invoked_invoke function event entry prepared).entered_eq hentered
      refine ⟨?_, ?_, fun hstop => ?_⟩
      · rw [hhost]
        exact hprepared.starts.2
      · rw [hhost]
        exact hprepared.readied.callActive
      · rw [hhost]
        rw [hstop] at hprepared
        have hinactive := hprepared.inactive hconfined
        exact hinactive

/-- A refused call changes nothing. -/
theorem Outcome.unchanged {host : Host} {call : Call} {report : Report}
    (houtcome : Outcome host call report) {code : RuntimeError}
    (hresult : report.result = .error code) (hrefusal : code.refusal = true) :
    report.host = host := by
  cases houtcome with
  | refused hcode hselected hstops => rfl
  | unread hstate => rfl
  | stopped hstate => rfl
  | earliest hstate => rfl
  | tookLog hpending hcapacity => cases hresult
  | @invoked _ function event entry prepared timerEvent hprepared =>
      rw [result_release] at hresult
      have hinvoked := invoked_invoke function event entry prepared
      exact absurd hrefusal (concluded_not_refusal hinvoked code hresult)

/-- The guest's result and the timer event are written on success only. -/
theorem Outcome.outputs {host : Host} {call : Call} {report : Report}
    (houtcome : Outcome host call report)
    (hwritten : report.guestResult ≠ none ∨ report.timerEvent ≠ none) : report.result = .ok () := by
  cases houtcome with
  | refused hcode hselected hstops => simp [answer] at hwritten
  | unread hstate => simp [answer] at hwritten
  | stopped hstate => rfl
  | earliest hstate => rfl
  | tookLog hpending hcapacity => rfl
  | @invoked _ function event entry prepared timerEvent hprepared =>
      generalize invoke function event entry prepared = invocation at hwritten ⊢
      obtain ⟨status, host, entered⟩ := invocation
      cases status with
      | error code => simp [conclude, answer, Report.deliver, Report.release] at hwritten
      | ok value =>
          cases function with
          | onEvent => rfl
          | init =>
              by_cases hvalue : value = 0
              · simp [conclude, hvalue, answer, Report.deliver, Report.release]
              · simp [conclude, hvalue, answer, Report.deliver, Report.release] at hwritten
          | stop =>
              by_cases hvalue : value = 0
              · simp [conclude, hvalue, answer, Report.deliver, Report.release]
              · simp [conclude, hvalue, answer, Report.deliver, Report.release] at hwritten

/-- An instance that was stopped lets itself be stopped again. -/
theorem perform_stop_stopped {host : Host} (hidle : host.runtime.callActive = false)
    (hstate : host.runtime.state = .stopped) (entry : Entry) :
    perform (.stop entry) host = answer (.ok ()) host := by
  have hclaimed : stopClaimed entry (claimedHost host) = answer (.ok ()) (claimedHost host) := by
    unfold stopClaimed
    exact if_pos hstate
  have hrelease := release_refused hidle (.ok ())
  rw [← hclaimed] at hrelease
  unfold perform withClaim
  rw [hidle]
  exact hrelease

/-! ## Visits -/

/-- The state of the instance that is there. -/
def Process.state (process : Process) : Option RuntimeState := process.runtime.map (·.state)

/-- An instance was opened. -/
def Visit.Opens (visit : Visit) : Prop :=
  ∃ request, visit.service = .opening request ∧ visit.result = .ok ()

/-- A visit of one instance: not an open that leads to another one. -/
def InstanceStep (before : Process) (visit : Visit) (after : Process) : Prop :=
  VisitStep before visit after ∧ ¬ visit.Opens

/-- What every visit of an instance shows. -/
structure Visit.Regular (visit : Visit) : Prop where
  timely : ∀ entered, visit.entered = some entered → entered.Timely
  refused : ∀ code, visit.result = .error code → code.refusal = true → visit.after = visit.before
  stopped : visit.before.state = some .stopped → ∀ entry,
    visit.service = .calling (.stop entry) → visit.result = .ok ()
  outputs : ∀ report, visit.report = some report →
    report.guestResult ≠ none ∨ report.timerEvent ≠ none → visit.result = .ok ()
  released : ∀ runtime, visit.after.runtime = some runtime → runtime.callActive = false

/-- What becomes of the state of the instance. -/
inductive Visit.Turns (visit : Visit) : Prop
  | /-- There is none, and nothing happens. -/
    absent (hbefore : visit.before.state = none) (hentered : visit.entered = none)
      (hafter : visit.after.state = none)
  | /-- It is closed. -/
    gone (hentered : visit.entered = none) (hafter : visit.after.state = none)
  | /-- It follows the automaton. -/
    course {before after : RuntimeState} (hbefore : visit.before.state = some before)
      (hafter : visit.after.state = some after)
      (hcourse : Course before (visit.entered.map (·.function)) after)

/-- A visit in which no instance was called. -/
theorem Visit.regular_of_uncalled {visit : Visit} (hreport : visit.report = none)
    (hkept : ∀ code, visit.result = .error code → visit.after = visit.before)
    (hservice : visit.before.state ≠ none → ∀ call, visit.service ≠ .calling call)
    (hreleased : ∀ runtime, visit.after.runtime = some runtime → runtime.callActive = false) :
    visit.Regular where
  timely := by
    intro entered hentered
    rw [Visit.entered, hreport] at hentered
    cases hentered
  refused := fun code hresult _ => hkept code hresult
  stopped := by
    intro hstate entry hcalling
    exact absurd hcalling (hservice (by rw [hstate]; exact Option.some_ne_none _) _)
  outputs := by
    intro report hsome
    rw [hreport] at hsome
    cases hsome
  released := hreleased

/-- Every visit is regular. -/
theorem VisitStep.regular {before after : Process} {visit : Visit} (hsound : before.Sound)
    (hstep : VisitStep before visit after) : visit.Regular := by
  have hreleased : ∀ runtime, visit.after.runtime = some runtime → runtime.callActive = false := by
    intro runtime hruntime
    rw [hstep.after_eq] at hruntime
    exact (hstep.sound hsound runtime hruntime).idle
  cases hstep with
  | opened hopens =>
      apply Visit.regular_of_uncalled rfl _ _ hreleased
      · intro code hresult
        cases hresult
      · intro _ call hservice
        cases hservice
  | notOpened hopens =>
      apply Visit.regular_of_uncalled rfl (fun _ _ => rfl) _ hreleased
      intro _ call hservice
      cases hservice
  | called call =>
      cases hruntime : before.runtime with
      | none =>
          rw [Process.call_none hruntime] at hreleased ⊢
          apply Visit.regular_of_uncalled rfl (fun _ _ => rfl) _ hreleased
          intro hstate
          simp only [Process.state, hruntime] at hstate
          exact absurd rfl hstate
      | some runtime =>
          have hbefore := hsound runtime hruntime
          have houtcome := outcome_perform call (show (before.host runtime).runtime.Sound from hbefore)
          rw [Process.call_some hruntime] at hreleased ⊢
          refine ⟨?_, ?_, ?_, ?_, hreleased⟩
          · intro entered hentered
            exact houtcome.timely hbefore.confined hentered
          · intro code hresult hrefusal
            have hunchanged := houtcome.unchanged hresult hrefusal
            simp only [hunchanged]
            rw [Process.host, ← hruntime]
          · intro hstate entry hservice
            cases hservice
            simp only [Process.state, hruntime] at hstate
            have hstopped : (before.host runtime).runtime.state = .stopped := Option.some.inj hstate
            simp only [perform_stop_stopped hbefore.idle hstopped, answer]
          · rintro _ ⟨⟩ hwritten
            exact houtcome.outputs hwritten
  | closed =>
      cases hruntime : before.runtime with
      | none =>
          rw [Process.close_none hruntime] at hreleased ⊢
          apply Visit.regular_of_uncalled rfl (fun _ _ => rfl) _ hreleased
          intro _ call hservice
          cases hservice
      | some runtime =>
          rw [Process.close_idle hruntime (hsound runtime hruntime).idle] at hreleased ⊢
          apply Visit.regular_of_uncalled rfl _ _ hreleased
          · intro code hresult
            cases hresult
          · intro _ call hservice
            cases hservice

/-- Every visit follows the automaton until the instance is closed. -/
theorem VisitStep.turns {before after : Process} {visit : Visit} (hsound : before.Sound)
    (hstep : VisitStep before visit after) (hsame : ¬ visit.Opens) : visit.Turns := by
  cases hstep with
  | @opened request runtime hopens => exact absurd ⟨request, rfl, rfl⟩ hsame
  | notOpened hopens =>
      cases hstate : before.state with
      | none => exact .absent hstate rfl hstate
      | some state => exact .course hstate hstate (.stayed state)
  | called call =>
      cases hruntime : before.runtime with
      | none =>
          have hstate : before.state = none := by rw [Process.state, hruntime]; rfl
          rw [Process.call_none hruntime]
          exact .absent hstate rfl hstate
      | some runtime =>
          have hbefore := hsound runtime hruntime
          have houtcome := outcome_perform call (show (before.host runtime).runtime.Sound from hbefore)
          have hstate : before.state = some runtime.state := by rw [Process.state, hruntime]; rfl
          rw [Process.call_some hruntime]
          exact .course hstate rfl houtcome.course
  | closed =>
      cases hruntime : before.runtime with
      | none =>
          have hstate : before.state = none := by rw [Process.state, hruntime]; rfl
          rw [Process.close_none hruntime]
          exact .absent hstate rfl hstate
      | some runtime =>
          rw [Process.close_idle hruntime (hsound runtime hruntime).idle]
          exact .gone rfl rfl

/-! ## Calls in progress -/

/-- While a call is in progress, every other one is refused and changes nothing. -/
theorem perform_engaged {host : Host} (hactive : host.runtime.callActive = true) (call : Call) :
    ∃ code, code.refusal = true ∧ perform call host = answer (.error code) host := by
  unfold perform withClaim
  cases call.refused with
  | true => exact ⟨.invalidInput, rfl, rfl⟩
  | false => exact ⟨.busy, rfl, by simp [hactive]⟩

/-- What a process does whose instance is in use. -/
structure Process.Engaged (process : Process) : Prop where
  calls : ∀ call, (process.call call).after = process ∧
    ∃ code, code.refusal = true ∧ (process.call call).result = .error code
  close : process.close.after = process ∧ process.close.result = .error .busy

theorem Process.engaged {process : Process} {runtime : Runtime}
    (hruntime : process.runtime = some runtime) (hactive : runtime.callActive = true) :
    process.Engaged where
  calls := by
    intro call
    have hhost : (process.host runtime).runtime.callActive = true := hactive
    obtain ⟨code, hcode, hperform⟩ := perform_engaged hhost call
    rw [Process.call_some hruntime, hperform]
    refine ⟨?_, code, hcode, rfl⟩
    simp only [answer]
    rw [Process.host, ← hruntime]
  close := by
    unfold Process.close
    simp [hruntime, hactive]

/-! ## Runs -/

/-- The lifecycle of an instance over a run. -/
structure Lifecycle (visits : List Visit) : Prop where
  /-- Entries are made in their states, refusals change nothing, outputs are written on
  success, and the claim is released. -/
  regular : ∀ visit ∈ visits, visit.Regular
  /-- Init and stop are entered at most once. -/
  once : (visits.filterMap Visit.entered).Pairwise fun earlier later =>
    earlier.function = later.function → later.function = .onEvent
  /-- A final state is kept until the instance is closed, and no guest function is entered. -/
  final : visits.Pairwise fun earlier later => ∀ state, earlier.after.state = some state →
    state.final = true → later.entered = none ∧
      (later.after.state = none ∨ later.after.state = some state)
  /-- A request that arrives during another one is refused and changes nothing. -/
  engaged : ∀ (process : Process) (runtime : Runtime), process.runtime = some runtime → runtime.callActive = true →
    process.Engaged

/-- The guest functions an instance will not enter any more. -/
def Process.Past (process : Process) : GuestFunction → Prop
  | .init => process.state ≠ some .loaded
  | .onEvent => False
  | .stop => ∀ state, process.state = some state → state.final = true

/-- The entry of a visit spends what the automaton spends. -/
theorem Visit.Turns.spends {visit : Visit} (hturns : visit.Turns) :
    Spends Process.Past (fun entered function => entered.function = function ∧ function ≠ .onEvent)
      (fun (entered : Entered) function => entered.function = function) visit.before
      visit.entered.toList visit.after := by
  cases hturns with
  | absent hbefore hentered hafter =>
      rw [hentered]
      apply Spends.nil
      intro function
      cases function <;> simp [Process.Past, hbefore, hafter]
  | gone hentered hafter =>
      rw [hentered]
      apply Spends.nil
      intro function
      cases function <;> simp [Process.Past, hafter]
  | @course before after hbefore hafter hcourse =>
      have hkept : ∀ function, visit.before.Past function → visit.after.Past function := by
        intro function
        cases function with
        | init =>
            simp only [Process.Past, hbefore, hafter, ne_eq, Option.some.injEq]
            exact mt fun hloaded => (hcourse.loaded hloaded).1
        | onEvent => exact id
        | stop =>
            simp only [Process.Past, hbefore, hafter, Option.some.injEq, forall_eq']
            intro hfinal
            rw [(hcourse.final hfinal).2]
            exact hfinal
      cases hentered : visit.entered with
      | none => exact .nil hkept
      | some entered =>
          rw [hentered] at hcourse
          apply Spends.single _ _ hkept
          · rintro _ ⟨rfl, hevent⟩
            cases hfunction : entered.function with
            | onEvent => exact absurd hfunction hevent
            | init =>
                simp only [Process.Past, hafter, ne_eq, Option.some.injEq]
                intro hloaded
                cases (hcourse.loaded hloaded).2
            | stop =>
                simp only [Option.map_some, hfunction] at hcourse
                simp only [Process.Past, hafter, Option.some.injEq, forall_eq']
                exact hcourse.final_of_stop
          · rintro _ rfl
            have hstarts := hcourse.starts
            cases hfunction : entered.function with
            | onEvent => exact id
            | init => simp [Process.Past, hbefore, hstarts, hfunction, GuestFunction.starts]
            | stop =>
                simp [Process.Past, hbefore, hstarts, hfunction, GuestFunction.starts,
                  RuntimeState.final]

/-- Whether a visit leaves an instance that is in a final state as it is. -/
def Visit.Keeps (visit : Visit) (state : RuntimeState) : Prop :=
  visit.entered = none ∧ (visit.after.state = none ∨ visit.after.state = some state)

/-- A final state is kept. -/
theorem Visit.Turns.keeps {visit : Visit} (hturns : visit.Turns) :
    Spends (fun process state => state.final = true ∧
        (process.state = none ∨ process.state = some state))
      (fun visit state => visit.after.state = some state ∧ state.final = true)
      (fun (visit : Visit) state => ¬ visit.Keeps state) visit.before [visit] visit.after := by
  have hkeeps : ∀ state, state.final = true ∧
      (visit.before.state = none ∨ visit.before.state = some state) → visit.Keeps state := by
    rintro state ⟨hfinal, hstate⟩
    cases hturns with
    | absent hbefore hentered hafter => exact ⟨hentered, .inl hafter⟩
    | gone hentered hafter => exact ⟨hentered, .inl hafter⟩
    | @course before after hbefore hafter hcourse =>
        rw [hbefore] at hstate
        obtain hnone | hsome := hstate
        · cases hnone
        · obtain rfl := Option.some.inj hsome
          obtain ⟨hentered, rfl⟩ := hcourse.final hfinal
          exact ⟨Option.map_eq_none_iff.mp hentered, .inr hafter⟩
  apply Spends.single
  · rintro state ⟨hafter, hfinal⟩
    exact ⟨hfinal, .inr hafter⟩
  · intro state hnot hspent
    exact hnot (hkeeps state hspent)
  · intro state hspent
    exact ⟨hspent.1, (hkeeps state hspent).2⟩

/-- The lifecycle of an instance, over every run from its opening. -/
theorem runtime_lifecycle {limits : Limits} (hlimits : limitsValid limits = true)
    {buffer : List UInt8} {nextTimerHandle : UInt64} {visits : List Visit} {last : Process}
    (hwalk : Walk VisitStep (.opened limits buffer nextTimerHandle) visits last)
    (hsame : ∀ visit ∈ visits, ¬ visit.Opens) : Lifecycle visits := by
  have hfirst := Process.sound_opened hlimits buffer nextTimerHandle
  have hinstance : Walk InstanceStep (.opened limits buffer nextTimerHandle) visits last :=
    hwalk.restrict hsame
  have hsound : ∀ before visit after, before.Sound → InstanceStep before visit after →
      after.Sound := fun _ _ _ hsound hstep => hstep.1.sound hsound
  have hturns : ∀ before visit after, before.Sound → InstanceStep before visit after →
      visit.Turns ∧ visit.before = before ∧ visit.after = after :=
    fun _ _ _ hsound hstep =>
      ⟨hstep.1.turns hsound hstep.2, hstep.1.before_eq, hstep.1.after_eq⟩
  refine ⟨?_, ?_, ?_, fun process runtime hruntime hactive => Process.engaged hruntime hactive⟩
  · exact hinstance.forall_mem hsound (fun _ _ _ hsound hstep => hstep.1.regular hsound) hfirst
  · have hspends := hinstance.spends (fun visit => visit.entered.toList) hsound
      (fun before visit after hbefore hstep => by
        obtain ⟨hturns, rfl, rfl⟩ := hturns before visit after hbefore hstep
        exact hturns.spends) hfirst
    rw [List.filterMap_eq_flatMap_toList]
    apply hspends.ordered.imp
    intro earlier later hordered hsame
    by_contra hevent
    exact hordered later.function ⟨hsame, hevent⟩ rfl
  · have hspends := hinstance.spends (fun visit => [visit]) hsound
      (fun before visit after hbefore hstep => by
        obtain ⟨hturns, rfl, rfl⟩ := hturns before visit after hbefore hstep
        exact hturns.keeps) hfirst
    rw [List.flatMap_singleton'] at hspends
    apply hspends.ordered.imp
    intro earlier later hordered state hstate hfinal
    exact not_not.mp (hordered state ⟨hstate, hfinal⟩)

/-- A run of the sample instance: it is started, and stopped twice. -/
theorem runtime_lifecycle_sampleLimits : ∃ visits : List Visit,
    visits.map (·.service) = [Call.init sampleEntry, .stop sampleEntry, .stop sampleEntry].map
      Service.calling ∧ Lifecycle visits := by
  obtain ⟨visits, last, hwalk, hservices⟩ := walk_of_calls
    [Call.init sampleEntry, .stop sampleEntry, .stop sampleEntry] (.opened sampleLimits [] 1)
  refine ⟨visits, hservices, runtime_lifecycle (by decide) hwalk ?_⟩
  rintro visit hvisit ⟨request, hservice, -⟩
  have hmem := List.mem_map_of_mem (f := fun visit : Visit => visit.service) hvisit
  rw [hservices, hservice] at hmem
  simp at hmem

end Container
