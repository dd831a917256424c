/-
# What a call can do

Everything a call of an instance can do, said once. It leaves the instance untouched,
or takes the pending log, or goes through `invoke`. In the last case the call made
some preparations of its own, and what it concludes depends on the guest function and
on how the invocation came back. The properties of runs follow from these cases and
never look into the methods again.
-/

import EspContainer.Runtime.Entries

namespace Container

open Interaction Package

/-- The claimed instance. -/
def claimedHost (host : Host) : Host := host.onRuntime (setCallActive true)

/-- What a call makes of an invocation of a guest function. -/
def conclude (function : GuestFunction) (invocation : Invocation) : Report :=
  match invocation.status with
  | .error code =>
      { answer (.error code)
          (if function = .init then invocation.host.onRuntime Runtime.clearTimers
            else invocation.host) with
        entered := invocation.entered }
  | .ok value =>
      match function with
      | .onEvent =>
          { answer (.ok ()) invocation.host with
            entered := invocation.entered, guestResult := some value }
      | .init =>
          if value ≠ 0 then
            { answer (.error .guestFailure)
                ((invocation.host.setState .failed).onRuntime Runtime.clearTimers) with
              entered := invocation.entered }
          else { answer (.ok ()) (invocation.host.setState .running) with
            entered := invocation.entered }
      | .stop =>
          if value ≠ 0 then
            { answer (.error .guestFailure) (invocation.host.setState .failed) with
              entered := invocation.entered }
          else { answer (.ok ()) (invocation.host.setState .stopped) with
            entered := invocation.entered }

/-- A timer that is to be reported is, if the call returns OK. -/
def Report.deliver (report : Report) (event : Option TimerEvent) : Report :=
  match report.result with
  | .ok () => { report with timerEvent := event }
  | .error _ => report

/-- The claim is released. -/
def Report.release (report : Report) : Report :=
  { report with host := report.host.onRuntime (setCallActive false) }

/-- The stop function is entered with every timer cancelled. -/
def Runtime.beginStop (runtime : Runtime) : Runtime :=
  Runtime.clearTimers { runtime with stopping := true }

/-- What a call has done when it calls `invoke`: the guest function, its event, the entry,
the host by then, and the timer that is to be reported. -/
inductive Prepared (host : Host) :
    Call → GuestFunction → List UInt8 → Entry → Host → Option TimerEvent → Prop
  | init {entry : Entry} (hstate : host.runtime.state = .loaded) :
      Prepared host (.init entry) .init [] entry (claimedHost host) none
  | onEvent {event : EventArgument} {allocation : Allocation} {entry : Entry}
      (hstate : host.runtime.state = .running) (hreserved : event.reserved = false) :
      Prepared host (.onEvent event true allocation entry) .onEvent event.content entry
        (claimedHost host) none
  | stop {entry : Entry} (hstate : host.runtime.state = .running) :
      Prepared host (.stop entry) .stop [] entry
        ((claimedHost host).onRuntime Runtime.beginStop) none
  | pollTimer {now : UInt64} {allocation : Allocation} {entry : Entry} {slot : Fin timerCapacity}
      (hstate : host.runtime.state = .running)
      (hselected : (earliestTimer host.runtime fun timer => timer.deadlineMs ≤ now).1 = some slot) :
      Prepared host (.pollTimer true true (some now) allocation entry) .onEvent
        (timerEventBytes (host.runtime.timers slot).handle
          (rearm (host.runtime.timers slot) now).2) entry
        ((claimedHost host).onRuntime fun runtime =>
          runtime.setTimer slot (rearm (host.runtime.timers slot) now).1)
        (some ⟨(host.runtime.timers slot).handle, (rearm (host.runtime.timers slot) now).2⟩)

/-- The codes of a call that leaves the instance untouched. -/
def RuntimeError.refusal : RuntimeError → Bool
  | .invalidInput | .invalidState | .busy | .noMemory | .noTimer | .noLog => true
  | _ => false

/-- The slot of the timer a poll is about to deliver. -/
def Call.selects (runtime : Runtime) : Call → Option (Fin timerCapacity)
  | .pollTimer true true (some now) _ _ =>
      if runtime.state = .running then
        (earliestTimer runtime fun timer => timer.deadlineMs ≤ now).1
      else none
  | _ => none

/-- The call is a stop of a running instance. -/
def Call.stops (runtime : Runtime) : Call → Bool
  | .stop _ => runtime.state = .running
  | _ => false

/-- Everything a call can do. -/
inductive Outcome (host : Host) : Call → Report → Prop
  | /-- The call changes nothing. A poll with a timer to deliver is refused only for lack of
    memory, and a stop of a running instance never. -/
    refused {call : Call} {code : RuntimeError} (hcode : code.refusal = true)
      (hselected : call.selects host.runtime ≠ none → code = .noMemory)
      (hstops : call.stops host.runtime = false) :
      Outcome host call (answer (.error code) host)
  | /-- The clock of a poll could not be read. -/
    unread {allocation : Allocation} {entry : Entry} (hstate : host.runtime.state = .running) :
      Outcome host (.pollTimer true true none allocation entry)
        (answer (.error .engineFailure) host)
  | /-- The instance was stopped before. -/
    stopped {entry : Entry} (hstate : host.runtime.state = .stopped) :
      Outcome host (.stop entry) (answer (.ok ()) host)
  | earliest {deadlineMs : UInt64} (hstate : host.runtime.state = .running) :
      Outcome host (.nextTimerDeadline true)
        { answer (.ok ()) host with deadlineMs := some deadlineMs }
  | tookLog {capacity : Nat} (hpending : host.runtime.pendingLogSize ≠ 0)
      (hcapacity : host.runtime.pendingLogSize ≤ capacity) :
      Outcome host (.takeLog (some capacity) true)
        { answer (.ok ()) (host.onRuntime fun runtime => { runtime with pendingLogSize := 0 }) with
          log := some host.runtime.pending }
  | invoked {call : Call} {function : GuestFunction} {event : List UInt8} {entry : Entry}
      {prepared : Host} {timerEvent : Option TimerEvent}
      (hprepared : Prepared host call function event entry prepared timerEvent) :
      Outcome host call
        ((conclude function (invoke function event entry prepared)).deliver timerEvent).release

/-- A claim that is released at once leaves nothing behind. -/
theorem release_claimed {host : Host} (hidle : host.runtime.callActive = false) :
    (claimedHost host).onRuntime (setCallActive false) = host := by
  obtain ⟨runtime, next⟩ := host
  obtain ⟨limits, state, log, size, callActive, guestActive, expired, deadline, stopping, timers⟩ :=
    runtime
  simp only at hidle
  subst hidle
  rfl

theorem initClaimed_eq (entry : Entry) (host : Host) :
    initClaimed entry host =
      if host.runtime.state ≠ .loaded then answer (.error .invalidState) host
      else conclude .init (invoke .init [] entry host) := by
  unfold initClaimed conclude
  cases hstatus : (invoke .init [] entry host).status <;> simp [hstatus]

theorem stopClaimed_eq (entry : Entry) (host : Host) :
    stopClaimed entry host =
      if host.runtime.state = .stopped then answer (.ok ()) host
      else if host.runtime.state ≠ .running then answer (.error .invalidState) host
      else conclude .stop (invoke .stop [] entry (host.onRuntime Runtime.beginStop)) := by
  unfold stopClaimed conclude Runtime.beginStop
  cases hstatus : (invoke .stop [] entry (host.onRuntime fun runtime =>
    Runtime.clearTimers { runtime with stopping := true })).status <;> simp [hstatus]

/-- `call_event` refuses, or it is what it concludes from its invocation. -/
theorem callEvent_cases (event : EventArgument) (hasGuestResult : Bool) (allocation : Allocation)
    (entry : Entry) (host : Host) :
    callEvent event hasGuestResult allocation entry host = answer (.error .invalidInput) host ∧
        (hasGuestResult = false ∨ event.sizeBytes > host.runtime.limits.maxEventBytes.toNat ∨
          event.isNull = true) ∨
      callEvent event hasGuestResult allocation entry host = answer (.error .noMemory) host ∨
      callEvent event hasGuestResult allocation entry host =
          conclude .onEvent (invoke .onEvent event.content entry host) ∧ hasGuestResult = true := by
  unfold callEvent
  split
  · next hguard =>
    simp only [Bool.or_eq_true, Bool.not_eq_true', decide_eq_true_eq, Bool.and_eq_true] at hguard
    exact .inl ⟨rfl, hguard.elim (fun h => h.elim .inl fun h => .inr (.inl h))
      fun h => .inr (.inr h.2)⟩
  · next hguard =>
    have hresult : hasGuestResult = true := by
      cases hasGuestResult with
      | true => rfl
      | false => simp at hguard
    split
    · exact .inr (.inl rfl)
    · refine .inr (.inr ⟨?_, hresult⟩)
      unfold conclude
      cases hstatus : (invoke .onEvent event.content entry host).status <;> simp [hstatus]

/-! ## Sound instances -/

/-- Timers are active only in slots that the limits allow. -/
def Runtime.Confined (runtime : Runtime) : Prop :=
  ∀ index, runtime.hasSlot index = false → (runtime.timers index).active = false

/-- What holds of an opened instance between calls. -/
structure Runtime.Sound (runtime : Runtime) : Prop where
  limits : limitsValid runtime.limits = true
  idle : runtime.callActive = false
  confined : runtime.Confined

/-- A slot of the timer table is only there for timers that the limits allow, which
leave room for a timer event. -/
theorem event_fits {runtime : Runtime} (hlimits : limitsValid runtime.limits = true)
    {index : Fin timerCapacity} (hslot : runtime.hasSlot index = true) :
    runtime.limits.allows capTimer = true ∧ 16 ≤ runtime.limits.maxEventBytes.toNat := by
  simp only [limitsValid, Bool.and_eq_true] at hlimits
  have htimers := hlimits.1.1.1.1.2
  cases hallowed : runtime.limits.allows capTimer with
  | true =>
      simp only [hallowed, if_true, Bool.and_eq_true, decide_eq_true_eq] at htimers
      exact ⟨rfl, htimers.2⟩
  | false =>
      simp only [hallowed, Bool.false_eq_true, if_false, beq_iff_eq] at htimers
      simp [Runtime.hasSlot, htimers] at hslot

theorem length_timerEventBytes (handle : UInt64) (skipped : UInt32) :
    (timerEventBytes handle skipped).length = 16 := by
  simp [timerEventBytes, timerEventMagic]

/-- What the scan of the table has found: no timer and the sentinel, or one that passes the
check, and none of those seen is earlier. -/
structure Earliest (runtime : Runtime) (due : Timer → Bool) (seen : List (Fin timerCapacity))
    (best : Option (Fin timerCapacity) × UInt64) : Prop where
  none : best.1 = none → best.2 = uint64Max
  some : ∀ slot, best.1 = some slot → runtime.hasSlot slot = true ∧
    (runtime.timers slot).active = true ∧ due (runtime.timers slot) = true ∧
    best.2 = (runtime.timers slot).deadlineMs
  least : ∀ index ∈ seen, runtime.hasSlot index = true → (runtime.timers index).active = true →
    due (runtime.timers index) = true → best.2 ≤ (runtime.timers index).deadlineMs

/-- The scan finds the earliest timer of the whole table. -/
theorem earliest_earliestTimer (runtime : Runtime) (due : Timer → Bool) :
    Earliest runtime due (List.finRange timerCapacity) (earliestTimer runtime due) := by
  have hscan : ∀ (rest seen : List (Fin timerCapacity))
      (best : Option (Fin timerCapacity) × UInt64), Earliest runtime due seen best →
      Earliest runtime due (seen ++ rest) (rest.foldl (fun best index =>
        if runtime.hasSlot index && (runtime.timers index).active && due (runtime.timers index) &&
          (runtime.timers index).deadlineMs < best.2 then
          (some index, (runtime.timers index).deadlineMs)
        else best) best) := by
    intro rest
    induction rest with
    | nil =>
        intro seen best hbest
        rwa [List.append_nil]
    | cons head rest ih =>
        intro seen best hbest
        rw [List.append_cons, List.foldl_cons]
        apply ih
        split
        · next hguard =>
          simp only [Bool.and_eq_true, decide_eq_true_eq] at hguard
          obtain ⟨⟨⟨hslot, hactive⟩, hdue⟩, hless⟩ := hguard
          refine ⟨nofun, ?_, ?_⟩
          · intro slot hsome
            obtain rfl := Option.some.inj hsome
            exact ⟨hslot, hactive, hdue, rfl⟩
          · intro index hmem hslot' hactive' hdue'
            rcases List.mem_append.mp hmem with hmem | hmem
            · exact UInt64.le_trans (UInt64.le_of_lt hless)
                (hbest.least index hmem hslot' hactive' hdue')
            · rw [List.mem_singleton.mp hmem]
              exact UInt64.le_refl _
        · next hguard =>
          refine ⟨hbest.none, hbest.some, ?_⟩
          intro index hmem hslot hactive hdue
          rcases List.mem_append.mp hmem with hmem | hmem
          · exact hbest.least index hmem hslot hactive hdue
          · rw [List.mem_singleton.mp hmem] at hslot hactive hdue ⊢
            simp only [hslot, hactive, hdue, Bool.and_self, Bool.true_and,
              decide_eq_true_eq] at hguard
            exact UInt64.not_lt.mp hguard
  exact hscan (List.finRange timerCapacity) [] (none, uint64Max) ⟨fun _ => rfl, nofun, nofun⟩

/-- The earliest timer is an active one of the table that passes the check. -/
theorem earliestTimer_spec {runtime : Runtime} {due : Timer → Bool} {slot : Fin timerCapacity}
    (hselected : (earliestTimer runtime due).1 = some slot) :
    runtime.hasSlot slot = true ∧ (runtime.timers slot).active = true ∧
      due (runtime.timers slot) = true := by
  obtain ⟨hslot, hactive, hdue, -⟩ := (earliest_earliestTimer runtime due).some slot hselected
  exact ⟨hslot, hactive, hdue⟩

/-- No timer that passes the check is earlier. -/
theorem earliestTimer_least {runtime : Runtime} {due : Timer → Bool} {slot : Fin timerCapacity}
    (hselected : (earliestTimer runtime due).1 = some slot) {index : Fin timerCapacity}
    (hslot : runtime.hasSlot index = true) (hactive : (runtime.timers index).active = true)
    (hdue : due (runtime.timers index) = true) :
    (runtime.timers slot).deadlineMs ≤ (runtime.timers index).deadlineMs := by
  have hearliest := earliest_earliestTimer runtime due
  rw [← (hearliest.some slot hselected).2.2.2]
  exact hearliest.least index (List.mem_finRange index) hslot hactive hdue

/-! ## All calls -/

theorem release_refused {host : Host} (hidle : host.runtime.callActive = false)
    (result : Except RuntimeError Unit) :
    (answer result (claimedHost host)).release = answer result host := by
  rw [Report.release]
  simp only [answer, release_claimed hidle]

/-- No call that went through `invoke` is refused. -/
theorem concluded_not_refusal {function : GuestFunction} {event : List UInt8} {entry : Entry}
    {host : Host} {invocation : Invocation}
    (hinvoked : Invoked function event entry host invocation) :
    ∀ code, (conclude function invocation).result = .error code → code.refusal ≠ true := by
  intro code hcode
  cases hinvoked with
  | unentered =>
      obtain rfl := Except.error.inj hcode
      decide
  | expired =>
      obtain rfl := Except.error.inj hcode
      decide
  | failed hbegan hdeadline hwalk hcodes =>
      obtain rfl := Except.error.inj hcode
      obtain rfl | rfl := hcodes
      · decide
      · decide
  | returned =>
      unfold conclude at hcode
      cases function with
      | onEvent => cases hcode
      | init =>
          simp only at hcode
          split at hcode
          · obtain rfl := Except.error.inj hcode
            decide
          · cases hcode
      | stop =>
          simp only at hcode
          split at hcode
          · obtain rfl := Except.error.inj hcode
            decide
          · cases hcode

/-- What a call concludes without a timer to report. -/
theorem deliver_none (function : GuestFunction) (invocation : Invocation) :
    (conclude function invocation).deliver none = conclude function invocation := by
  have htimer : (conclude function invocation).timerEvent = none := by
    unfold conclude
    repeat' split
    all_goals rfl
  unfold Report.deliver
  split
  · rw [← htimer]
  · rfl

/-- What a call concludes from an invocation that reports no timer. -/
theorem Outcome.concluded {host prepared : Host} {call : Call} {function : GuestFunction}
    {event : List UInt8} {entry : Entry}
    (hprepared : Prepared host call function event entry prepared none) :
    Outcome host call (conclude function (invoke function event entry prepared)).release := by
  have houtcome := Outcome.invoked hprepared
  rwa [deliver_none] at houtcome

/-- A poll with a null pointer selects no timer. -/
theorem selects_of_refused {call : Call} (hrefused : call.refused = true) (runtime : Runtime) :
    call.selects runtime = none := by
  unfold Call.selects
  split
  · cases hrefused
  · rfl

/-- A poll that found a timer due. -/
theorem outcome_deliverTimer {host : Host} (hsound : host.runtime.Sound)
    (hstate : host.runtime.state = .running) {now : UInt64} {slot : Fin timerCapacity}
    (hselected : (earliestTimer host.runtime fun timer => timer.deadlineMs ≤ now).1 = some slot)
    (allocation : Allocation) (entry : Entry) :
    Outcome host (.pollTimer true true (some now) allocation entry)
      (deliverTimer slot now true allocation entry (claimedHost host)).release := by
  obtain ⟨hslot, -, -⟩ := earliestTimer_spec hselected
  have hfits := (event_fits hsound.limits hslot).2
  unfold deliverTimer
  simp only
  rcases callEvent_cases (.bytes (timerEventBytes ((claimedHost host).runtime.timers slot).handle
      (rearm ((claimedHost host).runtime.timers slot) now).2)) true allocation entry
      ((claimedHost host).onRuntime fun runtime =>
        runtime.setTimer slot (rearm ((claimedHost host).runtime.timers slot) now).1)
    with ⟨-, hfalse | hlarge | hnull⟩ | hmemory | ⟨hinvoked, -⟩
  · cases hfalse
  · rw [EventArgument.sizeBytes, length_timerEventBytes] at hlarge
    exact absurd hfits (not_le.mpr hlarge)
  · cases hnull
  · rw [hmemory]
    -- The timer goes back to what it was, so nothing has happened.
    have hrestored : ((claimedHost host).onRuntime fun runtime =>
          runtime.setTimer slot (rearm ((claimedHost host).runtime.timers slot) now).1).onRuntime
          (fun runtime => runtime.setTimer slot ((claimedHost host).runtime.timers slot)) =
        claimedHost host := by
      simp only [Host.onRuntime, Runtime.setTimer, Function.update_idem, Function.update_eq_self]
    simp only [answer, hrestored]
    rw [Report.release]
    simp only [release_claimed hsound.idle]
    exact .refused rfl (fun _ => rfl) rfl
  · rw [hinvoked]
    have hne := concluded_not_refusal (invoked_invoke .onEvent
      (timerEventBytes ((claimedHost host).runtime.timers slot).handle
        (rearm ((claimedHost host).runtime.timers slot) now).2) entry
      ((claimedHost host).onRuntime fun runtime =>
        runtime.setTimer slot (rearm ((claimedHost host).runtime.timers slot) now).1))
    have houtcome : Outcome host (.pollTimer true true (some now) allocation entry)
        ((conclude .onEvent (invoke .onEvent
          (timerEventBytes ((claimedHost host).runtime.timers slot).handle
            (rearm ((claimedHost host).runtime.timers slot) now).2) entry
          ((claimedHost host).onRuntime fun runtime =>
            runtime.setTimer slot (rearm ((claimedHost host).runtime.timers slot) now).1))).deliver
          (some ⟨((claimedHost host).runtime.timers slot).handle,
            (rearm ((claimedHost host).runtime.timers slot) now).2⟩)).release :=
      .invoked (.pollTimer hstate hselected)
    unfold Report.deliver at houtcome
    simp only [EventArgument.content]
    generalize conclude .onEvent _ = report at hne houtcome ⊢
    obtain ⟨result, last, entered, guestResult, timerEvent, log, deadlineMs⟩ := report
    cases result with
    | ok value => exact houtcome
    | error code =>
        cases code with
        | noMemory => exact absurd rfl (hne _ rfl)
        | _ => exact houtcome

/-- Everything a call of a sound instance can do. -/
theorem outcome_perform (call : Call) {host : Host} (hsound : host.runtime.Sound) :
    Outcome host call (perform call host) := by
  have hidle := hsound.idle
  unfold perform
  split
  · next hrefused =>
    refine .refused rfl (fun hselected => ?_) ?_
    · exact absurd (selects_of_refused hrefused host.runtime) hselected
    · cases call with
      | stop entry => cases hrefused
      | _ => rfl
  next hrefused =>
  unfold withClaim
  rw [if_neg (by simp [hidle])]
  change Outcome host call (call.claimed (claimedHost host)).release
  cases call with
  | init entry =>
      rw [Call.claimed, initClaimed_eq]
      split
      · rw [release_refused hidle]
        exact .refused rfl (absurd rfl) rfl
      · next hstate => exact .concluded (.init (not_not.mp hstate))
  | stop entry =>
      rw [Call.claimed, stopClaimed_eq]
      split
      · next hstate =>
        rw [release_refused hidle]
        exact .stopped hstate
      split
      · next hstate =>
        rw [release_refused hidle]
        exact .refused rfl (absurd rfl) (decide_eq_false hstate)
      · next hstate => exact .concluded (.stop (not_not.mp hstate))
  | onEvent event hasGuestResult allocation entry =>
      simp only [Call.claimed, onEventClaimed]
      split
      · next hstate =>
        split
        · rw [release_refused hidle]
          exact .refused rfl (absurd rfl) rfl
        next hreserved =>
        rcases callEvent_cases event hasGuestResult allocation entry (claimedHost host)
          with ⟨hinput, -⟩ | hmemory | ⟨hinvoked, rfl⟩
        · rw [hinput, release_refused hidle]
          exact .refused rfl (absurd rfl) rfl
        · rw [hmemory, release_refused hidle]
          exact .refused rfl (absurd rfl) rfl
        · rw [hinvoked]
          exact .concluded (.onEvent hstate (Bool.not_eq_true _ ▸ hreserved))
      · rw [release_refused hidle]
        exact .refused rfl (absurd rfl) rfl
  | takeLog output hasSize =>
      obtain rfl : hasSize = true := by simpa [Call.refused] using hrefused
      simp only [Call.claimed, takeLogClaimed]
      split
      · rw [release_refused hidle]
        exact .refused rfl (absurd rfl) rfl
      next hpending =>
      cases output with
      | none =>
          simp only [release_refused hidle]
          exact .refused rfl (absurd rfl) rfl
      | some capacity =>
          simp only
          split
          · rw [release_refused hidle]
            exact .refused rfl (absurd rfl) rfl
          · next hcapacity =>
            have hlast : ((claimedHost host).onRuntime fun runtime =>
                { runtime with pendingLogSize := 0 }).onRuntime (setCallActive false) =
                host.onRuntime fun runtime => { runtime with pendingLogSize := 0 } := by
              rw [← congrArg (Host.onRuntime · fun runtime =>
                { runtime with pendingLogSize := 0 }) (release_claimed hidle)]
              rfl
            simp only [Report.release, answer, hlast]
            exact .tookLog hpending (not_lt.mp hcapacity)
  | nextTimerDeadline hasDeadline =>
      obtain rfl : hasDeadline = true := by simpa [Call.refused] using hrefused
      simp only [Call.claimed, nextTimerDeadlineClaimed]
      split
      · rw [release_refused hidle]
        exact .refused rfl (absurd rfl) rfl
      next hstate =>
      split
      · simp only [Report.release, answer, release_claimed hidle]
        exact .earliest (not_not.mp hstate)
      · rw [release_refused hidle]
        exact .refused rfl (absurd rfl) rfl
  | pollTimer hasEvent hasGuestResult now allocation entry =>
      obtain ⟨rfl, rfl⟩ : hasEvent = true ∧ hasGuestResult = true := by
        simpa [Call.refused] using hrefused
      simp only [Call.claimed, pollTimerClaimed]
      split
      · next hstate =>
        rw [release_refused hidle]
        have hnone : Call.selects host.runtime
            (.pollTimer true true now allocation entry) = none := by
          cases now with
          | none => rfl
          | some now => exact if_neg hstate
        exact .refused rfl (absurd hnone) rfl
      next hstate =>
      cases now with
      | none =>
          simp only [release_refused hidle]
          exact .unread (not_not.mp hstate)
      | some now =>
          simp only
          split
          · next hselected =>
            rw [release_refused hidle]
            have hnone : Call.selects host.runtime
                (.pollTimer true true (some now) allocation entry) = none :=
              (if_pos (not_not.mp hstate)).trans hselected
            exact .refused rfl (absurd hnone) rfl
          · next slot hselected =>
            exact outcome_deliverTimer hsound (not_not.mp hstate) hselected allocation entry

end Container
