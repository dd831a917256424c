/-
# Timers over runs

Over any number of instances in one process: handles are issued in increasing order, the
table is in order at every moment, a cancel succeeds exactly for what is live, and a
handle that was cancelled, fired for the last time or dropped is never heard of again.

For the last of these a run is read as a sequence of notes: what was dropped when a stop
began, what a poll delivered, and what the imports of the entry cancelled after that.
-/

import EspContainer.Runtime.Logs
import EspContainer.Runtime.Tables

namespace Container

open Interaction Package

/-! ## Notes -/

/-- What happens to a handle. -/
inductive TimerNote
  | cancelled (handle : UInt64)
  | delivered (handle : UInt64) (oneShot : Bool)
  | dropped (handle : UInt64)

namespace TimerNote

/-- The handle is not to be heard of again. -/
def Retires : TimerNote → UInt64 → Prop
  | .cancelled handle, name => handle = name
  | .delivered handle oneShot, name => oneShot = true ∧ handle = name
  | .dropped handle, name => handle = name

/-- A poll delivers the handle, or a cancel of it succeeds. -/
def Uses : TimerNote → UInt64 → Prop
  | .cancelled handle, name => handle = name
  | .delivered handle _, name => handle = name
  | .dropped _, _ => False

end TimerNote

/-- The handles that are active. -/
def Runtime.activeHandles (runtime : Runtime) : List UInt64 :=
  (List.finRange timerCapacity).filterMap fun index =>
    if (runtime.timers index).active then some (runtime.timers index).handle else none

/-- The notes of an import. -/
def Imported.notes (imported : Imported) : List TimerNote := imported.cancelled.map .cancelled

/-- What a call that stops a running instance drops. -/
def Call.dropped (call : Call) (runtime : Runtime) : List UInt64 :=
  if call.stops runtime then runtime.activeHandles else []

/-- The timer that a poll fires, unless it is refused for lack of memory. -/
def Call.fired (call : Call) (runtime : Runtime) (result : Except RuntimeError Unit) : Option Timer :=
  match result with
  | .error .noMemory => none
  | _ => (call.selects runtime).map runtime.timers

/-- The note of a timer that fires. -/
def Timer.note (timer : Timer) : TimerNote := .delivered timer.handle (timer.periodMs == 0)

/-- The imports made during a call. -/
def Report.imports (report : Report) : List Imported :=
  report.entered.toList.flatMap (·.imported)

/-- The notes of a call, in order. -/
def Call.notes (call : Call) (runtime : Runtime) (report : Report) : List TimerNote :=
  (call.dropped runtime).map .dropped ++ (call.fired runtime report.result).toList.map Timer.note ++
    report.imports.flatMap Imported.notes

/-! ## Imports -/

/-- An import cancels at most one handle. -/
theorem Imported.cancelled_cases (imported : Imported) :
    imported.cancelled = [] ∨ ∃ handle, imported.cancelled = [handle] := by
  unfold Imported.cancelled
  split
  · split
    · exact .inr ⟨_, rfl⟩
    · exact .inl rfl
  · exact .inl rfl

theorem Effect.spends {imported : Imported} (heffect : Effect imported)
    (horderly : imported.before.Orderly) :
    Spends Host.Gone TimerNote.Retires TimerNote.Uses imported.before imported.notes
      imported.after := by
  have hkept : ∀ handle, imported.before.Gone handle → imported.after.Gone handle :=
    fun _ hgone => heffect.gone hgone
  rw [Imported.notes]
  rcases imported.cancelled_cases with hnone | ⟨handle, hone⟩
  · rw [hnone]
    exact .nil hkept
  · obtain ⟨hlive, -, hgone⟩ := heffect.cancelled_spec horderly (by rw [hone]; exact List.mem_cons_self)
    rw [hone]
    apply Spends.single _ _ hkept
    · rintro _ rfl
      exact hgone
    · rintro _ rfl hspent
      exact hspent.2 hlive

/-- The imports of an entry spend the handles they cancel. -/
theorem spends_of_imports {first last : Host} {imported : List Imported}
    (hwalk : Walk ImportStep first imported last) (horderly : first.Orderly) :
    Spends Host.Gone TimerNote.Retires TimerNote.Uses first (imported.flatMap Imported.notes)
      last := by
  apply hwalk.spends Imported.notes (J := Host.Orderly) _ _ horderly
  · rintro _ imported _ horderly ⟨rfl, rfl, heffect, -⟩
    exact heffect.orderly horderly
  · rintro _ imported _ horderly ⟨rfl, rfl, heffect, -⟩
    exact heffect.spends horderly

/-! ## Calls -/

/-- Outside of imports no handle is used. -/
theorem Passage.spends {first last : Host} {entered : Option Entered}
    (hpassage : Passage first entered last) (horderly : first.Orderly) :
    Spends Host.Gone TimerNote.Retires TimerNote.Uses first
      ((entered.toList.flatMap (·.imported)).flatMap Imported.notes) last := by
  cases hpassage with
  | outside hfades => exact .nil fun _ hgone => hfades.gone hgone
  | through hbefore hwalk hafter =>
      rw [Option.toList_some, List.flatMap_singleton]
      have hspends := spends_of_imports hwalk (hbefore.orderly horderly)
      exact hspends.view (fun _ hgone => hbefore.gone hgone) fun _ hgone => hafter.gone hgone

/-- What is concluded from an invocation is a passage. -/
theorem passage_conclude (function : GuestFunction) (event : List UInt8) (entry : Entry)
    (prepared : Host) (timerEvent : Option TimerEvent) :
    Passage prepared
      ((conclude function (invoke function event entry prepared)).deliver timerEvent).release.entered
      ((conclude function (invoke function event entry prepared)).deliver timerEvent).release.host := by
  obtain ⟨hconclude, hentered⟩ := fades_conclude function (invoke function event entry prepared)
  obtain ⟨hrelease, hentered'⟩ :=
    fades_release (conclude function (invoke function event entry prepared)) timerEvent
  rw [hentered', hentered]
  exact (invoked_invoke function event entry prepared).passage.around (.refl _)
    (hconclude.trans hrelease)

/-- The active handles are the live ones. -/
theorem Runtime.mem_activeHandles {runtime : Runtime} {handle : UInt64} :
    handle ∈ runtime.activeHandles ↔ runtime.Live handle := by
  simp [Runtime.activeHandles, Runtime.Live, List.mem_filterMap]

/-- Preparing an invocation spends what a stop drops and what a poll delivers. -/
theorem Prepared.spends {host prepared : Host} {call : Call} {function : GuestFunction}
    {event : List UInt8} {entry : Entry} {timerEvent : Option TimerEvent}
    (hprepared : Prepared host call function event entry prepared timerEvent)
    (horderly : host.Orderly) :
    Spends Host.Gone TimerNote.Retires TimerNote.Uses host
      ((call.dropped host.runtime).map .dropped ++
        ((call.selects host.runtime).map host.runtime.timers).toList.map Timer.note) prepared := by
  have hkept : ∀ handle, host.Gone handle → prepared.Gone handle :=
    fun _ hgone => hprepared.fades.gone hgone
  have hnext := hprepared.fades.next
  cases hprepared with
  | init hstate => exact .nil hkept
  | onEvent hstate hreserved => exact .nil hkept
  | @stop entry hstate =>
      have hdropped : Call.dropped (.stop entry) host.runtime = host.runtime.activeHandles := by
        have hstops : Call.stops host.runtime (.stop entry) = true := decide_eq_true hstate
        rw [Call.dropped, if_pos hstops]
      have hselects : Call.selects host.runtime (.stop entry) = none := rfl
      rw [hdropped, hselects, Option.map_none, Option.toList_none, List.map_nil, List.append_nil]
      have hprepared : Prepared host (.stop entry) .stop [] entry _ none := .stop hstate
      have hinactive := hprepared.inactive horderly.confined
      apply Spends.retiring _ _ hkept
      · intro note hnote
        obtain ⟨handle, -, rfl⟩ := List.mem_map.mp hnote
        exact fun _ => id
      · intro note hnote
        obtain ⟨handle, hmem, rfl⟩ := List.mem_map.mp hnote
        rintro _ rfl
        refine ⟨?_, ?_⟩
        · rw [hnext]
          exact horderly.issued_of_live (Runtime.mem_activeHandles.mp hmem)
        · rintro ⟨index, hactive, -⟩
          rw [hinactive index] at hactive
          cases hactive
  | @pollTimer now allocation entry slot hstate hselected =>
      have hselects : Call.selects host.runtime
          (.pollTimer true true (some now) allocation entry) = some slot :=
        (if_pos hstate).trans hselected
      obtain ⟨-, hactive, -⟩ := earliestTimer_spec hselected
      have hlive : host.runtime.Live (host.runtime.timers slot).handle := ⟨slot, hactive, rfl⟩
      rw [hselects]
      apply Spends.single _ _ hkept
      · rintro _ ⟨honeShot, rfl⟩
        refine ⟨?_, ?_⟩
        · rw [hnext]
          exact horderly.issued_of_live hlive
        · -- A timer without a period is out once it is delivered.
          have hout : (rearm (host.runtime.timers slot) now).1.active = false := by
            rw [← Bool.not_eq_true]
            intro hrearmed
            exact (rearm_active hrearmed).2 (beq_iff_eq.mp honeShot)
          exact horderly.not_live_setTimer hactive hout
      · rintro _ rfl hspent
        exact hspent.2 hlive

/-- A poll that goes through `invoke` fires the timer it selected. -/
theorem fired_concluded (call : Call) (runtime : Runtime) (function : GuestFunction)
    (event : List UInt8) (entry : Entry) (prepared : Host) (timerEvent : Option TimerEvent) :
    call.fired runtime
        ((conclude function (invoke function event entry prepared)).deliver timerEvent).release.result =
      (call.selects runtime).map runtime.timers := by
  unfold Call.fired
  split
  · next hresult =>
    rw [result_release] at hresult
    exact absurd rfl
      (concluded_not_refusal (invoked_invoke function event entry prepared) _ hresult)
  · rfl

/-- Every call spends the handles of its notes. -/
theorem Outcome.spends {host : Host} {call : Call} {report : Report}
    (houtcome : Outcome host call report) (horderly : host.Orderly) :
    Spends Host.Gone TimerNote.Retires TimerNote.Uses host (call.notes host.runtime report)
      report.host := by
  cases houtcome with
  | @refused _ code hcode hselected hstops =>
      have hdropped : call.dropped host.runtime = [] := if_neg (by rw [hstops]; exact Bool.false_ne_true)
      have hfired : call.fired host.runtime (.error code) = none := by
        cases hselects : call.selects host.runtime with
        | none =>
            unfold Call.fired
            rw [hselects]
            split <;> rfl
        | some slot =>
            rw [hselected (by rw [hselects]; exact Option.some_ne_none slot)]
            rfl
      simp only [Call.notes, hdropped, answer, hfired]
      exact .nil fun _ => id
  | unread hstate => exact .nil fun _ => id
  | @stopped entry hstate =>
      have hdropped : Call.dropped (.stop entry) host.runtime = [] := by
        apply if_neg
        simp [Call.stops, hstate]
      rw [Call.notes, hdropped]
      exact .nil fun _ => id
  | earliest hstate => exact .nil fun _ => id
  | tookLog hpending hcapacity => exact .nil fun _ hgone => ⟨hgone.1, hgone.2⟩
  | @invoked _ function event entry prepared timerEvent hprepared =>
      rw [Call.notes, fired_concluded]
      exact (hprepared.spends horderly).append
        ((passage_conclude function event entry prepared timerEvent).spends
          (hprepared.fades.orderly horderly))

/-! ## Deliveries -/

/-- The event of a guest entry is one that only the runtime delivers. -/
def Entered.OfTimer (entered : Entered) : Prop :=
  entered.event.length = 16 ∧ entered.event.take 4 = timerEventMagic

/-- What a call delivers to the guest and reports to its caller is the timer that fired. -/
structure Delivers (call : Call) (runtime : Runtime) (report : Report) : Prop where
  entered : ∀ entered, report.entered = some entered → entered.OfTimer →
    ∃ timer skipped, call.fired runtime report.result = some timer ∧
      entered.event = timerEventBytes timer.handle skipped
  reported : ∀ event, report.timerEvent = some event →
    ∃ timer, call.fired runtime report.result = some timer ∧ event.handle = timer.handle

/-- A timer is reported only if it was to be. -/
theorem timerEvent_deliver {function : GuestFunction} {invocation : Invocation}
    {timerEvent : Option TimerEvent} {event : TimerEvent}
    (hreported : ((conclude function invocation).deliver timerEvent).release.timerEvent = some event) :
    timerEvent = some event := by
  have hnone : (conclude function invocation).timerEvent = none := by
    unfold conclude
    repeat' split
    all_goals rfl
  unfold Report.deliver Report.release at hreported
  split at hreported
  · exact hreported
  · rw [hnone] at hreported
    cases hreported

/-- A call that delivers and reports nothing. -/
theorem delivers_nothing (call : Call) (runtime : Runtime) {report : Report}
    (hentered : report.entered = none) (hreported : report.timerEvent = none) :
    Delivers call runtime report where
  entered := by
    intro entered hsome
    rw [hentered] at hsome
    cases hsome
  reported := by
    intro event hsome
    rw [hreported] at hsome
    cases hsome

theorem Outcome.delivers {host : Host} {call : Call} {report : Report}
    (houtcome : Outcome host call report) : Delivers call host.runtime report := by
  cases houtcome with
  | refused hcode hselected hstops => exact delivers_nothing _ _ rfl rfl
  | unread hstate => exact delivers_nothing _ _ rfl rfl
  | stopped hstate => exact delivers_nothing _ _ rfl rfl
  | earliest hstate => exact delivers_nothing _ _ rfl rfl
  | tookLog hpending hcapacity => exact delivers_nothing _ _ rfl rfl
  | @invoked _ function event entry prepared timerEvent hprepared =>
      have hevent : ∀ entered, ((conclude function
          (invoke function event entry prepared)).deliver timerEvent).release.entered = some entered →
          entered.event = event := by
        intro entered hentered
        rw [(fades_release _ timerEvent).2, (fades_conclude _ _).2] at hentered
        exact ((invoked_invoke function event entry prepared).entered_eq hentered).2.1
      -- Without a timer to report, the event is not one of a timer.
      have hother : timerEvent = none → (event.length = 16 → event.take 4 ≠ timerEventMagic) →
          Delivers call host.runtime
            ((conclude function (invoke function event entry prepared)).deliver timerEvent).release := by
        intro hnone hbytes
        refine ⟨fun entered hentered htimer => ?_, fun reported hreported => ?_⟩
        · rw [Entered.OfTimer, hevent entered hentered] at htimer
          exact absurd htimer.2 (hbytes htimer.1)
        · have hsome := timerEvent_deliver hreported
          rw [hnone] at hsome
          cases hsome
      cases hprepared with
      | init hstate => exact hother rfl (by simp)
      | stop hstate => exact hother rfl (by simp)
      | @onEvent event allocation entry hstate hreserved =>
          apply hother rfl
          intro hlength hmagic
          cases event with
          | bytes event =>
              simp only [EventArgument.content] at hlength hmagic
              simp [EventArgument.reserved, hlength, hmagic] at hreserved
          | null sizeBytes => cases hlength
      | @pollTimer now allocation entry slot hstate hselected =>
          have hselects : Call.selects host.runtime
              (.pollTimer true true (some now) allocation entry) = some slot :=
            (if_pos hstate).trans hselected
          refine ⟨fun entered hentered htimer => ?_, fun reported hreported => ?_⟩
          · rw [fired_concluded, hselects]
            exact ⟨_, _, rfl, hevent entered hentered⟩
          · rw [fired_concluded, hselects]
            have hsome := Option.some.inj (timerEvent_deliver hreported)
            exact ⟨_, rfl, by rw [← hsome]⟩

end Container
