/-
# Passages

Seen from the timer table, a call is a passage: the table may fade before the guest is
entered, imports are served, and the table may fade again afterwards. Fading is all
that happens outside of imports: timers go out or get another deadline, and none lights
up. What is known of single imports thus carries over to calls.
-/

import EspContainer.Runtime.Outcomes

namespace Container

open Interaction Package

/-! ## Going out -/

/-- The limits are the same, and every timer that is active is as it was before. -/
structure Runtime.Dims (before after : Runtime) : Prop where
  limits : after.limits = before.limits
  timers : ∀ index, (after.timers index).active = true → after.timers index = before.timers index

namespace Runtime.Dims

theorem refl (runtime : Runtime) : runtime.Dims runtime := ⟨rfl, fun _ _ => rfl⟩

theorem trans {first second third : Runtime} (hfirst : first.Dims second)
    (hsecond : second.Dims third) : first.Dims third where
  limits := hsecond.limits.trans hfirst.limits
  timers := by
    intro index hactive
    have hsame := hsecond.timers index hactive
    rw [hsame] at hactive ⊢
    exact hfirst.timers index hactive

/-- A change that does not concern the limits and the table. -/
theorem of_eq {before after : Runtime} (hlimits : after.limits = before.limits)
    (htimers : after.timers = before.timers) : before.Dims after :=
  ⟨hlimits, fun index _ => congrFun htimers index⟩

theorem clearTimers (runtime : Runtime) : runtime.Dims runtime.clearTimers where
  limits := rfl
  timers := by
    intro index hactive
    simp only [Runtime.clearTimers] at hactive ⊢
    split at hactive
    · cases hactive
    · next hslot => exact if_neg hslot

theorem expireEntry (runtime : Runtime) (priorLogSize : Nat) :
    runtime.Dims (Container.expireEntry priorLogSize runtime) :=
  have hfailed : runtime.Dims { runtime with state := .failed, pendingLogSize := priorLogSize } :=
    of_eq rfl rfl
  hfailed.trans (clearTimers _)

end Runtime.Dims

/-! ## Fading -/

/-- The limits are the same, and every timer that is active was active before under its
handle, in the same slot. -/
structure Runtime.Fades (before after : Runtime) : Prop where
  limits : after.limits = before.limits
  timers : ∀ index, (after.timers index).active = true →
    (before.timers index).active = true ∧
      (after.timers index).handle = (before.timers index).handle

namespace Runtime.Fades

theorem refl (runtime : Runtime) : runtime.Fades runtime := ⟨rfl, fun _ hactive => ⟨hactive, rfl⟩⟩

theorem trans {first second third : Runtime} (hfirst : first.Fades second)
    (hsecond : second.Fades third) : first.Fades third where
  limits := hsecond.limits.trans hfirst.limits
  timers := by
    intro index hactive
    obtain ⟨hmiddle, hhandle⟩ := hsecond.timers index hactive
    obtain ⟨hbefore, hhandle'⟩ := hfirst.timers index hmiddle
    exact ⟨hbefore, hhandle.trans hhandle'⟩

/-- Going out is fading. -/
theorem of_dims {before after : Runtime} (hdims : before.Dims after) : before.Fades after where
  limits := hdims.limits
  timers := by
    intro index hactive
    have hsame := hdims.timers index hactive
    rw [hsame] at hactive ⊢
    exact ⟨hactive, rfl⟩

/-- A change that does not concern the limits and the table. -/
theorem of_eq {before after : Runtime} (hlimits : after.limits = before.limits)
    (htimers : after.timers = before.timers) : before.Fades after :=
  of_dims (.of_eq hlimits htimers)

theorem clearTimers (runtime : Runtime) : runtime.Fades runtime.clearTimers :=
  of_dims (.clearTimers runtime)

/-- A timer is replaced by one that is active only under the same handle. -/
theorem setTimer (runtime : Runtime) {slot : Fin timerCapacity} {timer : Timer}
    (htimer : timer.active = true →
      (runtime.timers slot).active = true ∧ timer.handle = (runtime.timers slot).handle) :
    runtime.Fades (runtime.setTimer slot timer) where
  limits := rfl
  timers := by
    intro index hactive
    simp only [Runtime.setTimer, Function.update_apply] at hactive ⊢
    split at hactive
    · next heq =>
      subst heq
      simpa using htimer hactive
    · next hne =>
      rw [if_neg hne]
      exact ⟨hactive, rfl⟩

theorem expireEntry (runtime : Runtime) (priorLogSize : Nat) :
    runtime.Fades (Container.expireEntry priorLogSize runtime) :=
  of_dims (.expireEntry runtime priorLogSize)

/-- What is live after fading was live before. -/
theorem live {before after : Runtime} (hfades : before.Fades after) {handle : UInt64}
    (hlive : after.Live handle) : before.Live handle := by
  obtain ⟨index, hactive, rfl⟩ := hlive
  obtain ⟨hbefore, hhandle⟩ := hfades.timers index hactive
  exact ⟨index, hbefore, hhandle.symm⟩

end Runtime.Fades

/-- Cleared timers are out, if the table has no others. -/
theorem Runtime.clearTimers_inactive {runtime : Runtime} (hconfined : runtime.Confined)
    (index : Fin timerCapacity) : (runtime.clearTimers.timers index).active = false := by
  simp only [Runtime.clearTimers]
  split
  · rfl
  · next hslot => exact hconfined index (Bool.not_eq_true _ ▸ hslot)

/-- A delivered timer keeps its handle, and is active after it only if it was before. -/
theorem rearm_handle (timer : Timer) (now : UInt64) : (rearm timer now).1.handle = timer.handle := by
  unfold rearm
  split
  · rfl
  split
  · rfl
  · rfl

theorem rearm_active {timer : Timer} {now : UInt64} (hactive : (rearm timer now).1.active = true) :
    timer.active = true ∧ timer.periodMs ≠ 0 := by
  unfold rearm at hactive
  split at hactive
  · cases hactive
  next hperiod =>
  split at hactive
  · cases hactive
  · exact ⟨hactive, hperiod⟩

/-! ## Passages -/

/-- A host fades into another one, and no handle is issued. -/
structure Host.Fades (before after : Host) : Prop where
  runtime : before.runtime.Fades after.runtime
  next : after.nextTimerHandle = before.nextTimerHandle

namespace Host.Fades

theorem refl (host : Host) : host.Fades host := ⟨.refl _, rfl⟩

theorem trans {first second third : Host} (hfirst : first.Fades second)
    (hsecond : second.Fades third) : first.Fades third :=
  ⟨hfirst.runtime.trans hsecond.runtime, hsecond.next.trans hfirst.next⟩

/-- A change of the instance. -/
theorem onRuntime (host : Host) {change : Runtime → Runtime}
    (hchange : host.runtime.Fades (change host.runtime)) : host.Fades (host.onRuntime change) :=
  ⟨hchange, rfl⟩

theorem setState (host : Host) (state : RuntimeState) : host.Fades (host.setState state) :=
  ⟨.of_eq rfl rfl, rfl⟩

end Host.Fades

/-- What happens to the timer table from one host to another: the guest is not entered, or
it is entered and imports are served. -/
inductive Passage (first : Host) : Option Entered → Host → Prop
  | outside {last : Host} (hfades : first.Fades last) : Passage first none last
  | through {entered : Entered} {closed last : Host} (hbefore : first.Fades entered.host)
      (hwalk : Walk ImportStep entered.host entered.imported closed)
      (hafter : closed.Fades last) : Passage first (some entered) last

/-- More fading before and after. -/
theorem Passage.around {first second third fourth : Host} {entered : Option Entered}
    (hpassage : Passage second entered third) (hbefore : first.Fades second)
    (hafter : third.Fades fourth) : Passage first entered fourth := by
  cases hpassage with
  | outside hfades => exact .outside (hbefore.trans (hfades.trans hafter))
  | through hentering hwalk hleaving =>
      exact .through (hbefore.trans hentering) hwalk (hleaving.trans hafter)

/-- What is prepared for an invocation fades. -/
theorem Prepared.fades {host prepared : Host} {call : Call} {function : GuestFunction}
    {event : List UInt8} {entry : Entry} {timerEvent : Option TimerEvent}
    (hprepared : Prepared host call function event entry prepared timerEvent) :
    host.Fades prepared := by
  have hclaimed : host.Fades (claimedHost host) := ⟨.of_eq rfl rfl, rfl⟩
  cases hprepared with
  | init hstate => exact hclaimed
  | onEvent hstate hreserved => exact hclaimed
  | stop hstate =>
      have hstopping : host.runtime.Fades
          { (claimedHost host).runtime with stopping := true } := .of_eq rfl rfl
      exact ⟨hstopping.trans (.clearTimers _), rfl⟩
  | pollTimer hstate hselected =>
      apply hclaimed.trans
      apply Host.Fades.onRuntime
      apply Runtime.Fades.setTimer
      intro hactive
      exact ⟨(rearm_active hactive).1, rearm_handle _ _⟩

/-- Reporting a timer and releasing the claim do not concern the table. -/
theorem fades_release (report : Report) (timerEvent : Option TimerEvent) :
    report.host.Fades (report.deliver timerEvent).release.host ∧
      (report.deliver timerEvent).release.entered = report.entered := by
  unfold Report.deliver Report.release
  cases report.result with
  | ok value => exact ⟨⟨.of_eq rfl rfl, rfl⟩, rfl⟩
  | error code => exact ⟨⟨.of_eq rfl rfl, rfl⟩, rfl⟩

/-- What is concluded from an invocation fades. -/
theorem fades_conclude (function : GuestFunction) (invocation : Invocation) :
    invocation.host.Fades (conclude function invocation).host ∧
      (conclude function invocation).entered = invocation.entered := by
  have hclear : ∀ host : Host, host.Fades (host.onRuntime Runtime.clearTimers) :=
    fun host => Host.Fades.onRuntime host (.clearTimers _)
  obtain ⟨status, host, entered⟩ := invocation
  cases status with
  | error code =>
      cases function with
      | init => exact ⟨hclear host, rfl⟩
      | onEvent => exact ⟨.refl _, rfl⟩
      | stop => exact ⟨.refl _, rfl⟩
  | ok value =>
      cases function with
      | onEvent => exact ⟨.refl _, rfl⟩
      | init =>
          simp only [conclude]
          split
          · exact ⟨(Host.Fades.setState host .failed).trans (hclear _), rfl⟩
          · exact ⟨.setState host .running, rfl⟩
      | stop =>
          simp only [conclude]
          split
          · exact ⟨.setState host .failed, rfl⟩
          · exact ⟨.setState host .stopped, rfl⟩

/-- Every invocation is a passage. -/
theorem Invoked.passage {function : GuestFunction} {event : List UInt8} {entry : Entry}
    {host : Host} {invocation : Invocation}
    (hinvoked : Invoked function event entry host invocation) :
    Passage host invocation.entered invocation.host := by
  have henter : ∀ began, host.Fades (host.onRuntime (enter began)) :=
    fun began => ⟨.of_eq rfl rfl, rfl⟩
  have hleave : ∀ closed : Host, closed.Fades (leave closed) := fun _ => ⟨.of_eq rfl rfl, rfl⟩
  cases hinvoked with
  | unentered => exact .outside (.setState host .failed)
  | expired hbegan hdeadline hwalk hlate =>
      exact .through (henter _) hwalk ((hleave _).trans (.onRuntime _ (.expireEntry _ _)))
  | failed hbegan hdeadline hwalk hcode hexpired hreturns =>
      exact .through (henter _) hwalk ((hleave _).trans (.setState _ _))
  | returned hbegan hdeadline hwalk hexpired hreturns => exact .through (henter _) hwalk (hleave _)

/-- Every call is a passage. -/
theorem Outcome.passage {host : Host} {call : Call} {report : Report}
    (houtcome : Outcome host call report) : Passage host report.entered report.host := by
  cases houtcome with
  | refused hcode hselected hstops => exact .outside (.refl _)
  | unread hstate => exact .outside (.refl _)
  | stopped hstate => exact .outside (.refl _)
  | earliest hstate => exact .outside (.refl _)
  | tookLog hpending hcapacity => exact .outside ⟨.of_eq rfl rfl, rfl⟩
  | @invoked _ function event entry prepared timerEvent hprepared =>
      obtain ⟨hconclude, hentered⟩ :=
        fades_conclude function (invoke function event entry prepared)
      obtain ⟨hrelease, hentered'⟩ :=
        fades_release (conclude function (invoke function event entry prepared)) timerEvent
      rw [hentered', hentered]
      exact (invoked_invoke function event entry prepared).passage.around hprepared.fades
        (hconclude.trans hrelease)

/-! ## Imports -/

/-- The handle an import issued: what `timer_start` returned, unless that is zero. -/
def Imported.issued (imported : Imported) : List UInt64 :=
  match imported.call, imported.answer with
  | .timerStart _ _, handle => if handle = 0 then [] else [handle]
  | _, _ => []

/-- An import lets the table fade, or starts one timer in a free slot under the next
handle. -/
theorem Effect.fades_or_starts {imported : Imported} (heffect : Effect imported) :
    imported.before.Fades imported.after ∧ imported.issued = [] ∨
      ∃ slot timer, imported.before.runtime.freeSlot = some slot ∧
        imported.before.nextTimerHandle ≠ 0 ∧ timer.handle = imported.before.nextTimerHandle ∧
        imported.after = ⟨imported.before.runtime.setTimer slot timer,
          imported.before.nextTimerHandle + 1⟩ ∧
        imported.issued = [imported.before.nextTimerHandle] := by
  have hdenied : ∀ (call : ImportCall) (world : Surroundings) (before after : Host)
      (answer : call.Answer), Denied call answer →
      (Imported.mk call world before answer after).issued = [] := by
    intro call world before after answer hanswer
    cases call with
    | timerStart delayMs periodMs =>
        rw [Imported.issued]
        exact if_pos hanswer
    | _ => rfl
  cases heffect with
  | idle hcheck hanswer => exact .inl ⟨.refl _, hdenied _ _ _ _ _ hanswer⟩
  | expired hcheck hanswer => exact .inl ⟨⟨.of_eq rfl rfl, rfl⟩, hdenied _ _ _ _ _ hanswer⟩
  | logged hcheck hempty hsize => exact .inl ⟨⟨.of_eq rfl rfl, rfl⟩, rfl⟩
  | started hcheck hstopping hnext hfree =>
      exact .inr ⟨_, _, hfree, hnext, rfl, rfl, if_neg hnext⟩
  | cancelled hcheck hstopping hslot =>
      exact .inl ⟨⟨.setTimer _ nofun, rfl⟩, rfl⟩

/-- The first free slot is one of the table, and nothing is active in it. -/
theorem Runtime.freeSlot_spec {runtime : Runtime} {slot : Fin timerCapacity}
    (hfree : runtime.freeSlot = some slot) :
    runtime.hasSlot slot = true ∧ (runtime.timers slot).active = false := by
  have hfound := List.find?_some hfree
  simpa using hfound

/-! ## Sound instances -/

theorem Runtime.Fades.confined {before after : Runtime} (hfades : before.Fades after)
    (hconfined : before.Confined) : after.Confined := by
  intro index hslot
  rw [← Bool.not_eq_true]
  intro hactive
  have hbefore := (hfades.timers index hactive).1
  rw [hconfined index (by rwa [Runtime.hasSlot, ← hfades.limits])] at hbefore
  cases hbefore

theorem Effect.confined {imported : Imported} (heffect : Effect imported)
    (hconfined : imported.before.runtime.Confined) : imported.after.runtime.Confined := by
  rcases heffect.fades_or_starts with ⟨hfades, -⟩ | ⟨slot, timer, hfree, -, -, hafter, -⟩
  · exact hfades.runtime.confined hconfined
  · rw [hafter]
    intro index hslot
    simp only [Runtime.setTimer, Function.update_apply]
    split
    · next heq =>
      -- A free slot is one of the table.
      subst heq
      have hbefore : imported.before.runtime.hasSlot index = false := hslot
      rw [(Runtime.freeSlot_spec hfree).1] at hbefore
      cases hbefore
    · exact hconfined index hslot

/-- The limits never change, and timers stay confined. -/
theorem Passage.confined {first last : Host} {entered : Option Entered}
    (hpassage : Passage first entered last) (hconfined : first.runtime.Confined) :
    last.runtime.limits = first.runtime.limits ∧ last.runtime.Confined := by
  cases hpassage with
  | outside hfades => exact ⟨hfades.runtime.limits, hfades.runtime.confined hconfined⟩
  | through hbefore hwalk hafter =>
      have hopened := hbefore.runtime.confined hconfined
      refine ⟨hafter.runtime.limits.trans
        ((framed_of_imports hwalk).limits.trans hbefore.runtime.limits), ?_⟩
      apply hafter.runtime.confined
      apply hwalk.preserves (J := fun host => host.runtime.Confined) _ hopened
      rintro _ imported _ hconfined ⟨rfl, rfl, heffect, -⟩
      exact heffect.confined hconfined

/-- After a call of an idle instance the claim is released. -/
theorem Outcome.idle {host : Host} {call : Call} {report : Report}
    (houtcome : Outcome host call report) (hidle : host.runtime.callActive = false) :
    report.host.runtime.callActive = false := by
  cases houtcome with
  | refused hcode hselected hstops => exact hidle
  | unread hstate => exact hidle
  | stopped hstate => exact hidle
  | earliest hstate => exact hidle
  | tookLog hpending hcapacity => exact hidle
  | invoked hprepared => rfl

/-- A call leaves a sound instance sound. -/
theorem Outcome.sound {host : Host} {call : Call} {report : Report}
    (houtcome : Outcome host call report) (hsound : host.runtime.Sound) :
    report.host.runtime.Sound := by
  obtain ⟨hlimits, hconfined⟩ := houtcome.passage.confined hsound.confined
  exact ⟨by rw [hlimits]; exact hsound.limits, houtcome.idle hsound.idle, hconfined⟩

end Container
