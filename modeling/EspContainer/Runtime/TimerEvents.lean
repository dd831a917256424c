/-
# Timer events

The runtime encodes a timer event, the guest SDK decodes it, and `on_event` keeps such
events out of what its callers may send. The three agree: what a poll delivers decodes
to the timer that fired, and nothing else decodes to anything, so that a guest that
decodes a timer event was entered by a poll for that timer.
-/

import EspContainer.Binary.Words
import EspContainer.Runtime.Rhythm
import Mathlib.Data.List.GetD

namespace Container

open Interaction Binary

/-! ## The decoder of the guest -/

/-- `econtainer_timer_event_decode`: what it stores through its two pointers, if it returns 1. -/
def timerEventDecode (event : EventArgument) (hasHandle hasSkipped : Bool) : Option TimerEvent :=
  match event with
  | .null _ => none
  | .bytes bytes =>
      if bytes.length ≠ 16 || !hasHandle || !hasSkipped || byteAt bytes 0 != 0x45 ||
          byteAt bytes 1 != 0x43 || byteAt bytes 2 != 0x54 || byteAt bytes 3 != 1 then none
      else
        let handle := (List.range 8).foldl (fun handle index =>
          handle ||| (byteAt bytes (4 + index)).toUInt64 <<< (index * 8).toUInt64) 0
        let skipped := (List.range 4).foldl (fun skipped index =>
          skipped ||| (byteAt bytes (12 + index)).toUInt32 <<< (index * 8).toUInt32) 0
        if handle ≠ 0 then some ⟨handle, skipped⟩ else none

/-- The bytes of the handle in a timer event. -/
theorem byteAt_handle (handle : UInt64) (skipped : UInt32) {index : Nat} (hindex : index < 8) :
    byteAt (timerEventBytes handle skipped) (4 + index) =
      (handle >>> (index * 8).toUInt64).toUInt8 := by
  rw [byteAt, timerEventBytes, List.append_assoc, List.getD_append_right _ _ _ _ (by simp [timerEventMagic]),
    List.getD_append _ _ _ _ (by simp [timerEventMagic, hindex])]
  simp [timerEventMagic, List.getD, hindex]

/-- The bytes of the count in a timer event. -/
theorem byteAt_skipped (handle : UInt64) (skipped : UInt32) {index : Nat} (hindex : index < 4) :
    byteAt (timerEventBytes handle skipped) (12 + index) =
      (skipped >>> (index * 8).toUInt32).toUInt8 := by
  rw [byteAt, timerEventBytes, List.getD_append_right _ _ _ _ (by simp [timerEventMagic])]
  simp [timerEventMagic, List.getD, hindex]

/-- A timer event decodes to what was encoded. -/
theorem timerEventDecode_timerEventBytes {handle : UInt64} (hhandle : handle ≠ 0)
    (skipped : UInt32) :
    timerEventDecode (.bytes (timerEventBytes handle skipped)) true true =
      some ⟨handle, skipped⟩ := by
  have hmagic : byteAt (timerEventBytes handle skipped) 0 = 0x45 ∧
      byteAt (timerEventBytes handle skipped) 1 = 0x43 ∧
      byteAt (timerEventBytes handle skipped) 2 = 0x54 ∧
      byteAt (timerEventBytes handle skipped) 3 = 1 := ⟨rfl, rfl, rfl, rfl⟩
  have hfirst : (List.range 8).foldl (fun word index => word |||
      (byteAt (timerEventBytes handle skipped) (4 + index)).toUInt64 <<<
        (index * 8).toUInt64) 0 = handle := by
    rw [← assemble64 handle]
    apply List.foldl_ext
    intro word index hmem
    rw [byteAt_handle _ _ (List.mem_range.mp hmem), assemble64]
  have hsecond : (List.range 4).foldl (fun word index => word |||
      (byteAt (timerEventBytes handle skipped) (12 + index)).toUInt32 <<<
        (index * 8).toUInt32) 0 = skipped := by
    rw [← assemble32 skipped]
    apply List.foldl_ext
    intro word index hmem
    rw [byteAt_skipped _ _ (List.mem_range.mp hmem), assemble32]
  simp only [timerEventDecode, length_timerEventBytes, hmagic, hfirst, hsecond]
  simp [hhandle]

/-- What `on_event` lets through does not decode. -/
theorem timerEventDecode_of_not_reserved {event : EventArgument} (hreserved : event.reserved = false)
    (hasHandle hasSkipped : Bool) :
    timerEventDecode (.bytes event.content) hasHandle hasSkipped = none := by
  cases event with
  | null sizeBytes => rfl
  | bytes bytes =>
      apply if_pos
      by_contra hchecks
      simp only [EventArgument.content, Bool.or_eq_true, bne_iff_ne, ne_eq, Bool.not_eq_true',
        not_or, not_not] at hchecks
      obtain ⟨⟨⟨⟨⟨⟨hsize, -⟩, -⟩, hfirst⟩, hsecond⟩, hthird⟩, hfourth⟩ := hchecks
      have hlength : bytes.length = 16 := by
        by_contra hother
        exact hsize (decide_eq_true hother)
      -- The decoder looks at the first four bytes one by one.
      have hmagic : bytes.take 4 = timerEventMagic := by
        rcases bytes with _ | ⟨b0, _ | ⟨b1, _ | ⟨b2, _ | ⟨b3, rest⟩⟩⟩⟩
        · cases hlength
        · cases hlength
        · cases hlength
        · cases hlength
        · obtain rfl : b0 = 0x45 := hfirst
          obtain rfl : b1 = 0x43 := hsecond
          obtain rfl : b2 = 0x54 := hthird
          obtain rfl : b3 = 1 := hfourth
          rfl
      simp [EventArgument.reserved, hlength, hmagic] at hreserved

/-- Nothing decodes through a null pointer. -/
theorem timerEventDecode_pointers {argument : EventArgument} {hasHandle hasSkipped : Bool}
    {event : TimerEvent} (hdecoded : timerEventDecode argument hasHandle hasSkipped = some event) :
    hasHandle = true ∧ hasSkipped = true := by
  cases argument with
  | null sizeBytes => cases hdecoded
  | bytes bytes =>
      unfold timerEventDecode at hdecoded
      simp only at hdecoded
      split at hdecoded
      · cases hdecoded
      · next hchecks =>
        simp only [Bool.or_eq_true, not_or, Bool.not_eq_true, Bool.not_eq_false'] at hchecks
        exact ⟨hchecks.1.1.1.1.1.2, hchecks.1.1.1.1.2⟩

/-! ## Guest entries -/

/-- What a guest gets in a call is a timer that fired, or it does not decode. -/
theorem Outcome.unforged {host : Host} {call : Call} {report : Report}
    (houtcome : Outcome host call report) {entered : Entered}
    (hentered : report.entered = some entered) :
    (∃ firing, firing ∈ call.firings host.runtime report.result) ∨
      ∀ hasHandle hasSkipped,
        timerEventDecode (.bytes entered.event) hasHandle hasSkipped = none := by
  cases houtcome with
  | refused hcode hselected hstops => cases hentered
  | unread hstate => cases hentered
  | stopped hstate => cases hentered
  | earliest hstate => cases hentered
  | tookLog hpending hcapacity => cases hentered
  | @invoked _ function event entry prepared timerEvent hprepared =>
      have hresult : ((conclude function (invoke function event entry prepared)).deliver
          timerEvent).release.result ≠ .error .noMemory := by
        rw [result_release]
        intro hrefused
        exact absurd rfl
          (concluded_not_refusal (invoked_invoke function event entry prepared) _ hrefused)
      rw [(fades_release _ timerEvent).2, (fades_conclude _ _).2] at hentered
      obtain ⟨-, hevent, -⟩ := (invoked_invoke function event entry prepared).entered_eq hentered
      rw [hevent]
      cases hprepared with
      | init hstate => exact .inr fun _ _ => rfl
      | stop hstate => exact .inr fun _ _ => rfl
      | onEvent hstate hreserved => exact .inr (timerEventDecode_of_not_reserved hreserved)
      | @pollTimer now allocation entry slot hstate hselected =>
          left
          refine ⟨⟨slot, host.runtime.timers slot, now⟩, ?_⟩
          exact Call.mem_firings.mpr ⟨hresult, rfl, hstate, hselected, allocation, entry, rfl⟩

/-- What `on_event` passes to the guest are the bytes it was given. -/
theorem Outcome.event_of_onEvent {host : Host} {event : EventArgument} {hasGuestResult : Bool}
    {allocation : Allocation} {entry : Entry} {report : Report}
    (houtcome : Outcome host (.onEvent event hasGuestResult allocation entry) report)
    {entered : Entered} (hentered : report.entered = some entered) :
    entered.event = event.content := by
  cases houtcome with
  | refused hcode hselected hstops => cases hentered
  | @invoked _ function bytes entry prepared timerEvent hprepared =>
      rw [(fades_release _ timerEvent).2, (fades_conclude _ _).2] at hentered
      obtain ⟨-, hevent, -⟩ := (invoked_invoke function bytes entry prepared).entered_eq hentered
      rw [hevent]
      cases hprepared with
      | onEvent hstate hreserved => rfl

/-- The events of a visit decode to what fired, and to nothing else. -/
structure Visit.Faithful (visit : Visit) : Prop where
  /-- What a poll delivers decodes to the timer that fired. -/
  delivered : ∀ firing ∈ visit.firings, ∀ entered, visit.entered = some entered →
    timerEventDecode (.bytes entered.event) true true = some firing.event
  /-- What `on_event` delivers does not decode. -/
  refused : ∀ event hasGuestResult allocation entry,
    visit.service = .calling (.onEvent event hasGuestResult allocation entry) →
    ∀ entered, visit.entered = some entered → entered.event = event.content ∧
      ∀ hasHandle hasSkipped,
        timerEventDecode (.bytes entered.event) hasHandle hasSkipped = none
  /-- What decodes was delivered by a poll for an active timer of the instance. -/
  unforged : ∀ entered, visit.entered = some entered → ∀ hasHandle hasSkipped event,
    timerEventDecode (.bytes entered.event) hasHandle hasSkipped = some event →
    ∃ firing ∈ visit.firings, event = firing.event ∧ ∃ runtime allocation entry,
      visit.before.runtime = some runtime ∧ firing.Picks runtime ∧
      visit.service = .calling (.pollTimer true true (some firing.now) allocation entry)

/-- A visit that enters no guest. -/
theorem Visit.faithful_of_unentered {visit : Visit} (hreport : visit.report = none)
    (hfirings : visit.firings = []) : visit.Faithful := by
  have hentered : visit.entered = none := by rw [Visit.entered, hreport, Option.bind_none]
  constructor
  · rw [hfirings]
    simp
  · intro event hasGuestResult allocation entry hservice entered hsome
    rw [hentered] at hsome
    cases hsome
  · intro entered hsome
    rw [hentered] at hsome
    cases hsome

/-- A visit that calls the instance. -/
theorem faithful_call {before : Process} {handles : List UInt64} (hlisted : before.Listed handles)
    {runtime : Runtime} (hruntime : before.runtime = some runtime) (call : Call) :
    (before.call call).Faithful := by
  have hsound := hlisted.sound runtime hruntime
  have houtcome := outcome_perform call (show (before.host runtime).runtime.Sound from hsound)
  rw [Process.call_some hruntime]
  generalize perform call (before.host runtime) = report at houtcome
  have hfirings : Visit.firings ⟨.calling call, before, report.result, some report,
      ⟨some report.host.runtime, report.host.nextTimerHandle⟩⟩ =
      call.firings runtime report.result := by
    simp only [Visit.firings, hruntime]
  have hdelivered : ∀ firing ∈ call.firings runtime report.result, ∀ entered,
      report.entered = some entered →
      timerEventDecode (.bytes entered.event) true true = some firing.event := by
    intro firing hfiring entered hentered
    have hpicks := Call.picks hsound.confined hfiring
    rw [((houtcome.served hfiring).entered entered hentered).2.1]
    apply timerEventDecode_timerEventBytes
    -- A handle that was issued is not zero.
    have hactive := hpicks.active
    rw [hpicks.timer] at hactive
    rw [Firing.event, hpicks.timer]
    exact ((hlisted.table runtime hruntime).orderly.issued firing.slot hactive).1
  constructor
  · rw [hfirings]
    exact hdelivered
  · rintro event hasGuestResult allocation entry ⟨⟩ entered hentered
    refine ⟨houtcome.event_of_onEvent hentered, ?_⟩
    rcases houtcome.unforged hentered with ⟨firing, hfiring⟩ | hnone
    · obtain ⟨-, -, -, -, allocation', entry', hcall⟩ := Call.mem_firings.mp hfiring
      cases hcall
    · exact hnone
  · rw [hfirings]
    intro entered hentered hasHandle hasSkipped event hdecoded
    rcases houtcome.unforged hentered with ⟨firing, hfiring⟩ | hnone
    · obtain ⟨rfl, rfl⟩ := timerEventDecode_pointers hdecoded
      rw [hdelivered firing hfiring entered hentered] at hdecoded
      obtain ⟨-, -, -, -, allocation, entry, rfl⟩ := Call.mem_firings.mp hfiring
      exact ⟨firing, hfiring, (Option.some.inj hdecoded).symm, runtime, allocation, entry,
        hruntime, Call.picks hsound.confined hfiring, rfl⟩
    · rw [hnone] at hdecoded
      cases hdecoded

/-- The events of every visit are faithful. -/
theorem VisitStep.faithful {before after : Process} {visit : Visit} {handles : List UInt64}
    (hlisted : before.Listed handles) (hstep : VisitStep before visit after) : visit.Faithful := by
  cases hstep with
  | opened hopens => exact Visit.faithful_of_unentered rfl rfl
  | notOpened hopens => exact Visit.faithful_of_unentered rfl rfl
  | called call =>
      cases hruntime : before.runtime with
      | none =>
          rw [Process.call_none hruntime]
          apply Visit.faithful_of_unentered rfl
          simp only [Visit.firings, hruntime]
      | some runtime => exact faithful_call hlisted hruntime call
  | closed =>
      cases hruntime : before.runtime with
      | none =>
          rw [Process.close_none hruntime]
          exact Visit.faithful_of_unentered rfl rfl
      | some runtime =>
          rw [Process.close_idle hruntime (hlisted.sound runtime hruntime).idle]
          exact Visit.faithful_of_unentered rfl rfl

/-- Timer events are decoded faithfully and cannot be forged, over every run from boot. -/
theorem timer_events_faithful {visits : List Visit} {last : Process}
    (hwalk : Walk VisitStep .boot visits last) : ∀ visit ∈ visits, visit.Faithful := by
  intro visit hvisit
  obtain ⟨earlier, later, rfl⟩ := List.append_of_mem hvisit
  obtain ⟨before, after, hearlier, hstep, -⟩ := hwalk.split
  exact hstep.faithful (listed_of_visits hearlier).1

/-- In the sample run the guest gets two events and decodes them. -/
theorem timer_events_faithful_periodicCalls :
    (Process.visits periodicCalls sampleProcess).flatMap (fun visit =>
      visit.entered.toList.map fun entered =>
        timerEventDecode (.bytes entered.event) true true) =
        [none, some ⟨1, 0⟩, some ⟨1, 2⟩] ∧
      ∀ visit ∈ sampleOpening :: Process.visits periodicCalls sampleProcess, visit.Faithful :=
  ⟨by decide, timer_events_faithful
    (walk_sampleOpening.append (walk_visits periodicCalls sampleProcess))⟩

end Container
