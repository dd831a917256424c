/-
# Earliest first

A poll delivers a timer with the least deadline of those that are due. So a timer that is
due waits only for timers that are due no later, and each of these passes it once: what
fires goes on with a deadline that is still to come, and what is started has one too.
The names that may still pass a waiting timer drain away, and there are fewer of them
than the table has slots.
-/

import EspContainer.Runtime.Rhythm

namespace Container

open Interaction Package

/-! ## Passing a timer -/

/-- A timer that is due stays in the table from the first of these visits on: every reading of
the clock has reached its deadline, it is not cancelled, and the instance is not closed. -/
structure Overdue (timer : Timer) (runtime : Runtime) (visits : List Visit) : Prop where
  begins : ∃ visit rest, visits = visit :: rest ∧ visit.before.runtime = some runtime
  present : ∃ index, runtime.timers index = timer
  active : timer.active = true
  due : ∀ reading ∈ visits.flatMap Visit.readings, timer.deadlineMs ≤ reading
  uncancelled : timer.handle ∉ (visits.flatMap Visit.imports).flatMap Imported.cancelled
  stays : ∀ visit ∈ visits, visit.service ≠ .closing

/-- What is known of a visit that leaves such a timer waiting. -/
structure Visit.Passes (visit : Visit) (timer : Timer) : Prop where
  platform : ∀ reading ∈ visit.readings, OfPlatform reading
  due : ∀ reading ∈ visit.readings, timer.deadlineMs ≤ reading
  uncancelled : timer.handle ∉ visit.imports.flatMap Imported.cancelled
  stays : visit.service ≠ .closing
  undelivered : ∀ firing ∈ visit.firings, firing.timer.handle ≠ timer.handle

/-- The timer is in the table, unless the instance has ended. -/
def Process.Keeps (timer : Timer) (process : Process) : Prop :=
  ∃ runtime, process.runtime = some runtime ∧
    (runtime.state.final = true ∨ ∃ index, runtime.timers index = timer)

/-- An active timer that may be delivered before a deadline is. -/
def Process.Ahead (deadlineMs : UInt64) (process : Process) (handle : UInt64) : Prop :=
  ∃ runtime, process.runtime = some runtime ∧ ∃ index, (runtime.timers index).active = true ∧
    (runtime.timers index).deadlineMs ≤ deadlineMs ∧ (runtime.timers index).handle = handle

/-- What is between visits that leave a timer waiting. -/
structure Process.Waits (timer : Timer) (process : Process) : Prop where
  listed : ∃ handles, process.Listed handles
  keeps : process.Keeps timer

section Passing

variable {timer : Timer} {before after : Process} {visit : Visit}

/-- A timer that is passed stays as it is. -/
theorem VisitStep.waits (hactive : timer.active = true) (hwaits : before.Waits timer)
    (hstep : VisitStep before visit after) (hpasses : visit.Passes timer) : after.Waits timer := by
  obtain ⟨⟨handles, hlisted⟩, runtime, hruntime, hkeeps⟩ := hwaits
  have hturned := hstep.turned hlisted.sound
  rw [← hstep.before_eq] at hruntime
  rw [← hstep.after_eq]
  refine ⟨⟨_, (hstep.disciplined hlisted).listed⟩, ?_⟩
  obtain ⟨last, hlast, hstays⟩ := hturned.stays runtime hruntime hpasses.stays
  refine ⟨last, hlast, ?_⟩
  rcases hkeeps with hfinal | ⟨index, rfl⟩
  · exact .inl (hturned.final runtime hruntime hfinal last hlast)
  · have hquiet : ∀ firing ∈ visit.firings, firing.slot ≠ index := by
      intro firing hfiring hslot
      obtain ⟨runtime', hruntime', hpicks⟩ := hturned.picks firing hfiring
      obtain rfl := Option.some.inj (hruntime.symm.trans hruntime')
      apply hpasses.undelivered firing hfiring
      rw [hpicks.timer, hslot]
    exact (hstays index hactive hpasses.uncancelled hquiet).imp id fun hsame => ⟨index, hsame⟩

/-- What fires and goes on has a deadline that is still to come. -/
theorem Firing.now_lt_next {firing : Firing} {runtime : Runtime} (hpicks : firing.Picks runtime)
    (hplatform : OfPlatform firing.now) (hactive : firing.next.active = true) :
    firing.now < firing.next.deadlineMs := by
  obtain ⟨-, hnext, -⟩ := firing.next_periodic hpicks hplatform (rearm_active hactive).2
  have hpositive : 0 < firing.timer.periodMs.toNat :=
    Nat.pos_of_ne_zero fun hzero => (rearm_active hactive).2 (UInt32.toNat_inj.mp hzero)
  rw [UInt64.lt_iff_toNat_lt, hnext]
  exact (Timing.isLeast_nextBeat hpositive (UInt64.le_iff_toNat_le.mp hpicks.due)).1.1

/-- Everything in the table that is due no later was there before, and has not fired. -/
theorem VisitStep.ahead (hwaits : before.Waits timer) (hstep : VisitStep before visit after)
    (hpasses : visit.Passes timer) {handle : UInt64}
    (hahead : after.Ahead timer.deadlineMs handle) :
    before.Ahead timer.deadlineMs handle ∧
      ∀ firing ∈ visit.firings, firing.timer.handle ≠ handle := by
  obtain ⟨⟨handles, hlisted⟩, -⟩ := hwaits
  have hturned := hstep.turned hlisted.sound
  obtain ⟨runtime, hruntime, index, hactive, hdeadline, rfl⟩ := hahead
  rw [← hstep.after_eq] at hruntime
  obtain ⟨runtime', hruntime', horigin⟩ :=
    hturned.origin runtime (hturned.ends runtime hruntime) index hactive
  have hbefore := hruntime'
  rw [hstep.before_eq] at hbefore
  cases horigin with
  | kept hsame hactive' hquiet =>
      rw [hsame] at hdeadline ⊢
      refine ⟨⟨runtime', hbefore, index, hactive', hdeadline, rfl⟩, fun firing hfiring hhandle => ?_⟩
      obtain ⟨runtime'', hruntime'', hpicks⟩ := hturned.picks firing hfiring
      obtain rfl := Option.some.inj (hruntime'.symm.trans hruntime'')
      -- A handle is in one slot only.
      have hactive'' := hpicks.active
      rw [hpicks.timer] at hhandle hactive''
      exact hquiet firing hfiring (((hlisted.table _ hbefore).orderly.distinct _ _ hactive''
        hactive' hhandle))
  | @fired firing hfiring hslot htimer =>
      obtain ⟨runtime'', -, hpicks⟩ := hturned.picks firing hfiring
      have hreading := hturned.timely firing hfiring
      rw [htimer] at hactive hdeadline
      have hlater := firing.now_lt_next hpicks (hpasses.platform _ hreading) hactive
      have hdue := UInt64.lt_of_le_of_lt (hpasses.due _ hreading) hlater
      exact absurd (UInt64.lt_of_lt_of_le hdue hdeadline) (UInt64.lt_irrefl _)
  | started hstarted =>
      obtain ⟨imported, -, now, hreading, delayMs, hstarts⟩ := hturned.starts hstarted
      have hdue := hpasses.due now hreading
      have hlater := hstarts.deadline
      have hdelay := hstarts.delay.1
      rw [UInt64.le_iff_toNat_le] at hdue hdeadline
      omega

/-- What passes a waiting timer is due no later. -/
theorem VisitStep.passing (hactive : timer.active = true) (hwaits : before.Waits timer)
    (hstep : VisitStep before visit after) (hpasses : visit.Passes timer) {firing : Firing}
    (hfiring : firing ∈ visit.firings) :
    firing.timer.deadlineMs ≤ timer.deadlineMs ∧
      before.Ahead timer.deadlineMs firing.timer.handle := by
  obtain ⟨⟨handles, hlisted⟩, runtime, hruntime, hkeeps⟩ := hwaits
  have hturned := hstep.turned hlisted.sound
  obtain ⟨runtime', hruntime', hpicks⟩ := hturned.picks firing hfiring
  rw [hstep.before_eq] at hruntime'
  obtain rfl := Option.some.inj (hruntime.symm.trans hruntime')
  have hleast : firing.timer.deadlineMs ≤ timer.deadlineMs := by
    rcases hkeeps with hfinal | ⟨index, rfl⟩
    · rw [hpicks.state] at hfinal
      cases hfinal
    · exact hpicks.least index hactive (hpasses.due _ (hturned.timely firing hfiring))
  refine ⟨hleast, runtime, hruntime, firing.slot, ?_, ?_, ?_⟩
  · rw [← hpicks.timer]
    exact hpicks.active
  · rwa [← hpicks.timer]
  · rw [← hpicks.timer]

end Passing

/-! ## Waiting -/

/-- The handles delivered in a visit. -/
def Visit.delivered (visit : Visit) : List UInt64 := visit.firings.map (·.timer.handle)

/-- No handle passes a waiting timer twice, and all that pass it were ahead of it. -/
theorem drains_of_visits {timer : Timer} (hactive : timer.active = true) {first last : Process}
    {visits : List Visit} (hwalk : Walk VisitStep first visits last)
    (hpasses : ∀ visit ∈ visits, visit.Passes timer) (hfirst : first.Waits timer) :
    (visits.flatMap Visit.delivered).Nodup ∧
      ∀ handle ∈ visits.flatMap Visit.delivered, first.Ahead timer.deadlineMs handle := by
  have hkept : ∀ before visit after, before.Waits timer →
      (VisitStep before visit after ∧ visit.Passes timer) → after.Waits timer :=
    fun before visit after hwaits hvisit => hvisit.1.waits hactive hwaits hvisit.2
  apply (hwalk.restrict hpasses).drains (Process.Ahead timer.deadlineMs) Visit.delivered hkept _ _ _
    hfirst
  · rintro before visit after ⟨⟨handles, hlisted⟩, -⟩ ⟨hstep, -⟩
    have hturned := hstep.turned hlisted.sound
    cases hfirings : visit.firings with
    | nil => simp [Visit.delivered, hfirings]
    | cons firing rest =>
        have hmem : firing ∈ visit.firings := by
          rw [hfirings]
          exact List.mem_cons_self
        rw [Visit.delivered, hturned.single firing hmem]
        exact List.nodup_singleton _
  · rintro before visit after hwaits ⟨hstep, hpass⟩ handle hhandle
    obtain ⟨firing, hfiring, rfl⟩ := List.mem_map.mp hhandle
    refine ⟨(hstep.passing hactive hwaits hpass hfiring).2, fun hahead => ?_⟩
    exact (hstep.ahead hwaits hpass hahead).2 firing hfiring rfl
  · rintro before visit after hwaits ⟨hstep, hpass⟩ handle hahead
    exact (hstep.ahead hwaits hpass hahead).1

/-- Everything that passes a waiting timer is due no later. -/
theorem passing_of_visits {timer : Timer} (hactive : timer.active = true) {first last : Process}
    {visits : List Visit} (hwalk : Walk VisitStep first visits last)
    (hpasses : ∀ visit ∈ visits, visit.Passes timer) (hfirst : first.Waits timer) :
    ∀ firing ∈ visits.flatMap Visit.firings, firing.timer.deadlineMs ≤ timer.deadlineMs := by
  intro firing hfiring
  obtain ⟨visit, hvisit, hfiring⟩ := List.mem_flatMap.mp hfiring
  have hall : ∀ visit ∈ visits, ∀ firing ∈ visit.firings,
      firing.timer.deadlineMs ≤ timer.deadlineMs := by
    have hkept : ∀ before visit after, before.Waits timer →
        (VisitStep before visit after ∧ visit.Passes timer) → after.Waits timer :=
      fun before visit after hwaits hvisit => hvisit.1.waits hactive hwaits hvisit.2
    have hpassing : ∀ before visit after, before.Waits timer →
        (VisitStep before visit after ∧ visit.Passes timer) →
        ∀ firing ∈ visit.firings, firing.timer.deadlineMs ≤ timer.deadlineMs :=
      fun before visit after hwaits hvisit firing hfiring =>
        (hvisit.1.passing hactive hwaits hvisit.2 hfiring).1
    exact (hwalk.restrict hpasses).forall_mem hkept hpassing hfirst
  exact hall visit hvisit firing hfiring

/-- A list of different live handles is no longer than the table. -/
theorem Runtime.Confined.length_le {runtime : Runtime} (hconfined : runtime.Confined)
    {handles : List UInt64} (hnodup : handles.Nodup) (hlive : ∀ handle ∈ handles, runtime.Live handle) :
    handles.length ≤ runtime.limits.maxTimers.toNat := by
  have hsubset : handles.toFinset ⊆ (Finset.univ.filter fun index =>
      (runtime.timers index).active = true).image fun index => (runtime.timers index).handle := by
    intro handle hhandle
    obtain ⟨index, hactive, hsame⟩ := hlive handle (List.mem_toFinset.mp hhandle)
    exact Finset.mem_image.mpr
      ⟨index, Finset.mem_filter.mpr ⟨Finset.mem_univ index, hactive⟩, hsame⟩
  rw [← List.toFinset_card_of_nodup hnodup]
  exact le_trans (Finset.card_le_card hsubset) (le_trans Finset.card_image_le hconfined.card_le)

/-! ## The whole run -/

/-- While a timer waits: nothing that is due later passes it, nor anything that was started when
it was due already; each handle passes it once, and fewer do than the table has slots. -/
structure BoundedOvertaking (timer : Timer) (runtime : Runtime) (window visits : List Visit) :
    Prop where
  earlier : ∀ firing ∈ window.flatMap Visit.firings, firing.timer.deadlineMs ≤ timer.deadlineMs
  unstarted : ∀ imported ∈ visits.flatMap Visit.imports, ∀ now, imported.world.clock = some now →
    timer.deadlineMs ≤ now → ∀ started ∈ imported.started,
      started.handle ∉ window.flatMap Visit.delivered
  once : (window.flatMap Visit.delivered).Nodup
  bounded : (window.flatMap Visit.delivered).length < runtime.limits.maxTimers.toNat

/-- Timers are delivered earliest first, with bounded overtaking. -/
structure EarliestFirst (visits : List Visit) : Prop where
  /-- What is delivered is active, due, and has the least deadline of all that is. -/
  least : ∀ visit ∈ visits, ∀ firing ∈ visit.firings, ∃ runtime,
    visit.before.runtime = some runtime ∧ firing.Picks runtime
  /-- A poll that succeeds reports what it delivered. -/
  reported : ∀ visit ∈ visits, ∀ event ∈ visit.reported, ∃ firing ∈ visit.firings,
    event = firing.event
  /-- What is due is overtaken in bounds until it is delivered. -/
  overtaking : ∀ earlier window later, visits = earlier ++ window ++ later →
    ∀ timer runtime, Overdue timer runtime window →
      timer.handle ∉ window.flatMap Visit.delivered →
      BoundedOvertaking timer runtime window visits

/-- A timer is never delivered with a deadline before the one it was started with. -/
theorem started_of_firing {visits : List Visit} {last : Process}
    (hwalk : Walk VisitStep .boot visits last)
    (hplatform : ∀ reading ∈ visits.flatMap Visit.readings, OfPlatform reading) {firing : Firing}
    (hfiring : firing ∈ visits.flatMap Visit.firings) :
    ∃ start ∈ visits.flatMap Visit.started, start.handle = firing.timer.handle ∧
      start.deadlineMs ≤ firing.timer.deadlineMs := by
  obtain ⟨visit, hvisit, hfires⟩ := List.mem_flatMap.mp hfiring
  obtain ⟨earlier, later, rfl⟩ := List.append_of_mem hvisit
  obtain ⟨before, after, hearlier, hstep, -⟩ := hwalk.split
  have hrhythmic := rhythmic_of_visits hearlier fun reading hreading => by
    apply hplatform
    rw [List.flatMap_append]
    exact List.mem_append.mpr (.inl hreading)
  have hturned := hstep.turned hrhythmic.listed.sound
  obtain ⟨start, hstart, hhandle, -, beats, hdeadline, -⟩ :=
    hrhythmic.known_firing hturned hstep.before_eq hfires
  refine ⟨start, ?_, hhandle, ?_⟩
  · rw [List.flatMap_append]
    exact List.mem_append.mpr (.inl hstart)
  · rw [UInt64.le_iff_toNat_le]
    omega

/-- No handle is started twice. -/
theorem nodup_started {visits : List Visit} {last : Process}
    (hwalk : Walk VisitStep .boot visits last)
    (hplatform : ∀ reading ∈ visits.flatMap Visit.readings, OfPlatform reading) :
    ((visits.flatMap Visit.started).map Timer.handle).Nodup := by
  have hrhythmic := rhythmic_of_visits hwalk hplatform
  rw [hrhythmic.handles]
  exact hrhythmic.ledger.increasing.imp UInt64.ne_of_lt

/-- What an import starts is started in the run. -/
theorem mem_started {visits : List Visit} {imported : Imported}
    (himported : imported ∈ visits.flatMap Visit.imports) {timer : Timer}
    (hstarted : timer ∈ imported.started) : timer ∈ visits.flatMap Visit.started := by
  obtain ⟨visit, hvisit, hmem⟩ := List.mem_flatMap.mp himported
  exact List.mem_flatMap.mpr ⟨visit, hvisit, List.mem_flatMap.mpr ⟨imported, hmem, hstarted⟩⟩

/-- Earliest first with bounded overtaking, over every run from boot by the clock of the
platform. -/
theorem earliest_first {visits : List Visit} {last : Process}
    (hwalk : Walk VisitStep .boot visits last)
    (hplatform : ∀ reading ∈ visits.flatMap Visit.readings, OfPlatform reading) :
    EarliestFirst visits := by
  have hturned : ∀ visit ∈ visits, visit.Turned := by
    intro visit hvisit
    obtain ⟨earlier, later, rfl⟩ := List.append_of_mem hvisit
    obtain ⟨before, after, hearlier, hstep, -⟩ := hwalk.split
    exact hstep.turned (listed_of_visits hearlier).1.sound
  refine ⟨fun visit hvisit => (hturned visit hvisit).picks, ?_, ?_⟩
  · intro visit hvisit event hevent
    obtain ⟨report, hreport, hsome⟩ := List.mem_flatMap.mp hevent
    exact (hturned visit hvisit).reports report (Option.mem_toList.mp hreport) event
      (Option.mem_toList.mp hsome)
  · rintro earlier window later rfl timer runtime hoverdue hundelivered
    obtain ⟨before, hearlier, hrest⟩ := (List.append_assoc _ _ _ ▸ hwalk).cut
    obtain ⟨after, hwindow, -⟩ := hrest.cut
    obtain ⟨hlisted, -⟩ := listed_of_visits hearlier
    have hpasses : ∀ visit ∈ window, visit.Passes timer := by
      intro visit hvisit
      refine ⟨fun reading hreading => ?_, fun reading hreading => ?_, fun hcancelled => ?_,
        hoverdue.stays visit hvisit, fun firing hfiring hhandle => ?_⟩
      · apply hplatform
        rw [List.flatMap_append, List.flatMap_append]
        apply List.mem_append.mpr
        left
        apply List.mem_append.mpr
        right
        exact List.mem_flatMap.mpr ⟨visit, hvisit, hreading⟩
      · exact hoverdue.due reading (List.mem_flatMap.mpr ⟨visit, hvisit, hreading⟩)
      · obtain ⟨imported, himported, hmem⟩ := List.mem_flatMap.mp hcancelled
        exact hoverdue.uncancelled (List.mem_flatMap.mpr ⟨imported,
          List.mem_flatMap.mpr ⟨visit, hvisit, himported⟩, hmem⟩)
      · exact hundelivered (List.mem_flatMap.mpr ⟨visit, hvisit,
          List.mem_map.mpr ⟨firing, hfiring, hhandle⟩⟩)
    have hruntime : before.runtime = some runtime := by
      obtain ⟨visit, rest, rfl, hsome⟩ := hoverdue.begins
      cases hwindow with
      | move hstep hlater => rwa [hstep.before_eq] at hsome
    have hwaits : before.Waits timer :=
      ⟨⟨_, hlisted⟩, runtime, hruntime, .inr hoverdue.present⟩
    have hearlierDue := passing_of_visits hoverdue.active hwindow hpasses hwaits
    obtain ⟨hnodup, hahead⟩ := drains_of_visits hoverdue.active hwindow hpasses hwaits
    refine ⟨hearlierDue, ?_, hnodup, ?_⟩
    · intro imported himported now hclock hdue started hstarted hdelivered
      obtain ⟨visit, hvisit, hhandle⟩ := List.mem_flatMap.mp hdelivered
      obtain ⟨firing, hfiring, hhandle⟩ := List.mem_map.mp hhandle
      have hwithin : firing ∈ window.flatMap Visit.firings :=
        List.mem_flatMap.mpr ⟨visit, hvisit, hfiring⟩
      obtain ⟨start, hstart, hsame, hnotBefore⟩ := started_of_firing hwalk hplatform
        (show firing ∈ (earlier ++ window ++ later).flatMap Visit.firings by
          rw [List.flatMap_append, List.flatMap_append]
          exact List.mem_append.mpr (.inl (List.mem_append.mpr (.inr hwithin))))
      -- A handle is issued once, so both are one start.
      have honce : start = started :=
        List.inj_on_of_nodup_map (nodup_started hwalk hplatform) hstart
          (mem_started himported hstarted) (hsame.trans hhandle)
      subst honce
      obtain ⟨visit', hvisit', hmem⟩ := List.mem_flatMap.mp himported
      obtain ⟨now', delayMs, hstarts⟩ :=
        ((hturned visit' hvisit').touches imported hmem).starts_of_mem hstarted
      obtain rfl := Option.some.inj (hclock.symm.trans hstarts.clock)
      have hdeadline := hstarts.deadline
      have hdelay := hstarts.delay.1
      have hpassed := hearlierDue firing hwithin
      rw [UInt64.le_iff_toNat_le] at hdue hnotBefore hpassed
      omega
    · have hlive : ∀ handle ∈ timer.handle :: window.flatMap Visit.delivered,
          runtime.Live handle := by
        rw [List.forall_mem_cons]
        constructor
        · obtain ⟨index, rfl⟩ := hoverdue.present
          exact ⟨index, hoverdue.active, rfl⟩
        · intro handle hhandle
          obtain ⟨runtime', hruntime', index, hactive, -, hsame⟩ := hahead handle hhandle
          obtain rfl := Option.some.inj (hruntime.symm.trans hruntime')
          exact ⟨index, hactive, hsame⟩
      exact (hlisted.sound runtime hruntime).confined.length_le
        (List.nodup_cons.mpr ⟨hundelivered, hnodup⟩) hlive

/-- Init starts a timer for 107 and every millisecond after it, and another for 108. Both are
polled late. -/
def crowdedCalls : List Call :=
  [.init { sampleEntry with imports := [(.timerStart 5 1, sampleSurroundings 102),
      (.timerStart 6 0, sampleSurroundings 102)] },
    .pollTimer true true (some 200) sampleAllocation (quietEntry 201),
    .pollTimer true true (some 300) sampleAllocation (quietEntry 301)]

/-- The fast timer passes the other once. -/
theorem earliest_first_crowdedCalls :
    (Process.visits crowdedCalls sampleProcess).flatMap Visit.reported = [⟨1, 93⟩, ⟨2, 0⟩] ∧
      EarliestFirst (sampleOpening :: Process.visits crowdedCalls sampleProcess) := by
  refine ⟨by decide, earliest_first
    (walk_sampleOpening.append (walk_visits crowdedCalls sampleProcess)) ?_⟩
  have hreadings : (sampleOpening :: Process.visits crowdedCalls sampleProcess).flatMap
      Visit.readings = [102, 102, 200, 300] := by decide
  rw [hreadings]
  simp only [List.forall_mem_cons, List.not_mem_nil, false_implies, implies_true, and_true]
  exact ⟨⟨102000, by decide⟩, ⟨102000, by decide⟩, ⟨200000, by decide⟩, ⟨300000, by decide⟩⟩

end Container
