/-
# The rhythm of periodic timers

Over every run of a process whose clock is that of the platform: a periodic timer that
is delivered late reports the periods it missed and goes on with the first beat that is
still to come, so that its deadline stays on the grid of its first one. What its events
account for is the number of beats since then, however late the polls were and however
often they were refused for lack of memory.
-/

import Mathlib.Algebra.GroupWithZero.Nat
import EspContainer.Runtime.Turns
import EspContainer.Timing.Beats

namespace Container

open Interaction Package Timing

/-! ## Delivering on the beat -/

namespace Firing

/-- The whole periods between the deadline and the delivery. -/
def missed (firing : Firing) : Nat :=
  Timing.missed firing.timer.deadlineMs.toNat firing.timer.periodMs.toNat firing.now.toNat

end Firing

/-- The time a due timer is late, in numbers. -/
theorem toNat_late {timer : Timer} {now : UInt64} (hdue : timer.deadlineMs ≤ now) :
    (now - timer.deadlineMs).toNat = now.toNat - timer.deadlineMs.toNat :=
  UInt64.toNat_sub_of_le _ _ hdue

theorem toNat_untilNext {timer : Timer} {now : UInt64} (hperiod : timer.periodMs ≠ 0)
    (hdue : timer.deadlineMs ≤ now) :
    (untilNext timer now).toNat = timer.periodMs.toNat -
      (now.toNat - timer.deadlineMs.toNat) % timer.periodMs.toNat := by
  have hpositive : 0 < timer.periodMs.toNat :=
    Nat.pos_of_ne_zero fun hzero => hperiod (UInt32.toNat_inj.mp hzero)
  have hrest : ((now - timer.deadlineMs) % timer.periodMs.toUInt64).toUInt32.toNat =
      (now.toNat - timer.deadlineMs.toNat) % timer.periodMs.toNat := by
    rw [UInt64.toNat_toUInt32, UInt64.toNat_mod, toNat_late hdue, UInt32.toNat_toUInt64]
    apply Nat.mod_eq_of_lt
    exact Nat.lt_trans (Nat.mod_lt _ hpositive) timer.periodMs.toNat_lt
  unfold untilNext
  rw [UInt32.toNat_sub_of_le, hrest]
  rw [UInt32.le_iff_toNat_le, hrest]
  exact Nat.le_of_lt (Nat.mod_lt _ hpositive)

/-- What is reported as skipped are the periods missed, up to the largest number there is. -/
theorem toNat_skippedPeriods {timer : Timer} {now : UInt64} (hdue : timer.deadlineMs ≤ now) :
    (skippedPeriods timer now).toNat =
      min (missed timer.deadlineMs.toNat timer.periodMs.toNat now.toNat) (2 ^ 32 - 1) := by
  have hmissed : ((now - timer.deadlineMs) / timer.periodMs.toUInt64).toNat =
      missed timer.deadlineMs.toNat timer.periodMs.toNat now.toNat := by
    rw [UInt64.toNat_div, toNat_late hdue, UInt32.toNat_toUInt64, missed]
  have hmax : (uint32Max : UInt64).toNat = 2 ^ 32 - 1 := rfl
  unfold skippedPeriods
  simp only
  split
  · next hlarge =>
    rw [gt_iff_lt, UInt64.lt_iff_toNat_lt, hmax, hmissed] at hlarge
    rw [Nat.min_eq_right (Nat.le_of_lt hlarge)]
    rfl
  · next hsmall =>
    rw [gt_iff_lt, UInt64.lt_iff_toNat_lt, hmax, hmissed, Nat.not_lt] at hsmall
    rw [UInt64.toNat_toUInt32, hmissed, Nat.min_eq_left hsmall]
    exact Nat.mod_eq_of_lt (by omega)

/-- A periodic timer that is due goes on with its next beat; by the clock of the platform that
beat is never out of range. -/
theorem rearm_periodic {timer : Timer} {now : UInt64} (hperiod : timer.periodMs ≠ 0)
    (hdue : timer.deadlineMs ≤ now) (hplatform : OfPlatform now) :
    (rearm timer now).1 = { timer with deadlineMs := (rearm timer now).1.deadlineMs } ∧
      (rearm timer now).1.deadlineMs.toNat =
        nextBeat timer.deadlineMs.toNat timer.periodMs.toNat now.toNat ∧
      (rearm timer now).2 = skippedPeriods timer now := by
  have hpositive : 0 < timer.periodMs.toNat :=
    Nat.pos_of_ne_zero fun hzero => hperiod (UInt32.toNat_inj.mp hzero)
  have huntil := toNat_untilNext hperiod hdue
  have hwide : (untilNext timer now).toUInt64.toNat = (untilNext timer now).toNat :=
    UInt32.toNat_toUInt64 _
  have hnow := hplatform.lt
  have hbits := (untilNext timer now).toNat_lt
  have hmax : (uint64Max : UInt64).toNat = 2 ^ 64 - 1 := rfl
  have hfits : ¬ now > uint64Max - (untilNext timer now).toUInt64 := by
    have hle : (untilNext timer now).toUInt64 ≤ uint64Max := by
      rw [UInt64.le_iff_toNat_le, hmax, hwide]
      omega
    rw [gt_iff_lt, UInt64.lt_iff_toNat_lt, UInt64.toNat_sub_of_le _ _ hle, hmax, hwide]
    omega
  unfold rearm
  rw [if_neg hperiod, if_neg hfits]
  refine ⟨rfl, ?_, rfl⟩
  rw [nextBeat_eq hpositive (UInt64.le_iff_toNat_le.mp hdue), ← huntil, UInt64.toNat_add, hwide]
  apply Nat.mod_eq_of_lt
  omega

/-- The least beat that is still to come, and the periods missed, of a periodic timer that
fires. -/
theorem Firing.next_periodic {firing : Firing} {runtime : Runtime} (hpicks : firing.Picks runtime)
    (hplatform : OfPlatform firing.now) (hperiod : firing.timer.periodMs ≠ 0) :
    firing.next = { firing.timer with deadlineMs := firing.next.deadlineMs } ∧
      firing.next.deadlineMs.toNat = nextBeat firing.timer.deadlineMs.toNat
        firing.timer.periodMs.toNat firing.now.toNat ∧
      firing.event.skippedPeriods.toNat = min firing.missed (2 ^ 32 - 1) := by
  obtain ⟨hsame, hnext, hskipped⟩ := rearm_periodic hperiod hpicks.due hplatform
  refine ⟨hsame, hnext, ?_⟩
  rw [Firing.event, hskipped]
  exact toNat_skippedPeriods hpicks.due

/-! ## What events account for -/

/-- The beats that the events of a handle account for: each for its own and for those that
it skipped. -/
def tally (events : List TimerEvent) (handle : UInt64) : Nat :=
  ((events.filter fun event => event.handle == handle).map fun event =>
    event.skippedPeriods.toNat + 1).sum

@[simp]
theorem tally_append (events events' : List TimerEvent) (handle : UInt64) :
    tally (events ++ events') handle = tally events handle + tally events' handle := by
  simp [tally]

theorem tally_of_ne {events : List TimerEvent} {handle : UInt64}
    (hother : ∀ event ∈ events, event.handle ≠ handle) : tally events handle = 0 := by
  have hnone : events.filter (fun event => event.handle == handle) = [] := by
    rw [List.filter_eq_nil_iff]
    intro event hmem
    simpa using hother event hmem
  rw [tally, hnone, List.map_nil, List.sum_nil]

theorem tally_singleton (event : TimerEvent) :
    tally [event] event.handle = event.skippedPeriods.toNat + 1 := by
  simp [tally]

/-- The events that fire in a visit. -/
def Visit.fired (visit : Visit) : List TimerEvent := visit.firings.map Firing.event

/-- The event that a visit reports to its caller. -/
def Visit.reported (visit : Visit) : List TimerEvent :=
  visit.report.toList.flatMap (·.timerEvent.toList)

/-- No delivery of a handle came more periods late than an event can report. -/
def Countable (past : List Visit) (handle : UInt64) : Prop :=
  ∀ firing ∈ past.flatMap Visit.firings, firing.timer.handle = handle →
    firing.missed ≤ 2 ^ 32 - 1

/-- A timer is on the grid of the deadline it was started with, by as many beats as its events
account for. -/
def OnBeat (past : List Visit) (timer : Timer) : Prop :=
  ∃ start ∈ past.flatMap Visit.started, start.handle = timer.handle ∧
    start.periodMs = timer.periodMs ∧ ∃ beats,
      timer.deadlineMs.toNat = start.deadlineMs.toNat + beats * timer.periodMs.toNat ∧
      (Countable past timer.handle → beats = tally (past.flatMap Visit.fired) timer.handle)

/-- All the events of a timer that fired were reported. -/
def Told (past : List Visit) (timer : Timer) : Prop :=
  tally (past.flatMap Visit.reported) timer.handle = tally (past.flatMap Visit.fired) timer.handle

/-! ## One more visit -/

/-- What is known of the timers after a run. -/
structure Rhythmic (past : List Visit) (process : Process) : Prop where
  listed : process.Listed (past.foldl currentHandles [])
  ledger : Ledger (past.flatMap Visit.issued) process.nextTimerHandle
  handles : (past.flatMap Visit.started).map Timer.handle = past.flatMap Visit.issued
  known : ∀ firing ∈ past.flatMap Visit.firings,
    firing.timer.handle ∈ (past.flatMap Visit.started).map Timer.handle
  beats : ∀ runtime, process.runtime = some runtime → runtime.Every (OnBeat past)
  told : ∀ event ∈ past.flatMap Visit.reported, event ∈ past.flatMap Visit.fired
  tallies : ∀ runtime, process.runtime = some runtime → runtime.state.final = false →
    runtime.Every (Told past)

theorem OnBeat.known {past : List Visit} {timer : Timer} (hbeat : OnBeat past timer) :
    timer.handle ∈ (past.flatMap Visit.started).map Timer.handle := by
  obtain ⟨start, hstart, hhandle, -⟩ := hbeat
  exact List.mem_map.mpr ⟨start, hstart, hhandle⟩

namespace Rhythmic

variable {past : List Visit} {before after : Process} {visit : Visit}

theorem handles_next (hrhythmic : Rhythmic past before) (hturned : visit.Turned) :
    ((past ++ [visit]).flatMap Visit.started).map Timer.handle =
      (past ++ [visit]).flatMap Visit.issued := by
  rw [List.flatMap_append, List.flatMap_append, List.flatMap_singleton, List.flatMap_singleton,
    List.map_append, hrhythmic.handles, hturned.handles]

/-- What fires was started before the visit. -/
theorem known_firing (hrhythmic : Rhythmic past before) (hturned : visit.Turned)
    (hbefore : visit.before = before) {firing : Firing} (hfiring : firing ∈ visit.firings) :
    OnBeat past firing.timer := by
  obtain ⟨runtime, hruntime, hpicks⟩ := hturned.picks firing hfiring
  rw [hbefore] at hruntime
  have hactive := hpicks.active
  rw [hpicks.timer] at hactive ⊢
  exact hrhythmic.beats runtime hruntime firing.slot hactive

theorem known_next (hrhythmic : Rhythmic past before) (hturned : visit.Turned)
    (hbefore : visit.before = before) : ∀ firing ∈ (past ++ [visit]).flatMap Visit.firings,
    firing.timer.handle ∈ (past.flatMap Visit.started).map Timer.handle := by
  intro firing hfiring
  rw [List.flatMap_append, List.flatMap_singleton, List.mem_append] at hfiring
  rcases hfiring with hfiring | hfiring
  · exact hrhythmic.known firing hfiring
  · exact (hrhythmic.known_firing hturned hbefore hfiring).known

/-- A timer that is started has a handle of which nothing was heard before. -/
theorem fresh (hrhythmic : Rhythmic past before) (hturned : visit.Turned)
    (hbefore : visit.before = before)
    (hledger : Ledger ((past ++ [visit]).flatMap Visit.issued) after.nextTimerHandle)
    {timer : Timer} (hstarted : timer ∈ visit.started) :
    ∀ firing ∈ (past ++ [visit]).flatMap Visit.firings, firing.timer.handle ≠ timer.handle := by
  intro firing hfiring hsame
  have hold := hrhythmic.known_next hturned hbefore firing hfiring
  have hnew : timer.handle ∈ visit.issued := by
    rw [← hturned.handles]
    exact List.mem_map_of_mem hstarted
  rw [hrhythmic.handles, hsame] at hold
  have hincreasing := hledger.increasing
  rw [List.flatMap_append, List.flatMap_singleton, List.pairwise_append] at hincreasing
  exact UInt64.lt_irrefl _ (hincreasing.2.2 _ hold _ hnew)

/-- What is known of all firings is known of the earlier ones. -/
theorem countable_of_next {handle : UInt64} (hcountable : Countable (past ++ [visit]) handle) :
    Countable past handle := by
  intro firing hfiring
  apply hcountable firing
  rw [List.flatMap_append]
  exact List.mem_append.mpr (.inl hfiring)

/-- A timer that does not fire keeps its beat. -/
theorem kept {timer : Timer} (hbeat : OnBeat past timer)
    (hquiet : ∀ firing ∈ visit.firings, firing.timer.handle ≠ timer.handle) :
    OnBeat (past ++ [visit]) timer := by
  obtain ⟨start, hstart, hhandle, hperiod, beats, hdeadline, htally⟩ := hbeat
  refine ⟨start, ?_, hhandle, hperiod, beats, hdeadline, fun hcountable => ?_⟩
  · rw [List.flatMap_append]
    exact List.mem_append.mpr (.inl hstart)
  · have hnone : tally visit.fired timer.handle = 0 := by
      apply tally_of_ne
      intro event hevent
      obtain ⟨firing, hfiring, rfl⟩ := List.mem_map.mp hevent
      exact hquiet firing hfiring
    rw [List.flatMap_append, List.flatMap_singleton, tally_append, hnone, Nat.add_zero]
    exact htally (countable_of_next hcountable)

/-- A timer that fires goes on with its next beat. -/
theorem fired (hturned : visit.Turned) {firing : Firing} (hfiring : firing ∈ visit.firings)
    (hplatform : OfPlatform firing.now) (hbeat : OnBeat past firing.timer)
    (hactive : firing.next.active = true) : OnBeat (past ++ [visit]) firing.next := by
  obtain ⟨runtime, -, hpicks⟩ := hturned.picks firing hfiring
  obtain ⟨hsame, hnext, hskipped⟩ :=
    firing.next_periodic hpicks hplatform (rearm_active hactive).2
  obtain ⟨start, hstart, hhandle, hperiod, beats, hdeadline, htally⟩ := hbeat
  have hhandle' : firing.next.handle = firing.timer.handle := by rw [hsame]
  have hperiod' : firing.next.periodMs = firing.timer.periodMs := by rw [hsame]
  refine ⟨start, ?_, hhandle.trans hhandle'.symm, hperiod.trans hperiod'.symm,
    beats + (firing.missed + 1), ?_, fun hcountable => ?_⟩
  · rw [List.flatMap_append]
    exact List.mem_append.mpr (.inl hstart)
  · rw [hnext, nextBeat, hperiod', Nat.add_mul beats, ← Nat.add_assoc, ← hdeadline]
    rfl
  · rw [hhandle'] at hcountable ⊢
    have hmissed : firing.missed ≤ 2 ^ 32 - 1 := by
      apply hcountable firing _ rfl
      rw [List.flatMap_append, List.flatMap_singleton]
      exact List.mem_append.mpr (.inr hfiring)
    have hone : visit.fired = [firing.event] := by
      rw [Visit.fired, hturned.single firing hfiring, List.map_singleton]
    have hcount : tally [firing.event] firing.timer.handle = firing.missed + 1 := by
      rw [show firing.timer.handle = firing.event.handle from rfl, tally_singleton, hskipped,
        Nat.min_eq_left hmissed]
    rw [List.flatMap_append, List.flatMap_singleton, tally_append, hone, hcount,
      htally (countable_of_next hcountable)]

/-- No event had its handle. -/
theorem unheard (hrhythmic : Rhythmic past before) (hturned : visit.Turned)
    (hbefore : visit.before = before)
    (hledger : Ledger ((past ++ [visit]).flatMap Visit.issued) after.nextTimerHandle)
    {timer : Timer} (hstarted : timer ∈ visit.started) :
    ∀ event ∈ (past ++ [visit]).flatMap Visit.fired, event.handle ≠ timer.handle := by
  intro event hevent
  obtain ⟨visit', hvisit, hevent⟩ := List.mem_flatMap.mp hevent
  obtain ⟨firing, hfiring, rfl⟩ := List.mem_map.mp hevent
  exact hrhythmic.fresh hturned hbefore hledger hstarted firing
    (List.mem_flatMap.mpr ⟨visit', hvisit, hfiring⟩)

/-- A timer that is started is on its first beat. -/
theorem started (hrhythmic : Rhythmic past before) (hturned : visit.Turned)
    (hbefore : visit.before = before)
    (hledger : Ledger ((past ++ [visit]).flatMap Visit.issued) after.nextTimerHandle)
    {timer : Timer} (hstarted : timer ∈ visit.started) : OnBeat (past ++ [visit]) timer := by
  refine ⟨timer, ?_, rfl, rfl, 0, ?_, fun _ => ?_⟩
  · rw [List.flatMap_append, List.flatMap_singleton]
    exact List.mem_append.mpr (.inr hstarted)
  · rw [Nat.zero_mul, Nat.add_zero]
  · exact (tally_of_ne (hrhythmic.unheard hturned hbefore hledger hstarted)).symm

/-- Every timer is on its beat at every moment of the next visit. -/
theorem moments (hrhythmic : Rhythmic past before) (hstep : VisitStep before visit after)
    (hplatform : ∀ reading ∈ visit.readings, OfPlatform reading) :
    ∀ runtime ∈ visit.moments, runtime.Every (OnBeat (past ++ [visit])) := by
  have hturned := hstep.turned hrhythmic.listed.sound
  have hbefore := hstep.before_eq
  have hledger := hstep.ledger hrhythmic.listed.sound hrhythmic.ledger
  rw [← List.flatMap_singleton Visit.issued visit, ← List.flatMap_append] at hledger
  have hold : ∀ runtime, visit.before.runtime = some runtime → runtime.Every (OnBeat past) := by
    rw [hbefore]
    exact hrhythmic.beats
  have hkept : ∀ timer, OnBeat past timer →
      (∀ firing ∈ visit.firings, firing.timer.handle ≠ timer.handle) →
      OnBeat (past ++ [visit]) timer := by
    intro timer hbeat hquiet
    exact kept hbeat hquiet
  have hfired : ∀ firing ∈ visit.firings, OnBeat past firing.timer → firing.next.active = true →
      OnBeat (past ++ [visit]) firing.next := by
    intro firing hfiring hbeat hactive
    exact fired hturned hfiring (hplatform _ (hturned.timely firing hfiring)) hbeat hactive
  have hstarted : ∀ timer ∈ visit.started, OnBeat (past ++ [visit]) timer := by
    intro timer hstarted
    exact hrhythmic.started hturned hbefore hledger hstarted
  exact hturned.every (hstep.disciplined hrhythmic.listed).orderly hold hkept hfired hstarted

/-- What is reported has fired. -/
theorem told_next (hrhythmic : Rhythmic past before) (hturned : visit.Turned) :
    ∀ event ∈ (past ++ [visit]).flatMap Visit.reported,
      event ∈ (past ++ [visit]).flatMap Visit.fired := by
  intro event hevent
  rw [List.flatMap_append, List.flatMap_singleton, List.mem_append] at hevent ⊢
  rcases hevent with hevent | hevent
  · exact .inl (hrhythmic.told event hevent)
  · right
    obtain ⟨report, hreport, hsome⟩ := List.mem_flatMap.mp hevent
    obtain ⟨firing, hfiring, rfl⟩ := hturned.reports report (Option.mem_toList.mp hreport) event
      (Option.mem_toList.mp hsome)
    exact List.mem_map_of_mem hfiring

/-- In an instance that has not ended, all that fired was reported. -/
theorem tallies_next (hrhythmic : Rhythmic past before) (hstep : VisitStep before visit after)
    {runtime : Runtime} (hruntime : visit.after.runtime = some runtime)
    (hlives : runtime.state.final = false) : runtime.Every (Told (past ++ [visit])) := by
  have hturned := hstep.turned hrhythmic.listed.sound
  have hbefore := hstep.before_eq
  have hledger := hstep.ledger hrhythmic.listed.sound hrhythmic.ledger
  rw [← List.flatMap_singleton Visit.issued visit, ← List.flatMap_append] at hledger
  have hsame : visit.reported = visit.fired := by
    apply hturned.reported_eq
    intro runtime' hruntime'
    obtain rfl := Option.some.inj (hruntime.symm.trans hruntime')
    exact hlives
  have hold : ∀ runtime', visit.before.runtime = some runtime' → runtime'.Every (Told past) := by
    intro runtime' hruntime'
    cases hstate : runtime'.state.final with
    | true =>
        have hended := hturned.final runtime' hruntime' hstate runtime hruntime
        rw [hlives] at hended
        cases hended
    | false =>
        rw [hbefore] at hruntime'
        exact hrhythmic.tallies runtime' hruntime' hstate
  have hnext : ∀ timer, Told past timer → Told (past ++ [visit]) timer := by
    intro timer htold
    rw [Told, List.flatMap_append, List.flatMap_append, List.flatMap_singleton,
      List.flatMap_singleton, tally_append, tally_append, htold, hsame]
  have hkept : ∀ timer, Told past timer →
      (∀ firing ∈ visit.firings, firing.timer.handle ≠ timer.handle) →
      Told (past ++ [visit]) timer := fun timer htold _ => hnext timer htold
  have hfired : ∀ firing ∈ visit.firings, Told past firing.timer → firing.next.active = true →
      Told (past ++ [visit]) firing.next := by
    intro firing _ htold _
    have hhandle : firing.next.handle = firing.timer.handle := rearm_handle _ _
    rw [Told, hhandle]
    exact hnext firing.timer htold
  have hstarted : ∀ timer ∈ visit.started, Told (past ++ [visit]) timer := by
    intro timer hstarted
    have hunheard := hrhythmic.unheard hturned hbefore hledger hstarted
    rw [Told, tally_of_ne hunheard, tally_of_ne]
    exact fun event hevent => hunheard event (hrhythmic.told_next hturned event hevent)
  exact hturned.every (hstep.disciplined hrhythmic.listed).orderly hold hkept hfired hstarted runtime
    (hturned.ends runtime hruntime)

/-- The next visit keeps all of it. -/
theorem next (hrhythmic : Rhythmic past before) (hstep : VisitStep before visit after)
    (hplatform : ∀ reading ∈ visit.readings, OfPlatform reading) :
    Rhythmic (past ++ [visit]) after := by
  have hturned := hstep.turned hrhythmic.listed.sound
  refine ⟨?_, ?_, hrhythmic.handles_next hturned, ?_, ?_, hrhythmic.told_next hturned, ?_⟩
  · rw [List.foldl_append, List.foldl_cons, List.foldl_nil, ← hstep.after_eq]
    exact (hstep.disciplined hrhythmic.listed).listed
  · rw [List.flatMap_append, List.flatMap_singleton]
    exact hstep.ledger hrhythmic.listed.sound hrhythmic.ledger
  · intro firing hfiring
    rw [List.flatMap_append, List.map_append]
    apply List.mem_append.mpr
    exact .inl (hrhythmic.known_next hturned hstep.before_eq firing hfiring)
  · intro runtime hruntime
    rw [← hstep.after_eq] at hruntime
    exact hrhythmic.moments hstep hplatform runtime (hturned.ends runtime hruntime)
  · intro runtime hruntime hlives
    rw [← hstep.after_eq] at hruntime
    exact hrhythmic.tallies_next hstep hruntime hlives

end Rhythmic

theorem rhythmic_boot : Rhythmic [] .boot :=
  ⟨listed_boot, ⟨.nil, by simp⟩, rfl, by simp, nofun, by simp, nofun⟩

/-- What is known after every run from boot whose clock is that of the platform. -/
theorem rhythmic_of_visits {visits : List Visit} {last : Process}
    (hwalk : Walk VisitStep .boot visits last)
    (hplatform : ∀ reading ∈ visits.flatMap Visit.readings, OfPlatform reading) :
    Rhythmic visits last := by
  have hvisits : ∀ visit ∈ visits, ∀ reading ∈ visit.readings, OfPlatform reading := by
    intro visit hvisit reading hreading
    exact hplatform reading (List.mem_flatMap.mpr ⟨visit, hvisit, hreading⟩)
  have hrestricted := hwalk.restrict hvisits
  have hstep : ∀ past before visit after, Rhythmic past before →
      (VisitStep before visit after ∧ ∀ reading ∈ visit.readings, OfPlatform reading) →
      Rhythmic (past ++ [visit]) after :=
    fun past before visit after hrhythmic hvisit => hrhythmic.next hvisit.1 hvisit.2
  exact hrestricted.preservesAlong hstep rhythmic_boot

/-! ## The whole run -/

/-- The delivery of a periodic timer in a visit: what it reports, and how the timer goes on
unless it is cancelled. -/
structure Firing.KeepsBeat (firing : Firing) (visit : Visit) : Prop where
  active : firing.timer.active = true
  due : firing.timer.deadlineMs ≤ firing.now
  skipped : firing.event.skippedPeriods.toNat =
    min ((firing.now.toNat - firing.timer.deadlineMs.toNat) / firing.timer.periodMs.toNat)
      (2 ^ 32 - 1)
  next : firing.next = { firing.timer with deadlineMs := firing.next.deadlineMs }
  least : IsLeast {later | firing.now.toNat < later ∧
      ∃ count, later = firing.timer.deadlineMs.toNat + count * firing.timer.periodMs.toNat}
    firing.next.deadlineMs.toNat
  entered : ∀ entered, visit.entered = some entered →
    entered.event = timerEventBytes firing.event.handle firing.event.skippedPeriods ∧
      entered.host.runtime.timers firing.slot = firing.next
  reported : ∀ report, visit.report = some report → report.result = .ok () →
    report.timerEvent = some firing.event
  kept : ∀ runtime ∈ visit.moments, ∀ index, (runtime.timers index).active = true →
    (runtime.timers index).handle = firing.timer.handle → runtime.timers index = firing.next

/-- The rhythm of the periodic timers of a run. -/
structure KeepsRhythm (visits : List Visit) (last : Process) : Prop where
  /-- Each timer is started once, so that it has one first deadline. -/
  starts : ((visits.flatMap Visit.started).map Timer.handle).Pairwise (· < ·)
  /-- Each delivery of a periodic timer keeps its beat. -/
  deliveries : ∀ visit ∈ visits, ∀ firing ∈ visit.firings, firing.timer.periodMs ≠ 0 →
    firing.KeepsBeat visit
  /-- A poll that is refused for lack of memory leaves everything as it was. -/
  refusals : ∀ visit ∈ visits, visit.result = .error .noMemory → visit.after = visit.before
  /-- At every moment every timer is on the grid of its first deadline, by the beats that its
  events account for. -/
  grid : ∀ earlier visit later, visits = earlier ++ visit :: later →
    ∀ runtime ∈ visit.moments, runtime.Every (OnBeat (earlier ++ [visit]))
  /-- Unless the instance has ended, these are the events that were reported. -/
  reported : ∀ runtime, last.runtime = some runtime → runtime.state.final = false →
    runtime.Every (Told visits)

/-- A visit that is refused for lack of memory changes nothing. -/
theorem VisitStep.unchanged {before after : Process} {visit : Visit} (hsound : before.Sound)
    (hstep : VisitStep before visit after) (hrefused : visit.result = .error .noMemory) :
    visit.after = visit.before := by
  cases hstep with
  | opened hopens => cases hrefused
  | notOpened hopens => rfl
  | called call =>
      cases hruntime : before.runtime with
      | none => rw [Process.call_none hruntime]
      | some runtime =>
          rw [Process.call_some hruntime] at hrefused ⊢
          have houtcome := outcome_perform call
            (show (before.host runtime).runtime.Sound from hsound runtime hruntime)
          have hhost := houtcome.unchanged hrefused rfl
          simp only [hhost]
          rw [Process.host, ← hruntime]
  | closed =>
      cases hruntime : before.runtime with
      | none => rw [Process.close_none hruntime]
      | some runtime =>
          rw [Process.close_idle hruntime (hsound runtime hruntime).idle] at hrefused
          cases hrefused

/-- Each delivery of a periodic timer keeps its beat. -/
theorem Rhythmic.keepsBeat {past : List Visit} {before after : Process} {visit : Visit}
    (hrhythmic : Rhythmic past before) (hstep : VisitStep before visit after)
    (hplatform : ∀ reading ∈ visit.readings, OfPlatform reading) {firing : Firing}
    (hfiring : firing ∈ visit.firings) (hperiod : firing.timer.periodMs ≠ 0) :
    firing.KeepsBeat visit := by
  have hturned := hstep.turned hrhythmic.listed.sound
  have hbefore := hstep.before_eq
  have hledger := hstep.ledger hrhythmic.listed.sound hrhythmic.ledger
  rw [← List.flatMap_singleton Visit.issued visit, ← List.flatMap_append] at hledger
  obtain ⟨runtime, hruntime, hpicks⟩ := hturned.picks firing hfiring
  obtain ⟨hsame, hnext, hskipped⟩ :=
    firing.next_periodic hpicks (hplatform _ (hturned.timely firing hfiring)) hperiod
  obtain ⟨report, hreport, -, hserved⟩ := hturned.served firing hfiring
  have hpositive : 0 < firing.timer.periodMs.toNat :=
    Nat.pos_of_ne_zero fun hzero => hperiod (UInt32.toNat_inj.mp hzero)
  refine ⟨hpicks.active, hpicks.due, hskipped, hsame, ?_, ?_, ?_, ?_⟩
  · rw [hnext]
    exact isLeast_nextBeat hpositive (UInt64.le_iff_toNat_le.mp hpicks.due)
  · intro entered hentered
    rw [Visit.entered, hreport, Option.bind_some] at hentered
    exact (hserved.entered entered hentered).2
  · intro report' hreport' hok
    obtain rfl := Option.some.inj (hreport.symm.trans hreport')
    exact hserved.reported hok
  · intro moment hmoment index hactive hhandle
    obtain ⟨runtime', hruntime', horigin⟩ := hturned.origin moment hmoment index hactive
    obtain rfl := Option.some.inj (hruntime.symm.trans hruntime')
    cases horigin with
    | kept hkept hactive' hquiet =>
        -- Another slot has another handle.
        have hactive'' := hpicks.active
        rw [hkept, hpicks.timer] at hhandle
        rw [hpicks.timer] at hactive''
        exact absurd ((((hstep.disciplined hrhythmic.listed).orderly.before runtime
          hruntime).distinct _ _ hactive' hactive'' hhandle).symm) (hquiet firing hfiring)
    | @fired other hother hslot htimer =>
        rw [hturned.single firing hfiring, List.mem_singleton] at hother
        rw [htimer, hother]
    | started hstarted =>
        have hfiring' : firing ∈ (past ++ [visit]).flatMap Visit.firings := by
          rw [List.flatMap_append, List.flatMap_singleton]
          exact List.mem_append.mpr (.inr hfiring)
        exact absurd hhandle.symm
          (hrhythmic.fresh hturned hbefore hledger hstarted firing hfiring')

/-- Periodic timers keep their rhythm, over every run from boot by the clock of the platform. -/
theorem periodic_rhythm {visits : List Visit} {last : Process}
    (hwalk : Walk VisitStep .boot visits last)
    (hplatform : ∀ reading ∈ visits.flatMap Visit.readings, OfPlatform reading) :
    KeepsRhythm visits last := by
  have hlast := rhythmic_of_visits hwalk hplatform
  have hmoment : ∀ earlier visit later, visits = earlier ++ visit :: later →
      ∃ before after, Rhythmic earlier before ∧ VisitStep before visit after ∧
        ∀ reading ∈ visit.readings, OfPlatform reading := by
    rintro earlier visit later rfl
    obtain ⟨before, after, hearlier, hstep, -⟩ := hwalk.split
    rw [List.flatMap_append, List.flatMap_cons] at hplatform
    refine ⟨before, after, rhythmic_of_visits hearlier fun reading hreading => ?_, hstep,
      fun reading hreading => ?_⟩
    · exact hplatform reading (List.mem_append.mpr (.inl hreading))
    · exact hplatform reading
        (List.mem_append.mpr (.inr (List.mem_append.mpr (.inl hreading))))
  refine ⟨?_, ?_, ?_, ?_, hlast.tallies⟩
  · rw [hlast.handles]
    exact hlast.ledger.increasing
  · intro visit hvisit firing hfiring hperiod
    obtain ⟨earlier, later, hsplit⟩ := List.append_of_mem hvisit
    obtain ⟨before, after, hrhythmic, hstep, hreadings⟩ := hmoment earlier visit later hsplit
    exact hrhythmic.keepsBeat hstep hreadings hfiring hperiod
  · intro visit hvisit hrefused
    obtain ⟨earlier, later, hsplit⟩ := List.append_of_mem hvisit
    obtain ⟨before, after, hrhythmic, hstep, -⟩ := hmoment earlier visit later hsplit
    exact hstep.unchanged hrhythmic.listed.sound hrefused
  · intro earlier visit later hsplit
    obtain ⟨before, after, hrhythmic, hstep, hreadings⟩ := hmoment earlier visit later hsplit
    exact hrhythmic.moments hstep hreadings

/-- An entry that makes no imports. -/
def quietEntry (now : UInt64) : Entry := ⟨some now, [], ⟨true, none, 0⟩, some now⟩

/-- Init starts a timer at 102 for 107 and every 10 from then on. It is polled at 108, for lack
of memory in vain at 130, and again at 140. -/
def periodicCalls : List Call :=
  [.init { sampleEntry with imports := [(.timerStart 5 10, sampleSurroundings 102)] },
    .pollTimer true true (some 108) sampleAllocation (quietEntry 109),
    .pollTimer true true (some 130) ⟨0, true⟩ (quietEntry 131),
    .pollTimer true true (some 140) sampleAllocation (quietEntry 141)]

theorem readings_periodicCalls :
    ∀ reading ∈ (sampleOpening :: Process.visits periodicCalls sampleProcess).flatMap Visit.readings,
      OfPlatform reading := by
  have hreadings : (sampleOpening :: Process.visits periodicCalls sampleProcess).flatMap
      Visit.readings = [102, 108, 130, 140] := by decide
  rw [hreadings]
  simp only [List.forall_mem_cons, List.not_mem_nil, false_implies, implies_true, and_true]
  exact ⟨⟨102000, by decide⟩, ⟨108000, by decide⟩, ⟨130000, by decide⟩, ⟨140000, by decide⟩⟩

/-- The second event skips the periods at 127 and 137. -/
theorem periodic_rhythm_periodicCalls :
    (Process.visits periodicCalls sampleProcess).flatMap Visit.reported = [⟨1, 0⟩, ⟨1, 2⟩] ∧
      KeepsRhythm (sampleOpening :: Process.visits periodicCalls sampleProcess)
        (Process.afterCalls periodicCalls sampleProcess) :=
  ⟨by decide, periodic_rhythm (walk_sampleOpening.append (walk_visits periodicCalls sampleProcess))
    readings_periodicCalls⟩

end Container
