/-
# Sleeping until the next timer

An owner asks for the next deadline, sleeps until then and polls. Both calls scan the
table, one for what is active and one for what is due, and both take `UINT64_MAX` for
none. They agree because no deadline ever comes near that number: timers are started and
go on within a day of a reading of the clock.
-/

import EspContainer.Runtime.Rhythm

namespace Container

open Interaction Package

/-! ## Deadlines are in range -/

/-- The period is at most a day, and the deadline at most a day after the end of the clock. -/
structure Timer.InRange (timer : Timer) : Prop where
  period : timer.periodMs.toNat ≤ timerMaxIntervalMs.toNat
  deadline : timer.deadlineMs.toNat ≤ platformEndMs + timerMaxIntervalMs.toNat

theorem Timer.InRange.lt {timer : Timer} (hrange : timer.InRange) :
    timer.deadlineMs < uint64Max := by
  have hend : platformEndMs + timerMaxIntervalMs.toNat < (uint64Max : UInt64).toNat := by decide
  exact UInt64.lt_iff_toNat_lt.mpr (Nat.lt_of_le_of_lt hrange.deadline hend)

/-- A visit keeps the timers in range. -/
theorem VisitStep.inRange {before after : Process} {visit : Visit} {handles : List UInt64}
    (hlisted : before.Listed handles) (hstep : VisitStep before visit after)
    (hplatform : ∀ reading ∈ visit.readings, OfPlatform reading)
    (hbefore : ∀ runtime, before.runtime = some runtime → runtime.Every Timer.InRange) :
    ∀ runtime, after.runtime = some runtime → runtime.Every Timer.InRange := by
  have hturned := hstep.turned hlisted.sound
  rw [← hstep.before_eq] at hbefore
  rw [← hstep.after_eq]
  have hkept : ∀ timer : Timer, timer.InRange →
      (∀ firing ∈ visit.firings, firing.timer.handle ≠ timer.handle) → timer.InRange :=
    fun _ hrange _ => hrange
  have hfired : ∀ firing ∈ visit.firings, firing.timer.InRange → firing.next.active = true →
      firing.next.InRange := by
    intro firing hfiring hrange hactive
    obtain ⟨runtime, -, hpicks⟩ := hturned.picks firing hfiring
    have hnow := hplatform _ (hturned.timely firing hfiring)
    obtain ⟨hsame, hnext, -⟩ := firing.next_periodic hpicks hnow (rearm_active hactive).2
    have hperiod : firing.next.periodMs = firing.timer.periodMs := by rw [hsame]
    refine ⟨?_, ?_⟩
    · rw [hperiod]
      exact hrange.period
    · have hpositive : 0 < firing.timer.periodMs.toNat :=
        Nat.pos_of_ne_zero fun hzero => (rearm_active hactive).2 (UInt32.toNat_inj.mp hzero)
      have hwithin := Timing.nextBeat_le hpositive (UInt64.le_iff_toNat_le.mp hpicks.due)
      rw [hnext]
      exact le_trans hwithin (Nat.add_le_add hnow.le hrange.period)
  have hstarted : ∀ timer ∈ visit.started, timer.InRange := by
    intro timer hmem
    obtain ⟨imported, -, now, hreading, delayMs, hstarts⟩ := hturned.starts hmem
    refine ⟨hstarts.period, ?_⟩
    rw [hstarts.deadline]
    exact Nat.add_le_add (hplatform now hreading).le hstarts.delay.2
  intro runtime hruntime
  exact hturned.every (hstep.disciplined hlisted).orderly hbefore hkept hfired hstarted runtime
    (hturned.ends runtime hruntime)

/-- After every run by the clock of the platform the timers are in range. -/
theorem inRange_of_visits {visits : List Visit} {last : Process}
    (hwalk : Walk VisitStep .boot visits last)
    (hplatform : ∀ reading ∈ visits.flatMap Visit.readings, OfPlatform reading) :
    last.Sound ∧ ∀ runtime, last.runtime = some runtime → runtime.Every Timer.InRange := by
  have hvisits : ∀ visit ∈ visits, ∀ reading ∈ visit.readings, OfPlatform reading := by
    intro visit hvisit reading hreading
    exact hplatform reading (List.mem_flatMap.mpr ⟨visit, hvisit, hreading⟩)
  have hstep : ∀ before visit after,
      ((∃ handles, before.Listed handles) ∧
        ∀ runtime, before.runtime = some runtime → runtime.Every Timer.InRange) →
      (VisitStep before visit after ∧ ∀ reading ∈ visit.readings, OfPlatform reading) →
      (∃ handles, after.Listed handles) ∧
        ∀ runtime, after.runtime = some runtime → runtime.Every Timer.InRange := by
    rintro before visit after ⟨⟨handles, hlisted⟩, hbefore⟩ ⟨hvisit, hreadings⟩
    refine ⟨⟨currentHandles handles visit, ?_⟩, hvisit.inRange hlisted hreadings hbefore⟩
    rw [← hvisit.after_eq]
    exact (hvisit.disciplined hlisted).listed
  obtain ⟨⟨handles, hlisted⟩, hrange⟩ :=
    (hwalk.restrict hvisits).preserves hstep ⟨⟨[], listed_boot⟩, nofun⟩
  exact ⟨hlisted.sound, hrange⟩

/-! ## The two scans -/

/-- The next deadline of a table whose timers are in range: that of an active timer, with none
earlier, or the sentinel if no timer is active. -/
theorem earliest_deadline {runtime : Runtime} (hconfined : runtime.Confined)
    (hrange : runtime.Every Timer.InRange) :
    ((earliestTimer runtime fun _ => true).2 = uint64Max →
        ∀ index, (runtime.timers index).active = false) ∧
      ((earliestTimer runtime fun _ => true).2 ≠ uint64Max →
        ∃ slot, (runtime.timers slot).active = true ∧
          (earliestTimer runtime fun _ => true).2 = (runtime.timers slot).deadlineMs ∧
          ∀ index, (runtime.timers index).active = true →
            (runtime.timers slot).deadlineMs ≤ (runtime.timers index).deadlineMs) := by
  have hearliest := earliest_earliestTimer runtime fun _ => true
  have hleast : ∀ index, (runtime.timers index).active = true →
      (earliestTimer runtime fun _ => true).2 ≤ (runtime.timers index).deadlineMs :=
    fun index hactive =>
      hearliest.least index (List.mem_finRange index) (hconfined.hasSlot hactive) hactive rfl
  constructor
  · intro hsentinel index
    rw [← Bool.not_eq_true]
    intro hactive
    have hbelow := hleast index hactive
    rw [hsentinel] at hbelow
    exact absurd (UInt64.lt_of_le_of_lt hbelow (hrange index hactive).lt) (UInt64.lt_irrefl _)
  · intro hfound
    cases hslot : (earliestTimer runtime fun _ => true).1 with
    | none => exact absurd (hearliest.none hslot) hfound
    | some slot =>
        obtain ⟨-, hactive, -, hdeadline⟩ := hearliest.some slot hslot
        refine ⟨slot, hactive, hdeadline, ?_⟩
        rw [← hdeadline]
        exact hleast

/-- What a poll selects is due, and it selects something if anything is due. -/
theorem selects_none_iff {runtime : Runtime} (hconfined : runtime.Confined)
    (hrange : runtime.Every Timer.InRange) (hstate : runtime.state = .running) {now : UInt64}
    (allocation : Allocation) (entry : Entry) :
    Call.selects runtime (.pollTimer true true (some now) allocation entry) = none ↔
      ∀ index, (runtime.timers index).active = true → now < (runtime.timers index).deadlineMs := by
  have hselects : Call.selects runtime (.pollTimer true true (some now) allocation entry) =
      (earliestTimer runtime fun timer => timer.deadlineMs ≤ now).1 := if_pos hstate
  rw [hselects]
  have hearliest := earliest_earliestTimer runtime fun timer => timer.deadlineMs ≤ now
  constructor
  · intro hnone index hactive
    rw [← UInt64.not_le]
    intro hdue
    have hbelow := hearliest.least index (List.mem_finRange index) (hconfined.hasSlot hactive)
      hactive (decide_eq_true hdue)
    rw [hearliest.none hnone] at hbelow
    exact absurd (UInt64.lt_of_le_of_lt hbelow (hrange index hactive).lt) (UInt64.lt_irrefl _)
  · intro hlater
    rw [Option.eq_none_iff_forall_not_mem]
    intro slot hslot
    obtain ⟨-, hactive, hdue⟩ := earliestTimer_spec hslot
    exact absurd (hlater slot hactive) (UInt64.not_lt.mpr (of_decide_eq_true hdue))

/-! ## The two calls -/

/-- Asking for the next deadline, of a running instance that is idle. -/
theorem perform_nextTimerDeadline {host : Host} (hidle : host.runtime.callActive = false)
    (hstate : host.runtime.state = .running) :
    perform (.nextTimerDeadline true) host =
      if (earliestTimer host.runtime fun _ => true).2 ≠ uint64Max then
        { answer (.ok ()) host with
          deadlineMs := some (earliestTimer host.runtime fun _ => true).2 }
      else answer (.error .noTimer) host := by
  have hclaimed : (claimedHost host).runtime.state = .running := hstate
  have hscan : earliestTimer (claimedHost host).runtime (fun _ => true) =
      earliestTimer host.runtime fun _ => true := rfl
  unfold perform withClaim
  rw [if_neg (by simp [Call.refused]), if_neg (by simp [hidle])]
  change (nextTimerDeadlineClaimed (claimedHost host)).release = _
  unfold nextTimerDeadlineClaimed
  rw [if_neg (not_not.mpr hclaimed), hscan]
  by_cases hfound : (earliestTimer host.runtime fun _ => true).2 ≠ uint64Max
  · simp only [if_pos hfound, Report.release, answer, release_claimed hidle]
  · simp only [if_neg hfound, release_refused hidle]

/-- A poll returns `NO_TIMER` exactly if it selects nothing. -/
theorem result_pollTimer {host : Host} (hsound : host.runtime.Sound)
    (hstate : host.runtime.state = .running) {now : UInt64} {allocation : Allocation}
    {entry : Entry} :
    (perform (.pollTimer true true (some now) allocation entry) host).result = .error .noTimer ↔
      Call.selects host.runtime (.pollTimer true true (some now) allocation entry) = none := by
  have hselects : Call.selects host.runtime (.pollTimer true true (some now) allocation entry) =
      (earliestTimer host.runtime fun timer => timer.deadlineMs ≤ now).1 := if_pos hstate
  constructor
  · intro hresult
    have houtcome := outcome_perform (.pollTimer true true (some now) allocation entry) hsound
    generalize perform _ host = report at houtcome hresult
    cases houtcome with
    | refused hcode hselected hstops =>
        by_contra hselected'
        obtain rfl := hselected hselected'
        cases hresult
    | @invoked _ function event entry prepared timerEvent hprepared =>
        rw [result_release] at hresult
        exact absurd rfl
          (concluded_not_refusal (invoked_invoke function event entry prepared) _ hresult)
  · intro hnone
    rw [hselects] at hnone
    have hclaimed : (claimedHost host).runtime.state = .running := hstate
    have hscan : (earliestTimer (claimedHost host).runtime fun timer =>
        timer.deadlineMs ≤ now).1 = none := hnone
    unfold perform withClaim
    rw [if_neg (by simp [Call.refused]), if_neg (by simp [hsound.idle])]
    change (pollTimerClaimed (some now) true allocation entry (claimedHost host)).result = _
    unfold pollTimerClaimed
    rw [if_neg (not_not.mpr hclaimed)]
    simp only [hscan]
    rfl

/-! ## Agreement -/

/-- The sleep deadline and the poll agree on an instance. -/
structure SleepAgrees (host : Host) : Prop where
  /-- A poll right after a deadline was reported finds no timer before it, and one with just that
  deadline from then on. -/
  deadline : ∀ deadlineMs,
    (perform (.nextTimerDeadline true) host).result = .ok () →
    (perform (.nextTimerDeadline true) host).deadlineMs = some deadlineMs →
    ∀ now allocation entry,
      ((perform (.pollTimer true true (some now) allocation entry)
          (perform (.nextTimerDeadline true) host).host).result = .error .noTimer ↔
        now < deadlineMs) ∧
      (deadlineMs ≤ now → ∃ slot,
        Call.selects (perform (.nextTimerDeadline true) host).host.runtime
          (.pollTimer true true (some now) allocation entry) = some slot ∧
        (host.runtime.timers slot).active = true ∧
        (host.runtime.timers slot).deadlineMs = deadlineMs)
  /-- Otherwise no timer is active, and no poll ever finds one. -/
  inactive : (perform (.nextTimerDeadline true) host).result = .error .noTimer →
    (∀ index, (host.runtime.timers index).active = false) ∧
      ∀ now allocation entry,
        (perform (.pollTimer true true (some now) allocation entry)
          (perform (.nextTimerDeadline true) host).host).result = .error .noTimer
  /-- There is no third answer. -/
  answers : (perform (.nextTimerDeadline true) host).result = .error .noTimer ∨
    (perform (.nextTimerDeadline true) host).result = .ok () ∧
      (perform (.nextTimerDeadline true) host).deadlineMs ≠ none
  /-- What is reported after a poll that found no timer is still to come. -/
  later : ∀ now allocation entry,
    (perform (.pollTimer true true (some now) allocation entry) host).result = .error .noTimer →
    ∀ deadlineMs,
      (perform (.nextTimerDeadline true)
        (perform (.pollTimer true true (some now) allocation entry) host).host).deadlineMs =
          some deadlineMs →
      now < deadlineMs

/-- A poll that finds no timer changes nothing. -/
theorem host_pollTimer {host : Host} (hsound : host.runtime.Sound) {now : UInt64}
    {allocation : Allocation} {entry : Entry}
    (hresult : (perform (.pollTimer true true (some now) allocation entry) host).result =
      .error .noTimer) :
    (perform (.pollTimer true true (some now) allocation entry) host).host = host :=
  (outcome_perform (.pollTimer true true (some now) allocation entry) hsound).unchanged hresult rfl

/-- The sleep deadline and the poll agree in every running instance, after every run from boot
by the clock of the platform. -/
theorem sleep_agrees {visits : List Visit} {last : Process} {runtime : Runtime}
    (hwalk : Walk VisitStep .boot visits last)
    (hplatform : ∀ reading ∈ visits.flatMap Visit.readings, OfPlatform reading)
    (hruntime : last.runtime = some runtime) (hstate : runtime.state = .running) :
    SleepAgrees (last.host runtime) := by
  obtain ⟨hsounds, hranges⟩ := inRange_of_visits hwalk hplatform
  have hsound : (last.host runtime).runtime.Sound := hsounds runtime hruntime
  have hrange : (last.host runtime).runtime.Every Timer.InRange := hranges runtime hruntime
  have hrunning : (last.host runtime).runtime.state = .running := hstate
  generalize last.host runtime = host at hsound hrange hrunning
  have hasks := perform_nextTimerDeadline hsound.idle hrunning
  obtain ⟨hnone, hsome⟩ := earliest_deadline hsound.confined hrange
  by_cases hfound : (earliestTimer host.runtime fun _ => true).2 ≠ uint64Max
  · rw [if_pos hfound] at hasks
    obtain ⟨slot, hactive, hdeadline, hleast⟩ := hsome hfound
    rw [hdeadline] at hasks
    have hpoll : ∀ (now : UInt64) (allocation : Allocation) (entry : Entry),
        (perform (.pollTimer true true (some now) allocation entry) host).result =
          .error .noTimer ↔ now < (host.runtime.timers slot).deadlineMs := by
      intro now allocation entry
      rw [result_pollTimer hsound hrunning,
        selects_none_iff hsound.confined hrange hrunning allocation entry]
      constructor
      · exact fun hlater => hlater slot hactive
      · exact fun hlater index hactive' => UInt64.lt_of_lt_of_le hlater (hleast index hactive')
    refine ⟨?_, ?_, ?_, ?_⟩
    · rw [hasks]
      rintro _ - ⟨⟩ now allocation entry
      refine ⟨hpoll now allocation entry, fun hdue => ?_⟩
      have hselects : Call.selects host.runtime
          (.pollTimer true true (some now) allocation entry) ≠ none := by
        rw [Ne, ← result_pollTimer hsound hrunning, hpoll]
        exact UInt64.not_lt.mpr hdue
      obtain ⟨slot', hslot'⟩ := Option.ne_none_iff_exists'.mp hselects
      have hselected : (earliestTimer host.runtime fun timer => timer.deadlineMs ≤ now).1 =
          some slot' := (if_pos hrunning).symm.trans hslot'
      obtain ⟨-, hactive', -⟩ := earliestTimer_spec hselected
      refine ⟨slot', hslot', hactive', UInt64.le_antisymm ?_ (hleast slot' hactive')⟩
      exact earliestTimer_least hselected (hsound.confined.hasSlot hactive) hactive
        (decide_eq_true hdue)
    · rw [hasks]
      nofun
    · rw [hasks]
      exact .inr ⟨rfl, Option.some_ne_none _⟩
    · intro now allocation entry hresult deadlineMs hreported
      rw [host_pollTimer hsound hresult, hasks] at hreported
      obtain rfl := Option.some.inj hreported
      exact (hpoll now allocation entry).mp hresult
  · rw [if_neg hfound] at hasks
    have hinactive := hnone (not_not.mp hfound)
    refine ⟨?_, ?_, ?_, ?_⟩
    · rw [hasks]
      nofun
    · rw [hasks]
      refine fun _ => ⟨hinactive, fun now allocation entry => ?_⟩
      rw [answer, result_pollTimer hsound hrunning,
        selects_none_iff hsound.confined hrange hrunning allocation entry]
      intro index hactive
      rw [hinactive index] at hactive
      cases hactive
    · rw [hasks]
      exact .inl rfl
    · intro now allocation entry hresult deadlineMs hreported
      rw [host_pollTimer hsound hresult, hasks] at hreported
      cases hreported

/-- After the sample run the next deadline is 147. -/
theorem sleep_agrees_periodicCalls : ∃ runtime,
    (Process.afterCalls periodicCalls sampleProcess).runtime = some runtime ∧
      (perform (.nextTimerDeadline true) ((Process.afterCalls periodicCalls sampleProcess).host
        runtime)).deadlineMs = some 147 ∧
      SleepAgrees ((Process.afterCalls periodicCalls sampleProcess).host runtime) := by
  have hstate : (Process.afterCalls periodicCalls sampleProcess).runtime.map (·.state) =
      some .running := by decide
  have hdeadline : (Process.afterCalls periodicCalls sampleProcess).runtime.map (fun runtime =>
      (perform (.nextTimerDeadline true) ((Process.afterCalls periodicCalls sampleProcess).host
        runtime)).deadlineMs) = some (some 147) := by decide
  obtain ⟨runtime, hruntime, hrunning⟩ := Option.map_eq_some_iff.mp hstate
  rw [hruntime] at hdeadline
  exact ⟨runtime, hruntime, Option.some.inj hdeadline,
    sleep_agrees (walk_sampleOpening.append (walk_visits periodicCalls sampleProcess))
      readings_periodicCalls hruntime hrunning⟩

end Container
