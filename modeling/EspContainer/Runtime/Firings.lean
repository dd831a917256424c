/-
# Timers that start and fire

The readings of the clock by which timers are started and found due, the timers that are
started by imports, and the timer that a poll fires: the one it selects, unless it is
refused for lack of memory. Seen from the table, an import does nothing, puts one timer
out, or starts one in a free slot.
-/

import EspContainer.Runtime.TimerRuns

namespace Container

open Interaction Package

/-! ## The clock -/

/-- The `ESP_PLATFORM` branch of `monotonic_ms`, by what `esp_timer_get_time` returns. -/
def monotonicMs (nowUs : Int64) : Option UInt64 :=
  if nowUs < 0 then none else some (nowUs.toUInt64 / 1000)

/-- A reading that the clock of the platform can show. -/
def OfPlatform (reading : UInt64) : Prop := ∃ nowUs, monotonicMs nowUs = some reading

/-- The last millisecond of that clock. -/
abbrev platformEndMs : Nat := (2 ^ 63 - 1) / 1000

theorem OfPlatform.le {reading : UInt64} (hplatform : OfPlatform reading) :
    reading.toNat ≤ platformEndMs := by
  obtain ⟨nowUs, hreading⟩ := hplatform
  unfold monotonicMs at hreading
  split at hreading
  · cases hreading
  next hnonnegative =>
  obtain rfl := Option.some.inj hreading
  have hpositive : 0 ≤ nowUs.toInt := by
    rwa [Int64.not_lt, Int64.le_iff_toInt_le] at hnonnegative
  -- A negative number would be one of the upper half.
  have hbound : nowUs.toUInt64.toNat < 2 ^ 63 := by
    have hsigned : nowUs.toInt = if 2 * nowUs.toUInt64.toNat < 2 ^ 64 then
        (nowUs.toUInt64.toNat : Int) else nowUs.toUInt64.toNat - 2 ^ 64 :=
      BitVec.toInt_eq_toNat_cond nowUs.toBitVec
    have hbits := nowUs.toUInt64.toNat_lt
    split at hsigned
    · omega
    · omega
  rw [UInt64.toNat_div]
  exact Nat.div_le_div_right (Nat.le_pred_of_lt hbound)

/-- A reading of the platform is far from the end of its type. -/
theorem OfPlatform.lt {reading : UInt64} (hplatform : OfPlatform reading) :
    reading.toNat < 2 ^ 54 := by
  have hend : platformEndMs < 2 ^ 54 := by decide
  exact Nat.lt_of_le_of_lt hplatform.le hend

/-! ## What starts and what fires -/

/-- The timer an import starts, as it is put into the table. -/
def Imported.started (imported : Imported) : List Timer :=
  match imported.call, imported.world.clock with
  | .timerStart delayMs periodMs, some now =>
      imported.issued.map fun handle => ⟨handle, now + delayMs.toUInt64, periodMs, true⟩
  | _, _ => []

/-- A timer that a poll fires: its slot, the timer as it was, and the time. -/
structure Firing where
  slot : Fin timerCapacity
  timer : Timer
  now : UInt64

namespace Firing

/-- The timer as the guest finds it. -/
def next (firing : Firing) : Timer := (rearm firing.timer firing.now).1

/-- What is delivered to the guest and reported to the caller. -/
def event (firing : Firing) : TimerEvent :=
  ⟨firing.timer.handle, (rearm firing.timer firing.now).2⟩

end Firing

/-- The reading of the clock by which a poll finds what is due. -/
def Call.reading (runtime : Runtime) : Call → List UInt64
  | .pollTimer true true (some now) _ _ => if runtime.state = .running then [now] else []
  | _ => []

/-- The timer that a poll fires, unless it is refused for lack of memory. -/
def Call.firings (call : Call) (runtime : Runtime) (result : Except RuntimeError Unit) :
    List Firing :=
  match result with
  | .error .noMemory => []
  | _ => (call.selects runtime).toList.flatMap fun slot =>
      (call.reading runtime).map fun now => ⟨slot, runtime.timers slot, now⟩

/-- The instance as the guest finds it, as its imports leave it, and as the call does. -/
def Report.moments (report : Report) : List Runtime :=
  report.entered.toList.flatMap (fun entered =>
    entered.host.runtime :: entered.imported.map (·.after.runtime)) ++ [report.host.runtime]

namespace Visit

/-- The timers started in a visit. -/
def started (visit : Visit) : List Timer := visit.imports.flatMap Imported.started

/-- The timer that fires in a visit. -/
def firings (visit : Visit) : List Firing :=
  match visit.service, visit.before.runtime with
  | .calling call, some runtime => call.firings runtime visit.result
  | _, _ => []

/-- The readings of the clock by which timers are found due and started, in order. -/
def readings (visit : Visit) : List UInt64 :=
  (match visit.service, visit.before.runtime with
  | .calling call, some runtime => call.reading runtime
  | _, _ => []) ++
    visit.imports.flatMap fun imported =>
      if imported.started = [] then [] else imported.world.clock.toList

/-- The moments of a visit from the entry of the guest on. -/
def moments (visit : Visit) : List Runtime :=
  match visit.report with
  | some report => report.moments
  | none => visit.after.runtime.toList

end Visit

/-! ## Imports -/

/-- What `timer_start` checked, and what it stored. -/
structure Imported.Starts (imported : Imported) (timer : Timer) (now : UInt64) (delayMs : UInt32) :
    Prop where
  clock : imported.world.clock = some now
  started : imported.started = [timer]
  delay : 0 < delayMs.toNat ∧ delayMs.toNat ≤ timerMaxIntervalMs.toNat
  period : timer.periodMs.toNat ≤ timerMaxIntervalMs.toNat
  deadline : timer.deadlineMs.toNat = now.toNat + delayMs.toNat
  active : timer.active = true

/-- From the table before imports to the table after them. -/
structure Moved (started : List Timer) (cancelled : List UInt64) (before after : Runtime) : Prop where
  origin : ∀ index, (after.timers index).active = true →
    after.timers index = before.timers index ∨ after.timers index ∈ started
  stays : ∀ index, (before.timers index).active = true →
    (before.timers index).handle ∉ cancelled → after.timers index = before.timers index

namespace Moved

theorem of_eq {before after : Runtime} (htimers : after.timers = before.timers)
    (started : List Timer) (cancelled : List UInt64) : Moved started cancelled before after :=
  ⟨fun index _ => .inl (congrFun htimers index), fun index _ _ => congrFun htimers index⟩

theorem trans {first second third : Runtime} {started started' : List Timer}
    {cancelled cancelled' : List UInt64} (hfirst : Moved started cancelled first second)
    (hsecond : Moved started' cancelled' second third) :
    Moved (started ++ started') (cancelled ++ cancelled') first third where
  origin := by
    intro index hactive
    rcases hsecond.origin index hactive with hsame | hstarted
    · rw [hsame] at hactive ⊢
      exact (hfirst.origin index hactive).imp id fun hmem => List.mem_append.mpr (.inl hmem)
    · exact .inr (List.mem_append.mpr (.inr hstarted))
  stays := by
    intro index hactive hkept
    rw [List.mem_append, not_or] at hkept
    have hsame := hfirst.stays index hactive hkept.1
    rw [← hsame] at hactive hkept ⊢
    exact hsecond.stays index hactive hkept.2

end Moved

/-- A start that is not refused passed its checks. -/
theorem nativeTimerStart_cases (delayMs periodMs : UInt32) (world : Surroundings) (host : Host) :
    (nativeTimerStart delayMs periodMs world host).answer = 0 ∧
        (nativeTimerStart delayMs periodMs world host).host.runtime.timers = host.runtime.timers ∨
      ∃ now slot, world.clock = some now ∧ host.runtime.freeSlot = some slot ∧
        timerStartValid delayMs periodMs host = true ∧ ¬ now > uint64Max - delayMs.toUInt64 ∧
        (nativeTimerStart delayMs periodMs world host).answer = host.nextTimerHandle ∧
        (nativeTimerStart delayMs periodMs world host).host.runtime =
          host.runtime.setTimer slot
            ⟨host.nextTimerHandle, now + delayMs.toUInt64, periodMs, true⟩ := by
  unfold nativeTimerStart hostImport
  split
  · exact .inl ⟨rfl, rfl⟩
  · exact .inl ⟨rfl, rfl⟩
  split
  · beta_reduce
    split
    · exact .inl ⟨rfl, rfl⟩
    next hvalid =>
    split
    · exact .inl ⟨rfl, rfl⟩
    next slot hfree =>
    split
    · exact .inl ⟨rfl, rfl⟩
    next now hclock =>
    split
    · exact .inl ⟨rfl, rfl⟩
    next hfits =>
    rw [Bool.not_eq_true, Bool.not_eq_false'] at hvalid
    have hnext : host.nextTimerHandle ≠ 0 := by
      simp only [timerStartValid, Bool.not_eq_true', Bool.or_eq_false_iff,
        beq_eq_false_iff_ne] at hvalid
      exact hvalid.2
    right
    refine ⟨now, slot, hclock, hfree, hvalid, hfits, ?_, ?_⟩
    · simp [issueTimerHandle, hnext]
    · simp [issueTimerHandle, hnext]
  · exact .inl ⟨rfl, rfl⟩

/-- What an import does to the table. -/
inductive Imported.Touches (imported : Imported) : Prop
  | nothing (hissued : imported.issued = []) (hstarted : imported.started = [])
      (htimers : imported.after.runtime.timers = imported.before.runtime.timers)
  | cancels {slot : Fin timerCapacity} (hissued : imported.issued = [])
      (hstarted : imported.started = [])
      (hcancelled : imported.cancelled = [(imported.before.runtime.timers slot).handle])
      (htimers : imported.after.runtime = imported.before.runtime.setTimer slot
        { imported.before.runtime.timers slot with active := false })
  | starts {slot : Fin timerCapacity} {timer : Timer} {now : UInt64} {delayMs : UInt32}
      (hfree : imported.before.runtime.freeSlot = some slot)
      (hstarts : imported.Starts timer now delayMs) (hissued : imported.issued = [timer.handle])
      (htimers : imported.after.runtime = imported.before.runtime.setTimer slot timer)

/-- What is added to the clock does not wrap. -/
theorem toNat_deadline {now : UInt64} {delayMs : UInt32}
    (hfits : ¬ now > uint64Max - delayMs.toUInt64) :
    (now + delayMs.toUInt64).toNat = now.toNat + delayMs.toNat := by
  have hmax : (uint64Max : UInt64).toNat = 2 ^ 64 - 1 := rfl
  have hdelay := delayMs.toNat_lt
  have hwide : delayMs.toUInt64.toNat = delayMs.toNat := UInt32.toNat_toUInt64 delayMs
  have hle : delayMs.toUInt64 ≤ uint64Max := by
    rw [UInt64.le_iff_toNat_le, hmax, hwide]
    omega
  rw [gt_iff_lt, UInt64.lt_iff_toNat_lt, UInt64.toNat_sub_of_le _ _ hle, hmax, hwide] at hfits
  rw [UInt64.toNat_add, hwide]
  omega

/-- Imports that start no timer leave the table alone or put one out. -/
theorem Effect.touches {imported : Imported} (heffect : Effect imported)
    (hcall : ∀ delayMs periodMs, imported.call ≠ .timerStart delayMs periodMs) :
    imported.Touches := by
  have hquiet : imported.issued = [] ∧ imported.started = [] := by
    obtain ⟨call, world, before, answer, after⟩ := imported
    cases call with
    | timerStart delayMs periodMs => exact absurd rfl (hcall delayMs periodMs)
    | _ => exact ⟨rfl, rfl⟩
  cases heffect with
  | idle hcheck hanswer => exact .nothing hquiet.1 hquiet.2 rfl
  | expired hcheck hanswer => exact .nothing hquiet.1 hquiet.2 rfl
  | logged hcheck hempty hsize => exact .nothing hquiet.1 hquiet.2 rfl
  | started hcheck hstopping hnext hfree => exact absurd rfl (hcall _ _)
  | @cancelled handle world host slot hcheck hstopping hslot =>
      have hcancelled : Imported.cancelled ⟨.timerCancel handle, world, host, (0 : Int32),
          host.onRuntime fun runtime => runtime.setTimer slot
            { runtime.timers slot with active := false }⟩ =
          [(host.runtime.timers slot).handle] := by
        simp only [Imported.cancelled, (Runtime.slotOf_spec hslot).2, if_true]
      exact .cancels hquiet.1 hquiet.2 hcancelled rfl

/-- Everything an import does to the table. -/
theorem touches_importOnce (call : ImportCall) (world : Surroundings) (host : Host) :
    (importOnce call world host).Touches := by
  cases call with
  | monotonicMs => exact (effect_importOnce .monotonicMs world host).touches nofun
  | log offset sizeBytes => exact (effect_importOnce (.log offset sizeBytes) world host).touches nofun
  | timerCancel handle => exact (effect_importOnce (.timerCancel handle) world host).touches nofun
  | timerStart delayMs periodMs =>
      have hissued : (importOnce (.timerStart delayMs periodMs) world host).issued =
          if (nativeTimerStart delayMs periodMs world host).answer = 0 then []
          else [(nativeTimerStart delayMs periodMs world host).answer] := rfl
      rcases nativeTimerStart_cases delayMs periodMs world host with
        ⟨hanswer, htimers⟩ | ⟨now, slot, hclock, hfree, hvalid, hfits, hanswer, hafter⟩
      · rw [if_pos hanswer] at hissued
        refine .nothing hissued ?_ htimers
        simp only [Imported.started, hissued]
        split
        · rfl
        · rfl
      · simp only [timerStartValid, Bool.not_eq_true', Bool.or_eq_false_iff, beq_eq_false_iff_ne,
          decide_eq_false_iff_not, gt_iff_lt, UInt32.not_lt, ne_eq] at hvalid
        obtain ⟨⟨⟨⟨-, hpositive⟩, hdelay⟩, hperiod⟩, hnext⟩ := hvalid
        rw [hanswer, if_neg hnext] at hissued
        have hstarted : (importOnce (.timerStart delayMs periodMs) world host).started =
            [⟨host.nextTimerHandle, now + delayMs.toUInt64, periodMs, true⟩] := by
          have hworld : (importOnce (.timerStart delayMs periodMs) world host).world.clock =
            some now := hclock
          simp only [Imported.started, hworld, hissued]
          rfl
        refine .starts hfree ⟨hclock, hstarted, ⟨?_, hdelay⟩, hperiod, toNat_deadline hfits, rfl⟩
          hissued hafter
        exact Nat.pos_of_ne_zero fun hzero => hpositive (UInt32.toNat_inj.mp hzero)

/-- What an import starts passed its checks. -/
theorem Imported.Touches.starts_of_mem {imported : Imported} (htouches : imported.Touches)
    {timer : Timer} (hstarted : timer ∈ imported.started) :
    ∃ now delayMs, imported.Starts timer now delayMs := by
  cases htouches with
  | nothing hissued hnone htimers =>
      rw [hnone] at hstarted
      cases hstarted
  | cancels hissued hnone hcancelled htimers =>
      rw [hnone] at hstarted
      cases hstarted
  | @starts slot timer' now delayMs hfree hstarts hissued htimers =>
      rw [hstarts.started, List.mem_singleton] at hstarted
      subst hstarted
      exact ⟨now, delayMs, hstarts⟩

theorem Imported.Touches.moved {imported : Imported} (htouches : imported.Touches) :
    Moved imported.started imported.cancelled imported.before.runtime imported.after.runtime := by
  cases htouches with
  | nothing hissued hstarted htimers => exact .of_eq htimers _ _
  | @cancels slot hissued hstarted hcancelled htimers =>
      rw [htimers, hcancelled]
      constructor
      · intro index hactive
        rcases active_setTimer hactive with ⟨-, heq⟩ | ⟨-, -, heq⟩
        · rw [heq] at hactive
          cases hactive
        · exact .inl heq
      · intro index hactive hkept
        by_cases hslot : index = slot
        · rw [hslot, List.mem_singleton] at hkept
          exact absurd rfl hkept
        · exact Function.update_of_ne hslot _ _
  | @starts slot timer now delayMs hfree hstarts hissued htimers =>
      rw [htimers]
      constructor
      · intro index hactive
        rcases active_setTimer hactive with ⟨-, heq⟩ | ⟨-, -, heq⟩
        · right
          rw [heq, hstarts.started]
          exact List.mem_singleton_self timer
        · exact .inl heq
      · intro index hactive hkept
        by_cases hslot : index = slot
        · -- Nothing is active in a free slot.
          rw [hslot, (Runtime.freeSlot_spec hfree).2] at hactive
          cases hactive
        · exact Function.update_of_ne hslot _ _

/-- The imports of an entry, one after the other. -/
theorem moved_of_imports {first last : Host} {imported : List Imported}
    (hwalk : Walk ImportStep first imported last) :
    Moved (imported.flatMap Imported.started) (imported.flatMap Imported.cancelled) first.runtime
      last.runtime := by
  induction hwalk with
  | stay host => exact .of_eq rfl _ _
  | move hstep hrest ih =>
      obtain ⟨rfl, rfl, -, hmade⟩ := hstep
      rw [List.flatMap_cons, List.flatMap_cons]
      have htouches := hmade ▸ touches_importOnce _ _ _
      exact htouches.moved.trans ih

/-- At every moment between the imports of an entry, an active timer was there before or was
started by one of them. -/
theorem origin_of_imports {first last : Host} {imported : List Imported}
    (hwalk : Walk ImportStep first imported last) :
    ∀ moment ∈ imported, ∀ index, (moment.after.runtime.timers index).active = true →
      moment.after.runtime.timers index = first.runtime.timers index ∨
        moment.after.runtime.timers index ∈ imported.flatMap Imported.started := by
  intro moment hmem index hactive
  obtain ⟨earlier, later, rfl⟩ := List.append_of_mem hmem
  obtain ⟨before, after, hearlier, hstep, -⟩ := hwalk.split
  have hmoved := moved_of_imports (hearlier.append (.move hstep (.stay _)))
  obtain ⟨-, rfl, -, -⟩ := hstep
  rcases hmoved.origin index hactive with hsame | hstarted
  · exact .inl hsame
  · right
    rw [List.flatMap_append, List.flatMap_cons, ← List.append_assoc]
    rw [List.flatMap_append, List.flatMap_singleton] at hstarted
    exact List.mem_append.mpr (.inl hstarted)

/-- The timers that imports start are those that issue a handle. -/
theorem Imported.Touches.handles {imported : Imported} (htouches : imported.Touches) :
    imported.started.map Timer.handle = imported.issued := by
  cases htouches with
  | nothing hissued hstarted htimers => rw [hissued, hstarted, List.map_nil]
  | cancels hissued hstarted hcancelled htimers => rw [hissued, hstarted, List.map_nil]
  | starts hfree hstarts hissued htimers => rw [hissued, hstarts.started, List.map_singleton]

end Container
