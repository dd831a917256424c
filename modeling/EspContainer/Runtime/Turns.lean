/-
# What a visit does to timers

What becomes of a single timer in one visit. An active timer of the table was there
before the visit and is left alone, or the visit fires it and it goes on with its next
deadline, or an import of the visit starts it. This holds at every moment of the visit
from the entry of the guest on, so that what is to be known of timers over runs needs
to be looked at for these three kinds only. A timer that does not fire and is not
cancelled stays as it is until the instance ends.
-/

import EspContainer.Runtime.Firings

namespace Container

open Interaction Package

/-! ## Calls -/

/-- The table from the preparation of a call to its end: the guest finds it as it was
prepared, and after the imports it is left alone, unless the instance ends. -/
inductive Crossing (prepared : Host) : Option Entered → Host → Prop
  | outside {last : Host} (hdims : prepared.runtime.Dims last.runtime)
      (hspared : last.runtime.state.final = true ∨ last.runtime.timers = prepared.runtime.timers) :
      Crossing prepared none last
  | through {entered : Entered} {closed last : Host}
      (hfound : entered.host.runtime.timers = prepared.runtime.timers)
      (hwalk : Walk ImportStep entered.host entered.imported closed)
      (hdims : closed.runtime.Dims last.runtime)
      (hspared : last.runtime.state.final = true ∨ last.runtime.timers = closed.runtime.timers) :
      Crossing prepared (some entered) last

/-- What is reported and released leaves the instance as it was concluded. -/
theorem runtime_release (report : Report) (timerEvent : Option TimerEvent) :
    (report.deliver timerEvent).release.host.runtime =
        setCallActive false report.host.runtime ∧
      (report.deliver timerEvent).release.entered = report.entered := by
  unfold Report.deliver Report.release
  cases report.result <;> exact ⟨rfl, rfl⟩

/-- An invocation that failed ends its instance. -/
theorem conclude_error (function : GuestFunction) (code : RuntimeError) {host : Host}
    (hfailed : host.runtime.state = .failed) (entered : Option Entered) :
    host.runtime.Dims (conclude function ⟨.error code, host, entered⟩).host.runtime ∧
      (conclude function ⟨.error code, host, entered⟩).host.runtime.state = .failed := by
  cases function with
  | init => exact ⟨.clearTimers _, hfailed⟩
  | onEvent => exact ⟨.refl _, hfailed⟩
  | stop => exact ⟨.refl _, hfailed⟩

/-- An invocation that returned leaves the table alone, unless the instance ends. -/
theorem conclude_ok (function : GuestFunction) (value : Int32) (host : Host)
    (entered : Option Entered) :
    host.runtime.Dims (conclude function ⟨.ok value, host, entered⟩).host.runtime ∧
      ((conclude function ⟨.ok value, host, entered⟩).host.runtime.state.final = true ∨
        (conclude function ⟨.ok value, host, entered⟩).host.runtime.timers = host.runtime.timers) ∧
      (function = .stop →
        (conclude function ⟨.ok value, host, entered⟩).host.runtime.state.final = true) := by
  cases function with
  | onEvent => exact ⟨.refl _, .inr rfl, by simp⟩
  | init =>
      by_cases hvalue : value = 0
      · rw [conclude]
        simp only [hvalue, ne_eq, not_true_eq_false, if_false]
        exact ⟨.of_eq rfl rfl, .inr rfl, by simp⟩
      · rw [conclude]
        simp only [hvalue, ne_eq, not_false_eq_true, if_true]
        have hfailed : host.runtime.Dims (host.setState .failed).runtime := .of_eq rfl rfl
        exact ⟨hfailed.trans (.clearTimers _), .inl rfl, by simp⟩
  | stop =>
      by_cases hvalue : value = 0
      · rw [conclude]
        simp only [hvalue, ne_eq, not_true_eq_false, if_false]
        exact ⟨.of_eq rfl rfl, .inl rfl, fun _ => rfl⟩
      · rw [conclude]
        simp only [hvalue, ne_eq, not_false_eq_true, if_true]
        exact ⟨.of_eq rfl rfl, .inl rfl, fun _ => rfl⟩

/-- Every invocation is such a crossing, and that of stop ends the instance. -/
theorem Invoked.crossing {function : GuestFunction} {event : List UInt8} {entry : Entry}
    {host : Host} {invocation : Invocation}
    (hinvoked : Invoked function event entry host invocation) :
    Crossing host invocation.entered (conclude function invocation).host ∧
      (function = .stop → (conclude function invocation).host.runtime.state.final = true) := by
  have hfinal : ∀ {runtime : Runtime}, runtime.state = .failed → runtime.state.final = true := by
    intro runtime hfailed
    rw [hfailed]
    rfl
  have hleave : ∀ closed : Host, closed.runtime.Dims (leave closed).runtime :=
    fun _ => .of_eq rfl rfl
  cases hinvoked with
  | unentered =>
      obtain ⟨hdims, hfailed⟩ :=
        conclude_error function .engineFailure (show (host.setState .failed).runtime.state = .failed
          from rfl) none
      have hset : host.runtime.Dims (host.setState .failed).runtime := .of_eq rfl rfl
      exact ⟨.outside (hset.trans hdims) (.inl (hfinal hfailed)), fun _ => hfinal hfailed⟩
  | @expired began imported closed hbegan hdeadline hwalk hlate =>
      obtain ⟨hdims, hfailed⟩ := conclude_error function .entryExpired
        (show ((leave closed).onRuntime (expireEntry host.runtime.pendingLogSize)).runtime.state =
          .failed from rfl) (some ⟨function, event, host.onRuntime (enter began), imported⟩)
      exact ⟨.through rfl hwalk (((hleave closed).trans (.expireEntry _ _)).trans hdims)
        (.inl (hfinal hfailed)), fun _ => hfinal hfailed⟩
  | @failed began imported closed code hbegan hdeadline hwalk hcode hexpired hreturns =>
      obtain ⟨hdims, hfailed⟩ := conclude_error function code
        (show ((leave closed).setState .failed).runtime.state = .failed from rfl)
        (some ⟨function, event, host.onRuntime (enter began), imported⟩)
      have hset : (leave closed).runtime.Dims ((leave closed).setState .failed).runtime :=
        .of_eq rfl rfl
      exact ⟨.through rfl hwalk (((hleave closed).trans hset).trans hdims) (.inl (hfinal hfailed)),
        fun _ => hfinal hfailed⟩
  | @returned began imported closed value hbegan hdeadline hwalk hexpired hreturns =>
      obtain ⟨hdims, hspared, hstop⟩ := conclude_ok function value (leave closed)
        (some ⟨function, event, host.onRuntime (enter began), imported⟩)
      exact ⟨.through rfl hwalk ((hleave closed).trans hdims) hspared, hstop⟩

/-- What is concluded and released is such a crossing. -/
theorem crossing_conclude (function : GuestFunction) (event : List UInt8) (entry : Entry)
    (prepared : Host) (timerEvent : Option TimerEvent) {report : Report}
    (hreport : report = ((conclude function (invoke function event entry prepared)).deliver
      timerEvent).release) :
    Crossing prepared report.entered report.host ∧
      (function = .stop → report.host.runtime.state.final = true) := by
  obtain ⟨hcrossing, hstop⟩ := (invoked_invoke function event entry prepared).crossing
  obtain ⟨hruntime, hentered⟩ :=
    runtime_release (conclude function (invoke function event entry prepared)) timerEvent
  rw [(fades_conclude _ _).2, ← hreport] at hentered
  rw [← hreport] at hruntime
  rw [hentered]
  generalize invoke function event entry prepared = invocation at *
  have hreleased : (conclude function invocation).host.runtime.Dims report.host.runtime := by
    rw [hruntime]
    exact .of_eq rfl rfl
  have hstate : report.host.runtime.state = (conclude function invocation).host.runtime.state := by
    rw [hruntime]
    rfl
  have htimers : report.host.runtime.timers =
      (conclude function invocation).host.runtime.timers := by
    rw [hruntime]
    rfl
  rw [← hstate] at hstop
  refine ⟨?_, hstop⟩
  generalize invocation.entered = entered at hcrossing ⊢
  cases hcrossing with
  | outside hdims hspared =>
      rw [← hstate, ← htimers] at hspared
      exact .outside (hdims.trans hreleased) hspared
  | through hfound hwalk hdims hspared =>
      rw [← hstate, ← htimers] at hspared
      exact .through hfound hwalk (hdims.trans hreleased) hspared

/-- A timer fires in a poll that selects it and is not refused for lack of memory. -/
theorem Call.mem_firings {call : Call} {runtime : Runtime} {result : Except RuntimeError Unit}
    {firing : Firing} : firing ∈ call.firings runtime result ↔
      result ≠ .error .noMemory ∧ firing.timer = runtime.timers firing.slot ∧
        runtime.state = .running ∧
        (earliestTimer runtime fun timer => timer.deadlineMs ≤ firing.now).1 = some firing.slot ∧
        ∃ allocation entry, call = .pollTimer true true (some firing.now) allocation entry := by
  constructor
  · intro hfiring
    unfold Call.firings at hfiring
    split at hfiring
    · cases hfiring
    next hresult =>
    obtain ⟨slot, hselected, hfiring⟩ := List.mem_flatMap.mp hfiring
    obtain ⟨now, hreading, rfl⟩ := List.mem_map.mp hfiring
    rw [Option.mem_toList] at hselected
    unfold Call.selects at hselected
    split at hselected
    · next allocation entry _ =>
      split at hselected
      · next hstate =>
        rw [Call.reading, if_pos hstate, List.mem_singleton] at hreading
        subst hreading
        exact ⟨hresult, rfl, hstate, hselected, allocation, entry, rfl⟩
      · cases hselected
    · cases hselected
  · rintro ⟨hresult, htimer, hstate, hselected, allocation, entry, rfl⟩
    unfold Call.firings
    split
    · exact absurd rfl hresult
    · apply List.mem_flatMap.mpr
      refine ⟨firing.slot, ?_, ?_⟩
      · rw [Option.mem_toList]
        exact (if_pos hstate).trans hselected
      · rw [Call.reading, if_pos hstate, List.map_singleton, List.mem_singleton, ← htimer]

/-- A call fires one timer at most. -/
theorem Call.firings_single {call : Call} {runtime : Runtime} {result : Except RuntimeError Unit}
    {firing : Firing} (hfiring : firing ∈ call.firings runtime result) :
    call.firings runtime result = [firing] := by
  obtain ⟨hresult, htimer, hstate, hselected, allocation, entry, rfl⟩ :=
    Call.mem_firings.mp hfiring
  have hselects : Call.selects runtime
      (.pollTimer true true (some firing.now) allocation entry) = some firing.slot :=
    (if_pos hstate).trans hselected
  unfold Call.firings
  split
  · exact absurd rfl hresult
  · rw [hselects, Option.toList_some, List.flatMap_singleton, Call.reading, if_pos hstate,
      List.map_singleton, ← htimer]

/-- It does so by the reading it made. -/
theorem Call.mem_reading {call : Call} {runtime : Runtime} {result : Except RuntimeError Unit}
    {firing : Firing} (hfiring : firing ∈ call.firings runtime result) :
    firing.now ∈ call.reading runtime := by
  obtain ⟨-, -, hstate, -, allocation, entry, rfl⟩ := Call.mem_firings.mp hfiring
  rw [Call.reading, if_pos hstate]
  exact List.mem_singleton_self _

/-- Where an active timer comes from: it was there before and is left alone, it fired and goes
on, or it was started. -/
inductive Origin (firings : List Firing) (started : List Timer) (before : Runtime)
    (index : Fin timerCapacity) (timer : Timer) : Prop
  | kept (hsame : timer = before.timers index) (hactive : (before.timers index).active = true)
      (hquiet : ∀ firing ∈ firings, firing.slot ≠ index) :
      Origin firings started before index timer
  | fired {firing : Firing} (hfiring : firing ∈ firings) (hslot : firing.slot = index)
      (htimer : timer = firing.next) : Origin firings started before index timer
  | started (htimer : timer ∈ started) : Origin firings started before index timer

theorem Origin.more {firings : List Firing} {before : Runtime} {index : Fin timerCapacity}
    {timer : Timer} (horigin : Origin firings [] before index timer) {started : List Timer} :
    Origin firings started before index timer := by
  cases horigin with
  | kept hsame hactive hquiet => exact .kept hsame hactive hquiet
  | fired hfiring hslot htimer => exact .fired hfiring hslot htimer
  | started htimer => cases htimer

/-- What a call does to timers. -/
structure Turned (firings : List Firing) (before : Runtime) (report : Report) : Prop where
  origin : ∀ runtime ∈ report.moments, ∀ index, (runtime.timers index).active = true →
    Origin firings (report.imports.flatMap Imported.started) before index (runtime.timers index)
  stays : ∀ index, (before.timers index).active = true →
    (before.timers index).handle ∉ report.imports.flatMap Imported.cancelled →
    (∀ firing ∈ firings, firing.slot ≠ index) →
    report.host.runtime.state.final = true ∨
      report.host.runtime.timers index = before.timers index

/-- A call that does not concern the table. -/
theorem turned_of_idle {before : Runtime} {report : Report} (hentered : report.entered = none)
    (htimers : report.host.runtime.timers = before.timers) : Turned [] before report where
  origin := by
    intro runtime hmoment index hactive
    rw [Report.moments, hentered] at hmoment
    obtain rfl := List.mem_singleton.mp hmoment
    rw [htimers] at hactive ⊢
    exact .kept rfl hactive nofun
  stays := fun index _ _ _ => .inr (congrFun htimers index)

/-- What a call prepares for the guest. -/
structure Primed (function : GuestFunction) (firings : List Firing) (before prepared : Runtime) :
    Prop where
  origin : ∀ index, (prepared.timers index).active = true →
    Origin firings [] before index (prepared.timers index)
  stays : ∀ index, (∀ firing ∈ firings, firing.slot ≠ index) →
    function = .stop ∨ prepared.timers index = before.timers index

theorem Prepared.primed {host prepared : Host} {call : Call} {function : GuestFunction}
    {event : List UInt8} {entry : Entry} {timerEvent : Option TimerEvent}
    (hprepared : Prepared host call function event entry prepared timerEvent)
    {result : Except RuntimeError Unit} (hresult : result ≠ .error .noMemory) :
    Primed function (call.firings host.runtime result) host.runtime prepared.runtime := by
  have hnone : ∀ call : Call, (∀ now allocation entry,
      call ≠ .pollTimer true true (some now) allocation entry) →
      ∀ firing ∈ call.firings host.runtime result, ∀ index, firing.slot ≠ index := by
    intro call hcall firing hfiring
    obtain ⟨-, -, -, -, allocation, entry, heq⟩ := Call.mem_firings.mp hfiring
    exact absurd heq (hcall _ _ _)
  cases hprepared with
  | init hstate =>
      have hquiet := hnone (.init entry) nofun
      exact ⟨fun index hactive => .kept rfl hactive fun firing hfiring => hquiet firing hfiring index,
        fun index _ => .inr rfl⟩
  | @onEvent event allocation entry hstate hreserved =>
      have hquiet := hnone (.onEvent event true allocation entry) nofun
      exact ⟨fun index hactive => .kept rfl hactive fun firing hfiring => hquiet firing hfiring index,
        fun index _ => .inr rfl⟩
  | stop hstate =>
      have hquiet := hnone (.stop entry) nofun
      refine ⟨fun index hactive => ?_, fun index _ => .inl rfl⟩
      have hdims : host.runtime.Dims ((claimedHost host).onRuntime Runtime.beginStop).runtime := by
        have hstopping : host.runtime.Dims { (claimedHost host).runtime with stopping := true } :=
          .of_eq rfl rfl
        exact hstopping.trans (.clearTimers _)
      have hsame := hdims.timers index hactive
      rw [hsame] at hactive ⊢
      exact .kept rfl hactive fun firing hfiring => hquiet firing hfiring index
  | @pollTimer now allocation entry slot hstate hselected =>
      have hfiring : (⟨slot, host.runtime.timers slot, now⟩ : Firing) ∈
          Call.firings (.pollTimer true true (some now) allocation entry) host.runtime result :=
        Call.mem_firings.mpr ⟨hresult, rfl, hstate, hselected, allocation, entry, rfl⟩
      have honly : ∀ firing ∈ Call.firings (.pollTimer true true (some now) allocation entry)
          host.runtime result, firing.slot = slot := by
        intro firing hmem
        obtain ⟨-, -, -, hselected', allocation', entry', heq⟩ := Call.mem_firings.mp hmem
        cases heq
        exact Option.some.inj (hselected'.symm.trans hselected)
      constructor
      · intro index hactive
        rcases active_setTimer hactive with ⟨rfl, heq⟩ | ⟨hne, hbefore, heq⟩
        · exact .fired hfiring rfl heq
        · refine .kept heq hbefore fun firing hmem hslot => ?_
          rw [honly firing hmem] at hslot
          exact hne hslot.symm
      · intro index hquiet
        exact .inr (Function.update_of_ne (hquiet _ hfiring).symm _ _)

/-- From what was prepared on, the table changes by imports. -/
theorem Crossing.turned {prepared : Host} {report : Report} {before : Runtime}
    {firings : List Firing} {function : GuestFunction}
    (hcrossing : Crossing prepared report.entered report.host)
    (hstop : function = .stop → report.host.runtime.state.final = true)
    (hprimed : Primed function firings before prepared.runtime) :
    Turned firings before report := by
  obtain ⟨result, last, entered, guestResult, timerEvent, log, deadlineMs⟩ := report
  simp only at hcrossing hstop
  cases hcrossing with
  | outside hdims hspared =>
      constructor
      · intro runtime hmoment index hactive
        obtain rfl := List.mem_singleton.mp hmoment
        have hsame := hdims.timers index hactive
        rw [hsame] at hactive ⊢
        exact hprimed.origin index hactive
      · intro index hactive hkept hquiet
        rcases hprimed.stays index hquiet with rfl | hsame
        · exact .inl (hstop rfl)
        · exact hspared.imp id fun htimers => (congrFun htimers index).trans hsame
  | @through entered closed _ hfound hwalk hdims hspared =>
      have himports : (⟨result, last, some entered, guestResult, timerEvent, log, deadlineMs⟩ :
          Report).imports = entered.imported := List.flatMap_singleton _ _
      have horigin : ∀ index, (entered.host.runtime.timers index).active = true →
          Origin firings (entered.imported.flatMap Imported.started) before index
            (entered.host.runtime.timers index) := by
        intro index hactive
        rw [hfound] at hactive ⊢
        exact (hprimed.origin index hactive).more
      have hmoved := moved_of_imports hwalk
      have hclosed : ∀ index, (closed.runtime.timers index).active = true →
          Origin firings (entered.imported.flatMap Imported.started) before index
            (closed.runtime.timers index) := by
        intro index hactive
        rcases hmoved.origin index hactive with hsame | hstarted
        · rw [hsame] at hactive ⊢
          exact horigin index hactive
        · exact .started hstarted
      constructor
      · rw [himports]
        intro runtime hmoment index hactive
        simp only [Report.moments, Option.toList_some, List.flatMap_singleton, List.cons_append,
          List.mem_cons, List.mem_append, List.mem_map, List.not_mem_nil, or_false] at hmoment
        rcases hmoment with rfl | ⟨moment, hmem, rfl⟩ | rfl
        · exact horigin index hactive
        · rcases origin_of_imports hwalk moment hmem index hactive with hsame | hstarted
          · rw [hsame] at hactive ⊢
            exact horigin index hactive
          · exact .started hstarted
        · have hsame := hdims.timers index hactive
          rw [hsame] at hactive ⊢
          exact hclosed index hactive
      · rw [himports]
        intro index hactive hkept hquiet
        rcases hprimed.stays index hquiet with rfl | hsame
        · exact .inl (hstop rfl)
        · have hentered := (congrFun hfound index).trans hsame
          rw [← hentered] at hactive hkept ⊢
          exact hspared.imp id fun htimers =>
            (congrFun htimers index).trans (hmoved.stays index hactive hkept)

/-- What every call does to timers. -/
theorem Outcome.turned {host : Host} {call : Call} {report : Report}
    (houtcome : Outcome host call report) :
    Turned (call.firings host.runtime report.result) host.runtime report := by
  have hnone : ∀ {result : Except RuntimeError Unit}, (result = .error .noMemory ∨
      call.selects host.runtime = none) → call.firings host.runtime result = [] := by
    intro result hquiet
    rw [List.eq_nil_iff_forall_not_mem]
    intro firing hfiring
    obtain ⟨hresult, -, hstate, hselected, allocation, entry, rfl⟩ := Call.mem_firings.mp hfiring
    rcases hquiet with hrefused | hnone
    · exact hresult hrefused
    · have hselects : Call.selects host.runtime
          (.pollTimer true true (some firing.now) allocation entry) = some firing.slot :=
        (if_pos hstate).trans hselected
      rw [hnone] at hselects
      cases hselects
  cases houtcome with
  | @refused _ code hcode hselected hstops =>
      have hquiet : (.error code : Except RuntimeError Unit) = .error .noMemory ∨
          call.selects host.runtime = none := by
        by_cases hselects : call.selects host.runtime = none
        · exact .inr hselects
        · exact .inl (congrArg Except.error (hselected hselects))
      have hfirings : call.firings host.runtime (answer (.error code) host).result = [] :=
        hnone hquiet
      rw [hfirings]
      exact turned_of_idle rfl rfl
  | unread hstate =>
      rw [hnone (.inr rfl)]
      exact turned_of_idle rfl rfl
  | stopped hstate =>
      rw [hnone (.inr rfl)]
      exact turned_of_idle rfl rfl
  | earliest hstate =>
      rw [hnone (.inr rfl)]
      exact turned_of_idle rfl rfl
  | tookLog hpending hcapacity =>
      rw [hnone (.inr rfl)]
      exact turned_of_idle rfl rfl
  | @invoked _ function event entry prepared timerEvent hprepared =>
      obtain ⟨hcrossing, hstop⟩ := crossing_conclude function event entry prepared timerEvent rfl
      apply hcrossing.turned hstop
      apply hprepared.primed
      rw [result_release]
      intro hresult
      exact absurd rfl
        (concluded_not_refusal (invoked_invoke function event entry prepared) _ hresult)

/-- A firing as the table and the clock had it: of the timers that are active and due, it is
one with the least deadline. -/
structure Firing.Picks (firing : Firing) (runtime : Runtime) : Prop where
  state : runtime.state = .running
  timer : firing.timer = runtime.timers firing.slot
  active : firing.timer.active = true
  due : firing.timer.deadlineMs ≤ firing.now
  least : ∀ index, (runtime.timers index).active = true →
    (runtime.timers index).deadlineMs ≤ firing.now →
    firing.timer.deadlineMs ≤ (runtime.timers index).deadlineMs

theorem Call.picks {call : Call} {runtime : Runtime} (hconfined : runtime.Confined)
    {result : Except RuntimeError Unit} {firing : Firing}
    (hfiring : firing ∈ call.firings runtime result) : firing.Picks runtime := by
  obtain ⟨-, htimer, hstate, hselected, -⟩ := Call.mem_firings.mp hfiring
  obtain ⟨-, hactive, hdue⟩ := earliestTimer_spec hselected
  rw [← htimer] at hactive hdue
  refine ⟨hstate, htimer, hactive, of_decide_eq_true hdue, fun index hactive' hdue' => ?_⟩
  rw [htimer]
  exact earliestTimer_least hselected (hconfined.hasSlot hactive') hactive' (decide_eq_true hdue')

/-- What the guest and the caller get of a firing. -/
structure Firing.Served (firing : Firing) (report : Report) : Prop where
  entered : ∀ entered, report.entered = some entered → entered.function = .onEvent ∧
    entered.event = timerEventBytes firing.event.handle firing.event.skippedPeriods ∧
    entered.host.runtime.timers firing.slot = firing.next
  reported : report.result = .ok () → report.timerEvent = some firing.event
  ended : ∀ code, report.result = .error code → report.host.runtime.state.final = true

theorem Outcome.served {host : Host} {call : Call} {report : Report}
    (houtcome : Outcome host call report) {firing : Firing}
    (hfiring : firing ∈ call.firings host.runtime report.result) : firing.Served report := by
  obtain ⟨hresult, htimer, hstate, hselected, allocation, entry, rfl⟩ :=
    Call.mem_firings.mp hfiring
  have hselects : Call.selects host.runtime
      (.pollTimer true true (some firing.now) allocation entry) = some firing.slot :=
    (if_pos hstate).trans hselected
  cases houtcome with
  | refused hcode hselected' hstops =>
      have hrefused := hselected' (by rw [hselects]; exact Option.some_ne_none _)
      exact absurd (congrArg Except.error hrefused) hresult
  | @invoked _ function event entry prepared timerEvent hprepared =>
      cases hprepared with
      | @pollTimer now allocation entry slot hstate' hselected' =>
          obtain rfl := Option.some.inj (hselected'.symm.trans hselected)
          rw [← htimer]
          constructor
          · intro entered hentered
            rw [(fades_release _ _).2, (fades_conclude _ _).2] at hentered
            obtain ⟨hfunction, hevent, began, hhost⟩ :=
              (invoked_invoke .onEvent _ entry _).entered_eq hentered
            refine ⟨hfunction, hevent, ?_⟩
            rw [hhost]
            exact Function.update_self _ _ _
          · intro hok
            rw [result_release] at hok
            simp only [Report.deliver, hok]
            rfl
          · intro code herror
            rw [result_release] at herror
            have hstate := (invoked_invoke .onEvent (timerEventBytes firing.timer.handle
              (rearm firing.timer firing.now).2) entry ((claimedHost host).onRuntime fun runtime =>
                runtime.setTimer firing.slot (rearm firing.timer firing.now).1)).state
            rw [(runtime_release _ _).1]
            generalize invoke .onEvent _ entry _ = invocation at hstate herror ⊢
            obtain ⟨status, last, entered⟩ := invocation
            rcases hstate with ⟨⟨code', hstatus⟩, hfailed, -⟩ | ⟨⟨value, hstatus⟩, -, -⟩
            · simp only at hstatus hfailed
              subst hstatus
              have hafter := (conclude_error .onEvent code' hfailed entered).2
              simp only [setCallActive, hafter]
              rfl
            · simp only at hstatus
              subst hstatus
              cases herror

/-- What a call reports to its caller is what it fired. -/
theorem Outcome.reports {host : Host} {call : Call} {report : Report}
    (houtcome : Outcome host call report) {event : TimerEvent}
    (hreported : report.timerEvent = some event) :
    ∃ firing ∈ call.firings host.runtime report.result, event = firing.event := by
  have hok := houtcome.outputs (.inr (by rw [hreported]; exact Option.some_ne_none event))
  rw [hok]
  cases houtcome with
  | refused hcode hselected hstops => cases hreported
  | unread hstate => cases hreported
  | stopped hstate => cases hreported
  | earliest hstate => cases hreported
  | tookLog hpending hcapacity => cases hreported
  | @invoked _ function event' entry prepared timerEvent hprepared =>
      have hevent := timerEvent_deliver hreported
      cases hprepared with
      | init hstate => cases hevent
      | onEvent hstate hreserved => cases hevent
      | stop hstate => cases hevent
      | @pollTimer now allocation entry slot hstate hselected =>
          obtain rfl := Option.some.inj hevent
          refine ⟨⟨slot, host.runtime.timers slot, now⟩, ?_, rfl⟩
          exact Call.mem_firings.mpr ⟨nofun, rfl, hstate, hselected, allocation, entry, rfl⟩

/-- The imports of a call, each by itself. -/
theorem Passage.touches {first last : Host} {entered : Option Entered}
    (hpassage : Passage first entered last) :
    ∀ imported ∈ entered.toList.flatMap (·.imported), imported.Touches := by
  cases hpassage with
  | outside hfades =>
      intro imported hmem
      cases hmem
  | through hbefore hwalk hafter =>
      rw [Option.toList_some, List.flatMap_singleton]
      have htouches : ∀ before imported after, True → ImportStep before imported after →
          imported.Touches := by
        rintro _ imported _ - ⟨-, -, -, hmade⟩
        exact hmade ▸ touches_importOnce _ _ _
      exact hwalk.forall_mem (fun _ _ _ _ _ => trivial) htouches trivial

/-! ## Visits -/

/-- What a visit does to timers. -/
structure Visit.Turned (visit : Visit) : Prop where
  origin : ∀ runtime ∈ visit.moments, ∀ index, (runtime.timers index).active = true →
    ∃ before, visit.before.runtime = some before ∧
      Origin visit.firings visit.started before index (runtime.timers index)
  stays : ∀ before, visit.before.runtime = some before → visit.service ≠ .closing →
    ∃ after, visit.after.runtime = some after ∧ ∀ index, (before.timers index).active = true →
      (before.timers index).handle ∉ visit.imports.flatMap Imported.cancelled →
      (∀ firing ∈ visit.firings, firing.slot ≠ index) →
      after.state.final = true ∨ after.timers index = before.timers index
  picks : ∀ firing ∈ visit.firings, ∃ before, visit.before.runtime = some before ∧
    firing.Picks before
  served : ∀ firing ∈ visit.firings, ∃ report, visit.report = some report ∧
    visit.after.runtime = some report.host.runtime ∧ firing.Served report
  reports : ∀ report, visit.report = some report → ∀ event, report.timerEvent = some event →
    ∃ firing ∈ visit.firings, event = firing.event
  single : ∀ firing ∈ visit.firings, visit.firings = [firing]
  ends : ∀ runtime, visit.after.runtime = some runtime → runtime ∈ visit.moments
  timely : ∀ firing ∈ visit.firings, firing.now ∈ visit.readings
  touches : ∀ imported ∈ visit.imports, imported.Touches
  final : ∀ before, visit.before.runtime = some before → before.state.final = true →
    ∀ after, visit.after.runtime = some after → after.state.final = true

/-- A visit that leaves the instance alone. -/
theorem Visit.turned_of_idle {visit : Visit} (hreport : visit.report = none)
    (hfirings : visit.firings = [])
    (hkept : ∀ runtime, visit.after.runtime = some runtime →
      visit.before.runtime = some runtime ∨ ∀ index, (runtime.timers index).active = false)
    (hstays : ∀ runtime, visit.before.runtime = some runtime → visit.service ≠ .closing →
      visit.after.runtime = some runtime)
    (hfinal : ∀ before, visit.before.runtime = some before → before.state.final = true →
      ∀ after, visit.after.runtime = some after → after.state.final = true) : visit.Turned where
  origin := by
    rw [hfirings]
    intro runtime hmoment index hactive
    simp only [Visit.moments, hreport, Option.mem_toList] at hmoment
    rcases hkept runtime hmoment with hbefore | hinactive
    · exact ⟨runtime, hbefore, .kept rfl hactive nofun⟩
    · rw [hinactive index] at hactive
      cases hactive
  stays := fun before hbefore hservice =>
    ⟨before, hstays before hbefore hservice, fun _ _ _ _ => .inr rfl⟩
  picks := by
    rw [hfirings]
    nofun
  served := by
    rw [hfirings]
    nofun
  reports := by
    intro report hsome
    rw [hreport] at hsome
    cases hsome
  single := by
    rw [hfirings]
    nofun
  ends := by
    intro runtime hsome
    rw [Visit.moments, hreport]
    exact Option.mem_toList.mpr hsome
  timely := by
    rw [hfirings]
    nofun
  touches := by
    intro imported hmem
    rw [Visit.imports, hreport] at hmem
    cases hmem
  final := hfinal

/-- What every visit does to timers. -/
theorem VisitStep.turned {before after : Process} {visit : Visit} (hsound : before.Sound)
    (hstep : VisitStep before visit after) : visit.Turned := by
  have hunchanged : ∀ runtime, before.runtime = some runtime → runtime.state.final = true →
      ∀ runtime', before.runtime = some runtime' → runtime'.state.final = true := by
    intro runtime hruntime hfinal runtime' hruntime'
    obtain rfl := Option.some.inj (hruntime.symm.trans hruntime')
    exact hfinal
  cases hstep with
  | @opened request runtime hopens =>
      obtain ⟨hnone, limits, buffer, -, hfresh⟩ := hopens.spec
      refine Visit.turned_of_idle rfl rfl ?_ ?_ ?_
      · rintro _ ⟨⟩
        right
        rw [hfresh]
        exact fun _ => rfl
      · intro runtime' hsome
        exact absurd (hnone.symm.trans hsome) (by simp)
      · intro runtime' hsome
        exact absurd (hnone.symm.trans hsome) (by simp)
  | notOpened hopens =>
      exact Visit.turned_of_idle rfl rfl (fun runtime hsome => .inl hsome)
        (fun runtime hsome _ => hsome) hunchanged
  | called call =>
      cases hruntime : before.runtime with
      | none =>
          rw [Process.call_none hruntime]
          refine Visit.turned_of_idle rfl ?_ (fun runtime hsome => .inl hsome)
            (fun runtime hsome _ => hsome) hunchanged
          simp only [Visit.firings, hruntime]
      | some runtime =>
          rw [Process.call_some hruntime]
          have hsound' := hsound runtime hruntime
          have houtcome :=
            outcome_perform call (show (before.host runtime).runtime.Sound from hsound')
          generalize perform call (before.host runtime) = report at houtcome
          have hfirings : Visit.firings ⟨.calling call, before, report.result, some report,
              ⟨some report.host.runtime, report.host.nextTimerHandle⟩⟩ =
              call.firings runtime report.result := by
            simp only [Visit.firings, hruntime]
          have hstarted : Visit.started ⟨.calling call, before, report.result, some report,
              ⟨some report.host.runtime, report.host.nextTimerHandle⟩⟩ =
              report.imports.flatMap Imported.started :=
            congrArg (List.flatMap Imported.started) (List.flatMap_singleton _ _)
          have hcancelled : (Visit.imports ⟨.calling call, before, report.result, some report,
              ⟨some report.host.runtime, report.host.nextTimerHandle⟩⟩).flatMap
                Imported.cancelled = report.imports.flatMap Imported.cancelled :=
            congrArg (List.flatMap Imported.cancelled) (List.flatMap_singleton _ _)
          constructor
          · rw [hfirings, hstarted]
            intro moment hmoment index hactive
            exact ⟨runtime, hruntime, houtcome.turned.origin moment hmoment index hactive⟩
          · rw [hfirings, hcancelled]
            intro runtime' hsome _
            obtain rfl := Option.some.inj (hruntime.symm.trans hsome)
            exact ⟨_, rfl, houtcome.turned.stays⟩
          · rw [hfirings]
            intro firing hfiring
            exact ⟨runtime, hruntime, Call.picks hsound'.confined hfiring⟩
          · rw [hfirings]
            intro firing hfiring
            exact ⟨report, rfl, rfl, houtcome.served hfiring⟩
          · rw [hfirings]
            rintro _ ⟨⟩ event hreported
            exact houtcome.reports hreported
          · rw [hfirings]
            intro firing hfiring
            exact Call.firings_single hfiring
          · rintro _ ⟨⟩
            exact List.mem_append.mpr (.inr (List.mem_singleton_self _))
          · rw [hfirings]
            intro firing hfiring
            apply List.mem_append.mpr
            left
            simp only [hruntime]
            exact Call.mem_reading hfiring
          · intro imported hmem
            rw [Visit.imports, Option.toList_some, List.flatMap_singleton] at hmem
            exact houtcome.passage.touches imported hmem
          · rintro runtime' hsome hfinal _ ⟨⟩
            obtain rfl := Option.some.inj (hruntime.symm.trans hsome)
            have hstate := (houtcome.course.final hfinal).2
            simp only [hstate]
            exact hfinal
  | closed =>
      cases hruntime : before.runtime with
      | none =>
          rw [Process.close_none hruntime]
          refine Visit.turned_of_idle rfl rfl ?_ ?_ hunchanged
          · exact fun runtime hsome => .inl hsome
          · exact fun runtime hsome _ => hsome
      | some runtime =>
          rw [Process.close_idle hruntime (hsound runtime hruntime).idle]
          refine Visit.turned_of_idle rfl rfl (by simp) ?_ fun _ _ _ => by simp
          intro _ _ hservice
          exact absurd rfl hservice

namespace Visit.Turned

variable {visit : Visit}

/-- The timers started are those whose handles are issued. -/
theorem handles (hturned : visit.Turned) : visit.started.map Timer.handle = visit.issued := by
  rw [Visit.started, Visit.issued, List.map_flatMap]
  apply List.flatMap_congr
  intro imported hmem
  exact (hturned.touches imported hmem).handles

/-- A timer is started within a day of its reading of the clock. -/
theorem starts (hturned : visit.Turned) {timer : Timer} (hstarted : timer ∈ visit.started) :
    ∃ imported ∈ visit.imports, ∃ now ∈ visit.readings, ∃ delayMs,
      imported.Starts timer now delayMs := by
  obtain ⟨imported, hmem, htimer⟩ := List.mem_flatMap.mp hstarted
  obtain ⟨now, delayMs, hstarts⟩ := (hturned.touches imported hmem).starts_of_mem htimer
  refine ⟨imported, hmem, now, ?_, delayMs, hstarts⟩
  apply List.mem_append.mpr
  right
  apply List.mem_flatMap.mpr
  refine ⟨imported, hmem, ?_⟩
  rw [hstarts.started, if_neg (List.cons_ne_nil _ _), hstarts.clock]
  exact List.mem_singleton_self now

/-- Unless the instance ends, what fires is reported, and nothing else. -/
theorem reported_eq (hturned : visit.Turned)
    (hlives : ∀ after, visit.after.runtime = some after → after.state.final = false) :
    visit.report.toList.flatMap (·.timerEvent.toList) = visit.firings.map Firing.event := by
  cases hfirings : visit.firings with
  | nil =>
      cases hreport : visit.report with
      | none => rfl
      | some report =>
          cases hevent : report.timerEvent with
          | none => simp [hevent]
          | some event =>
              obtain ⟨firing, hfiring, -⟩ := hturned.reports report hreport event hevent
              rw [hfirings] at hfiring
              cases hfiring
  | cons firing rest =>
      have hmem : firing ∈ visit.firings := by
        rw [hfirings]
        exact List.mem_cons_self
      obtain ⟨report, hreport, hafter, hserved⟩ := hturned.served firing hmem
      rw [← hfirings, hturned.single firing hmem, hreport]
      cases hresult : report.result with
      | ok value => simp [hserved.reported hresult]
      | error code =>
          have hended := hserved.ended code hresult
          rw [hlives _ hafter] at hended
          cases hended

end Visit.Turned

/-! ## Timers at every moment -/

/-- Something holds of every active timer. -/
def Runtime.Every (holds : Timer → Prop) (runtime : Runtime) : Prop :=
  ∀ index, (runtime.timers index).active = true → holds (runtime.timers index)

/-- What holds of the timers of a visit: those left alone, those that fire and go on, and
those that are started. -/
theorem Visit.Turned.every {visit : Visit} (hturned : visit.Turned) {handles : List UInt64}
    (horderly : visit.Orderly handles) {earlier later : Timer → Prop}
    (hbefore : ∀ runtime, visit.before.runtime = some runtime → runtime.Every earlier)
    (hkept : ∀ timer, earlier timer →
      (∀ firing ∈ visit.firings, firing.timer.handle ≠ timer.handle) → later timer)
    (hfired : ∀ firing ∈ visit.firings, earlier firing.timer → firing.next.active = true →
      later firing.next)
    (hstarted : ∀ timer ∈ visit.started, later timer) :
    ∀ runtime ∈ visit.moments, runtime.Every later := by
  intro runtime hmoment index hactive
  obtain ⟨before, hruntime, horigin⟩ := hturned.origin runtime hmoment index hactive
  cases horigin with
  | kept hsame hactive' hquiet =>
      rw [hsame]
      apply hkept _ (hbefore before hruntime index hactive')
      intro firing hfiring hhandle
      obtain ⟨before', hruntime', hpicks⟩ := hturned.picks firing hfiring
      obtain rfl := Option.some.inj (hruntime.symm.trans hruntime')
      -- A handle is in one slot only.
      have hactive'' := hpicks.active
      rw [hpicks.timer] at hhandle hactive''
      exact hquiet firing hfiring
        ((horderly.before before hruntime).distinct _ _ hactive'' hactive' hhandle)
  | fired hfiring hslot htimer =>
      obtain ⟨before', hruntime', hpicks⟩ := hturned.picks _ hfiring
      have hactive' := hpicks.active
      rw [htimer] at hactive ⊢
      rw [hpicks.timer] at hactive'
      apply hfired _ hfiring _ hactive
      rw [hpicks.timer]
      exact hbefore before' hruntime' _ hactive'
  | started htimer => exact hstarted _ htimer

end Container
