/-
# Timer discipline

The timer discipline of a process, over every run from boot: what is known of single
calls is carried over visits, and over the instances that follow each other. A handle
belongs to the instance that was open when it was issued.
-/

import EspContainer.Runtime.Timers

namespace Container

open Interaction Package

/-! ## Visits -/

namespace Visit

/-- The imports made in a visit. -/
def imports (visit : Visit) : List Imported := visit.report.toList.flatMap Report.imports

/-- The handles issued in a visit. -/
def issued (visit : Visit) : List UInt64 := visit.imports.flatMap Imported.issued

/-- The notes of a visit. -/
def notes (visit : Visit) : List TimerNote :=
  match visit.service, visit.before.runtime, visit.report with
  | .calling call, some runtime, some report => call.notes runtime report
  | _, _, _ => []

end Visit

/-- The handles of the instance that is open: those issued since it was opened. -/
def currentHandles (handles : List UInt64) (visit : Visit) : List UInt64 :=
  match visit.service, visit.result with
  | .opening _, .ok () => []
  | _, _ => handles ++ visit.issued

/-- The timer table is as it should be: active timers in the slots that the limits allow and
no more of them than that, under different handles, which are all on a list. -/
structure OrderlyTable (handles : List UInt64) (runtime : Runtime) : Prop where
  slots : ∀ index, (runtime.timers index).active = true →
    index.val < runtime.limits.maxTimers.toNat
  count : (Finset.univ.filter fun index => (runtime.timers index).active = true).card ≤
    runtime.limits.maxTimers.toNat
  distinct : ∀ first second, (runtime.timers first).active = true →
    (runtime.timers second).active = true →
    (runtime.timers first).handle = (runtime.timers second).handle → first = second
  issued : ∀ index, (runtime.timers index).active = true → (runtime.timers index).handle ∈ handles

/-- The table is orderly at every moment of a visit, given the handles of the instance so far. -/
structure Visit.Orderly (visit : Visit) (handles : List UInt64) : Prop where
  before : ∀ runtime, visit.before.runtime = some runtime → OrderlyTable handles runtime
  entered : ∀ entered, visit.entered = some entered → OrderlyTable handles entered.host.runtime
  imports : ∀ entered, visit.entered = some entered → ∀ done imported rest,
    entered.imported = done ++ imported :: rest →
      OrderlyTable (handles ++ done.flatMap Imported.issued) imported.before.runtime ∧
      OrderlyTable (handles ++ done.flatMap Imported.issued ++ imported.issued)
        imported.after.runtime
  after : ∀ runtime, visit.after.runtime = some runtime →
    OrderlyTable (currentHandles handles visit) runtime

/-- A cancel that was let through did what it should. -/
def Imported.CancelsExactly (imported : Imported) : Prop :=
  ∀ handle, imported.call = .timerCancel handle →
    nativeOwner imported.world imported.before.runtime = .granted →
    (imported.cancelled = [handle] ↔
      imported.before.runtime.Live handle ∧ imported.before.runtime.stopping = false)

/-- The timer discipline of a run. -/
structure TimerDiscipline (visits : List Visit) : Prop where
  /-- Handles are issued in increasing order. -/
  increasing : (visits.flatMap Visit.issued).Pairwise (· < ·)
  /-- After the last handle no other is issued. -/
  exhausted : (visits.flatMap Visit.imports).Pairwise fun earlier later =>
    uint64Max ∈ earlier.issued → later.issued = []
  /-- The table is orderly at every moment. -/
  orderly : ∀ earlier visit later, visits = earlier ++ visit :: later →
    visit.Orderly (earlier.foldl currentHandles [])
  /-- Cancels succeed exactly for live handles. -/
  cancels : ∀ imported ∈ visits.flatMap Visit.imports, imported.CancelsExactly
  /-- What was cancelled, fired for the last time or dropped by stop is not heard of again. -/
  retired : (visits.flatMap Visit.notes).Pairwise fun earlier later =>
    ∀ handle, earlier.Retires handle → ¬ later.Uses handle
  /-- Nor is any handle of an instance that was closed. -/
  closed : ∀ earlier visit later, visits = earlier ++ visit :: later →
    visit.service = .closing → ∀ handle ∈ earlier.foldl currentHandles [],
      ∀ note ∈ later.flatMap Visit.notes, ¬ note.Uses handle
  /-- What is delivered to the guest or reported to the caller is what the notes say. -/
  delivers : ∀ visit ∈ visits, ∀ call runtime report, visit.service = .calling call →
    visit.before.runtime = some runtime → visit.report = some report →
    Delivers call runtime report

/-! ## The process -/

/-- A sound process whose table is in order, with the handles of its instance. -/
structure Process.Listed (handles : List UInt64) (process : Process) : Prop where
  sound : process.Sound
  below : ∀ handle ∈ handles, Issued process.nextTimerHandle handle
  table : ∀ runtime, process.runtime = some runtime → Tabled handles (process.host runtime)

/-- A handle that was issued in the process and is not active. -/
def Process.Gone (process : Process) (handle : UInt64) : Prop :=
  Issued process.nextTimerHandle handle ∧
    ∀ runtime, process.runtime = some runtime → ¬ runtime.Live handle

theorem listed_boot : Process.boot.Listed [] :=
  ⟨Process.sound_boot, by simp, fun _ hsome => by cases hsome⟩

/-- A fresh instance has an empty table. -/
theorem tabled_opened {runtime : Runtime} {limits : Limits} {buffer : List UInt8}
    (hfresh : runtime = Runtime.opened limits buffer) (nextTimerHandle : UInt64) :
    Tabled [] ⟨runtime, nextTimerHandle⟩ := by
  subst hfresh
  have hinactive : ∀ index, ((Runtime.opened limits buffer).timers index).active = true → False := by
    intro index hactive
    cases hactive
  exact ⟨⟨fun _ _ => rfl, fun first _ hfirst => (hinactive first hfirst).elim,
    fun index hactive => (hinactive index hactive).elim⟩,
    fun index hactive => (hinactive index hactive).elim, by simp⟩

theorem Tabled.table {handles : List UInt64} {host : Host} (htabled : Tabled handles host) :
    OrderlyTable handles host.runtime where
  slots := by
    intro index hactive
    have hslot := htabled.orderly.confined.hasSlot hactive
    simpa [Runtime.hasSlot] using hslot
  count := htabled.orderly.confined.card_le
  distinct := htabled.orderly.distinct
  issued := htabled.listed

/-! ## Calls -/

/-- A call keeps the table in order. -/
theorem Passage.tabled {first last : Host} {entered : Option Entered}
    (hpassage : Passage first entered last) {handles : List UInt64} (htabled : Tabled handles first) :
    Tabled (handles ++ (entered.toList.flatMap (·.imported)).flatMap Imported.issued) last := by
  cases hpassage with
  | outside hfades =>
      rw [Option.toList_none, List.flatMap_nil, List.flatMap_nil, List.append_nil]
      exact hfades.tabled htabled
  | through hbefore hwalk hafter =>
      rw [Option.toList_some, List.flatMap_singleton]
      exact hafter.tabled (tabled_of_imports hwalk (hbefore.tabled htabled))

/-- A call issues handles in increasing order. -/
theorem Passage.ledger {first last : Host} {entered : Option Entered}
    (hpassage : Passage first entered last) {handles : List UInt64}
    (hledger : Ledger handles first.nextTimerHandle) :
    Ledger (handles ++ (entered.toList.flatMap (·.imported)).flatMap Imported.issued)
      last.nextTimerHandle := by
  cases hpassage with
  | outside hfades =>
      rw [Option.toList_none, List.flatMap_nil, List.flatMap_nil, List.append_nil, hfades.next]
      exact hledger
  | through hbefore hwalk hafter =>
      rw [Option.toList_some, List.flatMap_singleton, hafter.next]
      apply ledger_of_imports hwalk
      rw [hbefore.next]
      exact hledger

/-- The moments inside a guest entry. -/
theorem Passage.moments {first last : Host} {entered : Entered}
    (hpassage : Passage first (some entered) last) {handles : List UInt64}
    (htabled : Tabled handles first) :
    OrderlyTable handles entered.host.runtime ∧ ∀ done imported rest,
      entered.imported = done ++ imported :: rest →
        OrderlyTable (handles ++ done.flatMap Imported.issued) imported.before.runtime ∧
        OrderlyTable (handles ++ done.flatMap Imported.issued ++ imported.issued)
          imported.after.runtime := by
  cases hpassage with
  | through hbefore hwalk hafter =>
      have hentered := hbefore.tabled htabled
      refine ⟨hentered.table, fun done imported rest hsplit => ?_⟩
      rw [hsplit] at hwalk
      obtain ⟨before, after, hdone, ⟨rfl, rfl, heffect, -⟩, -⟩ := hwalk.split
      have hmoment := tabled_of_imports hdone hentered
      exact ⟨hmoment.table, (heffect.tabled hmoment).table⟩

/-- Every cancel does what it should. -/
theorem cancelsExactly_importOnce (call : ImportCall) (world : Surroundings) {host : Host}
    (hlimits : limitsValid host.runtime.limits = true) (horderly : host.Orderly) :
    (importOnce call world host).CancelsExactly := by
  rintro handle rfl hgranted
  exact cancelled_importOnce hlimits horderly hgranted handle

/-- The cancels of a guest entry. -/
theorem Passage.cancels {first last : Host} {entered : Option Entered}
    (hpassage : Passage first entered last) (hlimits : limitsValid first.runtime.limits = true)
    (horderly : first.Orderly) :
    ∀ imported ∈ entered.toList.flatMap (·.imported), imported.CancelsExactly := by
  cases hpassage with
  | outside hfades =>
      intro imported hmem
      cases hmem
  | @through entered closed _ hbefore hwalk hafter =>
      rw [Option.toList_some, List.flatMap_singleton]
      have hentered : limitsValid entered.host.runtime.limits = true := by
        rw [hbefore.runtime.limits]
        exact hlimits
      have hkept : ∀ (before : Host) imported after,
          (before.Orderly ∧ limitsValid before.runtime.limits = true) →
          ImportStep before imported after →
          after.Orderly ∧ limitsValid after.runtime.limits = true := by
        rintro _ imported _ ⟨horderly, hlimits⟩ ⟨rfl, rfl, heffect, -⟩
        refine ⟨heffect.orderly horderly, ?_⟩
        rw [heffect.framed.limits]
        exact hlimits
      have hcancels : ∀ (before : Host) imported after,
          (before.Orderly ∧ limitsValid before.runtime.limits = true) →
          ImportStep before imported after → imported.CancelsExactly := by
        rintro _ imported _ ⟨horderly, hlimits⟩ ⟨rfl, -, -, hmade⟩
        rw [hmade]
        exact cancelsExactly_importOnce _ _ hlimits horderly
      exact hwalk.forall_mem hkept hcancels ⟨hbefore.orderly horderly, hentered⟩

/-! ## Visits of a process -/

/-- What a call does to the tables of its process. -/
structure Visit.Disciplined (visit : Visit) (handles : List UInt64) : Prop where
  listed : visit.after.Listed (currentHandles handles visit)
  orderly : visit.Orderly handles
  cancels : ∀ imported ∈ visit.imports, imported.CancelsExactly
  spends : Spends Process.Gone TimerNote.Retires TimerNote.Uses visit.before visit.notes visit.after
  delivers : ∀ call runtime report, visit.service = .calling call →
    visit.before.runtime = some runtime → visit.report = some report →
    Delivers call runtime report

/-- A visit that calls no instance. -/
theorem Visit.disciplined_of_uncalled {visit : Visit} {handles : List UInt64}
    (hbefore : visit.before.Listed handles) (hreport : visit.report = none)
    (hlisted : visit.after.Listed (currentHandles handles visit))
    (hkept : ∀ handle, visit.before.Gone handle → visit.after.Gone handle) :
    visit.Disciplined handles := by
  have hentered : visit.entered = none := by rw [Visit.entered, hreport]; rfl
  have hnotes : visit.notes = [] := by
    unfold Visit.notes
    rw [hreport]
    split
    · next hsome => cases hsome
    · rfl
  refine ⟨hlisted, ⟨?_, ?_, ?_, ?_⟩, ?_, ?_, ?_⟩
  · exact fun runtime hruntime => (hbefore.table runtime hruntime).table
  · intro entered hsome
    rw [hentered] at hsome
    cases hsome
  · intro entered hsome
    rw [hentered] at hsome
    cases hsome
  · exact fun runtime hruntime => (hlisted.table runtime hruntime).table
  · intro imported hmem
    rw [Visit.imports, hreport] at hmem
    cases hmem
  · rw [hnotes]
    exact .nil hkept
  · intro call runtime report _ _ hsome
    rw [hreport] at hsome
    cases hsome

/-- A visit that calls the instance. -/
theorem disciplined_call {before : Process} {handles : List UInt64} (hbefore : before.Listed handles)
    {runtime : Runtime} (hruntime : before.runtime = some runtime) (call : Call) :
    (before.call call).Disciplined handles := by
  have hsound := hbefore.sound runtime hruntime
  have htabled := hbefore.table runtime hruntime
  have houtcome := outcome_perform call (show (before.host runtime).runtime.Sound from hsound)
  have hafter := houtcome.passage.tabled htabled
  rw [Process.call_some hruntime]
  generalize perform call (before.host runtime) = report at houtcome hafter
  have hissued : (report.entered.toList.flatMap (·.imported)).flatMap Imported.issued =
      ([report].flatMap Report.imports).flatMap Imported.issued := by
    rw [List.flatMap_singleton, Report.imports]
  rw [hissued] at hafter
  refine ⟨⟨?_, hafter.below, ?_⟩, ⟨?_, ?_, ?_, ?_⟩, ?_, ?_, ?_⟩
  · rintro _ ⟨⟩
    exact houtcome.sound hsound
  · rintro _ ⟨⟩
    exact hafter
  · intro runtime' hruntime'
    exact (hbefore.table runtime' hruntime').table
  · intro entered hentered
    have hpassage := houtcome.passage
    rw [show report.entered = some entered from hentered] at hpassage
    exact (hpassage.moments htabled).1
  · intro entered hentered
    have hpassage := houtcome.passage
    rw [show report.entered = some entered from hentered] at hpassage
    exact (hpassage.moments htabled).2
  · rintro _ ⟨⟩
    exact hafter.table
  · intro imported hmem
    rw [Visit.imports, Option.toList_some, List.flatMap_singleton] at hmem
    exact houtcome.passage.cancels hsound.limits htabled.orderly imported hmem
  · rw [Visit.notes]
    simp only [hruntime]
    have hspends := houtcome.spends htabled.orderly
    apply hspends.view
    · exact fun handle hgone => ⟨hgone.1, hgone.2 runtime hruntime⟩
    · rintro handle ⟨hissued, hlive⟩
      refine ⟨hissued, ?_⟩
      rintro _ ⟨⟩
      exact hlive
  · rintro _ runtime' _ ⟨⟩ hruntime' ⟨⟩
    obtain rfl := Option.some.inj (hruntime.symm.trans hruntime')
    exact houtcome.delivers

/-- Every visit is disciplined. -/
theorem VisitStep.disciplined {before after : Process} {visit : Visit} {handles : List UInt64}
    (hbefore : before.Listed handles) (hstep : VisitStep before visit after) :
    visit.Disciplined handles := by
  have hsound := hstep.sound hbefore.sound
  cases hstep with
  | @opened request runtime hopens =>
      obtain ⟨hnone, limits, buffer, -, hfresh⟩ := hopens.spec
      have htabled := tabled_opened hfresh before.nextTimerHandle
      refine Visit.disciplined_of_uncalled hbefore rfl ⟨hsound, htabled.below, ?_⟩ ?_
      · rintro _ ⟨⟩
        exact htabled
      · rintro handle ⟨hissued, -⟩
        refine ⟨hissued, ?_⟩
        rintro _ ⟨⟩ ⟨index, hactive, -⟩
        rw [hfresh] at hactive
        cases hactive
  | notOpened hopens =>
      refine Visit.disciplined_of_uncalled hbefore rfl ?_ fun _ => id
      rw [show currentHandles handles _ = handles ++ [] from rfl, List.append_nil]
      exact hbefore
  | called call =>
      cases hruntime : before.runtime with
      | none =>
          rw [Process.call_none hruntime]
          refine Visit.disciplined_of_uncalled hbefore rfl ?_ fun _ => id
          rw [show currentHandles handles _ = handles ++ [] from rfl, List.append_nil]
          exact hbefore
      | some runtime => exact disciplined_call hbefore hruntime call
  | closed =>
      cases hruntime : before.runtime with
      | none =>
          rw [Process.close_none hruntime]
          refine Visit.disciplined_of_uncalled hbefore rfl ?_ fun _ => id
          rw [show currentHandles handles _ = handles ++ [] from rfl, List.append_nil]
          exact hbefore
      | some runtime =>
          rw [Process.close_idle hruntime (hbefore.sound runtime hruntime).idle] at hsound ⊢
          refine Visit.disciplined_of_uncalled hbefore rfl ⟨hsound, ?_, ?_⟩ ?_
          · rw [show currentHandles handles _ = handles ++ [] from rfl, List.append_nil]
            exact hbefore.below
          · intro _ hsome
            cases hsome
          · rintro handle ⟨hissued, -⟩
            refine ⟨hissued, ?_⟩
            intro _ hsome
            cases hsome

/-- Every visit issues handles in increasing order. -/
theorem VisitStep.ledger {before after : Process} {visit : Visit} (hsound : before.Sound)
    (hstep : VisitStep before visit after) {handles : List UInt64}
    (hledger : Ledger handles before.nextTimerHandle) :
    Ledger (handles ++ visit.issued) after.nextTimerHandle := by
  have hidle : ∀ visit : Visit, visit.report = none → handles ++ visit.issued = handles := by
    intro visit hreport
    rw [Visit.issued, Visit.imports, hreport]
    exact List.append_nil handles
  cases hstep with
  | opened hopens =>
      rw [hidle _ rfl]
      exact hledger
  | notOpened hopens =>
      rw [hidle _ rfl]
      exact hledger
  | called call =>
      cases hruntime : before.runtime with
      | none =>
          rw [Process.call_none hruntime, hidle _ rfl]
          exact hledger
      | some runtime =>
          have houtcome :=
            outcome_perform call (show (before.host runtime).runtime.Sound from hsound runtime hruntime)
          have hhost : Ledger handles (before.host runtime).nextTimerHandle := hledger
          have hafter := houtcome.passage.ledger hhost
          rw [Process.call_some hruntime, Visit.issued, Visit.imports, Option.toList_some,
            List.flatMap_singleton]
          exact hafter
  | closed =>
      cases hruntime : before.runtime with
      | none =>
          rw [Process.close_none hruntime, hidle _ rfl]
          exact hledger
      | some runtime =>
          rw [Process.close_idle hruntime (hsound runtime hruntime).idle, hidle _ rfl]
          exact hledger

/-! ## Runs -/

/-- What is known of a process after a run from boot. -/
theorem listed_of_visits {visits : List Visit} {last : Process}
    (hwalk : Walk VisitStep .boot visits last) :
    last.Listed (visits.foldl currentHandles []) ∧
      Ledger (visits.flatMap Visit.issued) last.nextTimerHandle := by
  have hboot : Process.boot.Listed (([] : List Visit).foldl currentHandles []) ∧
      Ledger (([] : List Visit).flatMap Visit.issued) Process.boot.nextTimerHandle :=
    ⟨listed_boot, .nil, by simp⟩
  apply hwalk.preservesAlong (J := fun past process =>
    process.Listed (past.foldl currentHandles []) ∧
      Ledger (past.flatMap Visit.issued) process.nextTimerHandle) _ hboot
  rintro past before visit after ⟨hlisted, hledger⟩ hstep
  constructor
  · rw [List.foldl_append, List.foldl_cons, List.foldl_nil, ← hstep.after_eq]
    exact (hstep.disciplined hlisted).listed
  · rw [List.flatMap_append, List.flatMap_singleton]
    exact hstep.ledger hlisted.sound hledger

/-- Closing leaves every handle of the instance dead. -/
theorem VisitStep.gone_of_closing {before after : Process} {visit : Visit} {handles : List UInt64}
    (hbefore : before.Listed handles) (hstep : VisitStep before visit after)
    (hclosing : visit.service = .closing) : ∀ handle ∈ handles, after.Gone handle := by
  intro handle hmem
  have hissued := hbefore.below handle hmem
  cases hstep with
  | opened hopens => cases hclosing
  | notOpened hopens => cases hclosing
  | called call =>
      unfold Process.call at hclosing
      split at hclosing <;> cases hclosing
  | closed =>
      cases hruntime : before.runtime with
      | none =>
          rw [Process.close_none hruntime]
          refine ⟨hissued, fun runtime hsome => ?_⟩
          rw [hruntime] at hsome
          cases hsome
      | some runtime =>
          rw [Process.close_idle hruntime (hbefore.sound runtime hruntime).idle]
          exact ⟨hissued, fun runtime hsome => by cases hsome⟩

/-- In a run whose process is listed, notes retire handles for good. -/
theorem spends_of_visits {first last : Process} {visits : List Visit}
    (hwalk : Walk VisitStep first visits last) {handles : List UInt64}
    (hfirst : first.Listed handles) :
    Spends Process.Gone TimerNote.Retires TimerNote.Uses first (visits.flatMap Visit.notes) last := by
  have hkept : ∀ before visit after, (∃ handles, before.Listed handles) →
      VisitStep before visit after → ∃ handles, after.Listed handles := by
    rintro before visit after ⟨handles, hlisted⟩ hstep
    refine ⟨currentHandles handles visit, ?_⟩
    rw [← hstep.after_eq]
    exact (hstep.disciplined hlisted).listed
  have hparts : ∀ before visit after, (∃ handles, before.Listed handles) →
      VisitStep before visit after →
      Spends Process.Gone TimerNote.Retires TimerNote.Uses before visit.notes after := by
    rintro before visit after ⟨handles, hlisted⟩ hstep
    rw [← hstep.before_eq, ← hstep.after_eq]
    exact (hstep.disciplined hlisted).spends
  exact hwalk.spends Visit.notes hkept hparts ⟨handles, hfirst⟩

/-- The timer discipline, over every run from boot. -/
theorem timer_discipline {visits : List Visit} {last : Process}
    (hwalk : Walk VisitStep .boot visits last) : TimerDiscipline visits := by
  have hmoment : ∀ earlier visit later, visits = earlier ++ visit :: later →
      ∃ before after, before.Listed (earlier.foldl currentHandles []) ∧
        VisitStep before visit after ∧ Walk VisitStep after later last := by
    rintro earlier visit later rfl
    obtain ⟨before, after, hearlier, hstep, hlater⟩ := hwalk.split
    exact ⟨before, after, (listed_of_visits hearlier).1, hstep, hlater⟩
  have hdisciplined : ∀ visit ∈ visits, ∃ handles, visit.Disciplined handles := by
    intro visit hvisit
    obtain ⟨earlier, later, hsplit⟩ := List.append_of_mem hvisit
    obtain ⟨before, after, hlisted, hstep, -⟩ := hmoment earlier visit later hsplit
    exact ⟨_, hstep.disciplined hlisted⟩
  have hincreasing := (listed_of_visits hwalk).2.increasing
  refine ⟨hincreasing, ?_, ?_, ?_, ?_, ?_, ?_⟩
  · have himports : (visits.flatMap Visit.imports).flatMap Imported.issued =
        visits.flatMap Visit.issued := List.flatMap_assoc
    rw [← himports, List.pairwise_flatMap] at hincreasing
    apply hincreasing.2.imp
    intro earlier later hless hlast
    rw [List.eq_nil_iff_forall_not_mem]
    intro handle hmem
    -- No handle is above the last one.
    have habove := hless uint64Max hlast handle hmem
    rw [UInt64.lt_iff_toNat_lt] at habove
    have hbound := handle.toNat_lt
    have hmax : (uint64Max : UInt64).toNat = 2 ^ 64 - 1 := rfl
    omega
  · intro earlier visit later hsplit
    obtain ⟨before, after, hlisted, hstep, -⟩ := hmoment earlier visit later hsplit
    exact (hstep.disciplined hlisted).orderly
  · intro imported hmem
    obtain ⟨visit, hvisit, hmem⟩ := List.mem_flatMap.mp hmem
    obtain ⟨handles, hdiscipline⟩ := hdisciplined visit hvisit
    exact hdiscipline.cancels imported hmem
  · exact (spends_of_visits hwalk listed_boot).ordered
  · intro earlier visit later hsplit hclosing handle hhandle note hnote huses
    obtain ⟨before, after, hlisted, hstep, hlater⟩ := hmoment earlier visit later hsplit
    have hgone := hstep.gone_of_closing hlisted hclosing handle hhandle
    have hafter := (hstep.disciplined hlisted).listed
    rw [hstep.after_eq] at hafter
    exact (spends_of_visits hlater hafter).unspent note hnote handle huses hgone
  · intro visit hvisit
    obtain ⟨handles, hdiscipline⟩ := hdisciplined visit hvisit
    exact hdiscipline.delivers

/-- A run of the sample instance, whose timer is polled and whose closing ends the run. -/
theorem timer_discipline_sampleOpen : ∃ visits : List Visit,
    visits.map (·.service) = [.opening sampleOpen, .calling (.init sampleEntry),
      .calling (.pollTimer true true (some 108) sampleAllocation sampleEntry),
      .calling (.stop sampleEntry), .closing] ∧ TimerDiscipline visits := by
  obtain ⟨opening, hopening, hopens⟩ := walk_sampleOpen
  obtain ⟨calling, last, hcalling, hcalls⟩ := walk_of_calls [.init sampleEntry,
    .pollTimer true true (some 108) sampleAllocation sampleEntry, .stop sampleEntry] sampleProcess
  have hclosing : last.close.service = .closing := by
    unfold Process.close
    repeat' split
    all_goals rfl
  refine ⟨_, ?_, timer_discipline (hopening.append (hcalling.append
    (.move (.closed last) (.stay _))))⟩
  simp [hopens, hcalls, hclosing]

end Container
