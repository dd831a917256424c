/-
# The process

One process opens, calls and closes instances, one after another; at most one is there
at a time, and `next_timer_handle` outlives them all. A visit is one such request with
what came of it. Opening is any execution of `econtainer_runtime_open`, so every way in
which the allocator or the engine can let it down is a visit too.
-/

import EspContainer.Runtime.Opening
import EspContainer.Runtime.Passages

namespace Container

open Interaction Package

/-- The instance that is there, if any, and `next_timer_handle`. -/
structure Process where
  runtime : Option Runtime
  nextTimerHandle : UInt64

/-- A request to the component. -/
inductive Service
  | opening (request : OpenRequest)
  | calling (call : Call)
  | closing

/-- A request and what came of it; `report` is there if an instance was called. -/
structure Visit where
  service : Service
  before : Process
  result : Except RuntimeError Unit
  report : Option Report
  after : Process

/-- The guest function that was entered. -/
def Visit.entered (visit : Visit) : Option Entered := visit.report.bind (·.entered)

namespace Process

/-- The process after boot. -/
def boot : Process := ⟨none, 1⟩

/-- A process whose instance has just been opened. -/
def opened (limits : Limits) (buffer : List UInt8) (nextTimerHandle : UInt64) : Process :=
  ⟨some (Runtime.opened limits buffer), nextTimerHandle⟩

/-- The instance as its imports see it. -/
def host (process : Process) (runtime : Runtime) : Host := ⟨runtime, process.nextTimerHandle⟩

end Process

/-- What a call through a null pointer returns. -/
def Call.onNull : Call → RuntimeError
  | .init _ => .invalidState
  | .onEvent _ _ _ _ => .invalidState
  | .stop _ => .invalidState
  | .takeLog _ _ => .invalidInput
  | .nextTimerDeadline _ => .invalidInput
  | .pollTimer _ _ _ _ _ => .invalidInput

namespace Process

/-- Call the instance. -/
def call (process : Process) (call : Call) : Visit :=
  match process.runtime with
  | none => ⟨.calling call, process, .error call.onNull, none, process⟩
  | some runtime =>
      let report := perform call (process.host runtime)
      ⟨.calling call, process, report.result, some report,
        ⟨some report.host.runtime, report.host.nextTimerHandle⟩⟩

/-- `econtainer_runtime_close` on the variable that holds the instance. -/
def close (process : Process) : Visit :=
  match process.runtime with
  | none => ⟨.closing, process, .ok (), none, process⟩
  | some runtime =>
      if runtime.callActive then ⟨.closing, process, .error .busy, none, process⟩
      else ⟨.closing, process, .ok (), none, { process with runtime := none }⟩

theorem call_none {process : Process} (hnone : process.runtime = none) (call : Call) :
    process.call call = ⟨.calling call, process, .error call.onNull, none, process⟩ := by
  unfold Process.call
  rw [hnone]

theorem call_some {process : Process} {runtime : Runtime} (hsome : process.runtime = some runtime)
    (call : Call) :
    process.call call = ⟨.calling call, process, (perform call (process.host runtime)).result,
      some (perform call (process.host runtime)),
      ⟨some (perform call (process.host runtime)).host.runtime,
        (perform call (process.host runtime)).host.nextTimerHandle⟩⟩ := by
  unfold Process.call
  rw [hsome]

theorem close_none {process : Process} (hnone : process.runtime = none) :
    process.close = ⟨.closing, process, .ok (), none, process⟩ := by
  unfold Process.close
  rw [hnone]

theorem close_idle {process : Process} {runtime : Runtime} (hsome : process.runtime = some runtime)
    (hidle : runtime.callActive = false) :
    process.close = ⟨.closing, process, .ok (), none, { process with runtime := none }⟩ := by
  unfold Process.close
  simp only [hsome, hidle, Bool.false_eq_true, if_false]

/-- A finished open: the claim is there exactly if no instance is. -/
def Opens (process : Process) (request : OpenRequest) (result : Except RuntimeError Runtime) :
    Prop :=
  ∃ trace, Exec (World.free EnginePort) (openRuntime request).run () trace (.ret result) () ∧
    ∀ claimed, ⟨.claimRuntime, claimed⟩ ∈ trace → claimed = process.runtime.isNone

end Process

/-- What a process can do next. -/
inductive VisitStep : Process → Visit → Process → Prop
  | opened {process : Process} {request : OpenRequest} {runtime : Runtime}
      (hopens : process.Opens request (.ok runtime)) :
      VisitStep process
        ⟨.opening request, process, .ok (), none, { process with runtime := some runtime }⟩
        { process with runtime := some runtime }
  | notOpened {process : Process} {request : OpenRequest} {code : RuntimeError}
      (hopens : process.Opens request (.error code)) :
      VisitStep process ⟨.opening request, process, .error code, none, process⟩ process
  | called (process : Process) (call : Call) :
      VisitStep process (process.call call) (process.call call).after
  | closed (process : Process) : VisitStep process process.close process.close.after

theorem VisitStep.before_eq {before after : Process} {visit : Visit}
    (hstep : VisitStep before visit after) : visit.before = before := by
  cases hstep with
  | opened hopens => rfl
  | notOpened hopens => rfl
  | called call =>
      unfold Process.call
      split <;> rfl
  | closed =>
      unfold Process.close
      repeat' split
      all_goals rfl

theorem VisitStep.after_eq {before after : Process} {visit : Visit}
    (hstep : VisitStep before visit after) : visit.after = after := by
  cases hstep <;> rfl

/-! ## Opening -/

/-- What is admitted has valid limits. -/
theorem OpenRequest.limits_of_accept {request : OpenRequest} {admitted : Admitted}
    (haccept : request.accept = .ok admitted) : limitsValid admitted.limits = true := by
  unfold OpenRequest.accept at haccept
  split at haccept
  · split at haccept
    · cases haccept
    next hinput =>
    split at haccept
    · cases haccept
    split at haccept
    · cases haccept
    split at haccept
    · cases haccept
    · cases haccept
      simp only [Bool.or_eq_true, Bool.not_eq_true', not_or, Bool.not_eq_false] at hinput
      exact hinput.1.2
  · cases haccept

/-- The instance an open leads to is a fresh one. -/
theorem yields_openClaimed (admitted : Admitted) :
    (openClaimed admitted).Yields (fun _ => True)
      (fun runtime => ∃ buffer, runtime = Runtime.opened admitted.limits buffer) := by
  have hany : ∀ {α β : Type} (step : Opening α) (rest : α → Opening β) {result : β → Prop},
      (∀ value, (rest value).Yields (fun _ => True) result) →
      (step >>= rest).Yields (fun _ => True) result := by
    intro α β step rest result hrest
    rw [Fallible.yields_bind]
    exact Fallible.yields_of_forall step (fun _ => trivial) hrest
  unfold openClaimed
  apply hany
  intro answer
  cases answer with
  | none => exact hany _ _ fun _ => trivial
  | some runtime =>
      unfold buildRuntime
      apply hany
      rintro ⟨buffer, _⟩
      apply hany
      rintro ⟨wasmCopy, _⟩
      apply hany
      intro _
      apply hany
      rintro ⟨module, _⟩
      apply hany
      intro _
      apply hany
      intro _
      exact ⟨buffer, rfl⟩

/-- Opening succeeds only where no instance is, and the new instance has valid limits. -/
theorem Process.Opens.spec {process : Process} {request : OpenRequest} {runtime : Runtime}
    (hopens : process.Opens request (.ok runtime)) :
    process.runtime = none ∧ ∃ limits buffer, limitsValid limits = true ∧
      runtime = Runtime.opened limits buffer := by
  obtain ⟨trace, hexec, hclaimed⟩ := hopens
  unfold openRuntime at hexec
  cases haccept : request.accept with
  | error code =>
      rw [haccept] at hexec
      cases hexec
  | ok admitted =>
      rw [haccept] at hexec
      cases hexec with
      | @step _ _ claimed _ _ _ rest _ _ hrest =>
          have hfree := hclaimed claimed (List.mem_cons_self)
          cases claimed with
          | false => cases hrest
          | true =>
              refine ⟨Option.isNone_iff_eq_none.mp hfree.symm, admitted.limits, ?_⟩
              have hfresh := Program.Safe.post_of_exec (yields_openClaimed admitted) hrest
              obtain ⟨buffer, hbuffer⟩ := hfresh
              exact ⟨buffer, request.limits_of_accept haccept, hbuffer⟩

/-! ## Sound processes -/

/-- The instance of a process is sound. -/
def Process.Sound (process : Process) : Prop :=
  ∀ runtime, process.runtime = some runtime → runtime.Sound

theorem Runtime.sound_opened {limits : Limits} (hlimits : limitsValid limits = true)
    (buffer : List UInt8) : (Runtime.opened limits buffer).Sound :=
  ⟨hlimits, rfl, fun _ _ => rfl⟩

theorem Process.sound_boot : Process.boot.Sound := nofun

theorem Process.sound_opened {limits : Limits} (hlimits : limitsValid limits = true)
    (buffer : List UInt8) (nextTimerHandle : UInt64) :
    (Process.opened limits buffer nextTimerHandle).Sound := by
  rintro _ ⟨⟩
  exact Runtime.sound_opened hlimits buffer

/-- Every visit leaves a sound process sound. -/
theorem VisitStep.sound {before after : Process} {visit : Visit} (hsound : before.Sound)
    (hstep : VisitStep before visit after) : after.Sound := by
  cases hstep with
  | opened hopens =>
      obtain ⟨-, limits, buffer, hlimits, rfl⟩ := hopens.spec
      rintro _ ⟨⟩
      exact Runtime.sound_opened hlimits buffer
  | notOpened hopens => exact hsound
  | called call =>
      cases hruntime : before.runtime with
      | none =>
          rw [Process.call_none hruntime]
          exact hsound
      | some runtime =>
          rw [Process.call_some hruntime]
          rintro _ ⟨⟩
          have hbefore := hsound runtime hruntime
          exact (outcome_perform call (show (before.host runtime).runtime.Sound from hbefore)).sound
            hbefore
  | closed =>
      cases hruntime : before.runtime with
      | none =>
          rw [Process.close_none hruntime]
          exact hsound
      | some runtime =>
          rw [Process.close_idle hruntime (hsound runtime hruntime).idle]
          nofun

/-- A sound process stays sound. -/
theorem sound_of_visits {first last : Process} {visits : List Visit}
    (hwalk : Walk VisitStep first visits last) (hfirst : first.Sound) : last.Sound :=
  hwalk.preserves (J := Process.Sound) (fun _ _ _ hsound hstep => hstep.sound hsound) hfirst

/-! ## A sample -/

/-- The instance the sample open leads to. -/
def sampleRuntime : Runtime := Runtime.opened sampleLimits (List.replicate 16 0)

theorem opens_sampleOpen : Process.boot.Opens sampleOpen (.ok sampleRuntime) := by
  have hexec := Exec.of_eval sampleEngine (openRuntime sampleOpen).run
  have hresult : (openRuntime sampleOpen).run.eval sampleEngine = .ok sampleRuntime := by
    rw [openRuntime_of_accept accept_sampleOpen]
    rfl
  rw [hresult] at hexec
  have hanswers := Program.mem_calls sampleEngine (openRuntime sampleOpen).run
  generalize (openRuntime sampleOpen).run.calls sampleEngine = trace at hexec hanswers
  exact ⟨trace, hexec, fun claimed hclaimed => hanswers _ hclaimed⟩

/-- The process right after that open. -/
def sampleProcess : Process := ⟨some sampleRuntime, 1⟩

/-- The visit that opens it. -/
def sampleOpening : Visit := ⟨.opening sampleOpen, .boot, .ok (), none, sampleProcess⟩

theorem walk_sampleOpening : Walk VisitStep .boot [sampleOpening] sampleProcess :=
  .move (.opened opens_sampleOpen) (.stay _)

theorem walk_sampleOpen : ∃ visits : List Visit, Walk VisitStep .boot visits sampleProcess ∧
    visits.map (·.service) = [.opening sampleOpen] :=
  ⟨_, walk_sampleOpening, rfl⟩

/-- An import that reads the clock once or twice at the same time. -/
def sampleSurroundings (now : UInt64) : Surroundings :=
  ⟨true, some now, some now, true, true, fun index => index.toUInt8⟩

/-- An entry at time 100 that logs three bytes and starts a timer. -/
def sampleEntry : Entry where
  began := some 100
  imports := [(.log 1 3, sampleSurroundings 101), (.timerStart 5 0, sampleSurroundings 102)]
  ending := ⟨true, none, 0⟩
  ended := some 103

/-- The engine has room for an event. -/
def sampleAllocation : Allocation := ⟨64, true⟩

/-- The visits of calls that are made one after the other. -/
def Process.visits : List Call → Process → List Visit
  | [], _ => []
  | call :: calls, process => process.call call :: visits calls (process.call call).after

/-- The process after them. -/
def Process.afterCalls (calls : List Call) (process : Process) : Process :=
  calls.foldl (fun process call => (process.call call).after) process

theorem walk_visits (calls : List Call) (process : Process) :
    Walk VisitStep process (Process.visits calls process) (Process.afterCalls calls process) := by
  induction calls generalizing process with
  | nil => exact .stay process
  | cons call calls ih => exact .move (.called process call) (ih (process.call call).after)

/-- Calls can be made one after the other. -/
theorem walk_of_calls (calls : List Call) (process : Process) :
    ∃ visits last, Walk VisitStep process visits last ∧
      visits.map (·.service) = calls.map Service.calling := by
  refine ⟨_, _, walk_visits calls process, ?_⟩
  induction calls generalizing process with
  | nil => rfl
  | cons call calls ih =>
      rw [Process.visits, List.map_cons, List.map_cons, ih]
      congr 1
      unfold Process.call
      split <;> rfl

end Container
