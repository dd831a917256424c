/-
# The container instance

The instance record of `runtime.c` and what the code asks of it: the limits it was
opened with, its lifecycle state, the one pending log record, the timer table, and
the flags of the call in progress. The engine's own objects (module, execution
environment, functions) take part in opening and closing only and are not here.

The log buffer and the size of the pending record are separate fields, as in the
code: an entry that expires restores the size and not the bytes.
-/

import EspContainer.Package.Manifest

namespace Container

open Package

/-- `ECONTAINER_TIMER_CAPACITY`. -/
abbrev timerCapacity : Nat := 8

/-- `ECONTAINER_TIMER_MAX_INTERVAL_MS`. -/
abbrev timerMaxIntervalMs : UInt32 := 86400000

/-- `UINT64_MAX`. -/
abbrev uint64Max : UInt64 := 18446744073709551615

/-- `UINT32_MAX`. -/
abbrev uint32Max : UInt64 := 4294967295

/-- `econtainer_runtime_result_t` without `OK`, which is success. -/
inductive RuntimeError
  | invalidInput
  | busy
  | invalidState
  | badWasm
  | badAbi
  | noMemory
  | engineFailure
  | instructionLimit
  | guestFailure
  | noLog
  | noTimer
  | notAuthorized
  | entryExpired
  deriving DecidableEq, Repr

/-- `econtainer_runtime_state_t`. -/
inductive RuntimeState
  | loaded
  | running
  | stopped
  | failed
  deriving DecidableEq, Repr

/-- `econtainer_runtime_limits_t`. -/
structure Limits where
  maxWasmBytes : UInt32
  maxMemoryPages : UInt32
  stackSizeBytes : UInt32
  heapSizeBytes : UInt32
  maxEventBytes : UInt32
  allowedCapabilities : UInt32
  maxLogBytes : UInt32
  maxTimers : UInt32
  initInstructionBudget : Int32
  eventInstructionBudget : Int32
  stopInstructionBudget : Int32
  maxEntryDurationMs : UInt32

namespace Limits

/-- A capability is granted. -/
def allows (limits : Limits) (capability : UInt32) : Bool :=
  limits.allowedCapabilities &&& capability != 0

end Limits

/-- `limits_valid` on a non-null pointer. -/
def limitsValid (limits : Limits) : Bool :=
  limits.maxWasmBytes > 0 &&
  limits.maxMemoryPages > 0 && limits.stackSizeBytes > 0 &&
  limits.heapSizeBytes > 0 && limits.maxEventBytes > 0 &&
  limits.maxEventBytes ≤ limits.heapSizeBytes &&
  limits.allowedCapabilities &&& ~~~capAll == 0 &&
  (if limits.allows capLog then limits.maxLogBytes > 0 && limits.maxLogBytes ≤ 256
    else limits.maxLogBytes == 0) &&
  (if limits.allows capTimer then
      limits.maxTimers > 0 && limits.maxTimers.toNat ≤ timerCapacity && limits.maxEventBytes ≥ 16
    else limits.maxTimers == 0) &&
  limits.initInstructionBudget > 0 &&
  limits.eventInstructionBudget > 0 &&
  limits.stopInstructionBudget > 0 &&
  limits.maxEntryDurationMs > 0

/-- `econtainer_timer_t`. -/
structure Timer where
  handle : UInt64
  deadlineMs : UInt64
  periodMs : UInt32
  active : Bool
  deriving DecidableEq

/-- The all-zero timer. -/
def Timer.zero : Timer := ⟨0, 0, 0, false⟩

/-- `struct econtainer_runtime`. `pendingLog` is the log buffer, of which the first
`pendingLogSize` bytes are the pending record. -/
structure Runtime where
  limits : Limits
  state : RuntimeState
  pendingLog : List UInt8
  pendingLogSize : Nat
  callActive : Bool
  guestActive : Bool
  entryExpired : Bool
  entryDeadlineMs : UInt64
  stopping : Bool
  timers : Fin timerCapacity → Timer

namespace Runtime

/-- What `econtainer_runtime_open` sets up: zeros, the limits, and a log buffer whose
contents `malloc` leaves open. -/
def opened (limits : Limits) (buffer : List UInt8) : Runtime where
  limits := limits
  state := .loaded
  pendingLog := buffer
  pendingLogSize := 0
  callActive := false
  guestActive := false
  entryExpired := false
  entryDeadlineMs := 0
  stopping := false
  timers _ := Timer.zero

/-- The slots of the timer table in use, `index < max_timers`. -/
def hasSlot (runtime : Runtime) (index : Fin timerCapacity) : Bool :=
  index.val < runtime.limits.maxTimers.toNat

/-- The loop that sets `active = false` in every slot. -/
def clearTimers (runtime : Runtime) : Runtime :=
  { runtime with
    timers := fun index =>
      if runtime.hasSlot index then { runtime.timers index with active := false }
      else runtime.timers index }

/-- The first slot that is not active. -/
def freeSlot (runtime : Runtime) : Option (Fin timerCapacity) :=
  (List.finRange timerCapacity).find? fun index =>
    runtime.hasSlot index && !(runtime.timers index).active

/-- The first slot in which a handle is active. -/
def slotOf (runtime : Runtime) (handle : UInt64) : Option (Fin timerCapacity) :=
  (List.finRange timerCapacity).find? fun index =>
    runtime.hasSlot index && (runtime.timers index).active &&
      (runtime.timers index).handle == handle

/-- Store a timer in a slot. -/
def setTimer (runtime : Runtime) (index : Fin timerCapacity) (timer : Timer) : Runtime :=
  { runtime with timers := Function.update runtime.timers index timer }

/-- The pending log record; empty when there is none. -/
def pending (runtime : Runtime) : List UInt8 :=
  runtime.pendingLog.take runtime.pendingLogSize

/-- A timer with this handle is active. -/
def Live (runtime : Runtime) (handle : UInt64) : Prop :=
  ∃ index, (runtime.timers index).active = true ∧ (runtime.timers index).handle = handle

end Runtime

/-- An instance together with `next_timer_handle`, which outlives it: what host
imports can reach. -/
structure Host where
  runtime : Runtime
  nextTimerHandle : UInt64

namespace Host

/-- Change the instance only. -/
def onRuntime (host : Host) (change : Runtime → Runtime) : Host :=
  { host with runtime := change host.runtime }

@[simp]
theorem runtime_onRuntime (host : Host) (change : Runtime → Runtime) :
    (host.onRuntime change).runtime = change host.runtime := rfl

@[simp]
theorem nextTimerHandle_onRuntime (host : Host) (change : Runtime → Runtime) :
    (host.onRuntime change).nextTimerHandle = host.nextTimerHandle := rfl

/-- `runtime->state = state`. -/
def setState (host : Host) (state : RuntimeState) : Host :=
  host.onRuntime fun runtime => { runtime with state := state }

end Host

/-- `econtainer_runtime_issue_timer_handle` on a non-null counter: the handle, and the
counter after it. -/
def issueTimerHandle (nextHandle : UInt64) : UInt64 × UInt64 :=
  if nextHandle = 0 then (0, 0) else (nextHandle, nextHandle + 1)

end Container
