/-
# Calls of an instance

The methods of `runtime.c` on an opened instance. All of them claim the instance for
the time of the call, and four of them may enter the guest through `invoke`.

What a guest does in one entry is the finite sequence of imports it makes and the way
the entry ends, each with the readings of the clock around it. That is data of the
call: quantifying over it covers every guest, also one that chooses its next import by
the values it was given. A report says what a call returned and wrote to its caller's
outputs, and which guest function it entered, if any.
-/

import EspContainer.Runtime.Imports

namespace Container

/-- The guest's functions. -/
inductive GuestFunction
  | init
  | onEvent
  | stop
  deriving DecidableEq, Repr

/-- How `wasm_runtime_call_wasm` comes back: its result, the exception that is set, and
the first argument word, which holds a returned value. -/
structure Ending where
  callOk : Bool
  exception : Option String
  argument : UInt32

/-- What the guest and the clock do in one entry. -/
structure Entry where
  began : Option UInt64
  imports : List (ImportCall × Surroundings)
  ending : Ending
  ended : Option UInt64

/-- A guest function that was entered: the event it was given, the host at that moment, and
the imports made. -/
structure Entered where
  function : GuestFunction
  event : List UInt8
  host : Host
  imported : List Imported

/-- What `invoke` comes back with; the status carries `*result`. -/
structure Invocation where
  status : Except RuntimeError Int32
  host : Host
  entered : Option Entered

/-- `expire_entry`, less its result. -/
def expireEntry (priorLogSize : Nat) (runtime : Runtime) : Runtime :=
  Runtime.clearTimers { runtime with state := .failed, pendingLogSize := priorLogSize }

/-- The result of an entry that has come back from the guest. -/
def settle (entry : Entry) (priorLogSize : Nat) (host : Host) : Except RuntimeError Int32 × Host :=
  if host.runtime.entryExpired then
    (.error .entryExpired, host.onRuntime (expireEntry priorLogSize))
  else if !entry.ending.callOk then
    (.error (if entry.ending.exception = some "Exception: instruction limit exceeded" then
        .instructionLimit
      else .engineFailure), host.setState .failed)
  else if entry.ending.exception.isSome then
    (.error .engineFailure, host.setState .failed)
  else
    match entry.ended with
    | none => (.error .engineFailure, host.setState .failed)
    | some ended =>
        if ended ≥ host.runtime.entryDeadlineMs then
          (.error .entryExpired, host.onRuntime (expireEntry priorLogSize))
        else (.ok entry.ending.argument.toInt32, host)

/-- What `invoke` sets before it calls the guest. -/
def enter (began : UInt64) (runtime : Runtime) : Runtime :=
  { runtime with
    entryDeadlineMs := began + runtime.limits.maxEntryDurationMs.toUInt64
    entryExpired := false
    guestActive := true }

/-- The host comes back from the guest. -/
def leave (host : Host) : Host :=
  host.onRuntime fun runtime => { runtime with guestActive := false }

/-- The part of `invoke` after the deadline was set. -/
def enterGuest (function : GuestFunction) (event : List UInt8) (entry : Entry) (began : UInt64)
    (host : Host) : Invocation :=
  let opened := host.onRuntime (enter began)
  let (imported, closed) := serve entry.imports opened
  let (status, last) := settle entry host.runtime.pendingLogSize (leave closed)
  ⟨status, last, some ⟨function, event, opened, imported⟩⟩

/-- `invoke`. -/
def invoke (function : GuestFunction) (event : List UInt8) (entry : Entry) (host : Host) :
    Invocation :=
  match entry.began with
  | none => ⟨.error .engineFailure, host.setState .failed, none⟩
  | some began =>
      if began > uint64Max - host.runtime.limits.maxEntryDurationMs.toUInt64 then
        ⟨.error .engineFailure, host.setState .failed, none⟩
      else enterGuest function event entry began host

/-- `econtainer_timer_event_t`. -/
structure TimerEvent where
  handle : UInt64
  skippedPeriods : UInt32
  deriving DecidableEq

/-- What a call returned, what it left, and what it wrote to its caller's outputs. -/
structure Report where
  result : Except RuntimeError Unit
  host : Host
  entered : Option Entered
  guestResult : Option Int32
  timerEvent : Option TimerEvent
  log : Option (List UInt8)
  deadlineMs : Option UInt64

/-- A call that enters no guest and writes no output. -/
def answer (result : Except RuntimeError Unit) (host : Host) : Report :=
  ⟨result, host, none, none, none, none, none⟩

/-- `atomic_store(&runtime->call_active, active)`. -/
def setCallActive (active : Bool) (runtime : Runtime) : Runtime :=
  { runtime with callActive := active }

/-- Claim the instance for a call and release it again, or refuse. -/
def withClaim (body : Host → Report) (host : Host) : Report :=
  if host.runtime.callActive then answer (.error .busy) host
  else
    let report := body (host.onRuntime (setCallActive true))
    { report with host := report.host.onRuntime (setCallActive false) }

/-! ## Init and stop -/

/-- The claimed part of `econtainer_runtime_init`. -/
def initClaimed (entry : Entry) (host : Host) : Report :=
  if host.runtime.state ≠ .loaded then answer (.error .invalidState) host
  else
    let call := invoke .init [] entry host
    match call.status with
    | .error code =>
        { answer (.error code) (call.host.onRuntime Runtime.clearTimers) with
          entered := call.entered }
    | .ok result =>
        if result ≠ 0 then
          { answer (.error .guestFailure)
              ((call.host.setState .failed).onRuntime Runtime.clearTimers) with
            entered := call.entered }
        else
          { answer (.ok ()) (call.host.setState .running) with entered := call.entered }

/-- The claimed part of `econtainer_runtime_stop`. Timers go before the guest is entered. -/
def stopClaimed (entry : Entry) (host : Host) : Report :=
  if host.runtime.state = .stopped then answer (.ok ()) host
  else if host.runtime.state ≠ .running then answer (.error .invalidState) host
  else
    let call := invoke .stop [] entry (host.onRuntime fun runtime =>
      Runtime.clearTimers { runtime with stopping := true })
    match call.status with
    | .error code => { answer (.error code) call.host with entered := call.entered }
    | .ok result =>
        if result ≠ 0 then
          { answer (.error .guestFailure) (call.host.setState .failed) with
            entered := call.entered }
        else
          { answer (.ok ()) (call.host.setState .stopped) with entered := call.entered }

/-! ## Events -/

/-- The event argument of a call: a buffer, or a null pointer with a size. -/
inductive EventArgument
  | bytes (event : List UInt8)
  | null (sizeBytes : Nat)

/-- `event_size_bytes`. -/
def EventArgument.sizeBytes : EventArgument → Nat
  | .bytes event => event.length
  | .null sizeBytes => sizeBytes

/-- The bytes the guest gets. -/
def EventArgument.content : EventArgument → List UInt8
  | .bytes event => event
  | .null _ => []

/-- `event == NULL`. -/
def EventArgument.isNull : EventArgument → Bool
  | .bytes _ => false
  | .null _ => true

/-- What `wasm_runtime_module_malloc` returns: an offset, and an address or null. -/
structure Allocation where
  offset : UInt64
  mapped : Bool

/-- `E`, `C`, `T` and the version of the timer event encoding. -/
def timerEventMagic : List UInt8 := [0x45, 0x43, 0x54, 1]

/-- The events only the runtime itself may deliver. -/
def EventArgument.reserved : EventArgument → Bool
  | .bytes event => event.length == 16 && event.take 4 == timerEventMagic
  | .null _ => false

/-- `call_event`. -/
def callEvent (event : EventArgument) (hasGuestResult : Bool) (allocation : Allocation)
    (entry : Entry) (host : Host) : Report :=
  if !hasGuestResult || event.sizeBytes > host.runtime.limits.maxEventBytes.toNat ||
      (event.sizeBytes > 0 && event.isNull) then
    answer (.error .invalidInput) host
  else if event.sizeBytes > 0 &&
      (allocation.offset == 0 || allocation.offset > uint32Max || !allocation.mapped) then
    answer (.error .noMemory) host
  else
    let call := invoke .onEvent event.content entry host
    match call.status with
    | .error code => { answer (.error code) call.host with entered := call.entered }
    | .ok result =>
        { answer (.ok ()) call.host with entered := call.entered, guestResult := some result }

/-- The claimed part of `econtainer_runtime_on_event`. -/
def onEventClaimed (event : EventArgument) (hasGuestResult : Bool) (allocation : Allocation)
    (entry : Entry) (host : Host) : Report :=
  if host.runtime.state = .running then
    if event.reserved then answer (.error .invalidInput) host
    else callEvent event hasGuestResult allocation entry host
  else answer (.error .invalidState) host

/-! ## Logs and deadlines -/

/-- The claimed part of `econtainer_runtime_take_log`; `output` is the capacity of the
destination unless that is null. -/
def takeLogClaimed (output : Option Nat) (host : Host) : Report :=
  if host.runtime.pendingLogSize = 0 then answer (.error .noLog) host
  else
    match output with
    | none => answer (.error .invalidInput) host
    | some capacity =>
        if capacity < host.runtime.pendingLogSize then answer (.error .invalidInput) host
        else
          { answer (.ok ()) (host.onRuntime fun runtime => { runtime with pendingLogSize := 0 })
            with log := some host.runtime.pending }

/-- The earliest deadline below `earliest` of the active timers that pass a check, with
its slot: the loop of `next_timer_deadline` and of `poll_timer`. -/
def earliestTimer (runtime : Runtime) (due : Timer → Bool) : Option (Fin timerCapacity) × UInt64 :=
  (List.finRange timerCapacity).foldl
    (fun best index =>
      let timer := runtime.timers index
      if runtime.hasSlot index && timer.active && due timer && timer.deadlineMs < best.2 then
        (some index, timer.deadlineMs)
      else best)
    (none, uint64Max)

/-- The claimed part of `econtainer_runtime_next_timer_deadline`. -/
def nextTimerDeadlineClaimed (host : Host) : Report :=
  if host.runtime.state ≠ .running then answer (.error .invalidState) host
  else
    let earliest := (earliestTimer host.runtime fun _ => true).2
    if earliest ≠ uint64Max then { answer (.ok ()) host with deadlineMs := some earliest }
    else answer (.error .noTimer) host

/-! ## Timer delivery -/

/-- The number of whole periods that passed since the deadline of a due timer. -/
def skippedPeriods (timer : Timer) (now : UInt64) : UInt32 :=
  let missed := (now - timer.deadlineMs) / timer.periodMs.toUInt64
  if missed > uint32Max then uint32Max.toUInt32 else missed.toUInt32

/-- `until_next`. -/
def untilNext (timer : Timer) (now : UInt64) : UInt32 :=
  timer.periodMs - ((now - timer.deadlineMs) % timer.periodMs.toUInt64).toUInt32

/-- What becomes of a timer that is delivered: the timer after it, and the number of
periods that were missed. A periodic timer keeps its rhythm. -/
def rearm (timer : Timer) (now : UInt64) : Timer × UInt32 :=
  if timer.periodMs = 0 then ({ timer with active := false }, 0)
  else if now > uint64Max - (untilNext timer now).toUInt64 then
    ({ timer with active := false }, skippedPeriods timer now)
  else ({ timer with deadlineMs := now + (untilNext timer now).toUInt64 }, skippedPeriods timer now)

/-- The 16 bytes of a timer event. -/
def timerEventBytes (handle : UInt64) (skipped : UInt32) : List UInt8 :=
  timerEventMagic ++
    (List.range 8).map (fun index => (handle >>> (index * 8).toUInt64).toUInt8) ++
    (List.range 4).map fun index => (skipped >>> (index * 8).toUInt32).toUInt8

/-- The part of `poll_timer` that delivers the selected timer. -/
def deliverTimer (slot : Fin timerCapacity) (now : UInt64) (hasGuestResult : Bool)
    (allocation : Allocation) (entry : Entry) (host : Host) : Report :=
  let previous := host.runtime.timers slot
  let (timer, skipped) := rearm previous now
  let report := callEvent (.bytes (timerEventBytes previous.handle skipped)) hasGuestResult
    allocation entry (host.onRuntime fun runtime => runtime.setTimer slot timer)
  match report.result with
  | .error .noMemory =>
      { report with
        host := report.host.onRuntime fun runtime => runtime.setTimer slot previous }
  | .error _ => report
  | .ok () => { report with timerEvent := some ⟨previous.handle, skipped⟩ }

/-- The claimed part of `econtainer_runtime_poll_timer`. -/
def pollTimerClaimed (now : Option UInt64) (hasGuestResult : Bool) (allocation : Allocation)
    (entry : Entry) (host : Host) : Report :=
  if host.runtime.state ≠ .running then answer (.error .invalidState) host
  else
    match now with
    | none => answer (.error .engineFailure) host
    | some now =>
        match (earliestTimer host.runtime fun timer => timer.deadlineMs ≤ now).1 with
        | none => answer (.error .noTimer) host
        | some slot => deliverTimer slot now hasGuestResult allocation entry host

/-! ## All calls -/

/-- A call of an opened instance, with what the guest, the clock and the engine do
during it. Output pointers that may be null are flags. -/
inductive Call
  | init (entry : Entry)
  | onEvent (event : EventArgument) (hasGuestResult : Bool) (allocation : Allocation)
      (entry : Entry)
  | stop (entry : Entry)
  | takeLog (output : Option Nat) (hasSize : Bool)
  | nextTimerDeadline (hasDeadline : Bool)
  | pollTimer (hasEvent hasGuestResult : Bool) (now : Option UInt64) (allocation : Allocation)
      (entry : Entry)

/-- The part of a call under the claim. -/
def Call.claimed : Call → Host → Report
  | .init entry => initClaimed entry
  | .onEvent event hasGuestResult allocation entry =>
      onEventClaimed event hasGuestResult allocation entry
  | .stop entry => stopClaimed entry
  | .takeLog output _ => takeLogClaimed output
  | .nextTimerDeadline _ => nextTimerDeadlineClaimed
  | .pollTimer _ hasGuestResult now allocation entry =>
      pollTimerClaimed now hasGuestResult allocation entry

/-- A null output pointer that the call refuses before it claims the instance. -/
def Call.refused : Call → Bool
  | .takeLog _ hasSize => !hasSize
  | .nextTimerDeadline hasDeadline => !hasDeadline
  | .pollTimer hasEvent hasGuestResult _ _ _ => !hasEvent || !hasGuestResult
  | _ => false

/-- Perform a call on an instance. -/
def perform (call : Call) (host : Host) : Report :=
  if call.refused then answer (.error .invalidInput) host
  else withClaim call.claimed host

end Container
