/-
# Host imports

The four functions a guest may import. Each first finds out whether the call belongs
to the entry in progress (`native_owner`), then whether the instance may use it, and
only then does its work. What the surroundings contribute to one call (the clock, the
engine's identity and address checks, guest memory) is data of that call, so a
sequence of imports with their surroundings is all a guest can do to its host.

An exception is reported to the engine next to the value; what the engine makes of it
is part of how the entry ends.
-/

import EspContainer.Runtime.Instance

namespace Container

open Package

/-- What the engine and the platform contribute to one import call. -/
structure Surroundings where
  /-- The attached instance is there, and this environment and module are its own. -/
  owner : Bool
  /-- The clock reading of the ownership check. -/
  ownerClock : Option UInt64
  /-- The clock reading of the import itself. -/
  clock : Option UInt64
  /-- `wasm_runtime_validate_app_addr`. -/
  validAddress : Bool
  /-- `wasm_runtime_addr_app_to_native` is not null. -/
  mapped : Bool
  /-- Guest memory. -/
  memory : Nat → UInt8

namespace Surroundings

/-- The bytes guest memory holds in a range. -/
def bytes (world : Surroundings) (offset sizeBytes : UInt32) : List UInt8 :=
  (List.range sizeBytes.toNat).map fun index => world.memory (offset.toNat + index)

@[simp]
theorem length_bytes (world : Surroundings) (offset sizeBytes : UInt32) :
    (world.bytes offset sizeBytes).length = sizeBytes.toNat := by
  simp [bytes]

end Surroundings

/-- What an import returns: its value, the exception it sets, and the host after it. -/
structure Native (α : Type) where
  answer : α
  exception : Option String
  host : Host

/-- The outcomes of `native_owner`. -/
inductive OwnerCheck
  | granted
  | refused (exception : String)
  | expired

/-- The text set when an entry has run out of time. -/
def entryExpiredReason : String := "container entry expired"

/-- The text set when the clock cannot be read. -/
def clockFailed : String := "Exception: monotonic clock failed"

/-- `native_owner`, less the flag it sets for an expired entry. -/
def nativeOwner (world : Surroundings) (runtime : Runtime) : OwnerCheck :=
  if !world.owner || !runtime.guestActive || !runtime.callActive then
    .refused "Exception: invalid container host call owner"
  else
    match world.ownerClock with
    | none => .refused clockFailed
    | some now => if now ≥ runtime.entryDeadlineMs then .expired else .granted

/-- What the four imports have in common: the ownership check, the capability check,
and a value for either refusal. -/
def hostImport {α : Type} (capability : UInt32) (notAuthorized : String) (denied : α)
    (work : Surroundings → Host → Native α) (world : Surroundings) (host : Host) : Native α :=
  match nativeOwner world host.runtime with
  | .refused exception => ⟨denied, some exception, host⟩
  | .expired => ⟨denied, some entryExpiredReason,
      host.onRuntime fun runtime => { runtime with entryExpired := true }⟩
  | .granted =>
      if host.runtime.limits.allows capability then work world host
      else ⟨denied, some notAuthorized, host⟩

/-- `native_monotonic_ms`. -/
def nativeMonotonicMs : Surroundings → Host → Native UInt64 :=
  hostImport capMonotonicTime "Exception: container clock not authorized" 0 fun world host =>
    match world.clock with
    | none => ⟨0, some clockFailed, host⟩
    | some now => ⟨now, none, host⟩

/-- `memcpy` into the log buffer. -/
def Runtime.keepLog (runtime : Runtime) (record : List UInt8) : Runtime :=
  { runtime with
    pendingLog := record ++ runtime.pendingLog.drop record.length
    pendingLogSize := record.length }

/-- `native_log`. -/
def nativeLog (offset sizeBytes : UInt32) : Surroundings → Host → Native Int32 :=
  hostImport capLog "Exception: container log not authorized" (-1) fun world host =>
    if sizeBytes == 0 || sizeBytes > host.runtime.limits.maxLogBytes then ⟨-1, none, host⟩
    else if host.runtime.pendingLogSize ≠ 0 then ⟨-2, none, host⟩
    else if !world.validAddress then ⟨-1, none, host⟩
    else if !world.mapped then ⟨-1, some "Exception: invalid container log buffer", host⟩
    else ⟨0, none, host.onRuntime fun runtime =>
      runtime.keepLog (world.bytes offset sizeBytes)⟩

/-- The argument checks of `native_timer_start`. -/
def timerStartValid (delayMs periodMs : UInt32) (host : Host) : Bool :=
  !(host.runtime.stopping ||
    (host.runtime.state != .loaded && host.runtime.state != .running) ||
    delayMs == 0 || delayMs > timerMaxIntervalMs || periodMs > timerMaxIntervalMs ||
    host.nextTimerHandle == 0)

/-- `native_timer_start`. -/
def nativeTimerStart (delayMs periodMs : UInt32) : Surroundings → Host → Native UInt64 :=
  hostImport capTimer "Exception: container timer not authorized" 0 fun world host =>
    if !timerStartValid delayMs periodMs host then ⟨0, none, host⟩
    else
      match host.runtime.freeSlot with
      | none => ⟨0, none, host⟩
      | some slot =>
          match world.clock with
          | none => ⟨0, some clockFailed, host⟩
          | some now =>
              if now > uint64Max - delayMs.toUInt64 then ⟨0, none, host⟩
              else
                let (handle, next) := issueTimerHandle host.nextTimerHandle
                ⟨handle, none,
                  { runtime := host.runtime.setTimer slot
                      ⟨handle, now + delayMs.toUInt64, periodMs, true⟩
                    nextTimerHandle := next }⟩

/-- `native_timer_cancel`. -/
def nativeTimerCancel (handle : UInt64) : Surroundings → Host → Native Int32 :=
  hostImport capTimer "Exception: container timer not authorized" (-1) fun _ host =>
    if host.runtime.stopping || handle == 0 then ⟨-1, none, host⟩
    else
      match host.runtime.slotOf handle with
      | none => ⟨-1, none, host⟩
      | some slot => ⟨0, none, host.onRuntime fun runtime =>
          runtime.setTimer slot { runtime.timers slot with active := false }⟩

/-! ## Sequences of imports -/

/-- A host import as the guest calls it. -/
inductive ImportCall
  | monotonicMs
  | log (offset sizeBytes : UInt32)
  | timerStart (delayMs periodMs : UInt32)
  | timerCancel (handle : UInt64)
  deriving DecidableEq

/-- The type of value an import returns. -/
@[reducible]
def ImportCall.Answer : ImportCall → Type
  | .monotonicMs => UInt64
  | .log _ _ => Int32
  | .timerStart _ _ => UInt64
  | .timerCancel _ => Int32

/-- The import functions by name. -/
def native : (call : ImportCall) → Surroundings → Host → Native call.Answer
  | .monotonicMs => nativeMonotonicMs
  | .log offset sizeBytes => nativeLog offset sizeBytes
  | .timerStart delayMs periodMs => nativeTimerStart delayMs periodMs
  | .timerCancel handle => nativeTimerCancel handle

/-- An import call that was made, with the host around it. -/
structure Imported where
  call : ImportCall
  world : Surroundings
  before : Host
  answer : call.Answer
  after : Host

/-- Make one import call. -/
def importOnce (call : ImportCall) (world : Surroundings) (host : Host) : Imported :=
  let result := native call world host
  ⟨call, world, host, result.answer, result.host⟩

/-- The imports of a guest entry, made one after the other. -/
def serve : List (ImportCall × Surroundings) → Host → List Imported × Host
  | [], host => ([], host)
  | (call, world) :: rest, host =>
      let imported := importOnce call world host
      let (later, last) := serve rest imported.after
      (imported :: later, last)

end Container
