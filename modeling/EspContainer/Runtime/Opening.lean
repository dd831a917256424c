/-
# Opening and closing an instance

`econtainer_runtime_open`, `release_runtime` and `econtainer_runtime_close` as programs
over what they call: the allocator, the engine, the two atomic flags, and the pointer
variable of the caller. Every pointer that was handed out is named in the call that
gives it back, so a trace shows what was acquired and what was released.

`Parts` holds the fields of the instance that keep such pointers. `free` of a null
pointer does nothing and is no call here.
-/

import EspContainer.Interaction.Fallible
import EspContainer.Runtime.Instance
import EspContainer.Runtime.RawScan

namespace Container

open Interaction Package

/-- An address the allocator or the engine has handed out. -/
abbrev Pointer : Type := Nat

/-! ## The engine's view of a module -/

/-- `wasm_valkind_t`, as far as it matters. -/
inductive ValueKind
  | i32
  | other
  deriving DecidableEq

/-- `wasm_func_type_t`. -/
structure FunctionType where
  params : List ValueKind
  results : List ValueKind

/-- The kind and the type of an export; the type may be a null pointer. -/
inductive ExportKind
  | function (type : Option FunctionType)
  | memory (shared : Option Bool)
  | other

/-- `wasm_export_t`. -/
structure ModuleExport where
  name : Option String
  kind : ExportKind

/-- `function_type_matches` on an export of function kind. -/
def functionTypeMatches (paramCount : Nat) : ExportKind → Bool
  | .function (some type) =>
      type.params.length == paramCount && type.results.length == 1 &&
        type.results.all (· == .i32) && type.params.all (· == .i32)
  | _ => false

/-- The check of an exported memory. -/
def memoryTypeMatches : ExportKind → Bool
  | .memory (some shared) => !shared
  | _ => false

/-- The flags of `module_abi_matches`. -/
structure AbiFound where
  init : Bool
  event : Bool
  stop : Bool
  memory : Bool

/-- One round of `module_abi_matches`. -/
def abiRound (found : AbiFound) (exported : ModuleExport) : Option AbiFound :=
  match exported.name with
  | none => none
  | some name =>
      if name = "econtainer_init" then
        if found.init || !functionTypeMatches 0 exported.kind then none
        else some { found with init := true }
      else if name = "econtainer_on_event" then
        if found.event || !functionTypeMatches 2 exported.kind then none
        else some { found with event := true }
      else if name = "econtainer_stop" then
        if found.stop || !functionTypeMatches 0 exported.kind then none
        else some { found with stop := true }
      else if name = "memory" then
        if found.memory || !memoryTypeMatches exported.kind then none
        else some { found with memory := true }
      else none

/-- `module_abi_matches`. -/
def moduleAbiMatches (exports : List ModuleExport) : Bool :=
  exports.length == 4 &&
    match exports.foldlM abiRound ⟨false, false, false, false⟩ with
    | none => false
    | some found => found.init && found.event && found.stop && found.memory

/-! ## Calls -/

/-- The fields of `struct econtainer_runtime` that keep what opening acquired. -/
structure Parts where
  pendingLog : Option Pointer
  wasmCopy : Option Pointer
  wamrInitialized : Bool
  nativesRegistered : Bool
  module : Option Pointer
  moduleInstance : Option Pointer
  environment : Option Pointer
  deriving DecidableEq

/-- The fields `calloc` has cleared. -/
def Parts.none : Parts := ⟨.none, .none, false, false, .none, .none, .none⟩

/-- What opening and closing call. -/
inductive EngineCall
  | /-- `atomic_compare_exchange_strong(&runtime_claimed, &expected, true)`. -/
    claimRuntime
  | /-- `atomic_store(&runtime_claimed, false)`. -/
    releaseClaim
  | /-- `claim_call`, and the fields of the instance if it succeeds. -/
    claimCall (runtime : Pointer)
  | /-- `*out = runtime`. -/
    publish (runtime : Pointer) (parts : Parts)
  | /-- `*runtime = NULL`. -/
    clearPointer
  | callocRuntime
  | freeRuntime (runtime : Pointer)
  | malloc (sizeBytes : Nat)
  | free (memory : Pointer)
  | wamrInit
  | wamrDestroy
  | registerNatives (runtime : Pointer) (symbols : List String)
  | unregisterNatives (runtime : Pointer)
  | load (wasmCopy : Pointer) (sizeBytes : Nat)
  | unload (module : Pointer)
  | exports (module : Pointer)
  | instantiate (module : Pointer) (stackSizeBytes heapSizeBytes : UInt32)
  | deinstantiate (moduleInstance : Pointer)
  | createExecEnv (moduleInstance : Pointer) (stackSizeBytes : UInt32)
  | destroyExecEnv (environment : Pointer)
  | lookup (moduleInstance : Pointer) (name : String)

/-- How opening and closing are answered. Fresh memory comes with its contents. -/
@[reducible]
def EnginePort : Interface where
  Call := EngineCall
  Answer
    | .claimRuntime => Bool
    | .claimCall _ => Option Parts
    | .callocRuntime => Option Pointer
    | .malloc _ => Option (Pointer × List UInt8)
    | .wamrInit => Bool
    | .registerNatives _ _ => Bool
    | .load _ _ => Option Pointer
    | .exports _ => List ModuleExport
    | .instantiate _ _ _ => Option Pointer
    | .createExecEnv _ _ => Option Pointer
    | .lookup _ _ => Bool
    | _ => Unit

/-- Make a call. -/
abbrev engine (call : EngineCall) : Program EnginePort (EnginePort.Answer call) :=
  Program.call (I := EnginePort) call

/-- Give back what a pointer field holds, unless it is null. -/
def giveBack (field : Option Pointer) (call : Pointer → EngineCall) : Program EnginePort Unit :=
  match field with
  | .none => pure ()
  | some pointer => do
      let _ ← engine (call pointer)
      pure ()

/-- Give something back if a flag says that it is there. -/
def giveBackIf (flag : Bool) (call : EngineCall) : Program EnginePort Unit :=
  if flag then do
    let _ ← engine call
    pure ()
  else pure ()

/-- `release_runtime` on a non-null pointer. -/
def releaseRuntime (runtime : Pointer) (parts : Parts) : Program EnginePort Unit := do
  giveBack parts.environment .destroyExecEnv
  giveBack parts.moduleInstance .deinstantiate
  giveBack parts.module .unload
  giveBackIf parts.nativesRegistered (.unregisterNatives runtime)
  giveBack parts.pendingLog .free
  giveBack parts.wasmCopy .free
  giveBackIf parts.wamrInitialized .wamrDestroy
  engine (.freeRuntime runtime)
  engine .releaseClaim

/-! ## Opening -/

/-- The arguments of `econtainer_runtime_open`: each may be null, and `out` may point to
a pointer that is not. -/
structure OpenRequest where
  wasm : Option (List UInt8)
  limits : Option Limits
  out : Option (Option Pointer)

/-- What the checks before the claim establish. -/
structure Admitted where
  wasm : List UInt8
  limits : Limits
  requiredCapabilities : UInt32

/-- The part of `econtainer_runtime_open` before the claim. -/
def OpenRequest.accept (request : OpenRequest) : Except RuntimeError Admitted :=
  match request.out, request.wasm, request.limits with
  | some .none, some wasm, some limits =>
      if wasm.length == 0 || wasm.length > uint32Max.toNat || !limitsValid limits ||
          wasm.length > limits.maxWasmBytes.toNat then
        .error .invalidInput
      else
        match wasmImportedCapabilities wasm with
        | .none => .error .badWasm
        | some requiredCapabilities =>
            if requiredCapabilities &&& ~~~limits.allowedCapabilities != 0 then
              .error .notAuthorized
            else if !wasmMemoryWithinLimit wasm limits.maxMemoryPages then .error .badAbi
            else .ok ⟨wasm, limits, requiredCapabilities⟩
  | _, _, _ => .error .invalidInput

namespace Admitted

/-- The module imports functions of a capability. -/
def requires (admitted : Admitted) (capability : UInt32) : Bool :=
  admitted.requiredCapabilities &&& capability != 0

/-- `native_symbols`, by name. -/
def nativeSymbols (admitted : Admitted) : List String :=
  (if admitted.requires capMonotonicTime then ["monotonic_ms"] else []) ++
    (if admitted.requires capLog then ["log"] else []) ++
    (if admitted.requires capTimer then ["timer_start", "timer_cancel"] else [])

end Admitted

/-- A step of `econtainer_runtime_open`. -/
abbrev Opening (α : Type) : Type := Fallible EnginePort RuntimeError α

/-- `release_runtime(runtime); return code;`. -/
def abandonOpen {α : Type} (runtime : Pointer) (parts : Parts) (code : RuntimeError) :
    Opening α := do
  Fallible.attempt (releaseRuntime runtime parts)
  throw code

/-- Go on with what was handed out, or give up. -/
def orAbandon {α : Type} (runtime : Pointer) (parts : Parts) (code : RuntimeError)
    (handed : Option α) : Opening α :=
  match handed with
  | .none => abandonOpen runtime parts code
  | some value => pure value

/-- Go on if a step succeeded, or give up. -/
def orAbandonUnless (runtime : Pointer) (parts : Parts) (code : RuntimeError) (succeeded : Bool) :
    Opening Unit :=
  if succeeded then pure () else abandonOpen runtime parts code

/-- The log buffer: its contents, and the fields with it. -/
def allocateLog (admitted : Admitted) (runtime : Pointer) (parts : Parts) :
    Opening (List UInt8 × Parts) :=
  if admitted.requires capLog then do
    let answer ← Fallible.attempt (engine (.malloc admitted.limits.maxLogBytes.toNat))
    let (memory, contents) ← orAbandon runtime parts .noMemory answer
    pure (contents, { parts with pendingLog := some memory })
  else pure ([], parts)

/-- The writable copy of the module. -/
def copyWasm (admitted : Admitted) (runtime : Pointer) (parts : Parts) :
    Opening (Pointer × Parts) := do
  let answer ← Fallible.attempt (engine (.malloc admitted.wasm.length))
  let (memory, _) ← orAbandon runtime parts .noMemory answer
  pure (memory, { parts with wasmCopy := some memory })

/-- The engine, and the functions it lets the guest import. -/
def startEngine (admitted : Admitted) (runtime : Pointer) (parts : Parts) : Opening Parts := do
  let started ← Fallible.attempt (engine .wamrInit)
  orAbandonUnless runtime parts .engineFailure started
  let parts := { parts with wamrInitialized := true }
  if admitted.nativeSymbols.length != 0 then do
    let registered ← Fallible.attempt (engine (.registerNatives runtime admitted.nativeSymbols))
    orAbandonUnless runtime parts .engineFailure registered
    pure { parts with nativesRegistered := true }
  else pure parts

/-- The module, if its exports are right. -/
def loadModule (admitted : Admitted) (runtime wasmCopy : Pointer) (parts : Parts) :
    Opening (Pointer × Parts) := do
  let answer ← Fallible.attempt (engine (.load wasmCopy admitted.wasm.length))
  let module ← orAbandon runtime parts .badWasm answer
  let parts := { parts with module := some module }
  let exports ← Fallible.attempt (engine (.exports module))
  orAbandonUnless runtime parts .badAbi (moduleAbiMatches exports)
  pure (module, parts)

/-- The module instance, its environment and its entry functions. -/
def instantiateModule (admitted : Admitted) (runtime module : Pointer) (parts : Parts) :
    Opening Parts := do
  let answer ← Fallible.attempt (engine (.instantiate module admitted.limits.stackSizeBytes
    admitted.limits.heapSizeBytes))
  let moduleInstance ← orAbandon runtime parts .engineFailure answer
  let parts := { parts with moduleInstance := some moduleInstance }
  let environment ← Fallible.attempt
    (engine (.createExecEnv moduleInstance admitted.limits.stackSizeBytes))
  let parts := { parts with environment := environment }
  let init ← Fallible.attempt (engine (.lookup moduleInstance "econtainer_init"))
  let event ← Fallible.attempt (engine (.lookup moduleInstance "econtainer_on_event"))
  let stop ← Fallible.attempt (engine (.lookup moduleInstance "econtainer_stop"))
  orAbandonUnless runtime parts .engineFailure (environment.isSome && init && event && stop)
  pure parts

/-- The part of `econtainer_runtime_open` after `calloc`. -/
def buildRuntime (admitted : Admitted) (runtime : Pointer) : Opening Runtime := do
  let (buffer, parts) ← allocateLog admitted runtime .none
  let (wasmCopy, parts) ← copyWasm admitted runtime parts
  let parts ← startEngine admitted runtime parts
  let (module, parts) ← loadModule admitted runtime wasmCopy parts
  let parts ← instantiateModule admitted runtime module parts
  Fallible.attempt (engine (.publish runtime parts))
  pure (Runtime.opened admitted.limits buffer)

/-- The part of `econtainer_runtime_open` after the claim. -/
def openClaimed (admitted : Admitted) : Opening Runtime := do
  let answer ← Fallible.attempt (engine .callocRuntime)
  match answer with
  | .none => do
      Fallible.attempt (engine .releaseClaim)
      throw .noMemory
  | some runtime => buildRuntime admitted runtime

/-- `econtainer_runtime_open`; its result is the instance `*out` points to. -/
def openRuntime (request : OpenRequest) : Opening Runtime :=
  match request.accept with
  | .error code => throw code
  | .ok admitted => do
      let claimed ← Fallible.attempt (engine .claimRuntime)
      Fallible.require claimed .busy
      openClaimed admitted

/-! ## Closing -/

/-- `econtainer_runtime_close`; the pointer to the caller's variable may be null, and so
may the variable. -/
def closeRuntime (runtime : Option (Option Pointer)) : Opening Unit :=
  match runtime with
  | some (some address) => do
      let claimed ← Fallible.attempt (engine (.claimCall address))
      match claimed with
      | .none => throw .busy
      | some parts => do
          Fallible.attempt (releaseRuntime address parts)
          Fallible.attempt (engine .clearPointer)
  | _ => pure ()

/-! ## A sample -/

/-- Limits that grant everything, in small amounts. -/
def sampleLimits : Limits where
  maxWasmBytes := 1024
  maxMemoryPages := 1
  stackSizeBytes := 1024
  heapSizeBytes := 1024
  maxEventBytes := 64
  allowedCapabilities := 7
  maxLogBytes := 16
  maxTimers := 2
  initInstructionBudget := 1000
  eventInstructionBudget := 1000
  stopInstructionBudget := 1000
  maxEntryDurationMs := 10

/-- A module that imports all four functions and exports what it has to: sections of types,
imports, functions, memory, exports and code. -/
def sampleModule : List UInt8 :=
  [0, 97, 115, 109, 1, 0, 0, 0] ++
  [1, 26, 5, 96, 0, 1, 127, 96, 2, 127, 127, 1, 127, 96, 0, 1, 126, 96, 2, 127, 127, 1, 126, 96,
    1, 126, 1, 127] ++
  [2, 95, 4, 10, 101, 99, 111, 110, 116, 97, 105, 110, 101, 114, 12, 109, 111, 110, 111, 116,
    111, 110, 105, 99, 95, 109, 115, 0, 2, 10, 101, 99, 111, 110, 116, 97, 105, 110, 101, 114, 3,
    108, 111, 103, 0, 1, 10, 101, 99, 111, 110, 116, 97, 105, 110, 101, 114, 11, 116, 105, 109,
    101, 114, 95, 115, 116, 97, 114, 116, 0, 3, 10, 101, 99, 111, 110, 116, 97, 105, 110, 101,
    114, 12, 116, 105, 109, 101, 114, 95, 99, 97, 110, 99, 101, 108, 0, 4] ++
  [3, 4, 3, 0, 1, 0] ++
  [5, 4, 1, 1, 1, 1] ++
  [7, 68, 4, 15, 101, 99, 111, 110, 116, 97, 105, 110, 101, 114, 95, 105, 110, 105, 116, 0, 4, 19,
    101, 99, 111, 110, 116, 97, 105, 110, 101, 114, 95, 111, 110, 95, 101, 118, 101, 110, 116, 0,
    5, 15, 101, 99, 111, 110, 116, 97, 105, 110, 101, 114, 95, 115, 116, 111, 112, 0, 6, 6, 109,
    101, 109, 111, 114, 121, 2, 0] ++
  [10, 16, 3, 4, 0, 65, 0, 11, 4, 0, 65, 0, 11, 4, 0, 65, 0, 11]

/-- An open of that module. -/
def sampleOpen : OpenRequest := ⟨some sampleModule, some sampleLimits, some .none⟩

/-- The fields of the instance it leads to. -/
def sampleParts : Parts :=
  ⟨some sampleLimits.maxLogBytes.toNat, some sampleModule.length, true, true, some 3, some 4, some 5⟩

/-- An engine that serves every request. Its allocator takes a size for an address. -/
def sampleEngine : (call : EngineCall) → EnginePort.Answer call
  | .claimRuntime => true
  | .claimCall _ => some sampleParts
  | .callocRuntime => some (1 : Nat)
  | .malloc sizeBytes => some (sizeBytes, List.replicate sizeBytes 0)
  | .wamrInit => true
  | .registerNatives _ _ => true
  | .load _ _ => some (3 : Nat)
  | .exports _ =>
      [⟨some "econtainer_init", .function (some ⟨[], [.i32]⟩)⟩,
        ⟨some "econtainer_on_event", .function (some ⟨[.i32, .i32], [.i32]⟩)⟩,
        ⟨some "econtainer_stop", .function (some ⟨[], [.i32]⟩)⟩,
        ⟨some "memory", .memory (some false)⟩]
  | .instantiate _ _ _ => some (4 : Nat)
  | .createExecEnv _ _ => some (5 : Nat)
  | .lookup _ _ => true
  | .releaseClaim | .publish _ _ | .clearPointer | .freeRuntime _ | .free _ | .wamrDestroy
  | .unregisterNatives _ | .unload _ | .deinstantiate _ | .destroyExecEnv _ => ()

/-- What passes every check is admitted. -/
theorem OpenRequest.accept_eq_ok {wasm : List UInt8} {limits : Limits}
    {requiredCapabilities : UInt32} (hlimits : limitsValid limits = true) (hbegun : wasm ≠ [])
    (hsize : wasm.length ≤ limits.maxWasmBytes.toNat)
    (hrange : wasm.length ≤ uint32Max.toNat)
    (hcapabilities : wasmImportedCapabilities wasm = some requiredCapabilities)
    (hauthorized : requiredCapabilities &&& ~~~limits.allowedCapabilities = 0)
    (hmemory : wasmMemoryWithinLimit wasm limits.maxMemoryPages = true) :
    OpenRequest.accept ⟨some wasm, some limits, some .none⟩ =
      .ok ⟨wasm, limits, requiredCapabilities⟩ := by
  have hsize' : ¬ limits.maxWasmBytes.toNat < wasm.length := Nat.not_lt.mpr hsize
  have hrange' : ¬ uint32Max.toNat < wasm.length := Nat.not_lt.mpr hrange
  simp [OpenRequest.accept, hlimits, hbegun, hsize', hrange', hcapabilities, hauthorized, hmemory]

/-- The open of an admitted request is the claim and what follows it. -/
theorem openRuntime_of_accept {request : OpenRequest} {admitted : Admitted}
    (haccept : request.accept = .ok admitted) :
    openRuntime request = (Fallible.attempt (engine .claimRuntime) >>= fun claimed =>
      Fallible.require claimed .busy >>= fun _ => openClaimed admitted) := by
  unfold openRuntime
  rw [haccept]

theorem accept_sampleOpen : sampleOpen.accept = .ok ⟨sampleModule, sampleLimits, 7⟩ := by
  apply OpenRequest.accept_eq_ok
  all_goals decide +kernel

end Container
