/-
# What opening acquires and closing gives back

A trace of opening or closing shows which resources were acquired, which were given
back, and when the instance was handed to the caller. The results are about every
execution of the two programs: an open that fails at any point has given back exactly
what it had acquired, an open that succeeds hands over everything it acquired with the
instance, and a close gives back exactly what the instance holds.

Both programs use `runtime_claimed` as a lock that travels: an open takes it and hands
it over with the instance, a close takes it with the call flag of the instance.
-/

import EspContainer.Interaction.Locking
import EspContainer.Runtime.Opening

namespace Container

open Interaction Package

/-! ## Resources -/

/-- What opening can acquire. Native symbols are registered under the instance. -/
inductive Resource
  | runtime (address : Pointer)
  | memory (address : Pointer)
  | wamr
  | natives (runtime : Pointer)
  | module (address : Pointer)
  | moduleInstance (address : Pointer)
  | environment (address : Pointer)
  deriving DecidableEq

/-- The resource an answered call acquired. -/
def acquires : Event EnginePort → Option Resource
  | ⟨.callocRuntime, answer⟩ => Option.map .runtime answer
  | ⟨.malloc _, answer⟩ => Option.map (fun handed => .memory handed.1) answer
  | ⟨.wamrInit, answer⟩ => if answer then some .wamr else none
  | ⟨.registerNatives runtime _, answer⟩ => if answer then some (.natives runtime) else none
  | ⟨.load _ _, answer⟩ => Option.map .module answer
  | ⟨.instantiate _ _ _, answer⟩ => Option.map .moduleInstance answer
  | ⟨.createExecEnv _ _, answer⟩ => Option.map .environment answer
  | _ => none

/-- The resource a call gives back. -/
def EngineCall.releases : EngineCall → Option Resource
  | .freeRuntime runtime => some (.runtime runtime)
  | .free memory => some (.memory memory)
  | .wamrDestroy => some .wamr
  | .unregisterNatives runtime => some (.natives runtime)
  | .unload module => some (.module module)
  | .deinstantiate moduleInstance => some (.moduleInstance moduleInstance)
  | .destroyExecEnv environment => some (.environment environment)
  | _ => none

/-- The instance a call hands to the caller of open. -/
def EngineCall.hands : EngineCall → Option (Pointer × Parts)
  | .publish runtime parts => some (runtime, parts)
  | _ => none

/-- The instance an answered call took for closing. -/
def takes : Event EnginePort → Option (Pointer × Parts)
  | ⟨.claimCall runtime, answer⟩ => Option.map (fun parts => (runtime, parts)) answer
  | _ => none

/-- What a trace acquired, in order. -/
def acquired (trace : Trace EnginePort) : List Resource := trace.filterMap acquires

/-- What a trace gave back, in order. -/
def released (trace : Trace EnginePort) : List Resource := trace.filterMap (·.1.releases)

/-- The instances a trace handed to callers. -/
def handed (trace : Trace EnginePort) : List (Pointer × Parts) := trace.filterMap (·.1.hands)

/-- The instances a trace took for closing. -/
def taken (trace : Trace EnginePort) : List (Pointer × Parts) := trace.filterMap takes

section

variable (trace : Trace EnginePort) (event : Event EnginePort)

@[simp]
theorem acquired_append_singleton :
    acquired (trace ++ [event]) = acquired trace ++ (acquires event).toList := by
  cases h : acquires event <;> simp [acquired, List.filterMap_append, h]

@[simp]
theorem released_append_singleton :
    released (trace ++ [event]) = released trace ++ event.1.releases.toList := by
  cases h : event.1.releases <;> simp [released, List.filterMap_append, h]

@[simp]
theorem handed_append_singleton :
    handed (trace ++ [event]) = handed trace ++ event.1.hands.toList := by
  cases h : event.1.hands <;> simp [handed, List.filterMap_append, h]

@[simp]
theorem taken_append_singleton :
    taken (trace ++ [event]) = taken trace ++ (takes event).toList := by
  cases h : takes event <;> simp [taken, List.filterMap_append, h]

end

/-- What the fields of an instance hold, in the order in which open fills them. -/
def Parts.resources (runtime : Pointer) (parts : Parts) : List Resource :=
  .runtime runtime :: (parts.pendingLog.map Resource.memory).toList ++
    (parts.wasmCopy.map Resource.memory).toList ++
    (if parts.wamrInitialized then [.wamr] else []) ++
    (if parts.nativesRegistered then [.natives runtime] else []) ++
    (parts.module.map Resource.module).toList ++
    (parts.moduleInstance.map Resource.moduleInstance).toList ++
    (parts.environment.map Resource.environment).toList

/-- The same in the order in which `release_runtime` gives it back. -/
def Parts.teardown (runtime : Pointer) (parts : Parts) : List Resource :=
  (parts.environment.map Resource.environment).toList ++
    (parts.moduleInstance.map Resource.moduleInstance).toList ++
    (parts.module.map Resource.module).toList ++
    (if parts.nativesRegistered then [.natives runtime] else []) ++
    (parts.pendingLog.map Resource.memory).toList ++
    (parts.wasmCopy.map Resource.memory).toList ++
    (if parts.wamrInitialized then [.wamr] else []) ++ [.runtime runtime]

theorem Parts.teardown_perm (runtime : Pointer) (parts : Parts) :
    (parts.teardown runtime).Perm (parts.resources runtime) := by
  rw [List.perm_iff_count]
  intro resource
  simp only [Parts.teardown, Parts.resources, List.count_append, List.count_cons, List.count_nil]
  omega

/-! ## The claim as a lock -/

/-- How open and close use `runtime_claimed`: an open takes it with the flag itself, a
close with the call flag of the instance that holds it. Handing the instance to the
caller hands the claim over too. -/
def claimUse : LockUse EnginePort where
  asks
    | .claimRuntime => true
    | .claimCall _ => true
    | _ => false
  given
    | ⟨.claimRuntime, answer⟩ => answer
    | ⟨.claimCall _, answer⟩ => Option.isSome answer
    | _ => false
  returns
    | .releaseClaim => true
    | .publish _ _ => true
    | _ => false
  needs
    | .claimRuntime => false
    | .claimCall _ => false
    | .releaseClaim => false
    | .publish _ _ => false
    | .clearPointer => false
    | _ => true

/-- What open and close promise of a call: it keeps to the claim, and an instance is handed
over only with all that was acquired. -/
structure Careful (past : Trace EnginePort) (call : EngineCall) : Prop where
  permitted : claimUse.Permits (claimUse.phase past) call
  whole : ∀ runtime parts, call.hands = some (runtime, parts) →
    acquired past = parts.resources runtime ∧ released past = [] ∧ handed past = []

/-- What giving back promises of a call: in addition it hands nothing over. -/
def Withdraws (past : Trace EnginePort) (call : EngineCall) : Prop :=
  Careful past call ∧ call.hands = none

/-- A call in the middle of opening or closing: the claim is held before and after it, and
no instance changes hands. -/
structure Inner (call : EngineCall) : Prop where
  asks : claimUse.asks call = false
  returns : claimUse.returns call = false
  hands : call.hands = none

theorem Inner.careful {call : EngineCall} (hinner : Inner call) {past : Trace EnginePort}
    (hheld : claimUse.phase past = .held) : Careful past call where
  permitted := by
    rw [hheld]
    exact hinner.asks
  whole := by
    intro runtime parts hhands
    rw [hinner.hands] at hhands
    cases hhands

theorem Inner.phase {call : EngineCall} (hinner : Inner call) {past : Trace EnginePort}
    (hheld : claimUse.phase past = .held) (answer : EnginePort.Answer call) :
    claimUse.phase (past ++ [⟨call, answer⟩]) = .held := by
  rw [LockUse.phase_append_singleton, hheld, LockUse.next]
  simp [hinner.returns]

/-- A call, then what follows its answer. -/
theorem safe_engine {call : EngineCall} {promise : Trace EnginePort → EngineCall → Prop}
    {post : Trace EnginePort → EnginePort.Answer call → Prop} {past : Trace EnginePort} :
    (engine call).Safe (World.history EnginePort) promise post past ↔
      promise past call ∧ ∀ answer, post (past ++ [⟨call, answer⟩]) answer :=
  Program.safe_ask_history (I := EnginePort) call _ past

/-! ## Giving back -/

/-- A call that gives something back does nothing else. -/
theorem tears_down {call : EngineCall} {resource : Resource}
    (hreleases : call.releases = some resource) :
    Inner call ∧ ∀ answer, acquires ⟨call, answer⟩ = none ∧ takes ⟨call, answer⟩ = none := by
  cases call with
  | freeRuntime | free | wamrDestroy | unregisterNatives | unload | deinstantiate
  | destroyExecEnv => exact ⟨⟨rfl, rfl, rfl⟩, fun _ => ⟨rfl, rfl⟩⟩
  | _ => cases hreleases

/-- How far giving back has come since `base`. -/
structure Gone (base : Trace EnginePort) (done : List Resource) (past : Trace EnginePort) :
    Prop where
  held : claimUse.phase past = .held
  acquired : acquired past = acquired base
  released : released past = released base ++ done
  handed : handed past = handed base
  taken : taken past = taken base

/-- A call that gives something back. -/
theorem safe_tear {base past : Trace EnginePort} {done : List Resource} (hgone : Gone base done past)
    {call : EngineCall} {resource : Resource} (hreleases : call.releases = some resource) :
    (engine call).Safe (World.history EnginePort) Withdraws
      (fun after _ => Gone base (done ++ [resource]) after) past := by
  obtain ⟨hinner, hquiet⟩ := tears_down hreleases
  rw [safe_engine]
  refine ⟨⟨hinner.careful hgone.held, hinner.hands⟩, fun answer => ?_⟩
  obtain ⟨hacquires, htakes⟩ := hquiet answer
  exact ⟨hinner.phase hgone.held answer, by simp [hgone.acquired, hacquires],
    by simp [hgone.released, hreleases], by simp [hgone.handed, hinner.hands],
    by simp [hgone.taken, htakes]⟩

theorem safe_giveBack {base past : Trace EnginePort} {done : List Resource}
    (hgone : Gone base done past) {field : Option Pointer} {call : Pointer → EngineCall}
    (resource : Pointer → Resource)
    (hreleases : ∀ pointer, (call pointer).releases = some (resource pointer)) :
    (giveBack field call).Safe (World.history EnginePort) Withdraws
      (fun after _ => Gone base (done ++ (field.map resource).toList) after) past := by
  cases field with
  | none => simpa [giveBack] using hgone
  | some pointer => exact (safe_tear hgone (hreleases pointer)).bind fun _ _ hafter => hafter

theorem safe_giveBackIf {base past : Trace EnginePort} {done : List Resource}
    (hgone : Gone base done past) (flag : Bool) {call : EngineCall} {resource : Resource}
    (hreleases : call.releases = some resource) :
    (giveBackIf flag call).Safe (World.history EnginePort) Withdraws
      (fun after _ => Gone base (done ++ if flag then [resource] else []) after) past := by
  cases flag with
  | false => simpa [giveBackIf] using hgone
  | true => exact (safe_tear hgone hreleases).bind fun _ _ hafter => hafter

/-- What is true after `release_runtime`. -/
structure TornDown (base : Trace EnginePort) (runtime : Pointer) (parts : Parts)
    (past : Trace EnginePort) : Prop where
  phase : claimUse.phase past = .done
  acquired : acquired past = acquired base
  released : released past = released base ++ parts.teardown runtime
  handed : handed past = handed base
  taken : taken past = taken base

theorem safe_releaseRuntime (runtime : Pointer) (parts : Parts) {past : Trace EnginePort}
    (hheld : claimUse.phase past = .held) :
    (releaseRuntime runtime parts).Safe (World.history EnginePort) Withdraws
      (fun after _ => TornDown past runtime parts after) past := by
  have hgone : Gone past [] past := ⟨hheld, rfl, (List.append_nil _).symm, rfl, rfl⟩
  unfold releaseRuntime
  apply (safe_giveBack hgone .environment fun _ => rfl).bind
  intro _ _ hgone
  apply (safe_giveBack hgone .moduleInstance fun _ => rfl).bind
  intro _ _ hgone
  apply (safe_giveBack hgone .module fun _ => rfl).bind
  intro _ _ hgone
  apply (safe_giveBackIf hgone parts.nativesRegistered rfl).bind
  intro _ _ hgone
  apply (safe_giveBack hgone .memory fun _ => rfl).bind
  intro _ _ hgone
  apply (safe_giveBack hgone .memory fun _ => rfl).bind
  intro _ _ hgone
  apply (safe_giveBackIf hgone parts.wamrInitialized rfl).bind
  intro _ _ hgone
  apply (safe_tear hgone rfl).bind
  intro last _ hgone
  -- The last step gives the claim back.
  apply safe_engine.mpr
  refine ⟨⟨⟨?_, nofun⟩, rfl⟩, fun answer => ⟨?_, ?_, ?_, ?_, ?_⟩⟩
  · rw [hgone.held]
    rfl
  · rw [LockUse.phase_append_singleton, hgone.held]
    rfl
  · simpa [acquires] using hgone.acquired
  · simpa [EngineCall.releases, Parts.teardown] using hgone.released
  · simpa [EngineCall.hands] using hgone.handed
  · simpa [takes] using hgone.taken

/-! ## Building an instance -/

/-- An open past its claim: what it has acquired is what the fields of its instance hold. -/
structure Building (runtime : Pointer) (parts : Parts) (past : Trace EnginePort) : Prop where
  held : claimUse.phase past = .held
  acquired : acquired past = parts.resources runtime
  released : released past = []
  handed : handed past = []
  taken : taken past = []

/-- An open that was refused: it has given back what it had acquired, and the instance was
not handed over. -/
structure Refused (past : Trace EnginePort) : Prop where
  phase : claimUse.phase past ≠ .held
  balanced : (released past).Perm (acquired past)
  handed : handed past = []
  taken : taken past = []

/-- An open that succeeded: the instance has everything it acquired. -/
structure Delivered (past : Trace EnginePort) : Prop where
  phase : claimUse.phase past ≠ .held
  delivered : ∃ runtime parts, handed past = [(runtime, parts)] ∧
    acquired past = parts.resources runtime
  released : released past = []
  taken : taken past = []

/-- A step of open that keeps what it has and leads to `next`, or is refused. -/
abbrev Proceeds {α : Type} (next : Trace EnginePort → α → Prop) (step : Opening α)
    (past : Trace EnginePort) : Prop :=
  Fallible.Safe (World.history EnginePort) Careful (fun after _ => Refused after) next step past

/-- A call while building: it may acquire something that the fields then hold. -/
theorem Building.next {runtime : Pointer} {parts parts' : Parts} {past : Trace EnginePort}
    (hbuilding : Building runtime parts past) {call : EngineCall} (hinner : Inner call)
    (hreleases : call.releases = none) {answer : EnginePort.Answer call}
    (htakes : takes ⟨call, answer⟩ = none)
    (hparts : parts.resources runtime ++ (acquires ⟨call, answer⟩).toList =
      parts'.resources runtime) : Building runtime parts' (past ++ [⟨call, answer⟩]) where
  held := hinner.phase hbuilding.held answer
  acquired := by rw [acquired_append_singleton, hbuilding.acquired, hparts]
  released := by simp [hbuilding.released, hreleases]
  handed := by simp [hbuilding.handed, hinner.hands]
  taken := by simp [hbuilding.taken, htakes]

theorem proceeds_abandonOpen {α : Type} {next : Trace EnginePort → α → Prop} {runtime : Pointer}
    {parts : Parts} {past : Trace EnginePort} (hbuilding : Building runtime parts past)
    (code : RuntimeError) : Proceeds next (abandonOpen runtime parts code) past := by
  unfold abandonOpen
  rw [Proceeds, Fallible.safe_bind, Fallible.safe_attempt]
  apply (safe_releaseRuntime runtime parts hbuilding.held).mono fun _ _ hcall => hcall.1
  intro after _ htorn
  refine ⟨by simp [htorn.phase], ?_, ?_, ?_⟩
  · rw [htorn.released, hbuilding.released, List.nil_append, htorn.acquired, hbuilding.acquired]
    exact parts.teardown_perm runtime
  · rw [htorn.handed, hbuilding.handed]
  · rw [htorn.taken, hbuilding.taken]

/-- A call, then what follows its answer. -/
theorem proceeds_ask {β : Type} {next : Trace EnginePort → β → Prop} {past : Trace EnginePort}
    (hheld : claimUse.phase past = .held) {call : EngineCall} (hinner : Inner call)
    {rest : EnginePort.Answer call → Opening β}
    (hrest : ∀ answer, Proceeds next (rest answer) (past ++ [⟨call, answer⟩])) :
    Proceeds next (Fallible.attempt (engine call) >>= rest) past := by
  rw [Proceeds, Fallible.safe_bind, Fallible.safe_attempt, safe_engine]
  exact ⟨hinner.careful hheld, hrest⟩

/-- Go on with what was handed out, or give up what there was before. -/
theorem proceeds_orAbandon {α β : Type} {next : Trace EnginePort → β → Prop} {runtime : Pointer}
    {parts : Parts} {past : Trace EnginePort} {code : RuntimeError} {handed : Option α}
    {rest : α → Opening β} (hnone : handed = none → Building runtime parts past)
    (hrest : ∀ value, handed = some value → Proceeds next (rest value) past) :
    Proceeds next (orAbandon runtime parts code handed >>= rest) past := by
  cases handed with
  | none =>
      have hrefused : Proceeds (fun _ _ => False) (abandonOpen runtime parts code : Opening α)
          past := proceeds_abandonOpen (hnone rfl) code
      exact hrefused.bind nofun
  | some value => exact hrest value rfl

/-- Go on if a step succeeded, or give up what there was before. -/
theorem proceeds_orAbandonUnless {β : Type} {next : Trace EnginePort → β → Prop}
    {runtime : Pointer} {parts : Parts} {past : Trace EnginePort} {code : RuntimeError}
    {succeeded : Bool} {rest : Unit → Opening β}
    (hfailed : succeeded = false → Building runtime parts past)
    (hrest : succeeded = true → Proceeds next (rest ()) past) :
    Proceeds next (orAbandonUnless runtime parts code succeeded >>= rest) past := by
  cases succeeded with
  | false =>
      have hrefused : Proceeds (fun _ _ => False) (abandonOpen runtime parts code : Opening Unit)
          past := proceeds_abandonOpen (hfailed rfl) code
      exact hrefused.bind nofun
  | true => exact hrest rfl

/-- The log buffer comes first, so the other fields are still empty. -/
theorem proceeds_allocateLog (admitted : Admitted) {runtime : Pointer} {past : Trace EnginePort}
    (hbuilding : Building runtime .none past) :
    Proceeds (fun after result => ∃ log, result.2 = { Parts.none with pendingLog := log } ∧
      Building runtime result.2 after) (allocateLog admitted runtime .none) past := by
  unfold allocateLog
  split
  · apply proceeds_ask hbuilding.held ⟨rfl, rfl, rfl⟩
    intro answer
    apply proceeds_orAbandon
    · rintro rfl
      exact hbuilding.next ⟨rfl, rfl, rfl⟩ rfl rfl (List.append_nil _)
    · rintro ⟨memory, contents⟩ rfl
      exact ⟨some memory, rfl, hbuilding.next ⟨rfl, rfl, rfl⟩ rfl rfl rfl⟩
  · exact ⟨none, rfl, hbuilding⟩

theorem proceeds_copyWasm (admitted : Admitted) {runtime : Pointer} {log : Option Pointer}
    {past : Trace EnginePort}
    (hbuilding : Building runtime { Parts.none with pendingLog := log } past) :
    Proceeds (fun after result =>
      result.2 = { Parts.none with pendingLog := log, wasmCopy := some result.1 } ∧
        Building runtime result.2 after)
      (copyWasm admitted runtime { Parts.none with pendingLog := log }) past := by
  unfold copyWasm
  apply proceeds_ask hbuilding.held ⟨rfl, rfl, rfl⟩
  intro answer
  apply proceeds_orAbandon
  · rintro rfl
    exact hbuilding.next ⟨rfl, rfl, rfl⟩ rfl rfl (List.append_nil _)
  · rintro ⟨memory, contents⟩ rfl
    refine ⟨rfl, hbuilding.next ⟨rfl, rfl, rfl⟩ rfl rfl ?_⟩
    simp [Parts.resources, Parts.none, acquires]

theorem proceeds_startEngine (admitted : Admitted) {runtime : Pointer}
    {log copy : Option Pointer} {past : Trace EnginePort}
    (hbuilding : Building runtime { Parts.none with pendingLog := log, wasmCopy := copy } past) :
    Proceeds (fun after parts => ∃ natives,
      parts = { Parts.none with
        pendingLog := log, wasmCopy := copy, wamrInitialized := true,
        nativesRegistered := natives } ∧ Building runtime parts after)
      (startEngine admitted runtime { Parts.none with pendingLog := log, wasmCopy := copy })
      past := by
  unfold startEngine
  apply proceeds_ask hbuilding.held ⟨rfl, rfl, rfl⟩
  intro started
  apply proceeds_orAbandonUnless
  · rintro rfl
    exact hbuilding.next ⟨rfl, rfl, rfl⟩ rfl rfl (List.append_nil _)
  rintro rfl
  have hstarted : Building runtime
      { Parts.none with pendingLog := log, wasmCopy := copy, wamrInitialized := true }
      (past ++ [⟨.wamrInit, true⟩]) := by
    apply hbuilding.next ⟨rfl, rfl, rfl⟩ rfl rfl
    simp [Parts.resources, Parts.none, acquires]
  split
  · apply proceeds_ask hstarted.held ⟨rfl, rfl, rfl⟩
    intro registered
    apply proceeds_orAbandonUnless
    · rintro rfl
      exact hstarted.next ⟨rfl, rfl, rfl⟩ rfl rfl (List.append_nil _)
    rintro rfl
    refine ⟨true, rfl, hstarted.next ⟨rfl, rfl, rfl⟩ rfl rfl ?_⟩
    simp [Parts.resources, Parts.none, acquires]
  · exact ⟨false, rfl, hstarted⟩

theorem proceeds_loadModule (admitted : Admitted) {runtime wasmCopy : Pointer}
    {log copy : Option Pointer} {natives : Bool} {past : Trace EnginePort}
    (hbuilding : Building runtime ⟨log, copy, true, natives, none, none, none⟩ past) :
    Proceeds (fun after result =>
      result.2 = ⟨log, copy, true, natives, some result.1, none, none⟩ ∧
        Building runtime result.2 after)
      (loadModule admitted runtime wasmCopy ⟨log, copy, true, natives, none, none, none⟩)
      past := by
  unfold loadModule
  apply proceeds_ask hbuilding.held ⟨rfl, rfl, rfl⟩
  intro answer
  apply proceeds_orAbandon
  · rintro rfl
    exact hbuilding.next ⟨rfl, rfl, rfl⟩ rfl rfl (List.append_nil _)
  rintro module rfl
  have hloaded : Building runtime ⟨log, copy, true, natives, some module, none, none⟩
      (past ++ [⟨.load wasmCopy admitted.wasm.length, some module⟩]) := by
    apply hbuilding.next ⟨rfl, rfl, rfl⟩ rfl rfl
    simp [Parts.resources, acquires]
  apply proceeds_ask hloaded.held ⟨rfl, rfl, rfl⟩
  intro exports
  have hread : Building runtime ⟨log, copy, true, natives, some module, none, none⟩
      (past ++ [⟨.load wasmCopy admitted.wasm.length, some module⟩] ++
        [⟨.exports module, exports⟩]) :=
    hloaded.next ⟨rfl, rfl, rfl⟩ rfl rfl (List.append_nil _)
  apply proceeds_orAbandonUnless
  · intro _
    exact hread
  · intro _
    exact ⟨rfl, hread⟩

theorem proceeds_instantiateModule (admitted : Admitted) {runtime module : Pointer}
    {log copy : Option Pointer} {natives : Bool} {past : Trace EnginePort}
    (hbuilding : Building runtime ⟨log, copy, true, natives, some module, none, none⟩ past) :
    Proceeds (fun after parts => Building runtime parts after)
      (instantiateModule admitted runtime module
        ⟨log, copy, true, natives, some module, none, none⟩) past := by
  unfold instantiateModule
  apply proceeds_ask hbuilding.held ⟨rfl, rfl, rfl⟩
  intro answer
  apply proceeds_orAbandon
  · rintro rfl
    exact hbuilding.next ⟨rfl, rfl, rfl⟩ rfl rfl (List.append_nil _)
  rintro moduleInstance rfl
  have hinstance : Building runtime
      ⟨log, copy, true, natives, some module, some moduleInstance, none⟩
      (past ++ [⟨.instantiate module admitted.limits.stackSizeBytes
        admitted.limits.heapSizeBytes, some moduleInstance⟩]) := by
    apply hbuilding.next ⟨rfl, rfl, rfl⟩ rfl rfl
    simp [Parts.resources, acquires]
  apply proceeds_ask hinstance.held ⟨rfl, rfl, rfl⟩
  intro environment
  have henvironment : Building runtime
      ⟨log, copy, true, natives, some module, some moduleInstance, environment⟩
      (past ++ [⟨.instantiate module admitted.limits.stackSizeBytes
        admitted.limits.heapSizeBytes, some moduleInstance⟩] ++
        [⟨.createExecEnv moduleInstance admitted.limits.stackSizeBytes, environment⟩]) := by
    apply hinstance.next ⟨rfl, rfl, rfl⟩ rfl rfl
    simp [Parts.resources, acquires]
  have hlookup : ∀ {trace : Trace EnginePort} (name : String) (found : Bool),
      Building runtime ⟨log, copy, true, natives, some module, some moduleInstance, environment⟩
        trace →
      Building runtime ⟨log, copy, true, natives, some module, some moduleInstance, environment⟩
        (trace ++ [⟨.lookup moduleInstance name, found⟩]) :=
    fun name found htrace => htrace.next ⟨rfl, rfl, rfl⟩ rfl rfl (List.append_nil _)
  apply proceeds_ask henvironment.held ⟨rfl, rfl, rfl⟩
  intro init
  have hinit := hlookup "econtainer_init" init henvironment
  apply proceeds_ask hinit.held ⟨rfl, rfl, rfl⟩
  intro event
  have hevent := hlookup "econtainer_on_event" event hinit
  apply proceeds_ask hevent.held ⟨rfl, rfl, rfl⟩
  intro stop
  have hstop := hlookup "econtainer_stop" stop hevent
  apply proceeds_orAbandonUnless
  · intro _
    exact hstop
  · intro _
    exact hstop

/-! ## Opening and closing -/

theorem proceeds_buildRuntime (admitted : Admitted) {runtime : Pointer} {past : Trace EnginePort}
    (hbuilding : Building runtime .none past) :
    Proceeds (fun after _ => Delivered after) (buildRuntime admitted runtime) past := by
  unfold buildRuntime
  apply (proceeds_allocateLog admitted hbuilding).bind
  rintro _ ⟨buffer, _⟩ ⟨log, rfl, hbuilding⟩
  apply (proceeds_copyWasm admitted hbuilding).bind
  rintro _ ⟨copy, parts⟩ ⟨hparts, hbuilding⟩
  simp only at hparts
  subst hparts
  apply (proceeds_startEngine admitted hbuilding).bind
  rintro _ _ ⟨natives, rfl, hbuilding⟩
  apply (proceeds_loadModule admitted hbuilding).bind
  rintro _ ⟨module, parts⟩ ⟨hparts, hbuilding⟩
  simp only at hparts
  subst hparts
  apply (proceeds_instantiateModule admitted hbuilding).bind
  intro last parts hbuilding
  -- The instance is handed over with everything that was acquired.
  rw [Fallible.safe_bind, Fallible.safe_attempt]
  apply safe_engine.mpr
  refine ⟨⟨?_, ?_⟩, fun answer => ⟨?_, ⟨runtime, parts, ?_, ?_⟩, ?_, ?_⟩⟩
  · rw [hbuilding.held]
    rfl
  · rintro _ _ ⟨⟩
    exact ⟨hbuilding.acquired, hbuilding.released, hbuilding.handed⟩
  · rw [LockUse.phase_append_singleton, hbuilding.held]
    nofun
  · simp [hbuilding.handed, EngineCall.hands]
  · simp [hbuilding.acquired, acquires]
  · simp [hbuilding.released, EngineCall.releases]
  · simp [hbuilding.taken, takes]

/-- Every way out of open. -/
theorem proceeds_openRuntime (request : OpenRequest) :
    Proceeds (fun after _ => Delivered after) (openRuntime request) [] := by
  have hnothing : Refused [] := ⟨nofun, .nil, rfl, rfl⟩
  unfold openRuntime
  cases request.accept with
  | error code => exact hnothing
  | ok admitted =>
      simp only
      rw [Proceeds, Fallible.safe_bind, Fallible.safe_attempt]
      apply safe_engine.mpr
      refine ⟨⟨⟨rfl, rfl⟩, nofun⟩, fun claimed => ?_⟩
      cases claimed with
      | false => exact ⟨nofun, .nil, rfl, rfl⟩
      | true =>
          change Proceeds _ (openClaimed admitted) _
          apply proceeds_ask rfl ⟨rfl, rfl, rfl⟩
          intro answer
          cases answer with
          | none =>
              refine ⟨⟨rfl, nofun⟩, ?_⟩
              rintro _ _ rfl
              exact ⟨nofun, .nil, rfl, rfl⟩
          | some runtime => exact proceeds_buildRuntime admitted ⟨rfl, rfl, rfl, rfl, rfl⟩

/-- Closing: nothing happened, or the instance was taken and all it held was given back. -/
inductive Closed : Option (Option Pointer) → Trace EnginePort → Prop
  | nothing {runtime : Option (Option Pointer)} (hnull : ∀ address, runtime ≠ some (some address)) :
      Closed runtime []
  | released {address : Pointer} {parts : Parts} {trace : Trace EnginePort}
      (htaken : taken trace = [(address, parts)])
      (hreleased : released trace = parts.teardown address) (hacquired : acquired trace = [])
      (hhanded : handed trace = []) (hphase : claimUse.phase trace = .done) :
      Closed (some (some address)) trace

/-- A close that was refused has done nothing. -/
structure Untouched (past : Trace EnginePort) : Prop where
  phase : claimUse.phase past ≠ .held
  acquired : acquired past = []
  released : released past = []
  handed : handed past = []
  taken : taken past = []

/-- Every way out of close. -/
theorem safe_closeRuntime (runtime : Option (Option Pointer)) :
    Fallible.Safe (World.history EnginePort) Withdraws (fun after _ => Untouched after)
      (fun after _ => Closed runtime after) (closeRuntime runtime) [] := by
  unfold closeRuntime
  split
  · next address =>
    rw [Fallible.safe_bind, Fallible.safe_attempt]
    apply safe_engine.mpr
    refine ⟨⟨⟨⟨rfl, rfl⟩, nofun⟩, rfl⟩, fun claimed => ?_⟩
    cases claimed with
    | none => exact ⟨nofun, rfl, rfl, rfl, rfl⟩
    | some parts =>
        simp only
        rw [Fallible.safe_bind, Fallible.safe_attempt]
        apply (safe_releaseRuntime address parts rfl).imp
        intro last _ htorn
        have htaken : taken last = [(address, parts)] := htorn.taken
        have hreleased : released last = parts.teardown address := htorn.released
        have hacquired : acquired last = [] := htorn.acquired
        have hhanded : handed last = [] := htorn.handed
        rw [Fallible.safe_attempt]
        apply safe_engine.mpr
        refine ⟨⟨⟨?_, nofun⟩, rfl⟩, fun answer => @Closed.released address parts _ ?_ ?_ ?_ ?_ ?_⟩
        · rw [htorn.phase]
          exact ⟨rfl, rfl, rfl⟩
        · simp [htaken, takes]
        · simp [hreleased, EngineCall.releases]
        · simp [hacquired, acquires]
        · simp [hhanded, EngineCall.hands]
        · rw [LockUse.phase_append_singleton, htorn.phase]
          rfl
  · next hnull => exact .nothing fun address haddress => hnull address haddress

end Container
