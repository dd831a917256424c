/-
# One instance at a time

Any number of callers open and close instances, one call of the allocator, the engine
or an atomic flag at a time, in any order. The claim travels: from nobody to an opener,
with the instance to its caller, from there to a closer, and back to nobody. At every
moment one of them has it, and `runtime_claimed` says whether any has.

A close attempt is answered only while its instance is not freed, as the callers of an
instance are serialized. It may be refused at any time, since another call of the
instance may be going on.
-/

import EspContainer.Runtime.Resources

namespace Container

open Interaction Package

/-! ## The platform -/

/-- Where the memory of an instance stands. -/
inductive Stage
  | free
  | building
  | opened (parts : Parts)
  | closing

/-- What open and close attempts share. -/
structure Platform where
  /-- `runtime_claimed`. -/
  claimed : Bool
  stage : Pointer → Stage

namespace Platform

/-- The platform after boot. -/
def boot : Platform := ⟨false, fun _ => .free⟩

/-- Another stage for an instance. -/
def setStage (platform : Platform) (runtime : Pointer) (stage : Stage) : Platform :=
  { platform with stage := Function.update platform.stage runtime stage }

/-- How a call is answered. -/
def Step (before : Platform) : (call : EngineCall) → EnginePort.Answer call → Platform → Prop
  | .claimRuntime, answer, after =>
      (answer : Bool) = !before.claimed ∧ after = { before with claimed := true }
  | .releaseClaim, _, after => after = { before with claimed := false }
  | .claimCall runtime, answer, after =>
      match (answer : Option Parts) with
      | none => before.stage runtime ≠ .free ∧ before.stage runtime ≠ .building ∧ after = before
      | some parts =>
          before.stage runtime = .opened parts ∧ after = before.setStage runtime .closing
  | .publish runtime parts, _, after => after = before.setStage runtime (.opened parts)
  | .callocRuntime, answer, after =>
      match (answer : Option Pointer) with
      | none => after = before
      | some runtime =>
          before.stage runtime = .free ∧ after = before.setStage runtime .building
  | .freeRuntime runtime, _, after => after = before.setStage runtime .free
  | _, _, after => after = before

end Platform

/-- The world of open and close attempts. -/
def platform : World EnginePort Platform where
  Step := Platform.Step

/-- An attempt of a caller. -/
inductive Attempt
  | opening (request : OpenRequest)
  | closing (runtime : Option (Option Pointer))

/-- The program of an attempt; its result is the result code. -/
def Attempt.program : Attempt → Program EnginePort (Except RuntimeError Unit)
  | .opening request => ((fun _ => ()) <$> openRuntime request : Opening Unit).run
  | .closing runtime => (closeRuntime runtime).run

variable {κ : Type}

/-- What happened among the callers. -/
abbrev Attempts (κ : Type) : Type :=
  List (Incident κ Attempt EnginePort (Except RuntimeError Unit) Platform)

/-- What the callers are doing. -/
abbrev Callers (κ : Type) : Type := Pool κ Attempt EnginePort (Except RuntimeError Unit)

/-- The answered calls of all callers, in order. -/
def Attempts.calls (attempts : Attempts κ) : Trace EnginePort :=
  attempts.filterMap fun
    | .called moment => some moment.event
    | _ => none

/-! ## Who has the claim -/

/-- Who has the claim: a caller in the middle of opening or closing, or an instance. -/
inductive Owner (κ : Type)
  | caller (client : κ)
  | opened (runtime : Pointer) (parts : Parts)

/-- The instance that has the claim. -/
def Owner.instances : Option (Owner κ) → List (Pointer × Parts)
  | some (.opened runtime parts) => [(runtime, parts)]
  | _ => []

/-- A caller is in the middle of an attempt: past the point where it took the claim. -/
def Engaged (callers : Callers κ) (client : κ) : Prop :=
  ∃ thread, callers client = some thread ∧ claimUse.phase thread.trace = .held

/-- Who has the claim, and what can be seen of it. -/
structure Owned (owner : Option (Owner κ)) (callers : Callers κ) (state : Platform) : Prop where
  claimed : state.claimed = owner.isSome
  engaged : ∀ client, Engaged callers client ↔ owner = some (.caller client)
  opened : ∀ runtime parts, state.stage runtime = .opened parts ↔
    owner = some (.opened runtime parts)

/-- A caller that holds the claim has it, and no instance has. -/
theorem Owned.holder {owner : Option (Owner κ)} {callers : Callers κ} {state : Platform}
    (howned : Owned owner callers state) {client : κ}
    {thread : Thread Attempt EnginePort (Except RuntimeError Unit)}
    (hthread : callers client = some thread) (hheld : claimUse.phase thread.trace = .held) :
    owner = some (.caller client) ∧ ∀ runtime parts, state.stage runtime ≠ .opened parts := by
  have howner := (howned.engaged client).mp ⟨thread, hthread, hheld⟩
  refine ⟨howner, fun runtime parts hopened => ?_⟩
  rw [howned.opened, howner] at hopened
  cases hopened

/-- Only one caller is past its claim, and then no instance is opened. -/
theorem Owned.unique {owner : Option (Owner κ)} {callers : Callers κ} {state : Platform}
    (howned : Owned owner callers state) {first second : κ} (hfirst : Engaged callers first)
    (hsecond : Engaged callers second) : first = second := by
  rw [howned.engaged] at hfirst hsecond
  rw [hfirst] at hsecond
  exact Owner.caller.inj (Option.some.inj hsecond)

theorem Owned.not_opened {owner : Option (Owner κ)} {callers : Callers κ} {state : Platform}
    (howned : Owned owner callers state) {client : κ} (hengaged : Engaged callers client)
    {runtime : Pointer} {parts : Parts} : state.stage runtime ≠ .opened parts := by
  rw [howned.engaged] at hengaged
  rw [ne_eq, howned.opened, hengaged]
  nofun

variable [DecidableEq κ]

theorem engaged_update {callers : Callers κ} {client other : κ}
    {thread : Thread Attempt EnginePort (Except RuntimeError Unit)} :
    Engaged (Function.update callers client (some thread)) other ↔
      if other = client then claimUse.phase thread.trace = .held else Engaged callers other := by
  unfold Engaged
  rw [Function.update_apply]
  split
  · simp
  · rfl

/-- A call after which the claim is with `owner'`. -/
theorem Owned.change {owner owner' : Option (Owner κ)} {callers : Callers κ}
    {before after : Platform} (howned : Owned owner callers before) {client : κ}
    {thread : Thread Attempt EnginePort (Except RuntimeError Unit)}
    (hclaimed : after.claimed = owner'.isSome)
    (hclient : claimUse.phase thread.trace = .held ↔ owner' = some (.caller client))
    (hothers : ∀ other, other ≠ client →
      (owner = some (.caller other) ↔ owner' = some (.caller other)))
    (hopened : ∀ runtime parts, after.stage runtime = .opened parts ↔
      owner' = some (.opened runtime parts)) :
    Owned owner' (Function.update callers client (some thread)) after where
  claimed := hclaimed
  engaged := by
    intro other
    rw [engaged_update]
    split
    · next heq => rw [heq, hclient]
    · next hne => rw [howned.engaged, hothers other hne]
  opened := hopened

/-- A call that leaves the claim where it is. -/
theorem Owned.keep {owner : Option (Owner κ)} {callers : Callers κ} {before after : Platform}
    (howned : Owned owner callers before) {client : κ}
    {thread thread' : Thread Attempt EnginePort (Except RuntimeError Unit)}
    (hthread : callers client = some thread)
    (hphase : claimUse.phase thread'.trace = .held ↔ claimUse.phase thread.trace = .held)
    (hclaimed : after.claimed = before.claimed)
    (hopened : ∀ runtime parts, after.stage runtime = .opened parts ↔
      before.stage runtime = .opened parts) :
    Owned owner (Function.update callers client (some thread')) after := by
  apply howned.change
  · rw [hclaimed, howned.claimed]
  · rw [hphase, ← howned.engaged client, Engaged, hthread]
    simp
  · exact fun _ _ => Iff.rfl
  · exact fun runtime parts => (hopened runtime parts).trans (howned.opened runtime parts)

/-- The stage of another instance is another matter. -/
theorem Platform.opened_setStage {state : Platform} {runtime : Pointer} {stage : Stage}
    (hbefore : ∀ parts, state.stage runtime ≠ .opened parts) (hafter : ∀ parts, stage ≠ .opened parts)
    (other : Pointer) (parts : Parts) :
    (state.setStage runtime stage).stage other = .opened parts ↔
      state.stage other = .opened parts := by
  simp only [Platform.setStage, Function.update_apply]
  split
  · next heq =>
    rw [heq]
    exact iff_of_false (hafter parts) (hbefore parts)
  · rfl

/-- One call of a caller: the claim goes to somebody, and the instances that were handed
over and taken are accounted for. -/
theorem Owned.call {owner : Option (Owner κ)} {callers : Callers κ} {before after : Platform}
    (howned : Owned owner callers before) {client : κ} {attempt : Attempt}
    {trace : Trace EnginePort} {call : EngineCall}
    {resume : EnginePort.Answer call → Program EnginePort (Except RuntimeError Unit)}
    (hthread : callers client = some ⟨attempt, trace, .ask call resume⟩)
    (hpermits : claimUse.Permits (claimUse.phase trace) call) {answer : EnginePort.Answer call}
    (hstep : platform.Step before call answer after) :
    ∃ owner', Owned owner' (Function.update callers client
        (some ⟨attempt, trace ++ [⟨call, answer⟩], resume answer⟩)) after ∧
      Owner.instances owner ++ call.hands.toList =
        (takes ⟨call, answer⟩).toList ++ Owner.instances owner' := by
  have hphase : claimUse.phase (trace ++ [⟨call, answer⟩]) =
      claimUse.next (claimUse.phase trace) ⟨call, answer⟩ := LockUse.phase_append_singleton _ _ _
  have hcaller : ∀ other, other ≠ client → some (Owner.caller client) ≠ some (.caller other) :=
    fun other hother heq => hother (Owner.caller.inj (Option.some.inj heq)).symm
  cases call with
  | claimRuntime =>
      rw [hpermits.fresh_of_asks rfl] at hphase
      obtain ⟨hanswer, rfl⟩ := hstep
      cases answer with
      | true =>
          obtain rfl : owner = none := by simpa [howned.claimed] using hanswer
          refine ⟨some (.caller client), howned.change rfl ?_ ?_ ?_, rfl⟩
          · exact iff_of_true hphase rfl
          · exact fun other hother => iff_of_false (by simp) (hcaller other hother)
          · exact fun runtime parts =>
              (howned.opened runtime parts).trans (iff_of_false (by simp) (by simp))
      | false =>
          refine ⟨owner, howned.keep hthread ?_ ?_ fun _ _ => Iff.rfl, ?_⟩
          · rw [hphase, hpermits.fresh_of_asks rfl]
            exact iff_of_false (by rintro ⟨⟩) (by simp)
          · simpa using hanswer
          · simp [takes, EngineCall.hands]
  | claimCall runtime =>
      rw [hpermits.fresh_of_asks rfl] at hphase
      cases answer with
      | none =>
          obtain ⟨-, -, rfl⟩ := hstep
          refine ⟨owner, howned.keep hthread ?_ rfl fun _ _ => Iff.rfl, ?_⟩
          · rw [hphase, hpermits.fresh_of_asks rfl]
            exact iff_of_false (by rintro ⟨⟩) (by simp)
          · simp [takes, EngineCall.hands]
      | some parts =>
          obtain ⟨hopened, rfl⟩ := hstep
          obtain rfl := (howned.opened runtime parts).mp hopened
          refine ⟨some (.caller client), howned.change howned.claimed ?_ ?_ ?_, ?_⟩
          · exact iff_of_true hphase rfl
          · exact fun other hother => iff_of_false (by simp) (hcaller other hother)
          · -- No other instance was there.
            intro other parts'
            refine iff_of_false (fun hother => ?_) (by simp)
            simp only [Platform.setStage, Function.update_apply] at hother
            split at hother
            · cases hother
            · next hne =>
              rw [howned.opened, Option.some.injEq, Owner.opened.injEq] at hother
              exact hne hother.1.symm
          · simp [takes, EngineCall.hands, Owner.instances]
  | releaseClaim =>
      have hheld := hpermits.held_of_returns rfl
      rw [hheld] at hphase
      obtain ⟨rfl, hnone⟩ := howned.holder hthread hheld
      obtain rfl := hstep
      refine ⟨none, howned.change rfl ?_ ?_ ?_, ?_⟩
      · rw [hphase]
        exact iff_of_false (by rintro ⟨⟩) (by simp)
      · exact fun other hother => iff_of_false (hcaller other hother) (by simp)
      · exact fun runtime parts => iff_of_false (hnone runtime parts) (by simp)
      · simp [takes, EngineCall.hands, Owner.instances]
  | publish runtime parts =>
      have hheld := hpermits.held_of_returns rfl
      rw [hheld] at hphase
      obtain ⟨rfl, hnone⟩ := howned.holder hthread hheld
      obtain rfl := hstep
      refine ⟨some (.opened runtime parts), howned.change howned.claimed ?_ ?_ ?_, ?_⟩
      · rw [hphase]
        exact iff_of_false (by rintro ⟨⟩) (by simp)
      · exact fun other hother => iff_of_false (hcaller other hother) (by simp)
      · intro other parts'
        simp only [Platform.setStage, Function.update_apply, Option.some.injEq,
          Owner.opened.injEq]
        split
        · next heq => simp [heq]
        · next hne => exact iff_of_false (hnone other parts') fun heq => hne heq.1.symm
      · simp [takes, EngineCall.hands, Owner.instances]
  | clearPointer =>
      obtain rfl := hstep
      refine ⟨owner, howned.keep hthread ?_ rfl fun _ _ => Iff.rfl, ?_⟩
      · rw [hphase]
        cases claimUse.phase trace <;> exact Iff.rfl
      · simp [takes, EngineCall.hands]
  | callocRuntime =>
      have hheld := hpermits.held_of_needs rfl
      have hkept : claimUse.phase (trace ++ [⟨.callocRuntime, answer⟩]) = .held ↔
          claimUse.phase trace = .held := by
        rw [hphase, hheld]
        exact Iff.rfl
      cases answer with
      | none =>
          obtain rfl := hstep
          exact ⟨owner, howned.keep hthread hkept rfl fun _ _ => Iff.rfl, by
            simp [takes, EngineCall.hands]⟩
      | some runtime =>
          obtain ⟨hfree, rfl⟩ := hstep
          refine ⟨owner, howned.keep hthread hkept rfl ?_, by simp [takes, EngineCall.hands]⟩
          exact Platform.opened_setStage (by simp [hfree]) (by simp)
  | freeRuntime runtime =>
      have hheld := hpermits.held_of_needs rfl
      obtain rfl := hstep
      refine ⟨owner, howned.keep hthread ?_ rfl ?_, by simp [takes, EngineCall.hands]⟩
      · rw [hphase, hheld]
        exact Iff.rfl
      · exact Platform.opened_setStage ((howned.holder hthread hheld).2 runtime) (by simp)
  | _ =>
      have hheld := hpermits.held_of_needs rfl
      obtain rfl := hstep
      refine ⟨owner, howned.keep hthread ?_ rfl fun _ _ => Iff.rfl, ?_⟩
      · rw [hphase, hheld]
        exact Iff.rfl
      · simp [takes, EngineCall.hands]

/-! ## Every attempt -/

/-- How an attempt may have come out. -/
def Finished : Attempt → Trace EnginePort → Except RuntimeError Unit → Prop
  | .opening _, trace, .ok () => Delivered trace
  | .opening _, trace, .error _ => Refused trace
  | .closing runtime, trace, .ok () => Closed runtime trace
  | .closing _, trace, .error _ => Untouched trace

/-- Every attempt keeps to the claim, and comes out in one of these ways. -/
theorem safe_program (attempt : Attempt) :
    attempt.program.Safe (World.history EnginePort) Careful
      (fun trace result => Finished attempt trace result) [] := by
  cases attempt with
  | opening request =>
      have hopen : Proceeds (fun after _ => Delivered after)
          ((fun _ => ()) <$> openRuntime request : Opening Unit) [] := by
        rw [Proceeds, Fallible.safe_map]
        exact proceeds_openRuntime request
      apply Program.Safe.imp hopen
      intro trace result hresult
      cases result <;> exact hresult
  | closing runtime =>
      apply Program.Safe.mono (safe_closeRuntime runtime) fun _ _ hcall => hcall.1
      intro trace result hresult
      cases result <;> exact hresult

/-- A finished attempt does not hold the claim. -/
theorem Finished.phase {attempt : Attempt} {trace : Trace EnginePort}
    {result : Except RuntimeError Unit} (hfinished : Finished attempt trace result) :
    claimUse.phase trace ≠ .held := by
  cases attempt with
  | opening request =>
      cases result with
      | ok value => exact Delivered.phase hfinished
      | error code => exact Refused.phase hfinished
  | closing runtime =>
      cases result with
      | error code => exact Untouched.phase hfinished
      | ok value =>
          cases hfinished with
          | nothing hnull => nofun
          | released _ _ _ _ hphase => simp [hphase]

/-- What a run of attempts is. -/
abbrev Run (attempts : Attempts κ) (callers : Callers κ) (state : Platform) : Prop :=
  Shared (fun _ : κ => platform) Attempt.program .boot attempts callers state

/-- At every moment somebody has the claim or nobody, and every instance that was handed
over was taken for closing or is the one that has it. -/
theorem owned_run {attempts : Attempts κ} {callers : Callers κ} {state : Platform}
    (hrun : Run attempts callers state) :
    ∃ owner, Owned owner callers state ∧
      handed attempts.calls = taken attempts.calls ++ Owner.instances owner := by
  induction hrun with
  | idle =>
      exact ⟨none, ⟨rfl, fun client => by simp [Engaged], fun _ _ => by simp [Platform.boot]⟩, rfl⟩
  | @begin state attempts callers earlier client hidle request ih =>
      obtain ⟨owner, howned, haccount⟩ := ih
      refine ⟨owner, howned.change howned.claimed ?_ (fun _ _ => Iff.rfl) howned.opened, ?_⟩
      · apply iff_of_false nofun
        intro howner
        obtain ⟨thread, hthread, -⟩ := (howned.engaged client).mpr howner
        rw [hidle] at hthread
        cases hthread
      · simpa [Attempts.calls] using haccount
  | @call before after attempts callers earlier client request trace call resume hthread answer
      answered ih =>
      obtain ⟨owner, howned, haccount⟩ := ih
      have hcareful : Careful trace call :=
        (safe_program request).promise_of_exec ((earlier.exec client _ hthread).toHistory [])
      obtain ⟨owner', howned', hmoved⟩ := howned.call hthread hcareful.permitted answered
      refine ⟨owner', howned', ?_⟩
      have hcalls : Attempts.calls (attempts ++ [.called ⟨client, ⟨request, trace, .ask call resume⟩,
          ⟨call, answer⟩, before, after⟩]) = Attempts.calls attempts ++ [⟨call, answer⟩] := by
        simp [Attempts.calls]
      rw [hcalls, handed_append_singleton, taken_append_singleton, haccount, List.append_assoc,
        List.append_assoc, hmoved]
  | @finish state attempts callers earlier client request trace value hthread ih =>
      obtain ⟨owner, howned, haccount⟩ := ih
      have hfinished : Finished request trace value :=
        (safe_program request).post_of_exec ((earlier.exec client _ hthread).toHistory [])
      refine ⟨owner, ⟨howned.claimed, ?_, howned.opened⟩, by simpa [Attempts.calls] using haccount⟩
      intro other
      rw [← howned.engaged other]
      by_cases heq : other = client
      · subst heq
        rw [Engaged, Engaged, Function.update_self, hthread]
        simp [hfinished.phase]
      · rw [Engaged, Engaged, Function.update_of_ne heq]

/-! ## One instance, and nothing left behind -/

/-- A caller is opening an instance, past its claim. -/
def OpenInProgress (callers : Callers κ) (client : κ) : Prop :=
  ∃ thread request, callers client = some thread ∧ thread.request = .opening request ∧
    claimUse.phase thread.trace = .held

/-- A caller is closing an instance, past its claim of it. -/
def CloseInProgress (callers : Callers κ) (client : κ) (runtime : Pointer) : Prop :=
  ∃ thread, callers client = some thread ∧ thread.request = .closing (some (some runtime)) ∧
    claimUse.phase thread.trace = .held

/-- An instance is opened and not yet closed. -/
def NotClosed (callers : Callers κ) (state : Platform) (runtime : Pointer) : Prop :=
  (∃ parts, state.stage runtime = .opened parts) ∨
    ∃ client, CloseInProgress callers client runtime

/-- The caller's pointer after an open with this trace. -/
def outputAfter (request : OpenRequest) (trace : Trace EnginePort) : Option (Option Pointer) :=
  request.out.map fun before => ((handed trace).getLast?.map Prod.fst).or before

/-- What holds of any number of callers at any moment of a run. -/
structure OneAtATime (attempts : Attempts κ) (callers : Callers κ) (state : Platform) : Prop where
  /-- `runtime_claimed` says whether there is an open in progress or an instance. -/
  claimed : state.claimed = true ↔
    (∃ client, OpenInProgress callers client) ∨ ∃ runtime, NotClosed callers state runtime
  one_open : ∀ first second, OpenInProgress callers first → OpenInProgress callers second →
    first = second
  one_instance : ∀ first second, NotClosed callers state first → NotClosed callers state second →
    first = second
  not_both : ∀ client runtime, OpenInProgress callers client → ¬ NotClosed callers state runtime
  /-- Every instance is closed at most once: those handed over are those taken for closing,
  in order, and the one that is opened now. -/
  once : ∃ opened, handed attempts.calls = taken attempts.calls ++ opened ∧ opened.length ≤ 1 ∧
    ∀ runtime parts, (runtime, parts) ∈ opened ↔ state.stage runtime = .opened parts
  /-- An open that is refused leaves the output pointer alone, and has given back exactly
  what it had acquired. -/
  refused : ∀ client thread code request, .ended client thread (.error code) ∈ attempts →
    thread.request = .opening request → outputAfter request thread.trace = request.out ∧
      (released thread.trace).Perm (acquired thread.trace)
  /-- An open that succeeds sets the output pointer, and has given nothing back. -/
  delivered : ∀ client thread request, .ended client thread (.ok ()) ∈ attempts →
    thread.request = .opening request → ∃ runtime parts,
      handed thread.trace = [(runtime, parts)] ∧ released thread.trace = [] ∧
        acquired thread.trace = parts.resources runtime
  /-- A successful close gives back exactly what the open of its instance acquired. -/
  closed : ∀ client thread runtime, .ended client thread (.ok ()) ∈ attempts →
    thread.request = .closing (some (some runtime)) → acquired thread.trace = [] ∧
      ∃ moment parts request, .called moment ∈ attempts ∧
        moment.event = ⟨.publish runtime parts, ()⟩ ∧
        moment.thread.request = .opening request ∧ released moment.thread.trace = [] ∧
        (released thread.trace).Perm (acquired moment.thread.trace)
  /-- A close that is refused has done nothing. -/
  busy : ∀ client thread code runtime, .ended client thread (.error code) ∈ attempts →
    thread.request = .closing runtime → acquired thread.trace = [] ∧ released thread.trace = []

/-- A caller in the middle of an attempt is opening or closing. -/
theorem engaged_iff {attempts : Attempts κ} {callers : Callers κ} {state : Platform}
    (hrun : Run attempts callers state) (client : κ) :
    Engaged callers client ↔ OpenInProgress callers client ∨
      ∃ runtime, CloseInProgress callers client runtime := by
  constructor
  · rintro ⟨⟨attempt, trace, residual⟩, hthread, hheld⟩
    cases attempt with
    | opening request => exact .inl ⟨_, request, hthread, rfl, hheld⟩
    | closing pointer =>
        have hexec := hrun.exec client _ hthread
        match pointer with
        | some (some runtime) => exact .inr ⟨runtime, _, hthread, rfl, hheld⟩
        | some none | none =>
            -- Without an instance there is no call, and no claim.
            cases hexec
            cases hheld
  · rintro (⟨thread, request, hthread, -, hheld⟩ | ⟨runtime, thread, hthread, -, hheld⟩)
    · exact ⟨thread, hthread, hheld⟩
    · exact ⟨thread, hthread, hheld⟩

/-- The attempt that handed an instance over. -/
theorem opener_of_handed {attempts : Attempts κ} {callers : Callers κ} {state : Platform}
    (hrun : Run attempts callers state) {runtime : Pointer} {parts : Parts}
    (hhanded : (runtime, parts) ∈ handed attempts.calls) :
    ∃ moment request, .called moment ∈ attempts ∧ moment.event = ⟨.publish runtime parts, ()⟩ ∧
      moment.thread.request = .opening request ∧ released moment.thread.trace = [] ∧
      acquired moment.thread.trace = parts.resources runtime := by
  simp only [handed, Attempts.calls, List.mem_filterMap] at hhanded
  obtain ⟨event, ⟨incident, hincident, hevent⟩, hhands⟩ := hhanded
  cases incident with
  | began client request => cases hevent
  | ended client thread value => cases hevent
  | called moment =>
      obtain ⟨client, thread, ⟨call, answer⟩, before, after⟩ := moment
      obtain rfl := Option.some.inj hevent
      cases call with
      | publish runtime' parts' =>
          obtain ⟨rfl, rfl⟩ : runtime' = runtime ∧ parts' = parts := by
            simpa [EngineCall.hands] using hhands
          obtain ⟨earlier, pool, hearlier, hthread, -, resume, hresidual⟩ :=
            hrun.until_moment _ hincident
          have hexec := (hearlier.exec _ _ hthread).toHistory []
          simp only at hresidual
          rw [hresidual] at hexec
          obtain ⟨attempt, trace, residual⟩ := thread
          have hwhole := ((safe_program attempt).promise_of_exec hexec).whole _ _ rfl
          cases attempt with
          | opening request => exact ⟨_, request, hincident, rfl, rfl, hwhole.2.1, hwhole.1⟩
          | closing pointer =>
              -- Closing hands over nothing.
              have hnothing := Program.Safe.promise_of_exec (safe_closeRuntime pointer) hexec
              cases hnothing.2
      | _ => cases hhands

/-- How an attempt that ended came out. -/
theorem finished_of_ended {attempts : Attempts κ} {callers : Callers κ} {state : Platform}
    (hrun : Run attempts callers state) {client : κ}
    {thread : Thread Attempt EnginePort (Except RuntimeError Unit)}
    {result : Except RuntimeError Unit} (hended : .ended client thread result ∈ attempts) :
    Finished thread.request thread.trace result :=
  (safe_program thread.request).post_of_exec
    ((hrun.exec_of_ended client thread result hended).toHistory [])

/-- The first attempt after boot. -/
theorem run_begin (client : κ) (attempt : Attempt) :
    Run [.began client attempt]
      (Function.update (fun _ => none) client (some ⟨attempt, [], attempt.program⟩)) .boot :=
  Shared.begin (.idle _) rfl attempt

/-- The platform while the sample instance is opened. -/
def sampleOpened : Platform :=
  ((Platform.mk true fun _ => .free).setStage 1 .building).setStage 1 (.opened sampleParts)

theorem exec_sampleOpen : ∃ trace, Exec platform (Attempt.program (.opening sampleOpen)) .boot trace
    (.ret (.ok ())) sampleOpened := by
  have hexec := Exec.of_eval sampleEngine (Attempt.program (.opening sampleOpen))
  rw [Attempt.program, openRuntime_of_accept accept_sampleOpen] at hexec ⊢
  refine ⟨_, hexec.of_path ?_⟩
  -- Two calls change the platform, and all others leave it alone.
  exact ⟨_, ⟨rfl, rfl⟩, _, ⟨rfl, rfl⟩, _, rfl, _, rfl, _, rfl, _, rfl, _, rfl, _, rfl, _, rfl,
    _, rfl, _, rfl, _, rfl, _, rfl, _, rfl, rfl⟩

theorem exec_sampleClose : ∃ trace,
    Exec platform (Attempt.program (.closing (some (some 1)))) sampleOpened trace (.ret (.ok ()))
      { (sampleOpened.setStage 1 .closing).setStage 1 .free with claimed := false } := by
  have hexec := Exec.of_eval sampleEngine (Attempt.program (.closing (some (some 1))))
  refine ⟨_, hexec.of_path ?_⟩
  exact ⟨_, ⟨rfl, rfl⟩, _, rfl, _, rfl, _, rfl, _, rfl, _, rfl, _, rfl, _, rfl, _, rfl, _, rfl,
    _, rfl, rfl⟩

end Container
