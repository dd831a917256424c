/-
# Executions and safety of programs

Who answers a program's calls is a `World`: a relation between the state before
a call, the answer it may give and the state after. An execution is a finite
walk down the program; it may stop anywhere, so an interrupted run is an
execution whose residual program still has something to ask.

`Safe` is the weakest condition under which every call made along every
execution keeps a promise and every result meets a postcondition. It is
computed by recursion on the program and composes along `bind`, and `Safe.exec`
turns it into a statement about executions. Properties of the history of calls
are safety in the `recorded` world, whose state remembers the trace.
-/

import EspContainer.Interaction.Program

namespace Interaction

variable {I J : Interface} {α β σ τ : Type}

/-- One answered call. -/
abbrev Event (I : Interface) : Type := Σ request : I.Call, I.Answer request

/-- The answered calls of a run, oldest first. -/
abbrev Trace (I : Interface) : Type := List (Event I)

/-- Run a program on a device: a state that answers every call and moves on. -/
def Program.execute (device : σ → (request : I.Call) → I.Answer request × σ) :
    Program I α → σ → Trace I × α × σ
  | .ret value, state => ([], value, state)
  | .ask request resume, state =>
      let reply := device state request
      let rest := (resume reply.1).execute device reply.2
      (⟨request, reply.1⟩ :: rest.1, rest.2)

/-- What holds of every answer of a device holds of every event of a run on it. -/
theorem Program.events_execute {device : σ → (request : I.Call) → I.Answer request × σ}
    {kind : Event I → Prop} (hdevice : ∀ state request, kind ⟨request, (device state request).1⟩)
    (program : Program I α) (state : σ) : ∀ event ∈ (program.execute device state).1, kind event := by
  induction program generalizing state with
  | ret value => nofun
  | ask request resume ih =>
      rintro event (_ | ⟨_, hevent⟩)
      · exact hdevice _ _
      · exact ih _ _ event hevent

/-- How calls may be answered, and what answering does to the surroundings. -/
structure World (I : Interface) (σ : Type) where
  /-- In the first state the call may be answered so, leaving the second. -/
  Step : σ → (request : I.Call) → I.Answer request → σ → Prop

namespace World

/-- The world that may answer anything and remembers nothing. -/
def free (I : Interface) : World I Unit where
  Step _ _ _ _ := True

/-- The world that may answer anything and remembers every answered call. -/
def history (I : Interface) : World I (Trace I) where
  Step before request answer after := after = before ++ [⟨request, answer⟩]

/-- A world that in addition remembers every answered call. -/
def recorded (W : World I σ) : World I (Trace I × σ) where
  Step before request answer after :=
    after.1 = before.1 ++ [⟨request, answer⟩] ∧ W.Step before.2 request answer after.2

end World

/-- `Exec W p s t q s'`: answering the calls of `p` from state `s` as recorded
in `t` leaves the residual program `q` and state `s'`. -/
inductive Exec (W : World I σ) :
    Program I α → σ → Trace I → Program I α → σ → Prop
  | /-- Stop where the program stands. -/
    stop (program : Program I α) (state : σ) : Exec W program state [] program state
  | /-- Answer the next call and go on. -/
    step {request : I.Call} {resume : I.Answer request → Program I α}
      {answer : I.Answer request} {before middle after : σ} {trace : Trace I}
      {residual : Program I α} (answered : W.Step before request answer middle)
      (rest : Exec W (resume answer) middle trace residual after) :
      Exec W (.ask request resume) before (⟨request, answer⟩ :: trace) residual after

namespace Exec

variable {W : World I σ}

/-- Forgetting part of the world's state maps executions to executions. -/
theorem map {V : World I τ} (view : σ → τ)
    (hview : ∀ before request answer after, W.Step before request answer after →
      V.Step (view before) request answer (view after))
    {program residual : Program I α} {before after : σ} {trace : Trace I}
    (hexec : Exec W program before trace residual after) :
    Exec V program (view before) trace residual (view after) := by
  induction hexec with
  | stop program state => exact .stop _ _
  | step answered rest ih => exact .step (hview _ _ _ _ answered) ih

/-- Every execution can be replayed in the recorded world. -/
theorem toRecorded {program residual : Program I α} {before after : σ} {trace : Trace I}
    (hexec : Exec W program before trace residual after) (past : Trace I) :
    Exec W.recorded program (past, before) trace residual (past ++ trace, after) := by
  induction hexec generalizing past with
  | stop program state => simpa using Exec.stop (W := W.recorded) program (past, state)
  | @step request resume answer before middle after trace residual answered rest ih =>
      have hrest := ih (past ++ [⟨request, answer⟩])
      rw [List.append_assoc, List.singleton_append] at hrest
      exact .step ⟨rfl, answered⟩ hrest

/-- Every execution can be replayed in the world that only keeps the history. -/
theorem toHistory {program residual : Program I α} {before after : σ} {trace : Trace I}
    (hexec : Exec W program before trace residual after) (past : Trace I) :
    Exec (World.history I) program past trace residual (past ++ trace) :=
  (hexec.toRecorded past).map (W := W.recorded) (V := World.history I) Prod.fst
    fun _ _ _ _ hstep => hstep.1

/-- Every execution can be replayed in the free world. -/
theorem toFree {program residual : Program I α} {before after : σ} {trace : Trace I}
    (hexec : Exec W program before trace residual after) :
    Exec (World.free I) program () trace residual () :=
  hexec.map (V := World.free I) (fun _ => ()) fun _ _ _ _ _ => trivial

/-- Executions compose. -/
theorem append {program middle residual : Program I α} {before between after : σ}
    {first second : Trace I} (hfirst : Exec W program before first middle between)
    (hsecond : Exec W middle between second residual after) :
    Exec W program before (first ++ second) residual after := by
  induction hfirst with
  | stop program state => exact hsecond
  | step answered rest ih => exact .step answered (ih hsecond)

/-- An execution can be cut at any point of its trace. -/
theorem split {program residual : Program I α} {before after : σ} {first second : Trace I}
    (hexec : Exec W program before (first ++ second) residual after) :
    ∃ middle between, Exec W program before first middle between ∧
      Exec W middle between second residual after := by
  induction first generalizing program before with
  | nil => exact ⟨program, before, .stop _ _, hexec⟩
  | cons event first ih =>
      cases hexec with
      | step answered rest =>
          obtain ⟨middle, between, hfirst, hsecond⟩ := ih rest
          exact ⟨middle, between, .step answered hfirst, hsecond⟩

/-- A finished execution of a sequence is one of its head followed by one of the rest. -/
theorem of_bind {program : Program I α} {next : α → Program I β} {before after : σ}
    {trace : Trace I} {value : β} (hexec : Exec W (program >>= next) before trace (.ret value) after) :
    ∃ middle between first second, trace = first ++ second ∧
      Exec W program before first (.ret middle) between ∧
      Exec W (next middle) between second (.ret value) after := by
  induction program generalizing before trace with
  | ret middle => exact ⟨middle, before, [], trace, rfl, .stop _ _, hexec⟩
  | ask request resume ih =>
      rw [Program.ask_bind] at hexec
      cases hexec with
      | step answered rest =>
          obtain ⟨middle, between, first, second, rfl, hfirst, hsecond⟩ := ih _ rest
          exact ⟨middle, between, _ :: first, second, rfl, .step answered hfirst, hsecond⟩

/-- A finished execution of one call. -/
theorem of_call {request : I.Call} {answer : I.Answer request} {before after : σ}
    {trace : Trace I} (hexec : Exec W (Program.call request) before trace (.ret answer) after) :
    trace = [⟨request, answer⟩] ∧ W.Step before request answer after := by
  cases hexec with
  | step answered rest =>
      cases rest
      exact ⟨rfl, answered⟩

/-- A finished execution of the head of a sequence leads to the rest. -/
theorem bind {program : Program I α} {next : α → Program I β} {before after : σ}
    {trace : Trace I} {value : α} (hexec : Exec W program before trace (.ret value) after) :
    Exec W (program >>= next) before trace (next value) after := by
  generalize hend : Program.ret value = residual at hexec
  induction hexec with
  | stop program state =>
      subst hend
      exact .stop _ _
  | step answered rest ih => exact .step answered (ih hend)

/-- The trace determines what is left of a program. -/
theorem residual_unique {V : World I τ} {program first second : Program I α} {before after : σ}
    {before' after' : τ} {trace : Trace I} (hfirst : Exec W program before trace first after)
    (hsecond : Exec V program before' trace second after') : first = second := by
  induction hfirst generalizing before' with
  | stop program state =>
      cases hsecond
      rfl
  | step answered rest ih =>
      cases hsecond with
      | step answered' rest' => exact ih rest'

/-- Two finished executions of a program on beginnings of one trace are the same. -/
theorem prefix_unique {V : World I τ} {program : Program I α} {before after : σ}
    {before' after' : τ} {first second rest rest' : Trace I} {value value' : α}
    (hfirst : Exec W program before first (.ret value) after)
    (hsecond : Exec V program before' second (.ret value') after')
    (htrace : first ++ rest = second ++ rest') : first = second ∧ rest = rest' ∧ value = value' := by
  generalize hend : Program.ret value = residual at hfirst
  induction hfirst generalizing before' second with
  | stop program state =>
      subst hend
      cases hsecond
      exact ⟨rfl, htrace, rfl⟩
  | step answered remaining ih =>
      cases hsecond with
      | step answered' remaining' =>
          simp only [List.cons_append, List.cons.injEq, Sigma.mk.injEq, true_and] at htrace
          obtain ⟨hanswer, htrace⟩ := htrace
          obtain rfl := eq_of_heq hanswer
          obtain ⟨rfl, hrest, hvalue⟩ := ih remaining' htrace hend
          exact ⟨rfl, hrest, hvalue⟩

/-- A finished execution whose answers all agree with a fixed answering
function returns what that function evaluates the program to. -/
theorem eval_eq {answer : (request : I.Call) → I.Answer request}
    {program : Program I α} {before after : σ} {trace : Trace I} {value : α}
    (hexec : Exec W program before trace (.ret value) after)
    (hagree : ∀ event ∈ trace, event.2 = answer event.1) :
    program.eval answer = value := by
  generalize hend : Program.ret value = residual at hexec
  induction hexec with
  | stop program state =>
      subst hend
      rfl
  | step answered rest ih =>
      simp only [List.mem_cons, forall_eq_or_imp] at hagree
      rw [Program.eval_ask, ← hagree.1]
      exact ih hagree.2 hend

/-- Answering by a fixed function is an execution of the free world. -/
theorem of_eval (answer : (request : I.Call) → I.Answer request) (program : Program I α) :
    Exec (World.free I) program () (program.calls answer) (.ret (program.eval answer)) () := by
  induction program with
  | ret value => exact .stop _ _
  | ask request resume ih => exact .step trivial (ih _)

/-- A device whose answers the world allows executes programs in that world. -/
theorem of_device {device : σ → (request : I.Call) → I.Answer request × σ}
    (hdevice : ∀ state request, W.Step state request (device state request).1
      (device state request).2) (program : Program I α) (state : σ) :
    Exec W program state (program.execute device state).1
      (.ret (program.execute device state).2.1) (program.execute device state).2.2 := by
  induction program generalizing state with
  | ret value => exact .stop _ _
  | ask request resume ih => exact .step (hdevice _ _) (ih _ _)

end Exec

/-! ## Safety -/

namespace Program

/-- Along every execution each call keeps `promise`, and each result meets
`post`. -/
def Safe (W : World I σ) (promise : σ → I.Call → Prop) (post : σ → α → Prop) :
    Program I α → σ → Prop
  | .ret value, state => post state value
  | .ask request resume, state =>
      promise state request ∧
        ∀ answer after, W.Step state request answer after →
          (resume answer).Safe W promise post after

variable {W : World I σ} {promise : σ → I.Call → Prop} {post : σ → α → Prop}

@[simp]
theorem safe_ret (value : α) (state : σ) :
    (Program.ret value).Safe W promise post state ↔ post state value := Iff.rfl

@[simp]
theorem safe_ask (request : I.Call) (resume : I.Answer request → Program I α) (state : σ) :
    (Program.ask request resume).Safe W promise post state ↔
      promise state request ∧
        ∀ answer after, W.Step state request answer after →
          (resume answer).Safe W promise post after := Iff.rfl

/-- Safety of a sequence is safety of its head, with safety of the rest as the
postcondition. -/
@[simp]
theorem safe_bind (program : Program I α) (next : α → Program I β)
    {post : σ → β → Prop} (state : σ) :
    (program >>= next).Safe W promise post state ↔
      program.Safe W promise
        (fun after value => (next value).Safe W promise post after) state := by
  induction program generalizing state with
  | ret value => rfl
  | ask request resume ih => simp only [ask_bind, safe_ask, ih]

/-- The rule of consequence. -/
theorem Safe.mono {promise' : σ → I.Call → Prop} {post' : σ → α → Prop}
    {program : Program I α} {state : σ} (hsafe : program.Safe W promise post state)
    (hpromise : ∀ state request, promise state request → promise' state request)
    (hpost : ∀ state value, post state value → post' state value) :
    program.Safe W promise' post' state := by
  induction program generalizing state with
  | ret value => exact hpost _ _ hsafe
  | ask request resume ih =>
      exact ⟨hpromise _ _ hsafe.1, fun answer after hstep => ih _ (hsafe.2 _ _ hstep)⟩

/-- Consequence in the postcondition alone. -/
theorem Safe.imp {post' : σ → α → Prop} {program : Program I α} {state : σ}
    (hsafe : program.Safe W promise post state)
    (hpost : ∀ state value, post state value → post' state value) :
    program.Safe W promise post' state :=
  hsafe.mono (fun _ _ h => h) hpost

/-- The rule of sequence. -/
theorem Safe.bind {program : Program I α} {next : α → Program I β} {post' : σ → β → Prop}
    {state : σ} (hsafe : program.Safe W promise post state)
    (hnext : ∀ after value, post after value → (next value).Safe W promise post' after) :
    (program >>= next).Safe W promise post' state :=
  (safe_bind program next state).mpr (hsafe.imp hnext)

/-- The rule of conjunction. -/
theorem Safe.and {promise' : σ → I.Call → Prop} {post' : σ → α → Prop}
    {program : Program I α} {state : σ} (hfirst : program.Safe W promise post state)
    (hsecond : program.Safe W promise' post' state) :
    program.Safe W (fun state request => promise state request ∧ promise' state request)
      (fun state value => post state value ∧ post' state value) state := by
  induction program generalizing state with
  | ret value => exact ⟨hfirst, hsecond⟩
  | ask request resume ih =>
      exact ⟨⟨hfirst.1, hsecond.1⟩, fun answer after hstep =>
        ih _ (hfirst.2 _ _ hstep) (hsecond.2 _ _ hstep)⟩

/-- Safety in a world holds in every world that it abstracts. -/
theorem Safe.comap {V : World I τ} (view : τ → σ)
    (hview : ∀ before request answer after, V.Step before request answer after →
      W.Step (view before) request answer (view after))
    {program : Program I α} {state : τ} (hsafe : program.Safe W promise post (view state)) :
    program.Safe V (fun state request => promise (view state) request)
      (fun state value => post (view state) value) state := by
  induction program generalizing state with
  | ret value => exact hsafe
  | ask request resume ih =>
      exact ⟨hsafe.1, fun answer after hstep => ih _ (hsafe.2 _ _ (hview _ _ _ _ hstep))⟩

/-- Safety about the history alone holds in every recorded world. -/
theorem Safe.recorded {promise : Trace I → I.Call → Prop} {post : Trace I → α → Prop}
    {program : Program I α} {past : Trace I} {state : σ}
    (hsafe : program.Safe (World.history I) promise post past) :
    program.Safe W.recorded (fun state request => promise state.1 request)
      (fun state value => post state.1 value) (past, state) :=
  Safe.comap (W := World.history I) (V := W.recorded) Prod.fst
    (fun _ _ _ _ hstep => hstep.1) hsafe

/-- A safe program stays safe along every execution. -/
theorem Safe.exec {program residual : Program I α} {before after : σ} {trace : Trace I}
    (hsafe : program.Safe W promise post before)
    (hexec : Exec W program before trace residual after) :
    residual.Safe W promise post after := by
  induction hexec with
  | stop program state => exact hsafe
  | step answered rest ih => exact ih (hsafe.2 _ _ answered)

/-- Every result of a safe program meets its postcondition. -/
theorem Safe.post_of_exec {program : Program I α} {before after : σ} {trace : Trace I}
    {value : α} (hsafe : program.Safe W promise post before)
    (hexec : Exec W program before trace (.ret value) after) : post after value :=
  hsafe.exec hexec

/-- What holds after every finished execution is a postcondition. -/
theorem safe_of_exec {program : Program I α} {state : σ}
    (hpost : ∀ trace value after, Exec W program state trace (.ret value) after →
      post after value) : program.Safe W (fun _ _ => True) post state := by
  induction program generalizing state with
  | ret value => exact hpost [] value state (.stop _ _)
  | ask request resume ih =>
      refine ⟨trivial, fun answer after hstep => ih answer ?_⟩
      intro trace value last hexec
      exact hpost _ value last (.step hstep hexec)

/-- Every call a safe program makes keeps its promise. -/
theorem Safe.promise_of_exec {program : Program I α} {before after : σ} {trace : Trace I}
    {request : I.Call} {resume : I.Answer request → Program I α}
    (hsafe : program.Safe W promise post before)
    (hexec : Exec W program before trace (.ask request resume) after) :
    promise after request :=
  (hsafe.exec hexec).1

/-- Translating calls keeps an invariant that every serving program keeps. -/
theorem safe_translate {promise : σ → J.Call → Prop} {W : World J σ}
    (serve : (request : I.Call) → Program J (I.Answer request)) (invariant : σ → Prop)
    (hserve : ∀ request state, invariant state →
      (serve request).Safe W promise (fun after _ => invariant after) state)
    (program : Program I α) {state : σ} (hstate : invariant state) :
    (program.translate serve).Safe W promise (fun after _ => invariant after) state := by
  induction program generalizing state with
  | ret value => exact hstate
  | ask request resume ih =>
      simp only [translate_ask, safe_bind]
      exact (hserve request state hstate).imp fun after answer hafter => ih answer hafter

/-- If every call is served with the answer of a function, and an invariant kept, then the
translated program returns what that function evaluates it to. -/
theorem safe_translate_eval {promise : σ → J.Call → Prop} {W : World J σ}
    (serve : (request : I.Call) → Program J (I.Answer request))
    (reference : (request : I.Call) → I.Answer request) (invariant : σ → Prop)
    (hserve : ∀ request state, invariant state → (serve request).Safe W promise
      (fun after answer => answer = reference request ∧ invariant after) state)
    (program : Program I α) {state : σ} (hstate : invariant state) :
    (program.translate serve).Safe W promise
      (fun after value => value = program.eval reference ∧ invariant after) state := by
  induction program generalizing state with
  | ret value => exact ⟨rfl, hstate⟩
  | ask request resume ih =>
      simp only [translate_ask, safe_bind, eval_ask]
      refine (hserve request state hstate).imp fun after answer hanswer => ?_
      rw [← hanswer.1]
      exact ih answer hanswer.2

end Program

end Interaction
