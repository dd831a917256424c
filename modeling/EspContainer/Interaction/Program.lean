/-
# Programs that talk to their surroundings

A component that works through callbacks is modelled as a tree: it either
returns, or it asks one call of its surroundings and continues with whatever
answer comes back. The tree is inductive, so every program finishes after
finitely many calls however it is answered, and the calls it makes are part of
its meaning rather than a side effect.

Nothing here fixes who answers. `eval` answers every call by one function,
`translate` and `interpret` answer the calls of one interface by programs over
another, and `Execution` answers them by a transition relation.
-/

import Mathlib.Tactic.Basic

namespace Interaction

/-- The calls a component may make, each with the type of its answer. -/
structure Interface where
  /-- What can be asked. -/
  Call : Type
  /-- What can come back. -/
  Answer : Call → Type

/-- A finitely deep tree of calls with a result at every leaf. -/
inductive Program (I : Interface) (α : Type) : Type
  | /-- Return a result. -/
    ret (value : α)
  | /-- Make one call and resume with its answer. -/
    ask (call : I.Call) (resume : I.Answer call → Program I α)

variable {I J : Interface} {α β γ σ : Type}

namespace Program

/-- Run `next` on the result of a program. -/
def bind : Program I α → (α → Program I β) → Program I β
  | .ret value, next => next value
  | .ask call resume, next => .ask call fun answer => (resume answer).bind next

instance : Monad (Program I) where
  pure := .ret
  bind := Program.bind

/-- One call, returning its answer. -/
def call (request : I.Call) : Program I (I.Answer request) :=
  .ask request .ret

@[simp]
theorem pure_eq_ret (value : α) : (pure value : Program I α) = .ret value := rfl

@[simp]
theorem ret_bind (value : α) (next : α → Program I β) :
    (Program.ret value >>= next) = next value := rfl

@[simp]
theorem ask_bind (request : I.Call) (resume : I.Answer request → Program I α)
    (next : α → Program I β) :
    (Program.ask request resume >>= next) =
      .ask request fun answer => resume answer >>= next := rfl

@[simp]
theorem call_bind (request : I.Call) (next : I.Answer request → Program I β) :
    (call request >>= next) = .ask request next := rfl

theorem bind_ret (program : Program I α) : (program >>= Program.ret) = program := by
  induction program with
  | ret value => rfl
  | ask request resume ih =>
      rw [ask_bind]
      exact congrArg (Program.ask request) (funext ih)

theorem bind_bind (program : Program I α) (first : α → Program I β)
    (second : β → Program I γ) :
    (program >>= first >>= second) = (program >>= fun value => first value >>= second) := by
  induction program with
  | ret value => rfl
  | ask request resume ih =>
      simp only [ask_bind]
      exact congrArg (Program.ask request) (funext ih)

instance : LawfulMonad (Program I) :=
  LawfulMonad.mk' _ (fun program => bind_ret program) (fun _ _ => rfl) bind_bind

/-! ## Answering by a function -/

/-- The result when every call is answered by one fixed function. -/
def eval (answer : (request : I.Call) → I.Answer request) : Program I α → α
  | .ret value => value
  | .ask request resume => (resume (answer request)).eval answer

@[simp]
theorem eval_ret (answer : (request : I.Call) → I.Answer request) (value : α) :
    (Program.ret value : Program I α).eval answer = value := rfl

@[simp]
theorem eval_ask (answer : (request : I.Call) → I.Answer request) (request : I.Call)
    (resume : I.Answer request → Program I α) :
    (Program.ask request resume).eval answer = (resume (answer request)).eval answer := rfl

@[simp]
theorem eval_call (answer : (request : I.Call) → I.Answer request) (request : I.Call) :
    (call request).eval answer = answer request := rfl

@[simp]
theorem eval_bind (answer : (request : I.Call) → I.Answer request)
    (program : Program I α) (next : α → Program I β) :
    (program >>= next).eval answer = (next (program.eval answer)).eval answer := by
  induction program with
  | ret value => rfl
  | ask request resume ih => exact ih _

/-- The calls answered on the way to that result, oldest first. -/
def calls (answer : (request : I.Call) → I.Answer request) :
    Program I α → List (Σ request : I.Call, I.Answer request)
  | .ret _ => []
  | .ask request resume => ⟨request, answer request⟩ :: (resume (answer request)).calls answer

/-- All answers are those of the function. -/
theorem mem_calls (answer : (request : I.Call) → I.Answer request) (program : Program I α) :
    ∀ event ∈ program.calls answer, event.2 = answer event.1 := by
  induction program with
  | ret value => simp [calls]
  | ask request resume ih =>
      intro event hevent
      rcases List.mem_cons.mp hevent with rfl | hrest
      · rfl
      · exact ih _ event hrest

/-! ## Answering by programs over another interface -/

/-- Answer each call by a program over another interface. -/
def translate (serve : (request : I.Call) → Program J (I.Answer request)) :
    Program I α → Program J α
  | .ret value => .ret value
  | .ask request resume => serve request >>= fun answer => (resume answer).translate serve

@[simp]
theorem translate_ret (serve : (request : I.Call) → Program J (I.Answer request))
    (value : α) : (Program.ret value : Program I α).translate serve = .ret value := rfl

@[simp]
theorem translate_ask (serve : (request : I.Call) → Program J (I.Answer request))
    (request : I.Call) (resume : I.Answer request → Program I α) :
    (Program.ask request resume).translate serve =
      serve request >>= fun answer => (resume answer).translate serve := rfl

/-- Answer each call by a program over another interface, threading a state. -/
def interpret (serve : (request : I.Call) → σ → Program J (I.Answer request × σ)) :
    Program I α → σ → Program J (α × σ)
  | .ret value, state => .ret (value, state)
  | .ask request resume, state =>
      serve request state >>= fun reply => (resume reply.1).interpret serve reply.2

@[simp]
theorem interpret_ret (serve : (request : I.Call) → σ → Program J (I.Answer request × σ))
    (value : α) (state : σ) :
    (Program.ret value : Program I α).interpret serve state = .ret (value, state) := rfl

@[simp]
theorem interpret_ask (serve : (request : I.Call) → σ → Program J (I.Answer request × σ))
    (request : I.Call) (resume : I.Answer request → Program I α) (state : σ) :
    (Program.ask request resume).interpret serve state =
      serve request state >>= fun reply => (resume reply.1).interpret serve reply.2 := rfl

/-- If the serving program keeps an invariant and gives the answers of
`reference`, then the interpreted program computes what `reference` gives. -/
theorem eval_interpret (serve : (request : I.Call) → σ → Program J (I.Answer request × σ))
    (answer : (request : J.Call) → J.Answer request)
    (reference : (request : I.Call) → I.Answer request) (invariant : σ → Prop)
    (hserve : ∀ request state, invariant state →
      ((serve request state).eval answer).1 = reference request ∧
        invariant ((serve request state).eval answer).2)
    (program : Program I α) (state : σ) (hstate : invariant state) :
    ((program.interpret serve state).eval answer).1 = program.eval reference ∧
      invariant ((program.interpret serve state).eval answer).2 := by
  induction program generalizing state with
  | ret value => exact ⟨rfl, hstate⟩
  | ask request resume ih =>
      obtain ⟨hanswer, hkept⟩ := hserve request state hstate
      simp only [interpret_ask, eval_bind, eval_ask, hanswer]
      exact ih _ _ hkept

end Program

end Interaction
