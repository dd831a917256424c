/-
# Metered programs

A call of a program may carry a weight: what it costs, or one if it is to be counted.
The counting world answers anything and adds up the weights, so that safety in it bounds
them, and a bound may be stated with whatever the program knows about its own progress.

A program that makes calls only to be counted or watched is compared with the one that
does not make them by translating those calls away.
-/

import Mathlib.Algebra.GroupWithZero.Nat
import EspContainer.Interaction.Fallible

namespace Interaction

variable {I J : Interface} {α β ε τ σ : Type}

/-- The world that may answer anything and adds up the weights of the calls. -/
def World.counting (weight : I.Call → Nat) : World I Nat where
  Step before request _ after := after = before + weight request

namespace Program

/-- What the calls answered on the way to the result weigh. -/
def total (weight : I.Call → Nat) (answer : (request : I.Call) → I.Answer request)
    (program : Program I α) : Nat :=
  ((program.calls answer).map fun event => weight event.1).sum

/-- Safety in the counting world is about all calls and their total weight. -/
theorem Safe.calls {weight : I.Call → Nat} {promise : I.Call → Prop} {post : Nat → α → Prop}
    {program : Program I α} {spent : Nat}
    (hsafe : program.Safe (World.counting weight) (fun _ call => promise call) post spent)
    (answer : (request : I.Call) → I.Answer request) :
    (∀ event ∈ program.calls answer, promise event.1) ∧
      post (spent + program.total weight answer) (program.eval answer) := by
  induction program generalizing spent with
  | ret value => exact ⟨nofun, hsafe⟩
  | ask request resume ih =>
      obtain ⟨hpromise, hresume⟩ := hsafe
      obtain ⟨hcalls, hpost⟩ := ih _ (hresume (answer request) _ rfl)
      constructor
      · intro event hevent
        rcases List.mem_cons.mp hevent with rfl | hrest
        · exact hpromise
        · exact hcalls event hrest
      · rwa [total, Program.calls, List.map_cons, List.sum_cons, ← Nat.add_assoc]

/-! ## Translating a sequence -/

theorem translate_bind (serve : (request : I.Call) → Program J (I.Answer request))
    (program : Program I α) (next : α → Program I β) :
    (program >>= next).translate serve =
      program.translate serve >>= fun value => (next value).translate serve := by
  induction program with
  | ret value => rfl
  | ask request resume ih =>
      rw [ask_bind, translate_ask, translate_ask, bind_assoc]
      exact congrArg _ (funext fun answer => ih answer)

/-- A translated program returns what the program returns, if each call is served with
its answer. -/
theorem eval_translate {serve : (request : I.Call) → Program J (I.Answer request)}
    {answer : (request : J.Call) → J.Answer request}
    {reference : (request : I.Call) → I.Answer request}
    (hserve : ∀ request, (serve request).eval answer = reference request)
    (program : Program I α) :
    (program.translate serve).eval answer = program.eval reference := by
  induction program with
  | ret value => rfl
  | ask request resume ih =>
      rw [translate_ask, eval_bind, hserve, eval_ask]
      exact ih _

end Program

namespace Fallible

variable {serve : (request : I.Call) → Program J (I.Answer request)}

/-- Answer each call by a program over another interface. -/
def translate (serve : (request : I.Call) → Program J (I.Answer request))
    (program : Fallible I ε α) : Fallible J ε α :=
  ExceptT.mk (program.run.translate serve)

@[simp]
theorem translate_pure (value : α) :
    translate serve (pure value : Fallible I ε α) = pure value := rfl

@[simp]
theorem translate_throw (error : ε) :
    translate serve (throw error : Fallible I ε α) = throw error := rfl

@[simp]
theorem translate_require (check : Bool) (error : ε) :
    translate serve (require check error) = require check error := by
  cases check <;> rfl

@[simp]
theorem translate_attempt (program : Program I α) :
    translate serve (attempt program : Fallible I ε α) = attempt (program.translate serve) :=
  Program.translate_bind serve program fun value => Program.ret (Except.ok value)

@[simp]
theorem translate_bind (program : Fallible I ε α) (next : α → Fallible I ε β) :
    translate serve (program >>= next) =
      translate serve program >>= fun value => translate serve (next value) := by
  apply ExceptT.ext
  simp only [translate, ExceptT.run_bind, ExceptT.run_mk, Program.translate_bind]
  refine bind_congr fun outcome => ?_
  cases outcome with
  | ok value => rfl
  | error error => rfl

theorem run_translate (program : Fallible I ε α) :
    (translate serve program).run = program.run.translate serve := rfl

@[simp]
theorem translate_ite (condition : Prop) [Decidable condition] (first second : Fallible I ε α) :
    translate serve (if condition then first else second) =
      if condition then translate serve first else translate serve second := by
  split <;> rfl

/-- A counted loop is translated by translating its body. -/
theorem translate_counted {body : Nat → τ → Fallible I ε τ} {body' : Nat → τ → Fallible J ε τ}
    (hbody : ∀ index value, translate serve (body index value) = body' index value)
    (count : Nat) (value : τ) :
    translate serve (counted count body value) = counted count body' value := by
  suffices hloop : ∀ index value, translate serve (countedLoop body count index value) =
      countedLoop body' count index value from hloop 0 value
  induction count with
  | zero => exact fun _ _ => rfl
  | succ count ih =>
      intro index value
      rw [countedLoop, countedLoop, translate_bind, hbody]
      exact bind_congr fun next => ih (index + 1) next

/-! ## Counted loops -/

variable {W : World I σ} {promise : σ → I.Call → Prop} {onError : σ → ε → Prop}

/-- The loop invariant rule for counted loops. -/
theorem safe_counted {count : Nat} {body : Nat → τ → Fallible I ε τ}
    (invariant : Nat → τ → σ → Prop)
    (hbody : ∀ index value state, index < count → invariant index value state →
      Safe W promise onError (fun after next => invariant (index + 1) next after)
        (body index value) state)
    {value : τ} {state : σ} (hinvariant : invariant 0 value state) :
    Safe W promise onError (fun after next => invariant count next after)
      (counted count body value) state := by
  suffices hloop : ∀ rounds index value state, index + rounds = count →
      invariant index value state →
      Safe W promise onError (fun after next => invariant count next after)
        (countedLoop body rounds index value) state from
    hloop count 0 value state (Nat.zero_add _) hinvariant
  intro rounds
  induction rounds with
  | zero =>
      intro index value state hindex hstate
      obtain rfl : index = count := hindex
      exact hstate
  | succ rounds ih =>
      intro index value state hindex hstate
      rw [countedLoop]
      apply (hbody index value state (by omega) hstate).bind
      intro after next hnext
      exact ih (index + 1) next after (by omega) hnext

end Fallible

end Interaction
