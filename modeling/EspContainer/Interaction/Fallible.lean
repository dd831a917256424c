/-
# Programs with early exits

C code that returns a result code at the first failed step is a program over
`ExceptT`: the error is the code returned, and every later step is skipped.
`Fallible.Safe` states safety with one postcondition for each way out, and
composes along `bind` with the error exit unchanged.

The second half is the two loops such code is made of. The counted loop runs its
body for each index below a count. The chunked loop walks a byte range with a
small buffer: from offset zero, take at most `limit` bytes at a time until the
range is used up. Its rule is the loop invariant rule, and its evaluation rule
says which chunks are visited.
-/

import EspContainer.Interaction.Execution

namespace Interaction

variable {I J : Interface} {α β ε σ τ : Type}

/-- A program that may stop early with an error. -/
abbrev Fallible (I : Interface) (ε α : Type) : Type := ExceptT ε (Program I) α

namespace Fallible

/-- A step that cannot fail by itself. -/
def attempt (program : Program I α) : Fallible I ε α := ExceptT.lift program

/-- Go on only if a check passed. -/
def require (check : Bool) (error : ε) : Fallible I ε Unit :=
  if check then pure () else throw error

/-- Safety with one postcondition for results and one for errors. -/
def Safe (W : World I σ) (promise : σ → I.Call → Prop) (onError : σ → ε → Prop)
    (post : σ → α → Prop) (program : Fallible I ε α) (state : σ) : Prop :=
  program.run.Safe W promise
    (fun after result => match result with
      | .ok value => post after value
      | .error error => onError after error) state

variable {W : World I σ} {promise : σ → I.Call → Prop} {onError : σ → ε → Prop}
  {post : σ → α → Prop}

@[simp]
theorem safe_pure (value : α) (state : σ) :
    Safe W promise onError post (pure value) state ↔ post state value := Iff.rfl

@[simp]
theorem safe_throw (error : ε) (state : σ) :
    Safe W promise onError post (throw error) state ↔ onError state error := Iff.rfl

@[simp]
theorem safe_require (check : Bool) (error : ε) {post : σ → Unit → Prop} (state : σ) :
    Safe W promise onError post (require check error) state ↔
      (check = true → post state ()) ∧ (check = false → onError state error) := by
  cases check <;> simp [require]

@[simp]
theorem safe_attempt (program : Program I α) (state : σ) :
    Safe W promise onError post (attempt program : Fallible I ε α) state ↔
      program.Safe W promise post state := by
  change ((program >>= fun value => Program.ret (Except.ok value)).Safe W promise _ state) ↔ _
  rw [Program.safe_bind]
  rfl

@[simp]
theorem safe_bind (program : Fallible I ε α) (next : α → Fallible I ε β)
    {post : σ → β → Prop} (state : σ) :
    Safe W promise onError post (program >>= next) state ↔
      Safe W promise onError
        (fun after value => Safe W promise onError post (next value) after) program state := by
  simp only [Safe, ExceptT.run_bind, Program.safe_bind]
  constructor <;> intro hsafe <;> refine Program.Safe.imp hsafe fun after result hresult => ?_ <;>
    cases result <;> exact hresult

@[simp]
theorem safe_map (program : Fallible I ε α) (f : α → β) {post : σ → β → Prop} (state : σ) :
    Safe W promise onError post (f <$> program) state ↔
      Safe W promise onError (fun after value => post after (f value)) program state := by
  rw [← bind_pure_comp, safe_bind]
  rfl

/-- The rule of consequence. -/
theorem Safe.mono {promise' : σ → I.Call → Prop} {onError' : σ → ε → Prop}
    {post' : σ → α → Prop} {program : Fallible I ε α} {state : σ}
    (hsafe : Safe W promise onError post program state)
    (hpromise : ∀ state request, promise state request → promise' state request)
    (herror : ∀ state error, onError state error → onError' state error)
    (hpost : ∀ state value, post state value → post' state value) :
    Safe W promise' onError' post' program state :=
  Program.Safe.mono hsafe hpromise fun state result hresult => by
    cases result with
    | ok value => exact hpost _ _ hresult
    | error error => exact herror _ _ hresult

/-- Consequence in the postcondition alone. -/
theorem Safe.imp {post' : σ → α → Prop} {program : Fallible I ε α} {state : σ}
    (hsafe : Safe W promise onError post program state)
    (hpost : ∀ state value, post state value → post' state value) :
    Safe W promise onError post' program state :=
  hsafe.mono (fun _ _ h => h) (fun _ _ h => h) hpost

/-- The rule of sequence. -/
theorem Safe.bind {program : Fallible I ε α} {next : α → Fallible I ε β} {post' : σ → β → Prop}
    {state : σ} (hsafe : Safe W promise onError post program state)
    (hnext : ∀ after value, post after value → Safe W promise onError post' (next value) after) :
    Safe W promise onError post' (program >>= next) state :=
  (safe_bind program next state).mpr (hsafe.imp hnext)

/-- Safety in a world holds in every world that it abstracts. -/
theorem Safe.comap {V : World I τ} (view : τ → σ)
    (hview : ∀ before request answer after, V.Step before request answer after →
      W.Step (view before) request answer (view after))
    {program : Fallible I ε α} {state : τ}
    (hsafe : Safe W promise onError post program (view state)) :
    Safe V (fun state request => promise (view state) request)
      (fun state error => onError (view state) error)
      (fun state value => post (view state) value) program state :=
  (Program.Safe.comap view hview (show program.run.Safe W promise _ (view state) from hsafe)).imp
    fun _ outcome h => by cases outcome <;> exact h

/-! ## Outcomes -/

/-- Whatever the answers are, errors and results are of these kinds. -/
def Yields (refusal : ε → Prop) (result : α → Prop) (program : Fallible I ε α) : Prop :=
  Safe (World.free I) (fun _ _ => True) (fun _ error => refusal error)
    (fun _ value => result value) program ()

section

variable {refusal refusal' : ε → Prop} {result result' : α → Prop}

@[simp]
theorem yields_pure (value : α) :
    Yields (I := I) refusal result (pure value) ↔ result value := Iff.rfl

@[simp]
theorem yields_throw (error : ε) :
    Yields (I := I) refusal result (throw error) ↔ refusal error := Iff.rfl

@[simp]
theorem yields_require (check : Bool) (error : ε) {result : Unit → Prop} :
    Yields (I := I) refusal result (require check error) ↔
      (check = true → result ()) ∧ (check = false → refusal error) :=
  safe_require check error ()

@[simp]
theorem yields_bind (program : Fallible I ε α) (next : α → Fallible I ε β)
    {result : β → Prop} :
    Yields refusal result (program >>= next) ↔
      Yields refusal (fun value => Yields refusal result (next value)) program :=
  safe_bind program next ()

/-- What holds of all errors and all results holds of those of a program. -/
theorem yields_of_forall (program : Fallible I ε α) (hrefusal : ∀ error, refusal error)
    (hresult : ∀ value, result value) : Yields refusal result program := by
  rw [Yields, Safe]
  generalize program.run = program
  induction program with
  | ret outcome =>
      cases outcome with
      | ok value => exact hresult value
      | error error => exact hrefusal error
  | ask request resume ih => exact ⟨trivial, fun answer _ _ => ih answer⟩

/-- A step that cannot fail by itself is never refused. -/
theorem yields_attempt (program : Program I α) (hresult : ∀ value, result value) :
    Yields refusal result (attempt program : Fallible I ε α) := by
  rw [Yields, safe_attempt]
  induction program with
  | ret value => exact hresult value
  | ask request resume ih => exact ⟨trivial, fun answer _ _ => ih answer⟩

/-- The rule of consequence. -/
theorem Yields.mono {program : Fallible I ε α} (hyields : Yields refusal result program)
    (hrefusal : ∀ error, refusal error → refusal' error)
    (hresult : ∀ value, result value → result' value) : Yields refusal' result' program :=
  Safe.mono hyields (fun _ _ h => h) (fun _ => hrefusal) (fun _ => hresult)

/-- The rule of conjunction. -/
theorem Yields.and {program : Fallible I ε α} (hfirst : Yields refusal result program)
    (hsecond : Yields refusal' result' program) :
    Yields (fun error => refusal error ∧ refusal' error)
      (fun value => result value ∧ result' value) program :=
  Program.Safe.mono (Program.Safe.and hfirst hsecond) (fun _ _ _ => trivial) fun _ outcome h => by
    cases outcome <;> exact h

/-- What holds of the outcomes in any case holds of them in every world. -/
theorem Yields.safe {program : Fallible I ε α} (hyields : Yields refusal result program)
    (state : σ) :
    Safe W (fun _ _ => True) (fun _ error => refusal error) (fun _ value => result value)
      program state :=
  Program.Safe.comap (W := World.free I) (V := W) (fun _ => ()) (fun _ _ _ _ _ => trivial) hyields

/-- What the history world shows of the outcomes holds of them in any case. -/
theorem yields_of_history {program : Fallible I ε α} {promise : Trace I → I.Call → Prop}
    {past : Trace I}
    (hsafe : Safe (World.history I) promise (fun _ error => refusal error)
      (fun _ value => result value) program past) : Yields refusal result program := by
  rw [Safe] at hsafe
  rw [Yields, Safe]
  generalize program.run = program at hsafe ⊢
  induction program generalizing past with
  | ret outcome => exact hsafe
  | ask request resume ih => exact ⟨trivial, fun answer _ _ => ih answer (hsafe.2 answer _ rfl)⟩

end

/-! ## Finished executions -/

/-- A finished execution of a sequence stops in its head with an error, or is one of the
head followed by one of the rest. -/
theorem of_bind {program : Fallible I ε α} {next : α → Fallible I ε β} {before after : σ}
    {trace : Trace I} {outcome : Except ε β}
    (hexec : Exec W (program >>= next).run before trace (.ret outcome) after) :
    (∃ error, outcome = .error error ∧
      Exec W program.run before trace (.ret (.error error)) after) ∨
    ∃ value middle first second, trace = first ++ second ∧
      Exec W program.run before first (.ret (.ok value)) middle ∧
      Exec W (next value).run middle second (.ret outcome) after := by
  rw [ExceptT.run_bind] at hexec
  obtain ⟨reply, middle, first, second, rfl, hfirst, hsecond⟩ := hexec.of_bind
  cases reply with
  | error error =>
      cases hsecond
      exact .inl ⟨error, rfl, by rwa [List.append_nil]⟩
  | ok value => exact .inr ⟨value, middle, first, second, rfl, hfirst, hsecond⟩

/-- A finished execution of a step that cannot fail. -/
theorem of_attempt {program : Program I α} {before after : σ} {trace : Trace I}
    {outcome : Except ε α}
    (hexec : Exec W (attempt program : Fallible I ε α).run before trace (.ret outcome) after) :
    ∃ value, outcome = .ok value ∧ Exec W program before trace (.ret value) after := by
  have hbound : Exec W (program >>= fun value => Program.ret (Except.ok value)) before trace
      (.ret outcome) after := hexec
  obtain ⟨value, middle, first, second, rfl, hfirst, hsecond⟩ := hbound.of_bind
  cases hsecond
  exact ⟨value, rfl, by rwa [List.append_nil]⟩

/-- A finished execution of a check. -/
theorem of_require {check : Bool} {error : ε} {before after : σ} {trace : Trace I}
    {outcome : Except ε Unit}
    (hexec : Exec W (require check error : Fallible I ε Unit).run before trace (.ret outcome) after) :
    trace = [] ∧ after = before ∧ outcome = if check then .ok () else .error error := by
  cases check <;> cases hexec <;> exact ⟨rfl, rfl, rfl⟩

/-! ## Evaluation -/

/-- What a program returns when every call is answered by one function. -/
def eval (answer : (request : I.Call) → I.Answer request) (program : Fallible I ε α) :
    Except ε α :=
  program.run.eval answer

@[simp]
theorem eval_pure (answer : (request : I.Call) → I.Answer request) (value : α) :
    eval answer (pure value : Fallible I ε α) = .ok value := rfl

@[simp]
theorem eval_throw (answer : (request : I.Call) → I.Answer request) (error : ε) :
    eval answer (throw error : Fallible I ε α) = .error error := rfl

@[simp]
theorem eval_require (answer : (request : I.Call) → I.Answer request) (check : Bool)
    (error : ε) :
    eval answer (require check error) = if check then .ok () else .error error := by
  cases check <;> rfl

@[simp]
theorem eval_attempt (answer : (request : I.Call) → I.Answer request) (program : Program I α) :
    eval answer (attempt program : Fallible I ε α) = .ok (program.eval answer) := by
  change (program >>= fun value => Program.ret (Except.ok value)).eval answer = _
  rw [Program.eval_bind]
  rfl

@[simp]
theorem eval_bind (answer : (request : I.Call) → I.Answer request) (program : Fallible I ε α)
    (next : α → Fallible I ε β) :
    eval answer (program >>= next) = eval answer program >>= fun value =>
      eval answer (next value) := by
  simp only [eval, ExceptT.run_bind, Program.eval_bind]
  cases program.run.eval answer <;> rfl

/-- A call and what follows its answer. -/
theorem eval_call_bind (answer : (request : I.Call) → I.Answer request) (request : I.Call)
    (next : I.Answer request → Fallible I ε β) :
    eval answer (attempt (Program.call request) >>= next) = eval answer (next (answer request)) :=
  rfl

/-- A sequence returns a value exactly if its steps do. -/
theorem eval_bind_eq_ok {answer : (request : I.Call) → I.Answer request}
    {program : Fallible I ε α} {next : α → Fallible I ε β} {value : β} :
    eval answer (program >>= next) = .ok value ↔
      ∃ middle, eval answer program = .ok middle ∧ eval answer (next middle) = .ok value := by
  rw [eval_bind]
  cases eval answer program with
  | ok middle => exact ⟨fun hvalue => ⟨middle, rfl, hvalue⟩, by rintro ⟨_, ⟨⟩, hvalue⟩; exact hvalue⟩
  | error error => exact ⟨nofun, by rintro ⟨_, ⟨⟩, _⟩⟩

theorem eval_require_bind_eq_ok {answer : (request : I.Call) → I.Answer request} {check : Bool}
    {error : ε} {next : Unit → Fallible I ε β} {value : β} :
    eval answer (require check error >>= next) = .ok value ↔
      check = true ∧ eval answer (next ()) = .ok value := by
  rw [eval_bind, eval_require]
  cases check with
  | true => exact ⟨fun hvalue => ⟨rfl, hvalue⟩, And.right⟩
  | false => exact ⟨nofun, fun hvalue => nomatch hvalue.1⟩

/-- Errors of a program that is refused in a few ways only are of these ways. -/
theorem Yields.of_eval_error {refusal : ε → Prop} {result : α → Prop} {program : Fallible I ε α}
    (hyields : Yields refusal result program) {answer : (request : I.Call) → I.Answer request}
    {error : ε} (herror : eval answer program = .error error) : refusal error := by
  have hpost := Program.Safe.post_of_exec hyields (Exec.of_eval answer program.run)
  rw [show program.run.eval answer = .error error from herror] at hpost
  exact hpost

/-! ## Counted loops -/

/-- The rounds of a counted loop that are left, from round `index` on. -/
def countedLoop (body : Nat → τ → Fallible I ε τ) : Nat → Nat → τ → Fallible I ε τ
  | 0, _, value => pure value
  | rounds + 1, index, value => do
      let next ← body index value
      countedLoop body rounds (index + 1) next

/-- `for (index = 0; index < count; ++index)`. -/
def counted (count : Nat) (body : Nat → τ → Fallible I ε τ) (value : τ) : Fallible I ε τ :=
  countedLoop body count 0 value

/-- A counted loop is refused only if its body is. -/
theorem yields_counted {refusal : ε → Prop} {body : Nat → τ → Fallible I ε τ}
    (hbody : ∀ index value, Yields refusal (fun _ => True) (body index value)) (count : Nat)
    (value : τ) : Yields refusal (fun _ => True) (counted count body value) := by
  suffices hloop : ∀ index value, Yields refusal (fun _ => True)
      (countedLoop body count index value) from hloop 0 value
  induction count with
  | zero => exact fun _ _ => trivial
  | succ count ih =>
      intro index value
      rw [countedLoop, yields_bind]
      exact (hbody index value).mono (fun _ h => h) fun next _ => ih (index + 1) next

/-! ## Chunked loops -/

/-- Walk from `offset` to `size` in chunks of at most `limit` bytes, running
`body offset count` on each. The first argument bounds the iterations. -/
def chunkLoop (limit size : Nat) (body : Nat → Nat → τ → Fallible I ε τ) :
    Nat → Nat → τ → Fallible I ε τ
  | 0, _, value => pure value
  | fuel + 1, offset, value =>
      if offset < size then do
        let next ← body offset (min limit (size - offset)) value
        chunkLoop limit size body fuel (offset + min limit (size - offset)) next
      else
        pure value

/-- `for (offset = 0; offset < size; offset += count)` with
`count = min(limit, size - offset)`. Every chunk has at least one byte, so
`size` iterations are always enough. -/
def chunked (limit size : Nat) (body : Nat → Nat → τ → Fallible I ε τ) (value : τ) :
    Fallible I ε τ :=
  chunkLoop limit size body size 0 value

private theorem safe_chunkLoop {limit size : Nat} (hlimit : 0 < limit)
    {body : Nat → Nat → τ → Fallible I ε τ} (invariant : Nat → τ → σ → Prop)
    (hbody : ∀ offset count value state, offset < size → count = min limit (size - offset) →
      invariant offset value state →
      Safe W promise onError (fun after next => invariant (offset + count) next after)
        (body offset count value) state)
    (fuel offset : Nat) (hoffset : offset ≤ size) (hfuel : size ≤ offset + fuel) (value : τ)
    (state : σ) (hinvariant : invariant offset value state) :
    Safe W promise onError (fun after next => invariant size next after)
      (chunkLoop limit size body fuel offset value) state := by
  induction fuel generalizing offset value state with
  | zero =>
      obtain rfl : offset = size := by omega
      exact hinvariant
  | succ fuel ih =>
      rw [chunkLoop]
      split
      · next hlt =>
        rw [safe_bind]
        refine (hbody offset _ value state hlt rfl hinvariant).imp fun after next hnext => ?_
        exact ih _ (by omega) (by omega) next after hnext
      · obtain rfl : offset = size := by omega
        exact hinvariant

/-- The loop invariant rule for chunked loops. -/
theorem safe_chunked {limit size : Nat} (hlimit : 0 < limit)
    {body : Nat → Nat → τ → Fallible I ε τ} (invariant : Nat → τ → σ → Prop)
    (hbody : ∀ offset count value state, offset < size → count = min limit (size - offset) →
      invariant offset value state →
      Safe W promise onError (fun after next => invariant (offset + count) next after)
        (body offset count value) state)
    (value : τ) (state : σ) (hinvariant : invariant 0 value state) :
    Safe W promise onError (fun after next => invariant size next after)
      (chunked limit size body value) state :=
  safe_chunkLoop hlimit invariant hbody size 0 (by omega) (by omega) value state hinvariant

/-- A chunked loop is refused only if its body is. -/
theorem yields_chunked {limit size : Nat} (hlimit : 0 < limit) {refusal : ε → Prop}
    {body : Nat → Nat → τ → Fallible I ε τ}
    (hbody : ∀ offset count value, offset + count ≤ size →
      Yields refusal (fun _ => True) (body offset count value)) (value : τ) :
    Yields refusal (fun _ => True) (chunked limit size body value) :=
  safe_chunked hlimit (fun _ _ _ => True)
    (fun offset count value _ hlt hcount _ => hbody offset count value (by omega)) value () trivial

/-- What a chunked loop returns when `passed offset` says that everything up to
`offset` is acceptable and `state offset` is what it has led to. -/
theorem eval_chunked {answer : (request : I.Call) → I.Answer request} {limit size : Nat}
    (hlimit : 0 < limit) {body : Nat → Nat → τ → Fallible I ε τ} (state : Nat → τ)
    (passed : Nat → Prop) [DecidablePred passed] (error : ε)
    (hpassed : ∀ first second, first ≤ second → passed second → passed first)
    (hbody : ∀ offset count, offset < size → count = min limit (size - offset) → passed offset →
      eval answer (body offset count (state offset)) =
        if passed (offset + count) then .ok (state (offset + count)) else .error error)
    (hstart : passed 0) :
    eval answer (chunked limit size body (state 0)) =
      if passed size then .ok (state size) else .error error := by
  suffices hloop : ∀ fuel offset, offset ≤ size → size ≤ offset + fuel → passed offset →
      eval answer (chunkLoop limit size body fuel offset (state offset)) =
        if passed size then .ok (state size) else .error error from
    hloop size 0 (by omega) (by omega) hstart
  intro fuel
  induction fuel with
  | zero =>
      intro offset hoffset hfuel hoffsetPassed
      obtain rfl : offset = size := by omega
      rw [chunkLoop, eval_pure, if_pos hoffsetPassed]
  | succ fuel ih =>
      intro offset hoffset hfuel hoffsetPassed
      rw [chunkLoop]
      split
      · next hlt =>
        rw [eval_bind, hbody offset _ hlt rfl hoffsetPassed]
        split
        · next hnext => exact ih _ (by omega) (by omega) hnext
        · next hnext =>
          rw [if_neg fun hsize => hnext (hpassed _ _ (by omega) hsize)]
          rfl
      · obtain rfl : offset = size := by omega
        rw [eval_pure, if_pos hoffsetPassed]

end Fallible

end Interaction
