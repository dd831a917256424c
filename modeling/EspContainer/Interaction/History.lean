/-
# Histories, walks and sessions

Three views of a run. Seen from the program it is a trace: safety in the world
that only keeps the history says which calls may follow which answers, and says
so for every world at once. Seen from the surroundings the same trace is a walk
through the states of a world, and what a walk does can be computed from the
trace without looking at the program again. Seen from outside, programs are
started one after another, each may be cut short, and the next one starts from
the state the last one left: a session.

Worlds compose and can be narrowed, so that each assumption about the
surroundings is stated once and combined where it is needed.
-/

import EspContainer.Interaction.Fallible

namespace Interaction

variable {I J : Interface} {ι α β ε σ τ : Type}

/-! ## Combining worlds -/

namespace World

/-- Two independent parts of the surroundings, both of which must agree to an answer. -/
def prod (W : World I σ) (V : World I τ) : World I (σ × τ) where
  Step before request answer after :=
    W.Step before.1 request answer after.1 ∧ V.Step before.2 request answer after.2

/-- The same surroundings, giving only some of the answers. -/
def restrict (W : World I σ) (allowed : Event I → Prop) : World I σ where
  Step before request answer after :=
    W.Step before request answer after ∧ allowed ⟨request, answer⟩

/-- A walk through the states of a world along a trace. -/
def Path (W : World I σ) : σ → Trace I → σ → Prop
  | before, [], after => before = after
  | before, event :: trace, after =>
      ∃ middle, W.Step before event.1 event.2 middle ∧ W.Path middle trace after

variable {W : World I σ} {V : World I τ}

@[simp]
theorem path_nil {before after : σ} : W.Path before [] after ↔ before = after := Iff.rfl

@[simp]
theorem path_cons {event : Event I} {trace : Trace I} {before after : σ} :
    W.Path before (event :: trace) after ↔
      ∃ middle, W.Step before event.1 event.2 middle ∧ W.Path middle trace after := Iff.rfl

@[simp]
theorem path_append {first second : Trace I} {before after : σ} :
    W.Path before (first ++ second) after ↔
      ∃ middle, W.Path before first middle ∧ W.Path middle second after := by
  induction first generalizing before with
  | nil => simp
  | cons event first ih =>
      simp only [List.cons_append, path_cons, ih]
      constructor
      · rintro ⟨step, hstep, middle, hfirst, hsecond⟩
        exact ⟨middle, ⟨step, hstep, hfirst⟩, hsecond⟩
      · rintro ⟨middle, ⟨step, hstep, hfirst⟩, hsecond⟩
        exact ⟨step, hstep, middle, hfirst, hsecond⟩

/-- If no event of a walk can break an invariant, the walk keeps it. -/
theorem Path.invariant (invariant : σ → Prop) {before after : σ} {trace : Trace I}
    (hpath : W.Path before trace after)
    (hstep : ∀ event ∈ trace, ∀ before after, W.Step before event.1 event.2 after →
      invariant before → invariant after) (hbefore : invariant before) :
    invariant after := by
  induction trace generalizing before with
  | nil => exact hpath ▸ hbefore
  | cons event trace ih =>
      obtain ⟨middle, hfirst, hrest⟩ := hpath
      exact ih hrest (fun event hevent => hstep event (List.mem_cons_of_mem _ hevent))
        (hstep event List.mem_cons_self _ _ hfirst hbefore)

/-- A walk along events that change nothing ends where it began. -/
theorem Path.eq_of_still {before after : σ} {trace : Trace I}
    (hpath : W.Path before trace after)
    (hstill : ∀ event ∈ trace, ∀ before after, W.Step before event.1 event.2 after →
      after = before) : after = before :=
  hpath.invariant (fun state => state = before)
    (fun event hevent _ _ hstep hmiddle => (hstill event hevent _ _ hstep).trans hmiddle)
    rfl

/-- Forgetting part of the states maps walks to walks. -/
theorem Path.map {before after : σ} {trace : Trace I} (hpath : W.Path before trace after)
    (view : σ → τ) (hview : ∀ before request answer after, W.Step before request answer after →
      V.Step (view before) request answer (view after)) : V.Path (view before) trace (view after) := by
  induction trace generalizing before with
  | nil => exact congrArg view hpath
  | cons event trace ih =>
      obtain ⟨middle, hstep, hrest⟩ := hpath
      exact ⟨view middle, hview _ _ _ _ hstep, ih hrest⟩

theorem path_fst {before after : σ × τ} {trace : Trace I}
    (hpath : (W.prod V).Path before trace after) : W.Path before.1 trace after.1 := by
  induction trace generalizing before with
  | nil => exact congrArg Prod.fst hpath
  | cons event trace ih =>
      obtain ⟨middle, hstep, hrest⟩ := hpath
      exact ⟨middle.1, hstep.1, ih hrest⟩

theorem path_snd {before after : σ × τ} {trace : Trace I}
    (hpath : (W.prod V).Path before trace after) : V.Path before.2 trace after.2 := by
  induction trace generalizing before with
  | nil => exact congrArg Prod.snd hpath
  | cons event trace ih =>
      obtain ⟨middle, hstep, hrest⟩ := hpath
      exact ⟨middle.2, hstep.2, ih hrest⟩

end World

namespace Exec

variable {W : World I σ} {V : World I τ}

/-- An execution walks its world along its trace. -/
theorem path {program residual : Program I α} {before after : σ} {trace : Trace I}
    (hexec : Exec W program before trace residual after) : W.Path before trace after := by
  induction hexec with
  | stop program state => rfl
  | step answered rest ih => exact ⟨_, answered, ih⟩

/-- An execution of the free world is one of every world that can walk its trace. -/
theorem of_path {program residual : Program I α} {trace : Trace I} {free free' : Unit}
    (hexec : Exec (World.free I) program free trace residual free') {before after : σ}
    (hpath : W.Path before trace after) : Exec W program before trace residual after := by
  induction hexec generalizing before with
  | stop program state =>
      obtain rfl := hpath
      exact .stop _ _
  | step answered rest ih =>
      obtain ⟨middle, hstep, hrest⟩ := hpath
      exact .step hstep (ih hrest)

theorem fst {program residual : Program I α} {before after : σ × τ} {trace : Trace I}
    (hexec : Exec (W.prod V) program before trace residual after) :
    Exec W program before.1 trace residual after.1 :=
  hexec.map (W := W.prod V) (V := W) Prod.fst fun _ _ _ _ hstep => hstep.1

theorem snd {program residual : Program I α} {before after : σ × τ} {trace : Trace I}
    (hexec : Exec (W.prod V) program before trace residual after) :
    Exec V program before.2 trace residual after.2 :=
  hexec.map (W := W.prod V) (V := V) Prod.snd fun _ _ _ _ hstep => hstep.2

/-- An execution all of whose events are allowed is one of the narrowed world. -/
theorem restrict {allowed : Event I → Prop} {program residual : Program I α}
    {before after : σ} {trace : Trace I} (hexec : Exec W program before trace residual after)
    (hallowed : ∀ event ∈ trace, allowed event) :
    Exec (W.restrict allowed) program before trace residual after := by
  induction hexec with
  | stop program state => exact .stop _ _
  | step answered rest ih =>
      simp only [List.mem_cons, forall_eq_or_imp] at hallowed
      exact .step ⟨answered, hallowed.1⟩ (ih hallowed.2)

/-- The history kept by an execution is its trace. -/
theorem history_eq {program residual : Program I α} {past after trace : Trace I}
    (hexec : Exec (World.history I) program past trace residual after) :
    after = past ++ trace := by
  generalize hworld : World.history I = W at hexec
  induction hexec with
  | stop program state => simp
  | @step request resume answer before middle after trace residual answered rest ih =>
      subst hworld
      have hmiddle : middle = before ++ [(⟨request, answer⟩ : Event I)] := answered
      rw [ih, hmiddle, List.append_assoc, List.singleton_append]

end Exec

/-! ## Safety about the history -/

namespace Program

variable {promise : Trace I → I.Call → Prop} {post : Trace I → α → Prop}

@[simp high]
theorem safe_ask_history (request : I.Call) (resume : I.Answer request → Program I α)
    (past : Trace I) :
    (Program.ask request resume).Safe (World.history I) promise post past ↔
      promise past request ∧ ∀ answer,
        (resume answer).Safe (World.history I) promise post (past ++ [⟨request, answer⟩]) := by
  rw [safe_ask]
  exact and_congr_right fun _ => forall_congr' fun answer =>
    ⟨fun hsafe => hsafe _ rfl, fun hsafe after hafter => hafter ▸ hsafe⟩

private theorem safe_shift_aux {program : Program I α} {past own : Trace I}
    (hsafe : program.Safe (World.history I) promise post own) :
    program.Safe (World.history I)
      (fun trace request => ∃ own, trace = past ++ own ∧ promise own request)
      (fun trace value => ∃ own, trace = past ++ own ∧ post own value) (past ++ own) := by
  induction program generalizing own with
  | ret value => exact ⟨own, rfl, hsafe⟩
  | ask request resume ih =>
      rw [safe_ask_history] at hsafe ⊢
      refine ⟨⟨own, rfl, hsafe.1⟩, fun answer => ?_⟩
      rw [List.append_assoc]
      exact ih answer (hsafe.2 answer)

/-- What is safe from an empty history is safe after any other, about its own
part of the trace. -/
theorem Safe.shift {program : Program I α}
    (hsafe : program.Safe (World.history I) promise post []) (past : Trace I) :
    program.Safe (World.history I)
      (fun trace request => ∃ own, trace = past ++ own ∧ promise own request)
      (fun trace value => ∃ own, trace = past ++ own ∧ post own value) past := by
  simpa using @safe_shift_aux _ _ _ _ _ past _ hsafe

/-- If every call of a program is of some kind, so is every event of its trace. -/
theorem Safe.events {kind : I.Call → Prop} {program : Program I α} {past : Trace I}
    (hsafe : program.Safe (World.history I) promise post past)
    (hkind : ∀ trace request, promise trace request → kind request)
    (hpast : ∀ event ∈ past, kind event.1) :
    program.Safe (World.history I)
      (fun trace request => (∀ event ∈ trace, kind event.1) ∧ promise trace request)
      (fun trace value => (∀ event ∈ trace, kind event.1) ∧ post trace value) past := by
  induction program generalizing past with
  | ret value => exact ⟨hpast, hsafe⟩
  | ask request resume ih =>
      rw [safe_ask_history] at hsafe ⊢
      refine ⟨⟨hpast, hsafe.1⟩, fun answer => ih answer (hsafe.2 answer) fun event hevent => ?_⟩
      rcases List.mem_append.mp hevent with hevent | hevent
      · exact hpast event hevent
      · rw [List.mem_singleton.mp hevent]
        exact hkind _ _ hsafe.1

/-- Every call a program can make is of some kind. -/
def Uses (kind : I.Call → Prop) : Program I α → Prop
  | .ret _ => True
  | .ask request resume => kind request ∧ ∀ answer, (resume answer).Uses kind

@[simp]
theorem uses_ret {kind : I.Call → Prop} (value : α) :
    (Program.ret value : Program I α).Uses kind := trivial

theorem uses_call {kind : I.Call → Prop} {request : I.Call} (hkind : kind request) :
    (call request).Uses kind := ⟨hkind, fun _ => trivial⟩

theorem Uses.bind {kind : I.Call → Prop} {program : Program I α} {next : α → Program I β}
    (hprogram : program.Uses kind) (hnext : ∀ value, (next value).Uses kind) :
    (program >>= next).Uses kind := by
  induction program with
  | ret value => exact hnext value
  | ask request resume ih => exact ⟨hprogram.1, fun answer => ih answer (hprogram.2 answer)⟩

theorem Uses.mono {kind kind' : I.Call → Prop} {program : Program I α}
    (hprogram : program.Uses kind) (hkind : ∀ request, kind request → kind' request) :
    program.Uses kind' := by
  induction program with
  | ret value => trivial
  | ask request resume ih =>
      exact ⟨hkind _ hprogram.1, fun answer => ih answer (hprogram.2 answer)⟩

/-- What bounds the serving programs bounds a translation. -/
theorem Uses.translate {kind : I.Call → Prop} {kind' : J.Call → Prop} {program : Program I α}
    {serve : (request : I.Call) → Program J (I.Answer request)} (hprogram : program.Uses kind)
    (hserve : ∀ request, kind request → (serve request).Uses kind') :
    (program.translate serve).Uses kind' := by
  induction program with
  | ret value => trivial
  | ask request resume ih =>
      exact (hserve _ hprogram.1).bind fun answer => ih answer (hprogram.2 answer)

/-- Any program makes calls. -/
theorem uses_trivial (program : Program I α) : program.Uses fun _ => True := by
  induction program with
  | ret value => trivial
  | ask request resume ih => exact ⟨trivial, ih⟩

/-- Kinds of calls can be read off any safety result about the history. -/
theorem Safe.uses {kind : I.Call → Prop} {program : Program I α} {past : Trace I}
    (hsafe : program.Safe (World.history I) promise post past)
    (hkind : ∀ trace request, promise trace request → kind request) : program.Uses kind := by
  induction program generalizing past with
  | ret value => trivial
  | ask request resume ih =>
      rw [safe_ask_history] at hsafe
      exact ⟨hkind _ _ hsafe.1, fun answer => ih answer (hsafe.2 answer)⟩

/-- What has happened stays in the record. -/
theorem safe_recorded_of_mem {W : World I σ} {event : Event I} (program : Program I α)
    {state : Trace I × σ} (hevent : event ∈ state.1) :
    program.Safe W.recorded (fun _ _ => True) (fun after _ => event ∈ after.1) state := by
  induction program generalizing state with
  | ret value => exact hevent
  | ask request resume ih =>
      refine ⟨trivial, fun answer after hstep => ih answer ?_⟩
      rw [hstep.1]
      exact List.mem_append_left _ hevent

/-- The kinds of calls bound what a program does in every world. -/
theorem Uses.safe {kind : I.Call → Prop} {program : Program I α} {W : World I σ} {state : σ}
    (huses : program.Uses kind) :
    program.Safe W (fun _ request => kind request) (fun _ _ => True) state := by
  induction program generalizing state with
  | ret value => trivial
  | ask request resume ih => exact ⟨huses.1, fun answer _ _ => ih answer (huses.2 answer)⟩

/-- Every call made along an execution kept its promise when it was made. -/
theorem Safe.promise_of_mem {W : World I σ} {program residual : Program I α}
    {before after : σ} {past future : Trace I} {event : Event I}
    (hsafe : program.Safe (World.history I) promise post [])
    (hexec : Exec W program before (past ++ event :: future) residual after) :
    promise past event.1 := by
  obtain ⟨middle, between, hpast, hfuture⟩ := hexec.split
  have hhistory := hpast.toHistory []
  cases hfuture with
  | step answered rest => exact hsafe.promise_of_exec hhistory

/-- The kinds of calls bound the events of every execution. -/
theorem Uses.of_mem {kind : I.Call → Prop} {W : World I σ} {program residual : Program I α}
    {before after : σ} {trace : Trace I} (huses : program.Uses kind)
    (hexec : Exec W program before trace residual after) : ∀ event ∈ trace, kind event.1 := by
  induction hexec with
  | stop program state => nofun
  | step answered rest ih =>
      intro event hevent
      rcases List.mem_cons.mp hevent with rfl | hevent
      · exact huses.1
      · exact ih (huses.2 _) event hevent

/-- Every result of an execution meets the postcondition of its trace. -/
theorem Safe.post_of_trace {W : World I σ} {program : Program I α} {before after : σ}
    {trace : Trace I} {value : α} (hsafe : program.Safe (World.history I) promise post [])
    (hexec : Exec W program before trace (.ret value) after) : post trace value :=
  hsafe.post_of_exec (hexec.toHistory [])

end Program

namespace Fallible

variable {promise : Trace I → I.Call → Prop} {onError : Trace I → ε → Prop}
  {post : Trace I → α → Prop}

/-- What is safe from an empty history is safe after any other, about its own
part of the trace. -/
theorem Safe.shift {program : Fallible I ε α}
    (hsafe : Safe (World.history I) promise onError post program []) (past : Trace I) :
    Safe (World.history I)
      (fun trace request => ∃ own, trace = past ++ own ∧ promise own request)
      (fun trace error => ∃ own, trace = past ++ own ∧ onError own error)
      (fun trace value => ∃ own, trace = past ++ own ∧ post own value) program past :=
  (Program.Safe.shift hsafe past).imp fun trace result hresult => by
    obtain ⟨own, htrace, hown⟩ := hresult
    cases result with
    | ok value => exact ⟨own, htrace, hown⟩
    | error error => exact ⟨own, htrace, hown⟩

/-- If every call of a program is of some kind, so is every event of its trace. -/
theorem Safe.events {kind : I.Call → Prop} {program : Fallible I ε α} {past : Trace I}
    (hsafe : Safe (World.history I) promise onError post program past)
    (hkind : ∀ trace request, promise trace request → kind request)
    (hpast : ∀ event ∈ past, kind event.1) :
    Safe (World.history I)
      (fun trace request => (∀ event ∈ trace, kind event.1) ∧ promise trace request)
      (fun trace error => (∀ event ∈ trace, kind event.1) ∧ onError trace error)
      (fun trace value => (∀ event ∈ trace, kind event.1) ∧ post trace value) program past :=
  (Program.Safe.events hsafe hkind hpast).imp fun trace result hresult => by
    cases result with
    | ok value => exact hresult
    | error error => exact hresult

theorem uses_attempt {kind : I.Call → Prop} {program : Program I α}
    (hprogram : program.Uses kind) : (attempt program : Fallible I ε α).run.Uses kind :=
  hprogram.bind fun _ => trivial

theorem uses_require {kind : I.Call → Prop} (check : Bool) (error : ε) :
    (require check error : Fallible I ε Unit).run.Uses kind := by
  cases check <;> trivial

theorem uses_bind {kind : I.Call → Prop} {program : Fallible I ε α} {next : α → Fallible I ε β}
    (hprogram : program.run.Uses kind) (hnext : ∀ value, (next value).run.Uses kind) :
    (program >>= next).run.Uses kind := by
  rw [ExceptT.run_bind]
  refine hprogram.bind fun result => ?_
  cases result with
  | ok value => exact hnext value
  | error error => trivial

/-- Behind a check that did not pass nothing is called. -/
theorem uses_require_bind {kind : I.Call → Prop} {check : Bool} {error : ε}
    {next : Unit → Fallible I ε β} (hnext : check = true → (next ()).run.Uses kind) :
    (require check error >>= next).run.Uses kind := by
  cases check with
  | false => trivial
  | true => exact hnext rfl

/-- What every chunk of a chunked loop is bounded by. Chunks start at multiples of the
limit: only the last may be shorter. -/
theorem uses_chunked {kind : I.Call → Prop} {limit size : Nat}
    {body : Nat → Nat → τ → Fallible I ε τ}
    (hbody : ∀ offset value, offset < size → limit ∣ offset →
      (body offset (min limit (size - offset)) value).run.Uses kind) (value : τ) :
    (chunked limit size body value).run.Uses kind := by
  suffices hloop : ∀ fuel offset value, limit ∣ offset ∨ size ≤ offset →
      (chunkLoop limit size body fuel offset value).run.Uses kind from
    hloop _ _ _ (.inl (Nat.dvd_zero _))
  intro fuel
  induction fuel with
  | zero => exact fun offset value _ => trivial
  | succ fuel ih =>
      intro offset value hoffset
      rw [chunkLoop]
      split
      · next hlt =>
        have hstart : limit ∣ offset := hoffset.resolve_right (Nat.not_le.mpr hlt)
        apply uses_bind (hbody _ _ hlt hstart)
        intro next
        apply ih
        by_cases hfull : limit ≤ size - offset
        · rw [Nat.min_eq_left hfull]
          exact .inl (Nat.dvd_add hstart (Nat.dvd_refl _))
        · exact .inr (by omega)
      · trivial

/-- The results of a program bound what follows it. -/
theorem uses_bind_of_safe {kind : I.Call → Prop} {result : α → Prop} {program : Fallible I ε α}
    {next : α → Fallible I ε β} {past : Trace I} {onError : Trace I → ε → Prop}
    (hprogram : Safe (World.history I) (fun _ request => kind request) onError
      (fun _ value => result value) program past)
    (hnext : ∀ value, result value → (next value).run.Uses kind) :
    (program >>= next).run.Uses kind := by
  have hall : Safe (World.history I) (fun _ request => kind request) (fun _ _ => True)
      (fun _ _ => True) (program >>= next) past := by
    apply Safe.bind (hprogram.mono (fun _ _ h => h) (fun _ _ _ => trivial) fun _ _ h => h)
    intro after value hvalue
    exact ((hnext value hvalue).safe).imp fun _ result _ => by cases result <;> trivial
  exact Program.Safe.uses hall fun _ _ hcall => hcall

end Fallible

/-! ## Sessions -/

/-- One program of a session: what was started, what its calls were answered,
where it stopped, and the states around it. -/
structure Episode (ι : Type) (I : Interface) (α σ : Type) where
  request : ι
  before : σ
  trace : Trace I
  residual : Program I α
  after : σ

/-- Programs run one after another, oldest first. An episode may be cut anywhere;
the next program starts from the state it left. -/
inductive Session (W : World I σ) (program : ι → Program I α) :
    σ → List (Episode ι I α σ) → σ → Prop
  | /-- Nothing has run yet. -/
    start (state : σ) : Session W program state [] state
  | /-- One more program runs. -/
    next {first before after : σ} {episodes : List (Episode ι I α σ)}
      (earlier : Session W program first episodes before) {request : ι} {trace : Trace I}
      {residual : Program I α} (last : Exec W (program request) before trace residual after) :
      Session W program first (episodes ++ [⟨request, before, trace, residual, after⟩]) after

namespace Session

variable {W : World I σ} {program : ι → Program I α}

/-- Every episode of a session is an execution between its two states. -/
theorem exec {first last : σ} {episodes : List (Episode ι I α σ)}
    (hsession : Session W program first episodes last) :
    ∀ episode ∈ episodes,
      Exec W (program episode.request) episode.before episode.trace episode.residual
        episode.after := by
  induction hsession with
  | start => simp
  | next earlier last ih =>
      intro episode hepisode
      rcases List.mem_append.mp hepisode with hepisode | hepisode
      · exact ih episode hepisode
      · rw [List.mem_singleton.mp hepisode]
        exact last

/-- The run up to an episode is a session too. -/
theorem until_episode {first last : σ} {episodes : List (Episode ι I α σ)}
    (hsession : Session W program first episodes last) :
    ∀ episode ∈ episodes, ∃ earlier,
      Session W program first (earlier ++ [episode]) episode.after := by
  induction hsession with
  | start => simp
  | next earlier last ih =>
      intro episode hepisode
      rcases List.mem_append.mp hepisode with hepisode | hepisode
      · exact ih episode hepisode
      · rw [List.mem_singleton.mp hepisode]
        exact ⟨_, .next earlier last⟩

/-- The invariant rule: what every execution preserves, every session preserves. -/
theorem keeps (invariant : σ → Prop)
    (hexec : ∀ request before trace residual after,
      Exec W (program request) before trace residual after → invariant before → invariant after)
    {first last : σ} {episodes : List (Episode ι I α σ)}
    (hsession : Session W program first episodes last) (hfirst : invariant first) :
    invariant last ∧ ∀ episode ∈ episodes, invariant episode.before := by
  induction hsession with
  | start => exact ⟨hfirst, by simp⟩
  | next earlier last ih =>
      obtain ⟨hbefore, hall⟩ := ih
      refine ⟨hexec _ _ _ _ _ last hbefore, fun episode hepisode => ?_⟩
      rcases List.mem_append.mp hepisode with hepisode | hepisode
      · exact hall episode hepisode
      · rw [List.mem_singleton.mp hepisode]
        exact hbefore

/-- Run the programs of a list of requests to their ends on a device. -/
def onDevice (device : σ → (request : I.Call) → I.Answer request × σ) (program : ι → Program I α) :
    List ι → σ → List (Episode ι I α σ) × σ
  | [], state => ([], state)
  | request :: requests, state =>
      let run := (program request).execute device state
      let rest := onDevice device program requests run.2.2
      (⟨request, state, run.1, .ret run.2.1, run.2.2⟩ :: rest.1, rest.2)

/-- A device whose answers the world allows runs sessions of that world. -/
theorem of_device {device : σ → (request : I.Call) → I.Answer request × σ}
    (hdevice : ∀ state request, W.Step state request (device state request).1
      (device state request).2) {first state : σ} {episodes : List (Episode ι I α σ)}
    (hsession : Session W program first episodes state) (requests : List ι) :
    Session W program first (episodes ++ (onDevice device program requests state).1)
      (onDevice device program requests state).2 := by
  induction requests generalizing episodes state with
  | nil => simpa [onDevice] using hsession
  | cons request requests ih =>
      have hrest := ih (.next hsession (.of_device hdevice (program request) state))
      rw [List.append_assoc] at hrest
      exact hrest

end Session

end Interaction
