/-
# Clients that share a lock

Any number of clients run programs against surroundings they share, one call at
a time in any order, and each may stop for good anywhere. `LockUse` says which
calls ask for a lock, which give it back and which need it. A disciplined
program asks for it once, makes every call that needs it while holding it, and
has given it back when it returns.

Discipline is a property of one program. The central result connects it to the
whole pool: when only one client is given the lock at a time, the calls a
disciplined program makes up to its release are a walk of the unshared world
that ends in the present state, as if nobody else were there.
-/

import Mathlib.Data.List.Induction
import EspContainer.Interaction.History

namespace Interaction

variable {I : Interface} {ι κ α σ : Type}

/-- How the calls of an interface use a lock. -/
structure LockUse (I : Interface) where
  /-- The call asks for the lock. -/
  asks : I.Call → Bool
  /-- The answer says that the lock was given. -/
  given : Event I → Bool
  /-- The call gives the lock back. -/
  returns : I.Call → Bool
  /-- The call needs the lock. -/
  needs : I.Call → Bool

/-- Where a program stands with its lock. -/
inductive LockPhase
  | /-- It has not asked yet. -/
    fresh
  | /-- It holds the lock. -/
    held
  | /-- It was refused, or has given the lock back. -/
    done
  deriving DecidableEq

namespace LockUse

variable (use : LockUse I)

/-- The phase after one more answered call. -/
def next (phase : LockPhase) (event : Event I) : LockPhase :=
  match phase with
  | .fresh => if use.asks event.1 then (if use.given event then .held else .done) else .fresh
  | .held => if use.returns event.1 then .done else .held
  | .done => .done

/-- The phase a trace leads to. -/
def phase (trace : Trace I) : LockPhase := trace.foldl use.next .fresh

/-- The calls a disciplined program may make in a phase. -/
def Permits (phase : LockPhase) (call : I.Call) : Prop :=
  match phase with
  | .fresh => use.returns call = false ∧ use.needs call = false
  | .held => use.asks call = false
  | .done => use.asks call = false ∧ use.returns call = false ∧ use.needs call = false

/-- A program makes only calls that its phase permits, and does not end holding the lock. -/
def Disciplined (program : Program I α) : Prop :=
  program.Safe (World.history I) (fun past call => use.Permits (use.phase past) call)
    (fun trace _ => use.phase trace ≠ .held) []

/-- A call that is permitted in a phase and stays in it. -/
def Stays (phase : LockPhase) (call : I.Call) : Prop :=
  use.Permits phase call ∧ ∀ answer, use.next phase ⟨call, answer⟩ = phase

@[simp]
theorem phase_nil : use.phase [] = .fresh := rfl

@[simp]
theorem phase_append_singleton (trace : Trace I) (event : Event I) :
    use.phase (trace ++ [event]) = use.next (use.phase trace) event := by
  simp [phase]

variable {use}

/-- A program whose calls all stay in the present phase ends in it. -/
theorem safe_of_stays {phase : LockPhase} {program : Program I α}
    (huses : program.Uses (use.Stays phase)) {past : Trace I} (hpast : use.phase past = phase) :
    program.Safe (World.history I) (fun past call => use.Permits (use.phase past) call)
      (fun trace _ => use.phase trace = phase) past := by
  induction program generalizing past with
  | ret value => exact hpast
  | ask request resume ih =>
      rw [Program.safe_ask_history]
      refine ⟨by rw [hpast]; exact huses.1.1, fun answer => ?_⟩
      apply ih answer (huses.2 answer)
      rw [phase_append_singleton, hpast]
      exact huses.1.2 answer

section

variable {phase : LockPhase} {call : I.Call}

/-- Only a program that has not asked yet may ask. -/
theorem Permits.fresh_of_asks (hpermits : use.Permits phase call) (hasks : use.asks call = true) :
    phase = .fresh := by
  cases phase with
  | fresh => rfl
  | held =>
      rw [show use.asks call = false from hpermits] at hasks
      cases hasks
  | done =>
      rw [hpermits.1] at hasks
      cases hasks

/-- Only a program that holds the lock may give it back. -/
theorem Permits.held_of_returns (hpermits : use.Permits phase call)
    (hreturns : use.returns call = true) : phase = .held := by
  cases phase with
  | held => rfl
  | fresh =>
      rw [hpermits.1] at hreturns
      cases hreturns
  | done =>
      rw [hpermits.2.1] at hreturns
      cases hreturns

/-- Only a program that holds the lock may do what needs it. -/
theorem Permits.held_of_needs (hpermits : use.Permits phase call) (hneeds : use.needs call = true) :
    phase = .held := by
  cases phase with
  | held => rfl
  | fresh =>
      rw [hpermits.2] at hneeds
      cases hneeds
  | done =>
      rw [hpermits.2.2] at hneeds
      cases hneeds

end

/-! ## What discipline says of a trace -/

/-- Nothing in the trace asks for the lock, gives it back or needs it. -/
def Idle (use : LockUse I) (trace : Trace I) : Prop :=
  ∀ event ∈ trace, use.asks event.1 = false ∧ use.returns event.1 = false ∧
    use.needs event.1 = false

/-- A finished trace that uses its lock properly: it never asks; or it asks and is
refused; or all calls that need the lock lie between one that took it and the one
that gave it back. -/
inductive Bracketed (use : LockUse I) : Trace I → Prop
  | unused {trace : Trace I} (hidle : use.Idle trace) : Bracketed use trace
  | refused {first last : Trace I} {event : Event I} (hfirst : use.Idle first)
      (hasks : use.asks event.1 = true) (hrefused : use.given event = false)
      (hlast : use.Idle last) : Bracketed use (first ++ event :: last)
  | locked {first inside last : Trace I} {taken returned : Event I} (hfirst : use.Idle first)
      (hasks : use.asks taken.1 = true) (hgiven : use.given taken = true)
      (hinside : ∀ event ∈ inside, use.asks event.1 = false ∧ use.returns event.1 = false)
      (hreturns : use.returns returned.1 = true) (hlast : use.Idle last) :
      Bracketed use (first ++ taken :: inside ++ returned :: last)

/-- What a trace of permitted calls looks like in each phase. -/
inductive Shape (use : LockUse I) : LockPhase → Trace I → Prop
  | fresh {trace : Trace I} (hidle : use.Idle trace) : Shape use .fresh trace
  | held {first inside : Trace I} {taken : Event I} (hfirst : use.Idle first)
      (hasks : use.asks taken.1 = true) (hgiven : use.given taken = true)
      (hinside : ∀ event ∈ inside, use.asks event.1 = false ∧ use.returns event.1 = false) :
      Shape use .held (first ++ taken :: inside)
  | done {trace : Trace I} (hbracketed : use.Bracketed trace) : Shape use .done trace

theorem Idle.append {first second : Trace I} (hfirst : use.Idle first)
    (hsecond : use.Idle second) : use.Idle (first ++ second) :=
  fun event hevent => (List.mem_append.mp hevent).elim (hfirst event) (hsecond event)

theorem Idle.nil : use.Idle [] := nofun

/-- A call that is permitted where the lock is not held and does not ask for it is idle. -/
theorem idle_singleton {event : Event I} (hasks : use.asks event.1 = false)
    (hreturns : use.returns event.1 = false) (hneeds : use.needs event.1 = false) :
    use.Idle [event] := by
  intro other hother
  rw [List.mem_singleton.mp hother]
  exact ⟨hasks, hreturns, hneeds⟩

/-- One more permitted call keeps the shape. -/
theorem Shape.next {phase : LockPhase} {trace : Trace I} (hshape : use.Shape phase trace)
    {event : Event I} (hpermits : use.Permits phase event.1) :
    use.Shape (use.next phase event) (trace ++ [event]) := by
  cases hshape with
  | fresh hidle =>
      cases hasks : use.asks event.1 with
      | false =>
          simp only [LockUse.next, hasks]
          exact .fresh (hidle.append (idle_singleton hasks hpermits.1 hpermits.2))
      | true =>
          cases hgiven : use.given event with
          | false =>
              simp only [LockUse.next, hasks, hgiven]
              exact .done (.refused hidle hasks hgiven Idle.nil)
          | true =>
              simp only [LockUse.next, hasks, hgiven]
              exact .held hidle hasks hgiven nofun
  | @held first inside taken hfirst hasks hgiven hinside =>
      cases hreturns : use.returns event.1 with
      | false =>
          simp only [LockUse.next, hreturns]
          rw [List.append_assoc, List.cons_append]
          refine .held hfirst hasks hgiven fun other hother => ?_
          rcases List.mem_append.mp hother with hother | hother
          · exact hinside other hother
          · rw [List.mem_singleton.mp hother]
            exact ⟨hpermits, hreturns⟩
      | true =>
          simp only [LockUse.next, hreturns]
          exact .done (.locked hfirst hasks hgiven hinside hreturns Idle.nil)
  | done hbracketed =>
      obtain ⟨hasks, hreturns, hneeds⟩ := hpermits
      have hevent := idle_singleton hasks hreturns hneeds
      refine .done ?_
      cases hbracketed with
      | unused hidle => exact .unused (hidle.append hevent)
      | refused hfirst hask hrefused hlast =>
          rw [List.append_assoc, List.cons_append]
          exact .refused hfirst hask hrefused (hlast.append hevent)
      | locked hfirst hask hgiven hinside hreturned hlast =>
          rw [List.append_assoc, List.cons_append]
          exact .locked hfirst hask hgiven hinside hreturned (hlast.append hevent)

/-- Every execution of a disciplined program has the shape of its phase. -/
theorem Disciplined.shape {program residual : Program I α} (hprogram : use.Disciplined program)
    {W : World I σ} {before after : σ} {trace : Trace I}
    (hexec : Exec W program before trace residual after) :
    use.Shape (use.phase trace) trace := by
  have hpermitted : ∀ past event future, trace = past ++ event :: future →
      use.Permits (use.phase past) event.1 := by
    rintro past event future rfl
    exact Program.Safe.promise_of_mem hprogram hexec
  clear hexec
  induction trace using List.reverseRecOn with
  | nil => exact .fresh Idle.nil
  | append_singleton trace event ih =>
      rw [phase_append_singleton]
      apply Shape.next
      · apply ih
        rintro past other future rfl
        exact hpermitted past other (future ++ [event]) (by simp)
      · exact hpermitted trace event [] rfl

/-- A finished execution of a disciplined program is bracketed. -/
theorem Disciplined.bracketed {program : Program I α} (hprogram : use.Disciplined program)
    {W : World I σ} {before after : σ} {trace : Trace I} {value : α}
    (hexec : Exec W program before trace (.ret value) after) : use.Bracketed trace := by
  have hshape := hprogram.shape hexec
  have hreleased := Program.Safe.post_of_trace hprogram hexec
  cases hphase : use.phase trace with
  | fresh =>
      rw [hphase] at hshape
      cases hshape with
      | fresh hidle => exact .unused hidle
  | held => exact absurd hphase hreleased
  | done =>
      rw [hphase] at hshape
      cases hshape with
      | done hbracketed => exact hbracketed

end LockUse

/-! ## Pools of clients -/

/-- A program that a client has started: its request, how its calls were answered so far,
and what is left of it. -/
structure Thread (ι : Type) (I : Interface) (α : Type) where
  request : ι
  trace : Trace I
  residual : Program I α

/-- What each client of a pool is doing. -/
abbrev Pool (κ ι : Type) (I : Interface) (α : Type) : Type := κ → Option (Thread ι I α)

/-- One answered call of a shared run: who made it, its thread before the call, and the
shared state around it. -/
structure Moment (κ ι : Type) (I : Interface) (α σ : Type) where
  client : κ
  thread : Thread ι I α
  event : Event I
  before : σ
  after : σ

/-- What happens in a shared run. -/
inductive Incident (κ ι : Type) (I : Interface) (α σ : Type)
  | /-- An idle client starts a request. -/
    began (client : κ) (request : ι)
  | /-- A client makes a call. -/
    called (moment : Moment κ ι I α σ)
  | /-- A client's program returns. -/
    ended (client : κ) (thread : Thread ι I α) (value : α)

/-- `Shared W program s incidents pool t`: starting idle from the shared state `s`, the
clients do `incidents` in that order. A client that makes no further call has stopped for
good; `W` says how the calls of each client may be answered. -/
inductive Shared [DecidableEq κ] (W : κ → World I σ) (program : ι → Program I α) :
    σ → List (Incident κ ι I α σ) → Pool κ ι I α → σ → Prop
  | idle (state : σ) : Shared W program state [] (fun _ => none) state
  | begin {first state : σ} {incidents : List (Incident κ ι I α σ)} {pool : Pool κ ι I α}
      (earlier : Shared W program first incidents pool state) {client : κ}
      (hidle : pool client = none) (request : ι) :
      Shared W program first (incidents ++ [.began client request])
        (Function.update pool client (some ⟨request, [], program request⟩)) state
  | call {first state after : σ} {incidents : List (Incident κ ι I α σ)} {pool : Pool κ ι I α}
      (earlier : Shared W program first incidents pool state) {client : κ} {request : ι}
      {trace : Trace I} {call : I.Call} {resume : I.Answer call → Program I α}
      (hthread : pool client = some ⟨request, trace, .ask call resume⟩) {answer : I.Answer call}
      (answered : (W client).Step state call answer after) :
      Shared W program first
        (incidents ++ [.called
          ⟨client, ⟨request, trace, .ask call resume⟩, ⟨call, answer⟩, state, after⟩])
        (Function.update pool client
          (some ⟨request, trace ++ [⟨call, answer⟩], resume answer⟩)) after
  | finish {first state : σ} {incidents : List (Incident κ ι I α σ)} {pool : Pool κ ι I α}
      (earlier : Shared W program first incidents pool state) {client : κ} {request : ι}
      {trace : Trace I} {value : α}
      (hthread : pool client = some ⟨request, trace, .ret value⟩) :
      Shared W program first
        (incidents ++ [.ended client ⟨request, trace, .ret value⟩ value])
        (Function.update pool client none) state

namespace Shared

variable [DecidableEq κ] {W : κ → World I σ} {program : ι → Program I α}

/-- Every thread of a pool is an execution of its request. -/
theorem exec {first state : σ} {incidents : List (Incident κ ι I α σ)} {pool : Pool κ ι I α}
    (hshared : Shared W program first incidents pool state) :
    ∀ client thread, pool client = some thread →
      Exec (World.free I) (program thread.request) () thread.trace thread.residual () := by
  induction hshared with
  | idle => nofun
  | begin earlier hidle request ih =>
      intro client thread hthread
      rw [Function.update_apply] at hthread
      split at hthread
      · cases hthread
        exact .stop _ _
      · exact ih client thread hthread
  | call earlier hcaller answered ih =>
      intro client thread hthread
      rw [Function.update_apply] at hthread
      split at hthread
      · cases hthread
        exact (ih _ _ hcaller).append (.step trivial (.stop _ _))
      · exact ih client thread hthread
  | finish earlier hcaller ih =>
      intro client thread hthread
      rw [Function.update_apply] at hthread
      split at hthread
      · cases hthread
      · exact ih client thread hthread

/-- Every moment of a shared run was a call of a thread of some pool of the run. -/
theorem until_moment {first state : σ} {incidents : List (Incident κ ι I α σ)}
    {pool : Pool κ ι I α} (hshared : Shared W program first incidents pool state) :
    ∀ moment, .called moment ∈ incidents → ∃ earlier pool,
      Shared W program first earlier pool moment.before ∧
        pool moment.client = some moment.thread ∧
        (W moment.client).Step moment.before moment.event.1 moment.event.2 moment.after ∧
        ∃ resume, moment.thread.residual = .ask moment.event.1 resume := by
  induction hshared with
  | idle => nofun
  | begin earlier hidle request ih =>
      intro moment hmoment
      exact ih moment (by simpa using hmoment)
  | call earlier hcaller answered ih =>
      intro moment hmoment
      rw [List.mem_append, List.mem_singleton] at hmoment
      rcases hmoment with hmoment | hmoment
      · exact ih moment hmoment
      · cases hmoment
        exact ⟨_, _, earlier, hcaller, answered, _, rfl⟩
  | finish earlier hcaller ih =>
      intro moment hmoment
      exact ih moment (by simpa using hmoment)

/-- Every call in the trace of a thread of the pool was made in the run. -/
theorem called_of_pool {first state : σ} {incidents : List (Incident κ ι I α σ)}
    {pool : Pool κ ι I α} (hshared : Shared W program first incidents pool state) :
    ∀ client thread, pool client = some thread → ∀ event ∈ thread.trace,
      ∃ moment, .called moment ∈ incidents ∧ moment.event = event := by
  induction hshared with
  | idle => nofun
  | begin earlier hidle request ih =>
      intro client thread hthread event hevent
      rw [Function.update_apply] at hthread
      split at hthread
      · cases hthread
        cases hevent
      · obtain ⟨moment, hmoment, heq⟩ := ih client thread hthread event hevent
        exact ⟨moment, by simp [hmoment], heq⟩
  | call earlier hcaller answered ih =>
      intro client thread hthread event hevent
      rw [Function.update_apply] at hthread
      split at hthread
      · cases hthread
        rcases List.mem_append.mp hevent with hevent | hevent
        · obtain ⟨moment, hmoment, heq⟩ := ih _ _ hcaller event hevent
          exact ⟨moment, by simp [hmoment], heq⟩
        · rw [List.mem_singleton.mp hevent]
          exact ⟨_, List.mem_append_right _ (List.mem_singleton.mpr rfl), rfl⟩
      · obtain ⟨moment, hmoment, heq⟩ := ih client thread hthread event hevent
        exact ⟨moment, by simp [hmoment], heq⟩
  | finish earlier hcaller ih =>
      intro client thread hthread event hevent
      rw [Function.update_apply] at hthread
      split at hthread
      · cases hthread
      · obtain ⟨moment, hmoment, heq⟩ := ih client thread hthread event hevent
        exact ⟨moment, by simp [hmoment], heq⟩

/-- Every call in the trace of a thread that ended was made in the run. -/
theorem called_of_ended {first state : σ} {incidents : List (Incident κ ι I α σ)}
    {pool : Pool κ ι I α} (hshared : Shared W program first incidents pool state) :
    ∀ client thread value, .ended client thread value ∈ incidents → ∀ event ∈ thread.trace,
      ∃ moment, .called moment ∈ incidents ∧ moment.event = event := by
  induction hshared with
  | idle => nofun
  | begin earlier hidle request ih =>
      intro client thread value hended event hevent
      obtain ⟨moment, hmoment, heq⟩ := ih client thread value (by simpa using hended) event hevent
      exact ⟨moment, by simp [hmoment], heq⟩
  | call earlier hcaller answered ih =>
      intro client thread value hended event hevent
      obtain ⟨moment, hmoment, heq⟩ := ih client thread value (by simpa using hended) event hevent
      exact ⟨moment, by simp [hmoment], heq⟩
  | finish earlier hcaller ih =>
      intro client thread value hended event hevent
      rcases List.mem_append.mp hended with hended | hended
      · obtain ⟨moment, hmoment, heq⟩ := ih client thread value hended event hevent
        exact ⟨moment, by simp [hmoment], heq⟩
      · cases List.mem_singleton.mp hended
        obtain ⟨moment, hmoment, heq⟩ := earlier.called_of_pool _ _ hcaller event hevent
        exact ⟨moment, by simp [hmoment], heq⟩

/-- Every thread that ended was an execution of its request. -/
theorem exec_of_ended {first state : σ} {incidents : List (Incident κ ι I α σ)}
    {pool : Pool κ ι I α} (hshared : Shared W program first incidents pool state) :
    ∀ client thread value, .ended client thread value ∈ incidents →
      Exec (World.free I) (program thread.request) () thread.trace (.ret value) () := by
  induction hshared with
  | idle => nofun
  | begin earlier hidle request ih =>
      intro client thread value hended
      exact ih client thread value (by simpa using hended)
  | call earlier hcaller answered ih =>
      intro client thread value hended
      exact ih client thread value (by simpa using hended)
  | finish earlier hcaller ih =>
      intro client thread value hended
      rw [List.mem_append, List.mem_singleton] at hended
      rcases hended with hended | hended
      · exact ih client thread value hended
      · cases hended
        exact earlier.exec _ _ hcaller

end Shared

/-! ## Exclusive locks -/

namespace LockUse

variable (use : LockUse I)

/-- Surroundings with a lock that only one client holds at a time. -/
def exclusive (W : World I σ) (client : κ) : World I (Option κ × σ) where
  Step before call answer after :=
    W.Step before.2 call answer after.2 ∧
      if use.asks call && use.given ⟨call, answer⟩ then
        before.1 = none ∧ after.1 = some client
      else if use.returns call then
        after.1 = none
      else
        after.1 = before.1

/-- Without the lock a program neither depends on the shared state nor changes it. -/
def Guards (W : World I σ) : Prop :=
  ∀ call, use.needs call = false → ∀ before answer after, W.Step before call answer after →
    after = before ∧ ∀ state, W.Step state call answer state

variable {use}

/-- What holds of a thread in a pool whose lock is exclusive: it holds the lock exactly if
its trace says so, and then its trace is a walk of the unshared world to the present
state; before it asks for the lock it could have been walked anywhere. -/
def Attuned (use : LockUse I) (W : World I σ) (holder : Option κ) (state : σ) (client : κ)
    (trace : Trace I) : Prop :=
  (use.phase trace = .held ↔ holder = some client) ∧
    (use.phase trace = .held → ∃ start, W.Path start trace state) ∧
    (use.phase trace = .fresh → ∀ start, W.Path start trace start)

/-- A call of one client, seen by the others: the lock stays with whom it was, and while
another client holds it nothing changes. -/
theorem others_kept {W : World I σ} (hguards : use.Guards W) {client : κ} {trace : Trace I}
    {before after : Option κ × σ} (hattuned : use.Attuned W before.1 before.2 client trace)
    (event : Event I) (hpermits : use.Permits (use.phase trace) event.1)
    (hstep : (use.exclusive W client).Step before event.1 event.2 after) {other : κ}
    (hother : other ≠ client) :
    (after.1 = some other ↔ before.1 = some other) ∧
      (before.1 = some other → after.2 = before.2) := by
  obtain ⟨hworld, hholder⟩ := hstep
  have hstate : use.phase trace ≠ .held → after.2 = before.2 := by
    intro hphase
    refine (hguards event.1 ?_ _ _ _ hworld).1
    rw [← Bool.not_eq_true]
    exact fun hneeds => hphase (hpermits.held_of_needs hneeds)
  have hheld : before.1 = some other → use.phase trace ≠ .held := by
    intro hbefore hphase
    rw [hattuned.1.mp hphase] at hbefore
    exact hother (Option.some.inj hbefore).symm
  refine ⟨?_, fun hbefore => hstate (hheld hbefore)⟩
  split at hholder
  · obtain ⟨hnone, hsome⟩ := hholder
    rw [hnone, hsome]
    exact iff_of_false (fun heq => hother (Option.some.inj heq).symm) nofun
  · split at hholder
    · next hreturns =>
      -- Only the client that holds the lock gives it back.
      have hphase := hpermits.held_of_returns hreturns
      rw [hholder, hattuned.1.mp hphase]
      exact iff_of_false nofun fun heq => hother (Option.some.inj heq).symm
    · rw [hholder]

/-- A call of a client keeps its own thread attuned. -/
theorem Attuned.next {W : World I σ} (hguards : use.Guards W) {client : κ} {trace : Trace I}
    {before after : Option κ × σ} (hattuned : use.Attuned W before.1 before.2 client trace)
    (event : Event I) (hpermits : use.Permits (use.phase trace) event.1)
    (hstep : (use.exclusive W client).Step before event.1 event.2 after) :
    use.Attuned W after.1 after.2 client (trace ++ [event]) := by
  obtain ⟨hworld, hholder⟩ := hstep
  obtain ⟨hheld, hpath, hfree⟩ := hattuned
  unfold Attuned
  rw [phase_append_singleton]
  cases hphase : use.phase trace with
  | fresh =>
      rw [hphase] at hpermits hheld
      have hquiet := hguards event.1 hpermits.2 _ _ _ hworld
      have hwalk : ∀ start, W.Path start (trace ++ [event]) start := fun start =>
        World.path_append.mpr ⟨start, hfree hphase start, start, hquiet.2 start, rfl⟩
      cases hasks : use.asks event.1 with
      | false =>
          simp only [hasks, Bool.false_and, hpermits.1] at hholder
          simp only [LockUse.next, hasks]
          refine ⟨?_, nofun, fun _ => hwalk⟩
          rw [if_neg Bool.false_ne_true, if_neg Bool.false_ne_true] at hholder
          rw [hholder]
          exact hheld
      | true =>
          cases hgiven : use.given event with
          | false =>
              simp only [hasks, hgiven, Bool.and_false, hpermits.1] at hholder
              simp only [LockUse.next, hasks, hgiven]
              refine ⟨?_, nofun, nofun⟩
              rw [if_neg Bool.false_ne_true, if_neg Bool.false_ne_true] at hholder
              rw [hholder, ← hheld]
              exact iff_of_false nofun nofun
          | true =>
              rw [if_pos (by rw [hasks, hgiven]; rfl)] at hholder
              simp only [LockUse.next, hasks, hgiven]
              refine ⟨iff_of_true rfl hholder.2, fun _ => ⟨before.2, ?_⟩, nofun⟩
              rw [hquiet.1]
              exact hwalk before.2
  | held =>
      rw [hphase] at hpermits hheld
      obtain ⟨start, hstart⟩ := hpath hphase
      have hasks : use.asks event.1 = false := hpermits
      simp only [hasks, Bool.false_and] at hholder
      rw [if_neg Bool.false_ne_true] at hholder
      cases hreturns : use.returns event.1 with
      | true =>
          rw [if_pos hreturns] at hholder
          simp only [LockUse.next, hreturns]
          refine ⟨?_, nofun, nofun⟩
          rw [hholder]
          exact iff_of_false nofun nofun
      | false =>
          rw [hreturns, if_neg Bool.false_ne_true] at hholder
          simp only [LockUse.next, hreturns]
          refine ⟨?_, fun _ => ⟨start, ?_⟩, nofun⟩
          · rw [hholder]
            exact hheld
          · exact World.path_append.mpr ⟨before.2, hstart, after.2, hworld, rfl⟩
  | done =>
      rw [hphase] at hpermits hheld
      obtain ⟨hasks, hreturns, hneeds⟩ := hpermits
      simp only [hasks, Bool.false_and, hreturns] at hholder
      rw [if_neg Bool.false_ne_true, if_neg Bool.false_ne_true] at hholder
      refine ⟨?_, nofun, nofun⟩
      rw [hholder, ← hheld]
      exact iff_of_false nofun nofun

end LockUse

namespace Shared

variable [DecidableEq κ] {use : LockUse I} {W : World I σ} {program : ι → Program I α}

/-- In a pool of disciplined programs with an exclusive lock every thread is attuned, and
an idle client does not hold the lock. -/
theorem attuned (hguards : use.Guards W) (hprogram : ∀ request, use.Disciplined (program request))
    {first state : Option κ × σ} {incidents : List (Incident κ ι I α (Option κ × σ))}
    {pool : Pool κ ι I α} (hfree : first.1 = none)
    (hshared : Shared (use.exclusive W) program first incidents pool state) :
    (∀ client thread, pool client = some thread →
        use.Attuned W state.1 state.2 client thread.trace) ∧
      ∀ client, pool client = none → state.1 ≠ some client := by
  induction hshared with
  | idle =>
      refine ⟨nofun, fun client _ => ?_⟩
      rw [hfree]
      exact nofun
  | @begin state incidents pool earlier client hidle request ih =>
      obtain ⟨hthreads, hnone⟩ := ih
      constructor
      · intro other thread hthread
        rw [Function.update_apply] at hthread
        split at hthread
        · next heq =>
          cases hthread
          subst heq
          exact ⟨iff_of_false nofun (hnone other hidle), nofun, fun _ start => rfl⟩
        · exact hthreads other thread hthread
      · intro other hother
        rw [Function.update_apply] at hother
        split at hother
        · cases hother
        · exact hnone other hother
  | @call before after incidents pool earlier client request trace call resume hcaller answer
      answered ih =>
      obtain ⟨hthreads, hnone⟩ := ih
      have hattuned := hthreads client _ hcaller
      have hpermits : use.Permits (use.phase trace) call :=
        (hprogram request).promise_of_exec ((earlier.exec client _ hcaller).toHistory [])
      have hothers := fun other (hother : other ≠ client) =>
        LockUse.others_kept hguards hattuned ⟨call, answer⟩ hpermits answered hother
      constructor
      · intro other thread hthread
        rw [Function.update_apply] at hthread
        split at hthread
        · next heq =>
          cases hthread
          subst heq
          exact hattuned.next hguards ⟨call, answer⟩ hpermits answered
        · next hother =>
          obtain ⟨hheld, hpath, hfresh⟩ := hthreads other thread hthread
          obtain ⟨hholder, hstate⟩ := hothers other hother
          refine ⟨hheld.trans hholder.symm, fun hphase => ?_, hfresh⟩
          rw [hstate (hheld.mp hphase)]
          exact hpath hphase
      · intro other hother
        rw [Function.update_apply] at hother
        split at hother
        · cases hother
        · next hne =>
          rw [ne_eq, (hothers other hne).1]
          exact hnone other hother
  | @finish state incidents pool earlier client request trace value hcaller ih =>
      obtain ⟨hthreads, hnone⟩ := ih
      have hreleased : use.phase trace ≠ .held :=
        (hprogram request).post_of_exec ((earlier.exec client _ hcaller).toHistory [])
      constructor
      · intro other thread hthread
        rw [Function.update_apply] at hthread
        split at hthread
        · cases hthread
        · exact hthreads other thread hthread
      · intro other hother
        rw [Function.update_apply] at hother
        split at hother
        · next heq =>
          subst heq
          exact fun hheld => hreleased ((hthreads _ _ hcaller).1.mpr hheld)
        · exact hnone other hother

/-- A client goes on alone for a while. -/
theorem alone {V : κ → World I σ} {first state after : σ} {incidents : List (Incident κ ι I α σ)}
    {pool : Pool κ ι I α} (hshared : Shared V program first incidents pool state) {client : κ}
    {request : ι} {past trace : Trace I} {rest residual : Program I α}
    (hthread : pool client = some ⟨request, past, rest⟩)
    (hexec : Exec (V client) rest state trace residual after) :
    ∃ more pool', Shared V program first (incidents ++ more) pool' after ∧
      pool' client = some ⟨request, past ++ trace, residual⟩ := by
  induction hexec generalizing incidents pool past with
  | stop rest state => exact ⟨[], pool, by simpa using hshared, by simpa using hthread⟩
  | @step call resume answer before middle after trace residual answered _ ih =>
      obtain ⟨more, pool', hmore, hpool⟩ :=
        ih (.call hshared hthread answered) (by rw [Function.update_self])
      exact ⟨.called ⟨client, ⟨request, past, .ask call resume⟩, ⟨call, answer⟩, before, middle⟩ ::
        more, pool', by simpa using hmore, by simpa using hpool⟩

end Shared

namespace LockUse

variable {use : LockUse I} {W : World I σ}

/-- Who holds the lock when one client runs alone. -/
def soleHolder (client : κ) : LockPhase → Option κ
  | .held => some client
  | _ => none

/-- A disciplined program that runs alone is never kept from its lock. -/
theorem exec_exclusive {program residual : Program I α} {past trace : Trace I} {before after : σ}
    {post : Trace I → α → Prop}
    (hsafe : program.Safe (World.history I)
      (fun past call => use.Permits (use.phase past) call) post past)
    (hexec : Exec W program before trace residual after) (client : κ) :
    Exec (use.exclusive W client) program (soleHolder client (use.phase past), before) trace residual
      (soleHolder client (use.phase (past ++ trace)), after) := by
  induction hexec generalizing past with
  | stop program state => simpa using Exec.stop (W := use.exclusive W client) program _
  | @step call resume answer before middle after trace residual answered _ ih =>
      rw [Program.safe_ask_history] at hsafe
      obtain ⟨hpermits, hrest⟩ := hsafe
      have hnext := ih (hrest answer)
      rw [List.append_assoc, List.singleton_append, phase_append_singleton] at hnext
      refine .step ⟨answered, ?_⟩ hnext
      cases hphase : use.phase past with
      | fresh =>
          rw [hphase] at hpermits
          cases hasks : use.asks call with
          | false => simp [hasks, hpermits.1, LockUse.next, soleHolder]
          | true =>
              cases hgiven : use.given ⟨call, answer⟩ <;>
                simp [hasks, hgiven, hpermits.1, LockUse.next, soleHolder]
      | held =>
          rw [hphase] at hpermits
          have hasks : use.asks call = false := hpermits
          cases hreturns : use.returns call <;> simp [hasks, hreturns, LockUse.next, soleHolder]
      | done =>
          rw [hphase] at hpermits
          simp [hpermits.1, hpermits.2.1, LockUse.next, soleHolder]

end LockUse

end Interaction
