/-
# What a guest entry can do

One lemma says everything an import can do to its host, and one says everything
`invoke` can come back with. What imports leave alone, what becomes of the timer
table, and when an entry counts as expired all follow from these two.
-/

import EspContainer.Interaction.Walk
import EspContainer.Runtime.Calls

namespace Container

open Interaction Package

/-! ## One import -/

/-- The value a refused import returns. -/
def Denied : (call : ImportCall) → call.Answer → Prop
  | .monotonicMs, _ => True
  | .log _ _, answer => answer ≠ 0
  | .timerStart _ _, answer => answer = 0
  | .timerCancel _, answer => answer = -1

/-- The flag of an entry that ran out of time. -/
def Runtime.expire (runtime : Runtime) : Runtime := { runtime with entryExpired := true }

/-- Everything an import can do. -/
inductive Effect : Imported → Prop
  | /-- Nothing but read the clock. -/
    idle {call : ImportCall} {world : Surroundings} {host : Host} {answer : call.Answer}
      (hcheck : nativeOwner world host.runtime ≠ .expired) (hdenied : Denied call answer) :
      Effect ⟨call, world, host, answer, host⟩
  | /-- Notice that the entry has run out of time. -/
    expired {call : ImportCall} {world : Surroundings} {host : Host} {answer : call.Answer}
      (hcheck : nativeOwner world host.runtime = .expired) (hdenied : Denied call answer) :
      Effect ⟨call, world, host, answer, host.onRuntime Runtime.expire⟩
  | /-- Accept a log record. -/
    logged {offset sizeBytes : UInt32} {world : Surroundings} {host : Host}
      (hcheck : nativeOwner world host.runtime = .granted)
      (hempty : host.runtime.pendingLogSize = 0) (hsize : sizeBytes ≠ 0) :
      Effect ⟨.log offset sizeBytes, world, host, (0 : Int32),
        host.onRuntime fun runtime => runtime.keepLog (world.bytes offset sizeBytes)⟩
  | /-- Start a timer in a free slot, under the next handle. -/
    started {delayMs periodMs : UInt32} {world : Surroundings} {host : Host}
      {slot : Fin timerCapacity} {deadlineMs : UInt64}
      (hcheck : nativeOwner world host.runtime = .granted)
      (hstopping : host.runtime.stopping = false)
      (hnext : host.nextTimerHandle ≠ 0) (hfree : host.runtime.freeSlot = some slot) :
      Effect ⟨.timerStart delayMs periodMs, world, host, host.nextTimerHandle,
        ⟨host.runtime.setTimer slot ⟨host.nextTimerHandle, deadlineMs, periodMs, true⟩,
          host.nextTimerHandle + 1⟩⟩
  | /-- Cancel an active timer. -/
    cancelled {handle : UInt64} {world : Surroundings} {host : Host}
      {slot : Fin timerCapacity} (hcheck : nativeOwner world host.runtime = .granted)
      (hstopping : host.runtime.stopping = false) (hslot : host.runtime.slotOf handle = some slot) :
      Effect ⟨.timerCancel handle, world, host, (0 : Int32),
        host.onRuntime fun runtime =>
          runtime.setTimer slot { runtime.timers slot with active := false }⟩

/-- What is common to the imports: two refusals that have no effect of their own, and
the work of an import that was let through. -/
theorem effect_hostImport {call : ImportCall} {capability : UInt32} {notAuthorized : String}
    {denied : call.Answer} {work : Surroundings → Host → Native call.Answer}
    {world : Surroundings} {host : Host} (hdenied : Denied call denied)
    (hwork : nativeOwner world host.runtime = .granted →
      Effect ⟨call, world, host, (work world host).answer, (work world host).host⟩) :
    Effect ⟨call, world, host, (hostImport capability notAuthorized denied work world host).answer,
      (hostImport capability notAuthorized denied work world host).host⟩ := by
  unfold hostImport
  cases hcheck : nativeOwner world host.runtime with
  | refused exception => exact .idle (by simp [hcheck]) hdenied
  | expired => exact .expired hcheck hdenied
  | granted =>
      cases hallowed : host.runtime.limits.allows capability with
      | true => simpa [hallowed] using hwork hcheck
      | false => simpa [hallowed] using Effect.idle (by simp [hcheck]) hdenied

/-- Everything an import can do. -/
theorem effect_importOnce (call : ImportCall) (world : Surroundings) (host : Host) :
    Effect (importOnce call world host) := by
  cases call with
  | monotonicMs =>
      have hdenied : Denied .monotonicMs (0 : UInt64) := trivial
      apply effect_hostImport hdenied
      intro hcheck
      cases world.clock with
      | none => exact .idle (by simp [hcheck]) trivial
      | some now => exact .idle (by simp [hcheck]) trivial
  | log offset sizeBytes =>
      have hdenied : Denied (.log offset sizeBytes) (-1 : Int32) := by
        change (-1 : Int32) ≠ 0
        decide
      apply effect_hostImport hdenied
      intro hcheck
      have hidle : ∀ answer : Int32, answer ≠ 0 →
          Effect ⟨.log offset sizeBytes, world, host, answer, host⟩ :=
        fun answer hanswer => .idle (by simp [hcheck]) hanswer
      by_cases hsize : (sizeBytes == 0 || sizeBytes > host.runtime.limits.maxLogBytes) = true
      · simpa [hsize] using hidle (-1) (by decide)
      by_cases hempty : host.runtime.pendingLogSize = 0
      · by_cases hvalid : world.validAddress = true
        · by_cases hmapped : world.mapped = true
          · have hrecord : sizeBytes ≠ 0 := by
              rintro rfl
              simp at hsize
            simpa [hsize, hempty, hvalid, hmapped] using Effect.logged hcheck hempty hrecord
          · simpa [hsize, hempty, hvalid, hmapped] using hidle (-1) (by decide)
        · simpa [hsize, hempty, hvalid] using hidle (-1) (by decide)
      · simpa [hsize, hempty] using hidle (-2) (by decide)
  | timerStart delayMs periodMs =>
      have hdenied : Denied (.timerStart delayMs periodMs) (0 : UInt64) := rfl
      apply effect_hostImport hdenied
      intro hcheck
      have hidle : Effect ⟨.timerStart delayMs periodMs, world, host, (0 : UInt64), host⟩ :=
        .idle (by simp [hcheck]) rfl
      by_cases hvalid : timerStartValid delayMs periodMs host = true
      · cases hfree : host.runtime.freeSlot with
        | none => simpa [hvalid, hfree] using hidle
        | some slot =>
            cases hclock : world.clock with
            | none => simpa [hvalid, hfree, hclock] using hidle
            | some now =>
                by_cases hlate : now > uint64Max - delayMs.toUInt64
                · simpa [hvalid, hfree, hclock, hlate] using hidle
                · have hnext : host.nextTimerHandle ≠ 0 ∧ host.runtime.stopping = false := by
                    simp only [timerStartValid, Bool.not_eq_true', Bool.or_eq_false_iff,
                      beq_eq_false_iff_ne] at hvalid
                    exact ⟨hvalid.2, hvalid.1.1.1.1.1⟩
                  simpa [hvalid, hfree, hclock, hlate, issueTimerHandle, hnext.1] using
                    Effect.started hcheck hnext.2 hnext.1 hfree
      · simpa [hvalid] using hidle
  | timerCancel handle =>
      have hdenied : Denied (.timerCancel handle) (-1 : Int32) := rfl
      apply effect_hostImport hdenied
      intro hcheck
      have hidle : Effect ⟨.timerCancel handle, world, host, (-1 : Int32), host⟩ :=
        .idle (by simp [hcheck]) rfl
      by_cases hrefused : (host.runtime.stopping || handle == 0) = true
      · simpa [hrefused] using hidle
      · cases hslot : host.runtime.slotOf handle with
        | none => simpa [hrefused, hslot] using hidle
        | some slot =>
            have hstopping : host.runtime.stopping = false := by
              rw [Bool.not_eq_true, Bool.or_eq_false_iff] at hrefused
              exact hrefused.1
            simpa [hrefused, hslot] using Effect.cancelled hcheck hstopping hslot

/-! ## What imports leave alone -/

/-- The fields of an instance no import writes. -/
structure Runtime.Framed (before after : Runtime) : Prop where
  limits : after.limits = before.limits
  state : after.state = before.state
  callActive : after.callActive = before.callActive
  guestActive : after.guestActive = before.guestActive
  deadline : after.entryDeadlineMs = before.entryDeadlineMs
  stopping : after.stopping = before.stopping

theorem Runtime.Framed.refl (runtime : Runtime) : runtime.Framed runtime :=
  ⟨rfl, rfl, rfl, rfl, rfl, rfl⟩

theorem Runtime.Framed.trans {first second third : Runtime} (hfirst : first.Framed second)
    (hsecond : second.Framed third) : first.Framed third :=
  ⟨hsecond.limits.trans hfirst.limits, hsecond.state.trans hfirst.state,
    hsecond.callActive.trans hfirst.callActive, hsecond.guestActive.trans hfirst.guestActive,
    hsecond.deadline.trans hfirst.deadline, hsecond.stopping.trans hfirst.stopping⟩

theorem Effect.framed {imported : Imported} (heffect : Effect imported) :
    imported.before.runtime.Framed imported.after.runtime := by
  cases heffect <;> exact ⟨rfl, rfl, rfl, rfl, rfl, rfl⟩

/-! ## Sequences of imports -/

/-- The step of one import. -/
def ImportStep (before : Host) (imported : Imported) (after : Host) : Prop :=
  imported.before = before ∧ imported.after = after ∧ Effect imported ∧
    imported = importOnce imported.call imported.world imported.before

/-- Serving imports is a walk. -/
theorem walk_serve (imports : List (ImportCall × Surroundings)) (host : Host) :
    Walk ImportStep host (serve imports host).1 (serve imports host).2 := by
  induction imports generalizing host with
  | nil => exact .stay host
  | cons first rest ih =>
      obtain ⟨call, world⟩ := first
      exact .move ⟨rfl, rfl, effect_importOnce call world host, rfl⟩ (ih _)

/-- A walk of imports leaves the same fields alone. -/
theorem framed_of_imports {first last : Host} {imported : List Imported}
    (hwalk : Walk ImportStep first imported last) : first.runtime.Framed last.runtime := by
  apply hwalk.preserves (J := fun host => first.runtime.Framed host.runtime)
  · rintro _ moment _ hframed ⟨rfl, rfl, heffect, -⟩
    exact hframed.trans heffect.framed
  · exact .refl _

/-- The flag of an expired entry is set exactly if some ownership check found it expired. -/
theorem entryExpired_of_imports {first last : Host} {imported : List Imported}
    (hwalk : Walk ImportStep first imported last) :
    last.runtime.entryExpired = true ↔ first.runtime.entryExpired = true ∨
      ∃ moment ∈ imported, nativeOwner moment.world moment.before.runtime = .expired := by
  induction hwalk with
  | stay host => simp
  | @move _ _ _ moment _ hstep hrest ih =>
      obtain ⟨rfl, rfl, heffect, -⟩ := hstep
      rw [ih]
      simp only [List.mem_cons, exists_eq_or_imp, ← or_assoc]
      apply or_congr_left
      cases heffect with
      | idle hcheck hdenied => simp [hcheck]
      | expired hcheck hdenied => simp [hcheck, Runtime.expire]
      | logged hcheck hempty hsize => simp [hcheck, Runtime.keepLog]
      | started hcheck hstopping hnext hfree => simp [hcheck, Runtime.setTimer]
      | cancelled hcheck hstopping hslot => simp [hcheck, Runtime.setTimer]

/-- A log record that is pending stays as it is. -/
theorem log_kept_of_imports {first last : Host} {imported : List Imported}
    (hwalk : Walk ImportStep first imported last) (hpending : first.runtime.pendingLogSize ≠ 0) :
    last.runtime.pendingLog = first.runtime.pendingLog ∧
      last.runtime.pendingLogSize = first.runtime.pendingLogSize := by
  apply hwalk.preserves (J := fun host => host.runtime.pendingLog = first.runtime.pendingLog ∧
    host.runtime.pendingLogSize = first.runtime.pendingLogSize)
  · rintro _ moment _ hkept ⟨rfl, rfl, heffect, -⟩
    cases heffect with
    | logged hcheck hempty hsize => exact absurd (hkept.2.symm.trans hempty) hpending
    | _ => exact hkept
  · exact ⟨rfl, rfl⟩

/-! ## Invocations -/

/-- The time by which an entry that began then has to be over. -/
def Runtime.deadlineAfter (runtime : Runtime) (began : UInt64) : Nat :=
  began.toNat + runtime.limits.maxEntryDurationMs.toNat

/-- The guest returned without exception, and the closing reading of the clock is at or
after the deadline. -/
def Entry.ReturnsLate (entry : Entry) (deadlineMs : Nat) : Prop :=
  entry.ending.callOk = true ∧ entry.ending.exception = none ∧
    ∃ ended, entry.ended = some ended ∧ deadlineMs ≤ ended.toNat

/-- Everything `invoke` can come back with: it could not set a deadline, or it entered
the guest, and the entry expired, failed or returned. -/
inductive Invoked (function : GuestFunction) (event : List UInt8) (entry : Entry) (host : Host) :
    Invocation → Prop
  | unentered :
      Invoked function event entry host ⟨.error .engineFailure, host.setState .failed, none⟩
  | expired {began : UInt64} {imported : List Imported} {closed : Host}
      (hbegan : entry.began = some began)
      (hdeadline : (enter began host.runtime).entryDeadlineMs.toNat =
        host.runtime.deadlineAfter began)
      (hwalk : Walk ImportStep (host.onRuntime (enter began)) imported closed)
      (hlate : closed.runtime.entryExpired = true ∨
        entry.ReturnsLate (host.runtime.deadlineAfter began)) :
      Invoked function event entry host ⟨.error .entryExpired,
        (leave closed).onRuntime (expireEntry host.runtime.pendingLogSize),
        some ⟨function, event, host.onRuntime (enter began), imported⟩⟩
  | failed {began : UInt64} {imported : List Imported} {closed : Host} {code : RuntimeError}
      (hbegan : entry.began = some began)
      (hdeadline : (enter began host.runtime).entryDeadlineMs.toNat =
        host.runtime.deadlineAfter began)
      (hwalk : Walk ImportStep (host.onRuntime (enter began)) imported closed)
      (hcode : code = .instructionLimit ∨ code = .engineFailure)
      (hexpired : closed.runtime.entryExpired = false)
      (hreturns : ¬ entry.ReturnsLate (host.runtime.deadlineAfter began)) :
      Invoked function event entry host ⟨.error code, (leave closed).setState .failed,
        some ⟨function, event, host.onRuntime (enter began), imported⟩⟩
  | returned {began : UInt64} {imported : List Imported} {closed : Host} {value : Int32}
      (hbegan : entry.began = some began)
      (hdeadline : (enter began host.runtime).entryDeadlineMs.toNat =
        host.runtime.deadlineAfter began)
      (hwalk : Walk ImportStep (host.onRuntime (enter began)) imported closed)
      (hexpired : closed.runtime.entryExpired = false)
      (hreturns : ¬ entry.ReturnsLate (host.runtime.deadlineAfter began)) :
      Invoked function event entry host ⟨.ok value, leave closed,
        some ⟨function, event, host.onRuntime (enter began), imported⟩⟩

/-- The deadline that is set does not wrap. -/
theorem deadline_enter {runtime : Runtime} {began : UInt64}
    (hfits : ¬ began > uint64Max - runtime.limits.maxEntryDurationMs.toUInt64) :
    (enter began runtime).entryDeadlineMs.toNat = runtime.deadlineAfter began := by
  have hlimit := runtime.limits.maxEntryDurationMs.toNat_lt
  have hmax : (uint64Max : UInt64).toNat = 2 ^ 64 - 1 := rfl
  have hwide : runtime.limits.maxEntryDurationMs.toUInt64.toNat =
    runtime.limits.maxEntryDurationMs.toNat := by simp
  have hle : runtime.limits.maxEntryDurationMs.toUInt64 ≤ uint64Max := by
    rw [UInt64.le_iff_toNat_le, hmax, hwide]
    omega
  rw [gt_iff_lt, UInt64.lt_iff_toNat_lt, UInt64.toNat_sub_of_le _ _ hle, hmax, hwide] at hfits
  simp only [enter, Runtime.deadlineAfter, UInt64.toNat_add, hwide]
  omega

theorem invoked_enterGuest (function : GuestFunction) (event : List UInt8) {entry : Entry}
    {began : UInt64} (hbegan : entry.began = some began) {host : Host}
    (hfits : ¬ began > uint64Max - host.runtime.limits.maxEntryDurationMs.toUInt64) :
    Invoked function event entry host (enterGuest function event entry began host) := by
  have hwalk := walk_serve entry.imports (host.onRuntime (enter began))
  have hdeadline := deadline_enter hfits
  have hkept :
      (leave (serve entry.imports (host.onRuntime (enter began))).2).runtime.entryDeadlineMs =
        (enter began host.runtime).entryDeadlineMs := (framed_of_imports hwalk).deadline
  simp only [enterGuest, settle]
  split
  · next hexpired => exact .expired hbegan hdeadline hwalk (.inl hexpired)
  next hexpired =>
  rw [Bool.not_eq_true] at hexpired
  split
  · next hcall =>
    refine .failed hbegan hdeadline hwalk ?_ hexpired ?_
    · split
      · exact .inl rfl
      · exact .inr rfl
    · rintro ⟨hok, -⟩
      simp [hok] at hcall
  next hcall =>
  split
  · next hexception =>
    refine .failed hbegan hdeadline hwalk (.inr rfl) hexpired ?_
    rintro ⟨-, hnone, -⟩
    simp [hnone] at hexception
  next hexception =>
  split
  · next hended =>
    refine .failed hbegan hdeadline hwalk (.inr rfl) hexpired ?_
    rintro ⟨-, -, ended, hsome, -⟩
    rw [hended] at hsome
    cases hsome
  next ended hended =>
  split
  · next hlate =>
    refine .expired hbegan hdeadline hwalk (.inr ⟨?_, ?_, ended, hended, ?_⟩)
    · simpa using hcall
    · simpa using hexception
    · rwa [hkept, ge_iff_le, UInt64.le_iff_toNat_le, hdeadline] at hlate
  · next hlate =>
    refine .returned hbegan hdeadline hwalk hexpired ?_
    rintro ⟨-, -, ended', hsome, hle⟩
    obtain rfl := Option.some.inj (hended.symm.trans hsome)
    rw [hkept, ge_iff_le, UInt64.le_iff_toNat_le, hdeadline] at hlate
    exact hlate hle

/-- Everything `invoke` can come back with. -/
theorem invoked_invoke (function : GuestFunction) (event : List UInt8) (entry : Entry) (host : Host) :
    Invoked function event entry host (invoke function event entry host) := by
  unfold invoke
  split
  · exact .unentered
  next began hbegan =>
  split
  · exact .unentered
  · next hfits => exact invoked_enterGuest function event hbegan hfits

end Container
