/-
# What the parts of an operation do

One specification for each helper of the engine, over the history of calls
alone, so that it holds whatever the surroundings answer. The helpers compose
into the rule for a transaction: an operation that loads the record, prepares a
successor without touching record or outputs, and commits it.
-/

import EspContainer.Slots.Machine

namespace Slots

open Binary Interaction Package
open Fallible (attempt require chunked)

variable {sha256 : List UInt8 → Sha256} {geometry : Geometry} {request : Request}

attribute [local simp] ask Program.call

/-! ## Reading back -/

/-- A relative read either asks one flash read at the address of its slot, or fails. -/
theorem safe_flashRelativeRead (reader : SlotReader) (offset size : Nat) :
    (flashRelativeRead reader offset size).Safe (World.history SlotsPort)
      (fun _ call => call.readsFlash = true)
      (fun own answer => ∀ bytes, answer = .ok bytes →
        own = [⟨.flashRead (reader.offsetBytes + offset) size, ReadAnswer.ok bytes⟩]) [] := by
  unfold flashRelativeRead
  split
  · simp
  · refine (Program.safe_ask_history _ _ _).mpr ⟨rfl, fun answer bytes hanswer => ?_⟩
    subst hanswer
    rfl

private theorem safe_hashChunk (reader : SlotReader) (offset count : Nat) (fed : List UInt8) :
    Fallible.Safe (World.history SlotsPort) (fun _ call => call.readsFlash = true)
      (fun _ code => code ≠ .uncertain)
      (fun own next => ∃ bytes : Bytes count, next = fed ++ bytes.toList ∧
        own = readBackEvents (reader.offsetBytes + offset) [⟨count, bytes⟩])
      (hashChunk reader offset count fed) [] := by
  rw [hashChunk, Fallible.safe_bind, Fallible.safe_attempt]
  refine (safe_flashRelativeRead reader offset count).imp fun own answer hanswer => ?_
  cases answer with
  | failed left => simp
  | ok bytes =>
      obtain rfl := hanswer bytes rfl
      simp [readBackEvents, SlotsCall.readsFlash]

/-- `hash_flash` only reads, and succeeds only on a read-back that hashes as expected. -/
theorem safe_hashFlash (slot : UInt8) (sizeBytes : UInt32) (expectedSha256 : Sha256) :
    Fallible.Safe (World.history SlotsPort) (fun _ call => call.readsFlash = true)
      (fun _ code => code ≠ .uncertain)
      (fun own _ => PackageHashed sha256 (geometry.slot slot).offsetBytes sizeBytes.toNat
        expectedSha256 own)
      (hashFlash sha256 geometry slot sizeBytes expectedSha256) [] := by
  simp only [hashFlash, Fallible.safe_bind, Fallible.safe_require, ask, Program.call, Fallible.safe_attempt,
    Program.safe_ask_history, Program.safe_ret, ne_eq,
    reduceCtorEq, not_false_eq_true, implies_true, and_true, SlotsCall.readsFlash, true_and,
    List.nil_append]
  intro _ started _
  -- The loop has digested the chunks read so far, which end where it stands.
  refine (Fallible.safe_chunked (by decide) (fun offset fed own => ∃ chunks,
    chunkContents chunks = fed ∧ fed.length = offset ∧
      own = ⟨.digest .start, started⟩ ::
        readBackEvents (geometry.slot slot).offsetBytes chunks) ?_ [] _ ⟨[], rfl, rfl, rfl⟩).imp ?_
  · rintro offset count fed own - - ⟨chunks, rfl, rfl, rfl⟩
    refine ((safe_hashChunk _ _ count _).shift _).mono ?_ ?_ ?_
    · rintro _ call ⟨_, _, hcall⟩
      exact hcall
    · rintro _ code ⟨_, _, hcode⟩
      exact hcode
    · rintro _ _ ⟨_, rfl, bytes, rfl, rfl⟩
      refine ⟨chunks ++ [⟨count, bytes⟩], ?_, ?_, ?_⟩
      · simp [chunkContents]
      · simp [bytes.toList_length]
      · simp [readBackEvents_append]
  · rintro own fed ⟨chunks, rfl, hlength, rfl⟩ finished hfinished hsha
    subst hfinished
    obtain rfl : started = true := by assumption
    exact ⟨chunks, hlength, by simpa using hsha, by simp⟩

/-- The binding loop of `check_references` reads back one package. -/
theorem safe_checkBinding (binding : Binding) :
    Fallible.Safe (World.history SlotsPort) (fun _ call => call.readsFlash = true)
      (fun _ code => code ≠ .uncertain)
      (fun own _ => BindingHashed sha256 geometry binding own)
      (checkBinding sha256 geometry binding) [] := by
  unfold checkBinding BindingHashed
  split
  · exact safe_hashFlash _ _ _
  · rfl

/-- A check that only reads, run after others that only read. -/
theorem Reading.then {first : SlotsTrace → Prop} {second : SlotsTrace → Prop}
    {α : Type} {check : Locked Unit} {next : Locked α}
    (hcheck : Fallible.Safe (World.history SlotsPort) (fun _ call => call.readsFlash = true)
      (fun _ code => code ≠ .uncertain) (fun own _ => first own) check [])
    (hnext : Fallible.Safe (World.history SlotsPort) (fun _ call => call.readsFlash = true)
      (fun _ code => code ≠ .uncertain) (fun own _ => second own) next []) :
    Fallible.Safe (World.history SlotsPort) (fun _ call => call.readsFlash = true)
      (fun _ code => code ≠ .uncertain)
      (fun own _ => ∃ left right, own = left ++ right ∧ first left ∧ second right)
      (check >>= fun _ => next) [] := by
  rw [Fallible.safe_bind]
  refine hcheck.imp fun left _ hleft => (hnext.shift left).mono ?_ ?_ ?_
  · rintro _ call ⟨_, _, hcall⟩
    exact hcall
  · rintro _ code ⟨_, _, hcode⟩
    exact hcode
  · rintro _ _ ⟨right, rfl, hright⟩
    exact ⟨left, right, rfl, hleft, hright⟩

/-- `check_references` reads both referenced packages back, and the candidate's
too when asked for and complete. -/
theorem safe_checkReferences (state : State) (candidate : Bool) :
    Fallible.Safe (World.history SlotsPort) (fun _ call => call.readsFlash = true)
      (fun _ code => code ≠ .uncertain)
      (fun own _ => ∃ references rest, own = references ++ rest ∧
        ReferencesHashed sha256 geometry state references ∧
        (candidate = false → rest = []))
      (checkReferences sha256 geometry state candidate) [] := by
  have hcandidate : Fallible.Safe (World.history SlotsPort)
      (fun _ call => call.readsFlash = true) (fun _ code => code ≠ .uncertain)
      (fun own _ => candidate = false → own = [])
      (if candidate then checkCandidate sha256 geometry state else pure ()) [] := by
    cases candidate with
    | false => simp
    | true =>
        simp only [if_true, checkCandidate]
        split
        · exact (safe_hashFlash _ _ _).imp fun _ _ _ hfalse => absurd hfalse (by decide)
        · simp
  refine (Reading.then (safe_checkBinding _)
    (Reading.then (safe_checkBinding _) hcandidate)).imp ?_
  rintro _ _ ⟨first, _, rfl, hfirst, second, rest, rfl, hsecond, hrest⟩
  exact ⟨first ++ second, rest, by simp, ⟨first, second, rfl, hfirst, hsecond⟩, hrest⟩

/-! ## The record -/

/-- `load_locked` asks for the record once, and reports `EMPTY` only when told so. -/
theorem safe_loadLocked :
    Fallible.Safe (World.history SlotsPort) (fun _ call => call = .readBlob)
      (fun own code => code ≠ .uncertain ∧ NothingWritten own ∧
        (code = .empty → own = [⟨.readBlob, BlobAnswer.notFound⟩]))
      (fun own current => Loaded geometry current ∧
        own = [⟨.readBlob, BlobAnswer.found (encodeState current)⟩])
      (loadLocked geometry) [] := by
  simp only [loadLocked, Fallible.safe_bind, ask, Program.call, Fallible.safe_attempt,
    Program.safe_ask_history, Program.safe_ret, true_and, List.nil_append]
  intro answer
  have hnothing : NothingWritten [⟨.readBlob, answer⟩] := by simp [NothingWritten]
  cases answer with
  | notFound => simpa using hnothing
  | readFailed => simpa using hnothing
  | found blob =>
      cases hdecode : decodeState blob geometry with
      | none => simpa [hdecode] using hnothing
      | some state =>
          obtain rfl := encodeState_of_decodeState hdecode
          simp [hdecode, Loaded]

/-- `begin_locked` succeeds only on a decodable record with the expected number. -/
theorem safe_beginLocked (expectedSequence : UInt32) :
    Fallible.Safe (World.history SlotsPort) (fun _ call => call = .readBlob)
      (fun own code => code ≠ .uncertain ∧ NothingWritten own)
      (fun own current => Loaded geometry current ∧ current.sequence = expectedSequence ∧
        own = [⟨.readBlob, BlobAnswer.found (encodeState current)⟩])
      (beginLocked geometry expectedSequence) [] := by
  rw [beginLocked, Fallible.safe_bind]
  refine safe_loadLocked.mono (fun _ _ hcall => hcall) (fun _ _ hcode => ⟨hcode.1, hcode.2.1⟩) ?_
  rintro own current ⟨hloaded, rfl⟩
  simp only [Fallible.safe_bind, Fallible.safe_require, Fallible.safe_pure, beq_iff_eq]
  exact ⟨fun hsequence => ⟨hloaded, hsequence, trivial⟩,
    fun _ => ⟨by decide, by simp [NothingWritten]⟩⟩

/-- `persist_locked` writes the record once and reads it once. -/
theorem safe_persistLocked (before : Option State) (after : State) (hasState : Bool) :
    Fallible.Safe (World.history SlotsPort)
      (fun own call => (call = .writeBlob (encodeState after) ∧ own = []) ∨
        (call.target = none ∧ ∀ blob, call ≠ .writeBlob blob))
      (fun own code => code = .uncertain ∨ ∃ current answer, before = some current ∧
        own = refusedEvents current after answer)
      (fun own _ => own = [⟨.writeBlob (encodeState after), true⟩,
          ⟨.readBlob, BlobAnswer.found (encodeState after)⟩] ++
        (if hasState then [⟨.storeState after, ()⟩] else []))
      (persistLocked before after hasState) [] := by
  simp only [persistLocked, Fallible.safe_bind, ask, Program.call,
    Fallible.safe_attempt, Program.safe_ask_history, Program.safe_ret, true_and, and_true, true_or,
    List.nil_append]
  intro committed
  refine ⟨by simp [SlotsCall.target], fun answer => ?_⟩
  cases answer with
  | notFound => simp
  | readFailed => simp
  | found observed =>
      by_cases hobserved : observed = encodeState after
      · subst hobserved
        cases hasState <;> simp +contextual [SlotsCall.target]
      · simp only [List.cons_append, List.nil_append]
        rw [if_neg hobserved]
        by_cases hbefore : before.map encodeState = some observed
        · obtain ⟨current, rfl, rfl⟩ := Option.map_eq_some_iff.mp hbefore
          simp [refusedEvents]
        · rw [if_neg hbefore]
          simp

/-! ## Transactions -/

/-- The shape of the six operations that succeed a record: load it, prepare the
successor, commit that. -/
def transact (geometry : Geometry) (expectedSequence : UInt32)
    (prepare : State → Locked State) : Locked Unit := do
  let current ← beginLocked geometry expectedSequence
  let planned ← prepare current
  commitNext geometry current planned

/-- The specification of the middle part of a transaction: it keeps the inner
promise, never reports uncertainty, and what it returns is a plan that becomes a
transition once the sequence number is advanced. -/
def Prepares (sha256 : List UInt8 → Sha256) (geometry : Geometry) (request : Request)
    (current : State) (prepare : Locked State) : Prop :=
  Fallible.Safe (World.history SlotsPort) (InnerPromise sha256 geometry current)
    (fun _ code => code ≠ .uncertain)
    (fun own planned => Transition sha256 geometry request (some current) own
        { planned with sequence := current.sequence + 1 } ∧
      Plan geometry request current planned)
    prepare []

/-- A justified record write keeps the promises of its operation. -/
theorem safe_commit {past : SlotsTrace} {current : Option State} {next : State}
    (hcommitting : Committing sha256 geometry request past current next) :
    Fallible.Safe (World.history SlotsPort) (CallPromise sha256 geometry request)
      (BodyError sha256 geometry request) (fun past _ => BodyOk sha256 geometry request past)
      (persistLocked current next request.storesState) past := by
  refine ((safe_persistLocked _ _ _).shift _).mono ?_ ?_ ?_
  · rintro _ call ⟨events, rfl, ⟨rfl, rfl⟩ | ⟨htarget, hwrite⟩⟩
    · refine ⟨fun blob hblob => ⟨_, _, by simpa using hcommitting, ?_⟩, by simp [SlotsCall.target]⟩
      exact (SlotsCall.writeBlob.inj hblob).symm
    · exact ⟨fun blob hblob => absurd hblob (hwrite blob), by simp [htarget]⟩
  · rintro _ code ⟨events, rfl, rfl | ⟨before, answer, rfl, rfl⟩⟩
    · exact .inl rfl
    · exact .inr (.inr ⟨_, _, _, answer, hcommitting, rfl⟩)
  · rintro _ _ ⟨events, rfl, rfl⟩
    exact ⟨_, _, _, hcommitting, rfl⟩

private theorem safe_commitNext {current planned : State} {own : SlotsTrace}
    (hstate : request.storesState = true)
    (hexpected : request.expectedSequence = some current.sequence)
    (hloaded : Loaded geometry current) (hinner : Inner own)
    (htransition : Transition sha256 geometry request (some current) own
      { planned with sequence := current.sequence + 1 })
    (hplan : Plan geometry request current planned) :
    Fallible.Safe (World.history SlotsPort) (CallPromise sha256 geometry request)
      (BodyError sha256 geometry request) (fun past _ => BodyOk sha256 geometry request past)
      (commitNext geometry current planned) (opening (some current) ++ own) := by
  have hnothing : NothingWritten (opening (some current) ++ own) :=
    (nothingWritten_opening _).append hinner.nothingWritten
  simp only [commitNext, Fallible.safe_bind, Fallible.safe_require, bne_iff_ne, ne_eq]
  refine ⟨fun hsequence => ⟨fun hvalid => ?_, fun _ => .inr (.inl hnothing)⟩,
    fun _ => .inr (.inl hnothing)⟩
  have hcommitting : Committing sha256 geometry request (opening (some current) ++ own)
      (some current) { planned with sequence := current.sequence + 1 } := by
    refine ⟨⟨own, rfl, hinner, htransition⟩, ?_, hvalid, ?_, ?_, ?_⟩
    · rintro state hstate
      exact Option.some.inj hstate ▸ hloaded
    · have hlt : current.sequence.toNat < 4294967295 := by
        have hne : current.sequence.toNat ≠ 4294967295 := fun heq =>
          hsequence (UInt32.toNat.inj heq)
        have := current.sequence.toNat_lt
        omega
      simp only [nextSequence, UInt32.toNat_add, UInt32.toNat_ofNat]
      omega
    · rintro state hstate
      exact Option.some.inj hstate ▸ hexpected
    · rintro state hstate
      obtain rfl := Option.some.inj hstate
      exact ⟨planned, hplan, rfl⟩
  have hcommit := safe_commit hcommitting
  rwa [hstate] at hcommit

/-- The rule for transactions. -/
theorem safe_transact {expectedSequence : UInt32} {prepare : State → Locked State}
    (hstate : request.storesState = true)
    (hexpected : request.expectedSequence = some expectedSequence)
    (hprepare : ∀ current, Loaded geometry current →
      Prepares sha256 geometry request current (prepare current)) :
    Fallible.Safe (World.history SlotsPort) (CallPromise sha256 geometry request)
      (BodyError sha256 geometry request) (fun past _ => BodyOk sha256 geometry request past)
      (transact geometry expectedSequence prepare) [⟨.lock, true⟩] := by
  rw [transact, Fallible.safe_bind]
  refine ((safe_beginLocked expectedSequence).shift _).mono ?_ ?_ ?_
  · rintro _ _ ⟨events, rfl, rfl⟩
    exact ⟨by simp, by simp [SlotsCall.target]⟩
  · rintro _ code ⟨events, rfl, -, hnothing⟩
    exact .inr (.inl (NothingWritten.append (by simp [NothingWritten]) hnothing))
  rintro _ current ⟨events, rfl, hloaded, rfl, rfl⟩
  rw [Fallible.safe_bind]
  refine (((hprepare current hloaded).events (fun _ _ hcall => hcall.1) (by simp)).shift _).mono ?_ ?_ ?_
  · rintro _ call ⟨own, rfl, hinner, hcall, htarget⟩
    refine ⟨?_, fun offset size hsome => ⟨current, own, by simp [opening], hinner, hloaded,
      htarget offset size hsome⟩⟩
    rintro blob rfl
    cases hcall
  · rintro _ code ⟨own, rfl, hinner, -⟩
    refine .inr (.inl (NothingWritten.append ?_ (Inner.nothingWritten hinner)))
    simp [NothingWritten]
  · rintro _ planned ⟨own, rfl, hinner, htransition, hplan⟩
    simpa [opening] using safe_commitNext hstate hexpected hloaded hinner htransition hplan

/-- A call that writes neither record nor flash keeps every promise. -/
theorem callPromise_of_quiet {past : SlotsTrace} {call : SlotsCall} (htarget : call.target = none)
    (hwrite : ∀ blob, call ≠ .writeBlob blob) :
    CallPromise sha256 geometry request past call :=
  ⟨fun blob hblob => absurd hblob (hwrite blob), by simp [htarget]⟩

theorem callPromise_of_readsFlash {past : SlotsTrace} {call : SlotsCall}
    (hreads : call.readsFlash = true) : CallPromise sha256 geometry request past call := by
  refine callPromise_of_quiet (SlotsCall.target_of_readsFlash hreads) ?_
  rintro blob rfl
  cases hreads

/-- Between `lock` and `unlock` a record-changing operation keeps its promises. -/
theorem safe_withLock {body : Locked Unit}
    (hbody : Fallible.Safe (World.history SlotsPort) (CallPromise sha256 geometry request)
      (BodyError sha256 geometry request) (fun past _ => BodyOk sha256 geometry request past)
      body [⟨.lock, true⟩]) :
    (withLock body).Safe (World.history SlotsPort) (CallPromise sha256 geometry request)
      (ReplyPost sha256 geometry request) [] := by
  simp only [withLock, Program.safe_bind, Program.call, Program.safe_ask_history,
    Program.safe_ret, List.nil_append]
  refine ⟨callPromise_of_quiet rfl (by simp), fun locked => ?_⟩
  cases locked with
  | false =>
      change ReplyPost sha256 geometry request _ (.error .busy)
      exact .inr (.inl (by simp [NothingWritten]))
  | true =>
      simp only [if_true, Program.safe_bind, Program.safe_ask_history, Program.safe_ret]
      refine Program.Safe.imp hbody fun trace result hresult => ?_
      refine ⟨callPromise_of_quiet rfl (by simp), fun _ => ?_⟩
      cases result with
      | ok value => exact ⟨trace, rfl, hresult⟩
      | error code => exact .inr (.inr ⟨trace, rfl, hresult⟩)

/-- An operation that returns before taking the lock did nothing. -/
theorem safe_refuse (code : SlotsError) :
    (pure (.error code) : Program SlotsPort Reply).Safe (World.history SlotsPort)
      (CallPromise sha256 geometry request) (ReplyPost sha256 geometry request) [] :=
  .inr (.inl (by simp [NothingWritten]))

end Slots
