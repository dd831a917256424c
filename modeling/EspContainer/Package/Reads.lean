/-
# How a package is read

Verification reads a package front to back: each read starts where the last one
ended, none reaches past the package, and the first that fails is the last. The
stream of the model keeps this by tracking the history of its reads, so the
statements here hold whatever the callback answers and however it chooses its
answers.
-/

import Mathlib.Algebra.GroupWithZero.Nat
import EspContainer.Interaction.History
import EspContainer.Package.Verify

namespace Package

open Binary Interaction

/-- The answered calls of a package reader. -/
abbrev ReadTrace : Type := Trace ReadPort

/-- The event is a read that failed. -/
def readFault : Event ReadPort → Bool
  | ⟨.read _ _, answer⟩ => !ReadAnswer.succeeded answer
  | ⟨.digest _, _⟩ => false

/-- The event is a digest step that failed. -/
def digestFault : Event ReadPort → Bool
  | ⟨.read _ _, _⟩ => false
  | ⟨.digest _, answer⟩ => !answer

/-- The bytes a read asked for. -/
def askedBytes : Event ReadPort → Nat
  | ⟨.read _ sizeBytes, _⟩ => sizeBytes
  | ⟨.digest _, _⟩ => 0

/-- The bytes an event delivered. -/
def deliveredBytes : Event ReadPort → List UInt8
  | ⟨.read _ _, answer⟩ => ReadAnswer.delivered answer
  | ⟨.digest _, _⟩ => []

/-- No read of the trace failed. -/
def FaultFree (trace : ReadTrace) : Prop := ∀ event ∈ trace, readFault event = false

/-- No call of the trace failed. -/
def Clean (trace : ReadTrace) : Prop :=
  FaultFree trace ∧ ∀ event ∈ trace, digestFault event = false

/-- The concatenation of the chunks that the reads of a trace returned. -/
def delivered (trace : ReadTrace) : List UInt8 := trace.flatMap deliveredBytes

/-- How many bytes the reads of a trace asked for. -/
def asked (trace : ReadTrace) : Nat := (trace.map askedBytes).sum

/-- What reading in order says about the next call of a reader: a read takes up
where the earlier ones ended, is at most a block, stays inside the package and is
only made while no read has failed. -/
def ReadsOn (sizeBytes : Nat) (past : ReadTrace) : ReadCall → Prop
  | .read offset count =>
      offset = asked past ∧ 0 < count ∧ count ≤ tarBlockBytes ∧ offset + count ≤ sizeBytes ∧
        FaultFree past
  | .digest _ => True

/-- An error says whether a read failed. -/
def FaultVerdict (past : ReadTrace) (error : PackageError) : Prop :=
  error = .readFailed ↔ ¬ FaultFree past

/-! ## Traces -/

@[simp]
theorem faultFree_nil : FaultFree [] := by simp [FaultFree]

@[simp]
theorem faultFree_append {first second : ReadTrace} :
    FaultFree (first ++ second) ↔ FaultFree first ∧ FaultFree second := by
  simp [FaultFree, or_imp, forall_and]

@[simp]
theorem faultFree_singleton {event : Event ReadPort} :
    FaultFree [event] ↔ readFault event = false := by
  simp [FaultFree]

@[simp]
theorem clean_append {first second : ReadTrace} :
    Clean (first ++ second) ↔ Clean first ∧ Clean second := by
  simp only [Clean, faultFree_append, List.mem_append, or_imp, forall_and]
  tauto

@[simp]
theorem clean_singleton {event : Event ReadPort} :
    Clean [event] ↔ readFault event = false ∧ digestFault event = false := by
  simp [Clean]

@[simp]
theorem delivered_append (first second : ReadTrace) :
    delivered (first ++ second) = delivered first ++ delivered second :=
  List.flatMap_append

@[simp]
theorem asked_append (first second : ReadTrace) :
    asked (first ++ second) = asked first + asked second := by
  simp [asked]

theorem length_deliveredBytes {event : Event ReadPort} (hevent : readFault event = false) :
    (deliveredBytes event).length = askedBytes event := by
  obtain ⟨call, answer⟩ := event
  cases call with
  | digest step => rfl
  | read offset sizeBytes =>
      cases answer with
      | failed left => cases hevent
      | ok bytes => exact bytes.2

/-- While no read fails, as many bytes come back as were asked for. -/
theorem FaultFree.length_delivered {trace : ReadTrace} (hclean : FaultFree trace) :
    (delivered trace).length = asked trace := by
  rw [delivered, List.length_flatMap, asked]
  exact congrArg List.sum (List.map_congr_left fun event hevent =>
    length_deliveredBytes (hclean event hevent))

/-! ## The stream -/

/-- The stream stands behind what its reads delivered. -/
structure Stream.Tracks (sizeBytes : Nat) (stream : Stream) (past : ReadTrace) : Prop where
  size : stream.sizeBytes = sizeBytes
  cursor : stream.cursor = asked past
  bound : stream.cursor ≤ sizeBytes
  digest : stream.digest = delivered past
  clean : Clean past

variable {sizeBytes : Nat} {stream : Stream} {past : ReadTrace}

/-- Digest steps read nothing. -/
theorem Stream.Tracks.digestStep (htracks : stream.Tracks sizeBytes past) (step : DigestCall) :
    stream.Tracks sizeBytes (past ++ [⟨.digest step, true⟩]) where
  size := htracks.size
  cursor := by simp [htracks.cursor, asked, askedBytes]
  bound := htracks.bound
  digest := by simp [htracks.digest, delivered, deliveredBytes]
  clean := by simp [htracks.clean, readFault, digestFault]

theorem faultVerdict_of_faultFree {error : PackageError} (hclean : FaultFree past)
    (herror : error ≠ .readFailed) : FaultVerdict past error :=
  ⟨fun h => absurd h herror, fun h => absurd hclean h⟩

theorem safe_digestStep (htracks : stream.Tracks sizeBytes past) (step : DigestCall) :
    Fallible.Safe (World.history ReadPort) (ReadsOn sizeBytes) FaultVerdict
      (fun after _ => stream.Tracks sizeBytes after) (digestStep step) past := by
  simp only [digestStep, Program.call, Fallible.safe_bind, Fallible.safe_attempt,
    Program.safe_ask_history, Program.safe_ret, Fallible.safe_require]
  refine ⟨trivial, fun answer => ⟨?_, fun _ => ?_⟩⟩
  · rintro rfl
    exact htracks.digestStep step
  · exact faultVerdict_of_faultFree (by simp [htracks.clean.1, readFault]) (by decide)

theorem safe_streamRead (htracks : stream.Tracks sizeBytes past) {count : Nat}
    (hcount : 0 < count) :
    Fallible.Safe (World.history ReadPort) (ReadsOn sizeBytes) FaultVerdict
      (fun after read => read.2.Tracks sizeBytes after ∧ read.2.cursor = stream.cursor + count)
      (streamRead stream count) past := by
  simp only [streamRead, Program.call, Fallible.safe_bind, Fallible.safe_attempt,
    Program.safe_ask_history, Program.safe_ret, Fallible.safe_require]
  refine ⟨fun hfits => ?_, fun _ => faultVerdict_of_faultFree htracks.clean.1 (by decide)⟩
  simp only [gt_iff_lt, Bool.not_eq_true', Bool.or_eq_false_iff, decide_eq_false_iff_not,
    not_lt, htracks.size] at hfits
  have hbound := htracks.bound
  refine ⟨⟨htracks.cursor, hcount, hfits.1, by omega, htracks.clean.1⟩, fun answer => ?_⟩
  cases answer with
  | failed left => simp [FaultVerdict, readFault, ReadAnswer.succeeded]
  | ok bytes =>
      have hread : Stream.Tracks sizeBytes
          { stream with
            cursor := stream.cursor + count
            digest := stream.digest ++ bytes.toList }
          (past ++ [⟨.read stream.cursor count, .ok bytes⟩]) :=
        { size := htracks.size
          cursor := by simp [htracks.cursor, asked, askedBytes]
          bound := by simp only; omega
          digest := by simp [htracks.digest, delivered, deliveredBytes, ReadAnswer.delivered]
          clean := by simp [htracks.clean, readFault, digestFault, ReadAnswer.succeeded] }
      rw [Fallible.safe_bind]
      exact (safe_digestStep hread _).imp fun after _ hafter => ⟨hafter, rfl⟩

/-- Every chunk has a byte. -/
theorem chunk_pos {offset count : Nat} (hoffset : offset < count) :
    0 < min tarBlockBytes (count - offset) :=
  Nat.lt_min.mpr ⟨by decide, Nat.sub_pos_of_lt hoffset⟩

theorem safe_streamBytes (htracks : stream.Tracks sizeBytes past) (count : Nat) :
    Fallible.Safe (World.history ReadPort) (ReadsOn sizeBytes) FaultVerdict
      (fun after read => read.2.Tracks sizeBytes after ∧ read.2.cursor = stream.cursor + count)
      (streamBytes stream count) past := by
  refine Fallible.safe_chunked (by decide)
    (fun offset (value : List UInt8 × Stream) after => value.2.Tracks sizeBytes after ∧
      value.2.cursor = stream.cursor + offset) ?_ _ _ ⟨htracks, rfl⟩
  rintro offset amount ⟨destination, current⟩ state hoffset rfl ⟨hcurrent, hcursor⟩
  simp only [Fallible.safe_bind, Fallible.safe_pure]
  refine (safe_streamRead hcurrent (chunk_pos hoffset)).imp fun after read hread => ⟨hread.1, ?_⟩
  rw [hread.2, hcursor, Nat.add_assoc]

theorem safe_streamZeros (htracks : stream.Tracks sizeBytes past) (count : Nat) :
    Fallible.Safe (World.history ReadPort) (ReadsOn sizeBytes) FaultVerdict
      (fun after next => next.Tracks sizeBytes after ∧ next.cursor = stream.cursor + count)
      (streamZeros stream count) past := by
  refine Fallible.safe_chunked (by decide)
    (fun offset (next : Stream) after => next.Tracks sizeBytes after ∧
      next.cursor = stream.cursor + offset) ?_ _ _ ⟨htracks, rfl⟩
  rintro offset amount current state hoffset rfl ⟨hcurrent, hcursor⟩
  simp only [Fallible.safe_bind, Fallible.safe_pure, Fallible.safe_require]
  refine (safe_streamRead hcurrent (chunk_pos hoffset)).imp fun after read hread => ⟨fun _ => ?_, fun _ => ?_⟩
  · exact ⟨hread.1, by rw [hread.2, hcursor, Nat.add_assoc]⟩
  · exact faultVerdict_of_faultFree hread.1.clean.1 (by decide)

theorem safe_streamHeader (htracks : stream.Tracks sizeBytes past) (name : List UInt8) :
    Fallible.Safe (World.history ReadPort) (ReadsOn sizeBytes) FaultVerdict
      (fun after read => read.2.Tracks sizeBytes after) (streamHeader stream name) past := by
  simp only [streamHeader, Fallible.safe_bind]
  refine (safe_streamRead htracks (by decide)).imp fun after read hread => ?_
  have hinvalid := faultVerdict_of_faultFree hread.1.clean.1 (show PackageError.invalid ≠ _ by decide)
  cases tarSize read.1 with
  | none => exact hinvalid
  | some memberSize =>
      simp only [Fallible.safe_bind, Fallible.safe_require, Fallible.safe_pure]
      exact ⟨fun _ => hread.1, fun _ => hinvalid⟩

/-- The payload ends where the stream stands behind it. -/
theorem safe_streamWasm (htracks : stream.Tracks sizeBytes past) (count : Nat) :
    Fallible.Safe (World.history ReadPort) (ReadsOn sizeBytes) FaultVerdict
      (fun after read => read.2.Tracks sizeBytes after ∧
        read.2.cursor = stream.cursor + read.1.length) (streamWasm stream count) past := by
  refine Fallible.safe_chunked (by decide)
    (fun _ (value : List UInt8 × Stream) after => value.2.Tracks sizeBytes after ∧
      value.2.cursor = stream.cursor + value.1.length) ?_ _ _ ⟨htracks, rfl⟩
  rintro offset amount ⟨digest, current⟩ state hoffset rfl ⟨hcurrent, hcursor⟩
  simp only [Fallible.safe_bind, Fallible.safe_pure, Fallible.safe_require]
  refine (safe_streamRead hcurrent (chunk_pos hoffset)).imp fun after read hread => ⟨fun _ => ?_, fun _ => ?_⟩
  · refine (safe_digestStep hread.1 _).imp fun later _ hlater => ⟨hlater, ?_⟩
    rw [hread.2, hcursor, List.length_append, read.1.toList_length, Nat.add_assoc]
  · exact faultVerdict_of_faultFree hread.1.clean.1 (by decide)

theorem Stream.Tracks.invalid (htracks : stream.Tracks sizeBytes past) :
    FaultVerdict past .invalid :=
  faultVerdict_of_faultFree htracks.clean.1 (by decide)

theorem safe_verifyManifest (htracks : stream.Tracks sizeBytes past) (expectedKeyId : List UInt8)
    (maxWasmBytes : Nat) :
    Fallible.Safe (World.history ReadPort) (ReadsOn sizeBytes) FaultVerdict
      (fun after read => read.2.2.Tracks sizeBytes after)
      (verifyManifest expectedKeyId maxWasmBytes stream) past := by
  simp only [verifyManifest, Fallible.safe_bind, Fallible.safe_require]
  refine (safe_streamHeader htracks _).imp fun after header hheader =>
    ⟨fun _ => ?_, fun _ => hheader.invalid⟩
  refine (safe_streamBytes hheader _).imp fun after manifestBytes hmanifestBytes => ?_
  refine (safe_streamZeros hmanifestBytes.1 _).imp fun after stream hstream => ?_
  cases parseManifest manifestBytes.1 expectedKeyId maxWasmBytes with
  | none => exact hstream.1.invalid
  | some manifest => exact hstream.1

theorem safe_verifySignature (htracks : stream.Tracks sizeBytes past) (crypto : Crypto)
    (publicKey manifestBytes : List UInt8) :
    Fallible.Safe (World.history ReadPort) (ReadsOn sizeBytes) FaultVerdict
      (fun after read => read.2.Tracks sizeBytes after)
      (verifySignature crypto publicKey manifestBytes stream) past := by
  simp only [verifySignature, Fallible.safe_bind, Fallible.safe_require, Fallible.safe_pure]
  refine (safe_streamHeader htracks _).imp fun after header hheader =>
    ⟨fun _ => ?_, fun _ => hheader.invalid⟩
  refine (safe_streamBytes hheader _).imp fun after signature hsignature => ?_
  refine (safe_streamZeros hsignature.1 _).imp fun after stream hstream =>
    ⟨fun _ => hstream.1, fun _ => faultVerdict_of_faultFree hstream.1.clean.1 (by decide)⟩

theorem safe_verifyPayload (htracks : stream.Tracks sizeBytes past) (crypto : Crypto)
    (manifest : Manifest) (maxWasmBytes : Nat) :
    Fallible.Safe (World.history ReadPort) (ReadsOn sizeBytes) FaultVerdict
      (fun after read => read.2.2.Tracks sizeBytes after ∧ read.2.1 + read.1.length ≤ sizeBytes)
      (verifyPayload crypto manifest maxWasmBytes stream) past := by
  simp only [verifyPayload, Fallible.safe_bind, Fallible.safe_require, Fallible.safe_pure]
  refine (safe_streamHeader htracks _).imp fun after header hheader =>
    ⟨fun _ => ?_, fun _ => hheader.invalid⟩
  refine (safe_digestStep hheader _).imp fun after _ hstarted => ?_
  refine (safe_streamWasm hstarted _).imp fun after wasm hwasm => ?_
  refine (safe_digestStep hwasm.1 _).imp fun after _ hfinished =>
    ⟨fun _ => ?_, fun _ => hfinished.invalid⟩
  refine (safe_streamZeros hfinished _).imp fun after stream hstream => ⟨hstream.1, ?_⟩
  exact hwasm.2 ▸ hwasm.1.bound

theorem safe_verifyEnd (htracks : stream.Tracks sizeBytes past) :
    Fallible.Safe (World.history ReadPort) (ReadsOn sizeBytes) FaultVerdict
      (fun after last => last.Tracks sizeBytes after ∧ last.cursor = sizeBytes)
      (verifyEnd sizeBytes stream) past := by
  simp only [verifyEnd, Fallible.safe_bind, Fallible.safe_require, Fallible.safe_pure]
  refine ⟨fun _ => ?_, fun _ => htracks.invalid⟩
  refine (safe_streamZeros htracks _).imp fun after last hlast => ?_
  refine (safe_digestStep hlast.1 _).imp fun after _ hfinished => ⟨hfinished, ?_⟩
  rw [hlast.2]
  exact Nat.add_sub_cancel' htracks.bound

/-- Verification reads the package in order, to its end unless it stops early, and
an error says whether a read failed. The member that a verified package names lies
inside it. -/
theorem safe_verifyStream (crypto : Crypto) (maxWasmBytes : Nat)
    (publicKey expectedKeyId : List UInt8) (hpast : Clean past) (hasked : asked past = 0) :
    Fallible.Safe (World.history ReadPort) (ReadsOn sizeBytes) FaultVerdict
      (fun after verified => Clean after ∧ asked after = sizeBytes ∧
        verified.info.packageSizeBytes = sizeBytes ∧
        verified.info.wasmOffsetBytes + verified.info.wasmSizeBytes ≤ sizeBytes)
      (verifyStream crypto sizeBytes maxWasmBytes publicKey expectedKeyId) past := by
  have hstart : Stream.Tracks sizeBytes ⟨sizeBytes, 0, []⟩ past :=
    { size := rfl
      cursor := hasked.symm
      bound := Nat.zero_le _
      digest := (List.eq_nil_of_length_eq_zero (hpast.1.length_delivered.trans hasked)).symm
      clean := hpast }
  simp only [verifyStream, Fallible.safe_bind]
  refine (safe_verifyManifest hstart _ _).imp fun after manifest hmanifest => ?_
  refine (safe_verifySignature hmanifest _ _ _).imp fun after signature hsignature => ?_
  refine (safe_verifyPayload hsignature _ _ _).imp fun after payload hpayload => ?_
  refine (safe_verifyEnd hpayload.1).imp fun after last hlast => ?_
  exact ⟨hlast.1.clean, hlast.1.cursor.symm.trans hlast.2, rfl, hpayload.2⟩

end Package
