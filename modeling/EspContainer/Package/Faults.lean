/-
# Read faults during the Wasm check

Every scanning function stops at the first byte it does not get. If that byte could
not be read, the flag of the reader is set, and whoever sees the function return
false asks the flag. The one exception is the type check of an import: whatever
stopped it, its caller only says that the module is unsupported, and the flag is
then looked at only if the export scan after it returns false.

`Quits` is the first fact about a scanning function as a program: after a byte that
did not come it returns at once, with one of a few ways to stop.
-/

import EspContainer.Package.Reads
import EspContainer.Package.SlotValidation

namespace Package

open Binary Interaction

variable {α β τ : Type}

/-! ## Stopping at once -/

/-- After an unanswered byte the program stops at once, in one of these ways. -/
def Quits (stops : Stop → Prop) : Program BytePort (Except Stop α) → Prop
  | .ret _ => True
  | .ask _ resume =>
      (∃ stop, stops stop ∧ resume none = .ret (.error stop)) ∧
        ∀ byte, Quits stops (resume (some byte))

variable {stops : Stop → Prop}

theorem quits_pure (value : α) : Quits stops (pure value : Scan α).run := trivial

theorem quits_throw (stop : Stop) : Quits stops (throw stop : Scan α).run := trivial

theorem quits_require (check : Bool) (stop : Stop) :
    Quits stops (Fallible.require check stop : Scan Unit).run := by
  cases check <;> trivial

theorem quits_bind {scan : Scan α} {next : α → Scan β} (hscan : Quits stops scan.run)
    (hnext : ∀ value, Quits stops (next value).run) : Quits stops (scan >>= next).run := by
  rw [ExceptT.run_bind]
  generalize scan.run = program at hscan
  induction program with
  | ret result =>
      cases result with
      | ok value => exact hnext value
      | error stop => trivial
  | ask offset resume ih =>
      obtain ⟨⟨stop, hstop, hnone⟩, hsome⟩ := hscan
      refine ⟨⟨stop, hstop, ?_⟩, fun byte => ih _ (hsome byte)⟩
      change (resume none).bind _ = _
      rw [hnone]
      rfl

theorem quits_byteAt (hstops : stops .failed) (offset : Nat) : Quits stops (byteAt offset).run :=
  ⟨⟨.failed, hstops, rfl⟩, fun _ => trivial⟩

theorem quits_counted {body : Nat → τ → Scan τ}
    (hbody : ∀ index value, Quits stops (body index value).run) (count : Nat) (value : τ) :
    Quits stops (Fallible.counted count body value).run := by
  suffices hloop : ∀ index value, Quits stops (Fallible.countedLoop body count index value).run from
    hloop 0 value
  induction count with
  | zero => exact fun _ _ => trivial
  | succ count ih => exact fun index value => quits_bind (hbody index value) fun next => ih _ next

/-! ### The scanning functions -/

section

variable (hstops : stops .failed)
include hstops

theorem quits_nextByte (stop cursor : Nat) : Quits stops (nextByte stop cursor).run :=
  quits_bind (quits_require _ _) fun _ => quits_bind (quits_byteAt hstops _) fun _ => trivial

theorem quits_nextU32Loop (stop octets index result cursor : Nat) :
    Quits stops (nextU32Loop stop octets index result cursor).run := by
  induction octets generalizing index result cursor with
  | zero => exact quits_throw _
  | succ octets ih =>
      refine quits_bind (quits_nextByte hstops _ _) fun octet => ?_
      refine quits_bind (quits_require _ _) fun _ => ?_
      split
      · exact quits_pure _
      · exact ih _ _ _

theorem quits_nextU32 (stop cursor : Nat) : Quits stops (nextU32 stop cursor).run :=
  quits_nextU32Loop hstops _ _ _ _ _

theorem quits_sameBytes (expected : List UInt8) (cursor : Nat) :
    Quits stops (sameBytes expected cursor).run :=
  quits_counted (fun _ _ => quits_bind (quits_byteAt hstops _) fun _ => quits_pure _) _ _

theorem quits_nameIs (stop cursor : Nat) (expected : List UInt8) :
    Quits stops (nameIs stop cursor expected).run := by
  refine quits_bind (quits_nextU32 hstops _ _) fun length => ?_
  refine quits_bind (quits_require _ _) fun _ => ?_
  split
  · exact quits_bind (quits_sameBytes hstops _ _) fun _ => quits_pure _
  · exact quits_pure _

theorem quits_scanSectionsLoop (size rounds cursor : Nat) (last : UInt8)
    (sections : WasmSections) :
    Quits stops (scanSectionsLoop size rounds cursor last sections).run := by
  induction rounds generalizing cursor last sections with
  | zero => exact quits_pure _
  | succ rounds ih =>
      rw [scanSectionsLoop]
      split
      · refine quits_bind (quits_nextByte hstops _ _) fun number => ?_
        refine quits_bind (quits_nextU32 hstops _ _) fun length => ?_
        refine quits_bind (quits_require _ _) fun _ => quits_bind (quits_require _ _) fun _ => ?_
        split
        · exact quits_bind (quits_require _ _) fun _ => ih _ _ _
        · refine quits_bind (quits_nameIs hstops _ _ _) fun name => ?_
          exact quits_bind (quits_require _ _) fun _ => ih _ _ _
      · exact quits_pure _

theorem quits_scanSections (size : Nat) : Quits stops (scanSections size).run := by
  refine quits_bind (quits_counted (fun index _ => ?_) _ _) fun _ => ?_
  · exact quits_bind (quits_byteAt hstops _) fun _ => quits_require _ _
  · refine quits_bind (quits_scanSectionsLoop hstops _ _ _ _ _) fun sections => ?_
    exact quits_bind (quits_require _ _) fun _ => quits_pure _

theorem quits_typeList (stop count : Nat) (expected : List UInt8) (matching : Bool)
    (cursor : Nat) : Quits stops (typeList stop count expected matching cursor).run :=
  quits_counted (fun _ _ => quits_bind (quits_nextByte hstops _ _) fun _ =>
    quits_bind (quits_require _ _) fun _ => quits_pure _) _ _

theorem quits_typeMatches (types : WasmSection) (wanted : Nat) (params results : List UInt8) :
    Quits stops (typeMatches types wanted params results).run := by
  refine quits_bind (quits_require _ _) fun _ => ?_
  refine quits_bind (quits_nextU32 hstops _ _) fun count => ?_
  refine quits_bind (quits_require _ _) fun _ => ?_
  refine quits_bind (quits_counted (fun index value => ?_) _ _) fun _ => quits_require _ _
  refine quits_bind (quits_nextByte hstops _ _) fun form => quits_bind (quits_require _ _) fun _ => ?_
  refine quits_bind (quits_nextU32 hstops _ _) fun _ => quits_bind (quits_require _ _) fun _ => ?_
  refine quits_bind (quits_typeList hstops _ _ _ _ _) fun _ => ?_
  refine quits_bind (quits_nextU32 hstops _ _) fun _ => quits_bind (quits_require _ _) fun _ => ?_
  exact quits_bind (quits_typeList hstops _ _ _ _ _) fun _ => quits_pure _

theorem quits_exportTarget (length cursor : Nat) (names : List ExportName) :
    Quits stops (exportTarget length cursor names).run := by
  induction names with
  | nil => exact quits_pure _
  | cons name names ih =>
      rw [exportTarget]
      split
      · exact ih
      · refine quits_bind (quits_sameBytes hstops _ _) fun same => ?_
        split
        · exact quits_pure _
        · exact ih

theorem quits_scanExport (stop : Nat) (exported : WasmExports) (cursor : Nat) :
    Quits stops (scanExport stop exported cursor).run := by
  refine quits_bind (quits_nextU32 hstops _ _) fun length => quits_bind (quits_require _ _) fun _ => ?_
  refine quits_bind (quits_exportTarget hstops _ _ _) fun target => ?_
  refine quits_bind (quits_nextByte hstops _ _) fun kind => ?_
  refine quits_bind (quits_nextU32 hstops _ _) fun wasmIndex => ?_
  cases target with
  | none => exact quits_throw _
  | some name => exact quits_bind (quits_require _ _) fun _ => quits_pure _

theorem quits_scanExports (exports : WasmSection) : Quits stops (scanExports exports).run := by
  refine quits_bind (quits_nextU32 hstops _ _) fun count => quits_bind (quits_require _ _) fun _ => ?_
  refine quits_bind (quits_counted (fun _ _ => quits_scanExport hstops _ _ _) _ _) fun _ => ?_
  exact quits_bind (quits_require _ _) fun _ => quits_pure _

theorem quits_functionType (functions : WasmSection) (wanted typeCount : Nat) :
    Quits stops (functionType functions wanted typeCount).run := by
  refine quits_bind (quits_nextU32 hstops _ _) fun count => quits_bind (quits_require _ _) fun _ => ?_
  refine quits_bind (quits_counted (fun _ _ => ?_) _ _) fun _ =>
    quits_bind (quits_require _ _) fun _ => quits_pure _
  exact quits_bind (quits_nextU32 hstops _ _) fun _ =>
    quits_bind (quits_require _ _) fun _ => quits_pure _

theorem quits_scanMemory (memory : WasmSection) (limitBytes : Nat) :
    Quits stops (scanMemory memory limitBytes).run := by
  refine quits_bind (quits_nextU32 hstops _ _) fun _ => quits_bind (quits_require _ _) fun _ => ?_
  refine quits_bind (quits_nextU32 hstops _ _) fun _ => quits_bind (quits_require _ _) fun _ => ?_
  refine quits_bind (quits_nextU32 hstops _ _) fun _ => quits_bind (quits_require _ _) fun _ => ?_
  exact quits_bind (quits_nextU32 hstops _ _) fun _ => quits_require _ _

theorem quits_scanCode (code : WasmSection) (definedCount : Nat) :
    Quits stops (scanCode code definedCount).run := by
  refine quits_bind (quits_nextU32 hstops _ _) fun _ => quits_bind (quits_require _ _) fun _ => ?_
  refine quits_bind (quits_counted (fun _ _ => ?_) _ _) fun _ => quits_require _ _
  refine quits_bind (quits_nextU32 hstops _ _) fun _ => quits_bind (quits_require _ _) fun _ => ?_
  exact quits_bind (quits_byteAt hstops _) fun _ =>
    quits_bind (quits_require _ _) fun _ => quits_pure _

theorem quits_importField (stop fieldBegin : Nat) :
    Quits stops (importField stop fieldBegin).run := by
  refine quits_bind (quits_nameIs hstops _ _ _) fun ⟨clockName, cursor⟩ => ?_
  cases clockName with
  | true => exact quits_pure _
  | false =>
      refine quits_bind (quits_nameIs hstops _ _ _) fun ⟨logName, cursor⟩ => ?_
      cases logName with
      | true => exact quits_pure _
      | false =>
          refine quits_bind (quits_nameIs hstops _ _ _) fun ⟨startName, cursor⟩ => ?_
          cases startName with
          | true => exact quits_pure _
          | false => exact quits_bind (quits_nameIs hstops _ _ _) fun _ => quits_pure _

/-- The type check of an import stops as unsupported, not as failed. -/
theorem quits_importTypeMatches (hunsupported : stops .unsupported) (types : WasmSection)
    (typeIndex : Nat) (function : HostFunction) :
    Quits stops (importTypeMatches types typeIndex function).run := by
  have htypes := quits_typeMatches hstops types typeIndex function.params function.results
  rw [importTypeMatches]
  generalize (typeMatches types typeIndex function.params function.results).run = program at htypes
  induction program with
  | ret result => exact quits_require _ _
  | ask offset resume ih =>
      obtain ⟨⟨stop, -, hnone⟩, hsome⟩ := htypes
      refine ⟨⟨.unsupported, hunsupported, ?_⟩, fun byte => ih _ (hsome byte)⟩
      change ((resume none).bind _).bind _ = _
      rw [hnone]
      rfl

theorem quits_scanImports (hunsupported : stops .unsupported) (sections : WasmSections) :
    Quits stops (scanImports sections).run := by
  rw [scanImports]
  split
  · exact quits_pure _
  refine quits_bind (quits_nextU32 hstops _ _) fun count => quits_bind (quits_require _ _) fun _ => ?_
  refine quits_bind (quits_counted (fun _ value => ?_) _ _) fun _ =>
    quits_bind (quits_require _ _) fun _ => quits_pure _
  refine quits_bind (quits_nameIs hstops _ _ _) fun module => ?_
  refine quits_bind (quits_importField hstops _ _) fun function => ?_
  refine quits_bind (quits_nextByte hstops _ _) fun kind => ?_
  refine quits_bind (quits_nextU32 hstops _ _) fun typeIndex => quits_bind (quits_require _ _) fun _ => ?_
  cases function.1 with
  | none => exact quits_throw _
  | some function =>
      refine quits_bind (quits_require _ _) fun _ => ?_
      exact quits_bind (quits_importTypeMatches hstops hunsupported _ _ _) fun _ => quits_pure _

end

/-! ## The flag of the reader -/

/-- The flag says whether a read failed. -/
def WasmReader.Tracks (reader : WasmReader) (past : ReadTrace) : Prop :=
  reader.readFailed = true ↔ ¬ FaultFree past

/-- A read of at most a block that ends inside a range. -/
def ReadsWithin (limit : Nat) : ReadCall → Prop
  | .read offset count => 0 < count ∧ count ≤ tarBlockBytes ∧ offset + count ≤ limit
  | .digest _ => True

/-- A read of at most a block that lies inside the member of this place and size. -/
def ReadsMember (base size : Nat) : ReadCall → Prop
  | .read offset count =>
      0 < count ∧ count ≤ tarBlockBytes ∧ base ≤ offset ∧ offset + count ≤ base + size
  | .digest _ => True

/-- A member that ends inside a range is read inside that range. -/
theorem ReadsMember.within {base size limit : Nat} {call : ReadCall}
    (hcall : ReadsMember base size call) (hlimit : base + size ≤ limit) : ReadsWithin limit call := by
  cases call with
  | digest step => trivial
  | read offset count =>
      obtain ⟨hpos, hblock, -, hend⟩ := hcall
      exact ⟨hpos, hblock, hend.trans hlimit⟩

/-- What is left of the reader when a scanning function is done. -/
structure AfterScan (stops : Stop → Prop) (reader : WasmReader) (past : ReadTrace)
    (result : Except Stop α) (next : WasmReader) : Prop where
  tracks : next.Tracks past
  base : next.base = reader.base
  size : next.size = reader.size
  stopped : reader.readFailed = false → next.readFailed = true →
    ∃ stop, stops stop ∧ result = .error stop

theorem WasmReader.Tracks.faultFree {reader : WasmReader} {past : ReadTrace}
    (htracks : reader.Tracks past) (hflag : reader.readFailed = false) : FaultFree past :=
  not_not.mp fun hfault => by simp [htracks.mpr hfault] at hflag

/-- Serving a byte keeps the flag true to the history. -/
theorem safe_serveByte (offset : Nat) {reader : WasmReader} {past : ReadTrace}
    (htracks : reader.Tracks past) :
    (serveByte offset reader).Safe (World.history ReadPort)
      (fun _ call => ReadsMember reader.base reader.size call)
      (fun after reply => reply.2.Tracks after ∧ reply.2.base = reader.base ∧
        reply.2.size = reader.size ∧
        (reply.1 ≠ none → reply.2.readFailed = reader.readFailed)) past := by
  unfold serveByte
  split
  · exact ⟨htracks, rfl, rfl, fun _ => rfl⟩
  · next hoffset =>
    split
    · have hstart : offset / wasmReadBytes * wasmReadBytes ≤ offset := Nat.div_mul_le_self _ _
      rw [Program.safe_bind, Program.call, Program.safe_ask_history]
      refine ⟨⟨?_, min_le_left _ _, Nat.le_add_right _ _, ?_⟩, fun answer => ?_⟩
      · exact Nat.lt_min.mpr ⟨by decide, by omega⟩
      · have hamount := min_le_right wasmReadBytes
          (reader.size - offset / wasmReadBytes * wasmReadBytes)
        omega
      · rw [Program.safe_ret]
        cases answer with
        | failed left =>
            refine ⟨?_, rfl, rfl, fun h => absurd rfl h⟩
            simp [WasmReader.Tracks, readFault, ReadAnswer.succeeded]
        | ok bytes =>
            refine ⟨?_, rfl, rfl, fun _ => rfl⟩
            simpa [WasmReader.Tracks, readFault, ReadAnswer.succeeded] using htracks
    · exact ⟨htracks, rfl, rfl, fun _ => rfl⟩

/-- A scanning function keeps the flag true to the history, and if the flag is new it
stopped in one of its ways. -/
theorem safe_interpret {program : Program BytePort (Except Stop α)} (hquits : Quits stops program)
    {reader : WasmReader} {past : ReadTrace} (htracks : reader.Tracks past) :
    (program.interpret serveByte reader).Safe (World.history ReadPort)
      (fun _ call => ReadsMember reader.base reader.size call)
      (fun after reply => AfterScan stops reader after reply.1 reply.2) past := by
  induction program generalizing reader past with
  | ret result =>
      exact ⟨htracks, rfl, rfl, fun hclear hset => by simp [hclear] at hset⟩
  | ask offset resume ih =>
      rw [Program.interpret_ask, Program.safe_bind]
      refine (safe_serveByte offset htracks).imp fun after reply hreply => ?_
      obtain ⟨answer, served⟩ := reply
      obtain ⟨hserved, hbase, hsize, hflag⟩ := hreply
      obtain ⟨⟨stop, hstop, hnone⟩, hsome⟩ := hquits
      simp only at hserved hbase hsize hflag ⊢
      cases answer with
      | none =>
          rw [hnone]
          exact ⟨hserved, hbase, hsize, fun _ _ => ⟨stop, hstop, rfl⟩⟩
      | some byte =>
          rw [← hbase, ← hsize]
          refine (ih _ (hsome byte) hserved).imp fun later result hresult => ?_
          exact
            { tracks := hresult.tracks
              base := hresult.base.trans hbase
              size := hresult.size.trans hsize
              stopped := fun hclear => hresult.stopped ((hflag nofun).trans hclear) }

/-! ## The check behind the import scan -/

/-- An error of the Wasm check says whether a read failed. -/
def WasmVerdict (past : ReadTrace) (error : WasmError) : Prop :=
  error = .readFailed ↔ ¬ FaultFree past

/-- No read has failed yet. -/
structure WasmReader.Clear (base size : Nat) (reader : WasmReader) (past : ReadTrace) : Prop where
  base : reader.base = base
  size : reader.size = size
  flag : reader.readFailed = false
  faultFree : FaultFree past

variable {base size : Nat} {reader : WasmReader} {past : ReadTrace}

theorem WasmReader.Clear.tracks (hclear : reader.Clear base size past) : reader.Tracks past :=
  ⟨fun hset => by simp [hclear.flag] at hset, fun hfault => absurd hclear.faultFree hfault⟩

theorem WasmReader.Clear.verdict (hclear : reader.Clear base size past) {error : WasmError}
    (herror : error ≠ .readFailed) : WasmVerdict past error :=
  ⟨fun h => absurd h herror, fun h => absurd hclear.faultFree h⟩

theorem WasmReader.Tracks.verdict (htracks : reader.Tracks past) :
    WasmVerdict past reader.verdict := by
  rw [WasmVerdict, ← (show reader.readFailed = true ↔ _ from htracks), WasmReader.verdict]
  cases reader.readFailed <;> simp

/-- A scanning function that stops as failed leaves the reader clear or ends the check. -/
theorem safe_scanned {scan : Scan α} (hquits : Quits (Eq .failed) scan.run)
    (hclear : reader.Clear base size past) :
    Fallible.Safe (World.history ReadPort) (fun _ call => ReadsMember base size call)
      WasmVerdict (fun after reply => reply.2.Clear base size after) (scanned scan reader) past := by
  have hinterpret := safe_interpret hquits hclear.tracks
  rw [hclear.base, hclear.size] at hinterpret
  rw [scanned, Fallible.safe_bind, Fallible.safe_attempt]
  refine hinterpret.imp fun after reply hreply => ?_
  obtain ⟨result, next⟩ := reply
  have hnext (hresult : result ≠ .error .failed) : next.Clear base size after := by
    have hflag : next.readFailed = false := by
      by_contra hset
      obtain ⟨_, rfl, hstopped⟩ := hreply.stopped hclear.flag (by simpa using hset)
      exact hresult hstopped
    exact ⟨hreply.base.trans hclear.base, hreply.size.trans hclear.size, hflag,
      hreply.tracks.faultFree hflag⟩
  rcases result with (_ | _) | value
  · exact hreply.tracks.verdict
  · exact hnext nofun
  · exact hnext nofun

theorem safe_checkEntries (sections : WasmSections) (imports : WasmImports)
    (exported : WasmExports) (typeCount : Nat) (names : List ExportName) (definedCount : Nat)
    (hclear : reader.Clear base size past) :
    Fallible.Safe (World.history ReadPort) (fun _ call => ReadsMember base size call)
      WasmVerdict (fun after reply => reply.2.Clear base size after)
      (checkEntries sections imports exported typeCount names definedCount reader) past := by
  induction names generalizing definedCount reader past with
  | nil => exact hclear
  | cons name names ih =>
      rw [checkEntries, Fallible.safe_bind, Fallible.safe_require]
      refine ⟨fun _ => ?_, fun _ => hclear.verdict (by decide)⟩
      rw [Fallible.safe_bind]
      refine (safe_scanned ?_ hclear).imp fun after reply hreply => ?_
      · exact quits_bind (quits_functionType rfl _ _ _) fun _ =>
          quits_bind (quits_typeMatches rfl _ _ _ _) fun _ => quits_pure _
      · obtain ⟨entry, next⟩ := reply
        cases entry with
        | none => exact hreply.verdict (by decide)
        | some definedCount => exact ih _ hreply

theorem safe_verifyPayloadDigest (crypto : Crypto) (expected : Sha256)
    (hclear : reader.Clear base size past) :
    Fallible.Safe (World.history ReadPort) (fun _ call => ReadsMember base size call)
      WasmVerdict (fun after _ => FaultFree after) (verifyPayloadDigest crypto reader expected)
      past := by
  have hdigest {after : ReadTrace} (step : DigestCall) (answer : Bool) (hafter : FaultFree after) :
      FaultFree (after ++ [⟨.digest step, answer⟩]) := by
    simp [hafter, readFault]
  have hinvalid {after : ReadTrace} (hafter : FaultFree after) : WasmVerdict after .invalid :=
    ⟨by simp, fun hfault => absurd hafter hfault⟩
  simp only [verifyPayloadDigest, Program.call, Fallible.safe_bind, Fallible.safe_attempt,
    Program.safe_ask_history, Program.safe_ret, Fallible.safe_require]
  refine ⟨trivial, fun answer => ⟨fun _ => ?_, fun _ => hinvalid (hdigest _ _ hclear.faultFree)⟩⟩
  refine (Fallible.safe_chunked (by decide) (fun _ _ after => FaultFree after) ?_ _ _
    (hdigest _ _ hclear.faultFree)).imp fun after digest hafter => ?_
  · rintro offset amount digest after hoffset rfl hafter
    rw [hclear.size] at hoffset
    simp only [Fallible.safe_bind, Fallible.safe_attempt, Program.safe_ask_history,
      Program.safe_ret]
    refine ⟨⟨chunk_pos (hclear.size.symm ▸ hoffset), min_le_left _ _,
      hclear.base ▸ Nat.le_add_right _ _, ?_⟩, fun answer => ?_⟩
    · have hamount := min_le_right wasmReadBytes (reader.size - offset)
      rw [hclear.size] at hamount ⊢
      rw [hclear.base]
      omega
    · cases answer with
      | failed left => simp [WasmVerdict, readFault, ReadAnswer.succeeded]
      | ok block =>
          have hread : FaultFree (after ++
              [⟨.read (reader.base + offset) (min wasmReadBytes (reader.size - offset)),
                .ok block⟩]) := by
            simp [hafter, readFault, ReadAnswer.succeeded]
          simp only [Fallible.safe_bind, Fallible.safe_attempt, Program.safe_ask_history,
            Program.safe_ret, Fallible.safe_require, Fallible.safe_pure]
          exact ⟨trivial, fun answer => ⟨fun _ => hdigest _ _ hread,
            fun _ => hinvalid (hdigest _ _ hread)⟩⟩
  · exact ⟨trivial, fun answer => ⟨fun _ => hdigest _ _ hafter,
      fun _ => hinvalid (hdigest _ _ hafter)⟩⟩

theorem safe_checkAbi (crypto : Crypto) (info : Info) (sections : WasmSections)
    (imports : WasmImports) (exported : WasmExports) (hclear : reader.Clear base size past) :
    Fallible.Safe (World.history ReadPort) (fun _ call => ReadsMember base size call)
      WasmVerdict (fun after _ => FaultFree after)
      (checkAbi crypto info sections imports exported reader) past := by
  rw [checkAbi]
  simp only [Fallible.safe_bind, Fallible.safe_require]
  refine ⟨fun _ => ⟨fun _ => ?_, fun _ => hclear.verdict (by decide)⟩,
    fun _ => hclear.verdict (by decide)⟩
  refine (safe_scanned ?_ hclear).imp fun after reply hreply => ?_
  · exact quits_bind (quits_nextU32 rfl _ _) fun _ => quits_pure _
  · obtain ⟨typeCount, next⟩ := reply
    cases typeCount with
    | none => exact hreply.verdict (by decide)
    | some typeCount =>
        simp only [Fallible.safe_bind]
        refine (safe_checkEntries _ _ _ _ _ _ hreply).imp fun after entries hentries => ?_
        refine (safe_scanned ?_ hentries).imp fun after scanned hscanned => ?_
        · exact quits_bind (quits_scanMemory rfl _ _) fun _ => quits_scanCode rfl _ _
        · exact safe_verifyPayloadDigest crypto _ hscanned

/-! ## Where the check reads -/

/-- However a scanning function stops, it reads the payload only. -/
theorem safe_scanned_reads {stops : Stop → Prop} {scan : Scan α} (hquits : Quits stops scan.run)
    (htracks : reader.Tracks past) (hbase : reader.base = base) (hsize : reader.size = size) :
    Fallible.Safe (World.history ReadPort) (fun _ call => ReadsMember base size call)
      (fun _ _ => True)
      (fun after reply => reply.2.Tracks after ∧ reply.2.base = base ∧ reply.2.size = size ∧
        (reader.readFailed = false → reply.1 ≠ none → reply.2.readFailed = false))
      (scanned scan reader) past := by
  have hinterpret := safe_interpret hquits htracks
  rw [hbase, hsize] at hinterpret
  rw [scanned, Fallible.safe_bind, Fallible.safe_attempt]
  refine hinterpret.imp fun after reply hreply => ?_
  obtain ⟨result, next⟩ := reply
  have hnext := And.intro (hreply.base.trans hbase) (hreply.size.trans hsize)
  rcases result with (_ | _) | value
  · trivial
  · exact ⟨hreply.tracks, hnext.1, hnext.2, fun _ h => absurd rfl h⟩
  · refine ⟨hreply.tracks, hnext.1, hnext.2, fun hclear _ => ?_⟩
    by_contra hset
    obtain ⟨_, -, hstopped⟩ := hreply.stopped hclear (by simpa using hset)
    cases hstopped

theorem safe_wasmCheckModule (crypto : Crypto) (info : Info) :
    Fallible.Safe (World.history ReadPort)
      (fun _ call => ReadsMember info.wasmOffsetBytes info.wasmSizeBytes call)
      (fun _ _ => True) (fun _ _ => True) (wasmCheckModule crypto info) [] := by
  have hstart : (WasmReader.start info).Clear info.wasmOffsetBytes info.wasmSizeBytes [] :=
    ⟨rfl, rfl, rfl, faultFree_nil⟩
  rw [wasmCheckModule, Fallible.safe_bind]
  refine ((safe_scanned (quits_scanSections rfl _) hstart).mono (fun _ _ h => h)
    (fun _ _ _ => trivial) fun _ _ h => h).imp fun after reply hreply => ?_
  obtain ⟨sections, reader⟩ := reply
  cases sections with
  | none => trivial
  | some sections =>
      simp only [Fallible.safe_bind]
      refine (safe_scanned_reads (@quits_scanImports (fun _ => True) trivial trivial sections)
        hreply.tracks hreply.base hreply.size).imp fun after imports himports => ?_
      refine (safe_scanned_reads (quits_scanExports rfl (sections 7)) himports.1 himports.2.1
        himports.2.2.1).imp fun after exports hexports => ?_
      obtain ⟨imports, reader'⟩ := imports
      obtain ⟨exports, reader''⟩ := exports
      cases imports with
      | none => trivial
      | some imports =>
          cases exports with
          | none => trivial
          | some exports =>
              have hflag := hexports.2.2.2 (himports.2.2.2 hreply.flag (by simp)) (by simp)
              exact (safe_checkAbi crypto info sections imports exports ⟨hexports.2.1,
                hexports.2.2.1, hflag, hexports.1.faultFree hflag⟩).mono (fun _ _ h => h)
                (fun _ _ _ => trivial) fun _ _ _ => trivial

/-- The check reads inside the member only, and the member is inside the package. -/
theorem uses_packageWasmCheck (crypto : Crypto) (hasReadFn : Bool) (info : Info)
    (authorization : Option WasmAuthorization) (hasWorkspace : Bool) :
    (packageWasmCheck crypto hasReadFn (some info) authorization hasWorkspace).Uses
      (fun call => ReadsMember info.wasmOffsetBytes info.wasmSizeBytes call ∧
        ReadsWithin info.packageSizeBytes call) := by
  unfold packageWasmCheck
  split
  · next info authorization hinfo =>
    obtain rfl := Option.some.inj hinfo
    split
    · trivial
    · next hvalid =>
      split
      · trivial
      split
      · trivial
      refine Program.Safe.uses (safe_wasmCheckModule crypto _) fun _ call hcall => ?_
      refine ⟨hcall, hcall.within ?_⟩
      simp only [wasmBoundsValid] at hvalid
      simp at hvalid
      omega
  · trivial

/-- Inside the package the slot's read callback passes a request on. -/
theorem readSlot_eq_call {packageSizeBytes : Nat} {call : ReadCall}
    (hcall : ReadsWithin packageSizeBytes call) :
    readSlot packageSizeBytes call = Program.call (I := ReadPort) call := by
  cases call with
  | digest step => rfl
  | read offset count =>
      obtain ⟨hpos, hblock, hend⟩ := hcall
      rw [readSlot, if_pos]
      simp only [Bool.and_eq_true, decide_eq_true_eq]
      exact ⟨⟨⟨hpos, hblock⟩, by omega⟩, by omega⟩

/-- Whatever it is asked, the slot's read callback reads inside the package. -/
theorem uses_readSlot (packageSizeBytes : Nat) (call : ReadCall) :
    (readSlot packageSizeBytes call).Uses (ReadsWithin packageSizeBytes) := by
  cases call with
  | digest step => exact Program.uses_call trivial
  | read offset count =>
      rw [readSlot]
      split
      · next hguard =>
        simp only [Bool.and_eq_true, decide_eq_true_eq] at hguard
        exact Program.uses_call ⟨hguard.1.1.1, hguard.1.1.2, by omega⟩
      · trivial

/-- For a program that stays inside the package the slot's read callback is the one it
was given. -/
theorem translate_readSlot {packageSizeBytes : Nat} {program : Program ReadPort α}
    (huses : program.Uses (ReadsWithin packageSizeBytes)) :
    program.translate (readSlot packageSizeBytes) = program := by
  induction program with
  | ret value => rfl
  | ask call resume ih =>
      rw [Program.translate_ask, readSlot_eq_call huses.1, Program.call_bind]
      exact congrArg (Program.ask call) (funext fun answer => ih answer (huses.2 answer))

end Package
