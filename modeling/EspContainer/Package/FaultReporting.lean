/-
# When a read fault is reported

A read fault should always end in the result that says so, and that result should
never come without one. Verification keeps this. The Wasm check does not: if the
type check of an import stops because a byte could not be read, the import scan
returns true with the module marked as unsupported, the export scan goes on with a
cleared cache, and if it returns true as well the result is "unsupported". The
condition below is that branch, and the two functions that run the Wasm check
report faults exactly when it is not taken.
-/

import EspContainer.Package.Faults
import EspContainer.Package.Verification

namespace Package

open Binary Interaction

variable {α β : Type}

/-! ## The branch that loses a fault -/

/-- A scanning function ran from one reader to another. -/
def Ran (scan : Scan α) (reader : WasmReader) (trace : ReadTrace) (result : Except Stop α)
    (next : WasmReader) : Prop :=
  Exec (World.free ReadPort) (scan.run.interpret serveByte reader) () trace (.ret (result, next)) ()

/-- The import scan ended as unsupported although one of its reads failed, and the
export scan after it returned true. -/
def MaskedFault (info : Info) (trace : ReadTrace) : Prop :=
  ∃ sectionScan importScan exportScan sections afterSections afterImports exportResult afterExports,
    trace = sectionScan ++ importScan ++ exportScan ∧
    Ran (scanSections info.wasmSizeBytes) (.start info) sectionScan (.ok sections) afterSections ∧
    Ran (scanImports sections) afterSections importScan (.error .unsupported) afterImports ∧
    Ran (scanExports (sections 7)) afterImports exportScan exportResult afterExports ∧
    ¬ FaultFree importScan ∧ exportResult ≠ .error .failed

/-- What the check does with the result of a scanning function. -/
def continueScan (next : Option α × WasmReader → Checking β) :
    Except Stop α × WasmReader → Program ReadPort (Except WasmError β)
  | (.ok value, reader) => (next (some value, reader)).run
  | (.error .unsupported, reader) => (next (none, reader)).run
  | (.error .failed, reader) => .ret (.error reader.verdict)

theorem run_scanned_bind (scan : Scan α) (reader : WasmReader)
    (next : Option α × WasmReader → Checking β) :
    (scanned scan reader >>= next).run =
      scan.run.interpret serveByte reader >>= continueScan next := by
  rw [scanned, bind_assoc]
  change (scan.run.interpret serveByte reader >>= fun reply => Program.ret (Except.ok reply)) >>=
    _ = _
  rw [bind_assoc]
  refine bind_congr fun reply => ?_
  rcases reply with ⟨(_ | _) | _, reader⟩ <;> rfl

variable {crypto : Crypto} {info : Info} {trace : ReadTrace} {result : Except WasmError Unit}

/-- Taking the branch makes the module unsupported. -/
theorem MaskedFault.unsupported (hmasked : MaskedFault info trace) :
    Exec (World.free ReadPort) (wasmCheckModule crypto info).run () trace
      (.ret (.error .unsupported)) () := by
  obtain ⟨sectionScan, importScan, exportScan, sections, afterSections, afterImports, exportResult,
    afterExports, rfl, hsections, himports, hexports, -, hreturned⟩ := hmasked
  rw [wasmCheckModule, run_scanned_bind, List.append_assoc]
  refine hsections.bind.append ?_
  change Exec _ (scanned (scanImports sections) afterSections >>= _ : Checking Unit).run _ _ _ _
  rw [run_scanned_bind]
  refine himports.bind.append ?_
  change Exec _ (scanned (scanExports (sections 7)) afterImports >>= _ : Checking Unit).run _ _ _ _
  rw [run_scanned_bind, ← List.append_nil exportScan]
  refine hexports.bind.append ?_
  rcases exportResult with (_ | _) | exported
  · exact absurd rfl hreturned
  · exact .stop _ _
  · exact .stop _ _

theorem WasmReader.clear_start (info : Info) :
    (WasmReader.start info).Clear info.wasmOffsetBytes info.wasmSizeBytes [] :=
  ⟨rfl, rfl, rfl, faultFree_nil⟩

/-- What a finished scanning function leaves, whatever was read before it. -/
theorem Ran.afterScan {stops : Stop → Prop} {scan : Scan α} (hquits : Quits stops scan.run)
    {reader next : WasmReader} {past own : ReadTrace} {result : Except Stop α}
    (hran : Ran scan reader own result next) (htracks : reader.Tracks past) :
    AfterScan stops reader (past ++ own) result next :=
  (safe_interpret hquits htracks).post_of_exec (hran.toHistory past)

/-- A result of the Wasm check says whether a read failed. -/
def Reports (trace : ReadTrace) (result : Except WasmError Unit) : Prop :=
  result = .error .readFailed ↔ ¬ FaultFree trace

theorem reports_of_verdict {error : WasmError} (hverdict : WasmVerdict trace error) :
    Reports trace (.error error) := by
  rw [Reports, Except.error.injEq]
  exact hverdict

theorem reports_of_faultFree (hfree : FaultFree trace) (hresult : result ≠ .error .readFailed) :
    Reports trace result :=
  ⟨fun h => absurd h hresult, fun h => absurd hfree h⟩

/-- The check ended at once with the verdict of the reader. -/
theorem reports_of_stopped {reader : WasmReader} {past rest : ReadTrace}
    (htracks : reader.Tracks past)
    (hexec : Exec (World.free ReadPort) (.ret (.error reader.verdict)) () rest (.ret result) ()) :
    Reports (past ++ rest) result := by
  cases hexec
  rw [List.append_nil]
  exact reports_of_verdict htracks.verdict

/-- The check ended at once as unsupported, with a clear reader. -/
theorem reports_of_unsupported {past rest : ReadTrace} (hfree : FaultFree past)
    (hexec : Exec (World.free ReadPort) (.ret (.error .unsupported)) () rest (.ret result) ()) :
    Reports (past ++ rest) result := by
  cases hexec
  rw [List.append_nil]
  exact reports_of_faultFree hfree (by simp)

/-- A reader whose flag the scan left alone is clear. -/
theorem AfterScan.faultFree {stops : Stop → Prop} {reader next : WasmReader} {past : ReadTrace}
    {result : Except Stop α} (hscan : AfterScan stops reader past result next)
    (hflag : reader.readFailed = false) (hresult : ∀ stop, stops stop → result ≠ .error stop) :
    next.readFailed = false ∧ FaultFree past := by
  have hnext : next.readFailed = false := by
    by_contra hset
    obtain ⟨stop, hstop, hstopped⟩ := hscan.stopped hflag (by simpa using hset)
    exact hresult stop hstop hstopped
  exact ⟨hnext, hscan.tracks.faultFree hnext⟩

/-- Every other run of the check reports its faults. -/
theorem wasmCheckModule_reports
    (hexec : Exec (World.free ReadPort) (wasmCheckModule crypto info).run () trace (.ret result) ()) :
    Reports trace result ∨ MaskedFault info trace := by
  rw [wasmCheckModule, run_scanned_bind] at hexec
  obtain ⟨⟨sectionResult, afterSections⟩, _, sectionScan, rest, rfl, hsections, hexec⟩ :=
    hexec.of_bind
  have hsectionsLeft := Ran.afterScan (quits_scanSections rfl _) hsections
    (WasmReader.clear_start info).tracks
  rw [List.nil_append] at hsectionsLeft
  rcases sectionResult with (_ | _) | sections
  · exact .inl (reports_of_stopped hsectionsLeft.tracks hexec)
  · exact .inl (reports_of_unsupported (hsectionsLeft.faultFree rfl (by simp)).2 hexec)
  obtain ⟨hsectionsClear, hsectionsFree⟩ := hsectionsLeft.faultFree rfl (by simp)
  change Exec _ (scanned (scanImports sections) afterSections >>= _ : Checking Unit).run _ _ _ _
    at hexec
  rw [run_scanned_bind] at hexec
  obtain ⟨⟨importResult, afterImports⟩, _, importScan, rest, rfl, himports, hexec⟩ := hexec.of_bind
  have himportsLeft := Ran.afterScan
    (@quits_scanImports (fun _ => True) trivial trivial sections) himports
    hsectionsLeft.tracks
  rw [← List.append_assoc]
  rcases importResult with (_ | _) | imports
  · exact .inl (reports_of_stopped himportsLeft.tracks hexec)
  · -- The type check of an import may have swallowed a fault.
    change Exec _ (scanned (scanExports (sections 7)) afterImports >>= _ : Checking Unit).run
      _ _ _ _ at hexec
    rw [run_scanned_bind] at hexec
    obtain ⟨⟨exportResult, afterExports⟩, _, exportScan, rest, rfl, hexports, hexec⟩ :=
      hexec.of_bind
    have hexportsLeft := Ran.afterScan (quits_scanExports rfl (sections 7)) hexports
      himportsLeft.tracks
    rw [← List.append_assoc]
    by_cases hreturned : exportResult = .error .failed
    · subst hreturned
      exact .inl (reports_of_stopped hexportsLeft.tracks hexec)
    have hended : Exec (World.free ReadPort) (.ret (.error .unsupported)) () rest (.ret result) () := by
      rcases exportResult with (_ | _) | exported
      · exact absurd rfl hreturned
      · exact hexec
      · exact hexec
    cases hflag : afterImports.readFailed with
    | false =>
        have hfree := (hexportsLeft.faultFree hflag (by rintro _ rfl; exact hreturned)).2
        exact .inl (reports_of_unsupported hfree hended)
    | true =>
        have hfault : ¬ FaultFree importScan := fun hfree =>
          himportsLeft.tracks.mp hflag (faultFree_append.mpr ⟨hsectionsFree, hfree⟩)
        cases hended
        rw [List.append_nil]
        exact .inr ⟨_, _, _, _, _, _, _, _, rfl, hsections, himports, hexports, hfault, hreturned⟩
  · have hclear := himportsLeft.faultFree hsectionsClear (by simp)
    change Exec _ (scanned (scanExports (sections 7)) afterImports >>= _ : Checking Unit).run
      _ _ _ _ at hexec
    rw [run_scanned_bind] at hexec
    obtain ⟨⟨exportResult, afterExports⟩, _, exportScan, rest, rfl, hexports, hexec⟩ :=
      hexec.of_bind
    have hexportsLeft := Ran.afterScan (quits_scanExports rfl (sections 7)) hexports
      himportsLeft.tracks
    rw [← List.append_assoc]
    rcases exportResult with (_ | _) | exported
    · exact .inl (reports_of_stopped hexportsLeft.tracks hexec)
    · exact .inl (reports_of_unsupported (hexportsLeft.faultFree hclear.1 (by simp)).2 hexec)
    · obtain ⟨hflag, hfree⟩ := hexportsLeft.faultFree hclear.1 (by simp)
      have hreader : afterExports.Clear afterExports.base afterExports.size _ :=
        ⟨rfl, rfl, hflag, hfree⟩
      have hpost := (safe_checkAbi crypto info sections imports exported hreader).post_of_exec
        (hexec.toHistory _)
      left
      cases result with
      | ok value => exact reports_of_faultFree hpost (by simp)
      | error error => exact reports_of_verdict hpost

theorem MaskedFault.fault (hmasked : MaskedFault info trace) : ¬ FaultFree trace := by
  obtain ⟨_, _, _, _, _, _, _, _, rfl, -, -, -, hfault, -⟩ := hmasked
  simp [hfault]

/-- The Wasm check reports its faults exactly if it does not take the branch. -/
theorem packageWasmCheck_reports_iff {σ : Type} {W : World ReadPort σ} {before after : σ}
    {hasReadFn hasWorkspace : Bool} {authorization : Option WasmAuthorization} (info : Info)
    (hexec : Exec W (packageWasmCheck crypto hasReadFn (some info) authorization hasWorkspace)
      before trace (.ret result) after) :
    Reports trace result ↔ ¬ MaskedFault info trace := by
  have hrefused {error : WasmError} (herror : error ≠ .readFailed)
      (hexec : Exec W (.ret (.error error)) before trace (.ret result) after) :
      Reports trace result ↔ ¬ MaskedFault info trace := by
    cases hexec
    exact iff_of_true (reports_of_faultFree faultFree_nil (by simpa using herror))
      fun hmasked => hmasked.fault faultFree_nil
  unfold packageWasmCheck at hexec
  split at hexec
  · next info' authorization hinfo =>
    obtain rfl := Option.some.inj hinfo
    split at hexec
    · exact hrefused (by decide) hexec
    split at hexec
    · exact hrefused (by decide) hexec
    split at hexec
    · exact hrefused (by decide) hexec
    constructor
    · intro hreports hmasked
      have hresult := Program.ret.inj (hexec.residual_unique hmasked.unsupported)
      rw [Reports, hresult] at hreports
      exact absurd (hreports.mpr hmasked.fault) (by simp)
    · exact fun hmasked => (wasmCheckModule_reports hexec.toFree).resolve_right hmasked
  · exact hrefused (by decide) hexec

/-! ## Candidate admission -/

/-- A result of candidate admission says whether a read failed. -/
def AdmissionReports (trace : ReadTrace) (result : Slots.ValidationResult) : Prop :=
  result = .ioFailed ↔ ¬ FaultFree trace

/-- The arguments admission gives to verification. -/
def SlotValidation.verifyArguments (validation : SlotValidation) (packageSizeBytes : Nat) :
    VerifyArguments :=
  ⟨true, packageSizeBytes, validation.maxWasmBytes, validation.publicKey,
    validation.expectedKeyId, true⟩

/-- Verification succeeded and the Wasm check then took the branch that loses a fault. -/
def AdmissionMaskedFault (crypto : Crypto) (validation : SlotValidation)
    (packageSizeBytes : Nat) (trace : ReadTrace) : Prop :=
  ∃ verifyTrace wasmTrace verified, trace = verifyTrace ++ wasmTrace ∧
    Exec (World.free ReadPort) (packageVerify crypto (validation.verifyArguments packageSizeBytes)
      (some .zero)) () verifyTrace (.ret verified) () ∧
    verified.result = .ok () ∧ MaskedFault verified.info wasmTrace

theorem admissionResult_reports (trace : ReadTrace) (result : Except WasmError Unit) :
    AdmissionReports trace (admissionResult result) ↔ Reports trace result := by
  rw [AdmissionReports, Reports]
  rcases result with (_ | _ | _ | _) | _ <;> simp [admissionResult]

/-- Behind its argument checks, admission reports its faults exactly if the Wasm check
does not take the branch. -/
theorem admitCandidate_reports_iff {validation : SlotValidation}
    {productId publicKey expectedKeyId : List UInt8} {operation : Slots.Operation}
    {packageSizeBytes : Nat} {outcome : SlotValidationOutcome}
    (hkey : validation.publicKey = some publicKey)
    (hid : validation.expectedKeyId = some expectedKeyId)
    (hexec : Exec (World.free ReadPort) (admitCandidate crypto validation productId publicKey
      expectedKeyId .zero operation packageSizeBytes) () trace (.ret outcome) ()) :
    AdmissionReports trace outcome.result ↔
      ¬ AdmissionMaskedFault crypto validation packageSizeBytes trace := by
  have harguments : validation.verifyArguments packageSizeBytes = ⟨true, packageSizeBytes,
      validation.maxWasmBytes, some publicKey, some expectedKeyId, true⟩ := by
    rw [SlotValidation.verifyArguments, hkey, hid]
  have hsafe := safe_packageVerify crypto (validation.verifyArguments packageSizeBytes)
    (some .zero)
  have huses : (packageVerify crypto (validation.verifyArguments packageSizeBytes)
      (some .zero)).Uses (ReadsWithin packageSizeBytes) :=
    Program.Safe.uses hsafe fun past call hcall => by
      cases call with
      | digest step => trivial
      | read offset count => exact ⟨hcall.2.1, hcall.2.2.1, hcall.2.2.2.1⟩
  rw [admitCandidate, ← harguments, translate_readSlot huses] at hexec
  obtain ⟨verified, _, verifyTrace, wasmTrace, rfl, hverify, hexec⟩ := hexec.of_bind
  have hpost := hsafe.post_of_trace hverify
  -- The run of verification is a beginning of the trace, and the only one.
  have hmasked (hresult : verified.result = .ok ()) :
      AdmissionMaskedFault crypto validation packageSizeBytes (verifyTrace ++ wasmTrace) ↔
        MaskedFault verified.info wasmTrace := by
    constructor
    · rintro ⟨_, _, _, htrace, hexec', -, hmasked⟩
      obtain ⟨rfl, rfl, rfl⟩ := hverify.prefix_unique hexec' htrace
      exact hmasked
    · exact fun hmasked => ⟨_, _, _, rfl, hverify, hresult, hmasked⟩
  cases hresult : verified.result with
  | error error =>
      simp only [hresult] at hexec
      cases hexec
      have hunmasked : ¬ AdmissionMaskedFault crypto validation packageSizeBytes
          (verifyTrace ++ []) := by
        rintro ⟨_, _, _, htrace, hexec', hok, -⟩
        obtain ⟨-, -, rfl⟩ := hverify.prefix_unique hexec' htrace
        simp [hresult] at hok
      refine iff_of_true ?_ hunmasked
      have hverdict := hpost.verdict error hresult
      rw [List.append_nil, AdmissionReports, ← (show error = .readFailed ↔ _ from hverdict)]
      cases error <;> simp
  | ok value =>
      simp only [hresult] at hexec
      obtain ⟨hclean, -, hsize, -⟩ := hpost.complete hresult
      rw [hmasked hresult]
      obtain ⟨result, _, wasmTrace, rest, rfl, hcheck, hexec⟩ := hexec.of_bind
      obtain ⟨hrest, houtcome⟩ : rest = [] ∧ outcome.result = result := by
        split at hexec
        · next hok =>
          cases hexec
          exact ⟨rfl, (beq_iff_eq.mp hok).symm⟩
        · cases hexec
          exact ⟨rfl, rfl⟩
      subst hrest
      rw [List.append_nil, houtcome]
      have hfree : FaultFree (verifyTrace ++ wasmTrace) ↔ FaultFree wasmTrace := by
        simp [hclean.1]
      rw [AdmissionReports, hfree]
      unfold checkAccepted at hcheck
      split at hcheck
      · have hwasm := (uses_packageWasmCheck crypto true verified.info
          (some validation.wasmAuthorization) true).mono fun _ hcall => hcall.2
        rw [show verified.info.packageSizeBytes = packageSizeBytes from hsize] at hwasm
        rw [translate_readSlot hwasm, ← bind_pure_comp] at hcheck
        obtain ⟨checked, _, wasmTrace, rest, rfl, hchecked, hcheck⟩ := hcheck.of_bind
        cases hcheck
        rw [List.append_nil, ← packageWasmCheck_reports_iff verified.info hchecked]
        exact admissionResult_reports _ _
      · cases hcheck
        exact iff_of_true (iff_of_false (by decide) fun hfault => hfault faultFree_nil)
          fun hmasked => hmasked.fault faultFree_nil

/-- Candidate admission reports its faults exactly if the Wasm check does not take the
branch. -/
theorem packageSlotValidate_reports_iff {σ : Type} {W : World ReadPort σ} {before after : σ}
    (validation : SlotValidation) {workspace : Option Workspace}
    {operation : Option Slots.Operation} {hasReadFn : Bool} {packageSizeBytes : Nat}
    {outcome : SlotValidationOutcome}
    (hexec : Exec W (packageSlotValidate crypto (some validation) workspace operation hasReadFn
      packageSizeBytes) before trace (.ret outcome) after) :
    AdmissionReports trace outcome.result ↔
      ¬ AdmissionMaskedFault crypto validation packageSizeBytes trace := by
  have hrefused {workspace : Option Workspace} {info : Option Info} {before after : σ}
      (hexec : Exec W (.ret ⟨.untrusted, workspace, info⟩) before trace (.ret outcome) after) :
      AdmissionReports trace outcome.result ↔
        ¬ AdmissionMaskedFault crypto validation packageSizeBytes trace := by
    cases hexec
    refine iff_of_true (iff_of_false nofun fun hfault => hfault faultFree_nil) ?_
    rintro ⟨verifyTrace, wasmTrace, _, htrace, -, -, hmasked⟩
    obtain ⟨-, rfl⟩ := List.append_eq_nil_iff.mp htrace.symm
    exact hmasked.fault faultFree_nil
  unfold packageSlotValidate at hexec
  split at hexec
  · next hnone => cases hnone
  · next validation' hvalidation =>
    obtain rfl := Option.some.inj hvalidation
    split at hexec
    · exact hrefused hexec
    simp only at hexec
    split at hexec
    · next productId publicKey expectedKeyId buffers operation _ hkey hid hbuffers =>
      split at hexec
      · exact hrefused hexec
      · obtain ⟨_, -, rfl⟩ := Option.map_eq_some_iff.mp hbuffers
        exact admitCandidate_reports_iff hkey hid hexec.toFree
    · exact hrefused hexec

/-- A module of 1056 bytes whose type section is the block from 512 to 1023; it
imports `econtainer.log` and has empty function, memory, export and code sections. -/
def logModule : List UInt8 :=
  wasmHeader ++ [0, 0xf2, 3] ++ List.replicate 498 0 ++ [1, 0x80, 4] ++ List.replicate 512 0 ++
    [2, 18, 1, 10] ++ ascii "econtainer" ++ [3] ++ ascii "log" ++ [0, 0] ++
    [3, 1, 0, 5, 1, 0, 7, 1, 0, 10, 1, 0]

/-- A package store that cannot read the block of the type section. -/
def answerWithoutTypes : (request : ReadPort.Call) → ReadPort.Answer request
  | .read offset sizeBytes =>
      if offset = 512 then .failed none else .ok (bytesAt logModule offset sizeBytes)
  | .digest _ => true

/-- Signed facts for that module. -/
def logModuleInfo : Info :=
  { Info.zero with
    packageSizeBytes := logModule.length
    wasmSizeBytes := logModule.length
    guestAbiVersion := 1
    memoryLimitBytes := 65536
    stackLimitBytes := 1
    isClassicProfile := true }

end Package
