/-
# What candidate admission lets in

An admitted candidate has passed two functions that read it independently. That the
bytes both of them saw are those of the slot follows from two facts: a run that ends
in OK had no failed call, and every read of it stayed inside the package. Both
functions are then evaluated on the package as a fixed snapshot.

Whatever else admission returns, the workspace and the verified info are cleared.
-/

import EspContainer.Binary.Masks
import EspContainer.Package.Confinement
import EspContainer.Package.PayloadScan

namespace Package

open Binary Interaction Slots

variable {α : Type} {crypto : Crypto} {trace : ReadTrace}

/-! ## Digest steps of the Wasm check -/

/-- No digest step of the trace failed. -/
def DigestsDone (trace : ReadTrace) : Prop := ∀ event ∈ trace, digestFault event = false

@[simp]
theorem digestsDone_append {first second : ReadTrace} :
    DigestsDone (first ++ second) ↔ DigestsDone first ∧ DigestsDone second := by
  simp [DigestsDone, or_imp, forall_and]

@[simp]
theorem digestsDone_singleton {event : Event ReadPort} :
    DigestsDone [event] ↔ digestFault event = false := by
  simp [DigestsDone]

/-- A scanning function takes no digest step. -/
theorem safe_interpret_digests (program : Program BytePort α) (reader : WasmReader)
    {past : ReadTrace} (hpast : DigestsDone past) :
    (program.interpret serveByte reader).Safe (World.history ReadPort) (fun _ _ => True)
      (fun after _ => DigestsDone after) past := by
  induction program generalizing reader past with
  | ret value => exact hpast
  | ask offset resume ih =>
      rw [Program.interpret_ask, Program.safe_bind]
      unfold serveByte
      split
      · exact ih _ _ hpast
      split
      · rw [Program.safe_bind, Program.call, Program.safe_ask_history]
        refine ⟨trivial, fun answer => ?_⟩
        rw [Program.safe_ret]
        have hnext : DigestsDone (past ++ [⟨.read (reader.base + offset / wasmReadBytes *
            wasmReadBytes) (min wasmReadBytes (reader.size - offset / wasmReadBytes *
            wasmReadBytes)), answer⟩]) := by
          simp [hpast, digestFault]
        cases answer with
        | failed left => exact ih _ _ hnext
        | ok bytes => exact ih _ _ hnext
      · exact ih _ _ hpast

theorem safe_scanned_digests (scan : Scan α) (reader : WasmReader) {past : ReadTrace}
    (hpast : DigestsDone past) :
    Fallible.Safe (World.history ReadPort) (fun _ _ => True) (fun _ _ => True)
      (fun after _ => DigestsDone after) (scanned scan reader) past := by
  rw [scanned, Fallible.safe_bind, Fallible.safe_attempt]
  refine (safe_interpret_digests scan.run reader hpast).imp fun after reply hafter => ?_
  obtain ⟨result, next⟩ := reply
  rcases result with (_ | _) | value
  · trivial
  · exact hafter
  · exact hafter

theorem safe_checkEntries_digests (sections : WasmSections) (imports : WasmImports)
    (exported : WasmExports) (typeCount : Nat) (names : List ExportName) (definedCount : Nat)
    (reader : WasmReader) {past : ReadTrace} (hpast : DigestsDone past) :
    Fallible.Safe (World.history ReadPort) (fun _ _ => True) (fun _ _ => True)
      (fun after _ => DigestsDone after)
      (checkEntries sections imports exported typeCount names definedCount reader) past := by
  induction names generalizing definedCount reader past with
  | nil => exact hpast
  | cons name names ih =>
      rw [checkEntries, Fallible.safe_bind, Fallible.safe_require]
      refine ⟨fun _ => ?_, fun _ => trivial⟩
      rw [Fallible.safe_bind]
      refine (safe_scanned_digests _ _ hpast).imp fun after reply hafter => ?_
      obtain ⟨entry, next⟩ := reply
      cases entry with
      | none => trivial
      | some definedCount => exact ih _ _ hafter

theorem safe_verifyPayloadDigest_digests (reader : WasmReader) (expected : Sha256)
    {past : ReadTrace} (hpast : DigestsDone past) :
    Fallible.Safe (World.history ReadPort) (fun _ _ => True) (fun _ _ => True)
      (fun after _ => DigestsDone after) (verifyPayloadDigest crypto reader expected) past := by
  simp only [verifyPayloadDigest, Program.call, Fallible.safe_bind, Fallible.safe_attempt,
    Program.safe_ask_history, Program.safe_ret, Fallible.safe_require]
  refine ⟨trivial, fun answer => ⟨fun hstarted => ?_, fun _ => trivial⟩⟩
  refine (Fallible.safe_chunked (by decide) (fun _ _ after => DigestsDone after) ?_ _ _
    (digestsDone_append.mpr ⟨hpast, by simp [digestFault, hstarted]⟩)).imp fun after _ hafter =>
      ⟨trivial, fun finished => ⟨fun hfinished => ?_, fun _ => trivial⟩⟩
  · rintro offset amount digest after hoffset rfl hafter
    simp only [Fallible.safe_bind, Fallible.safe_attempt, Program.safe_ask_history,
      Program.safe_ret]
    refine ⟨trivial, fun answer => ?_⟩
    cases answer with
    | failed left => trivial
    | ok block =>
        simp only [Fallible.safe_bind, Fallible.safe_attempt, Program.safe_ask_history,
          Program.safe_ret, Fallible.safe_require, Fallible.safe_pure]
        refine ⟨trivial, fun updated => ⟨fun hupdated => ?_, fun _ => trivial⟩⟩
        exact digestsDone_append.mpr ⟨digestsDone_append.mpr ⟨hafter, digestsDone_singleton.mpr rfl⟩,
          digestsDone_singleton.mpr (by simp [digestFault, hupdated])⟩
  · rw [Bool.and_eq_true] at hfinished
    exact digestsDone_append.mpr ⟨hafter, digestsDone_singleton.mpr (by simp [digestFault, hfinished.1])⟩

theorem safe_wasmCheckModule_digests (info : Info) :
    Fallible.Safe (World.history ReadPort) (fun _ _ => True) (fun _ _ => True)
      (fun after _ => DigestsDone after) (wasmCheckModule crypto info) [] := by
  have hstart : DigestsDone [] := by simp [DigestsDone]
  rw [wasmCheckModule, Fallible.safe_bind]
  refine (safe_scanned_digests _ _ hstart).imp fun after reply hafter => ?_
  obtain ⟨sections, reader⟩ := reply
  cases sections with
  | none => trivial
  | some sections =>
      simp only [Fallible.safe_bind]
      refine (safe_scanned_digests _ _ hafter).imp fun after imports hafter => ?_
      refine (safe_scanned_digests _ _ hafter).imp fun after exports hafter => ?_
      obtain ⟨imports, _⟩ := imports
      obtain ⟨exports, reader⟩ := exports
      cases imports with
      | none => trivial
      | some imports =>
          cases exports with
          | none => trivial
          | some exports =>
              simp only [checkAbi, Fallible.safe_bind, Fallible.safe_require]
              refine ⟨fun _ => ⟨fun _ => ?_, fun _ => trivial⟩, fun _ => trivial⟩
              refine (safe_scanned_digests _ _ hafter).imp fun after types hafter => ?_
              obtain ⟨typeCount, reader⟩ := types
              cases typeCount with
              | none => trivial
              | some typeCount =>
                  simp only [Fallible.safe_bind]
                  refine (safe_checkEntries_digests _ _ _ _ _ _ _ hafter).imp fun after _ hafter => ?_
                  refine (safe_scanned_digests _ _ hafter).imp fun after _ hafter => ?_
                  exact safe_verifyPayloadDigest_digests _ _ hafter

/-- A Wasm check that succeeds had no failed call. -/
theorem clean_of_wasmCheck {σ : Type} {W : World ReadPort σ} {before after : σ}
    {hasReadFn hasWorkspace : Bool} {info : Info} {authorization : Option WasmAuthorization}
    (hexec : Exec W (packageWasmCheck crypto hasReadFn (some info) authorization hasWorkspace)
      before trace (.ret (.ok ())) after) : Clean trace := by
  have hrefused {error : WasmError} {result : Except WasmError Unit} (hresult : result = .ok ())
      (hrefusal : Exec W (.ret (.error error)) before trace (.ret result) after) : Clean trace := by
    cases hrefusal
    cases hresult
  unfold packageWasmCheck at hexec
  split at hexec
  · next info' authorization hinfo =>
    split at hexec
    · exact hrefused rfl hexec
    split at hexec
    · exact hrefused rfl hexec
    split at hexec
    · exact hrefused rfl hexec
    have hdigests : DigestsDone trace :=
      Program.Safe.post_of_trace (safe_wasmCheckModule_digests _) hexec
    refine ⟨?_, hdigests⟩
    rcases wasmCheckModule_reports hexec.toFree with hreports | hmasked
    · exact not_not.mp fun hfault => nomatch hreports.mpr hfault
    · have hresult := Program.ret.inj (hexec.residual_unique hmasked.unsupported)
      cases hresult
  · exact hrefused rfl hexec

/-! ## A fixed slot -/

/-- Every read that succeeded gave the bytes of the slot. -/
def AnsweredFrom (contents : List UInt8) (trace : ReadTrace) : Prop :=
  ∀ offset count bytes, (⟨.read offset count, .ok bytes⟩ : Event ReadPort) ∈ trace →
    offset + count ≤ contents.length ∧ bytes = bytesAt contents offset count

variable {contents : List UInt8}

theorem answeredFrom_append {first second : ReadTrace} :
    AnsweredFrom contents (first ++ second) ↔
      AnsweredFrom contents first ∧ AnsweredFrom contents second := by
  constructor
  · intro hanswered
    exact ⟨fun offset count bytes hevent => hanswered offset count bytes
        (List.mem_append_left _ hevent),
      fun offset count bytes hevent => hanswered offset count bytes
        (List.mem_append_right _ hevent)⟩
  · intro ⟨hfirst, hsecond⟩ offset count bytes hevent
    rcases List.mem_append.mp hevent with hevent | hevent
    · exact hfirst offset count bytes hevent
    · exact hsecond offset count bytes hevent

/-- Reads that follow each other from the beginning deliver a beginning of the slot. -/
theorem delivered_eq_take (hanswered : AnsweredFrom contents trace) (hclean : FaultFree trace)
    (horder : ∀ past offset count answer future,
      trace = past ++ ⟨.read offset count, answer⟩ :: future → offset = asked past) :
    delivered trace = contents.take (asked trace) ∧ asked trace ≤ contents.length := by
  induction trace using List.reverseRecOn with
  | nil => exact ⟨rfl, Nat.zero_le _⟩
  | append_singleton past event ih =>
      obtain ⟨hpastAnswered, hlast⟩ := answeredFrom_append.mp hanswered
      obtain ⟨hpastClean, hevent⟩ := faultFree_append.mp hclean
      obtain ⟨hdelivered, hbound⟩ := ih hpastAnswered hpastClean
        fun before offset count answer future hpast =>
          horder before offset count answer (future ++ [event]) (by simp [hpast])
      rw [delivered_append, asked_append, hdelivered]
      obtain ⟨call, answer⟩ := event
      cases call with
      | digest step => simpa [delivered, deliveredBytes, asked, askedBytes] using hbound
      | read offset count =>
          obtain rfl := horder past offset count answer [] rfl
          cases answer with
          | failed left => simp [readFault, ReadAnswer.succeeded] at hevent
          | ok bytes =>
              obtain ⟨hend, rfl⟩ := hlast _ count bytes List.mem_cons_self
              have hown : asked [(⟨.read (asked past) count, .ok (bytesAt contents (asked past)
                  count)⟩ : Event ReadPort)] = count := by
                simp [asked, askedBytes]
              have hbytes : delivered [(⟨.read (asked past) count, .ok (bytesAt contents
                  (asked past) count)⟩ : Event ReadPort)] =
                  (contents.drop (asked past)).take count := by
                simp [delivered, deliveredBytes, ReadAnswer.delivered, toList_bytesAt_of_le hend]
              rw [hown, hbytes, List.take_add]
              exact ⟨rfl, hend⟩

/-- A clean run inside a beginning of the slot was answered by the snapshot of it. -/
theorem agrees_take {σ : Type} {W : World ReadPort σ} {before after : σ}
    {program residual : Program ReadPort α} {sizeBytes : Nat}
    (hanswered : AnsweredFrom contents trace) (hclean : Clean trace)
    (huses : program.Uses (ReadsWithin sizeBytes))
    (hexec : Exec W program before trace residual after) :
    ∀ event ∈ trace, event.2 = snapshot (contents.take sizeBytes) event.1 := by
  intro event hevent
  have hwithin := huses.of_mem hexec event hevent
  have hfault := hclean.1 event hevent
  have hdigest := hclean.2 event hevent
  obtain ⟨call, answer⟩ := event
  cases call with
  | digest step => simpa [digestFault, snapshot] using hdigest
  | read offset count =>
      obtain ⟨-, -, hend⟩ := hwithin
      cases answer with
      | failed left => simp [readFault, ReadAnswer.succeeded] at hfault
      | ok bytes =>
          obtain ⟨hbound, rfl⟩ := hanswered offset count bytes hevent
          have hlength : offset + count ≤ (contents.take sizeBytes).length := by
            rw [List.length_take]
            exact Nat.le_min.mpr ⟨hend, hbound⟩
          have hbytes : bytesAt (contents.take sizeBytes) offset count =
              bytesAt contents offset count := by
            apply Bytes.ext
            rw [toList_bytesAt_of_le hlength, toList_bytesAt_of_le hbound, List.drop_take,
              List.take_take, Nat.min_eq_left (by omega)]
          simp only [snapshot, if_pos hlength, hbytes]

/-! ## What is let in -/

/-- What an admitted package has passed, under a policy and for a durable operation. -/
structure PackageAdmitted (crypto : Crypto) (policy : SlotValidation) (operation : Operation)
    (productId publicKey expectedKeyId package manifestBytes signature wasm : List UInt8)
    (manifest : Manifest) (info : Info) : Prop where
  accepted : Accepted crypto policy.maxWasmBytes publicKey expectedKeyId package manifestBytes
    signature wasm manifest
  reported : info = (verifiedPackage crypto package manifestBytes signature wasm manifest).info
  verifies : ((packageVerify crypto (.complete package.length policy.maxWasmBytes publicKey
    expectedKeyId) (some .zero)).eval (snapshot package)).result = .ok ()
  package_digest : crypto.sha256 package = operation.packageSha256
  guest_abi : manifest.guestAbiVersion = operation.guestAbiVersion
  data_schema : manifest.dataSchemaVersion = operation.dataSchemaVersion
  product : (manifestBytes.drop info.productIdOffsetBytes).take info.productIdSizeBytes = productId
  event_queue : manifest.eventQueueLimit ≤ policy.maxEventQueueLimit
  instruction_budget : manifest.instructionBudget ≤ policy.maxInstructionBudget
  host_call_timeout : manifest.hostCallTimeoutMs ≤ policy.maxHostCallTimeoutMs
  storage : manifest.storageLimitBytes ≤ policy.maxStorageLimitBytes
  checks : (packageWasmCheck crypto true (some info) (some policy.wasmAuthorization) true).eval
    (snapshot package) = .ok ()
  declared : manifest.requestedCapabilities &&& ~~~policy.wasmAuthorization.allowedCapabilities = 0
  memory : manifest.memoryLimitBytes ≤ policy.wasmAuthorization.maxMemoryBytes
  stack : manifest.stackLimitBytes ≤ policy.wasmAuthorization.maxStackBytes
  imported : ∃ sections imports, scanOver wasm (scanSections wasm.length) = .ok sections ∧
    scanOver wasm (scanImports sections) = .ok imports ∧
    imports.capabilities &&& ~~~policy.wasmAuthorization.allowedCapabilities = 0

variable {manifestBytes signature wasm package : List UInt8} {manifest : Manifest}

/-- The payload of an accepted package lies where it is reported to. -/
theorem Accepted.payloadAt {maxWasmBytes : Nat} {publicKey expectedKeyId : List UInt8}
    (haccepted : Accepted crypto maxWasmBytes publicKey expectedKeyId package manifestBytes
      signature wasm manifest) :
    PayloadAt package (wasmOffset manifestBytes signature) wasm := by
  obtain ⟨-, zeros, hlayout⟩ := haccepted.layout
  have hname : (ascii "app.wasm").length < 100 := by decide
  obtain ⟨before, hbefore, rest, hpackage⟩ : ∃ before : List UInt8,
      before.length = wasmOffset manifestBytes signature ∧
      ∃ rest, package = before ++ (wasm ++ rest) := by
    refine ⟨archiveMember (ascii "manifest.json") manifestBytes ++
      archiveMember (ascii "signature.bin") signature ++ memberHeader (ascii "app.wasm") wasm.length,
      ?_, List.replicate (paddingBytes wasm.length) 0 ++ List.replicate zeros 0, ?_⟩
    · rw [List.length_append, length_memberHeader hname, wasmOffset]
    · rw [hlayout]
      simp only [packageMembers, archiveMember, List.append_assoc]
  rw [hpackage]
  refine ⟨by simp only [List.length_append]; omega, ?_⟩
  rw [bytesAt_append_right hbefore.le, hbefore, Nat.sub_self, bytesAt_append_left (by simp),
    toList_bytesAt_of_le (by simp), List.drop_zero, List.take_length]

/-- The beginning of an overwritten buffer is what it was overwritten with. -/
theorem overwrite_part {n : Nat} {buffer : Bytes n} {bytes : List UInt8} (hfits : bytes.length ≤ n)
    {offset count : Nat} (hpart : offset + count ≤ bytes.length) :
    ((overwrite buffer bytes).toList.drop offset).take count = (bytes.drop offset).take count := by
  have hlength : 0 + n ≤ (bytes ++ buffer.toList.drop bytes.length).length := by
    rw [List.length_append, List.length_drop, Bytes.length_toList]
    omega
  rw [overwrite, toList_bytesAt_of_le hlength, List.drop_zero, List.drop_take, List.take_take,
    Nat.min_eq_left (by omega), List.drop_append_of_le_length (by omega),
    List.take_append_of_le_length (by rw [List.length_drop]; omega)]

/-- The product comparison looks at the reported slice of the manifest. -/
theorem product_slice {productId : List UInt8} {info : Info}
    (hsize : info.manifestSizeBytes = manifestBytes.length)
    (hfits : manifestBytes.length ≤ packageManifestMaxBytes) {signatureBuffer : Bytes _}
    (hmatches : productMatches productId ⟨overwrite (.zero _) manifestBytes, signatureBuffer⟩
      info = true) :
    (manifestBytes.drop info.productIdOffsetBytes).take info.productIdSizeBytes = productId := by
  simp only [productMatches, Bool.and_eq_true, beq_iff_eq, decide_eq_true_eq] at hmatches
  obtain ⟨⟨⟨hlength, hoffset⟩, hroom⟩, hbytes⟩ := hmatches
  rw [hsize] at hoffset hroom
  rw [overwrite_part hfits (by omega)] at hbytes
  rw [← hlength, hbytes]

/-- A candidate that admission lets in was verified, accepted and checked. -/
theorem admitCandidate_ok {σ : Type} {W : World ReadPort σ} {before after : σ}
    {policy : SlotValidation} {productId publicKey expectedKeyId : List UInt8}
    {operation : Operation} {packageSizeBytes : Nat} {outcome : SlotValidationOutcome}
    (hexec : Exec W (admitCandidate crypto policy productId publicKey expectedKeyId .zero operation
      packageSizeBytes) before trace (.ret outcome) after) (hresult : outcome.result = .ok) :
    ∃ verified verifyTrace wasmTrace middle, trace = verifyTrace ++ wasmTrace ∧
      Exec W (packageVerify crypto (.complete packageSizeBytes policy.maxWasmBytes publicKey
        expectedKeyId) (some .zero)) before verifyTrace (.ret verified) middle ∧
      verified.result = .ok () ∧ policy.accepts productId operation verified = true ∧
      Exec W (packageWasmCheck crypto true (some verified.info) (some policy.wasmAuthorization) true)
        middle wasmTrace (.ret (.ok ())) after ∧
      outcome = ⟨.ok, verified.workspace, some verified.info⟩ := by
  have huses : (packageVerify crypto (.complete packageSizeBytes policy.maxWasmBytes publicKey
      expectedKeyId) (some .zero)).Uses (ReadsWithin packageSizeBytes) :=
    (uses_packageVerify crypto (.complete packageSizeBytes policy.maxWasmBytes publicKey
      expectedKeyId) (some .zero)).mono fun _ hcall => hcall.within (Nat.zero_add _).le
  unfold admitCandidate at hexec
  rw [show (⟨true, packageSizeBytes, policy.maxWasmBytes, some publicKey, some expectedKeyId, true⟩ :
    VerifyArguments) = .complete packageSizeBytes policy.maxWasmBytes publicKey expectedKeyId from rfl,
    translate_readSlot huses] at hexec
  obtain ⟨verified, middle, verifyTrace, rest, rfl, hverify, hexec⟩ := hexec.of_bind
  cases hverified : verified.result with
  | error error =>
      simp only [hverified] at hexec
      cases hexec
      simp only at hresult
      split at hresult <;> cases hresult
  | ok value =>
      simp only [hverified] at hexec
      obtain ⟨result, last, wasmTrace, rest, rfl, hcheck, hexec⟩ := hexec.of_bind
      by_cases hok : (result == .ok) = true
      · rw [if_pos hok] at hexec
        cases hexec
        obtain rfl := beq_iff_eq.mp hok
        unfold checkAccepted at hcheck
        split at hcheck
        · next haccepts =>
          obtain ⟨-, -, hsize, -⟩ := ((safe_packageVerify crypto _ _).post_of_trace hverify).complete
            hverified
          have hwasm := (uses_packageWasmCheck crypto true verified.info
            (some policy.wasmAuthorization) true).mono fun _ hcall => hcall.2
          rw [show verified.info.packageSizeBytes = packageSizeBytes from hsize] at hwasm
          rw [translate_readSlot hwasm, ← bind_pure_comp] at hcheck
          obtain ⟨checked, _, wasmTrace, rest, rfl, hchecked, hcheck⟩ := hcheck.of_bind
          rcases checked with (_ | _ | _ | _) | _ <;> cases hcheck
          refine ⟨verified, verifyTrace, wasmTrace, middle, ?_, hverify, hverified, haccepts,
            hchecked, rfl⟩
          rw [List.append_nil, List.append_nil]
        · cases hcheck
      · rw [if_neg hok] at hexec
        cases hexec
        exact absurd (beq_iff_eq.mpr hresult) hok

/-- A candidate that admission turns away leaves nothing behind. -/
theorem admitCandidate_wiped {σ : Type} {W : World ReadPort σ} {before after : σ}
    {policy : SlotValidation} {productId publicKey expectedKeyId : List UInt8}
    {operation : Operation} {packageSizeBytes : Nat} {outcome : SlotValidationOutcome}
    (hexec : Exec W (admitCandidate crypto policy productId publicKey expectedKeyId .zero operation
      packageSizeBytes) before trace (.ret outcome) after) (hresult : outcome.result ≠ .ok) :
    outcome.workspace = some .zero ∧ outcome.verifiedInfo = some .zero := by
  have huses : (packageVerify crypto (.complete packageSizeBytes policy.maxWasmBytes publicKey
      expectedKeyId) (some .zero)).Uses (ReadsWithin packageSizeBytes) :=
    (uses_packageVerify crypto (.complete packageSizeBytes policy.maxWasmBytes publicKey
      expectedKeyId) (some .zero)).mono fun _ hcall => hcall.within (Nat.zero_add _).le
  unfold admitCandidate at hexec
  rw [show (⟨true, packageSizeBytes, policy.maxWasmBytes, some publicKey, some expectedKeyId, true⟩ :
    VerifyArguments) = .complete packageSizeBytes policy.maxWasmBytes publicKey expectedKeyId from rfl,
    translate_readSlot huses] at hexec
  obtain ⟨verified, middle, verifyTrace, rest, rfl, hverify, hexec⟩ := hexec.of_bind
  have hpost := (safe_packageVerify crypto _ _).post_of_trace hverify
  cases hverified : verified.result with
  | error error =>
      simp only [hverified] at hexec
      cases hexec
      exact ⟨(hpost.wiped error hverified).2.elim id id, rfl⟩
  | ok value =>
      simp only [hverified] at hexec
      obtain ⟨result, last, wasmTrace, rest, rfl, hcheck, hexec⟩ := hexec.of_bind
      split at hexec
      · cases hexec
        exact absurd rfl hresult
      · cases hexec
        exact ⟨rfl, rfl⟩

variable {policy : SlotValidation} {operation : Operation}
  {productId publicKey expectedKeyId : List UInt8} {packageSizeBytes : Nat}

/-- The arguments a verification that succeeded was given were not refused. -/
theorem not_refused_of_ok {σ : Type} {W : World ReadPort σ} {before after : σ}
    {maxWasmBytes : Nat} {buffers : Workspace} {verified : VerifyOutcome}
    (hexec : Exec W (packageVerify crypto (.complete packageSizeBytes maxWasmBytes publicKey
      expectedKeyId) (some buffers)) before trace (.ret verified) after)
    (hresult : verified.result = .ok ()) :
    (VerifyArguments.complete packageSizeBytes maxWasmBytes publicKey expectedKeyId).refused
      publicKey = false := by
  by_contra hrefused
  obtain ⟨-, houtcome⟩ := trace_of_refused (by simpa using hrefused) hexec
  rw [Program.ret.inj houtcome] at hresult
  cases hresult

/-- What both functions saw is the package in the slot. -/
theorem packageAdmitted_of_runs {σ : Type} {W : World ReadPort σ} {before middle after : σ}
    {verified : VerifyOutcome} {verifyTrace wasmTrace : ReadTrace}
    (hverify : Exec W (packageVerify crypto (.complete packageSizeBytes policy.maxWasmBytes publicKey
      expectedKeyId) (some .zero)) before verifyTrace (.ret verified) middle)
    (hresult : verified.result = .ok ()) (haccepts : policy.accepts productId operation verified = true)
    (hcheck : Exec W (packageWasmCheck crypto true (some verified.info)
      (some policy.wasmAuthorization) true) middle wasmTrace (.ret (.ok ())) after)
    (hanswered : AnsweredFrom contents (verifyTrace ++ wasmTrace)) :
    (contents.take packageSizeBytes).length = packageSizeBytes ∧
      ∃ manifestBytes signature wasm manifest, PackageAdmitted crypto policy operation productId
        publicKey expectedKeyId (contents.take packageSizeBytes) manifestBytes signature wasm
        manifest verified.info := by
  obtain ⟨hverifyAnswered, hwasmAnswered⟩ := answeredFrom_append.mp hanswered
  have hsafe := safe_packageVerify crypto (.complete packageSizeBytes policy.maxWasmBytes publicKey
    expectedKeyId) (some .zero)
  obtain ⟨hclean, hasked, -, -⟩ := (hsafe.post_of_trace hverify).complete hresult
  have hsize : asked verifyTrace = packageSizeBytes := hasked
  obtain ⟨hdelivered, hbound⟩ := delivered_eq_take hverifyAnswered hclean.1
    fun past offset count answer future htrace => by
      subst htrace
      exact (hsafe.promise_of_mem hverify).1
  rw [hsize] at hdelivered hbound
  have hlength : (contents.take packageSizeBytes).length = packageSizeBytes :=
    List.length_take_of_le hbound
  refine ⟨hlength, ?_⟩
  -- Verification was answered by the snapshot of what was delivered to it.
  have hverifyEval := hverify.eval_eq (hdelivered ▸ agrees_snapshot hsafe hverify hclean)
  have hrefused := not_refused_of_ok hverify hresult
  obtain ⟨manifestBytes, signature, wasm, manifest, haccepted, hverified⟩ :=
    (eval_packageVerify_eq_ok (hlength.symm ▸ hrefused)
      (by rw [hlength]; exact hverifyEval)).mp hresult
  have hinfo : verified.info = (verifiedPackage crypto (contents.take packageSizeBytes)
    manifestBytes signature wasm manifest).info := by rw [hverified]; rfl
  -- And the Wasm check by the same one.
  have huses := (uses_packageWasmCheck crypto true verified.info (some policy.wasmAuthorization)
    true).mono fun _ hcall => hcall.2
  have hwasmEval := hcheck.eval_eq (agrees_take hwasmAnswered (clean_of_wasmCheck hcheck) huses
    hcheck)
  have hinfoSize : verified.info.packageSizeBytes = packageSizeBytes := by
    rw [hinfo]
    exact hlength
  rw [hinfoSize] at hwasmEval
  have hpayload : PayloadAt (contents.take packageSizeBytes) verified.info.wasmOffsetBytes wasm := by
    rw [hinfo]
    exact haccepted.payloadAt
  have hwasmSize : wasm.length = verified.info.wasmSizeBytes := by
    rw [hinfo]
    rfl
  obtain ⟨-, -, hauthorized, ⟨sections, imports, exported, typeCount, definedCount, hmodule⟩, -⟩ :=
    (eval_packageWasmCheck_eq_ok hpayload hwasmSize).mp hwasmEval
  have hworkspace : verified.workspace = some ⟨overwrite (.zero _) manifestBytes,
      overwrite (.zero _) signature⟩ := by rw [hverified]; rfl
  simp only [SlotValidation.accepts, hworkspace, Option.any_some, Bool.and_eq_true, beq_iff_eq,
    decide_eq_true_eq] at haccepts
  obtain ⟨⟨⟨⟨⟨⟨⟨hdigest, habi⟩, hschema⟩, hproduct⟩, hqueue⟩, hbudget⟩, htimeout⟩, hstorage⟩ :=
    haccepts
  simp only [wasmAuthorized, Bool.not_eq_true', Bool.or_eq_false_iff, bne_eq_false_iff_eq,
    decide_eq_false_iff_not, gt_iff_lt] at hauthorized
  obtain ⟨⟨hdeclared, hmemory⟩, hstack⟩ := hauthorized
  rw [hinfo] at hdigest habi hschema hqueue hbudget htimeout hstorage hdeclared hmemory hstack
  have himported := and_not_eq_zero_trans hmodule.requested (hinfo ▸ hdeclared)
  refine ⟨manifestBytes, signature, wasm, manifest, ?_⟩
  exact
    { accepted := haccepted
      reported := hinfo
      verifies := by rw [hlength, hverifyEval]; exact hresult
      package_digest := hdigest
      guest_abi := habi
      data_schema := hschema
      product := product_slice (by rw [hinfo]; rfl) haccepted.manifest_le hproduct
      event_queue := hqueue
      instruction_budget := hbudget
      host_call_timeout := htimeout
      storage := hstorage
      checks := hwasmEval
      declared := hdeclared
      memory := UInt32.not_lt.mp hmemory
      stack := UInt32.not_lt.mp hstack
      imported := ⟨sections, imports, hmodule.sections_eq, hmodule.imports_eq, himported⟩ }

/-! ## Candidate admission -/

/-- Candidate admission is sound and leaves nothing behind on refusal. For every policy,
durable operation, package size and read callback that answers from one slot, with
SHA-256 and RSA-PSS verification given: OK is only returned for a package of the
operation's size that verification accepts, that is what the operation and the policy
ask for, and that the Wasm check accepts. On every other return the verified info and
the workspace's manifest and signature are zero. -/
theorem admission_sound (crypto : Crypto) (validation : Option SlotValidation)
    (workspace : Option Workspace) (operation : Option Operation) (hasReadFn : Bool)
    (packageSizeBytes : Nat) (contents : List UInt8) :
    ∀ (σ : Type) (W : World ReadPort σ) before trace outcome after,
      Exec W (packageSlotValidate crypto validation workspace operation hasReadFn packageSizeBytes)
        before trace (.ret outcome) after →
      AnsweredFrom contents trace →
      (outcome.result = .ok → ∃ policy durable productId publicKey expectedKeyId package manifestBytes
          signature wasm manifest info,
        validation = some policy ∧ operation = some durable ∧
        policy.expectedProductId = some productId ∧ policy.publicKey = some publicKey ∧
        policy.expectedKeyId = some expectedKeyId ∧
        package = contents.take packageSizeBytes ∧ package.length = packageSizeBytes ∧
        packageSizeBytes = durable.packageSizeBytes.toNat ∧
        PackageAdmitted crypto policy durable productId publicKey expectedKeyId package manifestBytes
          signature wasm manifest info ∧
        outcome.verifiedInfo = some info) ∧
      (outcome.result ≠ .ok → ∀ policy, validation = some policy → policy.hasVerifiedInfo = true →
        outcome.verifiedInfo = some .zero ∧ outcome.workspace = workspace.map fun _ => .zero) := by
  intro σ W before trace outcome after hexec hanswered
  unfold packageSlotValidate at hexec
  split at hexec
  · cases hexec
    exact ⟨nofun, nofun⟩
  · next policy =>
    split at hexec
    · next hinfo =>
      cases hexec
      refine ⟨nofun, ?_⟩
      rintro - _ ⟨⟩ hpresent
      simp [hpresent] at hinfo
    simp only at hexec
    split at hexec
    · next productId publicKey expectedKeyId buffers durable hproduct hkey hid hbuffers =>
      obtain ⟨given, rfl, rfl⟩ := Option.map_eq_some_iff.mp hbuffers
      split at hexec
      · cases hexec
        exact ⟨nofun, fun _ _ _ _ => ⟨rfl, rfl⟩⟩
      next hrefused =>
      constructor
      · intro hresult
        obtain ⟨verified, verifyTrace, wasmTrace, middle, rfl, hverify, hverified, haccepts, hcheck,
          rfl⟩ := admitCandidate_ok hexec hresult
        obtain ⟨hlength, manifestBytes, signature, wasm, manifest, hadmitted⟩ :=
          packageAdmitted_of_runs hverify hverified haccepts hcheck hanswered
        have hsize : packageSizeBytes = durable.packageSizeBytes.toNat := by
          simp only [SlotValidation.refused, Bool.or_eq_true, bne_iff_ne, not_or, not_not]
            at hrefused
          exact hrefused.2
        exact ⟨policy, durable, productId, publicKey, expectedKeyId, _, manifestBytes, signature, wasm,
          manifest, verified.info, rfl, rfl, hproduct, hkey, hid, rfl, hlength, hsize, hadmitted, rfl⟩
      · intro hresult _ _ _
        obtain ⟨hworkspace, hinfo⟩ := admitCandidate_wiped hexec hresult
        exact ⟨hinfo, hworkspace⟩
    · cases hexec
      exact ⟨nofun, fun _ _ _ _ => ⟨rfl, rfl⟩⟩

/-- A policy for a product and a key of one letter each. -/
def samplePolicy : SlotValidation where
  expectedProductId := some [97]
  publicKey := some [1]
  expectedKeyId := some [98]
  maxWasmBytes := 8
  wasmAuthorization := ⟨0, 65536, 1⟩
  maxEventQueueLimit := 1
  maxInstructionBudget := 1
  maxHostCallTimeoutMs := 1
  maxStorageLimitBytes := 0
  hasWasmWorkspace := true
  hasVerifiedInfo := true

/-- An operation about a package of one record. -/
def sampleOperation : Operation := ⟨.zero _, .zero _, .zero _, 0, 10240, 1, 1, .zero _⟩

/-- A slot that cannot be read. -/
theorem admission_sound_unreadable :
    ∃ trace outcome, Exec (World.free ReadPort)
        (packageSlotValidate constantCrypto (some samplePolicy) (some .zero) (some sampleOperation)
          true 10240) () trace (.ret outcome) () ∧
      outcome.result = .ioFailed ∧ outcome.verifiedInfo = some .zero ∧
      outcome.workspace = some .zero := by
  have hexec := Exec.of_eval answerUnreadable (packageSlotValidate constantCrypto (some samplePolicy)
    (some .zero) (some sampleOperation) true 10240)
  have hanswered : AnsweredFrom [] ((packageSlotValidate constantCrypto (some samplePolicy)
      (some .zero) (some sampleOperation) true 10240).calls answerUnreadable) := by
    intro offset count bytes hevent
    have hanswer := Program.mem_calls answerUnreadable _ _ hevent
    cases hanswer
  have hresult : ((packageSlotValidate constantCrypto (some samplePolicy) (some .zero)
      (some sampleOperation) true 10240).eval answerUnreadable).result = .ioFailed := by
    rfl
  obtain ⟨hinfo, hworkspace⟩ := (admission_sound constantCrypto (some samplePolicy) (some .zero)
    (some sampleOperation) true 10240 [] Unit _ _ _ _ _ hexec hanswered).2 (by simp [hresult]) _ rfl
    rfl
  exact ⟨_, _, hexec, hresult, hinfo, hworkspace⟩

end Package
