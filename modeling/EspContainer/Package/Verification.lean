/-
# What package verification guarantees

The read callback is arbitrary: it may keep state, fail, and answer the same
range differently each time. Because verification reads every byte once and in
order, the bytes it saw form a package of their own, the concatenation of the
chunks that came back, and it accepts exactly if that package is a canonical one
under the key. Whatever else it returns, it leaves nothing in its outputs.
-/

import EspContainer.Package.Acceptance

namespace Package

open Binary Interaction

variable {crypto : Crypto} {arguments : VerifyArguments} {workspace : Option Workspace}

/-! ## One run -/

/-- What a finished run of verification says about its own history: success means
that every call succeeded, the whole package was read and the payload is a part of
it, an error says whether a read failed, and anything but success clears the
outputs. -/
structure VerifyPost (arguments : VerifyArguments) (workspace : Option Workspace)
    (trace : ReadTrace) (outcome : VerifyOutcome) : Prop where
  complete : outcome.result = .ok () → Clean trace ∧ asked trace = arguments.packageSizeBytes ∧
    outcome.info.packageSizeBytes = arguments.packageSizeBytes ∧
    outcome.info.wasmOffsetBytes + outcome.info.wasmSizeBytes ≤ arguments.packageSizeBytes
  verdict : ∀ error, outcome.result = .error error → FaultVerdict trace error
  wiped : ∀ error, outcome.result = .error error →
    outcome.info = .zero ∧ (outcome.workspace = workspace ∨ outcome.workspace = some .zero)

/-- A refusal before anything was read. -/
theorem verifyPost_refused {trace : ReadTrace} (hclean : FaultFree trace) :
    VerifyPost arguments workspace trace ⟨.error .invalid, workspace, .zero⟩ where
  complete := nofun
  verdict error herror := by
    obtain rfl := Except.error.inj herror
    exact faultVerdict_of_faultFree hclean (by decide)
  wiped _ _ := ⟨rfl, .inl rfl⟩

/-- Verification reads in order, and its result is true to its history. -/
theorem safe_packageVerify (crypto : Crypto) (arguments : VerifyArguments)
    (workspace : Option Workspace) :
    (packageVerify crypto arguments workspace).Safe (World.history ReadPort)
      (ReadsOn arguments.packageSizeBytes) (VerifyPost arguments workspace) [] := by
  unfold packageVerify
  split
  · next publicKey expectedKeyId buffers hkey hid =>
    split
    · exact verifyPost_refused faultFree_nil
    · rw [Program.safe_bind, Program.call, Program.safe_ask_history]
      refine ⟨trivial, fun answer => ?_⟩
      cases answer with
      | false => exact verifyPost_refused (faultFree_singleton.mpr rfl)
      | true =>
          have hstarted : Clean [(⟨.digest .start, true⟩ : Event ReadPort)] :=
            clean_singleton.mpr ⟨rfl, rfl⟩
          rw [Program.safe_ret]
          change (_ <$> _ : Program ReadPort _).Safe _ _ _ _
          rw [← bind_pure_comp, Program.safe_bind]
          refine Program.Safe.imp (safe_verifyStream crypto arguments.maxWasmBytes publicKey
            expectedKeyId hstarted rfl) fun trace verified hverified => ?_
          cases verified with
          | error error =>
              exact
                { complete := nofun
                  verdict := fun _ herror => Except.error.inj herror ▸ hverified
                  wiped := fun _ _ => ⟨rfl, .inr rfl⟩ }
          | ok verified =>
              exact
                { complete := fun _ => hverified
                  verdict := nofun
                  wiped := nofun }
  · exact verifyPost_refused faultFree_nil

/-- A run whose calls all succeeded was answered by the snapshot of what it read. -/
theorem agrees_snapshot {α σ : Type} {W : World ReadPort σ} {sizeBytes : Nat}
    {program residual : Program ReadPort α} {post : ReadTrace → α → Prop} {before after : σ}
    {trace : ReadTrace}
    (hsafe : program.Safe (World.history ReadPort) (ReadsOn sizeBytes) post [])
    (hexec : Exec W program before trace residual after) (hclean : Clean trace) :
    ∀ event ∈ trace, event.2 = snapshot (delivered trace) event.1 := by
  intro event hevent
  have hfault := hclean.1 event hevent
  have hdigest := hclean.2 event hevent
  obtain ⟨past, future, rfl⟩ := List.append_of_mem hevent
  have hreads := hsafe.promise_of_mem hexec
  obtain ⟨call, answer⟩ := event
  cases call with
  | digest step => simpa [digestFault, snapshot] using hdigest
  | read offset count =>
      obtain ⟨rfl, -, -, -, hpast⟩ := hreads
      cases answer with
      | failed left => cases hfault
      | ok bytes =>
          have hdelivered : delivered (past ++ ⟨.read (asked past) count, .ok bytes⟩ :: future) =
              delivered past ++ (bytes.toList ++ delivered future) := by
            simp [delivered, deliveredBytes, ReadAnswer.delivered]
          have hbytes : bytesAt (delivered past ++ (bytes.toList ++ delivered future))
              (asked past) count = bytes := by
            rw [← hpast.length_delivered, bytesAt_append_right le_rfl, Nat.sub_self,
              bytesAt_append_left (by simp), bytesAt_toList]
          rw [hdelivered]
          simp only [snapshot]
          rw [if_pos (by simp [hpast.length_delivered]), hbytes]

/-! ## What is accepted -/

/-- The arguments of a call without null pointers. -/
def VerifyArguments.complete (packageSizeBytes maxWasmBytes : Nat)
    (publicKey expectedKeyId : List UInt8) : VerifyArguments :=
  ⟨true, packageSizeBytes, maxWasmBytes, some publicKey, some expectedKeyId, true⟩

variable {packageSizeBytes maxWasmBytes : Nat} {publicKey expectedKeyId package : List UInt8}
  {buffers : Workspace}

theorem refused_complete (hmin : 8 ≤ maxWasmBytes) (hmax : maxWasmBytes ≤ packageWasmMaxBytes)
    (hkey : 1 ≤ publicKey.length ∧ publicKey.length ≤ 1024) :
    (VerifyArguments.complete packageSizeBytes maxWasmBytes publicKey expectedKeyId).refused
        publicKey = false ↔
      tarBlockBytes ∣ packageSizeBytes ∧ packageSizeBytes ≤ maxWasmBytes + 12288 := by
  simp only [VerifyArguments.complete, VerifyArguments.refused]
  simp [Nat.dvd_iff_mod_eq_zero, hkey, Nat.not_lt.mpr hmin, hmax,
    List.ne_nil_of_length_pos hkey.1, Nat.add_assoc]

/-- The program of a call without null pointers. -/
theorem packageVerify_complete (crypto : Crypto) (packageSizeBytes maxWasmBytes : Nat)
    (publicKey expectedKeyId : List UInt8) (buffers : Workspace) :
    packageVerify crypto (.complete packageSizeBytes maxWasmBytes publicKey expectedKeyId)
        (some buffers) =
      if (VerifyArguments.complete packageSizeBytes maxWasmBytes publicKey expectedKeyId).refused
          publicKey then
        pure ⟨.error .invalid, some buffers, .zero⟩
      else
        Program.call (I := ReadPort) (.digest .start) >>= fun started =>
          if !started then pure ⟨.error .invalid, some buffers, .zero⟩
          else
            verifyOutcome buffers <$> (verifyStream crypto packageSizeBytes maxWasmBytes publicKey
              expectedKeyId).run := rfl

theorem eval_packageVerify
    (hrefused : (VerifyArguments.complete packageSizeBytes maxWasmBytes publicKey
      expectedKeyId).refused publicKey = false) :
    (packageVerify crypto (.complete packageSizeBytes maxWasmBytes publicKey expectedKeyId)
        (some buffers)).eval (snapshot package) =
      verifyOutcome buffers (Fallible.eval (snapshot package)
        (verifyStream crypto packageSizeBytes maxWasmBytes publicKey expectedKeyId)) := by
  rw [packageVerify_complete, hrefused, if_neg Bool.false_ne_true, Program.eval_bind,
    Program.eval_call, ← bind_pure_comp]
  exact Program.eval_bind _ _ _

/-- Verification of a snapshot of the right size accepts exactly the accepted packages,
and reports what they contain. -/
theorem eval_packageVerify_eq_ok
    (hrefused : (VerifyArguments.complete package.length maxWasmBytes publicKey
      expectedKeyId).refused publicKey = false) {outcome : VerifyOutcome}
    (houtcome : (packageVerify crypto
      (.complete package.length maxWasmBytes publicKey expectedKeyId) (some buffers)).eval
        (snapshot package) = outcome) :
    outcome.result = .ok () ↔ ∃ manifestBytes signature wasm manifest,
      Accepted crypto maxWasmBytes publicKey expectedKeyId package manifestBytes signature wasm
        manifest ∧
      outcome = verifyOutcome buffers
        (.ok (verifiedPackage crypto package manifestBytes signature wasm manifest)) := by
  rw [eval_packageVerify hrefused] at houtcome
  subst houtcome
  constructor
  · intro hresult
    cases hverified : Fallible.eval (snapshot package)
      (verifyStream crypto package.length maxWasmBytes publicKey expectedKeyId) with
    | error error =>
        rw [hverified] at hresult
        cases hresult
    | ok verified =>
        obtain ⟨manifestBytes, signature, wasm, manifest, haccepted, rfl⟩ :=
          verifyStream_eq_ok.mp hverified
        exact ⟨manifestBytes, signature, wasm, manifest, haccepted, rfl⟩
  · rintro ⟨manifestBytes, signature, wasm, manifest, -, houtcome⟩
    rw [houtcome]
    rfl

/-- Verification of a snapshot succeeds exactly if the archive checks do and the contents of
the three members are accepted. -/
theorem packageVerify_archive (crypto : Crypto) (publicKey expectedKeyId : List UInt8)
    (buffers : Workspace) (hmin : 8 ≤ maxWasmBytes) (hmax : maxWasmBytes ≤ packageWasmMaxBytes)
    (hkey : 1 ≤ publicKey.length ∧ publicKey.length ≤ 1024) (package : List UInt8)
    {outcome : VerifyOutcome}
    (houtcome : (packageVerify crypto
      (.complete package.length maxWasmBytes publicKey expectedKeyId) (some buffers)).eval
        (snapshot package) = outcome) :
    outcome.result = .ok () ↔ ∃ manifestBytes signature wasm manifest,
      archiveMembers package maxWasmBytes = .ok (manifestBytes, signature, wasm) ∧
      parseManifest manifestBytes expectedKeyId maxWasmBytes = some manifest ∧
      signatureVerify crypto publicKey manifestBytes signature = true ∧ wasmHeader <+: wasm ∧
      wasm.length = manifest.wasmSizeBytes.toNat ∧ crypto.sha256 wasm = manifest.wasmSha256 ∧
      outcome = verifyOutcome buffers
        (.ok (verifiedPackage crypto package manifestBytes signature wasm manifest)) := by
  cases hrefused : (VerifyArguments.complete package.length maxWasmBytes publicKey
      expectedKeyId).refused publicKey with
  | true =>
      rw [packageVerify_complete, hrefused, if_pos rfl] at houtcome
      subst houtcome
      constructor
      · intro hresult
        cases hresult
      · rintro ⟨manifestBytes, signature, wasm, manifest, harchive, -⟩
        obtain ⟨harchive, hbound⟩ := (archiveMembers_eq_ok hmax).mp harchive
        rw [(refused_complete hmin hmax hkey).mpr ⟨harchive.layout.blocks, hbound⟩] at hrefused
        cases hrefused
  | false =>
      obtain ⟨-, hbound⟩ := (refused_complete hmin hmax hkey).mp hrefused
      rw [eval_packageVerify_eq_ok hrefused houtcome]
      simp only [accepted_iff, archiveMembers_eq_ok hmax, hbound, and_true, and_assoc]

/-- Refused arguments are answered without a call. -/
theorem trace_of_refused
    (hrefused : (VerifyArguments.complete packageSizeBytes maxWasmBytes publicKey
      expectedKeyId).refused publicKey = true) {σ : Type} {W : World ReadPort σ} {before after : σ}
    {trace : ReadTrace} {residual : Program ReadPort VerifyOutcome}
    (hexec : Exec W (packageVerify crypto
      (.complete packageSizeBytes maxWasmBytes publicKey expectedKeyId) (some buffers))
      before trace residual after) :
    trace = [] ∧ residual = .ret ⟨.error .invalid, some buffers, .zero⟩ := by
  rw [packageVerify_complete, hrefused, if_pos rfl] at hexec
  cases hexec
  exact ⟨rfl, rfl⟩

/-- Streaming verification equals its declarative meaning, for a read callback that may
keep state and answer the same range differently each time. Reads are contiguous and
increasing from offset 0, each of 1 to 512 bytes inside the package; and while the
digests work, the result is OK exactly if every read succeeds and the bytes returned
cover the whole package and are a canonical package under the key. -/
theorem verification_exact (crypto : Crypto) (packageSizeBytes maxWasmBytes : Nat)
    (publicKey expectedKeyId : List UInt8) (buffers : Workspace) (hmin : 8 ≤ maxWasmBytes)
    (hmax : maxWasmBytes ≤ packageWasmMaxBytes)
    (hkey : 1 ≤ publicKey.length ∧ publicKey.length ≤ 1024) :
    ∀ (σ : Type) (W : World ReadPort σ) before trace residual after,
      Exec W (packageVerify crypto
        (.complete packageSizeBytes maxWasmBytes publicKey expectedKeyId) (some buffers))
        before trace residual after →
      (∀ past offset count answer future, trace = past ++ ⟨.read offset count, answer⟩ :: future →
        offset = asked past ∧ 1 ≤ count ∧ count ≤ 512 ∧ offset + count ≤ packageSizeBytes) ∧
      (∀ outcome, residual = .ret outcome → (∀ event ∈ trace, digestFault event = false) →
        (outcome.result = .ok () ↔
          FaultFree trace ∧ (delivered trace).length = packageSizeBytes ∧
          (delivered trace).length ≤ maxWasmBytes + 12288 ∧
          ∃ manifestBytes signature wasm manifest, Accepted crypto maxWasmBytes publicKey
            expectedKeyId (delivered trace) manifestBytes signature wasm manifest)) := by
  intro σ W before trace residual after hexec
  have hsafe := safe_packageVerify crypto
    (.complete packageSizeBytes maxWasmBytes publicKey expectedKeyId) (some buffers)
  constructor
  · rintro past offset count answer future rfl
    obtain ⟨hoffset, hpos, hblock, hbound, -⟩ := hsafe.promise_of_mem hexec
    exact ⟨hoffset, hpos, hblock, hbound⟩
  · rintro outcome rfl hdigests
    have hpost := hsafe.post_of_trace hexec
    have hagrees (hclean : FaultFree trace) := agrees_snapshot hsafe hexec ⟨hclean, hdigests⟩
    cases hrefused : (VerifyArguments.complete packageSizeBytes maxWasmBytes publicKey
        expectedKeyId).refused publicKey with
    | true =>
        obtain ⟨rfl, houtcome⟩ := trace_of_refused hrefused hexec
        obtain rfl := Program.ret.inj houtcome
        constructor
        · intro hresult
          cases hresult
        · rintro ⟨-, hlength, hbound, _, _, _, _, haccepted⟩
          have hblocks := haccepted.layout.blocks
          rw [hlength] at hblocks hbound
          rw [(refused_complete hmin hmax hkey).mpr ⟨hblocks, hbound⟩] at hrefused
          cases hrefused
    | false =>
        obtain ⟨-, hbound⟩ := (refused_complete hmin hmax hkey).mp hrefused
        constructor
        · intro hresult
          obtain ⟨hclean, hasked, -⟩ := hpost.complete hresult
          obtain rfl : (delivered trace).length = packageSizeBytes :=
            hclean.1.length_delivered.trans hasked
          obtain ⟨manifestBytes, signature, wasm, manifest, haccepted, -⟩ :=
            (eval_packageVerify_eq_ok hrefused (hexec.eval_eq (hagrees hclean.1))).mp hresult
          exact ⟨hclean.1, rfl, hbound, manifestBytes, signature, wasm, manifest, haccepted⟩
        · rintro ⟨hfault, rfl, -, manifestBytes, signature, wasm, manifest, haccepted⟩
          have heval := hexec.eval_eq (hagrees hfault)
          rw [eval_packageVerify hrefused, verifyStream_eq_ok.mpr
            ⟨manifestBytes, signature, wasm, manifest, haccepted, rfl⟩] at heval
          rw [← heval]
          rfl

/-- A package store whose reads all fail. -/
def answerUnreadable : (request : ReadPort.Call) → ReadPort.Answer request
  | .read _ _ => .failed none
  | .digest _ => true

/-- An unreadable package of 10240 bytes under a bound of 8 and a key of one byte. -/
theorem verification_exact_unreadable :
    ∃ trace outcome, Exec (World.free ReadPort)
        (packageVerify constantCrypto (.complete 10240 8 [1] []) (some Workspace.zero)) () trace
        (.ret outcome) () ∧
      trace = [⟨.digest .start, true⟩, ⟨.read 0 512, ReadAnswer.failed none⟩] ∧
      outcome.result ≠ .ok () := by
  have hexec := Exec.of_eval answerUnreadable
    (packageVerify constantCrypto (.complete 10240 8 [1] []) (some Workspace.zero))
  have htrace : (packageVerify constantCrypto (.complete 10240 8 [1] [])
      (some Workspace.zero)).calls answerUnreadable =
        [⟨.digest .start, true⟩, ⟨.read 0 512, ReadAnswer.failed none⟩] := rfl
  rw [htrace] at hexec
  refine ⟨_, _, hexec, rfl, fun hok => ?_⟩
  have hexact := (verification_exact constantCrypto 10240 8 [1] [] Workspace.zero (by decide)
    (by decide) (by decide) Unit _ _ _ _ _ hexec).2 _ rfl (by simp [digestFault])
  obtain ⟨hfree, -⟩ := hexact.mp hok
  have hread := hfree _ (List.mem_cons_of_mem _ List.mem_cons_self)
  simp [readFault, ReadAnswer.succeeded] at hread
end Package
