/-
# The manifests the device takes

The scanner takes the canonical texts of valid records under its key id and its bound on
the payload, the same texts with a comma behind the last capability, and no others. What
it extracts is what the record says.
-/

import EspContainer.Admission.ManifestNames

namespace Package

open Binary Text

/-! ## Members -/

/-- `"key":`. -/
def keyBytes (key : String) : List UInt8 := ascii "\"" ++ (ascii key ++ ascii "\":")

theorem recognizes_jsonIdentifierKey (key : String) :
    Recognizes (jsonIdentifierKey key) fun _ text _ _ => text = keyBytes key := by
  refine (Recognizes.literal_bind (Recognizes.literal_bind
    (Recognizes.literal (ascii "\":")))).congr fun start text rest value => ?_
  constructor
  · rintro ⟨_, rfl, _, rfl, rfl⟩
    rfl
  · rintro rfl
    exact ⟨_, rfl, _, rfl, rfl⟩

theorem recognizes_jsonIdentifierValue (key : String) :
    Recognizes (jsonIdentifierValue key) fun start text _ identifier =>
      text = keyBytes key ++ quotedName identifier.bytes ∧
        isIdentifier (identifier.bytes.map UInt8.toNat) = true ∧
        identifier.offsetBytes = start + (keyBytes key).length + 1 := by
  refine ((recognizes_jsonIdentifierKey key).bind fun _ =>
    recognizes_jsonIdentifier).congr fun start text rest identifier => ?_
  constructor
  · rintro ⟨_, _, _, rfl, rfl, rfl, hname, hoffset⟩
    exact ⟨rfl, hname, hoffset⟩
  · rintro ⟨rfl, hname, hoffset⟩
    exact ⟨_, _, (), rfl, rfl, rfl, hname, hoffset⟩

variable {β : Type}

/-- A number, a literal that ends it, and what follows. -/
def NumberThen (key : String) (allowZero : Bool) (check : UInt32 → Bool) (after : String)
    (next : UInt32 → Text.Language β) : Text.Language β := fun start text rest value =>
  ∃ number right,
    text = keyBytes key ++ (encoded (decimal number.toNat) ++ (ascii after ++ right)) ∧
      (allowZero = false → number ≠ 0) ∧ check number = true ∧
      next number (start + (keyBytes key).length + (decimal number.toNat).length +
        (ascii after).length) right rest value

theorem recognizes_numberThen {key : String} {allowZero : Bool} {check : UInt32 → Bool}
    {after : String} {following : UInt32 → JsonParser β} {next : UInt32 → Text.Language β}
    (hafter : ∀ rest, DigitsEnd (ascii after ++ rest))
    (hnext : ∀ number, Recognizes (following number) (next number)) :
    Recognizes (jsonNumberKey key allowZero >>= fun number => Parser.guard (check number) >>= fun _ =>
      jsonLiteral after >>= fun _ => following number) (NumberThen key allowZero check after next) := by
  refine (((recognizes_jsonIdentifierKey key).bind fun _ =>
    recognizes_jsonUint32 allowZero).bind fun number => (Recognizes.guard (check number)).bind fun _ =>
      Recognizes.literal_bind (hnext number)).congr fun start text rest value => ?_
  constructor
  · rintro ⟨_, _, number, rfl, ⟨_, _, _, rfl, rfl, rfl, -, hzero⟩, _, _, _, rfl, ⟨rfl, hcheck⟩,
      right, rfl, hright⟩
    refine ⟨number, right, by simp, hzero, hcheck, ?_⟩
    simpa [Nat.add_assoc] using hright
  · rintro ⟨number, right, rfl, hzero, hcheck, hright⟩
    refine ⟨keyBytes key ++ encoded (decimal number.toNat), ascii after ++ right, number, by simp,
      ⟨keyBytes key, _, (), rfl, rfl, rfl, ?_, hzero⟩, [], _, (), rfl, ⟨rfl, hcheck⟩, right, rfl, ?_⟩
    · rw [List.append_assoc]
      exact hafter _
    · simpa [Nat.add_assoc] using hright

/-- The same, when nothing else is asked of the number. -/
theorem recognizes_number {key : String} {allowZero : Bool} {after : String}
    {following : UInt32 → JsonParser β} {next : UInt32 → Text.Language β}
    (hafter : ∀ rest, DigitsEnd (ascii after ++ rest))
    (hnext : ∀ number, Recognizes (following number) (next number)) :
    Recognizes (jsonNumberKey key allowZero >>= fun number => jsonLiteral after >>= fun _ =>
      following number) (NumberThen key allowZero (fun _ => true) after next) := by
  have hread := @recognizes_numberThen β key allowZero (fun _ => true) after following next hafter hnext
  simpa only [Parser.guard, if_true, pure_bind] using hread

/-- An identifier that passes a check, a literal behind it, and what follows. -/
theorem recognizes_valueThen {key : String} {check : Identifier → Bool} {after : String}
    {following : Identifier → JsonParser β} {next : Identifier → Text.Language β}
    (hnext : ∀ identifier, Recognizes (following identifier) (next identifier)) :
    Recognizes (jsonIdentifierValue key >>= fun identifier => Parser.guard (check identifier) >>=
      fun _ => jsonLiteral after >>= fun _ => following identifier)
      fun start text rest value =>
        ∃ name right, text = keyBytes key ++ (quotedName name ++ (ascii after ++ right)) ∧
          isIdentifier (name.map UInt8.toNat) = true ∧
          check ⟨start + (keyBytes key).length + 1, name⟩ = true ∧
          next ⟨start + (keyBytes key).length + 1, name⟩ (start + (keyBytes key).length +
            (quotedName name).length + (ascii after).length) right rest value := by
  refine ((recognizes_jsonIdentifierValue key).bind fun identifier =>
    (Recognizes.guard (check identifier)).bind fun _ =>
      Recognizes.literal_bind (hnext identifier)).congr fun start text rest value => ?_
  constructor
  · rintro ⟨_, _, ⟨_, name⟩, rfl, ⟨rfl, hname, rfl⟩, _, _, _, rfl, ⟨rfl, hcheck⟩, right, rfl, hright⟩
    refine ⟨name, right, by simp, hname, hcheck, ?_⟩
    simpa [Nat.add_assoc] using hright
  · rintro ⟨name, right, rfl, hname, hcheck, hright⟩
    refine ⟨keyBytes key ++ quotedName name, ascii after ++ right, ⟨_, name⟩, by simp,
      ⟨rfl, hname, rfl⟩, [], _, (), rfl, ⟨rfl, hcheck⟩, right, rfl, ?_⟩
    simpa [Nat.add_assoc] using hright

/-- The same, when nothing else is asked of the identifier. -/
theorem recognizes_value {key : String} {after : String} {following : Identifier → JsonParser β}
    {next : Identifier → Text.Language β}
    (hnext : ∀ identifier, Recognizes (following identifier) (next identifier)) :
    Recognizes (jsonIdentifierValue key >>= fun identifier => jsonLiteral after >>= fun _ =>
      following identifier)
      fun start text rest value =>
        ∃ name right, text = keyBytes key ++ (quotedName name ++ (ascii after ++ right)) ∧
          isIdentifier (name.map UInt8.toNat) = true ∧
          next ⟨start + (keyBytes key).length + 1, name⟩ (start + (keyBytes key).length +
            (quotedName name).length + (ascii after).length) right rest value := by
  have hread := @recognizes_valueThen β key (fun _ => true) after following next hnext
  simpa only [Parser.guard, if_true, pure_bind, true_and] using hread

/-- The capability list, a literal, and what follows. -/
theorem recognizes_capsThen {after : String} {following : Capabilities → JsonParser β}
    {next : Capabilities → Text.Language β}
    (hnext : ∀ capabilities, Recognizes (following capabilities) (next capabilities)) :
    Recognizes (jsonCaps >>= fun capabilities => jsonLiteral after >>= fun _ =>
      following capabilities)
      fun start text rest value =>
        ∃ names capabilities right, text = keyBytes "required_capabilities" ++
            (ascii "[" ++ (names ++ (ascii after ++ right))) ∧
          NamesRead 16 none ⟨0, false⟩ names capabilities ∧
          next capabilities (start + (keyBytes "required_capabilities").length +
            (ascii "[").length + names.length + (ascii after).length) right rest value := by
  refine (((recognizes_jsonIdentifierKey "required_capabilities").bind fun _ =>
    Recognizes.literal_bind (recognizes_jsonCapsLoop 16 none ⟨0, false⟩)).bind fun capabilities =>
      Recognizes.literal_bind (hnext capabilities)).congr fun start text rest value => ?_
  constructor
  · rintro ⟨_, _, capabilities, rfl, ⟨_, _, _, rfl, rfl, names, rfl, hnames⟩, right, rfl, hright⟩
    refine ⟨names, capabilities, right, by simp, hnames, ?_⟩
    simpa [Nat.add_assoc] using hright
  · rintro ⟨names, capabilities, right, rfl, hnames, hright⟩
    refine ⟨keyBytes "required_capabilities" ++ (ascii "[" ++ names), ascii after ++ right,
      capabilities, by simp, ⟨_, _, (), rfl, rfl, names, rfl, hnames⟩, right, rfl, ?_⟩
    simpa [Nat.add_assoc] using hright

/-- The runtime profile, a literal, and what follows. -/
theorem recognizes_profileThen {after : String} {following : Bool → JsonParser β}
    {next : Bool → Text.Language β} (hnext : ∀ classic, Recognizes (following classic) (next classic)) :
    Recognizes (jsonRuntimeProfile >>= fun classic => jsonLiteral after >>= fun _ =>
      following classic)
      fun start text rest value =>
        ∃ profile right,
          text = keyBytes "runtime_profile" ++ (quotedName profile ++ (ascii after ++ right)) ∧
            isIdentifier (profile.map UInt8.toNat) = true ∧
            next (profile == ascii "wamr-classic-v1") (start + (keyBytes "runtime_profile").length +
              (quotedName profile).length + (ascii after).length) right rest value := by
  have hread := @recognizes_value β "runtime_profile" after
    (fun identifier => following (identifier.bytes == ascii "wamr-classic-v1"))
    (fun identifier => next (identifier.bytes == ascii "wamr-classic-v1"))
    fun identifier => hnext (identifier.bytes == ascii "wamr-classic-v1")
  simpa only [jsonRuntimeProfile, bind_assoc, pure_bind] using hread

/-- A key and a literal value behind it. -/
theorem recognizes_keyThen {key : String} {after : String} {following : JsonParser β}
    {next : Text.Language β} (hnext : Recognizes following next) :
    Recognizes (jsonIdentifierKey key >>= fun _ => jsonLiteral after >>= fun _ => following)
      fun start text rest value =>
        ∃ right, text = keyBytes key ++ (ascii after ++ right) ∧
          next (start + (keyBytes key).length + (ascii after).length) right rest value := by
  refine ((recognizes_jsonIdentifierKey key).bind fun _ =>
    Recognizes.literal_bind hnext).congr fun start text rest value => ?_
  constructor
  · rintro ⟨_, _, _, rfl, rfl, right, rfl, hright⟩
    exact ⟨right, rfl, hright⟩
  · rintro ⟨right, rfl, hright⟩
    exact ⟨_, _, (), rfl, rfl, right, rfl, hright⟩

/-- A digest under a key, a literal, and what follows. -/
theorem recognizes_digestThen {key : String} {after : String} {following : Sha256 → JsonParser β}
    {next : Sha256 → Text.Language β} (hnext : ∀ digest, Recognizes (following digest) (next digest)) :
    Recognizes (jsonIdentifierKey key >>= fun _ => jsonSha256 >>= fun digest =>
      jsonLiteral after >>= fun _ => following digest)
      fun start text rest value =>
        ∃ digest right, text = keyBytes key ++ (quotedName (encoded (hexText digest.toList)) ++
            (ascii after ++ right)) ∧
          next digest (start + (keyBytes key).length +
            (quotedName (encoded (hexText digest.toList))).length + (ascii after).length)
            right rest value := by
  refine ((recognizes_jsonIdentifierKey key).bind fun _ => recognizes_jsonSha256.bind fun digest =>
    Recognizes.literal_bind (hnext digest)).congr fun start text rest value => ?_
  constructor
  · rintro ⟨_, _, _, rfl, rfl, _, _, digest, rfl, rfl, right, rfl, hright⟩
    exact ⟨digest, right, rfl, hright⟩
  · rintro ⟨digest, right, rfl, hright⟩
    exact ⟨_, _, (), rfl, rfl, _, _, digest, rfl, rfl, right, rfl, hright⟩

theorem digitsEnd_ascii {after : String} (hafter : (ascii after).head?.any isDigit = false)
    (hnonempty : ascii after ≠ []) (rest : List UInt8) : DigitsEnd (ascii after ++ rest) := by
  obtain ⟨byte, bytes, hbytes⟩ := List.exists_cons_of_ne_nil hnonempty
  rw [hbytes] at hafter ⊢
  exact digitsEnd_cons.mpr hafter

/-! ## The whole text -/

theorem encoded_memberText (key : String) (value : List Nat) :
    encoded (Tools.memberText key value) = keyBytes key ++ encoded value := by
  have hcolon : ascii "\":" = ascii "\"" ++ ascii ":" := by decide
  simp only [Tools.memberText, Json.quoted, keyBytes, hcolon, ascii_eq_encoded, encoded_append,
    List.append_assoc]

theorem encoded_objectText_cons (text : List Nat) (texts : List (List Nat)) :
    encoded (Tools.objectText (text :: texts)) =
      ascii "\x7b" ++ (encoded (Json.commaed (text :: texts)) ++ ascii "\x7d") := by
  simp only [Tools.objectText, ascii_eq_encoded, encoded_append, List.append_assoc]

/-- What the scanner reads of a record, piece by piece. -/
def pieces (record : Tools.ManifestRecord) (comma : Bool) : List (List UInt8) :=
  [ascii "\x7b",
    keyBytes "data_schema_version", encoded (decimal record.dataSchemaVersion), ascii ",",
    keyBytes "guest_abi_version", encoded (decimal record.guestAbiVersion), ascii ",\"limits\":\x7b",
    keyBytes "event_queue_limit", encoded (decimal record.eventQueueLimit), ascii ",",
    keyBytes "host_call_timeout_ms", encoded (decimal record.hostCallTimeoutMs), ascii ",",
    keyBytes "instruction_budget", encoded (decimal record.instructionBudget), ascii ",",
    keyBytes "memory_limit_bytes", encoded (decimal record.memoryLimitBytes), ascii ",",
    keyBytes "stack_limit_bytes", encoded (decimal record.stackLimitBytes), ascii ",",
    keyBytes "storage_limit_bytes", encoded (decimal record.storageLimitBytes), ascii "\x7d,",
    keyBytes "package_format_version", encoded (decimal 1), ascii ",\"payload\":\x7b",
    keyBytes "path", ascii "\"app.wasm\",",
    keyBytes "sha256", quotedName (ascii record.payloadSha256), ascii ",",
    keyBytes "size_bytes", encoded (decimal record.payloadSizeBytes), ascii "\x7d,",
    keyBytes "product_id", quotedName (ascii record.productId), ascii ",",
    keyBytes "product_version", quotedName (ascii record.productVersion), ascii ",",
    keyBytes "required_capabilities", ascii "[",
    namesBehind (record.requiredCapabilities.map ascii) comma, ascii ",",
    keyBytes "runtime_profile", quotedName (ascii record.runtimeProfile),
    ascii ",\"signature_algorithm\":\"rsa-3072-pss-sha256\",",
    keyBytes "signing_key_id", quotedName (ascii record.signingKeyId), ascii "\x7d"]

/-! Longer literals of the scanner, in the parts that a record's text has. -/

theorem ascii_limits : ascii ",\"limits\":\x7b" = ascii "," ++ (keyBytes "limits" ++ ascii "\x7b") := by
  decide

theorem ascii_payload :
    ascii ",\"payload\":\x7b" = ascii "," ++ (keyBytes "payload" ++ ascii "\x7b") := by
  decide

theorem ascii_objectEnd : ascii "\x7d," = ascii "\x7d" ++ ascii "," := by
  decide

theorem ascii_path : ascii "\"app.wasm\"," = quotedName (ascii "app.wasm") ++ ascii "," := by
  decide

theorem ascii_algorithm : ascii ",\"signature_algorithm\":\"rsa-3072-pss-sha256\"," =
    ascii "," ++ (keyBytes "signature_algorithm" ++
      (quotedName (ascii "rsa-3072-pss-sha256") ++ ascii ",")) := by
  decide

theorem ascii_productId :
    ascii ",\"product_id\":\"" = ascii "," ++ (keyBytes "product_id" ++ ascii "\"") := by
  decide

theorem encoded_spelled (record : Tools.ManifestRecord) {comma : Bool}
    (hcomma : comma = true → record.requiredCapabilities ≠ []) :
    encoded (record.spelled comma) = (pieces record comma).flatten := by
  simp only [Tools.ManifestRecord.spelled, Tools.ManifestRecord.membersBefore,
    Tools.ManifestRecord.membersBehind, Tools.ManifestRecord.limitsText,
    Tools.ManifestRecord.payloadText, pieces, List.cons_append, List.nil_append,
    encoded_objectText_cons, encoded_commaed_cons, encoded_memberText, encoded_quoted,
    encoded_namesText hcomma, List.isEmpty_cons, List.isEmpty_nil, Bool.false_eq_true, if_false,
    if_true, List.flatten_cons, List.flatten_nil, List.append_assoc, List.append_nil, ascii_limits,
    ascii_payload, ascii_objectEnd, ascii_path, ascii_algorithm]

/-- What the scanner finds is what the record says. -/
structure ManifestFound (record : Tools.ManifestRecord) (manifest : Manifest) : Prop where
  wasmSize : manifest.wasmSizeBytes.toNat = record.payloadSizeBytes
  wasmDigest : hexText manifest.wasmSha256.toList = codes record.payloadSha256
  guestAbi : manifest.guestAbiVersion.toNat = record.guestAbiVersion
  dataSchema : manifest.dataSchemaVersion.toNat = record.dataSchemaVersion
  memory : manifest.memoryLimitBytes.toNat = record.memoryLimitBytes
  stack : manifest.stackLimitBytes.toNat = record.stackLimitBytes
  eventQueue : manifest.eventQueueLimit.toNat = record.eventQueueLimit
  instructionBudget : manifest.instructionBudget.toNat = record.instructionBudget
  hostCallTimeout : manifest.hostCallTimeoutMs.toNat = record.hostCallTimeoutMs
  storage : manifest.storageLimitBytes.toNat = record.storageLimitBytes
  productId : manifest.productId = ⟨record.productIdOffset, ascii record.productId⟩
  productVersion : manifest.productVersion = ⟨record.productVersionOffset, ascii record.productVersion⟩
  capabilities : manifest.requestedCapabilities = capabilityMask record.requiredCapabilities.toFinset
  unknown : manifest.hasUnknownCapability =
    !record.requiredCapabilities.all fun name => Tools.knownCapabilities.contains name
  profile : manifest.isClassicProfile = (record.runtimeProfile == "wamr-classic-v1")

/-- The product id is the piece behind the first 37, and its quote. -/
theorem productIdOffset_eq (record : Tools.ManifestRecord) (comma : Bool) :
    record.productIdOffset = ((pieces record comma).take 37).flatten.length + 1 := by
  rw [Tools.ManifestRecord.productIdOffset, ← length_encoded]
  simp only [Tools.ManifestRecord.membersBefore, Tools.ManifestRecord.limitsText,
    Tools.ManifestRecord.payloadText, pieces, encoded_append, encoded_objectText_cons,
    encoded_commaed_cons, encoded_memberText, encoded_quoted, List.isEmpty_cons, List.isEmpty_nil,
    Bool.false_eq_true, if_false, if_true, ← ascii_eq_encoded, List.append_nil, ascii_limits,
    ascii_payload, ascii_objectEnd, ascii_path, ascii_productId, List.take_succ_cons, List.take_zero,
    List.flatten_cons, List.flatten_nil, List.length_append, Nat.add_assoc]
  rfl

/-- The product version is the piece behind the first 40, and its quote. -/
theorem productVersionOffset_eq (record : Tools.ManifestRecord) (comma : Bool) :
    record.productVersionOffset = ((pieces record comma).take 40).flatten.length + 1 := by
  have htake : (pieces record comma).take 40 = (pieces record comma).take 37 ++
      [quotedName (ascii record.productId), ascii ",", keyBytes "product_version"] := rfl
  have hbetween : (codes "\",\"product_version\":\"").length =
      (ascii "\"").length + ((ascii ",").length + (keyBytes "product_version").length) + 1 := by
    decide
  have hproduct : (ascii record.productId).length = (codes record.productId).length := by
    rw [ascii_eq_encoded, length_encoded]
  rw [Tools.ManifestRecord.productVersionOffset, productIdOffset_eq record comma, htake,
    List.length_append, hbetween]
  simp only [List.flatten_append, List.flatten_cons, List.flatten_nil, List.append_nil,
    List.length_append, quotedName, hproduct]
  have hquote : (ascii "\"").length = 1 := rfl
  omega

/-! ## The scanner -/

variable {expectedKeyId : List UInt8} {maxWasmBytes : Nat}

/-- Nothing may be left behind the manifest. -/
theorem parseManifest_eq_some_iff {language : Text.Language Manifest}
    (hmanifest : Recognizes (jsonManifest expectedKeyId maxWasmBytes) language) {data : List UInt8}
    {manifest : Manifest} :
    parseManifest data expectedKeyId maxWasmBytes = some manifest ↔ language 0 data [] manifest := by
  rw [← hmanifest.complete, parseManifest]
  cases hread : jsonManifest expectedKeyId maxWasmBytes ⟨0, data⟩ with
  | none => simp
  | some found =>
      obtain ⟨value, ⟨position, rest⟩⟩ := found
      obtain ⟨text, rfl, rfl, -⟩ := (hmanifest ..).mp hread
      simp only [Option.ite_none_right_eq_some, beq_iff_eq, Option.some.injEq, Prod.mk.injEq,
        Cursor.mk.injEq, List.length_append, Nat.zero_add, Nat.left_eq_add, List.length_eq_zero_iff]
      constructor
      · rintro ⟨rfl, rfl⟩
        exact ⟨rfl, rfl, rfl⟩
      · rintro ⟨rfl, -, rfl⟩
        exact ⟨rfl, rfl⟩

/-- The last members: the profile and the key id. -/
theorem recognizes_signing (expectedKeyId : List UInt8) (make : Bool → β) :
    Recognizes
      (do
        let isClassicProfile ← jsonRuntimeProfile
        jsonLiteral ",\"signature_algorithm\":\"rsa-3072-pss-sha256\","
        let keyId ← jsonIdentifierValue "signing_key_id"
        Parser.guard (keyId.bytes == expectedKeyId)
        jsonLiteral "\x7d"
        pure (make isClassicProfile) : JsonParser β)
      fun _ text _ result =>
        ∃ profile, text = [keyBytes "runtime_profile", quotedName profile,
            ascii ",\"signature_algorithm\":\"rsa-3072-pss-sha256\",", keyBytes "signing_key_id",
            quotedName expectedKeyId, ascii "\x7d"].flatten ∧
          isIdentifier (profile.map UInt8.toNat) = true ∧
          isIdentifier (expectedKeyId.map UInt8.toNat) = true ∧
          result = make (profile == ascii "wamr-classic-v1") := by
  refine (recognizes_profileThen fun classic => recognizes_valueThen fun _ =>
    Recognizes.pure (make classic)).congr fun start text rest result => ?_
  constructor
  · rintro ⟨profile, _, rfl, hprofile, keyId, _, rfl, hkeyId, hkey, rfl, rfl⟩
    obtain rfl := beq_iff_eq.mp hkey
    exact ⟨profile, rfl, hprofile, hkeyId, rfl⟩
  · rintro ⟨profile, rfl, hprofile, hkeyId, rfl⟩
    exact ⟨profile, _, rfl, hprofile, expectedKeyId, [], rfl, hkeyId, beq_self_eq_true _, rfl, rfl⟩

/-- What the scanner reads behind the version of the format: the text, and what it keeps. -/
def PayloadRead (expectedKeyId : List UInt8) (maxWasmBytes : Nat)
    (make : Sha256 → UInt32 → Identifier → Identifier → Capabilities → Bool → β) : Text.Language β :=
  fun start text _ result =>
    ∃ (digest : Sha256) (size : UInt32) (productId productVersion : List UInt8)
      (names : List (List UInt8)) (comma : Bool) (profile : List UInt8),
      text = [keyBytes "path", ascii "\"app.wasm\",", keyBytes "sha256",
          quotedName (encoded (hexText digest.toList)), ascii ",", keyBytes "size_bytes",
          encoded (decimal size.toNat), ascii "\x7d,", keyBytes "product_id", quotedName productId,
          ascii ",", keyBytes "product_version", quotedName productVersion, ascii ",",
          keyBytes "required_capabilities", ascii "[", namesBehind names comma, ascii ",",
          keyBytes "runtime_profile", quotedName profile,
          ascii ",\"signature_algorithm\":\"rsa-3072-pss-sha256\",", keyBytes "signing_key_id",
          quotedName expectedKeyId, ascii "\x7d"].flatten ∧
        (8 ≤ size.toNat ∧ size.toNat ≤ maxWasmBytes) ∧
        isIdentifier (productId.map UInt8.toNat) = true ∧
        isIdentifier (productVersion.map UInt8.toNat) = true ∧
        (∀ name ∈ names, isIdentifier (name.map UInt8.toNat) = true) ∧
        names.IsChain (· < ·) ∧ (comma = true → names ≠ []) ∧ names.length + comma.toNat ≤ 16 ∧
        isIdentifier (profile.map UInt8.toNat) = true ∧
        isIdentifier (expectedKeyId.map UInt8.toNat) = true ∧
        result = make digest size
          ⟨start + [keyBytes "path", ascii "\"app.wasm\",", keyBytes "sha256",
            quotedName (encoded (hexText digest.toList)), ascii ",", keyBytes "size_bytes",
            encoded (decimal size.toNat), ascii "\x7d,", keyBytes "product_id"].flatten.length + 1,
            productId⟩
          ⟨start + [keyBytes "path", ascii "\"app.wasm\",", keyBytes "sha256",
            quotedName (encoded (hexText digest.toList)), ascii ",", keyBytes "size_bytes",
            encoded (decimal size.toNat), ascii "\x7d,", keyBytes "product_id", quotedName productId,
            ascii ",", keyBytes "product_version"].flatten.length + 1, productVersion⟩
          (names.foldl Capabilities.add ⟨0, false⟩) (profile == ascii "wamr-classic-v1")

theorem sizeChecked_iff {size : UInt32} :
    (8 ≤ size && decide (size.toNat ≤ maxWasmBytes)) = true ↔
      8 ≤ size.toNat ∧ size.toNat ≤ maxWasmBytes := by
  rw [Bool.and_eq_true, decide_eq_true_eq, decide_eq_true_eq, UInt32.le_iff_toNat_le]
  rfl

theorem recognizes_payload (expectedKeyId : List UInt8) (maxWasmBytes : Nat)
    (make : Sha256 → UInt32 → Identifier → Identifier → Capabilities → Bool → β) :
    Recognizes
      (do
        jsonIdentifierKey "path"
        jsonLiteral "\"app.wasm\","
        jsonIdentifierKey "sha256"
        let wasmSha256 ← jsonSha256
        jsonLiteral ","
        let wasmSizeBytes ← jsonNumberKey "size_bytes" false
        Parser.guard (8 ≤ wasmSizeBytes && wasmSizeBytes.toNat ≤ maxWasmBytes)
        jsonLiteral "\x7d,"
        let productId ← jsonIdentifierValue "product_id"
        jsonLiteral ","
        let productVersion ← jsonIdentifierValue "product_version"
        jsonLiteral ","
        let capabilities ← jsonCaps
        jsonLiteral ","
        let isClassicProfile ← jsonRuntimeProfile
        jsonLiteral ",\"signature_algorithm\":\"rsa-3072-pss-sha256\","
        let keyId ← jsonIdentifierValue "signing_key_id"
        Parser.guard (keyId.bytes == expectedKeyId)
        jsonLiteral "\x7d"
        pure (make wasmSha256 wasmSizeBytes productId productVersion capabilities isClassicProfile) :
          JsonParser β)
      (PayloadRead expectedKeyId maxWasmBytes make) := by
  refine (recognizes_keyThen <| recognizes_digestThen fun wasmSha256 =>
    recognizes_numberThen (digitsEnd_ascii (by decide) (by decide)) fun wasmSizeBytes =>
    recognizes_value fun productId => recognizes_value fun productVersion =>
    recognizes_capsThen fun capabilities => recognizes_signing expectedKeyId
      (make wasmSha256 wasmSizeBytes productId productVersion capabilities)).congr
      fun start text rest result => ?_
  constructor
  · rintro ⟨_, rfl, digest, _, rfl, size, _, rfl, -, hsize, productId, _, rfl, hproductId,
      productVersion, _, rfl, hproductVersion, _, capabilities, _, rfl,
      ⟨names, comma, rfl, hnames, hsorted, hcomma, hcount, -, rfl⟩, profile, rfl, hprofile, hkeyId,
      rfl⟩
    refine ⟨digest, size, productId, productVersion, names, comma, profile, rfl,
      sizeChecked_iff.mp hsize, hproductId, hproductVersion, hnames, hsorted, hcomma, hcount, hprofile,
      hkeyId, ?_⟩
    simp [Nat.add_assoc]
  · rintro ⟨digest, size, productId, productVersion, names, comma, profile, rfl, hsize, hproductId,
      hproductVersion, hnames, hsorted, hcomma, hcount, hprofile, hkeyId, rfl⟩
    refine ⟨_, rfl, digest, _, rfl, size, _, rfl, fun _ => ?_, sizeChecked_iff.mpr hsize, productId, _,
      rfl, hproductId, productVersion, _, rfl, hproductVersion, _, _, _, rfl,
      ⟨names, comma, rfl, hnames, hsorted, hcomma, hcount, by decide, rfl⟩, profile, rfl, hprofile,
      hkeyId, ?_⟩
    · rintro rfl
      exact absurd hsize.1 (by decide)
    · simp [Nat.add_assoc]

theorem pos_of_ne_zero {number : UInt32} (hnumber : false = false → number ≠ 0) :
    0 < number.toNat ∧ number.toNat ≤ uint32Max := by
  refine ⟨Nat.pos_of_ne_zero fun hzero => hnumber rfl ?_, Nat.le_of_lt_succ number.toNat_lt⟩
  exact UInt32.toNat_inj.mp hzero

theorem ne_zero_of_pos {number : UInt32} {value : Nat} (hnumber : number.toNat = value)
    (hvalue : 0 < value) : false = false → number ≠ 0 := by
  rintro - rfl
  exact absurd hnumber hvalue.ne

theorem hexDigit_spec : ∀ value < 16, hexDigit value < 256 ∧
    (isDecimalDigit (hexDigit value) || (97 ≤ hexDigit value && hexDigit value ≤ 102)) = true := by
  decide

/-- What `hexdigest` writes are hexadecimal digits. -/
theorem mem_hexText {octets : List UInt8} {code : Nat} (hcode : code ∈ hexText octets) :
    code < 256 ∧ (isDecimalDigit code || (97 ≤ code && code ≤ 102)) = true := by
  rw [hexText, List.mem_flatMap] at hcode
  obtain ⟨octet, -, hcode⟩ := hcode
  have hoctet := octet.toNat_lt
  rw [List.mem_cons, List.mem_singleton] at hcode
  rcases hcode with rfl | rfl
  · exact hexDigit_spec _ (by omega)
  · exact hexDigit_spec _ (by omega)

theorem isSha256_hexText (digest : Sha256) : Tools.isSha256 (hexText digest.toList) = true := by
  rw [Tools.isSha256, length_hexText, digest.length_toList, Bool.and_eq_true, List.all_eq_true]
  exact ⟨rfl, fun _ hcode => (mem_hexText hcode).2⟩

theorem codes_spelling_hexText (digest : Sha256) :
    codes (spelling (encoded (hexText digest.toList))) = hexText digest.toList := by
  rw [codes_spelling, toNat_encoded fun _ hcode => (mem_hexText hcode).1]

/-- Names in increasing order, as strings. -/
theorem pairwise_codes {names : List String}
    (hnames : ∀ name ∈ names, isIdentifier (codes name) = true) :
    (names.map codes).Pairwise (· < ·) ↔ (names.map ascii).IsChain (· < ·) := by
  rw [List.isChain_iff_pairwise, List.pairwise_map, List.pairwise_map]
  refine List.Pairwise.iff_of_mem fun hfirst hsecond => ?_
  rw [← toNat_ascii (hnames _ hfirst), ← toNat_ascii (hnames _ hsecond), toNat_lt_toNat]

theorem map_ascii_spelling (names : List (List UInt8)) : (names.map spelling).map ascii = names := by
  rw [List.map_map]
  conv_rhs => rw [← List.map_id names]
  exact List.map_congr_left fun name _ => ascii_spelling name

theorem isIdentifier_profile : isIdentifier (codes "wamr-classic-v1") = true := by
  decide +kernel

theorem profile_eq {profile : String} (hprofile : isIdentifier (codes profile) = true) :
    (ascii profile == ascii "wamr-classic-v1") = (profile == "wamr-classic-v1") := by
  rw [Bool.eq_iff_iff, beq_iff_eq, beq_iff_eq]
  exact ascii_inj hprofile isIdentifier_profile

theorem foldl_add_none {names : List String}
    (hnames : ∀ name ∈ names, isIdentifier (codes name) = true) :
    (names.map ascii).foldl Capabilities.add ⟨0, false⟩ =
      ⟨capabilityMask names.toFinset,
        !names.all fun name => Tools.knownCapabilities.contains name⟩ := by
  rw [foldl_add hnames, UInt32.zero_or, Bool.false_or]

theorem comma_le_iff {names : List String} {comma : Bool} :
    ((comma = true → names.map ascii ≠ []) ∧ (names.map ascii).length + comma.toNat ≤ 16) ↔
      names.length ≤ 16 ∧ (comma = true → 1 ≤ names.length ∧ names.length ≤ 15) := by
  cases comma with
  | false => simp
  | true =>
      rw [Bool.toNat_true, List.length_map, ← List.length_pos_iff, List.length_map]
      simp only [true_implies]
      omega

/-- The record that the scanner has read: what it keeps, and the texts it does not keep. -/
def scannedRecord (manifest : Manifest) (names : List (List UInt8)) (profile keyId : List UInt8) :
    Tools.ManifestRecord where
  dataSchemaVersion := manifest.dataSchemaVersion.toNat
  guestAbiVersion := manifest.guestAbiVersion.toNat
  eventQueueLimit := manifest.eventQueueLimit.toNat
  hostCallTimeoutMs := manifest.hostCallTimeoutMs.toNat
  instructionBudget := manifest.instructionBudget.toNat
  memoryLimitBytes := manifest.memoryLimitBytes.toNat
  stackLimitBytes := manifest.stackLimitBytes.toNat
  storageLimitBytes := manifest.storageLimitBytes.toNat
  payloadSha256 := spelling (encoded (hexText manifest.wasmSha256.toList))
  payloadSizeBytes := manifest.wasmSizeBytes.toNat
  productId := spelling manifest.productId.bytes
  productVersion := spelling manifest.productVersion.bytes
  requiredCapabilities := names.map spelling
  runtimeProfile := spelling profile
  signingKeyId := spelling keyId

/-- What the scanner has checked of what it keeps. -/
structure ManifestRead (maxWasmBytes : Nat) (names : List (List UInt8)) (comma : Bool)
    (profile keyId : List UInt8) (manifest : Manifest) : Prop where
  dataSchema : manifest.dataSchemaVersion ≠ 0
  guestAbi : manifest.guestAbiVersion ≠ 0
  eventQueue : manifest.eventQueueLimit ≠ 0
  hostCallTimeout : manifest.hostCallTimeoutMs ≠ 0
  instructionBudget : manifest.instructionBudget ≠ 0
  memory : manifest.memoryLimitBytes ≠ 0
  stack : manifest.stackLimitBytes ≠ 0
  size : 8 ≤ manifest.wasmSizeBytes.toNat ∧ manifest.wasmSizeBytes.toNat ≤ maxWasmBytes
  productId : isIdentifier (manifest.productId.bytes.map UInt8.toNat) = true
  productVersion : isIdentifier (manifest.productVersion.bytes.map UInt8.toNat) = true
  spelled : ∀ name ∈ names, isIdentifier (name.map UInt8.toNat) = true
  sorted : names.IsChain (· < ·)
  separated : comma = true → names ≠ []
  few : names.length + comma.toNat ≤ 16
  runtimeProfile : isIdentifier (profile.map UInt8.toNat) = true
  signingKeyId : isIdentifier (keyId.map UInt8.toNat) = true
  capabilities : (⟨manifest.requestedCapabilities, manifest.hasUnknownCapability⟩ : Capabilities) =
    names.foldl Capabilities.add ⟨0, false⟩
  classic : manifest.isClassicProfile = (profile == ascii "wamr-classic-v1")
  productIdAt : manifest.productId.offsetBytes =
    ((pieces (scannedRecord manifest names profile keyId) comma).take 37).flatten.length + 1
  productVersionAt : manifest.productVersion.offsetBytes =
    ((pieces (scannedRecord manifest names profile keyId) comma).take 40).flatten.length + 1

namespace ManifestRead

variable {names : List (List UInt8)} {comma : Bool} {profile keyId : List UInt8} {manifest : Manifest}

theorem isIdentifier_names (hread : ManifestRead maxWasmBytes names comma profile keyId manifest) :
    ∀ name ∈ names.map spelling, isIdentifier (codes name) = true := by
  rintro _ hmem
  obtain ⟨name, hname, rfl⟩ := List.mem_map.mp hmem
  rw [codes_spelling]
  exact hread.spelled name hname

/-- The record is one that the tools would have accepted. -/
theorem valid (hread : ManifestRead maxWasmBytes names comma profile keyId manifest) :
    (scannedRecord manifest names profile keyId).Valid where
  productId := by
    change isIdentifier (codes (spelling manifest.productId.bytes)) = true
    rw [codes_spelling]
    exact hread.productId
  productVersion := by
    change isIdentifier (codes (spelling manifest.productVersion.bytes)) = true
    rw [codes_spelling]
    exact hread.productVersion
  runtimeProfile := by
    change isIdentifier (codes (spelling profile)) = true
    rw [codes_spelling]
    exact hread.runtimeProfile
  signingKeyId := by
    change isIdentifier (codes (spelling keyId)) = true
    rw [codes_spelling]
    exact hread.signingKeyId
  guestAbi := pos_of_ne_zero fun _ => hread.guestAbi
  dataSchema := pos_of_ne_zero fun _ => hread.dataSchema
  names := hread.isIdentifier_names
  few := by
    change (names.map spelling).length ≤ 16
    rw [List.length_map]
    exact (Nat.le_add_right _ _).trans hread.few
  sorted := by
    change ((names.map spelling).map codes).Pairwise (· < ·)
    rw [pairwise_codes hread.isIdentifier_names, map_ascii_spelling]
    exact hread.sorted
  eventQueue := pos_of_ne_zero fun _ => hread.eventQueue
  hostCallTimeout := pos_of_ne_zero fun _ => hread.hostCallTimeout
  instructionBudget := pos_of_ne_zero fun _ => hread.instructionBudget
  memory := pos_of_ne_zero fun _ => hread.memory
  stack := pos_of_ne_zero fun _ => hread.stack
  storage := Nat.le_of_lt_succ manifest.storageLimitBytes.toNat_lt
  payloadSize := hread.size.1
  payloadDigest := by
    change Tools.isSha256 (codes (spelling (encoded (hexText manifest.wasmSha256.toList)))) = true
    rw [codes_spelling_hexText]
    exact isSha256_hexText manifest.wasmSha256

theorem found (hread : ManifestRead maxWasmBytes names comma profile keyId manifest) :
    ManifestFound (scannedRecord manifest names profile keyId) manifest where
  wasmSize := rfl
  wasmDigest := (codes_spelling_hexText manifest.wasmSha256).symm
  guestAbi := rfl
  dataSchema := rfl
  memory := rfl
  stack := rfl
  eventQueue := rfl
  instructionBudget := rfl
  hostCallTimeout := rfl
  storage := rfl
  productId := by
    rw [productIdOffset_eq _ comma, ← hread.productIdAt]
    exact congrArg (Identifier.mk _) (ascii_spelling manifest.productId.bytes).symm
  productVersion := by
    rw [productVersionOffset_eq _ comma, ← hread.productVersionAt]
    exact congrArg (Identifier.mk _) (ascii_spelling manifest.productVersion.bytes).symm
  capabilities := by
    have hcapabilities := hread.capabilities
    rw [← map_ascii_spelling names, foldl_add_none hread.isIdentifier_names] at hcapabilities
    exact congrArg Capabilities.requested hcapabilities
  unknown := by
    have hcapabilities := hread.capabilities
    rw [← map_ascii_spelling names, foldl_add_none hread.isIdentifier_names] at hcapabilities
    exact congrArg Capabilities.unknown hcapabilities
  profile := by
    rw [hread.classic, ← profile_eq hread.valid.runtimeProfile]
    exact congrArg (· == ascii "wamr-classic-v1") (ascii_spelling profile).symm

/-- The comma is where the scanner has a round left for it. -/
theorem mayHaveComma (hread : ManifestRead maxWasmBytes names comma profile keyId manifest) :
    (scannedRecord manifest names profile keyId).MayHaveComma comma := by
  have hcomma := hread.separated
  have hfew := hread.few
  rw [← map_ascii_spelling names] at hcomma hfew
  exact (comma_le_iff.mp ⟨hcomma, hfew⟩).2

end ManifestRead

/-- What is found determines the record. -/
theorem scannedRecord_of_found {record : Tools.ManifestRecord} {manifest : Manifest}
    (hvalid : record.Valid) (hfound : ManifestFound record manifest) :
    scannedRecord manifest (record.requiredCapabilities.map ascii) (ascii record.runtimeProfile)
      (ascii record.signingKeyId) = record := by
  have hspelling {text : String} (htext : isIdentifier (codes text) = true) :
      spelling (ascii text) = text := spelling_ascii (lt_of_mem_identifier htext)
  have hdigest : spelling (encoded (hexText manifest.wasmSha256.toList)) = record.payloadSha256 := by
    apply codes_injective
    rw [codes_spelling_hexText, hfound.wasmDigest]
  have hnames : (record.requiredCapabilities.map ascii).map spelling = record.requiredCapabilities := by
    rw [List.map_map]
    conv_rhs => rw [← List.map_id record.requiredCapabilities]
    exact List.map_congr_left fun name hname => hspelling (hvalid.names name hname)
  rw [scannedRecord, hfound.dataSchema, hfound.guestAbi, hfound.eventQueue, hfound.hostCallTimeout,
    hfound.instructionBudget, hfound.memory, hfound.stack, hfound.storage, hfound.wasmSize, hdigest,
    hfound.productId, hfound.productVersion, hspelling hvalid.productId,
    hspelling hvalid.productVersion, hnames, hspelling hvalid.runtimeProfile,
    hspelling hvalid.signingKeyId]

/-- What a valid record says is what the scanner wants. -/
theorem manifestRead_of_found {record : Tools.ManifestRecord} {comma : Bool} {manifest : Manifest}
    (hvalid : record.Valid) (hcomma : record.MayHaveComma comma)
    (hsize : record.payloadSizeBytes ≤ maxWasmBytes) (hfound : ManifestFound record manifest) :
    ManifestRead maxWasmBytes (record.requiredCapabilities.map ascii) comma
      (ascii record.runtimeProfile) (ascii record.signingKeyId) manifest where
  dataSchema := ne_zero_of_pos hfound.dataSchema hvalid.dataSchema.1 rfl
  guestAbi := ne_zero_of_pos hfound.guestAbi hvalid.guestAbi.1 rfl
  eventQueue := ne_zero_of_pos hfound.eventQueue hvalid.eventQueue.1 rfl
  hostCallTimeout := ne_zero_of_pos hfound.hostCallTimeout hvalid.hostCallTimeout.1 rfl
  instructionBudget := ne_zero_of_pos hfound.instructionBudget hvalid.instructionBudget.1 rfl
  memory := ne_zero_of_pos hfound.memory hvalid.memory.1 rfl
  stack := ne_zero_of_pos hfound.stack hvalid.stack.1 rfl
  size := by
    rw [hfound.wasmSize]
    exact ⟨hvalid.payloadSize, hsize⟩
  productId := by
    rw [hfound.productId, toNat_ascii hvalid.productId]
    exact hvalid.productId
  productVersion := by
    rw [hfound.productVersion, toNat_ascii hvalid.productVersion]
    exact hvalid.productVersion
  spelled := by
    rintro _ hmem
    obtain ⟨name, hname, rfl⟩ := List.mem_map.mp hmem
    rw [toNat_ascii (hvalid.names name hname)]
    exact hvalid.names name hname
  sorted := (pairwise_codes hvalid.names).mp hvalid.sorted
  separated := (comma_le_iff.mpr ⟨hvalid.few, hcomma⟩).1
  few := (comma_le_iff.mpr ⟨hvalid.few, hcomma⟩).2
  runtimeProfile := by
    rw [toNat_ascii hvalid.runtimeProfile]
    exact hvalid.runtimeProfile
  signingKeyId := by
    rw [toNat_ascii hvalid.signingKeyId]
    exact hvalid.signingKeyId
  capabilities := by
    rw [foldl_add_none hvalid.names, hfound.capabilities, hfound.unknown]
  classic := by
    rw [hfound.profile, profile_eq hvalid.runtimeProfile]
  productIdAt := by
    rw [scannedRecord_of_found hvalid hfound, ← productIdOffset_eq, hfound.productId]
  productVersionAt := by
    rw [scannedRecord_of_found hvalid hfound, ← productVersionOffset_eq, hfound.productVersion]

/-- The whole manifest, in the scanner's terms. -/
theorem recognizes_jsonManifest (expectedKeyId : List UInt8) (maxWasmBytes : Nat) :
    ∃ language, Recognizes (jsonManifest expectedKeyId maxWasmBytes) language ∧
      ∀ text manifest, language 0 text [] manifest ↔ ∃ names comma profile,
        ManifestRead maxWasmBytes names comma profile expectedKeyId manifest ∧
          text = (pieces (scannedRecord manifest names profile expectedKeyId) comma).flatten := by
  refine ⟨_, Recognizes.literal_bind
    (recognizes_number (digitsEnd_ascii (by decide) (by decide)) fun dataSchemaVersion =>
    recognizes_number (digitsEnd_ascii (by decide) (by decide)) fun guestAbiVersion =>
    recognizes_number (digitsEnd_ascii (by decide) (by decide)) fun eventQueueLimit =>
    recognizes_number (digitsEnd_ascii (by decide) (by decide)) fun hostCallTimeoutMs =>
    recognizes_number (digitsEnd_ascii (by decide) (by decide)) fun instructionBudget =>
    recognizes_number (digitsEnd_ascii (by decide) (by decide)) fun memoryLimitBytes =>
    recognizes_number (digitsEnd_ascii (by decide) (by decide)) fun stackLimitBytes =>
    recognizes_number (digitsEnd_ascii (by decide) (by decide)) fun storageLimitBytes =>
    recognizes_numberThen (digitsEnd_ascii (by decide) (by decide)) fun _ =>
    recognizes_payload expectedKeyId maxWasmBytes _), fun text manifest => ?_⟩
  constructor
  · rintro ⟨_, rfl, dataSchemaVersion, _, rfl, hdataSchema, -, guestAbiVersion, _, rfl, hguestAbi, -,
      eventQueueLimit, _, rfl, heventQueue, -, hostCallTimeoutMs, _, rfl, hhostCallTimeout, -,
      instructionBudget, _, rfl, hinstructionBudget, -, memoryLimitBytes, _, rfl, hmemory, -,
      stackLimitBytes, _, rfl, hstack, -, storageLimitBytes, _, rfl, -, -, format, _, rfl, -, hformat,
      digest, size, productId, productVersion, names, comma, profile, rfl, hsize, hproductId,
      hproductVersion, hnames, hsorted, hcomma, hcount, hprofile, hkeyId, rfl⟩
    obtain rfl := beq_iff_eq.mp hformat
    refine ⟨names, comma, profile, ⟨hdataSchema rfl, hguestAbi rfl, heventQueue rfl,
      hhostCallTimeout rfl, hinstructionBudget rfl, hmemory rfl, hstack rfl, hsize, hproductId,
      hproductVersion, hnames, hsorted, hcomma, hcount, hprofile, hkeyId, rfl, rfl, ?_, ?_⟩, ?_⟩
    · simp only [pieces, scannedRecord, ascii_spelling, List.take_succ_cons, List.take_zero,
        List.flatten_cons, List.flatten_nil, List.length_append, length_encoded, Nat.add_assoc,
        Nat.zero_add, UInt32.toNat_one]
    · simp only [pieces, scannedRecord, ascii_spelling, List.take_succ_cons, List.take_zero,
        List.flatten_cons, List.flatten_nil, List.length_append, length_encoded, Nat.add_assoc,
        Nat.zero_add, UInt32.toNat_one]
    · simp only [pieces, scannedRecord, ascii_spelling, map_ascii_spelling, List.flatten_cons,
        UInt32.toNat_one]
  · rintro ⟨names, comma, profile, hread, rfl⟩
    have hproductId := hread.productIdAt
    have hproductVersion := hread.productVersionAt
    simp only [pieces, scannedRecord, ascii_spelling, map_ascii_spelling, List.take_succ_cons,
      List.take_zero, List.flatten_cons, List.flatten_nil, List.length_append, length_encoded,
      Nat.add_assoc] at hproductId hproductVersion ⊢
    refine ⟨_, rfl, manifest.dataSchemaVersion, _, rfl, fun _ => hread.dataSchema, rfl,
      manifest.guestAbiVersion, _, rfl, fun _ => hread.guestAbi, rfl, manifest.eventQueueLimit, _, rfl,
      fun _ => hread.eventQueue, rfl, manifest.hostCallTimeoutMs, _, rfl,
      fun _ => hread.hostCallTimeout, rfl, manifest.instructionBudget, _, rfl,
      fun _ => hread.instructionBudget, rfl, manifest.memoryLimitBytes, _, rfl,
      fun _ => hread.memory, rfl, manifest.stackLimitBytes, _, rfl, fun _ => hread.stack, rfl,
      manifest.storageLimitBytes, _, rfl, by simp, rfl, 1, _, rfl, by decide, rfl,
      manifest.wasmSha256, manifest.wasmSizeBytes, manifest.productId.bytes,
      manifest.productVersion.bytes, names, comma, profile, rfl, hread.size, hread.productId,
      hread.productVersion, hread.spelled, hread.sorted, hread.separated, hread.few,
      hread.runtimeProfile, hread.signingKeyId, ?_⟩
    simp only [List.flatten_cons, List.flatten_nil, List.length_append, length_encoded, Nat.zero_add,
      Nat.add_assoc, UInt32.toNat_one, ← hread.capabilities, ← hread.classic]
    rw [← hproductId, ← hproductVersion]

/-- The scanner takes the texts of valid records, and reads the record. -/
theorem parseManifest_eq_some {data : List UInt8} {manifest : Manifest} :
    parseManifest data expectedKeyId maxWasmBytes = some manifest ↔
      ∃ (record : Tools.ManifestRecord) (comma : Bool), record.Valid ∧ record.MayHaveComma comma ∧
        data = encoded (record.spelled comma) ∧ ascii record.signingKeyId = expectedKeyId ∧
        record.payloadSizeBytes ≤ maxWasmBytes ∧ ManifestFound record manifest := by
  obtain ⟨language, hmanifest, hlanguage⟩ := recognizes_jsonManifest expectedKeyId maxWasmBytes
  rw [parseManifest_eq_some_iff hmanifest, hlanguage]
  constructor
  · rintro ⟨names, comma, profile, hread, rfl⟩
    refine ⟨scannedRecord manifest names profile expectedKeyId, comma, hread.valid,
      hread.mayHaveComma, ?_, ascii_spelling expectedKeyId, hread.size.2, hread.found⟩
    rw [encoded_spelled _ fun hcomma => ?_]
    exact fun hnone => hread.separated hcomma (List.map_eq_nil_iff.mp hnone)
  · rintro ⟨record, comma, hvalid, hcomma, rfl, rfl, hsize, hfound⟩
    refine ⟨record.requiredCapabilities.map ascii, comma, ascii record.runtimeProfile,
      manifestRead_of_found hvalid hcomma hsize hfound, ?_⟩
    rw [scannedRecord_of_found hvalid hfound, encoded_spelled]
    exact fun hlast => List.length_pos_iff.mp (hcomma hlast).1

/-! ## Slices -/

theorem slice_quotedName (before after : List UInt8) (name : List UInt8) :
    ((before ++ (quotedName name ++ after)).drop (before.length + 1)).take name.length = name := by
  rw [List.drop_append, List.drop_eq_nil_of_le (Nat.le_add_right _ _), List.nil_append,
    Nat.add_sub_cancel_left, quotedName, List.append_assoc, List.append_assoc]
  exact List.take_left

/-- The product id is in the manifest where the scanner says. -/
theorem slice_productId {record : Tools.ManifestRecord} {comma : Bool} {manifest : Manifest}
    (hcomma : record.MayHaveComma comma) (hfound : ManifestFound record manifest) :
    ((encoded (record.spelled comma)).drop manifest.productId.offsetBytes).take
      manifest.productId.bytes.length = ascii record.productId := by
  have hsplit : pieces record comma = (pieces record comma).take 37 ++
      quotedName (ascii record.productId) :: (pieces record comma).drop 38 := rfl
  rw [hfound.productId, encoded_spelled _ fun hlast => List.length_pos_iff.mp (hcomma hlast).1,
    productIdOffset_eq _ comma]
  conv_lhs => rw [hsplit, List.flatten_append, List.flatten_cons]
  exact slice_quotedName _ _ _

/-- And so is the product version. -/
theorem slice_productVersion {record : Tools.ManifestRecord} {comma : Bool} {manifest : Manifest}
    (hcomma : record.MayHaveComma comma) (hfound : ManifestFound record manifest) :
    ((encoded (record.spelled comma)).drop manifest.productVersion.offsetBytes).take
      manifest.productVersion.bytes.length = ascii record.productVersion := by
  have hsplit : pieces record comma = (pieces record comma).take 40 ++
      quotedName (ascii record.productVersion) :: (pieces record comma).drop 41 := rfl
  rw [hfound.productVersion, encoded_spelled _ fun hlast => List.length_pos_iff.mp (hcomma hlast).1,
    productVersionOffset_eq _ comma]
  conv_lhs => rw [hsplit, List.flatten_append, List.flatten_cons]
  exact slice_quotedName _ _ _

end Package
